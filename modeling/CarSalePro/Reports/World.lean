import CarSalePro.Interleave.Within
import CarSalePro.Orders.Operations
import CarSalePro.Quota.Reports
import CarSalePro.Reports.Completeness

namespace CarSalePro.Reports

open Store Interleave Quota

/-- The columns an order and a report tell their car by. -/
structure Vehicle where
  vin : Option String
  make : Option String
  model : Option String
  deriving DecidableEq, Repr

structure Report where
  deviceId : DeviceId
  code : String
  tier : Tier
  s3Key : String
  orderId : Option OrderId
  userId : Option UserId
  vehicle : Vehicle
  qualityScore : Option Int
  reportData : Option Json
  uploaded : Bool
  createdAt : Time
  deletedAt : Option Time

inductive Err where
  /-- An error of the order services. -/
  | market (e : CarSalePro.Err)
  | http (status : Nat) (error : Option String) (message : String)
  /-- A refusal of the completeness gate, with what is missing and the angles asked for. -/
  | gate (code message : String) (missing : Option (CompletenessMissing × Nat))
      (qualityScore : Option Int) (minQualityScore : ℚ)
  | unique (target : UniqueIndex)
  | recordNotFound
  | database
  | storage
  deriving DecidableEq, Repr

/-- The orders with all that belongs to them, the reports, and the device side. -/
structure World where
  market : CarSalePro.World
  /-- The vehicle columns of an order, which no operation writes. -/
  vehicles : OrderId → Vehicle
  reports : Table ReportId Report
  deviceLinks : Table DeviceId UserId
  quotas : Table DeviceId DeviceQuota
  defaultLimit : Int
  enforceFreeLimit : Bool
  r2Configured : Bool
  minReportQualityScore : Time → ℚ
  /-- `toUpperCase` of the runtime. -/
  upperCase : String → String

/-- A finished installation without reports. -/
def World.start (market : CarSalePro.World) (deviceLinks : Table DeviceId UserId) : World where
  market := market
  vehicles _ := ⟨none, none, none⟩
  reports := .empty
  deviceLinks := deviceLinks
  quotas := .empty
  defaultLimit := 3
  enforceFreeLimit := false
  r2Configured := true
  minReportQualityScore _ := 85
  upperCase := String.toUpper

/-- What an edit of a report writes; the payload is kept when none is sent. -/
structure ReportPatch where
  vehicle : Vehicle
  qualityScore : Option Int
  reportData : Option Json
  awaitsUpload : Bool

def ReportPatch.apply (patch : ReportPatch) (r : Report) : Report := { r with
  vehicle := patch.vehicle
  qualityScore := patch.qualityScore
  reportData := patch.reportData <|> r.reportData
  uploaded := r.uploaded && !patch.awaitsUpload }

/-- One atomic statement: of the order services, or against the device side's tables. -/
inductive Stmt where
  | market (s : CarSalePro.Stmt)
  | incrementFree (device : DeviceId)
  | rollbackQuota (device : DeviceId)
  | createReport (row : Report)
  | setS3Key (report : ReportId) (key : String)
  | patchReport (report : ReportId) (patch : ReportPatch)
  | linkReport (report : ReportId) (order : OrderId) (user : UserId)
  | softDelete (report : ReportId)

def Stmt.Resp : Stmt → Type
  | market _ => Nat
  | createReport _ => ReportId
  | incrementFree _ => DeviceQuota
  | patchReport _ _ => Report
  | _ => Unit

namespace World

/-- A device seen for the first time has used nothing. -/
def quota (w : World) (device : DeviceId) : DeviceQuota :=
  (w.quotas.get device).getD ⟨0, w.defaultLimit, false, none, none⟩

/-- A unique index the new row would break. -/
def conflict (w : World) (row : Report) : Option UniqueIndex :=
  if row.orderId.isSome && w.reports.any fun _ r => r.orderId = row.orderId then some .orderId
  else if isIndexedCode row.code && w.reports.any fun _ r => r.code = row.code && r.deletedAt.isNone
    then some .code
  else none

def now (w : World) : Time := w.market.now

/-- An update of one report, by id. -/
def updateReport (w : World) (report : ReportId) (f : Report → Report) :
    Except Err Report × World :=
  match w.reports.get report with
  | none => (.error .recordNotFound, w)
  | some r => (.ok (f r), { w with reports := w.reports.set report (f r) })

/-- The effect of a statement of the device side that goes through. -/
def write (w : World) : (s : Stmt) → Except Err s.Resp × World
  | .market s =>
    let r := CarSalePro.World.exec s .ok w.market
    (r.1.mapError .market, { w with market := r.2 })
  | .incrementFree device =>
    let quota := { w.quota device with freeReportsUsed := (w.quota device).freeReportsUsed + 1 }
    (.ok quota, { w with quotas := w.quotas.set device quota })
  | .rollbackQuota device =>
    match w.quotas.get device with
    | none => (.error .recordNotFound, w)
    | some quota =>
      let quota := { quota with freeReportsUsed := quota.freeReportsUsed - 1 }
      (.ok (), { w with quotas := w.quotas.set device quota })
  | .createReport row =>
    match w.conflict row with
    | some index => (.error (.unique index), w)
    | none =>
      (.ok w.reports.fresh,
        { w with reports := w.reports.set w.reports.fresh { row with createdAt := w.now } })
  | .setS3Key report key =>
    let r := w.updateReport report fun r => { r with s3Key := key }
    (r.1.map fun _ => (), r.2)
  | .patchReport report patch => w.updateReport report patch.apply
  | .linkReport report order user =>
    if w.reports.any fun k r => k ≠ report && r.orderId = some order then
      (.error (.unique .orderId), w)
    else
      let r := w.updateReport report fun r => { r with orderId := some order, userId := some user }
      (r.1.map fun _ => (), r.2)
  | .softDelete report =>
    let r := w.updateReport report fun r => { r with deletedAt := some w.now }
    (r.1.map fun _ => (), r.2)

/-- A statement fails when the database is down; those of the order services as these say. -/
def exec (s : Stmt) (c : Fate) (w : World) : Except Err s.Resp × World :=
  match s with
  | .market s =>
    let r := CarSalePro.World.exec s c w.market
    (r.1.mapError .market, { w with market := r.2 })
  | s => if c = .down then (.error .database, w) else w.write s

end World

/-- Where a program reads: the method the read is made in. -/
inductive Site where
  | market (l : CarSalePro.Site)
  | assertOrderSubmitter | submitterLink | assertReportComplete | findExisting | consumeQuota
  | storage | presign | requireOwned | deleteStored | deletePhotos
  | orderReport | reportByCode | deviceLink
  deriving DecidableEq, Repr

/-- Whether the storage is configured is known without a request. -/
def World.fault : Site → Fate → Option Err
  | .market l, c => (CarSalePro.World.fault l c).map .market
  | .storage, _ => none
  | .presign, .down | .deleteStored, .down => some .storage
  | _, .down => some .database
  | _, _ => none

def World.tick (c : Fate) (w : World) : World := { w with market := w.market.tick c }

def machine : Machine Site Stmt Stmt.Resp World Err Fate where
  exec := World.exec
  fault := World.fault
  env := World.tick

abbrev Act (α : Type) := Prog Site Stmt Stmt.Resp World Err α

abbrev Run (γ : Type) := Pool Site Stmt Stmt.Resp World Err γ

/-- A condition on the steps. -/
abbrev StepGuard (γ : Type) := Guard Site Stmt World Fate γ

/-- No condition. -/
def anyStep {γ : Type} : StepGuard γ := fun _ _ _ _ => true

/-- The order services among the rest. Their own steps fail with their own errors only. -/
def market : Place CarSalePro.Site CarSalePro.Stmt CarSalePro.Stmt.Resp CarSalePro.World
    CarSalePro.Err Site Stmt Stmt.Resp World Err where
  view := World.market
  site := .market
  stmt := .market
  answer _ n := n
  up := .market
  down
    | .market e => e
    | _ => .database

/-- A method of the order services. -/
def inMarket {α : Type} (p : CarSalePro.Act α) : Act α := p.within market

theorem market_runs : market.Runs CarSalePro.machine machine fun w => w.reports where
  exec_view _ _ _ := rfl
  exec_rest _ _ _ := rfl
  exec_answer s c w := by
    show ((((CarSalePro.World.exec s c w.market).1.mapError Err.market).mapError market.down).map
      id) = (CarSalePro.World.exec s c w.market).1
    cases (CarSalePro.World.exec s c w.market).1 <;> rfl
  fault l c := by
    show ((CarSalePro.World.fault l c).map Err.market).map market.down = CarSalePro.World.fault l c
    cases CarSalePro.World.fault l c <;> rfl

end CarSalePro.Reports
