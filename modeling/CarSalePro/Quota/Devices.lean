import CarSalePro.Interleave.Discipline
import CarSalePro.Store.Table

namespace CarSalePro.Quota

open Store Interleave

inductive IapPlatform where
  | ios | android
  deriving DecidableEq, Repr

inductive Tier where
  | free | pro
  deriving DecidableEq, Repr

abbrev DeviceId := String
abbrev ReportId := Nat
abbrev OrderRef := Nat
abbrev UserRef := Nat

structure DeviceQuota where
  freeReportsUsed : Int
  freeReportsLimit : Int
  isPro : Bool
  proActivatedAt : Option Nat
  proPlatform : Option IapPlatform
  deriving DecidableEq, Repr

/-- The unique key of a row that gives a device the benefit of a purchase. -/
structure IapGrant where
  platform : IapPlatform
  storeTransactionId : String
  deviceId : DeviceId
  deriving DecidableEq, Repr

structure Report where
  deviceId : DeviceId
  code : String
  tier : Tier
  s3Key : String
  orderId : Option OrderRef
  uploaded : Bool
  deletedAt : Option Nat
  deriving DecidableEq, Repr

inductive UniqueIndex where
  | orderId | code | grant
  deriving DecidableEq, Repr

/-- What the database refuses a statement with. -/
inductive DbError where
  | unique (target : UniqueIndex)
  | recordNotFound
  | serialization
  | connection
  deriving DecidableEq, Repr

inductive Err where
  | http (status : Nat) (error : Option String) (message : String)
  | db (e : DbError)
  | storage
  deriving DecidableEq, Repr

/-- What the device asks to file, with the validator's objection to the structured payload, which is
a matter of the payload alone. -/
structure CreateReportDto where
  code : String
  orderId : Option OrderRef
  objection : Option Err
  deriving DecidableEq, Repr

/-- The state of the device side: the quota counters, the grants of purchases, the reports, what
orders and device links say, and the configuration. -/
structure World where
  quotas : Table DeviceId DeviceQuota
  grants : Table IapGrant Unit
  reports : Table ReportId Report
  orders : Table OrderRef (Option UserRef)
  deviceLinks : Table DeviceId UserRef
  now : Nat
  defaultLimit : Int
  enforceFreeLimit : Bool
  r2Configured : Bool
  /-- What the completeness gate of an order's report objects to. -/
  incomplete : CreateReportDto → Option Err

/-- A device seen for the first time. -/
def World.newQuota (w : World) : DeviceQuota := ⟨0, w.defaultLimit, false, none, none⟩

/-- The quota of a device, made up if there is none. -/
def World.quota (w : World) (device : DeviceId) : DeviceQuota :=
  (w.quotas.get device).getD w.newQuota

/-- `/^CSP-[0-9a-f]{8}-[0-9a-f]{4}-…$/i` with the version and variant digits of a UUID v4. -/
def isUuidCode (code : String) : Bool :=
  let hex (c : Char) : Bool := c.isDigit || ('a' ≤ c.toLower && c.toLower ≤ 'f')
  let group (n : Nat) (cs : List Char) : Bool := cs.length = n && cs.all hex
  match code.toList.splitOn '-' with
  | [csp, a, b, c, d, e] =>
    csp.map Char.toLower = ['c', 's', 'p'] && group 8 a && group 4 b && group 4 c &&
      c.head? = some '4' && group 4 d &&
      d.head?.any (fun x => x.toLower ∈ ['8', '9', 'a', 'b']) && group 12 e
  | _ => false

/-- `report_code_uuid_unique`, which has no condition on the version and variant digits. -/
def isIndexedCode (code : String) : Bool :=
  let hex (c : Char) : Bool := c.isDigit || ('a' ≤ c.toLower && c.toLower ≤ 'f')
  let group (n : Nat) (cs : List Char) : Bool := cs.length = n && cs.all hex
  match code.toList.splitOn '-' with
  | [csp, a, b, c, d, e] =>
    csp.map Char.toLower = ['c', 's', 'p'] && group 8 a && group 4 b && group 4 c && group 4 d &&
      group 12 e
  | _ => false

/-- How many devices one store purchase may unlock. -/
def iapMaxDevicesPerPurchase : Nat := 5

section Grant

/-- A statement inside the transaction of `grantPro`. -/
inductive GrantStmt where
  | create (grant : IapGrant)
  | markPro (device : DeviceId) (platform : IapPlatform)

def GrantStmt.Resp : GrantStmt → Type
  | create _ => Unit
  | markPro _ _ => DeviceQuota

/-- `deviceQuota.upsert` of a device that becomes PRO. -/
def World.markPro (w : World) (device : DeviceId) (platform : IapPlatform) : DeviceQuota × World :=
  let quota := { w.quota device with
    isPro := true, proActivatedAt := some w.now, proPlatform := some platform }
  (quota, { w with quotas := w.quotas.set device quota })

def grantMachine : Machine Unit GrantStmt GrantStmt.Resp World Err Unit where
  exec s _ w :=
    match s with
    | .create grant =>
      if (w.grants.get grant).isSome then (.error (.db (.unique .grant)), w)
      else (.ok (), { w with grants := w.grants.set grant () })
    | .markPro device platform => (.ok (w.markPro device platform).1, (w.markPro device platform).2)
  fault _ _ := none
  env _ w := w

abbrev GrantTx (α : Type) := Prog Unit GrantStmt GrantStmt.Resp World Err α

def createGrant (grant : IapGrant) : GrantTx Unit := Prog.perform (GrantStmt.create grant)

def markProInside (device : DeviceId) (platform : IapPlatform) : GrantTx DeviceQuota :=
  Prog.perform (GrantStmt.markPro device platform)

/-- The rows of a purchase. -/
def World.holders (w : World) (platform : IapPlatform) (purchase : String) :
    List (IapGrant × Unit) :=
  w.grants.findMany fun grant _ => grant.platform = platform && grant.storeTransactionId = purchase

def iapDeviceLimit : Err :=
  .http 409 (some "IapDeviceLimit") ("This purchase is already used on " ++
    toString iapMaxDevicesPerPurchase ++ " devices.")

/-- The body of the transaction: the device's own row, or a new one while there is room. -/
def grantTransaction (device : DeviceId) (platform : IapPlatform) (purchase : String) :
    GrantTx DeviceQuota := do
  let grant : IapGrant := ⟨platform, purchase, device⟩
  let own ← Prog.fetch () (·.grants.get grant)
  if own.isNone then
    let holders ← Prog.fetch () fun w => (w.holders platform purchase).length
    if iapMaxDevicesPerPurchase ≤ holders then throw iapDeviceLimit
    else
      createGrant grant
      markProInside device platform
  else markProInside device platform

/-- The whole transaction, serialised where the database commits it. -/
def World.grant (w : World) (grant : IapGrant) : Except Err DeviceQuota × World :=
  (grantTransaction grant.deviceId grant.platform grant.storeTransactionId).transact grantMachine ()
    w

end Grant

/-- One atomic statement against the device side's database: of the `consumeQuota` transaction the
row it writes at its commit, of the serialisable one the whole. -/
inductive Stmt where
  | grant (grant : IapGrant)
  | markPro (device : DeviceId) (platform : IapPlatform)
  | incrementFree (device : DeviceId)
  | rollbackQuota (device : DeviceId)
  | createReport (row : Report)
  | setS3Key (report : ReportId) (key : String)
  | refreshReport (report : ReportId)

def Stmt.Resp : Stmt → Type
  | grant _ | markPro _ _ | incrementFree _ => DeviceQuota
  | rollbackQuota _ | setS3Key _ _ | refreshReport _ => Unit
  | createReport _ => ReportId

/-- What becomes of a step: it goes through, or the database or the storage refuses it. -/
inductive Fate where
  | ok
  | fails (e : DbError)
  deriving DecidableEq, Repr

/-- A unique index the new row would break. -/
def World.conflict (w : World) (row : Report) : Option UniqueIndex :=
  if row.orderId.isSome && w.reports.any fun _ r => r.orderId = row.orderId then some .orderId
  else if isIndexedCode row.code && w.reports.any fun _ r => r.code = row.code && r.deletedAt.isNone
    then some .code
  else none

def World.write (w : World) : (s : Stmt) → Except Err s.Resp × World
  | .grant grant => w.grant grant
  | .markPro device platform => (.ok (w.markPro device platform).1, (w.markPro device platform).2)
  | .incrementFree device =>
    let quota := { w.quota device with freeReportsUsed := (w.quota device).freeReportsUsed + 1 }
    (.ok quota, { w with quotas := w.quotas.set device quota })
  | .rollbackQuota device =>
    match w.quotas.get device with
    | none => (.error (.db .recordNotFound), w)
    | some quota =>
      let quota := { quota with freeReportsUsed := quota.freeReportsUsed - 1 }
      (.ok (), { w with quotas := w.quotas.set device quota })
  | .createReport row =>
    match w.conflict row with
    | some index => (.error (.db (.unique index)), w)
    | none => (.ok w.reports.fresh, { w with reports := w.reports.set w.reports.fresh row })
  | .setS3Key report key =>
    match w.reports.get report with
    | none => (.error (.db .recordNotFound), w)
    | some r => (.ok (), { w with reports := w.reports.set report { r with s3Key := key } })
  | .refreshReport report =>
    match w.reports.get report with
    | none => (.error (.db .recordNotFound), w)
    | some r => (.ok (), { w with reports := w.reports.set report { r with uploaded := false } })

def World.exec (s : Stmt) (c : Fate) (w : World) : Except Err s.Resp × World :=
  match c with
  | .ok => w.write s
  | .fails e => (.error (.db e), w)

/-- Where a program reads: the method the read is made in. -/
inductive Site where
  | assertOrderSubmitter | assertReportComplete | findExisting | consumeQuota | storage | presign
  deriving DecidableEq, Repr

/-- Whether the storage is configured is known without a request. -/
def World.fault (site : Site) : Fate → Option Err
  | .ok => none
  | .fails e =>
    match site with
    | .storage => none
    | .presign => some .storage
    | _ => some (.db e)

def machine : Machine Site Stmt Stmt.Resp World Err Fate where
  exec := World.exec
  fault := World.fault
  env _ w := w

abbrev Act (α : Type) := Prog Site Stmt Stmt.Resp World Err α

abbrev Run (γ : Type) := Pool Site Stmt Stmt.Resp World Err γ

end CarSalePro.Quota
