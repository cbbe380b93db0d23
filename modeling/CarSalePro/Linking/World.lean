import CarSalePro.Interleave.Pool
import CarSalePro.Store.Table

namespace CarSalePro.Linking

open Store Interleave Prog

abbrev UserRef := Nat
abbrev ReportRef := Nat

/-- Milliseconds. -/
abbrev Time := Nat

/-- A value in Redis, with the moment from which it is gone. -/
structure Entry where
  value : String
  expiresAt : Time
  deriving DecidableEq, Repr

inductive LinkedVia where
  | code | admin
  deriving DecidableEq, Repr

structure DeviceLink where
  userId : UserRef
  linkedVia : LinkedVia
  deriving DecidableEq, Repr

structure Report where
  deviceId : String
  userId : Option UserRef
  deriving DecidableEq, Repr

/-- The codes in Redis, by key; the links, by device; and the reports. -/
structure World where
  codes : Table String Entry
  links : Table String DeviceLink
  reports : Table ReportRef Report
  now : Time

inductive Err where
  | http (status : Nat) (code : String) (message : String)
  deriving DecidableEq, Repr

/-- The writes, each one request to Redis or to the database. -/
inductive Stmt where
  | setWithTtl (key : String) (value : String) (ttlSeconds : Nat)
  | del (key : String)
  | upsertLink (device : String) (user : UserRef) (linkedVia : LinkedVia)
  | assignReports (device : String) (user : UserRef)

abbrev Stmt.Resp : Stmt → Type
  | .upsertLink _ _ _ => DeviceLink
  | _ => Unit

namespace World

/-- What Redis answers: the value, until it expires. -/
def get (w : World) (key : String) : Option String :=
  ((w.codes.get key).filter fun entry => w.now < entry.expiresAt).map (·.value)

def setWithTtl (w : World) (key value : String) (ttlSeconds : Nat) : World :=
  { w with codes := w.codes.set key ⟨value, w.now + ttlSeconds * 1000⟩ }

def del (w : World) (key : String) : World :=
  { w with codes := w.codes.deleteMany fun key' _ => key' = key }

/-- `deviceLink.upsert`: a link that is there is left as it is. -/
def upsertLink (w : World) (device : String) (user : UserRef) (linkedVia : LinkedVia) :
    DeviceLink × World :=
  match w.links.get device with
  | some link => (link, w)
  | none => (⟨user, linkedVia⟩, { w with links := w.links.set device ⟨user, linkedVia⟩ })

/-- `report.updateMany`: all reports of the device become the user's. -/
def assignReports (w : World) (device : String) (user : UserRef) : World := { w with
  reports := w.reports.rewrite fun _ row =>
    if row.deviceId = device then some { row with userId := some user } else none }

def exec (s : Stmt) (_ : Nat) (w : World) : Except Err s.Resp × World :=
  match s with
  | .setWithTtl key value ttlSeconds => (.ok (), w.setWithTtl key value ttlSeconds)
  | .del key => (.ok (), w.del key)
  | .upsertLink device user linkedVia =>
    (.ok (w.upsertLink device user linkedVia).1, (w.upsertLink device user linkedVia).2)
  | .assignReports device user => (.ok (), w.assignReports device user)

end World

/-- Where a program reads. -/
inductive Site where
  | clock | code (key : String) | link (device : String)
  deriving DecidableEq, Repr

/-- Between the steps, any time passes. -/
def machine : Machine Site Stmt Stmt.Resp World Err Nat where
  exec := World.exec
  fault _ _ := none
  env elapsed w := { w with now := w.now + elapsed }

abbrev Act (α : Type) := Prog Site Stmt Stmt.Resp World Err α

abbrev Run (γ : Type) := Pool Site Stmt Stmt.Resp World Err γ

/-- A condition on the steps. -/
abbrev StepGuard (γ : Type) := Guard Site Stmt World Nat γ

/-- No condition. -/
def anyStep {γ : Type} : StepGuard γ := fun _ _ _ _ => true

end CarSalePro.Linking
