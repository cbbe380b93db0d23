import CarSalePro.Orders.Execution

namespace CarSalePro

open Interleave Prog OrderStatus

def orderNotFound {α : Type} : Act α := fail .notFound "not_found" "Order not found"

def forbidden {α : Type} (message : String) : Act α := fail .forbidden "forbidden" message

/-- The order row, or 404. -/
def requireOrderAt (site : Site) (id : OrderId) : Act Order := do
  match ← fetch site (·.orders.get id) with
  | some order => pure order
  | none => orderNotFound

def requireOrder (id : OrderId) : Act Order := requireOrderAt .requireOrder id

def writeEvent (id : OrderId) (actor : Actor) (type : EventType)
    (source target : Option OrderStatus) (payment : Option PaymentId) : Act Unit :=
  issue (.event ⟨id, actor, type, source, target, payment⟩)

/-- A line of the timeline that is no status change. -/
def note (id : OrderId) (actor : Actor) (type : EventType) : Act Unit :=
  writeEvent id actor type none none none

/-- The read of the admins to tell. The notifications themselves never throw. -/
def notifyAdmins : Act Unit := fetch .notifyAdmins fun _ => ()

def renderContractForOrder : Act Unit := fetch .renderContract fun _ => ()

/-- A batch element whose error is logged and counts for nothing. -/
def guarded (body : Act Bool) : Act Bool := Prog.tryCatch body fun _ => pure false

/-- What entry to `assigned` does besides the status: the deadline of the inspection and the
contract, both best-effort. -/
def enterAssigned (id : OrderId) : Act Unit := do
  quietly do
    let settings ← readSettings
    issue (.order (.setInspectionDeadline id settings.inspectionStartDeadlineDays))
  quietly renderContractForOrder

/-- Apply a status transition with an allowed-edge guard. The order is read, the edge checked,
and the row written without a guard on the status that was read. -/
def transition (id : OrderId) (target : OrderStatus) (actor : Actor) : Act Unit := do
  let order ← requireOrderAt .transition id
  if order.status = target then pure ()
  else if legal : canTransition order.status target then do
    issue (.order (.transition id order.status target legal))
    writeEvent id actor .statusChange (some order.status) (some target) none
    Prog.when (target = assigned) (enterAssigned id)
  else
    fail .conflict "illegal_transition"
      ("Cannot move order from " ++ order.status.wire ++ " to " ++ target.wire)

section Footprints

variable {A : Stmt → Prop}

@[simp] theorem only_readClock : readClock.Only A := only_fetch _ _

@[simp] theorem only_stripeConfigured : stripeConfigured.Only A := only_fetch _ _

@[simp] theorem only_readSettings : readSettings.Only A := only_fetch _ _

@[simp] theorem only_fail (status : HttpStatus) (code message : String) {α : Type} :
    (fail status code message : Act α).Only A := trivial

theorem only_guarded {body : Act Bool} (h : body.Only A) : (guarded body).Only A :=
  h.catch fun _ => only_pure _

theorem only_issue {s : Stmt} (h : A s) : (issue s).Only A :=
  Only.seq ((only_perform s).mpr h) fun _ => only_pure _

@[simp] theorem only_requireOrderAt (site : Site) (id : OrderId) :
    (requireOrderAt site id).Only A :=
  Only.seq (only_fetch _ _) fun order => by cases order <;> trivial

@[simp] theorem only_notifyAdmins : notifyAdmins.Only A := only_fetch _ _

@[simp] theorem only_renderContract : renderContractForOrder.Only A := only_fetch _ _

theorem only_writeEvent (id : OrderId) (actor : Actor) (type : EventType)
    (source target : Option OrderStatus) (payment : Option PaymentId)
    (h : ∀ e, A (.event e)) : (writeEvent id actor type source target payment).Only A :=
  only_issue (h _)

theorem only_note (id : OrderId) (actor : Actor) (type : EventType) (h : ∀ e, A (.event e)) :
    (note id actor type).Only A :=
  only_issue (h _)

theorem only_enterAssigned (id : OrderId)
    (h : ∀ n, A (.order (.setInspectionDeadline id n))) : (enterAssigned id).Only A :=
  Only.seq (Only.quietly (Only.seq only_readSettings fun _ => only_issue (h _)))
    fun _ => Only.quietly only_renderContract

theorem only_transition (id : OrderId) (target : OrderStatus) (actor : Actor)
    (hs : ∀ source legal, A (.order (.transition id source target legal)))
    (he : ∀ e, A (.event e)) (hd : ∀ n, A (.order (.setInspectionDeadline id n))) :
    (transition id target actor).Only A := by
  refine Only.seq (only_requireOrderAt _ _) fun order => ?_
  split
  next => exact only_pure _
  next =>
    split
    next legal =>
      refine Only.seq (only_issue (hs _ _)) fun _ => ?_
      refine Only.seq (only_writeEvent _ _ _ _ _ _ he) fun _ => ?_
      exact Only.when fun _ => only_enterAssigned id hd
    next => exact only_fail _ _ _

end Footprints

end CarSalePro
