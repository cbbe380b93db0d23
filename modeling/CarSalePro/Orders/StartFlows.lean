import CarSalePro.Orders.SearchStart

namespace CarSalePro

open Store Interleave Prog OrderStatus

/-- Where a thread stands with the start of an order's search: it has not looked at the order; it
works on something else; it found the order waiting to be started, and, further on, knows its
deadline is set; it started the search and owes it a dispatch; the order is started. A thread that
stepped where it should not have is lost. -/
inductive StartPhase where
  | fresh | aside | began | opened | owing | past | lost
  deriving DecidableEq

variable {o id : OrderId} {k : PaymentId} {n : IntentId} {α β : Type}

/-- The order has status `status`. -/
def World.statusIs (w : World) (o : OrderId) (status : OrderStatus) : Bool :=
  (w.orders.get o).any (·.status = status)

/-- Order `o` still looks for an inspector, and its money is held. -/
structure Searching (o : OrderId) (k : PaymentId) (n : IntentId) (w : World) : Prop where
  secured : Secured o k n w
  order : ∃ r, w.orders.get o = some r ∧ r.status ∈ preAssignmentStatuses

/-- What a thread relies on. -/
def StartPhase.Sees (o : OrderId) (k : PaymentId) (n : IntentId) : StartPhase → World → Prop
  | lost, _ => False
  | owing, w => Secured o k n w ∧ ∃ r, w.orders.get o = some r ∧ r.status = paid
  | _, w => Searching o k n w

/-- The steps of a thread that starts the search of order `o`, works beside it, or both. -/
inductive StartMove (o : OrderId) (n : IntentId) :
    StartPhase → Label Site Stmt → Fate → World → StartPhase → Prop where
  | look {ph : StartPhase} (l : Site) (c : Fate) (w : World) (free : ph ≠ .owing)
      (other : ph = .aside ∨ ph = .past ∨ (l ≠ .authorizeOrderPayment o ∧ l ≠ .reconcile))
      (ahead : ph = .opened → l = .transition → w.statusIs o paid = false) :
      StartMove o n ph (.ask l) c w ph
  | late (c : Fate) (w : World) (behind : w.statusIs o paid) :
      StartMove o n .opened (.ask .transition) c w .lost
  | found {ph : StartPhase} (c : Fate) (w : World) (r : Order) (free : ph = .fresh ∨ ph = .aside)
      (row : w.orders.get o = some r) (waiting : r.status = created) :
      StartMove o n ph (.ask (.authorizeOrderPayment o)) c w
        (if r.searchExpiresAt = none then .began else .opened)
  | missed {ph : StartPhase} (c : Fate) (w : World) (r : Order)
      (free : ph = .fresh ∨ ph = .aside) (row : w.orders.get o = some r)
      (started : r.status ≠ created) :
      StartMove o n ph (.ask (.authorizeOrderPayment o)) c w .past
  | next {ph : StartPhase} (c : Fate) (w : World) (free : ph ≠ .owing) :
      StartMove o n ph (.ask .reconcile) c w .aside
  | beside {ph : StartPhase} (s : Stmt) (c : Fate) (w : World) (free : ph ≠ .owing)
      (stmt : s.beside o n) : StartMove o n ph (.call s) c w ph
  | window (at_ : Time) (c : Fate) (w : World) :
      StartMove o n .began (.call (.order (.setSearchExpiresAt o at_))) c w
        (if c = .down then .began else .opened)
  | pay (legal : canTransition created paid) (c : Fate) (w : World) :
      StartMove o n .opened (.call (.order (.transition o created paid legal))) c w
        (if c = .down then .opened else .owing)
  | owes (l : Site) (c : Fate) (w : World) (up : upheld (.ask l) c w) :
      StartMove o n .owing (.ask l) c w .owing
  | tells (e : OrderEvent) (c : Fate) (w : World) (up : c ≠ .down) :
      StartMove o n .owing (.call (.event e)) c w .owing
  | offers (made : OrderOffer) (c : Fate) (w : World) (up : c ≠ .down) (row : made.orderId = o)
      (pending : made.status = .pending) :
      StartMove o n .owing (.call (.offer (.create made))) c w .past
  | unassigns (legal : canTransition paid unassigned) (c : Fate) (w : World) (up : c ≠ .down) :
      StartMove o n .owing (.call (.order (.transition o paid unassigned legal))) c w .past
  | dropped (l : Label Site Stmt) (c : Fate) (w : World) (down : ¬ upheld l c w) :
      StartMove o n .owing l c w .lost

def starting (o : OrderId) (k : PaymentId) (n : IntentId) :
    Discipline Site Stmt World Fate StartPhase where
  view := StartPhase.Sees o k n
  moves := StartMove o n

/-- From the phases of `A` the method follows the discipline into those of `B`. An error it ends
with leaves no dispatch owed. -/
abbrev Starts (o : OrderId) (k : PaymentId) (n : IntentId) (A : StartPhase → Prop) (p : Act α)
    (B : α → StartPhase → Prop) : Prop :=
  (starting o k n).Flow machine (fun x => x = .lost ∨ A x) p (fun a x => x = .lost ∨ B a x)
    fun _ x => x ≠ .owing

section Rules

variable {A A' : StartPhase → Prop} {B B' : α → StartPhase → Prop} {p : Act α}

theorem Starts.weaken (h : Starts o k n A p B) (hA : ∀ x, A' x → A x)
    (hB : ∀ a x, B a x → B' a x) : Starts o k n A' p B' :=
  Discipline.Flow.weaken h (fun _ hx => hx.imp_right (hA _)) (fun _ _ hx => hx.imp_right (hB _ _))
    fun _ _ hx => hx

end Rules

section Start

variable {w : World}

theorem Secured.unlocked (h : Secured o k n w) : (w.counterOffers.any fun _ c =>
    c.orderId = o && c.status = .accepting && c.acceptingUntil.any (w.now < ·)) = false := by
  refine Table.any_eq_false.mpr fun j x hx => ?_
  simp [h.quiet j x hx]

end Start

section Runs

/-- A method of a thread that owes nothing, before and after. -/
abbrev Clear (o : OrderId) (k : PaymentId) (n : IntentId) (p : Act α) : Prop :=
  (starting o k n).Flow machine (· ≠ .owing) p (fun _ => (· ≠ .owing)) fun _ => (· ≠ .owing)

end Runs

end CarSalePro
