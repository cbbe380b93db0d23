import CarSalePro.Laws.ClaimLeak
import CarSalePro.Laws.PaymentLedger
import CarSalePro.Orders.Sequence

namespace CarSalePro

open Store Interleave OrderStatus

/-- The hold of the intent is gone, or money was given back from it. -/
def Intent.returned (i : Intent) : Bool :=
  match i.status with
  | .canceled => true
  | .succeeded _ back => back ≠ 0
  | _ => false

/-- The payment is cancelled or refunded, in its row or at Stripe. -/
def World.gone (w : World) (k : PaymentId) (n : IntentId) : Bool :=
  (w.payments.get k).any (·.status.ended) || (w.provider.intents.get n).any Intent.returned

/-- An order in an open search, nobody's yet, with payment `k` authorized for it and intent `n`
holding the money. No other payment has this intent. -/
structure Searched (w : World) (o : OrderId) (k : PaymentId) (n : IntentId) : Prop where
  order : ∃ r, w.orders.get o = some r ∧ r.isOpen ∧ r.inspectorId = none
  payment : ∃ p, w.payments.get k = some p ∧ p.tag = (some o, some n) ∧ p.status = .authorized
  intent : ∃ x, w.provider.intents.get n = some x ∧ x.status = .requiresCapture
  own : ∀ k' p, w.payments.get k' = some p → p.stripePaymentIntentId = some n → k' = k

section Footprints

end Footprints

section Moves

variable {reg : Registry} {o : OrderId} {k : PaymentId} {n : IntentId} {ph ph' : Stance}
  {l : Label Site Stmt} {c : Fate} {w : World} {r r' : Order} {Φ : Nat → Stance} {t : Nat}

end Moves

section Runs

variable {reg : Registry} {o : OrderId} {k : PaymentId} {n : IntentId}

end Runs

section Race

theorem searched_searchWorld : Searched searchWorld 1 5 9 where
  order := ⟨paidOrder, rfl, rfl, rfl⟩
  payment := ⟨heldPayment, rfl, rfl, rfl⟩
  intent := ⟨⟨10000, .requiresCapture⟩, rfl, rfl⟩
  own k' p hp _ := by
    by_contra hk
    simp [searchWorld, World.empty, hk] at hp

end Race

end CarSalePro
