import Mathlib.Data.Set.Insert
import CarSalePro.Orders.Tenure

namespace CarSalePro

open Store Interleave Prog OrderStatus

namespace World

/-- The offers of this order that are accepted. -/
def acceptedOffers (w : World) (o : OrderId) : Set OfferId :=
  {k | ∃ r, w.offers.get k = some r ∧ r.orderId = o ∧ r.status = .accepted}

/-- Which order an offer is about, and whom it was made to. -/
def offerTag (w : World) (k : OfferId) : Option (OrderId × UserId) :=
  (w.offers.get k).map fun r => (r.orderId, r.inspectorId)

/-- No offer has an id that is still to be given. -/
def offersFresh (w : World) : Prop := ∀ k, w.nextOffer ≤ k → w.offers.get k = none

end World

/-- Where a thread stands with the offers: `aside` of the answers to an offer, `managing` an
assignment by hand, or answering the offer made to it. An answer is over where it began. -/
inductive Seat where
  | aside
  | managing (order : OrderId) (inspector : UserId) (known : List OfferId)
  | asking (offer : OfferId) (inspector : UserId)
  | found (offer : OfferId) (inspector : UserId) (order : OrderId)
  | claimed (offer : OfferId) (inspector : UserId) (order : OrderId)
  | accepted (offer : OfferId) (inspector : UserId) (order : OrderId)
  | released (offer : OfferId) (inspector : UserId) (order : OrderId)
  | done (offer : OfferId) (inspector : UserId) (order : OrderId)

namespace Seat

/-- The offer the thread answers, and for whom. -/
def role : Seat → Option (OfferId × UserId)
  | aside | managing _ _ _ => none
  | asking k i | found k i _ | claimed k i _ | accepted k i _ | released k i _ | done k i _ =>
    some (k, i)

/-- The order the thread has in hand. -/
def on : Seat → Option OrderId
  | aside | asking _ _ | found _ _ _ => none
  | managing o _ _ | claimed _ _ o | accepted _ _ o | released _ _ o | done _ _ o => some o

/-- What the thread has read of the offers. -/
def Knows (w : World) : Seat → Prop
  | aside | asking _ _ => True
  | managing o _ ks => ∀ k ∈ ks, ∃ i, w.offerTag k = some (o, i)
  | found k i o | claimed k i o | accepted k i o | released k i o | done k i o =>
    w.offerTag k = some (o, i)

/-- What the thread has made true of the order it has in hand. -/
def Stands (w : World) : Seat → Prop
  | aside | asking _ _ | found _ _ _ => True
  | managing o i _ => w.claimant o = some i
  | claimed _ i o => w.claimant o = some i ∧ w.acceptedOffers o = ∅
  | accepted k i o | done k i o => w.claimant o = some i ∧ w.acceptedOffers o = {k}
  | released k _ o => w.acceptedOffers o = {k}

end Seat

/-- A statement on neither an offer nor a claim. -/
def Stmt.plain : Stmt → Bool
  | .offer _ | .sale _ _ _ _ | .order (.claim _ _ _) | .order (.releaseClaim _ _) => false
  | .order (.transition _ _ target _) => target ≠ assigned
  | _ => true

namespace World

variable {s : Stmt} {c : Fate} {w : World}

theorem offersFresh_exec (h : w.offersFresh) : (exec s c w).2.offersFresh := by
  by_cases ht : s.touchesOffers = false
  · intro k hk
    have hframe := frame_exec s c w
    rw [hframe.offers ht]
    rw [hframe.nextOffer ht] at hk
    exact h k hk
  rcases exec_cases s c w with ⟨call, rfl, _⟩ | ⟨_, _, he⟩ | ⟨_, _, he⟩
  · exact absurd rfl ht
  · rw [he]
    exact h
  have hkeep (hnext : (w.write s).2.nextOffer = w.nextOffer)
    (hne : ∀ offer, s ≠ .offer (.create offer)) :
      (w.write s).2.offersFresh := by
    intro k hk
    have hnone := h k (hnext ▸ hk)
    have heff := exec_offer s c w k
    rw [he, hnone] at heff
    generalize (w.write s).2.offers.get k = y at heff
    cases heff with
    | same => rfl
    | create _ offer stmt => exact absurd stmt (hne offer)
  rw [he]
  cases s with
  | offer u =>
    cases u with
    | create offer =>
      intro k hk
      have hnext : w.nextOffer < k := hk
      have hget : (w.write (.offer (.create offer))).2.offers.get k = w.offers.get k := by
        simp [write, writeOffer, Nat.ne_of_gt hnext]
      rw [hget]
      exact h k (Nat.le_of_lt hnext)
    | update id status =>
      apply hkeep _ fun _ h => by cases h
      simp only [write, writeOffer]
      cases w.offers.get id <;> rfl
    | updateMany filter status => exact hkeep rfl fun _ h => by cases h
  | sale order counter price at_ =>
    apply hkeep _ fun _ h => by cases h
    simp only [write, writeSale]
    cases w.orders.get order <;> rfl
  | _ => exact absurd rfl ht

end World

section Effects

variable {s : Stmt} {c : Fate} {w : World} {o : OrderId}

end Effects

section Bystanders

end Bystanders

section Flows

variable {α : Type} {ph ph' : Seat}

variable (k : OfferId) (i : UserId)

end Flows

end CarSalePro
