import CarSalePro.Laws.OneClaimer
import CarSalePro.Orders.OfferDiscipline

namespace CarSalePro

open Store Interleave OrderStatus

/-- The calls that answer offers. -/
def Op.answers : Op → Prop
  | .acceptOffer _ _ | .declineOffer _ _ | .expireStaleOffers | .adminAssign _ _ _ => True
  | _ => False

/-- Which threads moved which orders to `assigned`. -/
abbrev AssignLog := List (Nat × OrderId)

/-- A closed offer is one that was declined or has expired. -/
def OrderOffer.closed (r : OrderOffer) : Bool := r.status = .declined || r.status = .expired

section Moves

variable {ph ph' : Seat} {l : Label Site Stmt} {s : Stmt} {c : Fate} {w : World} {o : OrderId}

/-- The order is claimed by whom it was, and the same offers of it are accepted. -/
structure SameAnswers (o : OrderId) (w w' : World) : Prop where
  claimant : w'.claimant o = w.claimant o
  accepted : w'.acceptedOffers o = w.acceptedOffers o

theorem SameAnswers.refl (w : World) : SameAnswers o w w := ⟨rfl, rfl⟩

theorem Seat.Stands.same {w' : World} (h : ph.Stands w)
    (hs : ∀ o, ph.on = some o → SameAnswers o w w') : ph.Stands w' := by
  cases ph with
  | managing o i ks =>
    obtain ⟨hc, _⟩ := hs o rfl
    simpa only [Seat.Stands, hc] using h
  | claimed k i o | accepted k i o | released k i o | done k i o =>
    obtain ⟨hc, ha⟩ := hs o rfl
    simpa only [Seat.Stands, hc, ha] using h
  | _ => trivial

theorem Seat.Knows.mono {w' : World} (h : ph.Knows w)
    (ht : ∀ k x, w.offerTag k = some x → w'.offerTag k = some x) : ph.Knows w' := by
  cases ph with
  | managing o i ks =>
    intro k hk
    obtain ⟨j, hj⟩ := h k hk
    exact ⟨j, ht k _ hj⟩
  | found k i o | claimed k i o | accepted k i o | released k i o | done k i o => exact ht _ _ h
  | _ => trivial

end Moves

section Runs

variable {roles : Nat → Option (OfferId × UserId)} {Φ : Nat → Seat} {x : World × AssignLog}
  {ph : Seat} {l : Label Site Stmt} {c : Fate} {t : Nat}

end Runs

section Race

/-- Who assigned which order, and the status of the offer. -/
def answered (g : Run AssignLog) : AssignLog × Option OfferStatus :=
  (g.hist, (g.state.offers.get 1).map (·.status))

end Race

end CarSalePro
