import CarSalePro.Interleave.Ends
import CarSalePro.Orders.CounterOffers
import CarSalePro.Orders.Effects

namespace CarSalePro

open Store Interleave Prog OrderStatus

/-- A step may meet any fate. -/
def anyFate : Label Site Stmt → Fate → World → Prop := fun _ _ _ => True

/-- The step is between the service and its database. -/
def atDatabase : Label Site Stmt → Prop
  | .call (.stripe _) | .ask .retrievePaymentIntent => False
  | _ => True

/-- The database is up, and Stripe answers as it may. -/
def databaseServes : Label Site Stmt → Fate → World → Prop := fun l c _ => atDatabase l → c ≠ .down

/-- Where a step that `ok` admits finds the database down, `F` holds. -/
def FailsOnly (ok : Label Site Stmt → Fate → World → Prop) (F : Prop) : Prop :=
  ∀ l c w, atDatabase l → ok l c w → c = .down → F

theorem failsOnly_any : FailsOnly anyFate True := fun _ _ _ _ _ _ => trivial

theorem failsOnly_up : FailsOnly databaseServes False := fun _ _ _ hl hok hc => hok hl hc

section Steps

variable {w : World} {α : Type} {ok : Label Site Stmt → Fate → World → Prop} {F : Prop}
  {Q : α → World → Prop} {X : Err → World → Prop} {s : Stmt}

/-- A read of the database in a known world, which may fail. -/
theorem read_spec {l : Site} {ρ : Type} {f : World → ρ} (hok : FailsOnly ok F)
    (hl : atDatabase (.ask l)) (hX : F → ∀ e, X e w) :
    Triple machine ok (· = w) (fetch l f : Act ρ) (fun r v => v = w ∧ r = f w) X := by
  refine Triple.fetch fun c v hv hc => ?_
  subst hv
  unfold Machine.answer
  rw [show machine.fault = World.fault from rfl]
  cases hfault : World.fault l c with
  | some e =>
    have hdown : c = .down := by
      cases l <;> cases c <;> first | rfl | exact hl.elim | cases hfault
    exact hX (hok _ _ _ hl hc hdown) e
  | none => exact ⟨rfl, rfl⟩

/-- A program that goes on from what it read. -/
theorem pinned_read {l : Site} {ρ : Type} {f : World → ρ} {k : ρ → Act α} (hok : FailsOnly ok F)
    (hl : atDatabase (.ask l)) (hX : F → ∀ e, X e w)
    (hk : Triple machine ok (· = w) (k (f w)) Q X) :
    Triple machine ok (· = w) (fetch l f >>= k) Q X :=
  Discipline.Flow.seq (read_spec hok hl hX) fun _ => Triple.fact fun hr => hr ▸ hk

/-- A statement of the database in a known world. -/
theorem served_spec (hok : FailsOnly ok False) (hs : s.touchesProvider = false) :
    Triple machine ok (· = w) (perform s) (fun n v => w.write s = (.ok n, v))
      fun e v => w.write s = (.error e, v) := by
  refine Triple.perform fun c v hv hc => ?_
  subst hv
  have hlabel : atDatabase (.call s) := by
    cases s with
    | stripe call => cases hs
    | _ => trivial
  rw [show machine.exec = World.exec from rfl]
  rcases World.exec_cases s c v with ⟨call, rfl, _⟩ | ⟨_, hdown, _⟩ | ⟨_, _, he⟩
  · cases hs
  · exact (hok _ _ _ hlabel hc hdown).elim
  · rw [he]
    cases hr : v.write s with
    | mk r u => cases r <;> rfl

/-- A statement that goes through. -/
theorem served_perform {n : Nat} {k : Nat → Act α} (hok : FailsOnly ok False)
    (hs : s.touchesProvider = false) (hn : (w.write s).1 = .ok n)
    (hk : Triple machine ok (· = (w.write s).2) (k n) Q X) :
    Triple machine ok (· = w) (perform s >>= k) Q X := by
  have hdone : Triple machine ok (· = w) (perform s)
      (fun m v => v = (w.write s).2 ∧ m = n) X := by
    refine (served_spec hok hs).weaken (fun _ h => h) (fun m v h => ?_) fun e v h => ?_
    · rw [h] at hn
      cases hn
      exact ⟨by rw [h], rfl⟩
    · rw [h] at hn
      cases hn
  exact hdone.seq fun m => Triple.fact fun hm => hm ▸ hk

/-- A statement that goes through, at the end. -/
theorem served_end {n : Nat} {Q : Unit → World → Prop} (hok : FailsOnly ok False)
    (hs : s.touchesProvider = false) (hn : (w.write s).1 = .ok n) (hQ : Q () (w.write s).2) :
    Triple machine ok (· = w) (issue s) Q X :=
  served_perform hok hs hn (Triple.pure fun _ h => h ▸ hQ)

theorem served_issue {n : Nat} {k : Unit → Act α} (hok : FailsOnly ok False)
    (hs : s.touchesProvider = false) (hn : (w.write s).1 = .ok n)
    (hk : Triple machine ok (· = (w.write s).2) (k ()) Q X) :
    Triple machine ok (· = w) (issue s >>= k) Q X := by
  have hdone : Triple machine ok (· = w) (issue s) (fun _ v => v = (w.write s).2) X :=
    served_end hok hs hn rfl
  exact hdone.seq fun _ => hk

/-- What one statement on the prices makes of the state. -/
theorem exec_prices (u : CounterOfferStmt) (c : Fate) (w : World) :
    (∃ e, World.exec (.counterOffer u) c w = (.error e, w) ∧
      (c = .down ∧ e = .database ∨ e = .unique ∧
        presentedConflict (w.counterOffers.rewrite fun k r => u.rewrite w.now k r) = true)) ∨
    World.exec (.counterOffer u) c w = (.ok (w.counterOffers.hits fun k r => u.rewrite w.now k r),
      { w with counterOffers := w.counterOffers.rewrite fun k r => u.rewrite w.now k r }) := by
  by_cases hc : c = .down
  · exact .inl ⟨.database, by simp [World.exec, hc], .inl ⟨hc, rfl⟩⟩
  · simp only [World.exec, hc, if_false, World.write, World.writeCounterOffer]
    split
    next hconflict => exact .inl ⟨.unique, rfl, .inr ⟨rfl, hconflict⟩⟩
    next => exact .inr rfl

/-- Two prices of one order are on its screen. -/
theorem presentedConflict_iff {t : Table CounterOfferId OrderCounterOffer} :
    presentedConflict t = true ↔ ∃ k c k' c', t.get k = some c ∧ t.get k' = some c' ∧ k' ≠ k ∧
      c.presented = true ∧ c'.presented = true ∧ c'.orderId = c.orderId := by
  unfold presentedConflict
  simp only [Table.any_eq_true, Bool.and_eq_true, decide_eq_true_eq]
  constructor
  · rintro ⟨k, c, hc, hp, k', c', hc', ⟨hne, hp'⟩, hid⟩
    exact ⟨k, c, k', c', hc, hc', hne, hp, hp', hid⟩
  · rintro ⟨k, c, k', c', hc, hc', hne, hp, hp', hid⟩
    exact ⟨k, c, hc, hp, k', c', hc', ⟨hne, hp'⟩, hid⟩

/-- To take prices off the screen makes no conflict. -/
theorem presentedConflict_rewrite {t : Table CounterOfferId OrderCounterOffer}
    {f : CounterOfferId → OrderCounterOffer → Option OrderCounterOffer}
    (hf : ∀ k c c', f k c = some c' →
      c'.orderId = c.orderId ∧ (c'.presented = true → c.presented = true))
    (h : presentedConflict (t.rewrite f) = true) : presentedConflict t = true := by
  have hback {k : CounterOfferId} {c' : OrderCounterOffer} (hc' : (t.rewrite f).get k = some c') :
      ∃ c, t.get k = some c ∧ c'.orderId = c.orderId ∧
        (c'.presented = true → c.presented = true) := by
    obtain ⟨c, hc, hget⟩ := Option.map_eq_some_iff.mp hc'
    refine ⟨c, hc, ?_⟩
    cases hfc : f k c with
    | none =>
      rw [hfc] at hget
      cases hget
      exact ⟨rfl, fun h => h⟩
    | some x =>
      rw [hfc] at hget
      cases hget
      exact hf k c _ hfc
  obtain ⟨k, c, k', c', hc, hc', hne, hp, hp', hid⟩ := presentedConflict_iff.mp h
  obtain ⟨x, hx, hxid, hxp⟩ := hback hc
  obtain ⟨x', hx', hxid', hxp'⟩ := hback hc'
  refine presentedConflict_iff.mpr ⟨k, x, k', x', hx, hx', hne, hxp hp, hxp' hp', ?_⟩
  rw [← hxid', hid, hxid]

/-- To take payments away from the live ones makes no conflict. -/
theorem activePaymentConflict_rewrite {t : Table PaymentId Payment}
    {f : PaymentId → Payment → Option Payment}
    (hf : ∀ k p p', f k p = some p' → p'.orderId = p.orderId ∧ (p'.live = true → p.live = true))
    (h : activePaymentConflict (t.rewrite f) = true) : activePaymentConflict t = true := by
  have hback {k : PaymentId} {p' : Payment} (hp' : (t.rewrite f).get k = some p') :
      ∃ p, t.get k = some p ∧ p'.orderId = p.orderId ∧ (p'.live = true → p.live = true) := by
    obtain ⟨p, hp, hget⟩ := Option.map_eq_some_iff.mp hp'
    refine ⟨p, hp, ?_⟩
    cases hfp : f k p with
    | none =>
      rw [hfp] at hget
      cases hget
      exact ⟨rfl, fun h => h⟩
    | some x =>
      rw [hfp] at hget
      cases hget
      exact hf k p _ hfp
  unfold activePaymentConflict at h ⊢
  simp only [Table.any_eq_true, Bool.and_eq_true, decide_eq_true_eq] at h ⊢
  obtain ⟨k, p, hp, ⟨hlive, horder⟩, k', p', hp', ⟨hne, hlive'⟩, hsame⟩ := h
  obtain ⟨x, hx, hxid, hxlive⟩ := hback hp
  obtain ⟨x', hx', hxid', hxlive'⟩ := hback hp'
  refine ⟨k, x, hx, ⟨hxlive hlive, ?_⟩, k', x', hx', ⟨hne, hxlive' hlive'⟩, ?_⟩
  · rw [← hxid]
    exact horder
  · rw [← hxid', hsame, hxid]

/-- Every statement keeps the unique index of the presented prices. -/
theorem index_exec {f : Fate} (h : presentedConflict w.counterOffers = false) :
    presentedConflict (World.exec s f w).2.counterOffers = false := by
  by_cases ht : s.touchesCounterOffers = false
  · rw [(World.frame_exec s f w).counterOffers ht]
    exact h
  rcases World.exec_cases s f w with ⟨call, rfl, _⟩ | ⟨_, _, he⟩ | ⟨_, _, he⟩
  · exact absurd rfl ht
  · rw [he]
    exact h
  · rw [he]
    cases s with
    | counterOffer u =>
      simp only [World.write, World.writeCounterOffer]
      split
      next => exact h
      next hclean => exact Bool.not_eq_true _ ▸ hclean
    | upsertCounterOffer order inspector terms =>
      rw [← Bool.not_eq_true]
      intro hconflict
      -- a row that was written or made is on no screen
      have hold {k : CounterOfferId} {x : OrderCounterOffer}
          (hx : (w.upsertCounterOffer order inspector terms).2.counterOffers.get k = some x)
          (hp : x.presented = true) : w.counterOffers.get k = some x := by
        rcases World.upsertCounterOffer_get hx with hx | ⟨y, _, rfl⟩ | ⟨_, rfl⟩
        · exact hx
        · cases hp
        · cases hp
      obtain ⟨k, x, k', x', hx, hx', hne, hp, hp', hid⟩ := presentedConflict_iff.mp hconflict
      have hbefore := presentedConflict_iff.mpr
        ⟨k, x, k', x', hold hx hp, hold hx' hp', hne, hp, hp', hid⟩
      rw [h] at hbefore
      cases hbefore
    | sale order counter price at_ =>
      rw [← Bool.not_eq_true]
      intro hconflict
      simp only [World.write, World.writeSale] at hconflict
      split at hconflict
      · rw [h] at hconflict
        cases hconflict
      · have hbefore := presentedConflict_rewrite (fun k x x' hx => ?_) hconflict
        · rw [h] at hbefore
          cases hbefore
        · split at hx
          · cases hx
            exact ⟨rfl, fun hp => by simp [OrderCounterOffer.presented] at hp⟩
          · cases hx
    | _ => exact absurd rfl ht

theorem exec_ok (hs : s.touchesProvider = false) : World.exec s .ok w = w.write s := by
  rcases World.exec_cases s .ok w with ⟨call, rfl, _⟩ | ⟨_, hdown, _⟩ | ⟨_, _, he⟩
  · cases hs
  · cases hdown
  · exact he

end Steps

end CarSalePro
