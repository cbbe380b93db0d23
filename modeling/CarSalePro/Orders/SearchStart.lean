import CarSalePro.Orders.Desk
import CarSalePro.Orders.OfferDiscipline

namespace CarSalePro

open Store Interleave Prog OrderStatus

/-- The money of order `o` is held: payment `k` is its only one, its intent `n` is nobody else's
and waits to be captured, and no counter-offer is made on the order. -/
structure Secured (o : OrderId) (k : PaymentId) (n : IntentId) (w : World) : Prop where
  payment : ∃ p, w.payments.get k = some p ∧ p.tag = (some o, some n) ∧ p.purpose = .order
  only : ∀ k' p, w.payments.get k' = some p → p.orderId = some o → k' = k
  own : ∀ k' p, w.payments.get k' = some p → p.stripePaymentIntentId = some n → k' = k
  hold : ∃ x, w.provider.intents.get n = some x ∧ x.status = .requiresCapture
  quiet : ∀ j x, w.counterOffers.get j = some x → x.orderId ≠ o

/-- The intent a request to Stripe would change. -/
def StripeCall.intent? : StripeCall → Option IntentId
  | capture intent _ _ | cancel intent _ | createRefund intent _ _ _ => some intent
  | createTransfer _ _ | createIntent _ _ => none

/-- The statement leaves the hold of intent `n` alone, and opens neither payments nor prices. -/
def Stmt.sparesHold (n : IntentId) : Stmt → Prop
  | .stripe request => request.intent? ≠ some n
  | .payment (.attachIntent _ _) | .createPayment _ _ _ => False
  | .counterOffer _ | .upsertCounterOffer _ _ _ | .sale _ _ _ _ => False
  | _ => True

/-- The statement is about other orders than `o`, and leaves the hold of intent `n` alone. -/
def Stmt.beside (o : OrderId) (n : IntentId) (s : Stmt) : Prop :=
  s.sparesHold n ∧ match s with
    | .order u => u.order ≠ o
    | .offer (.create made) => made.orderId ≠ o
    | .offer _ => False
    | _ => True

/-- An inspector has the order on offer. -/
def World.offered (w : World) (o : OrderId) : Bool :=
  w.offers.any fun _ x => x.orderId = o && x.status = .pending

section Effects

variable {o : OrderId} {k : PaymentId} {n : IntentId} {s : Stmt} {c : Fate} {w : World}

theorem PaymentStmt.rewrite_purpose {u : PaymentStmt} {now : Time} {k : PaymentId} {p p' : Payment}
    (h : u.rewrite now k p = some p') : p'.purpose = p.purpose := by
  cases u with
  | supersede id released =>
    simp only [rewrite] at h
    split at h
    · cases h
      split <;> rfl
    · cases h
  | _ =>
    simp only [rewrite] at h
    split at h
    · cases h
      rfl
    · cases h

theorem Stmt.sparesHold_opens (h : s.sparesHold n) : s.opensPayment = false := by
  cases s with
  | payment u =>
    cases u with
    | attachIntent id intent => exact h.elim
    | _ => rfl
  | createPayment order purpose amountCents => exact h.elim
  | _ => rfl

theorem Stmt.sparesHold_counterOffers (h : s.sparesHold n) : s.touchesCounterOffers = false := by
  cases s with
  | counterOffer u => exact h.elim
  | upsertCounterOffer order inspector terms => exact h.elim
  | sale order counter price at_ => exact h.elim
  | _ => rfl

/-- An intent no request is about stays as it is. -/
theorem intent_spared (hs : s.sparesHold n) {x : Intent}
    (hx : w.provider.intents.get n = some x) :
    (World.exec s c w).2.provider.intents.get n = some x := by
  obtain ⟨x', hx', rfl | ⟨call, rfl, heff⟩⟩ := World.exec_intent (s := s) (c := c) hx
  · exact hx'
  have hcall : call.intent? ≠ some n := hs
  cases heff with
  | same => exact hx'
  | capture payment amountCents stmt held fits => exact absurd (by rw [stmt]; rfl) hcall
  | cancel payment stmt open_ => exact absurd (by rw [stmt]; rfl) hcall
  | refund amountCents order reason captured refunded stmt taken =>
    exact absurd (by rw [stmt]; rfl) hcall

theorem secured_exec (hs : s.sparesHold n) (h : Secured o k n w) :
    Secured o k n (World.exec s c w).2 where
  payment := by
    obtain ⟨p, hp, htag, hpurpose⟩ := h.payment
    obtain ⟨p', hp', heff⟩ := World.exec_payment (s := s) (c := c) hp
    refine ⟨p', hp', ?_⟩
    rcases heff with rfl | ⟨u, rfl, hr⟩
    · exact ⟨htag, hpurpose⟩
    · have hkept := PaymentStmt.rewrite_tag (Stmt.sparesHold_opens hs) hr
      exact ⟨hkept.trans htag, (PaymentStmt.rewrite_purpose hr).trans hpurpose⟩
  only k' p' hp' ho := by
    obtain ⟨p, hp, htag, _⟩ := payment_back (Stmt.sparesHold_opens hs) hp'
    have horder : p'.orderId = p.orderId := congrArg Prod.fst htag
    exact h.only k' p hp (horder ▸ ho)
  own k' p' hp' hi := by
    obtain ⟨p, hp, htag, _⟩ := payment_back (Stmt.sparesHold_opens hs) hp'
    have hintent : p'.stripePaymentIntentId = p.stripePaymentIntentId := congrArg Prod.snd htag
    exact h.own k' p hp (hintent ▸ hi)
  hold := by
    obtain ⟨x, hx, hst⟩ := h.hold
    exact ⟨x, intent_spared hs hx, hst⟩
  quiet := by
    rw [(World.frame_exec s c w).counterOffers (Stmt.sparesHold_counterOffers hs)]
    exact h.quiet

theorem secured_tick (h : Secured o k n w) : Secured o k n (World.tick c w) := by
  obtain ⟨now, he⟩ := World.tick_eq c w
  rw [he]
  exact ⟨h.payment, h.only, h.own, h.hold, h.quiet⟩

theorem Secured.row (h : Secured o k n w) {k' : PaymentId} {p : Payment}
    (hp : w.payments.get k' = some p) (ho : p.orderId = some o) :
    k' = k ∧ p.stripePaymentIntentId = some n ∧ p.purpose = .order := by
  have hk := h.only k' p hp ho
  subst hk
  obtain ⟨p', hp', htag, hpurpose⟩ := h.payment
  cases hp'.symm.trans hp
  exact ⟨rfl, congrArg Prod.snd htag, hpurpose⟩

/-- The intent of a payment of another order is another intent. -/
theorem Secured.foreign (h : Secured o k n w) {k' : PaymentId} {p : Payment}
    (hp : w.payments.get k' = some p) (ho : p.orderId ≠ some o) :
    p.stripePaymentIntentId ≠ some n := by
  intro hi
  have hk := h.own k' p hp hi
  subst hk
  obtain ⟨p', hp', htag, _⟩ := h.payment
  cases hp'.symm.trans hp
  exact ho (congrArg Prod.fst htag)

/-- A statement beside the order leaves its row as it is. -/
theorem beside_order (hs : s.beside o n) {r : Order} (hr : w.orders.get o = some r) :
    (World.exec s c w).2.orders.get o = some r := by
  obtain ⟨r', hr', heff⟩ := World.exec_order (s := s) (c := c) hr
  cases heff with
  | same => exact hr'
  | write u stmt row rewrite =>
    subst stmt
    exact absurd row hs.2
  | sale counter price at_ stmt =>
    subst stmt
    exact hs.1.elim

theorem offered_exec (hs : s.sparesHold n)
    (hu : ∀ u, s = .offer u → ∃ made, u = .create made)
    (hfresh : w.offersFresh) (h : w.offered o) :
    (World.exec s c w).2.offered o := by
  obtain ⟨j, x, hx, hpending⟩ := Table.any_eq_true.mp h
  have hj : j ≠ w.nextOffer := by
    rintro rfl
    rw [hfresh _ (Nat.le_refl _)] at hx
    cases hx
  have heff := World.exec_offer s c w j
  rw [hx] at heff
  refine Table.any_eq_true.mpr ⟨j, x, ?_, hpending⟩
  generalize (World.exec s c w).2.offers.get j = y at heff
  cases heff with
  | same => rfl
  | create _ offer stmt fresh => exact absurd fresh hj
  | update r status stmt =>
    obtain ⟨made, hmade⟩ := hu _ stmt
    cases hmade
  | updateMany r filter status stmt hit =>
    obtain ⟨made, hmade⟩ := hu _ stmt
    cases hmade
  | sale r order counter price at_ stmt pending =>
    subst stmt
    exact hs.elim

end Effects

section Others

variable {o id : OrderId} {n : IntentId}

end Others

end CarSalePro
