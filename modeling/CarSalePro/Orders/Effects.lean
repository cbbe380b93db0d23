import CarSalePro.Orders.Operations

namespace CarSalePro

open Store Interleave OrderStatus

namespace Stmt

def touchesOrders : Stmt → Bool
  | order _ | sale _ _ _ _ => true
  | _ => false

def touchesPayments : Stmt → Bool
  | payment _ | createPayment _ _ _ => true
  | _ => false

/-- The statements that make a payment, or give one its intent. -/
def opensPayment : Stmt → Bool
  | createPayment _ _ _ | payment (.attachIntent _ _) => true
  | _ => false

def touchesRefunds : Stmt → Bool
  | upsertRefund _ _ _ | amendRefund _ _ _ => true
  | _ => false

def touchesCounterOffers : Stmt → Bool
  | counterOffer _ | upsertCounterOffer _ _ _ | sale _ _ _ _ => true
  | _ => false

def touchesOffers : Stmt → Bool
  | offer _ | sale _ _ _ _ => true
  | _ => false

def touchesPayouts : Stmt → Bool
  | payout _ => true
  | _ => false

def touchesWebhooks : Stmt → Bool
  | webhook _ => true
  | _ => false

def touchesProvider : Stmt → Bool
  | stripe _ => true
  | _ => false

end Stmt

/-- What a statement leaves alone: every table but its own, and all that is no table. -/
structure Frame (s : Stmt) (w w' : World) : Prop where
  orders : s.touchesOrders = false → w'.orders = w.orders
  offers : s.touchesOffers = false → w'.offers = w.offers
  nextOffer : s.touchesOffers = false → w'.nextOffer = w.nextOffer
  counterOffers : s.touchesCounterOffers = false → w'.counterOffers = w.counterOffers
  payments : s.touchesPayments = false → w'.payments = w.payments
  refunds : s.touchesRefunds = false → w'.refunds = w.refunds
  payouts : s.touchesPayouts = false → w'.payouts = w.payouts
  webhooks : s.touchesWebhooks = false → w'.webhooks = w.webhooks
  provider : s.touchesProvider = false → w'.provider = w.provider
  inspectors : (∀ i, s ≠ .countCancellation i) → w'.inspectors = w.inspectors
  now : w'.now = w.now
  stripeConfigured : w'.stripeConfigured = w.stripeConfigured
  settings : w'.settings = w.settings

namespace World

variable {s : Stmt} {c : Fate} {w : World}

theorem Frame.refl (s : Stmt) (w : World) : Frame s w w := by
  constructor <;> intros <;> rfl

theorem frame_order (s : OrderStmt) (w : World) : Frame (.order s) w (w.writeOrder s).2 := by
  unfold writeOrder
  split
  · exact Frame.refl _ _
  · split
    · exact Frame.refl _ _
    · constructor <;> intros <;> first | rfl | contradiction

theorem frame_offer (s : OfferStmt) (w : World) : Frame (.offer s) w (w.writeOffer s).2 := by
  cases s with
  | create offer => constructor <;> intros <;> first | rfl | contradiction
  | update id status =>
    simp only [writeOffer]
    split
    · exact Frame.refl _ _
    · constructor <;> intros <;> first | rfl | contradiction
  | updateMany filter status => constructor <;> intros <;> first | rfl | contradiction

theorem frame_counterOffer (s : CounterOfferStmt) (w : World) :
    Frame (.counterOffer s) w (w.writeCounterOffer s).2 := by
  simp only [writeCounterOffer]
  split
  · exact Frame.refl _ _
  · constructor <;> intros <;> first | rfl | contradiction

theorem frame_payment (s : PaymentStmt) (w : World) :
    Frame (.payment s) w (w.writePayment s).2 := by
  simp only [writePayment]
  split
  · exact Frame.refl _ _
  · split
    · exact Frame.refl _ _
    · constructor <;> intros <;> first | rfl | contradiction

theorem frame_payout (s : PayoutStmt) (w : World) : Frame (.payout s) w (w.writePayout s).2 := by
  simp only [writePayout]
  split
  · exact Frame.refl _ _
  · constructor <;> intros <;> first | rfl | contradiction

theorem frame_webhook (s : WebhookStmt) (w : World) :
    Frame (.webhook s) w (w.writeWebhook s).2 := by
  cases s with
  | claim event =>
    simp only [writeWebhook]
    split
    · exact Frame.refl _ _
    · constructor <;> intros <;> first | rfl | contradiction
  | steal event staleBefore =>
    simp only [writeWebhook]
    split
    · exact Frame.refl _ _
    · split
      · constructor <;> intros <;> first | rfl | contradiction
      · exact Frame.refl _ _
  | complete event =>
    simp only [writeWebhook]
    split
    · exact Frame.refl _ _
    · split
      · constructor <;> intros <;> first | rfl | contradiction
      · exact Frame.refl _ _
  | release event => constructor <;> intros <;> first | rfl | contradiction

theorem frame_sale (order : OrderId) (counter : CounterOfferId) (price : PriceBreakdown)
    (at_ : Time) (w : World) :
    Frame (.sale order counter price at_) w (w.writeSale order counter price at_).2 := by
  unfold writeSale
  split
  · exact Frame.refl _ _
  · constructor <;> intros <;> first | rfl | contradiction

theorem frame_upsertCounterOffer (order : OrderId) (inspector : UserId)
    (terms : CounterOfferTerms) (w : World) :
    Frame (.upsertCounterOffer order inspector terms) w
      (w.upsertCounterOffer order inspector terms).2 := by
  unfold upsertCounterOffer
  split
  · constructor <;> intros <;> first | rfl | contradiction
  · constructor <;> intros <;> first | rfl | contradiction

theorem frame_write (s : Stmt) (w : World) : Frame s w (w.write s).2 := by
  cases s with
  | upsertCounterOffer order inspector terms =>
    exact frame_upsertCounterOffer order inspector terms w
  | order s => exact frame_order s w
  | offer s => exact frame_offer s w
  | counterOffer s => exact frame_counterOffer s w
  | payment s => exact frame_payment s w
  | payout s => exact frame_payout s w
  | webhook s => exact frame_webhook s w
  | sale order counter price at_ => exact frame_sale order counter price at_ w
  | closeDispute order status =>
    simp only [write]
    split
    · exact Frame.refl _ _
    · constructor <;> intros <;> rfl
  | amendRefund order reason a =>
    simp only [write]
    split
    · exact Frame.refl _ _
    · constructor <;> intros <;> first | rfl | contradiction
  | countCancellation inspector =>
    simp only [write]
    split
    · exact Frame.refl _ _
    · constructor <;> intros <;> first | rfl | (exact absurd rfl (by assumption)) | simp_all
  | _ => constructor <;> intros <;> first | rfl | contradiction

/-- A statement asks Stripe, or is a database write that goes through or finds it down. -/
theorem exec_cases (s : Stmt) (c : Fate) (w : World) :
    (∃ call, s = .stripe call ∧
      (exec s c w).2 = { w with provider := (w.provider.answer call c).2 }) ∨
    (s.touchesProvider = false ∧ c = .down ∧ exec s c w = (.error .database, w)) ∨
    (s.touchesProvider = false ∧ c ≠ .down ∧ exec s c w = w.write s) := by
  cases s with
  | stripe call =>
    refine .inl ⟨call, rfl, ?_⟩
    simp only [exec]
    rcases w.provider.answer call c with ⟨r, P⟩
    cases r <;> rfl
  | _ =>
    by_cases hc : c = .down
    · exact .inr (.inl ⟨rfl, hc, by simp [exec, hc]⟩)
    · exact .inr (.inr ⟨rfl, hc, by simp [exec, hc]⟩)

/-- The environment moves the clock and nothing else. -/
theorem tick_eq (c : Fate) (w : World) : ∃ now, tick c w = { w with now := now } := by
  cases c with
  | elapse ms => exact ⟨w.now + ms, rfl⟩
  | _ => exact ⟨w.now, rfl⟩

theorem frame_exec (s : Stmt) (c : Fate) (w : World) : Frame s w (exec s c w).2 := by
  rcases exec_cases s c w with ⟨call, rfl, h⟩ | ⟨_, _, h⟩ | ⟨_, _, h⟩
  · rw [h]
    constructor <;> intros <;> first | rfl | contradiction
  · rw [h]
    exact Frame.refl _ _
  · rw [h]
    exact frame_write s w

end World

/-- What a statement can do to one order row: write it by a guarded or unguarded update, or close
its sale. -/
inductive OrderEffect (s : Stmt) (now : Time) (o : OrderId) (r : Order) : Order → Prop where
  | same : OrderEffect s now o r r
  | write {r' : Order} (u : OrderStmt) (stmt : s = .order u) (row : u.order = o)
      (rewrite : u.rewrite now r = some r') : OrderEffect s now o r r'
  | sale (counter : CounterOfferId) (price : PriceBreakdown) (at_ : Time)
      (stmt : s = .sale o counter price at_) :
      OrderEffect s now o r { r with
        totalCents := price.totalCents
        platformFeeCents := price.platformFeeCents
        inspectorShareCents := price.inspectorShareCents }

/-- What a statement can do to the offer of one id: make it, or change its status. -/
inductive OfferEffect (s : Stmt) (next k : OfferId) : Option OrderOffer → Option OrderOffer → Prop
    where
  | same (r : Option OrderOffer) : OfferEffect s next k r r
  | create (r : Option OrderOffer) (offer : OrderOffer) (stmt : s = .offer (.create offer))
      (fresh : k = next) : OfferEffect s next k r (some offer)
  | update (r : OrderOffer) (status : OfferStatus) (stmt : s = .offer (.update k status)) :
      OfferEffect s next k (some r) (some { r with status := status })
  | updateMany (r : OrderOffer) (filter : OfferId → OrderOffer → Bool) (status : OfferStatus)
      (stmt : s = .offer (.updateMany filter status)) (hit : filter k r) :
      OfferEffect s next k (some r) (some { r with status := status })
  | sale (r : OrderOffer) (order : OrderId) (counter : CounterOfferId) (price : PriceBreakdown)
      (at_ : Time) (stmt : s = .sale order counter price at_) (pending : r.status = .pending) :
      OfferEffect s next k (some r) (some { r with status := .expired })

/-- What Stripe can do to one intent. -/
inductive IntentEffect (call : StripeCall) (i : IntentId) (x : Intent) : Intent → Prop where
  | same : IntentEffect call i x x
  | capture (payment : PaymentId) (amountCents : Option Cents)
      (stmt : call = .capture i payment amountCents) (held : x.status = .requiresCapture)
      (fits : Provider.asked x amountCents ≤ x.amountCents) :
      IntentEffect call i x { x with status := .succeeded (Provider.asked x amountCents) 0 }
  | cancel (payment : PaymentId) (stmt : call = .cancel i payment)
      (open_ : x.status = .requiresCapture ∨ x.status = .requiresPaymentMethod) :
      IntentEffect call i x { x with status := .canceled }
  | refund (amountCents : Cents) (order : OrderId) (reason : RefundReason)
      (captured refunded : Cents) (stmt : call = .createRefund i amountCents order reason)
      (taken : x.status = .succeeded captured refunded) :
      IntentEffect call i x { x with status := .succeeded captured (refunded + amountCents) }

namespace Provider

theorem carryOut_intent {P P' : Provider} {call : StripeCall} {i : IntentId} {x : Intent}
    (h : P.carryOut call = .ok P') (hx : P.intents.get i = some x) :
    ∃ x', P'.intents.get i = some x' ∧ IntentEffect call i x x' := by
  cases call with
  | capture intent payment amountCents =>
    simp only [carryOut] at h
    split at h
    · cases h
    · next y hy =>
      split at h
      · next hs =>
        split at h
        · next hle =>
          cases h
          by_cases hi : i = intent
          · subst hi
            cases hy.symm.trans hx
            exact ⟨_, by simp, .capture payment amountCents rfl hs hle⟩
          · exact ⟨x, by simp [hi, hx], .same⟩
        · cases h
      · cases h
  | cancel intent payment =>
    simp only [carryOut] at h
    split at h
    · cases h
    · next y hy =>
      have hset (hs : y.status = .requiresCapture ∨ y.status = .requiresPaymentMethod)
          (h : Except.ok { P with intents := P.intents.set intent { y with status := .canceled } } =
            (Except.ok P' : Except StripeError Provider)) :
          ∃ x', P'.intents.get i = some x' ∧ IntentEffect (.cancel intent payment) i x x' := by
        cases h
        by_cases hi : i = intent
        · subst hi
          cases hy.symm.trans hx
          exact ⟨_, by simp, .cancel payment rfl hs⟩
        · exact ⟨x, by simp [hi, hx], .same⟩
      split at h
      · next hs => exact hset (.inr hs) h
      · next hs => exact hset (.inl hs) h
      · cases h
  | createRefund intent amountCents order reason =>
    simp only [carryOut] at h
    split at h
    · cases h
    · next y hy =>
      split at h
      · cases h; exact ⟨x, hx, .same⟩
      · split at h
        · next captured refunded hs =>
          split at h
          · cases h
            by_cases hi : i = intent
            · subst hi
              cases hy.symm.trans hx
              exact ⟨_, by simp, .refund amountCents order reason captured refunded rfl hs⟩
            · exact ⟨x, by simp [hi, hx], .same⟩
          · cases h
        · cases h
  | createTransfer order amountCents =>
    simp only [carryOut] at h
    split at h <;> (cases h; exact ⟨x, hx, .same⟩)
  | createIntent payment amountCents =>
    cases h
    have hi : i ≠ P.intents.fresh := by
      intro hi
      rw [hi, Table.get_fresh] at hx
      cases hx
    exact ⟨x, by simp [hi, hx], .same⟩

/-- An intent begins with nothing paid. -/
theorem carryOut_none {P P' : Provider} {call : StripeCall} {i : IntentId}
    (h : P.carryOut call = .ok P') (hx : P.intents.get i = none) :
    ∀ x, P'.intents.get i = some x → x.status = .requiresPaymentMethod := by
  have hkeep (h' : P'.intents.get i = none) :
      ∀ x, P'.intents.get i = some x → x.status = .requiresPaymentMethod := by
    intro x hx'
    cases h'.symm.trans hx'
  have hset {n : IntentId} {y z : Intent} (hy : P.intents.get n = some y) :
      (P.intents.set n z).get i = none := by
    by_cases hi : i = n
    · subst hi; rw [hx] at hy; cases hy
    · simp [hi, hx]
  cases call with
  | capture n payment amountCents =>
    simp only [carryOut] at h
    split at h
    · cases h
    · next y hy =>
      split at h
      · split at h <;> cases h
        exact hkeep (hset hy)
      · cases h
  | cancel n payment =>
    simp only [carryOut] at h
    split at h
    · cases h
    · next y hy => split at h <;> cases h <;> exact hkeep (hset hy)
  | createRefund n amountCents order reason =>
    simp only [carryOut] at h
    split at h
    · cases h
    · next y hy =>
      split at h
      · cases h; exact hkeep hx
      · split at h
        · split at h <;> cases h
          exact hkeep (hset hy)
        · cases h
  | createTransfer order amountCents =>
    simp only [carryOut] at h
    split at h <;> (cases h; exact hkeep hx)
  | createIntent payment amountCents =>
    cases h
    intro x hx'
    by_cases hi : i = P.intents.fresh
    · simp only [Table.get_set, if_pos hi, Option.some.injEq] at hx'
      rw [← hx']
    · simp only [Table.get_set, if_neg hi] at hx'
      cases hx.symm.trans hx'

theorem answer_state (P : Provider) (call : StripeCall) (c : Fate) :
    (P.answer call c).2 = P ∨ P.carryOut call = .ok (P.answer call c).2 := by
  cases c with
  | refused e => exact .inl rfl
  | down => exact .inl rfl
  | replayed =>
    simp only [answer]
    split
    · exact .inl rfl
    · split
      · next P' h => exact .inr h
      · exact .inl rfl
  | _ =>
    simp only [answer]
    split
    · next P' h => exact .inr h
    · exact .inl rfl

theorem carryOut_transfer {P P' : Provider} {call : StripeCall} (h : P.carryOut call = .ok P')
    (o : OrderId) : P'.transfers.get o = P.transfers.get o ∨
    ∃ a, call = .createTransfer o a ∧ P.transfers.get o = none ∧ P'.transfers.get o = some a := by
  cases call with
  | createTransfer o' a =>
    simp only [carryOut] at h
    split at h
    next => cases h; exact .inl rfl
    next hnone =>
      cases h
      by_cases ho : o = o'
      · subst ho
        exact .inr ⟨a, rfl, by simpa using hnone, by simp⟩
      · exact .inl (by simp [ho])
  | capture n k a =>
    simp only [carryOut] at h
    split at h
    · cases h
    · split at h
      · split at h <;> cases h
        exact .inl rfl
      · cases h
  | cancel n k =>
    simp only [carryOut] at h
    split at h
    · cases h
    · split at h <;> cases h <;> exact .inl rfl
  | createRefund n a o' reason =>
    simp only [carryOut] at h
    split at h
    · cases h
    · split at h
      · cases h; exact .inl rfl
      · split at h
        · split at h <;> cases h
          exact .inl rfl
        · cases h
  | createIntent payment amountCents => cases h; exact .inl rfl

/-- The transfer of an order is made once. -/
theorem answer_transfer (P : Provider) (call : StripeCall) (c : Fate) (o : OrderId) :
    (P.answer call c).2.transfers.get o = P.transfers.get o ∨
    ∃ a, call = .createTransfer o a ∧ P.transfers.get o = none ∧
      (P.answer call c).2.transfers.get o = some a := by
  rcases P.answer_state call c with h | h
  · exact .inl (by rw [h])
  · exact carryOut_transfer h o

theorem carryOut_refund {P P' : Provider} {call : StripeCall} (h : P.carryOut call = .ok P')
    (k : OrderId × RefundReason) : P'.refunds.get k = P.refunds.get k ∨
    ∃ i a, call = .createRefund i a k.1 k.2 := by
  cases call with
  | createRefund n a o reason =>
    by_cases hk : k = (o, reason)
    · subst hk
      exact .inr ⟨n, a, rfl⟩
    · simp only [carryOut] at h
      split at h
      · cases h
      · split at h
        · cases h; exact .inl rfl
        · split at h
          · split at h <;> cases h
            exact .inl (by simp [hk])
          · cases h
  | capture n payment a =>
    simp only [carryOut] at h
    split at h
    · cases h
    · split at h
      · split at h <;> cases h
        exact .inl rfl
      · cases h
  | cancel n payment =>
    simp only [carryOut] at h
    split at h
    · cases h
    · split at h <;> cases h <;> exact .inl rfl
  | createTransfer o a =>
    simp only [carryOut] at h
    split at h <;> (cases h; exact .inl rfl)
  | createIntent payment a => cases h; exact .inl rfl

theorem answer_intent {P : Provider} {call : StripeCall} {c : Fate} {i : IntentId} {x : Intent}
    (hx : P.intents.get i = some x) :
    ∃ x', (P.answer call c).2.intents.get i = some x' ∧ IntentEffect call i x x' := by
  rcases P.answer_state call c with h | h
  · exact ⟨x, by rw [h]; exact hx, .same⟩
  · exact carryOut_intent h hx

end Provider

namespace World

variable {s : Stmt} {c : Fate} {w : World}

theorem writeOrder_order {u : OrderStmt} {o : OrderId} {r : Order} (h : w.orders.get o = some r) :
    ∃ r', (w.writeOrder u).2.orders.get o = some r' ∧ OrderEffect (.order u) w.now o r r' := by
  unfold writeOrder
  split
  · exact ⟨r, h, .same⟩
  · next x hx =>
    split
    · exact ⟨r, h, .same⟩
    · next x' hx' =>
      by_cases ho : o = u.order
      · subst ho
        cases hx.symm.trans h
        exact ⟨x', by simp, .write u rfl rfl hx'⟩
      · exact ⟨r, by simp [ho, h], .same⟩

/-- A statement on an order row that is there. -/
theorem exec_orderStmt {u : OrderStmt} {r : Order} (h : w.orders.get u.order = some r) :
    (c = .down ∧ exec (.order u) c w = (.error .database, w)) ∨
    (u.rewrite w.now r = none ∧ exec (.order u) c w = (.ok 0, w)) ∨
    ∃ r', u.rewrite w.now r = some r' ∧
      exec (.order u) c w = (.ok 1, { w with orders := w.orders.set u.order r' }) := by
  by_cases hc : c = .down
  · exact .inl ⟨hc, by simp [exec, hc]⟩
  · simp only [exec, hc, if_false, write, writeOrder, h]
    cases hr : u.rewrite w.now r with
    | none => exact .inr (.inl ⟨rfl, rfl⟩)
    | some r' => exact .inr (.inr ⟨r', rfl, rfl⟩)

/-- A database statement that fails leaves everything as it was. -/
theorem exec_failed {e : Err} (ht : s.touchesProvider = false) (h : (exec s c w).1 = .error e) :
    (exec s c w).2 = w := by
  rcases exec_cases s c w with ⟨call, rfl, _⟩ | ⟨_, _, he⟩ | ⟨_, _, he⟩
  · cases ht
  · rw [he]
  · rw [he] at h ⊢
    cases s with
    | order u =>
      simp only [write, writeOrder] at h ⊢
      split at h
      · rfl
      · split at h <;> cases h
    | offer u =>
      cases u with
      | create offer => cases h
      | update id status =>
        simp only [write, writeOffer] at h ⊢
        split at h
        · rfl
        · cases h
      | updateMany filter status => cases h
    | counterOffer u =>
      simp only [write, writeCounterOffer] at h ⊢
      split at h
      next hc => rw [if_pos hc]
      next => cases h
    | payment u =>
      simp only [write, writePayment] at h ⊢
      split at h
      next hn => rw [if_pos hn]
      next hn =>
        split at h
        next hc => rw [if_neg hn, if_pos hc]
        next => cases h
    | payout u =>
      simp only [write, writePayout] at h ⊢
      split at h
      · rfl
      · cases h
    | webhook u =>
      cases u with
      | claim event =>
        simp only [write, writeWebhook] at h ⊢
        split at h
        next hc => rw [if_pos hc]
        next => cases h
      | steal event staleBefore =>
        simp only [write, writeWebhook] at h
        split at h
        · cases h
        · split at h <;> cases h
      | complete event =>
        simp only [write, writeWebhook] at h
        split at h
        · cases h
        · split at h <;> cases h
      | release event => cases h
    | sale order counter price at_ =>
      simp only [write, writeSale] at h ⊢
      split at h
      · rfl
      · cases h
    | amendRefund order reason a =>
      simp only [write] at h ⊢
      split at h
      · rfl
      · cases h
    | closeDispute order status =>
      simp only [write] at h ⊢
      split at h
      · rfl
      · cases h
    | countCancellation inspector =>
      simp only [write] at h ⊢
      split at h
      · rfl
      · cases h
    | upsertCounterOffer order inspector terms =>
      simp only [write, upsertCounterOffer] at h
      split at h
      · cases h
      · cases h
    | _ => cases h

theorem exec_error {e : Err} (ht : s.touchesProvider = false) (h : (exec s c w).1 = .error e) :
    (exec s c w).2.orders = w.orders := by rw [exec_failed ht h]

/-- An order row is never made by a statement on one. -/
theorem exec_order_none {o : OrderId} (h : w.orders.get o = none) :
    (exec s c w).2.orders.get o = none := by
  by_cases ht : s.touchesOrders = false
  · rw [(frame_exec s c w).orders ht]; exact h
  rcases exec_cases s c w with ⟨call, rfl, _⟩ | ⟨_, _, he⟩ | ⟨_, _, he⟩
  · exact absurd rfl ht
  · rw [he]; exact h
  · rw [he]
    have hother {o' : OrderId} {r r' : Order} (hr : w.orders.get o' = some r) :
        (w.orders.set o' r').get o = none := by
      have hne : o ≠ o' := by
        intro heq
        rw [heq, hr] at h
        cases h
      rw [Table.get_set, if_neg hne, h]
    cases s with
    | order u =>
      simp only [write, writeOrder]
      split
      · exact h
      · next r hr =>
        split
        · exact h
        · exact hother hr
    | sale order counter price at_ =>
      simp only [write, writeSale]
      split
      · exact h
      · next r hr => exact hother hr
    | _ => exact absurd rfl ht

/-- The inversion of a step on an order row. -/
theorem exec_order {o : OrderId} {r : Order} (h : w.orders.get o = some r) :
    ∃ r', (exec s c w).2.orders.get o = some r' ∧ OrderEffect s w.now o r r' := by
  by_cases ht : s.touchesOrders = false
  · exact ⟨r, by rw [(frame_exec s c w).orders ht]; exact h, .same⟩
  rcases exec_cases s c w with ⟨call, rfl, _⟩ | ⟨_, _, he⟩ | ⟨_, _, he⟩
  · exact absurd rfl ht
  · exact ⟨r, by rw [he]; exact h, .same⟩
  · rw [he]
    cases s with
    | order u => exact writeOrder_order h
    | sale order counter price at_ =>
      simp only [write, writeSale]
      split
      · exact ⟨r, h, .same⟩
      · next x hx =>
        by_cases ho : o = order
        · subst ho
          cases hx.symm.trans h
          exact ⟨_, by simp, .sale counter price at_ rfl⟩
        · exact ⟨r, by simp [ho, h], .same⟩
    | _ => exact absurd rfl ht

/-- The inversion of a step on a payment row. -/
theorem exec_payment {k : PaymentId} {p : Payment} (h : w.payments.get k = some p) :
    ∃ p', (exec s c w).2.payments.get k = some p' ∧
      (p' = p ∨ ∃ u, s = .payment u ∧ u.rewrite w.now k p = some p') := by
  by_cases ht : s.touchesPayments = false
  · exact ⟨p, by rw [(frame_exec s c w).payments ht]; exact h, .inl rfl⟩
  rcases exec_cases s c w with ⟨call, rfl, _⟩ | ⟨_, _, he⟩ | ⟨_, _, he⟩
  · exact absurd rfl ht
  · exact ⟨p, by rw [he]; exact h, .inl rfl⟩
  · rw [he]
    cases s with
    | payment u =>
      simp only [write, writePayment]
      split
      · exact ⟨p, h, .inl rfl⟩
      · split
        · exact ⟨p, h, .inl rfl⟩
        · refine ⟨(u.rewrite w.now k p).getD p, by simp [h], ?_⟩
          cases hr : u.rewrite w.now k p with
          | none => exact .inl rfl
          | some p' => exact .inr ⟨u, rfl, hr⟩
    | createPayment order purpose amountCents =>
      have hk : k ≠ w.payments.fresh := by
        intro hk
        rw [hk, Table.get_fresh] at h
        cases h
      exact ⟨p, by simp [write, writeNewPayment, hk, h], .inl rfl⟩
    | _ => exact absurd rfl ht

/-- No statement but a creation makes a payment row. -/
theorem exec_payment_none {k : PaymentId} (hs : s.opensPayment = false)
    (h : w.payments.get k = none) : (exec s c w).2.payments.get k = none := by
  by_cases ht : s.touchesPayments = false
  · rw [(frame_exec s c w).payments ht]; exact h
  rcases exec_cases s c w with ⟨call, rfl, _⟩ | ⟨_, _, he⟩ | ⟨_, _, he⟩
  · exact absurd rfl ht
  · rw [he]; exact h
  · rw [he]
    cases s with
    | payment u =>
      simp only [write, writePayment]
      split
      · exact h
      · split
        · exact h
        · simp [h]
    | createPayment order purpose amountCents => cases hs
    | _ => exact absurd rfl ht

/-- The inversion of a step on an intent. -/
theorem exec_intent {i : IntentId} {x : Intent} (h : w.provider.intents.get i = some x) :
    ∃ x', (exec s c w).2.provider.intents.get i = some x' ∧
      (x' = x ∨ ∃ call, s = .stripe call ∧ IntentEffect call i x x') := by
  rcases exec_cases s c w with ⟨call, rfl, he⟩ | ⟨ht, _, _⟩ | ⟨ht, _, _⟩
  · have hanswer : ∃ x', (w.provider.answer call c).2.intents.get i = some x' ∧
        IntentEffect call i x x' := Provider.answer_intent h
    obtain ⟨x', hx', heff⟩ := hanswer
    exact ⟨x', by rw [he]; exact hx', .inr ⟨call, rfl, heff⟩⟩
  · exact ⟨x, by rw [(frame_exec s c w).provider ht]; exact h, .inl rfl⟩
  · exact ⟨x, by rw [(frame_exec s c w).provider ht]; exact h, .inl rfl⟩

/-- A new intent has nothing paid. -/
theorem exec_intent_none {i : IntentId} (h : w.provider.intents.get i = none) {x : Intent}
    (hx : (exec s c w).2.provider.intents.get i = some x) : x.status = .requiresPaymentMethod := by
  have hsame (he : (exec s c w).2.provider = w.provider) : x.status = .requiresPaymentMethod := by
    rw [he, h] at hx
    cases hx
  rcases exec_cases s c w with ⟨call, rfl, he⟩ | ⟨ht, _, _⟩ | ⟨ht, _, _⟩
  · rw [he] at hx
    rcases w.provider.answer_state call c with hs | hs
    · rw [hs, h] at hx
      cases hx
    · exact Provider.carryOut_none hs h x hx
  · exact hsame ((frame_exec s c w).provider ht)
  · exact hsame ((frame_exec s c w).provider ht)

theorem exec_payment_isSome {k : PaymentId} (h : (w.payments.get k).isSome) :
    ((exec s c w).2.payments.get k).isSome := by
  obtain ⟨p, hp⟩ := Option.isSome_iff_exists.mp h
  obtain ⟨p', hp', _⟩ := exec_payment (s := s) (c := c) hp
  rw [hp']; rfl

/-- The inversion of a step on the payout of one order. -/
theorem exec_payout (s : Stmt) (c : Fate) (w : World) (o : OrderId) :
    (exec s c w).2.payouts.get o = w.payouts.get o ∨
    ∃ u p, s = .payout u ∧ u.order = o ∧ u.rewrite w.now (w.payouts.get o) = some p ∧
      (exec s c w).2.payouts.get o = some p := by
  by_cases ht : s.touchesPayouts = false
  · exact .inl (by rw [(frame_exec s c w).payouts ht])
  rcases exec_cases s c w with ⟨call, rfl, _⟩ | ⟨_, _, he⟩ | ⟨_, _, he⟩
  · exact absurd rfl ht
  · exact .inl (by rw [he])
  · rw [he]
    cases s with
    | payout u =>
      simp only [write, writePayout]
      split
      next => exact .inl rfl
      next p hp =>
        by_cases ho : o = u.order
        · subst ho
          exact .inr ⟨u, p, rfl, rfl, hp, by simp⟩
        · exact .inl (by simp [ho])
    | _ => exact absurd rfl ht

/-- The inversion of a step on the transfer of one order. -/
theorem exec_transfer (s : Stmt) (c : Fate) (w : World) (o : OrderId) :
    (exec s c w).2.provider.transfers.get o = w.provider.transfers.get o ∨
    ∃ a, s = .stripe (.createTransfer o a) ∧ w.provider.transfers.get o = none ∧
      (exec s c w).2.provider.transfers.get o = some a := by
  rcases exec_cases s c w with ⟨call, rfl, he⟩ | ⟨ht, _, _⟩ | ⟨ht, _, _⟩
  · rw [he]
    exact (w.provider.answer_transfer call c o).imp_right fun ⟨a, hcall, hnone, hsome⟩ =>
      ⟨a, by rw [hcall], hnone, hsome⟩
  · exact .inl (by rw [(frame_exec s c w).provider ht])
  · exact .inl (by rw [(frame_exec s c w).provider ht])

theorem writeOffer_offer (u : OfferStmt) (w : World) (k : OfferId) :
    OfferEffect (.offer u) w.nextOffer k (w.offers.get k) ((w.writeOffer u).2.offers.get k) := by
  cases u with
  | create offer =>
    by_cases hk : k = w.nextOffer
    · have hget : (w.writeOffer (.create offer)).2.offers.get k = some offer := by
        simp [writeOffer, hk]
      rw [hget]
      exact .create _ offer rfl hk
    · have hget : (w.writeOffer (.create offer)).2.offers.get k = w.offers.get k := by
        simp [writeOffer, hk]
      rw [hget]
      exact .same _
  | update id status =>
    simp only [writeOffer]
    cases hr : w.offers.get id with
    | none => exact .same _
    | some r =>
      by_cases hk : k = id
      · subst hk
        rw [hr, show (w.offers.set k { r with status := status }).get k =
          some { r with status := status } by simp]
        exact .update r status rfl
      · rw [show (w.offers.set id { r with status := status }).get k = w.offers.get k by simp [hk]]
        exact .same _
  | updateMany filter status =>
    simp only [writeOffer, Table.get_rewrite]
    cases hr : w.offers.get k with
    | none => exact .same _
    | some r =>
      by_cases hf : filter k r
      · rw [Option.map_some, if_pos hf]
        exact .updateMany r filter status rfl hf
      · rw [Option.map_some, if_neg hf]
        exact .same _

/-- The inversion of a step on one offer. -/
theorem exec_offer (s : Stmt) (c : Fate) (w : World) (k : OfferId) :
    OfferEffect s w.nextOffer k (w.offers.get k) ((exec s c w).2.offers.get k) := by
  by_cases ht : s.touchesOffers = false
  · rw [(frame_exec s c w).offers ht]
    exact .same _
  rcases exec_cases s c w with ⟨call, rfl, _⟩ | ⟨_, _, he⟩ | ⟨_, _, he⟩
  · exact absurd rfl ht
  · rw [he]
    exact .same _
  · rw [he]
    cases s with
    | offer u => exact writeOffer_offer u w k
    | sale order counter price at_ =>
      simp only [write, writeSale]
      cases w.orders.get order with
      | none => exact .same _
      | some r =>
        simp only [Table.get_rewrite]
        cases hr : w.offers.get k with
        | none => exact .same _
        | some x =>
          by_cases hx : x.orderId = order ∧ x.status = .pending
          · rw [Option.map_some, if_pos hx]
            exact .sale x order counter price at_ rfl hx.2
          · rw [Option.map_some, if_neg hx]
            exact .same _
    | _ => exact absurd rfl ht

theorem ownCounterOffer_some {order : OrderId} {inspector : UserId} {k : CounterOfferId}
    {x : OrderCounterOffer} (h : w.ownCounterOffer order inspector = some (k, x)) :
    w.counterOffers.get k = some x ∧ x.orderId = order ∧ x.inspectorId = inspector := by
  have hrow := Table.findFirst_some h
  simpa using hrow

/-- What the naming of a price makes of the counter-offers: the own row is written, or made. -/
theorem upsertCounterOffer_get {order : OrderId} {inspector : UserId} {terms : CounterOfferTerms}
    {k : CounterOfferId} {x' : OrderCounterOffer}
    (h : (w.upsertCounterOffer order inspector terms).2.counterOffers.get k = some x') :
    w.counterOffers.get k = some x' ∨
      (∃ x, w.ownCounterOffer order inspector = some (k, x) ∧ x' = terms.update x) ∨
      (w.ownCounterOffer order inspector = none ∧ x' = terms.create order inspector w.now) := by
  unfold upsertCounterOffer at h
  split at h
  next id x hown =>
    simp only [Table.get_set] at h
    split at h
    next heq =>
      subst heq
      exact .inr (.inl ⟨x, hown, (Option.some.inj h).symm⟩)
    next => exact .inl h
  next hown =>
    simp only [Table.get_set] at h
    split at h
    next heq => exact .inr (.inr ⟨hown, (Option.some.inj h).symm⟩)
    next => exact .inl h

/-- The inversion of a step on one counter-offer: a price is named, or the row that was there is
kept or rewritten. -/
theorem exec_counterOffer {k : CounterOfferId} {x' : OrderCounterOffer}
    (h : (exec s c w).2.counterOffers.get k = some x') :
    (∃ order inspector terms, s = .upsertCounterOffer order inspector terms ∧
      x'.orderId = order ∧ x'.status = .pending) ∨
    ∃ x, w.counterOffers.get k = some x ∧
      (x' = x ∨ (∃ u, s = .counterOffer u ∧ u.rewrite w.now k x = some x') ∨
        x'.status = .accepted ∧ x'.orderId = x.orderId) := by
  by_cases hname : ∃ order inspector terms, s = .upsertCounterOffer order inspector terms
  · obtain ⟨order, inspector, terms, rfl⟩ := hname
    rcases exec_cases (.upsertCounterOffer order inspector terms) c w with
      ⟨call, hcall, _⟩ | ⟨_, _, he⟩ | ⟨_, _, he⟩
    · cases hcall
    · rw [he] at h
      exact .inr ⟨x', h, .inl rfl⟩
    · rw [he] at h
      rcases upsertCounterOffer_get h with h | ⟨x, hown, rfl⟩ | ⟨-, rfl⟩
      · exact .inr ⟨x', h, .inl rfl⟩
      · exact .inl ⟨order, inspector, terms, rfl, (ownCounterOffer_some hown).2.1, rfl⟩
      · exact .inl ⟨order, inspector, terms, rfl, rfl, rfl⟩
  right
  by_cases ht : s.touchesCounterOffers = false
  · rw [(frame_exec s c w).counterOffers ht] at h
    exact ⟨x', h, .inl rfl⟩
  rcases exec_cases s c w with ⟨call, rfl, _⟩ | ⟨_, _, he⟩ | ⟨_, _, he⟩
  · exact absurd rfl ht
  · rw [he] at h
    exact ⟨x', h, .inl rfl⟩
  · rw [he] at h
    cases s with
    | counterOffer u =>
      simp only [write, writeCounterOffer] at h
      split at h
      · exact ⟨x', h, .inl rfl⟩
      · simp only [Table.get_rewrite, Option.map_eq_some_iff] at h
        obtain ⟨x, hx, hget⟩ := h
        refine ⟨x, hx, ?_⟩
        cases hr : u.rewrite w.now k x with
        | none => exact .inl (by rw [← hget, hr]; rfl)
        | some y => exact .inr (.inl ⟨u, rfl, by rw [← hget, hr]; rfl⟩)
    | sale order counter price at_ =>
      simp only [write, writeSale] at h
      split at h
      · exact ⟨x', h, .inl rfl⟩
      · simp only [Table.get_rewrite, Option.map_eq_some_iff] at h
        obtain ⟨x, hx, hget⟩ := h
        refine ⟨x, hx, ?_⟩
        split at hget
        · exact .inr (.inr ⟨by rw [← hget]; rfl, by rw [← hget]; rfl⟩)
        · exact .inl (by rw [← hget]; rfl)
    | upsertCounterOffer order inspector terms => exact absurd ⟨_, _, _, rfl⟩ hname
    | _ => exact absurd rfl ht

/-- A refund row is never deleted. -/
theorem exec_refund {k : OrderId × RefundReason} (h : (w.refunds.get k).isSome) :
    ((exec s c w).2.refunds.get k).isSome := by
  by_cases ht : s.touchesRefunds = false
  · rw [(frame_exec s c w).refunds ht]; exact h
  rcases exec_cases s c w with ⟨call, rfl, _⟩ | ⟨_, _, he⟩ | ⟨_, _, he⟩
  · exact absurd rfl ht
  · rw [he]; exact h
  · rw [he]
    cases s with
    | upsertRefund order reason row =>
      simp only [write, Table.get_set]
      split
      · rfl
      · exact h
    | amendRefund order reason a =>
      simp only [write]
      split
      · exact h
      · simp only [Table.get_set]
        split
        · rfl
        · exact h
    | _ => exact absurd rfl ht

/-- The refund row of one reason is written only by a statement on it. -/
theorem exec_refundRow (s : Stmt) (c : Fate) (w : World) (k : OrderId × RefundReason) :
    ((exec s c w).2.refunds.get k).isSome = (w.refunds.get k).isSome ∨
    ∃ row, s = .upsertRefund k.1 k.2 row := by
  by_cases ht : s.touchesRefunds = false
  · exact .inl (by rw [(frame_exec s c w).refunds ht])
  rcases exec_cases s c w with ⟨call, rfl, _⟩ | ⟨_, _, he⟩ | ⟨_, _, he⟩
  · exact absurd rfl ht
  · exact .inl (by rw [he])
  · rw [he]
    cases s with
    | upsertRefund order reason row =>
      by_cases hk : k = (order, reason)
      · subst hk
        exact .inr ⟨row, rfl⟩
      · exact .inl (by simp [write, hk])
    | amendRefund order reason a =>
      left
      simp only [write]
      split
      · rfl
      next r hr =>
        by_cases hk : k = (order, reason)
        · simp [hk, hr]
        · simp [hk]
    | _ => exact absurd rfl ht

/-- Stripe issues a refund only when it is asked to. -/
theorem exec_providerRefund (s : Stmt) (c : Fate) (w : World) (k : OrderId × RefundReason) :
    (exec s c w).2.provider.refunds.get k = w.provider.refunds.get k ∨
    ∃ i a, s = .stripe (.createRefund i a k.1 k.2) := by
  rcases exec_cases s c w with ⟨call, rfl, he⟩ | ⟨ht, _, _⟩ | ⟨ht, _, _⟩
  · rw [he]
    rcases w.provider.answer_state call c with hs | hs
    · exact .inl (by rw [hs])
    · exact (Provider.carryOut_refund hs k).imp_right fun ⟨i, a, hcall⟩ => ⟨i, a, by rw [hcall]⟩
  · exact .inl (by rw [(frame_exec s c w).provider ht])
  · exact .inl (by rw [(frame_exec s c w).provider ht])

end World

namespace OrderStmt

/-- Only a transition and the guarded cancellations change a status. -/
theorem rewrite_status {u : OrderStmt} {now : Time} {r r' : Order}
    (h : u.rewrite now r = some r') :
    r'.status = r.status ∨
    (∃ id source target legal, u = .transition id source target legal ∧ r'.status = target) ∨
    (∃ id guard, u = .cancelWhere id guard ∧ guard.admits r = true ∧ r'.status = cancelled) := by
  cases u with
  | transition id source target legal =>
    cases h
    exact .inr (.inl ⟨id, source, target, legal, rfl, rfl⟩)
  | cancelWhere id guard =>
    simp only [rewrite] at h
    split at h
    · next hg => cases h; exact .inr (.inr ⟨id, guard, rfl, hg, rfl⟩)
    · cases h
  | setSearchExpiresAt id at_ => cases h; exact .inl rfl
  | setInspectionDeadline id after => cases h; exact .inl rfl
  | setPrice id price => cases h; exact .inl rfl
  | setSubmitted id at_ autoApproveAt => cases h; exact .inl rfl
  | _ =>
    simp only [rewrite] at h
    split at h
    · cases h; exact .inl rfl
    · cases h

end OrderStmt

/-- A counter-offer stays with its order. -/
theorem CounterOfferStmt.rewrite_order {u : CounterOfferStmt} {now : Time} {k : CounterOfferId}
    {x x' : OrderCounterOffer} (h : u.rewrite now k x = some x') : x'.orderId = x.orderId := by
  cases u with
  | returnFromPayment id stillOpen at_ =>
    simp only [rewrite] at h
    split at h
    · cases h; split <;> rfl
    · cases h
  | _ =>
    simp only [rewrite] at h
    split at h
    · cases h; rfl
    · cases h

/-- Only the start of a payment makes a counter-offer one that is being paid. -/
theorem CounterOfferStmt.rewrite_accepting {u : CounterOfferStmt} {now : Time} {k : CounterOfferId}
    {x x' : OrderCounterOffer} (h : u.rewrite now k x = some x') (hs : x'.status = .accepting) :
    ∃ acceptingUntil, u = .startPayment k acceptingUntil := by
  cases u with
  | startPayment id acceptingUntil =>
    simp only [rewrite] at h
    split at h
    next hc => rw [hc.1]; exact ⟨acceptingUntil, rfl⟩
    next => cases h
  | present id at_ expiresAt =>
    simp only [rewrite] at h
    split at h
    next hc =>
      cases h
      rw [hc.2.1] at hs
      cases hs
    next => cases h
  | returnFromPayment id stillOpen at_ =>
    simp only [rewrite] at h
    split at h
    · cases h
      split at hs <;> cases hs
    · cases h
  | _ =>
    simp only [rewrite] at h
    split at h
    · cases h; cases hs
    · cases h

/-- What only the opening of a payment sets in its row: the order it is for, and its intent. -/
def Payment.tag (p : Payment) : Option OrderId × Option IntentId :=
  (p.orderId, p.stripePaymentIntentId)

theorem PaymentStmt.rewrite_tag {u : PaymentStmt} {now : Time} {k : PaymentId} {p p' : Payment}
    (hu : (Stmt.payment u).opensPayment = false) (h : u.rewrite now k p = some p') :
    p'.tag = p.tag := by
  cases u with
  | attachIntent id intent => cases hu
  | supersede id released =>
    simp only [rewrite] at h
    split at h
    · cases h; split <;> rfl
    · cases h
  | _ =>
    simp only [rewrite] at h
    split at h
    · cases h; rfl
    · cases h

/-- Only two statements supersede a payment. -/
theorem PaymentStmt.rewrite_superseded {u : PaymentStmt} {now : Time} {k : PaymentId}
    {p p' : Payment} (h : u.rewrite now k p = some p') : p'.supersededAt = p.supersededAt ∨
      (∃ released, u = .supersede k released) ∨
      ∃ o at_, u = .abandon o at_ ∧ p.openCounterOffer o := by
  cases u with
  | supersede id released =>
    simp only [rewrite] at h
    split at h
    next hk => subst hk; exact .inr (.inl ⟨released, rfl⟩)
    next => cases h
  | abandon o at_ =>
    simp only [rewrite] at h
    split at h
    next ho => exact .inr (.inr ⟨o, at_, rfl, ho⟩)
    next => cases h
  | _ =>
    simp only [rewrite] at h
    split at h
    · cases h; exact .inl rfl
    · cases h

/-- Which order and intent each payment belongs to. -/
abbrev Registry := PaymentId → Option (Option OrderId × Option IntentId)

def World.registry (w : World) : Registry := fun k => (w.payments.get k).map Payment.tag

theorem World.registry_exec {s : Stmt} (hs : s.opensPayment = false) (c : Fate) (w : World) :
    (World.exec s c w).2.registry = w.registry := by
  funext k
  simp only [World.registry]
  cases hp : w.payments.get k with
  | none => rw [World.exec_payment_none hs hp]
  | some p =>
    obtain ⟨p', hp', rfl | ⟨u, rfl, hr⟩⟩ := World.exec_payment (s := s) (c := c) hp
    · rw [hp']
    · rw [hp', Option.map_some, Option.map_some, PaymentStmt.rewrite_tag hs hr]

theorem World.registry_get {w : World} {k : PaymentId} {p : Payment}
    (h : w.payments.get k = some p) : w.registry k = some p.tag := by
  simp [World.registry, h]

/-- Every guarded cancellation takes an allowed edge. -/
theorem CancelGuard.legal {guard : CancelGuard} {r : Order} (h : guard.admits r) :
    canTransition r.status cancelled = true := by
  cases guard with
  | handedBack =>
    exact canTransition_declinable (by simpa [admits] using h)
  | ownerUnreachable inspector =>
    simp only [admits, Bool.and_eq_true, decide_eq_true_eq] at h
    rw [h.1.2]
    rfl
  | searchExpired now =>
    simp only [admits, Bool.and_eq_true, decide_eq_true_eq] at h
    exact canTransition_search h.1.1
  | abandoned now =>
    simp only [admits, Bool.and_eq_true, decide_eq_true_eq, afterAssignStatuses, List.mem_cons,
      List.not_mem_nil, or_false] at h
    rcases h.1 with hs | hs <;> (rw [hs]; rfl)

end CarSalePro
