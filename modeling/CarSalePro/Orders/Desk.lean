import CarSalePro.Orders.ClaimFlows
import CarSalePro.Orders.Sequence

namespace CarSalePro

open Store Interleave OrderStatus

/-- What the sale of one order is decided by: its row, the offers and payments there are, and the
intent that holds the customer's money. -/
structure Desk where
  row : Option Order
  offers : Table OfferId OrderOffer
  payments : Table PaymentId Payment
  intent : Option Intent
  configured : Bool

def World.desk (o : OrderId) (n : IntentId) (w : World) : Desk where
  row := w.orders.get o
  offers := w.offers
  payments := w.payments
  intent := w.provider.intents.get n
  configured := w.stripeConfigured

/-- The offer's fee and share are there and add up to its price. -/
def OrderOffer.splits (offer : OrderOffer) (price : Cents) : Prop :=
  ∃ fee share, offer.platformFeeCents = some fee ∧ offer.inspectorShareCents = some share ∧
    fee + share = price

/-- The order's fee and share add up to its total. -/
def Order.splits (r : Order) : Prop := r.platformFeeCents + r.inspectorShareCents = r.totalCents

namespace Desk

variable {o : OrderId} {k : PaymentId} {n : IntentId} {T : Cents} {d : Desk}

/-- What Stripe has captured of the intent. -/
def taken (d : Desk) : Option Cents := d.intent.bind Intent.captured

/-- What no step changes: payment `k` is the order's only one, its intent `n` holds `T` and is
nobody else's, and every price the order was offered at splits. -/
structure Based (o : OrderId) (k : PaymentId) (n : IntentId) (T : Cents) (d : Desk) : Prop where
  payment : ∃ p, d.payments.get k = some p ∧ p.tag = (some o, some n)
  active : ∀ k' p, d.payments.get k' = some p → p.orderId = some o → p.supersededAt = none → k' = k
  own : ∀ k' p, d.payments.get k' = some p → p.stripePaymentIntentId = some n → k' = k
  intent : ∃ x, d.intent = some x ∧ x.amountCents = T
  offers : ∀ j offer price, d.offers.get j = some offer → offer.orderId = o →
    offer.priceCents = some price → offer.splits price
  configured : d.configured = true

/-- The row of payment `k` says nothing of money taken. -/
def Untaken (k : PaymentId) (d : Desk) : Prop :=
  ∀ p, d.payments.get k = some p → p.status ≠ .succeeded

/-- What the row promises: while anybody may still claim the order, the price of the quote with no
money taken; once it is assigned, the price that was taken. -/
structure Promise (k : PaymentId) (T : Cents) (r : Order) (d : Desk) : Prop where
  free : r.isOpen → r.inspectorId = none → r.totalCents = T ∧ r.splits ∧ d.Untaken k
  sold : r.status = assigned → d.taken = some r.totalCents ∧ r.splits

/-- The invariant of the attempts. -/
structure Sound (o : OrderId) (k : PaymentId) (n : IntentId) (T : Cents) (d : Desk) : Prop where
  based : Based o k n T d
  row : ∃ r, d.row = some r ∧ Promise k T r d

end Desk

/-- The statement creates no payment, and no offer with a price. -/
def Stmt.tame : Stmt → Prop
  | .createPayment _ _ _ | .payment (.attachIntent _ _) => False
  | .offer (.create made) => made.priceCents = none
  | _ => True

/-- The statement neither frees order `o` nor prices or assigns it, and records no money for
payment `k`. -/
def Stmt.calm (o : OrderId) (k : PaymentId) : Stmt → Prop
  | .order u => u.order ≠ o ∨ match u with
    | .claim _ _ _ | .setInspectionDeadline _ _ => True
    | .transition _ _ target _ => target = cancelled
    | _ => False
  | .payment (.markCaptured id) | .payment (.settle id) => id ≠ k
  | .payment (.attachIntent _ _) | .createPayment _ _ _ => False
  | .offer (.create made) => made.priceCents = none
  | .sale _ _ _ _ => False
  | _ => True

/-- The statement is about neither orders nor payments, and asks nothing of Stripe. -/
def Stmt.aside : Stmt → Prop
  | .offer (.create made) => made.priceCents = none
  | .offer _ | .counterOffer _ | .event _ => True
  | _ => False

section Effects

variable {o : OrderId} {k : PaymentId} {n : IntentId} {T : Cents} {s : Stmt} {c : Fate} {w : World}

theorem desk_tick (c : Fate) (w : World) : (World.tick c w).desk o n = w.desk o n := by
  obtain ⟨now, he⟩ := World.tick_eq c w
  rw [he]
  rfl

theorem Stmt.tame_opens (h : s.tame) : s.opensPayment = false := by
  cases s with
  | payment u =>
    cases u with
    | attachIntent id intent => exact h.elim
    | _ => rfl
  | createPayment order purpose amountCents => exact h.elim
  | _ => rfl

theorem Stmt.calm_tame (h : s.calm o k) : s.tame := by
  cases s with
  | payment u =>
    cases u with
    | attachIntent id intent => exact h
    | _ => trivial
  | offer u =>
    cases u with
    | create offer => exact h
    | _ => trivial
  | createPayment order purpose amountCents => exact h
  | _ => trivial

theorem Stmt.aside_tame (h : s.aside) : s.tame := by
  cases s with
  | offer u =>
    cases u with
    | create offer => exact h
    | _ => trivial
  | payment u => exact h.elim
  | createPayment order purpose amountCents => exact h.elim
  | _ => trivial

/-- A payment row keeps its order and intent, and does not come back from being replaced. -/
theorem payment_back {k' : PaymentId} {p' : Payment} (hs : s.opensPayment = false)
    (hp' : (World.exec s c w).2.payments.get k' = some p') :
    ∃ p, w.payments.get k' = some p ∧ p'.tag = p.tag ∧
      (p'.supersededAt = none → p.supersededAt = none) := by
  cases hp : w.payments.get k' with
  | none =>
    rw [World.exec_payment_none hs hp] at hp'
    cases hp'
  | some p =>
    obtain ⟨q, hq, heff⟩ := World.exec_payment (s := s) (c := c) hp
    cases hq.symm.trans hp'
    rcases heff with rfl | ⟨u, rfl, hr⟩
    · exact ⟨p', rfl, rfl, fun h => h⟩
    · refine ⟨p, rfl, PaymentStmt.rewrite_tag hs hr, fun hnone => ?_⟩
      rcases PaymentStmt.rewrite_superseded hr with he | ⟨released, rfl⟩ | ⟨o', at_, rfl, ho⟩
      · rw [← he, hnone]
      · simp only [PaymentStmt.rewrite, if_true, Option.some.injEq] at hr
        subst hr
        split at hnone <;> cases hnone
      · simp only [Payment.openCounterOffer, Bool.and_eq_true, Option.isNone_iff_eq_none] at ho
        exact ho.2

/-- Stripe never changes what an intent is for, nor what it has captured. -/
theorem intent_forth {x : Intent} (hx : w.provider.intents.get n = some x) :
    ∃ x', (World.exec s c w).2.provider.intents.get n = some x' ∧
      x'.amountCents = x.amountCents ∧ (x.captured.isSome → x'.captured = x.captured) := by
  obtain ⟨x', hx', heff⟩ := World.exec_intent (s := s) (c := c) hx
  refine ⟨x', hx', ?_⟩
  rcases heff with rfl | ⟨call, rfl, heff⟩
  · exact ⟨rfl, fun _ => rfl⟩
  · cases heff with
    | same => exact ⟨rfl, fun _ => rfl⟩
    | capture payment amountCents stmt held fits =>
      refine ⟨rfl, fun h => ?_⟩
      rw [Intent.captured, held] at h
      cases h
    | cancel payment stmt open_ =>
      refine ⟨rfl, fun h => ?_⟩
      rcases open_ with hs | hs <;> (rw [Intent.captured, hs] at h; cases h)
    | refund amountCents order reason captured refunded stmt taken =>
      exact ⟨rfl, fun _ => by simp [Intent.captured, taken]⟩

theorem based_exec (hs : s.tame) (h : Desk.Based o k n T (w.desk o n)) :
    Desk.Based o k n T ((World.exec s c w).2.desk o n) where
  payment := by
    obtain ⟨p, hp, htag⟩ := h.payment
    obtain ⟨p', hp', heff⟩ := World.exec_payment (s := s) (c := c) hp
    refine ⟨p', hp', ?_⟩
    rcases heff with rfl | ⟨u, rfl, hr⟩
    · exact htag
    · rw [PaymentStmt.rewrite_tag (Stmt.tame_opens hs) hr, htag]
  active k' p' hp' ho hnone := by
    obtain ⟨p, hp, htag, hsup⟩ := payment_back (Stmt.tame_opens hs) hp'
    have horder : p'.orderId = p.orderId := congrArg Prod.fst htag
    exact h.active k' p hp (horder ▸ ho) (hsup hnone)
  own k' p' hp' hi := by
    obtain ⟨p, hp, htag, _⟩ := payment_back (Stmt.tame_opens hs) hp'
    have hintent : p'.stripePaymentIntentId = p.stripePaymentIntentId := congrArg Prod.snd htag
    exact h.own k' p hp (hintent ▸ hi)
  intent := by
    obtain ⟨x, hx, hamount⟩ := h.intent
    obtain ⟨x', hx', ha, _⟩ := intent_forth (s := s) (c := c) hx
    exact ⟨x', hx', ha.trans hamount⟩
  offers j offer price hj ho hprice := by
    have heff := World.exec_offer s c w j
    have hj : (World.exec s c w).2.offers.get j = some offer := hj
    rw [hj] at heff
    generalize hold : w.offers.get j = old at heff
    cases heff with
    | same => exact h.offers j offer price hold ho hprice
    | create _ _ stmt fresh =>
      subst stmt
      rw [show offer.priceCents = none from hs] at hprice
      cases hprice
    | update r status stmt => exact h.offers j r price hold ho hprice
    | updateMany r filter status stmt hit => exact h.offers j r price hold ho hprice
    | sale r order counter price' at_ stmt pending => exact h.offers j r price hold ho hprice
  configured := (World.frame_exec s c w).stripeConfigured.trans h.configured

/-- A statement aside leaves the row, the payments and the intent as they are. -/
theorem desk_aside (hs : s.aside) : ((World.exec s c w).2.desk o n).row = (w.desk o n).row ∧
    ((World.exec s c w).2.desk o n).payments = (w.desk o n).payments ∧
    ((World.exec s c w).2.desk o n).intent = (w.desk o n).intent := by
  have hframe := World.frame_exec s c w
  have hplain (ho : s.touchesOrders = false) (hp : s.touchesPayments = false)
      (hr : s.touchesProvider = false) :
      ((World.exec s c w).2.desk o n).row = (w.desk o n).row ∧
      ((World.exec s c w).2.desk o n).payments = (w.desk o n).payments ∧
      ((World.exec s c w).2.desk o n).intent = (w.desk o n).intent := by
    simp only [World.desk, hframe.orders ho, hframe.payments hp, hframe.provider hr, and_self]
  cases s with
  | offer u => exact hplain rfl rfl rfl
  | counterOffer u => exact hplain rfl rfl rfl
  | event e => exact hplain rfl rfl rfl
  | _ => exact hs.elim

/-- The row of payment `k` never comes to say that money was taken, unless it is told so. -/
theorem untaken_exec (hs : s.calm o k) (hp : (w.payments.get k).isSome)
    (h : (w.desk o n).Untaken k) : ((World.exec s c w).2.desk o n).Untaken k := by
  intro p' hp' hst
  obtain ⟨p, hp⟩ := Option.isSome_iff_exists.mp hp
  obtain ⟨q, hq, heff⟩ := World.exec_payment (s := s) (c := c) hp
  have hp' : (World.exec s c w).2.payments.get k = some p' := hp'
  cases hq.symm.trans hp'
  rcases heff with rfl | ⟨u, rfl, hr⟩
  · exact h p' hp hst
  · cases u with
    | markCaptured id =>
      simp only [PaymentStmt.rewrite] at hr
      split at hr
      next hk => exact hs hk.symm
      next => cases hr
    | settle id =>
      simp only [PaymentStmt.rewrite] at hr
      split at hr
      next hk => exact hs hk.symm
      next => cases hr
    | supersede id released =>
      simp only [PaymentStmt.rewrite] at hr
      split at hr
      next =>
        cases hr
        split at hst
        · cases hst
        · exact h p hp hst
      next => cases hr
    | stampCaptured id =>
      simp only [PaymentStmt.rewrite] at hr
      split at hr <;> cases hr
      exact h p hp hst
    | attachIntent id intent => exact hs.elim
    | _ =>
      simp only [PaymentStmt.rewrite] at hr
      split at hr <;> cases hr
      cases hst

theorem taken_exec {a : Cents} (h : (w.desk o n).taken = some a) :
    ((World.exec s c w).2.desk o n).taken = some a := by
  obtain ⟨x, hx, hcap⟩ := Option.bind_eq_some_iff.mp h
  obtain ⟨x', hx', _, hkept⟩ := intent_forth (s := s) (c := c) hx
  refine Option.bind_eq_some_iff.mpr ⟨x', hx', ?_⟩
  rw [hkept (by rw [hcap]; rfl), hcap]

/-- What a calm statement does to the row of order `o`: nothing, a claim, or its end. -/
theorem row_exec {r : Order} (hs : s.calm o k) (hr : (w.desk o n).row = some r) :
    ∃ r', ((World.exec s c w).2.desk o n).row = some r' ∧ r'.totalCents = r.totalCents ∧
      (r.splits → r'.splits) ∧ (r'.isOpen → r.isOpen) ∧
      (r'.status = assigned → r.status = assigned) ∧
      (r'.inspectorId = none → r.inspectorId = none) := by
  obtain ⟨r', hr', heff⟩ := World.exec_order (s := s) (c := c) hr
  refine ⟨r', hr', ?_⟩
  cases heff with
  | same => exact ⟨rfl, fun h => h, fun h => h, fun h => h, fun h => h⟩
  | sale counter price at_ stmt =>
    subst stmt
    exact hs.elim
  | write u stmt row rewrite =>
    subst stmt
    have hu := hs.resolve_left (fun h => h row)
    cases u with
    | claim id statuses inspector =>
      simp only [OrderStmt.rewrite] at rewrite
      split at rewrite
      · cases rewrite
        exact ⟨rfl, fun h => h, fun h => h, fun h => h, fun h => by cases h⟩
      · cases rewrite
    | setInspectionDeadline id after =>
      cases rewrite
      exact ⟨rfl, fun h => h, fun h => h, fun h => h, fun h => h⟩
    | transition id source target legal =>
      cases rewrite
      have htarget : target = cancelled := hu
      subst htarget
      exact ⟨rfl, fun h => h, fun h => (by cases h), fun h => (by cases h), fun h => h⟩
    | _ => exact hu.elim

theorem sound_exec (hs : s.calm o k) (h : Desk.Sound o k n T (w.desk o n)) :
    Desk.Sound o k n T ((World.exec s c w).2.desk o n) := by
  obtain ⟨r, hr, hpromise⟩ := h.row
  obtain ⟨r', hr', htotal, hsplits, hopen, hsold, hfree⟩ := row_exec (c := c) hs hr
  refine ⟨based_exec (Stmt.calm_tame hs) h.based, r', hr', fun ho hi => ?_, fun ha => ?_⟩
  · obtain ⟨ht, hsp, hu⟩ := hpromise.free (hopen ho) (hfree hi)
    obtain ⟨p, hp, _⟩ := h.based.payment
    have hsome : (w.payments.get k).isSome := by
      rw [show w.payments.get k = some p from hp]
      rfl
    exact ⟨htotal.trans ht, hsplits hsp, untaken_exec hs hsome hu⟩
  · obtain ⟨ht, hsp⟩ := hpromise.sold (hsold ha)
    exact ⟨htotal ▸ taken_exec ht, hsplits hsp⟩

end Effects

end CarSalePro
