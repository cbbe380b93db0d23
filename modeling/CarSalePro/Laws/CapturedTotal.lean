import CarSalePro.Laws.CancelAccept
import CarSalePro.Orders.Desk

namespace CarSalePro

open Store Interleave Prog OrderStatus

/-- The attempts to give an order to an inspector. -/
def Op.attempts : Op → Prop
  | .acceptOffer _ _ | .adminAssign _ _ _ => True
  | _ => False

/-- An order in an open search, priced as its payment was authorized, and offered only at prices
that split. -/
structure Authorized (w : World) (o : OrderId) (k : PaymentId) (n : IntentId) : Prop where
  searched : Searched w o k n
  order : ∀ r, w.orders.get o = some r → r.splits ∧
    ∀ x, w.provider.intents.get n = some x → x.amountCents = r.totalCents
  active : ∀ k' p, w.payments.get k' = some p → p.orderId = some o → p.supersededAt = none → k' = k
  offers : ∀ j offer price, w.offers.get j = some offer → offer.orderId = o →
    offer.priceCents = some price → offer.splits price
  configured : w.stripeConfigured = true

/-- In every run of attempts one after another, an order that is assigned costs what Stripe has
captured, and its fee and share add up to that. -/
def TotalLaw (C : IntentId → StepGuard Unit) : Prop :=
  ∀ (w : World) (ops : List Op) (o : OrderId) (k : PaymentId) (n : IntentId) (g : Run Unit)
    (r : Order), (∀ op ∈ ops, op.attempts) → Authorized w o k n →
    Pool.Reach machine noRecord (C n) (sequence w ops) g → g.state.orders.get o = some r →
    r.status = assigned →
    ∃ x c, g.state.provider.intents.get n = some x ∧ x.captured = some c ∧ r.totalCents = c ∧
      r.inspectorShareCents + r.platformFeeCents = c

/-- A request to capture the intent finds it uncaptured, or captured for the sum it asks for. -/
def asksTheSame (n : IntentId) : StepGuard Unit := fun _ l _ x =>
  match l with
  | .call (.stripe (.capture i _ amountCents)) =>
    i ≠ n || (x.1.provider.intents.get n).all fun y =>
      y.captured.all (· = Provider.asked y amountCents)
  | _ => true

namespace Provider

variable {P : Provider} {n : IntentId} {k : PaymentId} {a : Option Cents} {x : Intent}

theorem carryOut_capture {P' : Provider} (hx : P.intents.get n = some x)
    (h : P.carryOut (.capture n k a) = .ok P') :
    ∃ x', P'.intents.get n = some x' ∧ x'.captured = some (asked x a) := by
  simp only [carryOut, hx] at h
  split at h
  · split at h
    · cases h
      exact ⟨{ x with status := .succeeded (asked x a) 0 }, by simp, rfl⟩
    · cases h
  · cases h

/-- A capture that asks for what was captured before, if anything was, leaves nothing or that
captured; and when it is answered, that. -/
theorem answer_capture (c : Fate) (hx : P.intents.get n = some x)
    (hc : x.captured.all (· = asked x a)) :
    ∃ x', (P.answer (.capture n k a) c).2.intents.get n = some x' ∧
      (x'.captured = none ∨ x'.captured = some (asked x a)) ∧
      ∀ u, (P.answer (.capture n k a) c).1 = .ok u → x'.captured = some (asked x a) := by
  have hbefore : x.captured = none ∨ x.captured = some (asked x a) := by
    cases hcap : x.captured with
    | none => exact .inl rfl
    | some c' =>
      rw [hcap] at hc
      exact .inr (by simpa using hc)
  rcases P.answer_state (.capture n k a) c with hs | hs
  · refine ⟨x, by rw [hs]; exact hx, hbefore, fun u hu => ?_⟩
    cases c with
    | down => cases hu
    | refused e => cases hu
    | lost e =>
      simp only [answer] at hu
      split at hu <;> cases hu
    | replayed =>
      simp only [answer] at hu hs
      split at hu
      next hserved => simpa [served, hx] using hserved
      next hserved =>
        rw [if_neg hserved] at hs
        split at hu
        next P' hP =>
          rw [hP] at hs
          have hs : P' = P := hs
          obtain ⟨x', hx', hcap⟩ := carryOut_capture hx hP
          rw [hs, hx] at hx'
          cases hx'
          exact hcap
        next => cases hu
    | _ =>
      simp only [answer] at hu hs
      split at hu
      next P' hP =>
        rw [hP] at hs
        have hs : P' = P := hs
        obtain ⟨x', hx', hcap⟩ := carryOut_capture hx hP
        rw [hs, hx] at hx'
        cases hx'
        exact hcap
      next => cases hu
  · obtain ⟨x', hx', hcap⟩ := carryOut_capture hx hs
    exact ⟨x', hx', .inr hcap, fun _ _ => hcap⟩

end Provider

namespace Desk

variable {o : OrderId} {k : PaymentId} {n : IntentId} {T a : Cents} {r : Order} {d : Desk}

/-- Somebody has claimed the order, with row `r`. -/
structure Held (o : OrderId) (k : PaymentId) (n : IntentId) (T : Cents) (r : Order) (d : Desk) :
    Prop where
  based : Based o k n T d
  row : d.row = some r
  isOpen : r.isOpen
  claimed : r.inspectorId ≠ none

/-- The claimed order still has the price of its quote, and no money was taken that we know of. -/
structure Quoted (o : OrderId) (k : PaymentId) (n : IntentId) (T : Cents) (r : Order) (d : Desk) :
    Prop extends Held o k n T r d where
  total : r.totalCents = T
  splits : r.splits
  untaken : d.Untaken k

/-- The order has the price that was taken. -/
structure Bought (o : OrderId) (k : PaymentId) (n : IntentId) (T a : Cents) (r : Order) (d : Desk) :
    Prop where
  based : Based o k n T d
  row : d.row = some r
  closed : r.isOpen → r.inspectorId ≠ none
  total : r.totalCents = a
  splits : r.splits
  taken : d.taken = some a

theorem not_open_assigned (h : r.isOpen) : r.status ≠ assigned := by
  intro hs
  rw [Order.isOpen, hs] at h
  exact absurd h (by decide)

theorem Held.sound (h : Held o k n T r d) : Sound o k n T d :=
  ⟨h.based, r, h.row, fun _ hi => absurd hi h.claimed, fun hs =>
    absurd hs (not_open_assigned h.isOpen)⟩

theorem Bought.sound (h : Bought o k n T a r d) : Sound o k n T d :=
  ⟨h.based, r, h.row, fun ho hi => absurd hi (h.closed ho), fun _ =>
    ⟨h.total.symm ▸ h.taken, h.splits⟩⟩

/-- Desks that differ in offers only. -/
structure Same (d d' : Desk) : Prop where
  row : d'.row = d.row
  payments : d'.payments = d.payments
  intent : d'.intent = d.intent

theorem Held.same {d' : Desk} (h : Held o k n T r d) (hd : Same d d') (hb : Based o k n T d') :
    Held o k n T r d' := ⟨hb, hd.row.trans h.row, h.isOpen, h.claimed⟩

theorem Bought.same {d' : Desk} (h : Bought o k n T a r d) (hd : Same d d')
    (hb : Based o k n T d') : Bought o k n T a r d' :=
  ⟨hb, hd.row.trans h.row, h.closed, h.total, h.splits, by
    rw [Desk.taken, hd.intent]; exact h.taken⟩

theorem Quoted.same {d' : Desk} (h : Quoted o k n T r d) (hd : Same d d') (hb : Based o k n T d') :
    Quoted o k n T r d' :=
  ⟨h.toHeld.same hd hb, h.total, h.splits, fun p hp => h.untaken p (hd.payments ▸ hp)⟩

end Desk

open Desk

/-- `p` leads from `P` to `Q` with the invariant of the attempts kept, where captures ask for the
same sum. -/
abbrev Sells (o : OrderId) (k : PaymentId) (n : IntentId) (T : Cents) {α : Type} (P : Desk → Prop)
    (p : Act α) (Q : α → Desk → Prop) : Prop :=
  Serial machine (World.desk o n) (fun l c w => asksTheSame n 0 l c (w, ()) = true)
    (Sound o k n T) P p Q fun _ => Sound o k n T

section Parts

variable {o : OrderId} {k : PaymentId} {n : IntentId} {T : Cents} {α : Type} {P : Desk → Prop}
  {p : Act α}

theorem sells_calm (hp : p.Only (Stmt.calm o k)) :
    Sells o k n T (Sound o k n T) p fun _ => Sound o k n T :=
  Serial.only hp (fun _ h => h) fun _ _ _ hs _ h => sound_exec hs h

/-- What is said of row, payments and intent survives what is aside from them. -/
theorem sells_aside (hp : p.Only Stmt.aside) (hI : ∀ d, P d → Sound o k n T d)
    (hP : ∀ d d', P d → Same d d' → Based o k n T d' → P d') :
    Sells o k n T P p fun _ => P := by
  refine (Serial.only hp hI fun s c w hs _ h => ?_).post (fun _ _ h => h) fun _ d h => hI d h
  obtain ⟨hrow, hpay, hint⟩ := desk_aside (o := o) (n := n) (c := c) (w := w) hs
  exact hP _ _ h ⟨hrow, hpay, hint⟩ (based_exec (Stmt.aside_tame hs) (hI _ h).based)

/-- A read, which may fail. -/
theorem sells_read {l : Site} {f : World → α} {Q : α → Desk → Prop}
    (hI : ∀ d, P d → Sound o k n T d) (hQ : ∀ w, P (w.desk o n) → Q (f w) (w.desk o n)) :
    Sells o k n T P (fetch l f) Q := Serial.ask hI hQ fun _ => hI

/-- The order's live payment is `k`, for order `o`, and never `k` for another one. -/
theorem sells_active (id : OrderId) (hI : ∀ d, P d → Sound o k n T d) :
    Sells o k n T P (activePaymentForOrder id) fun found d => P d ∧ ∀ x ∈ found,
      d.payments.get x.1 = some x.2 ∧ x.2.orderId = some id ∧ x.2.supersededAt = none := by
  have hlive : Sells o k n T P (fetch (.activePaymentForOrder id) fun w =>
      w.payments.findFirst fun _ p => p.orderId = some id && p.live)
      fun found d => P d ∧ ∀ x ∈ found,
        d.payments.get x.1 = some x.2 ∧ x.2.orderId = some id ∧ x.2.supersededAt = none := by
    refine sells_read hI fun w hw => ⟨hw, fun x hx => ?_⟩
    obtain ⟨hget, hp⟩ := Table.findFirst_some hx
    simp only [Payment.live, Bool.and_eq_true, decide_eq_true_eq, Option.isNone_iff_eq_none] at hp
    exact ⟨hget, hp.1, hp.2.1⟩
  refine hlive.seq fun holding => ?_
  cases holding with
  | some x => exact Serial.pure fun _ h => h
  | none =>
    refine Serial.pre (sells_read hI fun w hw => ⟨hw, fun x hx => ?_⟩) fun _ h => h.1
    obtain ⟨hget, hp⟩ := Table.findLast_some hx
    simp only [Bool.and_eq_true, decide_eq_true_eq, Option.isNone_iff_eq_none] at hp
    exact ⟨hget, hp.1, hp.2⟩

theorem capturing_calm {k' : PaymentId} (hk : k' ≠ k) {s : Stmt} (hs : s.capturing k') :
    s.calm o k := by
  unfold Stmt.capturing at hs
  split at hs
  · trivial
  · exact hs ▸ hk
  · trivial
  · exact hs.elim

/-- The capture for another order. -/
theorem sells_captureOther {id : OrderId} (hid : id ≠ o) (amountCents : Option Cents) :
    Sells o k n T (Sound o k n T) (captureOrderPayment id amountCents)
      fun _ => Sound o k n T := by
  refine (sells_active id fun _ h => h).seq fun found => ?_
  cases found with
  | none => exact Serial.pure fun _ h => h.1
  | some x =>
    refine Serial.pre (Serial.fact (F := x.1 ≠ k) fun hk => ?_) fun d h => ⟨h.1, fun hk => ?_⟩
    · have hcapturing := only_captureFound amountCents x.1 x.2 (A := Stmt.capturing x.1)
        (fun _ _ => rfl) rfl rfl
      exact sells_calm (hcapturing.mono fun _ => capturing_calm hk)
    · obtain ⟨hget, ho, _⟩ := h.2 x rfl
      obtain ⟨p, hp, htag⟩ := h.1.based.payment
      rw [hk, hp] at hget
      cases hget
      have hown : x.2.orderId = some o := congrArg Prod.fst htag
      exact hid (Option.some.inj (ho.symm.trans hown))

section Capture

variable {r : Order} {a : Cents}

/-- A statement on payments leaves the claim, and what was taken. -/
theorem held_payment {u : PaymentStmt} {c : Fate} {w : World}
    (hu : (Stmt.payment u).tame) (h : Held o k n T r (w.desk o n)) :
    Held o k n T r ((World.exec (.payment u) c w).2.desk o n) := by
  have hrow : (World.exec (.payment u) c w).2.orders = w.orders :=
    (World.frame_exec (.payment u) c w).orders rfl
  exact ⟨based_exec hu h.based, by simp only [World.desk, hrow]; exact h.row, h.isOpen, h.claimed⟩

theorem sells_markCaptured (k' : PaymentId) :
    Sells o k n T (fun d => Held o k n T r d ∧ d.taken = some a) (markPaymentCaptured k')
      fun _ d => Held o k n T r d ∧ d.taken = some a := by
  have honly : (markPaymentCaptured k').Only fun s =>
      s = .payment (.markCaptured k') ∨ s = .payment (.stampCaptured k') :=
    Only.seq (only_issue (.inl rfl)) fun _ => only_issue (.inr rfl)
  refine (Serial.only honly (fun _ h => h.1.sound) fun s c w hs _ h => ?_).post
    (fun _ _ h => h) fun _ _ h => h.1.sound
  rcases hs with rfl | rfl
  · exact ⟨held_payment trivial h.1, taken_exec h.2⟩
  · exact ⟨held_payment trivial h.1, taken_exec h.2⟩

/-- A request to Stripe leaves the quote. -/
theorem quoted_stripe {call : StripeCall} {c : Fate} {w : World}
    (h : Quoted o k n T r (w.desk o n)) :
    Quoted o k n T r ((World.exec (.stripe call) c w).2.desk o n) := by
  have hframe := World.frame_exec (.stripe call) c w
  have horders := hframe.orders rfl
  have hpayments := hframe.payments rfl
  refine ⟨⟨based_exec trivial h.based, ?_, h.isOpen, h.claimed⟩, h.total, h.splits, fun p hp => ?_⟩
  · simp only [World.desk, horders]
    exact h.row
  · simp only [World.desk, hpayments] at hp
    exact h.untaken p hp

/-- The request for the money. Unanswered, it was carried out or not. -/
theorem sells_ask (k' : PaymentId) (amountCents : Option Cents) :
    Sells o k n T (Quoted o k n T r) (attempt (perform (.stripe (.capture n k' amountCents))))
      fun answer d => Quoted o k n T r d ∧
        (d.taken = none ∨ d.taken = some (amountCents.getD T)) ∧
        (answer.isOk → d.taken = some (amountCents.getD T)) := by
  have hask : Serial machine (World.desk o n) (fun l c w => asksTheSame n 0 l c (w, ()) = true)
      (Sound o k n T) (Quoted o k n T r) (perform (.stripe (.capture n k' amountCents)))
      (fun _ d => Quoted o k n T r d ∧ d.taken = some (amountCents.getD T))
      fun _ d => Quoted o k n T r d ∧
        (d.taken = none ∨ d.taken = some (amountCents.getD T)) := by
    refine Serial.perform fun c w h hok => ?_
    obtain ⟨x, hx, hamount⟩ := h.based.intent
    have hx : w.provider.intents.get n = some x := hx
    have hasked : Provider.asked x amountCents = amountCents.getD T := by
      rw [Provider.asked, hamount]
    have hsame : x.captured.all (· = Provider.asked x amountCents) := by
      simpa [asksTheSame, hx] using hok
    obtain ⟨x', hx', hcap, hans⟩ :=
      Provider.answer_capture (k := k') c hx hsame
    have hq :
        Quoted o k n T r ((World.exec (.stripe (.capture n k' amountCents)) c w).2.desk o n) :=
      quoted_stripe h
    refine ⟨hq.toHeld.sound, ?_⟩
    rw [show machine.exec = World.exec from rfl] at *
    simp only [World.exec] at hq ⊢
    cases hres : w.provider.answer (.capture n k' amountCents) c with
    | mk res P =>
      rw [hres] at hx' hans hq
      have htaken (v : Option Cents) (hv : x'.captured = v) :
          Option.bind (P.intents.get n) Intent.captured = v := by
        rw [show P.intents.get n = some x' from hx', Option.bind_some, hv]
      cases res with
      | ok u => exact ⟨hq, htaken _ ((hans u rfl).trans (congrArg some hasked))⟩
      | error e =>
        refine ⟨hq, ?_⟩
        rcases hcap with hc | hc
        · exact .inl (htaken _ hc)
        · exact .inr (htaken _ (hc.trans (congrArg some hasked)))
  refine Discipline.Flow.post (Discipline.Flow.attempt hask) (fun answer A hA d hd => ?_)
    fun _ _ h => h
  cases answer with
  | ok m => exact ⟨(hA d hd).1, .inr (hA d hd).2, fun _ => (hA d hd).2⟩
  | error e => exact ⟨(hA d hd).1, (hA d hd).2, fun h => by cases h⟩

/-- What a capture of order `o` leaves. -/
def Settled (o : OrderId) (k : PaymentId) (n : IntentId) (T a : Cents) (r : Order) :
    CaptureOutcome → Desk → Prop
  | .captured, d | .alreadyCaptured, d => Held o k n T r d ∧ d.taken = some a
  | .retryable _, d | .fatal _, d => Quoted o k n T r d

theorem settled_verdict (failure : StripeFailure) {d : Desk} (h : Quoted o k n T r d) :
    Settled o k n T a r (captureVerdict failure) d := by
  unfold captureVerdict
  split <;> exact h

theorem sells_captureRefused (k' : PaymentId) (err : Err) :
    Sells o k n T (fun d => Quoted o k n T r d ∧ (d.taken = none ∨ d.taken = some a))
      (captureRefused k' n err) (Settled o k n T a r) := by
  have hverdict : Sells o k n T (fun d => Quoted o k n T r d ∧ (d.taken = none ∨ d.taken = some a))
      (pure (captureVerdict (classifyStripeError err.raw))) (Settled o k n T a r) :=
    Serial.pure fun _ h => settled_verdict _ h.1
  refine .ite (fun _ => ?_) fun _ => hverdict
  have hfind : Sells o k n T
      (fun d => Quoted o k n T r d ∧ (d.taken = none ∨ d.taken = some a))
      (attempt (retrievePaymentIntent n)) fun answer d =>
        (Quoted o k n T r d ∧ (d.taken = none ∨ d.taken = some a)) ∧
        ∀ found, answer = .ok found → d.intent = found := by
    have hread : Serial machine (World.desk o n)
        (fun l c w => asksTheSame n 0 l c (w, ()) = true) (Sound o k n T)
        (fun d => Quoted o k n T r d ∧ (d.taken = none ∨ d.taken = some a))
        (retrievePaymentIntent n) (fun found d =>
          (Quoted o k n T r d ∧ (d.taken = none ∨ d.taken = some a)) ∧ d.intent = found)
        fun _ d => Quoted o k n T r d ∧ (d.taken = none ∨ d.taken = some a) :=
      Serial.ask (fun _ h => h.1.toHeld.sound) (fun w h => ⟨h, rfl⟩) fun _ _ h => h
    refine Discipline.Flow.post (Discipline.Flow.attempt hread) (fun answer A hA d hd => ?_)
      fun _ _ h => h
    cases answer with
    | ok found => exact ⟨(hA d hd).1, fun _ he => by cases he; exact (hA d hd).2⟩
    | error e => exact ⟨hA d hd, fun _ he => by cases he⟩
  refine hfind.seq fun answer => ?_
  split
  next i =>
    by_cases hcap : i.captured.isSome
    · rw [if_pos hcap]
      refine Serial.pre ((sells_markCaptured (a := a) k').seq fun _ => Serial.pure fun _ h => h)
        fun d h => ⟨h.1.1.toHeld, ?_⟩
      have htaken : d.taken = i.captured := by rw [Desk.taken, h.2 _ rfl]; rfl
      rcases h.1.2 with hn | hs
      · rw [← htaken, hn] at hcap
        cases hcap
      · exact hs
    · rw [if_neg hcap]
      exact Serial.pre hverdict fun _ h => h.1
  next => exact Serial.pre hverdict fun _ h => h.1

theorem sells_captureHold (k' : PaymentId) (amountCents : Option Cents) :
    Sells o k n T (Quoted o k n T r) (captureHold k' n amountCents)
      (Settled o k n T (amountCents.getD T) r) := by
  refine (sells_ask k' amountCents).seq fun answer => ?_
  cases answer with
  | ok m =>
    refine Serial.pre ((sells_markCaptured k').seq fun _ => Serial.pure fun _ h => h)
      fun d h => ⟨h.1.toHeld, h.2.2 rfl⟩
  | error err => exact Serial.pre (sells_captureRefused k' err) fun d h => ⟨h.1, h.2.1⟩

/-- The capture for order `o`, whose payment says of no money yet that it was taken. -/
theorem sells_capture (amountCents : Option Cents) :
    Sells o k n T (Quoted o k n T r) (captureOrderPayment o amountCents)
      (Settled o k n T (amountCents.getD T) r) := by
  refine (sells_active o fun _ h => h.toHeld.sound).seq fun found => ?_
  cases found with
  | none => exact Serial.pure fun _ h => h.1
  | some x =>
    refine Serial.pre (Serial.fact (P := Quoted o k n T r)
      (F := x.2.stripePaymentIntentId = some n ∧ x.2.status ≠ .succeeded) fun hx => ?_)
      fun d h => ⟨h.1, ?_⟩
    · obtain ⟨hintent, hst⟩ := hx
      refine .ite (fun hs => absurd hs hst) fun _ => ?_
      refine .ite (fun _ => Serial.pure fun _ h => h) fun _ => ?_
      have hconfigured : Sells o k n T (Quoted o k n T r) stripeConfigured
          fun b d => Quoted o k n T r d ∧ b = true :=
        sells_read (fun _ h => h.toHeld.sound) fun w h => ⟨h, h.based.configured⟩
      refine hconfigured.seq fun b => Serial.fact fun hb => ?_
      rw [if_pos hb]
      simp only [hintent]
      exact .ite (fun _ => Serial.pure fun _ h => h) fun _ => sells_captureHold x.1 amountCents
    · obtain ⟨hget, ho, hnone⟩ := h.2 x rfl
      have hk : x.1 = k := h.1.based.active x.1 x.2 hget ho hnone
      obtain ⟨p, hp, htag⟩ := h.1.based.payment
      rw [hk] at hget
      cases hp.symm.trans hget
      exact ⟨congrArg Prod.snd htag, h.1.untaken _ hp⟩

end Capture

section Assign

variable {r order : Order} {a : Cents}

/-- The claim of an order in an open search finds it as it was quoted. -/
theorem sells_claim {statuses : List OrderStatus} (user : UserId)
    (hopen : ∀ st ∈ statuses, st ∈ searchStatuses) :
    Sells o k n T (fun d => Sound o k n T d ∧ d.row = some order)
      (perform (.order (.claim o statuses user))) fun m d => Sound o k n T d ∧
        (m ≠ 0 → Quoted o k n T { order with inspectorId := some user } d ∧
          order.totalCents = T ∧ order.splits) := by
  refine Serial.perform fun c w h _ => ?_
  have hsound := sound_exec (s := .order (.claim o statuses user)) (c := c) (.inr trivial) h.1
  have hrow : w.orders.get (OrderStmt.claim o statuses user).order = some order := h.2
  refine ⟨hsound, ?_⟩
  rw [show machine.exec = World.exec from rfl]
  rcases World.exec_orderStmt (c := c) hrow with ⟨_, he⟩ | ⟨_, he⟩ | ⟨r', hr', he⟩
  · rw [he]
    exact h.1
  · rw [he]
    exact ⟨h.1, fun hm => absurd rfl hm⟩
  · rw [he] at hsound ⊢
    refine ⟨hsound, fun _ => ?_⟩
    simp only [OrderStmt.rewrite] at hr'
    split at hr'
    next hg =>
      cases hr'
      obtain ⟨r, hr, hpromise⟩ := h.1.row
      cases hr.symm.trans h.2
      have hst : order.isOpen := by
        rw [Order.isOpen]
        exact decide_eq_true (hopen _ hg.1)
      obtain ⟨ht, hs, hu⟩ := hpromise.free hst hg.2
      exact ⟨⟨⟨hsound.based, by simp [World.desk, OrderStmt.order], hst, by simp⟩, ht, hs, hu⟩,
        ht, hs⟩
    next => cases hr'

/-- Nobody or somebody has the order, at the price of its quote. -/
structure Loose (o : OrderId) (k : PaymentId) (n : IntentId) (T : Cents) (r : Order) (d : Desk) :
    Prop where
  based : Based o k n T d
  row : d.row = some r
  waiting : r.status ≠ assigned
  total : r.totalCents = T
  splits : r.splits
  untaken : d.Untaken k

theorem Loose.sound {d : Desk} (h : Loose o k n T r d) : Sound o k n T d :=
  ⟨h.based, r, h.row, fun _ _ => ⟨h.total, h.splits, h.untaken⟩, fun hs => absurd hs h.waiting⟩

theorem sells_releaseClaim (user : UserId) :
    Sells o k n T (Quoted o k n T r) (releaseOrderClaim o user) fun _ => Sound o k n T := by
  have honly : (releaseOrderClaim o user).Only (· = .order (.releaseClaim o user)) :=
    only_issue rfl
  refine (Serial.only (P := fun d => ∃ r, Loose o k n T r d) honly
    (fun _ ⟨r, h⟩ => h.sound) fun s c w hs _ h => ?_).weaken
    (fun d h => ⟨r, h.based, h.row, not_open_assigned h.isOpen, h.total, h.splits, h.untaken⟩)
    (fun _ _ ⟨r, h⟩ => h.sound) fun _ _ ⟨r, h⟩ => h.sound
  subst hs
  obtain ⟨r, h⟩ := h
  obtain ⟨r', hr', heff⟩ := World.exec_order (s := .order (.releaseClaim o user)) (c := c) h.row
  have hbased := based_exec (s := .order (.releaseClaim o user)) (c := c) trivial h.based
  have hpay := (World.frame_exec (.order (.releaseClaim o user)) c w).payments rfl
  have huntaken : ((World.exec (.order (.releaseClaim o user)) c w).2.desk o n).Untaken k := by
    intro p hp
    simp only [World.desk, hpay] at hp
    exact h.untaken p hp
  cases heff with
  | same => exact ⟨r, hbased, hr', h.waiting, h.total, h.splits, huntaken⟩
  | sale counter price at_ stmt => cases stmt
  | write u stmt row rewrite =>
    cases stmt
    simp only [OrderStmt.rewrite] at rewrite
    split at rewrite <;> cases rewrite
    exact ⟨_, hbased, hr', h.waiting, h.total, h.splits, huntaken⟩

/-- The order's price becomes what was taken. -/
theorem sells_setPrice {price : PriceBreakdown} (htotal : price.totalCents = a)
    (hsplits : price.platformFeeCents + price.inspectorShareCents = a) :
    Sells o k n T (fun d => Held o k n T r d ∧ d.taken = some a)
      (issue (.order (.setPrice o price))) fun _ d => ∃ r', Bought o k n T a r' d := by
  have hperform : Sells o k n T (fun d => Held o k n T r d ∧ d.taken = some a)
      (perform (.order (.setPrice o price))) fun _ d => ∃ r', Bought o k n T a r' d := by
    refine Serial.perform fun c w h _ => ?_
    have hbased := based_exec (s := .order (.setPrice o price)) (c := c) trivial h.1.based
    have htaken := taken_exec (s := .order (.setPrice o price)) (c := c) h.2
    have hrow : w.orders.get (OrderStmt.setPrice o price).order = some r := h.1.row
    rw [show machine.exec = World.exec from rfl]
    rcases World.exec_orderStmt (c := c) hrow with ⟨_, he⟩ | ⟨hn, _⟩ | ⟨r', hr', he⟩
    · rw [he]
      exact ⟨h.1.sound, h.1.sound⟩
    · cases hn
    · rw [he] at hbased htaken ⊢
      cases hr'
      have hbought : Bought o k n T a { r with
          totalCents := price.totalCents
          platformFeeCents := price.platformFeeCents
          inspectorShareCents := price.inspectorShareCents }
          (World.desk o n { w with orders := w.orders.set o { r with
            totalCents := price.totalCents
            platformFeeCents := price.platformFeeCents
            inspectorShareCents := price.inspectorShareCents } }) :=
        ⟨hbased, by simp [World.desk], fun _ => h.1.claimed, htotal, hsplits.trans htotal.symm,
          htaken⟩
      exact ⟨hbought.sound, _, hbought⟩
  exact hperform.seq fun _ => Serial.pure fun _ h => h

/-- The status of a sold order. -/
theorem sells_assigned (actor : Actor) :
    Sells o k n T (fun d => ∃ r, Bought o k n T a r d) (transition o assigned actor)
      fun _ => Sound o k n T := by
  have honly : (transition o assigned actor).Only fun s => s.aside ∨
      (∃ source legal, s = .order (.transition o source assigned legal)) ∨
      ∃ after, s = .order (.setInspectionDeadline o after) :=
    only_transition o assigned actor (fun source legal => .inr (.inl ⟨source, legal, rfl⟩))
      (fun _ => .inl trivial) fun after => .inr (.inr ⟨after, rfl⟩)
  refine (Serial.only honly (fun _ ⟨r, h⟩ => h.sound) fun s c w hs _ h => ?_).post
    (fun _ _ ⟨r, h⟩ => h.sound) fun _ _ ⟨r, h⟩ => h.sound
  obtain ⟨r, h⟩ := h
  rcases hs with hs | ⟨source, legal, rfl⟩ | ⟨after, rfl⟩
  · obtain ⟨hrow, hpay, hint⟩ := desk_aside (o := o) (n := n) (c := c) (w := w) hs
    exact ⟨r, h.same ⟨hrow, hpay, hint⟩ (based_exec (Stmt.aside_tame hs) h.based)⟩
  · obtain ⟨r', hr', heff⟩ := World.exec_order (s := .order (.transition o source assigned legal))
      (c := c) h.row
    have hbased := based_exec (s := .order (.transition o source assigned legal)) (c := c) trivial
      h.based
    cases heff with
    | same => exact ⟨r, hbased, hr', h.closed, h.total, h.splits, taken_exec h.taken⟩
    | sale counter price at_ stmt => cases stmt
    | write u stmt row rewrite =>
      cases stmt
      cases rewrite
      refine ⟨_, hbased, hr', fun ho => ?_, h.total, h.splits, taken_exec h.taken⟩
      exact absurd rfl (not_open_assigned ho)
  · obtain ⟨r', hr', heff⟩ := World.exec_order (s := .order (.setInspectionDeadline o after))
      (c := c) h.row
    have hbased := based_exec (s := .order (.setInspectionDeadline o after)) (c := c) trivial
      h.based
    cases heff with
    | same => exact ⟨r, hbased, hr', h.closed, h.total, h.splits, taken_exec h.taken⟩
    | sale counter price at_ stmt => cases stmt
    | write u stmt row rewrite =>
      cases stmt
      cases rewrite
      exact ⟨_, hbased, hr', h.closed, h.total, h.splits, taken_exec h.taken⟩

theorem settle_aside {s : Stmt} (hs : SettleStmt s) : s.aside := by
  cases hs with
  | promote h => cases h <;> trivial
  | _ => trivial

theorem aside_calm {s : Stmt} (hs : s.aside) : s.calm o k := by
  cases s with
  | offer u =>
    cases u with
    | create made => exact hs
    | _ => trivial
  | counterOffer u => trivial
  | event e => trivial
  | _ => exact hs.elim

theorem sells_completeSale (user : UserId) (actor : Actor) :
    Sells o k n T (fun d => ∃ r, Bought o k n T a r d) (do
      settleCounterOffersOnAssignment o user
      transition o assigned actor) fun _ => Sound o k n T := by
  have hsettle : Sells o k n T (fun d => ∃ r, Bought o k n T a r d)
      (settleCounterOffersOnAssignment o user) fun _ d => ∃ r, Bought o k n T a r d :=
    sells_aside ((only_settleCounterOffersOnAssignment o user).mono fun _ => settle_aside)
      (fun _ ⟨_, h⟩ => h.sound) fun _ _ ⟨r, h⟩ hd hb => ⟨r, h.same hd hb⟩
  exact hsettle.seq fun _ => sells_assigned actor

theorem bought_of_held {d : Desk} (h : Held o k n T r d) (ht : d.taken = some a)
    (htotal : r.totalCents = a) (hsplits : r.splits) : Bought o k n T a r d :=
  ⟨h.based, h.row, fun _ => h.claimed, htotal, hsplits, ht⟩

/-- What is charged below the total is the offer's own price. -/
theorem charge_splits {offer : OrderOffer} (hoffer : ∀ price, offer.priceCents = some price →
      offer.splits price) (hne : chargeCents offer order ≠ order.totalCents) :
    offer.platformFeeCents.getD order.platformFeeCents +
      offer.inspectorShareCents.getD order.inspectorShareCents = chargeCents offer order := by
  unfold chargeCents at hne ⊢
  cases hp : offer.priceCents with
  | none =>
    rw [hp] at hne
    simp at hne
  | some price =>
    obtain ⟨fee, share, hf, hs, hsum⟩ := hoffer price hp
    rw [hp] at hne
    have hmin : min price order.totalCents = price := by
      rw [Option.getD_some] at hne
      exact min_eq_left (le_of_not_ge fun hge => hne (min_eq_right hge))
    simp only [hf, hs, Option.getD_some, hsum, hmin]

theorem sells_completeAcceptance (offer : OrderOffer) (user : UserId)
    (hoffer : ∀ price, offer.priceCents = some price → offer.splits price)
    (hsplits : order.splits) :
    Sells o k n T
      (fun d => Held o k n T { order with inspectorId := some user } d ∧
        d.taken = some (chargeCents offer order))
      (completeAcceptance o offer order user) fun _ => Sound o k n T := by
  have hexpire : Sells o k n T
      (fun d => Held o k n T { order with inspectorId := some user } d ∧
        d.taken = some (chargeCents offer order))
      (issue (.offer (.updateMany (fun _ x => x.orderId = o && x.status = .pending) .expired)))
      fun _ d => Held o k n T { order with inspectorId := some user } d ∧
        d.taken = some (chargeCents offer order) :=
    sells_aside (only_issue trivial) (fun _ h => h.1.sound) fun _ _ h hd hb =>
      ⟨h.1.same hd hb, by rw [Desk.taken, hd.intent]; exact h.2⟩
  refine hexpire.seq fun _ => ?_
  have hprice : Sells o k n T
      (fun d => Held o k n T { order with inspectorId := some user } d ∧
        d.taken = some (chargeCents offer order))
      (Prog.when (chargeCents offer order ≠ order.totalCents) (lowerPrice o offer order user))
      fun _ d => ∃ r, Bought o k n T (chargeCents offer order) r d := by
    unfold Prog.when
    refine .ite (fun hne => ?_) fun heq => ?_
    · have hset : Sells o k n T (fun d =>
            Held o k n T { order with inspectorId := some user } d ∧
              d.taken = some (chargeCents offer order))
          (issue (.order (.setPrice o {
            totalCents := chargeCents offer order
            platformFeeCents := offer.platformFeeCents.getD order.platformFeeCents
            inspectorShareCents := offer.inspectorShareCents.getD order.inspectorShareCents })))
          fun _ d => ∃ r, Bought o k n T (chargeCents offer order) r d :=
        sells_setPrice rfl (charge_splits hoffer hne)
      refine hset.seq fun _ => ?_
      exact sells_aside (only_note _ _ _ fun _ => trivial) (fun _ ⟨_, h⟩ => h.sound)
        fun _ _ ⟨r, h⟩ hd hb => ⟨r, h.same hd hb⟩
    · have heq : chargeCents offer order = order.totalCents := not_not.mp heq
      exact Serial.pure fun d h => ⟨_, bought_of_held h.1 h.2 heq.symm hsplits⟩
  exact hprice.seq fun _ => sells_completeSale user _

theorem refund_calm {id : OrderId} {reason : RefundReason} {k' : PaymentId} {i : Option IntentId}
    {s : Stmt} (hs : RefundStmt id reason k' i s) : s.calm o k := by
  cases hs <;> trivial

theorem calm_rejectAcceptance {id : OrderId} (user : UserId) : (do
    issue (.offer (.updateMany (fun _ x => x.orderId = id &&
      (x.status = .pending || x.status = .accepted)) .expired))
    note id (.user user) .captureFailed
    let _ ← settleRefund id order.totalCents .captureFailed
    transition id cancelled .system
    captureFailed : Act Unit).Only (Stmt.calm o k) := by
  refine Only.seq (only_issue trivial) fun _ => ?_
  refine Only.seq (only_note _ _ _ fun _ => trivial) fun _ => ?_
  refine Only.seq (only_settleRefund id _ _ fun _ _ _ => refund_calm) fun _ => ?_
  refine Only.seq ?_ fun _ => only_fail _ _ _
  exact only_transition_plain _ _ _ (by decide) (fun _ _ => .inr rfl) fun _ => trivial

theorem calm_rejectAssignment {id : OrderId} (admin : UserId) : (do
    note id (.admin admin) .captureFailed
    let _ ← settleRefund id order.totalCents .captureFailed
    transition id cancelled (.admin admin)
    captureFailed : Act Unit).Only (Stmt.calm o k) := by
  refine Only.seq (only_note _ _ _ fun _ => trivial) fun _ => ?_
  refine Only.seq (only_settleRefund id _ _ fun _ _ _ => refund_calm) fun _ => ?_
  refine Only.seq ?_ fun _ => only_fail _ _ _
  exact only_transition_plain _ _ _ (by decide) (fun _ _ => .inr rfl) fun _ => trivial

theorem calm_deferAcceptance {id : OrderId} (offerId : OfferId) (user : UserId) : (do
    issue (.offer (.updateMany (fun j x => j = offerId && x.status = .accepted) .pending))
    note id (.user user) .captureDeferred
    captureUnavailable
      "The payment could not be taken right now. Please try accepting again shortly." :
    Act Unit).Only (Stmt.calm o k) :=
  Only.seq (only_issue trivial) fun _ => Only.seq (only_note _ _ _ fun _ => trivial) fun _ =>
    only_fail _ _ _

theorem sells_claimOffer (offerId : OfferId) (offer : OrderOffer) (user : UserId)
    (ho : offer.orderId = o)
    (hoffer : ∀ price, offer.priceCents = some price → offer.splits price) :
    Sells o k n T (fun d => Sound o k n T d ∧ d.row = some order)
      (claimOffer offerId offer order user) fun _ => Sound o k n T := by
  unfold claimOffer
  rw [ho]
  refine (sells_claim user fun _ h => h).seq fun claimed => ?_
  refine .ite (fun _ => Serial.throw fun _ h => h.1) fun hn => ?_
  refine Serial.pre (Serial.fact (P := Quoted o k n T { order with inspectorId := some user })
    (F := order.totalCents = T ∧ order.splits) fun hq => ?_) fun d h => h.2 hn
  obtain ⟨htotal, hsplits⟩ := hq
  have haccept : Sells o k n T (Quoted o k n T { order with inspectorId := some user })
      (issue (.offer (.updateMany (fun j x => j = offerId && x.status = .pending) .accepted)))
      fun _ => Quoted o k n T { order with inspectorId := some user } :=
    sells_aside (only_issue trivial) (fun _ h => h.toHeld.sound) fun _ _ h => h.same
  refine haccept.seq fun _ => ?_
  refine (sells_capture (captureAmount (chargeCents offer order) order.totalCents)).seq
    fun outcome => ?_
  have hasked : (captureAmount (chargeCents offer order) order.totalCents).getD T =
      chargeCents offer order := by
    unfold captureAmount
    split
    next he => rw [Option.getD_none, he, htotal]
    next => rfl
  rw [hasked]
  cases outcome with
  | retryable detail =>
    exact (sells_releaseClaim user).seq fun _ => sells_calm (calm_deferAcceptance offerId user)
  | fatal detail =>
    exact (sells_releaseClaim user).seq fun _ => sells_calm (calm_rejectAcceptance user)
  | captured => exact sells_completeAcceptance offer user hoffer hsplits
  | alreadyCaptured => exact sells_completeAcceptance offer user hoffer hsplits

/-- An attempt on another order. -/
theorem sells_claimOther (offerId : OfferId) (offer : OrderOffer) (user : UserId)
    (ho : offer.orderId ≠ o) :
    Sells o k n T (Sound o k n T) (claimOffer offerId offer order user) fun _ => Sound o k n T := by
  have hplain {u : OrderStmt} (hu : u.order = offer.orderId) : (Stmt.order u).calm o k :=
    .inl (hu.symm ▸ ho)
  refine (sells_calm ((only_perform _).mpr (hplain rfl))).seq fun claimed => ?_
  refine .ite (fun _ => Serial.throw fun _ h => h) fun _ => ?_
  have haccept : Sells o k n T (Sound o k n T)
      (issue (.offer (.updateMany (fun j x => j = offerId && x.status = .pending) .accepted)))
      fun _ => Sound o k n T := sells_calm (only_issue trivial)
  refine haccept.seq fun _ => ?_
  refine (sells_captureOther ho _).seq fun outcome => ?_
  have hrelease : Sells o k n T (Sound o k n T) (releaseOrderClaim offer.orderId user)
      fun _ => Sound o k n T := sells_calm (only_issue (hplain rfl))
  have hcomplete : (completeAcceptance offer.orderId offer order user).Only (Stmt.calm o k) := by
    refine Only.seq (only_issue trivial) fun _ => Only.seq (Only.when fun _ => ?_) fun _ => ?_
    · exact Only.seq (only_issue (hplain rfl)) fun _ => only_note _ _ _ fun _ => trivial
    · refine Only.seq ?_ fun _ => only_transition _ _ _ (fun _ _ => hplain rfl) (fun _ => trivial)
        fun _ => hplain rfl
      exact (only_settleCounterOffersOnAssignment _ user).mono fun _ h =>
        aside_calm (settle_aside h)
  cases outcome with
  | retryable detail =>
    exact hrelease.seq fun _ => sells_calm (calm_deferAcceptance offerId user)
  | fatal detail => exact hrelease.seq fun _ => sells_calm (calm_rejectAcceptance user)
  | captured => exact sells_calm hcomplete
  | alreadyCaptured => exact sells_calm hcomplete

theorem sells_acceptOffer (offerId : OfferId) (user : UserId) :
    Sells o k n T (Sound o k n T) (acceptOffer offerId user) fun _ => Sound o k n T := by
  have hlook {α : Type} {l : Site} {f : World → α} {P : Desk → Prop}
      (hP : ∀ d, P d → Sound o k n T d) : Sells o k n T P (fetch l f) fun _ => P :=
    sells_read hP fun _ h => h
  have hfind : Sells o k n T (Sound o k n T) (fetch .acceptOffer (·.offers.get offerId))
      fun found d => Sound o k n T d ∧ ∀ offer, found = some offer → offer.orderId = o →
        ∀ price, offer.priceCents = some price → offer.splits price :=
    sells_read (fun _ h => h) fun w h => ⟨h, fun offer hf ho price hp =>
      h.based.offers offerId offer price hf ho hp⟩
  refine hfind.seq fun found => Serial.fact fun hoffer => ?_
  cases found with
  | none => exact Serial.throw fun _ h => h
  | some offer =>
    refine .ite (fun _ => Serial.throw fun _ h => h) fun _ => ?_
    refine (hlook fun _ h => h).seq fun now => ?_
    refine .ite (fun _ => Serial.throw fun _ h => h) fun _ => ?_
    refine Discipline.Flow.seq (sells_calm (only_assertInspectorPro user)) fun _ => ?_
    have horder : Sells o k n T (Sound o k n T) (fetch .acceptOffer (·.orders.get offer.orderId))
        fun found d => Sound o k n T d ∧ (offer.orderId = o → d.row = found) :=
      sells_read (fun _ h => h) fun w h => ⟨h, fun ho => ho ▸ rfl⟩
    refine horder.seq fun found => ?_
    cases found with
    | none => exact Serial.throw fun _ h => h.1
    | some order =>
      refine .ite (fun _ => Serial.throw fun _ h => h.1) fun _ => ?_
      refine (hlook fun _ h => h.1).seq fun locked => ?_
      refine .ite (fun _ => Serial.throw fun _ h => h.1) fun _ => ?_
      by_cases ho : offer.orderId = o
      · exact Serial.pre (sells_claimOffer offerId offer user ho (hoffer offer rfl ho))
          fun _ h => ⟨h.1, h.2 ho⟩
      · exact Serial.pre (sells_claimOther offerId offer user ho) fun _ h => h.1

theorem aside_acceptChosenOffer {id : OrderId} (inspector : UserId) :
    (acceptChosenOffer id inspector).Only Stmt.aside := by
  refine Only.seq (only_fetch _ _) fun found => ?_
  split
  · exact only_issue trivial
  · exact Only.seq only_readClock fun now => only_issue rfl

theorem sells_completeAssignment (inspector admin : UserId) :
    Sells o k n T (fun d => ∃ r, Bought o k n T a r d) (completeAssignment o inspector admin)
      fun _ => Sound o k n T := by
  have hoffers : Sells o k n T (fun d => ∃ r, Bought o k n T a r d)
      (expirePendingOffers o (some inspector)) fun _ d => ∃ r, Bought o k n T a r d :=
    sells_aside (only_expirePendingOffers o _ fun _ => trivial) (fun _ ⟨_, h⟩ => h.sound)
      fun _ _ ⟨r, h⟩ hd hb => ⟨r, h.same hd hb⟩
  have hchosen : Sells o k n T (fun d => ∃ r, Bought o k n T a r d)
      (acceptChosenOffer o inspector) fun _ d => ∃ r, Bought o k n T a r d := by
    refine sells_aside ?_ (fun _ ⟨_, h⟩ => h.sound) fun _ _ ⟨r, h⟩ hd hb => ⟨r, h.same hd hb⟩
    exact aside_acceptChosenOffer inspector
  exact hoffers.seq fun _ => hchosen.seq fun _ => sells_completeSale inspector _

theorem sells_claimAssignment (inspector admin : UserId)
    (hlegal : canTransition order.status assigned) :
    Sells o k n T (fun d => Sound o k n T d ∧ d.row = some order)
      (claimAssignment o order inspector admin) fun _ => Sound o k n T := by
  have hopen (st : OrderStatus) (hst : st ∈ [order.status]) : st ∈ searchStatuses := by
    rw [List.mem_singleton.mp hst]
    exact canTransition_assigned hlegal
  refine (sells_claim inspector hopen).seq fun claimed => ?_
  refine .ite (fun _ => Serial.throw fun _ h => h.1) fun hn => ?_
  refine Serial.pre (Serial.fact (P := Quoted o k n T { order with inspectorId := some inspector })
    (F := order.totalCents = T ∧ order.splits) fun hq => ?_) fun d h => h.2 hn
  refine (sells_capture none).seq fun outcome => ?_
  have hbought : Sells o k n T
      (fun d => Held o k n T { order with inspectorId := some inspector } d ∧ d.taken = some T)
      (completeAssignment o inspector admin) fun _ => Sound o k n T :=
    (sells_completeAssignment inspector admin).pre fun d h =>
      ⟨_, bought_of_held h.1 h.2 hq.1 hq.2⟩
  cases outcome with
  | retryable detail =>
    exact (sells_releaseClaim inspector).seq fun _ => sells_calm (only_fail _ _ _)
  | fatal detail =>
    exact (sells_releaseClaim inspector).seq fun _ => sells_calm (calm_rejectAssignment admin)
  | captured => exact hbought
  | alreadyCaptured => exact hbought

theorem sells_assignOther {id : OrderId} (hid : id ≠ o) (inspector admin : UserId) :
    Sells o k n T (Sound o k n T) (claimAssignment id order inspector admin)
      fun _ => Sound o k n T := by
  have hplain {u : OrderStmt} (hu : u.order = id) : (Stmt.order u).calm o k := .inl (hu.symm ▸ hid)
  refine (sells_calm ((only_perform _).mpr (hplain rfl))).seq fun claimed => ?_
  refine .ite (fun _ => Serial.throw fun _ h => h) fun _ => ?_
  refine (sells_captureOther hid none).seq fun outcome => ?_
  have hrelease : Sells o k n T (Sound o k n T) (releaseOrderClaim id inspector)
      fun _ => Sound o k n T := sells_calm (only_issue (hplain rfl))
  have hcomplete : (completeAssignment id inspector admin).Only (Stmt.calm o k) := by
    refine Only.seq (only_expirePendingOffers id _ fun _ => trivial) fun _ => ?_
    refine Only.seq ((aside_acceptChosenOffer inspector).mono fun _ => aside_calm) fun _ => ?_
    refine Only.seq ?_ fun _ => only_transition _ _ _ (fun _ _ => hplain rfl) (fun _ => trivial)
      fun _ => hplain rfl
    exact (only_settleCounterOffersOnAssignment _ inspector).mono fun _ h =>
      aside_calm (settle_aside h)
  cases outcome with
  | retryable detail => exact hrelease.seq fun _ => sells_calm (only_fail _ _ _)
  | fatal detail => exact hrelease.seq fun _ => sells_calm (calm_rejectAssignment admin)
  | captured => exact sells_calm hcomplete
  | alreadyCaptured => exact sells_calm hcomplete

theorem sells_adminAssign (id : OrderId) (inspector admin : UserId) :
    Sells o k n T (Sound o k n T) (adminAssign id inspector admin) fun _ => Sound o k n T := by
  have hfind : Sells o k n T (Sound o k n T) (fetch .requireOrder (·.orders.get id))
      fun found d => Sound o k n T d ∧ (id = o → d.row = found) :=
    sells_read (fun _ h => h) fun w h => ⟨h, fun ho => ho ▸ rfl⟩
  have horder : Sells o k n T (Sound o k n T) (requireOrder id)
      fun order d => Sound o k n T d ∧ (id = o → d.row = some order) := by
    refine hfind.seq fun found => ?_
    cases found with
    | some order => exact Serial.pure fun _ h => h
    | none => exact Serial.throw fun _ h => h.1
  refine horder.seq fun order => ?_
  refine .ite (fun _ => Serial.throw fun _ h => h.1) fun _ => ?_
  have hlook {α : Type} {l : Site} {f : World → α} : Sells o k n T
      (fun d => Sound o k n T d ∧ (id = o → d.row = some order)) (fetch l f)
      fun _ d => Sound o k n T d ∧ (id = o → d.row = some order) :=
    sells_read (fun _ h => h.1) fun _ h => h
  refine hlook.seq fun profile => ?_
  refine .ite (fun _ => Serial.throw fun _ h => h.1) fun _ => ?_
  refine .ite (fun _ => Serial.throw fun _ h => h.1) fun hlegal => ?_
  by_cases ho : id = o
  · subst ho
    exact Serial.pre (sells_claimAssignment inspector admin (by simpa using hlegal))
      fun _ h => ⟨h.1, h.2 rfl⟩
  · exact Serial.pre (sells_assignOther ho inspector admin) fun _ h => h.1

end Assign

end Parts

section Runs

variable {o : OrderId} {k : PaymentId} {n : IntentId} {T : Cents}

theorem sells_op {op : Op} (h : op.attempts) :
    Sells o k n T (Sound o k n T) op.prog fun _ => Sound o k n T := by
  cases op with
  | acceptOffer offer user => exact sells_acceptOffer offer user
  | adminAssign id inspector admin => exact sells_adminAssign id inspector admin
  | _ => exact h.elim

theorem Authorized.sound {w : World} {r : Order} (h : Authorized w o k n)
    (hr : w.orders.get o = some r) : Sound o k n r.totalCents (w.desk o n) := by
  obtain ⟨hsplits, hamount⟩ := h.order r hr
  obtain ⟨p, hp, htag, hauth⟩ := h.searched.payment
  obtain ⟨x, hx, _⟩ := h.searched.intent
  obtain ⟨r', hr', hopen, _⟩ := h.searched.order
  cases hr.symm.trans hr'
  refine ⟨⟨⟨p, hp, htag⟩, h.active, h.searched.own, ⟨x, hx, hamount x hx⟩, h.offers,
    h.configured⟩, r, hr, fun _ _ => ⟨rfl, hsplits, fun q hq => ?_⟩, fun hs => ?_⟩
  · cases hp.symm.trans hq
    rw [hauth]
    exact PaymentStatus.noConfusion
  · exact absurd hs (not_open_assigned hopen)

/-- An assigned order costs what was captured, where every request to capture finds nothing taken
or just what it asks for. -/
theorem captured_total (w : World) (ops : List Op) (o : OrderId) (k : PaymentId) (n : IntentId)
    (g : Run Unit) (r : Order) (hops : ∀ op ∈ ops, op.attempts) (hw : Authorized w o k n)
    (hreach : Pool.Reach machine noRecord (asksTheSame n) (sequence w ops) g)
    (hr : g.state.orders.get o = some r) (hs : r.status = assigned) :
    ∃ x c, g.state.provider.intents.get n = some x ∧ x.captured = some c ∧ r.totalCents = c ∧
      r.inspectorShareCents + r.platformFeeCents = c := by
  obtain ⟨q, hq, _⟩ := hw.searched.order
  have hstart := hw.sound hq
  have hseries : Sells o k n q.totalCents (Sound o k n q.totalCents)
      (Prog.series (ops.map Op.prog)) fun _ => Sound o k n q.totalCents := by
    refine Serial.series fun p hp => ?_
    obtain ⟨op, hop, rfl⟩ := List.mem_map.mp hp
    exact sells_op (hops op hop)
  obtain ⟨hsound, _⟩ := Serial.reach hseries desk_tick (fun _ _ _ _ h => h) hstart hstart hreach
  obtain ⟨r', hr', hpromise⟩ := hsound.row
  cases hr'.symm.trans hr
  obtain ⟨htaken, hsplits⟩ := hpromise.sold hs
  obtain ⟨x, hx, hcap⟩ := Option.bind_eq_some_iff.mp htaken
  exact ⟨x, r.totalCents, hx, hcap, rfl, (Int.add_comm _ _).trans hsplits⟩

end Runs

section Lost

/-- An offer below the quote. -/
def cheapOffer : OrderOffer := { pendingOffer 8 with
  priceCents := some 8000
  platformFeeCents := some 1600
  inspectorShareCents := some 6400 }

/-- The paid order, offered to one inspector below the quote and to another at it. -/
def cheapWorld : World := { searchWorld with
  offers := (Table.empty.set 1 cheapOffer).set 2 (pendingOffer 9) }

/-- The cheap inspector accepts, and then the other one. -/
def cheapThenQuoted : Run Unit := sequence cheapWorld [.acceptOffer 1 8, .acceptOffer 2 9]

/-- The order's status and total, and what Stripe has captured. -/
def totalTaken (g : Run Unit) : Option (OrderStatus × Cents) × Option Cents :=
  ((g.state.orders.get 1).map fun r => (r.status, r.totalCents),
    (g.state.provider.intents.get 9).bind Intent.captured)

theorem authorized_cheapWorld : Authorized cheapWorld 1 5 9 where
  searched := {
    order := ⟨paidOrder, rfl, rfl, rfl⟩
    payment := ⟨heldPayment, rfl, rfl, rfl⟩
    intent := ⟨⟨10000, .requiresCapture⟩, rfl, rfl⟩
    own := searched_searchWorld.own }
  order r hr := by
    cases hr
    refine ⟨rfl, fun x hx => ?_⟩
    cases hx
    rfl
  active k' p hp _ _ := by
    by_contra hk
    simp [cheapWorld, searchWorld, World.empty, hk] at hp
  offers j offer price hj _ hprice := by
    simp only [cheapWorld, Table.get_set] at hj
    split at hj
    · cases hj
      cases hprice
      exact ⟨_, _, rfl, rfl, rfl⟩
    · split at hj
      · cases hj
        cases hprice
        exact ⟨_, _, rfl, rfl, rfl⟩
      · cases hj
  configured := rfl

theorem attempts_cheap : ∀ op ∈ [Op.acceptOffer 1 8, .acceptOffer 2 9], op.attempts := by
  simp [Op.attempts]

/-- The capture of 80 goes through and its answer is lost; the second acceptance finds the intent
captured, and assigns the order at 100. -/
theorem captured_less_than_total : ¬ TotalLaw fun _ => anyStep := by
  intro hlaw
  have hrun : Pool.observe machine noRecord anyStep totalTaken
      (goes 0 9 ++ [.run 0 (.lost .connection)] ++ goes 0 24) (.run 0 .ok) cheapThenQuoted =
      some ((some (assigned, 10000), some 8000), (some (assigned, 10000), some 8000)) := by
    decide +kernel
  obtain ⟨g, g', hg, hm, hs, _, hafter⟩ := Pool.observe_eq hrun
  obtain ⟨hrow, hcap⟩ := Prod.mk.inj hafter
  obtain ⟨r, hr, hrs⟩ := Option.map_eq_some_iff.mp hrow
  obtain ⟨hst, htotal⟩ := Prod.mk.inj hrs
  obtain ⟨x, c, hx, hxc, hc, _⟩ := hlaw cheapWorld _ 1 5 9 g' r attempts_cheap
    authorized_cheapWorld (.next (m := .run 0 .ok) hg hm hs) hr hst
  rw [hx, Option.bind_some, hxc] at hcap
  cases hcap
  rw [htotal] at hc
  exact absurd hc (by decide)

/-- The cheap inspector's acceptance goes through: the order costs what was captured. -/
theorem captured_total_cheap : ∃ (g : Run Unit) (r : Order),
    g.state.orders.get 1 = some r ∧ r.status = assigned ∧ r.totalCents = 8000 ∧
    ∃ x c, g.state.provider.intents.get 9 = some x ∧ x.captured = some c ∧ r.totalCents = c ∧
      r.inspectorShareCents + r.platformFeeCents = c := by
  have hrun : Pool.observe machine noRecord (asksTheSame 9) totalTaken (goes 0 24) (.run 0 .ok)
      cheapThenQuoted =
      some ((some (assigned, 8000), some 8000), (some (assigned, 8000), some 8000)) := by
    decide +kernel
  obtain ⟨g, g', hg, hm, hs, _, hafter⟩ := Pool.observe_eq hrun
  obtain ⟨hrow, _⟩ := Prod.mk.inj hafter
  obtain ⟨r, hr, hrs⟩ := Option.map_eq_some_iff.mp hrow
  obtain ⟨hst, htotal⟩ := Prod.mk.inj hrs
  refine ⟨g', r, hr, hst, htotal, ?_⟩
  exact captured_total cheapWorld _ 1 5 9 g' r attempts_cheap authorized_cheapWorld
    (.next (m := .run 0 .ok) hg hm hs) hr hst

end Lost

end CarSalePro
