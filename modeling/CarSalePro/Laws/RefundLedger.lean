import CarSalePro.Interleave.Recall
import CarSalePro.Laws.OneEnding
import CarSalePro.Orders.Served

namespace CarSalePro

open Store Interleave Prog

/-- What gives back the money of orders, and what Stripe says of it. -/
inductive RefundCall where
  | settleRefund (order : OrderId) (amountCents : Cents) (reason : RefundReason)
  | retryStuckRefunds (limit : Nat)
  | adminRetryRefund (order : OrderId) (reason : RefundReason)
  | chargeRefunded (event : StripeEventId) (intent : Option IntentId)
  deriving DecidableEq, Repr

def RefundCall.prog : RefundCall → Act Unit
  | settleRefund order amountCents reason => do
    let _ ← CarSalePro.settleRefund order amountCents reason
    pure ()
  | retryStuckRefunds limit => do
    let _ ← CarSalePro.retryStuckRefunds limit
    pure ()
  | adminRetryRefund order reason => CarSalePro.adminRetryRefund order reason
  | chargeRefunded event intent => handleWebhook event (processWebhook (.chargeRefunded intent))

/-- A sweep will take the refund up: this is what `retryStuckRefunds` selects by, once the time has
come. -/
def Refund.scheduled (r : Refund) : Bool :=
  r.status ≠ .settled && r.nextRetryAt.isSome && r.attempts < moneyRetryMaxAttempts

namespace World

variable (w : World) (k : OrderId × RefundReason)

/-- The refund row says `succeeded`. -/
def refundSucceeded : Bool := (w.refunds.get k).any (·.status = .settled)

def refundScheduled : Bool := (w.refunds.get k).any (·.scheduled)

/-- Stripe has refunded the charge, under the key of this refund. -/
def refundedAtStripe : Bool := (w.provider.refunds.get k).isSome

/-- The order's payment is captured, and this is a refund of captured money. -/
def refundable : Bool :=
  k.2 ≠ .searchExpired &&
    (w.payments.findFirst fun _ p => p.orderId = some k.1 && p.live).any
      fun x => x.2.status = .succeeded

end World

/-- What a call remembers of the refund: that it has read the row when it said nothing of a success,
how many attempts it read last, whether Stripe had refunded the charge when it asked for it, and
whether Stripe had, with the row still open, when it looked for the order's payment. -/
structure RefundMemory where
  unsettled : Bool
  attempts : Nat
  asked : Bool
  refunded : Option Bool

namespace RefundMemory

def empty : RefundMemory := ⟨false, 0, false, none⟩

def note (k : OrderId × RefundReason) (m : RefundMemory) (l : Label Site Stmt) (w : World) :
    RefundMemory :=
  match l with
  | .ask (.findRefund id reason) =>
    if (id, reason) = k then
      { m with
        unsettled := m.unsettled || !w.refundSucceeded k
        attempts := (w.refunds.get k).elim 0 (·.attempts) }
    else m
  | .ask .retryStuckRefunds => { m with refunded := none }
  | .ask (.activePaymentForOrder id) =>
    if id = k.1 then
      { m with refunded := m.refunded.or (some (w.refundedAtStripe k && !w.refundSucceeded k)) }
    else m
  | .call (.stripe (.createRefund _ _ id reason)) =>
    if (id, reason) = k then { m with asked := w.refundedAtStripe k } else m
  | _ => m

/-- A refund is parked that was read unsettled. It is parked for good when its attempts are used up,
or when Stripe had not carried it out before the request. A refund is taken off the queue when no
payment was looked for, or none that was owed. -/
def may (k : OrderId × RefundReason) (m : RefundMemory) : Stmt → Prop
  | .upsertRefund id reason row => (id, reason) = k → row.status ≠ .settled →
    m.unsettled ∧ (row.scheduled ∨ moneyRetryMaxAttempts ≤ m.attempts + 1 ∨ m.asked = false)
  | .amendRefund id reason .terminate => (id, reason) = k → m.refunded ≠ some true
  | _ => True

end RefundMemory

/-- What each call remembers. -/
abbrev RefundLog := Nat → RefundMemory

def recordRefunds (k : OrderId × RefundReason) : Recorder Site Stmt World RefundLog :=
  fun t l w _ h => Function.update h t ((h t).note k l w)

/-- The calls, all at their first step. -/
def callsAtOnce (w : World) (calls : List RefundCall) : Run RefundLog :=
  ⟨w, fun _ => .empty, calls.map RefundCall.prog⟩

/-- The row agrees with Stripe, or a retry is scheduled that may bring it to. -/
def RefundsAgree (k : OrderId × RefundReason) (w : World) : Prop :=
  (w.refundSucceeded k → w.refundedAtStripe k) ∧
    (w.refundedAtStripe k → w.refundSucceeded k ∨ w.refundScheduled k)

/-- The ledger of one refund agrees with Stripe when no call is running and no retry is scheduled,
and a refund that has succeeded stays so, in every interleaving of steps that meet `C` in which only
Stripe fails. -/
def RefundLedgerLaw (C : OrderId × RefundReason → StepGuard RefundLog) : Prop :=
  ∀ (w : World) (calls : List RefundCall) (k : OrderId × RefundReason) (g g' : Run RefundLog),
    w.stripeConfigured → RefundsAgree k w →
    Pool.Reach machine (recordRefunds k) (both databaseUp (C k)) (callsAtOnce w calls) g →
    Pool.Reach machine (recordRefunds k) (both databaseUp (C k)) g g' →
    (g.AllEnded → g.state.refundScheduled k = false →
      (g.state.refundSucceeded k ↔ g.state.refundedAtStripe k)) ∧
    (g.state.refundSucceeded k → g'.state.refundSucceeded k)

/-- The answer rules out another try. -/
def isFinal : Except Err Nat → Bool
  | .ok _ => false
  | .error e => !(classifyStripeError e.raw).retryable

/-- As long as Stripe has refunded the charge and the row does not say so, the order's payment is
found captured; and a final refusal is of a refund that Stripe has not carried out. -/
def staysOwed (k : OrderId × RefundReason) (l : Label Site Stmt) (c : Fate) (w : World) : Bool :=
  match l with
  | .ask (.activePaymentForOrder id) =>
    id ≠ k.1 || w.refundSucceeded k || !w.refundedAtStripe k || w.refundable k
  | .call (.stripe (.createRefund intent amountCents id reason)) =>
    (id, reason) ≠ k ||
      !isFinal (World.exec (.stripe (.createRefund intent amountCents id reason)) c w).1 ||
      !(World.exec (.stripe (.createRefund intent amountCents id reason)) c w).2.refundedAtStripe k
  | _ => true

/-- Besides, nobody records the refund between a call's read of the row and its parking. A refund
that Stripe has carried out is parked with attempts left, and for good only if it was carried out
before this call asked for it; it is taken off the queue only if it was carried out before this call
looked for the payment. -/
def refundsInTime (k : OrderId × RefundReason) : StepGuard RefundLog := fun t l c x =>
  staysOwed k l c x.1 &&
  match l with
  | .call (.upsertRefund id reason row) =>
    (id, reason) ≠ k || row.status = .settled ||
      (!x.1.refundSucceeded k || !(x.2 t).unsettled) &&
      (!x.1.refundedAtStripe k ||
        (x.2 t).attempts + 1 < moneyRetryMaxAttempts && (row.scheduled || (x.2 t).asked))
  | .call (.amendRefund id reason .terminate) =>
    (id, reason) ≠ k || x.1.refundSucceeded k || !x.1.refundedAtStripe k ||
      (x.2 t).refunded = some true
  | _ => true

/-- A refund that is parked has not succeeded, and one that is parked for good or taken off the
queue was not carried out by Stripe, or has succeeded. -/
def givesUpUnrefunded (k : OrderId × RefundReason) : StepGuard RefundLog := fun _ label _ x =>
  match label with
  | .call (.upsertRefund id reason row) =>
    (id, reason) ≠ k || row.status = .settled ||
      !x.1.refundSucceeded k && (row.scheduled || !x.1.refundedAtStripe k)
  | .call (.amendRefund id reason .terminate) =>
    (id, reason) ≠ k || x.1.refundSucceeded k || !x.1.refundedAtStripe k
  | _ => true

section Effects

variable {k : OrderId × RefundReason} {s : Stmt} {c : Fate} {w : World}

/-- The statement neither writes the refund nor asks Stripe for it. -/
def Stmt.sparesRefund (k : OrderId × RefundReason) : Stmt → Prop
  | .upsertRefund id reason _ | .amendRefund id reason _ | .stripe (.createRefund _ _ id reason) =>
    (id, reason) ≠ k
  | _ => True

theorem exec_sparesRefund (hs : s.sparesRefund k) :
    (World.exec s c w).2.refunds.get k = w.refunds.get k ∧
      (World.exec s c w).2.refundedAtStripe k = w.refundedAtStripe k := by
  constructor
  · rcases World.exec_cases s c w with ⟨call, rfl, he⟩ | ⟨-, -, he⟩ | ⟨-, -, he⟩
    · rw [he]
    · rw [he]
    · by_cases ht : s.touchesRefunds = false
      · rw [(World.frame_exec s c w).refunds ht]
      rw [he]
      cases s with
      | upsertRefund id reason row =>
        have hne : k ≠ (id, reason) := fun heq => hs heq.symm
        simp [World.write, hne]
      | amendRefund id reason a =>
        have hne : k ≠ (id, reason) := fun heq => hs heq.symm
        simp only [World.write]
        split
        · rfl
        · simp [hne]
      | _ => exact absurd rfl ht
  · unfold World.refundedAtStripe
    rcases World.exec_providerRefund s c w k with hsame | ⟨i, a, rfl⟩
    · rw [hsame]
    · exact absurd rfl hs

theorem carryOut_createRefund {P P' : Provider} {intent : IntentId} {amountCents : Cents}
    (h : P.carryOut (.createRefund intent amountCents k.1 k.2) = .ok P') :
    (P'.refunds.get k).isSome := by
  simp only [Provider.carryOut] at h
  split at h
  · cases h
  · split at h
    next hserved =>
      cases h
      exact hserved
    next =>
      split at h
      · split at h <;> cases h
        simp
      · cases h

/-- What Stripe has refunded stays refunded. -/
theorem refundedAtStripe_exec (h : w.refundedAtStripe k) :
    (World.exec s c w).2.refundedAtStripe k := by
  unfold World.refundedAtStripe at *
  rcases World.exec_providerRefund s c w k with hsame | ⟨i, a, rfl⟩
  · rw [hsame]
    exact h
  · rcases World.exec_cases (.stripe (.createRefund i a k.1 k.2)) c w with
      ⟨call, hcall, he⟩ | ⟨ht, -, -⟩ | ⟨ht, -, -⟩
    · cases hcall
      rw [he]
      rcases w.provider.answer_state (.createRefund i a k.1 k.2) c with hs | hs
      · rw [hs]
        exact h
      · exact carryOut_createRefund hs
    · cases ht
    · cases ht

/-- An answered request was carried out, now or before. -/
theorem answer_granted {P P' : Provider} {call : StripeCall} {u : Unit}
    (h : P.answer call c = (.ok u, P')) :
    P.carryOut call = .ok P' ∨ P.served call ∧ P' = P := by
  have hdone (h : P.answer call .ok = (.ok u, P')) : P.carryOut call = .ok P' := by
    simp only [Provider.answer] at h
    cases hcarry : P.carryOut call with
    | ok P'' =>
      rw [hcarry] at h
      cases h
      rfl
    | error e =>
      rw [hcarry] at h
      cases h
  cases c with
  | down => cases h
  | refused e => cases h
  | lost e =>
    simp only [Provider.answer] at h
    split at h <;> cases h
  | replayed =>
    simp only [Provider.answer] at h
    split at h
    next hserved =>
      cases h
      exact .inr ⟨hserved, rfl⟩
    next => exact .inl (hdone h)
  | _ => exact .inl (hdone h)

/-- A request for the refund that Stripe answers was carried out. -/
theorem createRefund_answered {intent : IntentId} {amountCents : Cents} {n : Nat}
    (h : (World.exec (.stripe (.createRefund intent amountCents k.1 k.2)) c w).1 = .ok n) :
    (World.exec (.stripe (.createRefund intent amountCents k.1 k.2)) c w).2.refundedAtStripe k := by
  unfold World.refundedAtStripe
  cases hanswer : w.provider.answer (.createRefund intent amountCents k.1 k.2) c with
  | mk r P =>
    simp only [World.exec, hanswer] at h ⊢
    cases r with
    | error e => cases h
    | ok u =>
      rcases answer_granted hanswer with hcarry | ⟨hserved, rfl⟩
      · exact carryOut_createRefund hcarry
      · exact hserved

/-- The row a refund statement leaves. -/
theorem upsert_written (row : Refund) (hc : c ≠ .down) :
    (World.exec (.upsertRefund k.1 k.2 row) c w).2.refunds.get k = some row := by
  simp [World.exec, hc, World.write]

theorem amend_written {a : RefundAmendment} (hc : c ≠ .down) :
    (World.exec (.amendRefund k.1 k.2 a) c w).2.refunds.get k =
      (w.refunds.get k).map (a.amend w.now) := by
  simp only [World.exec, hc, if_false, World.write]
  cases hr : w.refunds.get k with
  | none => exact hr
  | some r => simp

theorem refund_provider (hs : s.touchesProvider = false) :
    (World.exec s c w).2.refundedAtStripe k = w.refundedAtStripe k := by
  unfold World.refundedAtStripe
  rw [(World.frame_exec s c w).provider hs]

theorem refundSucceeded_congr {w' : World} (h : w'.refunds.get k = w.refunds.get k) :
    w'.refundSucceeded k = w.refundSucceeded k ∧ w'.refundScheduled k = w.refundScheduled k := by
  unfold World.refundSucceeded World.refundScheduled
  rw [h]
  exact ⟨rfl, rfl⟩

/-- The amendments leave the status of the row, and a new try leaves an unpaid row scheduled. -/
theorem amend_succeeded {a : RefundAmendment} (hc : c ≠ .down) :
    (World.exec (.amendRefund k.1 k.2 a) c w).2.refundSucceeded k = w.refundSucceeded k := by
  unfold World.refundSucceeded
  rw [amend_written hc]
  cases hr : w.refunds.get k with
  | none => rfl
  | some r => cases a <;> rfl

theorem retry_scheduled (hc : c ≠ .down) (hs : w.refundScheduled k) :
    (World.exec (.amendRefund k.1 k.2 .retryNow) c w).2.refundScheduled k := by
  unfold World.refundScheduled at *
  rw [amend_written hc]
  obtain ⟨r, hr, hscheduled⟩ := (Option.any_eq_true ..).mp hs
  have hattempts : 0 < moneyRetryMaxAttempts := by decide
  simp only [Refund.scheduled, Bool.and_eq_true] at hscheduled
  simpa [hr, Refund.scheduled, RefundAmendment.amend, hattempts] using hscheduled.1.1

end Effects

section Discipline

/-- How far a thread is with the refund: nowhere, or Stripe has answered its request, by carrying it
out or by an error that says nothing of that. -/
inductive RefundPhase where
  | idle
  | answered (granted : Bool)
  deriving DecidableEq

/-- What a thread knows. -/
def RefundPhase.sees (k : OrderId × RefundReason) (w : World) : RefundPhase → Prop
  | idle => w.stripeConfigured
  | answered granted => w.stripeConfigured ∧ (granted → w.refundedAtStripe k)

inductive RefundMoves (k : OrderId × RefundReason) :
    RefundPhase → Label Site Stmt → Fate → World → RefundPhase → Prop
  | dead {ph ph' : RefundPhase} {l : Label Site Stmt} {c : Fate} {w : World} (h : ¬ upheld l c w) :
      RefundMoves k ph l c w ph'
  | look {ph : RefundPhase} {site : Site} {c : Fate} {w : World} :
      RefundMoves k ph (.ask site) c w ph
  | plain {ph : RefundPhase} {s : Stmt} {c : Fate} {w : World} (h : s.sparesRefund k) :
      RefundMoves k ph (.call s) c w ph
  | request {ph : RefundPhase} {intent : IntentId} {amountCents : Cents} {granted : Bool} {c : Fate}
      {w : World} (h : granted → ∃ n,
        (World.exec (.stripe (.createRefund intent amountCents k.1 k.2)) c w).1 = .ok n) :
      RefundMoves k ph (.call (.stripe (.createRefund intent amountCents k.1 k.2))) c w
        (.answered granted)
  | record {row : Refund} {c : Fate} {w : World} (h : row.status = .settled) :
      RefundMoves k (.answered true) (.call (.upsertRefund k.1 k.2 row)) c w .idle
  | park {ph : RefundPhase} {row : Refund} {c : Fate} {w : World} (h : row.status ≠ .settled) :
      RefundMoves k ph (.call (.upsertRefund k.1 k.2 row)) c w .idle
  | amend {a : RefundAmendment} {c : Fate} {w : World} :
      RefundMoves k .idle (.call (.amendRefund k.1 k.2 a)) c w .idle

/-- A thread that has asked Stripe for the refund writes down what came of it. -/
def refunding (k : OrderId × RefundReason) : Discipline Site Stmt World Fate RefundPhase where
  view ph w := ph.sees k w
  moves := RefundMoves k

/-- What succeeded Stripe has refunded, and what Stripe has refunded is settled, scheduled, or in
the hands of a thread. -/
structure LedgerHeld (k : OrderId × RefundReason) (Φ : Nat → RefundPhase) (w : World) : Prop where
  sees : ∀ t, (Φ t).sees k w
  succeeded : w.refundSucceeded k → w.refundedAtStripe k
  refunded : w.refundedAtStripe k → w.refundSucceeded k ∨ w.refundScheduled k ∨
    ∃ t granted, Φ t = .answered granted

variable {k : OrderId × RefundReason} {Φ : Nat → RefundPhase} {x : World × RefundLog} {t : Nat}
  {ph : RefundPhase} {w : World} {c : Fate} {l : Label Site Stmt} {s : Stmt}

theorem RefundPhase.sees_later (hconfigured : w.stripeConfigured = x.1.stripeConfigured)
    (hrefunded : x.1.refundedAtStripe k → w.refundedAtStripe k) (h : ph.sees k x.1) :
    ph.sees k w := by
  cases ph with
  | idle => exact hconfigured.trans h
  | answered granted => exact ⟨hconfigured.trans h.1, fun hgranted => hrefunded (h.2 hgranted)⟩

theorem RefundPhase.sees.configured (h : ph.sees k w) : w.stripeConfigured := by
  cases ph with
  | idle => exact h
  | answered granted => exact h.1

/-- A step of thread `t`, which leaves it in phase `ph`. -/
theorem LedgerHeld.step (h : LedgerHeld k Φ x.1) (hsees : ph.sees k (World.exec s c x.1).2)
    (hsucceeded : (World.exec s c x.1).2.refundSucceeded k →
      (World.exec s c x.1).2.refundedAtStripe k)
    (hrefunded : (World.exec s c x.1).2.refundedAtStripe k →
      (World.exec s c x.1).2.refundSucceeded k ∨ (World.exec s c x.1).2.refundScheduled k ∨
        ∃ u granted, Function.update Φ t ph u = .answered granted) :
    LedgerHeld k (Function.update Φ t ph) (World.exec s c x.1).2 := by
  refine ⟨fun u => ?_, hsucceeded, hrefunded⟩
  by_cases hu : u = t
  · subst hu
    rw [Function.update_self]
    exact hsees
  · rw [Function.update_of_ne hu]
    have hconfigured := (World.frame_exec s c x.1).stripeConfigured
    exact RefundPhase.sees_later hconfigured refundedAtStripe_exec (h.sees u)

theorem serves_upheld {C : StepGuard RefundLog} (hC : both databaseUp C t l c x) : upheld l c x.1 :=
  ((Bool.and_eq_true _ _).mp hC).1

theorem serves_guard {C : StepGuard RefundLog} (hC : both databaseUp C t l c x) : C t l c x :=
  ((Bool.and_eq_true _ _).mp hC).2

theorem serves_call {C : StepGuard RefundLog} (hC : both databaseUp C t (.call s) c x)
    (hs : s.touchesProvider = false) : c ≠ .down := by
  have hup := serves_upheld hC
  simpa [upheld, databaseUp, hs] using hup

/-- Somebody else still has the refund in hand when a thread at rest moves on. -/
theorem hand_kept (ht : Φ t = .idle) (h : ∃ u granted, Φ u = .answered granted) :
    ∃ u granted, Function.update Φ t ph u = .answered granted := by
  obtain ⟨u, granted, hu⟩ := h
  have hut : u ≠ t := by
    intro heq
    rw [heq, ht] at hu
    cases hu
  exact ⟨u, granted, (Function.update_of_ne hut _ _).trans hu⟩

/-- A refund that fails is parked: it had not succeeded, and it is tried again unless Stripe has not
refunded it. -/
theorem held_refundParked {row : Refund} (h : LedgerHeld k Φ x.1) (hrow : row.status ≠ .settled)
    (hC : both databaseUp (givesUpUnrefunded k) t (.call (.upsertRefund k.1 k.2 row)) c x) :
    LedgerHeld k (Function.update Φ t .idle) (World.exec (.upsertRefund k.1 k.2 row) c x.1).2 := by
  have hc : c ≠ .down := serves_call hC rfl
  have hwritten := upsert_written (k := k) (w := x.1) row hc
  have hguard : x.1.refundSucceeded k = false ∧
    (row.scheduled ∨ x.1.refundedAtStripe k = false) := by
    have hmet := serves_guard hC
    simpa [givesUpUnrefunded, hrow] using hmet
  have hstripe := refund_provider (k := k) (s := .upsertRefund k.1 k.2 row) (c := c) (w := x.1) rfl
  have hconfigured := (World.frame_exec (.upsertRefund k.1 k.2 row) c x.1).stripeConfigured
  refine h.step (hconfigured.trans (h.sees t).configured) (fun hs => ?_) fun hs => ?_
  · have hsettled : row.status = .settled := by
      simpa [World.refundSucceeded, hwritten] using hs
    exact absurd hsettled hrow
  · rcases hguard.2 with hscheduled | hno
    · refine .inr (.inl ?_)
      simpa [World.refundScheduled, hwritten] using hscheduled
    · rw [hstripe, hno] at hs
      cases hs

/-- A success is written down by the thread that has it from Stripe. -/
theorem held_refundRecorded {row : Refund} (h : LedgerHeld k Φ x.1) (hrow : row.status = .settled)
    (ht : Φ t = .answered true) (hc : c ≠ .down) :
    LedgerHeld k (Function.update Φ t .idle) (World.exec (.upsertRefund k.1 k.2 row) c x.1).2 := by
  have hwritten := upsert_written (k := k) (w := x.1) row hc
  have hconfigured := (World.frame_exec (.upsertRefund k.1 k.2 row) c x.1).stripeConfigured
  have hgranted := h.sees t
  rw [ht] at hgranted
  refine h.step (hconfigured.trans hgranted.1) (fun _ => ?_) fun _ => .inl ?_
  · exact refundedAtStripe_exec (hgranted.2 rfl)
  · simp [World.refundSucceeded, hwritten, hrow]

/-- A refund that is tried again is scheduled, and one that is given up was not carried out. -/
theorem held_refundAmended {a : RefundAmendment} (h : LedgerHeld k Φ x.1) (ht : Φ t = .idle)
    (hC : both databaseUp (givesUpUnrefunded k) t (.call (.amendRefund k.1 k.2 a)) c x) :
    LedgerHeld k (Function.update Φ t .idle) (World.exec (.amendRefund k.1 k.2 a) c x.1).2 := by
  have hc : c ≠ .down := serves_call hC rfl
  have hstripe := refund_provider (k := k) (s := .amendRefund k.1 k.2 a) (c := c) (w := x.1) rfl
  have hsucceeded := amend_succeeded (k := k) (w := x.1) (a := a) hc
  have hconfigured := (World.frame_exec (.amendRefund k.1 k.2 a) c x.1).stripeConfigured
  refine h.step (hconfigured.trans (h.sees t).configured) (fun hs => ?_) fun hs => ?_
  · rw [hsucceeded] at hs
    exact refundedAtStripe_exec (h.succeeded hs)
  · rw [hstripe] at hs
    rw [hsucceeded]
    rcases h.refunded hs with hdone | hscheduled | hhand
    · exact .inl hdone
    · cases a with
      | retryNow => exact .inr (.inl (retry_scheduled hc hscheduled))
      | terminate =>
        have hmet := serves_guard hC
        have hgiven : x.1.refundSucceeded k ∨ x.1.refundedAtStripe k = false := by
          simpa [givesUpUnrefunded] using hmet
        rcases hgiven with hdone | hno
        · exact .inl hdone
        · rw [hno] at hs
          cases hs
    · exact .inr (.inr (hand_kept ht hhand))

/-- The request for the refund. -/
theorem held_refundAsked {intent : IntentId} {amountCents : Cents} {granted : Bool}
    (h : LedgerHeld k Φ x.1) (hgranted : granted → ∃ n,
      (World.exec (.stripe (.createRefund intent amountCents k.1 k.2)) c x.1).1 = .ok n) :
    LedgerHeld k (Function.update Φ t (.answered granted))
      (World.exec (.stripe (.createRefund intent amountCents k.1 k.2)) c x.1).2 := by
  have hframe := World.frame_exec (.stripe (.createRefund intent amountCents k.1 k.2)) c x.1
  obtain ⟨hsucceeded, -⟩ := refundSucceeded_congr (k := k) (w := x.1)
    (congrArg (·.get k) (hframe.refunds rfl))
  refine h.step ⟨hframe.stripeConfigured.trans (h.sees t).configured, fun hg => ?_⟩ (fun hs => ?_)
    fun _ => .inr (.inr ⟨t, granted, Function.update_self ..⟩)
  · obtain ⟨n, hn⟩ := hgranted hg
    exact createRefund_answered hn
  · rw [hsucceeded] at hs
    exact refundedAtStripe_exec (h.succeeded hs)

theorem refunding_invariant (k : OrderId × RefundReason) :
    (refunding k).Invariant machine (recordRefunds k) (both databaseUp (givesUpUnrefunded k))
      (fun Φ x => LedgerHeld k Φ x.1) where
  view Φ x t h := h.sees t
  env Φ x c h := by
    obtain ⟨now, hnow⟩ := World.tick_eq c x.1
    rw [show machine.env c x.1 = World.tick c x.1 from rfl, hnow]
    exact ⟨fun t => by cases hΦ : Φ t <;> simpa [hΦ] using hΦ ▸ h.sees t, h.succeeded, h.refunded⟩
  move Φ x t l c ph h hC hm := by
    generalize hΦ : Φ t = old at hm
    cases hm with
    | dead hdead => exact absurd (serves_upheld hC) hdead
    | look =>
      rw [← hΦ, Function.update_eq_self]
      exact h
    | @plain _ s _ _ hs =>
      obtain ⟨hrow, hstripe⟩ := exec_sparesRefund (c := c) (w := x.1) hs
      obtain ⟨hsucceeded, hscheduled⟩ := refundSucceeded_congr (k := k) hrow
      have hconfigured := (World.frame_exec s c x.1).stripeConfigured
      rw [← hΦ]
      refine h.step (RefundPhase.sees_later hconfigured refundedAtStripe_exec (h.sees t)) ?_ ?_
      · rw [hsucceeded, hstripe]
        exact h.succeeded
      · rw [hsucceeded, hscheduled, hstripe, Function.update_eq_self]
        exact h.refunded
    | request hgranted => exact held_refundAsked h hgranted
    | record hrow => exact held_refundRecorded h hrow hΦ (serves_call hC rfl)
    | park hrow => exact held_refundParked h hrow hC
    | amend => exact held_refundAmended h hΦ hC

end Discipline

/-- A refund that has succeeded stays so. -/
theorem refundSucceeded_stays {k : OrderId × RefundReason} {g g' : Run RefundLog}
    (h : Pool.Reach machine (recordRefunds k) (both databaseUp (givesUpUnrefunded k)) g g')
    (hs : g.state.refundSucceeded k) : g'.state.refundSucceeded k := by
  refine h.invariant (I := fun x => x.1.refundSucceeded k) hs fun x y hx hstep => ?_
  cases hstep with
  | ask t l c hC => exact hx
  | env c =>
    obtain ⟨now, hnow⟩ := World.tick_eq c x.1
    rw [show machine.env c x.1 = World.tick c x.1 from rfl, hnow]
    exact hx
  | call t s c hC =>
    show (World.exec s c x.1).2.refundSucceeded k
    by_cases hspares : s.sparesRefund k
    · rw [(refundSucceeded_congr (exec_sparesRefund hspares).1).1]
      exact hx
    have hmet := serves_guard hC
    cases s with
    | upsertRefund id reason row =>
      have hk : (id, reason) = k := Classical.not_not.mp hspares
      subst hk
      have hwritten := upsert_written (k := (id, reason)) (w := x.1) row (serves_call hC rfl)
      have hsettled : row.status = .settled := by
        simpa [givesUpUnrefunded, hx] using hmet
      simp [World.refundSucceeded, hwritten, hsettled]
    | amendRefund id reason a =>
      have hk : (id, reason) = k := Classical.not_not.mp hspares
      subst hk
      rw [amend_succeeded (k := (id, reason)) (serves_call hC rfl)]
      exact hx
    | stripe call =>
      have hsame := (World.frame_exec (.stripe call) c x.1).refunds rfl
      rw [(refundSucceeded_congr (congrArg (·.get k) hsame)).1]
      exact hx
    | _ => exact absurd trivial hspares

section Walks

variable {k : OrderId × RefundReason} {α : Type} {A : RefundPhase → Prop} {p : Act α}

/-- From the phases in `A` the method goes to those in `B`; what it throws, it throws when it has
nothing left to write down. -/
abbrev Refunds (k : OrderId × RefundReason) (A : RefundPhase → Prop) (p : Act α)
    (B : α → RefundPhase → Prop) : Prop := ServedFlow (refunding k) .idle A p B

theorem refunding_served (k : OrderId × RefundReason) : Served (refunding k) .idle :=
  ⟨fun _ _ _ _ => .dead, fun _ _ _ _ _ => .look⟩

theorem refunds_peek {site : Site} {f : World → α} (hsite : site ≠ .retrievePaymentIntent) :
    Refunds k A (Prog.fetch site f) fun _ => A := (refunding_served k).peek hsite

/-- A method that leaves the refund alone. -/
theorem refunds_spares (hp : p.Only (Stmt.sparesRefund k)) :
    Refunds k (· = .idle) p fun _ => (· = .idle) :=
  Discipline.Flow.only hp (fun _ _ _ _ _ _ => .look) fun _ _ _ _ _ hs _ => .plain hs

theorem spares_refundOf {order : OrderId} {reason : RefundReason} {payment : PaymentId}
    {intent : Option IntentId} {s : Stmt} (hk : (order, reason) ≠ k)
    (hs : RefundStmt order reason payment intent s) : s.sparesRefund k := by
  cases hs with
  | upsert row => exact hk
  | createRefund i amountCents h => exact hk
  | _ => trivial

theorem spares_releaseAuthorization (order : OrderId) (payment : PaymentId) (p : Payment)
    (reason : RefundReason) :
    (releaseAuthorization order payment p reason).Only (Stmt.sparesRefund k) := by
  have hcancel (intent : IntentId) :
      (cancelHold order payment intent).Only (Stmt.sparesRefund k) := by
    refine Only.seq (Only.attempt ((only_perform _).mpr trivial)) fun r => ?_
    cases r with
    | ok n => exact only_pure _
    | error err =>
      exact Only.seq (only_fetch _ _) fun _ =>
        Only.seq (Only.when fun _ => only_notifyAdmins) fun _ => only_pure _
  have hhold : (releaseHold order payment p).Only (Stmt.sparesRefund k) := by
    refine Only.seq only_stripeConfigured fun configured => ?_
    split
    next intent _ => exact hcancel intent
    next => exact only_pure _
  refine Only.seq hhold fun release => ?_
  refine Only.seq (Only.when fun _ => Only.quietly ((only_perform _).mpr trivial)) fun _ => ?_
  refine Only.seq (Only.when fun _ => ?_) fun _ => only_pure _
  exact only_writeEvent _ _ _ _ _ _ fun _ => trivial

theorem spares_markPaymentRefunded {payment : PaymentId} :
    (markPaymentRefunded payment).Only (Stmt.sparesRefund k) := by
  refine Only.seq (Only.attempt ((only_perform _).mpr trivial)) fun r => ?_
  cases r with
  | ok n => exact only_issue trivial
  | error err => exact only_pure _

theorem spares_handleWebhook (event : StripeEventId) (intent : Option IntentId) :
    (handleWebhook event (processWebhook (.chargeRefunded intent))).Only (Stmt.sparesRefund k) := by
  have hhandler : (processWebhook (.chargeRefunded intent)).Only (Stmt.sparesRefund k) := by
    cases intent with
    | none => exact only_pure _
    | some n =>
      refine Only.seq (only_fetch _ _) fun found => ?_
      cases found with
      | none => exact only_pure _
      | some x => exact spares_markPaymentRefunded
  refine Only.seq (only_claimWebhookEvent trivial fun _ => trivial) fun won => ?_
  refine Only.ite (fun _ => ?_) fun _ => only_pure _
  exact Only.seq (Only.attempt hhandler) fun outcome => only_finishWebhook outcome trivial trivial

/-- The row is written, and the thread is done with the refund. -/
theorem refunds_upsert {row : Refund} (h : ∀ ph w c, A ph →
      RefundMoves k ph (.call (.upsertRefund k.1 k.2 row)) c w .idle) :
    Refunds k A (issue (.upsertRefund k.1 k.2 row)) fun _ => (· = .idle) := by
  refine (refunding_served k).issue rfl fun ph w c hph _ hc => ⟨.idle, h ph w c hph, ?_⟩
  simp [World.exec, hc, World.write, Discipline.onAnswer]

/-- What a failed request comes to: the row is parked. -/
theorem refunds_park (amountCents : Cents) (error : String) (fatal : Bool) :
    Refunds k A (parkRefund k.1 amountCents k.2 error fatal) fun _ => (· = .idle) := by
  refine (refunds_peek (by simp)).seq fun existing => ?_
  refine (refunds_peek (by simp)).seq fun now => ?_
  have hunsettled (b : Bool) :
      (if b = true then SettlementStatus.failed else .pending) ≠ .settled := by
    cases b <;> decide
  refine Discipline.Flow.seq (refunds_upsert fun _ _ _ _ => .park (hunsettled _)) fun _ => ?_
  refine (refunds_spares (only_note _ _ _ fun _ => trivial)).seq fun _ => ?_
  exact (refunds_spares (Only.when fun _ => only_notifyAdmins)).seq fun _ => .pure fun _ hx => hx

theorem refunds_record (payment : PaymentId) (amountCents : Cents) (existing : Option Refund) :
    Refunds k (· = .answered true) (recordRefund k.1 payment amountCents k.2 existing)
      fun _ => (· = .idle) := by
  refine Discipline.Flow.seq (refunds_upsert fun ph w c hph => ?_) fun _ => ?_
  · subst hph
    exact .record rfl
  refine (refunds_spares spares_markPaymentRefunded).seq fun _ => ?_
  exact (refunds_spares (only_note _ _ _ fun _ => trivial)).seq fun _ => .pure fun _ hx => hx

/-- The request to Stripe, answered or not. -/
theorem refunds_ask (intent : IntentId) (amountCents : Cents) :
    Refunds k (· = .idle) (attempt (perform (.stripe (.createRefund intent amountCents k.1 k.2))))
      fun r ph => ph = .answered r.isOk := by
  refine Discipline.Flow.post (B := Discipline.onAnswer (fun _ ph => ph = .answered true)
    fun _ ph => ph = .answered false) (.attempt ?_) (fun r ph hx => ?_) fun _ _ hx => hx
  · refine Discipline.Flow.perform fun ph c w hph _ => ?_
    rw [show machine.exec = World.exec from rfl]
    cases hanswer : (World.exec (.stripe (.createRefund intent amountCents k.1 k.2)) c w).1 with
    | ok n => exact ⟨.answered true, .request fun _ => ⟨n, hanswer⟩, rfl⟩
    | error e => exact ⟨.answered false, .request nofun, rfl⟩
  · cases r <;> exact hx

theorem refunds_captured (payment : PaymentId) (p : Payment) (amountCents : Cents)
    (existing : Option Refund) :
    Refunds k (· = .idle) (refundCaptured k.1 payment p amountCents k.2 existing)
      fun _ => (· = .idle) := by
  have hconfigured : Refunds k (· = .idle) stripeConfigured fun b ph => ph = .idle ∧ b = true :=
    (refunding_served k).read (by simp) fun ph w hph hview =>
      ⟨ph, fun _ _ => .look, hph, RefundPhase.sees.configured hview⟩
  refine hconfigured.seq fun configured => Discipline.Flow.fact fun hc => ?_
  subst hc
  refine .ite (fun _ => ?_) fun hno => absurd rfl hno
  split
  next => exact refunds_park _ _ _
  next intent _ =>
    refine (refunds_ask intent amountCents).seq fun r => ?_
    cases r with
    | ok n => exact refunds_record _ _ _
    | error err => exact refunds_park _ _ _

theorem refunds_settle (order : OrderId) (amountCents : Cents) (reason : RefundReason) :
    Refunds k (· = .idle) (settleRefund order amountCents reason) fun _ => (· = .idle) := by
  by_cases hk : (order, reason) = k
  · subst hk
    refine Discipline.Flow.catch (X := fun _ ph => ph = .idle) ?_ fun _ => .pure fun _ hx => hx
    refine (refunds_peek (by simp)).seq fun existing => ?_
    have hskip (detail : String) : Refunds (order, reason) (· = .idle)
        (skipRefund order reason detail) fun _ => (· = .idle) :=
      refunds_spares (only_skipRefund _ _ _ fun _ => trivial)
    split
    next row => exact .pure fun _ hx => hx
    next =>
      refine .ite (fun _ => hskip _) fun _ => ?_
      refine (refunds_spares (only_activePaymentForOrder order)).seq fun found => ?_
      split
      next => exact hskip _
      next payment p =>
        unfold settleFound
        split
        · exact hskip _
        · exact hskip _
        · exact hskip _
        · exact hskip _
        · exact refunds_spares (spares_releaseAuthorization _ _ _ _)
        · exact .ite (fun _ => hskip _) fun _ =>
            refunds_captured (k := (order, reason)) payment p amountCents existing
  · exact refunds_spares (only_settleRefund _ _ _ fun _ _ _ hs => spares_refundOf hk hs)

theorem refunds_amend (order : OrderId) (reason : RefundReason) (a : RefundAmendment) :
    Refunds k (· = .idle) (issue (.amendRefund order reason a)) fun _ => (· = .idle) := by
  by_cases hk : (order, reason) = k
  · subst hk
    refine (refunding_served _).issue rfl fun ph w c hph _ _ => ?_
    subst hph
    refine ⟨.idle, .amend, ?_⟩
    cases (World.exec (.amendRefund order reason a) c w).1 <;> rfl
  · exact refunds_spares (only_issue hk)

theorem refunds_retry (order : OrderId) (reason : RefundReason) (amountCents : Cents) :
    Refunds k (· = .idle) (retryRefund order reason amountCents) fun _ => (· = .idle) := by
  refine (refunds_peek (by simp)).seq fun found => ?_
  have hgiven : Refunds k (· = .idle) (do
      issue (.amendRefund order reason .terminate)
      pure false) fun _ => (· = .idle) :=
    (refunds_amend order reason .terminate).seq fun _ => .pure fun _ hx => hx
  split
  next => exact hgiven
  next row =>
    refine (refunds_settle order amountCents reason).seq fun outcome => ?_
    split
    · exact .pure fun _ hx => hx
    · exact hgiven
    · exact hgiven
    · exact .pure fun _ hx => hx
    · exact .pure fun _ hx => hx

theorem refunds_retryStuck (limit : Nat) :
    Refunds k (· = .idle) (retryStuckRefunds limit) fun _ => (· = .idle) := by
  refine (refunds_peek (by simp)).seq fun due => Discipline.Flow.countEach fun x _ => ?_
  exact (refunds_retry x.1.1 x.1.2 x.2.amountCents).handle fun _ => .pure fun _ hx => hx

theorem refunds_adminRetry (order : OrderId) (reason : RefundReason) :
    Refunds k (· = .idle) (adminRetryRefund order reason) fun _ => (· = .idle) := by
  refine (refunds_peek (by simp)).seq fun found => ?_
  split
  next => exact .throw fun _ hx => hx
  next refund =>
    refine .ite (fun _ => .pure fun _ hx => hx) fun _ => ?_
    refine (refunds_peek (by simp)).seq fun row => ?_
    split
    next => exact .throw fun _ hx => hx
    next =>
      refine (refunds_amend order reason .retryNow).seq fun _ => ?_
      refine (refunds_settle order refund.amountCents reason).seq fun _ => ?_
      exact (refunds_peek (by simp)).seq fun _ => .pure fun _ hx => hx

theorem refunds_call (call : RefundCall) :
    Refunds k (· = .idle) call.prog fun _ => (· = .idle) := by
  cases call with
  | settleRefund order amountCents reason =>
    exact (refunds_settle order amountCents reason).seq fun _ => .pure fun _ hx => hx
  | retryStuckRefunds limit => exact (refunds_retryStuck limit).seq fun _ => .pure fun _ hx => hx
  | adminRetryRefund order reason => exact refunds_adminRetry order reason
  | chargeRefunded event intent => exact refunds_spares (spares_handleWebhook event intent)

end Walks

/-- The ledger agrees with Stripe at rest, when every step finds the refund as its guard asks. -/
theorem agrees_at_rest {w : World} {calls : List RefundCall} {k : OrderId × RefundReason}
    {g : Run RefundLog} (hconfigured : w.stripeConfigured) (hstart : RefundsAgree k w)
    (hg : Pool.Reach machine (recordRefunds k) (both databaseUp (givesUpUnrefunded k))
      (callsAtOnce w calls) g) (hend : g.AllEnded) (hidle : g.state.refundScheduled k = false) :
    g.state.refundSucceeded k ↔ g.state.refundedAtStripe k := by
  have hheld : LedgerHeld k (fun _ => .idle) w := by
    refine ⟨fun _ => hconfigured, hstart.1, fun hs => ?_⟩
    exact (hstart.2 hs).imp_right .inl
  have hkept : (refunding k).Kept machine (fun Φ x => LedgerHeld k Φ x.1) (· = .idle)
      (fun _ => .idle) (callsAtOnce w calls) := by
    refine ⟨hheld, fun t p hp => ?_, fun _ _ => rfl⟩
    have hmem : p ∈ calls.map RefundCall.prog := List.mem_of_getElem? hp
    obtain ⟨call, -, rfl⟩ := List.mem_map.mp hmem
    exact refunds_call call _ rfl
  obtain ⟨Φ, hafter⟩ := Discipline.kept_of_reach (refunding_invariant k) hkept hg
  refine ⟨hafter.inv.succeeded, fun hs => ?_⟩
  rcases hafter.inv.refunded hs with hdone | hscheduled | ⟨t, granted, ht⟩
  · exact hdone
  · have hscheduled : g.state.refundScheduled k := hscheduled
    rw [hidle] at hscheduled
    cases hscheduled
  · rw [hafter.ended hend t] at ht
    cases ht

section Windows

variable {k : OrderId × RefundReason} {α : Type} {A : RefundMemory → Prop} {p : Act α}
  {order : OrderId} {reason : RefundReason}

/-- From some memories, the method parks what it has read unsettled, and gives up what it has found
not to be owed. -/
abbrev Owes (k : OrderId × RefundReason) (A : RefundMemory → Prop) (p : Act α)
    (B : α → RefundMemory → Prop) : Prop :=
  RecallsFair machine (fun l c w => staysOwed k l c w) (RefundMemory.note k) (RefundMemory.may k) A
    p B

/-- No payment was looked for, or none from which the refund could be taken. -/
def NotOwed (m : RefundMemory) : Prop := m.refunded ≠ some true

/-- A skipped or released refund was not owed. -/
def Spared (outcome : RefundOutcome) (m : RefundMemory) : Prop :=
  outcome.status = .skipped ∨ outcome.status = .released → NotOwed m

/-- The refund was refunded, parked or left by an error. -/
theorem Spared.other {outcome : RefundOutcome} {m : RefundMemory}
    (hskipped : outcome.status ≠ .skipped)
    (hreleased : outcome.status ≠ .released) : Spared outcome m :=
  fun h => (h.elim hskipped hreleased).elim

theorem RefundMemory.may_spares {m : RefundMemory} {s : Stmt} (hs : s.sparesRefund k) :
    m.may k s := by
  cases s with
  | upsertRefund id reason row => exact fun hk => absurd hk hs
  | amendRefund id reason a =>
    cases a with
    | terminate => exact fun hk => absurd hk hs
    | _ => trivial
  | _ => trivial

theorem owes_plain (hp : p.Only (Stmt.sparesRefund k)) : Owes k A p fun _ _ => True :=
  Recalls.free hp fun _ _ => RefundMemory.may_spares

/-- A read that nothing is remembered of. -/
theorem owes_read {site : Site} {f : World → α}
    (hsite : ∀ m w, RefundMemory.note k m (.ask site) w = m) :
    Owes k A (fetch site f) fun _ => A :=
  Recalls.fetch fun m w h => (hsite m w).symm ▸ h

theorem owes_event (e : OrderEvent) : Owes k A (issue (.event e)) fun _ => A := by
  have hstmt : Owes k A (perform (.event e)) fun _ => A :=
    Recalls.perform (fun _ _ => trivial) fun _ _ _ _ h _ => h
  exact hstmt.seq fun _ => .pure fun _ h => h

theorem owes_skipRefund (detail : String) :
    Owes k NotOwed (skipRefund order reason detail) fun _ => NotOwed :=
  (owes_event _).seq fun _ => .pure fun _ h => h

theorem owes_releaseAuthorization (payment : PaymentId) (p : Payment) :
    Owes k NotOwed (releaseAuthorization order payment p reason) fun _ => NotOwed := by
  have hcancel (intent : IntentId) :
      Owes k NotOwed (cancelHold order payment intent) fun _ => NotOwed := by
    have hasked : Owes k NotOwed (attempt (perform (.stripe (.cancel intent payment))))
        fun _ => NotOwed := by
      refine Discipline.Flow.post (.attempt (X := fun _ _ => True) (Recalls.kept (fun _ _ => ?_)
        fun _ _ _ h => h)) (fun r m h => ?_) fun _ _ h => h
      · trivial
      · cases r <;> exact h
    refine hasked.seq fun r => ?_
    cases r with
    | ok n => exact .pure fun _ h => h
    | error err =>
      refine (owes_read fun _ _ => rfl).seq fun repeated => ?_
      exact (Discipline.Flow.when (fun _ => owes_read fun _ _ => rfl) fun _ _ h => h).seq
        fun _ => .pure fun _ h => h
  have hhold : Owes k NotOwed (releaseHold order payment p) fun _ => NotOwed := by
    refine (owes_read fun _ _ => rfl).seq fun configured => ?_
    split
    next intent _ => exact hcancel intent
    next => exact .pure fun _ h => h
  refine hhold.seq fun release => ?_
  refine (Discipline.Flow.when (fun _ => Discipline.Flow.quietly ?_) fun _ _ h => h).seq fun _ => ?_
  · exact Recalls.kept (fun _ _ => trivial) fun _ _ _ h => h
  refine (Discipline.Flow.when (fun _ => owes_event _) fun _ _ h => h).seq fun _ => ?_
  exact .pure fun _ h => h

/-- What a parking writes: it has read the row unsettled, and a final refusal was of a refund that
Stripe had not carried out. -/
theorem owes_parkRefund (amountCents : Cents) (error : String) (fatal : Bool) :
    Owes k (fun m => m.unsettled ∧ (fatal → m.asked = false))
      (parkRefund k.1 amountCents k.2 error fatal) Spared := by
  have hread : Owes k (fun m => m.unsettled ∧ (fatal → m.asked = false)) (findRefund k.1 k.2)
      fun existing m => m.unsettled ∧ (fatal → m.asked = false) ∧
        m.attempts = existing.elim 0 (·.attempts) := by
    apply Recalls.fetch
    intro m w ⟨hunsettled, hasked⟩
    simpa [RefundMemory.note, hunsettled] using hasked
  refine hread.seq fun existing => (owes_read fun _ _ => rfl).seq fun now => ?_
  have hwrite (row : Refund) (hrow : row.status ≠ .settled → row.scheduled ∨ fatal ∨
        moneyRetryMaxAttempts ≤ existing.elim 0 (·.attempts) + 1) :
      Owes k (fun m => m.unsettled ∧ (fatal → m.asked = false) ∧
        m.attempts = existing.elim 0 (·.attempts)) (issue (.upsertRefund k.1 k.2 row))
        fun _ _ => True := by
    have hstmt : Owes k (fun m => m.unsettled ∧ (fatal → m.asked = false) ∧
        m.attempts = existing.elim 0 (·.attempts)) (perform (.upsertRefund k.1 k.2 row))
        fun _ _ => True := by
      apply Recalls.perform
      · intro m ⟨hunsettled, hasked, hattempts⟩ _ hopen
        refine ⟨hunsettled, ?_⟩
        rcases hrow hopen with hscheduled | hfatal | hspent
        · exact .inl hscheduled
        · exact .inr (.inr (hasked hfatal))
        · exact .inr (.inl (hattempts ▸ hspent))
      · exact fun _ _ _ _ _ _ => trivial
    exact hstmt.seq fun _ => .pure fun _ h => h
  refine (hwrite _ fun hopen => ?_).seq fun _ => ?_
  · cases fatal with
    | true => exact .inr (.inl rfl)
    | false =>
      by_cases hspent : moneyRetryMaxAttempts ≤ existing.elim 0 (·.attempts) + 1
      · exact .inr (.inr hspent)
      · refine .inl ?_
        simp [planRetry, Refund.scheduled, hspent, Nat.lt_of_not_le hspent]
  · refine (owes_plain (only_note _ _ _ fun _ => trivial)).seq fun _ => ?_
    refine (owes_plain (Only.when fun _ => only_notifyAdmins)).seq fun _ => ?_
    exact .pure fun _ _ => Spared.other nofun nofun

theorem owes_recordRefund (payment : PaymentId) (amountCents : Cents) (existing : Option Refund) :
    Owes k A (recordRefund k.1 payment amountCents k.2 existing) Spared := by
  have hrow : Owes k A (issue (.upsertRefund k.1 k.2
      ⟨amountCents, .settled, existing.elim 0 (·.attempts) + 1, none⟩)) fun _ _ => True := by
    have hstmt : Owes k A (perform (.upsertRefund k.1 k.2
        ⟨amountCents, .settled, existing.elim 0 (·.attempts) + 1, none⟩)) fun _ _ => True :=
      Recalls.perform (fun _ _ _ hopen => absurd rfl hopen) fun _ _ _ _ _ _ => trivial
    exact hstmt.seq fun _ => .pure fun _ h => h
  refine hrow.seq fun _ => (owes_plain spares_markPaymentRefunded).seq fun _ => ?_
  refine (owes_plain (only_note _ _ _ fun _ => trivial)).seq fun _ => ?_
  exact .pure fun _ _ => Spared.other nofun nofun

/-- A request that Stripe refuses for good is of a refund it has not carried out. -/
theorem owes_ask (intent : IntentId) (amountCents : Cents) :
    Owes k (fun m => m.unsettled)
      (attempt (perform (.stripe (.createRefund intent amountCents k.1 k.2))))
      fun r m => m.unsettled ∧ (isFinal r → m.asked = false) := by
  refine Recalls.attempt_fair (fun _ _ => trivial) (fun m c w hm hfair => ?_)
    fun r => ⟨⟨true, 0, false, none⟩, rfl, fun _ => rfl⟩
  refine ⟨by simpa [RefundMemory.note] using hm, fun hfinal => ?_⟩
  have hfinal : isFinal
      (World.exec (.stripe (.createRefund intent amountCents k.1 k.2)) c w).1 = true := hfinal
  have hlater : (World.exec (.stripe (.createRefund intent amountCents k.1 k.2)) c
      w).2.refundedAtStripe k = false := by
    simpa [staysOwed, hfinal] using hfair
  have hno : w.refundedAtStripe k = false :=
    Bool.eq_false_iff.mpr fun h => by simp [refundedAtStripe_exec h] at hlater
  simp [RefundMemory.note, hno]

theorem owes_refundCaptured (payment : PaymentId) (p : Payment) (amountCents : Cents)
    (existing : Option Refund) :
    Owes k (fun m => m.unsettled) (refundCaptured k.1 payment p amountCents k.2 existing)
      Spared := by
  refine (owes_read fun _ _ => rfl).seq fun configured => ?_
  refine .ite (fun _ => ?_) fun _ => owes_recordRefund _ _ _
  split
  next =>
    refine (owes_parkRefund amountCents _ false).weaken (fun _ h => ⟨h, fun hno => ?_⟩)
      (fun _ _ h => h) fun _ _ h => h
    cases hno
  next intent _ =>
    refine (owes_ask intent amountCents).seq fun r => ?_
    cases r with
    | ok n => exact owes_recordRefund _ _ _
    | error err => exact owes_parkRefund _ _ _

/-- From the order's live payment the refund can be taken. -/
def Payment.owes (p : Payment) (reason : RefundReason) : Prop :=
  p.status = .succeeded ∧ reason ≠ .searchExpired

/-- A payment that is found while Stripe has refunded the charge and the row is open is one to take
the refund from. -/
theorem owes_activePayment :
    Owes k (fun m => m.unsettled ∧ m.refunded = none) (activePaymentForOrder k.1)
      fun found m => m.unsettled ∧ (NotOwed m ∨ ∃ x, found = some x ∧ x.2.owes k.2) := by
  have hlive : Owes k (fun m => m.unsettled ∧ m.refunded = none)
      (fetch (.activePaymentForOrder k.1) fun w =>
        w.payments.findFirst fun _ p => p.orderId = some k.1 && p.live)
      fun found m => m.unsettled ∧
        (m.refunded = some false ∨ ∃ x, found = some x ∧ x.2.owes k.2) := by
    refine Recalls.fetch_fair (fun m c w hm hfair => ?_) fun _ => ⟨⟨true, 0, false, some false⟩, ?_⟩
    · obtain ⟨hunsettled, hnone⟩ := hm
      have hopen : w.refundSucceeded k = true ∨ w.refundedAtStripe k = false ∨
          w.refundable k = true := by
        simpa [staysOwed, or_assoc] using hfair
      refine ⟨by simpa [RefundMemory.note] using hunsettled, ?_⟩
      rcases hopen with hdone | hno | howed
      · exact .inl (by simp [RefundMemory.note, hnone, hdone])
      · exact .inl (by simp [RefundMemory.note, hnone, hno])
      · obtain ⟨hreason, hpaid⟩ := (Bool.and_eq_true _ _).mp howed
        obtain ⟨x, hfound, hx⟩ := (Option.any_eq_true _ _).mp hpaid
        exact .inr ⟨x, hfound, of_decide_eq_true hx, of_decide_eq_true hreason⟩
    · exact ⟨rfl, .inl rfl⟩
  refine hlive.seq fun holding => ?_
  cases holding with
  | some x => exact .pure fun m hm => ⟨hm.1, hm.2.imp_left fun h => by simp [NotOwed, h]⟩
  | none =>
    have hlast : Owes k (fun m => m.unsettled ∧ m.refunded = some false)
        (fetch (.activePaymentForOrder k.1) fun w =>
          w.payments.findLast fun _ p => p.orderId = some k.1 && p.supersededAt.isNone)
        fun _ m => m.unsettled ∧ m.refunded = some false :=
      Recalls.fetch fun m w h => by simpa [RefundMemory.note, h.2] using h.1
    refine hlast.weaken (fun m hm => ⟨hm.1, ?_⟩) (fun found m hm => ⟨hm.1, .inl ?_⟩) fun _ _ h => h
    · rcases hm.2 with hno | ⟨x, hx, -⟩
      · exact hno
      · cases hx
    · simp [NotOwed, hm.2]

theorem owes_settleFound (amountCents : Cents) (existing : Option Refund) (payment : PaymentId)
    (p : Payment) :
    Owes k (fun m => m.unsettled ∧ (NotOwed m ∨ p.owes k.2))
      (settleFound k.1 amountCents k.2 existing payment p) Spared := by
  have hskip (hp : ¬ p.owes k.2) (detail : String) :
      Owes k (fun m => m.unsettled ∧ (NotOwed m ∨ p.owes k.2)) (skipRefund k.1 k.2 detail)
        Spared :=
    (owes_skipRefund detail).weaken (fun m hm => hm.2.resolve_right hp) (fun _ _ h _ => h)
      fun _ _ h => h
  unfold settleFound
  split
  next hs => exact hskip (fun h => by simp [h.1] at hs) _
  next hs => exact hskip (fun h => by simp [h.1] at hs) _
  next hs => exact hskip (fun h => by simp [h.1] at hs) _
  next hs => exact hskip (fun h => by simp [h.1] at hs) _
  next hs =>
    refine (owes_releaseAuthorization payment p).weaken (fun m hm => hm.2.resolve_right fun h => ?_)
      (fun _ _ h _ => h) fun _ _ h => h
    simp [h.1] at hs
  next hs =>
    refine .ite (fun hexpired => hskip (fun h => h.2 hexpired) _) fun _ => ?_
    exact (owes_refundCaptured payment p amountCents existing).weaken (fun _ h => h.1)
      (fun _ _ h => h) fun _ _ h => h

theorem owes_settleRefund (amountCents : Cents) :
    Owes k (·.refunded = none) (settleRefund k.1 amountCents k.2) Spared := by
  refine Discipline.Flow.catch (X := fun _ _ => True) ?_ fun err =>
    .pure fun _ _ => Spared.other nofun nofun
  have hread : Owes k (·.refunded = none) (findRefund k.1 k.2) fun existing m =>
      (existing.filter (·.status = .settled) = none → m.unsettled) ∧ m.refunded = none := by
    apply Recalls.fetch
    intro m w hnone
    have hopen (h : (w.refunds.get k).filter (·.status = .settled) = none) :
        w.refundSucceeded k = false := by
      cases hr : w.refunds.get k with
      | none => simp [World.refundSucceeded, hr]
      | some r => simpa [World.refundSucceeded, hr, Option.filter] using h
    exact ⟨fun h => by simp [RefundMemory.note, hopen h], by simpa [RefundMemory.note] using hnone⟩
  refine hread.seq fun existing => ?_
  split
  next row _ => exact .pure fun _ _ => Spared.other nofun nofun
  next hopen =>
    refine .ite (fun _ => ?_) fun _ => ?_
    · refine (owes_skipRefund _).weaken (fun m hm => ?_) (fun _ _ h _ => h) fun _ _ h => h
      simp [NotOwed, hm.2]
    · refine Discipline.Flow.weaken (A := fun m => m.unsettled ∧ m.refunded = none) ?_
        (fun m hm => ⟨hm.1 hopen, hm.2⟩) (fun _ _ h => h) fun _ _ h => h
      refine owes_activePayment.seq fun found => ?_
      split
      next =>
        refine (owes_skipRefund _).weaken (fun m hm => hm.2.resolve_right ?_) (fun _ _ h _ => h)
          fun _ _ h => h
        rintro ⟨x, hx, -⟩
        cases hx
      next payment p =>
        refine (owes_settleFound amountCents existing payment p).weaken (fun m hm => ⟨hm.1, ?_⟩)
          (fun _ _ h => h) fun _ _ h => h
        refine hm.2.imp_right ?_
        rintro ⟨x, hx, howes⟩
        cases hx
        exact howes

theorem owes_settles (amountCents : Cents) :
    Owes k (·.refunded = none) (settleRefund order amountCents reason) fun outcome m =>
      (order, reason) = k → Spared outcome m := by
  by_cases hk : (order, reason) = k
  · subst hk
    exact (owes_settleRefund amountCents).post (fun _ _ h _ => h) fun _ _ h => h
  · have hspares : (settleRefund order amountCents reason).Only (Stmt.sparesRefund k) :=
      only_settleRefund _ _ _ fun _ _ _ hs => spares_refundOf hk hs
    exact (owes_plain hspares).weaken (fun _ _ => trivial) (fun _ _ _ h => absurd h hk)
      fun _ _ h => h

theorem owes_terminate :
    Owes k (fun m => (order, reason) = k → NotOwed m) (issue (.amendRefund order reason .terminate))
      fun _ _ => True := by
  have hstmt : Owes k (fun m => (order, reason) = k → NotOwed m)
      (perform (.amendRefund order reason .terminate)) fun _ _ => True :=
    Recalls.perform (fun _ h => h) fun _ _ _ _ _ _ => trivial
  exact hstmt.seq fun _ => .pure fun _ h => h

theorem owes_retryRefund (amountCents : Cents) :
    Owes k A (retryRefund order reason amountCents) fun _ _ => True := by
  have hread : Owes k A (fetch .retryStuckRefunds (·.orders.get order))
      fun _ => (·.refunded = none) := Recalls.fetch fun _ _ _ => rfl
  refine hread.seq fun found => ?_
  split
  next =>
    refine (owes_terminate.weaken (fun m hm _ => ?_) (fun _ _ h => h) fun _ _ h => h).seq fun _ =>
      .pure fun _ h => h
    simp [NotOwed, show m.refunded = none from hm]
  next =>
    refine (owes_settles amountCents).seq fun outcome => ?_
    have hgiven (hs : outcome.status = .skipped ∨ outcome.status = .released) :
        Owes k (fun m => (order, reason) = k → Spared outcome m) (do
          issue (.amendRefund order reason .terminate)
          pure false) fun _ _ => True :=
      (owes_terminate.weaken (fun _ hm hk => hm hk hs) (fun _ _ h => h) fun _ _ h => h).seq
        fun _ => .pure fun _ h => h
    split
    next => exact .pure fun _ _ => trivial
    next hs => exact hgiven (.inl hs)
    next hs => exact hgiven (.inr hs)
    next => exact .pure fun _ _ => trivial
    next => exact .pure fun _ _ => trivial

theorem owes_adminRetry : Owes k (·.refunded = none) (adminRetryRefund order reason)
    fun _ _ => True := by
  refine (owes_read fun _ _ => rfl).seq fun found => ?_
  split
  next => exact .throw fun _ _ => trivial
  next refund =>
    refine .ite (fun _ => .pure fun _ _ => trivial) fun _ => ?_
    refine (owes_read fun _ _ => rfl).seq fun row => ?_
    split
    next => exact .throw fun _ _ => trivial
    next =>
      have hretry : Owes k (·.refunded = none) (issue (.amendRefund order reason .retryNow))
          fun _ => (·.refunded = none) := by
        have hstmt : Owes k (·.refunded = none) (perform (.amendRefund order reason .retryNow))
            fun _ => (·.refunded = none) :=
          Recalls.perform (fun _ _ => trivial) fun _ _ _ _ h _ => h
        exact hstmt.seq fun _ => .pure fun _ h => h
      refine hretry.seq fun _ => (owes_settles refund.amountCents).seq fun _ => ?_
      exact owes_plain (Only.seq (only_fetch _ _) fun _ => only_pure _)

theorem owes_call (call : RefundCall) :
    Owes k (· = .empty) call.prog fun _ _ => True := by
  have hempty {α : Type} {p : Act α} {B : α → RefundMemory → Prop}
      (h : Owes k (·.refunded = none) p B) : Owes k (· = .empty) p B :=
    h.weaken (fun m hm => by rw [hm]; rfl) (fun _ _ h => h) fun _ _ h => h
  cases call with
  | settleRefund order amountCents reason =>
    exact (hempty (owes_settles amountCents)).seq fun _ => .pure fun _ _ => trivial
  | retryStuckRefunds limit =>
    have hbatch : Owes k (fun _ => True) (CarSalePro.retryStuckRefunds limit) fun _ _ => True := by
      refine (owes_plain (only_fetch _ _)).seq fun due => ?_
      refine Discipline.Flow.countEach fun x _ => ?_
      exact Discipline.Flow.handle (owes_retryRefund _) fun _ => .pure fun _ _ => trivial
    exact (hbatch.weaken (fun _ _ => trivial) (fun _ _ h => h) fun _ _ h => h).seq
      fun _ => .pure fun _ h => h
  | adminRetryRefund order reason => exact hempty owes_adminRetry
  | chargeRefunded event intent => exact owes_plain (spares_handleWebhook event intent)

end Windows

section Law

variable {k : OrderId × RefundReason} {t : Nat} {c : Fate} {x : World × RefundLog} {s : Stmt}

/-- Within the windows, what a call parks has not succeeded, and what it gives up Stripe has not
carried out. -/
theorem unrefunded_of_time (hmay : ((x.2 t).may k s))
    (hC : both databaseUp (refundsInTime k) t (.call s) c x) :
    both databaseUp (givesUpUnrefunded k) t (.call s) c x := by
  obtain ⟨hup, hin⟩ := (Bool.and_eq_true _ _).mp hC
  refine (Bool.and_eq_true _ _).mpr ⟨hup, ?_⟩
  have hin := ((Bool.and_eq_true _ _).mp hin).2
  cases s with
  | upsertRefund id reason row =>
    by_cases hk : (id, reason) = k
    · by_cases hrow : row.status = .settled
      · simp [givesUpUnrefunded, hrow]
      obtain ⟨hunsettled, hgood⟩ := hmay hk hrow
      have hwindow : x.1.refundSucceeded k = false ∧ (x.1.refundedAtStripe k = false ∨
          (x.2 t).attempts + 1 < moneyRetryMaxAttempts ∧
            (row.scheduled = true ∨ (x.2 t).asked = true)) := by
        simpa [hk, hrow, hunsettled] using hin
      have hscheduled : row.scheduled = true ∨ x.1.refundedAtStripe k = false := by
        rcases hwindow.2 with hno | ⟨hleft, hscheduled | hasked⟩
        · exact .inr hno
        · exact .inl hscheduled
        · rcases hgood with hscheduled | hspent | hunasked
          · exact .inl hscheduled
          · omega
          · rw [hunasked] at hasked
            cases hasked
      simp [givesUpUnrefunded, hwindow.1, hscheduled]
    · simp [givesUpUnrefunded, hk]
  | amendRefund id reason a =>
    cases a with
    | terminate =>
      by_cases hk : (id, reason) = k
      · have hno : (x.2 t).refunded ≠ some true := hmay hk
        simpa [givesUpUnrefunded, hk, hno] using hin
      · simp [givesUpUnrefunded, hk]
    | _ => rfl
  | _ => rfl

theorem unrefunded_later {w : World} {calls : List RefundCall} {g g' : Run RefundLog}
    (hg : Pool.Reach machine (recordRefunds k) (both databaseUp (refundsInTime k))
      (callsAtOnce w calls) g)
    (hg' : Pool.Reach machine (recordRefunds k) (both databaseUp (refundsInTime k)) g g') :
    Pool.Reach machine (recordRefunds k) (both databaseUp (givesUpUnrefunded k)) g g' := by
  have hrec : Records (recordRefunds k) (RefundMemory.note k) fun h => h := fun _ _ _ _ _ => rfl
  have howed (t : Nat) (l : Label Site Stmt) (c : Fate) (x : World × RefundLog)
      (hC : both databaseUp (refundsInTime k) t l c x) : staysOwed k l c x.1 :=
    ((Bool.and_eq_true _ _).mp ((Bool.and_eq_true _ _).mp hC).2).1
  have hcalls (t : Nat) (p : Act Unit) (hp : (callsAtOnce w calls).threads[t]? = some p) :
      Owes k (· = .empty) p fun _ _ => True := by
    have hmem : p ∈ calls.map RefundCall.prog := List.mem_of_getElem? hp
    obtain ⟨call, -, rfl⟩ := List.mem_map.mp hmem
    exact owes_call call
  refine recalledFair_later (J := fun _ => True) hrec howed hcalls (fun _ _ => trivial)
    (fun t l c x _ hC => ?_) (fun t s c x _ => unrefunded_of_time) hg hg'
  exact (Bool.and_eq_true _ _).mpr ⟨((Bool.and_eq_true _ _).mp hC).1, rfl⟩

/-- The ledger agrees with Stripe and what succeeded stays so, in every interleaving in which only
Stripe fails, nobody records the refund between a call's read of the row and its parking, and Stripe
has not carried out what a call gives up behind that call's back. -/
theorem refund_ledger_agrees (w : World) (calls : List RefundCall) (k : OrderId × RefundReason)
    (g g' : Run RefundLog) (hconfigured : w.stripeConfigured) (hstart : RefundsAgree k w)
    (hg : Pool.Reach machine (recordRefunds k) (both databaseUp (refundsInTime k))
      (callsAtOnce w calls) g)
    (hg' : Pool.Reach machine (recordRefunds k) (both databaseUp (refundsInTime k)) g g') :
    (g.AllEnded → g.state.refundScheduled k = false →
      (g.state.refundSucceeded k ↔ g.state.refundedAtStripe k)) ∧
    (g.state.refundSucceeded k → g'.state.refundSucceeded k) :=
  ⟨agrees_at_rest hconfigured hstart (unrefunded_later .start hg),
    refundSucceeded_stays (unrefunded_later hg hg')⟩

end Law

section Lost

/-- The refund of a cancelled order, Stripe's word of it, and the retry sweep. -/
def lostRefund : Run RefundLog :=
  callsAtOnce assignedWorld
    [.settleRefund 1 8000 .cancelAfterAssign, .chargeRefunded 3 (some 9), .retryStuckRefunds 10]

/-- Whether the run is over and a retry is scheduled, what the row says, and what Stripe did. -/
def ledgerLeft (g : Run RefundLog) : (Bool × Bool) × Bool × Bool :=
  ((decide g.AllEnded, g.state.refundScheduled (1, .cancelAfterAssign)),
    g.state.refundSucceeded (1, .cancelAfterAssign),
    g.state.refundedAtStripe (1, .cancelAfterAssign))

theorem assignedWorld_agrees : RefundsAgree (1, .cancelAfterAssign) assignedWorld := ⟨nofun, nofun⟩

/-- Stripe carries the refund out and its answer is lost, so that the refund is parked. -/
def answerLost : List (Move Fate) := goes 0 3 ++ [.run 0 (.lost .connection)] ++ goes 0 5

/-- The webhook marks the payment refunded before the retry, which then finds no payment to refund
and takes the row off the queue. -/
theorem refunded_left_pending : ¬ RefundLedgerLaw fun _ => anyStep := by
  intro hlaw
  have hrun : Pool.observe machine (recordRefunds (1, .cancelAfterAssign)) (both databaseUp anyStep)
      ledgerLeft
      (answerLost ++ goes 1 5 ++ [.env (.elapse 300000)] ++ goes 2 6) (.run 2 .ok) lostRefund =
      some (((false, true), false, true), ((true, false), false, true)) := by
    decide +kernel
  obtain ⟨g, g', hg, hm, hs, -, hafter⟩ := Pool.observe_eq hrun
  obtain ⟨hquiet, hleft⟩ := Prod.mk.inj hafter
  obtain ⟨hend, hidle⟩ := Prod.mk.inj hquiet
  obtain ⟨hrow, hstripe⟩ := Prod.mk.inj hleft
  have hagree := hlaw assignedWorld _ (1, .cancelAfterAssign) g' g' rfl assignedWorld_agrees
    (.next (m := .run 2 .ok) hg hm hs) .start
  have hsucceeded := (hagree.1 (of_decide_eq_true hend) hidle).mpr hstripe
  rw [hrow] at hsucceeded
  cases hsucceeded

/-- The retry comes before the webhook: Stripe answers it by what it did before. -/
theorem retried_refund_agrees : ∃ g : Run RefundLog, ledgerLeft g = ((true, false), true, true) ∧
    (g.AllEnded → g.state.refundScheduled (1, .cancelAfterAssign) = false →
      (g.state.refundSucceeded (1, .cancelAfterAssign) ↔
        g.state.refundedAtStripe (1, .cancelAfterAssign))) ∧
    (g.state.refundSucceeded (1, .cancelAfterAssign) →
      g.state.refundSucceeded (1, .cancelAfterAssign)) := by
  have hrun : Pool.observe machine (recordRefunds (1, .cancelAfterAssign))
      (both databaseUp (refundsInTime (1, .cancelAfterAssign))) ledgerLeft
      (answerLost ++ [.env (.elapse 300000)] ++ goes 2 10 ++ goes 1 4) (.run 1 .ok) lostRefund =
      some (((false, false), true, true), ((true, false), true, true)) := by
    decide +kernel
  obtain ⟨g, g', hg, hm, hs, -, hafter⟩ := Pool.observe_eq hrun
  exact ⟨g', hafter, refund_ledger_agrees assignedWorld _ (1, .cancelAfterAssign) g' g' rfl
    assignedWorld_agrees (.next (m := .run 1 .ok) hg hm hs) .start⟩

end Lost

end CarSalePro
