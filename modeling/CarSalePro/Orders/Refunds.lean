import CarSalePro.Orders.Capture

namespace CarSalePro

open Interleave Prog

/-- Minutes to wait before attempt N+1, indexed by the attempt that just failed. -/
def moneyRetryBackoffMinutes : List Nat := [5, 15, 60, 360, 1440, 4320]

def moneyRetryMaxAttempts : Nat := moneyRetryBackoffMinutes.length

structure RetryPlan where
  attempts : Nat
  terminal : Bool
  nextRetryAt : Option Time
  deriving DecidableEq, Repr

def planRetry (previousAttempts : Nat) (fatal : Bool) (now : Time) : RetryPlan :=
  let attempts := previousAttempts + 1
  let terminal := fatal || moneyRetryMaxAttempts ≤ attempts
  let wait := moneyRetryBackoffMinutes.getD (attempts - 1) 4320
  ⟨attempts, terminal, if terminal then none else some (now + minutes wait)⟩

inductive RefundOutcomeStatus where
  | refunded | parked | skipped | released | error
  deriving DecidableEq, Repr

/-- What `settleRefund` did: the only channel through which a caller learns whether money
moved. -/
structure RefundOutcome where
  status : RefundOutcomeStatus
  amountCents : Cents
  reason : RefundReason
  detail : Option String
  attempts : Nat
  nextRetryAt : Option Time

def skippedRefund (reason : RefundReason) (detail : String) : RefundOutcome :=
  ⟨.skipped, 0, reason, some detail, 0, none⟩

def refundOutcome (status : RefundOutcomeStatus) (amountCents : Cents) (reason : RefundReason)
    (row : Refund) (detail : Option String) : RefundOutcome :=
  ⟨status, amountCents, reason, detail, row.attempts, row.nextRetryAt⟩

def releaseEventType (released : Bool) : EventType :=
  if released then .authorizationReleased else .authorizationReleaseFailed

def findRefund (order : OrderId) (reason : RefundReason) : Act (Option Refund) :=
  fetch (.findRefund order reason) (·.refunds.get (order, reason))

/-- Record that no refund was owed. -/
def skipRefund (order : OrderId) (reason : RefundReason) (detail : String) :
    Act RefundOutcome := do
  note order .system .refundSkipped
  pure (skippedRefund reason detail)

/-- This payment has a failed hold release with no successful one after it. -/
def hasUnresolvedReleaseFailure (order : OrderId) (payment : PaymentId) : Act Bool :=
  fetch .hasUnresolvedReleaseFailure fun w =>
    (w.events.filter fun e => e.orderId = order && e.paymentId = some payment &&
      (e.type = .authorizationReleased || e.type = .authorizationReleaseFailed)).getLast?.any
        fun e => e.type = .authorizationReleaseFailed

/-- How an attempt to release a hold ended. -/
structure Release where
  released : Bool
  detail : Option String
  repeatFailure : Bool

/-- The request to Stripe inside `releaseAuthorization`. -/
def cancelHold (order : OrderId) (payment : PaymentId) (intent : IntentId) : Act Release := do
  match ← attempt (perform (.stripe (.cancel intent payment))) with
  | .ok _ => pure ⟨true, none, false⟩
  | .error err => do
    let repeatFailure ← hasUnresolvedReleaseFailure order payment
    Prog.when (repeatFailure = false) notifyAdmins
    pure ⟨false, some (classifyStripeError err.raw).message, repeatFailure⟩

/-- Let the hold go at Stripe, where there is one. -/
def releaseHold (order : OrderId) (payment : PaymentId) (p : Payment) : Act Release := do
  let configured ← stripeConfigured
  match configured, p.stripePaymentIntentId with
  | true, some intent => cancelHold order payment intent
  | _, _ => pure ⟨true, none, false⟩

/-- Release an authorization hold. No refund row is written. -/
def releaseAuthorization (order : OrderId) (payment : PaymentId) (p : Payment)
    (reason : RefundReason) : Act RefundOutcome := do
  let release ← releaseHold order payment p
  Prog.when (release.released = true) (quietly (perform (.payment (.release payment))))
  Prog.when (release.repeatFailure = false)
    (writeEvent order .system (releaseEventType release.released) none none (some payment))
  pure ⟨if release.released then .released else .error, 0, reason, release.detail, 0, none⟩

/-- Record a refund the provider refused, with the next attempt. -/
def parkRefund (order : OrderId) (amountCents : Cents) (reason : RefundReason) (error : String)
    (fatal : Bool) : Act RefundOutcome := do
  let existing ← findRefund order reason
  let now ← readClock
  let plan := planRetry (existing.elim 0 (·.attempts)) fatal now
  let row : Refund :=
    ⟨amountCents, if plan.terminal then .failed else .pending, plan.attempts, plan.nextRetryAt⟩
  issue (.upsertRefund order reason row)
  note order .system .refundFailed
  Prog.when (plan.attempts = 1 ∨ plan.terminal = true) notifyAdmins
  pure (refundOutcome .parked amountCents reason row (some error))

/-- Mark a payment refunded and withdraw what it bought. -/
def markPaymentRefunded (payment : PaymentId) : Act Unit := do
  match ← attempt (perform (.payment (.refund payment))) with
  | .ok _ => issue (.revokePurchases payment)
  | .error _ => pure ()

/-- The ledger of a refund the provider accepted. -/
def recordRefund (order : OrderId) (payment : PaymentId) (amountCents : Cents)
    (reason : RefundReason) (existing : Option Refund) : Act RefundOutcome := do
  let row : Refund := ⟨amountCents, .settled, existing.elim 0 (·.attempts) + 1, none⟩
  issue (.upsertRefund order reason row)
  markPaymentRefunded payment
  note order .system .refundIssued
  pure (refundOutcome .refunded amountCents reason row none)

/-- The refund of a captured payment. -/
def refundCaptured (order : OrderId) (payment : PaymentId) (p : Payment) (amountCents : Cents)
    (reason : RefundReason) (existing : Option Refund) : Act RefundOutcome := do
  if ← stripeConfigured then
    match p.stripePaymentIntentId with
    | none => parkRefund order amountCents reason "payment has no Stripe PaymentIntent" false
    | some intent => do
      match ← attempt (perform (.stripe (.createRefund intent amountCents order reason))) with
      | .ok _ => recordRefund order payment amountCents reason existing
      | .error err =>
        let failure := classifyStripeError err.raw
        parkRefund order amountCents reason failure.message (!failure.retryable)
  else recordRefund order payment amountCents reason existing

/-- What follows once the order's payment is read. -/
def settleFound (order : OrderId) (amountCents : Cents) (reason : RefundReason)
    (existing : Option Refund) (payment : PaymentId) (p : Payment) : Act RefundOutcome :=
  match p.status with
  | .pending | .failed | .cancelled =>
    skipRefund order reason ("payment is " ++ p.status.wire)
  | .refunded => skipRefund order reason "payment is already refunded"
  | .authorized => releaseAuthorization order payment p reason
  | .succeeded =>
    if reason = .searchExpired then
      skipRefund order reason ("payment is " ++ p.status.wire ++
        " — the order was accepted after the search window closed")
    else refundCaptured order payment p amountCents reason existing

def settleRefundInner (order : OrderId) (amountCents : Cents) (reason : RefundReason) :
    Act RefundOutcome := do
  let existing ← findRefund order reason
  match existing.filter (·.status = .settled) with
  | some row => pure (refundOutcome .refunded amountCents reason row (some "already refunded"))
  | none =>
    if amountCents ≤ 0 then skipRefund order reason "refund amount is zero"
    else do
      match ← activePaymentForOrder order with
      | none => skipRefund order reason "order has no payment"
      | some (payment, p) => settleFound order amountCents reason existing payment p

/-- Give back what the order's payment holds or has taken. Never throws. -/
def settleRefund (order : OrderId) (amountCents : Cents) (reason : RefundReason) :
    Act RefundOutcome :=
  Prog.tryCatch (settleRefundInner order amountCents reason) fun err =>
    pure ⟨.error, 0, reason, some err.raw.message, 0, none⟩

/-- One refund of the retry sweep; what is not owed after all leaves the queue. -/
def retryRefund (order : OrderId) (reason : RefundReason) (amountCents : Cents) : Act Bool := do
  match ← fetch .retryStuckRefunds (·.orders.get order) with
  | none => do
    issue (.amendRefund order reason .terminate)
    pure false
  | some _ => do
    let outcome ← settleRefund order amountCents reason
    match outcome.status with
    | .refunded => pure true
    | .skipped | .released => do
      issue (.amendRefund order reason .terminate)
      pure false
    | .parked | .error => pure false

/-- By the time of the next attempt, earliest first. -/
def earlierRetry (a b : Option Time) : Bool := a.getD 0 ≤ b.getD 0

/-- Refunds whose backoff has elapsed are tried again. -/
def retryStuckRefunds (limit : Nat) : Act Nat := do
  let due ← fetch .retryStuckRefunds fun w => w.refunds.findSorted
    (fun _ r => r.status ≠ .settled && r.nextRetryAt.any (· ≤ w.now) &&
      r.attempts < moneyRetryMaxAttempts)
    (fun a b => earlierRetry a.nextRetryAt b.nextRetryAt) limit
  countEach due fun r => guarded (retryRefund r.1.1 r.1.2 r.2.amountCents)

/-- An operator has a parked refund tried now. -/
def adminRetryRefund (order : OrderId) (reason : RefundReason) : Act Unit := do
  match ← fetch .adminRetryRefund (·.refunds.get (order, reason)) with
  | none => fail .notFound "refund_not_found" "No refund"
  | some refund =>
    if refund.status = .settled then pure ()
    else do
      match ← fetch .adminRetryRefund (·.orders.get order) with
      | none => orderNotFound
      | some _ => do
        issue (.amendRefund order reason .retryNow)
        let _ ← settleRefund order refund.amountCents reason
        let _ ← fetch .adminRetryRefund (·.refunds.get (order, reason))
        pure ()

/-- The statements of a refund or a release of one payment. -/
inductive RefundStmt (order : OrderId) (reason : RefundReason) (payment : PaymentId)
    (intent : Option IntentId) : Stmt → Prop where
  | event (e) : RefundStmt order reason payment intent (.event e)
  | upsert (row) : RefundStmt order reason payment intent (.upsertRefund order reason row)
  | release : RefundStmt order reason payment intent (.payment (.release payment))
  | refund : RefundStmt order reason payment intent (.payment (.refund payment))
  | revoke : RefundStmt order reason payment intent (.revokePurchases payment)
  | cancel (i) (h : intent = some i) :
      RefundStmt order reason payment intent (.stripe (.cancel i payment))
  | createRefund (i amountCents) (h : intent = some i) :
      RefundStmt order reason payment intent (.stripe (.createRefund i amountCents order reason))

/-- A refund that this statement records, or asks Stripe for, is one of this amount. -/
def Stmt.owes (amountCents : Cents) : Stmt → Prop
  | .upsertRefund _ _ row => row.amountCents = amountCents
  | .stripe (.createRefund _ asked _ _) => asked = amountCents
  | _ => True

/-- The statements of a refund of this amount. -/
def RefundOf (order : OrderId) (reason : RefundReason) (amountCents : Cents)
    (payment : PaymentId) (intent : Option IntentId) (s : Stmt) : Prop :=
  RefundStmt order reason payment intent s ∧ s.owes amountCents

section Footprints

theorem RefundOf.event {order : OrderId} {reason : RefundReason} {amountCents : Cents}
    {payment : PaymentId} {intent : Option IntentId} (e : OrderEvent) :
    RefundOf order reason amountCents payment intent (.event e) := ⟨.event e, trivial⟩

variable (order : OrderId) (payment : PaymentId) (p : Payment) (reason : RefundReason)
  (amountCents : Cents)

theorem only_skipRefund (detail : String) {A : Stmt → Prop} (h : ∀ e, A (.event e)) :
    (skipRefund order reason detail).Only A :=
  Only.seq (only_note _ _ _ h) fun _ => only_pure _

theorem only_cancelHold (intent : IntentId) :
    (cancelHold order payment intent).Only
      (RefundOf order reason amountCents payment (some intent)) := by
  refine Only.seq (Only.attempt ((only_perform _).mpr ⟨.cancel _ rfl, trivial⟩)) fun r => ?_
  cases r with
  | ok n => exact only_pure _
  | error err =>
    refine Only.seq (only_fetch _ _) fun repeated => ?_
    exact Only.seq (Only.when fun _ => only_notifyAdmins) fun _ => only_pure _

theorem only_releaseHold :
    (releaseHold order payment p).Only
      (RefundOf order reason amountCents payment p.stripePaymentIntentId) := by
  refine Only.seq only_stripeConfigured fun configured => ?_
  split
  next intent hi => exact hi ▸ only_cancelHold order payment reason amountCents intent
  next => exact only_pure _

theorem only_releaseAuthorization :
    (releaseAuthorization order payment p reason).Only
      (RefundOf order reason amountCents payment p.stripePaymentIntentId) := by
  refine Only.seq (only_releaseHold order payment p reason amountCents) fun release => ?_
  have hcancelled : (perform (.payment (.release payment))).Only
      (RefundOf order reason amountCents payment p.stripePaymentIntentId) :=
    (only_perform _).mpr ⟨.release, trivial⟩
  refine Only.seq (Only.when fun _ => Only.quietly hcancelled) fun _ => ?_
  refine Only.seq (Only.when fun _ => only_writeEvent _ _ _ _ _ _ .event) fun _ => ?_
  exact only_pure _

theorem only_parkRefund (intent : Option IntentId) (error : String)
    (fatal : Bool) : (parkRefund order amountCents reason error fatal).Only
      (RefundOf order reason amountCents payment intent) := by
  refine Only.seq (only_fetch _ _) fun existing => Only.seq only_readClock fun now => ?_
  refine Only.seq (only_issue ⟨.upsert _, rfl⟩) fun _ => ?_
  refine Only.seq (only_note _ _ _ .event) fun _ => ?_
  exact Only.seq (Only.when fun _ => only_notifyAdmins) fun _ => only_pure _

theorem only_markPaymentRefunded (intent : Option IntentId) :
    (markPaymentRefunded payment).Only (RefundOf order reason amountCents payment intent) := by
  refine Only.seq (Only.attempt ((only_perform _).mpr ⟨.refund, trivial⟩)) fun r => ?_
  cases r with
  | ok n => exact only_issue ⟨.revoke, trivial⟩
  | error err => exact only_pure _

theorem only_recordRefund (intent : Option IntentId)
    (existing : Option Refund) : (recordRefund order payment amountCents reason existing).Only
      (RefundOf order reason amountCents payment intent) := by
  refine Only.seq (only_issue ⟨.upsert _, rfl⟩) fun _ => ?_
  refine Only.seq (only_markPaymentRefunded order payment reason amountCents intent) fun _ => ?_
  exact Only.seq (only_note _ _ _ .event) fun _ => only_pure _

theorem only_refundCaptured (existing : Option Refund) :
    (refundCaptured order payment p amountCents reason existing).Only
      (RefundOf order reason amountCents payment p.stripePaymentIntentId) := by
  refine Only.seq only_stripeConfigured fun configured => Only.ite (fun _ => ?_) fun _ => ?_
  · split
    next => exact only_parkRefund _ _ _ _ _ _ _
    next intent hi =>
      have hcall : RefundOf order reason amountCents payment p.stripePaymentIntentId
          (.stripe (.createRefund intent amountCents order reason)) :=
        ⟨.createRefund _ _ hi, rfl⟩
      refine Only.seq (Only.attempt ((only_perform _).mpr hcall)) fun r => ?_
      cases r with
      | ok n => exact only_recordRefund _ _ _ _ _ _
      | error err => exact only_parkRefund _ _ _ _ _ _ _
  · exact only_recordRefund _ _ _ _ _ _

theorem only_settleFound (existing : Option Refund) :
    (settleFound order amountCents reason existing payment p).Only
      (RefundOf order reason amountCents payment p.stripePaymentIntentId) := by
  unfold settleFound
  split
  · exact only_skipRefund _ _ _ .event
  · exact only_skipRefund _ _ _ .event
  · exact only_skipRefund _ _ _ .event
  · exact only_skipRefund _ _ _ .event
  · exact only_releaseAuthorization _ _ _ _ _
  · refine Only.ite (fun _ => only_skipRefund _ _ _ .event) fun _ => ?_
    exact only_refundCaptured _ _ _ _ _ _

theorem only_settleRefundInner {A : Stmt → Prop}
    (h : ∀ payment intent s, RefundOf order reason amountCents payment intent s → A s) :
    (settleRefundInner order amountCents reason).Only A := by
  refine Only.seq (only_fetch _ _) fun existing => ?_
  have he (e : OrderEvent) : A (.event e) := h 0 none _ (.event e)
  split
  next row => exact only_pure _
  next =>
    refine Only.ite (fun _ => only_skipRefund _ _ _ he) fun _ => ?_
    refine Only.seq (only_activePaymentForOrder order) fun found => ?_
    split
    next => exact only_skipRefund _ _ _ he
    next payment p => exact (only_settleFound _ _ _ _ _ _).mono (h payment _)

theorem only_settle {A : Stmt → Prop}
    (h : ∀ payment intent s, RefundOf order reason amountCents payment intent s → A s) :
    (settleRefund order amountCents reason).Only A :=
  (only_settleRefundInner order reason amountCents h).catch fun _ => only_pure _

theorem only_settleRefund {A : Stmt → Prop}
    (h : ∀ payment intent s, RefundStmt order reason payment intent s → A s) :
    (settleRefund order amountCents reason).Only A :=
  only_settle order reason amountCents fun payment intent s hs => h payment intent s hs.1

end Footprints

end CarSalePro
