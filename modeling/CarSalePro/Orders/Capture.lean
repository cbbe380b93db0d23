import CarSalePro.Orders.Transition

namespace CarSalePro

open Interleave Prog

def PaymentStatus.wire : PaymentStatus → String
  | pending => "pending"
  | authorized => "authorized"
  | succeeded => "succeeded"
  | failed => "failed"
  | cancelled => "cancelled"
  | refunded => "refunded"

/-- What `captureOrderPayment` did. -/
inductive CaptureOutcome where
  | captured
  | alreadyCaptured
  | retryable (detail : String)
  | fatal (detail : String)
  deriving DecidableEq, Repr

/-- The order's live payment: the row that holds money, or else the newest one not replaced. -/
def activePaymentForOrder (id : OrderId) : Act (Option (PaymentId × Payment)) := do
  let holding ← fetch (.activePaymentForOrder id) fun w =>
    w.payments.findFirst fun _ p => p.orderId = some id && p.live
  match holding with
  | some payment => pure (some payment)
  | none =>
    fetch (.activePaymentForOrder id) fun w =>
      w.payments.findLast fun _ p => p.orderId = some id && p.supersededAt.isNone

def markPaymentCaptured (payment : PaymentId) : Act Unit := do
  issue (.payment (.markCaptured payment))
  issue (.payment (.stampCaptured payment))

def retrievePaymentIntent (intent : IntentId) : Act (Option Intent) :=
  fetch .retrievePaymentIntent (·.provider.intents.get intent)

/-- What a refused capture means for the order. -/
def captureVerdict (failure : StripeFailure) : CaptureOutcome :=
  if failure.retryable then .retryable failure.message else .fatal failure.message

/-- A refused capture. `payment_intent_unexpected_state` is ambiguous, so Stripe is asked whether
the intent was captured before. -/
def captureRefused (payment : PaymentId) (intent : IntentId) (err : Err) : Act CaptureOutcome := do
  let failure := classifyStripeError err.raw
  if failure.code = .paymentIntentUnexpectedState then do
    match ← attempt (retrievePaymentIntent intent) with
    | .ok (some i) =>
      if i.captured.isSome then do
        markPaymentCaptured payment
        pure .alreadyCaptured
      else pure (captureVerdict failure)
    | _ => pure (captureVerdict failure)
  else pure (captureVerdict failure)

/-- Ask Stripe for the money that is held. -/
def captureHold (payment : PaymentId) (intent : IntentId) (amountCents : Option Cents) :
    Act CaptureOutcome := do
  match ← attempt (perform (.stripe (.capture intent payment amountCents))) with
  | .ok _ => do
    markPaymentCaptured payment
    pure .captured
  | .error err => captureRefused payment intent err

/-- Take the money that has been held for an order. The provider's errors end in the outcome. -/
def captureOrderPayment (id : OrderId) (amountCents : Option Cents) : Act CaptureOutcome := do
  match ← activePaymentForOrder id with
  | none => pure (.fatal "order has no payment")
  | some (payment, p) =>
    if p.status = .succeeded then pure .alreadyCaptured
    else if p.status ≠ .authorized ∧ p.status ≠ .pending then
      pure (.fatal ("payment is " ++ p.status.wire))
    else do
      if ← stripeConfigured then
        match p.stripePaymentIntentId with
        | none => pure (.retryable "payment has no Stripe PaymentIntent")
        | some intent =>
          if p.status = .pending then
            pure (.retryable "the authorization hold is not in place yet")
          else captureHold payment intent amountCents
      else do
        markPaymentCaptured payment
        pure .captured

/-- The statements of a capture. -/
inductive CaptureStmt : Stmt → Prop where
  | capture (intent payment amountCents) :
      CaptureStmt (.stripe (.capture intent payment amountCents))
  | markCaptured (payment) : CaptureStmt (.payment (.markCaptured payment))
  | stampCaptured (payment) : CaptureStmt (.payment (.stampCaptured payment))

/-- The statement belongs to the capture of this payment. -/
def Stmt.capturing (payment : PaymentId) : Stmt → Prop
  | .stripe (.capture _ k _) | .payment (.markCaptured k) | .payment (.stampCaptured k) =>
    k = payment
  | _ => False

section Footprints

variable {A : Stmt → Prop}

@[simp] theorem only_activePaymentForOrder (id : OrderId) : (activePaymentForOrder id).Only A :=
  Only.seq (only_fetch _ _) fun holding => by
    cases holding with
    | none => exact only_fetch _ _
    | some payment => exact only_pure _

theorem only_markPaymentCaptured (payment : PaymentId) (hm : A (.payment (.markCaptured payment)))
    (hs : A (.payment (.stampCaptured payment))) : (markPaymentCaptured payment).Only A :=
  Only.seq (only_issue hm) fun _ => only_issue hs

theorem only_captureRefused (payment : PaymentId) (intent : IntentId) (err : Err)
    (hm : A (.payment (.markCaptured payment))) (hs : A (.payment (.stampCaptured payment))) :
    (captureRefused payment intent err).Only A := by
  unfold captureRefused
  refine Only.ite (fun _ => ?_) fun _ => only_pure _
  refine Only.seq (Only.attempt (only_fetch _ _)) fun r => ?_
  split
  next i =>
    have hmark := only_markPaymentCaptured payment hm hs
    exact Only.ite (fun _ => Only.seq hmark fun _ => only_pure _) fun _ => only_pure _
  next => exact only_pure _

theorem only_captureHold (payment : PaymentId) (intent : IntentId) (amountCents : Option Cents)
    (hc : A (.stripe (.capture intent payment amountCents)))
    (hm : A (.payment (.markCaptured payment))) (hs : A (.payment (.stampCaptured payment))) :
    (captureHold payment intent amountCents).Only A := by
  refine Only.seq (Only.attempt ((only_perform _).mpr hc)) fun r => ?_
  cases r with
  | ok n => exact Only.seq (only_markPaymentCaptured payment hm hs) fun _ => only_pure _
  | error err => exact only_captureRefused payment intent err hm hs

/-- What follows once the order's payment is read: a capture of its intent at most. -/
theorem only_captureFound (amountCents : Option Cents) (payment : PaymentId) (p : Payment)
    (hc : ∀ intent, p.stripePaymentIntentId = some intent →
      A (.stripe (.capture intent payment amountCents)))
    (hm : A (.payment (.markCaptured payment))) (hs : A (.payment (.stampCaptured payment))) :
    (if p.status = .succeeded then pure .alreadyCaptured
      else if p.status ≠ .authorized ∧ p.status ≠ .pending then
        pure (.fatal ("payment is " ++ p.status.wire))
      else do
        if ← stripeConfigured then
          match p.stripePaymentIntentId with
          | none => pure (.retryable "payment has no Stripe PaymentIntent")
          | some intent =>
            if p.status = .pending then
              pure (.retryable "the authorization hold is not in place yet")
            else captureHold payment intent amountCents
        else do
          markPaymentCaptured payment
          pure .captured : Act CaptureOutcome).Only A := by
  refine Only.ite (fun _ => only_pure _) fun _ => Only.ite (fun _ => only_pure _) fun _ => ?_
  refine Only.seq only_stripeConfigured fun configured => Only.ite (fun _ => ?_) fun _ => ?_
  · cases hi : p.stripePaymentIntentId with
    | none => exact only_pure _
    | some intent =>
      have hhold := only_captureHold payment intent amountCents (hc intent hi) hm hs
      exact Only.ite (fun _ => only_pure _) fun _ => hhold
  · exact Only.seq (only_markPaymentCaptured payment hm hs) fun _ => only_pure _

theorem only_captureOrderPayment (id : OrderId) (amountCents : Option Cents) :
    (captureOrderPayment id amountCents).Only CaptureStmt := by
  refine Only.seq (only_activePaymentForOrder id) fun found => ?_
  cases found with
  | none => exact only_pure _
  | some found =>
    exact only_captureFound amountCents found.1 found.2 (fun _ _ => .capture _ _ _)
      (.markCaptured _) (.stampCaptured _)

end Footprints

end CarSalePro
