import CarSalePro.Orders.Payouts

namespace CarSalePro

open Interleave Prog OrderStatus

/-- Open the search window of an order that has none. -/
def openSearchWindow (id : OrderId) (order : Order) (now : Time) : Act Unit :=
  Prog.when (order.searchExpiresAt = none) do
    let settings ← readSettings
    issue (.order (.setSearchExpiresAt id (now + minutes settings.orderSearchWindowMinutes)))

/-- The hold is in place: the payment is authorized and the search starts. -/
def authorizeOrderPayment (payment : PaymentId) (id : OrderId) : Act Unit := do
  let now ← readClock
  quietly (perform (.payment (.authorize payment now)))
  match (← fetch (.authorizeOrderPayment id) (·.orders.get id)).filter (·.status = created) with
  | none => pure ()
  | some order => do
    openSearchWindow id order now
    transition id paid .system
    let _ ← dispatch id
    pure ()

/-- The money has been taken. An order that has not moved yet starts its search. -/
def settleOrderPayment (payment : PaymentId) (id : OrderId) : Act Unit := do
  quietly (perform (.payment (.settle payment)))
  quietly (perform (.payment (.stampCaptured payment)))
  match (← fetch .settleOrderPayment (·.orders.get id)).filter (·.status = created) with
  | none => pure ()
  | some _ => do
    transition id paid .system
    let _ ← dispatch id
    pure ()

/-- A hold on an order payment is gone; an order that still waits is cancelled. -/
def cancelOrderPayment (payment : PaymentId) (id : Option OrderId) : Act Unit := do
  let updated ← perform (.payment (.cancel payment))
  if updated = 0 then pure ()
  else
    match id with
    | none => pure ()
    | some id => do
      match (← fetch .cancelOrderPayment (·.orders.get id)).filter
          (·.status ∈ preAssignmentStatuses) with
      | none => pure ()
      | some _ => transition id cancelled .system

/-- The metadata of an intent. -/
structure IntentMetadata where
  purpose : Purpose
  orderId : Option OrderId
  paymentId : Option PaymentId
  deriving DecidableEq, Repr

/-- The Stripe events the order money listens to; the others touch nothing of it. -/
inductive StripeEventKind where
  | amountCapturableUpdated (intent : IntentMetadata)
  | succeeded (intent : IntentMetadata)
  | canceled (intent : IntentMetadata)
  | paymentFailed (intent : IntentMetadata)
  | chargeRefunded (intent : Option IntentId)
  | transferCreated (transfer : TransferId)
  | transferFailed (transfer : TransferId)
  | other
  deriving DecidableEq, Repr

/-- A counter-offer payment that failed or was cancelled sends its order back to the pool. -/
def abandonIfCounterOffer (intent : IntentMetadata) (alreadyCanceledAtStripe : Bool) : Act Unit :=
  match intent.purpose, intent.orderId with
  | .orderCounterOffer, some id => abandonCounterOfferPayment id alreadyCanceledAtStripe
  | _, _ => pure ()

/-- The payout a transfer is recorded in. -/
def findPayout (site : Site) (transfer : TransferId) : Act (Option (OrderId × Payout)) :=
  fetch site fun w => w.payouts.findFirst fun _ p => p.stripeTransferId = some transfer

/-- A transfer landed. -/
def confirmTransfer (transfer : TransferId) : Act Unit := do
  match ← findPayout .confirmTransfer transfer with
  | none => pure ()
  | some (id, payout) =>
    Prog.when (payout.status ≠ .settled) (quietly (perform (.payout (.confirm id))))

/-- A transfer failed or was reversed, after it was recorded: its payout is parked. -/
def failTransfer (transfer : TransferId) : Act Unit := do
  match ← findPayout .failTransfer transfer with
  | none => pure ()
  | some (id, _) => parkPayoutForFailedTransfer id

def processWebhook : StripeEventKind → Act Unit
  | .amountCapturableUpdated intent =>
    match intent.purpose, intent.orderId, intent.paymentId with
    | .order, some id, some payment => authorizeOrderPayment payment id
    | .orderCounterOffer, some id, some payment => finalizeCounterOfferPayment payment id
    | _, _, _ => pure ()
  | .succeeded intent =>
    match intent.purpose, intent.orderId, intent.paymentId with
    | .order, some id, some payment => settleOrderPayment payment id
    | _, _, _ => pure ()
  | .canceled intent => do
    match intent.purpose, intent.paymentId with
    | .order, some payment => cancelOrderPayment payment intent.orderId
    | _, _ => abandonIfCounterOffer intent true
  | .paymentFailed intent => do
    match intent.purpose, intent.paymentId with
    | .order, some payment => quietly (perform (.payment (.fail payment)))
    | _, _ => abandonIfCounterOffer intent false
  | .chargeRefunded none => pure ()
  | .chargeRefunded (some intent) => do
    match ← fetch .chargeRefunded fun w =>
        w.payments.findFirst fun _ p => p.stripePaymentIntentId = some intent with
    | none => pure ()
    | some (payment, _) => markPaymentRefunded payment
  | .transferCreated transfer => confirmTransfer transfer
  | .transferFailed transfer => failTransfer transfer
  | .other => pure ()

/-- The statements that record what became of a payment, and start the search of its order. -/
inductive StartStmt : Stmt → Prop where
  | authorize (k at_) : StartStmt (.payment (.authorize k at_))
  | settle (k) : StartStmt (.payment (.settle k))
  | stampCaptured (k) : StartStmt (.payment (.stampCaptured k))
  | window (o at_) : StartStmt (.order (.setSearchExpiresAt o at_))
  | paid (o source legal) : StartStmt (.order (.transition o source paid legal))
  | event (e) : StartStmt (.event e)
  | dispatch {o s} (h : DispatchStmt o s) : StartStmt s

section Footprints

variable (payment : PaymentId) (id : OrderId)

theorem only_startSearch : (transition id paid .system).Only StartStmt :=
  only_transition_plain id paid .system (by decide) (.paid id) .event

theorem only_authorizeOrderPayment : (authorizeOrderPayment payment id).Only StartStmt := by
  refine Only.seq only_readClock fun now => ?_
  refine Only.seq (Only.quietly ((only_perform _).mpr (.authorize _ _))) fun _ => ?_
  refine Only.seq (only_fetch _ _) fun found => ?_
  split
  · exact only_pure _
  · refine Only.seq (Only.when fun _ => ?_) fun _ => Only.seq (only_startSearch id) fun _ => ?_
    · exact Only.seq only_readSettings fun _ => only_issue (.window _ _)
    · exact Only.seq ((only_dispatch id).mono fun _ => .dispatch) fun _ => only_pure _

theorem only_settleOrderPayment : (settleOrderPayment payment id).Only StartStmt := by
  refine Only.seq (Only.quietly ((only_perform _).mpr (.settle _))) fun _ => ?_
  refine Only.seq (Only.quietly ((only_perform _).mpr (.stampCaptured _))) fun _ => ?_
  refine Only.seq (only_fetch _ _) fun found => ?_
  split
  · exact only_pure _
  · refine Only.seq (only_startSearch id) fun _ => ?_
    exact Only.seq ((only_dispatch id).mono fun _ => .dispatch) fun _ => only_pure _

end Footprints

/-- How long a claim may sit before another delivery may steal it. -/
def webhookClaimStaleMs : Time := 5 * 60000

/-- Take the exclusive right to handle this event: insert its row, or steal a stale claim. -/
def claimWebhookEvent (event : StripeEventId) : Act Bool := do
  match ← attempt (perform (.webhook (.claim event))) with
  | .ok _ => pure true
  | .error .unique => do
    let now ← readClock
    let stolen ← perform (.webhook (.steal event (now - webhookClaimStaleMs)))
    pure (decide (0 < stolen))
  | .error err => throw err

/-- What follows a handler run: the claim is completed, or released with the error passed on. -/
def finishWebhook (event : StripeEventId) : Except Err Unit → Act Unit
  | .ok _ => quietly (perform (.webhook (.complete event)))
  | .error err => do
    quietly (perform (.webhook (.release event)))
    throw err

/-- Process a webhook event: claim, handle, complete. -/
def handleWebhook (event : StripeEventId) (handler : Act Unit) : Act Unit := do
  if ← claimWebhookEvent event then do
    let outcome ← attempt handler
    finishWebhook event outcome
  else pure ()

section Deliveries

variable {A : Stmt → Prop} {event : StripeEventId}

theorem only_claimWebhookEvent (hclaim : A (.webhook (.claim event)))
    (hsteal : ∀ staleBefore, A (.webhook (.steal event staleBefore))) :
    (claimWebhookEvent event).Only A := by
  refine Only.seq (Only.attempt ((only_perform _).mpr hclaim)) fun outcome => ?_
  split
  · exact only_pure _
  · refine Only.seq only_readClock fun now => ?_
    exact Only.seq ((only_perform _).mpr (hsteal _)) fun _ => only_pure _
  · exact only_throw _

theorem only_finishWebhook (outcome : Except Err Unit) (hcomplete : A (.webhook (.complete event)))
    (hrelease : A (.webhook (.release event))) : (finishWebhook event outcome).Only A := by
  cases outcome with
  | ok r => exact Only.quietly ((only_perform _).mpr hcomplete)
  | error e => exact Only.seq (Only.quietly ((only_perform _).mpr hrelease)) fun _ => only_throw _

end Deliveries

end CarSalePro
