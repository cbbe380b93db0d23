import CarSalePro.Orders.Cancellation

namespace CarSalePro

open Interleave Prog OrderStatus

/-- What `releasePayout` did. -/
inductive PayoutOutcome where
  | paid | alreadyPaid
  | parked (reason : String)
  | skipped (reason : String)
  deriving DecidableEq, Repr

/-- Terminate a payout row that can never settle on its own. -/
def skipPayout (id : OrderId) (reason : String) : Act PayoutOutcome := do
  issue (.payout (.skip id))
  pure (.skipped reason)

/-- Record a payout that could not be settled, with the next attempt. -/
def parkPayout (id : OrderId) (inspector : Option UserId) (amountCents : Cents)
    (reason : String) : Act PayoutOutcome := do
  match inspector with
  | none => skipPayout id "order has no inspector"
  | some inspector => do
    let existing ← fetch .parkPayout (·.payouts.get id)
    let now ← readClock
    let plan := planRetry (existing.elim 0 (·.attempts)) false now
    issue (.payout (.park id ⟨inspector, amountCents,
      if plan.terminal then .failed else .pending, plan.attempts, plan.nextRetryAt, none⟩))
    Prog.when (plan.attempts = 1 ∨ plan.terminal = true) notifyAdmins
    pure (.parked reason)

/-- Stripe said afterwards that a transfer failed or was reversed. -/
def parkPayoutForFailedTransfer (id : OrderId) : Act Unit := do
  match ← fetch .parkPayout (·.payouts.get id) with
  | none => pure ()
  | some payout => do
    match ← fetch .parkPayout (·.orders.get id) with
    | none => pure ()
    | some order => do
      issue (.payout (.freeTransfer id))
      let _ ← parkPayout id (order.inspectorId.orElse fun _ => some payout.inspectorId)
        payout.amountCents "stripe reported the transfer failed or was reversed"
      pure ()

/-- Settle the order's single payout. True when it was already paid. -/
def markPayoutPaid (id : OrderId) (inspector : UserId) (amountCents : Cents)
    (transfer : TransferId) : Act Bool := do
  let existing ← fetch .markPayoutPaid (·.payouts.get id)
  if existing.any (·.status = .settled) then pure true
  else do
    match ← attempt (perform (.payout
        (.markPaid id inspector amountCents (existing.elim 0 (·.attempts) + 1) transfer))) with
    | .ok _ => pure false
    | .error .unique => pure true
    | .error err => throw err

def finishPayout (id : OrderId) (order : Order) (inspector : UserId) (transfer : TransferId) :
    Act PayoutOutcome := do
  if ← markPayoutPaid id inspector order.inspectorShareCents transfer then pure .alreadyPaid
  else do
    transition id completed .system
    pure .paid

/-- The charge behind a captured intent, and the transfer drawn from it. -/
def transferShare (id : OrderId) (order : Order) (intent : IntentId) : Act (Except Err Nat) :=
  attempt do
    match ← retrievePaymentIntent intent with
    | some i =>
      if i.captured.isSome then
        perform (.stripe (.createTransfer id order.inspectorShareCents))
      else throw (.other "PaymentIntent has no latest_charge")
    | none => throw (.stripe .missing)

/-- The transfer of the inspector's share, and its record. -/
def payOut (id : OrderId) (order : Order) (inspector : UserId) : Act PayoutOutcome := do
  if ← stripeConfigured then do
    let payment ← activePaymentForOrder id
    match payment.bind (·.2.stripePaymentIntentId) with
    | none =>
      parkPayout id order.inspectorId order.inspectorShareCents "order has no Stripe PaymentIntent"
    | some intent => do
      match ← transferShare id order intent with
      | .ok transfer => finishPayout id order inspector (.stripe transfer)
      | .error err =>
        parkPayout id order.inspectorId order.inspectorShareCents
          (classifyStripeError err.raw).message
  else finishPayout id order inspector (.mock id)

/-- Release the escrowed inspector share of an approved order. -/
def releasePayout (id : OrderId) : Act PayoutOutcome := do
  match ← fetch .releasePayout (·.orders.get id) with
  | none => skipPayout id "order no longer exists"
  | some order =>
    if order.status ≠ approved ∧ order.status ≠ completed then
      skipPayout id ("order is " ++ order.status.wire ++ " — no payout is owed")
    else
      match order.inspectorId with
      | none => skipPayout id "order has no inspector"
      | some inspector => do
        let existing ← fetch (.releasePayoutRow id) (·.payouts.get id)
        if existing.any (·.status = .settled) then pure .alreadyPaid
        else do
          let profile ← fetch .releasePayout (·.inspectors.get inspector)
          if profile.all fun i => !i.stripeOnboarded || i.stripeAccountId.isNone then
            parkPayout id order.inspectorId order.inspectorShareCents
              "inspector is not onboarded for payouts"
          else payOut id order inspector

/-- One payout of the retry sweep. True when it is paid afterwards. -/
def retryPayout (id : OrderId) : Act Bool := do
  match ← releasePayout id with
  | .skipped _ => pure false
  | _ => do
    let after ← fetch .retryStuckPayouts (·.payouts.get id)
    pure (after.any (·.status = .settled))

/-- Payouts whose backoff has elapsed are tried again. -/
def retryStuckPayouts (limit : Nat) : Act Nat := do
  let due ← fetch .retryStuckPayouts fun w => w.payouts.findSorted
    (fun _ p => p.status ≠ .settled && p.nextRetryAt.any (· ≤ w.now) &&
      p.attempts < moneyRetryMaxAttempts)
    (fun a b => earlierRetry a.nextRetryAt b.nextRetryAt) limit
  countEach due fun p => guarded (retryPayout p.1)

def payoutNotFound {α : Type} (id : OrderId) : Act α :=
  fail .notFound "payout_not_found" ("No payout for order " ++ toString id)

/-- An operator has a stuck payout tried now. -/
def adminRetryPayout (id : OrderId) : Act Unit := do
  match ← fetch .adminRetryPayout (·.payouts.get id) with
  | none => payoutNotFound id
  | some payout =>
    if payout.status = .settled then pure ()
    else do
      issue (.payout (.retryNow id))
      let _ ← releasePayout id
      let _ ← fetch .adminRetryPayout (·.payouts.get id)
      pure ()

/-- An operator records a payout settled outside Stripe. -/
def adminMarkPayoutPaid (id : OrderId) : Act Unit := do
  match ← fetch (.adminMarkPayoutPaid id) (·.payouts.get id) with
  | none => payoutNotFound id
  | some _ => do
    issue (.payout (.settleOutOfBand id))
    transition id completed .operator

/-- The customer approves the submitted report. -/
def approve (id : OrderId) (user : UserId) : Act OrderStatus := do
  let order ← requireOrder id
  if order.customerId ≠ user then forbidden "Not your order"
  else do
    transition id approved (.user user)
    let _ ← releasePayout id
    let after ← requireOrder id
    pure after.status

/-- The customer opens a dispute. -/
def dispute (id : OrderId) (user : UserId) (reason : String) : Act Unit := do
  let order ← requireOrder id
  if order.customerId ≠ user then forbidden "Not your order"
  else do
    transition id disputed (.user user)
    issue (.openDispute id user reason)

def closeDispute (id : OrderId) (status : DisputeStatus) : Act Unit :=
  quietly (perform (.closeDispute id status))

/-- What an admin's resolution of a dispute answers. -/
structure ResolveAnswer where
  status : OrderStatus
  refundCents : Cents
  payoutCents : Cents
  deriving DecidableEq, Repr

/-- The dispute closes whatever the transition did; its error is thrown afterwards. -/
def closeAndRethrow (id : OrderId) (status : DisputeStatus) (admin : UserId)
    (moved : Except Err Unit) : Act Order := do
  closeDispute id status
  recordAdminDecision id admin
  match moved with
  | .error err => throw err
  | .ok _ => requireOrder id

def resolveForCustomer (id : OrderId) (order : Order) (refundPercent : Option ℚ)
    (admin : UserId) : Act ResolveAnswer := do
  let outcome ← settleIntended id
    (percentOf order.totalCents (clampPercent (refundPercent.getD 100))) .dispute
  let moved ← attempt (transition id refunded (.admin admin))
  let after ← closeAndRethrow id .resolvedCustomer admin moved
  pure ⟨after.status, outcome.elim 0 (·.amountCents), 0⟩

def resolveForInspector (id : OrderId) (order : Order) (admin : UserId) : Act ResolveAnswer := do
  let moved ← attempt do
    transition id approved (.admin admin)
    let _ ← releasePayout id
    pure ()
  let after ← closeAndRethrow id .resolvedInspector admin moved
  let payout ← fetch .resolveDispute (·.payouts.get id)
  pure ⟨after.status, 0, payout.elim order.inspectorShareCents (·.amountCents)⟩

/-- An admin resolves a disputed order for the customer or for the inspector. -/
def resolveDispute (id : OrderId) (forCustomer : Bool) (admin : UserId)
    (refundPercent : Option ℚ) : Act ResolveAnswer := do
  let order ← requireOrder id
  if order.status ≠ disputed then fail .conflict "not_disputed" "Order is not in dispute"
  else if forCustomer then resolveForCustomer id order refundPercent admin
  else resolveForInspector id order admin

/-- The assigned inspector pushes the order forward. -/
def updateStatusByInspector (id : OrderId) (user : UserId) (start : Bool) : Act OrderStatus := do
  let order ← requireOrder id
  if order.inspectorId ≠ some user then forbidden "You are not the assigned inspector"
  else
    let target := if start then inProgress else enRoute
    if target = enRoute ∧ order.status = assigned ∧ order.ownerContactConfirmedAt = none then
      fail .conflict "owner_contact_required" "Confirm contact with the car owner before the trip"
    else do
      transition id target (.user user)
      pure target

/-- Walk forward to `inProgress`, so that the edge to `submitted` is legal. -/
def walkToInProgress (id : OrderId) (status : OrderStatus) : Act Unit :=
  match status with
  | .assigned => do
    transition id enRoute .system
    transition id inProgress .system
  | .enRoute => transition id inProgress .system
  | _ => pure ()

/-- The inspector's report closes the inspection. -/
def submitReportForOrder (id : OrderId) : Act Bool := do
  match ← fetch .submitReportForOrder (·.orders.get id) with
  | none => pure false
  | some order =>
    if order.status ∉ attachableReportOrderStatuses then pure false
    else do
      walkToInProgress id order.status
      let settings ← readSettings
      let now ← readClock
      issue (.order (.setSubmitted id now (now + days settings.autoApproveAfterDays)))
      transition id submitted .system
      pure true

/-- The statements of a payout. -/
inductive PayStmt (id : OrderId) : Stmt → Prop where
  | payout (s) (h : s.order = id) : PayStmt id (.payout s)
  | transfer (amountCents) : PayStmt id (.stripe (.createTransfer id amountCents))
  | completed (source legal) : PayStmt id (.order (.transition id source completed legal))
  | event (e) : PayStmt id (.event e)

section Footprints

variable (id : OrderId)

theorem only_skipPayout (reason : String) : (skipPayout id reason).Only (PayStmt id) :=
  Only.seq (only_issue (.payout _ rfl)) fun _ => only_pure _

theorem only_parkPayout (inspector : Option UserId) (amountCents : Cents) (reason : String) :
    (parkPayout id inspector amountCents reason).Only (PayStmt id) := by
  cases inspector with
  | none => exact only_skipPayout id _
  | some inspector =>
    refine Only.seq (only_fetch _ _) fun existing => Only.seq only_readClock fun now => ?_
    refine Only.seq (only_issue (.payout _ rfl)) fun _ => ?_
    exact Only.seq (Only.when fun _ => only_notifyAdmins) fun _ => only_pure _

theorem only_parkPayoutForFailedTransfer :
    (parkPayoutForFailedTransfer id).Only (PayStmt id) := by
  refine Only.seq (only_fetch _ _) fun payout => ?_
  split
  next => exact only_pure _
  next =>
    refine Only.seq (only_fetch _ _) fun order => ?_
    split
    next => exact only_pure _
    next =>
      refine Only.seq (only_issue (.payout _ rfl)) fun _ => ?_
      exact Only.seq (only_parkPayout id _ _ _) fun _ => only_pure _

theorem only_finishPayout (order : Order) (inspector : UserId) (transfer : TransferId) :
    (finishPayout id order inspector transfer).Only (PayStmt id) := by
  refine Only.seq (Only.seq (only_fetch _ _) fun existing => ?_) fun paid => ?_
  · refine Only.ite (fun _ => only_pure _) fun _ => ?_
    refine Only.seq (Only.attempt ((only_perform _).mpr (.payout _ rfl))) fun r => ?_
    split
    · exact only_pure _
    · exact only_pure _
    · exact only_throw _
  · refine Only.ite (fun _ => only_pure _) fun _ => Only.seq ?_ fun _ => only_pure _
    exact only_transition_plain _ _ _ (by decide) .completed .event

theorem only_transferShare (order : Order) (intent : IntentId) :
    (transferShare id order intent).Only (PayStmt id) := by
  refine Only.attempt (Only.seq (only_fetch _ _) fun found => ?_)
  split
  · exact Only.ite (fun _ => (only_perform _).mpr (.transfer _)) fun _ => only_throw _
  · exact only_throw _

theorem only_payOut (order : Order) (inspector : UserId) :
    (payOut id order inspector).Only (PayStmt id) := by
  refine Only.seq only_stripeConfigured fun configured => Only.ite (fun _ => ?_) fun _ => ?_
  · refine Only.seq (only_activePaymentForOrder id) fun payment => ?_
    split
    · exact only_parkPayout _ _ _ _
    · refine Only.seq (only_transferShare id order _) fun r => ?_
      split
      · exact only_finishPayout _ _ _ _
      · exact only_parkPayout _ _ _ _
  · exact only_finishPayout _ _ _ _

theorem only_releasePayout : (releasePayout id).Only (PayStmt id) := by
  refine Only.seq (only_fetch _ _) fun found => ?_
  split
  next => exact only_skipPayout id _
  next order =>
    refine Only.ite (fun _ => only_skipPayout id _) fun _ => ?_
    split
    next => exact only_skipPayout id _
    next inspector =>
      refine Only.seq (only_fetch _ _) fun existing => Only.ite (fun _ => only_pure _) fun _ => ?_
      refine Only.seq (only_fetch _ _) fun profile => ?_
      exact Only.ite (fun _ => only_parkPayout _ _ _ _) fun _ => only_payOut _ _ _

end Footprints

end CarSalePro
