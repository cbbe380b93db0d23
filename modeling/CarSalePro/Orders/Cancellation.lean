import CarSalePro.Orders.CounterOfferPayment

namespace CarSalePro

open Interleave Prog OrderStatus

/-- How a cancellation settled, for the client. -/
inductive RefundMode where
  | refunded | refundPending | authorizationReleased | none
  deriving DecidableEq, Repr

def refundModeOf : RefundOutcomeStatus → RefundMode
  | .refunded => .refunded
  | .parked => .refundPending
  | .released => .authorizationReleased
  | .skipped | .error => .none

/-- The answer to a cancellation. -/
structure CancelAnswer where
  status : OrderStatus
  refundCents : Cents
  refundMode : RefundMode
  deriving DecidableEq, Repr

def cancelAnswer (outcome : RefundOutcome) : CancelAnswer :=
  ⟨cancelled, outcome.amountCents, refundModeOf outcome.status⟩

/-- The share of the total a percentage stands for. -/
def percentOf (totalCents : Cents) (percent : ℚ) : Cents := mathRound (totalCents * percent / 100)

/-- The money of a cancellation, then the status. -/
def settleAndCancel (id : OrderId) (amountCents : Cents) (reason : RefundReason) (actor : Actor) :
    Act CancelAnswer := do
  let outcome ← settleRefund id amountCents reason
  transition id cancelled actor
  pure (cancelAnswer outcome)

/-- The customer cancels. -/
def cancel (id : OrderId) (user : UserId) : Act CancelAnswer := do
  let order ← requireOrder id
  if order.customerId ≠ user then forbidden "Not your order"
  else if order.status ∈ beforeAssignStatuses then do
    let settings ← readSettings
    settleAndCancel id (percentOf order.totalCents settings.refundBeforeAssignPercent)
      .cancelBeforeAssign (.user user)
  else if order.status ∈ afterAssignStatuses then do
    let settings ← readSettings
    settleAndCancel id (percentOf order.totalCents settings.refundAfterAssignPercent)
      .cancelAfterAssign (.user user)
  else
    fail .conflict "not_cancellable" "Order cannot be cancelled; open a dispute instead"

/-- Record why an admin decided as they did. Never throws. -/
def recordAdminDecision (id : OrderId) (admin : UserId) : Act Unit :=
  quietly (note id (.admin admin) .adminDecision)

def clampPercent (percent : ℚ) : ℚ := max 0 (min 100 percent)

/-- The refund of an admin's decision, when there is one to make. -/
def settleIntended (id : OrderId) (intendedCents : Cents) (reason : RefundReason) :
    Act (Option RefundOutcome) := do
  if 0 < intendedCents then do
    let outcome ← settleRefund id intendedCents reason
    pure (some outcome)
  else pure none

/-- An admin cancels with an explicit refund percentage. -/
def adminCancel (id : OrderId) (refundPercent : ℚ) (admin : UserId) : Act CancelAnswer := do
  let order ← requireOrder id
  if canTransition order.status cancelled = false then
    fail .conflict "illegal_transition" ("Cannot cancel an order in status " ++ order.status.wire)
  else do
    let outcome ← settleIntended id (percentOf order.totalCents (clampPercent refundPercent)) .admin
    transition id cancelled (.admin admin)
    recordAdminDecision id admin
    pure (outcome.elim ⟨cancelled, 0, .none⟩ cancelAnswer)

def countInspectorCancellation (inspector : UserId) : Act Unit :=
  quietly (perform (.countCancellation inspector))

/-- The two lines a cancellation writes whose status change was the claim itself. -/
def recordClaimedCancellation (id : OrderId) (actor : Actor) (type : EventType)
    (source : OrderStatus) : Act Unit := do
  writeEvent id actor type (some source) (some cancelled) none
  writeEvent id actor .statusChange (some source) (some cancelled) none

def notDeclinable {α : Type} : Act α :=
  fail .conflict "not_declinable" "The order can no longer be declined; open a dispute instead"

/-- The assigned inspector hands the job back, with a reason. -/
def declineByInspector (id : OrderId) (user : UserId) (reason : String) : Act CancelAnswer := do
  let order ← requireOrder id
  if order.inspectorId ≠ some user then forbidden "You are not the assigned inspector"
  else if order.status ∉ declinableStatuses then notDeclinable
  else if reason.all (·.isWhitespace) then
    fail .badRequest "reason_required" "A reason is required to decline an order"
  else do
    let claimed ← perform (.order (.cancelWhere id .handedBack))
    if claimed = 0 then notDeclinable
    else do
      let outcome ← settleRefund id order.totalCents .inspectorDeclined
      recordClaimedCancellation id (.user user) .inspectorDeclined order.status
      countInspectorCancellation user
      pure (cancelAnswer outcome)

def ownerContactNotPending {α : Type} : Act α :=
  fail .conflict "owner_contact_not_pending"
    "The owner contact can be reported only once, while the order is ASSIGNED"

/-- The assigned inspector reports the call to the car owner. -/
def recordOwnerContact (id : OrderId) (user : UserId) (reached : Bool) : Act CancelAnswer := do
  let order ← requireOrder id
  if order.inspectorId ≠ some user then forbidden "You are not the assigned inspector"
  else if reached then do
    let now ← readClock
    let claimed ← perform (.order (.confirmOwnerContact id user now))
    if claimed = 0 then ownerContactNotPending
    else do
      note id (.user user) .ownerContacted
      pure ⟨assigned, 0, .none⟩
  else do
    let claimed ← perform (.order (.cancelWhere id (.ownerUnreachable user)))
    if claimed = 0 then ownerContactNotPending
    else do
      let outcome ← settleRefund id order.totalCents .ownerUnreachable
      recordClaimedCancellation id (.user user) .ownerUnreachable order.status
      pure (cancelAnswer outcome)

end CarSalePro
