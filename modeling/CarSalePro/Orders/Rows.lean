import Mathlib.Data.Rat.Floor
import CarSalePro.Orders.Status
import CarSalePro.Store.Table

namespace CarSalePro

open Store

/-- Milliseconds since the epoch. -/
abbrev Time := Nat

abbrev UserId := Nat
abbrev OrderId := Nat
abbrev OfferId := Nat
abbrev CounterOfferId := Nat
abbrev PaymentId := Nat
abbrev IntentId := Nat
abbrev StripeEventId := Nat

/-- Money, in cents. -/
abbrev Cents := Int

def minutes (n : Nat) : Time := n * 60000

def days (n : Nat) : Time := n * 86400000

/-- Rounding half up, as `Math.round` does. -/
def mathRound (q : ℚ) : Int := ⌊q + 1 / 2⌋

structure Order where
  customerId : UserId
  inspectorId : Option UserId
  status : OrderStatus
  totalCents : Cents
  platformFeeCents : Cents
  inspectorShareCents : Cents
  searchExpiresAt : Option Time
  inspectionDeadlineAt : Option Time
  ownerContactConfirmedAt : Option Time
  submittedAt : Option Time
  autoApproveAt : Option Time
  dispatchRound : Nat
  deriving DecidableEq, Repr

inductive OfferStatus where
  | pending | accepted | declined | expired
  deriving DecidableEq, Repr

structure OrderOffer where
  orderId : OrderId
  inspectorId : UserId
  status : OfferStatus
  expiresAt : Time
  round : Nat
  priceCents : Option Cents
  platformFeeCents : Option Cents
  inspectorShareCents : Option Cents
  deriving DecidableEq, Repr

inductive CounterOfferStatus where
  | pending | accepting | accepted | declined | expired | withdrawn | superseded
  deriving DecidableEq, Repr

structure OrderCounterOffer where
  orderId : OrderId
  inspectorId : UserId
  status : CounterOfferStatus
  priceCents : Cents
  platformFeeCents : Cents
  inspectorShareCents : Cents
  presentedAt : Option Time
  expiresAt : Time
  acceptingUntil : Option Time
  respondedAt : Option Time
  createdAt : Time
  deriving DecidableEq, Repr

inductive PaymentStatus where
  | pending | authorized | succeeded | failed | cancelled | refunded
  deriving DecidableEq, Repr

/-- What a payment buys. The purposes no order path reads are one value. -/
inductive Purpose where
  | order | orderCounterOffer | other
  deriving DecidableEq, Repr

structure Payment where
  orderId : Option OrderId
  purpose : Purpose
  amountCents : Cents
  status : PaymentStatus
  stripePaymentIntentId : Option IntentId
  authorizedAt : Option Time
  capturedAt : Option Time
  canceledAt : Option Time
  supersededAt : Option Time
  createdAt : Time
  deriving DecidableEq, Repr

inductive RefundReason where
  | cancelBeforeAssign | cancelAfterAssign | dispute | admin | captureFailed | searchExpired
  | inspectorDeclined | ownerUnreachable | inspectorNoShow | reconcileStrandedHold
  deriving DecidableEq, Repr

/-- The status of a refund or payout row. -/
inductive SettlementStatus where
  | pending | settled | failed
  deriving DecidableEq, Repr

structure Refund where
  amountCents : Cents
  status : SettlementStatus
  attempts : Nat
  nextRetryAt : Option Time
  deriving DecidableEq, Repr

/-- The transfer of an order's share: the number Stripe answered with, or the mock's own. -/
inductive TransferId where
  | stripe (transfer : Nat)
  | mock (order : OrderId)
  deriving DecidableEq, Repr

structure Payout where
  inspectorId : UserId
  amountCents : Cents
  status : SettlementStatus
  attempts : Nat
  nextRetryAt : Option Time
  stripeTransferId : Option TransferId
  deriving DecidableEq, Repr

inductive DisputeStatus where
  | opened | resolvedCustomer | resolvedInspector
  deriving DecidableEq, Repr

structure Dispute where
  openedBy : UserId
  reason : String
  status : DisputeStatus
  deriving DecidableEq, Repr

inductive Actor where
  | system
  | operator
  | user (id : UserId)
  | admin (id : UserId)
  deriving DecidableEq, Repr

inductive EventType where
  | statusChange | offerSent | offerDeclined | dispatchRound | searchExpired
  | authorizationReleased | authorizationReleaseFailed
  | captureDeferred | captureFailed | priceLoweredByInspector
  | refundIssued | refundFailed | refundSkipped
  | inspectorDeclined | ownerContacted | ownerUnreachable | inspectorNoShow | adminDecision
  | counterOfferPresented | counterOfferAccepted | counterOfferWithdrawn
  | counterOfferCaptureFailed | counterOfferPaymentAbandoned
  | counterOfferPaymentStarted | counterOfferDeclined | counterOfferCreated
  deriving DecidableEq, Repr

/-- One line of an order's timeline. Of the payload only `paymentId` is ever read back. -/
structure OrderEvent where
  orderId : OrderId
  actor : Actor
  type : EventType
  fromStatus : Option OrderStatus
  toStatus : Option OrderStatus
  paymentId : Option PaymentId
  deriving DecidableEq, Repr

inductive WebhookStatus where
  | claimed | processed
  deriving DecidableEq, Repr

structure StripeWebhookEvent where
  status : WebhookStatus
  claimedAt : Option Time
  attempts : Nat
  deriving DecidableEq, Repr

structure InspectorProfile where
  kycVerified : Bool
  hasPro : Bool
  stripeOnboarded : Bool
  stripeAccountId : Option Nat
  cancelCount : Nat
  bannedAt : Option Time
  deletedAt : Option Time
  available : Bool
  searchRadiusKm : ℚ
  deriving DecidableEq, Repr

structure Settings where
  orderSearchWindowMinutes : Nat
  offerTimeoutMinutes : Nat
  inspectionStartDeadlineDays : Nat
  autoApproveAfterDays : Nat
  counterOfferCollectMinutes : Nat
  counterOfferWindowMinutes : Nat
  counterOfferPaymentMinutes : Nat
  refundBeforeAssignPercent : ℚ
  refundAfterAssignPercent : ℚ
  platformFeePercent : ℚ
  expertSearchRadiusKm : ℚ
  counterOfferMaxMultiplier : ℚ

/-- The shipped defaults. -/
def Settings.defaults : Settings where
  orderSearchWindowMinutes := 1440
  offerTimeoutMinutes := 60
  inspectionStartDeadlineDays := 7
  autoApproveAfterDays := 7
  counterOfferCollectMinutes := 10
  counterOfferWindowMinutes := 20
  counterOfferPaymentMinutes := 10
  refundBeforeAssignPercent := 100
  refundAfterAssignPercent := 80
  platformFeePercent := 20
  expertSearchRadiusKm := 300
  counterOfferMaxMultiplier := 6 / 5

/-- The split of a price. -/
structure PriceBreakdown where
  totalCents : Cents
  platformFeeCents : Cents
  inspectorShareCents : Cents
  deriving DecidableEq, Repr

/-- An inspector the geo query found, with the straight-line distance in metres. -/
structure Candidate where
  userId : UserId
  distance : Nat
  deriving DecidableEq, Repr

end CarSalePro
