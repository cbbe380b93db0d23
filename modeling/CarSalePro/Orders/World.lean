import CarSalePro.Interleave.Triple
import CarSalePro.Payments.Stripe

namespace CarSalePro

open Store Interleave

structure ReportPurchase where
  paymentId : PaymentId
  revokedAt : Option Time
  deriving DecidableEq, Repr

/-- The database, the provider and the clock, with what the services look up elsewhere: settings,
the geo query and the price of an order for one inspector, all of which may vary with time. -/
structure World where
  orders : Table OrderId Order
  offers : Table OfferId OrderOffer
  counterOffers : Table CounterOfferId OrderCounterOffer
  payments : Table PaymentId Payment
  refunds : Table (OrderId × RefundReason) Refund
  payouts : Table OrderId Payout
  disputes : Table OrderId Dispute
  events : List OrderEvent
  webhooks : Table StripeEventId StripeWebhookEvent
  inspectors : Table UserId InspectorProfile
  reportPurchases : Table Nat ReportPurchase
  provider : Provider
  now : Time
  nextOffer : OfferId
  stripeConfigured : Bool
  settings : Time → Settings
  nearby : Time → OrderId → List Candidate
  priceOf : Time → OrderId → UserId → PriceBreakdown
  /-- Where the inspector has a base location: how far it is from the car, in kilometres. -/
  distanceKmOf : Time → UserId → OrderId → Option ℚ
  /-- The order priced on an inspector who is that far away. -/
  fairPriceOf : Time → OrderId → UserId → ℚ → PriceBreakdown

namespace World

/-- A fresh installation with a configured provider. -/
def empty : World where
  orders := .empty
  offers := .empty
  counterOffers := .empty
  payments := .empty
  refunds := .empty
  payouts := .empty
  disputes := .empty
  events := []
  webhooks := .empty
  inspectors := .empty
  reportPurchases := .empty
  provider := ⟨.empty, .empty, .empty⟩
  now := 0
  nextOffer := 0
  stripeConfigured := true
  settings _ := .defaults
  nearby _ _ := []
  priceOf _ _ _ := ⟨0, 0, 0⟩
  distanceKmOf _ _ _ := none
  fairPriceOf _ _ _ _ := ⟨0, 0, 0⟩

def setting (w : World) : Settings := w.settings w.now

/-- Stripe has captured this payment. -/
def captured (w : World) (p : Payment) : Option Cents :=
  (p.stripePaymentIntentId.bind w.provider.intents.get).bind Intent.captured

end World

namespace Payment

/-- The row holds or has taken money, and no later payment replaced it. -/
def live (p : Payment) : Bool :=
  p.supersededAt.isNone && (p.status = .authorized || p.status = .succeeded)

/-- The purpose and order a counter-offer payment is looked up by. -/
def openCounterOffer (p : Payment) (order : OrderId) : Bool :=
  p.orderId = some order && p.purpose = .orderCounterOffer && p.supersededAt.isNone

end Payment

namespace OrderCounterOffer

/-- The price on the customer's screen, or being paid. -/
def presented (c : OrderCounterOffer) : Bool :=
  c.status = .accepting || (c.status = .pending && c.presentedAt.isSome)

end OrderCounterOffer

inductive HttpStatus where
  | badRequest | forbidden | notFound | conflict | serviceUnavailable
  deriving DecidableEq, Repr

inductive Err where
  | http (status : HttpStatus) (code message : String)
  | database
  | unique
  | recordNotFound
  | stripe (e : StripeError)
  | other (message : String)
  deriving DecidableEq, Repr

namespace Err

/-- What `classifyStripeError` sees of an error. -/
def raw : Err → StripeError
  | stripe e => e
  | http _ _ message | other message => ⟨none, none, none, message, none, none⟩
  | database => ⟨none, none, none, "database error", none, none⟩
  | unique => ⟨none, some (.named "P2002"), none, "Unique constraint failed", none, none⟩
  | recordNotFound => ⟨none, some (.named "P2025"), none, "Record not found", none, none⟩

end Err

/-- Where a program reads: the method the read is made in. -/
inductive Site where
  | clock | config | settings | requireOrder | transition | notifyAdmins | renderContract
  | acceptOffer | assertInspectorPro | counterOfferPaymentLock (order : OrderId) | adminAssign
  | activePaymentForOrder (order : OrderId) | captureOrderPayment | retrievePaymentIntent
  | finalizePayment | finalizeCounterOffer | finalizeOrder
  | finalizeBusy (order : OrderId) (inspector : UserId)
  | abandonCounterOfferPayment | releaseReplacedHold | releaseSupersededHold
  | settleCounterOffersOnAssignment | promote | dispatch (order : OrderId)
  | expirePendingOffers | declineOffer (offer : OfferId) | expireStaleOffers
  | redispatchUnfilledOrders | expireUnfilledSearches
  | sweepAbandonedInspections | reconcile | autoApproveOverdue | releasePayout
  | releasePayoutRow (order : OrderId) | parkPayout
  | markPayoutPaid
  | findRefund (order : OrderId) (reason : RefundReason) | releaseAuthorization
  | hasUnresolvedReleaseFailure
  | authorizeOrderPayment (order : OrderId) | settleOrderPayment | cancelOrderPayment
  | chargeRefunded
  | submitReportForOrder | resolveDispute | adminMarkPayoutPaid (order : OrderId) | sweepExpired
  | retryStuckPayouts | adminRetryPayout | retryStuckRefunds | adminRetryRefund
  | confirmTransfer | failTransfer
  | requireCustomerOrder | acceptCounterOffer | activeCounterPayment
  | declineCounterOffer | withdrawCounterOffer | sweepExpiredCounterOffers | sweepCollected
  | createCounterOffer | assertInspectorMayOffer | ownCounterOffer | distanceKmToOrder
  | fairPriceForInspector | queuePositionOf
  | listOpenForInspector | ordersNearInspector
  deriving DecidableEq, Repr

end CarSalePro
