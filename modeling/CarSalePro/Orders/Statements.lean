import CarSalePro.Orders.World

namespace CarSalePro

open Store OrderStatus

/-- The guarded writes that cancel an order without reading it first. -/
inductive CancelGuard where
  | handedBack
  | ownerUnreachable (inspector : UserId)
  | searchExpired (now : Time)
  | abandoned (now : Time)
  deriving DecidableEq, Repr

def CancelGuard.admits (o : Order) : CancelGuard → Bool
  | handedBack => o.status ∈ declinableStatuses
  | ownerUnreachable inspector =>
    o.inspectorId = some inspector && o.status = assigned && o.ownerContactConfirmedAt.isNone
  | searchExpired now =>
    o.status ∈ searchStatuses && o.inspectorId.isNone && o.searchExpiresAt.any (· < now)
  | abandoned now => o.status ∈ afterAssignStatuses && o.inspectionDeadlineAt.any (· < now)

/-- The writes to the order table. `transition` carries the status that was read before it, and
that the edge from there is allowed; the write itself has no guard. -/
inductive OrderStmt where
  | setSearchExpiresAt (id : OrderId) (at_ : Time)
  | transition (id : OrderId) (source target : OrderStatus) (legal : canTransition source target)
  | setInspectionDeadline (id : OrderId) (after : Nat)
  | confirmOwnerContact (id : OrderId) (inspector : UserId) (at_ : Time)
  | claim (id : OrderId) (statuses : List OrderStatus) (inspector : UserId)
  | releaseClaim (id : OrderId) (inspector : UserId)
  | cancelWhere (id : OrderId) (guard : CancelGuard)
  | raiseRound (id : OrderId) (now : Time)
  | setPrice (id : OrderId) (price : PriceBreakdown)
  | setSubmitted (id : OrderId) (at_ autoApproveAt : Time)

namespace OrderStmt

def order : OrderStmt → OrderId
  | setSearchExpiresAt id _ | transition id _ _ _ | setInspectionDeadline id _
  | confirmOwnerContact id _ _ | claim id _ _ | releaseClaim id _ | cancelWhere id _
  | raiseRound id _ | setPrice id _ | setSubmitted id _ _ => id

/-- The new row, when the row meets the statement's `where`. -/
def rewrite (now : Time) (r : Order) : OrderStmt → Option Order
  | setSearchExpiresAt _ at_ => some { r with searchExpiresAt := some at_ }
  | transition _ _ target _ => some { r with status := target }
  | setInspectionDeadline _ after => some { r with inspectionDeadlineAt := some (now + days after) }
  | confirmOwnerContact _ inspector at_ =>
    if (CancelGuard.ownerUnreachable inspector).admits r then
      some { r with ownerContactConfirmedAt := some at_ }
    else none
  | claim _ statuses inspector =>
    if r.status ∈ statuses ∧ r.inspectorId = none then some { r with inspectorId := some inspector }
    else none
  | releaseClaim _ inspector =>
    if r.inspectorId = some inspector ∧ r.status ∈ searchStatuses then
      some { r with inspectorId := none }
    else none
  | cancelWhere _ guard => if guard.admits r then some { r with status := cancelled } else none
  | raiseRound _ now =>
    if r.status = unassigned ∧ r.inspectorId = none ∧ r.searchExpiresAt.any (now < ·) then
      some { r with dispatchRound := r.dispatchRound + 1 }
    else none
  | setPrice _ price =>
    some { r with
      totalCents := price.totalCents
      platformFeeCents := price.platformFeeCents
      inspectorShareCents := price.inspectorShareCents }
  | setSubmitted _ at_ autoApproveAt =>
    some { r with submittedAt := some at_, autoApproveAt := some autoApproveAt }

end OrderStmt

inductive OfferStmt where
  | create (offer : OrderOffer)
  | update (id : OfferId) (status : OfferStatus)
  | updateMany (filter : OfferId → OrderOffer → Bool) (status : OfferStatus)

inductive CounterOfferStmt where
  | present (id : CounterOfferId) (at_ expiresAt : Time)
  | expireQueue (order : OrderId) (at_ : Time)
  | supersede (ids : List CounterOfferId)
  | withdraw (ids : List CounterOfferId)
  | withdrawAccepting (id : CounterOfferId) (at_ : Time)
  | returnFromPayment (id : CounterOfferId) (stillOpen : Bool) (at_ : Time)
  | startPayment (id : CounterOfferId) (acceptingUntil : Time)
  | decline (id : CounterOfferId)
  | expirePresented (ids : List CounterOfferId) (at_ : Time)

namespace CounterOfferStmt

def rewrite (now : Time) (id : CounterOfferId) (c : OrderCounterOffer) :
    CounterOfferStmt → Option OrderCounterOffer
  | present id' at_ expiresAt =>
    if id = id' ∧ c.status = .pending ∧ c.presentedAt = none then
      some { c with presentedAt := some at_, expiresAt := expiresAt }
    else none
  | expireQueue order at_ =>
    if c.orderId = order ∧ c.status = .pending ∧ c.presentedAt = none then
      some { c with status := .expired, respondedAt := some at_ }
    else none
  | supersede ids =>
    if id ∈ ids ∧ c.status = .pending then
      some { c with status := .superseded, respondedAt := some now }
    else none
  | withdraw ids =>
    if id ∈ ids ∧ c.status = .pending then
      some { c with status := .withdrawn, respondedAt := some now }
    else none
  | withdrawAccepting id' at_ =>
    if id = id' ∧ c.status = .accepting then
      some { c with status := .withdrawn, acceptingUntil := none, respondedAt := some at_ }
    else none
  | returnFromPayment id' stillOpen at_ =>
    if id = id' ∧ c.status = .accepting then
      some (if stillOpen then { c with status := .pending, acceptingUntil := none }
        else { c with status := .expired, acceptingUntil := none, respondedAt := some at_ })
    else none
  | startPayment id' acceptingUntil =>
    if id = id' ∧ c.status = .pending ∧ c.presentedAt ≠ none ∧ now < c.expiresAt then
      some { c with status := .accepting, acceptingUntil := some acceptingUntil }
    else none
  | decline id' =>
    if id = id' ∧ c.status = .pending ∧ c.presentedAt ≠ none then
      some { c with status := .declined, respondedAt := some now }
    else none
  | expirePresented ids at_ =>
    if id ∈ ids ∧ c.status = .pending then
      some { c with status := .expired, respondedAt := some at_ }
    else none

end CounterOfferStmt

/-- What an inspector names: the customer's price, its split, and how long it waits. -/
structure CounterOfferTerms where
  priceCents : Cents
  platformFeeCents : Cents
  inspectorShareCents : Cents
  expiresAt : Time
  deriving DecidableEq, Repr

namespace CounterOfferTerms

/-- A price named for the first time. -/
def create (terms : CounterOfferTerms) (order : OrderId) (inspector : UserId) (now : Time) :
    OrderCounterOffer where
  orderId := order
  inspectorId := inspector
  status := .pending
  priceCents := terms.priceCents
  platformFeeCents := terms.platformFeeCents
  inspectorShareCents := terms.inspectorShareCents
  presentedAt := none
  expiresAt := terms.expiresAt
  acceptingUntil := none
  respondedAt := none
  createdAt := now

/-- A price named again, which takes its turn again. -/
def update (terms : CounterOfferTerms) (c : OrderCounterOffer) : OrderCounterOffer := { c with
  status := .pending
  priceCents := terms.priceCents
  platformFeeCents := terms.platformFeeCents
  inspectorShareCents := terms.inspectorShareCents
  presentedAt := none
  expiresAt := terms.expiresAt
  acceptingUntil := none
  respondedAt := none }

end CounterOfferTerms

/-- The writes to the payment table. -/
inductive PaymentStmt where
  | authorize (id : PaymentId) (at_ : Time)
  | settle (id : PaymentId)
  | markCaptured (id : PaymentId)
  | stampCaptured (id : PaymentId)
  | cancel (id : PaymentId)
  | cancelUnlessCancelled (id : PaymentId)
  | release (id : PaymentId)
  | fail (id : PaymentId)
  | refund (id : PaymentId)
  | supersede (id : PaymentId) (released : Bool)
  | abandon (order : OrderId) (at_ : Time)
  | attachIntent (id : PaymentId) (intent : IntentId)
  deriving DecidableEq, Repr

namespace PaymentStmt

def rewrite (now : Time) (id : PaymentId) (p : Payment) : PaymentStmt → Option Payment
  | authorize id' at_ =>
    if id = id' ∧ (p.status = .pending ∨ p.status = .failed) then
      some { p with status := .authorized, authorizedAt := some at_ }
    else none
  | settle id' | markCaptured id' => if id = id' then some { p with status := .succeeded } else none
  | stampCaptured id' =>
    if id = id' ∧ p.capturedAt = none then some { p with capturedAt := some now } else none
  | cancel id' =>
    if id = id' ∧ (p.status = .pending ∨ p.status = .authorized ∨ p.status = .failed) then
      some { p with status := .cancelled, canceledAt := some now }
    else none
  | cancelUnlessCancelled id' =>
    if id = id' ∧ p.status ≠ .cancelled then
      some { p with status := .cancelled, canceledAt := some now }
    else none
  | release id' =>
    if id = id' then some { p with status := .cancelled, canceledAt := some now } else none
  | fail id' =>
    if id = id' ∧ (p.status = .pending ∨ p.status = .failed) then some { p with status := .failed }
    else none
  | refund id' => if id = id' then some { p with status := .refunded } else none
  | supersede id' released =>
    if id = id' then
      some (if released then
        { p with supersededAt := some now, status := .cancelled, canceledAt := some now }
      else { p with supersededAt := some now })
    else none
  | abandon order at_ =>
    if p.openCounterOffer order then
      some { p with status := .failed, supersededAt := some at_ }
    else none
  | attachIntent id' intent =>
    if id = id' then some { p with stripePaymentIntentId := some intent } else none

/-- An `update` by id, which fails when the row is not there. -/
def strict : PaymentStmt → Bool
  | settle _ | release _ | refund _ | supersede _ _ | attachIntent _ _ => true
  | _ => false

end PaymentStmt

end CarSalePro
