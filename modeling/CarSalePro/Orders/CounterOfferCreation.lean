import CarSalePro.Orders.CounterOffers

namespace CarSalePro

open Interleave Prog OrderStatus

section Rules

/-- The ceiling: the fair price of this inspector's trip, times the platform multiplier. -/
def counterOfferCeilingCents (fairPriceCents : Cents) (multiplier : ℚ) : Cents :=
  mathRound (max 0 fairPriceCents * (if 1 ≤ multiplier then multiplier else 1))

/-- The customer's total that pays an inspector exactly this payout. -/
def counterOfferTotalFromPayout (payoutCents : Cents) (platformFeePercent : ℚ) : Cents :=
  if platformFeePercent ≤ 0 then max 0 payoutCents
  else max 0 payoutCents + mathRound (max 0 payoutCents * platformFeePercent / 100)

/-- Why this price cannot be asked. -/
def counterOfferPriceError (priceCents orderTotalCents maxPriceCents : Cents) : Option String :=
  if priceCents ≤ 0 then some "The price must be a positive amount in cents"
  else if priceCents ≤ orderTotalCents then
    some ("The price is not more than the order pays, so the order can be offered to you in " ++
      "the usual way")
  else if maxPriceCents < priceCents then
    some ("The price is more than the maximum of " ++ toString maxPriceCents ++
      " cents for this order")
  else none

/-- A price that may be asked is above the order's total and within the ceiling. -/
theorem counterOfferPriceError_eq_none {priceCents orderTotalCents maxPriceCents : Cents} :
    counterOfferPriceError priceCents orderTotalCents maxPriceCents = none ↔
      0 < priceCents ∧ orderTotalCents < priceCents ∧ priceCents ≤ maxPriceCents := by
  unfold counterOfferPriceError
  constructor
  · intro h
    split at h
    · cases h
    split at h
    · cases h
    split at h
    · cases h
    next h₁ h₂ h₃ => exact ⟨not_le.mp h₁, not_le.mp h₂, not_lt.mp h₃⟩
  · rintro ⟨h₁, h₂, h₃⟩
    rw [if_neg (not_le.mpr h₁), if_neg (not_le.mpr h₂), if_neg (not_lt.mpr h₃)]

end Rules

/-- The endings of a price that are final, and the window in which it is paid. -/
def CounterOfferStatus.answered : CounterOfferStatus → Option String
  | .accepting => some "The customer is paying for your price. Wait for the answer."
  | .declined => some "You named a price for this order and the customer continued the search."
  | .expired => some "Your price for this order expired without an answer."
  | .superseded => some "This order went to another expert at the tariff price."
  | .accepted => some "Your price for this order was already accepted."
  | .pending | .withdrawn => none

/-- Who may name a price: whoever could be offered the job. -/
def assertEligible (found : Option InspectorProfile) (user : UserId) : Act Unit :=
  match found.filter fun profile => profile.bannedAt.isNone && profile.deletedAt.isNone with
  | none => forbidden "You are not an inspector"
  | some profile =>
    if profile.kycVerified = false ∨ profile.stripeOnboarded = false then
      fail .forbidden "inspector_not_verified"
        "Finish verification and payout setup before you take orders"
    else do
      assertInspectorPro user
      Prog.when (profile.available = false)
        (fail .conflict "inspector_unavailable" "Switch yourself to available first")

/-- One price for each inspector and order, unless the money failed or it was taken back. -/
def assertUnanswered (own : Option (CounterOfferId × OrderCounterOffer)) : Act Unit :=
  match own.bind fun c => c.2.status.answered with
  | none => pure ()
  | some message => fail .conflict "counter_offer_already_answered" message

/-- Why this inspector may not name a price for this order. -/
def assertInspectorMayOffer (id : OrderId) (order : Order) (user : UserId) : Act Unit := do
  if order.customerId = user then
    fail .forbidden "self_assignment_forbidden"
      "You cannot offer a price for an inspection you ordered yourself"
  else if order.status = paid ∨ order.dispatchRound < 1 then
    fail .conflict "counter_offer_closed"
      "The search is still running. You can name a price if it finds nobody."
  else if order.status ≠ unassigned ∨ order.inspectorId ≠ none then
    fail .conflict "order_not_open" "This order is not waiting for an expert"
  else do
    let profile ← fetch .assertInspectorMayOffer (·.inspectors.get user)
    let declined ← fetch .assertInspectorMayOffer fun w => w.offers.any fun _ o =>
      o.orderId = id && o.inspectorId = user && o.status = .declined
    let own ← fetch .ownCounterOffer (·.ownCounterOffer id user)
    assertEligible profile user
    assertUnanswered own
    Prog.when (declined = true)
      (fail .conflict "order_declined" "You refused this order already")

/-- How far the car is, when it is within the distance the inspector accepts. -/
def distanceInReach (id : OrderId) (user : UserId) : Act ℚ := do
  match ← fetch .distanceKmToOrder fun w => w.distanceKmOf w.now user id with
  | none =>
    fail .conflict "inspector_location_missing" "Set your base location before you name a price"
  | some distanceKm => do
    let settings ← readSettings
    let profile ← fetch .createCounterOffer (·.inspectors.get user)
    let reach := min settings.expertSearchRadiusKm
      ((profile.map (·.searchRadiusKm)).getD settings.expertSearchRadiusKm)
    if reach < distanceKm then
      fail .conflict "order_out_of_range" "This order is outside the distance you accept"
    else pure distanceKm

/-- The terms of a price that may be asked, while there is time left. -/
def namedTerms (order : Order) (windowMinutes : Nat)
    (payoutCents priceCents maxPriceCents : Cents) : Act CounterOfferTerms :=
  match counterOfferPriceError priceCents order.totalCents maxPriceCents with
  | some message => fail .badRequest "counter_offer_price_invalid" message
  | none => do
    let now ← readClock
    match counterOfferExpiry now windowMinutes order.searchExpiresAt with
    | none => fail .conflict "order_search_expired" "The search for this order has ended"
    | some expiresAt => pure ⟨priceCents, priceCents - payoutCents, payoutCents, expiresAt⟩

/-- The terms of the price, from the payout the inspector named. -/
def termsOf (id : OrderId) (order : Order) (user : UserId) (distanceKm : ℚ) (payoutCents : Cents) :
    Act CounterOfferTerms := do
  let settings ← readSettings
  let fair ← fetch .fairPriceForInspector fun w => w.fairPriceOf w.now id user distanceKm
  let fee ← readSettings
  namedTerms order settings.counterOfferWindowMinutes payoutCents
    (counterOfferTotalFromPayout payoutCents fee.platformFeePercent)
    (counterOfferCeilingCents fair.totalCents settings.counterOfferMaxMultiplier)

/-- The row of the price, written again where the inspector had one. -/
def upsertCounterOffer (id : OrderId) (user : UserId) (terms : CounterOfferTerms) :
    Act CounterOfferId := do
  match ← attempt (perform (.upsertCounterOffer id user terms)) with
  | .ok counterId => pure counterId
  | .error .unique =>
    fail .conflict "counter_offer_already_sent" "Your price for this order is already in."
  | .error err => throw err

/-- Where this price stands in its order's queue, counting from 1. -/
def queuePositionOf (counterId : CounterOfferId) : Act Nat := do
  match (← fetch .queuePositionOf (·.counterOffers.get counterId)).filter (·.status = .pending) with
  | none => pure 0
  | some row =>
    if row.presentedAt.isSome then pure 1
    else do
      let ahead ← fetch .queuePositionOf fun w => (w.counterOffers.findMany fun k c =>
        c.orderId = row.orderId && (c.status = .pending || c.status = .accepting) &&
          k ≠ counterId && (c.presentedAt.isSome || c.priceCents < row.priceCents ||
            (c.priceCents = row.priceCents && c.createdAt < row.createdAt))).length
      pure (ahead + 1)

structure CreatedCounterOffer where
  id : CounterOfferId
  payoutCents : Cents
  priceCents : Cents
  platformFeeCents : Cents
  expiresAt : Time
  queuePosition : Nat
  presented : Bool
  deriving DecidableEq, Repr

/-- An inspector names their price, and it joins the order's queue. -/
def createCounterOffer (id : OrderId) (user : UserId) (payoutCents : Cents) :
    Act CreatedCounterOffer := do
  match ← fetch .createCounterOffer (·.orders.get id) with
  | none => orderNotFound
  | some order => do
    assertInspectorMayOffer id order user
    let distanceKm ← distanceInReach id user
    let terms ← termsOf id order user distanceKm payoutCents
    let counterId ← upsertCounterOffer id user terms
    note id (.user user) .counterOfferCreated
    let _ ← promote id
    let current ← fetch .createCounterOffer (·.counterOffers.get counterId)
    let queuePosition ← queuePositionOf counterId
    pure ⟨counterId, terms.inspectorShareCents, terms.priceCents, terms.platformFeeCents,
      (current.map (·.expiresAt)).getD terms.expiresAt, queuePosition,
      current.any (·.presentedAt.isSome)⟩

section Footprints

variable {A : Stmt → Prop}

theorem only_assertUnanswered (own : Option (CounterOfferId × OrderCounterOffer)) :
    (assertUnanswered own).Only A := by
  unfold assertUnanswered
  split
  · exact only_pure _
  · exact only_fail _ _ _

theorem only_assertEligible (found : Option InspectorProfile) (user : UserId) :
    (assertEligible found user).Only A := by
  unfold assertEligible
  split
  · exact only_fail _ _ _
  · refine Only.ite (fun _ => only_fail _ _ _) fun _ => Only.seq ?_ fun _ => ?_
    · refine Only.seq (only_fetch _ _) fun _ => ?_
      exact Only.ite (fun _ => only_pure _) fun _ => only_fail _ _ _
    · exact Only.when fun _ => only_fail _ _ _

theorem only_assertInspectorMayOffer (id : OrderId) (order : Order) (user : UserId) :
    (assertInspectorMayOffer id order user).Only A := by
  refine Only.ite (fun _ => only_fail _ _ _) fun _ =>
    Only.ite (fun _ => only_fail _ _ _) fun _ => ?_
  refine Only.ite (fun _ => only_fail _ _ _) fun _ => Only.seq (only_fetch _ _) fun profile => ?_
  refine Only.seq (only_fetch _ _) fun declined => Only.seq (only_fetch _ _) fun own => ?_
  refine Only.seq (only_assertEligible _ _) fun _ => Only.seq (only_assertUnanswered _) fun _ => ?_
  exact Only.when fun _ => only_fail _ _ _

theorem only_distanceInReach (id : OrderId) (user : UserId) : (distanceInReach id user).Only A := by
  refine Only.seq (only_fetch _ _) fun found => ?_
  split
  · exact only_fail _ _ _
  · refine Only.seq only_readSettings fun _ => Only.seq (only_fetch _ _) fun _ => ?_
    exact Only.ite (fun _ => only_fail _ _ _) fun _ => only_pure _

theorem only_termsOf (id : OrderId) (order : Order) (user : UserId) (distanceKm : ℚ)
    (payoutCents : Cents) : (termsOf id order user distanceKm payoutCents).Only A := by
  refine Only.seq only_readSettings fun settings => Only.seq (only_fetch _ _) fun fair => ?_
  refine Only.seq only_readSettings fun fee => ?_
  unfold namedTerms
  split
  · exact only_fail _ _ _
  · refine Only.seq only_readClock fun now => ?_
    split
    · exact only_fail _ _ _
    · exact only_pure _

theorem only_queuePositionOf (counterId : CounterOfferId) : (queuePositionOf counterId).Only A := by
  refine Only.seq (only_fetch _ _) fun found => ?_
  split
  · exact only_pure _
  · exact Only.ite (fun _ => only_pure _) fun _ => Only.seq (only_fetch _ _) fun _ => only_pure _

end Footprints

/-- The operations of the trade, with the naming of a price. -/
inductive PriceOp where
  | create (order : OrderId) (user : UserId) (payoutCents : Cents)
  | trade (op : TradeOp)

namespace PriceOp

def prog : PriceOp → Act Unit
  | create order user payoutCents => discard (createCounterOffer order user payoutCents)
  | trade op => op.prog

/-- The operations, all at their first step. -/
def launch {γ : Type} (w : World) (hist : γ) (ops : List PriceOp) : Run γ :=
  ⟨w, hist, ops.map prog⟩

end PriceOp

end CarSalePro
