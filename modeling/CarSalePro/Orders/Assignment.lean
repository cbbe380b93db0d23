import CarSalePro.Orders.Dispatch

namespace CarSalePro

open Interleave Prog OrderStatus

/-- Hand a claimed order back to the pool, guarded on the claiming inspector. -/
def releaseOrderClaim (id : OrderId) (inspector : UserId) : Act Unit :=
  issue (.order (.releaseClaim id inspector))

/-- Close the counter-offers an assignment has made pointless: those on this order, and those the
inspector has waiting on other orders. -/
def settleCounterOffersOnAssignment (id : OrderId) (inspector : UserId) : Act Unit := do
  let superseded ← fetch .settleCounterOffersOnAssignment fun w =>
    w.counterOffers.findMany fun _ c => c.orderId = id && c.status = .pending
  let withdrawn ← fetch .settleCounterOffersOnAssignment fun w =>
    w.counterOffers.findMany fun _ c =>
      c.inspectorId = inspector && c.status = .pending && c.orderId ≠ id
  Prog.when (superseded ≠ []) (issue (.counterOffer (.supersede (superseded.map (·.1)))))
  Prog.when (withdrawn ≠ []) do
    issue (.counterOffer (.withdraw (withdrawn.map (·.1))))
    forEach withdrawn fun c => note c.2.orderId (.user inspector) .counterOfferWithdrawn
    forEach (withdrawn.map (·.2.orderId)).eraseDups promoteQuietly

/-- Pending offers of the order expire, all but those of the inspector who keeps it. -/
def expirePendingOffers (id : OrderId) (except : Option UserId) : Act Unit := do
  let pending ← fetch .expirePendingOffers fun w => w.offers.findMany fun _ o =>
    o.orderId = id && o.status = .pending && some o.inspectorId ≠ except
  Prog.when (pending ≠ [])
    (issue (.offer (.updateMany (fun k _ => k ∈ pending.map (·.1)) .expired)))

def assertInspectorPro (user : UserId) : Act Unit := do
  if ← fetch .assertInspectorPro fun w => (w.inspectors.get user).any (·.hasPro) then pure ()
  else
    fail .forbidden "inspector_pro_required"
      "Get CarSalePro PRO in the mobile app and link the device to take orders"

def captureUnavailable {α : Type} (message : String) : Act α :=
  fail .serviceUnavailable "payment_capture_unavailable" message

def captureFailed {α : Type} : Act α :=
  fail .conflict "payment_capture_failed"
    "The customer’s payment could not be taken; the order has been cancelled."

/-- What the customer is charged: the offer's own price, never more than the order's total. -/
def chargeCents (offer : OrderOffer) (order : Order) : Cents :=
  min (offer.priceCents.getD order.totalCents) order.totalCents

/-- The sum a capture asks for; `none` is the whole hold. -/
def captureAmount (charge total : Cents) : Option Cents :=
  if charge = total then none else some charge

/-- A transient capture failure: everything goes back as it was. -/
def deferAcceptance (offerId : OfferId) (id : OrderId) (user : UserId) : Act Unit := do
  releaseOrderClaim id user
  issue (.offer (.updateMany (fun k o => k = offerId && o.status = .accepted) .pending))
  note id (.user user) .captureDeferred
  captureUnavailable
    "The payment could not be taken right now. Please try accepting again shortly."

/-- The card cannot pay: the claim is undone, the hold given back, the order cancelled. -/
def rejectAcceptance (id : OrderId) (order : Order) (user : UserId) : Act Unit := do
  releaseOrderClaim id user
  issue (.offer (.updateMany
    (fun _ o => o.orderId = id && (o.status = .pending || o.status = .accepted)) .expired))
  note id (.user user) .captureFailed
  let _ ← settleRefund id order.totalCents .captureFailed
  transition id cancelled .system
  captureFailed

/-- The order's money describes what was taken, when that is less than was quoted. -/
def lowerPrice (id : OrderId) (offer : OrderOffer) (order : Order) (user : UserId) :
    Act Unit := do
  issue (.order (.setPrice id {
    totalCents := chargeCents offer order
    platformFeeCents := offer.platformFeeCents.getD order.platformFeeCents
    inspectorShareCents := offer.inspectorShareCents.getD order.inspectorShareCents }))
  note id (.user user) .priceLoweredByInspector

def completeAcceptance (id : OrderId) (offer : OrderOffer) (order : Order) (user : UserId) :
    Act Unit := do
  issue (.offer (.updateMany (fun _ o => o.orderId = id && o.status = .pending) .expired))
  Prog.when (chargeCents offer order ≠ order.totalCents) (lowerPrice id offer order user)
  settleCounterOffersOnAssignment id user
  transition id assigned (.user user)

/-- The race for the order and what follows from winning it. -/
def claimOffer (offerId : OfferId) (offer : OrderOffer) (order : Order) (user : UserId) :
    Act Unit := do
  let claimed ← perform (.order (.claim offer.orderId searchStatuses user))
  if claimed = 0 then
    fail .conflict "already_assigned" "Order is no longer open for assignment"
  else do
    issue (.offer (.updateMany (fun k o => k = offerId && o.status = .pending) .accepted))
    match ← captureOrderPayment offer.orderId
        (captureAmount (chargeCents offer order) order.totalCents) with
    | .retryable _ => deferAcceptance offerId offer.orderId user
    | .fatal _ => rejectAcceptance offer.orderId order user
    | .captured | .alreadyCaptured => completeAcceptance offer.orderId offer order user

/-- An inspector accepts the offer made to them. -/
def acceptOffer (offerId : OfferId) (user : UserId) : Act Unit := do
  match ← fetch .acceptOffer (·.offers.get offerId) with
  | none => fail .notFound "not_found" "Offer not found"
  | some offer =>
    if offer.inspectorId ≠ user then forbidden "Not your offer"
    else do
      let now ← readClock
      if offer.status ≠ .pending ∨ offer.expiresAt < now then
        fail .conflict "offer_unavailable" "Offer is not pending or has expired"
      else do
        assertInspectorPro user
        match ← fetch .acceptOffer (·.orders.get offer.orderId) with
        | none => orderNotFound
        | some order =>
          if order.customerId = user then
            fail .forbidden "self_assignment_forbidden"
              "You cannot accept an inspection you ordered yourself"
          else do
            if ← counterOfferPaymentLock offer.orderId then
              fail .conflict "order_locked_by_counter_offer"
                "The customer is paying for another expert’s price. Try again in a few minutes."
            else claimOffer offerId offer order user

/-- The fatal branch of an assignment by hand. -/
def rejectAssignment (id : OrderId) (order : Order) (inspector admin : UserId) : Act Unit := do
  releaseOrderClaim id inspector
  note id (.admin admin) .captureFailed
  let _ ← settleRefund id order.totalCents .captureFailed
  transition id cancelled (.admin admin)
  captureFailed

/-- The chosen inspector's offer is accepted, or made. -/
def acceptChosenOffer (id : OrderId) (inspector : UserId) : Act Unit := do
  match ← fetch .adminAssign fun w =>
      w.offers.findFirst fun _ o => o.orderId = id && o.inspectorId = inspector with
  | some (offerId, _) => issue (.offer (.update offerId .accepted))
  | none => do
    let now ← readClock
    issue (.offer (.create {
      orderId := id
      inspectorId := inspector
      status := .accepted
      expiresAt := now
      round := 0
      priceCents := none
      platformFeeCents := none
      inspectorShareCents := none }))

def completeAssignment (id : OrderId) (inspector admin : UserId) : Act Unit := do
  expirePendingOffers id (some inspector)
  acceptChosenOffer id inspector
  settleCounterOffersOnAssignment id inspector
  transition id assigned (.admin admin)

def claimAssignment (id : OrderId) (order : Order) (inspector admin : UserId) : Act Unit := do
  let claimed ← perform (.order (.claim id [order.status] inspector))
  if claimed = 0 then
    fail .conflict "already_assigned"
      "This order was assigned to an inspector while you were assigning it"
  else do
    match ← captureOrderPayment id none with
    | .retryable _ => do
      releaseOrderClaim id inspector
      captureUnavailable
        "The payment could not be taken right now. Try the assignment again shortly."
    | .fatal _ => rejectAssignment id order inspector admin
    | .captured | .alreadyCaptured => completeAssignment id inspector admin

/-- An admin assigns an eligible inspector by hand. -/
def adminAssign (id : OrderId) (inspector admin : UserId) : Act Unit := do
  let order ← requireOrder id
  if order.customerId = inspector then
    fail .badRequest "self_assignment_forbidden"
      "The customer of an order cannot be assigned as its inspector"
  else do
    let profile ← fetch .adminAssign (·.inspectors.get inspector)
    if profile.all (!·.kycVerified) then
      fail .badRequest "inspector_not_eligible" "Inspector is not eligible for assignment"
    else if canTransition order.status assigned = false then
      fail .conflict "illegal_transition" ("Cannot assign an order in status " ++ order.status.wire)
    else claimAssignment id order inspector admin

/-- An inspector declines the offer made to them; the search goes on. -/
def declineOffer (offerId : OfferId) (user : UserId) : Act Unit := do
  match ← fetch (.declineOffer offerId) (·.offers.get offerId) with
  | none => fail .notFound "not_found" "Offer not found"
  | some offer =>
    if offer.inspectorId ≠ user then forbidden "Not your offer"
    else do
      Prog.when (offer.status = .pending) do
        issue (.offer (.update offerId .declined))
        note offer.orderId (.user user) .offerDeclined
      let _ ← dispatch offer.orderId
      pure ()

/-- The statements that close the counter-offers of an assignment. -/
inductive SettleStmt : Stmt → Prop where
  | supersede (ids) : SettleStmt (.counterOffer (.supersede ids))
  | withdraw (ids) : SettleStmt (.counterOffer (.withdraw ids))
  | event (e) : SettleStmt (.event e)
  | promote {id s} (h : PromoteStmt id s) : SettleStmt s

/-- The statements of an offer's acceptance. -/
inductive AcceptanceStmt (offerId : OfferId) (id : OrderId) (user : UserId) : Stmt → Prop where
  | claim (statuses) : AcceptanceStmt offerId id user (.order (.claim id statuses user))
  | release : AcceptanceStmt offerId id user (.order (.releaseClaim id user))
  | price (terms) : AcceptanceStmt offerId id user (.order (.setPrice id terms))
  | transition (source target legal) :
      AcceptanceStmt offerId id user (.order (.transition id source target legal))
  | deadline (at_) : AcceptanceStmt offerId id user (.order (.setInspectionDeadline id at_))
  | accept : AcceptanceStmt offerId id user
      (.offer (.updateMany (fun k o => k = offerId && o.status = .pending) .accepted))
  | defer : AcceptanceStmt offerId id user
      (.offer (.updateMany (fun k o => k = offerId && o.status = .accepted) .pending))
  | expire (filter) : AcceptanceStmt offerId id user (.offer (.updateMany filter .expired))
  | event (e) : AcceptanceStmt offerId id user (.event e)
  | capture {s} (h : CaptureStmt s) : AcceptanceStmt offerId id user s
  | refund {payment intent s} (h : RefundStmt id .captureFailed payment intent s) :
      AcceptanceStmt offerId id user s
  | settle {s} (h : SettleStmt s) : AcceptanceStmt offerId id user s

section Footprints

variable (id : OrderId) {A : Stmt → Prop}

theorem only_settleCounterOffersOnAssignment (inspector : UserId) :
    (settleCounterOffersOnAssignment id inspector).Only SettleStmt := by
  refine Only.seq (only_fetch _ _) fun superseded => Only.seq (only_fetch _ _) fun withdrawn => ?_
  refine Only.seq (Only.when fun _ => only_issue (.supersede _)) fun _ => Only.when fun _ => ?_
  refine Only.seq (only_issue (.withdraw _)) fun _ => ?_
  refine Only.seq (only_forEach fun c _ => only_note _ _ _ .event) fun _ => ?_
  exact only_forEach fun id' _ => (only_promoteQuietly id').mono fun s => .promote

theorem only_expirePendingOffers (except : Option UserId)
    (h : ∀ filter, A (.offer (.updateMany filter .expired))) :
    (expirePendingOffers id except).Only A :=
  Only.seq (only_fetch _ _) fun _ => Only.when fun _ => only_issue (h _)

@[simp] theorem only_assertInspectorPro (user : UserId) : (assertInspectorPro user).Only A :=
  Only.seq (only_fetch _ _) fun _ => Only.ite (fun _ => only_pure _) fun _ => only_fail _ _ _

theorem only_acceptChosenOffer (inspector : UserId) (h : ∀ s, A (.offer s)) :
    (acceptChosenOffer id inspector).Only A := by
  refine Only.seq (only_fetch _ _) fun found => ?_
  split
  · exact only_issue (h _)
  · exact Only.seq only_readClock fun _ => only_issue (h _)

theorem only_claimOffer (offerId : OfferId) (offer : OrderOffer) (order : Order) (user : UserId) :
    (claimOffer offerId offer order user).Only (AcceptanceStmt offerId offer.orderId user) := by
  refine Only.seq ((only_perform _).mpr (.claim _)) fun claimed => ?_
  refine Only.ite (fun _ => only_fail _ _ _) fun _ => Only.seq (only_issue .accept) fun _ => ?_
  have hmove (target : OrderStatus) (actor : Actor) : (transition offer.orderId target actor).Only
      (AcceptanceStmt offerId offer.orderId user) :=
    only_transition _ _ _ (fun _ _ => .transition _ _ _) (fun _ => .event _) fun _ => .deadline _
  have hdone : (completeAcceptance offer.orderId offer order user).Only
      (AcceptanceStmt offerId offer.orderId user) := by
    refine Only.seq (only_issue (.expire _)) fun _ => Only.seq (Only.when fun _ => ?_) fun _ => ?_
    · exact Only.seq (only_issue (.price _)) fun _ => only_note _ _ _ fun _ => .event _
    · refine Only.seq ?_ fun _ => hmove _ _
      exact (only_settleCounterOffersOnAssignment _ user).mono fun _ => .settle
  refine Only.seq ((only_captureOrderPayment _ _).mono fun _ => .capture) fun outcome => ?_
  cases outcome with
  | captured => exact hdone
  | alreadyCaptured => exact hdone
  | retryable message =>
    refine Only.seq (only_issue .release) fun _ => Only.seq (only_issue .defer) fun _ => ?_
    exact Only.seq (only_note _ _ _ fun _ => .event _) fun _ => only_fail _ _ _
  | fatal message =>
    refine Only.seq (only_issue .release) fun _ => Only.seq (only_issue (.expire _)) fun _ => ?_
    refine Only.seq (only_note _ _ _ fun _ => .event _) fun _ => ?_
    refine Only.seq (only_settleRefund _ _ _ fun _ _ _ => .refund) fun _ => ?_
    exact Only.seq (hmove _ _) fun _ => only_fail _ _ _

/-- An acceptance up to the race for its order. -/
theorem only_acceptOffer (offerId : OfferId) (user : UserId) :
    (acceptOffer offerId user).Only fun s => ∃ id, AcceptanceStmt offerId id user s := by
  refine Only.seq (only_fetch _ _) fun found => ?_
  split
  · exact only_fail _ _ _
  next offer =>
    refine Only.ite (fun _ => only_fail _ _ _) fun _ => Only.seq only_readClock fun now => ?_
    refine Only.ite (fun _ => only_fail _ _ _) fun _ => ?_
    refine Only.seq (only_assertInspectorPro _) fun _ => Only.seq (only_fetch _ _) fun order => ?_
    split
    · exact only_fail _ _ _
    next order =>
      refine Only.ite (fun _ => only_fail _ _ _) fun _ => Only.seq (only_fetch _ _) fun locked => ?_
      refine Only.ite (fun _ => only_fail _ _ _) fun _ => ?_
      exact (only_claimOffer _ _ _ _).mono fun s h => ⟨offer.orderId, h⟩

end Footprints

end CarSalePro
