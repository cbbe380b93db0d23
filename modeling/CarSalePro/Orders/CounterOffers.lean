import CarSalePro.Orders.Operations

namespace CarSalePro

open Interleave Prog OrderStatus

/-- The order row, or 404 and 403. -/
def requireCustomerOrder (id : OrderId) (user : UserId) : Act Order := do
  match ← fetch .requireCustomerOrder (·.orders.get id) with
  | none => orderNotFound
  | some order => if order.customerId ≠ user then forbidden "Not your order" else pure order

/-- A counter-offer of this order, or 404. -/
def requireCounterOffer (site : Site) (id : OrderId) (counterId : CounterOfferId) :
    Act OrderCounterOffer := do
  match (← fetch site (·.counterOffers.get counterId)).filter (·.orderId = id) with
  | none => fail .notFound "not_found" "Offer not found"
  | some counter => pure counter

def counterOfferUnavailable {α : Type} : Act α :=
  fail .conflict "counter_offer_unavailable" "This offer is no longer waiting for an answer"

/-- What the customer pays next. -/
structure PaymentSession where
  amountCents : Cents
  mock : Bool
  deriving DecidableEq, Repr

/-- The payment the customer already opened for this order, if it is still live: whether it is a
mock. -/
def activeCounterPayment (id : OrderId) : Act (Option Bool) := do
  let payment ← fetch .activeCounterPayment fun w => w.payments.findLast fun _ p =>
    p.openCounterOffer id && (p.status = .pending || p.status = .failed)
  match payment with
  | none => pure none
  | some (_, p) => do
    if ← stripeConfigured then
      match p.stripePaymentIntentId with
      | none => pure none
      | some intent => do
        match ← retrievePaymentIntent intent with
        | some _ => pure (some false)
        | none => throw (.stripe .missing)
    else pure (some true)

/-- The loser of a double click joins the session the winner opened. -/
def joinSession (id : OrderId) (counterId : CounterOfferId) (counter : OrderCounterOffer) :
    Act PaymentSession := do
  let current ← fetch .acceptCounterOffer (·.counterOffers.get counterId)
  if current.any (·.status = .accepting) then do
    match ← activeCounterPayment id with
    | some mock => pure ⟨counter.priceCents, mock⟩
    | none => counterOfferUnavailable
  else counterOfferUnavailable

/-- Open the replacement payment. Its intent is attached after Stripe has made it. -/
def openSession (id : OrderId) (counter : OrderCounterOffer) (user : UserId) :
    Act PaymentSession := do
  let payment ← perform (.createPayment id .orderCounterOffer counter.priceCents)
  writeEvent id (.user user) .counterOfferPaymentStarted none none (some payment)
  if ← stripeConfigured then do
    let intent ← perform (.stripe (.createIntent payment counter.priceCents))
    issue (.payment (.attachIntent payment intent))
    pure ⟨counter.priceCents, false⟩
  else do
    finalizeCounterOfferPayment payment id
    pure ⟨counter.priceCents, true⟩

/-- The inspector took other work while their price waited. -/
def refuseBusy (id : OrderId) (counterId : CounterOfferId) : Act PaymentSession := do
  issue (.counterOffer (.withdraw [counterId]))
  let _ ← promote id
  fail .conflict "counter_offer_inspector_busy"
    "The expert is busy with another order. The offer is withdrawn and nothing was charged."

/-- The customer accepts the price and starts paying it. The order is locked against dispatch from
here. -/
def accept (id : OrderId) (counterId : CounterOfferId) (user : UserId) : Act PaymentSession := do
  let order ← requireCustomerOrder id user
  let counter ← requireCounterOffer .acceptCounterOffer id counterId
  if order.status ≠ unassigned ∨ order.inspectorId ≠ none then
    fail .conflict "order_already_assigned"
      "An expert has taken this order at its original price. Nothing was charged."
  else if ← fetch .acceptCounterOffer fun w => w.orders.any fun _ o =>
      o.inspectorId = some counter.inspectorId && o.status ∈ busyStatuses then
    refuseBusy id counterId
  else do
    let settings ← fetch .acceptCounterOffer (·.setting)
    let now ← readClock
    let claimed ← perform (.counterOffer
      (.startPayment counterId (now + minutes settings.counterOfferPaymentMinutes)))
    if claimed = 0 then joinSession id counterId counter else openSession id counter user

/-- The customer says no; the search carries on. -/
def decline (id : OrderId) (counterId : CounterOfferId) (user : UserId) : Act Unit := do
  let _ ← requireCustomerOrder id user
  let _ ← requireCounterOffer .declineCounterOffer id counterId
  let done ← perform (.counterOffer (.decline counterId))
  if done = 0 then counterOfferUnavailable
  else do
    note id (.user user) .counterOfferDeclined
    let _ ← promote id
    pure ()

/-- The inspector takes their price back while it is still waiting. -/
def withdraw (counterId : CounterOfferId) (user : UserId) : Act Unit := do
  match ← fetch .withdrawCounterOffer (·.counterOffers.get counterId) with
  | none => fail .notFound "not_found" "Offer not found"
  | some counter =>
    if counter.inspectorId ≠ user then forbidden "Not your offer"
    else do
      let done ← perform (.counterOffer (.withdraw [counterId]))
      if done = 0 then
        fail .conflict "counter_offer_not_pending" "The customer is answering this offer already"
      else do
        note counter.orderId (.user user) .counterOfferWithdrawn
        let _ ← promote counter.orderId
        pure ()

structure SweptCounterOffers where
  expired : Nat
  abandoned : Nat
  presented : Nat
  deriving DecidableEq, Repr

/-- Close the counter-offers whose time ran out: those nobody paid for, and those nobody
answered. -/
def sweepExpired : Act SweptCounterOffers := do
  let now ← readClock
  let stalePayments ← fetch .sweepExpiredCounterOffers fun w =>
    w.counterOffers.findMany fun _ c => c.status = .accepting && c.acceptingUntil.any (· ≤ now)
  forEach stalePayments fun c => quietly (abandonCounterOfferPayment c.2.orderId false)
  let expired ← fetch .sweepExpiredCounterOffers fun w => w.counterOffers.findMany fun _ c =>
    c.status = .pending && c.presentedAt.isSome && c.expiresAt ≤ now
  Prog.when (expired ≠ []) (issue (.counterOffer (.expirePresented (expired.map (·.1)) now)))
  forEach (expired.map (·.2.orderId)).eraseDups promoteQuietly
  match ← attempt sweepCollected with
  | .ok presented => pure ⟨expired.length, stalePayments.length, presented⟩
  | .error _ => pure ⟨expired.length, stalePayments.length, 0⟩

section Footprints

variable {A : Stmt → Prop}

@[simp] theorem only_requireCustomerOrder (id : OrderId) (user : UserId) :
    (requireCustomerOrder id user).Only A := by
  refine Only.seq (only_fetch _ _) fun found => ?_
  split
  · exact only_fail _ _ _
  · exact Only.ite (fun _ => only_fail _ _ _) fun _ => only_pure _

@[simp] theorem only_requireCounterOffer (site : Site) (id : OrderId) (counterId : CounterOfferId) :
    (requireCounterOffer site id counterId).Only A := by
  refine Only.seq (only_fetch _ _) fun found => ?_
  split
  · exact only_fail _ _ _
  · exact only_pure _

theorem only_joinSession (id : OrderId) (counterId : CounterOfferId) (counter : OrderCounterOffer) :
    (joinSession id counterId counter).Only A := by
  have hactive : (activeCounterPayment id).Only A := by
    refine Only.seq (only_fetch _ _) fun found => ?_
    split
    · exact only_pure _
    · refine Only.seq only_stripeConfigured fun _ => Only.ite (fun _ => ?_) fun _ => only_pure _
      split
      · exact only_pure _
      · refine Only.seq (only_fetch _ _) fun i => ?_
        cases i <;> trivial
  refine Only.seq (only_fetch _ _) fun current => Only.ite (fun _ => ?_) fun _ => only_fail _ _ _
  refine Only.seq hactive fun mock => ?_
  cases mock with
  | none => exact only_fail _ _ _
  | some mock => exact only_pure _

theorem only_refuseBusy (id : OrderId) (counterId : CounterOfferId)
    (hw : A (.counterOffer (.withdraw [counterId]))) (hp : ∀ s, PromoteStmt id s → A s) :
    (refuseBusy id counterId).Only A := by
  refine Only.seq (only_issue hw) fun _ => ?_
  exact Only.seq ((only_promote id).mono hp) fun _ => only_fail _ _ _

theorem only_decline (id : OrderId) (counterId : CounterOfferId) (user : UserId)
    (hd : A (.counterOffer (.decline counterId))) (hp : ∀ s, PromoteStmt id s → A s) :
    (decline id counterId user).Only A := by
  refine Only.seq (only_requireCustomerOrder _ _) fun _ => ?_
  refine Only.seq (only_requireCounterOffer _ _ _) fun _ => ?_
  refine Only.seq ((only_perform _).mpr hd) fun _ => Only.ite (fun _ => only_fail _ _ _) fun _ => ?_
  refine Only.seq (only_note _ _ _ fun e => hp _ (.event e)) fun _ => ?_
  exact Only.seq ((only_promote id).mono hp) fun _ => only_pure _

theorem only_withdraw (counterId : CounterOfferId) (user : UserId)
    (hw : A (.counterOffer (.withdraw [counterId]))) (hp : ∀ id s, PromoteStmt id s → A s) :
    (withdraw counterId user).Only A := by
  refine Only.seq (only_fetch _ _) fun found => ?_
  split
  · exact only_fail _ _ _
  next counter =>
    refine Only.ite (fun _ => only_fail _ _ _) fun _ =>
      Only.seq ((only_perform _).mpr hw) fun _ => ?_
    refine Only.ite (fun _ => only_fail _ _ _) fun _ => ?_
    refine Only.seq (only_note _ _ _ fun e => hp counter.orderId _ (.event e)) fun _ => ?_
    exact Only.seq ((only_promote _).mono (hp _)) fun _ => only_pure _

theorem only_sweepExpired (ha : ∀ id s, AbandonStmt id s → A s)
    (he : ∀ ids at_, A (.counterOffer (.expirePresented ids at_))) : sweepExpired.Only A := by
  have hp (id : OrderId) (s : Stmt) (hs : PromoteStmt id s) : A s := ha id s (.promote hs)
  refine Only.seq only_readClock fun now => Only.seq (only_fetch _ _) fun stalePayments => ?_
  refine Only.seq (only_forEach fun c _ => ?_) fun _ => ?_
  · exact Only.quietly ((only_abandonCounterOfferPayment _ _).mono (ha _))
  refine Only.seq (only_fetch _ _) fun expired => ?_
  refine Only.seq (Only.when fun _ => only_issue (he _ _)) fun _ => ?_
  refine Only.seq (only_forEach fun id _ => (only_promoteQuietly id).mono (hp id)) fun _ => ?_
  refine Only.seq (Only.attempt (only_sweepCollected hp)) fun r => ?_
  cases r <;> exact only_pure _

end Footprints

/-- The operations of the trade over an order's price, and those of the orders they run beside. -/
inductive TradeOp where
  | accept (order : OrderId) (counter : CounterOfferId) (user : UserId)
  | decline (order : OrderId) (counter : CounterOfferId) (user : UserId)
  | withdraw (counter : CounterOfferId) (user : UserId)
  | sweepExpired
  | dispatch (order : OrderId)
  | orders (op : Op)

namespace TradeOp

def prog : TradeOp → Act Unit
  | accept order counter user => discard (CarSalePro.accept order counter user)
  | decline order counter user => CarSalePro.decline order counter user
  | withdraw counter user => CarSalePro.withdraw counter user
  | sweepExpired => discard CarSalePro.sweepExpired
  | dispatch order => discard (CarSalePro.dispatch order)
  | orders op => op.prog

/-- The operations, all at their first step. -/
def launch {γ : Type} (w : World) (hist : γ) (ops : List TradeOp) : Run γ :=
  ⟨w, hist, ops.map prog⟩

end TradeOp

end CarSalePro
