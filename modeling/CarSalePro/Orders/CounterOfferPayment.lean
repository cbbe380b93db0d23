import CarSalePro.Orders.Assignment

namespace CarSalePro

open Interleave Prog OrderStatus

/-- Cancel a counter-offer payment's intent at Stripe. The answer is whether the hold is gone. -/
def cancelIntentOf (payment : PaymentId) (p : Payment) : Act Bool := do
  if ← stripeConfigured then
    match p.stripePaymentIntentId with
    | none => pure false
    | some intent => do
      match ← attempt (perform (.stripe (.cancel intent payment))) with
      | .ok _ => pure true
      | .error _ => pure false
  else pure true

/-- Release one hold and stop its row from being the order's live payment. -/
def releaseAndSupersede (id : OrderId) (payment : PaymentId) (p : Payment) : Act Unit := do
  let released ← cancelIntentOf payment p
  issue (.payment (.supersede payment released))
  writeEvent id .system (releaseEventType released) none none (some payment)

/-- Release the holds the counter-offer replaced, once the replacement is live. -/
def releaseReplacedHold (id : OrderId) (keep : PaymentId) : Act Unit := do
  let replaced ← fetch .releaseReplacedHold fun w => w.payments.findMany fun k p =>
    p.orderId = some id && p.supersededAt.isNone && k ≠ keep
  forEach replaced fun r => releaseAndSupersede id r.1 r.2

/-- Give back a replacement hold that arrived too late to be used. -/
def releaseSupersededHold (payment : PaymentId) (id : OrderId) : Act Unit := do
  match ← fetch .releaseSupersededHold (·.payments.get payment) with
  | none => pure ()
  | some p => releaseAndSupersede id payment p

/-- The payment row is the one a counter-offer of this order waits for. -/
def Payment.awaited (p : Payment) (id : OrderId) : Bool :=
  p.orderId = some id && p.purpose = .orderCounterOffer && p.supersededAt.isNone &&
    p.status ≠ .cancelled

/-- The inspector took other work while the customer was paying. -/
def withdrawBusyCounterOffer (payment : PaymentId) (id : OrderId) (counterId : CounterOfferId)
    (counter : OrderCounterOffer) (now : Time) : Act Unit := do
  releaseSupersededHold payment id
  issue (.counterOffer (.withdrawAccepting counterId now))
  note id (.user counter.inspectorId) .counterOfferWithdrawn
  promoteQuietly id
  let _ ← dispatch id
  pure ()

/-- The replacement hold is captured: close the sale and assign the inspector. -/
def completeSale (id : OrderId) (counterId : CounterOfferId) (counter : OrderCounterOffer)
    (now : Time) : Act Unit := do
  issue (.sale id counterId
    ⟨counter.priceCents, counter.platformFeeCents, counter.inspectorShareCents⟩ now)
  note id (.user counter.inspectorId) .counterOfferAccepted
  settleCounterOffersOnAssignment id counter.inspectorId
  transition id assigned (.user counter.inspectorId)

/-- The replacement hold could not be taken: the claim is undone and the hold given back. -/
def abortSale (payment : PaymentId) (id : OrderId) (counter : OrderCounterOffer) : Act Unit := do
  releaseOrderClaim id counter.inspectorId
  releaseSupersededHold payment id
  note id (.user counter.inspectorId) .counterOfferCaptureFailed

/-- Claim the order for the inspector who named the price, and take the new hold in place of the
old one. -/
def claimSale (payment : PaymentId) (id : OrderId) (counterId : CounterOfferId)
    (counter : OrderCounterOffer) (now : Time) : Act Unit := do
  let claimed ← perform (.order (.claim id searchStatuses counter.inspectorId))
  if claimed = 0 then releaseSupersededHold payment id
  else do
    releaseReplacedHold id payment
    quietly (perform (.payment (.authorize payment now)))
    match ← captureOrderPayment id none with
    | .retryable _ | .fatal _ => abortSale payment id counter
    | .captured | .alreadyCaptured => completeSale id counterId counter now

/-- The customer's replacement hold is in place: finish the counter-offer. -/
def finalizeCounterOfferPayment (payment : PaymentId) (id : OrderId) : Act Unit := do
  match (← fetch .finalizePayment (·.payments.get payment)).filter (·.awaited id) with
  | none => pure ()
  | some p => do
    let found ← fetch .finalizeCounterOffer fun w =>
      w.counterOffers.findFirst fun _ c => c.orderId = id && c.status = .accepting
    let order ← fetch .finalizeOrder (·.orders.get id)
    match found, order with
    | some (counterId, counter), some order =>
      if p.amountCents ≠ counter.priceCents then releaseSupersededHold payment id
      else if order.status ∉ searchStatuses then releaseSupersededHold payment id
      else do
        let now ← readClock
        if ← fetch (.finalizeBusy id counter.inspectorId) fun w => w.orders.any fun _ o =>
            o.inspectorId = some counter.inspectorId && o.status ∈ busyStatuses then
          withdrawBusyCounterOffer payment id counterId counter now
        else claimSale payment id counterId counter now
    | _, _ => pure ()

/-- The customer did not pay for the counter-offer they accepted: everything goes back to where
it was. -/
def abandonCounterOfferPayment (id : OrderId) (alreadyCanceledAtStripe : Bool) : Act Unit := do
  match ← fetch .abandonCounterOfferPayment fun w =>
      w.counterOffers.findFirst fun _ c => c.orderId = id && c.status = .accepting with
  | none => pure ()
  | some (counterId, counter) => do
    let now ← readClock
    let stillOpen := decide (now < counter.expiresAt)
    issue (.counterOffer (.returnFromPayment counterId stillOpen now))
    let opened ← fetch .abandonCounterOfferPayment fun w =>
      w.payments.findMany fun _ p => p.openCounterOffer id
    let configured ← stripeConfigured
    forEach opened fun r =>
      match alreadyCanceledAtStripe || !configured, r.2.stripePaymentIntentId with
      | false, some intent => quietly (perform (.stripe (.cancel intent r.1)))
      | _, _ => pure ()
    issue (.payment (.abandon id now))
    note id (.user counter.inspectorId) .counterOfferPaymentAbandoned
    Prog.when (stillOpen = false) do
      let _ ← fetch .abandonCounterOfferPayment (·.counterOffers.get counterId)
      promoteQuietly id
    let _ ← dispatch id
    pure ()

/-- The statements that release a hold and supersede its row. -/
inductive SupersedeStmt : Stmt → Prop where
  | cancel (intent payment) : SupersedeStmt (.stripe (.cancel intent payment))
  | supersede (payment released) : SupersedeStmt (.payment (.supersede payment released))
  | event (e) : SupersedeStmt (.event e)

/-- The statements of an abandoned counter-offer payment. -/
inductive AbandonStmt (id : OrderId) : Stmt → Prop where
  | returnFromPayment (c stillOpen at_) :
      AbandonStmt id (.counterOffer (.returnFromPayment c stillOpen at_))
  | cancel (intent payment) : AbandonStmt id (.stripe (.cancel intent payment))
  | abandon (at_) : AbandonStmt id (.payment (.abandon id at_))
  | event (e) : AbandonStmt id (.event e)
  | promote {s} (h : PromoteStmt id s) : AbandonStmt id s
  | dispatch {s} (h : DispatchStmt id s) : AbandonStmt id s

section Footprints

variable (id : OrderId) (payment : PaymentId) (p : Payment)

theorem only_cancelIntentOf : (cancelIntentOf payment p).Only SupersedeStmt := by
  refine Only.seq only_stripeConfigured fun _ => Only.ite (fun _ => ?_) fun _ => only_pure _
  split
  · exact only_pure _
  · refine Only.seq (Only.attempt ((only_perform _).mpr (.cancel _ _))) fun r => ?_
    cases r <;> exact only_pure _

theorem only_releaseAndSupersede : (releaseAndSupersede id payment p).Only SupersedeStmt :=
  Only.seq (only_cancelIntentOf payment p) fun _ =>
    Only.seq (only_issue (.supersede _ _)) fun _ => only_writeEvent _ _ _ _ _ _ .event

theorem only_releaseReplacedHold : (releaseReplacedHold id payment).Only SupersedeStmt :=
  Only.seq (only_fetch _ _) fun _ => only_forEach fun _ _ => only_releaseAndSupersede _ _ _

theorem only_releaseSupersededHold : (releaseSupersededHold payment id).Only SupersedeStmt := by
  refine Only.seq (only_fetch _ _) fun found => ?_
  split
  · exact only_pure _
  · exact only_releaseAndSupersede _ _ _

theorem only_abandonCounterOfferPayment (alreadyCanceledAtStripe : Bool) :
    (abandonCounterOfferPayment id alreadyCanceledAtStripe).Only (AbandonStmt id) := by
  refine Only.seq (only_fetch _ _) fun found => ?_
  split
  · exact only_pure _
  · refine Only.seq only_readClock fun now => ?_
    refine Only.seq (only_issue (.returnFromPayment _ _ _)) fun _ => ?_
    refine Only.seq (only_fetch _ _) fun opened => Only.seq only_stripeConfigured fun _ => ?_
    refine Only.seq (only_forEach fun r _ => ?_) fun _ => ?_
    · split
      · exact Only.quietly ((only_perform _).mpr (.cancel _ _))
      · exact only_pure _
    refine Only.seq (only_issue (.abandon _)) fun _ => ?_
    refine Only.seq (only_note _ _ _ .event) fun _ => Only.seq (Only.when fun _ => ?_) fun _ => ?_
    · exact Only.seq (only_fetch _ _) fun _ => (only_promoteQuietly id).mono fun _ => .promote
    · exact Only.seq ((only_dispatch id).mono fun _ => .dispatch) fun _ => only_pure _

end Footprints

end CarSalePro
