import CarSalePro.Payments.Settlement

namespace CarSalePro

open Interleave Prog OrderStatus

/-- Pending offers past their deadline expire, and the search goes on. -/
def expireStaleOffers : Act Nat := do
  let stale ← fetch .expireStaleOffers fun w =>
    w.offers.findMany fun _ o => o.status = .pending && o.expiresAt < w.now
  forEach stale fun offer => do
    issue (.offer (.update offer.1 .expired))
    let _ ← fetch .expireStaleOffers (·.orders.get offer.2.orderId)
    let _ ← dispatch offer.2.orderId
    pure ()
  pure stale.length

/-- By search deadline, earliest first. -/
def earlierDeadline (a b : Order) : Bool :=
  a.searchExpiresAt.getD 0 ≤ b.searchExpiresAt.getD 0

/-- One more round for an order nobody could be found for. -/
def redispatchOrder (now : Time) (id : OrderId) : Act Bool := do
  let claimed ← perform (.order (.raiseRound id now))
  if claimed = 0 then pure false
  else do
    let offered ← dispatch id
    Prog.when (offered = true) (note id .system .dispatchRound)
    pure true

def redispatchUnfilledOrders (limit : Nat) : Act Nat := do
  let now ← readClock
  let due ← fetch .redispatchUnfilledOrders fun w => w.orders.findSorted
    (fun _ o => o.status = unassigned && o.inspectorId.isNone && o.searchExpiresAt.any (now < ·))
    earlierDeadline limit
  countEach due fun o => guarded (redispatchOrder now o.1)

/-- Nobody accepted in time: the order is cancelled first, then its hold released. -/
def expireOrder (now : Time) (id : OrderId) (order : Order) : Act Bool := do
  let claimed ← perform (.order (.cancelWhere id (.searchExpired now)))
  if claimed = 0 then pure false
  else do
    expirePendingOffers id none
    let _ ← settleRefund id order.totalCents .searchExpired
    note id .system .searchExpired
    writeEvent id .system .statusChange (some order.status) (some cancelled) none
    pure true

def expireUnfilledSearches (limit : Nat) : Act Nat := do
  let now ← readClock
  let due ← fetch .expireUnfilledSearches fun w => w.orders.findSorted
    (fun _ o => o.status ∈ searchStatuses && o.inspectorId.isNone &&
      o.searchExpiresAt.any (· < now))
    earlierDeadline limit
  countEach due fun o => guarded (expireOrder now o.1 o.2)

/-- An inspector accepted and then nothing happened: the order is cancelled with a full refund. -/
def cancelAbandoned (now : Time) (id : OrderId) (order : Order) : Act Bool := do
  let claimed ← perform (.order (.cancelWhere id (.abandoned now)))
  if claimed = 0 then pure false
  else do
    let _ ← settleRefund id order.totalCents .inspectorNoShow
    note id .system .inspectorNoShow
    writeEvent id .system .statusChange (some order.status) (some cancelled) none
    match order.inspectorId with
    | some inspector => do
      countInspectorCancellation inspector
      pure true
    | none => pure true

def sweepAbandonedInspections : Act Nat := do
  let now ← readClock
  quietly readSettings
  let stale ← fetch .sweepAbandonedInspections fun w => w.orders.findMany fun _ o =>
    o.status ∈ afterAssignStatuses && o.inspectionDeadlineAt.any (· < now)
  countEach stale fun o => guarded (cancelAbandoned now o.1 o.2)

/-- Submitted reports nobody answered are approved, and paid out. -/
def autoApproveOverdue : Act Nat := do
  let overdue ← fetch .autoApproveOverdue fun w => w.orders.findMany fun _ o =>
    o.status = submitted && o.autoApproveAt.any (· < w.now)
  forEach overdue fun o => do
    transition o.1 approved .system
    let _ ← releasePayout o.1
    pure ()
  pure overdue.length

/-- How long a payment may sit before the reconciler treats it as stuck. -/
def reconcileMinAgeMs : Time := 5 * 60000

/-- The age condition of the reconciler's selections. -/
def Payment.stale (p : Payment) (now : Time) : Bool := p.createdAt + reconcileMinAgeMs < now

def earlierPayment (a b : Payment) : Bool := a.createdAt ≤ b.createdAt

/-- The stuck payments of orders in one of these statuses. -/
def stuckPayments (now : Time) (limit : Nat) (held : Payment → Bool)
    (statuses : List OrderStatus) (w : World) : List (PaymentId × Payment) :=
  w.payments.findSorted (fun _ p => p.purpose = .order && held p && p.stale now &&
    (p.orderId.bind w.orders.get).any (·.status ∈ statuses)) earlierPayment limit

def Payment.uncaptured (p : Payment) : Bool := p.status = .pending || p.status = .authorized

/-- Whether a replacement hold is abandoned and still not recorded as cancelled. -/
def Payment.abandonedHold (p : Payment) (now : Time) : Bool :=
  p.purpose = .orderCounterOffer &&
    (p.status = .pending || p.status = .failed || p.status = .authorized) &&
    p.supersededAt.isSome && p.canceledAt.isNone && p.stripePaymentIntentId.isSome && p.stale now

/-- Ask Stripe about an intent; not to know it is an error. -/
def requireIntent (intent : IntentId) : Act Intent := do
  match ← retrievePaymentIntent intent with
  | some i => pure i
  | none => throw (.stripe .missing)

/-- Cancel the intent unless Stripe has. The answer is whether it was asked to. -/
def cancelUnlessCanceled (payment : PaymentId) (intent : IntentId) : Act Bool := do
  let i ← requireIntent intent
  if i.status = .canceled then pure false
  else do
    issue (.stripe (.cancel intent payment))
    pure true

def releaseAbandonedHold (payment : PaymentId) (p : Payment) : Act Bool :=
  match p.stripePaymentIntentId with
  | none => pure false
  | some intent => guarded do
    let asked ← cancelUnlessCanceled payment intent
    quietly (perform (.payment (.release payment)))
    pure asked

/-- Give back the counter-offer holds nothing else can reach. -/
def reconcileAbandonedCounterOfferHolds (now : Time) (limit : Nat) : Act Nat := do
  if ← stripeConfigured then do
    let abandoned ← fetch .reconcile fun w =>
      w.payments.findSorted (fun _ p => p.abandonedHold now) earlierPayment limit
    countEach abandoned fun r => releaseAbandonedHold r.1 r.2
  else pure 0

/-- A hold whose release failed, on an order that was cancelled anyway. -/
def releaseStrandedHold (payment : PaymentId) (p : Payment) : Act Bool :=
  match p.orderId with
  | none => pure false
  | some id => guarded do
    match ← fetch .reconcile (·.orders.get id) with
    | none => pure false
    | some _ => do
      let outcome ← releaseAuthorization id payment p .reconcileStrandedHold
      pure (decide (outcome.status = .released))

/-- The late capture of an order somebody already works on. -/
def captureWorking (p : Payment) : Act Bool :=
  match p.orderId with
  | none => pure false
  | some id => guarded do
    let outcome ← captureOrderPayment id none
    pure (decide (outcome = .captured))

/-- An intent Stripe cancelled: the payment is recorded, and the order cancelled with it. -/
def reconcileCanceled (payment : PaymentId) (id : OrderId) (order : Order) : Act Bool := do
  issue (.payment (.cancelUnlessCancelled payment))
  if canTransition order.status cancelled = false then pure false
  else do
    note id .system .authorizationReleased
    transition id cancelled .system
    pure true

/-- What became of an intent we never heard of. -/
def reconcileIntent (payment : PaymentId) (id : OrderId) (order : Order) (i : Intent) :
    Act Bool := do
  match i.status with
  | .requiresCapture => do
    authorizeOrderPayment payment id
    pure true
  | .succeeded _ _ => do
    settleOrderPayment payment id
    pure true
  | .canceled => reconcileCanceled payment id order
  | .requiresPaymentMethod => pure false

/-- One stuck payment of an order still in the search. -/
def reconcileWaitingPayment (payment : PaymentId) (p : Payment) : Act Bool := do
  match p.orderId with
  | none => pure false
  | some id => do
    match ← fetch .reconcile (·.orders.get id) with
    | none => pure false
    | some order =>
      if p.status = .authorized then
        if order.status ≠ created then pure false
        else do
          authorizeOrderPayment payment id
          pure true
      else do
        let configured ← stripeConfigured
        match configured, p.stripePaymentIntentId with
        | true, some intent => do
          match ← attempt (requireIntent intent) with
          | .ok i => reconcileIntent payment id order i
          | .error _ => pure false
        | _, _ => pure false

/-- Insurance against lost webhooks and failed releases. The answer is how many payments
advanced. -/
def reconcileStuckOrderPayments (limit : Nat) : Act Nat := do
  let now ← readClock
  let waiting ← fetch .reconcile
    (stuckPayments now limit Payment.uncaptured preAssignmentStatuses)
  let working ← fetch .reconcile
    (stuckPayments now limit Payment.uncaptured postAssignmentStatuses)
  let stranded ← fetch .reconcile
    (stuckPayments now limit (·.status = .authorized) [cancelled, refunded])
  let abandoned ← reconcileAbandonedCounterOfferHolds now limit
  let released ← countEach stranded fun r => releaseStrandedHold r.1 r.2
  let captured ← countEach working fun r => captureWorking r.2
  let advanced ← countEach waiting fun r => guarded (reconcileWaitingPayment r.1 r.2)
  pure (abandoned + released + captured + advanced)

/-- The statements of the reconciler besides its captures. -/
inductive ReconcileStmt : Stmt → Prop where
  | start {s} (h : StartStmt s) : ReconcileStmt s
  | cancelled (o source legal) :
      ReconcileStmt (.order (.transition o source OrderStatus.cancelled legal))
  | cancelUnlessCancelled (k) : ReconcileStmt (.payment (.cancelUnlessCancelled k))
  | cancel (intent k) : ReconcileStmt (.stripe (.cancel intent k))
  | release (k) : ReconcileStmt (.payment (.release k))
  | refund {o reason k i s} (h : RefundStmt o reason k i s) : ReconcileStmt s

section Footprints

variable {A : Stmt → Prop}

theorem only_expireStaleOffers (he : ∀ k, A (.offer (.update k .expired)))
    (hd : ∀ id s, DispatchStmt id s → A s) : expireStaleOffers.Only A := by
  refine Only.seq (only_fetch _ _) fun stale => ?_
  refine Only.seq (only_forEach fun offer _ => ?_) fun _ => only_pure _
  refine Only.seq (only_issue (he _)) fun _ => Only.seq (only_fetch _ _) fun _ => ?_
  exact Only.seq ((only_dispatch offer.2.orderId).mono (hd _)) fun _ => only_pure _

theorem only_redispatchOrder (now : Time) (id : OrderId) (hr : A (.order (.raiseRound id now)))
    (hd : ∀ s, DispatchStmt id s → A s) : (redispatchOrder now id).Only A := by
  refine Only.seq ((only_perform _).mpr hr) fun claimed =>
    Only.ite (fun _ => only_pure _) fun _ => ?_
  refine Only.seq ((only_dispatch id).mono hd) fun offered => ?_
  exact Only.seq (Only.when fun _ => only_note _ _ _ fun e => hd _ (.event e)) fun _ => only_pure _

theorem only_redispatchUnfilledOrders (limit : Nat)
    (hr : ∀ id now, A (.order (.raiseRound id now))) (hd : ∀ id s, DispatchStmt id s → A s) :
    (redispatchUnfilledOrders limit).Only A :=
  Only.seq only_readClock fun now => Only.seq (only_fetch _ _) fun _ =>
    only_countEach fun o _ => only_guarded (only_redispatchOrder now o.1 (hr _ _) (hd _))

theorem only_expireOrder (now : Time) (id : OrderId) (order : Order)
    (hc : A (.order (.cancelWhere id (.searchExpired now))))
    (ho : ∀ filter, A (.offer (.updateMany filter .expired)))
    (hr : ∀ k i s, RefundStmt id .searchExpired k i s → A s) :
    (expireOrder now id order).Only A := by
  have he (e : OrderEvent) : A (.event e) := hr 0 none _ (.event e)
  refine Only.seq ((only_perform _).mpr hc) fun claimed =>
    Only.ite (fun _ => only_pure _) fun _ => ?_
  refine Only.seq (only_expirePendingOffers id none ho) fun _ => ?_
  refine Only.seq (only_settleRefund id _ _ hr) fun _ => Only.seq (only_note _ _ _ he) fun _ => ?_
  exact Only.seq (only_writeEvent _ _ _ _ _ _ he) fun _ => only_pure _

theorem only_expireUnfilledSearches (limit : Nat)
    (hc : ∀ id now, A (.order (.cancelWhere id (.searchExpired now))))
    (ho : ∀ filter, A (.offer (.updateMany filter .expired)))
    (hr : ∀ id k i s, RefundStmt id .searchExpired k i s → A s) :
    (expireUnfilledSearches limit).Only A :=
  Only.seq only_readClock fun now => Only.seq (only_fetch _ _) fun _ =>
    only_countEach fun o _ => only_guarded (only_expireOrder now o.1 o.2 (hc _ _) ho (hr _))

theorem only_cancelAbandoned (now : Time) (id : OrderId) (order : Order)
    (hc : A (.order (.cancelWhere id (.abandoned now)))) (hn : ∀ i, A (.countCancellation i))
    (hr : ∀ k i s, RefundStmt id .inspectorNoShow k i s → A s) :
    (cancelAbandoned now id order).Only A := by
  have he (e : OrderEvent) : A (.event e) := hr 0 none _ (.event e)
  refine Only.seq ((only_perform _).mpr hc) fun claimed =>
    Only.ite (fun _ => only_pure _) fun _ => ?_
  refine Only.seq (only_settleRefund id _ _ hr) fun _ => Only.seq (only_note _ _ _ he) fun _ => ?_
  refine Only.seq (only_writeEvent _ _ _ _ _ _ he) fun _ => ?_
  split
  · exact Only.seq (Only.quietly ((only_perform _).mpr (hn _))) fun _ => only_pure _
  · exact only_pure _

theorem only_sweepAbandonedInspections
    (hc : ∀ id now, A (.order (.cancelWhere id (.abandoned now))))
    (hn : ∀ i, A (.countCancellation i))
    (hr : ∀ id k i s, RefundStmt id .inspectorNoShow k i s → A s) :
    sweepAbandonedInspections.Only A := by
  refine Only.seq only_readClock fun now => Only.seq (Only.quietly only_readSettings) fun _ => ?_
  refine Only.seq (only_fetch _ _) fun stale => only_countEach fun o _ => ?_
  exact only_guarded (only_cancelAbandoned now o.1 o.2 (hc _ _) hn (hr _))

theorem only_autoApproveOverdue
    (ht : ∀ id source legal, A (.order (.transition id source approved legal)))
    (hp : ∀ id s, PayStmt id s → A s) : autoApproveOverdue.Only A := by
  refine Only.seq (only_fetch _ _) fun overdue => Only.seq (only_forEach fun o _ => ?_) fun _ =>
    only_pure _
  have happrove := only_transition_plain o.1 approved .system (by decide) (ht o.1)
    fun e => hp o.1 _ (.event e)
  refine Only.seq happrove fun _ => ?_
  exact Only.seq ((only_releasePayout o.1).mono (hp o.1)) fun _ => only_pure _

theorem only_retryStuckPayouts (limit : Nat) (hp : ∀ id s, PayStmt id s → A s) :
    (retryStuckPayouts limit).Only A := by
  refine Only.seq (only_fetch _ _) fun due => only_countEach fun p _ => only_guarded ?_
  refine Only.seq ((only_releasePayout p.1).mono (hp p.1)) fun outcome => ?_
  split
  · exact only_pure _
  · exact Only.seq (only_fetch _ _) fun _ => only_pure _

theorem only_retryStuckRefunds (limit : Nat)
    (ht : ∀ id reason, A (.amendRefund id reason .terminate))
    (hr : ∀ id reason k i s, RefundStmt id reason k i s → A s) :
    (retryStuckRefunds limit).Only A := by
  refine Only.seq (only_fetch _ _) fun due => only_countEach fun r _ => only_guarded ?_
  refine Only.seq (only_fetch _ _) fun found => ?_
  split
  · exact Only.seq (only_issue (ht _ _)) fun _ => only_pure _
  · refine Only.seq (only_settleRefund r.1.1 _ _ (hr _ _)) fun outcome => ?_
    split
    · exact only_pure _
    · exact Only.seq (only_issue (ht _ _)) fun _ => only_pure _
    · exact Only.seq (only_issue (ht _ _)) fun _ => only_pure _
    · exact only_pure _
    · exact only_pure _

theorem only_requireIntent (intent : IntentId) : (requireIntent intent).Only A :=
  Only.seq (only_fetch _ _) fun found => by cases found <;> trivial

theorem only_releaseAbandonedHold (payment : PaymentId) (p : Payment) :
    (releaseAbandonedHold payment p).Only ReconcileStmt := by
  unfold releaseAbandonedHold
  split
  · exact only_pure _
  · refine only_guarded (Only.seq ?_ fun _ => ?_)
    · refine Only.seq (only_requireIntent _) fun i => Only.ite (fun _ => only_pure _) fun _ => ?_
      exact Only.seq (only_issue (.cancel _ _)) fun _ => only_pure _
    · exact Only.seq (Only.quietly ((only_perform _).mpr (.release _))) fun _ => only_pure _

theorem only_reconcileAbandonedCounterOfferHolds (now : Time) (limit : Nat) :
    (reconcileAbandonedCounterOfferHolds now limit).Only ReconcileStmt := by
  refine Only.seq only_stripeConfigured fun _ => Only.ite (fun _ => ?_) fun _ => only_pure _
  exact Only.seq (only_fetch _ _) fun _ => only_countEach fun r _ => only_releaseAbandonedHold _ _

theorem only_releaseStrandedHold (payment : PaymentId) (p : Payment) :
    (releaseStrandedHold payment p).Only ReconcileStmt := by
  unfold releaseStrandedHold
  split
  · exact only_pure _
  · refine only_guarded (Only.seq (only_fetch _ _) fun found => ?_)
    split
    · exact only_pure _
    · refine Only.seq ?_ fun _ => only_pure _
      exact (only_releaseAuthorization _ _ _ _ 0).mono fun _ h => .refund h.1

theorem only_reconcileIntent (payment : PaymentId) (id : OrderId) (order : Order) (i : Intent) :
    (reconcileIntent payment id order i).Only ReconcileStmt := by
  unfold reconcileIntent
  split
  · exact Only.seq ((only_authorizeOrderPayment _ _).mono fun _ => .start) fun _ => only_pure _
  · exact Only.seq ((only_settleOrderPayment _ _).mono fun _ => .start) fun _ => only_pure _
  · refine Only.seq (only_issue (.cancelUnlessCancelled _)) fun _ => ?_
    refine Only.ite (fun _ => only_pure _) fun _ => ?_
    refine Only.seq (only_note _ _ _ fun e => .start (.event e)) fun _ => ?_
    refine Only.seq ?_ fun _ => only_pure _
    exact only_transition_plain _ _ _ (by decide) (.cancelled id) fun e => .start (.event e)
  · exact only_pure _

theorem only_reconcileWaitingPayment (payment : PaymentId) (p : Payment) :
    (reconcileWaitingPayment payment p).Only ReconcileStmt := by
  unfold reconcileWaitingPayment
  split
  · exact only_pure _
  · refine Only.seq (only_fetch _ _) fun found => ?_
    split
    · exact only_pure _
    · refine Only.ite (fun _ => Only.ite (fun _ => only_pure _) fun _ => ?_) fun _ => ?_
      · exact Only.seq ((only_authorizeOrderPayment _ _).mono fun _ => .start) fun _ => only_pure _
      · refine Only.seq only_stripeConfigured fun _ => ?_
        split
        · refine Only.seq (Only.attempt (only_requireIntent _)) fun r => ?_
          cases r with
          | ok i => exact only_reconcileIntent _ _ _ i
          | error e => exact only_pure _
        · exact only_pure _

theorem only_captureWorking (p : Payment) : (captureWorking p).Only CaptureStmt := by
  unfold captureWorking
  split
  · exact only_pure _
  · exact only_guarded (Only.seq (only_captureOrderPayment _ _) fun _ => only_pure _)

theorem only_reconcileStuckOrderPayments (limit : Nat) (hc : ∀ s, CaptureStmt s → A s)
    (hr : ∀ s, ReconcileStmt s → A s) : (reconcileStuckOrderPayments limit).Only A := by
  refine Only.seq only_readClock fun now => Only.seq (only_fetch _ _) fun waiting => ?_
  refine Only.seq (only_fetch _ _) fun working => Only.seq (only_fetch _ _) fun stranded => ?_
  refine Only.seq ((only_reconcileAbandonedCounterOfferHolds now limit).mono hr) fun _ => ?_
  refine Only.seq (only_countEach fun r _ => (only_releaseStrandedHold _ _).mono hr) fun _ => ?_
  refine Only.seq (only_countEach fun r _ => (only_captureWorking _).mono hc) fun _ => ?_
  refine Only.seq (only_countEach fun r _ => ?_) fun _ => only_pure _
  exact only_guarded ((only_reconcileWaitingPayment _ _).mono hr)

end Footprints

end CarSalePro
