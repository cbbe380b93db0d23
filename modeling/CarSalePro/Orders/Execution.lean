import CarSalePro.Orders.Statements

namespace CarSalePro

open Store Interleave

inductive PayoutStmt where
  | skip (order : OrderId)
  | park (order : OrderId) (row : Payout)
  | markPaid (order : OrderId) (inspector : UserId) (amountCents : Cents) (attempts : Nat)
      (transfer : TransferId)
  | settleOutOfBand (order : OrderId)
  | retryNow (order : OrderId)
  | freeTransfer (order : OrderId)
  | confirm (order : OrderId)
  deriving DecidableEq, Repr

namespace PayoutStmt

def order : PayoutStmt → OrderId
  | skip o | park o _ | markPaid o _ _ _ _ | settleOutOfBand o | retryNow o | freeTransfer o
  | confirm o => o

/-- The updates by order id, which fail when the row is not there. -/
def strict : PayoutStmt → Bool
  | settleOutOfBand _ | retryNow _ | freeTransfer _ | confirm _ => true
  | _ => false

/-- The new row, of the row there is. -/
def rewrite (now : Time) (p : Option Payout) : PayoutStmt → Option Payout
  | skip _ => (p.filter (·.status ≠ .settled)).map fun p => { p with nextRetryAt := none }
  | park _ row =>
    some (p.elim row fun p => { p with
      status := row.status, attempts := row.attempts, nextRetryAt := row.nextRetryAt })
  | markPaid _ inspector amountCents attempts transfer =>
    some (p.elim ⟨inspector, amountCents, .settled, attempts, none, some transfer⟩ fun p => { p with
      status := .settled, attempts := attempts, nextRetryAt := none,
      stripeTransferId := some transfer })
  | settleOutOfBand _ => p.map fun p => { p with status := .settled, nextRetryAt := none }
  | retryNow _ => p.map fun p => { p with attempts := 0, nextRetryAt := some now }
  | freeTransfer _ => p.map fun p => { p with stripeTransferId := none }
  | confirm _ => p.map fun p => { p with status := .settled }

end PayoutStmt

/-- The changes of a refund row that is there. -/
inductive RefundAmendment where
  | terminate
  | retryNow
  deriving DecidableEq, Repr

def RefundAmendment.amend (now : Time) (r : Refund) : RefundAmendment → Refund
  | terminate => { r with nextRetryAt := none }
  | retryNow => { r with attempts := 0, nextRetryAt := some now }

inductive WebhookStmt where
  | claim (event : StripeEventId)
  | steal (event : StripeEventId) (staleBefore : Time)
  | complete (event : StripeEventId)
  | release (event : StripeEventId)
  deriving DecidableEq, Repr

/-- One atomic statement: a write to the database, or a request to the provider. -/
inductive Stmt where
  | order (s : OrderStmt)
  | offer (s : OfferStmt)
  | counterOffer (s : CounterOfferStmt)
  | upsertCounterOffer (order : OrderId) (inspector : UserId) (terms : CounterOfferTerms)
  | payment (s : PaymentStmt)
  | createPayment (order : OrderId) (purpose : Purpose) (amountCents : Cents)
  | upsertRefund (order : OrderId) (reason : RefundReason) (row : Refund)
  | amendRefund (order : OrderId) (reason : RefundReason) (a : RefundAmendment)
  | payout (s : PayoutStmt)
  | openDispute (order : OrderId) (user : UserId) (reason : String)
  | closeDispute (order : OrderId) (status : DisputeStatus)
  | event (e : OrderEvent)
  | countCancellation (inspector : UserId)
  | revokePurchases (payment : PaymentId)
  | webhook (s : WebhookStmt)
  | sale (order : OrderId) (counter : CounterOfferId) (price : PriceBreakdown) (at_ : Time)
  | stripe (call : StripeCall)

/-- How many rows a statement wrote, or the id of what it created. -/
abbrev Stmt.Resp (_ : Stmt) : Type := Nat

/-- The statements that are an `update` by id, and fail when the row is not there. -/
def OrderStmt.strict : OrderStmt → Bool
  | setSearchExpiresAt _ _ | transition _ _ _ _ | setInspectionDeadline _ _ | setPrice _ _
  | setSubmitted _ _ _ => true
  | _ => false

/-- `payment_active_order_unique`: one live payment for each order. -/
def activePaymentConflict (t : Table PaymentId Payment) : Bool :=
  t.any fun k p => p.live && p.orderId.isSome &&
    t.any fun k' p' => k' ≠ k && p'.live && p'.orderId = p.orderId

/-- `order_counter_offer_presented_unique`: one presented price for each order. -/
def presentedConflict (t : Table CounterOfferId OrderCounterOffer) : Bool :=
  t.any fun k c => c.presented &&
    t.any fun k' c' => k' ≠ k && c'.presented && c'.orderId = c.orderId

namespace World

def writeOrder (s : OrderStmt) (w : World) : Except Err Nat × World :=
  match w.orders.get s.order with
  | none => (if s.strict then .error .recordNotFound else .ok 0, w)
  | some r =>
    match s.rewrite w.now r with
    | none => (.ok 0, w)
    | some r' => (.ok 1, { w with orders := w.orders.set s.order r' })

def writeOffer (s : OfferStmt) (w : World) : Except Err Nat × World :=
  match s with
  | .create offer =>
    (.ok 1, { w with offers := w.offers.set w.nextOffer offer, nextOffer := w.nextOffer + 1 })
  | .update id status =>
    match w.offers.get id with
    | none => (.error .recordNotFound, w)
    | some o => (.ok 1, { w with offers := w.offers.set id { o with status := status } })
  | .updateMany filter status =>
    let f id (o : OrderOffer) := if filter id o then some { o with status := status } else none
    (.ok (w.offers.hits f), { w with offers := w.offers.rewrite f })

def writeCounterOffer (s : CounterOfferStmt) (w : World) : Except Err Nat × World :=
  let t := w.counterOffers.rewrite fun id c => s.rewrite w.now id c
  if presentedConflict t then (.error .unique, w)
  else (.ok (w.counterOffers.hits fun id c => s.rewrite w.now id c), { w with counterOffers := t })

/-- The row of this inspector on this order. -/
def ownCounterOffer (w : World) (order : OrderId) (inspector : UserId) :
    Option (CounterOfferId × OrderCounterOffer) :=
  w.counterOffers.findFirst fun _ c => c.orderId = order && c.inspectorId = inspector

/-- One row for each order and inspector. -/
def upsertCounterOffer (order : OrderId) (inspector : UserId) (terms : CounterOfferTerms)
    (w : World) : Except Err Nat × World :=
  match w.ownCounterOffer order inspector with
  | some (id, c) =>
    (.ok id, { w with counterOffers := w.counterOffers.set id (terms.update c) })
  | none =>
    (.ok w.counterOffers.fresh, { w with
      counterOffers :=
        w.counterOffers.set w.counterOffers.fresh (terms.create order inspector w.now) })

def writePayment (s : PaymentStmt) (w : World) : Except Err Nat × World :=
  let t := w.payments.rewrite fun id p => s.rewrite w.now id p
  let n := w.payments.hits fun id p => s.rewrite w.now id p
  if s.strict ∧ n = 0 then (.error .recordNotFound, w)
  else if activePaymentConflict t then (.error .unique, w)
  else (.ok n, { w with payments := t })

/-- A new payment, with nothing paid yet. -/
def writeNewPayment (order : OrderId) (purpose : Purpose) (amountCents : Cents) (w : World) :
    Except Err Nat × World :=
  (.ok w.payments.fresh, { w with
    payments := w.payments.set w.payments.fresh {
      orderId := some order
      purpose := purpose
      amountCents := amountCents
      status := .pending
      stripePaymentIntentId := none
      authorizedAt := none
      capturedAt := none
      canceledAt := none
      supersededAt := none
      createdAt := w.now } })

def writePayout (s : PayoutStmt) (w : World) : Except Err Nat × World :=
  match s.rewrite w.now (w.payouts.get s.order) with
  | none => (if s.strict then .error .recordNotFound else .ok 0, w)
  | some p => (.ok 1, { w with payouts := w.payouts.set s.order p })

def writeWebhook (s : WebhookStmt) (w : World) : Except Err Nat × World :=
  match s with
  | .claim event =>
    if (w.webhooks.get event).isSome then (.error .unique, w)
    else (.ok 1, { w with webhooks := w.webhooks.set event ⟨.claimed, some w.now, 1⟩ })
  | .steal event staleBefore =>
    match w.webhooks.get event with
    | none => (.ok 0, w)
    | some e =>
      if e.status = .claimed ∧ e.claimedAt.any (· < staleBefore) then
        (.ok 1, { w with
          webhooks := w.webhooks.set event ⟨.claimed, some w.now, e.attempts + 1⟩ })
      else (.ok 0, w)
  | .complete event =>
    match w.webhooks.get event with
    | none => (.ok 0, w)
    | some e =>
      if e.status = .claimed then
        (.ok 1, { w with webhooks := w.webhooks.set event { e with status := .processed } })
      else (.ok 0, w)
  | .release event =>
    let matching id (e : StripeWebhookEvent) := id = event && e.status = .claimed
    (.ok (w.webhooks.findMany matching).length,
      { w with webhooks := w.webhooks.deleteMany matching })

/-- The transaction that closes the sale of an accepted counter-offer. -/
def writeSale (order : OrderId) (counter : CounterOfferId) (price : PriceBreakdown) (at_ : Time)
    (w : World) : Except Err Nat × World :=
  match w.orders.get order with
  | none => (.error .recordNotFound, w)
  | some r =>
    (.ok 1, { w with
      counterOffers := w.counterOffers.rewrite fun id c =>
        if id = counter ∧ c.status = .accepting then
          some { c with status := .accepted, acceptingUntil := none, respondedAt := some at_ }
        else none
      orders := w.orders.set order { r with
        totalCents := price.totalCents
        platformFeeCents := price.platformFeeCents
        inspectorShareCents := price.inspectorShareCents }
      offers := w.offers.rewrite fun _ o =>
        if o.orderId = order ∧ o.status = .pending then some { o with status := .expired }
        else none })

/-- The effect of a database statement that goes through. -/
def write (s : Stmt) (w : World) : Except Err Nat × World :=
  match s with
  | .order s => w.writeOrder s
  | .offer s => w.writeOffer s
  | .counterOffer s => w.writeCounterOffer s
  | .upsertCounterOffer order inspector terms => w.upsertCounterOffer order inspector terms
  | .payment s => w.writePayment s
  | .createPayment order purpose amountCents => w.writeNewPayment order purpose amountCents
  | .upsertRefund order reason row =>
    (.ok 1, { w with refunds := w.refunds.set (order, reason) row })
  | .amendRefund order reason a =>
    match w.refunds.get (order, reason) with
    | none => (.error .recordNotFound, w)
    | some r => (.ok 1, { w with refunds := w.refunds.set (order, reason) (a.amend w.now r) })
  | .payout s => w.writePayout s
  | .openDispute order user reason =>
    (.ok 1, { w with
      disputes := if (w.disputes.get order).isSome then w.disputes
        else w.disputes.set order ⟨user, reason, .opened⟩ })
  | .closeDispute order status =>
    match w.disputes.get order with
    | none => (.error .recordNotFound, w)
    | some d => (.ok 1, { w with disputes := w.disputes.set order { d with status := status } })
  | .event e => (.ok 1, { w with events := w.events ++ [e] })
  | .countCancellation inspector =>
    match w.inspectors.get inspector with
    | none => (.error .recordNotFound, w)
    | some i =>
      (.ok 1, { w with
        inspectors := w.inspectors.set inspector { i with cancelCount := i.cancelCount + 1 } })
  | .revokePurchases payment =>
    let f _ (p : ReportPurchase) :=
      if p.paymentId = payment ∧ p.revokedAt = none then some { p with revokedAt := some w.now }
      else none
    (.ok (w.reportPurchases.hits f), { w with reportPurchases := w.reportPurchases.rewrite f })
  | .webhook s => w.writeWebhook s
  | .sale order counter price at_ => w.writeSale order counter price at_
  | .stripe _ => (.ok 0, w)

def exec (s : Stmt) (c : Fate) (w : World) : Except Err Nat × World :=
  match s with
  | .stripe call =>
    match w.provider.answer call c with
    | (.ok _, P) => (.ok (w.provider.reply call), { w with provider := P })
    | (.error e, P) => (.error (.stripe e), { w with provider := P })
  | s => if c = .down then (.error .database, w) else w.write s

/-- A read fails when the database is down, a question to Stripe as Stripe decides. -/
def fault : Site → Fate → Option Err
  | .clock, _ | .config, _ => none
  | .retrievePaymentIntent, .refused e | .retrievePaymentIntent, .lost e => some (.stripe e)
  | .retrievePaymentIntent, .down => some (.stripe .connection)
  | _, .down => some .database
  | _, _ => none

/-- Between steps only the clock moves. -/
def tick (c : Fate) (w : World) : World :=
  match c with
  | .elapse ms => { w with now := w.now + ms }
  | _ => w

end World

def machine : Machine Site Stmt Stmt.Resp World Err Fate where
  exec := World.exec
  fault := World.fault
  env := World.tick

/-- A method of the services. -/
abbrev Act (α : Type) := Prog Site Stmt Stmt.Resp World Err α

/-- The instant a method reads before it works. -/
def readClock : Act Time := Prog.fetch .clock (·.now)

/-- `stripe.configured`: the provider is real, not the mock. -/
def stripeConfigured : Act Bool := Prog.fetch .config (·.stripeConfigured)

def readSettings : Act Settings := Prog.fetch .settings (·.setting)

def perform (s : Stmt) : Act Nat := Prog.perform s

/-- A statement whose row count nobody reads. -/
def issue (s : Stmt) : Act Unit := do
  let _ ← perform s
  pure ()

def fail (status : HttpStatus) (code message : String) {α : Type} : Act α :=
  throw (.http status code message)

end CarSalePro
