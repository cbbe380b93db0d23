import CarSalePro.Interleave.Pool
import CarSalePro.Store.Table

namespace CarSalePro.Ppv

open Store Interleave Prog

abbrev UserRef := Nat
abbrev ReportRef := Nat
abbrev PaymentRef := Nat
abbrev SessionRef := Nat
abbrev IntentRef := Nat
abbrev EventRef := Nat
abbrev DeviceRef := String
abbrev Instant := Int

inductive PaymentPurpose where
  | order | orderCounterOffer | ppv | gold | vinHistory
  deriving DecidableEq, Repr

inductive PaymentState where
  | pending | authorized | succeeded | failed | cancelled | refunded
  deriving DecidableEq, Repr

structure Payment where
  purpose : PaymentPurpose
  userId : UserRef
  amountCents : Int
  status : PaymentState
  stripePaymentIntentId : Option IntentRef
  stripeCheckoutSessionId : Option SessionRef
  deriving DecidableEq, Repr

structure Report where
  code : String
  userId : Option UserRef
  deviceId : DeviceRef
  deletedAt : Option Instant
  deriving DecidableEq, Repr

/-- What a buyer has of a report. The buyer and the report are its key. -/
structure ReportPurchase where
  paymentId : PaymentRef
  revokedAt : Option Instant
  revokedReason : Option String
  deriving DecidableEq, Repr

/-- What a Checkout Session says it is for. -/
structure SessionMetadata where
  purpose : PaymentPurpose
  paymentId : Option PaymentRef
  reportId : Option ReportRef
  userId : Option UserRef
  deriving DecidableEq, Repr

inductive EventStatus where
  | claimed | processed
  deriving DecidableEq, Repr

structure StripeWebhookEvent where
  status : EventStatus
  claimedAt : Instant
  attempts : Nat
  processedAt : Option Instant
  deriving DecidableEq, Repr

inductive Err where
  | http (status : Nat) (code : String) (message : String)
  | unique
  | foreignKey
  | recordNotFound
  | stripe
  deriving DecidableEq, Repr

/-- The state of the shop: its tables, the sessions Stripe keeps, clock and configuration. -/
structure World where
  reports : Table ReportRef Report
  deviceLinks : Table DeviceRef UserRef
  purchases : Table (UserRef × ReportRef) ReportPurchase
  payments : Table PaymentRef Payment
  events : Table EventRef StripeWebhookEvent
  sessions : Table SessionRef SessionMetadata
  now : Instant
  stripeConfigured : Bool
  payPerViewPriceCents : Int

/-- One atomic statement against the database or against Stripe. -/
inductive Stmt where
  | createPayment (row : Payment)
  | createSession (metadata : SessionMetadata)
  | setSession (payment : PaymentRef) (session : SessionRef)
  | succeed (payment : PaymentRef)
  | createPurchase (user : UserRef) (report : ReportRef) (payment : PaymentRef)
  | revivePurchase (user : UserRef) (report : ReportRef) (payment : PaymentRef)
  | recordIntent (payment : PaymentRef) (intent : IntentRef)
  | refund (payment : PaymentRef)
  | revoke (payment : PaymentRef)
  | claimEvent (event : EventRef)
  | stealEvent (event : EventRef) (staleBefore : Instant)
  | completeEvent (event : EventRef)
  | releaseEvent (event : EventRef)

def Stmt.Resp : Stmt → Type
  | createPayment _ => PaymentRef
  | createSession _ => SessionRef
  | setSession _ _ | succeed _ | createPurchase _ _ _ | refund _ | claimEvent _ => Unit
  | revivePurchase _ _ _ | recordIntent _ _ | revoke _ | stealEvent _ _ | completeEvent _
  | releaseEvent _ => Nat

/-- What becomes of the request to Stripe: it is answered, refused, or carried out without an
answer that can be used. -/
inductive Fate where
  | ok | refused | lost
  deriving DecidableEq, Repr

/-- What a statement that writes several rows answers. -/
def rows (n : Nat) : Except Err Nat := .ok n

/-- `payment.update`. -/
def World.updatePayment (w : World) (payment : PaymentRef) (f : Payment → Payment) :
    Except Err Unit × World :=
  match w.payments.get payment with
  | none => (.error .recordNotFound, w)
  | some row => (.ok (), { w with payments := w.payments.set payment (f row) })

/-- The session of a payment. No two payments have one session. -/
def World.setSession (w : World) (payment : PaymentRef) (session : SessionRef) :
    Except Err Unit × World :=
  if w.payments.any fun key row => key ≠ payment && row.stripeCheckoutSessionId = some session then
    (.error .unique, w)
  else w.updatePayment payment fun row => { row with stripeCheckoutSessionId := some session }

/-- Another buyer's purchase carries the payment. -/
def World.carriedElsewhere (w : World) (key : UserRef × ReportRef) (payment : PaymentRef) : Bool :=
  w.purchases.any fun key' row => key' ≠ key && row.paymentId = payment

def World.write (w : World) : (s : Stmt) → Except Err s.Resp × World
  | .createPayment row =>
    (.ok w.payments.fresh, { w with payments := w.payments.set w.payments.fresh row })
  | .createSession metadata =>
    (.ok w.sessions.fresh, { w with sessions := w.sessions.set w.sessions.fresh metadata })
  | .setSession payment session => w.setSession payment session
  | .succeed payment => w.updatePayment payment fun row => { row with status := .succeeded }
  | .createPurchase user report payment =>
    if (w.purchases.get (user, report)).isSome || w.carriedElsewhere (user, report) payment then
      (.error .unique, w)
    else if (w.payments.get payment).isNone then (.error .foreignKey, w)
    else (.ok (), { w with purchases := w.purchases.set (user, report) ⟨payment, none, none⟩ })
  | .revivePurchase user report payment =>
    match (w.purchases.get (user, report)).filter (·.revokedAt.isSome) with
    | none => (rows 0, w)
    | some _ =>
      if w.carriedElsewhere (user, report) payment then (.error .unique, w)
      else if (w.payments.get payment).isNone then (.error .foreignKey, w)
      else (rows 1, { w with purchases := w.purchases.set (user, report) ⟨payment, none, none⟩ })
  | .recordIntent payment intent =>
    match (w.payments.get payment).filter (·.stripePaymentIntentId.isNone) with
    | none => (rows 0, w)
    | some row =>
      if w.payments.any fun _ row => row.stripePaymentIntentId = some intent then
        (.error .unique, w)
      else
        let row := { row with stripePaymentIntentId := some intent }
        (rows 1, { w with payments := w.payments.set payment row })
  | .refund payment => w.updatePayment payment fun row => { row with status := .refunded }
  | .revoke payment =>
    let revoked (_ : UserRef × ReportRef) (row : ReportPurchase) : Option ReportPurchase :=
      if row.paymentId = payment ∧ row.revokedAt = none then
        some { row with revokedAt := some w.now, revokedReason := some "payment_refunded" }
      else none
    (rows (w.purchases.hits revoked), { w with purchases := w.purchases.rewrite revoked })
  | .claimEvent event =>
    if (w.events.get event).isSome then (.error .unique, w)
    else (.ok (), { w with events := w.events.set event ⟨.claimed, w.now, 1, none⟩ })
  | .stealEvent event staleBefore =>
    let stale (row : StripeWebhookEvent) : Bool :=
      row.status = .claimed && row.claimedAt < staleBefore
    match (w.events.get event).filter stale with
    | none => (rows 0, w)
    | some row =>
      let row := { row with claimedAt := w.now, attempts := row.attempts + 1 }
      (rows 1, { w with events := w.events.set event row })
  | .completeEvent event =>
    match (w.events.get event).filter (·.status = .claimed) with
    | none => (rows 0, w)
    | some row =>
      let row := { row with status := .processed, processedAt := some w.now }
      (rows 1, { w with events := w.events.set event row })
  | .releaseEvent event =>
    let held (key : EventRef) (row : StripeWebhookEvent) : Bool :=
      key = event && row.status = .claimed
    (rows (w.events.findMany held).length, { w with events := w.events.deleteMany held })

def World.exec (s : Stmt) (c : Fate) (w : World) : Except Err s.Resp × World :=
  match s, c with
  | .createSession _, .refused => (.error .stripe, w)
  | .createSession metadata, .lost =>
    (.error .stripe, { w with sessions := w.sessions.set w.sessions.fresh metadata })
  | s, _ => w.write s

/-- Where a program reads: the method the read is made in. -/
inductive Site where
  | createPpvCheckout | claimWebhookEvent | processWebhook | assertReportAccess
  deriving DecidableEq, Repr

def machine : Machine Site Stmt Stmt.Resp World Err Fate where
  exec := World.exec
  fault _ _ := none
  env _ w := w

abbrev Act (α : Type) := Prog Site Stmt Stmt.Resp World Err α

def createPayment (row : Payment) : Act PaymentRef := Prog.perform (Stmt.createPayment row)

def createSession (metadata : SessionMetadata) : Act SessionRef :=
  Prog.perform (Stmt.createSession metadata)

def stealEvent (event : EventRef) (staleBefore : Instant) : Act Nat :=
  Prog.perform (Stmt.stealEvent event staleBefore)

section Access

/-- The report, for a user who may read it: its owner, or a buyer whose purchase is not revoked. -/
def assertReportAccess (user : UserRef) (report : ReportRef) : Act Report := do
  match ← fetch .assertReportAccess fun w => (w.reports.get report).filter (·.deletedAt.isNone) with
  | none => throw (.http 404 "not_found" ("Report " ++ toString report ++ " not found"))
  | some row =>
    if row.userId = some user then pure row
    else do
      let link ← fetch .assertReportAccess (·.deviceLinks.get row.deviceId)
      if link = some user then pure row
      else do
        let purchase ← fetch .assertReportAccess (·.purchases.get (user, report))
        if purchase.any (·.revokedAt.isNone) then pure row
        else throw (.http 403 "payment_required" "Purchase required to access this report")

/-- Mark a payment succeeded and record the purchase. -/
def fulfillPurchase (payment : PaymentRef) (report : ReportRef) (user : UserRef) : Act Unit := do
  quietly (Prog.perform (Stmt.succeed payment) : Act Unit)
  match ← attempt (Prog.perform (Stmt.createPurchase user report payment) : Act Unit) with
  | .ok _ => pure ()
  | .error .unique => do
    -- A revoked row is a re-purchase; anything else is taken for a replay.
    let _ ← (Prog.perform (Stmt.revivePurchase user report payment) : Act Nat)
    pure ()
  | .error e => throw e

/-- Withdraw the access a payment granted. -/
def revokeEntitlementsFor (payment : PaymentRef) : Act Unit := do
  let _ ← (Prog.perform (Stmt.revoke payment) : Act Nat)
  pure ()

def markPaymentRefunded (payment : PaymentRef) : Act Unit := do
  match ← attempt (Prog.perform (Stmt.refund payment) : Act Unit) with
  | .error _ => pure ()
  | .ok _ => revokeEntitlementsFor payment

end Access

section Checkout

inductive PpvCheckoutResponse where
  | alreadyOwned
  | mock (amountCents : Int)
  | checkout (session : SessionRef) (amountCents : Int)
  deriving DecidableEq, Repr

/-- Start a pay-per-view purchase of the newest report of this code. -/
def createPpvCheckout (user : UserRef) (code : String) : Act PpvCheckoutResponse := do
  match ← fetch .createPpvCheckout fun w =>
      w.reports.findLast fun _ r => r.code = code && r.deletedAt.isNone with
  | none => throw (.http 404 "not_found" ("Report " ++ code ++ " not found"))
  | some (report, _) => do
    let existingPurchase ← fetch .createPpvCheckout (·.purchases.get (user, report))
    if existingPurchase.any (·.revokedAt.isNone) then pure .alreadyOwned
    else do
      let amountCents ← fetch .createPpvCheckout (·.payPerViewPriceCents)
      let row : Payment := ⟨.ppv, user, amountCents, .pending, none, none⟩
      let payment ← createPayment row
      let configured ← fetch .createPpvCheckout (·.stripeConfigured)
      if configured = false then do
        fulfillPurchase payment report user
        pure (.mock amountCents)
      else do
        let metadata : SessionMetadata := ⟨.ppv, some payment, some report, some user⟩
        let session ← createSession metadata
        let _ ← (Prog.perform (Stmt.setSession payment session) : Act Unit)
        pure (.checkout session amountCents)

end Checkout

section Webhooks

/-- The Stripe events pay-per-view listens to. A session's event carries the metadata Stripe keeps
of it. -/
inductive StripeEvent where
  | checkoutCompleted (session : SessionRef) (intent : Option IntentRef)
  | chargeRefunded (intent : Option IntentRef)
  | other
  deriving DecidableEq, Repr

/-- Attach the captured intent to a payment that has none. -/
def recordPaymentIntent (payment : PaymentRef) : Option IntentRef → Act Unit
  | none => pure ()
  | some intent => do
    let _ ← (Prog.perform (Stmt.recordIntent payment intent) : Act Nat)
    pure ()

def fulfillSession (metadata : SessionMetadata) : Act Unit :=
  match metadata.purpose, metadata.paymentId, metadata.reportId, metadata.userId with
  | .ppv, some payment, some report, some user => fulfillPurchase payment report user
  | _, _, _, _ => pure ()

def processWebhook : StripeEvent → Act Unit
  | .checkoutCompleted session intent => do
    match ← fetch .processWebhook (·.sessions.get session) with
    | none => pure ()
    | some metadata => do
      match metadata.paymentId with
      | none => pure ()
      | some payment => recordPaymentIntent payment intent
      fulfillSession metadata
  | .chargeRefunded none => pure ()
  | .chargeRefunded (some intent) => do
    match ← fetch .processWebhook fun w =>
        w.payments.findFirst fun _ p => p.stripePaymentIntentId = some intent with
    | none => pure ()
    | some (payment, _) => markPaymentRefunded payment
  | .other => pure ()

/-- How long a claim may sit before another delivery may steal it. -/
def webhookClaimStaleMs : Instant := 5 * 60000

/-- Take the exclusive right to handle this event: insert its row, or steal a stale claim. -/
def claimWebhookEvent (event : EventRef) : Act Bool := do
  match ← attempt (Prog.perform (Stmt.claimEvent event) : Act Unit) with
  | .ok _ => pure true
  | .error .unique => do
    let now ← fetch .claimWebhookEvent (·.now)
    let stolen ← stealEvent event (now - webhookClaimStaleMs)
    pure (decide (0 < stolen))
  | .error e => throw e

/-- Process a Stripe event: claim, handle, complete. -/
def handleWebhook (id : EventRef) (event : StripeEvent) : Act Unit := do
  if ← claimWebhookEvent id then do
    match ← attempt (processWebhook event) with
    | .error e => do
      quietly (Prog.perform (Stmt.releaseEvent id))
      throw e
    | .ok _ => quietly (Prog.perform (Stmt.completeEvent id))
  else pure ()

end Webhooks

section Runs

/-- What is asked of the shop: a checkout, or the delivery of an event. -/
inductive Op where
  | checkout (user : UserRef) (code : String)
  | webhook (id : EventRef) (event : StripeEvent)
  deriving DecidableEq, Repr

def Op.prog : Op → Act Unit
  | checkout user code => do
    let _ ← createPpvCheckout user code
    pure ()
  | webhook id event => handleWebhook id event

/-- An operation, when it is run, and how Stripe answers it. -/
structure Call where
  op : Op
  at_ : Instant
  fate : Fate
  deriving DecidableEq, Repr

/-- The state a call leaves, whether it answers or throws. -/
def World.afterCall (w : World) (call : Call) : World :=
  (call.op.prog.alone machine call.fate { w with now := call.at_ }).2

/-- The state the calls leave, one after another. -/
def World.afterCalls (w : World) (calls : List Call) : World := calls.foldl World.afterCall w

end Runs

end CarSalePro.Ppv
