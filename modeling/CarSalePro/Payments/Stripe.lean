import CarSalePro.Orders.Rows

namespace CarSalePro

open Store

inductive StripeErrorType where
  | card | rateLimit | connection | api
  | named (wire : String)
  deriving DecidableEq, Repr

inductive StripeRawType where
  | card | rateLimit
  | named (wire : String)
  deriving DecidableEq, Repr

inductive StripeCode where
  | resourceMissing | paymentIntentUnexpectedState | chargeExpiredForCapture | cardDeclined
  | named (wire : String)
  deriving DecidableEq, Repr

/-- The fields of a thrown provider error; `none` where one is absent or of another type. -/
structure StripeError where
  type : Option StripeErrorType
  code : Option StripeCode
  statusCode : Option Nat
  message : String
  rawType : Option StripeRawType
  rawCode : Option StripeCode
  deriving DecidableEq, Repr

structure StripeFailure where
  retryable : Bool
  code : StripeCode
  message : String

/-- The codes that describe a state no retry can change. -/
def fatalStripeCode : StripeCode → Bool
  | .resourceMissing | .paymentIntentUnexpectedState | .chargeExpiredForCapture
  | .cardDeclined => true
  | .named _ => false

def classifyStripeError (e : StripeError) : StripeFailure :=
  let code := e.code.orElse fun _ => e.rawCode
  let message := if e.message = "" then "Stripe request failed" else e.message
  let named (wire : String) := code.getD (.named wire)
  if code.any fatalStripeCode then
    ⟨false, named "", message⟩
  else if e.type = some .card ∨ e.rawType = some .card then
    ⟨false, named "card_error", message⟩
  else if e.type = some .rateLimit ∨ e.rawType = some .rateLimit ∨ e.statusCode = some 429 then
    ⟨true, named "rate_limit", message⟩
  else if e.type = some .connection then
    ⟨true, named "connection_error", message⟩
  else if e.type = some .api ∨ e.statusCode.any (500 ≤ ·) then
    ⟨true, named "api_error", message⟩
  else match e.type with
    | some (.named wire) => ⟨false, named wire, message⟩
    | _ => ⟨false, named "unknown_error", message⟩

namespace StripeError

/-- The answer to a request the state of the intent does not allow. -/
def unexpectedState : StripeError :=
  ⟨some (.named "StripeInvalidRequestError"), some .paymentIntentUnexpectedState, some 400,
    "This PaymentIntent's status does not allow the request.", none, none⟩

def missing : StripeError :=
  ⟨some (.named "StripeInvalidRequestError"), some .resourceMissing, some 404,
    "No such payment_intent", none, none⟩

def amountTooLarge : StripeError :=
  ⟨some (.named "StripeInvalidRequestError"), some (.named "amount_too_large"), some 400,
    "The amount is larger than allowed.", none, none⟩

/-- No answer came. -/
def connection : StripeError :=
  ⟨some .connection, none, none, "An error occurred with our connection to Stripe.", none, none⟩

end StripeError

inductive IntentStatus where
  | requiresPaymentMethod
  | requiresCapture
  | succeeded (captured refunded : Cents)
  | canceled
  deriving DecidableEq, Repr

structure Intent where
  amountCents : Cents
  status : IntentStatus
  deriving DecidableEq, Repr

namespace Intent

/-- The money Stripe has taken, if it has. -/
def captured (i : Intent) : Option Cents :=
  match i.status with
  | .succeeded captured _ => some captured
  | _ => none

/-- The intent still holds the customer's money. -/
def holds (i : Intent) : Bool := i.status = .requiresCapture

end Intent

/-- What Stripe keeps. Refunds and transfers are found by their idempotency keys. -/
structure Provider where
  intents : Table IntentId Intent
  refunds : Table (OrderId × RefundReason) Cents
  transfers : Table OrderId Cents

inductive StripeCall where
  | capture (intent : IntentId) (payment : PaymentId) (amountCents : Option Cents)
  | cancel (intent : IntentId) (payment : PaymentId)
  | createRefund (intent : IntentId) (amountCents : Cents) (order : OrderId)
      (reason : RefundReason)
  | createTransfer (order : OrderId) (amountCents : Cents)
  | createIntent (payment : PaymentId) (amountCents : Cents)
  deriving DecidableEq, Repr

namespace Provider

/-- What a capture asks for: a sum, or by default the whole hold. -/
def asked (i : Intent) (amountCents : Option Cents) : Cents := amountCents.getD i.amountCents

/-- What Stripe does with a request that reaches it. -/
def carryOut (P : Provider) : StripeCall → Except StripeError Provider
  | .capture intent _ amountCents =>
    match P.intents.get intent with
    | none => .error .missing
    | some i =>
      match i.status with
      | .requiresCapture =>
        if asked i amountCents ≤ i.amountCents then
          .ok { P with
            intents := P.intents.set intent
              { i with status := .succeeded (asked i amountCents) 0 } }
        else .error .amountTooLarge
      | _ => .error .unexpectedState
  | .cancel intent _ =>
    match P.intents.get intent with
    | none => .error .missing
    | some i =>
      match i.status with
      | .requiresPaymentMethod | .requiresCapture =>
        .ok { P with intents := P.intents.set intent { i with status := .canceled } }
      | _ => .error .unexpectedState
  | .createRefund intent amountCents order reason =>
    match P.intents.get intent with
    | none => .error .missing
    | some i =>
      if (P.refunds.get (order, reason)).isSome then .ok P
      else match i.status with
        | .succeeded captured refunded =>
          if refunded + amountCents ≤ captured then
            .ok { P with
              intents := P.intents.set intent
                { i with status := .succeeded captured (refunded + amountCents) }
              refunds := P.refunds.set (order, reason) amountCents }
          else .error .amountTooLarge
        | _ => .error .unexpectedState
  | .createTransfer order amountCents =>
    if (P.transfers.get order).isSome then .ok P
    else .ok { P with transfers := P.transfers.set order amountCents }
  | .createIntent _ amountCents =>
    .ok { P with
      intents := P.intents.set P.intents.fresh ⟨amountCents, .requiresPaymentMethod⟩ }

/-- What a request that was carried out answers: the id of a new intent, that of the one transfer
made under the order's key, or nothing of interest. -/
def reply (P : Provider) : StripeCall → Nat
  | .createIntent _ _ => P.intents.fresh
  | .createTransfer order _ => order
  | _ => 1

/-- The request repeats one Stripe has carried out, so that its idempotency key can bring the
original answer back. A new intent is asked for without a key. -/
def served (P : Provider) : StripeCall → Bool
  | .capture intent _ amountCents =>
    (P.intents.get intent).any fun i => i.captured = some (asked i amountCents)
  | .cancel intent _ => (P.intents.get intent).any fun i => i.status = .canceled
  | .createRefund _ _ order reason => (P.refunds.get (order, reason)).isSome
  | .createTransfer order _ => (P.transfers.get order).isSome
  | .createIntent _ _ => false

end Provider

/-- What the environment decides about one step: that it goes through, that the database or the
network is down, that Stripe refuses the request, that it carries it out and the answer is lost,
that it replays an earlier answer, or how far the clock moves. -/
inductive Fate where
  | ok
  | down
  | refused (e : StripeError)
  | lost (e : StripeError)
  | replayed
  | elapse (ms : Time)
  deriving DecidableEq, Repr

namespace Provider

def answer (P : Provider) (call : StripeCall) : Fate → Except StripeError Unit × Provider
  | .ok | .elapse _ =>
    match P.carryOut call with
    | .ok P' => (.ok (), P')
    | .error e => (.error e, P)
  | .down => (.error .connection, P)
  | .refused e => (.error e, P)
  | .lost e =>
    match P.carryOut call with
    | .ok P' => (.error e, P')
    | .error _ => (.error e, P)
  | .replayed =>
    if P.served call then (.ok (), P)
    else match P.carryOut call with
      | .ok P' => (.ok (), P')
      | .error e => (.error e, P)

end Provider

end CarSalePro
