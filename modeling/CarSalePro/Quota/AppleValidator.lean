import CarSalePro.Quota.Encoding

namespace CarSalePro

/-- The one product the mobile app sells. -/
def proProductId : String := "carsalepro_pro_lifetime"

inductive Environment where
  | sandbox | production
  deriving DecidableEq, Repr

/-- The reasons for a refused upgrade that the signed transaction of an iOS app meets. -/
inductive IapErrorCode where
  | receiptMalformed | bundleMismatch | productMismatch | purchaseRevoked | transactionNotFound
  | storeRejected | notConfigured | storeAuthFailed | storeUnavailable
  deriving DecidableEq, Repr

structure IapValidationError where
  code : IapErrorCode
  reason : String
  providerCode : Option Json
  providerStatus : Option Nat

/-- What the validator throws: its own error, or the `TypeError` of a value that has no string. -/
inductive Rejection where
  | iap (e : IapValidationError)
  | typeError

abbrev Verdict (α : Type) := Except Rejection α

def refuseFor {α : Type} (code : IapErrorCode) (reason : String) (providerCode : Option Json)
    (providerStatus : Option Nat) : Verdict α :=
  .error (.iap ⟨code, reason, providerCode, providerStatus⟩)

def refuse {α : Type} (code : IapErrorCode) (reason : String) : Verdict α :=
  refuseFor code reason none none

structure IapValidationResult where
  productId : Option Json
  transactionId : Option String
  originalTransactionId : Option String
  storeTransactionId : Option String
  /-- What the `Date` is made of. -/
  purchaseDate : Option Json
  expiresAt : Option Json
  environment : Environment
  bundleId : Option Json

/-- Whether the credentials for the App Store Server API are usable. -/
inductive ServerApi where
  | ok | missing | partly | invalidKey
  deriving DecidableEq, Repr

structure AppleValidator where
  bundleId : String
  serverApi : ServerApi
  useSandboxFirst : Bool

def serverApiBase : Environment → String
  | .production => "https://api.storekit.itunes.apple.com"
  | .sandbox => "https://api.storekit-sandbox.itunes.apple.com"

/-- What Apple answers to a request. -/
inductive StoreAnswer where
  | answered (data : Option Json)
  | failed (err : HttpFailure)

/-- The App Store Server API, by the address asked. -/
abbrev AppleStore := String → StoreAnswer

def transactionUrl (env : Environment) (transactionId : String) : String :=
  serverApiBase env ++ "/inApps/v1/transactions/" ++ transactionId

/-- "No such transaction in this environment". -/
def transactionIdNotFound : String := "4040010"

/-- The 404s that ask to try again later. -/
def retryableNotFound : List String := ["4040002", "4040004", "4040006"]

def textOf (value : Json) : Verdict String :=
  match value.toText with
  | some text => .ok text
  | none => .error .typeError

def printed (value : Option Json) : Verdict String :=
  match printable value with
  | some text => .ok text
  | none => .error .typeError

/-- `new Date(value)`, which needs a primitive of the value. -/
def newDate (value : Json) : Verdict Json := do
  let _ ← textOf value
  pure value

/-- `value ? new Date(value) : undefined`. -/
def dateOf (value : Option Json) : Verdict (Option Json) :=
  match value.filter Json.truthy with
  | some value => do pure (some (← newDate value))
  | none => pure none

/-- `value === undefined ? undefined : String(value)`. -/
def idOf (value : Option Json) : Verdict (Option String) :=
  match value with
  | some value => do pure (some (← textOf value))
  | none => pure none

/-- `value === undefined ? '' : String(value)`. -/
def requestedId (value : Option Json) : Verdict String :=
  match value with
  | some value => textOf value
  | none => pure ""

/-- `/^\d{1,32}$/`. -/
def isNumericId (text : String) : Bool :=
  text.toList.all (fun c => '0' ≤ c && c ≤ '9') && 1 ≤ text.toList.length &&
    text.toList.length ≤ 32

namespace AppleValidator

variable (v : AppleValidator) (parse : String → Option Json) (store : AppleStore)

def requireServerApi : Verdict Unit :=
  match v.serverApi with
  | .ok => pure ()
  | .invalidKey => refuse .notConfigured "APPLE_PRIVATE_KEY is not a valid P-256 private key (.p8)"
  | .missing | .partly => refuse .notConfigured
      ("App Store Server API credentials are not set " ++
        "(APPLE_ISSUER_ID, APPLE_KEY_ID, APPLE_PRIVATE_KEY)")

def environmentOrder (hint : Option Environment) : List Environment :=
  if hint.elim v.useSandboxFirst (· = .sandbox) then [.sandbox, .production]
  else [.production, .sandbox]

def serverApiError (status : Nat) (errorCode : Option Json) : Rejection :=
  let providerCode := some (Json.coalesce errorCode (.num (toString status)))
  if status = 401 then
    .iap ⟨.storeAuthFailed, "App Store Server API refused the server credentials", providerCode,
      some status⟩
  else if status = 400 then
    match (Json.coalesce errorCode (.str "unknown")).toText with
    | none => .typeError
    | some code =>
      .iap ⟨.storeRejected,
        "App Store Server API rejected the transaction id (error " ++ code ++ ")", providerCode,
        some status⟩
  else
    .iap ⟨.storeUnavailable, "App Store Server API unavailable (" ++
      (if status = 0 then "no response" else toString status) ++ ")", providerCode, some status⟩

/-- The transaction the store signed, if its answer is readable. -/
def signedPayload (signed : Option Json) : Option JsObject :=
  match signed with
  | some (.str signed) => decodeJwsPayload parse signed
  | _ => none

/-- The verdict on the transaction the store itself returned. -/
def verifyTransaction (signed : Option Json) (env : Environment) :
    Verdict IapValidationResult := do
  match signedPayload parse signed with
  | none =>
    refuse .storeUnavailable
      "App Store Server API answered without a readable signedTransactionInfo"
  | some tx =>
    if !(tx.lookup "bundleId").any (Json.isText v.bundleId) then
      let got ← printed (tx.lookup "bundleId")
      refuse .bundleMismatch
        ("Bundle id mismatch (expected " ++ v.bundleId ++ ", got " ++ got ++ ")")
    else if !(tx.lookup "productId").any (Json.isText proProductId) then
      let got ← printed (tx.lookup "productId")
      refuse .productMismatch
        ("Product mismatch (expected " ++ proProductId ++ ", got " ++ got ++ ")")
    else if (tx.lookup "revocationDate").any Json.truthy then
      refuseFor .purchaseRevoked "Purchase was revoked by Apple" (tx.lookup "revocationReason") none
    else
      let transactionId ← idOf (tx.lookup "transactionId")
      let originalTransactionId ← idOf (tx.lookup "originalTransactionId")
      if originalTransactionId.all (· = "") && transactionId.all (· = "") then
        refuse .storeUnavailable
          "App Store Server API answered with a transaction that has no id"
      else
        let purchaseDate ← dateOf (tx.lookup "purchaseDate")
        let expiresAt ← dateOf (tx.lookup "expiresDate")
        pure {
          productId := tx.lookup "productId"
          transactionId := transactionId
          originalTransactionId := originalTransactionId
          storeTransactionId := originalTransactionId <|> transactionId
          purchaseDate := purchaseDate
          expiresAt := expiresAt
          environment :=
            if (tx.lookup "environment").any (Json.isText "Sandbox") then .sandbox
            else if (tx.lookup "environment").any (Json.isText "Production") then .production
            else env
          bundleId := tx.lookup "bundleId" }

/-- The loop over the environments: the next one is asked when the last had no such transaction. -/
def lookupIn (transactionId : String) : List Environment → Verdict IapValidationResult
  | [] => refuseFor .transactionNotFound
      "Transaction not found in the production or the sandbox App Store"
      (some (.num transactionIdNotFound)) (some 404)
  | env :: rest =>
    match store (transactionUrl env transactionId) with
    | .answered data =>
      v.verifyTransaction parse (data.bind (Json.get "signedTransactionInfo")) env
    | .failed err =>
      let status := httpStatusOf err
      let errorCode := (httpBodyOf err).bind (Json.get "errorCode")
      match retryableNotFound.find? fun code => errorCode.any (Json.isNumber code) with
      | some code => refuseFor .storeUnavailable
          ("App Store Server API asks to retry later (error " ++ code ++ ")")
          errorCode (some status)
      | none =>
        if status = 404 ∨ errorCode.any (Json.isNumber transactionIdNotFound) then
          lookupIn transactionId rest
        else .error (serverApiError status errorCode)

def lookupTransaction (transactionId : String) (hint : Option Environment) :
    Verdict IapValidationResult := do
  v.requireServerApi
  v.lookupIn parse store transactionId (v.environmentOrder hint)

/-- The environment to ask first: the client's own hint, or the sandbox if the payload says so. -/
def hintOf (payload : JsObject) (environment : Option Environment) : Option Environment :=
  match environment with
  | some environment => some environment
  | none =>
    if (payload.lookup "environment").any (Json.isText "Sandbox") then some .sandbox else none

/-- The JWS from the device only names the transaction. -/
def validateSignedTransaction (jws : String) (environment : Option Environment) :
    Verdict IapValidationResult := do
  let payload := decodeJwsPayload parse jws
  let transactionId ← requestedId (payload.bind (·.lookup "transactionId"))
  match payload with
  | some payload =>
    if !isNumericId transactionId then
      refuse .receiptMalformed "StoreKit 2 JWS payload has no numeric transactionId"
    else if (payload.lookup "bundleId").any fun value => !value.isText v.bundleId then
      let got ← printed (payload.lookup "bundleId")
      refuse .bundleMismatch
        ("Bundle id mismatch (expected " ++ v.bundleId ++ ", got " ++ got ++ ")")
    else
      v.lookupTransaction parse store transactionId (hintOf payload environment)
  | none => refuse .receiptMalformed "StoreKit 2 JWS payload has no numeric transactionId"

end AppleValidator

end CarSalePro
