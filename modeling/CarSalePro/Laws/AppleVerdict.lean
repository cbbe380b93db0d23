import CarSalePro.Quota.AppleValidator

namespace CarSalePro

namespace Environment

def other : Environment → Environment
  | sandbox => production
  | production => sandbox

end Environment

namespace StoreAnswer

def errorCode (err : HttpFailure) : Option Json := (httpBodyOf err).bind (Json.get "errorCode")

/-- The store asks to try again later, or cannot be reached. -/
def retryable : StoreAnswer → Bool
  | answered _ => false
  | failed err =>
    retryableNotFound.any (fun code => (errorCode err).any (Json.isNumber code)) ||
      (isTransientStatus (httpStatusOf err) &&
        !(errorCode err).any (Json.isNumber transactionIdNotFound))

/-- The environment has no such transaction. -/
def notFound : StoreAnswer → Bool
  | answered _ => false
  | failed err =>
    !retryableNotFound.any (fun code => (errorCode err).any (Json.isNumber code)) &&
      (httpStatusOf err = 404 || (errorCode err).any (Json.isNumber transactionIdNotFound))

end StoreAnswer

/-- The transaction the submitted payload names. -/
def namedTransaction (parse : String → Option Json) (jws : String) : Option String :=
  ((decodeJwsPayload parse jws).bind (·.lookup "transactionId")).bind fun value =>
    value.toText.filter isNumericId

/-- The environment hint of a request with this payload. -/
def namedHint (parse : String → Option Json) (jws : String) (environment : Option Environment) :
    Option Environment :=
  (decodeJwsPayload parse jws).bind fun payload => AppleValidator.hintOf payload environment

/-- A refusal before the store is asked. -/
def Rejection.early : Rejection → Prop
  | iap e => e.code = .receiptMalformed ∨ e.code = .bundleMismatch
  | typeError => True

/-- The answer of the store holds this transaction. -/
def StoreAnswer.Returns (parse : String → Option Json) (tx : JsObject) : StoreAnswer → Prop
  | answered data => AppleValidator.signedPayload parse
      (data.bind (Json.get "signedTransactionInfo")) = some tx
  | failed _ => False

namespace AppleValidator

/-- The payload names the app of another bundle. -/
def foreign (v : AppleValidator) (parse : String → Option Json) (jws : String) : Bool :=
  ((decodeJwsPayload parse jws).bind (·.lookup "bundleId")).any fun value =>
    !value.isText v.bundleId

/-- A transaction of our app and product, not revoked. -/
structure Sells (v : AppleValidator) (tx : JsObject) : Prop where
  bundle : (tx.lookup "bundleId").any (Json.isText v.bundleId)
  product : (tx.lookup "productId").any (Json.isText proProductId)
  kept : (tx.lookup "revocationDate").any Json.truthy = false

/-- What the verdict on a signed transaction rests on. -/
structure SoundVerdict (v : AppleValidator) (parse : String → Option Json) (store : AppleStore) :
    Prop where
  /-- A malformed payload or a foreign bundle is refused, whatever the store would answer. -/
  refused : ∀ jws environment, namedTransaction parse jws = none ∨ v.foreign parse jws →
    ∃ e : Rejection, e.early ∧
      ∀ store', v.validateSignedTransaction parse store' jws environment = .error e
  /-- Any two other payloads that name the same transaction and environment get one verdict. -/
  named : ∀ jws jws' environment environment', (namedTransaction parse jws).isSome →
    v.foreign parse jws = false → v.foreign parse jws' = false →
    namedTransaction parse jws = namedTransaction parse jws' →
    namedHint parse jws environment = namedHint parse jws' environment' →
    v.validateSignedTransaction parse store jws environment =
      v.validateSignedTransaction parse store jws' environment'
  /-- A valid verdict is one on a transaction the store returned, and we sell it. -/
  genuine : ∀ jws environment r,
    v.validateSignedTransaction parse store jws environment = .ok r →
    ∃ id env tx, namedTransaction parse jws = some id ∧
      (store (transactionUrl env id)).Returns parse tx ∧ v.Sells tx
  /-- A transaction of one environment only is found, whichever is asked first. -/
  found : ∀ jws environment id env data, v.serverApi = .ok →
    namedTransaction parse jws = some id → v.foreign parse jws = false →
    store (transactionUrl env id) = .answered data →
    (store (transactionUrl env.other id)).notFound →
    v.validateSignedTransaction parse store jws environment =
      v.verifyTransaction parse (data.bind (Json.get "signedTransactionInfo")) env
  /-- Where one environment asks to try later, the transaction is not said to be missing. -/
  retried : ∀ jws environment id env, namedTransaction parse jws = some id →
    (store (transactionUrl env id)).retryable →
    ∀ e, v.validateSignedTransaction parse store jws environment = .error (.iap e) →
      e.code ≠ .transactionNotFound

section Lookup

variable {v : AppleValidator} {parse : String → Option Json} {store : AppleStore}
  {jws id : String} {environment : Option Environment} {env : Environment}
  {rest : List Environment}

theorem printed_error {value : Option Json} {e : Rejection} (h : printed value = .error e) :
    e = .typeError := by
  unfold printed at h
  split at h
  · cases h
  · cases h
    rfl

/-- A mismatch is refused, with the code of the mismatch if the value can be printed. -/
theorem refuse_printed {α : Type} (value : Option Json) (code : IapErrorCode)
    (reason : String → String) :
    ∃ e : Rejection, (e = .typeError ∨ ∃ why, e = .iap ⟨code, why, none, none⟩) ∧
      (do let got ← printed value; refuse code (reason got) : Verdict α) = .error e := by
  cases h : printed value with
  | error e => exact ⟨e, .inl (printed_error h), rfl⟩
  | ok got => exact ⟨_, .inr ⟨_, rfl⟩, rfl⟩

theorem textOf_error {value : Json} {e : Rejection} (h : textOf value = .error e) :
    e = .typeError := by
  unfold textOf at h
  split at h <;> cases h
  rfl

theorem requestedId_error {value : Option Json} {e : Rejection} (h : requestedId value = .error e) :
    e = .typeError := by
  cases value with
  | none => cases h
  | some value => exact textOf_error h

/-- A numeric transaction id is that of a value. -/
theorem requestedId_ok {value : Option Json} (h : requestedId value = .ok id)
    (hnumeric : isNumericId id) :
    (value.bind fun value => value.toText.filter isNumericId) = some id := by
  cases value with
  | none =>
    cases h
    exact absurd hnumeric (by decide)
  | some value =>
    simp only [requestedId, textOf] at h
    split at h
    next text htext =>
      cases h
      simp [htext, hnumeric]
    next => cases h

/-- What the validator makes of a payload it can read. -/
theorem validate_payload {payload : JsObject}
    (hpayload : decodeJwsPayload parse jws = some payload) :
    v.validateSignedTransaction parse store jws environment =
      requestedId (payload.lookup "transactionId") >>= fun transactionId =>
      if !isNumericId transactionId then
        refuse .receiptMalformed "StoreKit 2 JWS payload has no numeric transactionId"
      else if (payload.lookup "bundleId").any fun value => !value.isText v.bundleId then do
        let got ← printed (payload.lookup "bundleId")
        refuse .bundleMismatch
          ("Bundle id mismatch (expected " ++ v.bundleId ++ ", got " ++ got ++ ")")
      else v.lookupTransaction parse store transactionId (hintOf payload environment) := by
  simp only [validateSignedTransaction, hpayload]
  rfl

theorem validate_named (hid : namedTransaction parse jws = some id)
    (hf : v.foreign parse jws = false) :
    v.validateSignedTransaction parse store jws environment =
      v.lookupTransaction parse store id (namedHint parse jws environment) := by
  obtain ⟨value, hvalue, htext⟩ := Option.bind_eq_some_iff.mp hid
  obtain ⟨payload, hpayload, hlookup⟩ := Option.bind_eq_some_iff.mp hvalue
  obtain ⟨htext, hnumeric⟩ := Option.filter_eq_some_iff.mp htext
  have hbundle :
      ((payload.lookup "bundleId").any fun value => !value.isText v.bundleId) = false := by
    simpa [foreign, hpayload] using hf
  have hread : requestedId (payload.lookup "transactionId") = .ok id := by
    simp only [hlookup, requestedId, textOf, htext]
  have hhint : namedHint parse jws environment = hintOf payload environment := by
    simp [namedHint, hpayload]
  rw [validate_payload hpayload, hread, hhint]
  show (if _ then _ else _) = _
  rw [if_neg (by simp [hnumeric]), if_neg (by simp [hbundle])]

theorem validate_refused (h : namedTransaction parse jws = none ∨ v.foreign parse jws) :
    ∃ e : Rejection, e.early ∧
      ∀ store, v.validateSignedTransaction parse store jws environment = .error e := by
  have hmalformed : Rejection.early (.iap ⟨.receiptMalformed,
      "StoreKit 2 JWS payload has no numeric transactionId", none, none⟩) := .inl rfl
  cases hpayload : decodeJwsPayload parse jws with
  | none =>
    refine ⟨_, hmalformed, fun store => ?_⟩
    simp only [validateSignedTransaction, hpayload]
    rfl
  | some payload =>
    cases hread : requestedId (payload.lookup "transactionId") with
    | error e =>
      refine ⟨e, requestedId_error hread ▸ trivial, fun store => ?_⟩
      rw [validate_payload hpayload, hread]
      rfl
    | ok id =>
      by_cases hnumeric : isNumericId id = true
      · have hnamed : namedTransaction parse jws = some id := by
          simp [namedTransaction, hpayload, requestedId_ok hread hnumeric]
        have hforeign : ((payload.lookup "bundleId").any fun value =>
            !value.isText v.bundleId) = true := by
          rcases h with h | h
          · rw [hnamed] at h
            cases h
          · simpa [foreign, hpayload] using h
        obtain ⟨e, hcode, he⟩ := refuse_printed (α := IapValidationResult)
          (payload.lookup "bundleId") .bundleMismatch fun got =>
            "Bundle id mismatch (expected " ++ v.bundleId ++ ", got " ++ got ++ ")"
        refine ⟨e, ?_, fun store => ?_⟩
        · rcases hcode with rfl | ⟨why, rfl⟩
          · trivial
          · exact .inr rfl
        · rw [validate_payload hpayload, hread]
          show (if _ then _ else _) = _
          rw [if_neg (by simp [hnumeric]), if_pos hforeign]
          exact he
      · refine ⟨_, hmalformed, fun store => ?_⟩
        rw [validate_payload hpayload, hread]
        show (if _ then _ else _) = _
        rw [if_pos (by simp [hnumeric])]
        rfl

theorem verify_ok {signed : Option Json} {r : IapValidationResult}
    (h : v.verifyTransaction parse signed env = .ok r) :
    ∃ tx, signedPayload parse signed = some tx ∧ v.Sells tx := by
  unfold verifyTransaction at h
  split at h
  · cases h
  next tx htx =>
    split at h
    · obtain ⟨e, -, he⟩ := refuse_printed (α := IapValidationResult) (tx.lookup "bundleId")
        .bundleMismatch fun got =>
          "Bundle id mismatch (expected " ++ v.bundleId ++ ", got " ++ got ++ ")"
      cases he.symm.trans h
    next hbundle =>
      split at h
      · obtain ⟨e, -, he⟩ := refuse_printed (α := IapValidationResult) (tx.lookup "productId")
          .productMismatch fun got =>
            "Product mismatch (expected " ++ proProductId ++ ", got " ++ got ++ ")"
        cases he.symm.trans h
      next hproduct =>
        split at h
        · cases h
        next hkept =>
          exact ⟨tx, htx, by simpa using hbundle, by simpa using hproduct, by simpa using hkept⟩

theorem error_bind {α β : Type} {p : Verdict α} {q : α → Verdict β} {e : Rejection}
    (h : p >>= q = .error e) : p = .error e ∨ ∃ a, p = .ok a ∧ q a = .error e := by
  cases p with
  | error e' =>
    cases h
    exact .inl rfl
  | ok a => exact .inr ⟨a, rfl, h⟩

theorem idOf_error {value : Option Json} {e : Rejection} (h : idOf value = .error e) :
    e = .typeError := by
  cases value with
  | none => cases h
  | some value =>
    rcases error_bind h with h | ⟨text, -, h⟩
    · exact textOf_error h
    · cases h

theorem dateOf_error {value : Option Json} {e : Rejection} (h : dateOf value = .error e) :
    e = .typeError := by
  unfold dateOf at h
  split at h
  · rcases error_bind h with h | ⟨date, -, h⟩
    · rcases error_bind h with h | ⟨text, -, h⟩
      · exact textOf_error h
      · cases h
    · cases h
  · cases h

theorem printed_code {α : Type} {value : Option Json} {code : IapErrorCode}
    {reason : String → String} {e : IapValidationError} (hcode : code ≠ .transactionNotFound)
    (h : (do let got ← printed value; refuse code (reason got) : Verdict α) = .error (.iap e)) :
    e.code ≠ .transactionNotFound := by
  rcases error_bind h with h | ⟨got, -, h⟩
  · cases printed_error h
  · cases h
    exact hcode

/-- The verdict on a returned transaction is never that there is none. -/
theorem verify_code {signed : Option Json} {e : IapValidationError}
    (h : v.verifyTransaction parse signed env = .error (.iap e)) :
    e.code ≠ .transactionNotFound := by
  unfold verifyTransaction at h
  split at h
  · cases h
    exact IapErrorCode.noConfusion
  next tx htx =>
    split at h
    · exact printed_code (by decide) h
    split at h
    · exact printed_code (by decide) h
    split at h
    · cases h
      exact IapErrorCode.noConfusion
    -- what is left fails only where a value has no string
    rcases error_bind h with hid | ⟨transactionId, -, h⟩
    · cases idOf_error hid
    rcases error_bind h with hid | ⟨originalTransactionId, -, h⟩
    · cases idOf_error hid
    split at h
    · cases h
      exact IapErrorCode.noConfusion
    rcases error_bind h with hdate | ⟨purchaseDate, -, h⟩
    · cases dateOf_error hdate
    rcases error_bind h with hdate | ⟨expiresAt, -, h⟩
    · cases dateOf_error hdate
    cases h

theorem serverApiError_code {status : Nat} {code : Option Json} {e : IapValidationError}
    (h : serverApiError status code = .iap e) : e.code ≠ .transactionNotFound := by
  unfold serverApiError at h
  split at h
  · cases h
    exact IapErrorCode.noConfusion
  split at h
  · split at h
    · cases h
    · cases h
      exact IapErrorCode.noConfusion
  · cases h
    exact IapErrorCode.noConfusion

/-- An environment that has no such transaction is passed over. -/
theorem lookupIn_notFound (h : (store (transactionUrl env id)).notFound) :
    v.lookupIn parse store id (env :: rest) = v.lookupIn parse store id rest := by
  simp only [lookupIn]
  cases hs : store (transactionUrl env id) with
  | answered data => rw [hs] at h; cases h
  | failed err =>
    rw [hs] at h
    simp only [StoreAnswer.notFound, StoreAnswer.errorCode, Bool.and_eq_true, Bool.not_eq_true',
      List.any_eq_false, Bool.or_eq_true, decide_eq_true_eq] at h
    have hnone : (retryableNotFound.find? fun code =>
        ((httpBodyOf err).bind (Json.get "errorCode")).any (Json.isNumber code)) = none :=
      List.find?_eq_none.mpr h.1
    simp only [hnone]
    rw [if_pos h.2]

theorem lookupIn_ok {envs : List Environment} {r : IapValidationResult}
    (h : v.lookupIn parse store id envs = .ok r) :
    ∃ env tx, (store (transactionUrl env id)).Returns parse tx ∧ v.Sells tx := by
  induction envs with
  | nil => cases h
  | cons env rest ih =>
    simp only [lookupIn] at h
    split at h
    next data hs =>
      obtain ⟨tx, htx, hsells⟩ := verify_ok h
      exact ⟨env, tx, by rw [hs]; exact htx, hsells⟩
    next err hs =>
      split at h
      · cases h
      · split at h
        · exact ih h
        · cases h

/-- Only when every environment has no such transaction is it said to be missing. -/
theorem lookupIn_missing {envs : List Environment} {e : IapValidationError}
    (h : v.lookupIn parse store id envs = .error (.iap e)) (he : e.code = .transactionNotFound) :
    ∀ env ∈ envs, (store (transactionUrl env id)).notFound := by
  induction envs with
  | nil => exact fun env henv => by cases henv
  | cons env rest ih =>
    simp only [lookupIn] at h
    split at h
    next data hs => exact absurd he (verify_code h)
    next err hs =>
      split at h
      next code _ =>
        cases h
        cases he
      next hnone =>
        split at h
        next hmissing =>
          have hhere : (store (transactionUrl env id)).notFound = true := by
            rw [hs]
            simp only [StoreAnswer.notFound, StoreAnswer.errorCode, Bool.and_eq_true,
              Bool.not_eq_true', List.any_eq_false, Bool.or_eq_true, decide_eq_true_eq]
            exact ⟨List.find?_eq_none.mp hnone, hmissing⟩
          intro env' henv
          rcases List.mem_cons.mp henv with rfl | henv
          · exact hhere
          · exact ih h env' henv
        next => exact absurd he (serverApiError_code (Except.error.inj h))

theorem retryable_found {answer : StoreAnswer} (h : answer.retryable) :
    answer.notFound = false := by
  cases answer with
  | answered data => rfl
  | failed err =>
    simp only [StoreAnswer.retryable, StoreAnswer.notFound, Bool.or_eq_true,
      Bool.and_eq_true] at h ⊢
    rcases h with h | ⟨htransient, hcode⟩
    · simp [h]
    · have hstatus : httpStatusOf err ≠ 404 := by
        intro hs
        rw [hs] at htransient
        cases htransient
      have hcode :
          (StoreAnswer.errorCode err).any (Json.isNumber transactionIdNotFound) = false := by
        simpa using hcode
      simp [hstatus, hcode]

/-- Both environments are asked, in one order or the other. -/
theorem environmentOrder_cases (hint : Option Environment) :
    v.environmentOrder hint = [.sandbox, .production] ∨
      v.environmentOrder hint = [.production, .sandbox] := by
  unfold environmentOrder
  split
  · exact .inl rfl
  · exact .inr rfl

theorem mem_environmentOrder (hint : Option Environment) (env : Environment) :
    env ∈ v.environmentOrder hint := by
  rcases environmentOrder_cases (v := v) hint with h | h <;> rw [h] <;> cases env <;> simp

theorem lookup_configured {hint : Option Environment} (h : v.serverApi = .ok) :
    v.lookupTransaction parse store id hint =
      v.lookupIn parse store id (v.environmentOrder hint) := by
  simp only [lookupTransaction, requireServerApi, h]
  rfl

/-- A lookup that does more than complain about the configuration asks the environments. -/
theorem lookup_asks (v : AppleValidator) (parse : String → Option Json) (store : AppleStore)
    (id : String) (hint : Option Environment) :
    (∃ e : IapValidationError, v.lookupTransaction parse store id hint = .error (.iap e) ∧
      e.code = .notConfigured) ∨
      v.lookupTransaction parse store id hint =
        v.lookupIn parse store id (v.environmentOrder hint) := by
  cases h : v.serverApi with
  | ok => exact .inr (lookup_configured h)
  | _ =>
    simp only [lookupTransaction, requireServerApi, h]
    exact .inl ⟨_, rfl, rfl⟩

theorem lookup_found {hint : Option Environment} {data : Option Json} (hc : v.serverApi = .ok)
    (hs : store (transactionUrl env id) = .answered data)
    (hother : (store (transactionUrl env.other id)).notFound) :
    v.lookupTransaction parse store id hint =
      v.verifyTransaction parse (data.bind (Json.get "signedTransactionInfo")) env := by
  have hfirst (rest : List Environment) : v.lookupIn parse store id (env :: rest) =
      v.verifyTransaction parse (data.bind (Json.get "signedTransactionInfo")) env := by
    simp only [lookupIn, hs]
  have hsecond : v.lookupIn parse store id [env.other, env] =
      v.verifyTransaction parse (data.bind (Json.get "signedTransactionInfo")) env :=
    (lookupIn_notFound hother).trans (hfirst [])
  rw [lookup_configured hc]
  rcases environmentOrder_cases (v := v) hint with h | h
  · rw [h]
    cases env with
    | sandbox => exact hfirst _
    | production => exact hsecond
  · rw [h]
    cases env with
    | sandbox => exact hsecond
    | production => exact hfirst _

end Lookup

/-- The client cannot forge a purchase: the payload it submits only names the transaction, and the
verdict is Apple's. -/
theorem apple_verdict (v : AppleValidator) (parse : String → Option Json) (store : AppleStore) :
    v.SoundVerdict parse store where
  refused _ _ h := validate_refused h
  named jws jws' environment environment' hsome hf hf' hid hhint := by
    obtain ⟨id, hnamed⟩ := Option.isSome_iff_exists.mp hsome
    rw [validate_named hnamed hf, validate_named (hid ▸ hnamed) hf', hhint]
  genuine jws environment r hok := by
    by_cases hearly : namedTransaction parse jws = none ∨ v.foreign parse jws
    · obtain ⟨e, -, he⟩ : ∃ e : Rejection, e.early ∧
          ∀ store, v.validateSignedTransaction parse store jws environment = .error e :=
        validate_refused hearly
      cases (he store).symm.trans hok
    · rw [not_or] at hearly
      obtain ⟨id, hid⟩ := Option.ne_none_iff_exists'.mp hearly.1
      rw [validate_named hid (by simpa using hearly.2)] at hok
      rcases lookup_asks v parse store id (namedHint parse jws environment) with ⟨e, he, -⟩ | hasks
      · cases he.symm.trans hok
      · obtain ⟨env, tx, htx, hsells⟩ := lookupIn_ok (hasks.symm.trans hok)
        exact ⟨id, env, tx, hid, htx, hsells⟩
  found jws environment id env data hc hid hf hs hother := by
    rw [validate_named hid hf, lookup_found hc hs hother]
  retried jws environment id env hid hretry e herr hmissing := by
    have hanswered : (store (transactionUrl env id)).notFound = false := retryable_found hretry
    cases hf : v.foreign parse jws with
    | true =>
      obtain ⟨e', hearly, he⟩ : ∃ e : Rejection, e.early ∧
          ∀ store, v.validateSignedTransaction parse store jws environment = .error e :=
        validate_refused (.inr hf)
      cases (he store).symm.trans herr
      rcases hearly with h | h <;> (rw [h] at hmissing; cases hmissing)
    | false =>
      rw [validate_named hid hf] at herr
      rcases lookup_asks v parse store id (namedHint parse jws environment)
        with ⟨e', he, hcode⟩ | hasks
      · cases he.symm.trans herr
        rw [hcode] at hmissing
        cases hmissing
      · have hnone := lookupIn_missing (hasks.symm.trans herr) hmissing env
          (mem_environmentOrder _ env)
        rw [hanswered] at hnone
        cases hnone

section Runs

def appValidator : AppleValidator := ⟨"net.carsalepro.app", .ok, false⟩

/-- Transaction 20, as the device submits it and as Apple signs it. -/
def soldTransaction (payload : String) : Option Json :=
  if payload = "device" then some (.obj [("transactionId", .num "20")])
  else if payload = "apple" then some (.obj [("transactionId", .num "20"),
    ("bundleId", .str "net.carsalepro.app"), ("productId", .str proProductId)])
  else none

/-- The sandbox has the transaction, production has not. -/
def sandboxStore : AppleStore := fun url =>
  if url = transactionUrl .sandbox "20" then
    .answered (some (.obj [("signedTransactionInfo", .str "h.apple.s")]))
  else .failed ⟨some (404, none)⟩

/-- The sandbox's transaction is found though production is asked first. -/
theorem sandbox_transaction_found :
    appValidator.validateSignedTransaction soldTransaction sandboxStore "h.device.s" none =
      appValidator.verifyTransaction soldTransaction (some (.str "h.apple.s")) .sandbox ∧
    (appValidator.validateSignedTransaction soldTransaction sandboxStore "h.device.s"
      none).toOption.bind (·.storeTransactionId) = some "20" := by
  have hfound := (apple_verdict appValidator soldTransaction sandboxStore).found "h.device.s" none
    "20" .sandbox (some (.obj [("signedTransactionInfo", .str "h.apple.s")])) rfl
    (by decide +kernel) (by decide +kernel) (if_pos rfl) (by decide +kernel)
  exact ⟨hfound, by decide +kernel⟩

end Runs

end AppleValidator

end CarSalePro
