import CarSalePro.Accounts.AdminUsers

namespace CarSalePro.Accounts

open Store Interleave Prog

variable (K : Library)

section Routes

/-- A handler behind the guard. -/
def asUser (bearer : Bearer) (handler : AuthUser → Act Unit) : Act Unit := do
  let user ← canActivate bearer
  handler user

/-- A handler of the admin panel. -/
def asAdmin (bearer : Bearer) (handler : AuthUser → Act Unit) : Act Unit := do
  let actor ← canActivate bearer
  requireAdmin actor
  handler actor

/-- What cannot be written to the audit log is only reported. -/
def log (actor : AuthUser) (action : String) (targetId : UserId) : Act Unit :=
  Prog.quietly (Prog.perform (Stmt.logAudit ⟨actor.id, action, targetId⟩))

/-- An admin's work on an account, between the row before and the entry in the audit log. -/
def audited (action : String) (id : UserId) (work : AuthUser → Act User) (actor : AuthUser) :
    Act Unit := do
  let _ ← require id
  let _ ← work actor
  log actor action id

end Routes

section Requests

/-- What clients ask. The salts and raw tokens are what the random source answers. -/
inductive Request where
  | register (input : Registration) (gdprConsent : Bool) (salt rawToken : String)
  | login (email password : String)
  | requestReset (email rawToken : String)
  | confirmReset (rawToken newPassword salt : String)
  | resendVerification (email rawToken : String)
  | verifyEmail (rawToken : String)
  | oauthUpsert (input : SignIn) (internalKey : Bool)
  | updateMe (bearer : Bearer) (name phone : Option String)
  | eraseMe (bearer : Bearer)
  | ban (bearer : Bearer) (id : UserId)
  | unban (bearer : Bearer) (id : UserId)
  | changeRole (bearer : Bearer) (id : UserId) (role : Role)
  | erase (bearer : Bearer) (id : UserId)
  deriving DecidableEq, Repr

/-- A program whose answer the client may use. -/
def answered {α : Type} (p : Act α) : Act Unit := do
  let _ ← p
  pure ()

def Request.prog : Request → Act Unit
  | register input gdprConsent salt rawToken =>
    if gdprConsent then answered (Accounts.register K input salt rawToken)
    else throw (.http 400 "consent_required" "GDPR consent is required")
  | login email password => answered (validateCredentials K email password)
  | requestReset email rawToken => requestPasswordResetAndNotify K email rawToken
  | confirmReset rawToken newPassword salt => confirmPasswordReset K rawToken newPassword salt
  | resendVerification email rawToken => resendVerificationEmail K email rawToken
  | verifyEmail rawToken => Accounts.verifyEmail K rawToken
  | oauthUpsert input internalKey =>
    if internalKey then answered (Accounts.oauthUpsert K input)
    else throw (.http 403 "forbidden" "Invalid internal key")
  | updateMe bearer name phone =>
    asUser bearer fun user => answered (Accounts.updateMe user.id name phone)
  | eraseMe bearer => asUser bearer fun user => Accounts.eraseMe user.id
  | ban bearer id => asAdmin bearer (audited "user.ban" id (Accounts.ban id))
  | unban bearer id => asAdmin bearer (audited "user.unban" id (Accounts.unban id))
  | changeRole bearer id role =>
    asAdmin bearer (audited "user.role" id (Accounts.changeRole id role))
  | erase bearer id => asAdmin bearer fun actor => do
      let _ ← Accounts.erase id actor
      log actor "user.erase" id

/-- The requests, all at their first step. -/
def launch {γ : Type} (w : World) (hist : γ) (requests : List Request) : Run γ :=
  ⟨w, hist, requests.map (Request.prog K)⟩

end Requests

section Sample

/-- A library that hides nothing. -/
def plainLibrary : Library where
  normalize email := email
  sha256 text := text
  hash password salt := salt ++ password
  verify passwordHash password := passwordHash = password

def sampleUser (email : String) (role : Role) : User :=
  { World.newUser email with role := role, passwordHash := some "secret" }

/-- A token of the user. -/
def bearerOf (id : UserId) : Bearer := .valid ⟨id, "", .user, false⟩

/-- A user of each of the roles: 1, 2 and 3. -/
def office (second third : Role) : World where
  users := ((Table.empty.set 1 (sampleUser "one" .user)).set 2 (sampleUser "two" second)).set 3
    (sampleUser "three" third)
  tokens := .empty
  authAccounts := .empty
  failures := .empty
  audit := []
  now := 0

end Sample

end CarSalePro.Accounts
