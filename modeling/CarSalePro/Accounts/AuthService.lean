import CarSalePro.Accounts.World

namespace CarSalePro.Accounts

open Store Interleave Prog

/-- What the service takes from libraries: the trimmed address in lower case, the SHA-256 of a
text, and the hash of a password with its salt, which only `verify` reads. -/
structure Library where
  normalize : String → String
  sha256 : String → String
  hash : String → String → String
  verify : String → String → Bool

variable (K : Library)

section Tokens

/-- What a token carries. -/
structure JwtPayload where
  sub : UserId
  email : String
  role : Role
  kycVerified : Bool
  deriving DecidableEq, Repr

structure AuthUser where
  id : UserId
  email : String
  role : Role
  kycVerified : Bool
  deriving DecidableEq, Repr

structure IssuedToken where
  token : JwtPayload
  user : AuthUser
  deriving DecidableEq, Repr

def toAuthUser (id : UserId) (user : User) : AuthUser :=
  ⟨id, user.email, user.role, user.kycVerified⟩

def issueToken (id : UserId) (user : User) : IssuedToken :=
  ⟨⟨id, user.email, user.role, user.kycVerified⟩, toAuthUser id user⟩

/-- The raw token and its expiry, for the letter. -/
structure VerificationGrant where
  rawToken : String
  expiresAt : Nat
  deriving DecidableEq, Repr

/-- A new token; `rawToken` is what the random source answers. -/
def createVerificationToken (userId : Option UserId) (identifier : String) (purpose : Purpose)
    (ttlMinutes : Nat) (rawToken : String) : Act VerificationGrant := do
  let now ← fetch .clock (·.now)
  let expiresAt := now + ttlMinutes * 60000
  Prog.perform (Stmt.createToken ⟨userId, identifier, K.sha256 rawToken, purpose, expiresAt, none⟩)
  pure ⟨rawToken, expiresAt⟩

def invalidToken : Err := .http 400 "invalid_token" "Invalid or expired token"

/-- The record of a raw token, which is then stamped. -/
def consumeToken (rawToken : String) (purpose : Purpose) : Act VerificationToken := do
  let tokenHash := K.sha256 rawToken
  match ← fetch (.token tokenHash) (·.tokenByHash tokenHash) with
  | none => throw invalidToken
  | some (id, record) =>
    let now ← fetch .clock (·.now)
    if record.purpose ≠ purpose ∨ record.consumedAt.isSome ∨ record.expiresAt < now then
      throw invalidToken
    else do
      Prog.perform (Stmt.consumeToken id)
      pure record

end Tokens

section Register

structure Registration where
  email : String
  password : Option String
  name : Option String
  deriving DecidableEq, Repr

/-- A new account, or a deleted one with this address again. -/
def register (input : Registration) (salt rawToken : String) :
    Act (IssuedToken × VerificationGrant) := do
  let email := K.normalize input.email
  let existing ← fetch (.email email) (·.userByEmail email)
  if existing.any fun found => found.2.deletedAt.isNone then
    throw (.http 409 "email_taken" "Email already registered")
  else do
    let passwordHash := input.password.map fun password => K.hash password salt
    let (id, user) ← (Prog.perform (Stmt.upsertRegistered email passwordHash input.name) :
      Act (UserId × User))
    let verification ← createVerificationToken K (some id) email .verifyEmail (60 * 24) rawToken
    pure (issueToken id user, verification)

end Register

section Login

def loginMaxFailures : Nat := 10

def loginLockSeconds : Nat := 15 * 60

def loginFailureKey (email : String) : String := "login-fail:" ++ K.sha256 email

/-- A Redis that does not answer stops no login. -/
def assertLoginNotLocked (email : String) : Act Unit := do
  let raw ← Prog.attempt (fetch (.failures (loginFailureKey K email))
    (·.get (loginFailureKey K email)))
  match raw with
  | .ok (some failures) =>
    if loginMaxFailures ≤ failures then
      throw (.http 429 "too_many_login_attempts" "Too many failed login attempts. Try again later.")
    else pure ()
  | _ => pure ()

def recordLoginFailure (email : String) : Act Unit :=
  Prog.quietly (Prog.perform (Stmt.incrWithTtl (loginFailureKey K email) loginLockSeconds))

def invalidCredentials : Err := .http 401 "invalid_credentials" "Invalid email or password"

def validateCredentials (email password : String) : Act IssuedToken := do
  let normalized := K.normalize email
  assertLoginNotLocked K normalized
  let found ← fetch (.email normalized) (·.userByEmail normalized)
  match found.bind fun account => account.2.passwordHash.map fun digest => (account, digest) with
  | none => do
    recordLoginFailure K normalized
    throw invalidCredentials
  | some ((id, user), digest) =>
    if user.deletedAt.isSome then do
      recordLoginFailure K normalized
      throw invalidCredentials
    else if user.bannedAt.isSome then throw (.http 403 "account_banned" "Account suspended")
    else if K.verify digest password = false then do
      recordLoginFailure K normalized
      throw invalidCredentials
    else do
      Prog.quietly (Prog.perform (Stmt.del (loginFailureKey K normalized)))
      pure (issueToken id user)

end Login

section Letters

def verifyEmail (rawToken : String) : Act Unit := do
  let record ← consumeToken K rawToken .verifyEmail
  match record.userId with
  | some user => Prog.perform (Stmt.verifyEmail user)
  | none => pure ()

/-- A reset link for an account that is there, and the same answer for every address. -/
def requestPasswordResetAndNotify (email rawToken : String) : Act Unit := do
  let normalized := K.normalize email
  match ← fetch (.email normalized) (·.userByEmail normalized) with
  | none => pure ()
  | some (id, user) =>
    if user.deletedAt.isSome then pure ()
    else do
      let _ ← createVerificationToken K (some id) user.email .passwordReset 60 rawToken
      pure ()

def resendVerificationEmail (email rawToken : String) : Act Unit := do
  let normalized := K.normalize email
  match ← fetch (.email normalized) (·.userByEmail normalized) with
  | none => pure ()
  | some (id, user) =>
    if user.deletedAt.isSome ∨ user.emailVerified.isSome then pure ()
    else do
      let _ ← createVerificationToken K (some id) user.email .verifyEmail (60 * 24) rawToken
      pure ()

def confirmPasswordReset (rawToken newPassword salt : String) : Act Unit := do
  let record ← consumeToken K rawToken .passwordReset
  match record.userId with
  | none => throw (.http 400 "invalid_token" "Invalid reset token")
  | some user => Prog.perform (Stmt.setPassword user (K.hash newPassword salt))

end Letters

section SignIn

structure SignIn where
  email : String
  name : Option String
  provider : String
  providerAccountId : String
  deriving DecidableEq, Repr

/-- An account that a provider vouches for. -/
def oauthUpsert (input : SignIn) : Act IssuedToken := do
  let email := K.normalize input.email
  let (id, user) ← (Prog.perform (Stmt.upsertSignedIn email input.name) : Act (UserId × User))
  Prog.perform (Stmt.upsertAuthAccount input.provider input.providerAccountId id)
  pure (issueToken id user)

end SignIn

end CarSalePro.Accounts
