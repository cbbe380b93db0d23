import CarSalePro.Interleave.Pool
import CarSalePro.Store.Table

namespace CarSalePro.Accounts

open Store Interleave Prog

abbrev UserId := Nat
abbrev TokenId := Nat

inductive Role where
  | user | admin | superAdmin
  deriving DecidableEq, Repr

structure User where
  email : String
  emailVerified : Option Nat
  passwordHash : Option String
  name : Option String
  phone : Option String
  role : Role
  kycVerified : Bool
  bannedAt : Option Nat
  deletedAt : Option Nat
  deriving DecidableEq, Repr

inductive Purpose where
  | verifyEmail | passwordReset
  deriving DecidableEq, Repr

structure VerificationToken where
  userId : Option UserId
  identifier : String
  tokenHash : String
  purpose : Purpose
  expiresAt : Nat
  consumedAt : Option Nat
  deriving DecidableEq, Repr

/-- A counter in Redis, with the moment from which it is gone. -/
structure Entry where
  value : Nat
  expiresAt : Nat
  deriving DecidableEq, Repr

structure AuditEntry where
  actorId : UserId
  action : String
  targetId : UserId
  deriving DecidableEq, Repr

/-- The tables of the accounts, the accounts of the sign-in providers by provider and account id,
and the counters in Redis. Times are in milliseconds. -/
structure World where
  users : Table UserId User
  tokens : Table TokenId VerificationToken
  authAccounts : Table (String × String) UserId
  failures : Table String Entry
  audit : List AuditEntry
  now : Nat

inductive Err where
  | http (status : Nat) (code : String) (message : String)
  | failed
  deriving DecidableEq, Repr

/-- The writes, each one request to the database or to Redis. -/
inductive Stmt where
  | upsertRegistered (email : String) (passwordHash name : Option String)
  | upsertSignedIn (email : String) (name : Option String)
  | upsertAuthAccount (provider providerAccountId : String) (user : UserId)
  | createToken (token : VerificationToken)
  | consumeToken (token : TokenId)
  | verifyEmail (user : UserId)
  | setPassword (user : UserId) (passwordHash : String)
  | updateProfile (user : UserId) (name phone : Option String)
  | ban (user : UserId)
  | unban (user : UserId)
  | setRole (user : UserId) (role : Role)
  | erase (user : UserId)
  | logAudit (entry : AuditEntry)
  | incrWithTtl (key : String) (ttlSeconds : Nat)
  | del (key : String)

abbrev Stmt.Resp : Stmt → Type
  | .upsertRegistered _ _ _ | .upsertSignedIn _ _ => UserId × User
  | .ban _ | .unban _ | .setRole _ _ => User
  | _ => Unit

/-- What the environment decides about a step: that its request fails, before or after it has
taken effect, or how much time passes. -/
inductive Fate where
  | done
  | fails
  | lost
  | elapse (milliseconds : Nat)
  deriving DecidableEq, Repr

/-- The address of an erased account. -/
def tombstone (userId : UserId) : String := "deleted+" ++ toString userId ++ "@carsalepro.invalid"

namespace World

def userByEmail (w : World) (email : String) : Option (UserId × User) :=
  w.users.findFirst fun _ row => row.email = email

def tokenByHash (w : World) (tokenHash : String) : Option (TokenId × VerificationToken) :=
  w.tokens.findFirst fun _ row => row.tokenHash = tokenHash

/-- What Redis answers: the value, until it expires. -/
def get (w : World) (key : String) : Option Nat :=
  ((w.failures.get key).filter fun entry => w.now < entry.expiresAt).map (·.value)

/-- How many of the users that are not deleted match. -/
def countUsers (w : World) (p : User → Bool) : Nat :=
  (w.users.findMany fun _ row => p row && row.deletedAt.isNone).length

/-- `user.update`, which throws where there is no row. -/
def updateUser (w : World) (user : UserId) (f : User → User) : Except Err User × World :=
  match w.users.get user with
  | none => (.error .failed, w)
  | some row => (.ok (f row), { w with users := w.users.set user (f row) })

/-- `user.upsert` by the address. -/
def upsertUser (w : World) (email : String) (create : User) (update : User → User) :
    (UserId × User) × World :=
  match w.userByEmail email with
  | some (user, row) => ((user, update row), { w with users := w.users.set user (update row) })
  | none => ((w.users.fresh, create), { w with users := w.users.set w.users.fresh create })

/-- The row of a new account. -/
def newUser (email : String) : User where
  email := email
  emailVerified := none
  passwordHash := none
  name := none
  phone := none
  role := .user
  kycVerified := false
  bannedAt := none
  deletedAt := none

/-- A counter one higher. The time to live starts with the first increment and does not move. -/
def incrWithTtl (w : World) (key : String) (ttlSeconds : Nat) : World :=
  match (w.failures.get key).filter fun entry => w.now < entry.expiresAt with
  | some entry => { w with failures := w.failures.set key { entry with value := entry.value + 1 } }
  | none => { w with failures := w.failures.set key ⟨1, w.now + ttlSeconds * 1000⟩ }

/-- An erased row carries no personal data. -/
def erased (user : UserId) (now : Nat) (row : User) : User :=
  { row with
    email := tombstone user, emailVerified := none, passwordHash := none, name := none
    phone := none, deletedAt := some now }

/-- The transaction of an erasure. Another row with the same address would undo it. -/
def erase (w : World) (user : UserId) : Except Err Unit × World :=
  match w.users.get user with
  | none => (.error .failed, w)
  | some row =>
    if w.users.any fun other row => other ≠ user ∧ row.email = tombstone user then
      (.error .failed, w)
    else (.ok (), { w with
      users := w.users.set user (erased user w.now row)
      tokens := w.tokens.deleteMany fun _ token => token.userId = some user
      authAccounts := w.authAccounts.deleteMany fun _ owner => owner = user })

/-- The hash of a token is unique. -/
def createToken (w : World) (token : VerificationToken) : Except Err Unit × World :=
  match w.tokenByHash token.tokenHash with
  | some _ => (.error .failed, w)
  | none => (.ok (), { w with tokens := w.tokens.set w.tokens.fresh token })

def consumeToken (w : World) (token : TokenId) : Except Err Unit × World :=
  match w.tokens.get token with
  | none => (.error .failed, w)
  | some row =>
    (.ok (), { w with tokens := w.tokens.set token { row with consumedAt := some w.now } })

/-- An account of a provider that is there is left as it is. -/
def upsertAuthAccount (w : World) (provider providerAccountId : String) (user : UserId) : World :=
  match w.authAccounts.get (provider, providerAccountId) with
  | some _ => w
  | none => { w with authAccounts := w.authAccounts.set (provider, providerAccountId) user }

/-- An answer that says no more than that a request succeeded. -/
def plain {α : Type} (r : Except Err α × World) : Except Err Unit × World :=
  (r.1.map fun _ => (), r.2)

def perform (s : Stmt) (w : World) : Except Err s.Resp × World :=
  match s with
  | .upsertRegistered email passwordHash name =>
    let out := w.upsertUser email { newUser email with passwordHash := passwordHash, name := name }
      fun row => { row with
        passwordHash := passwordHash, name := name.orElse fun _ => row.name, deletedAt := none }
    (.ok out.1, out.2)
  | .upsertSignedIn email name =>
    let out := w.upsertUser email
      { newUser email with name := name, emailVerified := some w.now }
      fun row => { row with name := name.orElse fun _ => row.name, deletedAt := none }
    (.ok out.1, out.2)
  | .upsertAuthAccount provider providerAccountId user =>
    (.ok (), w.upsertAuthAccount provider providerAccountId user)
  | .createToken token => w.createToken token
  | .consumeToken token => w.consumeToken token
  | .verifyEmail user =>
    plain (w.updateUser user fun row => { row with emailVerified := some w.now })
  | .setPassword user passwordHash =>
    plain (w.updateUser user fun row => { row with passwordHash := some passwordHash })
  | .updateProfile user name phone =>
    plain (w.updateUser user fun row => { row with
      name := name.orElse fun _ => row.name, phone := phone.orElse fun _ => row.phone })
  | .ban user => w.updateUser user fun row => { row with bannedAt := some w.now }
  | .unban user => w.updateUser user fun row => { row with bannedAt := none }
  | .setRole user role => w.updateUser user fun row => { row with role := role }
  | .erase user => w.erase user
  | .logAudit entry => (.ok (), { w with audit := entry :: w.audit })
  | .incrWithTtl key ttlSeconds => (.ok (), w.incrWithTtl key ttlSeconds)
  | .del key => (.ok (), { w with failures := w.failures.deleteMany fun key' _ => key' = key })

def exec (s : Stmt) (c : Fate) (w : World) : Except Err s.Resp × World :=
  match c with
  | .fails => (.error .failed, w)
  | .lost => (.error .failed, (w.perform s).2)
  | _ => w.perform s

end World

/-- Where a program reads. `actor` is the guard's read of the one who asks. -/
inductive Site where
  | clock
  | actor (user : UserId)
  | user (user : UserId)
  | email (email : String)
  | token (tokenHash : String)
  | count
  | failures (key : String)
  deriving DecidableEq, Repr

def machine : Machine Site Stmt Stmt.Resp World Err Fate where
  exec := World.exec
  fault site c := if c = .fails ∧ site ≠ .clock then some .failed else none
  env c w := match c with
    | .elapse milliseconds => { w with now := w.now + milliseconds }
    | _ => w

abbrev Act (α : Type) := Prog Site Stmt Stmt.Resp World Err α

abbrev Run (γ : Type) := Pool Site Stmt Stmt.Resp World Err γ

/-- A condition on the steps. -/
abbrev StepGuard (γ : Type) := Guard Site Stmt World Fate γ

/-- No condition. -/
def anyStep {γ : Type} : StepGuard γ := fun _ _ _ _ => true

end CarSalePro.Accounts
