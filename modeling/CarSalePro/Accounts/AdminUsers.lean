import CarSalePro.Accounts.AuthService

namespace CarSalePro.Accounts

open Store Interleave Prog

section Guards

/-- What the bearer token of a request is: missing, refused by the library, or a payload. -/
inductive Bearer where
  | missing
  | invalid
  | valid (payload : JwtPayload)
  deriving DecidableEq, Repr

/-- The user whom the row lets in. The row decides, not what the token says of it. -/
def World.loadUser (w : World) (id : UserId) : Option AuthUser :=
  ((w.users.get id).filter fun user => user.deletedAt.isNone && user.bannedAt.isNone).map
    (toAuthUser id)

/-- The guard of every route that is not public. -/
def canActivate (bearer : Bearer) : Act AuthUser := do
  match bearer with
  | .missing => throw (.http 401 "unauthorized" "Missing bearer token")
  | .invalid => throw (.http 401 "invalid_token" "Invalid or expired token")
  | .valid payload =>
    match ← fetch (.actor payload.sub) (·.loadUser payload.sub) with
    | none => throw (.http 401 "unauthorized" "Account is unavailable")
    | some user => pure user

def satisfies (actual required : Role) : Bool :=
  actual = required || (required = .admin && actual = .superAdmin)

/-- `@Roles(Role.ADMIN)`. -/
def requireAdmin (user : AuthUser) : Act Unit :=
  if satisfies user.role .admin then pure ()
  else throw (.http 403 "forbidden" "Insufficient role")

end Guards

section RolePolicy

inductive RoleDenial where
  | cannotDemoteSelf | superAdminRequired
  deriving DecidableEq, Repr

def Role.rank : Role → Nat
  | .user => 0
  | .admin => 1
  | .superAdmin => 2

def isAdminRole (role : Role) : Bool := role = .admin || role = .superAdmin

def roleChangeDenial (actorRole targetRole nextRole : Role) (isSelf : Bool) : Option RoleDenial :=
  if targetRole = nextRole then none
  else if isSelf && nextRole.rank < targetRole.rank then some .cannotDemoteSelf
  else if actorRole = .superAdmin then none
  else if targetRole = .user && nextRole = .admin then none
  else some .superAdminRequired

def banDenial (actorRole targetRole : Role) : Option RoleDenial :=
  if isAdminRole targetRole && actorRole ≠ .superAdmin then some .superAdminRequired else none

def refuse {α : Type} : RoleDenial → Act α
  | .cannotDemoteSelf => throw (.http 400 "cannot_demote_self" "You cannot demote yourself")
  | .superAdminRequired => throw (.http 403 "super_admin_required"
      "Only a super admin can change the role of an admin or ban an admin")

end RolePolicy

section AdminUsers

/-- The user, or 404. -/
def require (id : UserId) : Act User := do
  match ← fetch (.user id) (·.users.get id) with
  | none => throw (.http 404 "not_found" "User not found")
  | some user => pure user

def ban (id : UserId) (actor : AuthUser) : Act User :=
  if id = actor.id then throw (.http 400 "cannot_target_self" "You cannot ban yourself")
  else do
    let user ← require id
    match banDenial actor.role user.role with
    | some denial => refuse denial
    | none =>
      if user.bannedAt.isSome then pure user
      else Prog.perform (Stmt.ban id)

def unban (id : UserId) (actor : AuthUser) : Act User := do
  let user ← require id
  match banDenial actor.role user.role with
  | some denial => refuse denial
  | none => Prog.perform (Stmt.unban id)

/-- The last super admin keeps the role. -/
def assertNotLastSuperAdmin (user : User) : Act Unit :=
  Prog.when (user.role = .superAdmin) do
    let superAdmins ← fetch .count (·.countUsers fun row => row.role = .superAdmin)
    if superAdmins ≤ 1 then
      throw (.http 400 "last_super_admin" "Cannot remove the last super admin")
    else pure ()

/-- So does the last administrator. -/
def assertNotLastAdmin (user : User) (role : Role) : Act Unit :=
  Prog.when (isAdminRole user.role ∧ isAdminRole role = false) do
    let adminCount ← fetch .count (·.countUsers fun row => isAdminRole row.role)
    if adminCount ≤ 1 then
      throw (.http 400 "last_admin" "Cannot remove the last administrator")
    else pure ()

def changeRole (id : UserId) (role : Role) (actor : AuthUser) : Act User := do
  let user ← require id
  match roleChangeDenial actor.role user.role role (id = actor.id) with
  | some denial => refuse denial
  | none =>
    if user.role = role then pure user
    else do
      assertNotLastSuperAdmin user
      assertNotLastAdmin user role
      Prog.perform (Stmt.setRole id role)

/-- The rows of the account lose its personal data. -/
def eraseMe (id : UserId) : Act Unit := Prog.perform (Stmt.erase id)

def erase (id : UserId) (actor : AuthUser) : Act User :=
  if id = actor.id then
    throw (.http 400 "cannot_target_self"
      "You cannot erase your own account here. Use the account settings.")
  else if actor.role ≠ .superAdmin then
    throw (.http 403 "super_admin_required" "Only a super admin can erase an account")
  else do
    let user ← require id
    if user.deletedAt.isSome then
      throw (.http 409 "already_erased" "The account is already erased")
    else do
      assertNotLastSuperAdmin user
      eraseMe id
      require id

end AdminUsers

section Users

def isDeleted (id : UserId) : Act Bool :=
  fetch (.user id) fun w => (w.users.get id).any (·.deletedAt.isSome)

/-- The profile of a user, while the account is not deleted: the row is read, and then the mark. -/
def getMe (id : UserId) : Act User := do
  match ← fetch (.user id) (·.users.get id) with
  | none => throw (.http 404 "not_found" "User not found")
  | some user =>
    if ← isDeleted id then throw (.http 404 "not_found" "User not found") else pure user

def updateMe (id : UserId) (name phone : Option String) : Act User := do
  Prog.perform (Stmt.updateProfile id name phone)
  getMe id

end Users

end CarSalePro.Accounts
