import CarSalePro.Accounts.Effects
import CarSalePro.Interleave.Heeding

namespace CarSalePro.Accounts

open Store Interleave Prog

/-- Nobody is a super admin. -/
def NoSuperAdmin (w : World) : Prop :=
  ∀ id row, w.users.get id = some row → row.role ≠ .superAdmin

/-- The user asks for the erasure of the account. -/
def AsksErasure (requests : List Request) (id : UserId) : Prop :=
  ∃ payload, Request.eraseMe (.valid payload) ∈ requests ∧ payload.sub = id

/-- Every administrator is one still, as banned as before, and deleted by nobody else. -/
def AdminsKept (requests : List Request) (w w' : World) : Prop :=
  ∀ id row, w.users.get id = some row → row.role = .admin →
    ∃ row', w'.users.get id = some row' ∧ row'.role = .admin ∧ row'.bannedAt = row.bannedAt ∧
      (row.deletedAt = none → row'.deletedAt.isSome → AsksErasure requests id)

section Ranks

variable {K : Library} {requests : List Request} {w₀ w : World} {id : UserId} {actor : AuthUser}

/-- What holds while nobody is a super admin. -/
def Ranked (requests : List Request) (w₀ w : World) : Prop :=
  NoSuperAdmin w ∧ AdminsKept requests w₀ w

/-- A statement that only makes administrators, bans and unbans others, and erases those who ask. -/
def Modest (requests : List Request) (w₀ : World) : Stmt → Prop
  | .setRole _ role => role = .admin
  | .ban id | .unban id => ∀ row, w₀.users.get id = some row → row.role ≠ .admin
  | .erase id => AsksErasure requests id
  | _ => True

/-- What the guard and the handlers read of a user. -/
def ReadAs (w₀ : World) (id : UserId) (role : Role) : Prop :=
  role ≠ .superAdmin ∧ ∀ row, w₀.users.get id = some row → row.role = .admin → role = .admin

theorem ranked_exec {s : Stmt} {c : Fate} (hs : Modest requests w₀ s)
    (h : Ranked requests w₀ w) : Ranked requests w₀ (machine.exec s c w).2 := by
  obtain ⟨hnone, hkept⟩ := h
  constructor
  · intro id row' hrow'
    cases hrow : w.users.get id with
    | none =>
      rw [(exec_new s c hrow hrow').1]
      decide
    | some row =>
      obtain ⟨row₁, hrow₁, heffect⟩ := exec_users s c hrow
      have hsame : (w.exec s c).2.users.get id = some row' := hrow'
      rw [hrow₁] at hsame
      cases hsame
      have hrole := hnone id row hrow
      cases heffect with
      | stands role banned deleted email password => rwa [role]
      | enrolled stmt role banned deleted email password => rwa [role]
      | ban at_ => exact hrole
      | unban => exact hrole
      | setRole role =>
        have hadmin : role = .admin := hs
        subst hadmin
        exact nofun
      | erase at_ => exact hrole
  · intro id row₀ hrow₀ hadmin₀
    obtain ⟨row, hrow, hadmin, hbanned, hdeleted⟩ := hkept id row₀ hrow₀ hadmin₀
    obtain ⟨row', hrow', heffect⟩ := exec_users s c hrow
    refine ⟨row', hrow', ?_⟩
    cases heffect with
    | stands role banned deleted email password =>
      rw [role, banned, deleted]
      exact ⟨hadmin, hbanned, hdeleted⟩
    | enrolled stmt role banned deleted email password =>
      rw [role, banned, deleted]
      exact ⟨hadmin, hbanned, fun _ hsome => nomatch hsome⟩
    | ban at_ => exact absurd hadmin₀ (hs row₀ hrow₀)
    | unban => exact absurd hadmin₀ (hs row₀ hrow₀)
    | setRole role => exact ⟨hs, hbanned, hdeleted⟩
    | erase at_ => exact ⟨hadmin, hbanned, fun _ _ => hs⟩

theorem ranked_env {c : Fate} (h : Ranked requests w₀ w) :
    Ranked requests w₀ (machine.env c w) := by
  have husers := users_env (w := w) c
  unfold Ranked NoSuperAdmin AdminsKept
  rw [husers]
  exact h

theorem readAs_get {user : User} (h : Ranked requests w₀ w) (hrow : w.users.get id = some user) :
    ReadAs w₀ id user.role := by
  constructor
  · exact h.1 id user hrow
  · intro row hrow₀ hadmin
    obtain ⟨row', hrow', hadmin', -⟩ := h.2 id row hrow₀ hadmin
    rw [hrow] at hrow'
    cases hrow'
    exact hadmin'

/-- A program among those that keep the ranks. -/
abbrev Keeps (requests : List Request) (w₀ : World) {α : Type} (p : Act α) (Q : α → Prop) : Prop :=
  Heeds machine (Ranked requests w₀) (Modest requests w₀) p Q

theorem keeps_canActivate {bearer : Bearer} : Keeps requests w₀ (canActivate bearer) fun user =>
    user.role ≠ .superAdmin ∧ ∃ payload, bearer = .valid payload ∧ payload.sub = user.id := by
  refine flow_canActivate (F := fun found _ => ∀ user, found = some user →
    user.role ≠ .superAdmin ∧ ∃ payload, bearer = .valid payload ∧ payload.sub = user.id)
    (fun _ _ _ => trivial) (fun payload hbearer => Heeds.fetch fun w hw user huser => ?_)
    (fun _ _ _ => trivial) fun user _ h => h user rfl
  obtain ⟨row, hrow, -, -, rfl⟩ := loadUser_some.mp huser
  exact ⟨hw.1 _ row hrow, payload, hbearer, rfl⟩

theorem keeps_require : Keeps requests w₀ (require id) fun user => ReadAs w₀ id user.role := by
  have hread : Keeps requests w₀ (fetch (.user id) (·.users.get id))
      fun found => ∀ user, found = some user → ReadAs w₀ id user.role :=
    Heeds.fetch fun w hw user huser => readAs_get hw huser
  apply Heeds.seq hread
  intro found hfound
  cases found with
  | none => exact Heeds.throw
  | some user => exact Heeds.pure (hfound user rfl)

theorem keeps_refuse {α : Type} {denial : RoleDenial} {Q : α → Prop} :
    Keeps requests w₀ (refuse denial : Act α) Q := by
  cases denial <;> exact Heeds.throw

theorem role_of_banDenial {actorRole targetRole : Role} (hactor : actorRole ≠ .superAdmin)
    (h : banDenial actorRole targetRole = none) : targetRole ≠ .admin := by
  rintro rfl
  simp [banDenial, isAdminRole, hactor] at h

theorem role_of_changeDenial {actorRole targetRole nextRole : Role} {isSelf : Bool}
    (hactor : actorRole ≠ .superAdmin) (hne : targetRole ≠ nextRole)
    (h : roleChangeDenial actorRole targetRole nextRole isSelf = none) : nextRole = .admin := by
  unfold roleChangeDenial at h
  rw [if_neg hne, if_neg hactor] at h
  split at h
  · cases h
  · split at h
    next hpromoted =>
      simp only [Bool.and_eq_true, decide_eq_true_eq] at hpromoted
      exact hpromoted.2
    next => cases h

theorem modest_other {user : User} (hread : ReadAs w₀ id user.role) (hrole : user.role ≠ .admin) :
    ∀ row, w₀.users.get id = some row → row.role ≠ .admin := by
  intro row hrow hadmin
  exact hrole (hread.2 row hrow hadmin)

theorem keeps_ban (hactor : actor.role ≠ .superAdmin) :
    Keeps requests w₀ (ban id actor) fun _ => True := by
  apply Heeds.ite (fun _ => Heeds.throw)
  intro _
  apply Heeds.seq keeps_require
  intro user hread
  split
  · exact keeps_refuse
  next hallowed =>
    apply Heeds.ite (fun _ => Heeds.pure trivial)
    intro _
    apply Heeds.perform
    exact modest_other hread (role_of_banDenial hactor hallowed)

theorem keeps_unban (hactor : actor.role ≠ .superAdmin) :
    Keeps requests w₀ (unban id actor) fun _ => True := by
  apply Heeds.seq keeps_require
  intro user hread
  split
  · exact keeps_refuse
  next hallowed =>
    apply Heeds.perform
    exact modest_other hread (role_of_banDenial hactor hallowed)

theorem keeps_changeRole {role : Role} (hactor : actor.role ≠ .superAdmin) :
    Keeps requests w₀ (changeRole id role actor) fun _ => True := by
  apply Heeds.seq keeps_require
  intro user hread
  split
  · exact keeps_refuse
  next hallowed =>
    apply Heeds.ite (fun _ => Heeds.pure trivial)
    intro hne
    apply Heeds.seq (Heeds.only only_assertNotLastSuperAdmin)
    intro _ _
    apply Heeds.seq (Heeds.only only_assertNotLastAdmin)
    intro _ _
    apply Heeds.perform
    exact role_of_changeDenial hactor hne hallowed

theorem keeps_erase (hactor : actor.role ≠ .superAdmin) :
    Keeps requests w₀ (erase id actor) fun _ => True := by
  apply Heeds.ite (fun _ => Heeds.throw)
  intro _
  rw [if_pos hactor]
  exact Heeds.throw

theorem keeps_asAdmin {bearer : Bearer} {handler : AuthUser → Act Unit}
    (h : ∀ actor, actor.role ≠ .superAdmin → Keeps requests w₀ (handler actor) fun _ => True) :
    Keeps requests w₀ (asAdmin bearer handler) fun _ => True := by
  apply Heeds.seq keeps_canActivate
  intro actor hactor
  apply Heeds.seq (Heeds.only (Only.ite (fun _ => only_pure _) fun _ => only_throw _))
  exact fun _ _ => h actor hactor.1

theorem keeps_audited {action : String} {work : AuthUser → Act User}
    (h : Keeps requests w₀ (work actor) fun _ => True) :
    Keeps requests w₀ (audited action id work actor) fun _ => True := by
  apply Heeds.seq (Heeds.only only_require)
  intro _ _
  apply Heeds.seq h
  exact fun _ _ => Heeds.only (only_log fun _ => trivial)

/-- A request for which nobody acts as an administrator. -/
theorem modest_issues {r : Request} (hadmin : ∀ bearer id role, r ≠ .ban bearer id ∧
      r ≠ .unban bearer id ∧ r ≠ .changeRole bearer id role ∧ r ≠ .erase bearer id ∧
      r ≠ .eraseMe bearer) : ∀ s, r.Issues K s → Modest requests w₀ s := by
  intro s hs
  cases hs with
  | clerical h =>
    cases s with
    | ban id => cases h
    | unban id => cases h
    | setRole id role => cases h
    | erase id => cases h
    | _ => trivial
  | upsertRegistered input gdprConsent salt rawToken passwordHash name => trivial
  | upsertSignedIn input internalKey name => trivial
  | counts email password h =>
    cases s with
    | incrWithTtl key ttlSeconds => trivial
    | del key => trivial
    | _ => cases h
  | ban bearer id => exact absurd rfl (hadmin bearer id .user).1
  | unban bearer id => exact absurd rfl (hadmin bearer id .user).2.1
  | setRole bearer id role => exact absurd rfl (hadmin bearer id role).2.2.1
  | erase bearer id => exact absurd rfl (hadmin bearer id .user).2.2.2.1
  | eraseMe bearer id => exact absurd rfl (hadmin bearer id .user).2.2.2.2

theorem keeps_request {r : Request} (hr : r ∈ requests) :
    Keeps requests w₀ (r.prog K) fun _ => True := by
  cases r with
  | ban bearer id => exact keeps_asAdmin fun _ hactor => keeps_audited (keeps_ban hactor)
  | unban bearer id => exact keeps_asAdmin fun _ hactor => keeps_audited (keeps_unban hactor)
  | changeRole bearer id role =>
    exact keeps_asAdmin fun _ hactor => keeps_audited (keeps_changeRole hactor)
  | erase bearer id =>
    apply keeps_asAdmin
    intro actor hactor
    apply Heeds.seq (keeps_erase hactor)
    exact fun _ _ => Heeds.only (only_log fun _ => trivial)
  | eraseMe bearer =>
    apply Heeds.seq keeps_canActivate
    rintro user ⟨-, payload, rfl, hid⟩
    exact Heeds.perform ⟨payload, hr, hid⟩
  | _ =>
    apply Heeds.only
    apply (only_request _).mono
    exact modest_issues fun _ _ _ => ⟨nofun, nofun, nofun, nofun, nofun⟩

end Ranks

/-- Without a super admin, no run of requests makes one, takes the role of an administrator, or
bans, unbans or erases an administrator who does not ask for it. -/
theorem no_super_admin_arises (K : Library) (w : World) (requests : List Request) (g : Run Unit)
    (hw : NoSuperAdmin w)
    (hg : Pool.Reach machine (fun _ _ _ _ hist => hist) anyStep (launch K w () requests) g) :
    NoSuperAdmin g.state ∧ AdminsKept requests w g.state := by
  have hstart : Ranked requests w w := by
    refine ⟨hw, fun id row hrow hadmin => ⟨row, hrow, hadmin, rfl, fun hnone hsome => ?_⟩⟩
    rw [hnone] at hsome
    cases hsome
  apply Heeds.reach (fun _ _ _ => ranked_exec) (fun _ _ => ranked_env) hstart _ hg
  intro p hp
  obtain ⟨r, hr, rfl⟩ := List.mem_map.mp hp
  exact keeps_request hr

/-- What came of users 1 and 2: the role, and whether they are banned. -/
def standingOf (g : Run Unit) : List (Option (Role × Bool)) :=
  [1, 2].map fun id => (g.state.users.get id).map fun row => (row.role, row.bannedAt.isSome)

/-- An administrator bans a user, who tries to ban the administrator. -/
theorem no_super_admin_arises_office : ∃ g : Run Unit,
    standingOf g = [some (.user, true), some (.admin, false)] ∧ NoSuperAdmin g.state := by
  let requests : List Request := [.ban (bearerOf 2) 1, .ban (bearerOf 1) 2]
  have hrun : Pool.observe machine (fun _ _ _ _ hist => hist) anyStep standingOf
      [.run 1 .done, .run 0 .done, .run 0 .done, .run 0 .done] (.run 0 .done)
      (launch plainLibrary (office .admin .user) () requests) =
      some ([some (.user, false), some (.admin, false)],
        [some (.user, true), some (.admin, false)]) := by
    decide
  obtain ⟨g, g', hg, hm, hs, -, hafter⟩ := Pool.observe_eq hrun
  have hnone : NoSuperAdmin (office .admin .user) := by
    intro id row hrow
    simp only [office, Table.get_set, Table.get_empty] at hrow
    split at hrow
    · cases hrow
      exact nofun
    · split at hrow
      · cases hrow
        exact nofun
      · split at hrow
        · cases hrow
          exact nofun
        · cases hrow
  exact ⟨g', hafter, (no_super_admin_arises plainLibrary _ requests g' hnone (.next hg hm hs)).1⟩

end CarSalePro.Accounts
