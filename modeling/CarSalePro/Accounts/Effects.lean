import CarSalePro.Accounts.Requests
import CarSalePro.Interleave.Discipline

namespace CarSalePro.Accounts

open Store Interleave Prog

section Rows

variable {w : World} {id user : UserId} {row : User} {f : User → User} {email : String}

theorem get_updateUser : (w.updateUser user f).2.users.get id =
    if id = user then (w.users.get user).map f else w.users.get id := by
  unfold World.updateUser
  by_cases hid : id = user
  · subst hid
    rw [if_pos rfl]
    cases hrow : w.users.get id with
    | none => exact hrow
    | some row => simp
  · rw [if_neg hid]
    cases w.users.get user with
    | none => rfl
    | some row => simp [hid]

/-- The row with the address is the one that is written, or else there is none yet. -/
theorem get_upsertUser (email : String) {create : User} (hrow : w.users.get id = some row) :
    (w.upsertUser email create f).2.users.get id = some row ∨
      row.email = email ∧ (w.upsertUser email create f).2.users.get id = some (f row) := by
  unfold World.upsertUser
  cases hfound : w.userByEmail email with
  | none =>
    have hne : id ≠ w.users.fresh := by
      rintro rfl
      rw [Table.get_fresh] at hrow
      cases hrow
    left
    simp [hne, hrow]
  | some found =>
    obtain ⟨other, old⟩ := found
    obtain ⟨hother, hemail⟩ := Table.findFirst_some hfound
    by_cases hid : id = other
    · subst hid
      rw [hrow] at hother
      cases hother
      right
      exact ⟨of_decide_eq_true hemail, by simp⟩
    · left
      simp [hid, hrow]

theorem new_upsertUser {create : User} (hnone : w.users.get id = none)
    (hrow : (w.upsertUser email create f).2.users.get id = some row) :
    row = create ∧ w.userByEmail email = none := by
  unfold World.upsertUser at hrow
  cases hfound : w.userByEmail email with
  | none =>
    rw [hfound] at hrow
    simp only [Table.get_set] at hrow
    split at hrow
    · exact ⟨(Option.some.inj hrow).symm, rfl⟩
    · rw [hnone] at hrow
      cases hrow
  | some found =>
    obtain ⟨other, old⟩ := found
    obtain ⟨hother, -⟩ := Table.findFirst_some hfound
    rw [hfound] at hrow
    simp only [Table.get_set] at hrow
    split at hrow
    next hid =>
      rw [hid, hother] at hnone
      cases hnone
    next =>
      rw [hnone] at hrow
      cases hrow

theorem get_erase (user : UserId) (hrow : w.users.get id = some row) :
    (w.erase user).2.users.get id = some row ∨
    id = user ∧ (w.erase user).2.users.get id = some (World.erased id w.now row) := by
  unfold World.erase
  cases hfound : w.users.get user with
  | none => exact Or.inl hrow
  | some old =>
    dsimp only
    split
    · exact Or.inl hrow
    · by_cases hid : id = user
      · subst hid
        rw [hrow] at hfound
        cases hfound
        exact Or.inr ⟨rfl, by simp⟩
      · left
        simp [hid, hrow]

theorem new_erase (hnone : w.users.get id = none) : (w.erase user).2.users.get id = none := by
  unfold World.erase
  cases hfound : w.users.get user with
  | none => exact hnone
  | some old =>
    dsimp only
    split
    · exact hnone
    · have hid : id ≠ user := by
        rintro rfl
        rw [hnone] at hfound
        cases hfound
      simp [hid, hnone]

theorem users_createToken {token : VerificationToken} :
    (w.createToken token).2.users = w.users := by
  unfold World.createToken
  split <;> rfl

theorem users_consumeToken {token : TokenId} : (w.consumeToken token).2.users = w.users := by
  unfold World.consumeToken
  split <;> rfl

theorem users_upsertAuthAccount {provider account : String} :
    (w.upsertAuthAccount provider account user).users = w.users := by
  unfold World.upsertAuthAccount
  split <;> rfl

theorem users_incrWithTtl {key : String} {ttlSeconds : Nat} :
    (w.incrWithTtl key ttlSeconds).users = w.users := by
  unfold World.incrWithTtl
  split <;> rfl

end Rows

section Statements

variable {w : World} {id : UserId} {row row' : User} {s : Stmt} {c : Fate}

/-- The statement writes an account of this address that is there. -/
def Stmt.enrols (email : String) : Stmt → Bool
  | .upsertRegistered address _ _ | .upsertSignedIn address _ => address = email
  | _ => false

/-- The statement writes the password of the user. -/
def Stmt.rekeys (id : UserId) (email : String) : Stmt → Prop
  | .setPassword user _ => user = id
  | .upsertRegistered address _ _ => address = email
  | _ => False

/-- What a statement makes of the row of a user. -/
inductive UserEffect (id : UserId) (row : User) : Stmt → User → Prop
  | stands {s : Stmt} {row' : User} (role : row'.role = row.role)
      (banned : row'.bannedAt = row.bannedAt) (deleted : row'.deletedAt = row.deletedAt)
      (email : row'.email = row.email)
      (password : s.rekeys id row.email ∨ row'.passwordHash = row.passwordHash) :
      UserEffect id row s row'
  | enrolled {s : Stmt} {row' : User} (stmt : s.enrols row.email) (role : row'.role = row.role)
      (banned : row'.bannedAt = row.bannedAt) (deleted : row'.deletedAt = none)
      (email : row'.email = row.email)
      (password : s.rekeys id row.email ∨ row'.passwordHash = row.passwordHash) :
      UserEffect id row s row'
  | ban (at_ : Nat) : UserEffect id row (.ban id) { row with bannedAt := some at_ }
  | unban : UserEffect id row (.unban id) { row with bannedAt := none }
  | setRole (role : Role) : UserEffect id row (.setRole id role) { row with role := role }
  | erase (at_ : Nat) : UserEffect id row (.erase id) (World.erased id at_ row)

theorem UserEffect.same : UserEffect id row s row := .stands rfl rfl rfl rfl (Or.inr rfl)

/-- A statement about other tables. -/
theorem spared_effect {w' : World} (hrow : w.users.get id = some row)
    (hw : w'.users = w.users) :
    ∃ row', w'.users.get id = some row' ∧ UserEffect id row s row' := by
  rw [hw]
  exact ⟨row, hrow, .same⟩

/-- An update of one row. -/
theorem updated_effect {user : UserId} {f : User → User} (hrow : w.users.get id = some row)
    (hf : id = user → UserEffect id row s (f row)) :
    ∃ row', (w.updateUser user f).2.users.get id = some row' ∧ UserEffect id row s row' := by
  rw [get_updateUser]
  by_cases hid : id = user
  · rw [if_pos hid, ← hid, hrow]
    exact ⟨f row, rfl, hf hid⟩
  · rw [if_neg hid]
    exact ⟨row, hrow, .same⟩

theorem perform_users (s : Stmt) (hrow : w.users.get id = some row) :
    ∃ row', (w.perform s).2.users.get id = some row' ∧ UserEffect id row s row' := by
  cases s with
  | upsertRegistered email passwordHash name =>
    obtain hsame | ⟨rfl, hwritten⟩ := get_upsertUser email hrow
    · exact ⟨row, hsame, .same⟩
    · exact ⟨_, hwritten, .enrolled (decide_eq_true rfl) rfl rfl rfl rfl (Or.inl rfl)⟩
  | upsertSignedIn email name =>
    obtain hsame | ⟨rfl, hwritten⟩ := get_upsertUser email hrow
    · exact ⟨row, hsame, .same⟩
    · exact ⟨_, hwritten, .enrolled (decide_eq_true rfl) rfl rfl rfl rfl (Or.inr rfl)⟩
  | upsertAuthAccount provider account user => exact spared_effect hrow users_upsertAuthAccount
  | createToken token => exact spared_effect hrow users_createToken
  | consumeToken token => exact spared_effect hrow users_consumeToken
  | verifyEmail user =>
    exact updated_effect hrow fun _ => .stands rfl rfl rfl rfl (Or.inr rfl)
  | setPassword user passwordHash =>
    exact updated_effect hrow fun hid => .stands rfl rfl rfl rfl (Or.inl hid.symm)
  | updateProfile user name phone =>
    exact updated_effect hrow fun _ => .stands rfl rfl rfl rfl (Or.inr rfl)
  | ban user => exact updated_effect hrow fun hid => hid ▸ .ban _
  | unban user => exact updated_effect hrow fun hid => hid ▸ .unban
  | setRole user role => exact updated_effect hrow fun hid => hid ▸ .setRole role
  | erase user =>
    obtain hsame | ⟨rfl, hwritten⟩ := get_erase user hrow
    · exact ⟨row, hsame, .same⟩
    · exact ⟨_, hwritten, .erase _⟩
  | logAudit entry => exact ⟨row, hrow, .same⟩
  | incrWithTtl key ttlSeconds => exact spared_effect hrow users_incrWithTtl
  | del key => exact ⟨row, hrow, .same⟩

/-- A row that was not there is that of a new account, under an address nobody had. -/
theorem perform_new (s : Stmt) (hnone : w.users.get id = none)
    (hrow : (w.perform s).2.users.get id = some row) :
    row.role = .user ∧ w.userByEmail row.email = none := by
  have hupdated {user : UserId} {f : User → User}
      (h : (w.updateUser user f).2.users.get id = some row) : False := by
    rw [get_updateUser] at h
    split at h
    next hid =>
      rw [← hid, hnone] at h
      cases h
    next =>
      rw [hnone] at h
      cases h
  have hsame {w' : World} (hw : w'.users = w.users) (h : w'.users.get id = some row) : False := by
    rw [hw, hnone] at h
    cases h
  cases s with
  | upsertRegistered email passwordHash name =>
    obtain ⟨rfl, hnobody⟩ := new_upsertUser hnone hrow
    exact ⟨rfl, hnobody⟩
  | upsertSignedIn email name =>
    obtain ⟨rfl, hnobody⟩ := new_upsertUser hnone hrow
    exact ⟨rfl, hnobody⟩
  | upsertAuthAccount provider account user => exact (hsame users_upsertAuthAccount hrow).elim
  | createToken token => exact (hsame users_createToken hrow).elim
  | consumeToken token => exact (hsame users_consumeToken hrow).elim
  | verifyEmail user => exact (hupdated hrow).elim
  | setPassword user passwordHash => exact (hupdated hrow).elim
  | updateProfile user name phone => exact (hupdated hrow).elim
  | ban user => exact (hupdated hrow).elim
  | unban user => exact (hupdated hrow).elim
  | setRole user role => exact (hupdated hrow).elim
  | erase user =>
    have hstill : (w.erase user).2.users.get id = none := new_erase hnone
    rw [World.perform, hstill] at hrow
    cases hrow
  | logAudit entry => exact (hsame rfl hrow).elim
  | incrWithTtl key ttlSeconds => exact (hsame users_incrWithTtl hrow).elim
  | del key => exact (hsame rfl hrow).elim

theorem exec_users (s : Stmt) (c : Fate) (hrow : w.users.get id = some row) :
    ∃ row', (w.exec s c).2.users.get id = some row' ∧ UserEffect id row s row' := by
  cases c with
  | fails => exact ⟨row, hrow, .same⟩
  | lost => exact perform_users s hrow
  | done => exact perform_users s hrow
  | elapse milliseconds => exact perform_users s hrow

theorem exec_new (s : Stmt) (c : Fate) (hnone : w.users.get id = none)
    (hrow : (w.exec s c).2.users.get id = some row) :
    row.role = .user ∧ w.userByEmail row.email = none := by
  cases c with
  | fails =>
    have hsame : w.users.get id = some row := hrow
    rw [hnone] at hsame
    cases hsame
  | lost => exact perform_new s hnone hrow
  | done => exact perform_new s hnone hrow
  | elapse milliseconds => exact perform_new s hnone hrow

/-- Nobody but the user has the address. -/
def Sole (email : String) (id : UserId) (w : World) : Prop :=
  ∀ other row, w.users.get other = some row → row.email = email → other = id

/-- An erasure that takes an address leaves it to whoever has it. -/
theorem perform_erase_taken {user : UserId} (hrow : w.users.get id = some row) (hne : user ≠ id)
    (hemail : row.email = tombstone user) : (w.perform (.erase user)).2 = w := by
  have htaken :
      w.users.any (fun other row => other ≠ user ∧ row.email = tombstone user) = true := by
    rw [Table.any_eq_true]
    exact ⟨id, row, hrow, decide_eq_true ⟨hne.symm, hemail⟩⟩
  show (w.erase user).2 = w
  unfold World.erase
  cases w.users.get user with
  | none => rfl
  | some old =>
    dsimp only
    rw [if_pos htaken]

/-- An address of one user stays so, as long as the user keeps it. -/
theorem sole_perform {s : Stmt} (hrow : w.users.get id = some row) (hsole : Sole row.email id w) :
    Sole row.email id (w.perform s).2 := by
  intro other row' hrow' hemail
  cases hbefore : w.users.get other with
  | none =>
    have hnobody := (perform_new s hbefore hrow').2
    have hfree := Table.findFirst_none.mp hnobody id row hrow
    exact absurd hemail.symm (of_decide_eq_false hfree)
  | some old =>
    obtain ⟨row₁, hrow₁, heffect⟩ := perform_users s hbefore
    rw [hrow₁] at hrow'
    cases hrow'
    have hold := hsole other old hbefore
    cases heffect with
    | stands role banned deleted email password => exact hold (email.symm.trans hemail)
    | enrolled stmt role banned deleted email password => exact hold (email.symm.trans hemail)
    | ban at_ => exact hold hemail
    | unban => exact hold hemail
    | setRole role => exact hold hemail
    | erase at_ =>
      by_contra hne
      have hsame := perform_erase_taken hrow hne hemail.symm
      rw [hsame, hbefore] at hrow₁
      rw [← Option.some.inj hrow₁] at hemail
      exact hne (hold hemail)

theorem sole_exec {s : Stmt} {c : Fate} (hrow : w.users.get id = some row)
    (hsole : Sole row.email id w) : Sole row.email id (w.exec s c).2 := by
  cases c with
  | fails => exact hsole
  | lost => exact sole_perform hrow hsole
  | done => exact sole_perform hrow hsole
  | elapse milliseconds => exact sole_perform hrow hsole

theorem users_env (c : Fate) : (machine.env c w).users = w.users := by
  cases c <;> rfl

end Statements

section Footprints

variable {K : Library} {A : Stmt → Prop}

/-- A statement that changes neither who may enter nor what for. -/
def Stmt.clerical : Stmt → Bool
  | .upsertRegistered _ _ _ | .upsertSignedIn _ _ | .ban _ | .unban _ | .setRole _ _
  | .erase _ | .incrWithTtl _ _ | .del _ => false
  | _ => true

/-- A statement about the failed logins. -/
def Stmt.counts : Stmt → Bool
  | .incrWithTtl _ _ | .del _ => true
  | _ => false

/-- The statements of a request: clerical ones, and the one it is for. -/
inductive Request.Issues (K : Library) : Request → Stmt → Prop
  | clerical {r : Request} {s : Stmt} (h : s.clerical) : Issues K r s
  | upsertRegistered (input : Registration) (gdprConsent : Bool) (salt rawToken : String)
      (passwordHash name : Option String) : Issues K (.register input gdprConsent salt rawToken)
        (.upsertRegistered (K.normalize input.email) passwordHash name)
  | upsertSignedIn (input : SignIn) (internalKey : Bool) (name : Option String) :
      Issues K (.oauthUpsert input internalKey) (.upsertSignedIn (K.normalize input.email) name)
  | counts (email password : String) {s : Stmt} (h : s.counts) : Issues K (.login email password) s
  | eraseMe (bearer : Bearer) (id : UserId) : Issues K (.eraseMe bearer) (.erase id)
  | ban (bearer : Bearer) (id : UserId) : Issues K (.ban bearer id) (.ban id)
  | unban (bearer : Bearer) (id : UserId) : Issues K (.unban bearer id) (.unban id)
  | setRole (bearer : Bearer) (id : UserId) (role : Role) :
      Issues K (.changeRole bearer id role) (.setRole id role)
  | erase (bearer : Bearer) (id : UserId) : Issues K (.erase bearer id) (.erase id)

theorem only_answered {α : Type} {p : Act α} (hp : p.Only A) : (answered p).Only A :=
  Only.seq hp fun _ => only_pure ()

/-- A statement, and what follows it. -/
theorem only_first {α : Type} {s : Stmt} {k : s.Resp → Act α} (h : A s)
    (hk : ∀ a, (k a).Only A) : (Prog.perform s >>= k).Only A :=
  Only.seq ((only_perform s).mpr h) hk

theorem only_createVerificationToken {user : Option UserId} {identifier rawToken : String}
    {purpose : Purpose} {ttlMinutes : Nat} :
    (createVerificationToken K user identifier purpose ttlMinutes rawToken).Only (·.clerical) := by
  apply Only.seq (only_fetch _ _)
  intro now
  apply only_first
  · rfl
  · exact fun _ => only_pure _

theorem only_consumeToken {rawToken : String} {purpose : Purpose} :
    (consumeToken K rawToken purpose).Only (·.clerical) := by
  apply Only.seq (only_fetch _ _)
  intro found
  cases found with
  | none => exact only_throw _
  | some found =>
    apply Only.seq (only_fetch _ _)
    intro now
    apply Only.ite (fun _ => only_throw _)
    intro _
    apply only_first
    · rfl
    · exact fun _ => only_pure _

theorem only_recordLoginFailure {email : String} :
    (recordLoginFailure K email).Only (·.counts) := by
  apply Only.quietly
  rw [only_perform]
  rfl

theorem only_assertLoginNotLocked {email : String} :
    (assertLoginNotLocked K email).Only (·.counts) := by
  apply Only.seq (only_fetch _ _).attempt
  intro raw
  cases raw with
  | error e => exact only_pure _
  | ok found =>
    cases found with
    | none => exact only_pure _
    | some failures => exact Only.ite (fun _ => only_throw _) fun _ => only_pure _

theorem only_validateCredentials {email password : String} :
    (validateCredentials K email password).Only (·.counts) := by
  have hrefused : (do
      recordLoginFailure K (K.normalize email)
      throw invalidCredentials : Act IssuedToken).Only (·.counts) :=
    Only.seq only_recordLoginFailure fun _ => only_throw _
  apply Only.seq only_assertLoginNotLocked
  intro _
  apply Only.seq (only_fetch _ _)
  intro found
  split
  · exact hrefused
  · apply Only.ite (fun _ => hrefused)
    intro _
    apply Only.ite (fun _ => only_throw _)
    intro _
    apply Only.ite (fun _ => hrefused)
    intro _
    have hdel : (Prog.perform (Stmt.del (loginFailureKey K (K.normalize email))) :
        Act Unit).Only (·.counts) := (only_perform _).mpr rfl
    exact Only.seq hdel.quietly fun _ => only_pure _

theorem only_letter {email rawToken : String} {purpose : Purpose} {ttlMinutes : Nat}
    {skip : User → Prop} [DecidablePred skip] :
    (do
      match ← fetch (.email (K.normalize email)) (·.userByEmail (K.normalize email)) with
      | none => pure ()
      | some (id, user) =>
        if skip user then pure ()
        else do
          let _ ← createVerificationToken K (some id) user.email purpose ttlMinutes rawToken
          pure () : Act Unit).Only (·.clerical) := by
  apply Only.seq (only_fetch _ _)
  intro found
  cases found with
  | none => exact only_pure _
  | some found =>
    apply Only.ite (fun _ => only_pure _)
    exact fun _ => Only.seq only_createVerificationToken fun _ => only_pure _

theorem only_canActivate {bearer : Bearer} : (canActivate bearer).Only A := by
  cases bearer with
  | missing => exact only_throw _
  | invalid => exact only_throw _
  | valid payload =>
    apply Only.seq (only_fetch _ _)
    intro found
    cases found with
    | none => exact only_throw _
    | some user => exact only_pure _

theorem only_asUser {bearer : Bearer} {handler : AuthUser → Act Unit}
    (hhandler : ∀ user, (handler user).Only A) : (asUser bearer handler).Only A :=
  Only.seq only_canActivate hhandler

theorem only_asAdmin {bearer : Bearer} {handler : AuthUser → Act Unit}
    (hhandler : ∀ user, (handler user).Only A) : (asAdmin bearer handler).Only A := by
  apply Only.seq only_canActivate
  intro actor
  exact Only.seq (Only.ite (fun _ => only_pure _) fun _ => only_throw _) fun _ => hhandler actor

theorem only_require {id : UserId} : (require id).Only A := by
  apply Only.seq (only_fetch _ _)
  intro found
  cases found with
  | none => exact only_throw _
  | some user => exact only_pure _

theorem only_refuse {α : Type} {denial : RoleDenial} : (refuse denial : Act α).Only A := by
  cases denial <;> exact only_throw _

theorem only_assertNotLastSuperAdmin {user : User} : (assertNotLastSuperAdmin user).Only A := by
  apply Only.when
  intro _
  apply Only.seq (only_fetch _ _)
  exact fun _ => Only.ite (fun _ => only_throw _) fun _ => only_pure _

theorem only_assertNotLastAdmin {user : User} {role : Role} :
    (assertNotLastAdmin user role).Only A := by
  apply Only.when
  intro _
  apply Only.seq (only_fetch _ _)
  exact fun _ => Only.ite (fun _ => only_throw _) fun _ => only_pure _

theorem only_log {actor : AuthUser} {action : String} {id : UserId}
    (h : ∀ entry, A (.logAudit entry)) : (log actor action id).Only A :=
  ((only_perform _).mpr (h _)).quietly

theorem only_audited {action : String} {id : UserId} {work : AuthUser → Act User}
    {actor : AuthUser} (h : ∀ entry, A (.logAudit entry)) (hwork : (work actor).Only A) :
    (audited action id work actor).Only A := by
  apply Only.seq only_require
  intro _
  exact Only.seq hwork fun _ => only_log h

theorem only_ban {id : UserId} {actor : AuthUser} (h : A (.ban id)) : (ban id actor).Only A := by
  apply Only.ite (fun _ => only_throw _)
  intro _
  apply Only.seq only_require
  intro user
  split
  · exact only_refuse
  · exact Only.ite (fun _ => only_pure _) fun _ => (only_perform _).mpr h

theorem only_unban {id : UserId} {actor : AuthUser} (h : A (.unban id)) :
    (unban id actor).Only A := by
  apply Only.seq only_require
  intro user
  split
  · exact only_refuse
  · exact (only_perform _).mpr h

theorem only_changeRole {id : UserId} {role : Role} {actor : AuthUser} (h : A (.setRole id role)) :
    (changeRole id role actor).Only A := by
  apply Only.seq only_require
  intro user
  split
  · exact only_refuse
  · apply Only.ite (fun _ => only_pure _)
    intro _
    apply Only.seq only_assertNotLastSuperAdmin
    intro _
    apply Only.seq only_assertNotLastAdmin
    exact fun _ => (only_perform _).mpr h

theorem only_erase {id : UserId} {actor : AuthUser} (h : A (.erase id)) :
    (erase id actor).Only A := by
  apply Only.ite (fun _ => only_throw _)
  intro _
  apply Only.ite (fun _ => only_throw _)
  intro _
  apply Only.seq only_require
  intro user
  apply Only.ite (fun _ => only_throw _)
  intro _
  apply Only.seq only_assertNotLastSuperAdmin
  intro _
  exact Only.seq ((only_perform _).mpr h) fun _ => only_require

theorem only_getMe {id : UserId} : (getMe id).Only A := by
  apply Only.seq (only_fetch _ _)
  intro found
  cases found with
  | none => exact only_throw _
  | some user =>
    apply Only.seq (only_fetch _ _)
    exact fun _ => Only.ite (fun _ => only_throw _) fun _ => only_pure _

theorem only_request (r : Request) : (r.prog K).Only (r.Issues K) := by
  have hclerical {p : Act Unit} (hp : p.Only (·.clerical)) : p.Only (r.Issues K) :=
    hp.mono fun _ => .clerical
  cases r with
  | register input gdprConsent salt rawToken =>
    apply Only.ite _ (fun _ => only_throw _)
    intro _
    apply only_answered
    apply Only.seq (only_fetch _ _)
    intro existing
    apply Only.ite (fun _ => only_throw _)
    intro _
    apply only_first
    · exact .upsertRegistered _ _ _ _ _ _
    intro enrolled
    exact Only.seq (only_createVerificationToken.mono fun _ => .clerical) fun _ => only_pure _
  | login email password =>
    exact (only_answered only_validateCredentials).mono fun _ => .counts _ _
  | requestReset email rawToken => exact hclerical only_letter
  | confirmReset rawToken newPassword salt =>
    apply hclerical
    apply Only.seq only_consumeToken
    intro record
    split
    · exact only_throw _
    · exact (only_perform _).mpr rfl
  | resendVerification email rawToken => exact hclerical only_letter
  | verifyEmail rawToken =>
    apply hclerical
    apply Only.seq only_consumeToken
    intro record
    split
    · exact (only_perform _).mpr rfl
    · exact only_pure _
  | oauthUpsert input internalKey =>
    apply Only.ite _ (fun _ => only_throw _)
    intro _
    apply only_answered
    apply only_first
    · exact .upsertSignedIn _ _ _
    intro enrolled
    apply only_first
    · exact .clerical rfl
    · exact fun _ => only_pure _
  | updateMe bearer name phone =>
    apply only_asUser
    intro user
    apply only_answered
    apply only_first
    · exact .clerical rfl
    · exact fun _ => only_getMe
  | eraseMe bearer => exact only_asUser fun user => (only_perform _).mpr (.eraseMe _ user.id)
  | ban bearer id =>
    exact only_asAdmin fun _ => only_audited (fun _ => .clerical rfl) (only_ban (.ban _ _))
  | unban bearer id =>
    exact only_asAdmin fun _ => only_audited (fun _ => .clerical rfl) (only_unban (.unban _ _))
  | changeRole bearer id role =>
    exact only_asAdmin fun _ =>
      only_audited (fun _ => .clerical rfl) (only_changeRole (.setRole _ _ _))
  | erase bearer id =>
    apply only_asAdmin
    intro actor
    exact Only.seq (only_erase (.erase _ _)) fun _ => only_log fun _ => .clerical rfl

end Footprints

section Entering

variable {w : World} {id : UserId} {user : AuthUser} {bearer : Bearer}

/-- Who is let in is the user of the row, which is neither deleted nor banned. -/
theorem loadUser_some : w.loadUser id = some user ↔ ∃ row, w.users.get id = some row ∧
    row.deletedAt = none ∧ row.bannedAt = none ∧ toAuthUser id row = user := by
  unfold World.loadUser
  simp only [Option.map_eq_some_iff, Option.filter_eq_some_iff, Bool.and_eq_true,
    Option.isNone_iff_eq_none, and_assoc]

/-- Behind the guard is who was let in, and a request that names nobody fails. -/
theorem flow_canActivate {φ : Type} {D : Discipline Site Stmt World Fate φ} {A : φ → Prop}
    {F : Option AuthUser → φ → Prop} {B : AuthUser → φ → Prop} {E : Err → φ → Prop}
    (hrefused : ∀ e x, A x → E e x)
    (hread : ∀ payload, bearer = .valid payload →
      D.Flow machine A (fetch (.actor payload.sub) (·.loadUser payload.sub)) F E)
    (hnone : ∀ e x, F none x → E e x) (hsome : ∀ user x, F (some user) x → B user x) :
    D.Flow machine A (canActivate bearer) B E := by
  cases bearer with
  | missing => exact .throw (hrefused _)
  | invalid => exact .throw (hrefused _)
  | valid payload =>
    apply (hread payload rfl).seq
    intro found
    cases found with
    | none => exact .throw (hnone _)
    | some user => exact .pure (hsome user)

end Entering

end CarSalePro.Accounts
