import CarSalePro.Accounts.Effects
import CarSalePro.Interleave.Heeding

namespace CarSalePro.Accounts

open Store Interleave Prog

section Tokens

variable {w : World} {k : TokenId} {token : VerificationToken} {user : UserId} {f : User → User}

/-- Where a token is from: it was there, perhaps not stamped yet, or it is the one created. -/
inductive TokenOrigin (w : World) (s : Stmt) (k : TokenId) (token : VerificationToken) : Prop
  | stood (before : VerificationToken) (row : w.tokens.get k = some before)
      (user : token.userId = before.userId) (purpose : token.purpose = before.purpose)
      (expiry : token.expiresAt = before.expiresAt)
      (consumed : before.consumedAt.isSome → token.consumedAt.isSome)
  | created (stmt : s = .createToken token)

/-- The statement touches neither the tokens nor the clock. -/
def TokensKept (w w' : World) : Prop := w'.tokens = w.tokens ∧ w'.now = w.now

theorem kept_updateUser : TokensKept w (w.updateUser user f).2 := by
  unfold World.updateUser
  split <;> exact ⟨rfl, rfl⟩

theorem kept_upsertUser {address : String} {create : User} :
    TokensKept w (w.upsertUser address create f).2 := by
  unfold World.upsertUser
  split <;> exact ⟨rfl, rfl⟩

theorem perform_tokens (s : Stmt) : (w.perform s).2.now = w.now ∧
    ∀ k token, (w.perform s).2.tokens.get k = some token → TokenOrigin w s k token := by
  have hstood {k : TokenId} {token : VerificationToken} (hrow : w.tokens.get k = some token) :
      TokenOrigin w s k token := .stood token hrow rfl rfl rfl fun h => h
  have hkept {w' : World} (h : TokensKept w w') : w'.now = w.now ∧
      ∀ k token, w'.tokens.get k = some token → TokenOrigin w s k token := by
    refine ⟨h.2, fun k token hrow => ?_⟩
    rw [h.1] at hrow
    exact hstood hrow
  cases s with
  | upsertRegistered address passwordHash name => exact hkept kept_upsertUser
  | upsertSignedIn address name => exact hkept kept_upsertUser
  | upsertAuthAccount provider account user =>
    have hsame : TokensKept w (w.upsertAuthAccount provider account user) := by
      unfold World.upsertAuthAccount
      split <;> exact ⟨rfl, rfl⟩
    exact hkept hsame
  | createToken new =>
    show (w.createToken new).2.now = w.now ∧ ∀ k token,
      (w.createToken new).2.tokens.get k = some token → TokenOrigin w (.createToken new) k token
    unfold World.createToken
    cases w.tokenByHash new.tokenHash with
    | some found => exact ⟨rfl, fun k token hrow => hstood hrow⟩
    | none =>
      refine ⟨rfl, fun k token hrow => ?_⟩
      simp only [Table.get_set] at hrow
      split at hrow
      · cases hrow
        exact .created rfl
      · exact hstood hrow
  | consumeToken id =>
    show (w.consumeToken id).2.now = w.now ∧ ∀ k token,
      (w.consumeToken id).2.tokens.get k = some token → TokenOrigin w (.consumeToken id) k token
    unfold World.consumeToken
    cases hfound : w.tokens.get id with
    | none => exact ⟨rfl, fun k token hrow => hstood hrow⟩
    | some before =>
      refine ⟨rfl, fun k token hrow => ?_⟩
      simp only [Table.get_set] at hrow
      split at hrow
      next hk =>
        cases hrow
        exact .stood before (hk ▸ hfound) rfl rfl rfl fun _ => rfl
      next => exact hstood hrow
  | erase id =>
    show (w.erase id).2.now = w.now ∧ ∀ k token,
      (w.erase id).2.tokens.get k = some token → TokenOrigin w (.erase id) k token
    unfold World.erase
    cases w.users.get id with
    | none => exact ⟨rfl, fun k token hrow => hstood hrow⟩
    | some row =>
      dsimp only
      split
      · exact ⟨rfl, fun k token hrow => hstood hrow⟩
      · refine ⟨rfl, fun k token hrow => ?_⟩
        rw [Table.get_deleteMany] at hrow
        exact hstood (Option.filter_eq_some_iff.mp hrow).1
  | logAudit entry => exact hkept ⟨rfl, rfl⟩
  | incrWithTtl key ttlSeconds =>
    have hsame : TokensKept w (w.incrWithTtl key ttlSeconds) := by
      unfold World.incrWithTtl
      split <;> exact ⟨rfl, rfl⟩
    exact hkept hsame
  | del key => exact hkept ⟨rfl, rfl⟩
  | verifyEmail user => exact hkept kept_updateUser
  | setPassword user passwordHash => exact hkept kept_updateUser
  | updateProfile user name phone => exact hkept kept_updateUser
  | ban user => exact hkept kept_updateUser
  | unban user => exact hkept kept_updateUser
  | setRole user role => exact hkept kept_updateUser

theorem exec_tokens (s : Stmt) (c : Fate) : (w.exec s c).2.now = w.now ∧
    ∀ k token, (w.exec s c).2.tokens.get k = some token → TokenOrigin w s k token := by
  cases c with
  | fails => exact ⟨rfl, fun k token hrow => .stood token hrow rfl rfl rfl fun h => h⟩
  | lost => exact perform_tokens s
  | done => exact perform_tokens s
  | elapse milliseconds => exact perform_tokens s

end Tokens

section Keyless

variable {K : Library} {w : World} {u : UserId} {email : String} {password : Option String}
  {start : Nat}

/-- The user is there, with this address and password, and no reset link of the user's works. -/
structure Keyless (u : UserId) (email : String) (password : Option String) (start : Nat)
    (w : World) : Prop where
  row : ∃ row, w.users.get u = some row ∧ row.email = email ∧ row.deletedAt = none ∧
    row.passwordHash = password
  sole : Sole email u w
  spent : ∀ k token, w.tokens.get k = some token → token.userId = some u →
    token.purpose = .passwordReset → token.consumedAt.isSome ∨ token.expiresAt < start
  later : start ≤ w.now

/-- The statement gives the user neither a password nor a reset link. -/
def Stmt.Withholds (u : UserId) (email : String) : Stmt → Prop
  | .erase id => id ≠ u
  | .createToken token => token.userId = some u → token.purpose ≠ .passwordReset
  | s => ¬ s.rekeys u email

theorem Stmt.Withholds.keeps {s : Stmt} (h : s.Withholds u email) : ¬ s.rekeys u email := by
  cases s with
  | erase id => exact fun hrekeys => hrekeys
  | createToken token => exact fun hrekeys => hrekeys
  | _ => exact h

theorem keyless_exec {s : Stmt} {c : Fate} (hs : s.Withholds u email)
    (h : Keyless u email password start w) :
    Keyless u email password start (machine.exec s c w).2 := by
  obtain ⟨⟨row, hrow, hemail, hlive, hpassword⟩, hsole, hspent, hlater⟩ := h
  obtain ⟨hnow, horigin⟩ := exec_tokens (w := w) s c
  refine ⟨?_, ?_, ?_, ?_⟩
  · obtain ⟨row', hrow', heffect⟩ := exec_users s c hrow
    refine ⟨row', hrow', ?_⟩
    rw [← hemail] at hs
    cases heffect with
    | stands role banned deleted address rekeyed =>
      have hsame := rekeyed.resolve_left hs.keeps
      exact ⟨address.trans hemail, deleted.trans hlive, hsame.trans hpassword⟩
    | enrolled stmt role banned deleted address rekeyed =>
      have hsame := rekeyed.resolve_left hs.keeps
      exact ⟨address.trans hemail, deleted, hsame.trans hpassword⟩
    | ban at_ => exact ⟨hemail, hlive, hpassword⟩
    | unban => exact ⟨hemail, hlive, hpassword⟩
    | setRole role => exact ⟨hemail, hlive, hpassword⟩
    | erase at_ => exact absurd rfl hs
  · have hkept := sole_exec (s := s) (c := c) hrow (hemail ▸ hsole)
    rw [hemail] at hkept
    exact hkept
  · intro k token htoken huser hpurpose
    cases horigin k token htoken with
    | stood before hbefore user purpose expiry consumed =>
      obtain hconsumed | hexpired := hspent k before hbefore (user.symm.trans huser)
        (purpose.symm.trans hpurpose)
      · exact Or.inl (consumed hconsumed)
      · exact Or.inr (expiry ▸ hexpired)
    | created stmt =>
      subst stmt
      exact absurd hpurpose (hs huser)
  · have hsame : (machine.exec s c w).2.now = w.now := hnow
    omega

theorem keyless_env {c : Fate} (h : Keyless u email password start w) :
    Keyless u email password start (machine.env c w) := by
  obtain ⟨hrow, hsole, hspent, hlater⟩ := h
  cases c with
  | elapse milliseconds =>
    have hnow : (machine.env (.elapse milliseconds) w).now = w.now + milliseconds := rfl
    exact ⟨hrow, hsole, hspent, by omega⟩
  | done => exact ⟨hrow, hsole, hspent, hlater⟩
  | fails => exact ⟨hrow, hsole, hspent, hlater⟩
  | lost => exact ⟨hrow, hsole, hspent, hlater⟩

/-- The programs that do not change the password of a user without a reset link. -/
abbrev Spares {α : Type} (u : UserId) (email : String) (password : Option String) (start : Nat)
    (p : Act α) (Q : α → Prop) : Prop :=
  Heeds machine (Keyless u email password start) (Stmt.Withholds u email) p Q

theorem withholds_counts {s : Stmt} (h : s.counts) : s.Withholds u email := by
  cases s with
  | incrWithTtl key ttlSeconds => exact fun hrekeys => hrekeys
  | del key => exact fun hrekeys => hrekeys
  | _ => cases h

theorem spares_createVerificationToken {user : Option UserId} {identifier rawToken : String}
    {purpose : Purpose} {ttlMinutes : Nat} (h : user = some u → purpose ≠ .passwordReset) :
    Spares u email password start
      (createVerificationToken K user identifier purpose ttlMinutes rawToken) fun _ => True := by
  have hclock : Spares u email password start (fetch .clock (·.now)) fun _ => True :=
    Heeds.fetch fun _ _ => trivial
  apply Heeds.seq hclock
  intro now _
  apply Heeds.seq
  · exact Heeds.perform h
  · exact fun _ _ => Heeds.pure trivial

/-- A record that can be used is no reset link of the user. -/
theorem spares_consumeToken {rawToken : String} {purpose : Purpose} :
    Spares u email password start (consumeToken K rawToken purpose)
      fun record => record.userId = some u → purpose ≠ .passwordReset := by
  have hread : Spares u email password start
      (fetch (.token (K.sha256 rawToken)) (·.tokenByHash (K.sha256 rawToken)))
      fun found => ∀ id record, found = some (id, record) → record.userId = some u →
        record.purpose = .passwordReset → record.consumedAt.isSome ∨ record.expiresAt < start := by
    apply Heeds.fetch
    intro w hw id record hfound
    exact hw.spent id record (Table.findFirst_some hfound).1
  apply Heeds.seq hread
  intro found hfound
  cases found with
  | none => exact Heeds.throw
  | some found =>
    obtain ⟨id, record⟩ := found
    have hclock : Spares u email password start (fetch .clock (·.now)) fun now => start ≤ now :=
      Heeds.fetch fun _ hw => hw.later
    apply Heeds.seq hclock
    intro now hnow
    apply Heeds.ite (fun _ => Heeds.throw)
    intro husable
    apply Heeds.seq
    · exact Heeds.perform fun hrekeys => hrekeys
    · intro _ _
      apply Heeds.pure
      intro huser hreset
      have hpurpose : record.purpose = purpose := by
        by_contra hne
        exact husable (Or.inl hne)
      obtain hconsumed | hexpired := hfound id record rfl huser (hpurpose.trans hreset)
      · exact husable (Or.inr (Or.inl hconsumed))
      · exact husable (Or.inr (Or.inr (by omega)))

theorem spares_letter {address rawToken : String} {purpose : Purpose} {ttlMinutes : Nat}
    {skip : User → Prop} [DecidablePred skip]
    (h : K.normalize address = email → purpose ≠ .passwordReset) :
    Spares u email password start (do
      match ← fetch (.email (K.normalize address)) (·.userByEmail (K.normalize address)) with
      | none => pure ()
      | some (id, user) =>
        if skip user then pure ()
        else do
          let _ ← createVerificationToken K (some id) user.email purpose ttlMinutes rawToken
          pure () : Act Unit) fun _ => True := by
  have hread : Spares u email password start
      (fetch (.email (K.normalize address)) (·.userByEmail (K.normalize address)))
      fun found => ∀ user, found = some (u, user) → K.normalize address = email := by
    apply Heeds.fetch
    intro w hw user hfound
    obtain ⟨hrow, haddress⟩ := Table.findFirst_some hfound
    obtain ⟨row, hrow', hemail, -⟩ := hw.row
    rw [hrow] at hrow'
    cases hrow'
    exact (of_decide_eq_true haddress).symm.trans hemail
  apply Heeds.seq hread
  intro found hfound
  cases found with
  | none => exact Heeds.pure trivial
  | some found =>
    obtain ⟨id, user⟩ := found
    apply Heeds.ite (fun _ => Heeds.pure trivial)
    intro _
    apply Heeds.seq
    · apply spares_createVerificationToken
      rintro ⟨⟩
      exact h (hfound user rfl)
    · exact fun _ _ => Heeds.pure trivial

theorem spares_register {input : Registration} {salt rawToken : String} :
    Spares u email password start (register K input salt rawToken) fun _ => True := by
  have hread : Spares u email password start
      (fetch (.email (K.normalize input.email)) (·.userByEmail (K.normalize input.email)))
      fun existing => K.normalize input.email = email →
        existing.any (fun found => found.2.deletedAt.isNone) = true := by
    apply Heeds.fetch
    rintro w hw rfl
    obtain ⟨row, hrow, hemail, hlive, -⟩ := hw.row
    cases hfound : w.userByEmail (K.normalize input.email) with
    | none =>
      have hfree := Table.findFirst_none.mp hfound u row hrow
      exact absurd hemail (of_decide_eq_false hfree)
    | some found =>
      obtain ⟨id, other⟩ := found
      obtain ⟨hother, haddress⟩ := Table.findFirst_some hfound
      have hid := hw.sole id other hother (of_decide_eq_true haddress)
      subst hid
      rw [hrow] at hother
      cases hother
      simp [hlive]
  apply Heeds.seq hread
  intro existing hexisting
  apply Heeds.ite (fun _ => Heeds.throw)
  intro hfree
  apply Heeds.seq
  · exact Heeds.perform fun haddress => hfree (hexisting haddress)
  intro enrolled _
  apply Heeds.seq
  · exact spares_createVerificationToken fun _ => by simp
  · exact fun _ _ => Heeds.pure trivial

theorem spares_canActivate {bearer : Bearer} : Spares u email password start (canActivate bearer)
    fun user => ∃ payload, bearer = .valid payload ∧ payload.sub = user.id := by
  refine flow_canActivate (F := fun found _ => ∀ user, found = some user →
    ∃ payload, bearer = .valid payload ∧ payload.sub = user.id)
    (fun _ _ _ => trivial) (fun payload hbearer => Heeds.fetch fun w _ user huser => ?_)
    (fun _ _ _ => trivial) fun user _ h => h user rfl
  obtain ⟨row, -, -, -, rfl⟩ := loadUser_some.mp huser
  exact ⟨payload, hbearer, rfl⟩

/-- The request neither sends the user a reset link nor erases the account. -/
def Request.Withholds (K : Library) (u : UserId) (email : String) : Request → Prop
  | .requestReset address _ => K.normalize address ≠ email
  | .eraseMe bearer => ∀ payload, bearer = .valid payload → payload.sub ≠ u
  | .erase _ id => id ≠ u
  | _ => True

theorem spares_answered {α : Type} {p : Act α}
    (h : Spares u email password start p fun _ => True) :
    Spares u email password start (answered p) fun _ => True :=
  Heeds.seq h fun _ _ => Heeds.pure trivial

theorem spares_request {r : Request} (hr : r.Withholds K u email) :
    Spares u email password start (r.prog K) fun _ => True := by
  have hlog (entry : AuditEntry) : Stmt.Withholds u email (.logAudit entry) :=
    fun hrekeys => hrekeys
  cases r with
  | register input gdprConsent salt rawToken =>
    exact Heeds.ite (fun _ => spares_answered spares_register) fun _ => Heeds.throw
  | login address word =>
    apply spares_answered
    apply Heeds.only
    exact only_validateCredentials.mono fun s hs => withholds_counts hs
  | requestReset address rawToken => exact spares_letter fun haddress => absurd haddress hr
  | resendVerification address rawToken => exact spares_letter fun _ => by simp
  | confirmReset rawToken newPassword salt =>
    apply Heeds.seq spares_consumeToken
    intro record hrecord
    split
    · exact Heeds.throw
    next user huser =>
      apply Heeds.perform
      intro hsame
      subst hsame
      exact hrecord huser rfl
  | verifyEmail rawToken =>
    apply Heeds.seq spares_consumeToken
    intro record _
    split
    · exact Heeds.perform fun hrekeys => hrekeys
    · exact Heeds.pure trivial
  | oauthUpsert input internalKey =>
    apply Heeds.ite _ fun _ => Heeds.throw
    intro _
    apply spares_answered
    apply Heeds.seq
    · exact Heeds.perform fun hrekeys => hrekeys
    intro enrolled _
    apply Heeds.seq
    · exact Heeds.perform fun hrekeys => hrekeys
    · exact fun _ _ => Heeds.pure trivial
  | updateMe bearer name phone =>
    apply Heeds.seq spares_canActivate
    intro user _
    apply spares_answered
    apply Heeds.seq
    · exact Heeds.perform fun hrekeys => hrekeys
    · exact fun _ _ => Heeds.only only_getMe
  | eraseMe bearer =>
    apply Heeds.seq spares_canActivate
    intro user hactor
    obtain ⟨payload, rfl, hsub⟩ := hactor
    apply Heeds.perform
    show user.id ≠ u
    exact hsub ▸ hr payload rfl
  | ban bearer id =>
    apply Heeds.only
    have hban : Stmt.Withholds u email (.ban id) := fun hrekeys => hrekeys
    exact only_asAdmin fun _ => only_audited hlog (only_ban hban)
  | unban bearer id =>
    apply Heeds.only
    have hunban : Stmt.Withholds u email (.unban id) := fun hrekeys => hrekeys
    exact only_asAdmin fun _ => only_audited hlog (only_unban hunban)
  | changeRole bearer id role =>
    apply Heeds.only
    have hchange : Stmt.Withholds u email (.setRole id role) := fun hrekeys => hrekeys
    exact only_asAdmin fun _ => only_audited hlog (only_changeRole hchange)
  | erase bearer id =>
    apply Heeds.only
    have herase : Stmt.Withholds u email (.erase id) := hr
    apply only_asAdmin
    intro actor
    exact Only.seq (only_erase herase) fun _ => only_log hlog

end Keyless

/-- Without a reset link that works, and while nobody asks for one, no run of requests changes the
password of a user. -/
theorem password_needs_link (K : Library) (w : World) (requests : List Request) (u : UserId)
    (row : User) (g : Run Unit) (hrow : w.users.get u = some row) (hlive : row.deletedAt = none)
    (hsole : Sole row.email u w)
    (hspent : ∀ k token, w.tokens.get k = some token → token.userId = some u →
      token.purpose = .passwordReset → token.consumedAt.isSome ∨ token.expiresAt < w.now)
    (hrequests : ∀ r ∈ requests, r.Withholds K u row.email)
    (hg : Pool.Reach machine (fun _ _ _ _ hist => hist) anyStep (launch K w () requests) g) :
    ∃ row', g.state.users.get u = some row' ∧ row'.passwordHash = row.passwordHash := by
  have hstart : Keyless u row.email row.passwordHash w.now w :=
    ⟨⟨row, hrow, rfl, hlive, rfl⟩, hsole, hspent, Nat.le_refl _⟩
  have hthreads : ∀ p ∈ (launch K w () requests).threads,
      Spares u row.email row.passwordHash w.now p fun _ => True := by
    intro p hp
    obtain ⟨r, hr, rfl⟩ := List.mem_map.mp hp
    exact spares_request (hrequests r hr)
  have hkept := Heeds.reach (fun _ _ _ => keyless_exec) (fun _ _ => keyless_env) hstart hthreads hg
  obtain ⟨row', hrow', -, -, hpassword⟩ := hkept.row
  exact ⟨row', hrow', hpassword⟩

/-- The office in which user 1 has used one reset link and let another expire. -/
def spentLinks : World :=
  { office .admin .user with
    tokens := (Table.empty.set 1 ⟨some 1, "one", "used", .passwordReset, 100, some 3⟩).set 2
      ⟨some 1, "one", "old", .passwordReset, 4, none⟩
    now := 10 }

/-- Somebody tries both links. -/
theorem password_needs_link_office : ∃ g : Run Unit, g.threads.map (·.label.isNone) = [true, true] ∧
    ∃ row, g.state.users.get 1 = some row ∧ row.passwordHash = some "secret" := by
  let requests : List Request :=
    [.confirmReset "used" "mine" "salt", .confirmReset "old" "mine" "salt"]
  have hrun : Pool.observe machine (fun _ _ _ _ hist => hist) anyStep
      (fun g : Run Unit => g.threads.map (·.label.isNone))
      [.run 0 .done, .run 1 .done, .run 0 .done] (.run 1 .done)
      (launch plainLibrary spentLinks () requests) = some ([true, false], [true, true]) := by
    decide
  obtain ⟨g, g', hg, hm, hs, -, hafter⟩ := Pool.observe_eq hrun
  have hsole : Sole (sampleUser "one" .user).email 1 spentLinks := by
    intro id other hother hemail
    simp only [spentLinks, office, Table.get_set, Table.get_empty] at hother
    split at hother
    · cases hother
      exact absurd hemail (by decide)
    · split at hother
      · cases hother
        exact absurd hemail (by decide)
      · split at hother
        next hid => exact hid
        next => cases hother
  have hspent : ∀ k token, spentLinks.tokens.get k = some token → token.userId = some 1 →
      token.purpose = .passwordReset →
      token.consumedAt.isSome ∨ token.expiresAt < spentLinks.now := by
    intro k token htoken _ _
    simp only [spentLinks, Table.get_set, Table.get_empty] at htoken
    split at htoken
    · cases htoken
      exact .inr (by decide)
    · split at htoken
      · cases htoken
        exact .inl rfl
      · cases htoken
  have hrequests : ∀ r ∈ requests, r.Withholds plainLibrary 1 (sampleUser "one" .user).email := by
    intro r hr
    simp only [requests, List.mem_cons, List.not_mem_nil, or_false] at hr
    obtain rfl | rfl := hr <;> trivial
  exact ⟨g', hafter, password_needs_link plainLibrary _ requests 1 (sampleUser "one" .user) g' rfl
    rfl hsole hspent hrequests (.next hg hm hs)⟩

end CarSalePro.Accounts
