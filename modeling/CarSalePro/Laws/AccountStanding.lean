import CarSalePro.Accounts.Effects

namespace CarSalePro.Accounts

open Store Interleave Prog

section Barred

/-- How often the guard has let the user in. -/
def countEntries (u : UserId) : Recorder Site Stmt World Nat := fun _ l w _ entries =>
  match l with
  | .ask (.actor id) => if id = u ∧ (w.loadUser u).isSome then entries + 1 else entries
  | _ => entries

/-- The user has a row, and one that keeps the user out. -/
def BarredBy (Barred : User → Prop) (u : UserId) (w : World) : Prop :=
  ∃ row, w.users.get u = some row ∧ Barred row

/-- A token of the user opens nothing: the guard answers 401, or the request has failed before. -/
def TurnedAway (u : UserId) (w : World) : Prop :=
  ∀ payload c, payload.sub = u → (canActivate (.valid payload)).alone machine c w =
    (.error (if c = .fails then .failed else .http 401 "unauthorized" "Account is unavailable"), w)

variable {K : Library} {Barred : User → Prop} {A : Stmt → Prop} {u : UserId} {w : World}
  {requests : List Request} {g : Run Nat}

theorem loadUser_barred (hbarred : ∀ row, Barred row → row.deletedAt.isSome ∨ row.bannedAt.isSome)
    (h : BarredBy Barred u w) : w.loadUser u = none := by
  obtain ⟨row, hrow, hrefused⟩ := h
  rw [Option.eq_none_iff_forall_ne_some]
  intro user huser
  obtain ⟨row', hrow', hlive, hunbanned, -⟩ := loadUser_some.mp huser
  rw [hrow] at hrow'
  cases hrow'
  obtain hdeleted | hbanned := hbarred row hrefused
  · simp [hlive] at hdeleted
  · simp [hunbanned] at hbanned

theorem turnedAway_of_none (h : w.loadUser u = none) : TurnedAway u w := by
  rintro payload c rfl
  unfold canActivate
  simp only [alone_bind, alone_fetch]
  by_cases hc : c = .fails
  · simp [Machine.answer, machine, hc]
  · simp [Machine.answer, machine, hc, h]
    rfl

/-- Whoever is barred stays so under all statements that keep it, and is turned away all along. -/
theorem barred_reach
    (hbarred : ∀ row, Barred row → row.deletedAt.isSome ∨ row.bannedAt.isSome)
    (hkept : ∀ s row row', A s → Barred row → UserEffect u row s row' → Barred row')
    (hrequests : ∀ r ∈ requests, (r.prog K).Only A) (h : BarredBy Barred u w)
    (hg : Pool.Reach machine (countEntries u) anyStep (launch K w 0 requests) g) :
    g.hist = 0 ∧ TurnedAway u g.state ∧ BarredBy Barred u g.state := by
  have hcall (s : Stmt) (c : Fate) {w : World} (hs : A s) (h : BarredBy Barred u w) :
      BarredBy Barred u (machine.exec s c w).2 := by
    obtain ⟨row, hrow, hrefused⟩ := h
    obtain ⟨row', hrow', heffect⟩ := exec_users s c hrow
    exact ⟨row', hrow', hkept s row row' hs hrefused heffect⟩
  have hthreads : ∀ p ∈ (launch K w 0 requests).threads, p.Only A := by
    intro p hp
    obtain ⟨r, hr, rfl⟩ := List.mem_map.mp hp
    exact hrequests r hr
  suffices hkept : g.hist = 0 ∧ BarredBy Barred u g.state from
    ⟨hkept.1, turnedAway_of_none (loadUser_barred hbarred hkept.2), hkept.2⟩
  apply hg.footprint (I := fun x => x.2 = 0 ∧ BarredBy Barred u x.1) hthreads ⟨rfl, h⟩
  · rintro t l x ⟨hnone, hrefused⟩
    refine ⟨?_, hrefused⟩
    have hrefused := loadUser_barred hbarred hrefused
    cases l with
    | actor id => simp [countEntries, hrefused, hnone]
    | _ => exact hnone
  · rintro t s c x ⟨hnone, hrefused⟩ hs -
    exact ⟨hnone, hcall s c hs hrefused⟩
  · rintro c x ⟨hnone, row, hrow, hrefused⟩
    refine ⟨hnone, row, ?_, hrefused⟩
    rw [users_env c]
    exact hrow

end Barred

section Bans

/-- A ban shuts the user out until it is lifted: no token opens the door, none of before the ban
either, and no other request undoes it. -/
theorem ban_shuts_out (K : Library) (w : World) (requests : List Request) (u : UserId)
    (row : User) (g : Run Nat) (hrow : w.users.get u = some row) (hbanned : row.bannedAt.isSome)
    (hlifted : ∀ bearer, .unban bearer u ∉ requests)
    (hg : Pool.Reach machine (countEntries u) anyStep (launch K w 0 requests) g) :
    g.hist = 0 ∧ TurnedAway u g.state ∧
      ∃ row', g.state.users.get u = some row' ∧ row'.bannedAt.isSome := by
  apply barred_reach (A := (· ≠ .unban u)) (fun row hrow => Or.inr hrow) _ _ ⟨row, hrow, hbanned⟩ hg
  · intro s row row' hs hrow heffect
    cases heffect with
    | stands role banned deleted email password => rwa [banned]
    | enrolled stmt role banned deleted email password => rwa [banned]
    | ban at_ => rfl
    | unban => exact absurd rfl hs
    | setRole role => exact hrow
    | erase at_ => exact hrow
  · intro r hr
    apply (only_request r).mono
    rintro s hs rfl
    cases hs with
    | clerical h => cases h
    | counts email password h => cases h
    | unban bearer id => exact hlifted bearer hr

/-- User 1 of the office, banned. -/
def suspended : World :=
  { office .admin .user with
    users := (office .admin .user).users.set 1 { sampleUser "one" .user with bannedAt := some 7 } }

/-- The banned user tries the profile, and an administrator changes the user's role. -/
theorem ban_shuts_out_suspended : ∃ g : Run Nat,
    ((g.state.users.get 1).map (·.role)) = some .admin ∧ g.hist = 0 ∧ TurnedAway 1 g.state := by
  let requests : List Request :=
    [.updateMe (bearerOf 1) (some "One") none, .changeRole (bearerOf 2) 1 .admin]
  have hrun : Pool.observe machine (countEntries 1) anyStep
      (fun g => (g.state.users.get 1).map (·.role))
      [.run 0 .done, .run 1 .done, .run 1 .done, .run 1 .done] (.run 1 .done)
      (launch plainLibrary suspended 0 requests) = some (some .user, some .admin) := by
    decide
  obtain ⟨g, g', hg, hm, hs, -, hafter⟩ := Pool.observe_eq hrun
  have hlifted : ∀ bearer, .unban bearer 1 ∉ requests := by
    intro bearer hmem
    simp [requests] at hmem
  have hout := ban_shuts_out plainLibrary suspended requests 1 _ g' rfl rfl hlifted (.next hg hm hs)
  exact ⟨g', hafter, hout.1, hout.2.1⟩

end Bans

section Erasure

/-- The request enrols whoever has this address. -/
def Request.enrols (K : Library) (email : String) : Request → Bool
  | .register input _ _ _ => K.normalize input.email = email
  | .oauthUpsert input _ => K.normalize input.email = email
  | _ => false

variable {K : Library} {u : UserId} {w : World} {requests : List Request}

/-- A request that does not enrol an address issues no statement that does. -/
theorem enrols_issues {r : Request} {s : Stmt} {email : String} (hs : r.Issues K s)
    (hr : r.enrols K email = false) : s.enrols email = false := by
  cases hs with
  | clerical h =>
    cases s with
    | upsertRegistered address passwordHash name => cases h
    | upsertSignedIn address name => cases h
    | _ => rfl
  | upsertRegistered input gdprConsent salt rawToken passwordHash name => exact hr
  | upsertSignedIn input internalKey name => exact hr
  | counts address password h =>
    cases s with
    | upsertRegistered address passwordHash name => cases h
    | upsertSignedIn address name => cases h
    | _ => rfl
  | _ => rfl

/-- The account is erased. -/
def Erased (u : UserId) (row : User) : Prop := row.deletedAt.isSome ∧ row.email = tombstone u

theorem erased_effect {s : Stmt} {row row' : User} (hs : s.enrols (tombstone u) = false)
    (h : Erased u row) (heffect : UserEffect u row s row') : Erased u row' := by
  obtain ⟨hdeleted, hemail⟩ := h
  cases heffect with
  | stands role banned deleted email password =>
    rw [Erased, deleted, email]
    exact ⟨hdeleted, hemail⟩
  | enrolled stmt role banned deleted email password =>
    rw [hemail, hs] at stmt
    cases stmt
  | ban at_ => exact ⟨hdeleted, hemail⟩
  | unban => exact ⟨hdeleted, hemail⟩
  | setRole role => exact ⟨hdeleted, hemail⟩
  | erase at_ => exact ⟨rfl, rfl⟩

/-- An erased account stays erased and shut out, whatever is asked, as long as nobody enrols its
placeholder address. -/
theorem erasure_shuts_out (K : Library) (w : World) (requests : List Request) (u : UserId)
    (row : User) (g : Run Nat) (hrow : w.users.get u = some row) (herased : Erased u row)
    (henrol : ∀ r ∈ requests, r.enrols K (tombstone u) = false)
    (hg : Pool.Reach machine (countEntries u) anyStep (launch K w 0 requests) g) :
    g.hist = 0 ∧ TurnedAway u g.state ∧
      ∃ row', g.state.users.get u = some row' ∧ Erased u row' := by
  apply barred_reach (A := fun s => s.enrols (tombstone u) = false)
    (fun row hrow => Or.inl hrow.1) _ _ ⟨row, hrow, herased⟩ hg
  · exact fun s row row' hs hrow heffect => erased_effect hs hrow heffect
  · exact fun r hr => (only_request r).mono fun s hs => enrols_issues hs (henrol r hr)

/-- The office in which the administrator's account is erased. -/
def departed : World :=
  { office .admin .user with
    users := (office .admin .user).users.set 2
      { sampleUser (tombstone 2) .admin with passwordHash := none, deletedAt := some 5 } }

theorem departed_erased : ∃ row, departed.users.get 2 = some row ∧ Erased 2 row ∧
    row.role = .admin ∧ row.bannedAt = none := ⟨_, rfl, ⟨rfl, rfl⟩, rfl, rfl⟩

/-- An old token and a reset link for the placeholder address. -/
theorem erasure_shuts_out_departed : ∃ g : Run Nat,
    g.state.now = 9 ∧ g.hist = 0 ∧ TurnedAway 2 g.state := by
  let requests : List Request :=
    [.updateMe (bearerOf 2) none none, .requestReset (tombstone 2) "raw"]
  have hrun : Pool.observe machine (countEntries 2) anyStep (·.state.now)
      [.run 0 .done, .run 1 .done] (.env (.elapse 9))
      (launch plainLibrary departed 0 requests) = some (0, 9) := rfl
  obtain ⟨g, g', hg, hm, hs, -, hafter⟩ := Pool.observe_eq hrun
  obtain ⟨row, hrow, herased, -⟩ := departed_erased
  have henrol : ∀ r ∈ requests, r.enrols plainLibrary (tombstone 2) = false := by
    simp [requests, Request.enrols]
  have hout := erasure_shuts_out plainLibrary departed requests 2 row g' hrow herased henrol
    (.next hg hm hs)
  exact ⟨g', hafter, hout.1, hout.2.1⟩

/-- The account is erased, in this role, and not banned. -/
def Dormant (u : UserId) (role : Role) (row : User) : Prop :=
  Erased u row ∧ row.role = role ∧ row.bannedAt = none

/-- The request neither enrols the placeholder address nor changes the role or the ban. -/
def Request.Spares (K : Library) (u : UserId) (r : Request) : Prop :=
  r.enrols K (tombstone u) = false ∧
    ∀ bearer, r ≠ .ban bearer u ∧ ∀ role, r ≠ .changeRole bearer u role

/-- So does the statement. -/
def Stmt.Spares (u : UserId) (s : Stmt) : Prop :=
  s.enrols (tombstone u) = false ∧ s ≠ .ban u ∧ ∀ role, s ≠ .setRole u role

theorem spares_issues {r : Request} {s : Stmt} (hs : r.Issues K s) (hr : r.Spares K u) :
    s.Spares u := by
  refine ⟨enrols_issues hs hr.1, ?_, ?_⟩
  · rintro rfl
    cases hs with
    | clerical h => cases h
    | counts email password h => cases h
    | ban bearer id => exact (hr.2 bearer).1 rfl
  · rintro role rfl
    cases hs with
    | clerical h => cases h
    | counts email password h => cases h
    | setRole bearer id role => exact (hr.2 bearer).2 role rfl

theorem dormant_exec {s : Stmt} {c : Fate} {role : Role} (hs : s.Spares u)
    (h : BarredBy (Dormant u role) u w ∧ Sole (tombstone u) u w) :
    BarredBy (Dormant u role) u (machine.exec s c w).2 ∧
      Sole (tombstone u) u (machine.exec s c w).2 := by
  obtain ⟨⟨row, hrow, herased, hrole, hunbanned⟩, hsole⟩ := h
  constructor
  · obtain ⟨row', hrow', heffect⟩ := exec_users s c hrow
    refine ⟨row', hrow', erased_effect hs.1 herased heffect, ?_⟩
    cases heffect with
    | stands role banned deleted email password => exact ⟨role.trans hrole, banned.trans hunbanned⟩
    | enrolled stmt role banned deleted email password =>
      exact ⟨role.trans hrole, banned.trans hunbanned⟩
    | ban at_ => exact absurd rfl hs.2.1
    | unban => exact ⟨hrole, rfl⟩
    | setRole role => exact absurd rfl (hs.2.2 role)
    | erase at_ => exact ⟨hrole, hunbanned⟩
  · have hkept := sole_exec (s := s) (c := c) hrow (herased.2 ▸ hsole)
    rw [herased.2] at hkept
    exact hkept

/-- The guard lets in whoever shows the token, as this user. -/
def LetsIn (token : JwtPayload) (user : AuthUser) (w : World) : Prop :=
  ∀ c, c ≠ .fails → (canActivate (.valid token)).alone machine c w = (.ok user, w)

theorem letsIn_of_some {token : JwtPayload} {user : AuthUser}
    (h : w.loadUser token.sub = some user) : LetsIn token user w := by
  intro c hc
  unfold canActivate
  simp only [alone_bind, alone_fetch]
  simp [Machine.answer, machine, hc, h]
  rfl

/-- Whoever registers the placeholder address of a dormant account has the account. -/
theorem register_dormant {role : Role} {input : Registration} {salt rawToken : String}
    (h : BarredBy (Dormant u role) u w) (hsole : Sole (tombstone u) u w)
    (haddress : K.normalize input.email = tombstone u)
    (hfresh : w.tokenByHash (K.sha256 rawToken) = none) :
    ∃ answer w' row', (register K input salt rawToken).alone machine .done w = (.ok answer, w') ∧
      w'.users.get u = some row' ∧ row'.role = role ∧
      row'.passwordHash = input.password.map (K.hash · salt) ∧
      answer.1.token.sub = u ∧ answer.1.user.id = u ∧ answer.1.user.role = role ∧
      LetsIn answer.1.token answer.1.user w' := by
  obtain ⟨row, hrow, ⟨hdeleted, hemail⟩, hrole, hunbanned⟩ := h
  have hfound : w.userByEmail (tombstone u) = some (u, row) := by
    cases hfirst : w.userByEmail (tombstone u) with
    | none =>
      have hnone := Table.findFirst_none.mp hfirst u row hrow
      simp [hemail] at hnone
    | some found =>
      obtain ⟨id, other⟩ := found
      obtain ⟨hother, haddressed⟩ := Table.findFirst_some hfirst
      have hid := hsole id other hother (of_decide_eq_true haddressed)
      subst hid
      rw [hrow] at hother
      cases hother
      rfl
  have htaken : (some (u, row)).any (fun found => found.2.deletedAt.isNone) = false := by
    cases hd : row.deletedAt with
    | none =>
      rw [hd] at hdeleted
      cases hdeleted
    | some at_ => simp [hd]
  let reopened : User := { row with
    passwordHash := input.password.map (K.hash · salt)
    name := input.name.orElse fun _ => row.name
    deletedAt := none }
  let token : VerificationToken :=
    ⟨some u, tombstone u, K.sha256 rawToken, .verifyEmail, w.now + 60 * 24 * 60000, none⟩
  let w₁ : World := { w with users := w.users.set u reopened }
  let w₂ : World := { w₁ with tokens := w.tokens.set w.tokens.fresh token }
  refine ⟨(issueToken u reopened, ⟨rawToken, w.now + 60 * 24 * 60000⟩), w₂, reopened, ?_, ?_,
    hrole, rfl, rfl, rfl, hrole, ?_⟩
  · have hread {α : Type} (l : Site) (f : World → α) (w : World) :
        (fetch l f : Act α).alone machine .done w = (.ok (f w), w) := by
      rw [alone_fetch]
      simp [Machine.answer, machine]
    have hupsert : machine.exec (.upsertRegistered (tombstone u)
        (input.password.map (K.hash · salt)) input.name) .done w = (.ok (u, reopened), w₁) := by
      show World.perform _ w = _
      simp only [World.perform, World.upsertUser, hfound]
      rfl
    have hcreate : machine.exec (.createToken token) .done w₁ = (.ok (), w₂) := by
      show w₁.createToken token = _
      unfold World.createToken
      rw [show w₁.tokenByHash token.tokenHash = none from hfresh]
    unfold register createVerificationToken
    generalize K.normalize input.email = address at haddress ⊢
    subst haddress
    simp only [alone_bind, hread, hfound, htaken, Bool.false_eq_true, if_false, alone_perform]
    rw [hupsert]
    simp only
    rw [show w₁.now = w.now from rfl, hcreate]
    rfl
  · exact if_pos rfl
  · have hreopened : w₂.users.get u = some reopened := if_pos rfl
    exact letsIn_of_some (loadUser_some.mpr ⟨reopened, hreopened, rfl, hunbanned, rfl⟩)

/-- The role of an erased account outlives whatever is asked after the erasure, and goes to whoever
registers its placeholder address: with a password of their own and a token that the guard
accepts. -/
theorem erased_role_reopens (K : Library) (w : World) (requests : List Request) (u : UserId)
    (row : User) (g : Run Unit) (input : Registration) (salt rawToken : String)
    (hrow : w.users.get u = some row) (herased : Erased u row) (hunbanned : row.bannedAt = none)
    (hsole : Sole (tombstone u) u w) (hrequests : ∀ r ∈ requests, r.Spares K u)
    (hg : Pool.Reach machine (fun _ _ _ _ hist => hist) anyStep (launch K w () requests) g)
    (haddress : K.normalize input.email = tombstone u)
    (hfresh : g.state.tokenByHash (K.sha256 rawToken) = none) :
    ∃ answer w' row', (register K input salt rawToken).alone machine .done g.state =
        (.ok answer, w') ∧ w'.users.get u = some row' ∧ row'.role = row.role ∧
      row'.passwordHash = input.password.map (K.hash · salt) ∧
      answer.1.token.sub = u ∧ answer.1.user.id = u ∧ answer.1.user.role = row.role ∧
      LetsIn answer.1.token answer.1.user w' := by
  have hthreads : ∀ p ∈ (launch K w () requests).threads, p.Only (Stmt.Spares u) := by
    intro p hp
    obtain ⟨r, hr, rfl⟩ := List.mem_map.mp hp
    exact (only_request r).mono fun s hs => spares_issues hs (hrequests r hr)
  have hkept : BarredBy (Dormant u row.role) u g.state ∧ Sole (tombstone u) u g.state := by
    apply hg.footprint
      (I := fun x => BarredBy (Dormant u row.role) u x.1 ∧ Sole (tombstone u) u x.1) hthreads
    · exact ⟨⟨row, hrow, herased, rfl, hunbanned⟩, hsole⟩
    · exact fun t l x h => h
    · exact fun t s c x h hs _ => dormant_exec hs h
    · rintro c x h
      have husers := users_env (w := x.1) c
      unfold BarredBy Sole
      rw [husers]
      exact h
  exact register_dormant hkept.1 hkept.2 haddress hfresh

theorem sole_departed : Sole (tombstone 2) 2 departed := by
  intro id other hother hemail
  simp only [departed, office, Table.get_set, Table.get_empty] at hother
  split at hother
  next hid => exact hid
  next =>
    split at hother
    · cases hother
      exact absurd hemail (by decide)
    · split at hother
      · cases hother
        exact absurd hemail (by decide)
      · cases hother

/-- User 1 signs in and an old token of the administrator's is turned away; then somebody registers
the administrator's placeholder address. -/
theorem erased_role_reopens_departed : ∃ (g : Run Unit) (answer : IssuedToken × VerificationGrant)
    (w' : World) (row' : User), g.threads.map (·.label.isNone) = [true, true] ∧
    (register plainLibrary ⟨tombstone 2, some "mine", none⟩ "salt" "raw").alone machine .done
      g.state = (.ok answer, w') ∧ w'.users.get 2 = some row' ∧ row'.role = .admin ∧
    row'.passwordHash = some "saltmine" ∧ LetsIn answer.1.token answer.1.user w' := by
  let requests : List Request := [.login "one" "secret", .updateMe (bearerOf 2) none none]
  have hrun : Pool.observe machine (fun _ _ _ _ hist => hist) anyStep
      (fun g : Run Unit => (g.threads.map (·.label.isNone), (g.state.tokenByHash "raw").isNone))
      (List.replicate 2 (.run 0 .done) ++ [.run 1 .done]) (.run 0 .done)
      (launch plainLibrary departed () requests) =
      some (([false, true], true), ([true, true], true)) := by
    decide
  obtain ⟨g, g', hg, hm, hs, -, hafter⟩ := Pool.observe_eq hrun
  obtain ⟨hended, hfresh⟩ := Prod.mk.inj hafter
  obtain ⟨row, hrow, herased, hrole, hunbanned⟩ := departed_erased
  have hspares : ∀ r ∈ requests, r.Spares plainLibrary 2 := by
    intro r hr
    simp only [requests, List.mem_cons, List.not_mem_nil, or_false] at hr
    obtain rfl | rfl := hr
    · exact ⟨rfl, fun _ => ⟨by simp, by simp⟩⟩
    · exact ⟨rfl, fun _ => ⟨by simp, by simp⟩⟩
  obtain ⟨answer, w', row', hanswer, hrow', hrole', hpassword, -, -, -, hopens⟩ :=
    erased_role_reopens plainLibrary departed requests 2 row g' ⟨tombstone 2, some "mine", none⟩
      "salt" "raw" hrow herased hunbanned sole_departed hspares (.next hg hm hs) rfl
      (Option.isNone_iff_eq_none.mp hfresh)
  exact ⟨g', answer, w', row', hended, hanswer, hrow', hrole'.trans hrole, hpassword, hopens⟩

end Erasure

end CarSalePro.Accounts
