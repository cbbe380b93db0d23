import CarSalePro.Accounts.Effects
import CarSalePro.Interleave.Serial

namespace CarSalePro.Accounts

open Store Interleave Prog

section Acting

/-- The user may act as a super admin. -/
def Acting (id : UserId) (users : Table UserId User) : Prop :=
  ∃ row, users.get id = some row ∧ row.role = .superAdmin ∧ row.deletedAt = none ∧
    row.bannedAt = none

def SomeoneActs (users : Table UserId User) : Prop := ∃ id, Acting id users

variable {K : Library} {w : World} {id : UserId} {actor : AuthUser} {users : Table UserId User}

/-- The statement leaves a super admin in office. -/
def Stmt.Leaves (id : UserId) (s : Stmt) : Prop :=
  s ≠ .ban id ∧ s ≠ .erase id ∧ ∀ role, s = .setRole id role → role = .superAdmin

theorem acting_exec {s : Stmt} {c : Fate} (hs : s.Leaves id) (h : Acting id w.users) :
    Acting id (machine.exec s c w).2.users := by
  obtain ⟨row, hrow, hrole, hlive, hunbanned⟩ := h
  obtain ⟨row', hrow', heffect⟩ := exec_users s c hrow
  refine ⟨row', hrow', ?_⟩
  cases heffect with
  | stands role banned deleted email password =>
    rw [role, banned, deleted]
    exact ⟨hrole, hlive, hunbanned⟩
  | enrolled stmt role banned deleted email password =>
    rw [role, banned]
    exact ⟨hrole, deleted, hunbanned⟩
  | ban at_ => exact absurd rfl hs.1
  | unban => exact ⟨hrole, hlive, rfl⟩
  | setRole role => exact ⟨hs.2.2 role rfl, hlive, hunbanned⟩
  | erase at_ => exact absurd rfl hs.2.1

theorem leaves_clerical {s : Stmt} (h : s.clerical) : s.Leaves id := by
  refine ⟨?_, ?_, ?_⟩
  · rintro rfl
    cases h
  · rintro rfl
    cases h
  · rintro role rfl
    cases h

/-- Programs nobody works beside that keep a super admin in office. -/
abbrev Upholds {α : Type} (P : Table UserId User → Prop) (p : Act α)
    (Q : α → Table UserId User → Prop) : Prop :=
  Serial machine World.users (fun _ _ _ => True) SomeoneActs P p Q fun _ => SomeoneActs

theorem upholds_only {α : Type} {p : Act α} {P : Table UserId User → Prop}
    (hp : p.Only fun s => ∀ id, s.Leaves id) (hP : ∀ users, P users → SomeoneActs users) :
    Upholds P p fun _ => SomeoneActs := by
  have hkeeps : Upholds SomeoneActs p fun _ => SomeoneActs := by
    apply Serial.only hp (fun _ h => h)
    rintro s c w hs - ⟨id, hid⟩
    exact ⟨id, acting_exec (hs id) hid⟩
  exact hkeeps.pre hP

/-- A statement that leaves one of those in office who are. -/
theorem upholds_perform {s : Stmt} {P : Table UserId User → Prop}
    (h : ∀ users, P users → ∃ id, Acting id users ∧ s.Leaves id) :
    Upholds P (Prog.perform s) fun _ => SomeoneActs := by
  apply Serial.perform
  intro c w hP _
  obtain ⟨id, hid, hs⟩ := h w.users hP
  have hafter : SomeoneActs (machine.exec s c w).2.users := ⟨id, acting_exec hs hid⟩
  refine ⟨hafter, ?_⟩
  cases (machine.exec s c w).1 with
  | ok a => exact hafter
  | error e => exact hafter

theorem upholds_throw {α : Type} {e : Err} {P : Table UserId User → Prop}
    {Q : α → Table UserId User → Prop} (hP : ∀ users, P users → SomeoneActs users) :
    Upholds P (throw e : Act α) Q := Serial.throw hP

/-- Who passed the guard is a super admin in office, if a super admin. -/
def Entered (actor : AuthUser) (users : Table UserId User) : Prop :=
  SomeoneActs users ∧ (actor.role = .superAdmin → Acting actor.id users)

/-- What is known behind the guard. -/
def Behind (bearer : Bearer) (P : Table UserId User → Prop) (actor : AuthUser)
    (users : Table UserId User) : Prop :=
  P users ∧ Entered actor users ∧ ∃ payload, bearer = .valid payload ∧ payload.sub = actor.id

theorem upholds_canActivate {bearer : Bearer} {P : Table UserId User → Prop}
    (hP : ∀ users, P users → SomeoneActs users) :
    Upholds P (canActivate bearer) (Behind bearer P) := by
  refine flow_canActivate (F := fun found P' => ∀ users, P' users →
    P users ∧ ∀ user, found = some user → Behind bearer P user users)
    (fun _ _ h users hu => hP users (h users hu))
    (fun payload hbearer => Serial.ask hP (fun w hw => ⟨hw, fun user huser => ?_⟩)
      fun _ users hu => hP users hu)
    (fun _ _ h users hu => hP users (h users hu).1) fun user _ h users hu => (h users hu).2 user rfl
  obtain ⟨row, hrow, hlive, hunbanned, rfl⟩ := loadUser_some.mp huser
  have hacts : row.role = .superAdmin → Acting payload.sub w.users :=
    fun hrole => ⟨row, hrow, hrole, hlive, hunbanned⟩
  exact ⟨hw, ⟨hP _ hw, hacts⟩, payload, hbearer, rfl⟩

theorem upholds_require {P : Table UserId User → Prop}
    (hP : ∀ users, P users → SomeoneActs users) :
    Upholds P (require id) fun user users => P users ∧ users.get id = some user := by
  have hread : Upholds P (fetch (.user id) (·.users.get id)) fun found users =>
      P users ∧ found = users.get id :=
    Serial.ask hP (fun w hw => ⟨hw, rfl⟩) fun _ users hw => hP users hw
  apply hread.seq
  intro found
  cases found with
  | none => exact upholds_throw fun users h => hP users h.1
  | some user => exact Serial.pure fun users h => ⟨h.1, h.2.symm⟩

theorem upholds_refuse {α : Type} {denial : RoleDenial} {P : Table UserId User → Prop}
    {Q : α → Table UserId User → Prop} (hP : ∀ users, P users → SomeoneActs users) :
    Upholds P (refuse denial : Act α) Q := by
  cases denial <;> exact upholds_throw hP

/-- A read whose answer is not looked at. -/
theorem upholds_count {site : Site} {f : World → Nat} {P : Table UserId User → Prop}
    (hP : ∀ users, P users → SomeoneActs users) :
    Upholds P (fetch site f : Act Nat) fun _ => P :=
  Serial.ask hP (fun _ hw => hw) fun _ users hw => hP users hw

theorem upholds_assertion {c : Prop} [Decidable c] {site : Site} {f : World → Nat} {n : Nat}
    {e : Err} {P : Table UserId User → Prop} (hP : ∀ users, P users → SomeoneActs users) :
    Upholds P (Prog.when c do
      let count ← fetch site f
      if count ≤ n then throw e else pure () : Act Unit) fun _ => P := by
  apply Discipline.Flow.when
  · intro _
    apply (upholds_count hP).seq
    intro count
    apply Discipline.Flow.ite
    · exact fun _ => upholds_throw hP
    · exact fun _ => Serial.pure fun _ h => h
  · exact fun _ _ h => h

/-- Whoever is not the target and acts stays, or else somebody the target is not. -/
theorem acting_other {users : Table UserId User} {target : User} (hactor : Entered actor users)
    (htarget : users.get id = some target) (hid : id ≠ actor.id)
    (hrole : actor.role ≠ .superAdmin → target.role ≠ .superAdmin) :
    ∃ a, Acting a users ∧ a ≠ id := by
  by_cases hsuper : actor.role = .superAdmin
  · exact ⟨actor.id, hactor.2 hsuper, hid.symm⟩
  · obtain ⟨a, row, hrow, hacts⟩ := hactor.1
    refine ⟨a, ⟨row, hrow, hacts⟩, ?_⟩
    rintro rfl
    rw [htarget] at hrow
    cases hrow
    exact hrole hsuper hacts.1

theorem upholds_ban : Upholds (Entered actor) (ban id actor) fun _ => SomeoneActs := by
  apply Discipline.Flow.ite
  · exact fun _ => upholds_throw fun _ h => h.1
  intro hid
  apply (upholds_require fun _ h => h.1).seq
  intro target
  have hstill : ∀ users, Entered actor users ∧ users.get id = some target → SomeoneActs users :=
    fun _ h => h.1.1
  split
  · exact upholds_refuse hstill
  next hallowed =>
    apply Discipline.Flow.ite
    · exact fun _ => Serial.pure hstill
    intro _
    apply upholds_perform
    rintro users ⟨hactor, htarget⟩
    have hrole : actor.role ≠ .superAdmin → target.role ≠ .superAdmin := by
      intro hsuper htop
      simp [banDenial, isAdminRole, htop, hsuper] at hallowed
    obtain ⟨a, hacts, hne⟩ := acting_other hactor htarget hid hrole
    refine ⟨a, hacts, ?_, nofun, nofun⟩
    rintro ⟨⟩
    exact hne rfl

theorem acting_changed {users : Table UserId User} {target : User} {role : Role}
    (hactor : Entered actor users) (htarget : users.get id = some target)
    (hne : target.role ≠ role)
    (hallowed : roleChangeDenial actor.role target.role role (id = actor.id) = none) :
    ∃ a, Acting a users ∧ (a = id → role = .superAdmin) := by
  unfold roleChangeDenial at hallowed
  rw [if_neg hne] at hallowed
  split at hallowed
  · cases hallowed
  next hself =>
    by_cases hsuper : actor.role = .superAdmin
    · refine ⟨actor.id, hactor.2 hsuper, ?_⟩
      intro hid
      obtain ⟨row, hrow, hrole, -⟩ := hactor.2 hsuper
      rw [hid, htarget] at hrow
      cases hrow
      rw [hrole] at hself
      cases role with
      | superAdmin => rfl
      | admin => simp [hid, Role.rank] at hself
      | user => simp [hid, Role.rank] at hself
    · rw [if_neg hsuper] at hallowed
      split at hallowed
      next hpromoted =>
        simp only [Bool.and_eq_true, decide_eq_true_eq] at hpromoted
        obtain ⟨a, row, hrow, hrole, hrest⟩ := hactor.1
        refine ⟨a, ⟨row, hrow, hrole, hrest⟩, ?_⟩
        rintro rfl
        rw [htarget] at hrow
        cases hrow
        rw [hrole] at hpromoted
        cases hpromoted.1
      · cases hallowed

theorem upholds_changeRole {role : Role} :
    Upholds (Entered actor) (changeRole id role actor) fun _ => SomeoneActs := by
  apply (upholds_require fun _ h => h.1).seq
  intro target
  have hstill : ∀ users, Entered actor users ∧ users.get id = some target → SomeoneActs users :=
    fun _ h => h.1.1
  split
  · exact upholds_refuse hstill
  next hallowed =>
    apply Discipline.Flow.ite
    · exact fun _ => Serial.pure hstill
    intro hne
    apply (upholds_assertion hstill).seq
    intro _
    apply (upholds_assertion hstill).seq
    intro _
    apply upholds_perform
    rintro users ⟨hactor, htarget⟩
    obtain ⟨a, hacts, hkeeps⟩ := acting_changed hactor htarget hne hallowed
    refine ⟨a, hacts, nofun, nofun, ?_⟩
    rintro role' ⟨⟩
    exact hkeeps rfl

theorem upholds_erase : Upholds (Entered actor) (erase id actor) fun _ => SomeoneActs := by
  apply Discipline.Flow.ite
  · exact fun _ => upholds_throw fun _ h => h.1
  intro hid
  apply Discipline.Flow.ite
  · exact fun _ => upholds_throw fun _ h => h.1
  intro hsuper
  apply (upholds_require fun _ h => h.1).seq
  intro target
  have hstill : ∀ users, Entered actor users ∧ users.get id = some target → SomeoneActs users :=
    fun _ h => h.1.1
  apply Discipline.Flow.ite
  · exact fun _ => upholds_throw hstill
  intro _
  apply (upholds_assertion hstill).seq
  intro _
  have hstmt : Upholds (fun users => Entered actor users ∧ users.get id = some target) (eraseMe id)
      fun _ => SomeoneActs := by
    apply upholds_perform
    rintro users ⟨hactor, htarget⟩
    obtain ⟨a, hacts, hne⟩ := acting_other hactor htarget hid fun hrole => absurd hrole hsuper
    refine ⟨a, hacts, nofun, ?_, nofun⟩
    rintro ⟨⟩
    exact hne rfl
  apply hstmt.seq
  intro _
  exact (upholds_require fun _ h => h).post (fun _ _ h => h.1) fun _ _ h => h

theorem upholds_asAdmin {bearer : Bearer} {handler : AuthUser → Act Unit}
    (h : ∀ actor, Upholds (Entered actor) (handler actor) fun _ => SomeoneActs) :
    Upholds SomeoneActs (asAdmin bearer handler) fun _ => SomeoneActs := by
  apply (upholds_canActivate fun _ h => h).seq
  intro actor
  have hentered : ∀ users, Behind bearer SomeoneActs actor users → Entered actor users :=
    fun _ h => h.2.1
  have hadmin : Upholds (Entered actor) (requireAdmin actor) fun _ => Entered actor := by
    apply Discipline.Flow.ite
    · exact fun _ => Serial.pure fun _ h => h
    · exact fun _ => upholds_throw fun _ h => h.1
  exact (hadmin.pre hentered).seq fun _ => h actor

theorem upholds_log {action : String} :
    Upholds SomeoneActs (log actor action id) fun _ => SomeoneActs :=
  upholds_only (only_log fun _ _ => leaves_clerical rfl) fun _ h => h

theorem upholds_audited {action : String} {work : AuthUser → Act User}
    (h : Upholds (Entered actor) (work actor) fun _ => SomeoneActs) :
    Upholds (Entered actor) (audited action id work actor) fun _ => SomeoneActs := by
  have hbefore : Upholds (Entered actor) (require id) fun _ => Entered actor :=
    (upholds_require fun _ h => h.1).post (fun _ _ h => h.1) fun _ _ h => h
  apply hbefore.seq
  intro _
  exact h.seq fun _ => upholds_log

/-- The user erases the own account, and is a super admin. -/
def Request.Resigns (r : Request) (users : Table UserId User) : Prop :=
  ∃ payload row, r = .eraseMe (.valid payload) ∧ users.get payload.sub = some row ∧
    row.role = .superAdmin

theorem upholds_eraseMe {bearer : Bearer} :
    Upholds (fun users => SomeoneActs users ∧ ¬ Request.Resigns (.eraseMe bearer) users)
      ((Request.eraseMe bearer).prog K) fun _ => SomeoneActs := by
  apply (upholds_canActivate fun _ h => h.1).seq
  intro user
  apply upholds_perform
  rintro users ⟨⟨-, hstays⟩, hentered, payload, rfl, hsub⟩
  obtain ⟨a, row, hrow, hrole, hrest⟩ := hentered.1
  refine ⟨a, ⟨row, hrow, hrole, hrest⟩, nofun, ?_, nofun⟩
  rintro ⟨⟩
  exact hstays ⟨payload, row, rfl, by rw [hsub]; exact hrow, hrole⟩

theorem leaves_issues {r : Request} (hadmin : ∀ bearer id role, r ≠ .ban bearer id ∧
      r ≠ .changeRole bearer id role ∧ r ≠ .erase bearer id ∧ r ≠ .eraseMe bearer) :
    ∀ s, r.Issues K s → ∀ id, s.Leaves id := by
  intro s hs id
  cases hs with
  | clerical h => exact leaves_clerical h
  | upsertRegistered input gdprConsent salt rawToken passwordHash name =>
    exact ⟨nofun, nofun, nofun⟩
  | upsertSignedIn input internalKey name => exact ⟨nofun, nofun, nofun⟩
  | counts email password h =>
    cases s with
    | incrWithTtl key ttlSeconds => exact ⟨nofun, nofun, nofun⟩
    | del key => exact ⟨nofun, nofun, nofun⟩
    | _ => cases h
  | unban bearer user => exact ⟨nofun, nofun, nofun⟩
  | ban bearer user => exact absurd rfl (hadmin bearer user .user).1
  | setRole bearer user role => exact absurd rfl (hadmin bearer user role).2.1
  | erase bearer user => exact absurd rfl (hadmin bearer user .user).2.2.1
  | eraseMe bearer user => exact absurd rfl (hadmin bearer user .user).2.2.2

theorem upholds_request (r : Request) :
    Upholds (fun users => SomeoneActs users ∧ ¬ r.Resigns users) (r.prog K)
      fun _ => SomeoneActs := by
  cases r with
  | eraseMe bearer => exact upholds_eraseMe
  | ban bearer id => exact (upholds_asAdmin fun _ => upholds_audited upholds_ban).pre fun _ h => h.1
  | changeRole bearer id role =>
    exact (upholds_asAdmin fun _ => upholds_audited upholds_changeRole).pre fun _ h => h.1
  | erase bearer id =>
    have hserved : Upholds SomeoneActs ((Request.erase bearer id).prog K) fun _ => SomeoneActs :=
      upholds_asAdmin fun _ => upholds_erase.seq fun _ => upholds_log
    exact hserved.pre fun _ h => h.1
  | _ =>
    apply upholds_only _ fun _ h => h.1
    apply (only_request _).mono
    exact leaves_issues fun _ _ _ => ⟨nofun, nofun, nofun, nofun⟩

end Acting

/-- The states while requests are served one after another, each to its end or until it is cut off.
No super admin erases the own account. -/
inductive Served (K : Library) (w : World) : World → Prop
  | start : Served K w w
  | request {w' : World} {g : Run Unit} (r : Request) (before : Served K w w')
      (stays : ¬ r.Resigns w'.users)
      (run : Pool.Reach machine (fun _ _ _ _ hist => hist) anyStep (launch K w' () [r]) g) :
      Served K w g.state

/-- While requests are served one after another and no super admin erases the own account, there is
always a super admin who is neither banned nor deleted. -/
theorem super_admin_remains (K : Library) (w w' : World) (hw : SomeoneActs w.users)
    (h : Served K w w') : SomeoneActs w'.users := by
  induction h with
  | start => exact hw
  | @request w' g r _ hstays hrun ih =>
    have hserved := Serial.reach (upholds_request (K := K) r) (fun c w => users_env c)
      (fun _ _ _ _ _ => trivial) ⟨ih, hstays⟩ ih hrun
    exact hserved.1

/-- In an office with two super admins, one bans the other. -/
theorem super_admin_remains_office : ∃ w' : World, SomeoneActs w'.users ∧
    (w'.users.get 2).map (·.bannedAt) = some (some 0) := by
  have hrun : Pool.observe machine (fun _ _ _ _ hist => hist) anyStep
      (fun g : Run Unit => (g.state.users.get 2).map (·.bannedAt))
      [.run 0 .done, .run 0 .done, .run 0 .done] (.run 0 .done)
      (launch plainLibrary (office .superAdmin .superAdmin) () [.ban (bearerOf 3) 2]) =
      some (some none, some (some 0)) := rfl
  obtain ⟨g, g', hg, hm, hs, -, hafter⟩ := Pool.observe_eq hrun
  have hserved : Served plainLibrary (office .superAdmin .superAdmin) g'.state := by
    apply Served.request (.ban (bearerOf 3) 2) .start _ (.next hg hm hs)
    rintro ⟨payload, row, h, -⟩
    cases h
  exact ⟨g'.state, super_admin_remains plainLibrary _ _ ⟨2, _, rfl, rfl, rfl, rfl⟩ hserved, hafter⟩

end CarSalePro.Accounts
