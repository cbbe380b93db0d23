import CarSalePro.Accounts.Effects
import CarSalePro.Interleave.Triple

namespace CarSalePro.Accounts

open Store Interleave Prog

section Serving

variable {K : Library} {w : World} {key email password : String}

/-- A request served alone, by a database and a Redis that answer. -/
def serve (K : Library) (r : Request) (w : World) : Except Err Unit × World :=
  (r.prog K).alone machine .done w

/-- The counter that Redis has under the key. -/
def World.entry (w : World) (key : String) : Option Entry :=
  (w.failures.get key).filter fun entry => w.now < entry.expiresAt

/-- The counter under the key is gone. -/
def World.cleared (w : World) (key : String) : World :=
  { w with failures := w.failures.deleteMany fun key' _ => key' = key }

/-- What comes of a login. -/
inductive LoginEffect (w : World) (key : String) : Except Err Unit × World → Prop
  | locked {e : Err} (told : e ≠ invalidCredentials) : LoginEffect w key (.error e, w)
  | refused (unlocked : ∀ entry, w.entry key = some entry → entry.value < loginMaxFailures) :
      LoginEffect w key (.error invalidCredentials, w.incrWithTtl key loginLockSeconds)
  | accepted : LoginEffect w key (.ok (), w.cleared key)

theorem alone_read {α : Type} (l : Site) (f : World → α) (w : World) :
    (fetch l f : Act α).alone machine .done w = (.ok (f w), w) := by
  rw [alone_fetch]
  simp [Machine.answer, machine]

theorem alone_stmt (s : Stmt) (w : World) :
    (Prog.perform s : Act s.Resp).alone machine .done w = w.perform s := alone_perform

theorem alone_assertLoginNotLocked (h : ∀ entry,
      w.entry (loginFailureKey K email) = some entry → entry.value < loginMaxFailures) :
    (assertLoginNotLocked K email).alone machine .done w = (.ok (), w) := by
  have hget : w.get (loginFailureKey K email) =
      (w.entry (loginFailureKey K email)).map (·.value) := rfl
  unfold assertLoginNotLocked
  rw [alone_bind, alone_attempt, alone_read]
  dsimp only
  rw [hget]
  cases hentry : w.entry (loginFailureKey K email) with
  | none => rfl
  | some entry =>
    have hopen := h entry hentry
    dsimp only [Option.map_some]
    rw [if_neg (by omega)]
    rfl

theorem alone_locked {entry : Entry} (hentry : w.entry (loginFailureKey K email) = some entry)
    (h : loginMaxFailures ≤ entry.value) :
    (assertLoginNotLocked K email).alone machine .done w = (.error (.http 429
      "too_many_login_attempts" "Too many failed login attempts. Try again later."), w) := by
  have hget : w.get (loginFailureKey K email) =
      (w.entry (loginFailureKey K email)).map (·.value) := rfl
  unfold assertLoginNotLocked
  rw [alone_bind, alone_attempt, alone_read]
  dsimp only
  rw [hget, hentry]
  dsimp only [Option.map_some]
  rw [if_pos h]
  rfl

theorem alone_refused : (do
      recordLoginFailure K email
      throw invalidCredentials : Act IssuedToken).alone machine .done w =
    (.error invalidCredentials, w.incrWithTtl (loginFailureKey K email) loginLockSeconds) := by
  rw [alone_bind]
  unfold recordLoginFailure
  rw [alone_quietly, alone_stmt]
  rfl

/-- What a login does. -/
theorem alone_validateCredentials :
    (∃ e, e ≠ invalidCredentials ∧
      (validateCredentials K email password).alone machine .done w = (.error e, w)) ∨
    ((∀ entry, w.entry (loginFailureKey K (K.normalize email)) = some entry →
        entry.value < loginMaxFailures) ∧
      ((validateCredentials K email password).alone machine .done w = (.error invalidCredentials,
          w.incrWithTtl (loginFailureKey K (K.normalize email)) loginLockSeconds) ∨
        ∃ token, (validateCredentials K email password).alone machine .done w =
          (.ok token, w.cleared (loginFailureKey K (K.normalize email))))) := by
  by_cases hlocked : ∃ entry, w.entry (loginFailureKey K (K.normalize email)) = some entry ∧
      loginMaxFailures ≤ entry.value
  · obtain ⟨entry, hentry, hvalue⟩ := hlocked
    left
    unfold validateCredentials
    rw [alone_bind, alone_locked hentry hvalue]
    refine ⟨_, ?_, rfl⟩
    decide
  · have hopen : ∀ entry, w.entry (loginFailureKey K (K.normalize email)) = some entry →
        entry.value < loginMaxFailures := by
      intro entry hentry
      by_contra hfull
      exact hlocked ⟨entry, hentry, by omega⟩
    unfold validateCredentials
    rw [alone_bind, alone_assertLoginNotLocked hopen]
    dsimp only
    rw [alone_bind, alone_read]
    dsimp only
    split
    · exact Or.inr ⟨hopen, Or.inl alone_refused⟩
    · split
      · exact Or.inr ⟨hopen, Or.inl alone_refused⟩
      · split
        · left
          refine ⟨_, ?_, rfl⟩
          decide
        · split
          · exact Or.inr ⟨hopen, Or.inl alone_refused⟩
          · right
            refine ⟨hopen, Or.inr ?_⟩
            rw [alone_bind, alone_quietly, alone_stmt]
            exact ⟨_, rfl⟩

theorem serve_login : LoginEffect w (loginFailureKey K (K.normalize email))
    (serve K (.login email password) w) := by
  show LoginEffect w _
    ((validateCredentials K email password >>= fun _ => pure ()).alone machine .done w)
  rw [alone_bind]
  obtain ⟨e, he, heq⟩ | ⟨hopen, heq | ⟨token, heq⟩⟩ := alone_validateCredentials
  · rw [heq]
    exact .locked he
  · rw [heq]
    exact .refused hopen
  · rw [heq]
    exact .accepted

/-- The counters and the clock are as they were. -/
def SameCounters (w w' : World) : Prop := w'.failures = w.failures ∧ w'.now = w.now

theorem counters_perform {s : Stmt} (hs : s.counts = false) : SameCounters w (w.perform s).2 := by
  have hupdate {user : UserId} {f : User → User} : SameCounters w (w.updateUser user f).2 := by
    unfold World.updateUser
    split <;> exact ⟨rfl, rfl⟩
  have hupsert {address : String} {create : User} {f : User → User} :
      SameCounters w (w.upsertUser address create f).2 := by
    unfold World.upsertUser
    split <;> exact ⟨rfl, rfl⟩
  have haccount {provider account : String} {user : UserId} :
      SameCounters w (w.upsertAuthAccount provider account user) := by
    unfold World.upsertAuthAccount
    split <;> exact ⟨rfl, rfl⟩
  have hcreate {token : VerificationToken} : SameCounters w (w.createToken token).2 := by
    unfold World.createToken
    split <;> exact ⟨rfl, rfl⟩
  have hconsume {token : TokenId} : SameCounters w (w.consumeToken token).2 := by
    unfold World.consumeToken
    split <;> exact ⟨rfl, rfl⟩
  have herase {user : UserId} : SameCounters w (w.erase user).2 := by
    unfold World.erase
    split
    · exact ⟨rfl, rfl⟩
    · split <;> exact ⟨rfl, rfl⟩
  cases s with
  | upsertRegistered address passwordHash name => exact hupsert
  | upsertSignedIn address name => exact hupsert
  | upsertAuthAccount provider account user => exact haccount
  | createToken token => exact hcreate
  | consumeToken token => exact hconsume
  | erase user => exact herase
  | logAudit entry => exact ⟨rfl, rfl⟩
  | incrWithTtl key ttlSeconds => cases hs
  | del key => cases hs
  | verifyEmail user => exact hupdate
  | setPassword user passwordHash => exact hupdate
  | updateProfile user name phone => exact hupdate
  | ban user => exact hupdate
  | unban user => exact hupdate
  | setRole user role => exact hupdate

theorem counts_issues {r : Request} {s : Stmt} (hr : ∀ email password, r ≠ .login email password)
    (hs : r.Issues K s) : s.counts = false := by
  cases hs with
  | clerical h =>
    cases s with
    | incrWithTtl key ttlSeconds => cases h
    | del key => cases h
    | _ => rfl
  | counts email password h => exact absurd rfl (hr email password)
  | _ => rfl

/-- A request that is no login leaves the counters alone. -/
theorem serve_other {r : Request} (hr : ∀ email password, r ≠ .login email password) :
    SameCounters w (serve K r w).2 := by
  have honly : (r.prog K).Only (·.counts = false) :=
    (only_request r).mono fun s hs => counts_issues hr hs
  have hkept : Triple machine (fun _ c' _ => c' = .done) (SameCounters w) (r.prog K)
      (fun _ => SameCounters w) fun _ => SameCounters w := by
    apply Triple.keeps honly
    rintro s c w' hs rfl ⟨hfailures, hnow⟩
    obtain ⟨hfailures', hnow'⟩ := counters_perform (w := w') hs
    exact ⟨hfailures'.trans hfailures, hnow'.trans hnow⟩
  have hend := hkept.alone (w := w) ⟨rfl, rfl⟩
  unfold serve
  cases hanswer : ((r.prog K).alone machine .done w).1 with
  | ok a =>
    rw [hanswer] at hend
    exact hend
  | error e =>
    rw [hanswer] at hend
    exact hend

end Serving

section Guessing

variable {K : Library} {key : String} {w w' : World} {n i : Nat}

/-- The request is a login that counts under the key. -/
def Request.counted (K : Library) (key : String) : Request → Bool
  | .login email _ => loginFailureKey K (K.normalize email) = key
  | _ => false

/-- Requests served one after another, with time between them, and how many of the logins under the
key were told that the password is wrong. None of them succeeded. -/
inductive Guessing (K : Library) (key : String) (w : World) : Nat → World → Prop
  | start : Guessing K key w 0 w
  | wait {n : Nat} {w' : World} (milliseconds : Nat) (before : Guessing K key w n w') :
      Guessing K key w n (machine.env (.elapse milliseconds) w')
  | guess {n : Nat} {w' : World} (r : Request) (before : Guessing K key w n w')
      (counted : r.counted K key) (refused : (serve K r w').1 = .error invalidCredentials) :
      Guessing K key w (n + 1) (serve K r w').2
  | other {n : Nat} {w' : World} (r : Request) (before : Guessing K key w n w')
      (told : r.counted K key → ∃ e, (serve K r w').1 = .error e ∧ e ≠ invalidCredentials) :
      Guessing K key w n (serve K r w').2

/-- How long a counter lives, in milliseconds. -/
def lockWindow : Nat := loginLockSeconds * 1000

/-- After `j` windows of the counter, and `i` that were open at the start. -/
def Windows (key : String) (w : World) (i n : Nat) (w' : World) : Prop :=
  ∃ j, w.now + j * lockWindow ≤ w'.now + lockWindow ∧ match w'.entry key with
    | none => n ≤ 10 * (i + j) ∧ w.now + j * lockWindow ≤ w'.now
    | some entry => n + 10 ≤ 10 * (i + j) + min entry.value 10 ∧
        w.now + j * lockWindow ≤ entry.expiresAt

theorem windows_same {w₁ w₂ : World} (h : Windows key w i n w₁)
    (hentry : w₂.entry key = w₁.entry key) (hnow : w₂.now = w₁.now) : Windows key w i n w₂ := by
  unfold Windows
  rw [hentry, hnow]
  exact h

theorem windows_wait (milliseconds : Nat) (h : Windows key w i n w') :
    Windows key w i n (machine.env (.elapse milliseconds) w') := by
  obtain ⟨j, hbegun, hcount⟩ := h
  have hlater : (machine.env (.elapse milliseconds) w').entry key =
      (w'.failures.get key).filter fun entry => w'.now + milliseconds < entry.expiresAt := rfl
  have hnow : (machine.env (.elapse milliseconds) w').now = w'.now + milliseconds := rfl
  refine ⟨j, by omega, ?_⟩
  rw [hlater]
  unfold World.entry at hcount
  cases hentry : w'.failures.get key with
  | none =>
    rw [hentry] at hcount
    obtain ⟨hguesses, hclosed⟩ := hcount
    exact ⟨hguesses, by omega⟩
  | some entry =>
    rw [hentry] at hcount
    simp only [Option.filter] at hcount ⊢
    by_cases hlive : w'.now + milliseconds < entry.expiresAt
    · have hbefore : w'.now < entry.expiresAt := by omega
      simp only [hbefore, decide_true, if_true] at hcount
      simp only [hlive, decide_true, if_true]
      exact hcount
    · simp only [hlive, decide_false, Bool.false_eq_true, if_false]
      by_cases hbefore : w'.now < entry.expiresAt
      · simp only [hbefore, decide_true, if_true] at hcount
        obtain ⟨hguesses, hexpiry⟩ := hcount
        exact ⟨by omega, by omega⟩
      · simp only [hbefore, decide_false, Bool.false_eq_true, if_false] at hcount
        exact ⟨hcount.1, by omega⟩

/-- A wrong password counts under its key, in a window that is not full. -/
theorem windows_guess (h : Windows key w i n w')
    (hopen : ∀ entry, w'.entry key = some entry → entry.value < loginMaxFailures) :
    Windows key w i (n + 1) (w'.incrWithTtl key loginLockSeconds) := by
  obtain ⟨j, hbegun, hcount⟩ := h
  cases hentry : w'.entry key with
  | none =>
    rw [hentry] at hcount
    obtain ⟨hguesses, hclosed⟩ := hcount
    let first : Entry := ⟨1, w'.now + lockWindow⟩
    have hopened : w'.incrWithTtl key loginLockSeconds =
        { w' with failures := w'.failures.set key first } := by
      unfold World.incrWithTtl
      rw [show (w'.failures.get key).filter _ = none from hentry]
      rfl
    have hfirst : (w'.incrWithTtl key loginLockSeconds).entry key = some first := by
      have hpositive : 0 < lockWindow := by decide
      rw [hopened]
      simp [World.entry, first, Option.filter, hpositive]
    have hexpiry : first.expiresAt = w'.now + lockWindow := rfl
    have hvalue : first.value = 1 := rfl
    have hnow : (w'.incrWithTtl key loginLockSeconds).now = w'.now := by rw [hopened]
    have hsucc : (j + 1) * lockWindow = j * lockWindow + lockWindow := Nat.succ_mul j lockWindow
    refine ⟨j + 1, by omega, ?_⟩
    rw [hfirst]
    exact ⟨by omega, by omega⟩
  | some entry =>
    rw [hentry] at hcount
    obtain ⟨hguesses, hexpiry⟩ := hcount
    have hvalue : entry.value < 10 := hopen entry hentry
    have hcounted : w'.incrWithTtl key loginLockSeconds =
        { w' with failures := w'.failures.set key { entry with value := entry.value + 1 } } := by
      unfold World.incrWithTtl
      rw [show (w'.failures.get key).filter _ = some entry from hentry]
    have hlive : w'.now < entry.expiresAt := by
      have hfound := (Option.filter_eq_some_iff.mp hentry).2
      exact of_decide_eq_true hfound
    have hnext : (w'.incrWithTtl key loginLockSeconds).entry key =
        some { entry with value := entry.value + 1 } := by
      rw [hcounted]
      simp [World.entry, Option.filter, hlive]
    refine ⟨j, ?_, ?_⟩
    · rw [hcounted]
      dsimp only
      omega
    · rw [hnext]
      dsimp only
      exact ⟨by omega, by omega⟩

theorem entry_elsewhere {key' : String} (hne : key ≠ key') :
    (w.cleared key').entry key = w.entry key ∧
      (w.incrWithTtl key' loginLockSeconds).entry key = w.entry key ∧
      (w.incrWithTtl key' loginLockSeconds).now = w.now := by
  refine ⟨?_, ?_, ?_⟩
  · unfold World.entry World.cleared
    simp only [Table.get_deleteMany]
    cases w.failures.get key <;> simp [Option.filter, hne]
  · unfold World.entry World.incrWithTtl
    split <;> simp [hne]
  · unfold World.incrWithTtl
    split <;> rfl

theorem windows_login {email : String} {answer : Except Err Unit × World}
    (h : Windows key w i n w')
    (heffect : LoginEffect w' (loginFailureKey K (K.normalize email)) answer)
    (htold : loginFailureKey K (K.normalize email) = key →
      ∃ e, answer.1 = .error e ∧ e ≠ invalidCredentials) : Windows key w i n answer.2 := by
  cases heffect with
  | locked told => exact h
  | refused unlocked =>
    by_cases hkey : loginFailureKey K (K.normalize email) = key
    · obtain ⟨e, he, hne⟩ := htold hkey
      cases he
      exact absurd rfl hne
    · obtain ⟨-, hentry, hnow⟩ := entry_elsewhere (w := w') fun heq => hkey heq.symm
      exact windows_same h hentry hnow
  | accepted =>
    by_cases hkey : loginFailureKey K (K.normalize email) = key
    · obtain ⟨e, he, -⟩ := htold hkey
      cases he
    · exact windows_same h (entry_elsewhere fun heq => hkey heq.symm).1 rfl

theorem windows_other {r : Request} (h : Windows key w i n w')
    (htold : r.counted K key → ∃ e, (serve K r w').1 = .error e ∧ e ≠ invalidCredentials) :
    Windows key w i n (serve K r w').2 := by
  by_cases hlogin : ∃ email password, r = .login email password
  · obtain ⟨email, password, rfl⟩ := hlogin
    apply windows_login h serve_login
    intro hkey
    exact htold (decide_eq_true hkey)
  · have hsame : SameCounters w' (serve K r w').2 :=
      serve_other fun email password heq => hlogin ⟨email, password, heq⟩
    refine windows_same h ?_ hsame.2
    rw [World.entry, World.entry, hsame.1, hsame.2]

theorem windows_refused {r : Request} (h : Windows key w i n w') (hcounted : r.counted K key)
    (hrefused : (serve K r w').1 = .error invalidCredentials) :
    Windows key w i (n + 1) (serve K r w').2 := by
  cases r with
  | login email password =>
    have hkey : loginFailureKey K (K.normalize email) = key := of_decide_eq_true hcounted
    have heffect : LoginEffect w' key (serve K (.login email password) w') := hkey ▸ serve_login
    generalize serve K (.login email password) w' = answer at heffect hrefused ⊢
    cases heffect with
    | locked told =>
      cases hrefused
      exact absurd rfl told
    | refused unlocked => exact windows_guess h unlocked
    | accepted => cases hrefused
  | _ => cases hcounted

end Guessing

/-- How often a password can be guessed: ten times for each quarter of an hour begun, and ten times
more where a counter was open. -/
theorem guesses_bounded (K : Library) (key : String) (w w' : World) (n : Nat)
    (h : Guessing K key w n w') : n ≤ loginMaxFailures *
      ((w'.now - w.now) / lockWindow + 1 + if (w.entry key).isSome then 1 else 0) := by
  have hwindows : Windows key w (if (w.entry key).isSome then 1 else 0) n w' := by
    induction h with
    | start =>
      refine ⟨0, by omega, ?_⟩
      cases hentry : w.entry key with
      | none => exact ⟨by omega, by omega⟩
      | some entry =>
        have hlive : w.now < entry.expiresAt :=
          of_decide_eq_true (Option.filter_eq_some_iff.mp hentry).2
        dsimp only [Option.isSome_some]
        exact ⟨by simp, by omega⟩
    | wait milliseconds before ih => exact windows_wait milliseconds ih
    | guess r before counted refused ih => exact windows_refused ih counted refused
    | other r before told ih => exact windows_other ih told
  obtain ⟨j, hbegun, hcount⟩ := hwindows
  generalize (if (w.entry key).isSome then 1 else 0) = i at hcount ⊢
  have hguesses : n ≤ 10 * (i + j) := by
    cases hentry : w'.entry key with
    | none =>
      rw [hentry] at hcount
      exact hcount.1
    | some entry =>
      rw [hentry] at hcount
      obtain ⟨hguesses, -⟩ := hcount
      omega
  have hwindow : j ≤ (w'.now - w.now) / lockWindow + 1 := by
    have hpositive : 0 < lockWindow := by decide
    have hsplit : (j - 1) * lockWindow = j * lockWindow - lockWindow := Nat.sub_one_mul j lockWindow
    have hless : j - 1 ≤ (w'.now - w.now) / lockWindow := by
      rw [Nat.le_div_iff_mul_le hpositive]
      omega
    omega
  have hlimit : loginMaxFailures = 10 := rfl
  rw [hlimit]
  omega

/-- Two wrong passwords for user 1. -/
theorem guesses_bounded_office : ∃ w' : World, w'.now = 7 ∧
    2 ≤ loginMaxFailures * ((w'.now - (office .admin .user).now) / lockWindow + 1 +
      if ((office .admin .user).entry (loginFailureKey plainLibrary "one")).isSome then 1
        else 0) := by
  let guess : Request := .login "one" "wrong"
  have hfirst : Guessing plainLibrary (loginFailureKey plainLibrary "one") (office .admin .user) 1
      (serve plainLibrary guess (office .admin .user)).2 := .guess guess .start rfl rfl
  have hsecond := Guessing.guess guess (.wait 7 hfirst) rfl rfl
  exact ⟨_, rfl, guesses_bounded plainLibrary _ (office .admin .user) _ 2 hsecond⟩

section Probing

variable {K : Library} {w v : World} {r : Request} {requests : List Request}

/-- What the clients are told, one after another, each after a wait in milliseconds. -/
def answers (K : Library) : List (Nat × Request) → World → List (Except Err Unit)
  | [], _ => []
  | (milliseconds, r) :: requests, w =>
    let served := serve K r (machine.env (.elapse milliseconds) w)
    served.1 :: answers K requests served.2

/-- A request with which somebody outside may try an address: a login that does not succeed and
meets no ban, or a letter asked for. -/
def Request.Probes (K : Library) (users : Table UserId User) : Request → Prop
  | .login email password => ∀ id row digest,
      (users.findFirst fun _ row => row.email = K.normalize email) = some (id, row) →
      row.passwordHash = some digest → row.deletedAt = none →
      row.bannedAt = none ∧ K.verify digest password = false
  | .requestReset _ _ | .resendVerification _ _ => True
  | _ => False

/-- The hash of the token of a letter. -/
def Request.letter (K : Library) : Request → Option String
  | .requestReset _ rawToken | .resendVerification _ rawToken => some (K.sha256 rawToken)
  | _ => none

/-- The tokens are new, and all different. -/
def NewTokens (K : Library) (w : World) (requests : List Request) : Prop :=
  (requests.filterMap (Request.letter K)).Nodup ∧
    ∀ h ∈ requests.filterMap (Request.letter K), w.tokenByHash h = none

/-- A login that tries an address is told the same whatever is known of the address. -/
theorem serve_probe {email password : String}
    (hprobe : (Request.login email password).Probes K w.users) :
    serve K (.login email password) w =
      if ∃ entry, w.entry (loginFailureKey K (K.normalize email)) = some entry ∧
          loginMaxFailures ≤ entry.value then
        (.error (.http 429 "too_many_login_attempts"
          "Too many failed login attempts. Try again later."), w)
      else (.error invalidCredentials,
        w.incrWithTtl (loginFailureKey K (K.normalize email)) loginLockSeconds) := by
  show (validateCredentials K email password >>= fun _ => pure ()).alone machine .done w = _
  rw [alone_bind]
  unfold validateCredentials
  by_cases hlocked : ∃ entry, w.entry (loginFailureKey K (K.normalize email)) = some entry ∧
      loginMaxFailures ≤ entry.value
  · obtain ⟨entry, hentry, hvalue⟩ := hlocked
    rw [alone_bind, alone_locked hentry hvalue, if_pos ⟨entry, hentry, hvalue⟩]
  · have hopen : ∀ entry, w.entry (loginFailureKey K (K.normalize email)) = some entry →
        entry.value < loginMaxFailures := by
      intro entry hentry
      by_contra hfull
      exact hlocked ⟨entry, hentry, by omega⟩
    rw [alone_bind, alone_assertLoginNotLocked hopen, if_neg hlocked]
    dsimp only
    rw [alone_bind, alone_read]
    dsimp only
    cases hfound : w.userByEmail (K.normalize email) with
    | none =>
      dsimp only [Option.bind_none]
      rw [alone_refused]
    | some found =>
      obtain ⟨id, row⟩ := found
      dsimp only [Option.bind_some]
      cases hdigest : row.passwordHash with
      | none =>
        dsimp only [Option.map_none]
        rw [alone_refused]
      | some digest =>
        dsimp only [Option.map_some]
        by_cases hdeleted : row.deletedAt.isSome
        · rw [if_pos hdeleted, alone_refused]
        · rw [if_neg hdeleted]
          have hlive : row.deletedAt = none := by simpa using hdeleted
          obtain ⟨hunbanned, hwrong⟩ := hprobe id row digest hfound hdigest hlive
          rw [hunbanned]
          simp only [Option.isSome_none, Bool.false_eq_true, if_false, hwrong, if_true]
          rw [alone_refused]

theorem alone_letter {email rawToken : String} {purpose : Purpose} {ttlMinutes : Nat}
    {skip : User → Prop} [DecidablePred skip] (hnew : w.tokenByHash (K.sha256 rawToken) = none) :
    ∃ w', (do
      match ← fetch (.email (K.normalize email)) (·.userByEmail (K.normalize email)) with
      | none => pure ()
      | some (id, user) =>
        if skip user then pure ()
        else do
          let _ ← createVerificationToken K (some id) user.email purpose ttlMinutes rawToken
          pure () : Act Unit).alone machine .done w = (.ok (), w') ∧ SameCounters w w' ∧
      w'.users = w.users ∧
      ∀ h, h ≠ K.sha256 rawToken → w.tokenByHash h = none → w'.tokenByHash h = none := by
  rw [alone_bind, alone_read]
  dsimp only
  cases w.userByEmail (K.normalize email) with
  | none => exact ⟨w, rfl, ⟨rfl, rfl⟩, rfl, fun _ _ h => h⟩
  | some found =>
    obtain ⟨id, row⟩ := found
    dsimp only
    by_cases hskip : skip row
    · rw [if_pos hskip]
      exact ⟨w, rfl, ⟨rfl, rfl⟩, rfl, fun _ _ h => h⟩
    · rw [if_neg hskip]
      let token : VerificationToken := ⟨some id, row.email, K.sha256 rawToken, purpose,
        w.now + ttlMinutes * 60000, none⟩
      let w' : World := { w with tokens := w.tokens.set w.tokens.fresh token }
      have hcreate : w.perform (.createToken token) = (.ok (), w') := by
        show w.createToken token = _
        unfold World.createToken
        rw [show w.tokenByHash token.tokenHash = none from hnew]
      refine ⟨w', ?_, ⟨rfl, rfl⟩, rfl, ?_⟩
      · unfold createVerificationToken
        rw [alone_bind, alone_bind, alone_read]
        dsimp only
        rw [alone_bind, alone_stmt, hcreate]
        rfl
      · intro h hne hnone
        have hbefore := Table.findFirst_none.mp hnone
        apply Table.findFirst_none.mpr
        intro k other hother
        simp only [w', Table.get_set] at hother
        split at hother
        · cases hother
          exact decide_eq_false fun heq => hne heq.symm
        · exact hbefore k other hother

/-- A letter asked for is promised, whether it is sent or not. -/
theorem serve_letter {h : String} (hr : r.letter K = some h) (hnew : w.tokenByHash h = none) :
    ∃ w', serve K r w = (.ok (), w') ∧ SameCounters w w' ∧ w'.users = w.users ∧
      ∀ h', h' ≠ h → w.tokenByHash h' = none → w'.tokenByHash h' = none := by
  cases r with
  | requestReset email rawToken =>
    cases hr
    exact alone_letter hnew
  | resendVerification email rawToken =>
    cases hr
    exact alone_letter hnew
  | _ => cases hr

theorem sameCounters_incr {key : String} (h : SameCounters w v) :
    SameCounters (w.incrWithTtl key loginLockSeconds) (v.incrWithTtl key loginLockSeconds) := by
  obtain ⟨hfailures, hnow⟩ := h
  unfold World.incrWithTtl
  rw [hfailures, hnow]
  split <;> exact ⟨rfl, rfl⟩

theorem tokens_incr {key : String} :
    (w.incrWithTtl key loginLockSeconds).tokens = w.tokens := by
  unfold World.incrWithTtl
  split <;> rfl

/-- One request, in two worlds. -/
theorem serve_alike (h : SameCounters w v) (hw : r.Probes K w.users) (hv : r.Probes K v.users)
    (hneww : NewTokens K w (r :: requests)) (hnewv : NewTokens K v (r :: requests)) :
    (serve K r w).1 = (serve K r v).1 ∧ SameCounters (serve K r w).2 (serve K r v).2 ∧
      ((serve K r w).2.users = w.users ∧ NewTokens K (serve K r w).2 requests) ∧
      (serve K r v).2.users = v.users ∧ NewTokens K (serve K r v).2 requests := by
  cases hletter : r.letter K with
  | some hash =>
    have hserved {w : World} (hnew : NewTokens K w (r :: requests)) : ∃ w',
        serve K r w = (.ok (), w') ∧ SameCounters w w' ∧ w'.users = w.users ∧
          NewTokens K w' requests := by
      obtain ⟨hnodup, hnone⟩ := hnew
      rw [List.filterMap_cons_some hletter] at hnodup hnone
      obtain ⟨hnotin, hnodup⟩ := List.nodup_cons.mp hnodup
      obtain ⟨w', hw', hsame, husers, hothers⟩ := serve_letter hletter (hnone hash (by simp))
      refine ⟨w', hw', hsame, husers, hnodup, ?_⟩
      intro h' hmem
      apply hothers h' _ (hnone h' (List.mem_cons_of_mem _ hmem))
      rintro rfl
      exact hnotin hmem
    obtain ⟨w', hw', hsamew, hrestw⟩ := hserved hneww
    obtain ⟨v', hv', hsamev, hrestv⟩ := hserved hnewv
    rw [hw', hv']
    have hsame : SameCounters w' v' :=
      ⟨hsamev.1.trans (h.1.trans hsamew.1.symm), hsamev.2.trans (h.2.trans hsamew.2.symm)⟩
    exact ⟨rfl, hsame, hrestw, hrestv⟩
  | none =>
    have htail {w w' : World} (hnew : NewTokens K w (r :: requests))
      (htokens : w'.tokens = w.tokens) :
        NewTokens K w' requests := by
      unfold NewTokens at hnew ⊢
      rw [List.filterMap_cons_none hletter] at hnew
      unfold World.tokenByHash at hnew ⊢
      rw [htokens]
      exact hnew
    cases r with
    | login email password =>
      rw [serve_probe hw, serve_probe hv]
      have hentry {key : String} : v.entry key = w.entry key := by
        rw [World.entry, World.entry, h.1, h.2]
      rw [hentry]
      split
      · exact ⟨rfl, h, ⟨rfl, htail hneww rfl⟩, rfl, htail hnewv rfl⟩
      · refine ⟨rfl, sameCounters_incr h, ⟨users_incrWithTtl, ?_⟩, users_incrWithTtl, ?_⟩
        · exact htail hneww tokens_incr
        · exact htail hnewv tokens_incr
    | requestReset email rawToken => cases hletter
    | resendVerification email rawToken => cases hletter
    | _ => exact hw.elim

end Probing

/-- Whoever tries addresses from outside, at any pace, is told the same in two worlds with other
accounts: nothing tells whether there is an account under an address. -/
theorem answers_alike (K : Library) (w v : World) (requests : List (Nat × Request))
    (hsame : SameCounters w v) (hw : ∀ r ∈ requests, r.2.Probes K w.users)
    (hv : ∀ r ∈ requests, r.2.Probes K v.users) (hneww : NewTokens K w (requests.map Prod.snd))
    (hnewv : NewTokens K v (requests.map Prod.snd)) :
    answers K requests w = answers K requests v := by
  induction requests generalizing w v with
  | nil => rfl
  | cons first requests ih =>
    obtain ⟨milliseconds, r⟩ := first
    -- neither the accounts nor the tokens change while time passes
    have hlater : SameCounters (machine.env (.elapse milliseconds) w)
        (machine.env (.elapse milliseconds) v) := ⟨hsame.1, by simp [machine, hsame.2]⟩
    obtain ⟨hanswer, hafter, ⟨husersw, hrestw⟩, husersv, hrestv⟩ :=
      serve_alike hlater (hw _ List.mem_cons_self) (hv _ List.mem_cons_self) hneww hnewv
    have htail := ih _ _ hafter
      (fun r' hr' => husersw.symm ▸ hw r' (List.mem_cons_of_mem _ hr'))
      (fun r' hr' => husersv.symm ▸ hv r' (List.mem_cons_of_mem _ hr')) hrestw hrestv
    simp only [answers, hanswer, htail]

/-- A wrong password and, a second later, a reset link for "one", with an account of that address
and without. -/
theorem answers_alike_office :
    answers plainLibrary [(0, .login "one" "wrong"), (1000, .requestReset "one" "raw")]
      (office .admin .user) =
    answers plainLibrary [(0, .login "one" "wrong"), (1000, .requestReset "one" "raw")]
      { office .admin .user with users := .empty } := by
  have hfound : ((office .admin .user).users.findFirst fun _ row => row.email = "one") =
      some (1, sampleUser "one" .user) := by decide
  have hsame : SameCounters (office .admin .user) { office .admin .user with users := .empty } :=
    ⟨rfl, rfl⟩
  apply answers_alike plainLibrary _ _ _ hsame
  · simp only [List.mem_cons, List.not_mem_nil, or_false, forall_eq_or_imp, forall_eq]
    refine ⟨?_, trivial⟩
    intro id row digest hrow hdigest _
    have hsame : (office .admin .user).users.findFirst (fun _ row => row.email = "one") =
      some (id, row) := hrow
    rw [hfound] at hsame
    cases hsame
    cases hdigest
    exact ⟨rfl, rfl⟩
  · simp only [List.mem_cons, List.not_mem_nil, or_false, forall_eq_or_imp, forall_eq]
    refine ⟨?_, trivial⟩
    intro id row digest hrow
    cases hrow
  · exact ⟨by decide, fun _ _ => rfl⟩
  · exact ⟨by decide, fun _ _ => rfl⟩

end CarSalePro.Accounts
