import Mathlib.Data.List.Perm.Subperm
import CarSalePro.Quota.Grants

namespace CarSalePro.Quota

open Store Interleave Prog

/-- A call of `grantPro`. -/
structure GrantCall where
  device : DeviceId
  platform : IapPlatform
  purchase : Option String
  deriving DecidableEq, Repr

namespace GrantCall

def prog (call : GrantCall) : Act Unit := do
  let _ ← grantPro call.device call.platform call.purchase
  pure ()

/-- The row the call asks for, if it names a purchase. -/
def grant? (call : GrantCall) : Option IapGrant :=
  (call.purchase.filter (· ≠ "")).map fun purchase => ⟨call.platform, purchase, call.device⟩

end GrantCall

/-- How often each thread tried its transaction, and which of them made a row. -/
structure GrantLog where
  attempts : Nat → Nat
  inserted : Nat → Bool

def GrantLog.empty : GrantLog := ⟨fun _ => 0, fun _ => false⟩

def recordGrant : Recorder Site Stmt World GrantLog := fun t l w w' h =>
  match l with
  | .call (.grant grant) =>
    { attempts := Function.update h.attempts t (h.attempts t + 1)
      inserted := Function.update h.inserted t
        (h.inserted t || ((w.grants.get grant).isNone && (w'.grants.get grant).isSome)) }
  | _ => h

/-- The calls, all at their first step. -/
def launchGrants (w : World) (calls : List GrantCall) : Run GrantLog :=
  ⟨w, .empty, calls.map GrantCall.prog⟩

/-- The devices of the list hold a row of the purchase. -/
def World.Hold (w : World) (platform : IapPlatform) (purchase : String) (devices : List DeviceId) :
    Prop := ∀ device ∈ devices, (w.grants.get ⟨platform, purchase, device⟩).isSome

/-- No purchase is held by more devices than it may unlock. -/
def World.Capped (w : World) : Prop := ∀ platform purchase (devices : List DeviceId),
  devices.Nodup → w.Hold platform purchase devices → devices.length ≤ iapMaxDevicesPerPurchase

section Rows

variable {w : World} {grant key : IapGrant}

/-- Every device that holds a row is among the rows of the purchase. -/
theorem length_le_holders {platform : IapPlatform} {purchase : String} {devices : List DeviceId}
    (hnodup : devices.Nodup) (hhold : w.Hold platform purchase devices) :
    devices.length ≤ (w.holders platform purchase).length := by
  have hsub : devices ⊆ (w.holders platform purchase).map fun r => r.1.deviceId := by
    intro device hdevice
    obtain ⟨u, hu⟩ := Option.isSome_iff_exists.mp (hhold device hdevice)
    exact List.mem_map.mpr ⟨(⟨platform, purchase, device⟩, u),
      Table.mem_findMany.mpr ⟨hu, by simp⟩, rfl⟩
  have hle := (List.subperm_of_subset hnodup hsub).length_le
  simpa using hle

/-- A new row in the table is one more row, at the most, of those that match. -/
theorem Capped.insert (h : w.Capped)
    (hroom : (w.holders grant.platform grant.storeTransactionId).length < iapMaxDevicesPerPurchase)
    {w' : World} (hw : w'.grants = w.grants.set grant ()) : w'.Capped := by
  intro platform purchase devices hnodup hhold
  have hold (device : DeviceId) (hd : device ∈ devices)
      (hne : (⟨platform, purchase, device⟩ : IapGrant) ≠ grant) :
      (w.grants.get ⟨platform, purchase, device⟩).isSome := by
    have hrow := hhold device hd
    rw [hw, Table.get_set, if_neg hne] at hrow
    exact hrow
  by_cases hsame : platform = grant.platform ∧ purchase = grant.storeTransactionId
  · obtain ⟨rfl, rfl⟩ := hsame
    have hothers : (devices.erase grant.deviceId).length ≤
        (w.holders grant.platform grant.storeTransactionId).length := by
      refine length_le_holders (hnodup.erase _) fun device hd => ?_
      obtain ⟨hne, hd⟩ := (hnodup.mem_erase_iff).mp hd
      exact hold device hd fun he => hne (congrArg IapGrant.deviceId he)
    have herase : devices.length ≤ (devices.erase grant.deviceId).length + 1 := by
      rw [List.length_erase]
      split <;> omega
    omega
  · refine h platform purchase devices hnodup fun device hd => hold device hd ?_
    rintro rfl
    exact hsame ⟨rfl, rfl⟩

end Rows

/-- Where a call stands: it names no purchase; it has tried some times; its device has its row; the
purchase is used up; it gave up. -/
inductive GrantPhase where
  | open_
  | trying (grant : IapGrant) (tried : Nat)
  | granted (grant : IapGrant)
  | refused (grant : IapGrant)
  | gaveUp (grant : IapGrant)

namespace GrantPhase

/-- The phase the next attempt of a call leads to. -/
def next (grant : IapGrant) (tried : Nat) : Except Err DeviceQuota → GrantPhase
  | .ok _ => granted grant
  | .error e =>
    if e = iapDeviceLimit then refused grant
    else if e.lostRace ∧ tried + 1 < grantAttempts then trying grant (tried + 1)
    else gaveUp grant

end GrantPhase

/-- The steps of `grantPro`. -/
inductive GrantMove : GrantPhase → Label Site Stmt → Fate → World → GrantPhase → Prop
  | mark (device : DeviceId) (platform : IapPlatform) (c : Fate) (w : World) :
    GrantMove .open_ (.call (.markPro device platform)) c w .open_
  | attempt (grant : IapGrant) (tried : Nat) (c : Fate) (w : World) (left : tried < grantAttempts) :
    GrantMove (.trying grant tried) (.call (.grant grant)) c w
      (.next grant tried (World.exec (.grant grant) c w).1)

def granting : Discipline Site Stmt World Fate GrantPhase where
  view _ _ := True
  moves := GrantMove

/-- How a call ends: with an answer or an error. -/
def GrantPhase.Answered (grant : Option IapGrant) (ph : GrantPhase) : Prop :=
  ph = grant.elim .open_ .granted

def GrantPhase.Failed (grant : Option IapGrant) (e : Err) (ph : GrantPhase) : Prop :=
  match grant with
  | none => ph = .open_
  | some grant => if e = iapDeviceLimit then ph = .refused grant else ph = .gaveUp grant

section Flow

variable {grant : IapGrant}

theorem GrantPhase.Failed.limit {ph : GrantPhase} (h : ph.Failed (some grant) iapDeviceLimit) :
    ph = .refused grant := by
  simpa [GrantPhase.Failed] using h

theorem GrantPhase.Failed.other {ph : GrantPhase} {e : Err} (h : ph.Failed (some grant) e)
    (he : e ≠ iapDeviceLimit) : ph = .gaveUp grant := by
  simpa [GrantPhase.Failed, he] using h

/-- One attempt, and what the loop makes of it. -/
theorem grant_attempt {tried : Nat} (hleft : tried < grantAttempts) :
    granting.Flow machine (· = .trying grant tried)
    (Prog.perform (Stmt.grant grant) : Act DeviceQuota)
      (fun _ x => x = .granted grant) fun e x => x = .next grant tried (.error e) := by
  refine Discipline.Flow.perform fun x c w hx _ => ?_
  subst hx
  refine ⟨_, .attempt grant tried c w hleft, ?_⟩
  rw [show machine.exec = World.exec from rfl]
  cases h : (World.exec (.grant grant) c w).1 with
  | ok quota => rfl
  | error e => rfl

/-- An error that is not answered by another attempt. -/
theorem failed_of_next {tried : Nat} {e : Err}
    (hlast : ¬ (e.lostRace ∧ tried + 1 < grantAttempts)) :
    GrantPhase.Failed (some grant) e (.next grant tried (.error e)) := by
  unfold GrantPhase.next GrantPhase.Failed
  by_cases he : e = iapDeviceLimit
  · simp only [if_pos he]
  · simp only [if_neg he, if_neg hlast]

theorem grant_loop {tried left : Nat} (hleft : tried + left + 1 = grantAttempts) :
    granting.Flow machine (· = .trying grant tried) (grantLoop grant left)
      (fun _ x => x = .granted grant) (GrantPhase.Failed (some grant)) := by
  induction left generalizing tried with
  | zero =>
    refine (grant_attempt (by omega)).post (fun _ _ h => h) fun e x h => ?_
    subst h
    exact failed_of_next fun h => by omega
  | succ left ih =>
    refine Discipline.Flow.seq (Discipline.Flow.attempt (grant_attempt (by omega))) fun r => ?_
    cases r with
    | ok quota => exact .pure fun _ h => h
    | error e =>
      refine .ite (fun hlost => ?_) fun hlost => ?_
      · refine Discipline.Flow.weaken (@ih (tried + 1) (by omega)) (fun x hx => ?_)
          (fun _ _ h => h) fun _ _ h => h
        have hrace : e ≠ iapDeviceLimit := by
          rintro rfl
          cases hlost
        have hx : x = .next grant tried (.error e) := hx
        rw [hx, GrantPhase.next, if_neg hrace, if_pos ⟨hlost, by omega⟩]
      · refine .throw fun x hx => ?_
        have hx : x = .next grant tried (.error e) := hx
        exact hx ▸ failed_of_next fun h => hlost h.1

/-- Where a call begins. -/
def GrantCall.phase (call : GrantCall) : GrantPhase :=
  call.grant?.elim .open_ fun grant => .trying grant 0

theorem grant_call (call : GrantCall) : granting.Follows machine
    (fun _ => GrantPhase.Answered call.grant?) (GrantPhase.Failed call.grant?) call.prog
    call.phase := by
  have hflow : granting.Flow machine (· = call.phase)
      (grantPro call.device call.platform call.purchase)
      (fun _ => GrantPhase.Answered call.grant?) (GrantPhase.Failed call.grant?) := by
    unfold grantPro GrantCall.phase GrantCall.grant?
    cases call.purchase.filter (· ≠ "") with
    | none =>
      refine Discipline.Flow.perform fun x c w hx _ => ?_
      subst hx
      refine ⟨_, .mark call.device call.platform c w, ?_⟩
      cases (machine.exec (.markPro call.device call.platform) c w).1 with
      | ok quota => rfl
      | error e => rfl
    | some purchase => exact grant_loop rfl
  have hprog : granting.Flow machine (· = call.phase) call.prog
      (fun _ => GrantPhase.Answered call.grant?) (GrantPhase.Failed call.grant?) :=
    hflow.seq fun _ => Discipline.Flow.pure (a := ())
      (B := fun _ => GrantPhase.Answered call.grant?) fun _ h => h
  exact hprog _ rfl

end Flow

/-- What the phase of thread `t` means. -/
def GrantPhase.Means (t : Nat) (x : World × GrantLog) : GrantPhase → Prop
  | open_ => x.2.attempts t = 0 ∧ x.2.inserted t = false
  | trying _ tried => x.2.attempts t = tried ∧ tried < grantAttempts ∧ x.2.inserted t = false
  | granted grant => x.2.attempts t ≤ grantAttempts ∧ (x.1.grants.get grant).isSome
  | refused grant => x.2.attempts t ≤ grantAttempts ∧ x.2.inserted t = false ∧
      x.1.grants.get grant = none ∧
      iapMaxDevicesPerPurchase ≤ (x.1.holders grant.platform grant.storeTransactionId).length
  | gaveUp _ => x.2.attempts t ≤ grantAttempts ∧ x.2.inserted t = false

/-- The invariant of the grants. -/
structure CapKept (Φ : Nat → GrantPhase) (x : World × GrantLog) : Prop where
  capped : x.1.Capped
  means : ∀ t, (Φ t).Means t x

section Moves

variable {Φ : Nat → GrantPhase} {x y : World × GrantLog} {t : Nat} {ph : GrantPhase}

/-- A step that makes no row but `grant`, and that only where there is room. -/
structure GrowsBy (x y : World × GrantLog) (t : Nat) : Prop where
  capped : y.1.Capped
  held : ∀ key, (x.1.grants.get key).isSome → (y.1.grants.get key).isSome
  used : ∀ key, x.1.grants.get key = none →
    iapMaxDevicesPerPurchase ≤ (x.1.holders key.platform key.storeTransactionId).length →
    y.1.grants.get key = none ∧
      iapMaxDevicesPerPurchase ≤ (y.1.holders key.platform key.storeTransactionId).length
  others : ∀ u, u ≠ t → y.2.attempts u = x.2.attempts u ∧ y.2.inserted u = x.2.inserted u

theorem growsBy_same (hI : CapKept Φ x) (hgrants : y.1.grants = x.1.grants)
    (hothers : ∀ u, u ≠ t → y.2.attempts u = x.2.attempts u ∧ y.2.inserted u = x.2.inserted u) :
    GrowsBy x y t := by
  have hsame (key : IapGrant) : y.1.grants.get key = x.1.grants.get key := by rw [hgrants]
  have hholders (key : IapGrant) : y.1.holders key.platform key.storeTransactionId =
      x.1.holders key.platform key.storeTransactionId := by simp only [World.holders, hgrants]
  refine ⟨fun platform purchase devices hnodup hhold => ?_, fun key h => by rwa [hsame],
    fun key hnone hfull => ⟨by rwa [hsame], by rwa [hholders]⟩, hothers⟩
  exact hI.capped platform purchase devices hnodup fun device hd => by
    have hrow := hhold device hd
    rwa [hsame] at hrow

theorem growsBy_insert {grant : IapGrant} (hI : CapKept Φ x) (hnone : x.1.grants.get grant = none)
    (hroom : (x.1.holders grant.platform grant.storeTransactionId).length <
      iapMaxDevicesPerPurchase) (hgrants : y.1.grants = x.1.grants.set grant ())
    (hothers : ∀ u, u ≠ t → y.2.attempts u = x.2.attempts u ∧ y.2.inserted u = x.2.inserted u) :
    GrowsBy x y t := by
  refine ⟨Capped.insert hI.capped hroom hgrants, fun key h => ?_, fun key habsent hfull => ?_,
    hothers⟩
  · rw [hgrants, Table.get_set]
    split
    · rfl
    · exact h
  · have hne : key ≠ grant := by
      rintro rfl
      omega
    refine ⟨by rw [hgrants, Table.get_set, if_neg hne]; exact habsent, hfull.trans ?_⟩
    simp only [World.holders, hgrants]
    exact Table.length_findMany_set hnone _

theorem CapKept.change (hI : CapKept Φ x) (hgrows : GrowsBy x y t) (hself : ph.Means t y) :
    CapKept (Function.update Φ t ph) y := by
  refine ⟨hgrows.capped, fun u => ?_⟩
  by_cases hu : u = t
  · subst hu
    rw [Function.update_self]
    exact hself
  · rw [Function.update_of_ne hu]
    obtain ⟨hattempts, hinserted⟩ := hgrows.others u hu
    have hmeans := hI.means u
    cases hph : Φ u with
    | open_ =>
      rw [hph] at hmeans
      exact ⟨hattempts.trans hmeans.1, hinserted.trans hmeans.2⟩
    | trying grant tried =>
      rw [hph] at hmeans
      exact ⟨hattempts.trans hmeans.1, hmeans.2.1, hinserted.trans hmeans.2.2⟩
    | granted grant =>
      rw [hph] at hmeans
      exact ⟨hattempts ▸ hmeans.1, hgrows.held grant hmeans.2⟩
    | refused grant =>
      rw [hph] at hmeans
      obtain ⟨htried, hnew, habsent, hfull⟩ := hmeans
      obtain ⟨habsent', hfull'⟩ := hgrows.used grant habsent hfull
      exact ⟨hattempts ▸ htried, hinserted.trans hnew, habsent', hfull'⟩
    | gaveUp grant =>
      rw [hph] at hmeans
      exact ⟨hattempts ▸ hmeans.1, hinserted.trans hmeans.2⟩

theorem recordGrant_others {grant : IapGrant} {w w' : World} {h : GrantLog} (u : Nat) (hu : u ≠ t) :
    (recordGrant t (.call (.grant grant)) w w' h).attempts u = h.attempts u ∧
      (recordGrant t (.call (.grant grant)) w w' h).inserted u = h.inserted u :=
  ⟨Function.update_of_ne hu _ _, Function.update_of_ne hu _ _⟩

theorem recordGrant_self {grant : IapGrant} {w w' : World} {h : GrantLog} :
    (recordGrant t (.call (.grant grant)) w w' h).attempts t = h.attempts t + 1 ∧
      (recordGrant t (.call (.grant grant)) w w' h).inserted t =
        (h.inserted t || ((w.grants.get grant).isNone && (w'.grants.get grant).isSome)) :=
  ⟨Function.update_self _ _ _, Function.update_self _ _ _⟩

/-- An attempt that makes no row: the thread tries again, gives up, or the purchase is used up. -/
theorem next_failed {grant : IapGrant} {tried : Nat} {e : Err} (hleft : tried < grantAttempts)
    (hattempts : y.2.attempts t = tried + 1) (hinserted : y.2.inserted t = false)
    (hlimit : e = iapDeviceLimit → y.1.grants.get grant = none ∧
      iapMaxDevicesPerPurchase ≤ (y.1.holders grant.platform grant.storeTransactionId).length) :
    (GrantPhase.next grant tried (.error e)).Means t y := by
  have htried : y.2.attempts t ≤ grantAttempts := hattempts ▸ hleft
  simp only [GrantPhase.next]
  by_cases he : e = iapDeviceLimit
  · rw [if_pos he]
    exact ⟨htried, hinserted, hlimit he⟩
  · rw [if_neg he]
    by_cases hagain : e.lostRace ∧ tried + 1 < grantAttempts
    · rw [if_pos hagain]
      exact ⟨hattempts, hagain.2, hinserted⟩
    · rw [if_neg hagain]
      exact ⟨htried, hinserted⟩

theorem CapKept.attempt {grant : IapGrant} {tried : Nat} {c : Fate} (hI : CapKept Φ x)
    (hph : Φ t = .trying grant tried) (hleft : tried < grantAttempts) :
    CapKept (Function.update Φ t (.next grant tried (World.exec (.grant grant) c x.1).1))
      ((World.exec (.grant grant) c x.1).2,
        recordGrant t (.call (.grant grant)) x.1 (World.exec (.grant grant) c x.1).2 x.2) := by
  have hmeans := hI.means t
  rw [hph] at hmeans
  obtain ⟨hattempts, -, hinserted⟩ := hmeans
  cases c with
  | fails e =>
    rw [show World.exec (.grant grant) (.fails e) x.1 = (.error (.db e), x.1) from rfl]
    refine hI.change (growsBy_same hI rfl recordGrant_others) ?_
    refine next_failed hleft (recordGrant_self.1.trans (by rw [hattempts])) ?_ fun h => by cases h
    rw [recordGrant_self.2, hinserted]
    cases x.1.grants.get grant <;> rfl
  | ok =>
    have heff := grant_effect grant x.1
    show CapKept (Function.update Φ t (.next grant tried (x.1.grant grant).1))
      ((x.1.grant grant).2, recordGrant t (.call (.grant grant)) x.1 (x.1.grant grant).2 x.2)
    generalize x.1.grant grant = out at heff ⊢
    cases heff with
    | again held =>
      refine hI.change (growsBy_same hI rfl recordGrant_others) ⟨?_, held⟩
      rw [recordGrant_self.1, hattempts]
      exact hleft
    | full absent full =>
      refine hI.change (growsBy_same hI rfl recordGrant_others) ?_
      refine next_failed hleft (recordGrant_self.1.trans (by rw [hattempts])) ?_
        fun _ => ⟨absent, full⟩
      rw [recordGrant_self.2, hinserted, absent]
      rfl
    | first absent room =>
      refine hI.change (growsBy_insert hI absent room rfl recordGrant_others) ⟨?_, ?_⟩
      · rw [recordGrant_self.1, hattempts]
        exact hleft
      · simp

theorem capKept : granting.Invariant machine recordGrant (fun _ _ _ _ => true) CapKept where
  view _ _ _ _ := trivial
  move Φ x t l c ph hI _ hm := by
    generalize hph : Φ t = here at hm
    cases hm with
    | mark device platform c w =>
      have hmeans := hI.means t
      rw [hph] at hmeans
      refine hI.change (growsBy_same hI ?_ fun _ _ => ⟨rfl, rfl⟩) hmeans
      cases c <;> rfl
    | attempt grant tried c w left => exact hI.attempt hph left
  env _ _ _ h := h

end Moves

/-- No call tries its transaction more often than it may. -/
theorem GrantPhase.Means.tried {t : Nat} {x : World × GrantLog} {ph : GrantPhase}
    (h : ph.Means t x) : x.2.attempts t ≤ grantAttempts := by
  cases ph with
  | open_ => exact h.1 ▸ Nat.zero_le _
  | trying grant tried => exact h.1 ▸ Nat.le_of_lt h.2.1
  | granted grant => exact h.1
  | refused grant => exact h.1
  | gaveUp grant => exact h.1

theorem capKept_launch {w : World} (calls : List GrantCall) (hw : w.Capped) :
    CapKept (fun t => (calls[t]?).elim .open_ GrantCall.phase) (w, .empty) := by
  refine ⟨hw, fun t => ?_⟩
  cases calls[t]? with
  | none => exact ⟨rfl, rfl⟩
  | some call =>
    show call.phase.Means t (w, .empty)
    unfold GrantCall.phase
    cases call.grant? with
    | none => exact ⟨rfl, rfl⟩
    | some grant => exact ⟨rfl, by decide, rfl⟩

/-- The run rule for the calls of `grantPro`. -/
theorem capKept_reach {w : World} {calls : List GrantCall} {g : Run GrantLog} (hw : w.Capped)
    (hg : Pool.Reach machine recordGrant (fun _ _ _ _ => true) (launchGrants w calls) g) :
    ∃ Φ, CapKept Φ g.snapshot ∧ ∀ t call p, calls[t]? = some call → g.threads[t]? = some p →
      granting.Follows machine (fun _ => GrantPhase.Answered call.grant?)
        (GrantPhase.Failed call.grant?) p (Φ t) := by
  have hthreads (t : Nat) (p : Act Unit) (hp : (launchGrants w calls).threads[t]? = some p) :
      granting.Follows machine
        (fun _ ph => ∀ call, calls[t]? = some call → ph.Answered call.grant?)
        (fun e ph => ∀ call, calls[t]? = some call → ph.Failed call.grant? e) p
        ((calls[t]?).elim .open_ GrantCall.phase) := by
    simp only [launchGrants, List.getElem?_map] at hp
    obtain ⟨call, hcall, rfl⟩ := Option.map_eq_some_iff.mp hp
    rw [hcall]
    refine (grant_call call).mono (fun _ ph h c hc => ?_) fun e ph h c hc => ?_
    · exact Option.some.inj hc ▸ h
    · exact Option.some.inj hc ▸ h
  obtain ⟨Φ, hI, hends, -⟩ := capKept.reach
    (B := fun t _ ph => ∀ call, calls[t]? = some call → ph.Answered call.grant?)
    (E := fun t e ph => ∀ call, calls[t]? = some call → ph.Failed call.grant? e)
    (capKept_launch calls hw) hthreads hg
  refine ⟨Φ, hI, fun t call p hcall hp => (hends t p hp).mono (fun _ ph h => ?_) fun e ph h => ?_⟩
  · exact h call hcall
  · exact h call hcall

/-- The device cap of a purchase. However the calls of `grantPro` interleave, no purchase is held by
more devices than it may unlock, a device that is refused for the cap has no row, and a call ends,
after a fixed number of attempts at the most, with a row or with an error and no new row. -/
theorem device_cap (w : World) (calls : List GrantCall) (g : Run GrantLog) (hw : w.Capped)
    (hg : Pool.Reach machine recordGrant (fun _ _ _ _ => true) (launchGrants w calls) g) :
    g.state.Capped ∧ ∀ t call, calls[t]? = some call →
      g.hist.attempts t ≤ grantAttempts ∧
      ∀ grant, call.grant? = some grant →
        (g.threads[t]? = some (.ret ()) → (g.state.grants.get grant).isSome) ∧
        (g.threads[t]? = some (.raise iapDeviceLimit) → g.state.grants.get grant = none) ∧
        ∀ e, g.threads[t]? = some (.raise e) → g.hist.inserted t = false := by
  obtain ⟨Φ, hI, hends⟩ := capKept_reach hw hg
  refine ⟨hI.capped, fun t call hcall => ⟨(hI.means t).tried, fun grant hgrant => ⟨fun hp => ?_,
    fun hp => ?_, fun e hp => ?_⟩⟩⟩
  · have hph : Φ t = (call.grant?).elim .open_ .granted := hends t call _ hcall hp
    have hmeans := hI.means t
    rw [hph, hgrant] at hmeans
    exact hmeans.2
  · have hfailed : (Φ t).Failed call.grant? iapDeviceLimit := hends t call _ hcall hp
    rw [hgrant] at hfailed
    have hph : Φ t = .refused grant := hfailed.limit
    have hmeans := hI.means t
    rw [hph] at hmeans
    exact hmeans.2.2.1
  · have hfailed : (Φ t).Failed call.grant? e := hends t call _ hcall hp
    rw [hgrant] at hfailed
    have hmeans := hI.means t
    by_cases he : e = iapDeviceLimit
    · subst he
      rw [hfailed.limit] at hmeans
      exact hmeans.2.1
    · rw [hfailed.other he] at hmeans
      exact hmeans.2

section Boundary

/-- Nobody holds anything yet. -/
def newWorld : World where
  quotas := .empty
  grants := .empty
  reports := .empty
  orders := .empty
  deviceLinks := .empty
  now := 0
  defaultLimit := 3
  enforceFreeLimit := false
  r2Configured := true
  incomplete := fun _ => none

theorem capped_newWorld : newWorld.Capped := by
  intro platform purchase devices _ hhold
  cases devices with
  | nil => exact Nat.zero_le _
  | cons device devices =>
    have hrow := hhold device (by simp)
    cases hrow

/-- Six devices ask for one purchase. -/
def sixDevices : List GrantCall :=
  ["a", "b", "c", "d", "e", "f"].map fun device => ⟨device, .ios, some "20"⟩

/-- Whether thread `t` was refused for the cap, and how many devices hold the purchase. -/
def capReached (t : Nat) (g : Run GrantLog) : Bool × Nat :=
  ((g.threads[t]?).any (fun p => match p with
    | .raise e => e = iapDeviceLimit
    | _ => false), (g.state.holders .ios "20").length)

/-- The sixth device is refused, and holds no row. -/
theorem device_cap_sixth : ∃ g : Run GrantLog, (g.state.holders .ios "20").length = 5 ∧
    g.state.grants.get ⟨.ios, "20", "f"⟩ = none := by
  have hrun : Pool.observe machine recordGrant (fun _ _ _ _ => true) (capReached 5)
      ((List.range 5).map fun t => .run t .ok) (.run 5 .ok) (launchGrants newWorld sixDevices) =
      some ((false, 5), (true, 5)) := by decide +kernel
  obtain ⟨g, g', hg, hm, hs, -, hafter⟩ := Pool.observe_eq hrun
  obtain ⟨hrefused, hfive⟩ := Prod.mk.inj hafter
  obtain ⟨p, hp, hraise⟩ := (Option.any_eq_true ..).mp hrefused
  have hthread : g'.threads[5]? = some (.raise iapDeviceLimit) := by
    cases p with
    | raise e => rw [hp, of_decide_eq_true hraise]
    | ret a => cases hraise
    | ask l f k => cases hraise
    | call s k => cases hraise
  have hcap := device_cap newWorld sixDevices g' capped_newWorld (.next (m := .run 5 .ok) hg hm hs)
  exact ⟨g', hfive, ((hcap.2 5 _ rfl).2 _ rfl).2.1 hthread⟩

end Boundary

end CarSalePro.Quota
