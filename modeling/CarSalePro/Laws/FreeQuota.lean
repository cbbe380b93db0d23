import CarSalePro.Interleave.Recall
import CarSalePro.Quota.Effects

namespace CarSalePro.Quota

open Store Interleave Prog

/-- No device has more free reports counted than it may. -/
def World.Within (w : World) : Prop := ∀ device quota, w.quotas.get device = some quota →
  quota.freeReportsUsed ≤ quota.freeReportsLimit

/-- The state in which a thread has read its quota. -/
abbrev QuotaMemory := Option World

namespace QuotaMemory

def note (m : QuotaMemory) (l : Label Site Stmt) (w : World) : QuotaMemory :=
  match l with
  | .ask .consumeQuota => some w
  | _ => m

/-- A report is counted where the quota that was read has room for it. -/
def may (m : QuotaMemory) : Stmt → Prop
  | .incrementFree device => ∃ w, m = some w ∧
      ¬ (w.enforceFreeLimit ∧ (w.quota device).freeReportsLimit ≤ (w.quota device).freeReportsUsed)
  | _ => True

end QuotaMemory

/-- What each thread has read, which of them counted a report over the limit, and which of them
filed a free one then. -/
structure OverLog where
  memory : Nat → QuotaMemory
  exceeded : Nat → Bool
  filed : Nat → Bool

def OverLog.empty : OverLog := ⟨fun _ => none, fun _ => false, fun _ => false⟩

/-- What a step says of the reports over the limit. -/
def recordExcess (t : Nat) (l : Label Site Stmt) (w w' : World) (h : OverLog) : OverLog :=
  match l with
  | .call (.incrementFree device) =>
    if (w.quota device).freeReportsUsed ≠ (w'.quota device).freeReportsUsed then
      let exceeded : Bool := (w'.quota device).freeReportsLimit < (w'.quota device).freeReportsUsed
      { h with exceeded := Function.update h.exceeded t exceeded }
    else h
  | .call (.createReport row) =>
    if row.tier = .free ∧ (w'.reports.get w.reports.fresh).isSome then
      { h with filed := Function.update h.filed t (h.filed t || h.exceeded t) }
    else h
  | _ => h

def recordOver : Recorder Site Stmt World OverLog := fun t l w w' h =>
  { recordExcess t l w w' h with
    memory := Function.update h.memory t ((h.memory t).note l w) }

/-- A condition on the steps of the device side. -/
abbrev StepGuard (γ : Type) := Guard Site Stmt World Fate γ

/-- No condition. -/
def anyStep {γ : Type} : StepGuard γ := fun _ _ _ _ => true

/-- A report is counted while the quota has no more reports than the call has read, and the limit is
the same. -/
def countsInTime : StepGuard OverLog := fun t l c x =>
  match l with
  | .call (.incrementFree device) => c ≠ .ok || (x.2.memory t).all fun w =>
      (x.1.quota device).freeReportsUsed ≤ (w.quota device).freeReportsUsed &&
        (x.1.quota device).freeReportsLimit = (w.quota device).freeReportsLimit
  | _ => true

/-- A report is counted where the quota has room for it. -/
def countsWithRoom : StepGuard OverLog := fun t l c x =>
  match l with
  | .call (.incrementFree device) => c ≠ .ok || (x.2.memory t).any fun w => !w.enforceFreeLimit ||
      !decide ((x.1.quota device).freeReportsLimit ≤ (x.1.quota device).freeReportsUsed)
  | _ => true

/-- With the limit enforced, no run of report creations takes a counter above it, or files a free
report over it. -/
def FreeQuotaLaw (C : StepGuard OverLog) : Prop :=
  ∀ (w : World) (calls : List CreateCall) (g : Run OverLog), w.enforceFreeLimit → w.Within →
    Pool.Reach machine recordOver C (launchCreates w .empty calls) g →
    g.state.Within ∧ ∀ t, g.hist.filed t = false

section Programs

abbrev Counts {α : Type} (A : QuotaMemory → Prop) (p : Act α) (B : α → QuotaMemory → Prop) : Prop :=
  Recalls machine QuotaMemory.note QuotaMemory.may A p B

variable {α : Type} {A : QuotaMemory → Prop} {device : DeviceId} {dto : CreateReportDto}

/-- A program that counts nothing. -/
theorem counts_plain {p : Act α} (hp : p.Only fun s => ∀ device, s ≠ .incrementFree device) :
    Counts A p fun _ _ => True := by
  apply Recalls.free hp
  intro m s hs
  cases s with
  | incrementFree device => exact absurd rfl (hs device)
  | _ => trivial

theorem counts_consumeQuota : Counts A (consumeQuota device) fun _ _ => True := by
  have hread : Counts A (fetch .consumeQuota fun w => (w.quota device, w.enforceFreeLimit))
      fun read m => ∃ w, m = some w ∧ read = (w.quota device, w.enforceFreeLimit) := by
    apply Recalls.fetch
    intro m w _
    exact ⟨w, rfl, rfl⟩
  apply hread.seq
  intro read
  apply Discipline.Flow.ite (fun _ => .pure fun _ _ => trivial)
  intro _
  apply Discipline.Flow.ite (fun _ => .throw fun _ _ => trivial)
  intro hroom
  have hcount : Counts (fun m => ∃ w, m = some w ∧ read = (w.quota device, w.enforceFreeLimit))
      (Prog.perform (Stmt.incrementFree device) : Act DeviceQuota) fun _ _ => True := by
    apply Recalls.perform
    · rintro m ⟨w, hw, rfl⟩
      exact ⟨w, hw, hroom⟩
    · exact fun _ _ _ _ _ _ => trivial
  exact hcount.seq fun _ => .pure fun _ _ => trivial

theorem counts_prog (call : CreateCall) : Counts (fun _ => True) call.prog fun _ _ => True := by
  have hchecked : Counts (fun _ => True) (assertSubmission call.device call.dto) fun _ _ => True :=
    counts_plain (only_assertSubmission _ _)
  have hfound : Counts (fun _ => True) (findExisting call.device call.dto.code) fun _ _ => True :=
    counts_plain (only_findExisting _ _)
  have hcreate : Counts (fun _ => True) (create call.device call.dto) fun _ _ => True := by
    apply hchecked.seq
    intro _
    apply hfound.seq
    intro existing
    cases existing with
    | some existing => exact counts_plain (only_recreate _ _ (by simp))
    | none =>
      apply counts_consumeQuota.seq
      intro tier
      exact counts_plain (only_storeReport _ _ _ (by simp) (by simp) (by simp))
  exact hcreate.seq fun _ => .pure fun _ _ => trivial

theorem records_over : Records recordOver QuotaMemory.note OverLog.memory := fun _ _ _ _ _ => rfl

/-- A report counted before the quota has more reports than were read has room. -/
theorem room_of_time {w : World} {calls : List CreateCall} {g : Run OverLog}
    (hg : Pool.Reach machine recordOver countsInTime (launchCreates w .empty calls) g) :
    Pool.Reach machine recordOver countsWithRoom (launchCreates w .empty calls) g := by
  have hthreads (t : Nat) (p : Act Unit)
      (hp : (launchCreates w OverLog.empty calls).threads[t]? = some p) :
      Counts (· = OverLog.empty.memory t) p fun _ _ => True := by
    simp only [launchCreates, List.getElem?_map] at hp
    obtain ⟨call, -, rfl⟩ := Option.map_eq_some_iff.mp hp
    exact (counts_prog call).weaken (fun _ _ => trivial) (fun _ _ h => h) fun _ _ h => h
  refine recalled_mono (C := countsInTime) records_over hthreads (fun _ _ _ _ h => h)
    (fun t s c x hmay hC => ?_) hg
  cases s with
  | incrementFree device =>
    obtain ⟨v, hv, hroom⟩ := hmay
    simp only [countsInTime, countsWithRoom, hv, Option.all_some, Option.any_some, Bool.or_eq_true,
      Bool.and_eq_true, decide_eq_true_eq, Bool.not_eq_true', decide_eq_false_iff_not] at hC ⊢
    refine hC.imp_right fun hsame => ?_
    cases henforced : v.enforceFreeLimit with
    | false => exact .inl rfl
    | true =>
      refine .inr fun hover => hroom ⟨henforced, ?_⟩
      omega
  | _ => exact hC

end Programs

section Limit

variable {w : World} {h : OverLog} {t : Nat} {s : Stmt} {c : Fate}

theorem enforce_exec : (World.exec s c w).2.enforceFreeLimit = w.enforceFreeLimit := by
  cases c with
  | fails e => rfl
  | ok =>
    cases s with
    | grant grant =>
      show (w.grant grant).2.enforceFreeLimit = _
      have heff := grant_effect grant w
      generalize w.grant grant = out at heff ⊢
      cases heff <;> rfl
    | markPro device platform => rfl
    | incrementFree device => rfl
    | _ =>
      simp only [World.exec, World.write]
      split <;> rfl

/-- What the threads have read is under the limit, as the state is. -/
structure Enforced (w : World) (h : OverLog) : Prop where
  state : w.enforceFreeLimit = true
  read : ∀ t v, h.memory t = some v → v.enforceFreeLimit = true

theorem Enforced.step {w' : World} {l : Label Site Stmt} (he : Enforced w h)
    (hw : w'.enforceFreeLimit = w.enforceFreeLimit) : Enforced w' (recordOver t l w w' h) := by
  refine ⟨hw.trans he.state, fun u v hv => ?_⟩
  have hv : Function.update h.memory t ((h.memory t).note l w) u = some v := hv
  by_cases hu : u = t
  · subst hu
    rw [Function.update_self] at hv
    unfold QuotaMemory.note at hv
    split at hv
    · cases hv
      exact he.state
    · exact he.read u v hv
  · rw [Function.update_of_ne hu] at hv
    exact he.read u v hv

/-- The quota that is counted on has room. -/
theorem room_counted (he : Enforced w h) (hC : countsWithRoom t (.call s) c (w, h))
    (device : DeviceId) (hs : s = .incrementFree device) (hc : c = .ok) :
    (w.quota device).freeReportsUsed < (w.quota device).freeReportsLimit := by
  subst hs hc
  obtain ⟨v, hv, hroom⟩ : ∃ v, h.memory t = some v ∧ (!v.enforceFreeLimit ||
      !decide ((w.quota device).freeReportsLimit ≤ (w.quota device).freeReportsUsed)) = true := by
    simpa [countsWithRoom, Option.any_eq_true] using hC
  simpa [he.read t v hv] using hroom

/-- A report counted with room leaves the counter within the limit. -/
theorem World.Within.exec (hw : w.Within) (hs : s.filing)
    (hroom : ∀ device, s = .incrementFree device → c = .ok →
      (w.quota device).freeReportsUsed < (w.quota device).freeReportsLimit) :
    (World.exec s c w).2.Within := by
  intro device quota hquota
  have heff : QuotaEffect s c w device _ := quota_exec
  rw [hquota] at heff
  generalize hout : some quota = out at heff
  cases heff with
  | same => exact hw device quota hout.symm
  | pro at_ platform stmt granted => exact absurd hs granted
  | counted stmt up =>
    cases hout
    exact hroom device stmt up
  | uncounted q row stmt up =>
    cases hout
    have hrow := hw device q row
    show q.freeReportsUsed - 1 ≤ q.freeReportsLimit
    omega

/-- A thread that counts with room does not count over the limit. -/
theorem recordExcess_quiet (hover : ∀ u, h.exceeded u = false) (hfiled : ∀ u, h.filed u = false)
    (hroom : ∀ device, s = .incrementFree device → c = .ok →
      (w.quota device).freeReportsUsed < (w.quota device).freeReportsLimit) :
    (∀ u, (recordExcess t (.call s) w (World.exec s c w).2 h).exceeded u = false) ∧
      ∀ u, (recordExcess t (.call s) w (World.exec s c w).2 h).filed u = false := by
  cases s with
  | incrementFree device =>
    simp only [recordExcess]
    split
    next hchanged =>
      refine ⟨fun u => ?_, hfiled⟩
      have hup : c = .ok := by
        cases c with
        | ok => rfl
        | fails e => exact absurd rfl hchanged
      subst hup
      have hroom := hroom device rfl rfl
      have hafter : (World.exec (.incrementFree device) .ok w).2.quota device =
          { w.quota device with freeReportsUsed := (w.quota device).freeReportsUsed + 1 } := by
        simp [World.exec, World.write, World.quota]
      have hin : decide (((World.exec (.incrementFree device) .ok w).2.quota
          device).freeReportsLimit < ((World.exec (.incrementFree device) .ok w).2.quota
          device).freeReportsUsed) = false := by
        rw [hafter]
        exact decide_eq_false (not_lt.mpr hroom)
      show Function.update h.exceeded t _ u = false
      by_cases hu : u = t
      · subst hu
        rw [Function.update_self, hin]
      · rw [Function.update_of_ne hu, hover u]
    next => exact ⟨hover, hfiled⟩
  | createReport row =>
    simp only [recordExcess]
    split
    · refine ⟨hover, fun u => ?_⟩
      show Function.update h.filed t _ u = false
      by_cases hu : u = t
      · subst hu
        rw [Function.update_self, hfiled u, hover u]
        rfl
      · rw [Function.update_of_ne hu, hfiled u]
    · exact ⟨hover, hfiled⟩
  | _ => exact ⟨hover, hfiled⟩

end Limit

/-- While no other report is counted between the read of a quota and the count against it, no
counter is above its limit. -/
theorem free_quota (w : World) (calls : List CreateCall) (g : Run OverLog)
    (henforced : w.enforceFreeLimit) (hw : w.Within)
    (hg : Pool.Reach machine recordOver countsInTime (launchCreates w .empty calls) g) :
    g.state.Within ∧ ∀ t, g.hist.filed t = false := by
  have honly : ∀ p ∈ (launchCreates w OverLog.empty calls).threads, p.Only Stmt.filing := by
    intro p hp
    obtain ⟨call, -, rfl⟩ := List.mem_map.mp hp
    exact filing_prog call
  let I (x : World × OverLog) : Prop := x.1.Within ∧ Enforced x.1 x.2 ∧
    (∀ t, x.2.exceeded t = false) ∧ ∀ t, x.2.filed t = false
  have hstart : I (w, .empty) := by
    refine ⟨hw, ⟨henforced, fun t v hv => ?_⟩, fun _ => rfl, fun _ => rfl⟩
    cases hv
  have hkept : I g.snapshot := by
    refine (room_of_time hg).footprint honly hstart (fun t l x hx => ?_)
      (fun t s c x hx hs hC => ?_)
      fun c x hx => hx
    · obtain ⟨hwithin, henforced, hover, hfiled⟩ := hx
      exact ⟨hwithin, henforced.step rfl, hover, hfiled⟩
    · obtain ⟨hwithin, henforced, hover, hfiled⟩ := hx
      have hroom := room_counted henforced hC
      exact ⟨hwithin.exec hs hroom, henforced.step enforce_exec,
        recordExcess_quiet hover hfiled hroom⟩
  exact ⟨hkept.1, hkept.2.2.2⟩

section LastPlace

/-- One free report is left to the device. -/
def lastPlaceWorld : World where
  quotas := Table.empty.set "phone" ⟨2, 3, false, none, none⟩
  grants := .empty
  reports := .empty
  orders := .empty
  deviceLinks := .empty
  now := 0
  defaultLimit := 3
  enforceFreeLimit := true
  r2Configured := true
  incomplete := fun _ => none

theorem within_lastPlaceWorld : lastPlaceWorld.Within := by
  intro device quota hrow
  simp only [lastPlaceWorld, Table.get_set] at hrow
  split at hrow
  · cases hrow
    decide
  · cases hrow

/-- The device files two reports at once. -/
def twoCreates : List CreateCall :=
  [⟨"phone", "CSP-1", none, none⟩, ⟨"phone", "CSP-2", none, none⟩]

/-- What is counted for the device, and its limit. -/
def counted (g : Run OverLog) : Option (Int × Int) :=
  (g.state.quotas.get "phone").map fun quota => (quota.freeReportsUsed, quota.freeReportsLimit)

/-- Both read that one report is left, and both count theirs. -/
theorem last_place_taken_twice : ¬ FreeQuotaLaw anyStep := by
  intro hlaw
  have hrun : Pool.observe machine recordOver anyStep counted [.run 0 .ok, .run 1 .ok, .run 0 .ok]
      (.run 1 .ok) (launchCreates lastPlaceWorld .empty twoCreates) =
        some (some (3, 3), some (4, 3)) := by
    decide +kernel
  obtain ⟨g, g', hg, hm, hs, -, hafter⟩ := Pool.observe_eq hrun
  obtain ⟨quota, hquota, hused⟩ := Option.map_eq_some_iff.mp hafter
  obtain ⟨hused, hlimit⟩ := Prod.mk.inj hused
  have hwithin := (hlaw lastPlaceWorld twoCreates g' rfl within_lastPlaceWorld
    (.next (m := .run 1 .ok) hg hm hs)).1 "phone" quota hquota
  rw [hused, hlimit] at hwithin
  exact absurd hwithin (by decide)

/-- The first takes the last place, and the second is refused. -/
theorem free_quota_last : ∃ g : Run OverLog, counted g = some (3, 3) ∧ g.state.Within := by
  have hrun : Pool.observe machine recordOver countsInTime counted [.run 0 .ok, .run 0 .ok]
      (.run 1 .ok) (launchCreates lastPlaceWorld .empty twoCreates) =
      some (some (3, 3), some (3, 3)) := by decide +kernel
  obtain ⟨g, g', hg, hm, hs, -, hafter⟩ := Pool.observe_eq hrun
  exact ⟨g', hafter, (free_quota lastPlaceWorld twoCreates g' rfl within_lastPlaceWorld
    (.next (m := .run 1 .ok) hg hm hs)).1⟩

end LastPlace

end CarSalePro.Quota
