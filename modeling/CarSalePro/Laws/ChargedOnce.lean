import CarSalePro.Quota.Effects

namespace CarSalePro.Quota

open Store Interleave Prog

/-- How much each thread has charged, and how many free reports it has stored. -/
structure ChargeLog where
  charged : Nat → Int
  stored : Nat → Int

def ChargeLog.empty : ChargeLog := ⟨fun _ => 0, fun _ => 0⟩

def recordCharge : Recorder Site Stmt World ChargeLog := fun t l w w' h =>
  match l with
  | .call (.incrementFree device) | .call (.rollbackQuota device) =>
    let charge := w'.used device - w.used device
    { h with charged := Function.update h.charged t (h.charged t + charge) }
  | .call (.createReport row) =>
    let stored : Int := w'.freeReports row.deviceId - w.freeReports row.deviceId
    { h with stored := Function.update h.stored t (h.stored t + stored) }
  | _ => h

/-- The compensating write succeeds. -/
def compensates {γ : Type} : Guard Site Stmt World Fate γ := fun _ l c _ =>
  match l with
  | .call (.rollbackQuota _) => c = .ok
  | _ => true

/-- Where a call stands: nothing is charged, or a report of the device is charged that is not
stored. -/
inductive ChargePhase where
  | even
  | charged (device : DeviceId)
  deriving DecidableEq

/-- The steps of a report creation, as they charge and store. -/
inductive ChargeMove : ChargePhase → Label Site Stmt → Fate → World → ChargePhase → Prop
  | read {ph : ChargePhase} (site : Site) (c : Fate) (w : World) : ChargeMove ph (.ask site) c w ph
  | count (device : DeviceId) (c : Fate) (w : World) :
    ChargeMove .even (.call (.incrementFree device)) c w
      (if c = .ok then .charged device else .even)
  | undo (device : DeviceId) (c : Fate) (w : World) :
    ChargeMove (.charged device) (.call (.rollbackQuota device)) c w .even
  | store (row : Report) (c : Fate) (w : World) (free : row.tier = .free) :
    ChargeMove (.charged row.deviceId) (.call (.createReport row)) c w
      (if c = .ok ∧ w.conflict row = none then .even else .charged row.deviceId)
  | storePro (row : Report) (c : Fate) (w : World) (pro : row.tier = .pro) :
    ChargeMove .even (.call (.createReport row)) c w .even
  | key (report : ReportId) (key : String) (c : Fate) (w : World) :
    ChargeMove .even (.call (.setS3Key report key)) c w .even
  | refresh (report : ReportId) (c : Fate) (w : World) :
    ChargeMove .even (.call (.refreshReport report)) c w .even

def charging : Discipline Site Stmt World Fate ChargePhase where
  view _ _ := True
  moves := ChargeMove

/-- What is charged once a tier is picked. -/
def ChargePhase.picked (device : DeviceId) : Tier → ChargePhase
  | .free => charged device
  | .pro => even

section Flow

variable {α : Type} {A : ChargePhase → Prop} {p : Act α}

/-- A program from the phases of `A`, that ends by an error with nothing charged. -/
abbrev Charges (A : ChargePhase → Prop) (p : Act α) (B : α → ChargePhase → Prop) : Prop :=
  charging.Flow machine A p B fun _ => (· = .even)

theorem charges_read {ρ : Type} {l : Site} {f : World → ρ} :
    Charges (· = .even) (fetch l f : Act ρ) fun _ => (· = .even) := by
  refine Discipline.Flow.fetch fun x c w hx _ => ⟨x, .read l c w, ?_⟩
  cases machine.answer l f c w with
  | ok a => exact hx
  | error e => exact hx

/-- A program that issues no statement. -/
theorem charges_silent (hp : p.Only fun _ => False) :
    Charges (· = .even) p fun _ => (· = .even) :=
  Discipline.Flow.only hp (fun _ l c w _ _ => .read l c w) fun _ _ _ _ _ h => h.elim

theorem charges_pure {a : α} {B : α → ChargePhase → Prop} (h : ∀ x, A x → B a x) :
    Charges A (pure a : Act α) B := Discipline.Flow.pure h

theorem charges_throw {e : Err} {B : α → ChargePhase → Prop} (h : ∀ x, A x → x = .even) :
    Charges A (throw e : Act α) B := Discipline.Flow.throw h

/-- A statement that neither charges nor stores. -/
theorem charges_perform {s : Stmt} (hs : ∀ c w, ChargeMove .even (.call s) c w .even) :
    Charges (· = .even) (Prog.perform s : Act s.Resp) fun _ => (· = .even) := by
  refine Discipline.Flow.perform fun x c w hx _ => ?_
  subst hx
  refine ⟨.even, hs c w, ?_⟩
  cases (machine.exec s c w).1 with
  | ok a => rfl
  | error e => rfl

theorem charges_consumeQuota (device : DeviceId) :
    Charges (· = .even) (consumeQuota device) fun tier x => x = .picked device tier := by
  refine charges_read.seq fun read => .ite (fun _ => charges_pure fun _ h => h) fun _ => ?_
  refine .ite (fun _ => charges_throw fun _ h => h) fun _ => ?_
  have hcount : Charges (· = .even) (Prog.perform (Stmt.incrementFree device) : Act DeviceQuota)
      fun _ x => x = .charged device := by
    refine Discipline.Flow.perform fun x c w hx _ => ?_
    subst hx
    refine ⟨_, .count device c w, ?_⟩
    cases c with
    | ok => exact if_pos rfl
    | fails e => exact if_neg (by simp)
  exact hcount.seq fun _ => charges_pure fun _ h => h

theorem charges_rollbackQuota (device : DeviceId) (tier : Tier) :
    Charges (· = .picked device tier) (rollbackQuota device tier) fun _ => (· = .even) := by
  cases tier with
  | pro => exact charges_pure fun _ h => h
  | free =>
    have hundo : Charges (· = .charged device)
        (Prog.perform (Stmt.rollbackQuota device) : Act Unit) fun _ => (· = .even) := by
      refine Discipline.Flow.perform fun x c w hx _ => ?_
      subst hx
      refine ⟨.even, .undo device c w, ?_⟩
      cases (machine.exec (.rollbackQuota device) c w).1 with
      | ok a => rfl
      | error e => rfl
    exact (hundo.bind fun _ => .ret fun _ h => h).catch fun _ => .ret fun _ h => h

/-- The insert answers an error just when the report stays charged but is not stored. -/
theorem charges_createReport {device : DeviceId} {tier : Tier} {row : Report}
    (hdevice : row.deviceId = device) (htier : row.tier = tier) :
    charging.Flow machine (· = .picked device tier)
      (Prog.perform (Stmt.createReport row) : Act ReportId) (fun _ => (· = .even))
      fun _ => (· = .picked device tier) := by
  refine Discipline.Flow.perform fun x c w hx _ => ?_
  subst hx hdevice
  cases tier with
  | pro =>
    refine ⟨.even, .storePro row c w htier, ?_⟩
    cases (machine.exec (.createReport row) c w).1 with
    | ok a => rfl
    | error e => rfl
  | free =>
    refine ⟨_, .store row c w htier, ?_⟩
    rw [show machine.exec = World.exec from rfl]
    cases c with
    | fails e => exact if_neg (by simp)
    | ok =>
      cases hrow : w.conflict row with
      | some index => simp [World.exec, World.write, hrow, Discipline.onAnswer, ChargePhase.picked]
      | none => simp [World.exec, World.write, hrow, Discipline.onAnswer]

/-- A report that is not stored is not charged, and one that is stored stays charged. -/
theorem charges_storeReport (device : DeviceId) (dto : CreateReportDto) (tier : Tier) :
    Charges (· = .picked device tier) (storeReport device dto tier) fun _ => (· = .even) := by
  have hread : Charges (· = .picked device tier) (fetch .storage (·.r2Configured) : Act Bool)
      fun _ => (· = .picked device tier) := by
    refine Discipline.Flow.fetch fun x c w hx _ => ⟨x, .read .storage c w, ?_⟩
    cases c <;> exact hx
  refine hread.seq fun configured => .ite (fun _ => ?_) fun _ => ?_
  · exact (charges_rollbackQuota device tier).seq fun _ => charges_throw fun _ h => h
  · have hstore : charging.Flow machine (· = .picked device tier) (Prog.perform (Stmt.createReport
        ⟨device, dto.code, tier, "", dto.orderId, false, none⟩) : Act ReportId)
        (fun _ => (· = .even)) fun _ => (· = .picked device tier) := charges_createReport rfl rfl
    refine Discipline.Flow.seq hstore.attempt fun answer => ?_
    cases answer with
    | error e => exact (charges_rollbackQuota device tier).seq fun _ => charges_throw fun _ h => h
    | ok report =>
      refine (charges_perform (.key report _)).seq fun _ => ?_
      exact charges_read.seq fun _ => charges_pure fun _ h => h

theorem charges_create (device : DeviceId) (dto : CreateReportDto) :
    Charges (· = .even) (create device dto) fun _ => (· = .even) := by
  refine (charges_silent (only_assertSubmission device dto)).seq fun _ => ?_
  refine (charges_silent (only_findExisting device dto.code)).seq fun existing => ?_
  split
  · refine charges_read.seq fun configured => .ite (fun _ => charges_throw fun _ h => h) fun _ => ?_
    refine (charges_perform (.refresh _)).seq fun _ => ?_
    exact charges_read.seq fun _ => charges_pure fun _ h => h
  · exact (charges_consumeQuota device).seq fun tier => charges_storeReport device dto tier

theorem charges_prog (call : CreateCall) :
    Charges (· = .even) call.prog fun _ => (· = .even) :=
  (charges_create _ _).seq fun _ => charges_pure fun _ h => h

end Flow

section Balance

/-- How many reports a thread is charged for that it has not stored. -/
def ChargePhase.owed : ChargePhase → Int
  | even => 0
  | charged _ => 1

/-- How many reports of the device a thread is charged for that it has not stored. -/
def ChargePhase.owedBy (device : DeviceId) : ChargePhase → Int
  | even => 0
  | charged device' => if device' = device then 1 else 0

/-- What is charged to a device beyond the reports it has stored. -/
def World.unstored (w : World) (device : DeviceId) : Int := w.used device - w.freeReports device

variable {w : World} {s : Stmt} {c : Fate} {h : ChargeLog} {t : Nat} {ph ph' : ChargePhase}

theorem unstored_same (s : Stmt) (hfiling : s.filing) (hcount : ∀ device, s ≠ .incrementFree device)
    (hundo : ∀ device, s ≠ .rollbackQuota device) (hstore : ∀ row, s ≠ .createReport row)
    (device : DeviceId) : (World.exec s c w).2.unstored device = w.unstored device := by
  unfold World.unstored
  rw [used_exec (hcount device) (hundo device) hfiling, freeReports_exec hstore]

theorem unstored_counted (device' device : DeviceId) :
    (World.exec (.incrementFree device') .ok w).2.unstored device =
      w.unstored device + if device' = device then 1 else 0 := by
  unfold World.unstored
  rw [freeReports_exec (by simp)]
  split
  next hd =>
    subst hd
    rw [used_counted]
    omega
  next hd =>
    rw [used_exec (s := .incrementFree device') (by simpa using hd) (by simp) trivial]
    omega

theorem unstored_uncounted {device' : DeviceId} (hrow : (w.quotas.get device').isSome)
    (device : DeviceId) : (World.exec (.rollbackQuota device') .ok w).2.unstored device =
      w.unstored device - if device' = device then 1 else 0 := by
  unfold World.unstored
  rw [freeReports_exec (by simp)]
  split
  next hd =>
    subst hd
    rw [used_uncounted hrow]
    omega
  next hd =>
    rw [used_exec (s := .rollbackQuota device') (by simp) (by simpa using hd) trivial]
    omega

theorem unstored_created (row : Report) (device : DeviceId) :
    (World.exec (.createReport row) c w).2.unstored device = w.unstored device -
      if c = .ok ∧ w.conflict row = none ∧ row.deviceId = device ∧ row.tier = .free then 1
      else 0 := by
  unfold World.unstored
  rw [used_exec (s := .createReport row) (by simp) (by simp) trivial]
  cases c with
  | fails e => simp [World.exec]
  | ok =>
    cases hrow : w.conflict row with
    | some index => simp [World.exec, World.write, hrow]
    | none =>
      rw [freeReports_created hrow]
      simp only [true_and]
      split <;> push_cast <;> omega

/-- A move changes what is charged to a device beyond its stored reports by what the thread comes to
be charged for. -/
theorem unstored_move {l : Label Site Stmt} (hm : ChargeMove ph l c w ph')
    (hrow : ∀ device, ph = .charged device → (w.quotas.get device).isSome)
    (hC : compensates t l c (w, h)) (device : DeviceId) :
    (machine.after l c w).unstored device =
      w.unstored device + (ph'.owedBy device - ph.owedBy device) := by
  cases hm with
  | read site c w => simp
  | count device' c w =>
    cases c with
    | fails e =>
      show w.unstored device = _
      simp
    | ok =>
      show (World.exec (.incrementFree device') .ok w).2.unstored device = _
      rw [unstored_counted]
      simp [ChargePhase.owedBy]
  | undo device' c w =>
    have hok : c = .ok := by simpa [compensates] using hC
    subst hok
    show (World.exec (.rollbackQuota device') .ok w).2.unstored device = _
    rw [unstored_uncounted (hrow device' rfl)]
    simp [ChargePhase.owedBy, sub_eq_add_neg]
  | store row c w free =>
    show (World.exec (.createReport row) c w).2.unstored device = _
    rw [unstored_created]
    by_cases hstored : c = .ok ∧ w.conflict row = none
    · simp [ChargePhase.owedBy, hstored, free, sub_eq_add_neg]
    · have hnot : ¬(c = .ok ∧ w.conflict row = none ∧ row.deviceId = device ∧ row.tier = .free) :=
        fun h => hstored ⟨h.1, h.2.1⟩
      rw [if_neg hnot, if_neg hstored]
      omega
  | storePro row c w pro =>
    show (World.exec (.createReport row) c w).2.unstored device = _
    rw [unstored_created]
    simp [pro]
  | key report key c w =>
    show (World.exec (.setS3Key report key) c w).2.unstored device = _
    rw [unstored_same (.setS3Key report key) trivial (by simp) (by simp) (by simp)]
    omega
  | refresh report c w =>
    show (World.exec (.refreshReport report) c w).2.unstored device = _
    rw [unstored_same (.refreshReport report) trivial (by simp) (by simp) (by simp)]
    omega

/-- A thread that makes a step records what the step does to the device it names. -/
theorem recordCharge_self {device : DeviceId} (hs : s = .incrementFree device ∨
      s = .rollbackQuota device ∨ ∃ row : Report, row.deviceId = device ∧ s = .createReport row) :
    (recordCharge t (.call s) w (World.exec s c w).2 h).charged t -
        (recordCharge t (.call s) w (World.exec s c w).2 h).stored t =
      h.charged t - h.stored t + ((World.exec s c w).2.unstored device - w.unstored device) := by
  unfold World.unstored
  rcases hs with rfl | rfl | ⟨row, rfl, rfl⟩
  · have hfree : (World.exec (.incrementFree device) c w).2.freeReports device =
        w.freeReports device := freeReports_exec (by simp)
    simp only [recordCharge, Function.update_self, hfree]
    omega
  · have hfree : (World.exec (.rollbackQuota device) c w).2.freeReports device =
        w.freeReports device := freeReports_exec (by simp)
    simp only [recordCharge, Function.update_self, hfree]
    omega
  · have hused : (World.exec (.createReport row) c w).2.used row.deviceId = w.used row.deviceId :=
      used_exec (by simp) (by simp) trivial
    simp only [recordCharge, Function.update_self, hused]
    omega

/-- What a move records, it records for the thread that makes it. -/
theorem recordCharge_move {l : Label Site Stmt} (hm : ChargeMove ph l c w ph')
    (hrow : ∀ device, ph = .charged device → (w.quotas.get device).isSome)
    (hC : compensates t l c (w, h)) (u : Nat) :
    (recordCharge t l w (machine.after l c w) h).charged u -
        (recordCharge t l w (machine.after l c w) h).stored u =
      h.charged u - h.stored u + if u = t then ph'.owed - ph.owed else 0 := by
  have hmove := unstored_move hm hrow hC
  by_cases hu : u = t
  · subst hu
    rw [if_pos rfl]
    have hself {device : DeviceId} {s : Stmt} (hl : l = .call s)
        (hs : s = .incrementFree device ∨ s = .rollbackQuota device ∨
          ∃ row : Report, row.deviceId = device ∧ s = .createReport row)
        (howed : ph'.owedBy device - ph.owedBy device = ph'.owed - ph.owed) :
        (recordCharge u l w (machine.after l c w) h).charged u -
            (recordCharge u l w (machine.after l c w) h).stored u =
          h.charged u - h.stored u + (ph'.owed - ph.owed) := by
      subst hl
      have hrec := recordCharge_self (c := c) (w := w) (h := h) (t := u) hs
      have hdevice : (World.exec s c w).2.unstored device = _ := hmove device
      rw [hdevice, howed] at hrec
      rw [show (machine.after (.call s) c w) = (World.exec s c w).2 from rfl]
      omega
    cases hm with
    | read site c w => simp [recordCharge]
    | count device c w =>
      refine hself rfl (.inl rfl) ?_
      split <;> simp [ChargePhase.owedBy, ChargePhase.owed]
    | undo device c w =>
      exact hself rfl (.inr (.inl rfl)) (by simp [ChargePhase.owedBy, ChargePhase.owed])
    | store row c w free =>
      refine hself rfl (.inr (.inr ⟨row, rfl, rfl⟩)) ?_
      split <;> simp [ChargePhase.owedBy, ChargePhase.owed]
    | storePro row c w pro => exact hself rfl (.inr (.inr ⟨row, rfl, rfl⟩)) rfl
    | key report key c w => simp [recordCharge]
    | refresh report c w => simp [recordCharge]
  · have hother : (recordCharge t l w (machine.after l c w) h).charged u = h.charged u ∧
        (recordCharge t l w (machine.after l c w) h).stored u = h.stored u := by
      unfold recordCharge
      split <;> simp [hu]
    rw [hother.1, hother.2, if_neg hu, add_zero]

/-- A thread that is charged for a report has the row of the device before it. -/
theorem quotaRow_move {l : Label Site Stmt} (hm : ChargeMove ph l c w ph')
    (hrow : ∀ device, ph = .charged device → (w.quotas.get device).isSome) {device : DeviceId}
    (hph : ph' = .charged device) : ((machine.after l c w).quotas.get device).isSome := by
  have hkept (hold : ph = .charged device) :
      ((machine.after l c w).quotas.get device).isSome := by
    cases l with
    | ask site => exact hrow device hold
    | call s => exact quotaRow_exec (hrow device hold)
  cases hm with
  | count device' c w =>
    cases c with
    | fails e => exact hkept (by simp at hph)
    | ok =>
      cases hph
      show ((World.exec (.incrementFree device) .ok w).2.quotas.get device).isSome
      simp [World.exec, World.write]
  | store row c w free =>
    refine hkept ?_
    split at hph
    · cases hph
    · exact hph
  | undo device' c w => cases hph
  | storePro row c w pro => cases hph
  | _ => exact hkept hph

/-- What a run keeps: the counters and the stored reports go together, but for what the threads are
charged for. -/
structure ChargeKept (w₀ : World) (Φ : Nat → ChargePhase) (x : World × ChargeLog) : Prop where
  balance : ∀ device, Outstanding (ChargePhase.owedBy device) Φ
    (x.1.unstored device - w₀.unstored device)
  rows : ∀ t device, Φ t = .charged device → (x.1.quotas.get device).isSome
  own : ∀ t, x.2.charged t = x.2.stored t + (Φ t).owed

theorem chargeKept_invariant (w₀ : World) :
    charging.Invariant machine recordCharge compensates (ChargeKept w₀) where
  view _ _ _ _ := trivial
  env _ _ _ h := h
  move Φ x t l c ph h hC hm := by
    have hrow (device) (hd : Φ t = .charged device) := h.rows t device hd
    refine ⟨fun device => ?_, fun u device hu => ?_, fun u => ?_⟩
    · have hafter := (h.balance device).update (t := t) ph
      rw [unstored_move hm hrow hC, add_sub_right_comm]
      exact hafter
    · by_cases ht : u = t
      · subst ht
        rw [Function.update_self] at hu
        exact quotaRow_move hm hrow hu
      · rw [Function.update_of_ne ht] at hu
        cases l with
        | ask site => exact h.rows u device hu
        | call s => exact quotaRow_exec (h.rows u device hu)
    · have hrec := recordCharge_move hm hrow hC u
      have hown := h.own u
      show (recordCharge t l x.1 (machine.after l c x.1) x.2).charged u =
        (recordCharge t l x.1 (machine.after l c x.1) x.2).stored u + _
      by_cases ht : u = t
      · subst ht
        rw [Function.update_self]
        rw [if_pos rfl] at hrec
        omega
      · rw [Function.update_of_ne ht]
        rw [if_neg ht] at hrec
        omega

end Balance

/-- When the compensating write succeeds, a run of report creations counts just the free reports it
stores: every call that has ended is charged for what it stored, and when all have, each counter has
grown by the number of its device's new free reports. -/
theorem charged_once (w : World) (calls : List CreateCall) (g : Run ChargeLog)
    (hg : Pool.Reach machine recordCharge compensates (launchCreates w .empty calls) g) :
    (∀ t p, g.threads[t]? = some p → p.Ended → g.hist.charged t = g.hist.stored t) ∧
      (g.AllEnded → ∀ device, g.state.used device =
        w.used device + (g.state.freeReports device - w.freeReports device)) := by
  have hstart (t : Nat) (p : Act Unit)
      (hp : (launchCreates w ChargeLog.empty calls).threads[t]? = some p) :
      charging.Follows machine (fun _ => (· = .even)) (fun _ => (· = .even)) p .even := by
    obtain ⟨call, -, rfl⟩ := List.mem_map.mp (List.mem_of_getElem? hp)
    exact charges_prog call .even rfl
  have hempty : ChargeKept w (fun _ => .even) (launchCreates w .empty calls).snapshot := by
    refine ⟨fun device => ?_, fun t device ht => (nomatch ht), fun t => rfl⟩
    show Outstanding (ChargePhase.owedBy device) (fun _ => .even)
      (w.unstored device - w.unstored device)
    rw [sub_self]
    exact .none fun _ => rfl
  obtain ⟨Ψ, hkept⟩ := Discipline.kept_of_reach (chargeKept_invariant w)
    ⟨hempty, hstart, fun _ _ => rfl⟩ hg
  refine ⟨fun t p hp hend => ?_, fun hend device => ?_⟩
  · have heven : Ψ t = .even := by
      have hf := hkept.threads t p hp
      cases p with
      | ret a => exact hf
      | raise e => exact hf
      | ask l f k => cases hend
      | call s k => cases hend
    have hown := hkept.inv.own t
    rw [heven] at hown
    simpa [ChargePhase.owed] using hown
  · have hnone := (hkept.inv.balance device).eq_zero fun t => by
      rw [hkept.ended hend t]
      rfl
    have hstate : g.snapshot.1 = g.state := rfl
    rw [hstate] at hnone
    unfold World.unstored at hnone
    omega

section TwoRetries

/-- A device that has filed nothing. -/
def newDeviceWorld : World where
  quotas := .empty
  grants := .empty
  reports := .empty
  orders := .empty
  deviceLinks := .empty
  now := 0
  defaultLimit := 3
  enforceFreeLimit := true
  r2Configured := true
  incomplete := fun _ => none

/-- The device files one report twice at once. -/
def twoRetries : List CreateCall :=
  let call : CreateCall := ⟨"phone", "CSP-01234567-89ab-4cde-8f01-23456789abcd", none, none⟩
  [call, call]

/-- Whether the calls have ended, what is counted for the device and what it has stored. -/
def chargedTo (g : Run ChargeLog) : Bool × Int × Nat :=
  (decide g.AllEnded, g.state.used "phone", g.state.freeReports "phone")

/-- Both calls find no report and are charged; the second is refused and gives its charge back. -/
theorem charged_once_retry : ∃ g : Run ChargeLog, chargedTo g = (true, 1, 1) ∧
    g.state.used "phone" = newDeviceWorld.used "phone" +
      (g.state.freeReports "phone" - newDeviceWorld.freeReports "phone") := by
  have hrun : Pool.observe machine recordCharge compensates chargedTo
      [.run 0 .ok, .run 1 .ok, .run 0 .ok, .run 0 .ok, .run 1 .ok, .run 1 .ok, .run 0 .ok,
        .run 1 .ok, .run 0 .ok, .run 1 .ok, .run 0 .ok, .run 0 .ok]
      (.run 1 .ok) (launchCreates newDeviceWorld .empty twoRetries) =
      some ((false, 2, 1), (true, 1, 1)) := by decide +kernel
  obtain ⟨g, g', hg, hm, hs, -, hafter⟩ := Pool.observe_eq hrun
  have hlaw := charged_once newDeviceWorld twoRetries g' (.next (m := .run 1 .ok) hg hm hs)
  have hend : g'.AllEnded := of_decide_eq_true (congrArg Prod.fst hafter)
  exact ⟨g', hafter, hlaw.2 hend "phone"⟩

end TwoRetries

end CarSalePro.Quota
