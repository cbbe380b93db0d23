import CarSalePro.Quota.Grants
import CarSalePro.Quota.Reports

namespace CarSalePro.Quota

open Store Interleave Prog

section Effects

variable {s : Stmt} {c : Fate} {w : World} {device : DeviceId}

/-- What a statement makes of the quota of a device. -/
inductive QuotaEffect (s : Stmt) (c : Fate) (w : World) (device : DeviceId) :
    Option DeviceQuota → Prop
  | same : QuotaEffect s c w device (w.quotas.get device)
  | pro (at_ : Option Nat) (platform : Option IapPlatform)
      (stmt : s ≠ .incrementFree device ∧ s ≠ .rollbackQuota device) (granted : ¬ s.filing) :
    QuotaEffect s c w device (some { w.quota device with
      isPro := true, proActivatedAt := at_, proPlatform := platform })
  | counted (stmt : s = .incrementFree device) (up : c = .ok) :
    QuotaEffect s c w device (some { w.quota device with
      freeReportsUsed := (w.quota device).freeReportsUsed + 1 })
  | uncounted (quota : DeviceQuota) (row : w.quotas.get device = some quota)
      (stmt : s = .rollbackQuota device) (up : c = .ok) :
    QuotaEffect s c w device (some { quota with freeReportsUsed := quota.freeReportsUsed - 1 })

theorem quota_exec : QuotaEffect s c w device ((World.exec s c w).2.quotas.get device) := by
  cases c with
  | fails e => exact .same
  | ok =>
    have hpro (device' : DeviceId) (platform : IapPlatform) {s : Stmt}
        (hs : s ≠ .incrementFree device ∧ s ≠ .rollbackQuota device) (hgrant : ¬ s.filing) :
        QuotaEffect s .ok w device ((w.markPro device' platform).2.quotas.get device) := by
      show QuotaEffect s .ok w device (if device = device' then _ else _)
      by_cases hd : device = device'
      · subst hd
        rw [if_pos rfl]
        exact .pro _ _ hs hgrant
      · rw [if_neg hd]
        exact .same
    cases s with
    | grant grant =>
      show QuotaEffect (.grant grant) .ok w device ((w.grant grant).2.quotas.get device)
      have heff := grant_effect grant w
      generalize w.grant grant = out at heff ⊢
      cases heff with
      | again held => exact hpro _ _ ⟨Stmt.noConfusion, Stmt.noConfusion⟩ id
      | full absent full => exact .same
      | first absent room => exact hpro _ _ ⟨Stmt.noConfusion, Stmt.noConfusion⟩ id
    | markPro device' platform => exact hpro _ _ ⟨Stmt.noConfusion, Stmt.noConfusion⟩ id
    | incrementFree device' =>
      show QuotaEffect _ .ok w device (if device = device' then _ else _)
      by_cases hd : device = device'
      · subst hd
        rw [if_pos rfl]
        exact .counted rfl rfl
      · rw [if_neg hd]
        exact .same
    | rollbackQuota device' =>
      by_cases hd : device = device'
      · subst hd
        cases hrow : w.quotas.get device with
        | none =>
          have hwrite : (World.exec (.rollbackQuota device) .ok w).2 = w := by
            simp [World.exec, World.write, hrow]
          rw [hwrite]
          exact .same
        | some quota =>
          have hwrite : (World.exec (.rollbackQuota device) .ok w).2.quotas.get device =
              some { quota with freeReportsUsed := quota.freeReportsUsed - 1 } := by
            simp [World.exec, World.write, hrow]
          rw [hwrite]
          exact .uncounted quota hrow rfl rfl
      · have hwrite : (World.exec (.rollbackQuota device') .ok w).2.quotas.get device =
            w.quotas.get device := by
          cases hrow : w.quotas.get device' with
          | none => simp [World.exec, World.write, hrow]
          | some quota => simp [World.exec, World.write, hrow, hd]
        rw [hwrite]
        exact .same
    | createReport row =>
      have hwrite : (World.exec (.createReport row) .ok w).2.quotas = w.quotas := by
        simp only [World.exec, World.write]
        split <;> rfl
      rw [hwrite]
      exact .same
    | setS3Key report key =>
      have hwrite : (World.exec (.setS3Key report key) .ok w).2.quotas = w.quotas := by
        simp only [World.exec, World.write]
        split <;> rfl
      rw [hwrite]
      exact .same
    | refreshReport report =>
      have hwrite : (World.exec (.refreshReport report) .ok w).2.quotas = w.quotas := by
        simp only [World.exec, World.write]
        split <;> rfl
      rw [hwrite]
      exact .same

end Effects

section Reports

/-- What a device has had counted. -/
def World.used (w : World) (device : DeviceId) : Int := (w.quota device).freeReportsUsed

/-- How many reports a device has filed on the free tier. -/
def World.freeReports (w : World) (device : DeviceId) : Nat :=
  (w.reports.findMany fun _ r => r.deviceId = device && r.tier = .free).length

variable {s : Stmt} {c : Fate} {w : World} {device : DeviceId}

theorem freeReports_exec (hs : ∀ row, s ≠ .createReport row) :
    (World.exec s c w).2.freeReports device = w.freeReports device := by
  cases c with
  | fails e => rfl
  | ok =>
    have hgrant (grant : IapGrant) : (w.grant grant).2.reports = w.reports := by
      have heff := grant_effect grant w
      generalize w.grant grant = out at heff ⊢
      cases heff <;> rfl
    cases s with
    | grant grant =>
      show (w.grant grant).2.freeReports device = _
      simp only [World.freeReports, hgrant]
    | markPro device' platform => rfl
    | incrementFree device' => rfl
    | rollbackQuota device' =>
      simp only [World.exec, World.write]
      split <;> rfl
    | createReport row => exact absurd rfl (hs row)
    | setS3Key report key =>
      simp only [World.exec, World.write]
      split
      · rfl
      next r hr => exact Table.length_findMany_replace hr rfl
    | refreshReport report =>
      simp only [World.exec, World.write]
      split
      · rfl
      next r hr => exact Table.length_findMany_replace hr rfl

/-- A report the database takes is one more of its device, if it is on the free tier. -/
theorem freeReports_created {row : Report} (hrow : w.conflict row = none) :
    (World.exec (.createReport row) .ok w).2.freeReports device =
      w.freeReports device + if row.deviceId = device ∧ row.tier = .free then 1 else 0 := by
  have hwrite : (World.exec (.createReport row) .ok w).2 =
      { w with reports := w.reports.set w.reports.fresh row } := by
    simp [World.exec, World.write, hrow]
  rw [hwrite]
  simp only [World.freeReports, Table.findMany_set_fresh, List.length_append, Bool.and_eq_true,
    decide_eq_true_eq]
  split <;> simp

theorem used_exec (hcount : s ≠ .incrementFree device) (hundo : s ≠ .rollbackQuota device)
    (hfiling : s.filing) : (World.exec s c w).2.used device = w.used device := by
  have heff : QuotaEffect s c w device _ := quota_exec
  have hlimit : (World.exec s c w).2.newQuota = w.newQuota := by
    cases c with
    | fails e => rfl
    | ok =>
      cases s with
      | grant grant => exact hfiling.elim
      | markPro device' platform => exact hfiling.elim
      | incrementFree device' => rfl
      | _ =>
        simp only [World.exec, World.write]
        split <;> rfl
  unfold World.used World.quota
  rw [hlimit]
  generalize (World.exec s c w).2.quotas.get device = out at heff ⊢
  cases heff with
  | same => rfl
  | pro at_ platform stmt granted => exact absurd hfiling granted
  | counted stmt up => exact absurd stmt hcount
  | uncounted q row stmt up => exact absurd stmt hundo

theorem used_counted : (World.exec (.incrementFree device) .ok w).2.used device =
    w.used device + 1 := by
  simp [World.used, World.exec, World.write, World.quota]

theorem used_uncounted (hrow : (w.quotas.get device).isSome) :
    (World.exec (.rollbackQuota device) .ok w).2.used device = w.used device - 1 := by
  obtain ⟨quota, hquota⟩ := Option.isSome_iff_exists.mp hrow
  simp [World.used, World.exec, World.write, World.quota, hquota]

/-- A row of the quotas stays. -/
theorem quotaRow_exec (hrow : (w.quotas.get device).isSome) :
    ((World.exec s c w).2.quotas.get device).isSome := by
  have heff : QuotaEffect s c w device _ := quota_exec
  generalize (World.exec s c w).2.quotas.get device = out at heff ⊢
  cases heff with
  | same => exact hrow
  | pro at_ platform stmt granted => rfl
  | counted stmt up => rfl
  | uncounted q row stmt up => rfl

end Reports

end CarSalePro.Quota
