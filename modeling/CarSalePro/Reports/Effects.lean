import CarSalePro.Reports.Filing

namespace CarSalePro.Reports

open Store Interleave Prog

/-- What a statement that goes through makes of the row of a report. -/
def Stmt.onReport (now : Time) (report : Quota.ReportId) (row : Report) : Stmt → Report
  | .setS3Key r key => if r = report then { row with s3Key := key } else row
  | .patchReport r patch => if r = report then patch.apply row else row
  | .linkReport r order user =>
    if r = report then { row with orderId := some order, userId := some user } else row
  | .softDelete r => if r = report then { row with deletedAt := some now } else row
  | _ => row

/-- A report that is linked to an order. -/
def World.Linked (w : World) (report : Quota.ReportId) (order : OrderId) : Prop :=
  ∃ row, w.reports.get report = some row ∧ row.orderId = some order

section Rows

variable {w : World} {s : Stmt} {c : Fate} {report : Quota.ReportId} {row : Report}
  {order : OrderId} {user : UserId}

theorem get_updateReport (f : Report → Report) (r : Quota.ReportId) :
    (w.updateReport r f).2.reports.get report =
      (w.reports.get report).map fun row => if r = report then f row else row := by
  unfold World.updateReport
  cases hr : w.reports.get r with
  | none =>
    show w.reports.get report = _
    by_cases h : r = report
    · subst h
      rw [hr]
      rfl
    · simp [h]
  | some row =>
    show (w.reports.set r (f row)).get report = _
    rw [Table.get_set]
    by_cases h : report = r
    · subst h
      simp [hr]
    · simp [h, Ne.symm h]

/-- A statement that the database refuses. -/
theorem exec_down (hs : ∀ s', s ≠ .market s') :
    World.exec s .down w = (.error .database, w) := by
  cases s with
  | market s' => exact absurd rfl (hs s')
  | _ => rfl

theorem exec_write (hs : ∀ s', s ≠ .market s') (hc : c ≠ .down) :
    World.exec s c w = w.write s := by
  cases s with
  | market s' => exact absurd rfl (hs s')
  | _ => exact if_neg hc

/-- What any statement makes of a report that is there. -/
theorem report_exec (h : w.reports.get report = some row) :
    (World.exec s c w).2.reports.get report = some row ∨
      (World.exec s c w).2.reports.get report = some (s.onReport w.now report row) := by
  by_cases hm : ∃ s', s = .market s'
  · obtain ⟨s', rfl⟩ := hm
    exact Or.inl h
  have hm : ∀ s', s ≠ .market s' := fun s' hs => hm ⟨s', hs⟩
  by_cases hc : c = .down
  · subst hc
    rw [exec_down hm]
    exact Or.inl h
  rw [exec_write hm hc]
  cases s with
  | market s' => exact absurd rfl (hm s')
  | incrementFree device => exact Or.inl h
  | rollbackQuota device =>
    left
    simp only [World.write]
    split
    · exact h
    · exact h
  | createReport new =>
    left
    simp only [World.write]
    split
    · exact h
    · have hne : report ≠ w.reports.fresh := by
        rintro rfl
        rw [Table.get_fresh] at h
        cases h
      simpa [hne] using h
  | setS3Key r key => exact Or.inr (by simp [World.write, get_updateReport, h, Stmt.onReport])
  | patchReport r patch => exact Or.inr (by simp [World.write, get_updateReport, h, Stmt.onReport])
  | linkReport r o u =>
    simp only [World.write]
    split
    · exact Or.inl h
    · exact Or.inr (by simp [get_updateReport, h, Stmt.onReport])
  | softDelete r => exact Or.inr (by simp [World.write, get_updateReport, h, Stmt.onReport])

/-- A link that went through. -/
theorem linked_ok (h : (World.exec (.linkReport report order user) c w).1 = .ok ()) :
    (World.exec (.linkReport report order user) c w).2.Linked report order := by
  by_cases hc : c = .down
  · subst hc
    cases h
  have hexec : World.exec (.linkReport report order user) c w =
      w.write (.linkReport report order user) := exec_write (fun _ h => nomatch h) hc
  have hwrite : w.write (.linkReport report order user) =
      if w.reports.any fun k r => k ≠ report && r.orderId = some order then
        (.error (.unique .orderId), w)
      else
        let r := w.updateReport report fun r =>
          { r with orderId := some order, userId := some user }
        (r.1.map fun _ => (), r.2) := rfl
  rw [hexec, hwrite] at h ⊢
  split at h
  next => cases h
  next hfree =>
    rw [if_neg hfree]
    cases hr : w.reports.get report with
    | none =>
      rw [World.updateReport, hr] at h
      cases h
    | some row => exact ⟨_, by rw [get_updateReport, hr]; rfl, by simp⟩

/-- A report that was created. -/
theorem created_ok {new : Report} (h : (World.exec (.createReport new) c w).1 = .ok report) :
    report = w.reports.fresh ∧ w.conflict new = none ∧
      (World.exec (.createReport new) c w).2.reports.get report =
        some { new with createdAt := w.now } := by
  by_cases hc : c = .down
  · subst hc
    cases h
  have hexec : World.exec (.createReport new) c w = w.write (.createReport new) :=
    exec_write (fun _ h => nomatch h) hc
  rw [hexec] at h ⊢
  simp only [World.write] at h ⊢
  cases hconflict : w.conflict new with
  | some index =>
    rw [hconflict] at h
    cases h
  | none =>
    rw [hconflict] at h
    cases h
    exact ⟨rfl, rfl, by simp⟩

end Rows

section Footprints

/-- The statements of an order that is submitted. -/
inductive SubmitStmt (id : OrderId) : CarSalePro.Stmt → Prop where
  | transition (source target legal) : SubmitStmt id (.order (.transition id source target legal))
  | deadline (after) : SubmitStmt id (.order (.setInspectionDeadline id after))
  | submitted (at_ autoApproveAt) : SubmitStmt id (.order (.setSubmitted id at_ autoApproveAt))
  | event (e) : SubmitStmt id (.event e)

theorem submits_transition (id : OrderId) (target : OrderStatus) (actor : Actor) :
    (transition id target actor).Only (SubmitStmt id) :=
  only_transition id target actor (fun _ _ => .transition _ _ _) .event .deadline

theorem only_submitReportForOrder (id : OrderId) :
    (submitReportForOrder id).Only (SubmitStmt id) := by
  have hmove (target : OrderStatus) := submits_transition id target .system
  have hwalk (status : OrderStatus) : (walkToInProgress id status).Only (SubmitStmt id) := by
    unfold walkToInProgress
    split
    · exact Only.seq (hmove _) fun _ => hmove _
    · exact hmove _
    · exact only_pure _
  refine Only.seq (only_fetch _ _) fun order => ?_
  split
  · exact only_pure _
  · refine Only.ite (fun _ => only_pure _) fun _ => Only.seq (hwalk _) fun _ => ?_
    refine Only.seq only_readSettings fun settings => Only.seq only_readClock fun now => ?_
    refine Only.seq (only_issue (.submitted _ _)) fun _ => Only.seq (hmove _) fun _ => ?_
    exact only_pure _

variable {A : Stmt → Prop}

theorem only_assertReportComplete (data : Option Json) (score : Option Int) :
    (assertReportComplete data score).Only A := by
  refine Only.seq (only_fetch _ _) fun min => Only.ite (fun _ => only_pure _) fun _ => ?_
  refine Only.ite (fun _ => only_throw _) fun _ => ?_
  exact Only.ite (fun _ => only_throw _) fun _ => only_pure _

theorem only_assertSubmission (device : Quota.DeviceId) (dto : CreateReportDto)
    (extracted : ExtractedReportFields) : (assertSubmission device dto extracted).Only A := by
  unfold assertSubmission
  split
  · exact only_pure _
  · refine Only.seq ?_ fun _ => only_assertReportComplete _ _
    refine Only.seq (only_fetch _ _) fun found => ?_
    split
    · exact only_throw _
    · split
      · exact only_throw _
      · refine Only.seq (only_fetch _ _) fun link => ?_
        split
        · exact only_throw _
        · exact Only.when fun _ => only_throw _

theorem only_findExisting (device : Quota.DeviceId) (code : String) :
    (findExisting device code).Only A :=
  Only.ite (fun _ => only_fetch _ _) fun _ => only_pure _

theorem only_requireAttachable (order : OrderId) (inspector : UserId) :
    (requireAttachable order inspector).Only A := by
  have hrequire : (inMarket (requireOrder order)).Only A :=
    Only.within (only_requireOrderAt (A := fun _ => False) _ _) fun _ => False.elim
  refine Only.seq hrequire fun row => Only.ite (fun _ => only_throw _) fun _ => ?_
  refine Only.ite (fun _ => only_throw _) fun _ => Only.seq (only_fetch _ _) fun existing => ?_
  exact Only.when fun _ => only_throw _

theorem only_requireReport (order : OrderId) (inspector : UserId) (code : String) :
    (requireReport order inspector code).Only A := by
  refine Only.seq (only_fetch _ _) fun found => ?_
  split
  · exact only_throw _
  · refine Only.ite (fun _ => only_throw _) fun _ => Only.ite (fun _ => only_throw _) fun _ => ?_
    refine Only.ite (fun _ => only_throw _) fun _ => ?_
    refine Only.seq (only_assertReportComplete _ _) fun _ =>
      Only.seq (only_fetch _ _) fun link => ?_
    exact Only.ite (fun _ => only_throw _) fun _ => only_pure _

theorem only_requireOwned (device : Quota.DeviceId) (report : Quota.ReportId) :
    (requireOwned device report).Only A := by
  refine Only.seq (only_fetch _ _) fun found => ?_
  split
  · exact only_throw _
  · refine Only.ite (fun _ => only_throw _) fun _ => ?_
    exact Only.ite (fun _ => only_throw _) fun _ => only_pure _

theorem only_recreate {existing : Quota.ReportId} {report : Report} {dto : CreateReportDto}
    {extracted : ExtractedReportFields}
    (hpatch : A (.patchReport existing (dto.patch extracted report true))) :
    (recreate existing report dto extracted).Only A := by
  refine Only.seq (only_fetch _ _) fun configured => Only.ite (fun _ => only_throw _) fun _ => ?_
  refine Only.seq ((only_perform _).mpr hpatch) fun updated => ?_
  exact Only.seq (only_fetch _ _) fun _ => only_pure _

theorem only_consumeQuota {device : Quota.DeviceId} (hcount : A (.incrementFree device)) :
    (consumeQuota device).Only A := by
  refine Only.seq (only_fetch _ _) fun read => Only.ite (fun _ => only_pure _) fun _ => ?_
  refine Only.ite (fun _ => only_throw _) fun _ => ?_
  exact Only.seq ((only_perform _).mpr hcount) fun _ => only_pure _

theorem only_rollbackQuota {device : Quota.DeviceId} (tier : Quota.Tier)
    (hback : A (.rollbackQuota device)) : (rollbackQuota device tier).Only A := by
  cases tier with
  | free => exact Only.quietly ((only_perform _).mpr hback)
  | pro => exact only_pure _

theorem only_update {device : Quota.DeviceId} {report : Quota.ReportId} {dto : UpdateReportDto}
    (hpatch : ∀ patch, A (.patchReport report patch)) : (update device report dto).Only A := by
  refine Only.seq (only_requireOwned _ _) fun row => Only.seq (only_ofExcept _) fun extracted => ?_
  refine Only.seq ((only_perform _).mpr (hpatch _)) fun updated => ?_
  refine Only.ite (fun _ => ?_) fun _ => only_pure _
  refine Only.seq (only_fetch _ _) fun configured => Only.ite (fun _ => only_throw _) fun _ => ?_
  exact Only.seq (only_fetch _ _) fun _ => only_pure _

theorem only_remove {device : Quota.DeviceId} {report : Quota.ReportId}
    (hdelete : A (.softDelete report)) : (remove device report).Only A := by
  refine Only.seq (only_requireOwned _ _) fun row => Only.seq (only_fetch _ _) fun configured => ?_
  refine Only.seq (Only.when fun _ => only_fetch _ _) fun _ => ?_
  refine Only.seq (only_fetch _ _) fun _ => Only.seq ((only_perform _).mpr hdelete) fun _ => ?_
  exact only_pure _

/-- What a filed report comes to, statement by statement. -/
theorem only_storeReport {device : Quota.DeviceId} {dto : CreateReportDto}
    {extracted : ExtractedReportFields} {tier : Quota.Tier} (hback : A (.rollbackQuota device))
    (hcreate : ∀ row, A (.createReport row)) (hkey : ∀ report key, A (.setS3Key report key))
    (hmarket : ∀ s, A (.market s)) : (storeReport device dto extracted tier).Only A := by
  have hfail (e : Err) :
      (do rollbackQuota device tier; throw e : Act CreateReportResponse).Only A :=
    Only.seq (only_rollbackQuota tier hback) fun _ => only_throw _
  refine Only.seq (only_fetch _ _) fun configured => Only.ite (fun _ => hfail _) fun _ => ?_
  refine Only.seq (Only.attempt ((only_perform _).mpr (hcreate _))) fun r => ?_
  cases r with
  | error e => exact hfail _
  | ok report =>
    refine Only.seq ((only_perform _).mpr (hkey _ _)) fun _ => Only.seq (only_fetch _ _) fun _ => ?_
    cases dto.orderId with
    | none => exact Only.seq (only_pure _) fun _ => only_pure _
    | some order =>
      refine Only.seq (Only.quietly ?_) fun _ => only_pure _
      exact Only.within (only_submitReportForOrder order) fun s _ => hmarket s

end Footprints

end CarSalePro.Reports
