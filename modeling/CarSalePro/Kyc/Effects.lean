import CarSalePro.Kyc.Applications

namespace CarSalePro.Kyc

open Store Interleave Prog

/-- The statements a call can issue. -/
def Call.Issues : Call → Stmt → Prop
  | .create user, .createApplication user' => user' = user
  | .upload _, .putObject _ => True
  | .upload request, .upsertDocument application kind _ =>
    application = request.application ∧ kind = request.kind
  | .upload _, .deleteObject _ _ => True
  | .submit _ application _, .hold application' _ => application' = application
  | .submit user application _, .autoApprove application' user' _ =>
    application' = application ∧ user' = user
  | .view application, .beginReview application' => application' = application
  | .approve application admin, .approve application' _ admin' _ =>
    application' = application ∧ admin' = admin
  | .reject application admin reason, .reject application' _ admin' reason' _ =>
    application' = application ∧ admin' = admin ∧ reason' = reason
  | .purge, .deleteObject _ _ => True
  | .purge, .stampPurged _ _ => True
  | _, _ => False

/-- A condition on the steps of the verification. -/
abbrev StepGuard (γ : Type) := Guard Site Stmt World Fate γ

/-- No condition. -/
def anyStep {γ : Type} : StepGuard γ := fun _ _ _ _ => true

/-- The documents a submit examined. -/
def examined (seen : Site → World) (application : ApplicationRef) : DocumentList :=
  (seen (.submitApplication application)).documentsOf application

/-- The kind, object key, file hash and number hash of each document. -/
def contents (documents : DocumentList) :
    List (KycDocumentKind × String × Option String × Option String) :=
  documents.map fun d => (d.1.2, d.2.s3Key, d.2.sha256, d.2.idNumberHash)

def World.file (w : World) (application : ApplicationRef) :
    List (KycDocumentKind × String × Option String × Option String) :=
  contents (w.documentsOf application)

section Footprint

variable {F : Stmt → Prop}

theorem only_requireOwnedApplication {site : Site} {user : UserRef} {application : ApplicationRef} :
    (requireOwnedApplication site user application).Only F := by
  refine .seq (only_fetch _ _) fun found => ?_
  cases found with
  | none => exact only_throw _
  | some found => exact .ite (fun _ => only_throw _) fun _ => only_pure _

theorem only_requireApplication {site : Site} {application : ApplicationRef} :
    (requireApplication site application).Only F := by
  refine .seq (only_fetch _ _) fun found => ?_
  cases found with
  | none => exact only_throw _
  | some found => exact only_pure _

theorem only_assertTransition {source target : KycStatus} :
    (assertTransition source target).Only F := .when fun _ => only_throw _

theorem only_storeDocument {upload : Upload} {plan : KycObjectPlan} {body : List UInt8}
    (hput : ∀ key, F (.putObject key))
    (hupsert : ∀ stored, F (.upsertDocument upload.application upload.kind stored))
    (hdelete : ∀ key bucket, F (.deleteObject key bucket)) :
    (storeDocument upload plan body).Only F := by
  refine .seq (only_fetch _ _) fun hash => .seq (only_fetch _ _) fun previous => ?_
  refine .seq ((only_perform _).mpr (hput _)) fun bucket => ?_
  refine .seq ((only_perform _).mpr (hupsert _)) fun row => .seq ?_ fun _ => only_pure _
  cases previous with
  | none => exact only_pure _
  | some previous => exact .when fun _ => .quietly ((only_perform _).mpr (hdelete _ _))

theorem only_planOf {file : KycUploadPart} : (planOf file).Only F := by
  unfold planOf
  cases resolveKycObject file with
  | ok plan => exact only_pure _
  | error e => exact only_throw _

theorem only_bodyOf {upload : Upload} {plan : KycObjectPlan} : (bodyOf upload plan).Only F := by
  refine .ite (fun _ => ?_) fun _ => only_pure _
  cases upload.compressed with
  | none => exact only_throw _
  | some data => exact only_pure _

theorem only_uploadDocument {upload : Upload} (hput : ∀ key, F (.putObject key))
    (hupsert : ∀ stored, F (.upsertDocument upload.application upload.kind stored))
    (hdelete : ∀ key bucket, F (.deleteObject key bucket)) : (uploadDocument upload).Only F := by
  refine .seq only_requireOwnedApplication fun owned => .ite (fun _ => only_throw _) fun _ => ?_
  refine .ite (fun _ => only_throw _) fun _ => .seq (only_fetch _ _) fun configured => ?_
  refine .ite (fun _ => only_throw _) fun _ => .seq ?_ fun plan => .seq ?_ fun body => ?_
  · exact only_planOf
  · exact only_bodyOf
  · exact only_storeDocument hput hupsert hdelete

theorem only_submitApplication {user : UserRef} {application : ApplicationRef}
    {termsAccepted : Bool} (hhold : ∀ submittedAt, F (.hold application submittedAt))
    (happrove : ∀ submittedAt, F (.autoApprove application user submittedAt)) :
    (submitApplication user application termsAccepted).Only F := by
  refine .seq only_requireOwnedApplication fun owned => .ite (fun _ => only_throw _) fun _ => ?_
  refine .seq only_assertTransition fun _ => .seq (.when fun _ => only_throw _) fun _ => ?_
  refine .seq (only_fetch _ _) fun submittedAt => .seq (only_fetch _ _) fun priorRejections => ?_
  refine .seq (.ite (fun _ => only_pure _) fun _ => only_fetch _ _) fun reusedDocuments => ?_
  refine .seq (.ite (fun _ => only_pure _) fun _ => only_fetch _ _) fun reusedIdentity => ?_
  refine .ite (fun _ => ?_) fun _ => ?_
  · exact .seq ((only_perform _).mpr (hhold _)) fun _ => only_pure _
  · exact .seq ((only_perform _).mpr (happrove _)) fun _ => only_pure _

theorem only_getApplicationForAdmin {application : ApplicationRef}
    (hreview : F (.beginReview application)) : (getApplicationForAdmin application).Only F := by
  refine .seq (only_fetch _ _) fun found => ?_
  cases found with
  | none => exact only_throw _
  | some found =>
    refine .ite (fun _ => ?_) fun _ => only_pure _
    exact .seq ((only_perform _).mpr hreview) fun _ => only_pure _

theorem only_purgeOldDocuments (hdelete : ∀ key bucket, F (.deleteObject key bucket))
    (hstamp : ∀ application kind, F (.stampPurged application kind)) :
    purgeOldDocuments.Only F := by
  refine .seq (only_fetch _ _) fun now => .seq (only_fetch _ _) fun documents => ?_
  refine .seq (only_forEach fun document _ => ?_) fun _ => only_pure _
  refine .seq (only_fetch _ _) fun configured => ?_
  refine .seq (.when fun _ => .quietly ((only_perform _).mpr (hdelete _ _))) fun _ => ?_
  exact .seq ((only_perform _).mpr (hstamp _ _)) fun _ => only_pure _

/-- A call issues no other statement. -/
theorem Call.only_issues (call : Call) : call.prog.Only call.Issues := by
  cases call with
  | create user =>
    refine .seq (.seq (only_fetch _ _) fun live => ?_) fun _ => only_pure _
    cases live with
    | none => exact (only_perform _).mpr rfl
    | some live => exact only_pure _
  | upload request =>
    refine .seq ?_ fun _ => only_pure _
    exact only_uploadDocument (fun _ => trivial) (fun _ => ⟨rfl, rfl⟩) fun _ _ => trivial
  | submit user application termsAccepted =>
    refine .seq ?_ fun _ => only_pure _
    exact only_submitApplication (fun _ => rfl) fun _ => ⟨rfl, rfl⟩
  | view application => exact .seq (only_getApplicationForAdmin rfl) fun _ => only_pure _
  | approve application admin =>
    refine .seq ?_ fun _ => only_pure _
    refine .seq only_requireApplication fun row => .seq only_assertTransition fun _ => ?_
    exact .seq (only_fetch _ _) fun reviewedAt => (only_perform _).mpr ⟨rfl, rfl⟩
  | reject application admin reason =>
    refine .seq ?_ fun _ => only_pure _
    refine .seq only_requireApplication fun row => .seq only_assertTransition fun _ => ?_
    exact .seq (only_fetch _ _) fun reviewedAt => (only_perform _).mpr ⟨rfl, rfl, rfl⟩
  | purge =>
    refine .seq ?_ fun _ => only_pure _
    exact only_purgeOldDocuments (fun _ _ => trivial) fun _ _ => trivial

theorem launch_thread {γ : Type} {hist : γ} {w : World} {calls : List Call} {t : Nat}
    {p : Act Unit} (h : (launch w hist calls).threads[t]? = some p) :
    ∃ call, calls[t]? = some call ∧ p = call.prog := by
  simp only [launch, List.getElem?_map] at h
  obtain ⟨call, hcall, rfl⟩ := Option.map_eq_some_iff.mp h
  exact ⟨call, hcall, rfl⟩

/-- In every run, a thread issues what its call can issue. -/
theorem issues_reach {γ : Type} {rec : Recorder Site Stmt World γ} {hist : γ} {w : World}
    {C : Guard Site Stmt World Fate γ} {calls : List Call} {g : Run γ} {t : Nat} {p : Act Unit}
    {s : Stmt} (hg : Pool.Reach machine rec C (launch w hist calls) g)
    (hp : g.threads[t]? = some p) (hs : p.label = some (.call s)) :
    ∃ call, calls[t]? = some call ∧ call.Issues s := by
  apply hg.issues (A := fun t s => ∃ call, calls[t]? = some call ∧ call.Issues s) ?_ hp hs
  intro t p hp
  obtain ⟨call, hcall, rfl⟩ := launch_thread hp
  exact call.only_issues.mono fun s hs => ⟨call, hcall, hs⟩

end Footprint

section Rows

variable {w : World} {s : Stmt} {c : Fate}

/-- The application whose status a statement moves to another one than rejected, and where its call
has read it. -/
def Stmt.revives : Stmt → Option (ApplicationRef × Site)
  | .hold application _ | .autoApprove application _ _ =>
    some (application, .submitApplication application)
  | .beginReview application => some (application, .getApplicationForAdmin)
  | .approve application _ _ _ => some (application, .approve)
  | _ => none

theorem exec_fails (s : Stmt) (w : World) : (World.exec s .fails w).2 = w := by
  cases s <;> rfl

/-- What the transaction of a decision leaves: nothing, or both of its writes. -/
theorem decide_cases (w : World) (application : ApplicationRef)
    (f : KycApplication → KycApplication) (user : UserRef) (kycVerified : Bool) :
    (w.decide application f user kycVerified).2 = w ∨
      ∃ row, w.applications.get application = some row ∧
        (w.decide application f user kycVerified).2 =
          { w with applications := w.applications.set application (f row),
                   users := w.users.set user kycVerified } := by
  unfold World.decide
  cases hrow : w.applications.get application with
  | none => exact Or.inl rfl
  | some row =>
    cases w.users.get user with
    | none => exact Or.inl rfl
    | some verified => exact Or.inr ⟨row, rfl, rfl⟩

theorem updateApplication_cases (w : World) (application : ApplicationRef)
    (f : KycApplication → KycApplication) :
    (w.updateApplication application f).2 = w ∨
      ∃ row, w.applications.get application = some row ∧
        (w.updateApplication application f).2 =
          { w with applications := w.applications.set application (f row) } := by
  unfold World.updateApplication
  cases hrow : w.applications.get application with
  | none => exact Or.inl rfl
  | some row => exact Or.inr ⟨row, rfl, rfl⟩

end Rows

end CarSalePro.Kyc
