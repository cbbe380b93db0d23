import CarSalePro.Interleave.Recall
import CarSalePro.Kyc.Effects

namespace CarSalePro.Kyc

open Store Interleave Prog

def World.leftDraft (w : World) (application : ApplicationRef) : Bool :=
  (w.applications.get application).any (·.status ≠ .draft)

/-- The state in which an upload first reads its application, to check it. -/
abbrev CheckMemory := Option World

namespace CheckMemory

def note (m : CheckMemory) (l : Label Site Stmt) (w : World) : CheckMemory :=
  match l with
  | .ask (.uploadDocument _) => m.or (some w)
  | _ => m

/-- An upload writes its row when it has found a draft. -/
def may (m : CheckMemory) : Stmt → Prop
  | .upsertDocument application _ _ => ∃ w, m = some w ∧ w.leftDraft application = false
  | _ => True

theorem note_some {w : World} {l : Label Site Stmt} {w' : World} :
    note (some w) l w' = some w := by
  unfold note
  split <;> rfl

end CheckMemory

/-- The state of each read of each thread, that of an upload's check, whether the documents of an
application have changed since a thread read them to submit it, and the documents each application
was decided on. -/
structure DocumentLog where
  asked : Nat → Site → World
  checked : Nat → CheckMemory
  changed : Nat → ApplicationRef → Bool
  decided : ApplicationRef → Option DocumentList

/-- An application that left its draft before the run was decided on the documents it has. -/
def DocumentLog.initial (w : World) : DocumentLog where
  asked _ _ := w
  checked _ := none
  changed _ _ := false
  decided application :=
    if w.leftDraft application then some (w.documentsOf application) else none

/-- The application a statement of a submit decides. -/
def Stmt.decides : Stmt → Option ApplicationRef
  | .hold application _ | .autoApprove application _ _ => some application
  | _ => none

/-- What the log says of changes after a step: a read to submit sees them all. -/
def changedBy (t : Nat) (l : Label Site Stmt) (w w' : World)
    (changed : Nat → ApplicationRef → Bool) : Nat → ApplicationRef → Bool :=
  match l with
  | .ask (.submitApplication application) =>
    Function.update changed t (Function.update (changed t) application false)
  | .call (.upsertDocument application _ _) =>
    if w'.file application = w.file application then changed
    else fun u => Function.update (changed u) application true
  | _ => changed

def decidedBy (t : Nat) (l : Label Site Stmt) (w w' : World) (h : DocumentLog) :
    ApplicationRef → Option DocumentList :=
  match l with
  | .ask _ => h.decided
  | .call s =>
    match s.decides with
    | none => h.decided
    | some application =>
      if w.applications.get application = w'.applications.get application then h.decided
      else Function.update h.decided application (some (examined (h.asked t) application))

/-- The state of the last read at each site. -/
def askedBy (t : Nat) (l : Label Site Stmt) (w : World) (asked : Nat → Site → World) :
    Nat → Site → World :=
  match l with
  | .ask site => Function.update asked t (Function.update (asked t) site w)
  | .call _ => asked

def recordDocuments : Recorder Site Stmt World DocumentLog := fun t l w w' h =>
  { asked := askedBy t l w h.asked
    checked := Function.update h.checked t ((h.checked t).note l w)
    changed := changedBy t l w w' h.changed
    decided := decidedBy t l w w' h }

/-- No submit decides an application between the check of an upload and its row, and no upload
changes a document between the read of a submit and its decision. -/
def filesInTime : StepGuard DocumentLog := fun t l c x =>
  match l with
  | .call (.upsertDocument application _ _) => c ≠ .ok || !x.1.leftDraft application ||
      (x.2.checked t).all (·.leftDraft application)
  | .call (.hold application _) | .call (.autoApprove application _ _) =>
    c ≠ .ok || !x.2.changed t application
  | _ => true

/-- An upload writes its row while the application is a draft, and a submit decides before the
documents change. -/
def filesOnDraft : StepGuard DocumentLog := fun t l c x =>
  match l with
  | .call (.upsertDocument application _ _) => c ≠ .ok || !x.1.leftDraft application
  | .call (.hold application _) | .call (.autoApprove application _ _) =>
    c ≠ .ok || !x.2.changed t application
  | _ => true

/-- The calls of applicants: uploads and submits. -/
def Call.applicant : Call → Bool
  | .upload _ | .submit _ _ _ => true
  | _ => false

/-- An application that has left its draft has the documents it was decided on. -/
def OnFile (x : World × DocumentLog) : Prop := ∀ application, x.1.leftDraft application →
  (x.2.decided application).map contents = some (x.1.file application)

/-- In every run of uploads and submits, an application that has left its draft has the documents
that were examined, and no step changes them. -/
def DocumentLaw (C : StepGuard DocumentLog) : Prop :=
  ∀ (w : World) (calls : List Call) (g g' : Run DocumentLog) (m : Move Fate),
    (∀ call ∈ calls, call.applicant) →
    Pool.Reach machine recordDocuments C (launch w (.initial w) calls) g → g.Meets C m →
    Pool.step machine recordDocuments m g = some g' →
    OnFile g'.snapshot ∧ ∀ application, g.state.leftDraft application →
      g'.state.leftDraft application ∧ g'.state.file application = g.state.file application

/-- A step after which every application that has left its draft has its documents still, and those
it was decided on. -/
structure Filed (x y : World × DocumentLog) : Prop where
  onFile : OnFile y
  kept : ∀ application, x.1.leftDraft application →
    y.1.leftDraft application ∧ y.1.file application = x.1.file application

section Steps

variable {x y : World × DocumentLog} {t : Nat} {c : Fate} {s : Stmt} {key : ApplicationRef}

theorem Filed.same (hx : OnFile x)
    (happlications : ∀ application,
      y.1.applications.get application = x.1.applications.get application)
    (hdocuments : y.1.documents = x.1.documents) (hdecided : y.2.decided = x.2.decided) :
    Filed x y := by
  have hleft (application : ApplicationRef) :
      y.1.leftDraft application = x.1.leftDraft application := by
    simp only [World.leftDraft, happlications]
  have hfile (application : ApplicationRef) : y.1.file application = x.1.file application := by
    simp only [World.file, World.documentsOf, hdocuments]
  constructor
  · intro application h
    rw [hdecided, hfile]
    exact hx application (hleft application ▸ h)
  · exact fun application h => ⟨(hleft application).trans h, hfile application⟩

/-- The row of an upload touches no other application. -/
theorem Filed.upsert {kind : KycDocumentKind} {row : KycDocument} (hx : OnFile x)
    (hdraft : x.1.leftDraft key = false) (happlications : y.1.applications = x.1.applications)
    (hdocuments : y.1.documents = x.1.documents.set (key, kind) row)
    (hdecided : y.2.decided = x.2.decided) : Filed x y := by
  have hleft (application : ApplicationRef) :
      y.1.leftDraft application = x.1.leftDraft application := by
    simp only [World.leftDraft, happlications]
  have hfile (application : ApplicationRef) (h : x.1.leftDraft application) :
      y.1.file application = x.1.file application := by
    have hother : key ≠ application := by
      rintro rfl
      rw [hdraft] at h
      cases h
    rw [World.file, World.documentsOf, hdocuments, Table.findMany_set_other]
    · rfl
    · exact fun _ => decide_eq_false hother
  constructor
  · intro application h
    have hbefore := (hleft application).symm.trans h
    rw [hdecided, hfile application hbefore]
    exact hx application hbefore
  · exact fun application h => ⟨(hleft application).trans h, hfile application h⟩

/-- A decision of a submit on the documents that are on file. -/
theorem Filed.decide {row : KycApplication} (hx : OnFile x) (hs : s.decides = some key)
    (hexamined : x.1.file key = contents (examined (x.2.asked t) key))
    (hstatus : row.status ≠ .draft)
    (happlications : y.1.applications = x.1.applications.set key row)
    (hdocuments : y.1.documents = x.1.documents)
    (hlog : y.2.decided = decidedBy t (.call s) x.1 y.1 x.2) : Filed x y := by
  have hself : y.1.applications.get key = some row := by simp [happlications]
  have hothers (application : ApplicationRef) (hne : application ≠ key) :
      y.1.applications.get application = x.1.applications.get application := by
    rw [happlications, Table.get_set, if_neg hne]
  have hfile (application : ApplicationRef) : y.1.file application = x.1.file application := by
    simp only [World.file, World.documentsOf, hdocuments]
  simp only [decidedBy, hs] at hlog
  by_cases hsame : x.1.applications.get key = y.1.applications.get key
  · rw [if_pos hsame] at hlog
    apply Filed.same hx ?_ hdocuments hlog
    intro application
    by_cases hne : application = key
    · rw [hne, hsame]
    · exact hothers application hne
  rw [if_neg hsame] at hlog
  have hleft : y.1.leftDraft key := by
    rw [World.leftDraft, hself]
    simpa using hstatus
  constructor
  · intro application h
    rw [hfile, hlog]
    by_cases hne : application = key
    · rw [hne, Function.update_self, hexamined]
      rfl
    · rw [Function.update_of_ne hne]
      apply hx
      simpa [World.leftDraft, hothers application hne] using h
  · intro application h
    refine ⟨?_, hfile application⟩
    by_cases hne : application = key
    · exact hne ▸ hleft
    · simpa [World.leftDraft, hothers application hne] using h

/-- The statements of applicants. -/
def Stmt.applicant : Stmt → Prop
  | .putObject _ | .upsertDocument _ _ _ | .deleteObject _ _ | .hold _ _
    | .autoApprove _ _ _ => True
  | _ => False

/-- While nothing has changed, the documents are those that a thread has read. -/
def ReadOn (x : World × DocumentLog) : Prop := ∀ t application,
  x.2.changed t application = false →
    x.1.file application = contents (examined (x.2.asked t) application)

theorem ReadOn.ask (hx : ReadOn x) (site : Site) :
    ReadOn (x.1, recordDocuments t (.ask site) x.1 x.1 x.2) := by
  intro u application h
  by_cases hread : u = t ∧ site = .submitApplication application
  · obtain ⟨rfl, rfl⟩ := hread
    simp [recordDocuments, askedBy, examined, World.file]
  · have hchanged : changedBy t (.ask site) x.1 x.1 x.2.changed u application =
        x.2.changed u application := by
      by_cases hu : u = t
      · subst hu
        cases site with
        | submitApplication key =>
          have hkey : application ≠ key := fun he => hread ⟨rfl, he ▸ rfl⟩
          simp [changedBy, hkey]
        | _ => rfl
      · cases site <;> simp [changedBy, hu]
    have hasked : askedBy t (.ask site) x.1 x.2.asked u (.submitApplication application) =
        x.2.asked u (.submitApplication application) := by
      by_cases hu : u = t
      · subst hu
        have hsite : Site.submitApplication application ≠ site := fun he => hread ⟨rfl, he.symm⟩
        simp [askedBy, hsite]
      · simp [askedBy, hu]
    show x.1.file application = contents (World.documentsOf
      (askedBy t (.ask site) x.1 x.2.asked u (.submitApplication application)) application)
    rw [hasked]
    exact hx u application (hchanged ▸ h)

/-- Only the row of an upload changes what is on file. -/
theorem file_exec {w : World} {application : ApplicationRef} (hs : s.applicant)
    (h : (World.exec s c w).2.file application ≠ w.file application) :
    ∃ kind stored, s = .upsertDocument application kind stored := by
  cases c with
  | fails =>
    rw [exec_fails] at h
    exact absurd rfl h
  | ok =>
    have hfile {w' : World} (hw' : w'.documents = w.documents) :
        w'.file application = w.file application := by
      simp only [World.file, World.documentsOf, hw']
    cases s with
    | putObject key => exact absurd rfl h
    | deleteObject key bucket => exact absurd rfl h
    | upsertDocument key kind stored =>
      by_cases hkey : key = application
      · exact ⟨kind, stored, hkey ▸ rfl⟩
      refine absurd ?_ h
      show (w.upsertDocument key kind stored).2.file application = _
      unfold World.upsertDocument
      split
      next => rfl
      next =>
        rw [World.file, World.documentsOf, Table.findMany_set_other]
        · rfl
        · exact fun _ => decide_eq_false hkey
    | hold key submittedAt =>
      refine absurd (hfile ?_) h
      rcases updateApplication_cases w key _ with heq | ⟨row, -, heq⟩
      · exact congrArg World.documents heq
      · exact (congrArg World.documents heq).trans rfl
    | autoApprove key user submittedAt =>
      refine absurd (hfile ?_) h
      rcases decide_cases w key _ user true with heq | ⟨row, -, heq⟩
      · exact congrArg World.documents heq
      · exact (congrArg World.documents heq).trans rfl
    | createApplication user => exact hs.elim
    | beginReview key => exact hs.elim
    | approve key user admin reviewedAt => exact hs.elim
    | reject key user admin reason reviewedAt => exact hs.elim
    | stampPurged key kind => exact hs.elim

theorem ReadOn.call (hx : ReadOn x) (hs : s.applicant) : ReadOn ((World.exec s c x.1).2,
    recordDocuments t (.call s) x.1 (World.exec s c x.1).2 x.2) := by
  intro u application h
  by_cases hsame : (World.exec s c x.1).2.file application = x.1.file application
  · have hbefore : x.2.changed u application = false := by
      cases s with
      | upsertDocument key kind stored =>
        simp only [recordDocuments, changedBy] at h
        split at h
        next => exact h
        next hdiffers =>
          have hkey : application ≠ key := fun he => hdiffers (he ▸ hsame)
          exact (Function.update_of_ne hkey _ _).symm.trans h
      | _ => exact h
    exact hsame.trans (hx u application hbefore)
  · obtain ⟨kind, stored, rfl⟩ := file_exec hs hsame
    simp [recordDocuments, changedBy, hsame] at h

/-- One step of applicants, in time. -/
theorem filed_exec (hx : OnFile x) (hread : ReadOn x) (happlicant : s.applicant)
    (hC : filesOnDraft t (.call s) c x) :
    Filed x ((World.exec s c x.1).2,
      recordDocuments t (.call s) x.1 (World.exec s c x.1).2 x.2) := by
  have hdecision (key : ApplicationRef) (w' : World) (hs : s.decides = some key)
      (hcases : w' = x.1 ∨ ∃ row, row.status ≠ .draft ∧ w'.documents = x.1.documents ∧
        w'.applications = x.1.applications.set key row)
      (hexamined : x.1.file key = contents (examined (x.2.asked t) key)) :
      Filed x (w', recordDocuments t (.call s) x.1 w' x.2) := by
    rcases hcases with rfl | ⟨row, hstatus, hdocuments, happlications⟩
    · exact Filed.same hx (fun _ => rfl) rfl (by simp [recordDocuments, decidedBy, hs])
    · exact Filed.decide hx hs hexamined hstatus happlications hdocuments rfl
  cases c with
  | fails =>
    rw [exec_fails]
    refine Filed.same hx (fun _ => rfl) rfl ?_
    cases s <;> simp [recordDocuments, decidedBy, Stmt.decides]
  | ok =>
    cases s with
    | putObject key => exact Filed.same hx (fun _ => rfl) rfl rfl
    | deleteObject key bucket => exact Filed.same hx (fun _ => rfl) rfl rfl
    | upsertDocument key kind stored =>
      have hdraft : x.1.leftDraft key = false := by simpa [filesOnDraft] using hC
      show Filed x ((x.1.upsertDocument key kind stored).2, recordDocuments t
        (.call (.upsertDocument key kind stored)) x.1 (x.1.upsertDocument key kind stored).2 x.2)
      unfold World.upsertDocument
      split
      · exact Filed.same hx (fun _ => rfl) rfl rfl
      · exact Filed.upsert hx hdraft rfl rfl rfl
    | hold key submittedAt =>
      apply hdecision key _ rfl ?_ (hread t key (by simpa [filesOnDraft] using hC))
      rcases updateApplication_cases x.1 key _ with h | ⟨row, -, h⟩
      · exact Or.inl h
      · refine Or.inr ⟨_, KycStatus.noConfusion, ?_, (congrArg World.applications h).trans rfl⟩
        exact (congrArg World.documents h).trans rfl
    | autoApprove key user submittedAt =>
      apply hdecision key _ rfl ?_ (hread t key (by simpa [filesOnDraft] using hC))
      rcases decide_cases x.1 key _ user true with h | ⟨row, -, h⟩
      · exact Or.inl h
      · refine Or.inr ⟨_, KycStatus.noConfusion, ?_, (congrArg World.applications h).trans rfl⟩
        exact (congrArg World.documents h).trans rfl
    | createApplication user => exact happlicant.elim
    | beginReview key => exact happlicant.elim
    | approve key user admin reviewedAt => exact happlicant.elim
    | reject key user admin reason reviewedAt => exact happlicant.elim
    | stampPurged key kind => exact happlicant.elim

end Steps

section Checks

variable {α : Type} {p : Act α} {A : CheckMemory → Prop} {upload : Upload}

/-- From some memories, the program stores what it has found to be of a draft. -/
abbrev Checks (A : CheckMemory → Prop) (p : Act α) (B : α → CheckMemory → Prop) : Prop :=
  Recalls machine CheckMemory.note CheckMemory.may A p B

/-- A program that stores no document. -/
theorem checks_plain
    (hp : p.Only fun s => ∀ application kind stored, s ≠ .upsertDocument application kind stored) :
    Checks A p fun _ _ => True := by
  apply Recalls.free hp
  intro m s hs
  cases s with
  | upsertDocument application kind stored => exact absurd rfl (hs application kind stored)
  | _ => trivial

/-- The application was a draft when the upload read it. -/
def FoundDraft (application : ApplicationRef) (m : CheckMemory) : Prop :=
  ∃ w, m = some w ∧ w.leftDraft application = false

theorem checks_requireOwnedApplication {user : UserRef} {application : ApplicationRef} :
    Checks (· = none) (requireOwnedApplication (.uploadDocument application) user application)
      fun owned m => owned.1.status = .draft → FoundDraft application m := by
  have hread : Checks (· = none) (fetch (.uploadDocument application) fun w =>
      (w.applications.get application).map fun row => (row, w.documentsOf application))
      fun found m => ∀ owned, found = some owned → owned.1.status = .draft →
        FoundDraft application m := by
    apply Recalls.fetch
    intro m w hm owned howned hdraft
    subst hm
    obtain ⟨row, hrow, rfl⟩ := Option.map_eq_some_iff.mp howned
    exact ⟨w, rfl, by simpa [World.leftDraft, hrow] using hdraft⟩
  apply hread.seq
  intro found
  cases found with
  | none => exact .throw fun _ _ => trivial
  | some owned =>
    exact .ite (fun _ => .throw fun _ _ => trivial) fun _ => .pure fun _ h => h owned rfl

/-- The check is made on the application as it was read first. -/
theorem checks_uploadDocument : Checks (· = none) (uploadDocument upload) fun _ _ => True := by
  apply checks_requireOwnedApplication.seq
  intro owned
  refine .ite (fun _ => .throw fun _ _ => trivial) fun hdraft => ?_
  apply Discipline.Flow.weaken (A := FoundDraft upload.application) _
    (fun _ h => h (not_not.mp hdraft)) (fun _ _ h => h) fun _ _ h => h
  have hnoted (m : CheckMemory) (l : Label Site Stmt) (w : World)
      (hm : FoundDraft upload.application m) : FoundDraft upload.application (m.note l w) := by
    obtain ⟨v, rfl, hv⟩ := hm
    exact ⟨v, CheckMemory.note_some, hv⟩
  have hkept {ρ : Type} {q : Act ρ} (hq : q.Only fun _ => False) :
      Checks (FoundDraft upload.application) q fun _ => FoundDraft upload.application :=
    Recalls.only hq (fun _ _ _ hs => False.elim hs) hnoted
  refine .ite (fun _ => .throw fun _ _ => trivial) fun _ => ?_
  refine .seq (hkept (only_fetch _ _)) fun configured => ?_
  refine .ite (fun _ => .throw fun _ _ => trivial) fun _ => ?_
  refine .seq (hkept only_planOf) fun plan => .seq (hkept only_bodyOf) fun body => ?_
  have hstore : (storeDocument upload plan body).Only fun s => ∀ application kind stored,
      s = .upsertDocument application kind stored → application = upload.application :=
    only_storeDocument (by simp) (fun _ _ _ _ h => by cases h; rfl) (by simp)
  refine (Recalls.only hstore (fun m s hm hs => ?_) hnoted).post (fun _ _ _ => trivial)
    fun _ _ h => h
  cases s with
  | upsertDocument application kind stored => exact hs application kind stored rfl ▸ hm
  | _ => trivial

theorem checks_call (call : Call) : Checks (· = none) call.prog fun _ _ => True := by
  have hplain (hother : ∀ request, call ≠ .upload request) :
      Checks (· = none) call.prog fun _ _ => True := by
    refine checks_plain (call.only_issues.mono fun s hs application kind stored he => ?_)
    subst he
    cases call with
    | upload request => exact hother request rfl
    | _ => exact hs.elim
  cases call with
  | upload request => exact checks_uploadDocument.seq fun _ => .pure fun _ _ => trivial
  | _ => exact hplain (by simp)

theorem records_checks : Records recordDocuments CheckMemory.note DocumentLog.checked :=
  fun _ _ _ _ _ => rfl

/-- An upload that no decision came before since its check finds a draft. -/
theorem draft_of_time {t : Nat} {s : Stmt} {c : Fate} {x : World × DocumentLog}
    (hmay : (x.2.checked t).may s) (hC : filesInTime t (.call s) c x) :
    filesOnDraft t (.call s) c x := by
  cases s with
  | upsertDocument application kind stored =>
    obtain ⟨w, hw, hdraft⟩ := hmay
    simpa [filesInTime, filesOnDraft, hw, hdraft] using hC
  | hold application submittedAt => exact hC
  | autoApprove application user submittedAt => exact hC
  | _ => rfl

theorem checks_launch {w : World} {calls : List Call} (t : Nat) (p : Act Unit)
    (hp : (launch w (DocumentLog.initial w) calls).threads[t]? = some p) :
    Checks (· = (DocumentLog.initial w).checked t) p fun _ _ => True := by
  obtain ⟨call, -, rfl⟩ := launch_thread hp
  exact checks_call call

end Checks

section Runs

variable {w : World} {calls : List Call} {g g' : Run DocumentLog} {m : Move Fate}

theorem onFile_initial (w : World) : OnFile (w, DocumentLog.initial w) := by
  intro application hleft
  have hleft : w.leftDraft application = true := hleft
  simp [DocumentLog.initial, hleft, World.file]

theorem applicant_of_issues {call : Call} {s : Stmt} (hcall : call.applicant)
    (hs : call.Issues s) : s.applicant := by
  cases call with
  | upload request => cases s <;> first | exact hs.elim | trivial
  | submit user application termsAccepted => cases s <;> first | exact hs.elim | trivial
  | _ => cases hcall

theorem launch_applicants (hcalls : ∀ call ∈ calls, call.applicant) :
    ∀ p ∈ (launch w (DocumentLog.initial w) calls).threads, p.Only Stmt.applicant := by
  intro p hp
  obtain ⟨call, hcall, rfl⟩ := List.mem_map.mp hp
  exact call.only_issues.mono fun s hs => applicant_of_issues (hcalls call hcall) hs

theorem onFile_reach (hcalls : ∀ call ∈ calls, call.applicant)
    (hg : Pool.Reach machine recordDocuments filesOnDraft (launch w (.initial w) calls) g) :
    OnFile g.snapshot ∧ ReadOn g.snapshot := by
  apply hg.footprint (I := fun x => OnFile x ∧ ReadOn x) (launch_applicants hcalls)
  · exact ⟨onFile_initial w, fun _ _ _ => rfl⟩
  · exact fun t site x hx => ⟨(Filed.same hx.1 (fun _ => rfl) rfl rfl).onFile, hx.2.ask site⟩
  · exact fun t s c x hx hs hC => ⟨(filed_exec hx.1 hx.2 hs hC).onFile, hx.2.call hs⟩
  · exact fun c x hx => ⟨(Filed.same hx.1 (fun _ => rfl) rfl rfl).onFile, hx.2⟩

/-- While no submit decides between the check of an upload and its row, and no upload writes between
the read of a submit and its decision, an application that has left its draft keeps the documents
it was decided on. -/
theorem kyc_documents (w : World) (calls : List Call) (g g' : Run DocumentLog) (m : Move Fate)
    (hcalls : ∀ call ∈ calls, call.applicant)
    (hg : Pool.Reach machine recordDocuments filesInTime (launch w (.initial w) calls) g)
    (hm : g.Meets filesInTime m) (hs : Pool.step machine recordDocuments m g = some g') :
    OnFile g'.snapshot ∧ ∀ application, g.state.leftDraft application →
      g'.state.leftDraft application ∧ g'.state.file application = g.state.file application := by
  obtain ⟨hx, hread⟩ := onFile_reach hcalls (recalled_mono (D := filesOnDraft) records_checks
    checks_launch (fun _ _ _ _ _ => rfl) (fun _ _ _ _ => draft_of_time) hg)
  have hm := recalled_meets (D := filesOnDraft) records_checks checks_launch
    (fun _ _ _ _ _ => rfl) (fun _ _ _ _ => draft_of_time) hg hm
  have hfiled : Filed g.snapshot g'.snapshot := by
    cases m with
    | env c =>
      cases Option.some.inj hs
      exact Filed.same hx (fun _ => rfl) rfl rfl
    | run t c =>
      obtain ⟨p, l, w', p', hp, hst, rfl⟩ := Pool.step_run_eq hs
      have hlabel := Pool.label_of_step hst
      cases p with
      | ret a => cases hst
      | raise e => cases hst
      | ask l f k =>
        cases hst
        exact Filed.same hx (fun _ => rfl) rfl rfl
      | call s k =>
        cases hst
        obtain ⟨call, hcall, hissues⟩ := issues_reach hg hp hlabel
        have happlicant := applicant_of_issues (hcalls call (List.mem_of_getElem? hcall)) hissues
        exact filed_exec hx hread happlicant (Pool.meets_run hm hp hlabel)
  exact ⟨hfiled.onFile, hfiled.kept⟩

end Runs

section LateUpload

def draft : KycApplication := ⟨1, .draft, none, none, none, none, none, none⟩

def pictureOf (key : String) : KycDocument := ⟨key, some "kyc", some key, none, 0, none⟩

/-- A draft with its four documents. -/
def completeDraft : World where
  applications := Table.empty.set 1 draft
  documents := (((Table.empty.set (1, .idFront) (pictureOf "front")).set (1, .idBack)
    (pictureOf "back")).set (1, .selfie) (pictureOf "face")).set (1, .gewerbeschein)
    (pictureOf "trade")
  users := Table.empty.set 1 false
  objects := .empty
  now := 0
  kycConfigured := true
  kycBucket := some "kyc"
  sha256 := fun _ => "other"

/-- Another front of the identity document. -/
def otherFront : Upload where
  user := 1
  application := 1
  kind := .idFront
  file := ⟨some "image/jpeg", [0xff, 0xd8, 0xff, 0, 0, 0, 0, 0, 0, 0, 0, 0]⟩
  uuid := "u"
  compressed := some []
  recognised := none

def uploadAndSubmit : List Call := [.upload otherFront, .submit 1 1 true]

/-- Whether the application has left its draft, and the hashes of its documents. -/
def filed (g : Run DocumentLog) : Bool × List (Option String) :=
  (g.state.leftDraft 1, (g.state.documentsOf 1).map (·.2.sha256))

/-- An upload that found a draft writes its row after the submit has approved. -/
theorem approved_then_replaced : ¬ DocumentLaw anyStep := by
  intro hlaw
  have hrun : Pool.observe machine recordDocuments anyStep filed
      ([.run 0 .ok, .run 0 .ok, .run 0 .ok, .run 0 .ok, .run 0 .ok] ++
        List.replicate 5 (.run 1 .ok)) (.run 0 .ok)
      (launch completeDraft (.initial completeDraft) uploadAndSubmit) =
      some ((true, [some "front", some "back", some "face", some "trade"]),
        (true, [some "other", some "back", some "face", some "trade"])) := by decide +kernel
  obtain ⟨g, g', hg, hm, hs, hbefore, hafter⟩ := Pool.observe_eq hrun
  obtain ⟨hleft, hhashes⟩ := Prod.mk.inj hbefore
  have hkept := ((hlaw _ _ g g' _ (by decide) hg hm hs).2 1 hleft).2
  have hsame := congrArg (List.map fun d => d.2.2.1) hkept
  simp only [World.file, contents, List.map_map, Function.comp_def] at hsame
  rw [hhashes, (Prod.mk.inj hafter).2] at hsame
  exact absurd hsame (by decide)

/-- An upload that is done before the submit reads is what the submit examines. -/
theorem kyc_documents_first : ∃ g : Run DocumentLog,
    filed g = (true, [some "other", some "back", some "face", some "trade"]) ∧
      OnFile g.snapshot := by
  have hrun : Pool.observe machine recordDocuments filesInTime filed
      (List.replicate 6 (.run 0 .ok) ++ List.replicate 4 (.run 1 .ok)) (.run 1 .ok)
      (launch completeDraft (.initial completeDraft) uploadAndSubmit) =
      some ((false, [some "other", some "back", some "face", some "trade"]),
        (true, [some "other", some "back", some "face", some "trade"])) := by decide +kernel
  obtain ⟨g, g', hg, hm, hs, -, hafter⟩ := Pool.observe_eq hrun
  exact ⟨g', hafter, (kyc_documents _ _ g g' _ (by decide) hg hm hs).1⟩

end LateUpload

end CarSalePro.Kyc
