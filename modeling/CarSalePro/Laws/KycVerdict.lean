import CarSalePro.Interleave.Recall
import CarSalePro.Kyc.Effects

namespace CarSalePro.Kyc

open Store Interleave Prog

def World.isRejected (w : World) (application : ApplicationRef) : Bool :=
  (w.applications.get application).any (·.status = .rejected)

/-- Which applications have ever been rejected, and the state each thread last read at each
site. -/
structure VerdictLog where
  rejected : ApplicationRef → Bool
  asked : Nat → Site → World

def VerdictLog.initial (w : World) : VerdictLog := ⟨w.isRejected, fun _ _ => w⟩

/-- The state of the last read at each site. -/
def noteRead (seen : Site → World) (l : Label Site Stmt) (w : World) : Site → World :=
  match l with
  | .ask site => Function.update seen site w
  | .call _ => seen

@[simp] theorem noteRead_ask (seen : Site → World) (site site' : Site) (w : World) :
    noteRead seen (.ask site) w site' = if site' = site then w else seen site' :=
  Function.update_apply seen site w site'

def recordVerdict : Recorder Site Stmt World VerdictLog := fun t l w w' h =>
  { rejected := fun application => h.rejected application || w'.isRejected application
    asked := Function.update h.asked t (noteRead (h.asked t) l w) }

/-- Nothing of what a submit counted was there. -/
def Unblocked (seen : Site → World) (application : ApplicationRef) (user : UserRef) : Prop :=
  (seen .priorRejections).priorRejections user application = 0 ∧
  (seen .reusedDocuments).reusedDocuments user (fingerprints (examined seen application)) = 0 ∧
  (seen .reusedIdentity).reusedIdentity user (idNumberHashes (examined seen application)) = 0

/-- The three counts of a submit come out in `w` as they came out where they were made. -/
def countsStand (seen : Site → World) (application : ApplicationRef) (user : UserRef)
    (w : World) : Bool :=
  let files := fingerprints (examined seen application)
  let numbers := idNumberHashes (examined seen application)
  w.priorRejections user application = (seen .priorRejections).priorRejections user application &&
  w.reusedDocuments user files = (seen .reusedDocuments).reusedDocuments user files &&
  w.reusedIdentity user numbers = (seen .reusedIdentity).reusedIdentity user numbers

/-- An application is not rejected between the read of a call and its write, and a submit approves
while its counts stand and the documents are those it has read. -/
def decidesInTime : StepGuard VerdictLog := fun t l c x =>
  match l with
  | .ask _ => true
  | .call s => c ≠ .ok ||
      (s.revives.all fun read => !x.1.isRejected read.1 ||
        (x.2.asked t read.2).isRejected read.1) &&
      match s with
      | .autoApprove application user _ => countsStand (x.2.asked t) application user x.1 &&
          x.1.file application = contents (examined (x.2.asked t) application)
      | _ => true

/-- No status is written over a rejection, and a submit approves where nothing speaks against it. -/
def decidesClear : StepGuard VerdictLog := fun _ l c x =>
  match l with
  | .ask _ => true
  | .call s => c ≠ .ok || (s.revives.all fun read => !x.1.isRejected read.1) &&
      match s with
      | .autoApprove application user _ =>
        x.1.priorRejections user application = 0 &&
        x.1.reusedDocuments user (fingerprints (x.1.documentsOf application)) = 0 &&
        x.1.reusedIdentity user (idNumberHashes (x.1.documentsOf application)) = 0
      | _ => true

/-- A document of the list is on file, by its bytes or its number, on an application of another user
that has been rejected. -/
def World.Reuses (w : World) (rejected : ApplicationRef → Bool) (user : UserRef)
    (documents : DocumentList) : Prop :=
  ∃ key row owner, w.documents.get key = some row ∧ w.applications.get key.1 = some owner ∧
    owner.userId ≠ user ∧ rejected key.1 ∧
    (row.sha256.any (· ∈ fingerprints documents) ∨
      row.idNumberHash.any (· ∈ idNumberHashes documents))

/-- What may not happen in a step of a run: that a person who was rejected is verified other than by
an admin who approves, or that a submit verifies while documents that were rejected are on file. -/
structure VerdictKept (calls : List Call) (g g' : Run VerdictLog) (m : Move Fate) : Prop where
  reverified : ∀ application row, g.hist.rejected application →
    g.state.applications.get application = some row →
    g.state.users.get row.userId ≠ some true → g'.state.users.get row.userId = some true →
    ∃ t c approved admin reviewedAt, m = .run t c ∧ calls[t]? = some (.approve approved admin) ∧
      g.threads[t]?.bind Prog.label =
        some (.call (.approve approved row.userId admin reviewedAt))
  reused : ∀ t application user submittedAt, m = .run t .ok →
    g.threads[t]?.bind Prog.label = some (.call (.autoApprove application user submittedAt)) →
    ¬ g.state.Reuses g.hist.rejected user (g.state.documentsOf application)

def VerdictLaw (C : StepGuard VerdictLog) : Prop :=
  ∀ (w : World) (calls : List Call) (g g' : Run VerdictLog) (m : Move Fate),
    Pool.Reach machine recordVerdict C (launch w (.initial w) calls) g → g.Meets C m →
    Pool.step machine recordVerdict m g = some g' → VerdictKept calls g g' m

section Rejections

variable {w : World} {s : Stmt} {c : Fate} {application : ApplicationRef}

theorem isRejected_set {key : ApplicationRef} {row : KycApplication} {w' : World}
    (h : w.isRejected application) (hw : w'.applications = w.applications.set key row)
    (hkey : key = application → row.status = .rejected) : w'.isRejected application := by
  unfold World.isRejected
  rw [hw, Table.get_set]
  by_cases hsame : application = key
  · rw [if_pos hsame]
    exact decide_eq_true (hkey hsame.symm)
  · rw [if_neg hsame]
    exact h

theorem isRejected_update {f : KycApplication → KycApplication} {key : ApplicationRef}
    (h : w.isRejected application) (hkey : key ≠ application) :
    (w.updateApplication key f).2.isRejected application := by
  rcases updateApplication_cases w key f with hsame | ⟨row, -, hset⟩
  · rw [hsame]
    exact h
  · rw [hset]
    exact isRejected_set h rfl fun he => absurd he hkey

theorem isRejected_decide {f : KycApplication → KycApplication} {key : ApplicationRef}
    {user : UserRef} {kycVerified : Bool} (h : w.isRejected application)
    (hkey : key = application → ∀ row, (f row).status = .rejected) :
    (w.decide key f user kycVerified).2.isRejected application := by
  rcases decide_cases w key f user kycVerified with hsame | ⟨row, -, hset⟩
  · rw [hsame]
    exact h
  · rw [hset]
    exact isRejected_set h rfl fun he => hkey he row

/-- A rejection stays where no statement moves its application to another status. -/
theorem isRejected_exec (h : w.isRejected application)
    (hs : c = .ok → ∀ read, s.revives = some read → read.1 ≠ application) :
    (World.exec s c w).2.isRejected application := by
  cases c with
  | fails =>
    rw [exec_fails]
    exact h
  | ok =>
    have hother (key : ApplicationRef) (site : Site) (hkey : s.revives = some (key, site)) :
        key ≠ application := hs rfl (key, site) hkey
    cases s with
    | createApplication user =>
      refine isRejected_set h rfl fun he => ?_
      have hnone := w.applications.get_fresh
      rw [he] at hnone
      simp [World.isRejected, hnone] at h
    | putObject key => exact h
    | upsertDocument key kind stored =>
      show (w.upsertDocument key kind stored).2.isRejected application
      unfold World.upsertDocument
      split
      · exact h
      · exact h
    | deleteObject key bucket => exact h
    | hold key submittedAt => exact isRejected_update h (hother key _ rfl)
    | autoApprove key user submittedAt =>
      exact isRejected_decide h fun he => absurd he (hother key _ rfl)
    | beginReview key => exact isRejected_update h (hother key _ rfl)
    | approve key user admin reviewedAt =>
      exact isRejected_decide h fun he => absurd he (hother key _ rfl)
    | reject key user admin reason reviewedAt => exact isRejected_decide h fun _ _ => rfl
    | stampPurged key kind =>
      simp only [World.exec, World.write]
      split
      · exact h
      · exact h

theorem clear_revives {t : Nat} {x : World × VerdictLog} {read : ApplicationRef × Site}
    (h : decidesClear t (.call s) .ok x) (hs : s.revives = some read) :
    x.1.isRejected read.1 = false := by
  simp only [decidesClear, hs, Option.all_some, Bool.or_eq_true, Bool.and_eq_true] at h
  rcases h with h | h
  · cases h
  · simpa using h.1

theorem clear_counts {t : Nat} {x : World × VerdictLog} {user : UserRef} {submittedAt : Instant}
    (h : decidesClear t (.call (.autoApprove application user submittedAt)) .ok x) :
    x.1.priorRejections user application = 0 ∧
      x.1.reusedDocuments user (fingerprints (x.1.documentsOf application)) = 0 ∧
      x.1.reusedIdentity user (idNumberHashes (x.1.documentsOf application)) = 0 := by
  simp only [decidesClear, Bool.or_eq_true, Bool.and_eq_true, decide_eq_true_eq] at h
  rcases h with h | h
  · exact absurd rfl h
  · exact ⟨h.2.1.1, h.2.1.2, h.2.2⟩

/-- Where the condition holds, what has been rejected is rejected. -/
def Standing (x : World × VerdictLog) : Prop :=
  ∀ application, x.2.rejected application → x.1.isRejected application

theorem standing_reach {w : World} {calls : List Call} {g : Run VerdictLog}
    (hg : Pool.Reach machine recordVerdict decidesClear (launch w (.initial w) calls) g) :
    Standing g.snapshot := by
  apply hg.invariant
  · exact fun application h => h
  · intro x y hx hxy
    cases hxy with
    | env c => exact hx
    | ask t l c meets =>
      intro application h
      rcases (Bool.or_eq_true ..).mp h with h | h
      · exact hx application h
      · exact h
    | call t s c meets =>
      intro application h
      rcases (Bool.or_eq_true ..).mp h with hbefore | hafter
      · apply isRejected_exec (hx application hbefore)
        rintro hok read hrevives rfl
        subst hok
        have hnot := clear_revives meets hrevives
        rw [hx read.1 hbefore] at hnot
        cases hnot
      · exact hafter

end Rejections

section Submit

variable {user : UserRef} {application : ApplicationRef}

/-- A call moves an application that it has read not to be rejected, and a submit approves only what
its counts do not block. -/
def decidesOpen (seen : Site → World) (s : Stmt) : Prop :=
  (∀ read, s.revives = some read → (seen read.2).isRejected read.1 = false) ∧
    match s with
    | .autoApprove application user _ => Unblocked seen application user
    | _ => True

abbrev Recalled {α : Type} (A : (Site → World) → Prop) (p : Act α)
    (B : α → (Site → World) → Prop) : Prop :=
  Recalls machine noteRead decidesOpen A p B

/-- Where the application was read, its status was this. -/
def ReadStatus (application : ApplicationRef) (site : Site) (status : KycStatus)
    (seen : Site → World) : Prop :=
  ((seen site).applications.get application).map (·.status) = some status

theorem ReadStatus.open {site : Site} {status : KycStatus} {seen : Site → World}
    (h : ReadStatus application site status seen) (hstatus : status ≠ .rejected) :
    (seen site).isRejected application = false := by
  obtain ⟨row, hrow, rfl⟩ := Option.map_eq_some_iff.mp h
  simpa [World.isRejected, hrow] using hstatus

theorem recalled_owned : Recalled (fun _ => True)
    (requireOwnedApplication (.submitApplication application) user application)
    fun owned seen => owned.2 = examined seen application ∧
      ReadStatus application (.submitApplication application) owned.1.status seen := by
  let read (found : Option (KycApplication × DocumentList)) (seen : Site → World) : Prop :=
    ∀ owned, found = some owned → owned.2 = examined seen application ∧
      ReadStatus application (.submitApplication application) owned.1.status seen
  have hfetch : Recalled (fun _ => True) (fetch (.submitApplication application) fun w =>
      (w.applications.get application).map fun row => (row, w.documentsOf application)) read := by
    apply Recalls.fetch
    intro seen w _ owned howned
    obtain ⟨row, hrow, rfl⟩ := Option.map_eq_some_iff.mp howned
    simp [examined, ReadStatus, hrow]
  apply hfetch.seq
  intro found
  cases found with
  | none => exact .throw fun _ _ => trivial
  | some owned =>
    exact .ite (fun _ => .throw fun _ _ => trivial) fun _ => .pure fun _ h => h owned rfl

/-- A count that is not made where there is nothing to look for. -/
theorem recalled_count {site : Site} {count : World → List String → Nat} {hashes : List String}
    {A : (Site → World) → Prop} (hempty : ∀ w, count w [] = 0)
    (hA : ∀ seen w, A seen → A (noteRead seen (.ask site) w)) :
    Recalled A (if hashes = [] then pure 0 else fetch site (count · hashes))
      fun n seen => A seen ∧ n = count (seen site) hashes := by
  apply Discipline.Flow.ite
  · rintro rfl
    exact .pure fun seen h => ⟨h, (hempty _).symm⟩
  · intro _
    apply Recalls.fetch
    intro seen w h
    refine ⟨hA seen w h, ?_⟩
    simp

theorem reused_none {w : World} {picks : KycDocument → Bool} (h : ∀ row, picks row = false) :
    w.reused user picks = 0 := by
  rw [World.reused, List.length_eq_zero_iff, Table.findMany_eq_nil]
  intro key row _
  rw [h row]
  rfl

theorem reusedDocuments_nil (w : World) : w.reusedDocuments user [] = 0 :=
  reused_none fun row => by cases row.sha256 <;> rfl

theorem reusedIdentity_nil (w : World) : w.reusedIdentity user [] = 0 :=
  reused_none fun row => by cases row.idNumberHash <;> rfl

/-- Nothing leads out of a rejection. -/
theorem source_of_transition {source target : KycStatus} (h : target ∈ source.transitions) :
    source ≠ .rejected := by
  rintro rfl
  cases h

theorem recalled_submit {termsAccepted : Bool} : Recalled (fun _ => True)
    (submitApplication user application termsAccepted) fun _ _ => True := by
  apply recalled_owned.seq
  intro owned
  apply Discipline.Flow.ite (fun _ => .throw fun _ _ => trivial)
  intro _
  let A₀ (seen : Site → World) : Prop := owned.2 = examined seen application ∧
    (seen (.submitApplication application)).isRejected application = false
  have htransition : Recalled (fun seen => owned.2 = examined seen application ∧
      ReadStatus application (.submitApplication application) owned.1.status seen)
      (assertTransition owned.1.status .submitted) fun _ => A₀ :=
    .when (fun _ => .throw fun _ _ => trivial) fun hlegal seen h =>
      ⟨h.1, h.2.open (source_of_transition (not_not.mp hlegal))⟩
  have hcomplete : Recalled A₀ (assertComplete owned.2) fun _ => A₀ :=
    .when (fun _ => .throw fun _ _ => trivial) fun _ _ h => h
  have hclock : Recalled A₀ readClock fun _ => A₀ :=
    Recalls.fetch fun seen w h => by simpa [A₀, examined] using h
  apply htransition.seq
  intro _
  apply hcomplete.seq
  intro _
  apply hclock.seq
  intro submittedAt
  have hprior : Recalled A₀ (fetch .priorRejections (·.priorRejections user application))
      fun n seen => A₀ seen ∧ n = (seen .priorRejections).priorRejections user application := by
    apply Recalls.fetch
    intro seen w h
    exact ⟨by simpa [A₀, examined] using h, by simp⟩
  apply hprior.seq
  intro prior
  let A₁ (seen : Site → World) : Prop :=
    A₀ seen ∧ prior = (seen .priorRejections).priorRejections user application
  have hdocuments : Recalled A₁ (countReusedDocuments user (fingerprints owned.2)) fun n seen =>
      A₁ seen ∧ n = (seen .reusedDocuments).reusedDocuments user (fingerprints owned.2) :=
    recalled_count reusedDocuments_nil fun seen w h => by simpa [A₁, A₀, examined] using h
  apply hdocuments.seq
  intro documents
  let A₂ (seen : Site → World) : Prop := A₁ seen ∧
    documents = (seen .reusedDocuments).reusedDocuments user (fingerprints owned.2)
  have hidentity : Recalled A₂ (countReusedIdentity user (idNumberHashes owned.2)) fun n seen =>
      A₂ seen ∧ n = (seen .reusedIdentity).reusedIdentity user (idNumberHashes owned.2) :=
    recalled_count reusedIdentity_nil fun seen w h => by simpa [A₂, A₁, A₀, examined] using h
  apply hidentity.seq
  intro identity
  apply Discipline.Flow.ite
  · intro _
    have hhold : Recalled A₀ (hold application submittedAt) fun _ _ => True := by
      apply Recalls.perform
      · intro seen h
        exact ⟨fun read hread => (by cases hread; exact h.2), trivial⟩
      · exact fun _ _ _ _ _ _ => trivial
    exact (hhold.seq fun _ => .pure fun _ _ => trivial).weaken (fun _ h => h.1.1.1)
      (fun _ _ h => h) fun _ _ h => h
  · intro hclear
    have happrove : Recalled (fun seen => A₀ seen ∧ Unblocked seen application user)
        (autoApprove application user submittedAt) fun _ _ => True := by
      apply Recalls.perform
      · intro seen h
        exact ⟨fun read hread => (by cases hread; exact h.1.2), h.2⟩
      · exact fun _ _ _ _ _ _ => trivial
    apply (happrove.seq fun _ => .pure fun _ _ => trivial).weaken ?_ (fun _ _ h => h) fun _ _ h => h
    rintro seen ⟨⟨⟨hread, hprior⟩, hdocuments⟩, hidentity⟩
    refine ⟨hread, ?_⟩
    rw [hread.1] at hdocuments hidentity
    refine ⟨?_, ?_, ?_⟩
    · omega
    · omega
    · omega

theorem recalled_approve {admin : UserRef} :
    Recalled (fun _ => True) (approve application admin) fun _ _ => True := by
  have hread : Recalled (fun _ => True) (fetch .approve (·.applications.get application))
      fun found seen => ∀ row, found = some row →
        ReadStatus application .approve row.status seen := by
    apply Recalls.fetch
    intro seen w _ row hrow
    simp [ReadStatus, hrow]
  have hrequire : Recalled (fun _ => True) (requireApplication .approve application)
      fun row => ReadStatus application .approve row.status := by
    apply hread.seq
    intro found
    cases found with
    | none => exact .throw fun _ _ => trivial
    | some row => exact .pure fun _ h => h row rfl
  apply hrequire.seq
  intro row
  let A (seen : Site → World) : Prop := (seen .approve).isRejected application = false
  have htransition : Recalled (ReadStatus application .approve row.status)
      (assertTransition row.status .approved) fun _ => A :=
    .when (fun _ => .throw fun _ _ => trivial) fun hlegal seen h =>
      h.open (source_of_transition (not_not.mp hlegal))
  apply htransition.seq
  intro _
  have hclock : Recalled A readClock fun _ => A :=
    Recalls.fetch fun seen w h => by simpa [A] using h
  apply hclock.seq
  intro reviewedAt
  apply Recalls.perform
  · intro seen h
    exact ⟨fun read hread => (by cases hread; exact h), trivial⟩
  · exact fun _ _ _ _ _ _ => trivial

theorem recalled_view :
    Recalled (fun _ => True) (getApplicationForAdmin application) fun _ _ => True := by
  have hread : Recalled (fun _ => True) (fetch .getApplicationForAdmin fun w =>
      (w.applications.get application).map fun row => (row, w.documentsOf application))
      fun found seen => ∀ read, found = some read →
        ReadStatus application .getApplicationForAdmin read.1.status seen := by
    apply Recalls.fetch
    intro seen w _ read hfound
    obtain ⟨row, hrow, rfl⟩ := Option.map_eq_some_iff.mp hfound
    simp [ReadStatus, hrow]
  apply hread.seq
  intro found
  cases found with
  | none => exact .throw fun _ _ => trivial
  | some read =>
    refine .ite (fun hsubmitted => ?_) fun _ => .pure fun _ _ => trivial
    have hreview : Recalled (fun seen => ∀ found, some read = some found →
        ReadStatus application .getApplicationForAdmin found.1.status seen)
        (Prog.perform (Stmt.beginReview application) : Act KycApplication) fun _ _ => True := by
      apply Recalls.perform
      · intro seen h
        refine ⟨fun site hsite => ?_, trivial⟩
        cases hsite
        exact (h read rfl).open (by rw [hsubmitted]; decide)
      · exact fun _ _ _ _ _ _ => trivial
    exact hreview.seq fun _ => .pure fun _ _ => trivial

theorem recalled_call (call : Call) : Recalled (fun _ => True) call.prog fun _ _ => True := by
  have hfree (hp : call.prog.Only (·.revives = none)) :
      Recalled (fun _ => True) call.prog fun _ _ => True := by
    apply Recalls.free hp
    intro seen s hs
    refine ⟨fun read hread => ?_, ?_⟩
    · rw [hs] at hread
      cases hread
    · cases s with
      | autoApprove application user submittedAt => cases hs
      | _ => trivial
  have hissues (hall : ∀ s, call.Issues s → s.revives = none) :
      Recalled (fun _ => True) call.prog fun _ _ => True := hfree (call.only_issues.mono hall)
  cases call with
  | submit user application termsAccepted =>
    exact recalled_submit.seq fun _ => .pure fun _ _ => trivial
  | approve application admin => exact recalled_approve.seq fun _ => .pure fun _ _ => trivial
  | view application => exact recalled_view.seq fun _ => .pure fun _ _ => trivial
  | create user => exact hissues fun s hs => by cases s <;> first | exact hs.elim | rfl
  | upload request => exact hissues fun s hs => by cases s <;> first | exact hs.elim | rfl
  | reject application admin reason =>
    exact hissues fun s hs => by cases s <;> first | exact hs.elim | rfl
  | purge => exact hissues fun s hs => by cases s <;> first | exact hs.elim | rfl

end Submit

section Verdict

variable {w : World} {x : World × VerdictLog} {s : Stmt} {c : Fate} {user : UserRef}
  {application : ApplicationRef}

/-- Only the two approvals set a user's flag. -/
theorem verified_exec (hbefore : w.users.get user ≠ some true)
    (hafter : (World.exec s c w).2.users.get user = some true) : c = .ok ∧
      ((∃ application submittedAt, s = .autoApprove application user submittedAt) ∨
        ∃ application admin reviewedAt, s = .approve application user admin reviewedAt) := by
  cases c with
  | fails =>
    rw [exec_fails] at hafter
    exact absurd hafter hbefore
  | ok =>
    refine ⟨rfl, ?_⟩
    have hupdate (key : ApplicationRef) (f : KycApplication → KycApplication) :
        (w.updateApplication key f).2.users = w.users := by
      rcases updateApplication_cases w key f with h | ⟨_, -, h⟩ <;> rw [h]
    have hdecide (key : ApplicationRef) (f : KycApplication → KycApplication) (owner : UserRef)
        (kycVerified : Bool)
        (h : (w.decide key f owner kycVerified).2.users.get user = some true) :
        owner = user ∧ kycVerified = true := by
      rcases decide_cases w key f owner kycVerified with hsame | ⟨_, -, hset⟩
      · rw [hsame] at h
        exact absurd h hbefore
      · rw [hset, Table.get_set] at h
        split at h
        next heq => exact ⟨heq.symm, Option.some.inj h⟩
        next => exact absurd h hbefore
    cases s with
    | createApplication owner => exact absurd hafter hbefore
    | putObject key => exact absurd hafter hbefore
    | upsertDocument key kind stored =>
      rw [show (World.exec (.upsertDocument key kind stored) .ok w).2 =
        (w.upsertDocument key kind stored).2 from rfl] at hafter
      unfold World.upsertDocument at hafter
      split at hafter
      · exact absurd hafter hbefore
      · exact absurd hafter hbefore
    | deleteObject key bucket => exact absurd hafter hbefore
    | hold key submittedAt => exact absurd (hupdate key _ ▸ hafter) hbefore
    | beginReview key => exact absurd (hupdate key _ ▸ hafter) hbefore
    | autoApprove key owner submittedAt =>
      obtain ⟨rfl, -⟩ := hdecide key _ owner true hafter
      exact Or.inl ⟨key, submittedAt, rfl⟩
    | approve key owner admin reviewedAt =>
      obtain ⟨rfl, -⟩ := hdecide key _ owner true hafter
      exact Or.inr ⟨key, admin, reviewedAt, rfl⟩
    | reject key owner admin reason reviewedAt =>
      obtain ⟨-, hfalse⟩ := hdecide key _ owner false hafter
      cases hfalse
    | stampPurged key kind =>
      simp only [World.exec, World.write] at hafter
      split at hafter
      · exact absurd hafter hbefore
      · exact absurd hafter hbefore

theorem status_of_isRejected {row : KycApplication} (h : w.isRejected application)
    (hrow : w.applications.get application = some row) : row.status = .rejected := by
  simpa [World.isRejected, hrow] using h

/-- With no other application of the user rejected, and not this one, none of them ever was. -/
theorem none_rejected (hx : Standing x) (hzero : x.1.priorRejections user application = 0)
    (hnot : x.1.isRejected application = false) {key : ApplicationRef} {row : KycApplication}
    (hrejected : x.2.rejected key) (hrow : x.1.applications.get key = some row) :
    row.userId ≠ user := by
  intro howner
  have hnone := Table.findMany_eq_nil.mp (List.length_eq_zero_iff.mp hzero) key row hrow
  have hstatus := status_of_isRejected (hx key hrejected) hrow
  have hother : key ≠ application := by
    rintro rfl
    rw [hx key hrejected] at hnot
    cases hnot
  simp [howner, hother, hstatus, manualReviewAfterStatuses] at hnone

/-- With no document of the list on a rejected application of another user, none is on one that
ever was. -/
theorem none_reused (hx : Standing x) {documents : DocumentList}
    (hfiles : x.1.reusedDocuments user (fingerprints documents) = 0)
    (hnumbers : x.1.reusedIdentity user (idNumberHashes documents) = 0) :
    ¬ x.1.Reuses x.2.rejected user documents := by
  rintro ⟨key, row, owner, hrow, howner, hother, hrejected, hmatch⟩
  have hstatus := status_of_isRejected (hx key.1 hrejected) howner
  have hfile := Table.findMany_eq_nil.mp (List.length_eq_zero_iff.mp hfiles) key row hrow
  have hnumber := Table.findMany_eq_nil.mp (List.length_eq_zero_iff.mp hnumbers) key row hrow
  simp only [howner, Option.any_some, hstatus, manualReviewAfterStatuses, List.mem_singleton,
    ne_eq, hother, not_false_eq_true, decide_true, Bool.and_true] at hfile hnumber
  rcases hmatch with hmatch | hmatch
  · rw [hmatch] at hfile
    cases hfile
  · rw [hmatch] at hnumber
    cases hnumber

/-- The hashes of documents are among their contents. -/
theorem hashes_of_contents {documents documents' : DocumentList}
    (h : contents documents = contents documents') :
    fingerprints documents = fingerprints documents' ∧
      idNumberHashes documents = idNumberHashes documents' := by
  have hfiles (list : DocumentList) : fingerprints list = (contents list).filterMap (·.2.2.1) := by
    simp [fingerprints, contents, List.filterMap_map]
  have hnumbers (list : DocumentList) :
      idNumberHashes list = (contents list).filterMap (·.2.2.2) := by
    simp [idNumberHashes, contents, List.filterMap_map]
  rw [hfiles, hfiles, hnumbers, hnumbers, h]
  exact ⟨rfl, rfl⟩

theorem records_verdict : Records recordVerdict noteRead VerdictLog.asked :=
  fun _ _ _ _ _ => rfl

/-- A decision in time is one that nothing speaks against. -/
theorem clear_of_time {t : Nat} (hmay : decidesOpen (x.2.asked t) s)
    (hC : decidesInTime t (.call s) c x) : decidesClear t (.call s) c x := by
  simp only [decidesInTime, Bool.or_eq_true, Bool.and_eq_true] at hC
  simp only [decidesClear, Bool.or_eq_true, Bool.and_eq_true]
  refine hC.imp id fun ⟨hread, hcounts⟩ => ⟨?_, ?_⟩
  · cases hrevives : s.revives with
    | none => rfl
    | some read => simpa [hrevives, hmay.1 read hrevives] using hread
  · cases s with
    | autoApprove application user submittedAt =>
      simp only [countsStand, Bool.and_eq_true, decide_eq_true_eq] at hcounts
      obtain ⟨⟨⟨hprior, hdocuments⟩, hidentity⟩, hfile⟩ := hcounts
      obtain ⟨hfiles, hnumbers⟩ := hashes_of_contents hfile
      obtain ⟨hprior₀, hdocuments₀, hidentity₀⟩ := hmay.2
      simp only [hfiles, hnumbers, hprior, hdocuments, hidentity, hprior₀, hdocuments₀,
        hidentity₀, decide_true, Bool.and_self]
    | _ => rfl

theorem recalled_launch {calls : List Call} (t : Nat) (p : Act Unit)
    (hp : (launch w (VerdictLog.initial w) calls).threads[t]? = some p) :
    Recalled (· = (VerdictLog.initial w).asked t) p fun _ _ => True := by
  obtain ⟨call, -, rfl⟩ := launch_thread hp
  exact (recalled_call call).weaken (fun _ _ => trivial) (fun _ _ h => h) fun _ _ h => h

/-- While nothing is decided on counts or documents that no longer stand, and no rejection falls
between a read and its write, no machine verdict verifies a person who was rejected, or one with
rejected documents. -/
theorem kyc_verdict (w : World) (calls : List Call) (g g' : Run VerdictLog) (m : Move Fate)
    (hg : Pool.Reach machine recordVerdict decidesInTime (launch w (.initial w) calls) g)
    (hm : g.Meets decidesInTime m) (hs : Pool.step machine recordVerdict m g = some g') :
    VerdictKept calls g g' m := by
  have hstanding := standing_reach (recalled_mono (D := decidesClear) records_verdict
    recalled_launch (fun _ _ _ _ _ => rfl) (fun _ _ _ _ => clear_of_time) hg)
  have hclear := recalled_meets (D := decidesClear) records_verdict recalled_launch
    (fun _ _ _ _ _ => rfl) (fun _ _ _ _ => clear_of_time) hg hm
  constructor
  · intro application row hrejected hrow hbefore hafter
    cases m with
    | env c =>
      cases Option.some.inj hs
      exact absurd hafter hbefore
    | run t c =>
      obtain ⟨p, l, w', p', hp, hst, rfl⟩ := Pool.step_run_eq hs
      have hlabel := Pool.label_of_step hst
      cases p with
      | ret a => cases hst
      | raise e => cases hst
      | ask l f k =>
        cases hst
        exact absurd hafter hbefore
      | call s k =>
        cases hst
        obtain ⟨rfl, hstmt⟩ := verified_exec hbefore hafter
        obtain ⟨call, hcall, hissues⟩ := issues_reach hg hp hlabel
        rcases hstmt with ⟨approved, submittedAt, rfl⟩ | ⟨approved, admin, reviewedAt, rfl⟩
        · have hC := Pool.meets_run hclear hp hlabel
          exact absurd rfl
            (none_rejected hstanding (clear_counts hC).1 (clear_revives hC rfl) hrejected hrow)
        · have happrove : call = .approve approved admin := by
            cases call <;> first | exact hissues.elim | (obtain ⟨rfl, rfl⟩ := hissues; rfl)
          exact ⟨t, .ok, approved, admin, reviewedAt, rfl, happrove ▸ hcall, by rw [hp]; rfl⟩
  · intro t application user submittedAt hmove hlabel
    subst hmove
    obtain ⟨p, hp, hlabel⟩ := Option.bind_eq_some_iff.mp hlabel
    obtain ⟨-, hfiles, hnumbers⟩ := clear_counts (Pool.meets_run hclear hp hlabel)
    exact none_reused hstanding hfiles hnumbers

end Verdict

section Revoked

def approvedApplication : KycApplication :=
  ⟨1, .approved, none, some .auto, some 0, some 0, some 0, some inspectorTermsVersion⟩

def draftApplication : KycApplication := ⟨1, .draft, none, none, none, none, none, none⟩

def document (key : String) : KycDocument := ⟨key, some "kyc", some key, none, 0, none⟩

/-- A verified user has sent nothing yet of a second application, that is complete. -/
def secondApplication : World where
  applications := (Table.empty.set 1 approvedApplication).set 2 draftApplication
  documents := (((Table.empty.set (2, .idFront) (document "front")).set (2, .idBack)
    (document "back")).set (2, .selfie) (document "face")).set (2, .gewerbeschein)
    (document "trade")
  users := Table.empty.set 1 true
  objects := .empty
  now := 0
  kycConfigured := true
  kycBucket := some "kyc"
  sha256 := fun _ => ""

/-- The user submits it while an admin revokes the first. -/
def submitAndRevoke : List Call := [.submit 1 2 true, .reject 1 9 "Fraud"]

/-- Whether the first application has been rejected, its owner, and the owner's flag. -/
def standing (g : Run VerdictLog) : Bool × Option UserRef × Option Bool :=
  (g.hist.rejected 1, (g.state.applications.get 1).map (·.userId), g.state.users.get 1)

/-- The submit counts, the admin revokes, and the submit verifies the user again. -/
theorem revoked_and_verified : ¬ VerdictLaw anyStep := by
  intro hlaw
  have hrun : Pool.observe machine recordVerdict anyStep standing
      [.run 0 .ok, .run 0 .ok, .run 0 .ok, .run 0 .ok, .run 1 .ok, .run 1 .ok, .run 1 .ok]
      (.run 0 .ok) (launch secondApplication (.initial secondApplication) submitAndRevoke) =
      some ((true, some 1, some false), (true, some 1, some true)) := by decide +kernel
  obtain ⟨g, g', hg, hm, hs, hbefore, hafter⟩ := Pool.observe_eq hrun
  simp only [standing, Prod.mk.injEq] at hbefore hafter
  obtain ⟨hrejected, hrow, hunverified⟩ := hbefore
  obtain ⟨row, hrow, hrowner⟩ := Option.map_eq_some_iff.mp hrow
  have hkept := hlaw _ _ g g' _ hg hm hs
  obtain ⟨t, c, approved, admin, reviewedAt, hmove, hcall, -⟩ := hkept.reverified 1 row hrejected
    hrow (by rw [hrowner, hunverified]; decide) (by rw [hrowner]; exact hafter.2.2)
  cases hmove
  cases hcall

/-- When the admin comes first the submit is held. -/
theorem kyc_verdict_held : ∃ g g' : Run VerdictLog,
    standing g' = (true, some 1, some false) ∧ VerdictKept submitAndRevoke g g' (.run 0 .ok) := by
  have hrun : Pool.observe machine recordVerdict decidesInTime standing
      [.run 1 .ok, .run 1 .ok, .run 1 .ok, .run 0 .ok, .run 0 .ok, .run 0 .ok, .run 0 .ok]
      (.run 0 .ok) (launch secondApplication (.initial secondApplication) submitAndRevoke) =
      some ((true, some 1, some false), (true, some 1, some false)) := by decide +kernel
  obtain ⟨g, g', hg, hm, hs, -, hafter⟩ := Pool.observe_eq hrun
  exact ⟨g, g', hafter, kyc_verdict _ _ g g' _ hg hm hs⟩

end Revoked

end CarSalePro.Kyc
