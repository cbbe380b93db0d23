import CarSalePro.Interleave.Discipline
import CarSalePro.Laws.DeletedListing

namespace CarSalePro.Listings

open Store Interleave Prog

/-- Mirrors, and what changes the photos of a report. -/
def Call.ofPhotos : Call → Bool
  | .mirrorShowroomPhotos _ | .uploadReportPhoto _ _ _ | .deleteReportPhoto _ _ _ => true
  | _ => false

/-- Every photo the showroom displays of a stamped listing has its copy, if its source exists. -/
def World.mirroredAt (w : World) (listing : ListingRef) : Bool :=
  (w.listings.get listing).all fun row => row.publicPhotosMirroredAt.isNone ||
    (w.showroomRefs row).all fun ref =>
      decide (ref.s3Key ∉ w.objects) ||
        decide (mirroredPhotoKey w.sha256Text listing ref.s3Key ∈ w.publicObjects)

def Mirrored (w : World) : Prop := ∀ listing, w.mirroredAt listing

/-- The mirrors under way: a thread, and the report whose photos it has read to copy them. One is
over when the thread stamps its listing, or when an upload or a deletion clears the stamps of the
report. -/
abbrev MirrorLog := List (Nat × ReportRef)

def World.reportOf (w : World) (listing : ListingRef) : Option ReportRef :=
  (w.listings.get listing).bind (·.reportId)

def recordMirror : Recorder Site Stmt World MirrorLog := fun t label w _ log =>
  match label with
  | .ask (.mirrorListing listing) =>
    log.filter (·.1 ≠ t) ++ ((w.reportOf listing).map fun report => (t, report)).toList
  | .call (.stampMirrored _) => log.filter (·.1 ≠ t)
  | .call (.invalidateMirror report) => log.filter (·.2 ≠ report)
  | _ => log

/-- In every interleaving of steps that meet `C`: when nothing runs, stamped mirrors are
complete. -/
def MirrorLaw (C : StepGuard MirrorLog) : Prop :=
  ∀ (w : World) (calls : List Call) (g : Run MirrorLog), (∀ call ∈ calls, call.ofPhotos) →
    Mirrored w → Pool.Reach machine recordMirror C (launch w [] calls) g →
    g.AllEnded → Mirrored g.state

/-- The report whose photos a request is about that an upload or a deletion makes once it has
changed something. -/
def rewrites : Label Site Stmt → Option ReportRef
  | .ask (.manifestRows report) => some report
  | .call (.createReportPhoto row) => some row.reportId
  | .call (.updateReportPhoto _ row) => some row.reportId
  | .call (.deleteReportPhoto _ report) => some report
  | .call (.writeManifest report _) => some report
  | .call (.invalidateMirror report) => some report
  | _ => none

/-- The request is answered by an error. -/
def refused (label : Label Site Stmt) (c : Fate) (w : World) : Bool :=
  match label with
  | .ask site => (World.fault site c).isSome
  | .call s => match (World.exec s c w).1 with
    | .ok _ => false
    | .error _ => true

/-- No listing of the report is stamped. -/
def World.unstamped (w : World) (report : ReportRef) : Bool :=
  !w.listings.any fun _ row => row.reportId = some report ∧ row.publicPhotosMirroredAt.isSome

/-- The manifest of another report lists the key. -/
def World.listedElsewhere (w : World) (report : ReportRef) (key : String) : Bool :=
  w.reports.any fun other row => other ≠ report &&
    (manifestPhotoRefs w.localeCompare row.photosManifest (some maxListingPhotos) false).any
      (·.s3Key = key)

/-- A mirror stamps while it is under way; an upload or a deletion that has changed something goes
on to its clear, unless the report is neither stamped nor being mirrored; and an upload stores its
object under a key that no other report lists. -/
def stampsInTime : StepGuard MirrorLog := fun t label c x =>
  (match label with
    | .call (.stampMirrored listing) =>
      c = .fails || (x.1.reportOf listing).all fun report => (t, report) ∈ x.2
    | .call (.putReportObject report key) => c = .fails || !x.1.listedElsewhere report key
    | _ => true) &&
  match rewrites label with
  | none => true
  | some report =>
    !refused label c x.1 || (x.1.unstamped report && x.2.all fun entry => entry.2 ≠ report)

section World

variable {w w' : World} {s : Stmt} {c : Fate} {listing : ListingRef} {report : ReportRef}

def World.stamped (w : World) (listing : ListingRef) : Bool :=
  (w.listings.get listing).any (·.publicPhotosMirroredAt.isSome)

/-- Those of the photos whose source exists have their copy. -/
def Copied (w : World) (refs : List (PublicKey × String)) : Prop :=
  ∀ ref ∈ refs, ref.2 ∈ w.objects → ref.1 ∈ w.publicObjects

theorem mirroredAt_iff : w.mirroredAt listing ↔
    (w.stamped listing → ∀ refs, w.toMirror listing = some refs → Copied w refs) := by
  unfold World.mirroredAt World.stamped World.toMirror
  cases hrow : w.listings.get listing with
  | none => simp
  | some row =>
    simp only [Option.all_some, Option.any_some, Option.map_some, Bool.or_eq_true,
      Option.isNone_iff_eq_none, List.all_eq_true, decide_eq_true_eq, Option.some.injEq]
    constructor
    · rintro h hstamped refs rfl ref href
      obtain ⟨entry, hentry, rfl⟩ := List.mem_map.mp href
      rcases h with hnone | hcopied
      · rw [hnone] at hstamped
        cases hstamped
      · intro hsource
        exact (hcopied entry hentry).resolve_left (not_not.mpr hsource)
    · intro h
      by_cases hstamped : row.publicPhotosMirroredAt = none
      · exact Or.inl hstamped
      · refine Or.inr fun entry hentry => ?_
        by_cases hsource : entry.s3Key ∈ w.objects
        · have hcopied := h (Option.isSome_iff_ne_none.mpr hstamped) _ rfl
          exact Or.inr (hcopied _ (List.mem_map.mpr ⟨entry, hentry, rfl⟩) hsource)
        · exact Or.inl hsource

/-- The photos to copy depend on the report, its manifest and the configuration. -/
theorem toMirror_congr (hconfig : w.SameConfig w')
    (hsome : (w'.listings.get listing).isSome = (w.listings.get listing).isSome)
    (hreport : w'.reportOf listing = w.reportOf listing)
    (hmanifest : ∀ report, w.reportOf listing = some report →
      (w'.reports.get report).bind (·.photosManifest) =
        (w.reports.get report).bind (·.photosManifest)) :
    w'.toMirror listing = w.toMirror listing := by
  unfold World.toMirror
  unfold World.reportOf at hreport hmanifest
  cases hrow : w.listings.get listing with
  | none =>
    rw [hrow] at hsome
    rw [Option.isSome_eq_false_iff.mp hsome |> Option.isNone_iff_eq_none.mp]
    rfl
  | some row =>
    rw [hrow] at hsome hreport hmanifest
    obtain ⟨row', hrow'⟩ := Option.isSome_iff_exists.mp hsome
    rw [hrow'] at hreport ⊢
    have hid : row'.reportId = row.reportId := hreport
    have hmanifests : w'.manifestOf row' = w.manifestOf row := by
      unfold World.manifestOf
      rw [hid]
      cases hr : row.reportId with
      | none => rfl
      | some report => exact hmanifest report hr
    simp only [Option.map_some, World.showroomRefs, hmanifests, World.mirrorKey,
      hconfig.sha256Text, hconfig.localeCompare]

theorem refs_of_none {limit : Option Nat} {everything : Bool} :
    manifestPhotoRefs w.localeCompare none limit everything = [] := by
  cases limit with
  | none => rfl
  | some n => exact List.take_nil

/-- A photo to copy is listed by the manifest of the report of the listing. -/
theorem listed_of_mem {refs : List (PublicKey × String)} {ref : PublicKey × String}
    (h : w.toMirror listing = some refs) (href : ref ∈ refs) :
    ∃ report row, w.reportOf listing = some report ∧ w.reports.get report = some row ∧
      ∃ entry ∈ manifestPhotoRefs w.localeCompare row.photosManifest (some maxListingPhotos) false,
        entry.s3Key = ref.2 := by
  obtain ⟨row, hrow, rfl⟩ := Option.map_eq_some_iff.mp h
  obtain ⟨entry, hentry, rfl⟩ := List.mem_map.mp href
  unfold World.showroomRefs World.manifestOf at hentry
  cases hid : row.reportId with
  | none =>
    rw [hid, Option.bind_none, refs_of_none] at hentry
    cases hentry
  | some report =>
    rw [hid] at hentry
    cases hreport : w.reports.get report with
    | none =>
      rw [Option.bind_some, hreport, Option.bind_none, refs_of_none] at hentry
      cases hentry
    | some found =>
      rw [Option.bind_some, hreport, Option.bind_some] at hentry
      exact ⟨report, found, by simp [World.reportOf, hrow, hid], hreport, entry, hentry, rfl⟩

/-- The statements of mirrors and of what changes the photos of a report. -/
def Stmt.ofPhotos : Stmt → Prop
  | .publicPut _ _ | .setBucket _ _ | .stampMirrored _ | .putReportObject _ _ | .deleteObject _
  | .createReportPhoto _ | .updateReportPhoto _ _ | .deleteReportPhoto _ _ | .writeManifest _ _
  | .invalidateMirror _ => True
  | _ => False

/-- They leave every listing with its report. -/
theorem rows_exec (hs : s.ofPhotos) (c : Fate) (w : World) (listing : ListingRef) :
    ((World.exec s c w).2.listings.get listing).isSome = (w.listings.get listing).isSome ∧
      (World.exec s c w).2.reportOf listing = w.reportOf listing := by
  unfold World.reportOf
  rcases listing_exec s c w listing with
    hsame | ⟨row, hcreate, -, -⟩ | ⟨row, hrow, hafter⟩
  · rw [hsame]
    exact ⟨rfl, rfl⟩
  · subst hcreate
    exact hs.elim
  · have hreport : (s.rowAfter w.now listing row).reportId = row.reportId := by
      cases s with
      | stampMirrored listing' => simp only [Stmt.rowAfter]; split <;> rfl
      | invalidateMirror report => simp only [Stmt.rowAfter]; split <;> rfl
      | publicPut writer key => rfl
      | setBucket photo bucket => rfl
      | putReportObject report key => rfl
      | deleteObject key => rfl
      | createReportPhoto row => rfl
      | updateReportPhoto photo row => rfl
      | deleteReportPhoto photo report => rfl
      | writeManifest report manifest => rfl
      | _ => exact hs.elim
    rw [hrow, hafter]
    exact ⟨rfl, hreport⟩

/-- No more is stamped, listed or stored, and nothing public is lost. -/
structure Calm (w w' : World) : Prop where
  reportOf : ∀ listing, w'.reportOf listing = w.reportOf listing
  stamped : ∀ listing, w'.stamped listing → w.stamped listing
  toMirror : ∀ listing, w'.toMirror listing = w.toMirror listing
  objects : ∀ key ∈ w'.objects, key ∈ w.objects
  publicObjects : ∀ key ∈ w.publicObjects, key ∈ w'.publicObjects

theorem Calm.refl (w : World) : Calm w w :=
  ⟨fun _ => rfl, fun _ h => h, fun _ => rfl, fun _ h => h, fun _ h => h⟩

theorem Calm.copied (h : Calm w w') {refs : List (PublicKey × String)} (hc : Copied w refs) :
    Copied w' refs :=
  fun ref href hsource => h.publicObjects _ (hc ref href (h.objects _ hsource))

/-- The statements that stamp, list and store nothing. -/
def Stmt.calm : Stmt → Prop
  | .publicPut _ _ | .setBucket _ _ | .deleteObject _ | .createReportPhoto _
  | .updateReportPhoto _ _ | .deleteReportPhoto _ _ | .invalidateMirror _ => True
  | _ => False

theorem Stmt.calm.ofPhotos (hs : s.calm) : s.ofPhotos := by
  cases s <;> trivial

theorem calm_exec (hs : s.calm) : Calm w (World.exec s c w).2 := by
  have hrows (listing : ListingRef) := rows_exec hs.ofPhotos c w listing
  have hreports : (World.exec s c w).2.reports = w.reports := by
    refine reports_spared ?_
    cases s <;> first | exact hs.elim | simp [Stmt.part]
  refine ⟨fun listing => (hrows listing).2, fun listing h => ?_, fun listing => ?_, fun key h => ?_,
    fun key h => ?_⟩
  · unfold World.stamped at h ⊢
    rcases listing_exec s c w listing with
      hsame | ⟨row, hcreate, -, -⟩ | ⟨row, hrow, hafter⟩
    · rwa [hsame] at h
    · subst hcreate
      exact hs.elim
    · rw [hafter] at h
      rw [hrow]
      cases s with
      | invalidateMirror report =>
        simp only [Stmt.rowAfter] at h
        split at h
        · cases h
        · exact h
      | publicPut writer key => exact h
      | setBucket photo bucket => exact h
      | deleteObject key => exact h
      | createReportPhoto row => exact h
      | updateReportPhoto photo row => exact h
      | deleteReportPhoto photo report => exact h
      | _ => exact hs.elim
  · exact toMirror_congr (exec_config s c w) (hrows listing).1 (hrows listing).2
      fun report _ => by rw [hreports]
  · cases c with
    | fails => rwa [exec_fails] at h
    | ok =>
      cases s with
      | deleteObject key' => exact Finset.mem_of_mem_erase h
      | _ => first | exact hs.elim | (rw [objects_spared (by simp [Stmt.part])] at h; exact h)
  · rcases publicObjects_exec (w := w) (s := s) (c := c) with hsame | ⟨writer, key', -, hput⟩ |
      ⟨remover, key', hdelete, -⟩
    · rwa [hsame]
    · rw [hput]
      exact Finset.mem_insert_of_mem h
    · subst hdelete
      exact hs.elim

end World

section Discipline

/-- What a thread is doing: it copies photos it has read, some of which are done, or it has changed
the photos of a report and has not cleared the stamps yet. -/
inductive Work where
  | idle
  | mirroring (listing : ListingRef) (refs done : List (PublicKey × String))
  | rewriting (report : ReportRef)

/-- Where a mirror is after its read. -/
def startOf (listing : ListingRef) (c : Fate) (w : World) : Work :=
  match c, w.toMirror listing with
  | .ok, some refs => .mirroring listing refs []
  | _, _ => .idle

inductive Moves : Work → Label Site Stmt → Fate → World → Work → Prop
  | read {ph : Work} {listing : ListingRef} {c : Fate} {w : World}
      (h : ∀ report, ph ≠ .rewriting report) :
      Moves ph (.ask (.mirrorListing listing)) c w (startOf listing c w)
  | look {ph : Work} {site : Site} {c : Fate} {w : World}
      (h : ∀ listing, site ≠ .mirrorListing listing) (hr : rewrites (.ask site) = none) :
      Moves ph (.ask site) c w ph
  | absent {listing : ListingRef} {refs done : List (PublicKey × String)}
      {ref : PublicKey × String} {w : World} (href : ref ∈ refs) (h : ref.2 ∉ w.objects) :
      Moves (.mirroring listing refs done) (.ask (.objectBytes ref.2)) .ok w
        (.mirroring listing refs (ref :: done))
  | copied {listing : ListingRef} {refs done : List (PublicKey × String)}
      {ref : PublicKey × String} {w : World} {writer : Writer} (href : ref ∈ refs)
      (h : w.publicBucket.isSome) :
      Moves (.mirroring listing refs done) (.call (.publicPut writer ref.1)) .ok w
        (.mirroring listing refs (ref :: done))
  | spare {ph : Work} {s : Stmt} {c : Fate} {w : World} (hs : s.calm)
      (hr : rewrites (.call s) = none) : Moves ph (.call s) c w ph
  | stamp {listing : ListingRef} {refs done : List (PublicKey × String)} {c : Fate} {w : World}
      (h : ∀ ref ∈ refs, ref ∈ done) :
      Moves (.mirroring listing refs done) (.call (.stampMirrored listing)) c w
        (.mirroring listing refs done)
  | put {report : ReportRef} {key : String} {c : Fate} {w : World} :
      Moves .idle (.call (.putReportObject report key)) c w
        (if c = .ok then .rewriting report else .idle)
  | rewrite {ph : Work} {report : ReportRef} {label : Label Site Stmt} {c : Fate} {w : World}
      (hph : ph = .idle ∨ ph = .rewriting report) (hl : rewrites label = some report)
      (hne : label ≠ .call (.invalidateMirror report)) :
      Moves ph label c w (if refused label c w then .idle else .rewriting report)
  | clear {report : ReportRef} {c : Fate} {w : World} :
      Moves (.rewriting report) (.call (.invalidateMirror report)) c w .idle

/-- A thread that changes the photos of a report clears the stamps before it ends. -/
def clearing : Discipline Site Stmt World Fate Work where
  view _ _ := True
  moves := Moves

/-- Not between a change and its clear. -/
def Work.rest (ph : Work) : Prop := ∀ report, ph ≠ .rewriting report

theorem Work.rest_idle : Work.rest .idle := by simp [Work.rest]

theorem Work.idle_rest {ph : Work} (h : ph = .idle) : ph.rest := h ▸ Work.rest_idle

theorem Work.rest_mirroring {listing : ListingRef} {refs done : List (PublicKey × String)} :
    Work.rest (.mirroring listing refs done) := by simp [Work.rest]

def Rewritten (Φ : Nat → Work) (report : ReportRef) : Prop := ∃ t, Φ t = .rewriting report

/-- A stamped mirror is complete, and what a mirror under way has done is done, unless the photos of
the report are being changed. -/
structure Sound (Φ : Nat → Work) (x : World × MirrorLog) : Prop where
  stamped : ∀ listing, x.1.stamped listing →
    (∀ refs, x.1.toMirror listing = some refs → Copied x.1 refs) ∨
      ∃ report, x.1.reportOf listing = some report ∧ Rewritten Φ report
  subset : ∀ t listing refs done, Φ t = .mirroring listing refs done → ∀ ref ∈ done, ref ∈ refs
  mirror : ∀ t listing refs done report, Φ t = .mirroring listing refs done →
    x.1.reportOf listing = some report → (t, report) ∈ x.2 →
    (x.1.toMirror listing = some refs ∧ Copied x.1 done) ∨ Rewritten Φ report

variable {Φ Ψ : Nat → Work} {x : World × MirrorLog} {w' : World} {log : MirrorLog} {t : Nat}
  {ph : Work}

/-- A calm step keeps the invariant: threads that stop changing a report leave it unstamped and not
being mirrored, and what a mirror adds is done. -/
theorem Sound.calm (h : Sound Φ x) (hw : Calm x.1 w')
    (hlog : ∀ entry ∈ log, entry ∈ x.2)
    (hstop : ∀ report, Rewritten Φ report → Rewritten Ψ report ∨
      (∀ listing, w'.stamped listing → w'.reportOf listing ≠ some report) ∧
        ∀ entry ∈ log, entry.2 ≠ report)
    (hmirror : ∀ t listing refs done, Ψ t = .mirroring listing refs done →
      ∃ old, Φ t = .mirroring listing refs old ∧
        ∀ ref ∈ done, ref ∈ old ∨ ref ∈ refs ∧ (ref.2 ∈ w'.objects → ref.1 ∈ w'.publicObjects)) :
    Sound Ψ (w', log) where
  stamped listing hstamped := by
    rcases h.stamped listing (hw.stamped listing hstamped) with hcopied | ⟨report, hreport, hr⟩
    · exact Or.inl fun refs hrefs => hw.copied (hcopied refs (hw.toMirror listing ▸ hrefs))
    · have hreport' : w'.reportOf listing = some report := (hw.reportOf listing).trans hreport
      rcases hstop report hr with hkept | ⟨hun, -⟩
      · exact Or.inr ⟨report, hreport', hkept⟩
      · exact absurd hreport' (hun listing hstamped)
  subset t listing refs done hΨ ref href := by
    obtain ⟨old, hΦ, hdone⟩ := hmirror t listing refs done hΨ
    rcases hdone ref href with hold | ⟨hin, -⟩
    · exact h.subset t listing refs old hΦ ref hold
    · exact hin
  mirror t listing refs done report hΨ hreport hentry := by
    obtain ⟨old, hΦ, hdone⟩ := hmirror t listing refs done hΨ
    have hreport' : x.1.reportOf listing = some report := (hw.reportOf listing).symm.trans hreport
    rcases h.mirror t listing refs old report hΦ hreport' (hlog _ hentry) with ⟨hrefs, hold⟩ | hr
    · refine Or.inl ⟨(hw.toMirror listing).trans hrefs, fun ref href hsource => ?_⟩
      rcases hdone ref href with hin | ⟨-, hcopied⟩
      · exact hw.copied hold ref hin hsource
      · exact hcopied hsource
    · rcases hstop report hr with hkept | ⟨-, hnone⟩
      · exact Or.inr hkept
      · exact absurd rfl (hnone _ hentry)

/-- A thread that keeps its phase. -/
theorem Sound.kept (h : Sound Φ x) (hw : Calm x.1 w') (hlog : ∀ entry ∈ log, entry ∈ x.2) :
    Sound (Function.update Φ t (Φ t)) (w', log) := by
  rw [Function.update_eq_self]
  exact h.calm hw hlog (fun _ hr => Or.inl hr) fun u listing refs done hu =>
    ⟨done, hu, fun ref href => Or.inl href⟩

/-- A thread that goes on to mirror. -/
theorem Sound.credit {listing : ListingRef} {refs done : List (PublicKey × String)}
    {ref : PublicKey × String} (h : Sound Φ x) (hw : Calm x.1 w')
    (hlog : ∀ entry ∈ log, entry ∈ x.2) (hΦ : Φ t = .mirroring listing refs done)
    (href : ref ∈ refs) (hdone : ref.2 ∈ w'.objects → ref.1 ∈ w'.publicObjects) :
    Sound (Function.update Φ t (.mirroring listing refs (ref :: done))) (w', log) := by
  refine h.calm hw hlog (fun report hr => Or.inl ?_) fun u listing' refs' done' hu => ?_
  · obtain ⟨u, hu⟩ := hr
    refine ⟨u, ?_⟩
    rw [Function.update_of_ne, hu]
    rintro rfl
    rw [hΦ] at hu
    cases hu
  · by_cases hut : u = t
    · subst hut
      rw [Function.update_self] at hu
      cases hu
      refine ⟨done, hΦ, fun ref' href' => ?_⟩
      rcases List.mem_cons.mp href' with rfl | hold
      · exact Or.inr ⟨href, hdone⟩
      · exact Or.inl hold
    · rw [Function.update_of_ne hut] at hu
      exact ⟨done', hu, fun ref' href' => Or.inl href'⟩

/-- What another thread changes is still being changed. -/
theorem Rewritten.update {report : ReportRef} (h : Rewritten Φ report)
    (ht : Φ t = .rewriting report → ph = .rewriting report) :
    Rewritten (Function.update Φ t ph) report := by
  obtain ⟨u, hu⟩ := h
  by_cases hut : u = t
  · subst hut
    exact ⟨u, by rw [Function.update_self]; exact ht hu⟩
  · exact ⟨u, by rw [Function.update_of_ne hut]; exact hu⟩

/-- A mirror after the step of a thread that does not go on mirroring is one from before. -/
theorem mirroring_update {u : Nat} {listing : ListingRef} {refs done : List (PublicKey × String)}
    (hph : ∀ listing refs done, ph ≠ .mirroring listing refs done)
    (hu : Function.update Φ t ph u = .mirroring listing refs done) :
    Φ u = .mirroring listing refs done := by
  by_cases hut : u = t
  · subst hut
    rw [Function.update_self] at hu
    exact absurd hu (hph listing refs done)
  · rwa [Function.update_of_ne hut] at hu

/-- The read of a mirror. -/
theorem Sound.read {listing : ListingRef} {c : Fate} (h : Sound Φ x) (hΦ : (Φ t).rest) :
    Sound (Function.update Φ t (startOf listing c x.1))
      (x.1, recordMirror t (.ask (.mirrorListing listing)) x.1 x.1 x.2) := by
  have hstart {l : ListingRef} {refs done : List (PublicKey × String)}
      (hs : startOf listing c x.1 = .mirroring l refs done) :
      x.1.toMirror l = some refs ∧ done = [] := by
    unfold startOf at hs
    split at hs
    next hrefs =>
      cases hs
      exact ⟨hrefs, rfl⟩
    · cases hs
  have hold {u : Nat} {l : ListingRef} {refs done : List (PublicKey × String)}
      (hu : Function.update Φ t (startOf listing c x.1) u = .mirroring l refs done) :
      (x.1.toMirror l = some refs ∧ done = []) ∨ u ≠ t ∧ Φ u = .mirroring l refs done := by
    by_cases hut : u = t
    · subst hut
      rw [Function.update_self] at hu
      exact Or.inl (hstart hu)
    · rw [Function.update_of_ne hut] at hu
      exact Or.inr ⟨hut, hu⟩
  have hkept {report : ReportRef} (hr : Rewritten Φ report) :
      Rewritten (Function.update Φ t (startOf listing c x.1)) report :=
    hr.update fun ht => absurd ht (hΦ report)
  constructor
  · intro l hl
    exact (h.stamped l hl).imp_right fun hrew => hrew.imp fun report hr =>
      hr.imp_right hkept
  · intro u l refs done hu
    rcases hold hu with ⟨-, rfl⟩ | ⟨-, hu⟩
    · intro ref href
      cases href
    · exact h.subset u l refs done hu
  · intro u l refs done report hu hreport hentry
    rcases hold hu with ⟨hrefs, rfl⟩ | ⟨hut, hu⟩
    · exact Or.inl ⟨hrefs, fun ref href => nomatch href⟩
    · have hlogged : (u, report) ∈ x.2 := by
        rcases List.mem_append.mp hentry with hin | hin
        · exact List.mem_of_mem_filter hin
        · obtain ⟨r, -, hr⟩ := Option.map_eq_some_iff.mp (Option.mem_toList.mp hin)
          exact absurd (Prod.mk.inj hr).1.symm hut
      exact (h.mirror u l refs done report hu hreport hlogged).imp_right hkept

/-- The stamp of a mirror that is still under way. -/
theorem Sound.stamp {listing : ListingRef} {refs done : List (PublicKey × String)} {c : Fate}
    (h : Sound Φ x) (hΦ : Φ t = .mirroring listing refs done) (hdone : ∀ ref ∈ refs, ref ∈ done)
    (hC : stampsInTime t (.call (.stampMirrored listing)) c x) :
    Sound (Function.update Φ t (Φ t)) ((World.exec (.stampMirrored listing) c x.1).2,
      x.2.filter (·.1 ≠ t)) := by
  have hlog : ∀ entry ∈ x.2.filter (·.1 ≠ t), entry ∈ x.2 := fun _ h => List.mem_of_mem_filter h
  cases c with
  | fails =>
    rw [exec_fails]
    exact h.kept (Calm.refl _) hlog
  | ok =>
    rw [Function.update_eq_self]
    have hrows := rows_exec (s := .stampMirrored listing) trivial .ok x.1
    have hrefs (l : ListingRef) : (World.exec (.stampMirrored listing) .ok x.1).2.toMirror l =
        x.1.toMirror l :=
      toMirror_congr (exec_config _ _ _) (hrows l).1 (hrows l).2 fun report _ => by
        rw [reports_spared (by simp [Stmt.part])]
    have hobjects : (World.exec (.stampMirrored listing) .ok x.1).2.objects = x.1.objects :=
      objects_spared (by simp [Stmt.part])
    have hpublic : (World.exec (.stampMirrored listing) .ok x.1).2.publicObjects =
        x.1.publicObjects := publicObjects_spared (by simp [Stmt.part])
    have hcopied (refs : List (PublicKey × String)) (hc : Copied x.1 refs) :
        Copied (World.exec (.stampMirrored listing) .ok x.1).2 refs := by
      intro ref href
      rw [hobjects, hpublic]
      exact hc ref href
    constructor
    · intro l hl
      rw [(hrows l).2, hrefs l]
      by_cases hll : l = listing
      · subst hll
        cases hreport : x.1.reportOf l with
        | none =>
          refine Or.inl fun refs' hrefs' => hcopied refs' fun ref href => ?_
          obtain ⟨report, -, hsome, -⟩ := listed_of_mem hrefs' href
          rw [hreport] at hsome
          cases hsome
        | some report =>
          have hentry : (t, report) ∈ x.2 := by
            simpa [stampsInTime, hreport, rewrites] using hC
          rcases h.mirror t l refs done report hΦ hreport hentry with ⟨hcurrent, hall⟩ | hr
          · refine Or.inl fun refs' hrefs' => hcopied refs' ?_
            rw [hcurrent] at hrefs'
            cases hrefs'
            exact fun ref href => hall ref (hdone ref href)
          · exact Or.inr ⟨report, rfl, hr⟩
      · have hstamped : x.1.stamped l := by
          unfold World.stamped at hl ⊢
          have hget : (World.exec (.stampMirrored listing) .ok x.1).2.listings.get l =
              x.1.listings.get l := by
            show (x.1.updateListing listing _).2.listings.get l = _
            rw [get_updateListing]
            simp [hll]
          rwa [hget] at hl
        exact (h.stamped l hstamped).imp_left fun hc refs' hrefs' => hcopied refs' (hc refs' hrefs')
    · exact h.subset
    · intro u l refs' done' report hu hreport hentry
      rw [(hrows l).2] at hreport
      rw [hrefs l]
      exact (h.mirror u l refs' done' report hu hreport (hlog _ hentry)).imp_left
        fun hm => ⟨hm.1, hcopied done' hm.2⟩

/-- The store of an upload. -/
theorem Sound.put {report : ReportRef} {key : String} {c : Fate} (h : Sound Φ x)
    (hΦ : Φ t = .idle) (hC : stampsInTime t (.call (.putReportObject report key)) c x) :
    Sound (Function.update Φ t (if c = .ok then .rewriting report else .idle))
      ((World.exec (.putReportObject report key) c x.1).2, x.2) := by
  cases c with
  | fails =>
    rw [exec_fails, if_neg (by simp), ← hΦ]
    exact h.kept (Calm.refl _) fun _ h => h
  | ok =>
    rw [if_pos rfl]
    have hother {l : ListingRef} {refs : List (PublicKey × String)} {ref : PublicKey × String}
        (hne : x.1.reportOf l ≠ some report) (hrefs : x.1.toMirror l = some refs)
        (href : ref ∈ refs) : ref.2 ≠ key := by
      obtain ⟨report', row, hreport', hrow, entry, hentry, hkey⟩ := listed_of_mem hrefs href
      rintro rfl
      have helsewhere : x.1.listedElsewhere report ref.2 = true := by
        refine Table.any_eq_true.mpr ⟨report', row, hrow, ?_⟩
        have hne' : report' ≠ report := fun he => hne (he ▸ hreport')
        simp only [decide_eq_true hne', Bool.true_and, List.any_eq_true, decide_eq_true_eq]
        exact ⟨entry, hentry, hkey⟩
      simp [stampsInTime, rewrites, helsewhere] at hC
    have hcopied {l : ListingRef} {refs done : List (PublicKey × String)}
        (hne : x.1.reportOf l ≠ some report) (hrefs : x.1.toMirror l = some refs)
        (hsub : ∀ ref ∈ done, ref ∈ refs) (hc : Copied x.1 done) :
        Copied (World.exec (.putReportObject report key) .ok x.1).2 done := by
      intro ref href hsource
      rcases Finset.mem_insert.mp hsource with hkey | hold
      · exact absurd hkey (hother hne hrefs (hsub ref href))
      · exact hc ref href hold
    have hwork : ∀ l refs done, Work.rewriting report ≠ .mirroring l refs done := by simp
    have hkept {report' : ReportRef} (hr : Rewritten Φ report') :
        Rewritten (Function.update Φ t (.rewriting report)) report' :=
      hr.update fun ht => by rw [hΦ] at ht; cases ht
    have hself : Rewritten (Function.update Φ t (.rewriting report)) report :=
      ⟨t, Function.update_self ..⟩
    constructor
    · intro l hl
      by_cases hreport : x.1.reportOf l = some report
      · exact Or.inr ⟨report, hreport, hself⟩
      · refine (h.stamped l hl).imp (fun hc refs hrefs => ?_) fun hrew =>
          hrew.imp fun r hr => hr.imp_right hkept
        exact hcopied hreport hrefs (fun _ h => h) (hc refs hrefs)
    · exact fun u l refs done hu => h.subset u l refs done (mirroring_update hwork hu)
    · intro u l refs done report' hu hreport hentry
      have hΦu := mirroring_update hwork hu
      by_cases hsame : report' = report
      · exact Or.inr (hsame ▸ hself)
      · refine (h.mirror u l refs done report' hΦu hreport hentry).imp (fun hm => ⟨hm.1, ?_⟩) hkept
        have hne : x.1.reportOf l ≠ some report := by
          rw [show x.1.reportOf l = some report' from hreport]
          exact fun he => hsame (Option.some.inj he)
        exact hcopied hne hm.1 (h.subset u l refs done hΦu) hm.2

/-- What leaves one report rewritten: all that is listed of the others is listed as before. -/
theorem Sound.manifest {report : ReportRef} {manifest : Json} (h : Sound Φ x)
    (hΦ : Φ t = .idle ∨ Φ t = .rewriting report) :
    Sound (Function.update Φ t (.rewriting report))
      ((World.exec (.writeManifest report manifest) .ok x.1).2, x.2) := by
  have hrows := rows_exec (s := .writeManifest report manifest) trivial .ok x.1
  have hlistings : (World.exec (.writeManifest report manifest) .ok x.1).2.listings =
      x.1.listings := listings_spared (by simp [Stmt.part]) (by simp [Stmt.part])
  have hobjects : (World.exec (.writeManifest report manifest) .ok x.1).2.objects = x.1.objects :=
    objects_spared (by simp [Stmt.part])
  have hpublic : (World.exec (.writeManifest report manifest) .ok x.1).2.publicObjects =
      x.1.publicObjects := publicObjects_spared (by simp [Stmt.part])
  have hrefs (l : ListingRef) (hne : x.1.reportOf l ≠ some report) :
      (World.exec (.writeManifest report manifest) .ok x.1).2.toMirror l = x.1.toMirror l := by
    refine toMirror_congr (exec_config _ _ _) (hrows l).1 (hrows l).2 fun report' hreport' => ?_
    have hother : report' ≠ report := fun he => hne (he ▸ hreport')
    show ((x.1.writeManifest report manifest).2.reports.get report').bind _ = _
    unfold World.writeManifest
    split
    · rfl
    · simp [hother]
  have hcopied (refs : List (PublicKey × String)) (hc : Copied x.1 refs) :
      Copied (World.exec (.writeManifest report manifest) .ok x.1).2 refs := by
    intro ref href
    rw [hobjects, hpublic]
    exact hc ref href
  have hwork : ∀ l refs done, Work.rewriting report ≠ .mirroring l refs done := by simp
  have hkept {report' : ReportRef} (hr : Rewritten Φ report') :
      Rewritten (Function.update Φ t (.rewriting report)) report' := hr.update fun ht => by
    rcases hΦ with hΦ | hΦ
    · rw [hΦ] at ht
      cases ht
    · rwa [hΦ] at ht
  have hself : Rewritten (Function.update Φ t (.rewriting report)) report :=
    ⟨t, Function.update_self ..⟩
  constructor
  · intro l hl
    have hstamped : x.1.stamped l := by
      unfold World.stamped at hl ⊢
      rwa [hlistings] at hl
    rw [(hrows l).2]
    by_cases hreport : x.1.reportOf l = some report
    · exact Or.inr ⟨report, hreport, hself⟩
    · refine (h.stamped l hstamped).imp (fun hc refs hr => ?_) fun hrew =>
        hrew.imp fun r hr => hr.imp_right hkept
      exact hcopied refs (hc refs (hrefs l hreport ▸ hr))
  · exact fun u l refs done hu => h.subset u l refs done (mirroring_update hwork hu)
  · intro u l refs done report' hu hreport hentry
    have hΦu := mirroring_update hwork hu
    rw [(hrows l).2] at hreport
    by_cases hsame : report' = report
    · exact Or.inr (hsame ▸ hself)
    · have hne : x.1.reportOf l ≠ some report := by
        rw [hreport]
        exact fun he => hsame (Option.some.inj he)
      refine (h.mirror u l refs done report' hΦu hreport hentry).imp (fun hm => ⟨?_, ?_⟩) hkept
      · exact (hrefs l hne).trans hm.1
      · exact hcopied done hm.2

/-- A thread stops changing a report that is neither stamped nor being mirrored. -/
theorem Sound.stop {report : ReportRef} (h : Sound Φ x) (hw : Calm x.1 w')
    (hlog : ∀ entry ∈ log, entry ∈ x.2) (hΦ : Φ t = .idle ∨ Φ t = .rewriting report)
    (hun : ∀ listing, w'.stamped listing → w'.reportOf listing ≠ some report)
    (hnone : ∀ entry ∈ log, entry.2 ≠ report) :
    Sound (Function.update Φ t .idle) (w', log) := by
  refine h.calm hw hlog (fun report' hr => ?_) fun u listing refs done hu =>
    ⟨done, mirroring_update (fun _ _ _ => Work.noConfusion) hu, fun ref href => Or.inl href⟩
  by_cases hsame : report' = report
  · exact Or.inr (hsame ▸ ⟨hun, hnone⟩)
  · refine Or.inl (hr.update fun ht => ?_)
    rcases hΦ with hΦ | hΦ
    · rw [hΦ] at ht
      cases ht
    · rw [hΦ] at ht
      cases ht
      exact absurd rfl hsame

/-- A thread goes on changing a report. -/
theorem Sound.go {report : ReportRef} (h : Sound Φ x) (hw : Calm x.1 w')
    (hΦ : Φ t = .idle ∨ Φ t = .rewriting report) :
    Sound (Function.update Φ t (.rewriting report)) (w', x.2) := by
  refine h.calm hw (fun _ h => h) (fun report' hr => Or.inl (hr.update fun ht => ?_))
    fun u listing refs done hu =>
      ⟨done, mirroring_update (fun _ _ _ => Work.noConfusion) hu, fun ref href => Or.inl href⟩
  rcases hΦ with hΦ | hΦ
  · rw [hΦ] at ht
    cases ht
  · rwa [hΦ] at ht

theorem unstamped_iff {w : World} {report : ReportRef} : w.unstamped report ↔
    ∀ listing, w.stamped listing → w.reportOf listing ≠ some report := by
  unfold World.unstamped World.stamped World.reportOf
  rw [Bool.not_eq_true', Table.any_eq_false]
  constructor
  · intro h listing hstamped hreport
    obtain ⟨row, hrow, hstamp⟩ := Option.any_eq_true .. |>.mp hstamped
    have hid : row.reportId = some report := by simpa [hrow] using hreport
    have hno := h listing row hrow
    simp [hid, hstamp] at hno
  · intro h listing row hrow
    have hno := h listing
    simp only [hrow, Option.any_some, Option.bind_some] at hno
    simpa [and_comm] using hno

/-- What the condition says of a request that is refused. -/
theorem refused_in_time {label : Label Site Stmt} {c : Fate} {report : ReportRef}
    (hC : stampsInTime t label c x) (hl : rewrites label = some report)
    (hrefused : refused label c x.1) :
    (∀ listing, x.1.stamped listing → x.1.reportOf listing ≠ some report) ∧
      ∀ entry ∈ x.2, entry.2 ≠ report := by
  unfold stampsInTime at hC
  rw [hl] at hC
  simp only [hrefused, Bool.not_true, Bool.false_or, Bool.and_eq_true, List.all_eq_true,
    decide_eq_true_eq] at hC
  exact ⟨unstamped_iff.mp hC.2.1, hC.2.2⟩

/-- The clear of the stamps of a report. -/
theorem Sound.clear {report : ReportRef} {c : Fate} (h : Sound Φ x)
    (hΦ : Φ t = .rewriting report) (hC : stampsInTime t (.call (.invalidateMirror report)) c x) :
    Sound (Function.update Φ t .idle) ((World.exec (.invalidateMirror report) c x.1).2,
      x.2.filter (·.2 ≠ report)) := by
  have hcalm : Calm x.1 (World.exec (.invalidateMirror report) c x.1).2 := calm_exec trivial
  have hlog : ∀ entry ∈ x.2.filter (·.2 ≠ report), entry ∈ x.2 :=
    fun _ h => List.mem_of_mem_filter h
  refine h.stop hcalm hlog (Or.inr hΦ) (fun listing hstamped hreport => ?_) fun entry hentry =>
    of_decide_eq_true (List.mem_filter.mp hentry).2
  have hreport' : x.1.reportOf listing = some report := (hcalm.reportOf listing).symm.trans hreport
  cases c with
  | fails =>
    have hrefused := (refused_in_time hC rfl rfl).1
    exact hrefused listing (hcalm.stamped listing hstamped) hreport'
  | ok =>
    unfold World.reportOf at hreport'
    unfold World.stamped at hstamped
    obtain ⟨row, hrow, hid⟩ := Option.bind_eq_some_iff.mp hreport'
    have hget : (World.exec (.invalidateMirror report) .ok x.1).2.listings.get listing =
        some { row with publicPhotosMirroredAt := none } := by
      show (x.1.invalidateMirror report).listings.get listing = _
      rw [World.invalidateMirror, Table.get_rewrite, hrow]
      cases hstamp : row.publicPhotosMirroredAt with
      | none => cases row; cases hstamp; simp
      | some stamp => simp [hid, hstamp]
    rw [hget] at hstamped
    cases hstamped

theorem recordMirror_other {label : Label Site Stmt} {w w' : World} {log : MirrorLog}
    (hask : ∀ listing, label ≠ .ask (.mirrorListing listing))
    (hstamp : ∀ listing, label ≠ .call (.stampMirrored listing))
    (hclear : ∀ report, label ≠ .call (.invalidateMirror report)) :
    recordMirror t label w w' log = log := by
  unfold recordMirror
  split
  next listing => exact absurd rfl (hask listing)
  next listing => exact absurd rfl (hstamp listing)
  next report => exact absurd rfl (hclear report)
  · rfl

/-- The other requests of an upload or a deletion that has changed something. -/
theorem Sound.rewrite {label : Label Site Stmt} {c : Fate} {report : ReportRef} (h : Sound Φ x)
    (hΦ : Φ t = .idle ∨ Φ t = .rewriting report) (hl : rewrites label = some report)
    (hne : label ≠ .call (.invalidateMirror report)) (hC : stampsInTime t label c x) :
    Sound (Function.update Φ t (if refused label c x.1 then .idle else .rewriting report))
      (machine.after label c x.1, x.2) := by
  have hcalm (hw : Calm x.1 (machine.after label c x.1)) :
      Sound (Function.update Φ t (if refused label c x.1 then .idle else .rewriting report))
        (machine.after label c x.1, x.2) := by
    split
    next hrefused =>
      obtain ⟨hun, hnone⟩ := refused_in_time hC hl hrefused
      refine h.stop hw (fun _ h => h) hΦ (fun listing hstamped hreport => ?_) hnone
      exact hun listing (hw.stamped listing hstamped) ((hw.reportOf listing).symm.trans hreport)
    next => exact h.go hw hΦ
  cases label with
  | ask site => exact hcalm (Calm.refl _)
  | call s =>
    cases s with
    | createReportPhoto row => exact hcalm (calm_exec trivial)
    | updateReportPhoto photo row => exact hcalm (calm_exec trivial)
    | deleteReportPhoto photo report' => exact hcalm (calm_exec trivial)
    | invalidateMirror report' => cases hl; exact absurd rfl hne
    | writeManifest report' manifest =>
      cases hl
      cases c with
      | fails => exact hcalm (by rw [Machine.after_call]; exact Calm.refl _)
      | ok =>
        cases hrow : x.1.reports.get report with
        | none =>
          refine hcalm ?_
          show Calm x.1 (x.1.writeManifest report manifest).2
          unfold World.writeManifest
          rw [hrow]
          exact Calm.refl _
        | some row =>
          have hanswered : refused (.call (.writeManifest report manifest)) .ok x.1 = false := by
            simp [refused, World.exec, World.write, World.writeManifest, hrow]
          rw [hanswered]
          exact h.manifest hΦ
    | _ => cases hl

/-- The invariant of mirrors and of what changes the photos of reports. -/
theorem sound_invariant : clearing.Invariant machine recordMirror stampsInTime Sound where
  view _ _ _ _ := trivial
  env _ _ _ h := ⟨h.stamped, h.subset, h.mirror⟩
  move Φ x t label c ph h hC hm := by
    have hm : Moves (Φ t) label c x.1 ph := hm
    generalize hΦ : Φ t = old at hm
    cases hm with
    | read hrest => exact h.read (hΦ ▸ hrest)
    | look hsite hr =>
      rw [recordMirror_other (fun l he => hsite l (Label.ask.inj he)) (fun _ he => ?_)
        (fun _ he => ?_), ← hΦ]
      · exact h.kept (Calm.refl _) fun _ h => h
      · cases he
      · cases he
    | absent href hsource =>
      show Sound _ (_, x.2)
      exact h.credit (Calm.refl _) (fun _ h => h) hΦ href fun hin => absurd hin hsource
    | @copied listing refs done ref w writer href hbucket =>
      show Sound _ (_, x.2)
      refine h.credit (calm_exec (s := .publicPut writer ref.1) trivial) (fun _ h => h) hΦ href ?_
      intro _
      obtain ⟨bucket, hbucket⟩ := Option.isSome_iff_exists.mp hbucket
      show ref.1 ∈ (x.1.publicPut ref.1).2.publicObjects
      unfold World.publicPut
      rw [hbucket]
      exact Finset.mem_insert_self _ _
    | @spare ph s c w hs hr =>
      rw [recordMirror_other (fun l he => ?_) (fun l he => ?_) (fun r he => ?_), ← hΦ]
      · exact h.kept (calm_exec hs) fun _ h => h
      · cases he
      · cases he
        exact hs.elim
      · cases he
        cases hr
    | stamp hdone =>
      rw [← hΦ]
      exact h.stamp hΦ hdone hC
    | put => exact h.put hΦ hC
    | @rewrite ph report label c w hph hl hne =>
      rw [recordMirror_other (fun l he => ?_) (fun l he => ?_) (fun r he => ?_)]
      · exact h.rewrite (hΦ ▸ hph) hl hne hC
      · subst he
        cases hl
      · subst he
        cases hl
      · subst he
        cases hl
        exact hne rfl
    | clear => exact h.clear hΦ hC

end Discipline

section Flows

variable {α β : Type} {A : Work → Prop} {E : Err → Work → Prop} {listing : ListingRef}
  {report : ReportRef} {refs seen : List (PublicKey × String)}

/-- The program follows the discipline, from the phases of `A` into those of `B` or `E`. -/
abbrev Clearing (A : Work → Prop) (p : Act α) (B : α → Work → Prop) (E : Err → Work → Prop) :
    Prop :=
  clearing.Flow machine A p B E

theorem Clearing.then {p : Act α} {f : α → Act β} {B : α → Work → Prop} {B' : β → Work → Prop}
    (h : Clearing A p B E) (hf : ∀ a, Clearing (B a) (f a) B' E) : Clearing A (p >>= f) B' E :=
  Discipline.Flow.seq h hf

/-- A read that is none of a mirror's or a manifest's. -/
theorem clearing_look {site : Site} {f : World → α} (hs : ∀ l, site ≠ .mirrorListing l)
    (hr : rewrites (.ask site) = none) : Clearing A (fetch site f) (fun _ => A) fun _ => A := by
  refine Discipline.Flow.fetch fun ph c w hph _ => ⟨ph, Moves.look hs hr, ?_⟩
  cases machine.answer site f c w with
  | ok a => exact hph
  | error e => exact hph

theorem clearing_spare {s : Stmt} (hs : s.calm) (hr : rewrites (.call s) = none) :
    Clearing A (Prog.perform s : Act s.Resp) (fun _ => A) fun _ => A := by
  refine Discipline.Flow.perform fun ph c w hph _ => ⟨ph, Moves.spare hs hr, ?_⟩
  cases (machine.exec s c w).1 with
  | ok a => exact hph
  | error e => exact hph

theorem clearing_smallCopy {writer : Writer} {key : PublicKey} :
    Clearing A (quietly (putSmallCopy writer key)) (fun _ => A) E := by
  have hcopy : Clearing A (putSmallCopy writer key) (fun _ => A) fun _ => A :=
    Clearing.then (clearing_spare trivial rfl) fun _ => Discipline.Flow.pure fun _ h => h
  exact Discipline.Flow.quietly hcopy

theorem clearing_publicPut {writer : Writer} {key : PublicKey} :
    Clearing A (publicPutObject writer key) (fun _ => A) fun _ => A := by
  refine Clearing.then (clearing_spare trivial rfl) fun bucket => ?_
  cases thumbnailKey key with
  | none => exact Discipline.Flow.pure fun _ h => h
  | some smallKey =>
    exact Clearing.then clearing_smallCopy fun _ => Discipline.Flow.pure fun _ h => h

/-- A mirror under way that is done with `seen`. -/
def Going (listing : ListingRef) (refs seen : List (PublicKey × String)) (ph : Work) : Prop :=
  ∃ done, ph = .mirroring listing refs done ∧ ∀ ref ∈ seen, ref ∈ done

/-- The copy of a photo that is read as one to copy. -/
theorem clearing_copy {ref : PublicKey × String} (href : ref ∈ refs) :
    Clearing (Going listing refs seen) (publicPutObject .mirrorShowroomPhotos ref.1)
      (fun _ => Going listing refs (ref :: seen)) fun _ => Going listing refs seen := by
  have hput : Clearing (Going listing refs seen)
      (Prog.perform (Stmt.publicPut .mirrorShowroomPhotos ref.1) : Act String)
      (fun _ => Going listing refs (ref :: seen)) fun _ => Going listing refs seen := by
    refine Discipline.Flow.perform fun ph c w hph _ => ?_
    obtain ⟨done, rfl, hdone⟩ := hph
    cases c with
    | fails => exact ⟨_, Moves.spare trivial rfl, done, rfl, hdone⟩
    | ok =>
      cases hbucket : w.publicBucket with
      | none =>
        refine ⟨_, Moves.spare trivial rfl, ?_⟩
        show Discipline.onAnswer _ _ (w.publicPut ref.1).1 _
        unfold World.publicPut
        rw [hbucket]
        exact ⟨done, rfl, hdone⟩
      | some bucket =>
        refine ⟨_, Moves.copied href (by rw [hbucket]; rfl), ?_⟩
        show Discipline.onAnswer _ _ (w.publicPut ref.1).1 _
        unfold World.publicPut
        rw [hbucket]
        refine ⟨ref :: done, rfl, fun ref' href' => ?_⟩
        rcases List.mem_cons.mp href' with rfl | hseen
        · exact List.mem_cons_self
        · exact List.mem_cons_of_mem _ (hdone ref' hseen)
  refine Clearing.then hput fun bucket => ?_
  cases thumbnailKey ref.1 with
  | none => exact Discipline.Flow.pure fun _ h => h
  | some smallKey =>
    exact Clearing.then clearing_smallCopy fun _ => Discipline.Flow.pure fun _ h => h

/-- A photo is done with when it has its copy, or is found without a source. -/
theorem clearing_mirrorRef {ref : PublicKey × String} (href : ref ∈ refs) :
    Clearing (Going listing refs seen) (mirrorRef ref.1 ref.2)
      (fun _ => Going listing refs (ref :: seen)) fun _ => Going listing refs seen := by
  have hread : Clearing (Going listing refs seen) (getObjectBytes ref.2)
      (fun found => if found then Going listing refs seen else Going listing refs (ref :: seen))
      fun _ => Going listing refs seen := by
    refine Discipline.Flow.fetch fun ph c w hph _ => ?_
    obtain ⟨done, rfl, hdone⟩ := hph
    have hlook : Moves (.mirroring listing refs done) (.ask (.objectBytes ref.2)) c w
        (.mirroring listing refs done) := Moves.look (by simp) rfl
    cases c with
    | fails => exact ⟨_, hlook, done, rfl, hdone⟩
    | ok =>
      by_cases hsource : ref.2 ∈ w.objects
      · refine ⟨_, hlook, ?_⟩
        show (if decide (ref.2 ∈ w.objects) = true then _ else _ : Work → Prop) _
        rw [if_pos (by simpa using hsource)]
        exact ⟨done, rfl, hdone⟩
      · refine ⟨_, Moves.absent href hsource, ?_⟩
        show (if decide (ref.2 ∈ w.objects) = true then _ else _ : Work → Prop) _
        rw [if_neg (by simpa using hsource)]
        refine ⟨ref :: done, rfl, fun ref' href' => ?_⟩
        rcases List.mem_cons.mp href' with rfl | hseen
        · exact List.mem_cons_self
        · exact List.mem_cons_of_mem _ (hdone ref' hseen)
  refine Clearing.then hread fun found =>
    Discipline.Flow.when (fun hfound => ?_) fun hfound ph h => ?_
  · rw [if_pos hfound]
    exact Clearing.then (clearing_copy href) fun _ => Discipline.Flow.pure fun _ h => h
  · rwa [if_neg hfound] at h

theorem clearing_failed {ref : PublicKey × String} (href : ref ∈ refs) :
    Clearing (Going listing refs seen) (failed (mirrorRef ref.1 ref.2))
      (fun hit => if hit then Going listing refs seen else Going listing refs (ref :: seen)) E := by
  refine Clearing.then (Discipline.Flow.attempt (clearing_mirrorRef href)) fun answer => ?_
  cases answer with
  | ok a => exact Discipline.Flow.pure fun _ h => h
  | error e => exact Discipline.Flow.pure fun _ h => h

/-- A mirror without a failure is done with every photo it has read. -/
theorem clearing_mirrorRefs (todo : List (PublicKey × String)) (htodo : ∀ ref ∈ todo, ref ∈ refs) :
    Clearing (Going listing refs seen) (countEach todo fun ref => failed (mirrorRef ref.1 ref.2))
      (fun n ph => Going listing refs [] ph ∧ (n = 0 → Going listing refs (todo ++ seen) ph))
      E := by
  induction todo generalizing seen with
  | nil =>
    refine Discipline.Flow.ret fun ph h => ⟨?_, fun _ => h⟩
    obtain ⟨done, hph, -⟩ := h
    exact ⟨done, hph, by simp⟩
  | cons ref todo ih =>
    have hrest : ∀ ref ∈ todo, ref ∈ refs := fun r hr => htodo r (List.mem_cons_of_mem _ hr)
    refine Discipline.Flow.bind (clearing_failed (htodo ref List.mem_cons_self)) fun hit => ?_
    cases hit with
    | true =>
      refine Discipline.Flow.bind (ih hrest) fun n => Discipline.Flow.ret fun ph h => ⟨h.1, ?_⟩
      intro hn
      cases hn
    | false =>
      refine Discipline.Flow.bind (ih hrest) fun n => Discipline.Flow.ret fun ph h => ⟨h.1, ?_⟩
      intro hn
      obtain ⟨done, hph, hdone⟩ := h.2 hn
      refine ⟨done, hph, fun r hr => hdone r ?_⟩
      rcases List.mem_append.mp hr with hin | hin
      · rcases List.mem_cons.mp hin with rfl | hin
        · exact List.mem_append_right _ List.mem_cons_self
        · exact List.mem_append_left _ hin
      · exact List.mem_append_right _ (List.mem_cons_of_mem _ hin)

theorem going_rest {ph : Work} (h : Going listing refs seen ph) : ph.rest := by
  obtain ⟨done, rfl, -⟩ := h
  exact Work.rest_mirroring

/-- A read of a thread that does nothing yet. -/
theorem clearing_idle {site : Site} {f : World → α} (hs : ∀ l, site ≠ .mirrorListing l)
    (hr : rewrites (.ask site) = none) :
    Clearing (· = .idle) (fetch site f) (fun _ => (· = .idle)) fun _ => Work.rest :=
  (clearing_look hs hr).post (fun _ _ h => h) fun _ _ h => Work.idle_rest h

/-- A mirror starts where its thread changes nothing, and ends there. -/
theorem clearing_mirror : Clearing (· = .idle) (mirrorShowroomPhotos listing)
    (fun _ => Work.rest) fun _ => Work.rest := by
  have hconfigured : Clearing (· = .idle) isPublicBucketConfigured (fun _ => (· = .idle))
      fun _ => Work.rest := clearing_idle (by simp) rfl
  refine Clearing.then hconfigured fun configured => ?_
  refine Discipline.Flow.ite (fun _ => Discipline.Flow.pure fun _ h => Work.idle_rest h) fun _ => ?_
  have hread : Clearing (· = .idle)
      (fetch (.mirrorListing listing) (·.toMirror listing) :
        Act (Option (List (PublicKey × String))))
      (fun found ph => found.elim ph.rest fun refs => Going listing refs [] ph)
      fun _ => Work.rest := by
    refine Discipline.Flow.fetch fun ph c w hph _ => ⟨_, Moves.read (Work.idle_rest hph), ?_⟩
    cases c with
    | fails => exact Work.rest_idle
    | ok =>
      show (w.toMirror listing).elim _ _
      cases hrefs : w.toMirror listing with
      | none =>
        have hstart : startOf listing .ok w = .idle := by simp [startOf, hrefs]
        rw [hstart]
        exact Work.rest_idle
      | some refs =>
        have hstart : startOf listing .ok w = .mirroring listing refs [] := by
          simp [startOf, hrefs]
        rw [hstart]
        exact ⟨[], rfl, by simp⟩
  refine Clearing.then hread fun found => ?_
  cases found with
  | none => exact Discipline.Flow.pure fun _ h => h
  | some refs =>
    have hlook : Clearing (Going listing refs []) (privateRows listing)
        (fun _ => Going listing refs []) fun _ => Going listing refs [] :=
      clearing_look (by simp) rfl
    have hrows : Clearing (Going listing refs []) (privateRows listing)
        (fun _ => Going listing refs []) fun _ => Work.rest :=
      hlook.post (fun _ _ h => h) fun _ _ h => going_rest h
    refine Clearing.then hrows fun rows => ?_
    refine Clearing.then (B := fun _ => Going listing refs []) ?_ fun unpromoted => ?_
    · refine Discipline.Flow.countEach fun row _ => ?_
      have hpromote :
          Clearing (Going listing refs []) (promote row) (fun _ => Going listing refs [])
          fun _ => Going listing refs [] := by
        refine Clearing.then (clearing_look (by simp) rfl) fun found => ?_
        refine Discipline.Flow.when (fun _ => ?_) fun _ _ h => h
        exact Clearing.then clearing_publicPut fun bucket => clearing_spare trivial rfl
      refine Clearing.then (Discipline.Flow.attempt hpromote) fun answer => ?_
      cases answer with
      | ok a => exact Discipline.Flow.pure fun _ h => h
      | error e => exact Discipline.Flow.pure fun _ h => h
    refine Clearing.then (clearing_mirrorRefs refs fun _ h => h) fun unmirrored => ?_
    refine Clearing.then (B := fun _ => Work.rest) ?_ fun _ => Discipline.Flow.pure fun _ h => h
    refine Discipline.Flow.when (fun hnone => ?_) fun _ ph h => going_rest h.1
    refine Discipline.Flow.perform fun ph c w hph _ => ?_
    obtain ⟨done, rfl, hdone⟩ := hph.2 (by omega)
    refine ⟨_, Moves.stamp fun ref href => hdone ref (List.mem_append_left _ href), ?_⟩
    cases (machine.exec (.stampMirrored listing) c w).1 with
    | ok a => exact Work.rest_mirroring
    | error e => exact Work.rest_mirroring

/-- A request of an upload or a deletion that has changed something, or changes it. -/
theorem clearing_rewrite {s : Stmt} {A : Work → Prop}
    (hA : ∀ ph, A ph → ph = .idle ∨ ph = .rewriting report)
    (hl : rewrites (.call s) = some report) (hne : s ≠ .invalidateMirror report) :
    Clearing A (Prog.perform s : Act s.Resp) (fun _ => (· = .rewriting report))
      fun _ => Work.rest := by
  have hmove (ph : Work) (c : Fate) (w : World) (hph : A ph) :=
    Moves.rewrite (c := c) (w := w) (hA ph hph) hl fun he => hne (Label.call.inj he)
  refine Discipline.Flow.perform fun ph c w hph _ => ⟨_, hmove ph c w hph, ?_⟩
  show Discipline.onAnswer _ _ (World.exec s c w).1 _
  cases hanswer : (World.exec s c w).1 with
  | ok a =>
    have hdone : refused (.call s) c w = false := by simp [refused, hanswer]
    rw [hdone]
    rfl
  | error e =>
    have hrefused : refused (.call s) c w = true := by simp [refused, hanswer]
    rw [hrefused]
    exact Work.rest_idle

theorem clearing_manifest : Clearing (· = .rewriting report) (mirrorPhotosManifest report)
    (fun _ => Work.rest) fun _ => Work.rest := by
  have hrows : Clearing (· = .rewriting report)
      (fetch (.manifestRows report) (·.orderedPhotos report) : Act (List ReportPhoto))
      (fun _ => (· = .rewriting report)) fun _ => Work.rest := by
    refine Discipline.Flow.fetch fun ph c w hph _ =>
      ⟨_, Moves.rewrite (Or.inr hph) rfl (by simp), ?_⟩
    cases c with
    | ok => rfl
    | fails => exact Work.rest_idle
  refine Clearing.then hrows fun ordered => ?_
  refine Clearing.then (clearing_rewrite (fun _ h => Or.inr h) rfl (by simp)) fun _ => ?_
  have hclear : Clearing (· = .rewriting report)
      (Prog.perform (Stmt.invalidateMirror report) : Act Unit)
      (fun _ => Work.rest) fun _ => Work.rest := by
    refine Discipline.Flow.perform fun ph c w hph _ => ?_
    subst hph
    refine ⟨_, Moves.clear, ?_⟩
    cases (machine.exec (.invalidateMirror report) c w).1 with
    | ok a => exact Work.rest_idle
    | error e => exact Work.rest_idle
  exact Discipline.Flow.quietly hclear

theorem clearing_quietDelete {key : String} : Clearing A
    (quietly (Prog.perform (Stmt.deleteObject key)) : Act Unit) (fun _ => A) E := by
  have hdelete : Clearing A (Prog.perform (Stmt.deleteObject key) : Act Unit) (fun _ => A)
    fun _ => A := clearing_spare trivial rfl
  exact Discipline.Flow.quietly hdelete

theorem clearing_store {existing : Option (PhotoRef × ReportPhoto)} {row : ReportPhoto}
    (hrow : row.reportId = report) : Clearing (· = .idle) (storeReportPhoto report existing row)
      (fun _ => Work.rest) fun _ => Work.rest := by
  have hput : Clearing (· = .idle) (Prog.perform (Stmt.putReportObject report row.r2Key) : Act Unit)
      (fun _ => (· = .rewriting report)) fun _ => Work.rest := by
    refine Discipline.Flow.perform fun ph c w hph _ => ?_
    subst hph
    refine ⟨_, Moves.put, ?_⟩
    cases c with
    | ok => exact if_pos rfl
    | fails => exact Work.rest_idle
  refine Clearing.then hput fun _ => ?_
  have hsave : Clearing (· = .rewriting report) (saveReportPhoto existing row)
      (fun _ => (· = .rewriting report)) fun _ => Work.rest := by
    cases existing with
    | none => exact clearing_rewrite (fun _ h => Or.inr h) (congrArg some hrow) (by simp)
    | some old => exact clearing_rewrite (fun _ h => Or.inr h) (congrArg some hrow) (by simp)
  refine Clearing.then hsave fun _ => ?_
  have hsuperseded : Clearing (· = .rewriting report) (deleteSuperseded existing row.r2Key)
      (fun _ => (· = .rewriting report)) fun _ => Work.rest := by
    cases existing with
    | none => exact Discipline.Flow.pure fun _ h => h
    | some old => exact Discipline.Flow.when (fun _ => clearing_quietDelete) fun _ _ h => h
  exact Clearing.then hsuperseded fun _ => clearing_manifest

theorem clearing_throw {e : Err} {B : α → Work → Prop} :
    Clearing (· = .idle) (throw e : Act α) B fun _ => Work.rest :=
  Discipline.Flow.throw fun _ h => Work.idle_rest h

theorem clearing_requireOwned {deviceId : String} : Clearing (· = .idle)
    (requireOwned deviceId report) (fun _ => (· = .idle)) fun _ => Work.rest := by
  refine Clearing.then (clearing_idle (by simp) rfl) fun found => ?_
  cases found with
  | none => exact clearing_throw
  | some row =>
    refine Discipline.Flow.ite (fun _ => clearing_throw) fun _ => ?_
    exact Discipline.Flow.ite (fun _ => clearing_throw) fun _ => Discipline.Flow.pure fun _ h => h

theorem clearing_upload {deviceId : String} {dto : UploadPhoto} : Clearing (· = .idle)
    (uploadReportPhoto deviceId report dto) (fun _ => Work.rest) fun _ => Work.rest := by
  refine Clearing.then clearing_requireOwned fun _ => ?_
  refine Clearing.then (clearing_idle (by simp) rfl) fun configured => ?_
  refine Discipline.Flow.ite (fun _ => clearing_throw) fun _ => ?_
  refine Clearing.then (clearing_idle (by simp) rfl) fun originalHash => ?_
  refine Discipline.Flow.ite (fun _ => clearing_throw) fun _ => ?_
  refine Clearing.then (clearing_idle (by simp) rfl) fun existing => ?_
  refine Discipline.Flow.ite (fun _ => Discipline.Flow.pure fun _ h => Work.idle_rest h) fun _ => ?_
  exact Discipline.Flow.ite (fun _ => clearing_throw) fun _ => clearing_store rfl

theorem clearing_delete {deviceId : String} {photo : PhotoRef} : Clearing (· = .idle)
    (deleteReportPhoto deviceId report photo) (fun _ => Work.rest) fun _ => Work.rest := by
  refine Clearing.then clearing_requireOwned fun _ => ?_
  refine Clearing.then (clearing_idle (by simp) rfl) fun found => ?_
  cases found with
  | none => exact clearing_throw
  | some row =>
    refine Discipline.Flow.ite (fun _ => clearing_throw) fun _ => ?_
    refine Clearing.then (clearing_idle (by simp) rfl) fun configured => ?_
    have hobject : Clearing (· = .idle) (Prog.perform (Stmt.deleteObject row.r2Key) : Act Unit)
        (fun _ => (· = .idle)) fun _ => Work.rest := by
      have hspare : Clearing (· = .idle) (Prog.perform (Stmt.deleteObject row.r2Key) : Act Unit)
        (fun _ => (· = .idle)) fun _ => (· = .idle) := clearing_spare trivial rfl
      exact hspare.post (fun _ _ h => h) fun _ _ h => Work.idle_rest h
    refine Clearing.then (Discipline.Flow.when (fun _ => hobject) fun _ _ h => h) fun _ => ?_
    refine Clearing.then (clearing_rewrite (fun _ h => Or.inl h) rfl (by simp)) fun _ => ?_
    exact clearing_manifest

theorem clearing_call {call : Call} (hcall : call.ofPhotos) :
    Clearing (· = .idle) call.prog (fun _ => Work.rest) fun _ => Work.rest := by
  cases call with
  | mirrorShowroomPhotos listing =>
    exact Clearing.then clearing_mirror fun _ => Discipline.Flow.pure fun _ h => h
  | uploadReportPhoto deviceId report dto => exact clearing_upload
  | deleteReportPhoto deviceId report photo => exact clearing_delete
  | _ => cases hcall

end Flows

section Runs

variable {w : World} {calls : List Call} {g : Run MirrorLog}

/-- While mirrors stamp before the clears that follow their readings, and uploads and deletions
clear, a stamped mirror is complete once nothing runs. -/
theorem stamped_complete (w : World) (calls : List Call) (g : Run MirrorLog)
    (hcalls : ∀ call ∈ calls, call.ofPhotos) (hw : Mirrored w)
    (hg : Pool.Reach machine recordMirror stampsInTime (launch w [] calls) g)
    (hend : g.AllEnded) : Mirrored g.state := by
  have hstart : clearing.Kept machine Sound Work.rest (fun _ => .idle) (launch w [] calls) := by
    refine ⟨⟨fun listing hstamped => Or.inl (mirroredAt_iff.mp (hw listing) hstamped), ?_, ?_⟩, ?_,
      fun _ _ => Work.rest_idle⟩
    · exact fun _ _ _ _ h => nomatch h
    · exact fun _ _ _ _ _ h => nomatch h
    · intro t p hp
      obtain ⟨call, hcall, rfl⟩ := launch_thread hp
      exact clearing_call (hcalls call (List.mem_of_getElem? hcall)) .idle rfl
  obtain ⟨Φ, hkept⟩ := Discipline.kept_of_reach sound_invariant hstart hg
  intro listing
  refine mirroredAt_iff.mpr fun hstamped => ?_
  rcases hkept.inv.stamped listing hstamped with hcopied | ⟨report, -, t, ht⟩
  · exact hcopied
  · exact absurd ht (hkept.ended hend t report)

end Runs

section Race

def onePhotoReport : Report where
  code := "A"
  deviceId := "device"
  deletedAt := none
  vehicle := ⟨none, none, none⟩
  photosManifest := some (.arr [.obj [("s3Key", .str "old.jpg"), ("kind", .str "damage-1")]])

/-- A live listing, not mirrored yet, whose report has one photo. -/
def onePhoto : World where
  __ := oneListing
  reports := Table.empty.set 1 onePhotoReport
  objects := {"old.jpg"}

def secondPhoto : UploadPhoto := ⟨"damage-2", 0, [], none, true⟩

def mirrorAndUpload : List Call :=
  [.mirrorShowroomPhotos 1, .uploadReportPhoto "device" 1 secondPhoto]

/-- Whether all have ended, whether the listing is stamped, and whether its mirror is complete. -/
def ending (g : Run MirrorLog) : Bool × Bool × Bool :=
  (decide g.AllEnded, g.state.stamped 1, g.state.mirroredAt 1)

theorem mirrored_onePhoto : Mirrored onePhoto := by
  intro listing
  refine mirroredAt_iff.mpr fun hstamped => ?_
  simp only [World.stamped, onePhoto, oneListing, showroom, Table.get_set, Table.get_empty]
    at hstamped
  split at hstamped <;> cases hstamped

/-- An upload that runs while a mirror copies finds no stamp to clear, and the mirror stamps
later. -/
theorem uploaded_then_stamped : ¬ MirrorLaw anyStep := by
  intro hlaw
  have hrun : Pool.observe machine recordMirror anyStep ending
      (.replicate 6 (.run 0 .ok) ++ .replicate 9 (.run 1 .ok)) (.run 0 .ok)
      (launch onePhoto [] mirrorAndUpload) =
      some ((false, false, true), (true, true, false)) := by decide +kernel
  obtain ⟨g, g', hg, hm, hs, -, hafter⟩ := Pool.observe_eq hrun
  have hend : g'.AllEnded := of_decide_eq_true (congrArg Prod.fst hafter)
  have hcopied := hlaw onePhoto mirrorAndUpload g' (by decide) mirrored_onePhoto
    (.next hg hm hs) hend 1
  have hmissing : g'.state.mirroredAt 1 = false := congrArg (·.2.2) hafter
  rw [hmissing] at hcopied
  cases hcopied

/-- A mirror that stamps before the upload clears leaves the listing for the next mirror. -/
theorem stamped_then_uploaded : ∃ g : Run MirrorLog,
    ending g = (true, false, true) ∧ Mirrored g.state := by
  have hrun : Pool.observe machine recordMirror stampsInTime ending
      (.replicate 6 (.run 0 .ok) ++ .replicate 6 (.run 1 .ok) ++ .replicate 1 (.run 0 .ok) ++
        .replicate 2 (.run 1 .ok)) (.run 1 .ok) (launch onePhoto [] mirrorAndUpload) =
      some ((false, true, false), (true, false, true)) := by decide +kernel
  obtain ⟨g, g', hg, hm, hs, -, hafter⟩ := Pool.observe_eq hrun
  have hend : g'.AllEnded := of_decide_eq_true (congrArg Prod.fst hafter)
  exact ⟨g', hafter, stamped_complete onePhoto mirrorAndUpload g' (by decide) mirrored_onePhoto
    (.next hg hm hs) hend⟩

end Race

end CarSalePro.Listings
