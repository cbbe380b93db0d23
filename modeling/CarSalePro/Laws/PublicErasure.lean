import CarSalePro.Laws.StampedMirror

namespace CarSalePro.Listings

open Store Interleave Prog

/-- The listing is the seller's. -/
def World.ownedBy (w : World) (seller : UserRef) (listing : ListingRef) : Bool :=
  (w.listings.get listing).any (·.sellerId = seller)

/-- No public photo of a listing of the seller is left. -/
def Erased (seller : UserRef) (w : World) : Prop :=
  ∀ key ∈ w.publicObjects, w.ownedBy seller key.listing = false

instance (seller : UserRef) (w : World) : Decidable (Erased seller w) :=
  inferInstanceAs (Decidable (∀ key ∈ w.publicObjects, w.ownedBy seller key.listing = false))

/-- The deletes from the public bucket by an erasure, or by the delete of a listing, succeed. -/
def deletesSucceed : StepGuard Unit := fun _ label c _ =>
  match label with
  | .call (.publicDelete remover _) => remover = .deletePhoto || c = .ok
  | _ => true

/-- After every history whose steps meet `C`, an erasure leaves nothing behind. -/
def ErasureLaw (C : StepGuard Unit) : Prop :=
  ∀ (w : World) (calls : List Call) (seller : UserRef) (g : Run Unit),
    w.publicObjects = ∅ → KeysOwn w → (w.publicBucket.isSome → w.r2Configured) →
    Pool.Reach machine noRecord (fun t l c x => deletesSucceed t l c x && C t l c x)
      (sequence w () (calls ++ [.erasePublicPhotoObjects seller])) g →
    g.AllEnded → Erased seller g.state

/-- The objects that copies of the photos of a manifest may be. -/
def World.mirrorCopies (w : World) (listing : ListingRef) (manifest : Option Json) :
    List PublicKey :=
  ((w.everyRef manifest).map (w.mirrorKey listing)).flatMap copies

/-- None of these objects is public. -/
def World.unpublished (w : World) (keys : List PublicKey) : Bool :=
  keys.all fun key => decide (key ∉ w.publicObjects)

/-- The bucket of every public upload is recorded, and there are copies of report photos only when
the listing is stamped. -/
def World.settled (w : World) (listing : ListingRef) : Bool :=
  (!w.photos.any fun _ photo => photo.listingId = listing ∧
    ¬photo.bucket.any (· ≠ "") ∧ ¬w.unpublished (copies photo.r2Key)) &&
  (w.listings.get listing).all fun row =>
    row.publicPhotosMirroredAt.isSome || w.unpublished (w.mirrorCopies listing (w.manifestOf row))

/-- The public copies of the photos of the report are of photos of the new manifest too. -/
def World.stillListed (w : World) (report : ReportRef) (manifest : Json) : Bool :=
  !w.listings.any fun listing row => row.reportId = some report ∧
    ¬(w.mirrorCopies listing (w.manifestOf row)).all fun key =>
      decide (key ∉ w.publicObjects) || (w.mirrorCopies listing (some manifest)).elem key

/-- An upload that is stored gets its row; a row is deleted once its objects are gone; a manifest
goes on to list what has been copied; and what is deleted or erased is settled. -/
def withinReach : StepGuard Unit := fun _ label c x =>
  match label with
  | .ask .highestOrder => c = .ok || x.1.publicBucket.isNone
  | .call (.createPhoto _) => !refused label c x.1 || x.1.publicBucket.isNone
  | .call (.deletePhoto photo) =>
    c = .fails || (x.1.photos.get photo).all fun row => x.1.unpublished (copies row.r2Key)
  | .call (.writeManifest report manifest) => c = .fails || x.1.stillListed report manifest
  | .call (.deleteWithPhotos listing) => c = .fails || x.1.settled listing
  | .ask (.publicRows seller) => c = .ok &&
    !x.1.listings.any fun listing row => row.sellerId = seller ∧ ¬x.1.settled listing
  | .ask .stampedListings => c = .ok
  | _ => true

section World

variable {w w' : World} {s : Stmt} {c : Fate} {listing : ListingRef} {key : PublicKey}

/-- An erasure can get to the object: a photo has it, or a photo of the report of its listing. -/
def World.traced (w : World) (key : PublicKey) : Prop :=
  (∃ photo row, w.photos.get photo = some row ∧ key ∈ copies row.r2Key) ∨
    ∃ row, w.listings.get key.listing = some row ∧
      key ∈ w.mirrorCopies key.listing (w.manifestOf row)

theorem unpublished_iff {keys : List PublicKey} :
    w.unpublished keys ↔ ∀ key ∈ keys, key ∉ w.publicObjects := by
  simp [World.unpublished]

theorem mirrorCopies_congr (hconfig : w.SameConfig w') (manifest : Option Json) :
    w'.mirrorCopies listing manifest = w.mirrorCopies listing manifest := by
  unfold World.mirrorCopies World.everyRef
  rw [hconfig.localeCompare]
  unfold World.mirrorKey
  rw [hconfig.sha256Text]

/-- A photo stays, with its key, until it or its listing is deleted. -/
theorem photo_kept {photo : PhotoRef} {row : ListingPhoto} (h : w.photos.get photo = some row)
    (hdelete : s ≠ .deletePhoto photo) (hlisting : s ≠ .deleteWithPhotos row.listingId) :
    ∃ row', (World.exec s c w).2.photos.get photo = some row' ∧ row'.r2Key = row.r2Key := by
  cases c with
  | fails =>
    rw [exec_fails]
    exact ⟨row, h, rfl⟩
  | ok =>
    cases s with
    | createPhoto new =>
      simp only [World.exec, World.write, World.createPhoto]
      split
      · exact ⟨row, h, rfl⟩
      · split
        · exact ⟨row, h, rfl⟩
        · have hold : photo ≠ w.photos.fresh := by
            rintro rfl
            rw [w.photos.get_fresh] at h
            cases h
          exact ⟨row, by simpa [Table.get_set, hold] using h, rfl⟩
    | setBucket other bucket =>
      simp only [World.exec, World.write, World.updatePhoto]
      split
      · exact ⟨row, h, rfl⟩
      next old hold =>
        by_cases hsame : photo = other
        · subst hsame
          rw [h] at hold
          cases hold
          exact ⟨{ row with bucket := some bucket }, by simp, rfl⟩
        · exact ⟨row, by simpa [Table.get_set, hsame] using h, rfl⟩
    | deletePhoto other =>
      have hne : photo ≠ other := fun he => hdelete (he ▸ rfl)
      simp only [World.exec, World.write]
      rcases requireRow_cases w.photos other w
        { w with photos := w.photos.deleteMany fun other' _ => other' = other } with hw | hw
      · rw [hw]
        exact ⟨row, h, rfl⟩
      · rw [hw]
        exact ⟨row, by simp [h, hne], rfl⟩
    | reorderPhotos photos =>
      simp only [World.exec, World.write, World.reorderPhotos]
      split
      · refine ⟨_, by rw [Table.get_rewrite, h]; rfl, ?_⟩
        cases photos.findIdx? (· = photo) <;> rfl
      · exact ⟨row, h, rfl⟩
    | deleteWithPhotos listing =>
      have hne : row.listingId ≠ listing := fun he => hlisting (he ▸ rfl)
      simp only [World.exec, World.write, World.deleteWithPhotos]
      split
      · exact ⟨row, h, rfl⟩
      · exact ⟨row, by simp [h, hne], rfl⟩
    | _ =>
      rw [photos_spared (by simp [Stmt.part]) (by simp [Stmt.part])]
      exact ⟨row, h, rfl⟩

/-- A listing stays the seller's and, until it is deleted, of its report. -/
theorem row_kept {row : Listing} (h : w.listings.get listing = some row) :
    ∃ row', (World.exec s c w).2.listings.get listing = some row' ∧ row'.sellerId = row.sellerId ∧
      (s ≠ .deleteWithPhotos listing → row'.reportId = row.reportId) := by
  rcases listing_exec s c w listing with
    hsame | ⟨_, -, hnone, -⟩ | ⟨old, hold, hafter⟩
  · exact ⟨row, hsame ▸ h, rfl, fun _ => rfl⟩
  · rw [h] at hnone
    cases hnone
  · rw [h] at hold
    cases hold
    refine ⟨_, hafter, ?_⟩
    cases s with
    | deleteWithPhotos listing' =>
      simp only [Stmt.rowAfter]
      split
      next hl =>
        subst hl
        exact ⟨rfl, fun hne => absurd rfl hne⟩
      next => exact ⟨rfl, fun _ => rfl⟩
    | patchListing listing' dto => simp only [Stmt.rowAfter]; split <;> exact ⟨rfl, fun _ => rfl⟩
    | activateStandard listing' => simp only [Stmt.rowAfter]; split <;> exact ⟨rfl, fun _ => rfl⟩
    | unpublish listing' => simp only [Stmt.rowAfter]; split <;> exact ⟨rfl, fun _ => rfl⟩
    | markSold listing' => simp only [Stmt.rowAfter]; split <;> exact ⟨rfl, fun _ => rfl⟩
    | adminHide listing' reason => simp only [Stmt.rowAfter]; split <;> exact ⟨rfl, fun _ => rfl⟩
    | adminUnhide listing' at' => simp only [Stmt.rowAfter]; split <;> exact ⟨rfl, fun _ => rfl⟩
    | adminRemoveVideo listing' => simp only [Stmt.rowAfter]; split <;> exact ⟨rfl, fun _ => rfl⟩
    | stampMirrored listing' => simp only [Stmt.rowAfter]; split <;> exact ⟨rfl, fun _ => rfl⟩
    | clearMirrored listings => simp only [Stmt.rowAfter]; split <;> exact ⟨rfl, fun _ => rfl⟩
    | invalidateMirror report => simp only [Stmt.rowAfter]; split <;> exact ⟨rfl, fun _ => rfl⟩
    | _ => exact ⟨rfl, fun _ => rfl⟩

/-- The manifest of a report is the old one, or the one just written. -/
theorem manifestOf_exec {row row' : Listing} (hreport : row'.reportId = row.reportId) :
    (World.exec s c w).2.manifestOf row' = w.manifestOf row ∨
      ∃ report manifest, s = .writeManifest report manifest ∧ row.reportId = some report ∧
        (World.exec s c w).2.manifestOf row' = some manifest := by
  unfold World.manifestOf
  rw [hreport]
  by_cases hs : s.part = .reports
  · cases c with
    | fails =>
      rw [exec_fails]
      exact Or.inl rfl
    | ok =>
      cases s with
      | writeManifest report manifest =>
        simp only [World.exec, World.write, World.writeManifest]
        cases hget : w.reports.get report with
        | none => exact Or.inl rfl
        | some old =>
          by_cases hown : row.reportId = some report
          · exact Or.inr ⟨report, manifest, rfl, hown, by simp [hown]⟩
          · refine Or.inl ?_
            cases hid : row.reportId with
            | none => rfl
            | some other =>
              have hne : other ≠ report := fun he => hown (by rw [hid, he])
              simp [Table.get_set, hne]
      | _ => cases hs
  · rw [reports_spared hs]
    exact Or.inl rfl

/-- What leads to an object goes on to lead to it, but by a delete, or by a manifest that does not
list it any more. -/
theorem traced_exec (hkeys : KeysOwn w) (h : w.traced key)
    (hlisting : s ≠ .deleteWithPhotos key.listing)
    (hphoto : ∀ photo row, s = .deletePhoto photo → w.photos.get photo = some row →
      key ∉ copies row.r2Key)
    (hmanifest : ∀ report manifest row, s = .writeManifest report manifest →
      w.listings.get key.listing = some row → row.reportId = some report →
      key ∈ w.mirrorCopies key.listing (w.manifestOf row) →
      key ∈ w.mirrorCopies key.listing (some manifest)) :
    (World.exec s c w).2.traced key := by
  rcases h with ⟨photo, row, hrow, hkey⟩ | ⟨row, hrow, hkey⟩
  · have hdelete : s ≠ .deletePhoto photo := fun he => hphoto photo row he hrow hkey
    have hown : row.listingId = key.listing :=
      (hkeys photo row hrow).symm.trans (copies_listing hkey).symm
    obtain ⟨row', hrow', hr2⟩ := photo_kept (c := c) hrow hdelete (hown ▸ hlisting)
    exact Or.inl ⟨photo, row', hrow', hr2 ▸ hkey⟩
  · obtain ⟨row', hrow', -, hreport⟩ := row_kept (s := s) (c := c) hrow
    refine Or.inr ⟨row', hrow', ?_⟩
    rw [mirrorCopies_congr (exec_config s c w)]
    rcases manifestOf_exec (s := s) (c := c) (w := w) (hreport hlisting) with hsame |
      ⟨report, manifest, hs, hown, hnew⟩
    · exact hsame ▸ hkey
    · rw [hnew]
      exact hmanifest report manifest row hs hrow hown hkey

/-- The public objects are within reach of an erasure, but for `debts`. -/
structure Owed (debts : List PublicKey) (w : World) : Prop where
  keysOwn : KeysOwn w
  bucket : w.publicBucket.isSome
  r2Configured : w.r2Configured
  traced : ∀ key ∈ w.publicObjects, w.traced key ∨ key ∈ debts

/-- Neither an upload, nor a copy, nor the delete of a listing. -/
def Stmt.plain : Stmt → Prop
  | .createPhoto _ | .deleteWithPhotos _ | .publicPut _ _ => False
  | _ => True

variable {debts : List PublicKey}

theorem Owed.plain (h : Owed debts w) (hs : s.plain) (hC : withinReach 0 (.call s) c (w, ())) :
    Owed debts (World.exec s c w).2 := by
  have hconfig := exec_config s c w
  refine ⟨keysOwn_exec h.keysOwn fun row he => ?_, hconfig.publicBucket ▸ h.bucket,
    hconfig.r2Configured ▸ h.r2Configured, fun key hkey => ?_⟩
  · subst he
    exact hs.elim
  have hold : key ∈ w.publicObjects := by
    rcases publicObjects_exec (w := w) (s := s) (c := c) with hsame | ⟨writer, other, he, -⟩ |
      ⟨remover, other, -, herase⟩
    · exact hsame ▸ hkey
    · subst he
      exact hs.elim
    · exact Finset.mem_of_mem_erase (herase ▸ hkey)
  refine (h.traced key hold).imp_left fun htraced => ?_
  cases c with
  | fails =>
    rw [exec_fails]
    exact htraced
  | ok =>
    refine traced_exec h.keysOwn htraced ?_ ?_ ?_
    · rintro rfl
      exact hs
    · rintro photo row rfl hrow hcopy
      have hgone : w.unpublished (copies row.r2Key) := by simpa [withinReach, hrow] using hC
      exact unpublished_iff.mp hgone key hcopy hold
    · rintro report manifest row rfl hrow hown hcopy
      have hlisted : w.stillListed report manifest := by simpa [withinReach] using hC
      have hall := Table.any_eq_false.mp ((Bool.not_eq_true' _).mp hlisted) key.listing row hrow
      simp only [hown, true_and, decide_eq_false_iff_not, not_not, List.all_eq_true,
        Bool.or_eq_true, decide_eq_true_eq, List.elem_eq_mem] at hall
      exact (hall key hcopy).resolve_left (not_not.mpr hold)

/-- The public objects of these photos. -/
def storedCopies (photos : List ListingPhoto) : List PublicKey :=
  photos.flatMap fun photo => if photo.bucket.any (· ≠ "") then copies photo.r2Key else []

/-- The delete of a settled listing owes the deletes of what was read before it. -/
theorem Owed.delete {row : Listing} {mirrored : List PublicKey} (h : Owed [] w)
    (hrow : w.listings.get listing = some row) (hsettled : w.settled listing)
    (hmirrored : row.publicPhotosMirroredAt.isSome → ∀ key ∈ w.mirrorCopies listing
      (w.manifestOf row), key ∈ mirrored.flatMap copies) :
    Owed (storedCopies ((w.gallery listing).map Prod.snd) ++ mirrored.flatMap copies)
      (World.exec (.deleteWithPhotos listing) .ok w).2 := by
  have hconfig := exec_config (.deleteWithPhotos listing) .ok w
  have hpublic : (World.exec (.deleteWithPhotos listing) .ok w).2.publicObjects =
      w.publicObjects := publicObjects_spared (by simp [Stmt.part])
  obtain ⟨hphotos, hrows⟩ := Bool.and_eq_true_iff.mp hsettled
  refine ⟨keysOwn_exec h.keysOwn (fun _ he => by cases he), hconfig.publicBucket ▸ h.bucket,
    hconfig.r2Configured ▸ h.r2Configured, fun key hkey => ?_⟩
  rw [hpublic] at hkey
  have htraced : w.traced key := (h.traced key hkey).resolve_right (by simp)
  by_cases hl : key.listing = listing
  · refine Or.inr (List.mem_append.mpr ?_)
    subst hl
    rcases htraced with ⟨photo, held, hheld, hcopy⟩ | ⟨row', hrow', hcopy⟩
    · have hown : held.listingId = key.listing :=
        (h.keysOwn photo held hheld).symm.trans (copies_listing hcopy).symm
      have hbucket := Table.any_eq_false.mp ((Bool.not_eq_true' _).mp hphotos) photo held hheld
      have hstored : held.bucket.any (· ≠ "") := by
        by_contra hprivate
        have hgone : w.unpublished (copies held.r2Key) := by
          by_contra hpub
          exact of_decide_eq_false hbucket ⟨hown, hprivate, hpub⟩
        exact unpublished_iff.mp hgone key hcopy hkey
      have hmem : (photo, held) ∈ w.gallery key.listing :=
        (List.mem_insertionSort _).mpr (Table.mem_findMany.mpr ⟨hheld, by simpa using hown⟩)
      refine Or.inl (List.mem_flatMap.mpr ⟨held, List.mem_map.mpr ⟨_, hmem, rfl⟩, ?_⟩)
      rw [if_pos hstored]
      exact hcopy
    · rw [hrow] at hrow'
      cases hrow'
      refine Or.inr (hmirrored ?_ key hcopy)
      by_contra hstamp
      have hgone : w.unpublished (w.mirrorCopies key.listing (w.manifestOf row)) := by
        simpa [hrow, hstamp] using hrows
      exact unpublished_iff.mp hgone key hcopy hkey
  · refine Or.inl (traced_exec h.keysOwn htraced (fun he => hl ?_) (fun _ _ he => by cases he)
      fun _ _ _ he => by cases he)
    cases he
    rfl

/-- The photos of a listing, or of its report, that a mirror goes on to copy. -/
def Sourced (keys : List PublicKey) (w : World) : Prop :=
  Owed [] w ∧ ∀ key ∈ keys, ∀ k ∈ copies key, w.traced k

/-- The statements of a mirror that copies these. -/
def MirrorCopies (keys : List PublicKey) : Stmt → Prop
  | .publicPut _ k => ∃ key ∈ keys, k ∈ copies key
  | .setBucket _ _ | .stampMirrored _ => True
  | _ => False

theorem Sourced.exec {keys : List PublicKey} (h : Sourced keys w) (hs : MirrorCopies keys s) :
    Sourced keys (World.exec s c w).2 := by
  have hconfig := exec_config s c w
  have htraced (k : PublicKey) (hk : w.traced k) : (World.exec s c w).2.traced k := by
    refine traced_exec h.1.keysOwn hk ?_ ?_ ?_
    · rintro rfl
      exact hs
    · rintro photo row rfl
      exact hs.elim
    · rintro report manifest row rfl
      exact hs.elim
  refine ⟨⟨keysOwn_exec h.1.keysOwn fun row he => ?_, hconfig.publicBucket ▸ h.1.bucket,
    hconfig.r2Configured ▸ h.1.r2Configured, fun k hk => Or.inl ?_⟩,
    fun key hkey k hk => htraced k (h.2 key hkey k hk)⟩
  · subst he
    exact hs.elim
  · have hold (hmem : k ∈ w.publicObjects) : (World.exec s c w).2.traced k :=
      htraced k ((h.1.traced k hmem).resolve_right (by simp))
    rcases publicObjects_exec (w := w) (s := s) (c := c) with hsame | ⟨writer, new, he, hput⟩ |
      ⟨remover, other, -, herase⟩
    · exact hold (hsame ▸ hk)
    · subst he
      rcases Finset.mem_insert.mp (hput ▸ hk) with rfl | hmem
      · obtain ⟨key, hkey, hcopy⟩ := hs
        exact htraced k (h.2 key hkey k hcopy)
      · exact hold hmem
    · exact hold (Finset.mem_of_mem_erase (herase ▸ hk))

end World

section Calls

variable {α β : Type} {P : World → Prop} {Q : α → World → Prop} {X : Err → World → Prop}
  {listing : ListingRef} {debts : List PublicKey}

/-- The steps that meet both conditions. -/
def tracing (l : Label Site Stmt) (c : Fate) (w : World) : Prop :=
  (deletesSucceed 0 l c (w, ()) && withinReach 0 l c (w, ())) = true

abbrev Tracing (P : World → Prop) (p : Act α) (Q : α → World → Prop) (X : Err → World → Prop) :
    Prop :=
  Serial machine World.still tracing (fun _ => True) P p Q X

theorem Tracing.then {p : Act α} {f : α → Act β} {Q' : β → World → Prop}
    (h : Tracing P p Q X) (hf : ∀ a, Tracing (Q a) (f a) Q' X) : Tracing P (p >>= f) Q' X :=
  Discipline.Flow.seq h hf

theorem Tracing.read {site : Site} {f : World → α} (Q : α → World → Prop)
    (hQ : ∀ w, P w.still → Q (f w) w.still) : Tracing P (fetch site f) Q fun _ => P :=
  Serial.ask (fun _ _ => trivial) hQ fun _ _ h => h

/-- A part of the configuration that is known to be there. -/
theorem tracing_config {A : World → Prop} {f : World → Bool} (hA : ∀ w, A w.still → f w = true) :
    Tracing A (fetch .configured f) (fun configured x => A x ∧ configured = true) X := by
  refine Serial.fetch (fun _ _ => trivial) fun c w hw _ => ?_
  cases c with
  | ok => exact ⟨hw, hA w hw⟩
  | fails => exact ⟨hw, hA w hw⟩

theorem owed_still {w : World} : Owed debts w.still ↔ Owed debts w :=
  ⟨fun h => ⟨h.keysOwn, h.bucket, h.r2Configured, h.traced⟩,
    fun h => ⟨h.keysOwn, h.bucket, h.r2Configured, h.traced⟩⟩

/-- A program of plain statements. -/
theorem tracing_plain {p : Act α} (hp : p.Only Stmt.plain) :
    Tracing (Owed debts) p (fun _ => Owed debts) fun _ => Owed debts := by
  refine Serial.only hp (fun _ _ => trivial) fun s c w hs hok hw => ?_
  exact owed_still.mpr ((owed_still.mp hw).plain hs (Bool.and_eq_true_iff.mp hok).2)

theorem tracing_quiet {p : Act α} (hp : p.Only fun _ => False) :
    Tracing (Owed debts) p (fun _ => Owed debts) fun _ => Owed debts :=
  tracing_plain (hp.mono fun _ h => h.elim)

/-- Deletes of public objects, one after another, none of which fails. -/
theorem tracing_deletes {A : List PublicKey → World → Prop} {remover : Remover}
    (hA : ∀ key keys w, A (key :: keys) w → A keys { w with
      publicObjects := w.publicObjects.erase key })
    (hremover : remover ≠ .deletePhoto) (keys : List PublicKey) {rest : List PublicKey} :
    Tracing (A (keys ++ rest))
      (forEach keys fun key => (Prog.perform (Stmt.publicDelete remover key) : Act Unit))
      (fun _ => A rest) fun _ => A rest := by
  induction keys with
  | nil => exact Serial.pure fun _ h => h
  | cons key keys ih =>
    refine Tracing.then (Q := fun _ => A (keys ++ rest)) ?_ fun _ => ih
    refine Serial.perform fun c w hw hok => ⟨trivial, ?_⟩
    have hc : c = .ok := by simpa [tracing, deletesSucceed, withinReach, hremover] using hok
    subst hc
    exact hA key (keys ++ rest) w.still hw

theorem only_promote {keys : List PublicKey} {row : PhotoRef × ListingPhoto}
    (h : row.2.r2Key ∈ keys) : (promote row).Only (MirrorCopies keys) := by
  refine .seq (only_fetch _ _) fun found => .when fun _ => ?_
  refine .seq (only_publicPutObject fun k hk => ⟨_, h, hk⟩) fun bucket => ?_
  exact (only_perform _).mpr trivial

theorem only_mirrorRef {keys : List PublicKey} {key : PublicKey} {s3Key : String}
    (h : key ∈ keys) : (mirrorRef key s3Key).Only (MirrorCopies keys) := by
  refine .seq (only_fetch _ _) fun found => .when fun _ => ?_
  exact .seq (only_publicPutObject fun k hk => ⟨_, h, hk⟩) fun bucket => only_pure _

/-- A mirror copies what is within reach. -/
theorem tracing_mirror : Tracing (Owed []) (mirrorShowroomPhotos listing) (fun _ => Owed [])
    fun _ => Owed [] := by
  refine Tracing.then (Tracing.read (fun _ => Owed []) fun _ h => h) fun configured => ?_
  refine Discipline.Flow.ite (fun _ => Serial.pure fun _ h => h) fun _ => ?_
  have hrefs : Tracing (Owed [])
      (fetch (.mirrorListing listing) (·.toMirror listing) :
        Act (Option (List (PublicKey × String))))
      (fun found => Sourced ((found.getD []).map Prod.fst)) fun _ => Owed [] := by
    refine Tracing.read _ fun w hw => ⟨hw, fun key hkey k hk => ?_⟩
    obtain ⟨_, href, rfl⟩ := List.mem_map.mp hkey
    cases hrow : w.listings.get listing with
    | none => simp [World.toMirror, hrow] at href
    | some row =>
      simp only [World.toMirror, hrow, Option.map_some, Option.getD_some] at href
      obtain ⟨ref, hshown, rfl⟩ := List.mem_map.mp href
      have hl : k.listing = listing := copies_listing hk
      subst hl
      have hmirrored : w.mirrorKey k.listing ref ∈
          (w.everyRef (w.manifestOf row)).map (w.mirrorKey k.listing) :=
        List.mem_map.mpr ⟨ref, manifestPhotoRefs_subset hshown, rfl⟩
      exact Or.inr ⟨row, hrow, List.mem_flatMap.mpr ⟨_, hmirrored, hk⟩⟩
  refine Tracing.then hrefs fun found => ?_
  cases found with
  | none => exact Serial.pure fun _ h => h.1
  | some refs =>
    have hrows : Tracing (Sourced (refs.map Prod.fst)) (privateRows listing)
        (fun rows => Sourced (rows.map (·.2.r2Key) ++ refs.map Prod.fst)) fun _ => Owed [] := by
      refine Serial.ask (fun _ _ => trivial) (fun w hw => ⟨hw.1, fun key hkey k hk => ?_⟩)
        fun _ _ h => h.1
      rcases List.mem_append.mp hkey with hrow | href
      · obtain ⟨held, hheld, rfl⟩ := List.mem_map.mp hrow
        exact Or.inl ⟨held.1, held.2, (Table.mem_findSorted hheld).1, hk⟩
      · exact hw.2 key href k hk
    refine Tracing.then hrows fun rows => ?_
    have hcopy : Tracing (Sourced (rows.map (·.2.r2Key) ++ refs.map Prod.fst)) (do
        let unpromoted ← countEach rows fun row => failed (promote row)
        let unmirrored ← countEach refs fun ref => failed (mirrorRef ref.1 ref.2)
        Prog.when (unpromoted + unmirrored = 0) (stampMirrored listing)
        pure (unpromoted + unmirrored))
        (fun _ => Sourced (rows.map (·.2.r2Key) ++ refs.map Prod.fst))
        fun _ => Sourced (rows.map (·.2.r2Key) ++ refs.map Prod.fst) := by
      refine Serial.only (F := MirrorCopies (rows.map (·.2.r2Key) ++ refs.map Prod.fst)) ?_
        (fun _ _ => trivial) fun s c w hs _ hw => ?_
      · refine .seq (only_countEach fun row hrow => only_failed (only_promote ?_)) fun n => ?_
        · exact List.mem_append.mpr (Or.inl (List.mem_map.mpr ⟨row, hrow, rfl⟩))
        refine .seq (only_countEach fun ref href => only_failed (only_mirrorRef ?_)) fun k => ?_
        · exact List.mem_append.mpr (Or.inr (List.mem_map.mpr ⟨ref, href, rfl⟩))
        exact .seq (.when fun _ => (only_perform _).mpr trivial) fun _ => only_pure _
      · have hafter := Sourced.exec (s := s) (c := c) ⟨owed_still.mp hw.1, hw.2⟩ hs
        exact ⟨owed_still.mpr hafter.1, hafter.2⟩
    exact hcopy.post (fun _ _ h => h.1) fun _ _ h => h.1

theorem tracing_publish {user : UserRef} : Tracing (Owed []) (publish user listing)
    (fun _ => Owed []) fun _ => Owed [] := by
  refine Tracing.then (tracing_quiet only_requireOwnedListing) fun row => ?_
  refine Discipline.Flow.ite (fun _ => Serial.throw fun _ h => h) fun _ => ?_
  refine Tracing.then (tracing_quiet only_assertPublishable) fun _ => ?_
  refine Tracing.then (tracing_plain ((only_perform _).mpr trivial)) fun _ => ?_
  refine Tracing.then (tracing_quiet (only_fetch _ _)) fun found => ?_
  cases found with
  | none => exact Serial.pure fun _ h => h
  | some row => exact Discipline.Flow.quietly tracing_mirror

theorem tracing_pending {batchSize : Nat} : Tracing (Owed [])
    (mirrorPendingShowroomPhotos batchSize) (fun _ => Owed []) fun _ => Owed [] := by
  refine Tracing.then (tracing_quiet (only_fetch _ _)) fun configured => ?_
  refine Discipline.Flow.when (fun _ => ?_) fun _ _ h => h
  refine Tracing.then (tracing_quiet (only_fetch _ _)) fun pending => ?_
  exact Discipline.Flow.forEach fun listing _ => Discipline.Flow.quietly tracing_mirror

/-- What is stored under a key that is owed. -/
theorem Owed.put {w : World} {key : PublicKey} (h : Owed debts w) (c : Fate) (writer : Writer)
    (hkey : key ∈ debts) : Owed debts (World.exec (.publicPut writer key) c w).2 := by
  have hconfig := exec_config (.publicPut writer key) c w
  refine ⟨keysOwn_exec h.keysOwn (fun _ he => by cases he), hconfig.publicBucket ▸ h.bucket,
    hconfig.r2Configured ▸ h.r2Configured, fun k hk => ?_⟩
  have hold (hmem : k ∈ w.publicObjects) :
      (World.exec (.publicPut writer key) c w).2.traced k ∨ k ∈ debts :=
    (h.traced k hmem).imp_left fun ht =>
      traced_exec h.keysOwn ht (by simp) (fun _ _ he => by cases he) fun _ _ _ he => by cases he
  rcases publicObjects_exec (w := w) (s := .publicPut writer key) (c := c) with hsame |
    ⟨_, new, he, hput⟩ | ⟨remover, other, he, -⟩
  · exact hold (hsame ▸ hk)
  · cases he
    rcases Finset.mem_insert.mp (hput ▸ hk) with rfl | hmem
    · exact Or.inr hkey
    · exact hold hmem
  · cases he

/-- A stored upload owes its objects. -/
theorem tracing_storeUpload {key : PublicKey} : Tracing (Owed []) (storeUpload key)
    (fun _ => Owed (copies key)) fun _ => Owed [] := by
  refine Tracing.then (Tracing.read (fun configured x => Owed [] x ∧ configured = true)
    fun w hw => ⟨hw, hw.bucket⟩) fun configured => Serial.fact fun hbucket => ?_
  rw [if_pos hbucket]
  have hput : Tracing (Owed []) (Prog.perform (Stmt.publicPut .addPhoto key) : Act String)
      (fun _ => Owed (copies key)) fun _ => Owed [] := by
    refine Serial.perform fun c w hw _ => ⟨trivial, ?_⟩
    have howed : Owed (copies key) w := by
      refine ⟨hw.keysOwn, hw.bucket, hw.r2Configured, fun k hk => Or.inl ?_⟩
      exact (hw.traced k hk).resolve_right (by simp)
    have hmem : key ∈ copies key := by simp [copies]
    have hafter := howed.put c .addPhoto hmem
    cases c with
    | fails => exact hw
    | ok =>
      obtain ⟨bucket, hbucket⟩ := Option.isSome_iff_exists.mp howed.bucket
      have hanswer : World.exec (.publicPut .addPhoto key) .ok w =
          (.ok bucket, { w with publicObjects := insert key w.publicObjects }) := by
        simp [World.exec, World.write, World.publicPut, hbucket]
      rw [hanswer] at hafter
      show Discipline.onAnswer _ _ (World.exec (.publicPut .addPhoto key) .ok w).1
        (World.exec (.publicPut .addPhoto key) .ok w).2.still
      rw [hanswer]
      exact owed_still.mpr hafter
  have hsmall (smallKey : PublicKey) (h : smallKey ∈ copies key) :
      Tracing (Owed (copies key)) (putSmallCopy .addPhoto smallKey)
        (fun _ => Owed (copies key)) fun _ => Owed (copies key) := by
    refine Serial.only (F := fun s => s = .publicPut .addPhoto smallKey)
      (.seq ((only_perform _).mpr rfl) fun _ => only_pure _) (fun _ _ => trivial)
      fun s c w hs _ hw => ?_
    subst hs
    exact owed_still.mpr ((owed_still.mp hw).put c .addPhoto h)
  refine Tracing.then (Tracing.then hput fun bucket => ?_) fun bucket =>
    Serial.pure fun _ h => h
  cases hthumb : thumbnailKey key with
  | none => exact Serial.pure fun _ h => h
  | some smallKey =>
    have hquiet := hsmall smallKey (by simp [copies, hthumb])
    exact Tracing.then (Discipline.Flow.quietly hquiet) fun _ => Serial.pure fun _ h => h

/-- The row of an upload pays for its objects. -/
theorem Owed.create {w : World} {c : Fate} {row : ListingPhoto} (h : Owed (copies row.r2Key) w)
    (hrow : row.r2Key.listing = row.listingId)
    (hget : (World.exec (.createPhoto row) c w).2.photos.get w.photos.fresh = some row) :
    Owed [] (World.exec (.createPhoto row) c w).2 := by
  have hconfig := exec_config (.createPhoto row) c w
  refine ⟨keysOwn_exec h.keysOwn fun row' he => ?_, hconfig.publicBucket ▸ h.bucket,
    hconfig.r2Configured ▸ h.r2Configured, fun key hkey => Or.inl ?_⟩
  · cases he
    exact hrow
  · rw [publicObjects_spared (by simp [Stmt.part])] at hkey
    rcases h.traced key hkey with htraced | hdebt
    · exact traced_exec h.keysOwn htraced (by simp) (fun _ _ he => by cases he)
        fun _ _ _ he => by cases he
    · exact Or.inl ⟨_, row, hget, hdebt⟩

theorem createPhoto_answered {w : World} {c : Fate} {row : ListingPhoto}
    (h : refused (.call (.createPhoto row)) c w = false) :
    (World.exec (.createPhoto row) c w).1 = .ok w.photos.fresh ∧
      (World.exec (.createPhoto row) c w).2.photos.get w.photos.fresh = some row := by
  cases c with
  | fails => cases h
  | ok =>
    simp only [refused, World.exec, World.write, World.createPhoto] at h ⊢
    split at h
    next hanswer =>
      split at hanswer
      · cases hanswer
      next hlisting =>
        split at hanswer
        · cases hanswer
        next hunique => simp [hlisting, hunique]
    next => cases h

theorem tracing_createPhoto (row : ListingPhoto) (hrow : row.r2Key.listing = row.listingId) :
    Tracing (Owed (copies row.r2Key)) (createPhoto row) (fun _ => Owed []) fun _ => Owed [] := by
  refine Serial.perform fun c w hw hok => ⟨trivial, ?_⟩
  have howed := owed_still.mp hw
  have hrefused : refused (.call (.createPhoto row)) c w = false := by
    have hC := (Bool.and_eq_true_iff.mp hok).2
    simpa [withinReach, Option.isNone_eq_false_iff.mpr howed.bucket] using hC
  obtain ⟨hanswer, hget⟩ := createPhoto_answered hrefused
  have hafter := owed_still.mpr (howed.create hrow hget)
  show Discipline.onAnswer _ _ (World.exec (.createPhoto row) c w).1 _
  rw [hanswer]
  exact hafter

theorem tracing_addPhoto {user : UserRef} {dto : UploadListingPhoto} :
    Tracing (Owed []) (addPhoto user listing dto) (fun _ => Owed []) fun _ => Owed [] := by
  refine Tracing.then (tracing_quiet only_requireOwnedListing) fun row => ?_
  refine Tracing.then (tracing_quiet (only_fetch _ _)) fun configured => ?_
  refine Discipline.Flow.ite (fun _ => Serial.throw fun _ h => h) fun _ => ?_
  refine Tracing.then (tracing_quiet (only_fetch _ _)) fun count => ?_
  refine Discipline.Flow.ite (fun _ => Serial.throw fun _ h => h) fun _ => ?_
  refine Tracing.then (tracing_quiet (only_fetch _ _)) fun originalHash => ?_
  refine Discipline.Flow.ite (fun _ => Serial.throw fun _ h => h) fun _ => ?_
  refine Tracing.then (tracing_quiet (only_fetch _ _)) fun duplicate => ?_
  cases duplicate with
  | some photo => exact Serial.pure fun _ h => h
  | none =>
    refine Discipline.Flow.ite (fun _ => Serial.throw fun _ h => h) fun _ => ?_
    refine Tracing.then tracing_storeUpload fun bucket => ?_
    have hhighest : Tracing (Owed (copies (uploadKey listing dto.uuid)))
        (fetch .highestOrder (·.highestOrder listing) : Act (Option Int))
        (fun _ => Owed (copies (uploadKey listing dto.uuid))) fun _ => Owed [] := by
      refine Serial.fetch (fun _ _ => trivial) fun c w hw hok => ?_
      have hC := (Bool.and_eq_true_iff.mp hok).2
      have hc : c = .ok := by
        simpa [withinReach, Option.isNone_eq_false_iff.mpr (owed_still.mp hw).bucket] using hC
      subst hc
      exact hw
    refine Tracing.then hhighest fun highest => ?_
    exact tracing_createPhoto ⟨listing, uploadKey listing dto.uuid, bucket, some originalHash, _,
      dto.caption⟩ rfl

/-- Deletes of photos from the public bucket, whose errors nobody waits for. -/
theorem tracing_sweep {A : List PublicKey → World → Prop} {remover : Remover}
    (hA : ∀ key keys w, A (key :: keys) w → A keys { w with
      publicObjects := w.publicObjects.erase key })
    (hremover : remover ≠ .deletePhoto) (keys : List PublicKey) :
    Tracing (A (keys.flatMap copies))
      (forEach keys fun key => quietly (publicDeleteObject remover key)) (fun _ => A []) X := by
  induction keys with
  | nil => exact Serial.pure fun _ h => h
  | cons key keys ih =>
    have hkey : Tracing (A (copies key ++ keys.flatMap copies)) (publicDeleteObject remover key)
        (fun _ => A (keys.flatMap copies)) fun _ => A (keys.flatMap copies) :=
      tracing_deletes hA hremover (copies key)
    exact Tracing.then (Discipline.Flow.quietly hkey) fun _ => ih

/-- A delete from the public bucket pays for what it deletes. -/
theorem Owed.pay {key : PublicKey} {w : World} (h : Owed (key :: debts) w) :
    Owed debts { w with publicObjects := w.publicObjects.erase key } := by
  refine ⟨h.keysOwn, h.bucket, h.r2Configured, fun k hk => ?_⟩
  obtain ⟨hne, hmem⟩ := Finset.mem_erase.mp hk
  rcases h.traced k hmem with htraced | hdebt
  · exact Or.inl htraced
  · exact Or.inr ((List.mem_cons.mp hdebt).resolve_left hne)

theorem tracing_deleteStored {photo : ListingPhoto} {rest : List PublicKey} :
    Tracing (Owed (storedCopies [photo] ++ rest)) (deleteStored .deleteWithPhotos photo)
      (fun _ => Owed rest) fun _ => Owed rest := by
  refine Tracing.then (tracing_config fun w hw => hw.bucket) fun configured =>
    Serial.fact fun hconfigured => ?_
  subst hconfigured
  unfold storedCopies photoLocation
  by_cases hstored : photo.bucket.any (· ≠ "")
  · simp only [hstored, List.flatMap_cons, List.flatMap_nil, List.append_nil, if_true,
      Bool.and_self]
    exact tracing_deletes (A := Owed) (fun _ _ _ h => h.pay) (by simp) (copies photo.r2Key)
  · simp only [hstored, List.flatMap_cons, List.flatMap_nil, List.append_nil, if_false,
      Bool.false_and, List.nil_append, Bool.false_eq_true]
    exact tracing_plain ((only_perform _).mpr trivial)

theorem tracing_deletePhotos (photos : List ListingPhoto) {rest : List PublicKey} :
    Tracing (Owed (storedCopies photos ++ rest))
      (forEach photos fun photo => quietly (deleteStored .deleteWithPhotos photo))
      (fun _ => Owed rest) X := by
  induction photos with
  | nil => exact Serial.pure fun _ h => h
  | cons photo photos ih =>
    have hphoto : Tracing (Owed (storedCopies [photo] ++ (storedCopies photos ++ rest)))
        (deleteStored .deleteWithPhotos photo) (fun _ => Owed (storedCopies photos ++ rest))
        fun _ => Owed (storedCopies photos ++ rest) := tracing_deleteStored
    have hcons : storedCopies (photo :: photos) ++ rest =
        storedCopies [photo] ++ (storedCopies photos ++ rest) := by
      simp [storedCopies]
    rw [hcons]
    exact Tracing.then (Discipline.Flow.quietly hphoto) fun _ => ih

theorem tracing_delete {row : Listing} :
    Tracing (fun x => Owed [] x ∧ x.listings.get listing = some row)
      (deleteWithPhotos listing row) (fun _ => Owed []) fun _ => Owed [] := by
  have hread : Tracing (fun x => Owed [] x ∧ x.listings.get listing = some row)
      (fetch .listPhotos fun w => (w.gallery listing).map Prod.snd : Act (List ListingPhoto))
      (fun photos x => Owed [] x ∧ x.listings.get listing = some row ∧
        photos = (x.gallery listing).map Prod.snd) fun _ => Owed [] :=
    Serial.ask (fun _ _ => trivial) (fun w hw => ⟨hw.1, hw.2, rfl⟩) fun _ _ h => h.1
  refine Tracing.then hread fun photos => ?_
  have hkeys : Tracing (fun x => Owed [] x ∧ x.listings.get listing = some row ∧
        photos = (x.gallery listing).map Prod.snd) (mirroredPublicKeys listing row)
      (fun mirrored x => Owed [] x ∧ x.listings.get listing = some row ∧
        photos = (x.gallery listing).map Prod.snd ∧ (row.publicPhotosMirroredAt.isSome →
          ∀ key ∈ x.mirrorCopies listing (x.manifestOf row), key ∈ mirrored.flatMap copies))
      fun _ => Owed [] := by
    refine Tracing.then (tracing_config fun w hw => hw.1.bucket) fun configured =>
      Serial.fact fun hconfigured => ?_
    rw [if_neg (by simp [hconfigured])]
    cases hreport : row.reportId with
    | none =>
      refine Serial.pure fun x hx => ⟨hx.1, hx.2.1, hx.2.2, fun _ key hkey => ?_⟩
      have hnone : x.manifestOf row = none := by rw [World.manifestOf, hreport]; rfl
      rw [hnone] at hkey
      cases hkey
    | some report =>
      cases hstamp : row.publicPhotosMirroredAt with
      | none => exact Serial.pure fun x hx => ⟨hx.1, hx.2.1, hx.2.2, nofun⟩
      | some stamp =>
        refine Serial.ask (fun _ _ => trivial) (fun w hw => ⟨hw.1, hw.2.1, hw.2.2, ?_⟩)
          fun _ _ h => h.1
        intro _ key hkey
        rw [World.manifestOf, hreport] at hkey
        exact hkey
  refine Tracing.then hkeys fun mirrored => ?_
  have hdelete : Tracing (fun x => Owed [] x ∧ x.listings.get listing = some row ∧
        photos = (x.gallery listing).map Prod.snd ∧ (row.publicPhotosMirroredAt.isSome →
          ∀ key ∈ x.mirrorCopies listing (x.manifestOf row), key ∈ mirrored.flatMap copies))
      (Prog.perform (Stmt.deleteWithPhotos listing) : Act Unit)
      (fun _ => Owed (storedCopies photos ++ mirrored.flatMap copies)) fun _ => Owed [] := by
    refine Serial.perform fun c w hw hok => ⟨trivial, ?_⟩
    obtain ⟨howed, hrow, rfl, hmirrored⟩ := hw
    cases c with
    | fails => exact howed
    | ok =>
      have hsettled : w.settled listing := by
        simpa [withinReach] using (Bool.and_eq_true_iff.mp hok).2
      have hafter := owed_still.mpr ((owed_still.mp howed).delete hrow hsettled hmirrored)
      have hrow : w.listings.get listing = some row := hrow
      have hanswer : (World.exec (.deleteWithPhotos listing) .ok w).1 = .ok () := by
        simp [World.exec, World.write, World.deleteWithPhotos, hrow]
      show Discipline.onAnswer _ _ (World.exec (.deleteWithPhotos listing) .ok w).1 _
      rw [hanswer]
      exact hafter
  refine Tracing.then hdelete fun _ => ?_
  refine Tracing.then (tracing_config fun w hw => hw.r2Configured) fun configured =>
    Serial.fact fun hconfigured => ?_
  refine Discipline.Flow.when (fun _ => ?_) fun hnot => absurd hconfigured hnot
  refine Tracing.then (Q := fun _ => Owed (mirrored.flatMap copies)) ?_ fun _ => ?_
  · exact tracing_deletePhotos photos
  · exact tracing_sweep (A := Owed) (fun _ _ _ h => h.pay) (by simp) mirrored

/-- The answer of a lookup is the row of the listing. -/
theorem tracing_requireListing : Tracing (Owed []) (requireListing listing)
    (fun row x => Owed [] x ∧ x.listings.get listing = some row) fun _ => Owed [] := by
  refine Tracing.then (Tracing.read (fun found x => Owed [] x ∧ x.listings.get listing = found)
    fun w h => ⟨h, rfl⟩) fun found => ?_
  cases found with
  | none => exact Serial.throw fun _ h => h.1
  | some row => exact Serial.pure fun _ h => h

theorem tracing_requireOwnedListing {user : UserRef} :
    Tracing (Owed []) (requireOwnedListing user listing)
      (fun row x => Owed [] x ∧ x.listings.get listing = some row) fun _ => Owed [] := by
  refine Tracing.then (Tracing.read (fun found x => Owed [] x ∧ x.listings.get listing = found)
    fun w h => ⟨h, rfl⟩) fun found => ?_
  cases found with
  | none => exact Serial.throw fun _ h => h.1
  | some row =>
    exact Discipline.Flow.ite (fun _ => Serial.throw fun _ h => h.1)
      fun _ => Serial.pure fun _ h => h

theorem tracing_answered {p : Act α}
    (hp : Tracing (Owed []) p (fun _ => Owed []) fun _ => Owed []) :
    Tracing (Owed []) (answered p) (fun _ => Owed []) fun _ => Owed [] :=
  Tracing.then hp fun _ => Serial.pure fun _ h => h

/-- Every call keeps the public objects within reach. -/
theorem tracing_call (call : Call) :
    Tracing (Owed []) call.prog (fun _ => Owed []) fun _ => Owed [] := by
  cases call with
  | publish user listing => exact tracing_publish
  | mirrorShowroomPhotos listing => exact tracing_answered tracing_mirror
  | mirrorPendingShowroomPhotos batchSize => exact tracing_pending
  | addPhoto user listing dto => exact tracing_answered tracing_addPhoto
  | remove user listing =>
    refine Tracing.then tracing_requireOwnedListing fun row => ?_
    exact Discipline.Flow.ite (fun _ => Serial.throw fun _ h => h.1) fun _ => tracing_delete
  | adminDelete listing =>
    refine Tracing.then tracing_requireListing fun row => ?_
    refine Discipline.Flow.ite (fun _ => Serial.throw fun _ h => h.1) fun _ => ?_
    refine Tracing.then tracing_delete fun _ => ?_
    exact tracing_quiet (.seq only_requireListing fun _ => only_pure _)
  | _ =>
    refine tracing_plain ((Call.only_issues _).mono fun s hs => ?_)
    cases s <;> trivial

/-- The public objects of the seller that are still to be deleted. -/
def Unerased (seller : UserRef) (debts : List PublicKey) (w : World) : Prop :=
  ∀ key ∈ w.publicObjects, w.ownedBy seller key.listing → key ∈ debts

theorem Unerased.pay {seller : UserRef} {key : PublicKey} {w : World}
    (h : Unerased seller (key :: debts) w) :
    Unerased seller debts { w with publicObjects := w.publicObjects.erase key } := by
  intro k hk hown
  obtain ⟨hne, hmem⟩ := Finset.mem_erase.mp hk
  exact (List.mem_cons.mp (h k hmem hown)).resolve_left hne

/-- What an erasure reads of a settled seller is all there is. -/
theorem unerased_read {w : World} {seller : UserRef} (h : Owed [] w)
    (hsettled : ∀ listing row, w.listings.get listing = some row → row.sellerId = seller →
      w.settled listing) : Unerased seller ((w.publicRows seller ++
        (w.stampedListings seller).flatMap Prod.snd).flatMap copies) w := by
  intro key hkey hown
  obtain ⟨row, hrow, hseller⟩ : ∃ row, w.listings.get key.listing = some row ∧
      row.sellerId = seller := by
    simpa [World.ownedBy, Option.any_eq_true] using hown
  obtain ⟨hphotos, hrows⟩ := Bool.and_eq_true_iff.mp (hsettled _ row hrow hseller)
  rw [List.flatMap_append, List.mem_append]
  rcases (h.traced key hkey).resolve_right (by simp) with ⟨photo, held, hheld, hcopy⟩ |
    ⟨row', hrow', hcopy⟩
  · have howner : held.listingId = key.listing :=
      (h.keysOwn photo held hheld).symm.trans (copies_listing hcopy).symm
    have hbucket := Table.any_eq_false.mp ((Bool.not_eq_true' _).mp hphotos) photo held hheld
    have hstored : held.bucket.isSome := by
      by_contra hprivate
      have hnone : held.bucket = none := by simpa using hprivate
      refine of_decide_eq_false hbucket ⟨howner, by simp [hnone], fun hgone => ?_⟩
      exact unpublished_iff.mp hgone key hcopy hkey
    refine Or.inl (List.mem_flatMap.mpr ⟨held.r2Key, List.mem_map.mpr ⟨(photo, held), ?_, rfl⟩,
      hcopy⟩)
    refine Table.mem_findMany.mpr ⟨hheld, Bool.and_eq_true_iff.mpr ⟨hstored, ?_⟩⟩
    rw [howner, hrow]
    simpa using hseller
  · rw [hrow] at hrow'
    cases hrow'
    have hstamp : row.publicPhotosMirroredAt.isSome := by
      by_contra hstamp
      have hgone : w.unpublished (w.mirrorCopies key.listing (w.manifestOf row)) := by
        simpa [hrow, hstamp] using hrows
      exact unpublished_iff.mp hgone key hcopy hkey
    obtain ⟨mirrored, hmirrored, hcopy⟩ := List.mem_flatMap.mp hcopy
    refine Or.inr (List.mem_flatMap.mpr ⟨mirrored, List.mem_flatMap.mpr ⟨_, List.mem_map.mpr
      ⟨(key.listing, row), ?_, rfl⟩, hmirrored⟩, hcopy⟩)
    exact Table.mem_findMany.mpr ⟨hrow, by simp [hseller, hstamp]⟩

/-- Clearing the stamps leaves the objects, and their owners. -/
theorem Unerased.clear {seller : UserRef} {listings : List ListingRef} {c : Fate} {w : World}
    (h : Unerased seller debts w) :
    Unerased seller debts (World.exec (.clearMirrored listings) c w).2 := by
  intro key hkey hown
  rw [publicObjects_spared (by simp [Stmt.part])] at hkey
  refine h key hkey ?_
  unfold World.ownedBy at hown ⊢
  cases hrow : w.listings.get key.listing with
  | none =>
    rcases listing_exec (.clearMirrored listings) c w key.listing
      with hsame | ⟨_, he, -⟩ | ⟨row, hsome, -⟩
    · rw [hsame, hrow] at hown
      cases hown
    · cases he
    · rw [hrow] at hsome
      cases hsome
  | some row =>
    obtain ⟨row', hrow', hseller, -⟩ := row_kept (s := .clearMirrored listings) (c := c) hrow
    rw [hrow'] at hown
    simpa [hseller] using hown

/-- An erasure that finds everything settled leaves nothing of the seller. -/
theorem tracing_erase {seller : UserRef} : Tracing (Owed []) (erasePublicPhotoObjects seller)
    (fun _ => Unerased seller []) fun _ => Unerased seller [] := by
  refine Tracing.then (tracing_config fun w hw => hw.bucket) fun configured =>
    Serial.fact fun hconfigured => ?_
  refine Discipline.Flow.when (fun _ => ?_) fun hnot => absurd hconfigured hnot
  have hrows : Tracing (Owed []) (fetch (.publicRows seller) (·.publicRows seller) :
      Act (List PublicKey)) (fun rows x => rows = x.publicRows seller ∧ Unerased seller
        ((x.publicRows seller ++ (x.stampedListings seller).flatMap Prod.snd).flatMap copies) x)
      fun _ => Unerased seller [] := by
    refine Serial.fetch (fun _ _ => trivial) fun c w hw hok => ?_
    obtain ⟨hc, hall⟩ := Bool.and_eq_true_iff.mp (Bool.and_eq_true_iff.mp hok).2
    have hc : c = .ok := of_decide_eq_true hc
    subst hc
    refine ⟨rfl, unerased_read hw fun listing row hrow hseller => ?_⟩
    have hnone := Table.any_eq_false.mp ((Bool.not_eq_true' _).mp hall) listing row hrow
    by_contra hopen
    exact of_decide_eq_false hnone ⟨hseller, hopen⟩
  refine Tracing.then hrows fun rows => ?_
  have hlistings : Tracing (fun x => rows = x.publicRows seller ∧ Unerased seller
        ((x.publicRows seller ++ (x.stampedListings seller).flatMap Prod.snd).flatMap copies) x)
      (fetch .stampedListings (·.stampedListings seller) :
        Act (List (ListingRef × List PublicKey)))
      (fun listings => Unerased seller ((rows ++ listings.flatMap Prod.snd).flatMap copies))
      fun _ => Unerased seller [] := by
    refine Serial.fetch (fun _ _ => trivial) fun c w hw hok => ?_
    have hc : c = .ok := of_decide_eq_true (Bool.and_eq_true_iff.mp hok).2
    subst hc
    obtain ⟨rfl, hleft⟩ := hw
    exact hleft
  refine Tracing.then hlistings fun listings => ?_
  have hsweep : Tracing (Unerased seller ((rows ++ listings.flatMap Prod.snd).flatMap copies))
      (forEach (rows ++ listings.flatMap Prod.snd) fun key =>
        quietly (publicDeleteObject .erasePublicPhotoObjects key))
      (fun _ => Unerased seller []) fun _ => Unerased seller [] :=
    tracing_sweep (A := Unerased seller) (fun _ _ _ h => h.pay) (by simp) _
  refine Tracing.then hsweep fun _ => Discipline.Flow.when (fun _ => ?_) fun _ _ h => h
  refine Serial.only (F := fun s => s = .clearMirrored (listings.map Prod.fst))
    ((only_perform _).mpr rfl) (fun _ _ => trivial) fun s c w hs _ hw => ?_
  subst hs
  exact Unerased.clear hw

end Calls

section Runs

variable {w : World} {calls : List Call} {seller : UserRef} {g : Run Unit}

/-- Without a public bucket there are no public objects. -/
theorem nothing_public {C : StepGuard Unit} {g₀ : Run Unit} (hbucket : g₀.state.publicBucket = none)
    (hempty : g₀.state.publicObjects = ∅) (hg : Pool.Reach machine noRecord C g₀ g) :
    g.state.publicObjects = ∅ := by
  have hboth := hg.invariant
    (I := fun x => x.1.publicBucket = none ∧ x.1.publicObjects = ∅) ⟨hbucket, hempty⟩ ?_
  · exact hboth.2
  · intro x y hx hstep
    cases hstep with
    | ask t l c meets => exact hx
    | env c => exact hx
    | call t s c meets =>
      refine ⟨(exec_config s c x.1).publicBucket.trans hx.1, ?_⟩
      show (World.exec s c x.1).2.publicObjects = ∅
      rcases publicObjects_exec (w := x.1) (s := s) (c := c) with h | ⟨writer, key, rfl, -⟩ |
        ⟨remover, key, rfl, h⟩
      · exact h.trans hx.2
      · cases c with
        | fails => exact hx.2
        | ok =>
          have hnone : World.exec (.publicPut writer key) .ok x.1 = (.error .storage, x.1) := by
            simp [World.exec, World.write, World.publicPut, hx.1]
          rw [hnone]
          exact hx.2
      · rw [h, hx.2]
        rfl

/-- While uploads get their rows, photos go only after their objects, manifests go on to list what
is copied, and what is deleted or erased is settled, an erasure leaves no public photo. -/
theorem nothing_left (w : World) (calls : List Call) (seller : UserRef) (g : Run Unit)
    (hempty : w.publicObjects = ∅) (hkeys : KeysOwn w)
    (hconfig : w.publicBucket.isSome → w.r2Configured)
    (hg : Pool.Reach machine noRecord (fun t l c x => deletesSucceed t l c x && withinReach t l c x)
      (sequence w () (calls ++ [.erasePublicPhotoObjects seller])) g)
    (hend : g.AllEnded) : Erased seller g.state := by
  by_cases hbucket : w.publicBucket.isSome
  · have hprog : Tracing (Owed []) (series ((calls ++ [Call.erasePublicPhotoObjects seller]).map
        Call.prog)) (fun _ => Unerased seller []) fun _ => Unerased seller [] := by
      rw [List.map_append]
      refine Serial.series_last (fun p hp => ?_) tracing_erase
      obtain ⟨call, -, rfl⟩ := List.mem_map.mp hp
      exact tracing_call call
    have hstart : Owed [] w.still := by
      refine ⟨hkeys, hbucket, hconfig hbucket, fun key hkey => ?_⟩
      have hkey : key ∈ w.publicObjects := hkey
      simp [hempty] at hkey
    obtain ⟨-, q, hq, hstanding⟩ := Serial.reach hprog (fun _ _ => rfl) (fun _ _ _ _ h => h)
      hstart trivial hg
    have hended : q.Ended := hend q (by simp [hq])
    have hleft : Unerased seller [] g.state := by
      cases q with
      | ret a => exact hstanding
      | raise e => exact hstanding
      | ask l f k => cases hended
      | call s k => cases hended
    intro key hkey
    by_contra hown
    exact absurd (hleft key hkey (by simpa using hown)) (by simp)
  · intro key hkey
    have hnone : w.publicBucket = none := by simpa using hbucket
    rw [nothing_public hnone hempty hg] at hkey
    simp at hkey

end Runs

section Remains

theorem keysOwn_onePhoto : KeysOwn onePhoto := fun _ _ h => nomatch h

/-- Whether all have ended, and whether nothing public of the seller is left. -/
def remains (g : Run Unit) : Bool × Bool := (decide g.AllEnded, decide (Erased 1 g.state))

/-- A report whose photos changed since they were copied: the copies are out of reach. -/
theorem copied_then_dropped : ¬ ErasureLaw anyStep := by
  intro hlaw
  have hrun : Pool.observe machine noRecord
      (fun t l c x => deletesSucceed t l c x && anyStep t l c x) remains
      (.replicate 18 (.run 0 .ok)) (.run 0 .ok) (sequence onePhoto ()
        ([.mirrorShowroomPhotos 1, .uploadReportPhoto "device" 1 secondPhoto] ++
          [.erasePublicPhotoObjects 1])) = some ((false, false), (true, false)) := by
    decide +kernel
  obtain ⟨g, g', hg, hm, hs, -, hafter⟩ := Pool.observe_eq hrun
  have hend : g'.AllEnded := of_decide_eq_true (congrArg Prod.fst hafter)
  have hleft : ¬Erased 1 g'.state := of_decide_eq_false (congrArg Prod.snd hafter)
  exact hleft (hlaw onePhoto _ 1 g' rfl keysOwn_onePhoto (fun _ => rfl) (.next hg hm hs) hend)

/-- A mirrored listing is erased. -/
theorem copied_then_erased : ∃ g : Run Unit, g.AllEnded ∧ Erased 1 g.state := by
  have hrun : Pool.observe machine noRecord
      (fun t l c x => deletesSucceed t l c x && withinReach t l c x) remains
      (.replicate 12 (.run 0 .ok)) (.run 0 .ok) (sequence onePhoto ()
        ([.mirrorShowroomPhotos 1] ++ [.erasePublicPhotoObjects 1])) =
      some ((false, true), (true, true)) := by decide +kernel
  obtain ⟨g, g', hg, hm, hs, -, hafter⟩ := Pool.observe_eq hrun
  have hend : g'.AllEnded := of_decide_eq_true (congrArg Prod.fst hafter)
  exact ⟨g', hend, nothing_left onePhoto _ 1 g' rfl keysOwn_onePhoto (fun _ => rfl)
    (.next hg hm hs) hend⟩

end Remains

end CarSalePro.Listings
