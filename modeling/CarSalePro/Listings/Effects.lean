import CarSalePro.Listings.ReportPhotos

namespace CarSalePro.Listings

open Store Interleave Prog

section Footprint

/-- The statements a mirror of the listing can issue. -/
def MirrorIssues (listing : ListingRef) : Stmt → Prop
  | .publicPut writer _ => writer = .mirrorShowroomPhotos
  | .setBucket _ _ => True
  | .stampMirrored listing' => listing' = listing
  | _ => False

/-- The statements a delete of the listing can issue. -/
def DeleteIssues (listing : ListingRef) : Stmt → Prop
  | .deleteWithPhotos listing' => listing' = listing
  | .deleteObject _ => True
  | .publicDelete remover _ => remover = .deleteWithPhotos
  | _ => False

/-- The statements that rewrite the manifest of a report. -/
def ManifestIssues (report : ReportRef) : Stmt → Prop
  | .writeManifest report' _ | .invalidateMirror report' => report' = report
  | _ => False

/-- The statements a call can issue. -/
def Call.Issues : Call → Stmt → Prop
  | .create seller _, .createListing row => ∃ report, row = draftOf seller report
  | .createManual _ _, .createListing row =>
    row.status = .draft ∧ row.reportId = none ∧ row.adminHiddenAt = none ∧
      row.publicPhotosMirroredAt = none
  | .update _ listing dto, .patchListing listing' dto' => listing' = listing ∧ dto' = dto
  | .publish _ listing, .activateStandard listing' => listing' = listing
  | .publish _ listing, s => MirrorIssues listing s
  | .unpublish _ listing, .unpublish listing' => listing' = listing
  | .markSold _ listing, .markSold listing' => listing' = listing
  | .remove _ listing, s => DeleteIssues listing s
  | .adminDelete listing, s => DeleteIssues listing s
  | .adminHide listing reason, .adminHide listing' reason' =>
    listing' = listing ∧ reason' = reason
  | .adminUnhide listing, .adminUnhide listing' _ => listing' = listing
  | .adminRemoveVideo listing, .adminRemoveVideo listing' => listing' = listing
  | .addPhoto _ _ _, .putObject _ => True
  | .addPhoto _ listing _, .publicPut writer key => writer = .addPhoto ∧ key.listing = listing
  | .addPhoto _ listing dto, .createPhoto row =>
    row.listingId = listing ∧ row.r2Key = uploadKey listing dto.uuid
  | .deletePhoto _ _ _, .deleteObject _ => True
  | .deletePhoto _ _ _, .publicDelete remover _ => remover = .deletePhoto
  | .deletePhoto _ _ photo, .deletePhoto photo' => photo' = photo
  | .reorderPhotos _ _ ids, .reorderPhotos ids' => ids' = ids
  | .mirrorShowroomPhotos listing, s => MirrorIssues listing s
  | .mirrorPendingShowroomPhotos _, s => ∃ listing, MirrorIssues listing s
  | .erasePublicPhotoObjects _, .publicDelete remover _ => remover = .erasePublicPhotoObjects
  | .erasePublicPhotoObjects _, .clearMirrored _ => True
  | .uploadReportPhoto _ report _, .putReportObject report' _ => report' = report
  | .uploadReportPhoto _ report _, .createReportPhoto row => row.reportId = report
  | .uploadReportPhoto _ report _, .updateReportPhoto _ row => row.reportId = report
  | .uploadReportPhoto _ _ _, .deleteObject _ => True
  | .uploadReportPhoto _ report _, s => ManifestIssues report s
  | .deleteReportPhoto _ _ _, .deleteObject _ => True
  | .deleteReportPhoto _ report photo, .deleteReportPhoto photo' report' =>
    photo' = photo ∧ report' = report
  | .deleteReportPhoto _ report _, s => ManifestIssues report s
  | _, _ => False

variable {F : Stmt → Prop}

theorem only_answered {α : Type} {p : Act α} (hp : p.Only F) : (answered p).Only F :=
  .seq hp fun _ => only_pure _

theorem thumbnailKey_listing {key smallKey : PublicKey} (h : thumbnailKey key = some smallKey) :
    smallKey.listing = key.listing := by
  unfold thumbnailKey at h
  simp only at h
  split at h
  · cases h
    rfl
  · cases h

theorem copies_listing {key k : PublicKey} (h : k ∈ copies key) : k.listing = key.listing := by
  rcases List.mem_cons.mp h with rfl | hsmall
  · rfl
  · exact thumbnailKey_listing (Option.mem_toList.mp hsmall)

theorem only_publicPutObject {writer : Writer} {key : PublicKey}
    (hput : ∀ k ∈ copies key, F (.publicPut writer k)) : (publicPutObject writer key).Only F := by
  refine .seq ((only_perform _).mpr (hput _ (by simp [copies]))) fun bucket => ?_
  cases hsmall : thumbnailKey key with
  | none => exact only_pure _
  | some smallKey =>
    have hcopy : (putSmallCopy writer smallKey).Only F :=
      .seq ((only_perform _).mpr (hput _ (by simp [copies, hsmall]))) fun _ => only_pure _
    exact .seq hcopy.quietly fun _ => only_pure _

theorem only_publicDeleteObject {remover : Remover} {key : PublicKey}
    (hdelete : ∀ key, F (.publicDelete remover key)) : (publicDeleteObject remover key).Only F :=
  only_forEach fun k _ => (only_perform _).mpr (hdelete k)

theorem only_failed {body : Act Unit} (hp : body.Only F) : (failed body).Only F := by
  refine .seq hp.attempt fun answer => ?_
  cases answer with
  | ok a => exact only_pure _
  | error e => exact only_pure _

theorem only_mirrorShowroomPhotos {listing : ListingRef}
    (hput : ∀ key, F (.publicPut .mirrorShowroomPhotos key))
    (hbucket : ∀ photo bucket, F (.setBucket photo bucket)) (hstamp : F (.stampMirrored listing)) :
    (mirrorShowroomPhotos listing).Only F := by
  refine .seq (only_fetch _ _) fun configured => .ite (fun _ => only_pure _) fun _ => ?_
  refine .seq (only_fetch _ _) fun found => ?_
  cases found with
  | none => exact only_pure _
  | some refs =>
    refine .seq (only_fetch _ _) fun rows => ?_
    refine .seq (only_countEach fun row _ => only_failed ?_) fun unpromoted => ?_
    · refine .seq (only_fetch _ _) fun found => .when fun _ => ?_
      exact .seq (only_publicPutObject fun k _ => hput k) fun _ =>
        (only_perform _).mpr (hbucket _ _)
    refine .seq (only_countEach fun ref _ => only_failed ?_) fun unmirrored => ?_
    · refine .seq (only_fetch _ _) fun found => .when fun _ => ?_
      exact .seq (only_publicPutObject fun k _ => hput k) fun _ => only_pure _
    exact .seq (.when fun _ => (only_perform _).mpr hstamp) fun _ => only_pure _

theorem only_mirrorIssues (listing : ListingRef) :
    (mirrorShowroomPhotos listing).Only (MirrorIssues listing) :=
  only_mirrorShowroomPhotos (fun _ => rfl) (fun _ _ => trivial) rfl

theorem only_requireOwnedListing {user : UserRef} {listing : ListingRef} :
    (requireOwnedListing user listing).Only F := by
  refine .seq (only_fetch _ _) fun found => ?_
  cases found with
  | none => exact only_throw _
  | some row => exact .ite (fun _ => only_throw _) fun _ => only_pure _

theorem only_requireListing {listing : ListingRef} : (requireListing listing).Only F := by
  refine .seq (only_fetch _ _) fun found => ?_
  cases found with
  | none => exact only_throw _
  | some row => exact only_pure _

theorem only_assertPublishable {listing : ListingRef} {row : Listing} :
    (assertPublishable listing row).Only F := by
  unfold assertPublishable
  cases row.source with
  | report => exact .when fun _ => only_throw _
  | manual => exact .seq (only_fetch _ _) fun photos => .when fun _ => only_throw _

theorem only_publish {user : UserRef} {listing : ListingRef}
    (hactivate : F (.activateStandard listing)) (hmirror : ∀ s, MirrorIssues listing s → F s) :
    (publish user listing).Only F := by
  refine .seq only_requireOwnedListing fun row => .ite (fun _ => only_throw _) fun _ => ?_
  refine .seq only_assertPublishable fun _ => ?_
  refine .seq ((only_perform _).mpr hactivate) fun _ => .seq (only_fetch _ _) fun found => ?_
  cases found with
  | none => exact only_pure _
  | some row => exact ((only_mirrorIssues listing).mono hmirror).quietly

theorem only_update {user : UserRef} {listing : ListingRef} {dto : UpdateListing}
    (hpatch : F (.patchListing listing dto)) : (update user listing dto).Only F := by
  refine .seq only_requireOwnedListing fun row => .ite (fun _ => only_throw _) fun _ => ?_
  exact .ite (fun _ => only_throw _) fun _ => (only_perform _).mpr hpatch

theorem only_deleteStored {remover : Remover} {photo : ListingPhoto}
    (hobject : ∀ key, F (.deleteObject key)) (hdelete : ∀ key, F (.publicDelete remover key)) :
    (deleteStored remover photo).Only F := by
  refine .seq (only_fetch _ _) fun configured => ?_
  cases photoLocation photo.bucket configured with
  | publicBucket => exact only_publicDeleteObject hdelete
  | reportsBucket => exact (only_perform _).mpr (hobject _)

theorem only_mirroredPublicKeys {listing : ListingRef} {row : Listing} :
    (mirroredPublicKeys listing row).Only F := by
  refine .seq (only_fetch _ _) fun configured => .ite (fun _ => only_pure _) fun _ => ?_
  cases row.reportId with
  | none => exact only_pure _
  | some report =>
    cases row.publicPhotosMirroredAt with
    | none => exact only_pure _
    | some stamp => exact only_fetch _ _

theorem only_deleteWithPhotos {listing : ListingRef} {row : Listing}
    (h : ∀ s, DeleteIssues listing s → F s) : (deleteWithPhotos listing row).Only F := by
  refine .seq (only_fetch _ _) fun photos => .seq only_mirroredPublicKeys fun mirrored => ?_
  refine .seq ((only_perform _).mpr (h _ rfl)) fun _ => .seq (only_fetch _ _) fun configured => ?_
  refine .when fun _ => .seq (only_forEach fun photo _ => ?_) fun _ => only_forEach fun key _ => ?_
  · exact (only_deleteStored (fun key => h _ trivial) fun key => h _ rfl).quietly
  · exact (only_publicDeleteObject fun key => h _ rfl).quietly

theorem only_addPhoto {user : UserRef} {listing : ListingRef} {dto : UploadListingPhoto}
    (hobject : ∀ key, F (.putObject key))
    (hput : ∀ key : PublicKey, key.listing = listing → F (.publicPut .addPhoto key))
    (hrow : ∀ row : ListingPhoto, row.listingId = listing →
      row.r2Key = uploadKey listing dto.uuid → F (.createPhoto row)) :
    (addPhoto user listing dto).Only F := by
  refine .seq only_requireOwnedListing fun row => .seq (only_fetch _ _) fun configured => ?_
  refine .ite (fun _ => only_throw _) fun _ => .seq (only_fetch _ _) fun count => ?_
  refine .ite (fun _ => only_throw _) fun _ => .seq (only_fetch _ _) fun originalHash => ?_
  refine .ite (fun _ => only_throw _) fun _ => .seq (only_fetch _ _) fun duplicate => ?_
  cases duplicate with
  | some duplicate => exact only_pure _
  | none =>
    refine .ite (fun _ => only_throw _) fun _ => .seq ?_ fun bucket => ?_
    · refine .seq (only_fetch _ _) fun configured => .ite (fun _ => ?_) fun _ => ?_
      · exact .seq (only_publicPutObject fun k hk => hput k (copies_listing hk))
          fun _ => only_pure _
      · exact .seq ((only_perform _).mpr (hobject _)) fun _ => only_pure _
    · exact .seq (only_fetch _ _) fun highest => (only_perform _).mpr (hrow _ rfl rfl)

theorem only_mirrorPhotosManifest {report : ReportRef} (h : ∀ s, ManifestIssues report s → F s) :
    (mirrorPhotosManifest report).Only F := by
  refine .seq (only_fetch _ _) fun ordered => ?_
  refine .seq ((only_perform _).mpr (h _ rfl)) fun _ => ?_
  exact .quietly ((only_perform _).mpr (h _ rfl))

theorem only_requireOwned {deviceId : String} {report : ReportRef} :
    (requireOwned deviceId report).Only F := by
  refine .seq (only_fetch _ _) fun found => ?_
  cases found with
  | none => exact only_throw _
  | some row =>
    refine .ite (fun _ => only_throw _) fun _ => ?_
    exact .ite (fun _ => only_throw _) fun _ => only_pure _

theorem only_storeReportPhoto {report : ReportRef} {existing : Option (PhotoRef × ReportPhoto)}
    {row : ReportPhoto} (hput : F (.putReportObject report row.r2Key))
    (hcreate : F (.createReportPhoto row)) (hupdate : ∀ photo, F (.updateReportPhoto photo row))
    (hobject : ∀ key, F (.deleteObject key)) (h : ∀ s, ManifestIssues report s → F s) :
    (storeReportPhoto report existing row).Only F := by
  refine .seq ((only_perform _).mpr hput) fun _ => .seq ?_ fun _ => .seq ?_ fun _ => ?_
  · cases existing with
    | none => exact (only_perform _).mpr hcreate
    | some old => exact (only_perform _).mpr (hupdate _)
  · cases existing with
    | none => exact only_pure _
    | some old => exact .when fun _ => .quietly ((only_perform _).mpr (hobject _))
  · exact only_mirrorPhotosManifest h

theorem only_uploadReportPhoto {deviceId : String} {report : ReportRef} {dto : UploadPhoto}
    (hput : ∀ key, F (.putReportObject report key))
    (hcreate : ∀ row : ReportPhoto, row.reportId = report → F (.createReportPhoto row))
    (hupdate : ∀ photo (row : ReportPhoto), row.reportId = report →
      F (.updateReportPhoto photo row))
    (hobject : ∀ key, F (.deleteObject key)) (h : ∀ s, ManifestIssues report s → F s) :
    (uploadReportPhoto deviceId report dto).Only F := by
  refine .seq only_requireOwned fun owned => .seq (only_fetch _ _) fun configured => ?_
  refine .ite (fun _ => only_throw _) fun _ => .seq (only_fetch _ _) fun originalHash => ?_
  refine .ite (fun _ => only_throw _) fun _ => .seq (only_fetch _ _) fun existing => ?_
  refine .ite (fun _ => only_pure _) fun _ => .ite (fun _ => only_throw _) fun _ => ?_
  exact only_storeReportPhoto (hput _) (hcreate _ rfl) (fun photo => hupdate photo _ rfl) hobject h

theorem only_deleteReportPhoto {deviceId : String} {report : ReportRef} {photo : PhotoRef}
    (hobject : ∀ key, F (.deleteObject key)) (hrow : F (.deleteReportPhoto photo report))
    (h : ∀ s, ManifestIssues report s → F s) :
    (deleteReportPhoto deviceId report photo).Only F := by
  refine .seq only_requireOwned fun owned => .seq (only_fetch _ _) fun found => ?_
  cases found with
  | none => exact only_throw _
  | some row =>
    refine .ite (fun _ => only_throw _) fun _ => .seq (only_fetch _ _) fun configured => ?_
    refine .seq (.when fun _ => (only_perform _).mpr (hobject _)) fun _ => ?_
    exact .seq ((only_perform _).mpr hrow) fun _ => only_mirrorPhotosManifest h

/-- A call issues no other statement. -/
theorem Call.only_issues (call : Call) : call.prog.Only call.Issues := by
  cases call with
  | create seller reportCode =>
    refine only_answered (.seq (only_fetch _ _) fun report => ?_)
    cases report with
    | none => exact only_throw _
    | some report =>
      refine .seq (.attempt ((only_perform _).mpr ⟨report, rfl⟩)) fun answer => ?_
      cases answer with
      | ok listing => exact only_pure _
      | error e =>
        cases e with
        | uniqueViolation =>
          refine .seq (.seq (only_fetch _ _) fun claimed => ?_) fun failure => only_throw _
          exact .ite (fun _ => only_pure _) fun _ => only_pure _
        | _ => exact only_throw _
  | createManual seller dto => exact only_answered ((only_perform _).mpr ⟨rfl, rfl, rfl, rfl⟩)
  | update user listing dto => exact only_update ⟨rfl, rfl⟩
  | publish user listing =>
    refine only_publish rfl fun s hs => ?_
    cases s <;> first | exact hs | exact hs.elim
  | unpublish user listing =>
    exact .seq only_requireOwnedListing fun _ => (only_perform _).mpr rfl
  | markSold user listing => exact .seq only_requireOwnedListing fun _ => (only_perform _).mpr rfl
  | remove user listing =>
    refine .seq only_requireOwnedListing fun row => .ite (fun _ => only_throw _) fun _ => ?_
    exact only_deleteWithPhotos fun _ hs => hs
  | adminDelete listing =>
    refine .seq only_requireListing fun row => .ite (fun _ => only_throw _) fun _ => ?_
    refine .seq (only_deleteWithPhotos fun _ hs => hs) fun _ => ?_
    exact .seq only_requireListing fun _ => only_pure _
  | adminHide listing reason =>
    refine .seq only_requireListing fun before => .ite (fun _ => only_throw _) fun _ => ?_
    exact (only_perform _).mpr ⟨rfl, rfl⟩
  | adminUnhide listing =>
    refine .seq only_requireListing fun before => .ite (fun _ => only_throw _) fun _ => ?_
    exact (only_perform _).mpr rfl
  | adminRemoveVideo listing =>
    refine .seq only_requireListing fun before => .ite (fun _ => only_throw _) fun _ => ?_
    exact .ite (fun _ => only_throw _) fun _ => (only_perform _).mpr rfl
  | addPhoto user listing dto =>
    exact only_answered (only_addPhoto (fun _ => trivial) (fun _ h => ⟨rfl, h⟩)
      fun _ hlisting hkey => ⟨hlisting, hkey⟩)
  | deletePhoto user listing photo =>
    refine .seq only_requireOwnedListing fun _ => .seq (only_fetch _ _) fun found => ?_
    cases found with
    | none => exact only_throw _
    | some row =>
      refine .ite (fun _ => only_throw _) fun _ => .seq (only_fetch _ _) fun configured => ?_
      refine .seq (.when fun _ => .quietly ?_) fun _ => (only_perform _).mpr rfl
      exact only_deleteStored (fun _ => trivial) fun _ => rfl
  | reorderPhotos user listing ids =>
    refine .seq only_requireOwnedListing fun _ => .seq (only_fetch _ _) fun current => ?_
    refine .ite (fun _ => only_throw _) fun _ => .seq ((only_perform _).mpr rfl) fun _ => ?_
    exact .seq only_requireOwnedListing fun _ => .seq (only_fetch _ _) fun _ => only_pure _
  | mirrorShowroomPhotos listing => exact only_answered (only_mirrorIssues listing)
  | mirrorPendingShowroomPhotos batchSize =>
    refine .seq (only_fetch _ _) fun configured => .when fun _ => ?_
    refine .seq (only_fetch _ _) fun pending => only_forEach fun listing _ => ?_
    exact ((only_mirrorIssues listing).mono fun s hs => ⟨listing, hs⟩).quietly
  | erasePublicPhotoObjects seller =>
    refine .seq (only_fetch _ _) fun configured => .when fun _ =>
      .seq (only_fetch _ _) fun rows => ?_
    refine .seq (only_fetch _ _) fun listings => .seq (only_forEach fun key _ => ?_) fun _ => ?_
    · exact (only_publicDeleteObject fun _ => rfl).quietly
    · exact .when fun _ => (only_perform _).mpr trivial
  | uploadReportPhoto deviceId report dto =>
    refine only_uploadReportPhoto (fun _ => rfl) (fun _ h => h) (fun _ _ h => h) (fun _ => trivial)
      fun s hs => ?_
    cases s <;> first | exact hs | exact hs.elim
  | deleteReportPhoto deviceId report photo =>
    refine only_deleteReportPhoto (fun _ => trivial) ⟨rfl, rfl⟩ fun s hs => ?_
    cases s <;> first | exact hs | exact hs.elim

theorem launch_thread {γ : Type} {hist : γ} {w : World} {calls : List Call} {t : Nat}
    {p : Act Unit} (h : (launch w hist calls).threads[t]? = some p) :
    ∃ call, calls[t]? = some call ∧ p = call.prog := by
  simp only [launch, List.getElem?_map] at h
  obtain ⟨call, hcall, rfl⟩ := Option.map_eq_some_iff.mp h
  exact ⟨call, hcall, rfl⟩

/-- In every run, a thread issues what its call can issue. -/
theorem issues_reach {γ : Type} {rec : Recorder Site Stmt World γ} {hist : γ} {w : World}
    {C : StepGuard γ} {calls : List Call} {g : Run γ} {t : Nat} {p : Act Unit} {s : Stmt}
    (hg : Pool.Reach machine rec C (launch w hist calls) g) (hp : g.threads[t]? = some p)
    (hs : p.label = some (.call s)) : ∃ call, calls[t]? = some call ∧ call.Issues s := by
  apply hg.issues (A := fun t s => ∃ call, calls[t]? = some call ∧ call.Issues s) ?_ hp hs
  intro t p hp
  obtain ⟨call, hcall, rfl⟩ := launch_thread hp
  exact call.only_issues.mono fun s hs => ⟨call, hcall, hs⟩

end Footprint

section Rows

variable {w : World} {s : Stmt} {c : Fate} {listing : ListingRef}

/-- What a statement makes of the row of a listing. -/
def Stmt.rowAfter (now : Instant) (listing : ListingRef) (row : Listing) : Stmt → Listing
  | .patchListing listing' dto => if listing = listing' then dto.apply row else row
  | .activateStandard listing' =>
    if listing = listing' then { row with status := .active, publishedAt := some now } else row
  | .unpublish listing' => if listing = listing' then { row with status := .hidden } else row
  | .markSold listing' => if listing = listing' then { row with status := .sold } else row
  | .deleteWithPhotos listing' => if listing = listing' then World.deletedRow row else row
  | .adminHide listing' reason =>
    if listing = listing' then { row with
      status := .hidden, adminHiddenAt := some now, adminHiddenReason := some reason }
    else row
  | .adminUnhide listing' publishedAt =>
    if listing = listing' then { row with
      status := .active, publishedAt := publishedAt.or (some now), adminHiddenAt := none,
      adminHiddenReason := none }
    else row
  | .adminRemoveVideo listing' =>
    if listing = listing' then { row with youtubeVideoId := none } else row
  | .stampMirrored listing' =>
    if listing = listing' then { row with publicPhotosMirroredAt := some now } else row
  | .clearMirrored listings =>
    if listing ∈ listings then { row with publicPhotosMirroredAt := none } else row
  | .invalidateMirror report =>
    if row.reportId = some report ∧ row.publicPhotosMirroredAt.isSome then
      { row with publicPhotosMirroredAt := none }
    else row
  | _ => row

theorem exec_fails (s : Stmt) (w : World) : (World.exec s .fails w).2 = w := by
  cases s <;> rfl

theorem requireRow_cases {κ ν : Type} (table : Table κ ν) (k : κ) (w w' : World) :
    (World.requireRow table k w w').2 = w ∨ (World.requireRow table k w w').2 = w' := by
  unfold World.requireRow
  split
  · exact Or.inr rfl
  · exact Or.inl rfl

/-- The part of the world a statement writes. -/
inductive Part where
  | listings | photos | listingsAndPhotos | reports | reportPhotos | objects | publicObjects
  deriving DecidableEq, Repr

def Stmt.part : Stmt → Part
  | .createListing _ | .patchListing _ _ | .activateStandard _ | .unpublish _ | .markSold _
  | .adminHide _ _ | .adminUnhide _ _ | .adminRemoveVideo _ | .stampMirrored _ | .clearMirrored _
  | .invalidateMirror _ => .listings
  | .deleteWithPhotos _ => .listingsAndPhotos
  | .createPhoto _ | .setBucket _ _ | .deletePhoto _ | .reorderPhotos _ => .photos
  | .putObject _ | .putReportObject _ _ | .deleteObject _ => .objects
  | .publicPut _ _ | .publicDelete _ _ => .publicObjects
  | .createReportPhoto _ | .updateReportPhoto _ _ | .deleteReportPhoto _ _ => .reportPhotos
  | .writeManifest _ _ => .reports

/-- `w'` is `w` but for this part. -/
def World.SameBut (w w' : World) : Part → Prop
  | .listings => ∃ listings, w' = { w with listings := listings }
  | .photos => ∃ photos, w' = { w with photos := photos }
  | .listingsAndPhotos =>
    ∃ listings photos, w' = { w with listings := listings, photos := photos }
  | .reports => ∃ reports, w' = { w with reports := reports }
  | .reportPhotos => ∃ reportPhotos, w' = { w with reportPhotos := reportPhotos }
  | .objects => ∃ objects, w' = { w with objects := objects }
  | .publicObjects => ∃ publicObjects, w' = { w with publicObjects := publicObjects }

theorem World.SameBut.refl (w : World) (part : Part) : w.SameBut w part := by
  cases part with
  | listingsAndPhotos => exact ⟨_, _, rfl⟩
  | _ => exact ⟨_, rfl⟩

theorem updateListing_part (listing : ListingRef) (f : Listing → Listing) :
    w.SameBut (w.updateListing listing f).2 .listings := by
  unfold World.updateListing
  split
  · exact .refl w _
  · exact ⟨_, rfl⟩

theorem requireRow_part {κ ν : Type} {table : Table κ ν} {k : κ} {w' : World} {part : Part}
    (h : w.SameBut w' part) : w.SameBut (World.requireRow table k w w').2 part := by
  unfold World.requireRow
  split
  · exact h
  · exact .refl w _

/-- A statement writes its part of the world. -/
theorem exec_part (s : Stmt) (c : Fate) (w : World) :
    w.SameBut (World.exec s c w).2 s.part := by
  cases c with
  | fails => rw [exec_fails]; exact .refl w _
  | ok =>
    cases s with
    | createListing row =>
      show w.SameBut (w.createListing row).2 _
      unfold World.createListing
      split
      · exact .refl w _
      · exact ⟨_, rfl⟩
    | patchListing listing dto => exact updateListing_part _ _
    | activateStandard listing => exact updateListing_part _ _
    | unpublish listing => exact updateListing_part _ _
    | markSold listing => exact updateListing_part _ _
    | adminHide listing reason => exact updateListing_part _ _
    | adminUnhide listing publishedAt => exact updateListing_part _ _
    | adminRemoveVideo listing => exact updateListing_part _ _
    | stampMirrored listing => exact updateListing_part _ _
    | clearMirrored listings => exact ⟨_, rfl⟩
    | invalidateMirror report => exact ⟨_, rfl⟩
    | deleteWithPhotos listing =>
      show w.SameBut (w.deleteWithPhotos listing).2 _
      unfold World.deleteWithPhotos
      split
      · exact .refl w _
      · exact ⟨_, _, rfl⟩
    | createPhoto row =>
      show w.SameBut (w.createPhoto row).2 _
      unfold World.createPhoto
      split
      · exact .refl w _
      · split
        · exact .refl w _
        · exact ⟨_, rfl⟩
    | setBucket photo bucket =>
      show w.SameBut (w.updatePhoto photo _).2 _
      unfold World.updatePhoto
      split
      · exact .refl w _
      · exact ⟨_, rfl⟩
    | deletePhoto photo => exact requireRow_part ⟨_, rfl⟩
    | reorderPhotos photos =>
      show w.SameBut (w.reorderPhotos photos).2 _
      unfold World.reorderPhotos
      split
      · exact ⟨_, rfl⟩
      · exact .refl w _
    | putObject key => exact ⟨_, rfl⟩
    | putReportObject report key => exact ⟨_, rfl⟩
    | deleteObject key => exact ⟨_, rfl⟩
    | publicPut writer key =>
      show w.SameBut (w.publicPut key).2 _
      unfold World.publicPut
      split
      · exact .refl w _
      · exact ⟨_, rfl⟩
    | publicDelete remover key => exact ⟨_, rfl⟩
    | createReportPhoto row =>
      show w.SameBut (w.createReportPhoto row).2 _
      unfold World.createReportPhoto
      split
      · exact .refl w _
      · split
        · exact .refl w _
        · exact ⟨_, rfl⟩
    | updateReportPhoto photo row =>
      show w.SameBut (w.updateReportPhoto photo row).2 _
      unfold World.updateReportPhoto
      split
      · exact .refl w _
      · split
        · exact .refl w _
        · exact ⟨_, rfl⟩
    | deleteReportPhoto photo report => exact requireRow_part ⟨_, rfl⟩
    | writeManifest report manifest =>
      show w.SameBut (w.writeManifest report manifest).2 _
      unfold World.writeManifest
      split
      · exact .refl w _
      · exact ⟨_, rfl⟩

theorem listings_spared (hl : s.part ≠ .listings) (hp : s.part ≠ .listingsAndPhotos) :
    (World.exec s c w).2.listings = w.listings := by
  have h := exec_part s c w
  cases hpart : s.part with
  | listings => exact absurd hpart hl
  | listingsAndPhotos => exact absurd hpart hp
  | _ =>
    rw [hpart] at h
    obtain ⟨t, h⟩ := h
    rw [h]

theorem photos_spared (hl : s.part ≠ .photos) (hp : s.part ≠ .listingsAndPhotos) :
    (World.exec s c w).2.photos = w.photos := by
  have h := exec_part s c w
  cases hpart : s.part with
  | photos => exact absurd hpart hl
  | listingsAndPhotos => exact absurd hpart hp
  | _ =>
    rw [hpart] at h
    obtain ⟨t, h⟩ := h
    rw [h]

theorem publicObjects_spared (hs : s.part ≠ .publicObjects) :
    (World.exec s c w).2.publicObjects = w.publicObjects := by
  have h := exec_part s c w
  cases hpart : s.part with
  | publicObjects => exact absurd hpart hs
  | listingsAndPhotos =>
    rw [hpart] at h
    obtain ⟨t, t', h⟩ := h
    rw [h]
  | _ =>
    rw [hpart] at h
    obtain ⟨t, h⟩ := h
    rw [h]

theorem objects_spared (hs : s.part ≠ .objects) :
    (World.exec s c w).2.objects = w.objects := by
  have h := exec_part s c w
  cases hpart : s.part with
  | objects => exact absurd hpart hs
  | listingsAndPhotos =>
    rw [hpart] at h
    obtain ⟨t, t', h⟩ := h
    rw [h]
  | _ =>
    rw [hpart] at h
    obtain ⟨t, h⟩ := h
    rw [h]

theorem reports_spared (hs : s.part ≠ .reports) :
    (World.exec s c w).2.reports = w.reports := by
  have h := exec_part s c w
  cases hpart : s.part with
  | reports => exact absurd hpart hs
  | listingsAndPhotos =>
    rw [hpart] at h
    obtain ⟨t, t', h⟩ := h
    rw [h]
  | _ =>
    rw [hpart] at h
    obtain ⟨t, h⟩ := h
    rw [h]

/-- No statement writes the configuration. -/
structure World.SameConfig (w w' : World) : Prop where
  r2Configured : w'.r2Configured = w.r2Configured
  publicBucket : w'.publicBucket = w.publicBucket
  sha256Text : w'.sha256Text = w.sha256Text
  localeCompare : w'.localeCompare = w.localeCompare

theorem exec_config (s : Stmt) (c : Fate) (w : World) : w.SameConfig (World.exec s c w).2 := by
  have h := exec_part s c w
  cases hpart : s.part with
  | listingsAndPhotos =>
    rw [hpart] at h
    obtain ⟨t, t', h⟩ := h
    rw [h]
    exact ⟨rfl, rfl, rfl, rfl⟩
  | _ =>
    rw [hpart] at h
    obtain ⟨t, h⟩ := h
    rw [h]
    exact ⟨rfl, rfl, rfl, rfl⟩

theorem get_updateListing (w : World) (listing listing' : ListingRef) (f : Listing → Listing) :
    (w.updateListing listing' f).2.listings.get listing =
      (w.listings.get listing).map fun row => if listing = listing' then f row else row := by
  unfold World.updateListing
  cases hrow : w.listings.get listing' with
  | none =>
    by_cases hl : listing = listing'
    · simp [hl, hrow]
    · simp [hl]
  | some row =>
    by_cases hl : listing = listing'
    · subst hl
      simp [hrow]
    · simp [Table.get_set, hl]

theorem get_createListing (w : World) (listing : ListingRef) (row : Listing) :
    (w.createListing row).2.listings.get listing = w.listings.get listing ∨
      w.listings.get listing = none ∧ (w.createListing row).2.listings.get listing = some row := by
  unfold World.createListing
  split
  · exact Or.inl rfl
  · by_cases hnew : listing = w.listings.fresh
    · subst hnew
      exact Or.inr ⟨w.listings.get_fresh, by simp⟩
    · exact Or.inl (by simp [hnew])

/-- Every row is left as it is, or made what the statement makes of rows, or is a new one. -/
theorem listing_exec (s : Stmt) (c : Fate) (w : World) (listing : ListingRef) :
    (World.exec s c w).2.listings.get listing = w.listings.get listing ∨
    (∃ row, s = .createListing row ∧ w.listings.get listing = none ∧
      (World.exec s c w).2.listings.get listing = some row) ∨
    ∃ row, w.listings.get listing = some row ∧
      (World.exec s c w).2.listings.get listing = some (s.rowAfter w.now listing row) := by
  have hmap (w' : World) (hexec : (World.exec s c w).2 = w')
      (h : w'.listings.get listing =
        (w.listings.get listing).map fun row => s.rowAfter w.now listing row) :
      (World.exec s c w).2.listings.get listing = w.listings.get listing ∨
        (∃ row, s = .createListing row ∧ w.listings.get listing = none ∧
          (World.exec s c w).2.listings.get listing = some row) ∨
        ∃ row, w.listings.get listing = some row ∧
          (World.exec s c w).2.listings.get listing = some (s.rowAfter w.now listing row) := by
    rw [hexec, h]
    cases w.listings.get listing with
    | none => exact Or.inl rfl
    | some row => exact Or.inr (Or.inr ⟨row, rfl, rfl⟩)
  cases c with
  | fails => exact Or.inl (by rw [exec_fails])
  | ok =>
    cases s with
    | createListing row =>
      rcases get_createListing w listing row with h | ⟨hnone, h⟩
      · exact Or.inl h
      · exact Or.inr (Or.inl ⟨row, rfl, hnone, h⟩)
    | patchListing listing' dto => exact hmap _ rfl (get_updateListing _ _ _ _)
    | activateStandard listing' => exact hmap _ rfl (get_updateListing _ _ _ _)
    | unpublish listing' => exact hmap _ rfl (get_updateListing _ _ _ _)
    | markSold listing' => exact hmap _ rfl (get_updateListing _ _ _ _)
    | adminHide listing' reason => exact hmap _ rfl (get_updateListing _ _ _ _)
    | adminUnhide listing' publishedAt => exact hmap _ rfl (get_updateListing _ _ _ _)
    | adminRemoveVideo listing' => exact hmap _ rfl (get_updateListing _ _ _ _)
    | stampMirrored listing' => exact hmap _ rfl (get_updateListing _ _ _ _)
    | deleteWithPhotos listing' =>
      refine hmap (w.deleteWithPhotos listing').2 rfl ?_
      have hupdate := get_updateListing w listing listing' World.deletedRow
      rw [show (w.deleteWithPhotos listing').2.listings =
        (w.updateListing listing' World.deletedRow).2.listings from ?_, hupdate]
      · rfl
      · unfold World.deleteWithPhotos World.updateListing
        cases w.listings.get listing' <;> rfl
    | clearMirrored listings =>
      refine hmap _ rfl ?_
      show (w.listings.get listing).map _ = _
      congr 1
      funext row
      by_cases hl : listing ∈ listings <;> simp [Stmt.rowAfter, hl]
    | invalidateMirror report =>
      refine hmap _ rfl ?_
      show (w.listings.get listing).map _ = _
      congr 1
      funext row
      by_cases hr : row.reportId = some report ∧ row.publicPhotosMirroredAt.isSome <;>
        simp [Stmt.rowAfter, hr]
    | _ =>
      exact Or.inl
        (congrArg (·.get listing) (listings_spared (by simp [Stmt.part]) (by simp [Stmt.part])))

end Rows

section Photos

variable {w : World} {s : Stmt} {c : Fate} {photo : PhotoRef} {row : ListingPhoto}

/-- A photo keeps its listing and its key; its bucket is written by a promotion only. -/
structure ListingPhoto.Continues (s : Stmt) (photo : PhotoRef) (old row : ListingPhoto) : Prop where
  listingId : row.listingId = old.listingId
  r2Key : row.r2Key = old.r2Key
  bucket : row.bucket = old.bucket ∨ ∃ bucket, s = .setBucket photo bucket

theorem ListingPhoto.Continues.refl : ListingPhoto.Continues s photo row row :=
  ⟨rfl, rfl, Or.inl rfl⟩

/-- A photo of a gallery after a statement is one from before, or the one just created. -/
theorem photo_exec (h : (World.exec s c w).2.photos.get photo = some row) :
    (∃ old, w.photos.get photo = some old ∧ ListingPhoto.Continues s photo old row) ∨
      s = .createPhoto row ∧ w.photos.get photo = none := by
  cases c with
  | fails =>
    rw [exec_fails] at h
    exact Or.inl ⟨row, h, .refl⟩
  | ok =>
    cases s with
    | createPhoto new =>
      simp only [World.exec, World.write, World.createPhoto] at h
      split at h
      · exact Or.inl ⟨row, h, .refl⟩
      · split at h
        · exact Or.inl ⟨row, h, .refl⟩
        · simp only [Table.get_set] at h
          split at h
          next hnew =>
            cases h
            exact Or.inr ⟨rfl, hnew ▸ w.photos.get_fresh⟩
          next => exact Or.inl ⟨row, h, .refl⟩
    | setBucket other bucket =>
      simp only [World.exec, World.write, World.updatePhoto] at h
      split at h
      · exact Or.inl ⟨row, h, .refl⟩
      next old hold =>
        simp only [Table.get_set] at h
        split at h
        next hsame =>
          cases h
          exact Or.inl ⟨old, hsame ▸ hold, rfl, rfl, Or.inr ⟨bucket, by rw [hsame]⟩⟩
        next => exact Or.inl ⟨row, h, .refl⟩
    | deletePhoto other =>
      simp only [World.exec, World.write] at h
      rcases requireRow_cases w.photos other w
        { w with photos := w.photos.deleteMany fun other' _ => other' = other } with hw | hw
      · rw [hw] at h
        exact Or.inl ⟨row, h, .refl⟩
      · rw [hw] at h
        obtain ⟨hrow, -⟩ := Option.filter_eq_some_iff.mp (Table.get_deleteMany _ _ _ ▸ h)
        exact Or.inl ⟨row, hrow, .refl⟩
    | reorderPhotos photos =>
      simp only [World.exec, World.write, World.reorderPhotos] at h
      split at h
      · rw [Table.get_rewrite] at h
        obtain ⟨old, hold, hrow⟩ := Option.map_eq_some_iff.mp h
        refine Or.inl ⟨old, hold, ?_⟩
        cases hplace : photos.findIdx? (· = photo) with
        | none => simp [hplace] at hrow; exact hrow ▸ .refl
        | some index => simp [hplace] at hrow; exact hrow ▸ ⟨rfl, rfl, Or.inl rfl⟩
      · exact Or.inl ⟨row, h, .refl⟩
    | deleteWithPhotos listing =>
      simp only [World.exec, World.write, World.deleteWithPhotos] at h
      split at h
      · exact Or.inl ⟨row, h, .refl⟩
      · obtain ⟨hrow, -⟩ := Option.filter_eq_some_iff.mp (Table.get_deleteMany _ _ _ ▸ h)
        exact Or.inl ⟨row, hrow, .refl⟩
    | _ =>
      rw [photos_spared (by simp [Stmt.part]) (by simp [Stmt.part])] at h
      exact Or.inl ⟨row, h, .refl⟩

end Photos

section Objects

variable {w : World} {s : Stmt} {c : Fate} {key : PublicKey}

/-- The public objects change by puts and deletes of the public bucket only. -/
theorem publicObjects_exec : (World.exec s c w).2.publicObjects = w.publicObjects ∨
    (∃ writer key, s = .publicPut writer key ∧
      (World.exec s c w).2.publicObjects = insert key w.publicObjects) ∨
    ∃ remover key, s = .publicDelete remover key ∧
      (World.exec s c w).2.publicObjects = w.publicObjects.erase key := by
  cases c with
  | fails => exact Or.inl (by rw [exec_fails])
  | ok =>
    cases s with
    | publicPut writer key =>
      simp only [World.exec, World.write, World.publicPut]
      split
      · exact Or.inl rfl
      · exact Or.inr (Or.inl ⟨writer, key, rfl, rfl⟩)
    | publicDelete remover key => exact Or.inr (Or.inr ⟨remover, key, rfl, rfl⟩)
    | _ => exact Or.inl (publicObjects_spared (by simp [Stmt.part]))

end Objects

end CarSalePro.Listings
