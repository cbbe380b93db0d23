import CarSalePro.Interleave.Serial
import CarSalePro.Listings.Publication

namespace CarSalePro.Listings

open Store Interleave Prog

/-- Load a report the device owns. -/
def requireOwned (deviceId : String) (report : ReportRef) : Act Report := do
  match ← fetch .ownedReport (·.reports.get report) with
  | none => throw (notFound ("Report " ++ toString report ++ " not found"))
  | some row =>
    if row.deletedAt.isSome then throw (notFound ("Report " ++ toString report ++ " not found"))
    else if row.deviceId ≠ deviceId then
      throw (.http 403 "forbidden" "You do not own this report")
    else pure row

section Manifest

/-- The photos of a report in walk-around order; within a slot, in the order of their positions. -/
def World.orderedPhotos (w : World) (report : ReportRef) : List ReportPhoto :=
  let rows := (w.reportPhotos.findMany fun _ photo => photo.reportId = report).map Prod.snd
  (rows.insertionSort fun a b => a.position ≤ b.position).insertionSort fun a b =>
    photoKindLE w.localeCompare (some a.kind) (some b.kind)

/-- What the manifest holds of a photo. -/
def manifestEntry (photo : ReportPhoto) : Json :=
  .obj ([("s3Key", .str photo.r2Key), ("kind", .str photo.kind)] ++
    ((angleForKind (some photo.kind)).map fun angle => ("angle", Json.str angle)).toList)

/-- Rewrite the manifest from the rows, then clear the stamp of every listing of the report; that
this failed is only logged. -/
def mirrorPhotosManifest (report : ReportRef) : Act Unit := do
  let ordered ← fetch (.manifestRows report) (·.orderedPhotos report)
  Prog.perform (Stmt.writeManifest report (.arr (ordered.map manifestEntry)))
  quietly (Prog.perform (Stmt.invalidateMirror report))

end Manifest

section Photos

/-- An upload to a slot of a report. -/
structure UploadPhoto where
  kind : String
  position : Nat
  buffer : List UInt8
  hash : Option String
  readable : Bool
  deriving DecidableEq, Repr

def reportPhotoKey (deviceId : String) (report : ReportRef) (dto : UploadPhoto)
    (originalHash : String) : String :=
  "report-photos/" ++ deviceId ++ "/" ++ toString report ++ "/" ++ dto.kind ++ "-" ++
    toString dto.position ++ "-" ++ String.ofList (originalHash.toList.take 8) ++ ".jpg"

/-- The photo of a slot. -/
def World.slotPhoto (w : World) (report : ReportRef) (kind : String) (position : Nat) :
    Option (PhotoRef × ReportPhoto) :=
  w.reportPhotos.findFirst fun _ photo => photo.slot = (report, kind, position)

def saveReportPhoto (existing : Option (PhotoRef × ReportPhoto)) (row : ReportPhoto) : Act Unit :=
  match existing with
  | none => Prog.perform (Stmt.createReportPhoto row)
  | some old => Prog.perform (Stmt.updateReportPhoto old.1 row)

/-- Delete the object of the photo a new one replaced, best effort. -/
def deleteSuperseded (existing : Option (PhotoRef × ReportPhoto)) (r2Key : String) : Act Unit :=
  match existing with
  | none => pure ()
  | some old =>
    Prog.when (old.2.r2Key ≠ r2Key) (quietly (Prog.perform (Stmt.deleteObject old.2.r2Key)))

/-- Store the object, save the row, drop what it replaced, and rewrite the manifest. -/
def storeReportPhoto (report : ReportRef) (existing : Option (PhotoRef × ReportPhoto))
    (row : ReportPhoto) : Act Unit := do
  Prog.perform (Stmt.putReportObject report row.r2Key)
  saveReportPhoto existing row
  deleteSuperseded existing row.r2Key
  mirrorPhotosManifest report

/-- Upload a photo to its slot; the same original sent again changes nothing. -/
def uploadReportPhoto (deviceId : String) (report : ReportRef) (dto : UploadPhoto) : Act Unit := do
  let _ ← requireOwned deviceId report
  let configured ← isR2Configured
  if configured = false then
    throw (.http 503 "storage_unavailable" "Cloud storage is not configured on this server")
  else do
    let originalHash ← fetch .configured (·.sha256 dto.buffer)
    if hashMatches dto.hash originalHash = false then
      throw (.http 400 "hash_mismatch" "Provided hash does not match the uploaded bytes")
    else do
      let existing ← fetch .reportPhoto (·.slotPhoto report dto.kind dto.position)
      if existing.any fun old => old.2.hash = some originalHash then pure ()
      else if dto.readable = false then throw .processing
      else
        storeReportPhoto report existing ⟨report, dto.kind, dto.position,
          reportPhotoKey deviceId report dto originalHash, some originalHash⟩

/-- Delete a photo of a report, its object first. -/
def deleteReportPhoto (deviceId : String) (report : ReportRef) (photo : PhotoRef) : Act Unit := do
  let _ ← requireOwned deviceId report
  match ← fetch .reportPhoto (·.reportPhotos.get photo) with
  | none => throw (notFound ("Photo " ++ toString photo ++ " not found"))
  | some row =>
    if row.reportId ≠ report then throw (notFound ("Photo " ++ toString photo ++ " not found"))
    else do
      let configured ← isR2Configured
      Prog.when configured (Prog.perform (Stmt.deleteObject row.r2Key))
      Prog.perform (Stmt.deleteReportPhoto photo report)
      mirrorPhotosManifest report

end Photos

section Calls

/-- What is asked of the showroom and of the photos of reports. -/
inductive Call where
  | create (seller : UserRef) (reportCode : String)
  | createManual (seller : UserRef) (dto : CreateManualListing)
  | update (user : UserRef) (listing : ListingRef) (dto : UpdateListing)
  | publish (user : UserRef) (listing : ListingRef)
  | unpublish (user : UserRef) (listing : ListingRef)
  | markSold (user : UserRef) (listing : ListingRef)
  | remove (user : UserRef) (listing : ListingRef)
  | adminDelete (listing : ListingRef)
  | adminHide (listing : ListingRef) (reason : String)
  | adminUnhide (listing : ListingRef)
  | adminRemoveVideo (listing : ListingRef)
  | addPhoto (user : UserRef) (listing : ListingRef) (dto : UploadListingPhoto)
  | deletePhoto (user : UserRef) (listing : ListingRef) (photo : PhotoRef)
  | reorderPhotos (user : UserRef) (listing : ListingRef) (ids : List PhotoRef)
  | mirrorShowroomPhotos (listing : ListingRef)
  | mirrorPendingShowroomPhotos (batchSize : Nat)
  | erasePublicPhotoObjects (seller : UserRef)
  | uploadReportPhoto (deviceId : String) (report : ReportRef) (dto : UploadPhoto)
  | deleteReportPhoto (deviceId : String) (report : ReportRef) (photo : PhotoRef)
  deriving DecidableEq, Repr

/-- A program whose answer nobody waits for. -/
def answered {α : Type} (p : Act α) : Act Unit := do
  let _ ← p
  pure ()

def Call.prog : Call → Act Unit
  | create seller reportCode => answered (Listings.create seller reportCode)
  | createManual seller dto => answered (Listings.createManual seller dto)
  | update user listing dto => Listings.update user listing dto
  | publish user listing => Listings.publish user listing
  | unpublish user listing => Listings.unpublish user listing
  | markSold user listing => Listings.markSold user listing
  | remove user listing => Listings.remove user listing
  | adminDelete listing => Listings.adminDelete listing
  | adminHide listing reason => Listings.adminHide listing reason
  | adminUnhide listing => Listings.adminUnhide listing
  | adminRemoveVideo listing => Listings.adminRemoveVideo listing
  | addPhoto user listing dto => answered (Listings.addPhoto user listing dto)
  | deletePhoto user listing photo => Listings.deletePhoto user listing photo
  | reorderPhotos user listing ids => Listings.reorderPhotos user listing ids
  | mirrorShowroomPhotos listing => answered (Listings.mirrorShowroomPhotos listing)
  | mirrorPendingShowroomPhotos batchSize => Listings.mirrorPendingShowroomPhotos batchSize
  | erasePublicPhotoObjects seller => Listings.erasePublicPhotoObjects seller
  | uploadReportPhoto deviceId report dto => Listings.uploadReportPhoto deviceId report dto
  | deleteReportPhoto deviceId report photo => Listings.deleteReportPhoto deviceId report photo

/-- The calls, all at their first step. -/
def launch {γ : Type} (w : World) (hist : γ) (calls : List Call) : Run γ :=
  ⟨w, hist, calls.map Call.prog⟩

/-- The calls, one after another. -/
def sequence {γ : Type} (w : World) (hist : γ) (calls : List Call) : Run γ :=
  ⟨w, hist, [series (calls.map Call.prog)]⟩

end Calls

end CarSalePro.Listings
