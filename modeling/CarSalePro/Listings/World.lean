import Mathlib.Data.Finset.Basic
import CarSalePro.Interleave.Pool
import CarSalePro.Listings.Photos
import CarSalePro.Store.Table

namespace CarSalePro.Listings

open Store Interleave Prog

abbrev UserRef := Nat
abbrev ReportRef := Nat
abbrev PhotoRef := Nat
abbrev Instant := Int

inductive ListingStatus where
  | draft | active | expired | sold | hidden | deleted
  deriving DecidableEq, Repr

def ListingStatus.name : ListingStatus → String
  | draft => "DRAFT"
  | active => "ACTIVE"
  | expired => "EXPIRED"
  | sold => "SOLD"
  | hidden => "HIDDEN"
  | deleted => "DELETED"

/-- How the vehicle data of a listing was obtained. -/
inductive ListingSource where
  | report | manual
  deriving DecidableEq, Repr

/-- The vehicle facts the publish gate asks for. -/
structure VehicleColumns where
  make : Option String
  model : Option String
  year : Option Int
  deriving DecidableEq, Repr

structure Listing where
  sellerId : UserRef
  reportId : Option ReportRef
  source : ListingSource
  status : ListingStatus
  priceCents : Int
  city : String
  vehicle : VehicleColumns
  contactPhone : Option String
  contactEmail : Option String
  youtubeVideoId : Option String
  publishedAt : Option Instant
  publicPhotosMirroredAt : Option Instant
  adminHiddenAt : Option Instant
  adminHiddenReason : Option String
  deriving DecidableEq, Repr

/-- A photo of a seller's own gallery. No bucket is the private one. -/
structure ListingPhoto where
  listingId : ListingRef
  r2Key : PublicKey
  bucket : Option String
  hash : Option String
  order : Int
  caption : Option String
  deriving DecidableEq, Repr

structure Report where
  code : String
  deviceId : String
  deletedAt : Option Instant
  vehicle : VehicleColumns
  photosManifest : Option Json

structure ReportPhoto where
  reportId : ReportRef
  kind : String
  position : Nat
  r2Key : String
  hash : Option String
  deriving DecidableEq, Repr

/-- The slot of a report photo. -/
def ReportPhoto.slot (photo : ReportPhoto) : ReportRef × String × Nat :=
  (photo.reportId, photo.kind, photo.position)

/-- The database, the two buckets and the configuration. `objects` and `publicObjects` are the keys
under which the private and the public bucket hold an object. -/
structure World where
  listings : Table ListingRef Listing
  photos : Table PhotoRef ListingPhoto
  reports : Table ReportRef Report
  reportPhotos : Table PhotoRef ReportPhoto
  objects : Finset String
  publicObjects : Finset PublicKey
  now : Instant
  r2Configured : Bool
  publicBucket : Option String
  sha256 : List UInt8 → String
  sha256Text : String → String
  localeCompare : String → String → Ordering

inductive Err where
  | http (status : Nat) (code : String) (message : String)
  | recordNotFound
  | uniqueViolation
  | foreignKey
  | database
  | storage
  | processing
  deriving DecidableEq, Repr

/-- A partial update of the editable fields; `vehicle` is what merging and sanitising makes of the
vehicle data of the request. -/
structure UpdateListing where
  priceCents : Option Int
  city : Option String
  contactPhone : Option (Option String)
  contactEmail : Option (Option String)
  youtubeVideoId : Option (Option String)
  vehicle : Option VehicleColumns
  deriving DecidableEq, Repr

def UpdateListing.apply (dto : UpdateListing) (row : Listing) : Listing := { row with
  priceCents := dto.priceCents.getD row.priceCents
  city := dto.city.getD row.city
  contactPhone := dto.contactPhone.getD row.contactPhone
  contactEmail := dto.contactEmail.getD row.contactEmail
  youtubeVideoId := dto.youtubeVideoId.getD row.youtubeVideoId
  vehicle := dto.vehicle.getD row.vehicle }

/-- Who stores a public object. -/
inductive Writer where
  | addPhoto | mirrorShowroomPhotos
  deriving DecidableEq, Repr

/-- Who deletes a public object. -/
inductive Remover where
  | deletePhoto | deleteWithPhotos | erasePublicPhotoObjects
  deriving DecidableEq, Repr

/-- The writes of listings and report photos, each one request to the database or a bucket. -/
inductive Stmt where
  | createListing (row : Listing)
  | patchListing (listing : ListingRef) (dto : UpdateListing)
  | activateStandard (listing : ListingRef)
  | unpublish (listing : ListingRef)
  | markSold (listing : ListingRef)
  | deleteWithPhotos (listing : ListingRef)
  | adminHide (listing : ListingRef) (reason : String)
  | adminUnhide (listing : ListingRef) (publishedAt : Option Instant)
  | adminRemoveVideo (listing : ListingRef)
  | stampMirrored (listing : ListingRef)
  | clearMirrored (listings : List ListingRef)
  | createPhoto (row : ListingPhoto)
  | setBucket (photo : PhotoRef) (bucket : String)
  | deletePhoto (photo : PhotoRef)
  | reorderPhotos (photos : List PhotoRef)
  | putObject (key : String)
  | putReportObject (report : ReportRef) (key : String)
  | deleteObject (key : String)
  | publicPut (writer : Writer) (key : PublicKey)
  | publicDelete (remover : Remover) (key : PublicKey)
  | createReportPhoto (row : ReportPhoto)
  | updateReportPhoto (photo : PhotoRef) (row : ReportPhoto)
  | deleteReportPhoto (photo : PhotoRef) (report : ReportRef)
  | writeManifest (report : ReportRef) (manifest : Json)
  | invalidateMirror (report : ReportRef)

abbrev Stmt.Resp : Stmt → Type
  | createListing _ => ListingRef
  | createPhoto _ => PhotoRef
  | publicPut _ _ => String
  | _ => Unit

/-- How a request ends. -/
inductive Fate where
  | ok | fails
  deriving DecidableEq, Repr

namespace World

/-- `listing.update`. -/
def updateListing (w : World) (listing : ListingRef) (f : Listing → Listing) :
    Except Err Unit × World :=
  match w.listings.get listing with
  | none => (.error .recordNotFound, w)
  | some row => (.ok (), { w with listings := w.listings.set listing (f row) })

/-- `listing.create`; the report of a listing is its own. -/
def createListing (w : World) (row : Listing) : Except Err ListingRef × World :=
  if row.reportId.isSome && w.listings.any fun _ other => other.reportId = row.reportId then
    (.error .uniqueViolation, w)
  else (.ok w.listings.fresh, { w with listings := w.listings.set w.listings.fresh row })

def deletedRow (row : Listing) : Listing := { row with
  status := .deleted
  reportId := none
  publicPhotosMirroredAt := none
  contactPhone := none
  contactEmail := none
  youtubeVideoId := none }

/-- The transaction of a delete: the gallery rows go, and the listing is marked. -/
def deleteWithPhotos (w : World) (listing : ListingRef) : Except Err Unit × World :=
  match w.listings.get listing with
  | none => (.error .recordNotFound, w)
  | some row => (.ok (), { w with
      photos := w.photos.deleteMany fun _ photo => photo.listingId = listing
      listings := w.listings.set listing (deletedRow row) })

/-- `listingPhoto.create`; keys are unique. -/
def createPhoto (w : World) (row : ListingPhoto) : Except Err PhotoRef × World :=
  if (w.listings.get row.listingId).isNone then (.error .foreignKey, w)
  else if w.photos.any fun _ other => other.r2Key = row.r2Key then (.error .uniqueViolation, w)
  else (.ok w.photos.fresh, { w with photos := w.photos.set w.photos.fresh row })

def updatePhoto (w : World) (photo : PhotoRef) (f : ListingPhoto → ListingPhoto) :
    Except Err Unit × World :=
  match w.photos.get photo with
  | none => (.error .recordNotFound, w)
  | some row => (.ok (), { w with photos := w.photos.set photo (f row) })

/-- The transaction of a reorder: every photo takes its place, or none does. -/
def reorderPhotos (w : World) (photos : List PhotoRef) : Except Err Unit × World :=
  if photos.all fun photo => (w.photos.get photo).isSome then
    (.ok (), { w with photos := w.photos.rewrite fun photo row =>
      (photos.findIdx? (· = photo)).map fun index => { row with order := index } })
  else (.error .recordNotFound, w)

/-- Another photo has this slot, or this key. -/
def reportPhotoTaken (w : World) (photo : Option PhotoRef) (row : ReportPhoto) : Bool :=
  w.reportPhotos.any fun other held =>
    some other ≠ photo && (held.slot = row.slot || held.r2Key = row.r2Key)

def createReportPhoto (w : World) (row : ReportPhoto) : Except Err Unit × World :=
  if (w.reports.get row.reportId).isNone then (.error .foreignKey, w)
  else if w.reportPhotoTaken none row then (.error .uniqueViolation, w)
  else (.ok (), { w with reportPhotos := w.reportPhotos.set w.reportPhotos.fresh row })

def updateReportPhoto (w : World) (photo : PhotoRef) (row : ReportPhoto) :
    Except Err Unit × World :=
  if (w.reportPhotos.get photo).isNone then (.error .recordNotFound, w)
  else if w.reportPhotoTaken (some photo) row then (.error .uniqueViolation, w)
  else (.ok (), { w with reportPhotos := w.reportPhotos.set photo row })

def writeManifest (w : World) (report : ReportRef) (manifest : Json) : Except Err Unit × World :=
  match w.reports.get report with
  | none => (.error .recordNotFound, w)
  | some row =>
    (.ok (), { w with
      reports := w.reports.set report { row with photosManifest := some manifest } })

/-- The listings of the report lose their stamp. -/
def invalidateMirror (w : World) (report : ReportRef) : World := { w with
  listings := w.listings.rewrite fun _ row =>
    if row.reportId = some report ∧ row.publicPhotosMirroredAt.isSome then
      some { row with publicPhotosMirroredAt := none }
    else none }

/-- Without a public bucket there is nothing to put an object in. -/
def publicPut (w : World) (key : PublicKey) : Except Err String × World :=
  match w.publicBucket with
  | none => (.error .storage, w)
  | some bucket => (.ok bucket, { w with publicObjects := insert key w.publicObjects })

/-- The row of a delete must be there. -/
def requireRow {κ ν : Type} (table : Table κ ν) (k : κ) (w w' : World) : Except Err Unit × World :=
  if (table.get k).isSome then (.ok (), w') else (.error .recordNotFound, w)

def write (w : World) : (s : Stmt) → Except Err s.Resp × World
  | .createListing row => w.createListing row
  | .patchListing listing dto => w.updateListing listing dto.apply
  | .activateStandard listing => w.updateListing listing fun row =>
      { row with status := .active, publishedAt := some w.now }
  | .unpublish listing => w.updateListing listing fun row => { row with status := .hidden }
  | .markSold listing => w.updateListing listing fun row => { row with status := .sold }
  | .deleteWithPhotos listing => w.deleteWithPhotos listing
  | .adminHide listing reason => w.updateListing listing fun row => { row with
      status := .hidden, adminHiddenAt := some w.now, adminHiddenReason := some reason }
  | .adminUnhide listing publishedAt => w.updateListing listing fun row => { row with
      status := .active, publishedAt := publishedAt.or (some w.now), adminHiddenAt := none,
      adminHiddenReason := none }
  | .adminRemoveVideo listing =>
    w.updateListing listing fun row => { row with youtubeVideoId := none }
  | .stampMirrored listing => w.updateListing listing fun row =>
      { row with publicPhotosMirroredAt := some w.now }
  | .clearMirrored listings => (.ok (), { w with
      listings := w.listings.rewrite fun listing row =>
        if listing ∈ listings then some { row with publicPhotosMirroredAt := none } else none })
  | .createPhoto row => w.createPhoto row
  | .setBucket photo bucket => w.updatePhoto photo fun row => { row with bucket := some bucket }
  | .deletePhoto photo => requireRow w.photos photo w
      { w with photos := w.photos.deleteMany fun other _ => other = photo }
  | .reorderPhotos photos => w.reorderPhotos photos
  | .putObject key => (.ok (), { w with objects := insert key w.objects })
  | .putReportObject _ key => (.ok (), { w with objects := insert key w.objects })
  | .deleteObject key => (.ok (), { w with objects := w.objects.erase key })
  | .publicPut _ key => w.publicPut key
  | .publicDelete _ key => (.ok (), { w with publicObjects := w.publicObjects.erase key })
  | .createReportPhoto row => w.createReportPhoto row
  | .updateReportPhoto photo row => w.updateReportPhoto photo row
  | .deleteReportPhoto photo _ => requireRow w.reportPhotos photo w
      { w with reportPhotos := w.reportPhotos.deleteMany fun other _ => other = photo }
  | .writeManifest report manifest => w.writeManifest report manifest
  | .invalidateMirror report => (.ok (), w.invalidateMirror report)

/-- A request that fails is answered by an error of the service it was made to, and changes
nothing. -/
def exec (s : Stmt) (c : Fate) (w : World) : Except Err s.Resp × World :=
  match c with
  | .ok => w.write s
  | .fails =>
    match s with
    | .putObject _ | .putReportObject _ _ | .deleteObject _ | .publicPut _ _ | .publicDelete _ _ =>
      (.error .storage, w)
    | _ => (.error .database, w)

end World

/-- Where a program reads: the method the read is made in. -/
inductive Site where
  | configured | ownedListing (listing : ListingRef) | listing (listing : ListingRef)
  | claimReport | claimedListing | countPhotos | duplicatePhoto | highestOrder | listPhotos
  | mirrorListing (listing : ListingRef) | privateRows (listing : ListingRef)
  | objectBytes (key : String) | mirroredManifest | publicRows (seller : UserRef) | stampedListings
  | pendingListings | ownedReport | reportPhoto | manifestRows (report : ReportRef)
  deriving DecidableEq, Repr

/-- The configuration is read without a request. -/
def World.fault (site : Site) : Fate → Option Err
  | .ok => none
  | .fails =>
    match site with
    | .configured => none
    | .objectBytes _ => some .storage
    | _ => some .database

/-- Between the steps, time passes. -/
def machine : Machine Site Stmt Stmt.Resp World Err Fate where
  exec := World.exec
  fault := World.fault
  env _ w := { w with now := w.now + 1 }

abbrev Act (α : Type) := Prog Site Stmt Stmt.Resp World Err α

abbrev Run (γ : Type) := Pool Site Stmt Stmt.Resp World Err γ

/-- A condition on the steps of the showroom. -/
abbrev StepGuard (γ : Type) := Guard Site Stmt World Fate γ

/-- No condition. -/
def anyStep {γ : Type} : StepGuard γ := fun _ _ _ _ => true

end CarSalePro.Listings
