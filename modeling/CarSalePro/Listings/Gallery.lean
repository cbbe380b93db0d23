import CarSalePro.Listings.Mirror

namespace CarSalePro.Listings

open Store Interleave Prog

section Ownership

def notFound (message : String) : Err := .http 404 "not_found" message

/-- Load a listing the user owns. -/
def requireOwnedListing (user : UserRef) (listing : ListingRef) : Act Listing := do
  match ← fetch (.ownedListing listing) (·.listings.get listing) with
  | none => throw (notFound "Listing not found")
  | some row =>
    if row.sellerId ≠ user then
      throw (.http 403 "not_listing_owner" "You do not own this listing")
    else pure row

/-- Load a listing, whoever owns it. -/
def requireListing (listing : ListingRef) : Act Listing := do
  match ← fetch (.listing listing) (·.listings.get listing) with
  | none => throw (notFound "Listing not found")
  | some row => pure row

end Ownership

section Photos

/-- An upload to a gallery, with the random part of its key and whether the image can be
processed. -/
structure UploadListingPhoto where
  buffer : List UInt8
  hash : Option String
  order : Option Int
  caption : Option String
  uuid : String
  readable : Bool
  deriving DecidableEq, Repr

def uploadKey (listing : ListingRef) (uuid : String) : PublicKey := ⟨listing, uuid ++ ".jpg"⟩

/-- The digest a client declared is that of the bytes. -/
def hashMatches (declared : Option String) (originalHash : String) : Bool :=
  match declared with
  | none | some "" => true
  | some hash => String.ofList (hash.toList.map Char.toLower) = originalHash

/-- A new photo goes to the public bucket when there is one; the answer is what its row records. -/
def storeUpload (key : PublicKey) : Act (Option String) := do
  let configured ← isPublicBucketConfigured
  if configured then do
    let bucket ← publicPutObject .addPhoto key
    pure (some bucket)
  else do
    let _ ← (Prog.perform (Stmt.putObject key.path) : Act Unit)
    pure none

/-- The photo of a gallery that comes last. -/
def World.highestOrder (w : World) (listing : ListingRef) : Option Int :=
  ((w.gallery listing).getLast?).map (·.2.order)

def createPhoto (row : ListingPhoto) : Act PhotoRef := Prog.perform (Stmt.createPhoto row)

/-- Store the object of a photo, then its row. -/
def storePhoto (listing : ListingRef) (dto : UploadListingPhoto) (originalHash : String) :
    Act PhotoRef := do
  let r2Key := uploadKey listing dto.uuid
  let bucket ← storeUpload r2Key
  let highest ← fetch .highestOrder (·.highestOrder listing)
  let order := dto.order.getD (highest.elim 0 (· + 1))
  createPhoto ⟨listing, r2Key, bucket, some originalHash, order, dto.caption⟩

/-- The photo of the gallery with the same bytes. -/
def World.duplicatePhoto (w : World) (listing : ListingRef) (originalHash : String) :
    Option PhotoRef :=
  (w.photos.findFirst fun _ photo =>
    photo.listingId = listing ∧ photo.hash = some originalHash).map Prod.fst

def countPhotos (listing : ListingRef) : Act Nat :=
  fetch .countPhotos fun w => (w.gallery listing).length

/-- Add a photo to the gallery of a listing the user owns. -/
def addPhoto (user : UserRef) (listing : ListingRef) (dto : UploadListingPhoto) : Act PhotoRef := do
  let _ ← requireOwnedListing user listing
  let configured ← isR2Configured
  if configured = false then
    throw (.http 503 "storage_unavailable" "Cloud storage is not configured")
  else do
    let count ← countPhotos listing
    if maxListingPhotos ≤ count then
      throw (.http 400 "photo_limit_reached"
        ("A listing may hold at most " ++ toString maxListingPhotos ++ " photos"))
    else do
      let originalHash ← fetch .configured (·.sha256 dto.buffer)
      if hashMatches dto.hash originalHash = false then
        throw (.http 400 "hash_mismatch" "Provided hash does not match the uploaded bytes")
      else do
        match ← fetch .duplicatePhoto (·.duplicatePhoto listing originalHash) with
        | some duplicate => pure duplicate
        | none =>
          if dto.readable = false then throw .processing
          else storePhoto listing dto originalHash

/-- Delete the object of a photo from the bucket its row names. -/
def deleteStored (remover : Remover) (photo : ListingPhoto) : Act Unit := do
  let configured ← isPublicBucketConfigured
  match photoLocation photo.bucket configured with
  | .publicBucket => publicDeleteObject remover photo.r2Key
  | .reportsBucket => Prog.perform (Stmt.deleteObject photo.r2Key.path)

/-- Delete one photo, its object first. -/
def deletePhoto (user : UserRef) (listing : ListingRef) (photo : PhotoRef) : Act Unit := do
  let _ ← requireOwnedListing user listing
  match ← fetch .listPhotos (·.photos.get photo) with
  | none => throw (notFound "Photo not found")
  | some row =>
    if row.listingId ≠ listing then throw (notFound "Photo not found")
    else do
      let configured ← isR2Configured
      Prog.when configured (quietly (deleteStored .deletePhoto row))
      Prog.perform (Stmt.deletePhoto photo)

/-- Reorder a whole gallery: the request names every photo exactly once. -/
def reorderPhotos (user : UserRef) (listing : ListingRef) (ids : List PhotoRef) : Act Unit := do
  let _ ← requireOwnedListing user listing
  let current ← fetch .listPhotos fun w => (w.gallery listing).map Prod.fst
  if ¬(ids.Nodup ∧ ids.length = current.length ∧ ∀ photo ∈ ids, photo ∈ current) then
    throw (.http 400 "photo_order_mismatch"
      "ids must list every photo of this listing exactly once")
  else do
    Prog.perform (Stmt.reorderPhotos ids)
    let _ ← requireOwnedListing user listing
    let _ ← fetch .listPhotos (·.gallery listing)
    pure ()

end Photos

section Delete

/-- The keys the report photos of a stamped listing may be under. -/
def mirroredPublicKeys (listing : ListingRef) (row : Listing) : Act (List PublicKey) := do
  let configured ← isPublicBucketConfigured
  if configured = false then pure []
  else
    match row.reportId, row.publicPhotosMirroredAt with
    | some report, some _ =>
      fetch .mirroredManifest fun w =>
        (w.everyRef ((w.reports.get report).bind (·.photosManifest))).map (w.mirrorKey listing)
    | _, _ => pure []

/-- The delete itself: the keys are collected before the transaction, the objects deleted after. -/
def deleteWithPhotos (listing : ListingRef) (row : Listing) : Act Unit := do
  let photos ← fetch .listPhotos fun w => (w.gallery listing).map Prod.snd
  let mirrored ← mirroredPublicKeys listing row
  Prog.perform (Stmt.deleteWithPhotos listing)
  let configured ← isR2Configured
  Prog.when configured (do
    forEach photos fun photo => quietly (deleteStored .deleteWithPhotos photo)
    forEach mirrored fun key => quietly (publicDeleteObject .deleteWithPhotos key))

/-- Delete a draft or a hidden listing the user owns. -/
def remove (user : UserRef) (listing : ListingRef) : Act Unit := do
  let row ← requireOwnedListing user listing
  if row.status ≠ .draft ∧ row.status ≠ .hidden then
    throw (.http 400 "listing_not_deletable"
      "Only a draft or a hidden listing can be deleted. Unpublish an active listing first.")
  else deleteWithPhotos listing row

/-- Delete any listing that is not deleted yet. -/
def adminDelete (listing : ListingRef) : Act Unit := do
  let row ← requireListing listing
  if row.status = .deleted then
    throw (.http 409 "listing_already_deleted" "The listing is already deleted")
  else do
    deleteWithPhotos listing row
    let _ ← requireListing listing
    pure ()

end Delete

end CarSalePro.Listings
