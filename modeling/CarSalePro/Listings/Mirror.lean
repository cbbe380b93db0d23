import CarSalePro.Listings.World

namespace CarSalePro.Listings

open Store Interleave Prog

def isPublicBucketConfigured : Act Bool := fetch .configured (·.publicBucket.isSome)

def isR2Configured : Act Bool := fetch .configured (·.r2Configured)

section Storage

def putSmallCopy (writer : Writer) (key : PublicKey) : Act Unit := do
  let _ ← (Prog.perform (Stmt.publicPut writer key) : Act String)
  pure ()

/-- Store an object in the public bucket, and beside it the small copy of a JPEG, best effort. -/
def publicPutObject (writer : Writer) (key : PublicKey) : Act String := do
  let bucket ← (Prog.perform (Stmt.publicPut writer key) : Act String)
  match thumbnailKey key with
  | none => pure bucket
  | some smallKey => do
    quietly (putSmallCopy writer smallKey)
    pure bucket

/-- Delete an object of the public bucket, and its small copy. -/
def publicDeleteObject (remover : Remover) (key : PublicKey) : Act Unit :=
  forEach (copies key) fun k => Prog.perform (Stmt.publicDelete remover k)

def getObjectBytes (key : String) : Act Bool := fetch (.objectBytes key) fun w => key ∈ w.objects

end Storage

section Reads

variable (w : World) (listing : ListingRef)

/-- The photos of a listing, in gallery order. -/
def World.gallery : List (PhotoRef × ListingPhoto) :=
  (w.photos.findMany fun _ photo => photo.listingId = listing).insertionSort fun a b =>
    a.2.order ≤ b.2.order

/-- The uploads of a listing that are still in the private bucket. -/
def World.privateRows : List (PhotoRef × ListingPhoto) :=
  w.photos.findSorted (fun _ photo => photo.listingId = listing ∧ photo.bucket = none)
    (fun a b => a.order ≤ b.order) maxListingPhotos

/-- The manifest of the report of a listing. -/
def World.manifestOf (row : Listing) : Option Json :=
  row.reportId.bind fun report => (w.reports.get report).bind (·.photosManifest)

/-- The photos of a report the showroom displays. -/
def World.showroomRefs (row : Listing) : List ManifestPhotoRef :=
  manifestPhotoRefs w.localeCompare (w.manifestOf row) (some maxListingPhotos) false

/-- The photos of a report that may ever have been copied. -/
def World.everyRef (manifest : Option Json) : List ManifestPhotoRef :=
  manifestPhotoRefs w.localeCompare manifest none true

def World.mirrorKey (ref : ManifestPhotoRef) : PublicKey :=
  mirroredPhotoKey w.sha256Text listing ref.s3Key

/-- Live listings that are not mirrored, or have an upload in the private bucket, oldest first. -/
def World.pendingListings (batchSize : Nat) : List ListingRef :=
  (w.listings.findSorted (fun listing row => row.status = .active ∧
      (row.publicPhotosMirroredAt.isNone ∨
        w.photos.any fun _ photo => photo.listingId = listing ∧ photo.bucket = none))
    (fun a b => publishedBefore a.publishedAt b.publishedAt) batchSize).map Prod.fst
where
  /-- Ascending, and no date last. -/
  publishedBefore (a b : Option Instant) : Bool :=
    match a, b with
    | _, none => true
    | none, some _ => false
    | some a, some b => a ≤ b

end Reads

section Mirror

/-- What a failed copy adds to the count of failures. -/
def failed (body : Act Unit) : Act Bool := do
  match ← attempt body with
  | .ok _ => pure false
  | .error _ => pure true

/-- Copy an upload into the public bucket under its key, and record the bucket on its row. -/
def promote (row : PhotoRef × ListingPhoto) : Act Unit := do
  let found ← getObjectBytes row.2.r2Key.path
  Prog.when found (do
    let bucket ← publicPutObject .mirrorShowroomPhotos row.2.r2Key
    Prog.perform (Stmt.setBucket row.1 bucket))

/-- Copy a report photo under its mirrored key. -/
def mirrorRef (key : PublicKey) (s3Key : String) : Act Unit := do
  let found ← getObjectBytes s3Key
  Prog.when found (do
    let _ ← publicPutObject .mirrorShowroomPhotos key
    pure ())

/-- What a mirror reads first: the photos to copy, and where to. -/
def World.toMirror (w : World) (listing : ListingRef) : Option (List (PublicKey × String)) :=
  (w.listings.get listing).map fun row =>
    (w.showroomRefs row).map fun ref => (w.mirrorKey listing ref, ref.s3Key)

def privateRows (listing : ListingRef) : Act (List (PhotoRef × ListingPhoto)) :=
  fetch (.privateRows listing) (·.privateRows listing)

def stampMirrored (listing : ListingRef) : Act Unit := Prog.perform (Stmt.stampMirrored listing)

/-- Put the showroom photos of a listing in the public bucket, and stamp it when no copy failed. The
answer is the number of copies that did. -/
def mirrorShowroomPhotos (listing : ListingRef) : Act Nat := do
  let configured ← isPublicBucketConfigured
  if configured = false then pure 0
  else do
    let found ← fetch (.mirrorListing listing) (·.toMirror listing)
    match found with
    | none => pure 0
    | some refs => do
      let rows ← privateRows listing
      let unpromoted ← countEach rows fun row => failed (promote row)
      let unmirrored ← countEach refs fun ref => failed (mirrorRef ref.1 ref.2)
      Prog.when (unpromoted + unmirrored = 0) (stampMirrored listing)
      pure (unpromoted + unmirrored)

/-- The backlog: one batch of live listings that are not mirrored. -/
def mirrorPendingShowroomPhotos (batchSize : Nat) : Act Unit := do
  let configured ← isPublicBucketConfigured
  Prog.when configured (do
    let pending ← fetch .pendingListings (·.pendingListings batchSize)
    forEach pending fun listing => quietly (mirrorShowroomPhotos listing))

end Mirror

section Erasure

/-- The public uploads of a seller. -/
def World.publicRows (w : World) (seller : UserRef) : List PublicKey :=
  (w.photos.findMany fun _ photo => photo.bucket.isSome &&
    (w.listings.get photo.listingId).any fun row => row.sellerId = seller).map (·.2.r2Key)

/-- The stamped listings of a seller, with the keys their report photos may be under. -/
def World.stampedListings (w : World) (seller : UserRef) : List (ListingRef × List PublicKey) :=
  (w.listings.findMany fun _ row =>
      row.sellerId = seller ∧ row.publicPhotosMirroredAt.isSome).map fun found =>
    (found.1, (w.everyRef (w.manifestOf found.2)).map (w.mirrorKey found.1))

/-- Remove the public copies of the photos of a seller. Deletes that fail are only logged. -/
def erasePublicPhotoObjects (seller : UserRef) : Act Unit := do
  let configured ← isPublicBucketConfigured
  Prog.when configured (do
    let rows ← fetch (.publicRows seller) (·.publicRows seller)
    let listings ← fetch .stampedListings (·.stampedListings seller)
    forEach (rows ++ listings.flatMap Prod.snd) fun key =>
      quietly (publicDeleteObject .erasePublicPhotoObjects key)
    Prog.when (listings ≠ [])
      (Prog.perform (Stmt.clearMirrored (listings.map Prod.fst))))

end Erasure

end CarSalePro.Listings
