import CarSalePro.Listings.Gallery

namespace CarSalePro.Listings

open Store Interleave Prog

section Drafts

/-- The answer to every claim of a report that fails. -/
def unclaimable : Err := .http 404 "report_not_claimable"
  "This Report ID is not available. It may not exist or may already be in use."

/-- The last report with this code that is not deleted. -/
def World.claimable (w : World) (reportCode : String) : Option (ReportRef × Report) :=
  w.reports.findLast fun _ report => report.code = reportCode ∧ report.deletedAt = none

def draftOf (seller : UserRef) (report : ReportRef × Report) : Listing where
  sellerId := seller
  reportId := some report.1
  source := .report
  status := .draft
  priceCents := 0
  city := ""
  vehicle := report.2.vehicle
  contactPhone := none
  contactEmail := none
  youtubeVideoId := none
  publishedAt := none
  publicPhotosMirroredAt := none
  adminHiddenAt := none
  adminHiddenReason := none

/-- Only the caller who claimed a report is told that it is claimed. -/
def claimFailure (seller : UserRef) (report : ReportRef) : Act Err := do
  let claimed ← fetch .claimedListing fun w => w.listings.any fun _ row =>
    row.reportId = some report ∧ row.sellerId = seller
  if claimed then
    pure (.http 409 "own_listing_exists"
      "You have already used this Report ID for one of your listings.")
  else pure unclaimable

/-- Claim a report and open a draft for it. -/
def create (seller : UserRef) (reportCode : String) : Act ListingRef := do
  match ← fetch .claimReport (·.claimable reportCode) with
  | none => throw unclaimable
  | some report =>
    match ← attempt (Prog.perform (Stmt.createListing (draftOf seller report))) with
    | .ok listing => pure listing
    | .error .uniqueViolation => do
      let failure ← claimFailure seller report.1
      throw failure
    | .error e => throw e

/-- What a seller declares of a car that was not inspected. -/
structure CreateManualListing where
  priceCents : Option Int
  city : Option String
  vehicle : VehicleColumns
  contactPhone : Option String
  contactEmail : Option String
  youtubeVideoId : Option String
  deriving DecidableEq, Repr

/-- Open a draft for a car that was not inspected. -/
def createManual (seller : UserRef) (dto : CreateManualListing) : Act ListingRef :=
  Prog.perform (Stmt.createListing {
    sellerId := seller
    reportId := none
    source := .manual
    status := .draft
    priceCents := dto.priceCents.getD 0
    city := dto.city.getD ""
    vehicle := dto.vehicle
    contactPhone := dto.contactPhone
    contactEmail := dto.contactEmail
    youtubeVideoId := dto.youtubeVideoId
    publishedAt := none
    publicPhotosMirroredAt := none
    adminHiddenAt := none
    adminHiddenReason := none })

/-- Patch the editable fields of an owned listing that is not deleted. -/
def update (user : UserRef) (listing : ListingRef) (dto : UpdateListing) : Act Unit := do
  let row ← requireOwnedListing user listing
  if row.status = .deleted then
    throw (.http 400 "listing_deleted" "Cannot edit a deleted listing")
  else if dto.vehicle.isSome ∧ row.source ≠ .manual then
    throw (.http 400 "vehicle_immutable"
      "This listing is backed by an inspection report; its vehicle data cannot be edited.")
  else Prog.perform (Stmt.patchListing listing dto)

end Drafts

section Publish

/-- The fields every published listing needs. -/
def missingFields (row : Listing) : List String :=
  (if row.priceCents ≤ 0 then ["priceCents"] else []) ++
    if row.city = "" then ["city"] else []

/-- The fields a listing without a report needs, but for its photos. -/
def missingVehicle (vehicle : VehicleColumns) : List String :=
  (if vehicle.make.getD "" = "" then ["make"] else []) ++
    (if vehicle.model.getD "" = "" then ["model"] else []) ++
      if vehicle.year.getD 0 = 0 then ["year"] else []

def incompleteListing (missing : List String) : Act Unit :=
  Prog.when (missing ≠ []) (throw (.http 400 "incomplete_listing"
    ("Cannot publish — missing: " ++ ", ".intercalate missing)))

/-- The publish gate. -/
def assertPublishable (listing : ListingRef) (row : Listing) : Act Unit :=
  match row.source with
  | .report => incompleteListing (missingFields row)
  | .manual => do
    let photos ← countPhotos listing
    incompleteListing (missingFields row ++ missingVehicle row.vehicle ++
      if photos < 1 then ["photos"] else [])

/-- Once a listing is live, its showroom photos are mirrored, best effort. -/
def notifyListingPublished (listing : ListingRef) : Act Unit := do
  match ← fetch (.listing listing) (·.listings.get listing) with
  | none => pure ()
  | some _ => quietly (mirrorShowroomPhotos listing)

def activateStandard (listing : ListingRef) : Act Unit := do
  Prog.perform (Stmt.activateStandard listing)
  notifyListingPublished listing

/-- Publish an owned listing, unless an admin hid it. -/
def publish (user : UserRef) (listing : ListingRef) : Act Unit := do
  let row ← requireOwnedListing user listing
  if row.adminHiddenAt.isSome then
    throw (.http 409 "listing_hidden_by_admin"
      "The platform hid this listing. Only the platform can publish it again.")
  else do
    assertPublishable listing row
    activateStandard listing

/-- Hide a listing from the showroom. -/
def unpublish (user : UserRef) (listing : ListingRef) : Act Unit := do
  let _ ← requireOwnedListing user listing
  Prog.perform (Stmt.unpublish listing)

def markSold (user : UserRef) (listing : ListingRef) : Act Unit := do
  let _ ← requireOwnedListing user listing
  Prog.perform (Stmt.markSold listing)

end Publish

section Moderation

/-- Hide a live listing, with a reason. -/
def adminHide (listing : ListingRef) (reason : String) : Act Unit := do
  let before ← requireListing listing
  if before.status ≠ .active then
    throw (.http 409 "listing_not_active" "Only a live listing can be hidden")
  else Prog.perform (Stmt.adminHide listing reason)

/-- Restore a listing that an admin hid. -/
def adminUnhide (listing : ListingRef) : Act Unit := do
  let before ← requireListing listing
  if before.status ≠ .hidden ∨ before.adminHiddenAt = none then
    throw (.http 409 "listing_not_hidden_by_admin"
      "Only a listing that an admin hid can be unhidden")
  else Prog.perform (Stmt.adminUnhide listing before.publishedAt)

/-- Remove only the video of a listing. -/
def adminRemoveVideo (listing : ListingRef) : Act Unit := do
  let before ← requireListing listing
  if before.status = .deleted then
    throw (.http 409 "listing_already_deleted" "The listing is already deleted")
  else if before.youtubeVideoId.getD "" = "" then
    throw (.http 409 "listing_has_no_video" "The listing has no video")
  else Prog.perform (Stmt.adminRemoveVideo listing)

end Moderation

end CarSalePro.Listings
