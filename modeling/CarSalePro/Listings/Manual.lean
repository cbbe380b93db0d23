import CarSalePro.Interleave.Pool
import CarSalePro.Listings.Columns
import CarSalePro.Store.Table

namespace CarSalePro.Manual

open Store Interleave Prog Listings

abbrev UserRef := Nat
abbrev ListingRef := Nat

inductive ListingStatus where
  | draft | active | expired | sold | hidden | deleted
  deriving DecidableEq, Repr

inductive ListingSource where
  | report | manual
  deriving DecidableEq, Repr

/-- A listing, as its seller edits it. -/
structure Listing where
  sellerId : UserRef
  source : ListingSource
  status : ListingStatus
  priceCents : Int
  city : String
  citySearch : Option String
  makeSearch : Option String
  modelSearch : Option String
  countryCode : Option String
  plz : Option String
  description : Option String
  contactPhone : Option String
  contactEmail : Option String
  youtubeVideoId : Option String
  columns : ProjectedVehicleColumns
  vehicleData : Option JsObject

/-- What opens a manual listing; a field left out is as good as a null. -/
structure CreateManualListing where
  priceCents : Option Int
  city : Option String
  countryCode : Option String
  plz : Option String
  description : Option String
  contactPhone : Option String
  contactEmail : Option String
  youtubeVideoId : Option String
  vehicleData : Option Json

/-- A partial update. A field is left out, or it is null, or it has a value. -/
structure UpdateListing where
  priceCents : Option (Option Int)
  city : Option (Option String)
  countryCode : Option (Option String)
  plz : Option (Option String)
  description : Option (Option String)
  contactPhone : Option (Option String)
  contactEmail : Option (Option String)
  youtubeVideoId : Option (Option String)
  vehicleData : Option Json

/-- The data of an update statement: the fields of the request, and what is derived of them. -/
structure ListingPatch where
  citySearch : Option String
  makeSearch : Option String
  modelSearch : Option String
  priceCents : Option (Option Int)
  city : Option (Option String)
  countryCode : Option (Option String)
  plz : Option (Option String)
  description : Option (Option String)
  contactPhone : Option (Option String)
  contactEmail : Option (Option String)
  youtubeVideoId : Option (Option String)
  vehicle : Option (ProjectedVehicleColumns × JsObject)

/-- The row under the patch. A column that must not be null refuses one. -/
def ListingPatch.apply (patch : ListingPatch) (row : Listing) : Option Listing := do
  let priceCents ← patch.priceCents.getD (some row.priceCents)
  let city ← patch.city.getD (some row.city)
  some { row with
    priceCents := priceCents
    city := city
    citySearch := patch.citySearch.or row.citySearch
    makeSearch := patch.makeSearch.or row.makeSearch
    modelSearch := patch.modelSearch.or row.modelSearch
    countryCode := patch.countryCode.getD row.countryCode
    plz := patch.plz.getD row.plz
    description := patch.description.getD row.description
    contactPhone := patch.contactPhone.getD row.contactPhone
    contactEmail := patch.contactEmail.getD row.contactEmail
    youtubeVideoId := patch.youtubeVideoId.getD row.youtubeVideoId
    columns := (patch.vehicle.map Prod.fst).getD row.columns
    vehicleData := (patch.vehicle.map Prod.snd).or row.vehicleData }

inductive Err where
  | http (status : Nat) (code : String) (message : String)
  | recordNotFound
  | nullColumn
  | database
  deriving DecidableEq, Repr

inductive Stmt where
  | create (row : Listing)
  | update (listing : ListingRef) (patch : ListingPatch)

abbrev Stmt.Resp : Stmt → Type
  | create _ => ListingRef
  | update _ _ => Unit

inductive Fate where
  | ok | fails
  deriving DecidableEq, Repr

abbrev World := Table ListingRef Listing

namespace World

def update (w : World) (listing : ListingRef) (patch : ListingPatch) :
    Except Err Unit × World :=
  match w.get listing with
  | none => (.error .recordNotFound, w)
  | some row =>
    match patch.apply row with
    | none => (.error .nullColumn, w)
    | some row' => (.ok (), w.set listing row')

def exec (s : Stmt) (c : Fate) (w : World) : Except Err s.Resp × World :=
  match c, s with
  | .fails, _ => (.error .database, w)
  | .ok, .create row => (.ok w.fresh, w.set w.fresh row)
  | .ok, .update listing patch => update w listing patch

end World

/-- Where a program reads. -/
inductive Site where
  | ownedListing (listing : ListingRef)
  deriving DecidableEq, Repr

def machine : Machine Site Stmt Stmt.Resp World Err Fate where
  exec := World.exec
  fault _ c := if c = .fails then some .database else none
  env _ w := w

abbrev Act (α : Type) := Prog Site Stmt Stmt.Resp World Err α

abbrev Run (γ : Type) := Pool Site Stmt Stmt.Resp World Err γ

section Operations

variable (lang : Language)

/-- The row a request opens. -/
def manualRow (user : UserRef) (dto : CreateManualListing) : Listing :=
  let vehicleData := (dto.vehicleData.filter Json.truthy).map normalizeVehicleDataDto
  let columns := (vehicleData.map (projectVehicleColumns lang)).getD noColumns
  let search := listingSearchColumns lang.toUnicode dto.city columns.make columns.model
  { sellerId := user
    source := .manual
    status := .draft
    priceCents := dto.priceCents.getD 0
    city := dto.city.getD ""
    citySearch := some search.citySearch
    makeSearch := some search.makeSearch
    modelSearch := some search.modelSearch
    countryCode := dto.countryCode
    plz := dto.plz
    description := dto.description
    contactPhone := dto.contactPhone
    contactEmail := dto.contactEmail
    youtubeVideoId := dto.youtubeVideoId
    columns := columns
    vehicleData := vehicleData }

/-- Open a listing for a car that has not been inspected. -/
def createManual (user : UserRef) (dto : CreateManualListing) : Act ListingRef :=
  Prog.perform (Stmt.create (manualRow lang user dto))

def requireOwnedListing (user : UserRef) (listing : ListingRef) : Act Listing := do
  match ← fetch (.ownedListing listing) (·.get listing) with
  | none => throw (.http 404 "not_found" "Listing not found")
  | some row =>
    if row.sellerId ≠ user then
      throw (.http 403 "not_listing_owner" "You do not own this listing")
    else pure row

/-- What the vehicle data of a request makes of a listing's own. -/
def vehiclePatch (stored : Option JsObject) (dto : Json) : ProjectedVehicleColumns × JsObject :=
  let merged := sanitizeVehicleData
    (mergeVehicleData (stored.getD []) (normalizeVehicleDataDto dto))
  (projectVehicleColumns lang merged, merged)

def patchOf (row : Listing) (dto : UpdateListing) : ListingPatch :=
  let vehicle := dto.vehicleData.map (vehiclePatch lang row.vehicleData)
  let search := listingSearchColumns lang.toUnicode
  { citySearch := dto.city.map fun city => (search city none none).citySearch
    makeSearch := vehicle.map fun patch => (search none patch.1.make none).makeSearch
    modelSearch := vehicle.map fun patch => (search none none patch.1.model).modelSearch
    priceCents := dto.priceCents
    city := dto.city
    countryCode := dto.countryCode
    plz := dto.plz
    description := dto.description
    contactPhone := dto.contactPhone
    contactEmail := dto.contactEmail
    youtubeVideoId := dto.youtubeVideoId
    vehicle := vehicle }

/-- Patch editable fields on an owned, non-deleted listing. -/
def update (user : UserRef) (listing : ListingRef) (dto : UpdateListing) : Act Unit := do
  let row ← requireOwnedListing user listing
  if row.status = .deleted then
    throw (.http 400 "listing_deleted" "Cannot edit a deleted listing")
  else if dto.vehicleData.isSome ∧ row.source ≠ .manual then
    throw (.http 400 "vehicle_immutable" ("This listing is backed by an inspection report; " ++
      "its vehicle data cannot be edited."))
  else Prog.perform (Stmt.update listing (patchOf lang row dto))

/-- What sellers ask. -/
inductive Call where
  | createManual (user : UserRef) (dto : CreateManualListing)
  | update (user : UserRef) (listing : ListingRef) (dto : UpdateListing)

def Call.prog : Call → Act Unit
  | createManual user dto => do
    let _ ← Manual.createManual lang user dto
    pure ()
  | update user listing dto => Manual.update lang user listing dto

/-- The calls, all at their first step. -/
def launch {γ : Type} (w : World) (hist : γ) (calls : List Call) : Run γ :=
  ⟨w, hist, calls.map (Call.prog lang)⟩

end Operations

end CarSalePro.Manual
