import CarSalePro.Quota.Encoding
import Mathlib.Data.List.Sort

namespace CarSalePro.Listings

abbrev ListingRef := Nat

section Catalog

inductive AngleGroup where
  | exterior | wheel | interior | misc
  deriving DecidableEq, Repr

/-- `GROUP_RANK`. -/
def AngleGroup.rank : AngleGroup → Nat
  | exterior => 0
  | wheel => 1
  | interior => 2
  | misc => 3

def AngleGroup.name : AngleGroup → String
  | exterior => "exterior"
  | wheel => "wheel"
  | interior => "interior"
  | misc => "misc"

structure Angle where
  id : String
  group : AngleGroup
  order : Nat
  deriving DecidableEq, Repr

/-- The angles of a group, numbered in the order of the walk-around. -/
def numbered (group : AngleGroup) (first : Nat) (ids : List String) : List Angle :=
  ids.mapIdx fun i id => ⟨id, group, first + i⟩

/-- `CATALOG_V1.angles`. -/
def angles : List Angle :=
  numbered .exterior 1 ["diag_front_left", "left", "diag_rear_left", "rear", "trunk_open",
    "trunk_left", "trunk_right", "trunk_tools", "front", "hood_open", "engine_bay",
    "hood_underside", "engine_bay_left", "engine_bay_right", "diag_front_right", "right",
    "diag_rear_right"] ++
  numbered .interior 18 ["interior_front", "interior_door_trim_fl", "interior_rear",
    "interior_door_trim_rl", "interior_rear_armrest", "interior_dashboard",
    "interior_steering_wheel", "interior_head_unit", "interior_gear_selector", "interior_pedals",
    "interior_instrument_cluster", "interior_documents_keys", "interior_front_right",
    "interior_door_trim_fr", "interior_rear_right", "interior_door_trim_rr", "interior_boot"] ++
  numbered .wheel 35 ["wheel_fl", "wheel_fr", "wheel_rl", "wheel_rr"] ++
  numbered .misc 39 ["odometer", "vin_plate"]

def angleById (id : String) : Option Angle := angles.find? (·.id = id)

/-- What is left of a text after a prefix. -/
def stripPrefix (start text : String) : Option String :=
  (start.toList.isPrefixOf? text.toList).map String.ofList

/-- The group prefixes of a slot key, in the order they are tried. -/
def groupPrefixes : List AngleGroup := [.exterior, .interior, .wheel]

/-- The bare catalog angle behind a photo slot key. -/
def angleForKind (kind : Option String) : Option String :=
  match kind with
  | none => none
  | some kind =>
    if kind = "" then none
    else if (angleById kind).isSome then some kind
    else
      match groupPrefixes.find? fun group => (stripPrefix (group.name ++ "-") kind).isSome with
      | none => none
      | some group =>
        let rest := (stripPrefix (group.name ++ "-") kind).getD ""
        let joined := group.name ++ "_" ++ rest
        if (angleById rest).isSome then some rest
        else if (angleById joined).isSome then some joined
        else none

/-- `NON_ANGLE_RANK`, after every angle. -/
def nonAngleRanks : List (String × Nat) :=
  [("thickness-", 0), ("zeroproof", 1), ("obd", 2), ("service", 3), ("underbody-rust", 4),
    ("damage-", 5), ("repair-", 6), ("checklist-", 7)]

def nonAngleBase : Nat := 4000

/-- The rank of a photo slot key; lower sorts first. -/
def photoSortRank (kind : Option String) : Nat :=
  match (angleForKind kind).bind angleById with
  | some angle => angle.group.rank * 1000 + angle.order
  | none =>
    match nonAngleRanks.find? fun entry => (stripPrefix entry.1 (kind.getD "")).isSome with
    | some entry => nonAngleBase + entry.2
    | none => nonAngleBase + 100

/-- `comparePhotoKinds(a, b) <= 0`; texts of one rank are ordered by `localeCompare`. -/
def photoKindLE (localeCompare : String → String → Ordering) (a b : Option String) : Bool :=
  photoSortRank a < photoSortRank b ||
    (photoSortRank a = photoSortRank b && (localeCompare (a.getD "") (b.getD "")).isLE)

end Catalog

section Keys

/-- An object under `listings/`: the listing its key names, and the rest of the key. -/
structure PublicKey where
  listing : ListingRef
  file : String
  deriving DecidableEq, Repr

def PublicKey.path (key : PublicKey) : String :=
  "listings/" ++ toString key.listing ++ "/" ++ key.file

/-- The key of the small copy, when the object is a JPEG. -/
def thumbnailKey (key : PublicKey) : Option PublicKey :=
  let chars := key.file.toList
  let stem := chars.take (chars.length - 4)
  if (chars.drop (chars.length - 4)).map Char.toLower = ".jpg".toList then
    some ⟨key.listing, String.ofList stem ++ ".w640.webp"⟩
  else none

/-- The objects one `publicPutObject` writes and one `publicDeleteObject` deletes. -/
def copies (key : PublicKey) : List PublicKey := key :: (thumbnailKey key).toList

def maxListingPhotos : Nat := 40

inductive PhotoLocation where
  | publicBucket | reportsBucket
  deriving DecidableEq, Repr

/-- Where the bytes of a photo live: where its row says, while there is a public bucket. -/
def photoLocation (bucket : Option String) (publicBucketConfigured : Bool) : PhotoLocation :=
  if bucket.any (· ≠ "") && publicBucketConfigured then .publicBucket else .reportsBucket

/-- The public key of a mirrored report photo: a digest of the key of its source. -/
def mirroredPhotoKey (sha256 : String → String) (listing : ListingRef) (sourceKey : String) :
    PublicKey :=
  ⟨listing, "m-" ++ String.ofList ((sha256 sourceKey).toList.take 16) ++ ".jpg"⟩

end Keys

section Manifest

structure ManifestPhotoRef where
  s3Key : String
  kind : Option String
  angle : Option String
  deriving DecidableEq, Repr

def neverPublicKinds : List String := ["passport"]

/-- A slot kind that must not be published, at any index. -/
def isNeverPublicKind (kind : Option String) : Bool :=
  let value := String.ofList ((kind.getD "").toList.map Char.toLower)
  neverPublicKinds.any fun banned => value = banned ||
    (stripPrefix (banned ++ "-") value).isSome || (stripPrefix (banned ++ "_") value).isSome

/-- A property that is a text. -/
def textOf (name : String) (entry : Json) : Option String :=
  match entry.get name with
  | some (.str text) => some text
  | _ => none

/-- One entry of a manifest, if it counts as a photo. -/
def manifestPhotoRef (includeNeverPublic : Bool) (entry : Json) : Option ManifestPhotoRef :=
  match textOf "s3Key" entry with
  | none => none
  | some s3Key =>
    let kind := textOf "kind" entry
    if s3Key = "" then none
    else if !includeNeverPublic && isNeverPublicKind kind then none
    else
      let angle := (textOf "angle" entry).or (angleForKind kind)
      some ⟨s3Key, kind.filter (· ≠ ""), angle.filter (· ≠ "")⟩

def manifestEntries : Option Json → List Json
  | some (.arr entries) => entries
  | _ => []

/-- The photos of a report's manifest in gallery order, cut to `limit`; without one, all of
them. -/
def manifestPhotoRefs (localeCompare : String → String → Ordering) (manifest : Option Json)
    (limit : Option Nat) (includeNeverPublic : Bool) : List ManifestPhotoRef :=
  let parsed := (manifestEntries manifest).filterMap (manifestPhotoRef includeNeverPublic)
  let sorted := parsed.insertionSort fun a b => photoKindLE localeCompare a.kind b.kind
  match limit with
  | none => sorted
  | some limit => sorted.take limit

variable {localeCompare : String → String → Ordering} {manifest : Option Json}
  {ref : ManifestPhotoRef}

/-- A photo that may be published is one of all photos. -/
theorem manifestPhotoRef_mono {entry : Json} (h : manifestPhotoRef false entry = some ref) :
    manifestPhotoRef true entry = some ref := by
  unfold manifestPhotoRef at h ⊢
  cases hkey : textOf "s3Key" entry with
  | none => simp [hkey] at h
  | some s3Key =>
    simp only [hkey] at h ⊢
    by_cases hempty : s3Key = ""
    · simp [hempty] at h
    · by_cases hbanned : isNeverPublicKind (textOf "kind" entry) = true
      · simp [hempty, hbanned] at h
      · simpa [hempty, hbanned] using h

/-- The erasure walks over every photo that is ever shown. -/
theorem manifestPhotoRefs_subset {limit : Nat}
    (h : ref ∈ manifestPhotoRefs localeCompare manifest (some limit) false) :
    ref ∈ manifestPhotoRefs localeCompare manifest none true := by
  have hsorted := List.mem_of_mem_take h
  rw [List.mem_insertionSort, List.mem_filterMap] at hsorted
  obtain ⟨entry, hentry, href⟩ := hsorted
  show ref ∈ List.insertionSort _ _
  rw [List.mem_insertionSort, List.mem_filterMap]
  exact ⟨entry, hentry, manifestPhotoRef_mono href⟩

/-- No photo of a banned kind reaches the mirror. -/
theorem manifestPhotoRefs_public {limit : Option Nat}
    (h : ref ∈ manifestPhotoRefs localeCompare manifest limit false) :
    isNeverPublicKind ref.kind = false := by
  have hsorted : ref ∈ (manifestEntries manifest).filterMap (manifestPhotoRef false) := by
    cases limit with
    | none => exact (List.mem_insertionSort _).mp h
    | some limit => exact (List.mem_insertionSort _).mp (List.mem_of_mem_take h)
  obtain ⟨entry, -, href⟩ := List.mem_filterMap.mp hsorted
  unfold manifestPhotoRef at href
  cases hkey : textOf "s3Key" entry with
  | none => simp [hkey] at href
  | some s3Key =>
    simp only [hkey] at href
    split at href
    · cases href
    · split at href
      · cases href
      next hpublic =>
        cases href
        cases hkind : textOf "kind" entry with
        | none => rfl
        | some kind =>
          by_cases hempty : kind = ""
          · subst hempty
            rfl
          · simpa [hkind, hempty, Option.filter] using hpublic

end Manifest

end CarSalePro.Listings
