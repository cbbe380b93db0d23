import CarSalePro.Listings.Photos

section Sorting

variable {α : Type} {r : α → α → Prop} [DecidableRel r]

/-- Elements that are all in relation keep their order when the list is sorted. -/
theorem List.filter_insertionSort [Std.Total r] [IsTrans α r] {p : α → Bool}
    (hp : ∀ a b, p a → p b → r a b) (l : List α) : (l.insertionSort r).filter p = l.filter p := by
  have hpairwise : (l.filter p).Pairwise r := by
    refine List.Pairwise.imp_of_mem (R := fun _ _ => True) (fun ha hb _ => ?_) ?_
    · exact hp _ _ (List.mem_filter.mp ha).2 (List.mem_filter.mp hb).2
    · exact List.pairwise_of_forall fun _ _ => trivial
  have hsublist : (l.filter p).Sublist (l.insertionSort r) :=
    List.sublist_insertionSort hpairwise List.filter_sublist
  have hfiltered : (l.filter p).Sublist ((l.insertionSort r).filter p) := by
    have h := hsublist.filter p
    rwa [List.filter_filter, show (fun a => p a && p a) = p by simp] at h
  have hlength : (l.filter p).length = ((l.insertionSort r).filter p).length :=
    ((List.perm_insertionSort r l).filter p).length_eq.symm
  exact (hfiltered.eq_of_length hlength).symm

end Sorting

namespace CarSalePro.Listings

section Selection

/-- An entry that names a stored photo. -/
def wellFormed (entry : Json) : Bool := (textOf "s3Key" entry).any (· ≠ "")

/-- What the gallery reads of such an entry. -/
def photoOf (entry : Json) : ManifestPhotoRef where
  s3Key := (textOf "s3Key" entry).getD ""
  kind := (textOf "kind" entry).filter (· ≠ "")
  angle := ((textOf "angle" entry).or (angleForKind (textOf "kind" entry))).filter (· ≠ "")

/-- The photos of a manifest, as it lists them. -/
def photosOf (manifest : Option Json) (includeNeverPublic : Bool) : List ManifestPhotoRef :=
  ((manifestEntries manifest).filter fun entry =>
    wellFormed entry && (includeNeverPublic || !isNeverPublicKind (textOf "kind" entry))).map
      photoOf

/-- Neither of two kinds comes before the other. -/
def kindsTie (localeCompare : String → String → Ordering) (a b : Option String) : Bool :=
  photoKindLE localeCompare a b && photoKindLE localeCompare b a

/-- The photos a caller is given: those of the manifest, sorted and not reordered where they tie,
none of a banned kind unless asked for, under a limit the first of them, and none that an erasure
would miss. -/
structure SelectsPhotos (localeCompare : String → String → Ordering) (manifest : Option Json)
    (includeNeverPublic : Bool) : Prop where
  photos : (manifestPhotoRefs localeCompare manifest none includeNeverPublic).Perm
    (photosOf manifest includeNeverPublic)
  sorted : (manifestPhotoRefs localeCompare manifest none includeNeverPublic).Pairwise fun a b =>
    photoKindLE localeCompare a.kind b.kind
  ties : ∀ kind, (manifestPhotoRefs localeCompare manifest none includeNeverPublic).filter
      (kindsTie localeCompare kind ·.kind) =
    (photosOf manifest includeNeverPublic).filter (kindsTie localeCompare kind ·.kind)
  shareable : includeNeverPublic = false → ∀ limit,
    ∀ ref ∈ manifestPhotoRefs localeCompare manifest limit false, isNeverPublicKind ref.kind = false
  cut : ∀ limit, manifestPhotoRefs localeCompare manifest (some limit) includeNeverPublic =
    (manifestPhotoRefs localeCompare manifest none includeNeverPublic).take limit
  erasable : ∀ limit, ∀ ref ∈ manifestPhotoRefs localeCompare manifest limit includeNeverPublic,
    ref.s3Key ∈ (manifestPhotoRefs localeCompare manifest none true).map (·.s3Key)

end Selection

section Order

variable {localeCompare : String → String → Ordering} {a b c : Option String}

theorem photoKindLE_iff : photoKindLE localeCompare a b ↔ photoSortRank a < photoSortRank b ∨
    photoSortRank a = photoSortRank b ∧ (localeCompare (a.getD "") (b.getD "")).isLE := by
  simp [photoKindLE]

theorem photoKindLE_total [Std.TransCmp localeCompare] (a b : Option String) :
    photoKindLE localeCompare a b ∨ photoKindLE localeCompare b a := by
  rw [photoKindLE_iff, photoKindLE_iff]
  have htexts : (localeCompare (a.getD "") (b.getD "")).isLE ∨
      (localeCompare (b.getD "") (a.getD "")).isLE := by
    have hswap : localeCompare (b.getD "") (a.getD "") =
        (localeCompare (a.getD "") (b.getD "")).swap := Std.OrientedCmp.eq_swap
    rw [hswap]
    cases localeCompare (a.getD "") (b.getD "") <;> simp
  rcases Nat.lt_trichotomy (photoSortRank a) (photoSortRank b) with hlt | heq | hgt
  · exact .inl (.inl hlt)
  · exact htexts.imp (fun h => .inr ⟨heq, h⟩) fun h => .inr ⟨heq.symm, h⟩
  · exact .inr (.inl hgt)

theorem photoKindLE_trans [Std.TransCmp localeCompare] (hab : photoKindLE localeCompare a b)
    (hbc : photoKindLE localeCompare b c) : photoKindLE localeCompare a c := by
  rw [photoKindLE_iff] at hab hbc ⊢
  rcases hab with hab | ⟨hab, hle⟩
  · have hlt : photoSortRank a < photoSortRank c := by omega
    exact .inl hlt
  · rcases hbc with hbc | ⟨hbc, hle'⟩
    · exact .inl (hab ▸ hbc)
    · exact .inr ⟨hab.trans hbc, Std.TransCmp.isLE_trans hle hle'⟩

/-- Kinds that tie with one kind tie with each other. -/
theorem kindsTie_common [Std.TransCmp localeCompare] (h : kindsTie localeCompare c a)
    (h' : kindsTie localeCompare c b) : photoKindLE localeCompare a b := by
  simp only [kindsTie, Bool.and_eq_true] at h h'
  exact photoKindLE_trans h.2 h'.1

end Order

section Photos

variable {localeCompare : String → String → Ordering} {manifest : Option Json}
  {ref : ManifestPhotoRef} {flag : Bool}

theorem manifestPhotoRef_eq (flag : Bool) (entry : Json) : manifestPhotoRef flag entry =
    if wellFormed entry && (flag || !isNeverPublicKind (textOf "kind" entry)) then
      some (photoOf entry)
    else none := by
  unfold manifestPhotoRef wellFormed photoOf
  cases textOf "s3Key" entry with
  | none => simp
  | some s3Key =>
    by_cases hempty : s3Key = ""
    · simp [hempty]
    · cases flag <;> by_cases hbanned : isNeverPublicKind (textOf "kind" entry) = true <;>
        simp [hempty, hbanned]

theorem photosOf_eq : (manifestEntries manifest).filterMap (manifestPhotoRef flag) =
    photosOf manifest flag := by
  unfold photosOf
  rw [← List.filterMap_eq_map, List.filterMap_filter]
  congr 1
  funext entry
  exact manifestPhotoRef_eq flag entry

/-- Whatever is shown, under any limit, is one of the photos of the manifest. -/
theorem mem_photosOf {limit : Option Nat}
    (h : ref ∈ manifestPhotoRefs localeCompare manifest limit flag) :
    ref ∈ photosOf manifest flag := by
  rw [← photosOf_eq]
  cases limit with
  | none => exact (List.mem_insertionSort _).mp h
  | some limit => exact (List.mem_insertionSort _).mp (List.mem_of_mem_take h)

theorem photosOf_mono (h : ref ∈ photosOf manifest flag) : ref ∈ photosOf manifest true := by
  obtain ⟨entry, hentry, rfl⟩ := List.mem_map.mp h
  obtain ⟨hmem, hshown⟩ := List.mem_filter.mp hentry
  refine List.mem_map.mpr ⟨entry, List.mem_filter.mpr ⟨hmem, ?_⟩, rfl⟩
  rw [Bool.and_eq_true] at hshown ⊢
  exact ⟨hshown.1, rfl⟩

end Photos

section Banned

theorem stripPrefix_isSome {start text : String} : (stripPrefix start text).isSome = true ↔
    start.toList <+: text.toList := by
  rw [stripPrefix, Option.isSome_map, List.isSome_isPrefixOf?_eq_isPrefixOf,
    List.isPrefixOf_iff_prefix]

/-- In any case of its letters, `passport` is never public, alone or before a hyphen or an
underscore and any index. -/
theorem isNeverPublicKind_iff {kind : String} : isNeverPublicKind (some kind) = true ↔
    kind.toList.map Char.toLower = "passport".toList ∨
      "passport-".toList <+: kind.toList.map Char.toLower ∨
      "passport_".toList <+: kind.toList.map Char.toLower := by
  have hsame (text : String) : String.ofList (kind.toList.map Char.toLower) = text ↔
      kind.toList.map Char.toLower = text.toList := by
    constructor
    · intro h
      rw [← h, String.toList_ofList]
    · intro h
      rw [h, String.ofList_toList]
  simp only [isNeverPublicKind, neverPublicKinds, List.any_cons, List.any_nil, Bool.or_false,
    Bool.or_eq_true, decide_eq_true_eq, Option.getD_some, stripPrefix_isSome, hsame,
    String.toList_ofList, or_assoc]
  rfl

example : ["passport", "passport-2", "passport_2", "Passport-2"].all
    fun kind => isNeverPublicKind (some kind) := by decide +kernel

end Banned

/-- Whatever a manifest holds and whatever the limit, the photos are selected so. -/
theorem photos_selected (localeCompare : String → String → Ordering)
    [Std.TransCmp localeCompare] (manifest : Option Json) (includeNeverPublic : Bool) :
    SelectsPhotos localeCompare manifest includeNeverPublic := by
  let before (a b : ManifestPhotoRef) : Prop := photoKindLE localeCompare a.kind b.kind
  have htotal : Std.Total before := ⟨fun a b => photoKindLE_total a.kind b.kind⟩
  have htrans : IsTrans ManifestPhotoRef before := ⟨fun _ _ _ h h' => photoKindLE_trans h h'⟩
  have hall : manifestPhotoRefs localeCompare manifest none includeNeverPublic =
      (photosOf manifest includeNeverPublic).insertionSort before := by
    rw [← photosOf_eq]
    rfl
  refine ⟨?_, ?_, fun kind => ?_, ?_, fun limit => rfl, fun limit ref href => ?_⟩
  · rw [hall]
    exact List.perm_insertionSort before _
  · rw [hall]
    exact List.pairwise_insertionSort before _
  · rw [hall]
    exact List.filter_insertionSort (r := before) (fun a b ha hb => kindsTie_common ha hb) _
  · exact fun _ limit ref href => manifestPhotoRefs_public href
  · have hphoto : ref ∈ manifestPhotoRefs localeCompare manifest none true := by
      show ref ∈ List.insertionSort _ _
      rw [List.mem_insertionSort, photosOf_eq]
      exact photosOf_mono (mem_photosOf href)
    exact List.mem_map.mpr ⟨ref, hphoto, rfl⟩

/-- A manifest in alphabetical order, as old reports have it. -/
def alphabetical : Json := .arr [
  .obj [("s3Key", .str "d"), ("kind", .str "damage-1")],
  .obj [("s3Key", .str "p"), ("kind", .str "Passport-2")],
  .obj [("kind", .str "left")],
  .obj [("s3Key", .str "f"), ("kind", .str "exterior-front")],
  .obj [("s3Key", .str "l"), ("kind", .str "left")],
  .obj [("s3Key", .str "g"), ("kind", .str "front")]]

/-- The registration document is left out of a list that has room for it. -/
theorem photos_selected_alphabetical :
    (manifestPhotoRefs compare (some alphabetical) (some 5) false).map (·.s3Key) =
        ["l", "f", "g", "d"] ∧
      (manifestPhotoRefs compare (some alphabetical) (some 5) true).map (·.s3Key) =
        ["l", "f", "g", "d", "p"] ∧
      SelectsPhotos compare (some alphabetical) false :=
  ⟨by decide +kernel, by decide +kernel, photos_selected compare (some alphabetical) false⟩

end CarSalePro.Listings
