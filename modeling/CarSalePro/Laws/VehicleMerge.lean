import CarSalePro.Listings.VehicleData

namespace CarSalePro.Listings

section MergePatch

mutual

/-- RFC 7396: what the patch makes of the target. A target that is no object counts as an empty
one. -/
def mergePatch (target : Option Json) : Json → Json
  | .obj patch =>
    .obj (mergeMembers (match target with | some (.obj fields) => fields | _ => []) patch)
  | value => value

/-- The members of the patch, one after another. -/
def mergeMembers (target : JsObject) : JsObject → JsObject
  | [] => target
  | (name, .null) :: patch => mergeMembers (erase name target) patch
  | (name, value) :: patch =>
    mergeMembers (assign name (mergePatch (target.lookup name) value) target) patch

end

mutual

/-- No object in the value has a null member; what is in an array is not looked at. -/
def nullFree : Json → Bool
  | .obj fields => nullFreeMembers fields
  | _ => true

def nullFreeMembers : JsObject → Bool
  | [] => true
  | (_, .null) :: _ => false
  | (_, value) :: fields => nullFree value && nullFreeMembers fields

end

mutual

/-- No null of the patch stands in an object that the base lacks or holds as something else. -/
def nullsLand (base : JsObject) : JsObject → Bool
  | [] => true
  | (key, value) :: patch => nullLands base key value && nullsLand base patch

def nullLands (base : JsObject) (key : String) : Json → Bool
  | .obj patch =>
    match base.lookup key with
    | some (.obj inner) => nullsLand inner patch
    | _ => nullFreeMembers patch
  | _ => true

end

/-- The merge is the one of the standard, and done twice it is what it is done once. -/
def MergesPatch (base patch : JsObject) : Prop :=
  mergeVehicleData base patch = mergeMembers base patch ∧
    mergeVehicleData (mergeVehicleData base patch) patch = mergeVehicleData base patch

def MergeLaw : Prop := ∀ base patch : JsonObject, MergesPatch base.fields patch.fields

end MergePatch

section Members

variable {fields patch base : JsObject} {key name : String} {value : Json}

theorem lookup_first (name other : String) (old : Json) (fields : JsObject) :
    List.lookup name ((other, old) :: fields) =
      if name = other then some old else fields.lookup name := by
  rw [List.lookup_cons]
  by_cases h : name = other
  · rw [if_pos h, beq_iff_eq.mpr h]
  · rw [if_neg h, beq_eq_false_iff_ne.mpr h]

@[simp] theorem lookup_assign (key name : String) (value : Json) (fields : JsObject) :
    (assign key value fields).lookup name =
      if name = key then some value else fields.lookup name := by
  induction fields with
  | nil => rw [assign, lookup_first]
  | cons field fields ih =>
    obtain ⟨other, old⟩ := field
    by_cases hkey : other = key
    · rw [assign, if_pos hkey, lookup_first, lookup_first, hkey]
      by_cases hname : name = key <;> simp [hname]
    · rw [assign, if_neg hkey, lookup_first, lookup_first, ih]
      by_cases hname : name = other
      · simp [hname, hkey]
      · simp [hname]

@[simp] theorem lookup_erase (key name : String) (fields : JsObject) :
    (erase key fields).lookup name = if name = key then none else fields.lookup name := by
  induction fields with
  | nil => simp [erase]
  | cons field fields ih =>
    obtain ⟨other, old⟩ := field
    rw [lookup_first]
    unfold erase at ih ⊢
    by_cases hkey : other = key
    · rw [List.filter_cons_of_neg (by simpa using hkey), ih, hkey]
      by_cases hname : name = key <;> simp [hname]
    · rw [List.filter_cons_of_pos (by simpa using hkey), lookup_first, ih]
      by_cases hname : name = other
      · simp [hname, hkey]
      · simp [hname]

/-- Writing what is there changes nothing. -/
theorem assign_same (h : fields.lookup key = some value) : assign key value fields = fields := by
  induction fields with
  | nil => cases h
  | cons field fields ih =>
    obtain ⟨other, old⟩ := field
    rw [lookup_first] at h
    by_cases hkey : other = key
    · rw [if_pos hkey.symm] at h
      cases h
      rw [assign, if_pos hkey, hkey]
    · rw [if_neg (Ne.symm hkey)] at h
      rw [assign, if_neg hkey, ih h]

theorem lookup_none (h : key ∉ fields.map Prod.fst) : fields.lookup key = none := by
  induction fields with
  | nil => rfl
  | cons field fields ih =>
    obtain ⟨other, old⟩ := field
    simp only [List.map_cons, List.mem_cons, not_or] at h
    rw [lookup_first, if_neg h.1, ih h.2]

theorem not_mem_of_lookup (h : fields.lookup key = none) : key ∉ fields.map Prod.fst := by
  induction fields with
  | nil => simp
  | cons field fields ih =>
    obtain ⟨other, old⟩ := field
    rw [lookup_first] at h
    by_cases hkey : key = other
    · rw [if_pos hkey] at h
      cases h
    · rw [if_neg hkey] at h
      simp only [List.map_cons, List.mem_cons, not_or]
      exact ⟨hkey, ih h⟩

theorem erase_same (h : fields.lookup key = none) : erase key fields = fields := by
  refine List.filter_eq_self.mpr fun field hfield => ?_
  have hne : key ≠ field.1 := fun heq =>
    not_mem_of_lookup h (heq ▸ List.mem_map_of_mem hfield)
  simpa using hne.symm

/-- A new key goes to the end. -/
theorem assign_new (h : key ∉ fields.map Prod.fst) :
    assign key value fields = fields ++ [(key, value)] := by
  induction fields with
  | nil => rfl
  | cons field fields ih =>
    obtain ⟨other, old⟩ := field
    simp only [List.map_cons, List.mem_cons, not_or] at h
    rw [assign, if_neg (Ne.symm h.1), ih h.2]
    rfl

theorem lookup_mem (hnodup : (fields.map Prod.fst).Nodup) (h : (key, value) ∈ fields) :
    fields.lookup key = some value := by
  induction fields with
  | nil => cases h
  | cons field fields ih =>
    obtain ⟨other, old⟩ := field
    obtain ⟨hnew, hrest⟩ := List.nodup_cons.mp hnodup
    rw [lookup_first]
    rcases List.mem_cons.mp h with heq | hmem
    · cases heq
      rw [if_pos rfl]
    · have hkey : key ≠ other := by
        rintro rfl
        exact hnew (List.mem_map.mpr ⟨_, hmem, rfl⟩)
      rw [if_neg hkey, ih hrest hmem]

end Members

section Keys

variable {fields patch base base' : JsObject} {key name : String} {value : Json}

/-- What the merge leaves under a key of the patch. -/
def merged (current : Option Json) : Json → Option Json
  | .null => none
  | .obj patch =>
    match current with
    | some (.obj base) => some (.obj (mergeVehicleData base patch))
    | _ => some (.obj patch)
  | value => some value

/-- What the standard leaves there. -/
def patched (current : Option Json) : Json → Option Json
  | .null => none
  | value => some (mergePatch current value)

/-- One member of the patch, by the standard. -/
def mergeMember (target : JsObject) (name : String) : Json → JsObject
  | .null => erase name target
  | value => assign name (mergePatch (target.lookup name) value) target

theorem mergeMembers_cons (target : JsObject) (name : String) (value : Json) (patch : JsObject) :
    mergeMembers target ((name, value) :: patch) =
      mergeMembers (mergeMember target name value) patch := by
  cases value <;> rfl

theorem lookup_mergeKey (out : JsObject) (key name : String) (value : Json) :
    (mergeKey out key value).lookup name =
      if name = key then merged (out.lookup key) value else out.lookup name := by
  cases value with
  | null => exact lookup_erase key name out
  | obj patch =>
    cases hcurrent : out.lookup key with
    | none => simp [mergeKey, merged, hcurrent]
    | some current => cases current <;> simp [mergeKey, merged, hcurrent]
  | bool b | num text | str text | arr items => exact lookup_assign key name _ out

theorem lookup_mergeMember (target : JsObject) (key name : String) (value : Json) :
    (mergeMember target key value).lookup name =
      if name = key then patched (target.lookup key) value else target.lookup name := by
  cases value with
  | null => exact lookup_erase key name target
  | bool b | num text | str text | arr items | obj patch => exact lookup_assign key name _ target

/-- What a key of the patch is in the end depends on what the base has there. -/
theorem lookup_mergeVehicleData (base : JsObject) (name : String)
    (hnodup : (patch.map Prod.fst).Nodup) :
    (mergeVehicleData base patch).lookup name =
      match patch.lookup name with
      | none => base.lookup name
      | some value => merged (base.lookup name) value := by
  induction patch generalizing base with
  | nil => rfl
  | cons member patch ih =>
    obtain ⟨key, value⟩ := member
    obtain ⟨hnew, hrest⟩ := List.nodup_cons.mp hnodup
    rw [mergeVehicleData, ih _ hrest, lookup_first, lookup_mergeKey]
    by_cases hname : name = key
    · have hnone : patch.lookup key = none := lookup_none hnew
      rw [hname, hnone, if_pos rfl, if_pos rfl]
    · rw [if_neg hname, if_neg hname]

theorem lookup_mergeMembers (base : JsObject) (name : String)
    (hnodup : (patch.map Prod.fst).Nodup) :
    (mergeMembers base patch).lookup name =
      match patch.lookup name with
      | none => base.lookup name
      | some value => patched (base.lookup name) value := by
  induction patch generalizing base with
  | nil => rfl
  | cons member patch ih =>
    obtain ⟨key, value⟩ := member
    obtain ⟨hnew, hrest⟩ := List.nodup_cons.mp hnodup
    rw [mergeMembers_cons, ih _ hrest, lookup_first, lookup_mergeMember]
    by_cases hname : name = key
    · have hnone : patch.lookup key = none := lookup_none hnew
      rw [hname, hnone, if_pos rfl, if_pos rfl]
    · rw [if_neg hname, if_neg hname]

theorem nullFreeMembers_iff : nullFreeMembers fields = true ↔
    ∀ m ∈ fields, m.2 ≠ .null ∧ nullFree m.2 = true := by
  induction fields with
  | nil => simp [nullFreeMembers]
  | cons field fields ih =>
    obtain ⟨key, value⟩ := field
    cases value <;> simp [nullFreeMembers, ih]

theorem nullsLand_iff : nullsLand base patch = true ↔
    ∀ m ∈ patch, nullLands base m.1 m.2 = true := by
  induction patch with
  | nil => simp [nullsLand]
  | cons member patch ih =>
    obtain ⟨key, value⟩ := member
    simp [nullsLand, ih]

theorem nullLands_congr (h : base.lookup key = base'.lookup key) :
    nullLands base key value = nullLands base' key value := by
  cases value with
  | obj patch => rw [nullLands, nullLands, h]
  | null | bool b | num text | str text | arr items => rfl

theorem plainMembers_mem (h : plainMembers fields) (hmem : (key, value) ∈ fields) :
    plain value := by
  induction fields with
  | nil => cases hmem
  | cons field fields ih =>
    obtain ⟨other, old⟩ := field
    rcases List.mem_cons.mp hmem with heq | hmem
    · cases heq
      exact h.1
    · exact ih h.2 hmem

/-- An object under a key is smaller than the object it stands in. -/
theorem member_smaller {inner : JsObject} (h : (key, Json.obj inner) ∈ fields) :
    sizeOf inner < sizeOf fields := by
  have hlt := List.sizeOf_lt_of_mem h
  simp only [Prod.mk.sizeOf_spec, Json.obj.sizeOf_spec] at hlt
  omega

end Keys

section Agreement

/-- Into an object without its keys, the standard adds a patch that deletes nothing as it is. -/
theorem mergeMembers_new (target patch : JsObject)
    (hnodup : ((target ++ patch).map Prod.fst).Nodup) (hplain : plainMembers patch)
    (hfree : nullFreeMembers patch = true) : mergeMembers target patch = target ++ patch := by
  match patch with
  | [] => simp [mergeMembers]
  | (key, value) :: patch =>
    obtain ⟨hnull, hinner⟩ := nullFreeMembers_iff.mp hfree (key, value) List.mem_cons_self
    have hrest : nullFreeMembers patch = true := nullFreeMembers_iff.mpr fun m hm =>
      nullFreeMembers_iff.mp hfree m (List.mem_cons_of_mem _ hm)
    have hnew : key ∉ target.map Prod.fst := by
      rw [List.map_append, List.nodup_append] at hnodup
      intro hmem
      exact hnodup.2.2 key hmem key (by simp) rfl
    have hvalue : mergePatch none value = value := by
      cases hobj : value with
      | obj inner =>
        rw [hobj] at hplain hinner
        have hsame := mergeMembers_new [] inner hplain.1.1 hplain.1.2.2 hinner
        show Json.obj (mergeMembers [] inner) = _
        rw [hsame]
        rfl
      | null | bool b | num text | str text | arr items => rfl
    have hmember : mergeMember target key value = target ++ [(key, value)] := by
      have hassign : mergeMember target key value =
          assign key (mergePatch (target.lookup key) value) target := by
        cases value with
        | null => exact absurd rfl hnull
        | bool b | num text | str text | arr items | obj inner => rfl
      rw [hassign, lookup_none hnew, hvalue, assign_new hnew]
    have htail := mergeMembers_new (target ++ [(key, value)]) patch
      (by simpa [List.append_assoc] using hnodup) hplain.2 hrest
    rw [mergeMembers_cons, hmember, htail, List.append_assoc]
    rfl
termination_by sizeOf patch
decreasing_by
  · rw [hobj]
    simp only [List.cons.sizeOf_spec, Prod.mk.sizeOf_spec, Json.obj.sizeOf_spec]
    omega
  · simp only [List.cons.sizeOf_spec]
    omega

/-- Only then. -/
theorem nullFree_of_new (patch : JsObject) (hplain : plain (.obj patch))
    (heq : mergeMembers [] patch = patch) : nullFreeMembers patch = true := by
  refine nullFreeMembers_iff.mpr fun m hm => ?_
  obtain ⟨key, value⟩ := m
  have hlookup := lookup_mergeMembers [] key hplain.1
  rw [heq, lookup_mem hplain.1 hm] at hlookup
  cases hobj : value with
  | null =>
    rw [hobj] at hlookup
    cases hlookup
  | bool b | num text | str text | arr items => exact ⟨Json.noConfusion, rfl⟩
  | obj inner =>
    rw [hobj] at hlookup hm
    have hsame : inner = mergeMembers [] inner := by
      have hboth : some (Json.obj inner) = some (Json.obj (mergeMembers [] inner)) := hlookup
      simpa using hboth
    exact ⟨Json.noConfusion, nullFree_of_new inner (plainMembers_mem hplain.2.2 hm) hsame.symm⟩
termination_by sizeOf patch
decreasing_by exact member_smaller (hobj ▸ hm)

/-- Where every null of the patch lands, the merge is the one of the standard. -/
theorem merge_of_lands (base patch : JsObject) (hplain : plain (.obj patch))
    (hland : nullsLand base patch = true) :
    mergeVehicleData base patch = mergeMembers base patch := by
  match patch with
  | [] => rfl
  | (key, value) :: patch =>
    have hhead := nullsLand_iff.mp hland (key, value) List.mem_cons_self
    obtain ⟨hnew, hnodup⟩ := List.nodup_cons.mp hplain.1
    have hmember : mergeKey base key value = mergeMember base key value := by
      cases hobj : value with
      | null | bool b | num text | str text | arr items => rfl
      | obj inner =>
        rw [hobj] at hplain hhead
        have hinner : plain (.obj inner) := hplain.2.2.1
        have hfree (h : nullFreeMembers inner = true) : mergeMembers [] inner = inner :=
          mergeMembers_new [] inner hinner.1 hinner.2.2 h
        simp only [nullLands] at hhead
        show (match base.lookup key with
          | some (.obj old) => assign key (.obj (mergeVehicleData old inner)) base
          | _ => assign key (.obj inner) base) =
            assign key (mergePatch (base.lookup key) (.obj inner)) base
        cases hcurrent : base.lookup key with
        | none =>
          rw [hcurrent] at hhead
          show _ = assign key (.obj (mergeMembers [] inner)) base
          rw [hfree hhead]
        | some current =>
          rw [hcurrent] at hhead
          cases current with
          | obj old =>
            have hsame := merge_of_lands old inner hinner hhead
            simp only [mergePatch, hsame]
          | null | bool b | num text | str text | arr items =>
            simp only [mergePatch, hfree hhead]
    have htail : nullsLand (mergeMember base key value) patch = true := by
      refine nullsLand_iff.mpr fun m hm => ?_
      have hother : m.1 ≠ key := fun h => hnew (List.mem_map.mpr ⟨m, hm, h⟩)
      have hlookup := lookup_mergeMember base key m.1 value
      rw [if_neg hother] at hlookup
      rw [nullLands_congr hlookup]
      exact nullsLand_iff.mp hland m (List.mem_cons_of_mem _ hm)
    have hrest : plain (.obj patch) :=
      ⟨hnodup, fun h => hplain.2.1 (List.mem_cons_of_mem _ h), hplain.2.2.2⟩
    rw [mergeVehicleData, mergeMembers_cons, hmember]
    exact merge_of_lands (mergeMember base key value) patch hrest htail
termination_by sizeOf patch
decreasing_by
  · rw [hobj]
    simp only [List.cons.sizeOf_spec, Prod.mk.sizeOf_spec, Json.obj.sizeOf_spec]
    omega
  · simp only [List.cons.sizeOf_spec]
    omega

/-- Only there. -/
theorem lands_of_merge (base patch : JsObject) (hplain : plain (.obj patch))
    (heq : mergeVehicleData base patch = mergeMembers base patch) :
    nullsLand base patch = true := by
  refine nullsLand_iff.mpr fun m hm => ?_
  obtain ⟨key, value⟩ := m
  have hmerged := lookup_mergeVehicleData base key hplain.1
  rw [heq, lookup_mergeMembers base key hplain.1, lookup_mem hplain.1 hm] at hmerged
  cases hobj : value with
  | null | bool b | num text | str text | arr items => rfl
  | obj inner =>
    rw [hobj] at hmerged hm
    have hinner : plain (.obj inner) := plainMembers_mem hplain.2.2 hm
    show (match base.lookup key with
      | some (.obj old) => nullsLand old inner
      | _ => nullFreeMembers inner) = true
    simp only [patched, merged, mergePatch] at hmerged
    cases hcurrent : base.lookup key with
    | none =>
      rw [hcurrent] at hmerged
      exact nullFree_of_new inner hinner (by simpa using hmerged)
    | some current =>
      rw [hcurrent] at hmerged
      cases current with
      | obj old =>
        have hsame : mergeVehicleData old inner = mergeMembers old inner := by
          simpa using hmerged.symm
        exact lands_of_merge old inner hinner hsame
      | null | bool b | num text | str text | arr items =>
        exact nullFree_of_new inner hinner (by simpa using hmerged)
termination_by sizeOf patch
decreasing_by exact member_smaller (hobj ▸ hm)

end Agreement

section Twice

variable {base patch out : JsObject}

/-- A patch that changes nothing key by key changes nothing. -/
theorem merge_settled (h : ∀ m ∈ patch, mergeKey out m.1 m.2 = out) :
    mergeVehicleData out patch = out := by
  induction patch with
  | nil => rfl
  | cons m patch ih =>
    obtain ⟨key, value⟩ := m
    rw [mergeVehicleData, h (key, value) List.mem_cons_self]
    exact ih fun m hm => h m (List.mem_cons_of_mem _ hm)

/-- A patch that deletes nothing has nothing to add to itself. -/
theorem merge_self (patch : JsObject) (hplain : plain (.obj patch))
    (hfree : nullFreeMembers patch = true) : mergeVehicleData patch patch = patch := by
  refine merge_settled fun m hm => ?_
  obtain ⟨key, value⟩ := m
  obtain ⟨hnull, hinner⟩ := nullFreeMembers_iff.mp hfree (key, value) hm
  have hlookup := lookup_mem hplain.1 hm
  cases hobj : value with
  | null => exact absurd hobj hnull
  | bool b | num text | str text | arr items =>
    rw [hobj] at hlookup
    exact assign_same hlookup
  | obj inner =>
    rw [hobj] at hlookup hm hinner
    have hsame := merge_self inner (plainMembers_mem hplain.2.2 hm) hinner
    simp only [mergeKey, hlookup, hsame]
    exact assign_same hlookup
termination_by sizeOf patch
decreasing_by exact member_smaller (hobj ▸ hm)

/-- Where every null of the patch lands, the second time changes nothing. -/
theorem merge_twice (base patch : JsObject) (hplain : plain (.obj patch))
    (hland : nullsLand base patch = true) :
    mergeVehicleData (mergeVehicleData base patch) patch = mergeVehicleData base patch := by
  refine merge_settled fun m hm => ?_
  obtain ⟨key, value⟩ := m
  have hhead := nullsLand_iff.mp hland (key, value) hm
  have hlookup := lookup_mergeVehicleData base key hplain.1
  rw [lookup_mem hplain.1 hm] at hlookup
  cases hobj : value with
  | null =>
    rw [hobj] at hlookup
    exact erase_same hlookup
  | bool b | num text | str text | arr items =>
    rw [hobj] at hlookup
    exact assign_same hlookup
  | obj inner =>
    rw [hobj] at hlookup hm hhead
    have hinner : plain (.obj inner) := plainMembers_mem hplain.2.2 hm
    simp only [merged, nullLands] at hlookup hhead
    cases hcurrent : base.lookup key with
    | none =>
      rw [hcurrent] at hlookup hhead
      simp only [mergeKey, hlookup, merge_self inner hinner hhead]
      exact assign_same hlookup
    | some current =>
      rw [hcurrent] at hlookup hhead
      cases current with
      | obj old =>
        have hlookup' : (mergeVehicleData base patch).lookup key =
          some (.obj (mergeVehicleData old inner)) := hlookup
        have hsame := merge_twice old inner hinner hhead
        simp only [mergeKey, hlookup', hsame]
        exact assign_same hlookup'
      | null | bool b | num text | str text | arr items =>
        simp only [mergeKey, hlookup, merge_self inner hinner hhead]
        exact assign_same hlookup
termination_by sizeOf patch
decreasing_by exact member_smaller (hobj ▸ hm)

end Twice

/-- The merge is the one of the standard exactly when no null of the patch stands in an object that
the base lacks or holds as something else. -/
theorem merges_patch (base patch : JsonObject) : MergesPatch base.fields patch.fields ↔
    nullsLand base.fields patch.fields = true := by
  constructor
  · exact fun h => lands_of_merge _ _ patch.isPlain h.1
  · intro h
    exact ⟨merge_of_lands _ _ patch.isPlain h, merge_twice _ _ patch.isPlain h⟩

section Examples

def noData : JsonObject := ⟨[], by simp [plain, plainMembers]⟩

/-- A vehicle with its VIN deleted. -/
def deletedVin : JsonObject :=
  ⟨[("vehicle", .obj [("vin", .null)])], by simp [plain, plainMembers]⟩

/-- The null is stored, and the second time it deletes. -/
theorem null_stored : ¬ MergeLaw := by
  intro hlaw
  have hland := lands_of_merge _ _ deletedVin.isPlain (hlaw noData deletedVin).1
  have hno : nullsLand noData.fields deletedVin.fields = false := rfl
  rw [hno] at hland
  cases hland

end Examples

end CarSalePro.Listings
