import Mathlib.Data.List.Induction
import CarSalePro.Reports.Filing
import CarSalePro.Reports.Guards

namespace CarSalePro.Reports

section Specification

variable (data : Json)

/-- The manifest has a photo of this kind. -/
def HasPhoto (kind : String) : Prop :=
  ∃ photo ∈ elements (data.get "photos"), photo.get "kind" = some (.str kind)

/-- The last of the rows that has this name under `key`. -/
def LastNamed (key name : String) (rows : List Json) (row : Json) : Prop :=
  ∃ before after, rows = before ++ row :: after ∧ row.get key = some (.str name) ∧
    ∀ later ∈ after, later.get key ≠ some (.str name)

/-- The last row that names the panel carries a reading. -/
def HasReading (panel : String) : Prop :=
  ∃ row, LastNamed "panelId" panel (elements (prop "panels" (data.get "thickness"))) row ∧
    isNumeric (row.get "um")

/-- The last row that names the wheel carries its tread, its code and its size. -/
def HasWheel (corner : String) : Prop :=
  ∃ row, LastNamed "corner" corner (elements (data.get "wheels")) row ∧
    isNumeric (row.get "treadMm") ∧ isNonEmptyString (row.get "dot") ∧
      isNonEmptyString (row.get "sizeSpec")

/-- The angles the payload shows, and the panels it mentions, by a row or by a photo. -/
def shownAngles : List String := suffixes "exterior-" (photoKindsOf data)

def mentionedPanels : List String :=
  (panelsOf data).map Prod.fst ++ suffixes "thickness-" (photoKindsOf data)

/-- A checklist row carries its own title, a row entered by hand its texts, and any other row the
ids of its part and its type. -/
def damageStates (byHand byId : String) (row : Json) : Prop :=
  (stringOf (row.get "kstCode")).any isChecklistCode ∨
    row.get "manualEntry" = some (.bool true) ∧ isNonEmptyString (row.get byHand) ∨
    row.get "manualEntry" ≠ some (.bool true) ∧ isNonEmptyString (row.get byId)

/-- The row has its id, its part, its type and its photo. -/
structure DamageDocumented (row : Json) : Prop where
  id : isNonEmptyString (row.get "id")
  part : damageStates "manualPart" "partId" row
  type : damageStates "manualDamage" "typeId" row
  photo : HasPhoto data ("damage-" ++ (stringOf (row.get "id")).getD "")

/-- The payload documents the car: these angles and panels, the gauge and the wheels and, where the
app knows the rules, the cabin and those damage rows that `Counts`. -/
structure Documented (angles panels : List String) (Counts : Json → Prop) : Prop where
  angles : ∀ id ∈ angles, HasPhoto data ("exterior-" ++ id)
  readings : ∀ id ∈ panels, HasReading data id
  panels : ∀ id ∈ panels, HasPhoto data ("thickness-" ++ id)
  calibration : HasPhoto data "zeroproof" ∧ HasPhoto data "zeroproof-al"
  wheels : ∀ corner ∈ wheelCorners, HasPhoto data ("wheel-" ++ corner) ∧ HasWheel data corner
  cabin : appKnowsCabinAndDamageRules data → ∃ view, HasPhoto data ("interior-" ++ view)
  damages : appKnowsCabinAndDamageRules data → ∀ row ∈ elements (data.get "damages"),
    Counts row → DamageDocumented data row

/-- It documents what the rules chosen for it require. -/
def MeetsItsRules (Counts : Json → Prop) : Prop :=
  Documented data (resolveRequiredAngles (shownAngles data))
    (resolveRequiredPanels (mentionedPanels data)) Counts

end Specification

section Evidence

variable {data row : Json} {key name kind : String} {rows : List Json}

theorem stringOf_eq {value : Option Json} :
    stringOf value = some name ↔ value = some (.str name) := by
  cases value with
  | none => simp [stringOf]
  | some v => cases v <;> simp [stringOf]

theorem mem_photoKinds : kind ∈ photoKindsOf data ↔ HasPhoto data kind := by
  simp only [photoKindsOf, List.mem_filterMap, stringOf_eq]
  rfl

theorem mem_suffixes {stem id : String} {names : List String} :
    id ∈ suffixes stem names ↔ stem ++ id ∈ names := by
  simp only [suffixes, List.mem_filterMap, Option.ite_none_right_eq_some,
    List.isPrefixOf_iff_prefix]
  constructor
  · rintro ⟨whole, hmem, ⟨rest, hrest⟩, heq⟩
    have hid : rest = id.toList := by
      rw [← hrest, List.drop_left] at heq
      cases heq
      rw [String.toList_ofList]
    have hwhole : whole = stem ++ id := by
      apply String.toList_inj.mp
      rw [← hrest, String.toList_append, hid]
    exact hwhole ▸ hmem
  · intro hmem
    refine ⟨_, hmem, ⟨id.toList, (String.toList_append).symm⟩, ?_⟩
    rw [String.toList_append, List.drop_left, String.ofList_toList]

/-- One more row at the end: it is the last of its own name, and changes nothing for another. -/
theorem lastNamed_concat {found : Json} : LastNamed key name (rows ++ [row]) found ↔
    row.get key = some (.str name) ∧ found = row ∨
      row.get key ≠ some (.str name) ∧ LastNamed key name rows found := by
  constructor
  · rintro ⟨before, after, heq, hname, hlast⟩
    rcases List.eq_nil_or_concat after with rfl | ⟨after, x, rfl⟩
    · obtain ⟨-, hrow⟩ := List.append_inj' heq rfl
      cases hrow
      exact .inl ⟨hname, rfl⟩
    · rw [List.concat_eq_append, ← List.cons_append, ← List.append_assoc] at heq
      obtain ⟨hrows, hrow⟩ := List.append_inj' heq rfl
      cases hrow
      refine .inr ⟨hlast row (by simp), before, after, hrows, hname, fun later hlater => ?_⟩
      exact hlast later (by simp [hlater])
  · rintro (⟨hname, rfl⟩ | ⟨hother, before, after, rfl, hname, hlast⟩)
    · exact ⟨rows, [], rfl, hname, nofun⟩
    · refine ⟨before, after ++ [row], by simp, hname, fun later hlater => ?_⟩
      rcases List.mem_append.mp hlater with hlater | hlater
      · exact hlast later hlater
      · rw [List.mem_singleton.mp hlater]
        exact hother

/-- What is looked up is the last row of its name. -/
theorem lookup_lastNamed {α : Type} (f : Json → α) {value : α} :
    ((rows.filterMap fun row => (stringOf (row.get key)).map fun name =>
      (name, f row)).reverse).lookup name = some value ↔
      ∃ row, LastNamed key name rows row ∧ f row = value := by
  induction rows using List.reverseRecOn with
  | nil =>
    constructor
    · intro h
      cases h
    · rintro ⟨row, ⟨before, after, heq, -⟩, -⟩
      cases before <;> cases heq
  | append_singleton rows row ih =>
    simp only [lastNamed_concat, List.filterMap_append, List.reverse_append]
    cases hrow : stringOf (row.get key) with
    | none =>
      have hother : row.get key ≠ some (.str name) := fun h => by
        rw [stringOf_eq.mpr h] at hrow
        cases hrow
      simpa [hrow, hother] using ih
    | some other =>
      have hother := stringOf_eq.mp hrow
      simp only [List.filterMap_cons, hrow, Option.map_some, List.filterMap_nil,
        List.reverse_singleton, List.singleton_append, List.lookup_cons]
      rw [hother]
      by_cases hname : name = other
      · subst hname
        simp
      · have hne : (name == other) = false := beq_eq_false_iff_ne.mpr hname
        have hno : ¬ some (Json.str other) = some (Json.str name) := fun h => by
          injection h with h
          injection h with h
          exact hname h.symm
        simp only [hne, ih, hno, false_and, false_or, ne_eq, not_false_eq_true, true_and]

theorem reading_iff {panel : String} :
    (panelsOf data).lookup panel = some true ↔ HasReading data panel :=
  lookup_lastNamed fun row => isNumeric (row.get "um")

theorem gapsOf_nil {checks : List (String × Bool)} :
    gapsOf checks = [] ↔ ∀ check ∈ checks, check.2 = true := by
  simp [gapsOf, List.filterMap_eq_nil_iff]

theorem wheelGaps_nil {corner : String} :
    wheelGaps (photoKindsOf data) (wheelRowsOf data) corner = [] ↔
      HasPhoto data ("wheel-" ++ corner) ∧ HasWheel data corner := by
  unfold wheelGaps
  simp only [gapsOf_nil, List.mem_cons, List.not_mem_nil, or_false, forall_eq_or_imp, forall_eq,
    decide_eq_true_eq, mem_photoKinds]
  refine and_congr_right fun _ => ?_
  cases hrow : (wheelRowsOf data).lookup corner with
  | none =>
    constructor
    · rintro ⟨htread, -, -⟩
      cases htread
    · rintro ⟨row, hlast, -⟩
      have hfound := (lookup_lastNamed id).mpr ⟨row, hlast, rfl⟩
      have hnone : (wheelRowsOf data).lookup corner = some row := hfound
      rw [hrow] at hnone
      cases hnone
  | some row =>
    obtain ⟨last, hlast, heq⟩ := (lookup_lastNamed id).mp hrow
    cases heq
    constructor
    · rintro ⟨htread, hdot, hsize⟩
      exact ⟨last, hlast, htread, hdot, hsize⟩
    · rintro ⟨row, hother, hfields⟩
      have hfound := (lookup_lastNamed id).mpr ⟨row, hother, rfl⟩
      have hsame : (wheelRowsOf data).lookup corner = some row := hfound
      rw [hrow] at hsame
      cases hsame
      exact hfields

theorem damageGaps_nil : damageGaps row = [] ↔
    damageStates "manualPart" "partId" row ∧ damageStates "manualDamage" "typeId" row := by
  unfold damageGaps damageStates
  by_cases hcode : (stringOf (row.get "kstCode")).any isChecklistCode
  · simp [hcode]
  · simp only [hcode, Bool.false_eq_true, if_false, false_or]
    split
    next hmanual => simp [gapsOf_nil, hmanual]
    next hother =>
      have hno : row.get "manualEntry" ≠ some (.bool true) := hother
      simp [gapsOf_nil, hno]

theorem damageMissing_nil {index : Nat} :
    damageMissing (photoKindsOf data) index row = [] ↔
      (isObject row → DamageDocumented data row) := by
  unfold damageMissing
  cases hobject : isObject row with
  | false => simp
  | true =>
    simp only [Bool.true_eq_false, if_false, forall_const]
    by_cases hid : isNonEmptyString (row.get "id")
    · have hgaps : damageGaps row ++ gapsOf [("photo", decide ("damage-" ++
          (stringOf (row.get "id")).getD "" ∈ photoKindsOf data))] = [] ↔
          DamageDocumented data row := by
        rw [List.append_eq_nil_iff, damageGaps_nil, gapsOf_nil]
        simp only [List.mem_singleton, forall_eq, decide_eq_true_eq, mem_photoKinds]
        exact ⟨fun h => ⟨hid, h.1.1, h.1.2, h.2⟩, fun h => ⟨⟨h.part, h.type⟩, h.photo⟩⟩
      simp only [hid, Bool.true_eq_false, if_false]
      rw [← hgaps]
      split <;> simp_all
    · simp only [hid, if_true]
      constructor
      · intro h
        cases h
      · intro h
        exact absurd h.id hid

end Evidence

section Gate

variable {data : Json}

/-- The damage list lacks nothing when no row of it does. -/
theorem damagesMissing_nil {rows : List Json} :
    (rows.zipIdx.flatMap fun row => damageMissing (photoKindsOf data) row.2 row.1) = [] ↔
      ∀ row ∈ rows, isObject row → DamageDocumented data row := by
  simp only [List.flatMap_eq_nil_iff, damageMissing_nil]
  constructor
  · intro h row hmem
    obtain ⟨index, hindex, hrow⟩ := List.getElem_of_mem hmem
    exact h (row, index) (List.mk_mem_zipIdx_iff_getElem?.mpr (by
      rw [List.getElem?_eq_getElem hindex, hrow]))
  · intro h row hmem
    exact h row.1 (List.fst_mem_of_mem_zipIdx hmem)

theorem wheelsMissing_nil :
    (wheelCorners.filterMap fun corner =>
      let gaps := wheelGaps (photoKindsOf data) (wheelRowsOf data) corner
      if gaps = [] then none else some (corner, gaps)) = [] ↔
      ∀ corner ∈ wheelCorners, HasPhoto data ("wheel-" ++ corner) ∧ HasWheel data corner := by
  simp only [List.filterMap_eq_nil_iff, ite_eq_left_iff, reduceCtorEq, imp_false, not_not,
    wheelGaps_nil]

/-- A cabin photo is one whose kind continues `interior-`. -/
theorem suffixes_ne_nil {stem : String} :
    suffixes stem (photoKindsOf data) ≠ [] ↔ ∃ view, HasPhoto data (stem ++ view) := by
  simp only [← mem_photoKinds, ← mem_suffixes]
  exact ⟨List.exists_mem_of_ne_nil _, fun ⟨view, hmem⟩ => List.ne_nil_of_mem hmem⟩

/-- A payload lacks nothing exactly when it documents the car. -/
theorem isNone_iff : (missingOf data).2.isNone = true ↔
    MeetsItsRules data fun row => isObject row := by
  have hangles : ((resolveRequiredAngles (shownAngles data)).filter
      (· ∉ shownAngles data)) = [] ↔
      ∀ id ∈ resolveRequiredAngles (shownAngles data), HasPhoto data ("exterior-" ++ id) := by
    simp only [List.filter_eq_nil_iff, decide_eq_true_eq, not_not]
    simp only [shownAngles, mem_suffixes, mem_photoKinds]
  have hreadings : ((resolveRequiredPanels (mentionedPanels data)).filter
      fun id => (panelsOf data).lookup id ≠ some true) = [] ↔
      ∀ id ∈ resolveRequiredPanels (mentionedPanels data), HasReading data id := by
    simp [List.filter_eq_nil_iff, reading_iff]
  have hpanels : ((resolveRequiredPanels (mentionedPanels data)).filter
      fun id => "thickness-" ++ id ∉ photoKindsOf data) = [] ↔
      ∀ id ∈ resolveRequiredPanels (mentionedPanels data),
        HasPhoto data ("thickness-" ++ id) := by
    simp [List.filter_eq_nil_iff, mem_photoKinds]
  have hcalibration : (["zeroproof", "zeroproof-al"].filter (· ∉ photoKindsOf data)) = [] ↔
      HasPhoto data "zeroproof" ∧ HasPhoto data "zeroproof-al" := by
    simp [List.filter_eq_nil_iff, mem_photoKinds]
  have hcabin : (if appKnowsCabinAndDamageRules data = true ∧
      suffixes "interior-" (photoKindsOf data) = [] then ["photo"] else []) = [] ↔
      (appKnowsCabinAndDamageRules data → ∃ view, HasPhoto data ("interior-" ++ view)) := by
    rw [← suffixes_ne_nil]
    cases appKnowsCabinAndDamageRules data <;> simp
  have hdamages : (if appKnowsCabinAndDamageRules data then
      (elements (data.get "damages")).zipIdx.flatMap fun row =>
        damageMissing (photoKindsOf data) row.2 row.1 else []) = [] ↔
      (appKnowsCabinAndDamageRules data → ∀ row ∈ elements (data.get "damages"),
        isObject row → DamageDocumented data row) := by
    rw [← damagesMissing_nil]
    cases appKnowsCabinAndDamageRules data <;> simp
  simp only [missingOf, CompletenessMissing.isNone, Bool.and_eq_true, List.isEmpty_iff]
  constructor
  · rintro ⟨⟨⟨⟨⟨⟨ha, hr⟩, hp⟩, hc⟩, hw⟩, hi⟩, hd⟩
    exact ⟨hangles.mp ha, hreadings.mp hr, hpanels.mp hp, hcalibration.mp hc,
      wheelsMissing_nil.mp hw, hcabin.mp hi, hdamages.mp hd⟩
  · intro h
    exact ⟨⟨⟨⟨⟨⟨hangles.mpr h.angles, hreadings.mpr h.readings⟩, hpanels.mpr h.panels⟩,
      hcalibration.mpr h.calibration⟩, wheelsMissing_nil.mpr h.wheels⟩, hcabin.mpr h.cabin⟩,
      hdamages.mpr h.damages⟩

theorem countMissing_zero {missing : CompletenessMissing} :
    countMissing missing = 0 ↔ missing.isNone = true := by
  simp only [countMissing, CompletenessMissing.isNone, Nat.add_eq_zero_iff, List.length_eq_zero_iff,
    Bool.and_eq_true, List.isEmpty_iff]

/-- The verdict on a payload is what the payload documents. -/
theorem complete_iff : (evaluateCompleteness (some data)).complete = true ↔
    isObject data ∧ MeetsItsRules data fun row => isObject row := by
  simp only [evaluateCompleteness]
  cases hobject : isObject data with
  | false => simp only [if_true, Bool.false_eq_true, false_and]
  | true =>
    simp only [Bool.true_eq_false, if_false, true_and]
    exact isNone_iff

/-- No access fails; the verdict is what the payload documents, counting the damage rows that
`Counts`, and none is missing exactly then; and both gates judge the stored payload as it came. -/
structure Judged (Evaluable : Option Json → Prop) (Counts : Json → Prop) (data : Option Json) :
    Prop where
  guarded : evaluateGuarded data = .ok (evaluateCompleteness data)
  verdict : (evaluateCompleteness data).complete = true ↔
    ∃ payload, data = some payload ∧ isObject payload ∧ MeetsItsRules payload Counts
  none_missing : Evaluable data → (countMissing (evaluateCompleteness data).missing = 0 ↔
    (evaluateCompleteness data).complete = true)
  stored : evaluateCompleteness (data.map normalizeReportData) = evaluateCompleteness data
  gates : ∀ score, assertReportComplete (data.map normalizeReportData) score =
    assertReportComplete data score

theorem stored_eq (data : Option Json) :
    evaluateCompleteness (data.map normalizeReportData) = evaluateCompleteness data := by
  cases data with
  | none => rfl
  | some data => exact evaluateCompleteness_normalize data

/-- Every value is judged by what it documents. What is no object cannot be evaluated, and a row of
the damage list that is no object counts for nothing. -/
theorem evaluateCompleteness_judged (data : Option Json) :
    Judged (fun data => data.any isObject) (fun row => isObject row) data ∧
      (data.any isObject = false → (evaluateCompleteness data).evaluable = false ∧
        (evaluateCompleteness data).complete = false ∧
        countMissing (evaluateCompleteness data).missing = 0) := by
  have hverdict : (evaluateCompleteness data).complete = true ↔
      ∃ payload, data = some payload ∧ isObject payload ∧
        MeetsItsRules payload fun row => isObject row := by
    cases data with
    | none => simp [evaluateCompleteness]
    | some data => simp [complete_iff]
  have hnone : data.any isObject → (countMissing (evaluateCompleteness data).missing = 0 ↔
      (evaluateCompleteness data).complete = true) := by
    intro hobject
    cases data with
    | none => cases hobject
    | some data =>
      have hdata : isObject data = true := hobject
      simp only [evaluateCompleteness, hdata, Bool.true_eq_false, if_false, countMissing_zero]
  have hgates : ∀ score, assertReportComplete (data.map normalizeReportData) score =
      assertReportComplete data score := by
    intro score
    unfold assertReportComplete
    rw [stored_eq]
  refine ⟨⟨evaluateGuarded_ok data, hverdict, hnone, stored_eq data, hgates⟩, fun hscalar => ?_⟩
  cases data with
  | none => exact ⟨rfl, rfl, rfl⟩
  | some data =>
    have hdata : isObject data = false := hscalar
    simp only [evaluateCompleteness, hdata, if_true]
    exact ⟨trivial, trivial, rfl⟩

/-- A payload of a new app with a photo of every angle and panel named, and all the rest. -/
def samplePayload (angles panels more : List String) (damages : List Json) : Json :=
  let kinds := angles.map ("exterior-" ++ ·) ++ panels.map ("thickness-" ++ ·) ++
    wheelCorners.map ("wheel-" ++ ·) ++ ["zeroproof", "zeroproof-al", "interior-dashboard"] ++ more
  .obj [("photos", .arr (kinds.map fun kind => .obj [("kind", .str kind)])),
    ("thickness", .obj [("panels", .arr (panels.map fun id =>
      .obj [("panelId", .str id), ("um", .num "110")]))]),
    ("wheels", .arr (wheelCorners.map fun corner => .obj [("corner", .str corner),
      ("treadMm", .num "6"), ("dot", .str "2219"), ("sizeSpec", .str "205/55 R16")])),
    ("scores", .obj [("breakdown", .obj [("method", .str "2")])]),
    ("damages", .arr damages)]

/-- Nothing is missing of `null`, which is not complete; a blank row passes as documented, and a row
of the checklist needs neither part nor type. -/
theorem blank_row_passes :
    ¬ Judged (fun _ => True) (fun _ => True) (some .null) ∧
    ¬ Judged (fun data => data.any isObject) (fun _ => True)
      (some (samplePayload currentRequiredAngles thicknessPanelIds [] [.null])) ∧
    ∃ row, row.get "partId" = none ∧ row.get "typeId" = none ∧
      (evaluateCompleteness (some (samplePayload currentRequiredAngles thicknessPanelIds
        ["damage-1"] [row]))).complete = true := by
  refine ⟨fun h => ?_, fun h => ?_, .obj [("id", .str "1"), ("kstCode", .str "C12")], rfl, rfl, ?_⟩
  · have hcomplete := (h.none_missing trivial).mp rfl
    cases hcomplete
  · have hcomplete : (evaluateCompleteness (some (samplePayload currentRequiredAngles
        thicknessPanelIds [] [.null]))).complete = true := by
      decide +kernel
    obtain ⟨payload, heq, -, hdocumented⟩ := h.verdict.mp hcomplete
    cases heq
    have hrow := hdocumented.damages (by decide +kernel) .null (by exact .head _) trivial
    cases hrow.id
  · decide +kernel

end Gate

end CarSalePro.Reports
