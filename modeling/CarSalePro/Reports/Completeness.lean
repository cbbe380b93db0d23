import CarSalePro.Orders.Rows
import CarSalePro.Quota.Encoding

namespace CarSalePro.Reports

/-- `typeof value === 'object'`, and not `null`. -/
def isObject : Json → Bool
  | .obj _ | .arr _ => true
  | _ => false

/-- A property of a value that may be absent. -/
def prop (name : String) (value : Option Json) : Option Json := value.bind (Json.get name)

/-- The elements of an array; of anything else there are none. -/
def elements : Option Json → List Json
  | some (.arr items) => items
  | _ => []

def stringOf : Option Json → Option String
  | some (.str text) => some text
  | _ => none

def isNumeric : Option Json → Bool
  | some (.num _) => true
  | _ => false

/-- White space, as `trim` and `\s` know it. -/
def isSpace (c : Char) : Bool :=
  let n := c.toNat
  (0x9 ≤ n && n ≤ 0xD) || (0x2000 ≤ n && n ≤ 0x200A) ||
    n ∈ [0x20, 0xA0, 0x1680, 0x2028, 0x2029, 0x202F, 0x205F, 0x3000, 0xFEFF]

/-- A text that is left when it is trimmed. -/
def isNonEmptyString (value : Option Json) : Bool :=
  (stringOf value).any fun text => text.toList.any fun c => !isSpace c

section Required

/-- The exterior angles the catalog requires, in its order. -/
def currentRequiredAngles : List String :=
  ["diag_front_left", "left", "diag_rear_left", "rear", "trunk_open", "trunk_left", "trunk_right",
    "trunk_tools", "front", "hood_open", "engine_bay", "hood_underside", "engine_bay_left",
    "engine_bay_right", "diag_front_right", "right", "diag_rear_right"]

/-- The angles that were required before. -/
def legacyExteriorAngles8 : List String :=
  ["diag_front_left", "left", "diag_rear_left", "rear", "front", "diag_front_right", "right",
    "diag_rear_right"]

/-- The paint-thickness stations of the catalog. -/
def thicknessPanelIds : List String :=
  ["roof_rear_left", "fender_rear_left", "door_rear_left", "sill_rear_left", "opening_left",
    "sill_front_left", "door_front_left", "fender_front_left", "hood", "fender_front_right",
    "door_front_right", "sill_front_right", "opening_right", "door_rear_right", "sill_rear_right",
    "fender_rear_right", "trunk_lid"]

def legacyThicknessPanels13 : List String :=
  ["roof_rear_left", "fender_rear_left", "door_rear_left", "opening_left", "door_front_left",
    "fender_front_left", "hood", "fender_front_right", "door_front_right", "opening_right",
    "door_rear_right", "fender_rear_right", "trunk_lid"]

/-- The set a payload is judged by: the old one only if it covers that and names nothing newer. -/
def resolveRequired (current legacy named : List String) : List String :=
  if current.any fun id => id ∉ legacy && id ∈ named then current
  else if legacy.all (· ∈ named) then legacy
  else current

def resolveRequiredAngles (capturedAngleIds : List String) : List String :=
  resolveRequired currentRequiredAngles legacyExteriorAngles8 capturedAngleIds

def resolveRequiredPanels (measuredPanelIds : List String) : List String :=
  resolveRequired thicknessPanelIds legacyThicknessPanels13 measuredPanelIds

end Required

section Evaluation

structure CompletenessMissing where
  exteriorAngles : List String
  thicknessValues : List String
  thicknessPhotos : List String
  calibration : List String
  wheels : List (String × List String)
  interior : List String
  damages : List (String × List String)
  deriving DecidableEq, Repr

structure CompletenessResult where
  evaluable : Bool
  complete : Bool
  exteriorAngleCount : Nat
  missing : CompletenessMissing
  deriving DecidableEq, Repr

def emptyMissing : CompletenessMissing := ⟨[], [], [], [], [], [], []⟩

/-- The app that made the report tells the inspector about the cabin photo and the damage rows. -/
def appKnowsCabinAndDamageRules (data : Json) : Bool :=
  isNonEmptyString (prop "method" (prop "breakdown" (data.get "scores")))

/-- The `kind` of every photo in the manifest. -/
def photoKindsOf (data : Json) : List String :=
  (elements (data.get "photos")).filterMap fun photo => stringOf (photo.get "kind")

/-- What follows the prefix, in the names that have it. -/
def suffixes (stem : String) (names : List String) : List String :=
  names.filterMap fun name =>
    if stem.toList.isPrefixOf name.toList then
      some (String.ofList (name.toList.drop stem.toList.length))
    else none

/-- The panels the payload lists, the last row of each first, and whether it has a reading. -/
def panelsOf (data : Json) : List (String × Bool) :=
  ((elements (prop "panels" (data.get "thickness"))).filterMap fun row =>
    (stringOf (row.get "panelId")).map fun id => (id, isNumeric (row.get "um"))).reverse

def wheelCorners : List String := ["fl", "fr", "rl", "rr"]

/-- The wheels the payload lists, the last row of each corner first. -/
def wheelRowsOf (data : Json) : List (String × Json) :=
  ((elements (data.get "wheels")).filterMap fun row =>
    (stringOf (row.get "corner")).map fun corner => (corner, row)).reverse

/-- The names of what is absent. -/
def gapsOf (checks : List (String × Bool)) : List String :=
  checks.filterMap fun check => if check.2 then none else some check.1

def wheelGaps (photoKinds : List String) (rows : List (String × Json)) (corner : String) :
    List String :=
  let row := rows.lookup corner
  gapsOf [("photo", "wheel-" ++ corner ∈ photoKinds), ("treadMm", isNumeric (prop "treadMm" row)),
    ("dot", isNonEmptyString (prop "dot" row)),
    ("sizeSpec", isNonEmptyString (prop "sizeSpec" row))]

/-- `/^C\d+$/`. -/
def isChecklistCode (text : String) : Bool :=
  match text.toList with
  | 'C' :: digits => !digits.isEmpty && digits.all Char.isDigit
  | _ => false

/-- Which of part and type a damage row lacks. -/
def damageGaps (row : Json) : List String :=
  if (stringOf (row.get "kstCode")).any isChecklistCode then []
  else
    match row.get "manualEntry" with
    | some (.bool true) => gapsOf [("part", isNonEmptyString (row.get "manualPart")),
        ("type", isNonEmptyString (row.get "manualDamage"))]
    | _ => gapsOf [("part", isNonEmptyString (row.get "partId")),
        ("type", isNonEmptyString (row.get "typeId"))]

/-- What one row of the damage list lacks. A row without an id cannot have its photo. -/
def damageMissing (photoKinds : List String) (index : Nat) (row : Json) :
    List (String × List String) :=
  if isObject row = false then []
  else if isNonEmptyString (row.get "id") = false then [("#" ++ toString (index + 1), ["id"])]
  else
    let id := (stringOf (row.get "id")).getD ""
    let gaps := damageGaps row ++ gapsOf [("photo", "damage-" ++ id ∈ photoKinds)]
    if gaps = [] then [] else [(id, gaps)]

def CompletenessMissing.isNone (m : CompletenessMissing) : Bool :=
  m.exteriorAngles.isEmpty && m.thicknessValues.isEmpty && m.thicknessPhotos.isEmpty &&
    m.calibration.isEmpty && m.wheels.isEmpty && m.interior.isEmpty && m.damages.isEmpty

/-- What an evaluable payload lacks, and how many angles it is judged by. -/
def missingOf (data : Json) : Nat × CompletenessMissing :=
  let photoKinds := photoKindsOf data
  let capturedAngles := suffixes "exterior-" photoKinds
  let requiredAngles := resolveRequiredAngles capturedAngles
  let panels := panelsOf data
  let mentionedPanels := panels.map Prod.fst ++ suffixes "thickness-" photoKinds
  let requiredPanels := resolveRequiredPanels mentionedPanels
  let wheelRows := wheelRowsOf data
  let newRules := appKnowsCabinAndDamageRules data
  (requiredAngles.length,
    { exteriorAngles := requiredAngles.filter (· ∉ capturedAngles)
      thicknessValues := requiredPanels.filter fun id => panels.lookup id ≠ some true
      thicknessPhotos := requiredPanels.filter fun id => "thickness-" ++ id ∉ photoKinds
      calibration := ["zeroproof", "zeroproof-al"].filter (· ∉ photoKinds)
      wheels := wheelCorners.filterMap fun corner =>
        let gaps := wheelGaps photoKinds wheelRows corner
        if gaps = [] then none else some (corner, gaps)
      interior :=
        if newRules && (suffixes "interior-" photoKinds).isEmpty then ["photo"] else []
      damages :=
        if newRules then (elements (data.get "damages")).zipIdx.flatMap fun row =>
          damageMissing photoKinds row.2 row.1
        else [] })

/-- Judge the payload of a report. -/
def evaluateCompleteness : Option Json → CompletenessResult
  | none => ⟨false, false, 0, emptyMissing⟩
  | some data =>
    if isObject data = false then ⟨false, false, 0, emptyMissing⟩
    else ⟨true, (missingOf data).2.isNone, (missingOf data).1, (missingOf data).2⟩

/-- How many single elements are missing. -/
def countMissing (m : CompletenessMissing) : Nat :=
  m.exteriorAngles.length + m.thicknessValues.length + m.thicknessPhotos.length +
    m.calibration.length + m.wheels.length + m.interior.length + m.damages.length

end Evaluation

section Normalization

def naturalOf (digits : List Char) : Nat := digits.foldl (fun n c => n * 10 + (c.toNat - 48)) 0

/-- The number a printed one stands for; `Infinity` is none. -/
def numberOf (text : String) : Option ℚ :=
  let unsigned := text.toList.dropWhile (· = '-')
  let mantissa := unsigned.takeWhile (· ≠ 'e')
  let exponent := (unsigned.dropWhile (· ≠ 'e')).drop 1
  let whole := mantissa.takeWhile (· ≠ '.')
  let fraction := (mantissa.dropWhile (· ≠ '.')).drop 1
  if (whole ++ fraction).all Char.isDigit = false then none
  else
    let magnitude : ℚ := naturalOf (whole ++ fraction) / 10 ^ fraction.length
    let power := naturalOf (exponent.filter Char.isDigit)
    let scaled := if exponent.head? = some '-' then magnitude / 10 ^ power
      else magnitude * 10 ^ power
    some (if text.toList.head? = some '-' then -scaled else scaled)

/-- `Math.round(litres * 10) / 10`, as it is printed. -/
def roundedLitres (text : String) : Option String :=
  (numberOf text).map fun litres =>
    let tenths := mathRound (litres * 10)
    if 10 ^ 22 ≤ tenths.natAbs then text
    else
      let whole := toString (tenths.natAbs / 10)
      let printed := if tenths.natAbs % 10 = 0 then whole
        else whole ++ "." ++ toString (tenths.natAbs % 10)
      if tenths < 0 then "-" ++ printed else printed

/-- The object with one property replaced where it stands. -/
def replaceField (name : String) (value : Json) (fields : JsObject) : JsObject :=
  fields.map fun field => if field.1 = name then (name, value) else field

/-- Round `vehicle.engineVolumeL` before the report is stored. -/
def normalizeReportData (reportData : Json) : Json :=
  match reportData, reportData.get "vehicle", prop "engineVolumeL" (reportData.get "vehicle") with
  | .obj data, some (.obj vehicle), some (.num litres) =>
    match roundedLitres litres with
    | some rounded =>
      .obj (replaceField "vehicle"
        (.obj (replaceField "engineVolumeL" (.num rounded) vehicle)) data)
    | none => reportData
  | _, _, _ => reportData

theorem lookup_replaceField {name name' : String} (h : name' ≠ name) (value : Json)
    (fields : JsObject) : (replaceField name value fields).lookup name' = fields.lookup name' := by
  induction fields with
  | nil => rfl
  | cons field fields ih =>
    obtain ⟨key, v⟩ := field
    show List.lookup name' ((if key = name then (name, value) else (key, v)) ::
      replaceField name value fields) = _
    split
    next hkey =>
      subst hkey
      simp only [List.lookup_cons, beq_eq_false_iff_ne.mpr h, ih]
    next => simp only [List.lookup_cons, ih]

/-- Normalization touches no property but the vehicle. -/
theorem get_normalizeReportData (name : String) (h : name ≠ "vehicle") (data : Json) :
    (normalizeReportData data).get name = data.get name := by
  unfold normalizeReportData
  split
  next fields vehicle litres _ _ =>
    split
    · exact lookup_replaceField h _ _
    · rfl
  next => rfl

theorem isObject_normalizeReportData (data : Json) :
    isObject (normalizeReportData data) = isObject data := by
  unfold normalizeReportData
  split
  · split <;> rfl
  · rfl

/-- The gate judges a normalized payload as it judges the payload. -/
theorem evaluateCompleteness_normalize (data : Json) :
    evaluateCompleteness (some (normalizeReportData data)) = evaluateCompleteness (some data) := by
  have hmissing : missingOf (normalizeReportData data) = missingOf data := by
    unfold missingOf photoKindsOf panelsOf wheelRowsOf appKnowsCabinAndDamageRules
    rw [get_normalizeReportData "photos" (by decide),
      get_normalizeReportData "thickness" (by decide),
      get_normalizeReportData "wheels" (by decide),
      get_normalizeReportData "scores" (by decide),
      get_normalizeReportData "damages" (by decide)]
  simp only [evaluateCompleteness, isObject_normalizeReportData, hmissing]

end Normalization

end CarSalePro.Reports
