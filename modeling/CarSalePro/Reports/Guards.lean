import CarSalePro.Reports.Completeness

namespace CarSalePro.Reports

/-- An access to a property of what is no object. -/
inductive AccessError where
  | noObject (name : String)
  deriving DecidableEq, Repr

/-- `value.name`, where the value has to be an object. -/
def access (name : String) (value : Json) : Except AccessError (Option Json) :=
  if isObject value then .ok (value.get name) else .error (.noObject name)

section Guarded

/-- `appKnowsCabinAndDamageRules`, with the guards before its accesses. -/
def guardedRules (data : Json) : Except AccessError Bool := do
  match ← access "scores" data with
  | none => pure false
  | some scores =>
    if isObject scores = false then pure false
    else
      match ← access "breakdown" scores with
      | none => pure false
      | some breakdown =>
        if isObject breakdown = false then pure false
        else pure (isNonEmptyString (← access "method" breakdown))

def guardedPhotoKinds (data : Json) : Except AccessError (List String) := do
  let kinds ← (elements (← access "photos" data)).mapM fun photo =>
    if isObject photo then access "kind" photo else pure none
  pure (kinds.filterMap stringOf)

/-- The rows of a list that have a name under `key`, and what `read` takes from them. -/
def guardedRows {α : Type} (key : String) (read : Json → Except AccessError α) (rows : List Json) :
    Except AccessError (List (String × α)) := do
  let named ← rows.mapM fun row =>
    if isObject row = false then pure none
    else do
      match stringOf (← access key row) with
      | none => pure none
      | some name => do
        let value ← read row
        pure (some (name, value))
  pure (named.filterMap id).reverse

def guardedPanels (data : Json) : Except AccessError (List (String × Bool)) := do
  match ← access "thickness" data with
  | none => pure []
  | some thickness =>
    if isObject thickness = false then pure []
    else do
      let rows := elements (← access "panels" thickness)
      guardedRows "panelId" (fun row => do pure (isNumeric (← access "um" row))) rows

def guardedWheels (data : Json) : Except AccessError (List (String × Json)) := do
  guardedRows "corner" pure (elements (← access "wheels" data))

/-- `row?.name`. -/
def accessIfAny (name : String) : Option Json → Except AccessError (Option Json)
  | none => pure none
  | some row => access name row

def guardedWheelGaps (photoKinds : List String) (rows : List (String × Json)) (corner : String) :
    Except AccessError (List String) := do
  let row := rows.lookup corner
  let treadMm ← accessIfAny "treadMm" row
  let dot ← accessIfAny "dot" row
  let sizeSpec ← accessIfAny "sizeSpec" row
  pure (gapsOf [("photo", "wheel-" ++ corner ∈ photoKinds), ("treadMm", isNumeric treadMm),
    ("dot", isNonEmptyString dot), ("sizeSpec", isNonEmptyString sizeSpec)])

def guardedDamageGaps (row : Json) : Except AccessError (List String) := do
  if (stringOf (← access "kstCode" row)).any isChecklistCode then pure []
  else
    match ← access "manualEntry" row with
    | some (.bool true) => do
      let manualPart ← access "manualPart" row
      let manualDamage ← access "manualDamage" row
      pure (gapsOf [("part", isNonEmptyString manualPart), ("type", isNonEmptyString manualDamage)])
    | _ => do
      let partId ← access "partId" row
      let typeId ← access "typeId" row
      pure (gapsOf [("part", isNonEmptyString partId), ("type", isNonEmptyString typeId)])

def guardedDamage (photoKinds : List String) (index : Nat) (row : Json) :
    Except AccessError (List (String × List String)) := do
  if isObject row = false then pure []
  else do
    let name ← access "id" row
    if isNonEmptyString name = false then pure [("#" ++ toString (index + 1), ["id"])]
    else do
      let id := (stringOf name).getD ""
      let gaps := (← guardedDamageGaps row) ++ gapsOf [("photo", "damage-" ++ id ∈ photoKinds)]
      pure (if gaps = [] then [] else [(id, gaps)])

def guardedMissing (data : Json) : Except AccessError (Nat × CompletenessMissing) := do
  let photoKinds ← guardedPhotoKinds data
  let capturedAngles := suffixes "exterior-" photoKinds
  let requiredAngles := resolveRequiredAngles capturedAngles
  let panels ← guardedPanels data
  let mentionedPanels := panels.map Prod.fst ++ suffixes "thickness-" photoKinds
  let requiredPanels := resolveRequiredPanels mentionedPanels
  let wheelRows ← guardedWheels data
  let wheelGaps ← wheelCorners.mapM fun corner => do
    let gaps ← guardedWheelGaps photoKinds wheelRows corner
    pure (if gaps = [] then none else some (corner, gaps))
  let newRules ← guardedRules data
  let damages ← if newRules then do
      let rows := elements (← access "damages" data)
      rows.zipIdx.mapM fun row => guardedDamage photoKinds row.2 row.1
    else pure []
  pure (requiredAngles.length,
    { exteriorAngles := requiredAngles.filter (· ∉ capturedAngles)
      thicknessValues := requiredPanels.filter fun id => panels.lookup id ≠ some true
      thicknessPhotos := requiredPanels.filter fun id => "thickness-" ++ id ∉ photoKinds
      calibration := ["zeroproof", "zeroproof-al"].filter (· ∉ photoKinds)
      wheels := wheelGaps.filterMap id
      interior :=
        if newRules && (suffixes "interior-" photoKinds).isEmpty then ["photo"] else []
      damages := damages.flatten })

/-- The judgement with every access to a property checked. -/
def evaluateGuarded : Option Json → Except AccessError CompletenessResult
  | none => pure ⟨false, false, 0, emptyMissing⟩
  | some data =>
    if isObject data = false then pure ⟨false, false, 0, emptyMissing⟩
    else do
      let missing ← guardedMissing data
      pure ⟨true, missing.2.isNone, missing.1, missing.2⟩

end Guarded

section Sound

variable {data row : Json} {name : String}

theorem access_object (h : isObject data) : access name data = .ok (data.get name) := if_pos h

theorem get_scalar (h : isObject data = false) : data.get name = none := by
  cases data with
  | obj fields => cases h
  | _ => rfl

theorem prop_scalar (h : isObject data = false) : prop name (some data) = none := get_scalar h

theorem mapM_ok {α β : Type} {f : α → Except AccessError β} {g : α → β} {rows : List α}
    (h : ∀ row ∈ rows, f row = .ok (g row)) : rows.mapM f = .ok (rows.map g) := by
  induction rows with
  | nil => rfl
  | cons row rows ih =>
    have hrow := h row List.mem_cons_self
    have hrest := ih fun x hx => h x (List.mem_cons_of_mem row hx)
    simp only [List.mapM_cons, hrow, hrest, List.map_cons]
    rfl

theorem guardedRules_ok (h : isObject data) :
    guardedRules data = .ok (appKnowsCabinAndDamageRules data) := by
  unfold guardedRules appKnowsCabinAndDamageRules
  rw [access_object h]
  cases hscores : data.get "scores" with
  | none => rfl
  | some scores =>
    cases hobject : isObject scores with
    | false =>
      simp only [bind, Except.bind, hobject, if_true, prop_scalar hobject]
      rfl
    | true =>
      simp only [bind, Except.bind, hobject, access_object hobject, Bool.true_eq_false, if_false]
      show _ = Except.ok (isNonEmptyString (prop "method" (scores.get "breakdown")))
      cases hbreakdown : scores.get "breakdown" with
      | none => rfl
      | some breakdown =>
        cases hinner : isObject breakdown with
        | false =>
          simp only [hinner, if_true, prop_scalar hinner]
          rfl
        | true =>
          simp only [hinner, access_object hinner, Bool.true_eq_false, if_false]
          rfl

theorem guardedPhotoKinds_ok (h : isObject data) :
    guardedPhotoKinds data = .ok (photoKindsOf data) := by
  have hkind (photo : Json) : (if isObject photo then access "kind" photo else pure none) =
      Except.ok (photo.get "kind") := by
    cases hobject : isObject photo with
    | false => simp only [Bool.false_eq_true, if_false, get_scalar hobject]; rfl
    | true => simp only [if_true, access_object hobject]
  unfold guardedPhotoKinds photoKindsOf
  rw [access_object h]
  simp only [bind, Except.bind]
  rw [mapM_ok fun photo _ => hkind photo]
  simp only [pure, Except.pure, List.filterMap_map]
  rfl

/-- What the rows are read for is read of objects only. -/
theorem guardedRows_ok {α : Type} {key : String} {read : Json → Except AccessError α}
    {value : Json → α} (hread : ∀ row, isObject row → read row = .ok (value row))
    (rows : List Json) :
    guardedRows key read rows = .ok ((rows.filterMap fun row =>
      (stringOf (row.get key)).map fun name => (name, value row)).reverse) := by
  have hrow (row : Json) : (if isObject row = false then pure none
      else do
        match stringOf (← access key row) with
        | none => pure none
        | some name => do
          let v ← read row
          pure (some (name, v)) : Except AccessError (Option (String × α))) =
      .ok ((stringOf (row.get key)).map fun name => (name, value row)) := by
    cases hobject : isObject row with
    | false =>
      simp only [if_true, get_scalar hobject]
      rfl
    | true =>
      simp only [Bool.true_eq_false, if_false, access_object hobject, bind, Except.bind]
      cases hname : stringOf (row.get key) with
      | none => rfl
      | some name =>
        simp only [hread row hobject]
        rfl
  unfold guardedRows
  rw [mapM_ok fun row _ => hrow row]
  simp only [bind, Except.bind, pure, Except.pure, List.filterMap_map]
  rfl

theorem guardedPanels_ok (h : isObject data) : guardedPanels data = .ok (panelsOf data) := by
  unfold guardedPanels panelsOf
  rw [access_object h]
  cases hthickness : data.get "thickness" with
  | none => rfl
  | some thickness =>
    cases hobject : isObject thickness with
    | false =>
      simp only [bind, Except.bind, hobject, if_true, prop_scalar hobject]
      rfl
    | true =>
      simp only [bind, Except.bind, hobject, access_object hobject, Bool.true_eq_false, if_false]
      refine guardedRows_ok (fun row hrow => ?_) _
      rw [access_object hrow]
      rfl

theorem guardedWheels_ok (h : isObject data) : guardedWheels data = .ok (wheelRowsOf data) := by
  unfold guardedWheels wheelRowsOf
  rw [access_object h]
  exact guardedRows_ok (fun _ _ => rfl) _

/-- A row that is looked up is an object. -/
theorem wheelRows_object {corner : String} (h : (wheelRowsOf data).lookup corner = some row) :
    isObject row := by
  obtain ⟨before, after, hrows, -⟩ := List.lookup_eq_some_iff.mp h
  have hmem : (corner, row) ∈ wheelRowsOf data := by simp [hrows]
  obtain ⟨found, -, hfound⟩ := List.mem_filterMap.mp (List.mem_reverse.mp hmem)
  obtain ⟨name, hname, heq⟩ := Option.map_eq_some_iff.mp hfound
  cases heq
  cases hobject : isObject row with
  | true => rfl
  | false =>
    rw [get_scalar hobject] at hname
    cases hname

theorem guardedWheelGaps_ok {photoKinds : List String} (corner : String) :
    guardedWheelGaps photoKinds (wheelRowsOf data) corner =
      .ok (wheelGaps photoKinds (wheelRowsOf data) corner) := by
  unfold guardedWheelGaps wheelGaps
  cases hrow : (wheelRowsOf data).lookup corner with
  | none => rfl
  | some row =>
    have hobject := wheelRows_object hrow
    simp only [accessIfAny, access_object hobject]
    rfl

theorem guardedDamageGaps_ok (h : isObject row) : guardedDamageGaps row = .ok (damageGaps row) := by
  unfold guardedDamageGaps damageGaps
  simp only [access_object h, bind, Except.bind, pure, Except.pure]
  split
  next => rfl
  next =>
    cases row.get "manualEntry" with
    | none => rfl
    | some value =>
      cases value with
      | bool b => cases b <;> rfl
      | _ => rfl

theorem guardedDamage_ok (photoKinds : List String) (index : Nat) (row : Json) :
    guardedDamage photoKinds index row = .ok (damageMissing photoKinds index row) := by
  unfold guardedDamage damageMissing
  cases hobject : isObject row with
  | false => rfl
  | true =>
    simp only [Bool.true_eq_false, if_false, access_object hobject, bind, Except.bind]
    split
    next => rfl
    next =>
      rw [guardedDamageGaps_ok hobject]
      rfl

theorem guardedMissing_ok (h : isObject data) : guardedMissing data = .ok (missingOf data) := by
  unfold guardedMissing missingOf
  simp only [guardedPhotoKinds_ok h, guardedPanels_ok h, guardedWheels_ok h, guardedRules_ok h,
    bind, Except.bind, pure, Except.pure, guardedWheelGaps_ok, access_object h]
  have hwheels : wheelCorners.mapM (fun corner => (.ok (if wheelGaps (photoKindsOf data)
      (wheelRowsOf data) corner = [] then none else
        some (corner, wheelGaps (photoKindsOf data) (wheelRowsOf data) corner)) :
        Except AccessError (Option (String × List String)))) = .ok _ := mapM_ok fun _ _ => rfl
  have hdamages : ((elements (data.get "damages")).zipIdx.mapM fun row =>
      guardedDamage (photoKindsOf data) row.2 row.1) = .ok _ := mapM_ok fun row _ =>
        guardedDamage_ok (photoKindsOf data) row.2 row.1
  rw [hwheels]
  simp only [hdamages]
  cases appKnowsCabinAndDamageRules data with
  | false => simp [List.filterMap_map]
  | true => simp [List.filterMap_map, List.flatMap_def]

/-- The judgement never accesses a property of what is no object. -/
theorem evaluateGuarded_ok (data : Option Json) :
    evaluateGuarded data = .ok (evaluateCompleteness data) := by
  cases data with
  | none => rfl
  | some data =>
    cases hobject : isObject data with
    | false =>
      simp only [evaluateGuarded, evaluateCompleteness, hobject, if_true]
      rfl
    | true =>
      simp only [evaluateGuarded, evaluateCompleteness, hobject, Bool.true_eq_false, if_false,
        guardedMissing_ok hobject]
      rfl

end Sound

end CarSalePro.Reports
