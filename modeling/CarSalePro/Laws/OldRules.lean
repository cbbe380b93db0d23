import CarSalePro.Laws.CompletenessGate

namespace CarSalePro.Reports

section Withholding

/-- The row says nothing that the whole one does not. -/
def SaysLess (row whole : Json) : Prop :=
  ∀ field value, row.get field = some value → whole.get field = some value

instance : Std.Refl SaysLess := ⟨fun _ _ _ h => h⟩

instance : IsTrans Json SaysLess := ⟨fun _ _ _ h h' field value hrow => h' _ _ (h field value hrow)⟩

/-- Some of the rows, each with some of what it says. -/
abbrev FewerRows (less rows : List Json) : Prop := List.SublistForall₂ SaysLess less rows

/-- `less` is the payload with some of its shots and readings removed. -/
structure Withheld (less data : Json) : Prop where
  shots : (elements (less.get "photos")).Sublist (elements (data.get "photos"))
  panels : FewerRows (elements (prop "panels" (less.get "thickness")))
    (elements (prop "panels" (data.get "thickness")))
  wheels : FewerRows (elements (less.get "wheels")) (elements (data.get "wheels"))
  rest : ∀ name, name ≠ "photos" → name ≠ "thickness" → name ≠ "wheels" →
    less.get name = data.get name

variable {less data row whole : Json} {key name kind panel : String} {rows lessRows : List Json}
  {angles panels : List String}

theorem FewerRows.mem (h : FewerRows lessRows rows) (hrow : row ∈ lessRows) :
    ∃ whole ∈ rows, SaysLess row whole := by
  induction h with
  | nil => cases hrow
  | cons hless _ ih =>
    rcases List.mem_cons.mp hrow with rfl | hrow
    · exact ⟨_, List.mem_cons_self, hless⟩
    · obtain ⟨whole, hmem, hless⟩ := ih hrow
      exact ⟨whole, List.mem_cons_of_mem _ hmem, hless⟩
  | cons_right _ ih =>
    obtain ⟨whole, hmem, hless⟩ := ih hrow
    exact ⟨whole, List.mem_cons_of_mem _ hmem, hless⟩

theorem Withheld.refl (data : Json) : Withheld data data where
  shots := List.Sublist.refl _
  panels := (List.Sublist.refl _).sublistForall₂
  wheels := (List.Sublist.refl _).sublistForall₂
  rest _ _ _ _ := rfl

theorem Withheld.trans {least : Json} (h : Withheld least less) (h' : Withheld less data) :
    Withheld least data where
  shots := h.shots.trans h'.shots
  panels := IsTrans.trans _ _ _ h.panels h'.panels
  wheels := IsTrans.trans _ _ _ h.wheels h'.wheels
  rest name hphotos hthickness hwheels :=
    (h.rest name hphotos hthickness hwheels).trans (h'.rest name hphotos hthickness hwheels)

theorem Withheld.photo (h : Withheld less data) (hphoto : HasPhoto less kind) :
    HasPhoto data kind := by
  obtain ⟨photo, hmem, hkind⟩ := hphoto
  exact ⟨photo, h.shots.subset hmem, hkind⟩

theorem Withheld.knows (h : Withheld less data) :
    appKnowsCabinAndDamageRules less = appKnowsCabinAndDamageRules data := by
  unfold appKnowsCabinAndDamageRules
  rw [h.rest "scores" (by decide) (by decide) (by decide)]

/-- A check that a missing property does not pass is passed by the whole row when some of it
passes. -/
theorem SaysLess.passes {check : Option Json → Bool} {field : String} (h : SaysLess row whole)
    (hnone : check none = false) (hrow : check (row.get field) = true) :
    check (whole.get field) = true := by
  cases hvalue : row.get field with
  | none =>
    rw [hvalue, hnone] at hrow
    cases hrow
  | some value =>
    rw [hvalue] at hrow
    rw [h field value hvalue]
    exact hrow

theorem SaysLess.isNumeric {field : String} (h : SaysLess row whole)
    (hrow : isNumeric (row.get field) = true) : isNumeric (whole.get field) = true :=
  h.passes rfl hrow

theorem SaysLess.isNonEmptyString {field : String} (h : SaysLess row whole)
    (hrow : isNonEmptyString (row.get field) = true) :
    isNonEmptyString (whole.get field) = true := h.passes rfl hrow

end Withholding

section FullRows

/-- An object with one of its properties replaced. -/
def withField (name : String) (value : Json) : Json → Json
  | .obj fields => .obj (replaceField name value fields)
  | other => other

/-- The row of a station has its reading. -/
def fullPanel (row : Json) : Bool := isNumeric (row.get "um")

/-- The row of a wheel has its tread, its code and its size. -/
def fullWheel (row : Json) : Bool :=
  isNumeric (row.get "treadMm") && isNonEmptyString (row.get "dot") &&
    isNonEmptyString (row.get "sizeSpec")

/-- The payload without the rows of stations and wheels that are not filled in. -/
def fullRows (data : Json) : Json :=
  let panels := (elements (prop "panels" (data.get "thickness"))).filter fullPanel
  let wheels := (elements (data.get "wheels")).filter fullWheel
  let thickness := withField "panels" (.arr panels) ((data.get "thickness").getD .null)
  withField "thickness" thickness (withField "wheels" (.arr wheels) data)

variable {less data row value : Json} {key name kind panel : String} {rows : List Json}
  {angles panels : List String} {p : Json → Bool}

theorem get_withField_self : (withField name value data).get name =
    (data.get name).map fun _ => value := by
  cases data with
  | obj fields =>
    show (replaceField name value fields).lookup name = (fields.lookup name).map fun _ => value
    induction fields with
    | nil => rfl
    | cons field fields ih =>
      obtain ⟨other, v⟩ := field
      show List.lookup name ((if other = name then (name, value) else (other, v)) ::
        replaceField name value fields) = _
      by_cases hname : other = name
      · subst hname
        simp only [if_true, List.lookup_cons, beq_self_eq_true, Option.map_some]
      · have hne : (name == other) = false := beq_eq_false_iff_ne.mpr (Ne.symm hname)
        simp only [if_neg hname, List.lookup_cons, hne, ih]
  | _ => rfl

theorem get_withField_of_ne (h : kind ≠ name) :
    (withField name value data).get kind = data.get kind := by
  cases data with
  | obj fields => exact lookup_replaceField h value fields
  | _ => rfl

theorem isObject_withField : isObject (withField name value data) = isObject data := by
  cases data <;> rfl

/-- Some of an array's rows, where the array is one. -/
theorem elements_replaced {found : Option Json} :
    elements (found.map fun _ => Json.arr ((elements found).filter p)) =
      (elements found).filter p := by
  cases found <;> rfl

/-- Some of the rows of the thickness panels, where the payload has them. -/
theorem panels_replaced (h : less.get "thickness" = data.get "thickness") :
    elements (prop "panels" ((withField "thickness" (withField "panels"
      (.arr ((elements (prop "panels" (data.get "thickness"))).filter p))
        ((data.get "thickness").getD .null)) less).get "thickness")) =
      (elements (prop "panels" (data.get "thickness"))).filter p := by
  rw [get_withField_self, h]
  cases data.get "thickness" with
  | none => rfl
  | some thickness =>
    simp only [prop, Option.map_some, Option.bind_some, Option.getD_some, get_withField_self]
    exact elements_replaced

theorem fullRows_get (hwheels : name ≠ "wheels") (hthickness : name ≠ "thickness") :
    (fullRows data).get name = data.get name := by
  unfold fullRows
  rw [get_withField_of_ne hthickness, get_withField_of_ne hwheels]

theorem fullRows_panels : elements (prop "panels" ((fullRows data).get "thickness")) =
    (elements (prop "panels" (data.get "thickness"))).filter fullPanel :=
  panels_replaced (get_withField_of_ne (by decide))

theorem fullRows_wheels : elements ((fullRows data).get "wheels") =
    (elements (data.get "wheels")).filter fullWheel := by
  unfold fullRows
  rw [get_withField_of_ne (by decide), get_withField_self]
  exact elements_replaced

theorem isObject_fullRows : isObject (fullRows data) = isObject data :=
  isObject_withField.trans isObject_withField

theorem withheld_fullRows : Withheld (fullRows data) data where
  shots := by
    rw [fullRows_get (by decide) (by decide)]
  panels := by
    rw [fullRows_panels]
    exact List.filter_sublist.sublistForall₂
  wheels := by
    rw [fullRows_wheels]
    exact List.filter_sublist.sublistForall₂
  rest name _ hthickness hwheels := fullRows_get hwheels hthickness

/-- A name that some row carries has a last row. -/
theorem exists_lastNamed (hmem : row ∈ rows) (hname : row.get key = some (.str name)) :
    ∃ last, LastNamed key name rows last := by
  induction rows using List.reverseRecOn with
  | nil => cases hmem
  | append_singleton rows last ih =>
    by_cases hlast : last.get key = some (.str name)
    · exact ⟨last, lastNamed_concat.mpr (.inl ⟨hlast, rfl⟩)⟩
    · have hrow : row ∈ rows := by
        rcases List.mem_append.mp hmem with hrow | hrow
        · exact hrow
        · cases List.mem_singleton.mp hrow
          exact absurd hname hlast
      obtain ⟨found, hfound⟩ := ih hrow
      exact ⟨found, lastNamed_concat.mpr (.inr ⟨hlast, hfound⟩)⟩

theorem LastNamed.mem (h : LastNamed key name rows row) :
    row ∈ rows ∧ row.get key = some (.str name) := by
  obtain ⟨before, after, rfl, hname, -⟩ := h
  exact ⟨by simp, hname⟩

/-- Among the rows that are filled in the last one counts as any does. -/
theorem lastNamed_filter (hmem : row ∈ rows) (hname : row.get key = some (.str name))
    (hrow : p row = true) : ∃ last, LastNamed key name (rows.filter p) last ∧ p last = true := by
  obtain ⟨last, hlast⟩ := exists_lastNamed (List.mem_filter.mpr ⟨hmem, hrow⟩) hname
  exact ⟨last, hlast, (List.mem_filter.mp hlast.mem.1).2⟩

theorem Withheld.reading (h : Withheld less data) (hreading : HasReading less panel) :
    HasReading (fullRows data) panel := by
  obtain ⟨row, hlast, hnumeric⟩ := hreading
  obtain ⟨whole, hmem, hless⟩ := h.panels.mem hlast.mem.1
  unfold HasReading
  rw [fullRows_panels]
  exact lastNamed_filter hmem (hless _ _ hlast.mem.2) (hless.isNumeric hnumeric)

theorem Withheld.wheel {corner : String} (h : Withheld less data) (hwheel : HasWheel less corner) :
    HasWheel (fullRows data) corner := by
  obtain ⟨row, hlast, htread, hdot, hsize⟩ := hwheel
  obtain ⟨whole, hmem, hless⟩ := h.wheels.mem hlast.mem.1
  have hfull : fullWheel whole = true := by
    simp [fullWheel, hless.isNumeric htread, hless.isNonEmptyString hdot,
      hless.isNonEmptyString hsize]
  obtain ⟨last, hlast', hfull'⟩ := lastNamed_filter hmem (hless _ _ hlast.mem.2) hfull
  simp only [fullWheel, Bool.and_eq_true] at hfull'
  unfold HasWheel
  rw [fullRows_wheels]
  exact ⟨last, hlast', hfull'.1.1, hfull'.1.2, hfull'.2⟩

/-- What a smaller payload documents, the rows that are filled in document. -/
theorem Withheld.documented {Counts : Json → Prop} (h : Withheld less data)
    (hless : Documented less angles panels Counts) :
    Documented (fullRows data) angles panels Counts := by
  have hphoto {kind : String} (hkind : HasPhoto less kind) : HasPhoto (fullRows data) kind := by
    unfold HasPhoto
    rw [fullRows_get (by decide) (by decide)]
    exact h.photo hkind
  have hfull : Withheld (fullRows data) data := withheld_fullRows
  have hknows := hfull.knows.trans h.knows.symm
  refine ⟨fun id hid => hphoto (hless.angles id hid),
    fun id hid => h.reading (hless.readings id hid),
    fun id hid => hphoto (hless.panels id hid), hless.calibration.imp hphoto hphoto,
    fun corner hcorner => (hless.wheels corner hcorner).imp hphoto h.wheel, fun hnew => ?_,
    fun hnew row hmem hcounts => ?_⟩
  · obtain ⟨view, hview⟩ := hless.cabin (hknows.symm.trans hnew)
    exact ⟨view, hphoto hview⟩
  · rw [fullRows_get (by decide) (by decide),
      ← h.rest "damages" (by decide) (by decide) (by decide)] at hmem
    have hrow := hless.damages (hknows.symm.trans hnew) row hmem hcounts
    exact ⟨hrow.id, hrow.part, hrow.type, hphoto hrow.photo⟩

end FullRows

section Generations

/-- What today's catalog names and the old one does not. -/
def newerAngles : List String := currentRequiredAngles.filter (· ∉ legacyExteriorAngles8)

def newerPanels : List String := thicknessPanelIds.filter (· ∉ legacyThicknessPanels13)

theorem newerAngles_eq : newerAngles = ["trunk_open", "trunk_left", "trunk_right", "trunk_tools",
    "hood_open", "engine_bay", "hood_underside", "engine_bay_left", "engine_bay_right"] := by
  simp [newerAngles, currentRequiredAngles, legacyExteriorAngles8]

theorem newerPanels_eq : newerPanels =
    ["sill_rear_left", "sill_front_left", "sill_front_right", "sill_rear_right"] := by
  simp [newerPanels, thicknessPanelIds, legacyThicknessPanels13]

theorem legacyAngles_current : ∀ id ∈ legacyExteriorAngles8, id ∈ currentRequiredAngles := by
  simp [legacyExteriorAngles8, currentRequiredAngles]

theorem legacyPanels_current : ∀ id ∈ legacyThicknessPanels13, id ∈ thicknessPanelIds := by
  simp [legacyThicknessPanels13, thicknessPanelIds]

theorem legacyPanels_kept : ∀ id ∈ legacyThicknessPanels13, id ∉ newerPanels := by
  simp [newerPanels_eq, legacyThicknessPanels13]

variable {current legacy named : List String}

theorem resolveRequired_or (current legacy named : List String) :
    resolveRequired current legacy named = current ∨
      resolveRequired current legacy named = legacy := by
  unfold resolveRequired
  split
  next => exact .inl rfl
  next =>
    split
    next => exact .inr rfl
    next => exact .inl rfl

/-- What both sets ask for is asked for in any case. -/
theorem mem_resolveRequired {id : String} (hcurrent : id ∈ current) (hlegacy : id ∈ legacy) :
    id ∈ resolveRequired current legacy named := by
  rcases resolveRequired_or current legacy named with h | h
  · rw [h]
    exact hcurrent
  · rw [h]
    exact hlegacy

/-- A payload that names the old set and nothing newer is held to the old set. -/
theorem resolveRequired_legacy (hlegacy : ∀ id ∈ legacy, id ∈ named)
    (hnewer : ∀ id ∈ current.filter (· ∉ legacy), id ∉ named) :
    resolveRequired current legacy named = legacy := by
  have hunaware : (current.any fun id => id ∉ legacy && id ∈ named) = false := by
    simp only [List.mem_filter, decide_eq_true_eq, and_imp] at hnewer
    simpa [List.any_eq_false] using hnewer
  have hcovers : legacy.all (· ∈ named) = true := by
    simpa using hlegacy
  unfold resolveRequired
  rw [hunaware, hcovers, if_neg (by decide), if_pos rfl]

end Generations

section Skipping

/-- The kinds of the shots that only today's catalog asks for. -/
def newerKinds : List String :=
  newerAngles.map ("exterior-" ++ ·) ++ newerPanels.map ("thickness-" ++ ·)

/-- The rows that carry none of the names under `key`. -/
def withoutNamed (key : String) (names : List String) (rows : List Json) : List Json :=
  rows.filter fun row => (stringOf (row.get key)).all (· ∉ names)

/-- The payload of an inspector who skips the newer shots and stations. -/
def skipNewer (data : Json) : Json :=
  let photos := withoutNamed "kind" newerKinds (elements (data.get "photos"))
  let panels := withoutNamed "panelId" newerPanels (elements (prop "panels" (data.get "thickness")))
  let thickness := withField "panels" (.arr panels) ((data.get "thickness").getD .null)
  withField "thickness" thickness (withField "photos" (.arr photos) data)

variable {data row value : Json} {key name kind panel : String} {rows : List Json}
  {names : List String}

/-- A row stays when the name it carries is none of those left out. -/
theorem named_stays (h : row.get key = some (.str name)) :
    (stringOf (row.get key)).all (· ∉ names) = true ↔ name ∉ names := by
  rw [stringOf_eq.mpr h]
  simp

theorem mem_withoutNamed (h : row.get key = some (.str name)) :
    row ∈ withoutNamed key names rows ↔ row ∈ rows ∧ name ∉ names := by
  rw [withoutNamed, List.mem_filter, named_stays h]

/-- A name that stays keeps its last row. -/
theorem lastNamed_withoutNamed : LastNamed key name (withoutNamed key names rows) row ↔
    LastNamed key name rows row ∧ name ∉ names := by
  induction rows using List.reverseRecOn with
  | nil =>
    constructor
    · intro h
      obtain ⟨before, after, heq, -⟩ := h
      cases before <;> cases heq
    · rintro ⟨⟨before, after, heq, -⟩, -⟩
      cases before <;> cases heq
  | append_singleton rows last ih =>
    have hsplit : withoutNamed key names (rows ++ [last]) =
        withoutNamed key names rows ++ withoutNamed key names [last] := List.filter_append ..
    rw [hsplit, lastNamed_concat]
    by_cases hstays : (stringOf (last.get key)).all (· ∉ names) = true
    · have hlast : withoutNamed key names [last] = [last] := by
        simp only [withoutNamed, List.filter_cons, hstays, if_true, List.filter_nil]
      rw [hlast, lastNamed_concat, ih]
      constructor
      · rintro (⟨hname, rfl⟩ | ⟨hother, hrow, hkept⟩)
        · exact ⟨.inl ⟨hname, rfl⟩, (named_stays hname).mp hstays⟩
        · exact ⟨.inr ⟨hother, hrow⟩, hkept⟩
      · rintro ⟨⟨hname, rfl⟩ | ⟨hother, hrow⟩, hkept⟩
        · exact .inl ⟨hname, rfl⟩
        · exact .inr ⟨hother, hrow, hkept⟩
    · have hlast : withoutNamed key names [last] = [] := by
        simp only [withoutNamed, List.filter_cons, hstays, Bool.false_eq_true, if_false,
          List.filter_nil]
      rw [hlast, List.append_nil, ih]
      constructor
      · rintro ⟨hrow, hkept⟩
        have hother : last.get key ≠ some (.str name) := fun hname =>
          hstays ((named_stays hname).mpr hkept)
        exact ⟨.inr ⟨hother, hrow⟩, hkept⟩
      · rintro ⟨⟨hname, -⟩ | ⟨hother, hrow⟩, hkept⟩
        · exact absurd ((named_stays hname).mpr hkept) hstays
        · exact ⟨hrow, hkept⟩

theorem skipNewer_get (hname : name ≠ "photos") (hname' : name ≠ "thickness") :
    (skipNewer data).get name = data.get name := by
  unfold skipNewer
  rw [get_withField_of_ne hname', get_withField_of_ne hname]

theorem skipNewer_photos : elements ((skipNewer data).get "photos") =
    withoutNamed "kind" newerKinds (elements (data.get "photos")) := by
  unfold skipNewer
  rw [get_withField_of_ne (by decide), get_withField_self]
  exact elements_replaced

theorem skipNewer_panels : elements (prop "panels" ((skipNewer data).get "thickness")) =
    withoutNamed "panelId" newerPanels (elements (prop "panels" (data.get "thickness"))) :=
  panels_replaced (get_withField_of_ne (by decide))

theorem withheld_skipNewer : Withheld (skipNewer data) data where
  shots := by
    rw [skipNewer_photos]
    exact List.filter_sublist
  panels := by
    rw [skipNewer_panels]
    exact List.filter_sublist.sublistForall₂
  wheels := by
    rw [skipNewer_get (by decide) (by decide)]
    exact (List.Sublist.refl _).sublistForall₂
  rest name hphotos hthickness _ := skipNewer_get hphotos hthickness

theorem hasPhoto_skipNewer : HasPhoto (skipNewer data) kind ↔
    HasPhoto data kind ∧ kind ∉ newerKinds := by
  unfold HasPhoto
  rw [skipNewer_photos]
  constructor
  · rintro ⟨photo, hmem, hkind⟩
    have hphoto := (mem_withoutNamed hkind).mp hmem
    exact ⟨⟨photo, hphoto.1, hkind⟩, hphoto.2⟩
  · rintro ⟨⟨photo, hmem, hkind⟩, hkept⟩
    exact ⟨photo, (mem_withoutNamed hkind).mpr ⟨hmem, hkept⟩, hkind⟩

theorem hasReading_skipNewer : HasReading (skipNewer data) panel ↔
    HasReading data panel ∧ panel ∉ newerPanels := by
  unfold HasReading
  rw [skipNewer_panels]
  simp only [lastNamed_withoutNamed]
  constructor
  · rintro ⟨row, ⟨hlast, hkept⟩, hnumeric⟩
    exact ⟨⟨row, hlast, hnumeric⟩, hkept⟩
  · rintro ⟨⟨row, hlast, hnumeric⟩, hkept⟩
    exact ⟨row, ⟨hlast, hkept⟩, hnumeric⟩

theorem legacyAngles_kept : ∀ id ∈ legacyExteriorAngles8, "exterior-" ++ id ∉ newerKinds := by
  simp [newerKinds, newerAngles_eq, newerPanels_eq, legacyExteriorAngles8]

theorem legacyPhotos_kept : ∀ id ∈ legacyThicknessPanels13, "thickness-" ++ id ∉ newerKinds := by
  simp [newerKinds, newerAngles_eq, newerPanels_eq, legacyThicknessPanels13]

/-- The newer kinds are those of angles and of panels. -/
theorem newerKinds_head : ∀ kind ∈ newerKinds,
    kind.toList.head? = some 'e' ∨ kind.toList.head? = some 't' := by
  simp [newerKinds, newerAngles_eq, newerPanels_eq]

theorem not_newerKind {stem view : String} {c : Char} {rest : List Char}
    (hstem : stem.toList = c :: rest) (he : c ≠ 'e') (ht : c ≠ 't') :
    stem ++ view ∉ newerKinds := by
  intro hmem
  have hhead : (stem ++ view).toList.head? = some c := by
    rw [String.toList_append, hstem]
    rfl
  rcases newerKinds_head _ hmem with h | h <;> rw [hhead] at h <;> injection h <;> contradiction

end Skipping

section OptingOut

variable {data : Json}

/-- The payload has the evidence of every angle and every panel of today's catalog. -/
def HasCurrentEvidence (data : Json) : Prop :=
  (∀ id ∈ currentRequiredAngles, HasPhoto data ("exterior-" ++ id)) ∧
    ∀ id ∈ thicknessPanelIds, HasReading data id ∧ HasPhoto data ("thickness-" ++ id)

/-- The payload meets the old rules in full. -/
def MeetsOldRules (data : Json) : Prop :=
  Documented data legacyExteriorAngles8 legacyThicknessPanels13 fun row => isObject row

theorem mem_shownAngles {id : String} :
    id ∈ shownAngles data ↔ HasPhoto data ("exterior-" ++ id) := by
  rw [shownAngles, mem_suffixes, mem_photoKinds]

theorem mem_mentionedPanels {id : String} : id ∈ mentionedPanels data ↔
    (∃ row ∈ elements (prop "panels" (data.get "thickness")),
      row.get "panelId" = some (.str id)) ∨ HasPhoto data ("thickness-" ++ id) := by
  simp only [mentionedPanels, List.mem_append, mem_suffixes, mem_photoKinds, panelsOf,
    List.map_reverse, List.mem_reverse, List.map_filterMap, List.mem_filterMap, Option.map_map]
  simp only [Function.comp_def, Option.map_id', stringOf_eq]

theorem HasReading.mentioned {id : String} (h : HasReading data id) :
    id ∈ mentionedPanels data := by
  obtain ⟨row, ⟨before, after, heq, hname, -⟩, -⟩ := h
  refine mem_mentionedPanels.mpr (.inl ⟨row, ?_, hname⟩)
  rw [heq]
  simp

/-- Without the newer shots the payload is held to the old angles. -/
theorem skipNewer_angles (hold : MeetsOldRules data) :
    resolveRequiredAngles (shownAngles (skipNewer data)) = legacyExteriorAngles8 := by
  apply resolveRequired_legacy
  · intro id hid
    have hkept := legacyAngles_kept id hid
    exact mem_shownAngles.mpr (hasPhoto_skipNewer.mpr ⟨hold.angles id hid, hkept⟩)
  · intro id hid hshown
    have hphoto := hasPhoto_skipNewer.mp (mem_shownAngles.mp hshown)
    exact hphoto.2 (List.mem_append_left _ (List.mem_map_of_mem hid))

theorem skipNewer_stations (hold : MeetsOldRules data) :
    resolveRequiredPanels (mentionedPanels (skipNewer data)) = legacyThicknessPanels13 := by
  apply resolveRequired_legacy
  · intro id hid
    have hkept := legacyPanels_kept id hid
    exact (hasReading_skipNewer.mpr ⟨hold.readings id hid, hkept⟩).mentioned
  · intro id hid hmentioned
    rcases mem_mentionedPanels.mp hmentioned with ⟨row, hmem, hname⟩ | hphoto
    · rw [skipNewer_panels] at hmem
      exact ((mem_withoutNamed hname).mp hmem).2 hid
    · have hskipped := (hasPhoto_skipNewer.mp hphoto).2
      exact hskipped (List.mem_append_right _ (List.mem_map_of_mem hid))

/-- What the old rules ask for is none of the newer shots, so it stays. -/
theorem skipNewer_meetsOldRules (hold : MeetsOldRules data) : MeetsOldRules (skipNewer data) where
  angles id hid := hasPhoto_skipNewer.mpr ⟨hold.angles id hid, legacyAngles_kept id hid⟩
  readings id hid := hasReading_skipNewer.mpr ⟨hold.readings id hid, legacyPanels_kept id hid⟩
  panels id hid := hasPhoto_skipNewer.mpr ⟨hold.panels id hid, legacyPhotos_kept id hid⟩
  calibration := by
    have hkept (view : String) : "zeroproof" ++ view ∉ newerKinds :=
      not_newerKind rfl (by decide) (by decide)
    exact ⟨hasPhoto_skipNewer.mpr ⟨hold.calibration.1, hkept ""⟩,
      hasPhoto_skipNewer.mpr ⟨hold.calibration.2, hkept "-al"⟩⟩
  wheels corner hcorner := by
    obtain ⟨hphoto, row, hwheel⟩ := hold.wheels corner hcorner
    refine ⟨hasPhoto_skipNewer.mpr ⟨hphoto, not_newerKind rfl (by decide) (by decide)⟩, row, ?_⟩
    rw [skipNewer_get (by decide) (by decide)]
    exact hwheel
  cabin hknows := by
    rw [withheld_skipNewer.knows] at hknows
    obtain ⟨view, hview⟩ := hold.cabin hknows
    exact ⟨view, hasPhoto_skipNewer.mpr ⟨hview, not_newerKind rfl (by decide) (by decide)⟩⟩
  damages hknows row hmem hcounts := by
    rw [withheld_skipNewer.knows] at hknows
    rw [skipNewer_get (by decide) (by decide)] at hmem
    have hrow := hold.damages hknows row hmem hcounts
    exact ⟨hrow.id, hrow.part, hrow.type,
      hasPhoto_skipNewer.mpr ⟨hrow.photo, not_newerKind rfl (by decide) (by decide)⟩⟩

/-- A payload that meets the old rules passes once the newer shots are left out. -/
theorem skipNewer_complete (hobject : isObject data) (hold : MeetsOldRules data) :
    (evaluateCompleteness (some (skipNewer data))).complete = true := by
  refine complete_iff.mpr ⟨?_, ?_⟩
  · unfold skipNewer
    rw [isObject_withField, isObject_withField]
    exact hobject
  · unfold MeetsItsRules
    rw [skipNewer_angles hold, skipNewer_stations hold]
    exact skipNewer_meetsOldRules hold

/-- Whatever passes meets the old rules: they ask for part of what today's do. -/
theorem meetsOldRules_of_complete (h : (evaluateCompleteness (some data)).complete = true) :
    MeetsOldRules data := by
  have hrules : MeetsItsRules data fun row => isObject row := (complete_iff.mp h).2
  have hangles : ∀ id ∈ legacyExteriorAngles8, id ∈ resolveRequiredAngles (shownAngles data) := by
    intro id hid
    exact mem_resolveRequired (legacyAngles_current id hid) hid
  have hpanels : ∀ id ∈ legacyThicknessPanels13,
      id ∈ resolveRequiredPanels (mentionedPanels data) := by
    intro id hid
    exact mem_resolveRequired (legacyPanels_current id hid) hid
  exact { hrules with
    angles := fun id hid => hrules.angles id (hangles id hid)
    readings := fun id hid => hrules.readings id (hpanels id hid)
    panels := fun id hid => hrules.panels id (hpanels id hid) }

/-- With the evidence of both catalogs a payload passes whichever it is held to. -/
theorem complete_of_current (hobject : isObject data) (hold : MeetsOldRules data)
    (hcurrent : HasCurrentEvidence data) : (evaluateCompleteness (some data)).complete = true := by
  refine complete_iff.mpr ⟨hobject, ?_⟩
  have hpanels : ∀ id ∈ resolveRequiredPanels (mentionedPanels data),
      HasReading data id ∧ HasPhoto data ("thickness-" ++ id) := by
    intro id hid
    rcases resolveRequired_or thicknessPanelIds legacyThicknessPanels13
      (mentionedPanels data) with hset | hset
    · rw [resolveRequiredPanels, hset] at hid
      exact hcurrent.2 id hid
    · rw [resolveRequiredPanels, hset] at hid
      exact ⟨hold.readings id hid, hold.panels id hid⟩
  have hangles : ∀ id ∈ resolveRequiredAngles (shownAngles data),
      HasPhoto data ("exterior-" ++ id) := by
    intro id hid
    rcases resolveRequired_or currentRequiredAngles legacyExteriorAngles8
      (shownAngles data) with hset | hset
    · rw [resolveRequiredAngles, hset] at hid
      exact hcurrent.1 id hid
    · rw [resolveRequiredAngles, hset] at hid
      exact hold.angles id hid
  exact { hold with
    angles := hangles
    readings := fun id hid => (hpanels id hid).1
    panels := fun id hid => (hpanels id hid).2 }

theorem isObject_of_knows (h : appKnowsCabinAndDamageRules data = true) : isObject data = true := by
  cases data with
  | obj fields => rfl
  | _ => cases h

/-- The verdict cannot be had by leaving things out: what passes has the evidence of today's
catalog, and no payload passes that would not with the shots and readings it withholds. -/
def NoOptOut (data : Json) : Prop :=
  ((evaluateCompleteness (some data)).complete = true → HasCurrentEvidence data) ∧
    ∀ less, Withheld less data → (evaluateCompleteness (some less)).complete = true →
      (evaluateCompleteness (some data)).complete = true

/-- A payload of a new app opts out exactly when the rows of it that are filled in meet the old
rules, and it lacks some of the evidence today's catalog asks for, or its last rows do not meet
them. -/
theorem noOptOut_iff (data : Json) (hknows : appKnowsCabinAndDamageRules data = true) :
    NoOptOut data ↔
      (MeetsOldRules (fullRows data) → MeetsOldRules data ∧ HasCurrentEvidence data) := by
  have hobject := isObject_of_knows hknows
  constructor
  · rintro ⟨hverdict, hfewer⟩ hold
    have hskipped := skipNewer_complete (isObject_fullRows.trans hobject) hold
    have hcomplete := hfewer _ (withheld_skipNewer.trans withheld_fullRows) hskipped
    exact ⟨meetsOldRules_of_complete hcomplete, hverdict hcomplete⟩
  · intro hcovered
    constructor
    · intro hcomplete
      exact (hcovered ((Withheld.refl data).documented (meetsOldRules_of_complete hcomplete))).2
    · intro less hwithheld hless
      obtain ⟨hold, hcurrent⟩ := hcovered (hwithheld.documented (meetsOldRules_of_complete hless))
      exact complete_of_current hobject hold hcurrent

/-- A payload of today's catalog in full. -/
theorem full_payload_noOptOut :
    NoOptOut (samplePayload currentRequiredAngles thicknessPanelIds [] []) := by
  let data := samplePayload currentRequiredAngles thicknessPanelIds [] []
  have hcomplete : (evaluateCompleteness (some data)).complete = true := by decide +kernel
  have hrules : MeetsItsRules data fun row => isObject row := (complete_iff.mp hcomplete).2
  have hangles : resolveRequiredAngles (shownAngles data) = currentRequiredAngles := by
    decide +kernel
  have hpanels : resolveRequiredPanels (mentionedPanels data) = thicknessPanelIds := by
    decide +kernel
  unfold MeetsItsRules at hrules
  rw [hangles, hpanels] at hrules
  have hevidence : HasCurrentEvidence data :=
    ⟨hrules.angles, fun id hid => ⟨hrules.readings id hid, hrules.panels id hid⟩⟩
  exact (noOptOut_iff data (by decide +kernel)).mpr fun _ =>
    ⟨meetsOldRules_of_complete hcomplete, hevidence⟩

/-- Eight angles and thirteen stations pass, though the app knows of all seventeen. -/
theorem old_set_passes :
    appKnowsCabinAndDamageRules
      (samplePayload legacyExteriorAngles8 legacyThicknessPanels13 [] []) = true ∧
    ¬ NoOptOut (samplePayload legacyExteriorAngles8 legacyThicknessPanels13 [] []) := by
  let data := samplePayload legacyExteriorAngles8 legacyThicknessPanels13 [] []
  refine ⟨by decide +kernel, fun h => ?_⟩
  have hcomplete : (evaluateCompleteness (some data)).complete = true := by
    decide +kernel
  have htrunk : HasPhoto data ("exterior-" ++ "trunk_open") :=
    (h.1 hcomplete).1 "trunk_open" (by decide +kernel)
  have hmissing : "exterior-" ++ "trunk_open" ∉ photoKindsOf data := by
    decide +kernel
  exact hmissing (mem_photoKinds.mpr htrunk)

end OptingOut

end CarSalePro.Reports
