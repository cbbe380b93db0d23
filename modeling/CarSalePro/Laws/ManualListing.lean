import CarSalePro.Laws.VehicleMerge
import CarSalePro.Listings.Manual

namespace CarSalePro.Manual

open Store Interleave Prog Listings Search

/-- Nothing that only an inspection can assert. -/
structure Declared (data : JsObject) : Prop where
  blocks : ∀ name ∈ inspectorOnlyBlocks, data.lookup name = none
  damages : ∀ items, data.lookup "damages" = some (.arr items) → ∀ damage, .obj damage ∈ items →
    ∀ name ∈ damageCostFields, damage.lookup name = none
  version : data.lookup "schemaVersion" = some (.num "1")

/-- The search columns of what the listing has stored. -/
def Listing.searchColumns (lang : Language) (row : Listing) : SearchColumns :=
  listingSearchColumns lang.toUnicode (some row.city) row.columns.make row.columns.model

/-- The columns of the listing say what its data says. -/
structure Listing.Mirrored (lang : Language) (row : Listing) : Prop where
  declared : ∀ data ∈ row.vehicleData, Declared data
  columns : row.columns = (row.vehicleData.map (projectVehicleColumns lang)).getD noColumns
  city : row.citySearch = some (row.searchColumns lang).citySearch
  make : row.makeSearch = some (row.searchColumns lang).makeSearch
  model : row.modelSearch = some (row.searchColumns lang).modelSearch

def World.Mirrored (lang : Language) (w : World) : Prop :=
  ∀ listing row, w.get listing = some row → row.source = .manual → row.Mirrored lang

section Sanitized

variable {fields damage : JsObject} {name : String} {names : List String}

theorem lookup_eraseAll : (eraseAll names fields).lookup name =
    if name ∈ names then none else fields.lookup name := by
  unfold eraseAll
  induction names generalizing fields with
  | nil => simp
  | cons first names ih =>
    rw [List.foldl_cons, ih, lookup_erase]
    by_cases hfirst : name = first
    · simp [hfirst]
    · simp [hfirst]

/-- What is left after sanitising is nothing a seller may not assert. -/
theorem declared_sanitize (input : JsObject) : Declared (sanitizeVehicleData input) := by
  have hdamages (items : List Json) (damage : JsObject)
      (hmem : Json.obj damage ∈ items.map cleanDamage) (name : String)
      (hname : name ∈ damageCostFields) : damage.lookup name = none := by
    obtain ⟨item, -, hitem⟩ := List.mem_map.mp hmem
    cases item with
    | obj dirty =>
      cases hitem
      rw [lookup_eraseAll, if_pos hname]
    | null => cases hitem
    | bool b => cases hitem
    | num text => cases hitem
    | str text => cases hitem
    | arr inner => cases hitem
  unfold sanitizeVehicleData
  refine ⟨fun name hname => ?_, fun items hitems damage hmem name hname => ?_, ?_⟩
  · have hother : name ≠ "schemaVersion" ∧ name ≠ "damages" := by
      simp only [inspectorOnlyBlocks, List.mem_cons, List.not_mem_nil, or_false] at hname
      rcases hname with rfl | rfl <;> decide
    rw [lookup_assign, if_neg hother.1]
    split
    · rw [lookup_assign, if_neg hother.2, lookup_eraseAll, if_pos hname]
    · rw [lookup_eraseAll, if_pos hname]
  · rw [lookup_assign, if_neg (by decide)] at hitems
    split at hitems
    next dirty _ =>
      rw [lookup_assign, if_pos rfl] at hitems
      cases hitems
      exact hdamages dirty damage hmem name hname
    next hnone => exact absurd hitems (hnone items)
  · rw [lookup_assign, if_pos rfl]

end Sanitized

section Statements

variable {lang : Language} {row row' : Listing} {patch : ListingPatch}

/-- A patch that writes columns together with what they are derived of. -/
structure ListingPatch.Consistent (lang : Language) (patch : ListingPatch) : Prop where
  city : patch.citySearch =
    patch.city.map fun city => (listingSearchColumns lang.toUnicode city none none).citySearch
  make : patch.makeSearch = patch.vehicle.map fun vehicle =>
    (listingSearchColumns lang.toUnicode none vehicle.1.make none).makeSearch
  model : patch.modelSearch = patch.vehicle.map fun vehicle =>
    (listingSearchColumns lang.toUnicode none none vehicle.1.model).modelSearch
  vehicle : ∀ vehicle ∈ patch.vehicle,
    Declared vehicle.2 ∧ vehicle.1 = projectVehicleColumns lang vehicle.2

theorem patchOf_consistent (lang : Language) (row : Listing) (dto : UpdateListing) :
    (patchOf lang row dto).Consistent lang := by
  refine ⟨rfl, rfl, rfl, fun vehicle hvehicle => ?_⟩
  obtain ⟨data, -, rfl⟩ := Option.mem_map.mp hvehicle
  exact ⟨declared_sanitize _, rfl⟩

/-- A row in step stays so under a patch in step. -/
theorem ListingPatch.Consistent.apply (hpatch : patch.Consistent lang) (hrow : row.Mirrored lang)
    (h : patch.apply row = some row') : row'.Mirrored lang := by
  obtain ⟨priceCents, -, h⟩ := Option.bind_eq_some_iff.mp h
  obtain ⟨city, hcity, h⟩ := Option.bind_eq_some_iff.mp h
  have hcitySearch : patch.citySearch.or row.citySearch =
      some (listingSearchColumns lang.toUnicode (some city) none none).citySearch := by
    rw [hpatch.city]
    cases hwritten : patch.city with
    | none =>
      rw [hwritten] at hcity
      cases hcity
      exact hrow.city
    | some written =>
      rw [hwritten] at hcity
      cases hcity
      rfl
  cases Option.some.inj h
  obtain ⟨_, makeSearch, modelSearch, _, _, _, _, _, _, _, _, vehicle⟩ := patch
  obtain ⟨-, hmake, hmodel, hwritten⟩ := hpatch
  dsimp only at hmake hmodel hwritten
  subst hmake hmodel
  cases vehicle with
  | none => exact ⟨hrow.declared, hrow.columns, hcitySearch, hrow.make, hrow.model⟩
  | some vehicle =>
    obtain ⟨hdeclared, hprojected⟩ := hwritten vehicle rfl
    refine ⟨fun data hdata => ?_, hprojected, hcitySearch, rfl, rfl⟩
    cases hdata
    exact hdeclared

/-- A row is in step from its start. -/
theorem manualRow_mirrored (lang : Language) (user : UserRef) (dto : CreateManualListing) :
    (manualRow lang user dto).Mirrored lang := by
  refine ⟨fun data hdata => ?_, rfl, ?_, rfl, rfl⟩
  · obtain ⟨payload, -, rfl⟩ := Option.mem_map.mp hdata
    exact declared_sanitize _
  · have hblank : normalizeSearchText lang.toUnicode (some "") = "" := rfl
    cases hcity : dto.city with
    | none => simp [manualRow, hcity, Listing.searchColumns, listingSearchColumns,
        normalizeSearchText]
    | some city => simp [manualRow, hcity, Listing.searchColumns, listingSearchColumns]

/-- The statements of the editor: rows and patches in step. -/
def Stmt.InStep (lang : Language) : Stmt → Prop
  | .create row => row.Mirrored lang
  | .update _ patch => patch.Consistent lang

/-- A statement in step keeps all rows so. -/
theorem Stmt.InStep.exec {s : Stmt} {c : Fate} {w : World} (hs : s.InStep lang)
    (hw : w.Mirrored lang) : World.Mirrored lang (machine.exec s c w).2 := by
  cases c with
  | fails => exact hw
  | ok =>
    cases s with
    | create new =>
      intro listing row hrow hmanual
      simp only [machine, World.exec, Table.get_set] at hrow
      split at hrow
      next =>
        cases hrow
        exact hs
      next => exact hw listing row hrow hmanual
    | update target patch =>
      intro listing row hrow hmanual
      simp only [machine, World.exec, World.update] at hrow
      split at hrow
      next => exact hw listing row hrow hmanual
      next old hold =>
        split at hrow
        next => exact hw listing row hrow hmanual
        next new hnew =>
          simp only [Table.get_set] at hrow
          split at hrow
          next =>
            cases hrow
            have hsource : row.source = old.source := by
              obtain ⟨priceCents, -, h⟩ := Option.bind_eq_some_iff.mp hnew
              obtain ⟨city, -, h⟩ := Option.bind_eq_some_iff.mp h
              cases Option.some.inj h
              rfl
            exact ListingPatch.Consistent.apply hs (hw target old hold (hsource ▸ hmanual)) hnew
          next => exact hw listing row hrow hmanual

end Statements

section Runs

variable {lang : Language}

/-- Every statement a call can issue is in step, whatever it has read. -/
theorem only_inStep (lang : Language) (call : Call) : (call.prog lang).Only (Stmt.InStep lang) := by
  cases call with
  | createManual user dto =>
    have hcreate : (Manual.createManual lang user dto).Only (Stmt.InStep lang) :=
      (only_perform _).mpr (manualRow_mirrored lang user dto)
    exact .seq hcreate fun _ => only_pure _
  | update user listing dto =>
    have howned : (requireOwnedListing user listing).Only (Stmt.InStep lang) := by
      refine .seq (only_fetch _ _) fun found => ?_
      cases found with
      | none => exact only_throw _
      | some row => exact .ite (fun _ => only_throw _) fun _ => only_pure _
    refine .seq howned fun row => .ite (fun _ => only_throw _) fun _ => ?_
    exact .ite (fun _ => only_throw _) fun _ =>
      (only_perform _).mpr (patchOf_consistent lang row dto)

def noRecord : Recorder Site Stmt World Unit := fun _ _ _ _ h => h

/-- No condition. -/
def anyStep : Guard Site Stmt World Fate Unit := fun _ _ _ _ => true

/-- Whatever sellers create and edit, one call after another or side by side, the columns of every
manual listing say what its data says. -/
theorem columns_mirror_data (lang : Language) (w : World) (calls : List Call) (g : Run Unit)
    (hw : w.Mirrored lang)
    (hg : Pool.Reach machine noRecord anyStep (launch lang w () calls) g) :
    World.Mirrored lang g.state := by
  refine hg.footprint (A := Stmt.InStep lang) (I := fun x => World.Mirrored lang x.1) ?_ hw
    (fun _ _ _ h => h) (fun _ _ _ _ h hs _ => hs.exec h) fun _ _ h => h
  intro p hp
  obtain ⟨call, -, rfl⟩ := List.mem_map.mp hp
  exact only_inStep lang call

end Runs

section Edited

/-- Text in ASCII, and no dates. -/
def ascii : Language where
  decomposition c := [c]
  combiningClass _ := 0
  normalizeNFC text := text
  toLowerCase text := text.map Char.toLower
  toUpperCase text := text.map Char.toUpper
  parseDate _ := none

def bmwInBerlin : CreateManualListing where
  priceCents := some 1850000
  city := some "Berlin"
  countryCode := some "DE"
  plz := none
  description := none
  contactPhone := none
  contactEmail := none
  youtubeVideoId := none
  vehicleData := some (.obj
    [("vehicle", .obj [("make", .str "BMW"), ("fuelType", .str "Gasoline")]),
    ("damages", .arr [.obj [("kind", .str "dent"), ("hours", .num "2")]])])

def nowX5InBonn : UpdateListing where
  priceCents := none
  city := some (some "Bad  Bonn")
  countryCode := none
  plz := none
  description := none
  contactPhone := none
  contactEmail := none
  youtubeVideoId := none
  vehicleData := some (.obj [("vehicle", .obj [("model", .str "X 5")]), ("scores", .arr [])])

/-- What the showroom searches. -/
def searched (g : Run Unit) : List (Option String) :=
  match g.state.get 1 with
  | none => []
  | some row => [row.citySearch, row.makeSearch, row.modelSearch, row.columns.fuelType]

theorem columns_mirror_data_bonn : ∃ g : Run Unit,
    searched g = [some "bad bonn", some "bmw", some "x5", some "petrol"] ∧
      World.Mirrored ascii g.state := by
  have hrun : Pool.observe machine noRecord anyStep searched [.run 0 .ok, .run 1 .ok] (.run 1 .ok)
      (launch ascii Table.empty () [.createManual 7 bmwInBerlin, .update 7 1 nowX5InBonn]) =
      some ([some "berlin", some "bmw", some "", some "petrol"],
        [some "bad bonn", some "bmw", some "x5", some "petrol"]) := by decide +kernel
  obtain ⟨g, g', hg, hm, hs, -, hafter⟩ := Pool.observe_eq hrun
  have hempty : World.Mirrored ascii Table.empty := fun _ _ h => by cases h
  exact ⟨g', hafter, columns_mirror_data ascii _ _ g' hempty (Pool.Reach.next hg hm hs)⟩

end Edited

end CarSalePro.Manual
