import Mathlib.Data.List.Infix
import CarSalePro.Listings.VehicleData
import CarSalePro.Search.SearchText

namespace CarSalePro.Listings

open Search

/-- What the columns take from the platform: text in Unicode, and dates. -/
structure Language extends Unicode where
  parseDate : List Char → Option Int

section Sanitize

def damageCostFields : List String := ["materialsEur", "hours", "hourlyRate", "manualCostEur"]

def inspectorOnlyBlocks : List String := ["scores", "signoff"]

/-- `delete` of one field after another. -/
def eraseAll (names : List String) (fields : JsObject) : JsObject :=
  names.foldl (fun out name => erase name out) fields

/-- The damage without what it costs; what is no object is left as it is. -/
def cleanDamage : Json → Json
  | .obj damage => .obj (eraseAll damageCostFields damage)
  | damage => damage

/-- Remove everything a seller is not allowed to assert. -/
def sanitizeVehicleData (input : JsObject) : JsObject :=
  let out := eraseAll inspectorOnlyBlocks input
  let out :=
    match out.lookup "damages" with
    | some (.arr damages) => assign "damages" (.arr (damages.map cleanDamage)) out
    | _ => out
  assign "schemaVersion" (.num "1") out

/-- `{ ...value }`: an array has its indices for names. -/
def spread : Json → JsObject
  | .obj fields => fields
  | .arr items => items.zipIdx.map fun item => (toString item.2, item.1)
  | _ => []

/-- The sanitised payload of a request, whose `null` counts as an empty one. -/
def normalizeVehicleDataDto (dto : Json) : JsObject := sanitizeVehicleData (spread dto)

end Sanitize

section Vocabulary

/-- An ordered list of slugs with their needles; the first rule that hits wins. -/
abbrev FoldRules := List (String × List String)

def fuelRules : FoldRules :=
  [("hybrid", ["hybrid", "hibrid", "phev", "mhev", "hev", "гибрид", "гібрид"]),
   ("electric", ["electric", "elektro", "elektrisch", "bev", "ev only", "электр", "електр"]),
   ("diesel", ["diesel", "tdi", "hdi", "cdi", "дизель", "дизел"]),
   ("lpg", ["lpg", "autogas", "propane", "liquefied petroleum", "гбо", "сжиженн"]),
   ("cng", ["cng", "compressed natural", "erdgas", "methane", "метан"]),
   ("petrol", ["petrol", "gasoline", "benzin", "бензин", "flexible fuel", "ffv", "e85", "gas"])]

def transmissionRules : FoldRules :=
  [("automatic", ["automat", "автомат", "cvt", "variator", "варіатор", "вариатор", "dsg",
      "tiptronic", "steptronic", "s tronic", "s-tronic", "pdk", "robot", "робот", "amt", "акпп",
      "a/t"]),
   ("manual", ["manual", "manuell", "schalt", "механ", "ручн", "мкпп", "m/t"])]

def colourRules : FoldRules :=
  [("silver", ["silver", "silber", "серебр", "срібл"]),
   ("grey", ["grey", "gray", "grau", "сер"]),
   ("white", ["white", "weiss", "weiß", "бел", "біл"]),
   ("black", ["black", "schwarz", "чёрн", "черн", "чорн"]),
   ("blue", ["blue", "blau", "син", "голуб"]),
   ("red", ["red", "rot", "красн", "червон"]),
   ("green", ["green", "grun", "grün", "зелен", "зелён"]),
   ("yellow", ["yellow", "gelb", "желт", "жёлт", "жовт"]),
   ("orange", ["orange", "оранж", "помаранч"]),
   ("brown", ["brown", "braun", "коричн", "бур"]),
   ("beige", ["beige", "беж"]),
   ("gold", ["gold", "золот"]),
   ("purple", ["purple", "violet", "violett", "lila", "фиолет", "фіолет", "сирен"])]

/-- The slug of the first rule with a needle in the text, or the trimmed text. -/
def foldOnto (U : Unicode) (rules : FoldRules) : Option Json → Option Json
  | some (.str raw) =>
    let trimmed := trim raw.toList
    if trimmed = [] then none
    else
      let hay := U.toLowerCase trimmed
      match rules.find? fun rule => rule.2.any fun needle => needle.toList <:+: hay with
      | some rule => some (.str rule.1)
      | none => some (.str (String.ofList trimmed))
  | _ => none

def normalizeFuelType (U : Unicode) : Option Json → Option Json := foldOnto U fuelRules

def normalizeTransmission (U : Unicode) : Option Json → Option Json := foldOnto U transmissionRules

def normalizeColour (U : Unicode) : Option Json → Option Json := foldOnto U colourRules

end Vocabulary

section Columns

/-- The denormalised listing columns projected out of a vehicleData payload. -/
structure ProjectedVehicleColumns where
  vin : Option String
  make : Option String
  model : Option String
  year : Option Int
  mileageKm : Option Int
  fuelType : Option String
  transmission : Option String
  powerKw : Option Int
  firstRegistration : Option Int
  huValidUntil : Option String
  color : Option String
  bodyType : Option String
  driveType : Option String
  deriving DecidableEq, Repr

def noColumns : ProjectedVehicleColumns :=
  ⟨none, none, none, none, none, none, none, none, none, none, none, none, none⟩

def str (value : Option Json) (max : Nat) : Option String :=
  match value with
  | some (.str text) =>
    let trimmed := trim text.toList
    if trimmed = [] then none else some (String.ofList (sliceTo max trimmed))
  | _ => none

def digits (text : List Char) : Nat := text.foldl (fun n c => 10 * n + (c.toNat - '0'.toNat)) 0

/-- `Math.trunc` of a number as JavaScript prints it. -/
def truncated (text : List Char) : Int :=
  let unsigned := text.dropWhile (· = '-')
  let mantissa := unsigned.takeWhile (· ≠ 'e')
  let exponent := (unsigned.dropWhile (· ≠ 'e')).drop 1
  let whole := mantissa.takeWhile (· ≠ '.')
  let fraction := (mantissa.dropWhile (· ≠ '.')).drop 1
  let power : Int := digits (exponent.filter Char.isDigit)
  let scale := (if exponent.head? = some '-' then -power else power) - fraction.length
  let size := digits (whole ++ fraction) * 10 ^ scale.toNat / 10 ^ (-scale).toNat
  if text.head? = some '-' then -(size : Int) else size

def int (value : Option Json) : Option Int :=
  match value with
  | some (.num text) => some (truncated text.toList)
  | _ => none

/-- The members of a value that is an object, and none of any other. -/
def plainObject : Option Json → JsObject
  | some (.obj fields) => fields
  | _ => []

/-- Project the searchable columns out of the JSON payload. -/
def projectVehicleColumns (lang : Language) (data : JsObject) : ProjectedVehicleColumns :=
  let vehicle := plainObject (data.lookup "vehicle")
  let operational := plainObject (data.lookup "operational")
  let vinRaw := str (vehicle.lookup "vin") 17
  let firstReg := str (vehicle.lookup "firstRegistration") 32
  { vin := vinRaw.map fun vin => String.ofList (lang.toUpperCase vin.toList)
    make := str (vehicle.lookup "make") 64
    model := str (vehicle.lookup "model") 64
    year := int (vehicle.lookup "year")
    mileageKm := int (operational.lookup "mileageKm")
    fuelType := str (normalizeFuelType lang.toUnicode (vehicle.lookup "fuelType")) 32
    transmission := str (normalizeTransmission lang.toUnicode (vehicle.lookup "transmission")) 32
    powerKw := int (vehicle.lookup "powerKw")
    firstRegistration := firstReg.bind fun text => lang.parseDate text.toList
    huValidUntil := str (vehicle.lookup "tuvDate") 16
    color := str (normalizeColour lang.toUnicode (vehicle.lookup "colour")) 64
    bodyType := str (vehicle.lookup "bodyType") 32
    driveType := str (vehicle.lookup "driveType") 32 }

structure SearchColumns where
  citySearch : String
  makeSearch : String
  modelSearch : String
  deriving DecidableEq, Repr

/-- The three derived columns the showroom actually searches. -/
def listingSearchColumns (U : Unicode) (city make model : Option String) : SearchColumns where
  citySearch := normalizeSearchText U city
  makeSearch := normalizeCompact U make
  modelSearch := normalizeCompact U model

end Columns

end CarSalePro.Listings
