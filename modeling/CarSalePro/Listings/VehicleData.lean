import CarSalePro.Quota.Encoding

namespace CarSalePro.Listings

section Objects

/-- `out[key] = value`. -/
def assign (key : String) (value : Json) : JsObject → JsObject
  | [] => [(key, value)]
  | (name, old) :: fields =>
    if name = key then (key, value) :: fields else (name, old) :: assign key value fields

/-- `delete out[key]`. -/
def erase (key : String) (fields : JsObject) : JsObject := fields.filter (·.1 ≠ key)

mutual

/-- No object names a key twice, and none has a `__proto__`, which no validated body can have. -/
def plain : Json → Prop
  | .arr items => plainItems items
  | .obj fields => (fields.map Prod.fst).Nodup ∧ "__proto__" ∉ fields.map Prod.fst ∧
      plainMembers fields
  | _ => True

def plainItems : List Json → Prop
  | [] => True
  | item :: items => plain item ∧ plainItems items

def plainMembers : JsObject → Prop
  | [] => True
  | (_, value) :: fields => plain value ∧ plainMembers fields

end

/-- What `toPlainJson` makes of a validated body, and what the database gives back of it. -/
structure JsonObject where
  fields : JsObject
  isPlain : plain (.obj fields)

end Objects

section Merge

mutual

/-- Deep-merge a patch into the stored payload. -/
def mergeVehicleData (base : JsObject) : JsObject → JsObject
  | [] => base
  | (key, value) :: patch => mergeVehicleData (mergeKey base key value) patch

/-- One key of the patch. -/
def mergeKey (out : JsObject) (key : String) : Json → JsObject
  | .null => erase key out
  | .obj patch =>
    match out.lookup key with
    | some (.obj base) => assign key (.obj (mergeVehicleData base patch)) out
    | _ => assign key (.obj patch) out
  | value => assign key value out

end

end Merge

end CarSalePro.Listings
