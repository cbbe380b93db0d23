import Mathlib.Data.List.SplitOn

namespace CarSalePro

/-- A value as `JSON.parse` makes it. A number is what JavaScript prints of it. -/
inductive Json where
  | null
  | bool (b : Bool)
  | num (text : String)
  | str (text : String)
  | arr (items : List Json)
  | obj (fields : List (String × Json))

/-- The own properties of an object; no name is there twice. -/
abbrev JsObject := List (String × Json)

namespace Json

/-- A property of a value; on anything but an object there is none of the names asked for. -/
def get (name : String) : Json → Option Json
  | obj fields => fields.lookup name
  | _ => none

/-- The value is this text, by `===`. -/
def isText (text : String) : Json → Bool
  | str t => t = text
  | _ => false

/-- The value is this number, by `===`. -/
def isNumber (text : String) : Json → Bool
  | num t => t = text
  | _ => false

def truthy : Json → Bool
  | null => false
  | bool b => b
  | num text => text ≠ "0"
  | str text => text ≠ ""
  | arr _ | obj _ => true

mutual

/-- `String(value)`. An object whose own `toString` is not a function has no string, and the
conversion throws a `TypeError`. -/
def toText : Json → Option String
  | null => some "null"
  | bool b => some (if b then "true" else "false")
  | num text | str text => some text
  | arr items => (joined items).map (String.intercalate ",")
  | obj fields => if (fields.lookup "toString").isSome then none else some "[object Object]"

/-- The elements of an array as `join` prints them. -/
def joined : List Json → Option (List String)
  | [] => some []
  | item :: items => do
    let text ← match item with
      | null => some ""
      | item => toText item
    let rest ← joined items
    some (text :: rest)

end

/-- `value ?? default`. -/
def coalesce (value : Option Json) (default : Json) : Json :=
  match value with
  | none | some null => default
  | some value => value

end Json

/-- `[\p{Cc}\p{Cf}\p{Zl}\p{Zp}]`: control, format and bidi characters. -/
def isUnprintable (c : Char) : Bool :=
  let n := c.toNat
  [(0x0, 0x1F), (0x7F, 0x9F), (0xAD, 0xAD), (0x600, 0x605), (0x61C, 0x61C), (0x6DD, 0x6DD),
    (0x70F, 0x70F), (0x890, 0x891), (0x8E2, 0x8E2), (0x180E, 0x180E), (0x200B, 0x200F),
    (0x2028, 0x202E), (0x2060, 0x2064), (0x2066, 0x206F), (0xFEFF, 0xFEFF), (0xFFF9, 0xFFFB),
    (0x110BD, 0x110BD), (0x110CD, 0x110CD), (0x13430, 0x1343F), (0x1BCA0, 0x1BCA3),
    (0x1D173, 0x1D17A), (0xE0001, 0xE0001), (0xE0020, 0xE007F)].any fun r => r.1 ≤ n && n ≤ r.2

/-- A value made safe for a message: unprintable characters removed, and cut to 64. -/
def printable (value : Option Json) : Option String :=
  match value with
  | none | some .null => some "none"
  | some value => do
    let text ← value.toText
    let chars := text.toList.filter fun c => !isUnprintable c
    some (if 64 < chars.length then String.ofList (chars.take 64) ++ "..." else String.ofList chars)

/-- The payload of a compact JWS, when it is a JSON object. `parse` is `JSON.parse` of what a base64
text encodes; it is `none` when that is not JSON. The signature is not checked. -/
def decodeJwsPayload (parse : String → Option Json) (jws : String) : Option JsObject :=
  match jws.toList.splitOn '.' with
  | [_, payload, _] =>
    if payload = [] then none
    else
      let base64 := payload.map fun c => if c = '-' then '+' else if c = '_' then '/' else c
      match parse (String.ofList base64) with
      | some (.obj fields) => some fields
      | _ => none
  | _ => none

/-- A request that failed: with a response that is not a 2xx, or without one. -/
structure HttpFailure where
  response : Option (Nat × Option Json)

/-- The HTTP status, or 0 for a network failure. -/
def httpStatusOf (err : HttpFailure) : Nat := err.response.elim 0 Prod.fst

def httpBodyOf (err : HttpFailure) : Option Json := err.response.bind Prod.snd

/-- A store answer we cannot act on now: rate limit, server fault, or no answer. -/
def isTransientStatus (status : Nat) : Bool :=
  status = 0 || status = 408 || status = 429 || 500 ≤ status

end CarSalePro
