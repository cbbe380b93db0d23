import CarSalePro.Quota.Encoding

namespace CarSalePro.Public

section Vocabulary

/-- `PII_KEYS`: complete keys, in lower case. -/
def piiKeys : List String :=
  ["signature", "signatureurl", "signatureimage", "inspectorsignature", "customersignature",
    "ownersignature", "customer", "client", "owner", "seller", "contact", "contacts", "phone",
    "phonenumber", "email", "address", "street", "postaladdress", "iban", "taxid", "personalid",
    "idnumber", "passport", "licenseplate", "plate", "vin", "recipients", "responsible", "company",
    "branch", "name", "firstname", "lastname", "fullname", "mobile", "tel"]

/-- `PII_PERSON_WORDS`: words that make a key a person, wherever they stand in it. -/
def piiPersonWords : List String :=
  ["customer", "client", "owner", "seller", "buyer", "person", "recipient", "recipients",
    "responsible", "company", "branch"]

/-- `PII_CONTACT_WORDS`: words that make a key a way to reach or identify a person. -/
def piiContactWords : List String :=
  ["signature", "phone", "telephone", "mobile", "tel", "fax", "email", "mail", "address", "street",
    "postcode", "iban", "taxid", "vatid", "personalid", "idnumber", "passport", "plate",
    "licenseplate", "vin"]

/-- `PII_NAME_HOLDERS`: words that say whose name it is. -/
def piiNameHolders : List String :=
  piiPersonWords ++ ["inspector", "first", "last", "full", "middle", "maiden", "given", "family"]

end Vocabulary

section Keys

/-- `toLowerCase`, as far as its result is ASCII: beside the capitals only the Kelvin sign has an
ASCII letter for its lower case. -/
def toLowerCase (key : List Char) : List Char :=
  key.map fun c => if c.toNat = 0x212A then 'k' else c.toLower

/-- `replace(/([a-z0-9])([A-Z])/g, '$1 $2')`. -/
def splitCamel : List Char → List Char
  | a :: b :: rest =>
    if (a.isLower || a.isDigit) && b.isUpper then a :: ' ' :: b :: splitCamel rest
    else a :: splitCamel (b :: rest)
  | rest => rest

/-- `replace(/([A-Z]+)([A-Z][a-z])/g, '$1 $2')`: a run of capitals ends before its last one when
that begins a word. -/
def splitAcronym : List Char → List Char
  | a :: b :: c :: rest =>
    if a.isUpper && b.isUpper && c.isLower then a :: ' ' :: b :: c :: splitAcronym rest
    else a :: splitAcronym (b :: c :: rest)
  | rest => rest

def keyTokens (key : List Char) : List String :=
  (((splitAcronym (splitCamel key)).splitOnP fun c => !c.isAlphanum).map
    fun token => String.ofList (token.map Char.toLower)).filter fun token => token ≠ ""

/-- A person or contact word, or a name with something beside it that says whose. -/
def piiTokens (tokens : List String) : Bool :=
  (tokens.any fun token => token ∈ piiPersonWords || token ∈ piiContactWords) ||
    ("name" ∈ tokens && (tokens.length = 1 || tokens.any (· ∈ piiNameHolders)))

/-- True when a key must not leave the building. -/
def isPiiKey (key : String) : Bool :=
  String.ofList (toLowerCase key.toList) ∈ piiKeys || piiTokens (keyTokens key.toList)

example : isPiiKey "CUSTOMERPhone" = true ∧ isPiiKey "repairMethodName" = false ∧
    isPiiKey "telemetry" = false := by decide +kernel

end Keys

section Payload

/-- A key that makes no own property of the result: one that is not published, or the one whose
assignment sets the prototype. -/
def withheld (dropTopLevel : List String) (key : String) : Bool :=
  isPiiKey key || key ∈ dropTopLevel || key = "__proto__"

mutual

/-- The payload with every key that must not leave the building removed, at any depth. -/
def publicReportData (dropTopLevel : List String) : Json → Json
  | .arr items => .arr (publicItems items)
  | .obj fields => .obj (publicFields dropTopLevel fields)
  | value => value

def publicItems : List Json → List Json
  | [] => []
  | item :: items => publicReportData [] item :: publicItems items

def publicFields (dropTopLevel : List String) : List (String × Json) → List (String × Json)
  | [] => []
  | (key, child) :: fields =>
    if withheld dropTopLevel key then publicFields dropTopLevel fields
    else (key, publicReportData [] child) :: publicFields dropTopLevel fields

end

/-- What the public report publishes of its payload. -/
def reportDataOf (reportData : Json) : Json := publicReportData ["photos"] reportData

end Payload

end CarSalePro.Public
