import Mathlib

namespace CarSalePro.Kyc

/-- The layout of a machine-readable zone. -/
inductive MrzFormat where
  | td1 | td2 | td3
  deriving DecidableEq, Repr

/-- One document, as the zone states it. -/
structure MrzIdentity where
  documentCode : String
  issuingState : String
  documentNumber : String
  format : MrzFormat
  deriving DecidableEq, Repr

section CheckDigits

def charValue (c : Char) : Option Nat :=
  if c = '<' then some 0
  else if c.isDigit then some (c.toNat - 48)
  else if c.isUpper then some (c.toNat - 55)
  else none

/-- The weights repeat 7, 3, 1 across the field. -/
def mrzWeight (i : Nat) : Nat := if i % 3 = 0 then 7 else if i % 3 = 1 then 3 else 1

def mrzCheckDigit (field : List Char) : Option Nat :=
  (field.zipIdx.mapM fun x => (charValue x.1).map (· * mrzWeight x.2)).map fun terms =>
    terms.sum % 10

/-- A filler in the place of the check digit verifies nothing. -/
def digitMatches (field : List Char) (expected : Option Char) : Bool :=
  expected.any fun c => c.isDigit && mrzCheckDigit field = some (c.toNat - 48)

end CheckDigits

section Lines

/-- Strip the filler that pads a field. -/
def unpad (field : List Char) : List Char :=
  (field.rdropWhile (· = '<')).filter (· ≠ '<')

/-- What a zone may contain. -/
def mrzChar (c : Char) : Bool := c.isUpper || c.isDigit || c = '<'

/-- What `toUpperCase` makes of a character, less what no zone may contain. -/
def upperCase (c : Char) : List Char :=
  if c.isLower then [c.toUpper]
  else match c.toNat with
    | 0xDF => ['S', 'S']
    | 0x131 => ['I']
    | 0x149 => ['N']
    | 0x17F => ['S']
    | 0x1F0 => ['J']
    | 0x1E96 => ['H']
    | 0x1E97 => ['T']
    | 0x1E98 => ['W']
    | 0x1E99 => ['Y']
    | 0x1E9A => ['A']
    | 0xFB00 => ['F', 'F']
    | 0xFB01 => ['F', 'I']
    | 0xFB02 => ['F', 'L']
    | 0xFB03 => ['F', 'F', 'I']
    | 0xFB04 => ['F', 'F', 'L']
    | 0xFB05 => ['S', 'T']
    | 0xFB06 => ['S', 'T']
    | _ => [c]

/-- The characters a recogniser confuses with the filler: guillemets and an angle bracket. -/
def fillerLike (c : Char) : Bool := c.toNat ∈ [0xAB, 0x2039, 0x3008]

def normaliseMrzLine (line : List Char) : List Char :=
  ((line.flatMap upperCase).map fun c => if fillerLike c then '<' else c).filter mrzChar

/-- A carriage return before the line feed goes with it. -/
def dropReturn (line : List Char) : List Char :=
  if line.getLast? = some '\r' then line.dropLast else line

/-- `split(/\r?\n/)`. -/
def splitLines (text : String) : List (List Char) :=
  let pieces := text.toList.splitOn '\n'
  pieces.dropLast.map dropReturn ++ pieces.getLast?.toList

/-- `slice(start, stop)`. -/
def slice (line : List Char) (start stop : Nat) : List Char := (line.take stop).drop start

end Lines

section Readers

def build (format : MrzFormat) (documentCode issuingState documentNumber : List Char) :
    Option MrzIdentity :=
  let code := unpad documentCode
  let state := unpad issuingState
  let number := unpad documentNumber
  if ¬ (state.length = 3 ∧ state.all Char.isUpper) then none
  else if number.length < 5 then none
  else if code.length = 0 then none
  else some ⟨String.ofList code, String.ofList state, String.ofList number, format⟩

/-- Passport: the document number and both dates are on the second line. -/
def readTd3 (lines : List (List Char)) (i : Nat) : Option MrzIdentity := do
  let first ← lines[i]?
  let second ← lines[i + 1]?
  if first.length < 5 ∨ second.length < 44 then none
  else if first[0]? ≠ some 'P' then none
  else
    let documentNumber := slice second 0 9
    if ¬ digitMatches documentNumber second[9]? then none
    else if ¬ digitMatches (slice second 13 19) second[19]? then none
    else if ¬ digitMatches (slice second 21 27) second[27]? then none
    else build .td3 (slice first 0 2) (slice first 2 5) documentNumber

/-- Older card and visa layout: the second line holds the number and the dates. -/
def readTd2 (lines : List (List Char)) (i : Nat) : Option MrzIdentity := do
  let first ← lines[i]?
  let second ← lines[i + 1]?
  if first.length < 5 ∨ second.length < 36 then none
  else
    let documentNumber := slice second 0 9
    if ¬ digitMatches documentNumber second[9]? then none
    else if ¬ digitMatches (slice second 13 19) second[19]? then none
    else if ¬ digitMatches (slice second 21 27) second[27]? then none
    else build .td2 (slice first 0 2) (slice first 2 5) documentNumber

/-- Identity card: the number is on the first line, the dates on the second. -/
def readTd1 (lines : List (List Char)) (i : Nat) : Option MrzIdentity := do
  let first ← lines[i]?
  let second ← lines[i + 1]?
  if first.length < 15 ∨ second.length < 15 then none
  else
    let documentNumber := slice first 5 14
    if ¬ digitMatches documentNumber first[14]? then none
    else if ¬ digitMatches (slice second 0 6) second[6]? then none
    else if ¬ digitMatches (slice second 8 14) second[14]? then none
    else build .td1 (slice first 0 2) (slice first 2 5) documentNumber

/-- The lines of a text that are long enough to belong to a zone. -/
def zoneLines (text : String) : List (List Char) :=
  ((splitLines text).map normaliseMrzLine).filter (28 ≤ ·.length)

/-- Read a zone out of whatever text the recogniser produced: the longest layout first. -/
def parseMrz (text : String) : Option MrzIdentity :=
  let lines := zoneLines text
  ((List.range lines.length).findSome? (readTd3 lines)).or
    (((List.range lines.length).findSome? (readTd2 lines)).or
      ((List.range lines.length).findSome? (readTd1 lines)))

end Readers

end CarSalePro.Kyc
