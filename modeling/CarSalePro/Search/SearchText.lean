import Mathlib.Data.List.DropRight
import Mathlib.Data.List.Sort
import CarSalePro.Reports.Completeness

namespace CarSalePro.Search

open Reports (isSpace)

/-- What the string operations take from the Unicode character database. -/
structure Unicode where
  decomposition : Char → List Char
  combiningClass : Char → Nat
  normalizeNFC : List Char → List Char
  toLowerCase : List Char → List Char
  toUpperCase : List Char → List Char

section Strings

/-- In a canonical order, `c` may stand before `d`. -/
def Unicode.mayPrecede (U : Unicode) (c d : Char) : Prop :=
  U.combiningClass d = 0 ∨ U.combiningClass c ≤ U.combiningClass d

instance (U : Unicode) : DecidableRel U.mayPrecede := fun c d =>
  inferInstanceAs (Decidable (U.combiningClass d = 0 ∨ U.combiningClass c ≤ U.combiningClass d))

/-- The canonical ordering: marks move before marks of a greater class, and past nothing else. -/
def Unicode.ordered (U : Unicode) (text : List Char) : List Char :=
  text.insertionSort U.mayPrecede

/-- `.normalize('NFD')`. -/
def Unicode.normalizeNFD (U : Unicode) (text : List Char) : List Char :=
  U.ordered (text.flatMap U.decomposition)

/-- `.split(letter).join(replacement)`. -/
def replaceLetter (letter : Char) (replacement : String) (text : List Char) : List Char :=
  text.flatMap fun c => if c = letter then replacement.toList else [c]

/-- The letters of a table, one after another. -/
def replaceLetters (table : List (Char × String)) (text : List Char) : List Char :=
  table.foldl (fun out entry => replaceLetter entry.1 entry.2 out) text

/-- `.replace(/\s+/g, ' ')`, after white space or not. -/
def collapseSpaces : Bool → List Char → List Char
  | _, [] => []
  | after, c :: text =>
    if isSpace c then
      if after then collapseSpaces true text else ' ' :: collapseSpaces true text
    else c :: collapseSpaces false text

def trim (text : List Char) : List Char := (text.dropWhile isSpace).rdropWhile isSpace

/-- The code units of a character in UTF-16. -/
def utf16Width (c : Char) : Nat := if c.toNat < 0x10000 then 1 else 2

/-- `.length`. -/
def utf16Length (text : List Char) : Nat := (text.map utf16Width).sum

/-- `.slice(0, max)`; of a character that the cut splits nothing is left. -/
def sliceTo : Nat → List Char → List Char
  | _, [] => []
  | max, c :: text =>
    if utf16Width c ≤ max then c :: sliceTo (max - utf16Width c) text else []

end Strings

section Tables

/-- Cyrillic to Latin, in the shape a German or English speaker would write it. -/
def cyrillic : List (Char × String) :=
  [('щ', "shch"), ('ш', "sh"), ('ч', "ch"), ('ц', "ts"), ('ж', "zh"), ('ю', "yu"), ('я', "ya"),
   ('ё', "e"), ('э', "e"), ('ы', "y"), ('й', "i"), ('ї', "i"), ('і', "i"), ('є', "ie"),
   ('ґ', "g"), ('а', "a"), ('б', "b"), ('в', "v"), ('г', "g"), ('д', "d"), ('е', "e"),
   ('з', "z"), ('и', "i"), ('к', "k"), ('л', "l"), ('м', "m"), ('н', "n"), ('о', "o"),
   ('п', "p"), ('р', "r"), ('с', "s"), ('т', "t"), ('у', "u"), ('ф', "f"), ('х', "h"), ('ь', ""),
   ('ъ', "")]

def german : List (Char × String) :=
  [('ä', "ae"), ('ö', "oe"), ('ü', "ue"), ('ß', "ss")]

/-- Cities whose names are different words in different languages. -/
def cityAliasGroups : List (List String) :=
  [["moskva", "moscow", "moskau", "Москва"], ["kiev", "kyiv", "kiew", "Киев", "Київ"],
   ["wien", "vienna", "vena", "Вена"], ["praha", "prague", "prag", "Прага"],
   ["warszawa", "warsaw", "warschau", "Варшава"], ["munchen", "muenchen", "munich", "Мюнхен"],
   ["koln", "koeln", "cologne", "Кёльн", "Кельн"], ["zurich", "zuerich", "Цюрих"],
   ["berlin", "Берлин"], ["hamburg", "Гамбург"], ["frankfurt", "Франкфурт"],
   ["stuttgart", "Штутгарт"], ["dusseldorf", "duesseldorf", "Дюссельдорф"],
   ["leipzig", "Лейпциг"], ["dresden", "Дрезден"], ["paris", "Париж"], ["london", "Лондон"],
   ["madrid", "Мадрид"], ["barcelona", "Барселона"], ["amsterdam", "Амстердам"],
   ["nurnberg", "nuernberg", "nuremberg"], ["hannover", "hanover"],
   ["braunschweig", "brunswick"], ["lisboa", "lisbon", "lissabon"],
   ["milano", "milan", "mailand"], ["roma", "rome", "rom"], ["torino", "turin"],
   ["firenze", "florence", "florenz"], ["napoli", "naples", "neapel"],
   ["venezia", "venice", "venedig"], ["genova", "genoa", "genua"],
   ["antwerpen", "antwerp", "anvers"], ["brussel", "bruxelles", "brussels", "bruessel"],
   ["den haag", "the hague", "la haye", "haag"], ["gent", "ghent"], ["liege", "luik", "luttich"],
   ["athina", "athens", "athen"], ["beograd", "belgrade", "belgrad"],
   ["bucuresti", "bucharest", "bukarest"], ["sofiya", "sofia"], ["zagreb", "agram"],
   ["ljubljana", "laibach"], ["bratislava", "pressburg"], ["gdansk", "danzig"],
   ["wroclaw", "breslau"], ["krakow", "cracow", "krakau"], ["poznan", "posen"],
   ["szczecin", "stettin"], ["lodz", "lodsch"],
   ["lviv", "lvov", "lemberg", "lwow", "Львов", "Львів"], ["odesa", "odessa", "Одесса", "Одеса"],
   ["kharkiv", "charkiw", "Харьков", "Харків"], ["dnipro", "dnepr", "dnipropetrovsk", "Днепр"],
   ["sankt peterburg", "saint petersburg", "st petersburg", "petersburg", "Санкт-Петербург"],
   ["goteborg", "gothenburg", "gotheborg"], ["kobenhavn", "copenhagen", "kopenhagen"],
   ["helsinki", "helsingfors"], ["tallinn", "reval"], ["riga", "ryga"],
   ["vilnius", "wilna", "wilno"], ["tbilisi", "tiflis"],
   ["istanbul", "stambul", "konstantinopol"], ["izmir", "smyrna"], ["basel", "basle", "bale"],
   ["geneve", "geneva", "genf", "zheneva"], ["bern", "berne"], ["luzern", "lucerne"],
   ["salzburg", "salcburg"], ["graz", "gradec"], ["sevilla", "seville"],
   ["zaragoza", "saragossa"], ["a coruna", "la coruna", "corunna"],
   ["donostia", "san sebastian"], ["marseille", "marseilles"], ["lyon", "lyons"],
   ["dunkerque", "dunkirk"], ["strasbourg", "strassburg", "straatsburg"]]

end Tables

section SearchText

variable (U : Unicode)

def isCombiningMark (c : Char) : Bool := 0x300 ≤ c.toNat && c.toNat ≤ 0x36F

/-- Lower-case, strip diacritics, collapse whitespace. -/
def fold (text : List Char) : List Char :=
  let bare := (U.normalizeNFD text).filter fun c => !isCombiningMark c
  trim (collapseSpaces false (U.toLowerCase bare))

def transliterate (text : List Char) : List Char := replaceLetters cyrillic (U.toLowerCase text)

/-- The single canonical form of a piece of free text. -/
def normalizeSearchText (input : Option String) : String :=
  match input with
  | none => ""
  | some text => if text = "" then "" else String.ofList (fold U (transliterate U text.toList))

def isCompact (c : Char) : Bool := ('a' ≤ c && c ≤ 'z') || ('0' ≤ c && c ≤ '9')

/-- The same fold, with every separator removed as well. -/
def normalizeCompact (input : Option String) : String :=
  String.ofList ((normalizeSearchText U input).toList.filter isCompact)

/-- `.replace(/ae/g, 'a')`, for any vowel. -/
def collapseVowel (vowel : Char) : List Char → List Char
  | [] => []
  | [c] => [c]
  | c :: d :: text =>
    if c = vowel ∧ d = 'e' then vowel :: collapseVowel vowel text
    else c :: collapseVowel vowel (d :: text)

def collapseUmlauts (text : List Char) : List Char :=
  collapseVowel 'u' (collapseVowel 'o' (collapseVowel 'a' text))

/-- The groups of the index, each spelling normalized. -/
def aliasGroups : List (List String) :=
  cityAliasGroups.map (·.map fun name => normalizeSearchText U (some name))

/-- What the index has under a key: the last group that lists it. -/
def aliasesOf (key : String) : List String :=
  ((aliasGroups U).findRev? (key ∈ ·)).getD []

/-- `keys.add(key)`. -/
def addKey (keys : List String) (key : String) : List String :=
  if key ∈ keys then keys else keys ++ [key]

/-- Every normalized string a search for `input` should also look for. -/
def citySearchKeys (input : Option String) : List String :=
  let base := normalizeSearchText U input
  if base = "" then []
  else
    let lower := U.toLowerCase ((input.getD "").toList)
    let germanKey := normalizeSearchText U (some (String.ofList (replaceLetters german lower)))
    let withGerman := if germanKey = "" then [base] else addKey [base] germanKey
    let collapsed := String.ofList (collapseUmlauts base.toList)
    let keys :=
      if collapsed ≠ base ∧ 3 ≤ utf16Length collapsed.toList then addKey withGerman collapsed
      else withGerman
    keys.foldl (fun out key => (aliasesOf U key).foldl addKey out) keys

end SearchText

end CarSalePro.Search
