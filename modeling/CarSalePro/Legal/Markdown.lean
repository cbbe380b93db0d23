import CarSalePro.Search.SearchText

namespace CarSalePro.Legal

open Reports (isSpace)
open Search (trim)

section Scanning

variable {α : Type}

/-- A global pattern over a text: `find` tells what is matched at a place, and how long it is.
Characters in no match stay, and the search goes on behind each match. -/
def scan (find : List Char → Option (α × Nat)) : Nat → List Char → List (Char ⊕ α)
  | _, [] => []
  | skip + 1, _ :: text => scan find skip text
  | 0, c :: text =>
    match find (c :: text) with
    | none => .inl c :: scan find 0 text
    | some (found, length) => .inr found :: scan find (length - 1) text

/-- `.replace(pattern, replacement)` with such a pattern. -/
def replaceAll (find : List Char → Option (α × Nat)) (replacement : α → List Char)
    (text : List Char) : List Char :=
  (scan find 0 text).flatMap fun
    | .inl c => [c]
    | .inr found => replacement found

/-- `[^*]+` from here on, and what is behind it. -/
def starFreeRun (text : List Char) : List Char × List Char := text.span (· ≠ '*')

/-- `/\*\*([^*]+)\*\*/`, at the start of the text. -/
def boldAt : List Char → Option (List Char × Nat)
  | '*' :: '*' :: text =>
    match starFreeRun text with
    | ([], _) => none
    | (run, '*' :: '*' :: _) => some (run, run.length + 4)
    | _ => none
  | _ => none

/-- `/\*([^*]+)\*/`, at the start of the text. -/
def italicAt : List Char → Option (List Char × Nat)
  | '*' :: text =>
    match starFreeRun text with
    | ([], _) => none
    | (run, '*' :: _) => some (run, run.length + 2)
    | _ => none
  | _ => none

end Scanning

section Lines

/-- What a line of a contract is. -/
inductive Line where
  | blank
  | heading (level : Nat) (text : List Char)
  | item (text : List Char)
  | text (text : List Char)
  deriving DecidableEq, Repr

/-- What `.` does not match. -/
def isLineTerminator (c : Char) : Bool :=
  c = '\n' || c = '\r' || c = '\u2028' || c = '\u2029'

/-- `\s+(.*)$`. -/
def afterSpaces (text : List Char) : Option (List Char) :=
  let rest := text.dropWhile isSpace
  if rest.length < text.length ∧ !rest.any isLineTerminator then some rest else none

/-- `/^(#{1,3})\s+(.*)$/`. -/
def headingAt (line : List Char) : Option (Nat × List Char) :=
  let (hashes, rest) := line.span (· = '#')
  if 1 ≤ hashes.length ∧ hashes.length ≤ 3 then
    (afterSpaces rest).map fun text => (hashes.length, text)
  else none

/-- `/^[-*]\s+(.*)$/`. -/
def listItemAt : List Char → Option (List Char)
  | c :: rest => if c = '-' || c = '*' then afterSpaces rest else none
  | [] => none

/-- The tests both renderers make of a line, in their order. -/
def classify (raw : List Char) : Line :=
  let line := raw.rdropWhile isSpace
  if trim line = [] then .blank
  else
    match headingAt line with
    | some (level, text) => .heading level text
    | none =>
      match listItemAt (trim line) with
      | some text => .item text
      | none => .text (trim line)

/-- `.replace(/\r\n/g, '\n')`. -/
def unixNewlines : List Char → List Char
  | [] => []
  | '\r' :: '\n' :: text => '\n' :: unixNewlines text
  | c :: text => c :: unixNewlines text

def linesOf (md : List Char) : List Line := ((unixNewlines md).splitOn '\n').map classify

end Lines

section Html

def escape (c : Char) : List Char :=
  if c = '&' then "&amp;".toList
  else if c = '<' then "&lt;".toList
  else if c = '>' then "&gt;".toList
  else if c = '"' then "&quot;".toList
  else [c]

def esc (text : List Char) : List Char := text.flatMap escape

/-- `<name>content</name>`. -/
def element (name : String) (content : List Char) : List Char :=
  '<' :: name.toList ++ '>' :: content ++ '<' :: '/' :: name.toList ++ ['>']

/-- Inline formatting: first `**bold**`, then `*italic*`, in escaped text. -/
def inlineFormat (text : List Char) : List Char :=
  replaceAll italicAt (element "em") (replaceAll boldAt (element "strong") (esc text))

/-- What the renderer has written, and where it is. -/
structure Page where
  out : List (List Char)
  listOpen : Bool
  paragraph : List (List Char)

namespace Page

def push (page : Page) (piece : List Char) : Page := { page with out := page.out ++ [piece] }

def flushParagraph (page : Page) : Page :=
  if page.paragraph = [] then page
  else
    let lines := "<br />".toList.intercalate (page.paragraph.map inlineFormat)
    { page.push (element "p" lines) with paragraph := [] }

def closeList (page : Page) : Page :=
  if page.listOpen then { page.push "</ul>".toList with listOpen := false } else page

def openList (page : Page) : Page :=
  if page.listOpen then page else { page.push "<ul>".toList with listOpen := true }

def line (page : Page) : Line → Page
  | .blank => page.flushParagraph.closeList
  | .heading level text =>
    page.flushParagraph.closeList.push (element ("h" ++ toString level) (inlineFormat text))
  | .item text => page.flushParagraph.openList.push (element "li" (inlineFormat text))
  | .text text => { page with paragraph := page.paragraph ++ [text] }

end Page

/-- What is written of the lines, before it is joined. -/
def htmlPieces (lines : List Line) : List (List Char) :=
  (lines.foldl Page.line ⟨[], false, []⟩).flushParagraph.closeList.out

/-- Minimal markdown to HTML converter. -/
def markdownToHtml (md : List Char) : List Char := ['\n'].intercalate (htmlPieces (linesOf md))

end Html

section Blocks

inductive InlineSpan where
  | text (text : List Char)
  | bold (text : List Char)
  | italic (text : List Char)
  deriving DecidableEq, Repr

inductive MarkdownBlock where
  | heading (level : Nat) (spans : List InlineSpan)
  | paragraph (lines : List (List InlineSpan))
  | list (items : List (List InlineSpan))
  deriving DecidableEq, Repr

/-- Bold before italic at the same position. -/
def spanAt (text : List Char) : Option (InlineSpan × Nat) :=
  match boldAt text with
  | some (run, length) => some (.bold run, length)
  | none => (italicAt text).map fun found => (.italic found.1, found.2)

/-- The spans of a scan; `pending` is the text since the last match. -/
def collect (pending : List Char) : List (Char ⊕ InlineSpan) → List InlineSpan
  | [] => if pending = [] then [] else [.text pending]
  | .inl c :: found => collect (pending ++ [c]) found
  | .inr span :: found =>
    if pending = [] then span :: collect [] found else .text pending :: span :: collect [] found

/-- Split a line into text, bold and italic runs. -/
def parseInline (text : List Char) : List InlineSpan :=
  let spans := collect [] (scan spanAt 0 text)
  if spans = [] then [.text []] else spans

/-- The blocks read so far, and the two that are open. -/
structure Draft where
  blocks : List MarkdownBlock
  paragraph : List (List InlineSpan)
  list : List (List InlineSpan)

namespace Draft

def flushParagraph (draft : Draft) : Draft :=
  if draft.paragraph = [] then draft
  else { draft with blocks := draft.blocks ++ [.paragraph draft.paragraph], paragraph := [] }

def flushList (draft : Draft) : Draft :=
  if draft.list = [] then draft
  else { draft with blocks := draft.blocks ++ [.list draft.list], list := [] }

def line (draft : Draft) : Line → Draft
  | .blank => draft.flushParagraph.flushList
  | .heading level text =>
    let flushed := draft.flushParagraph.flushList
    { flushed with blocks := flushed.blocks ++ [.heading level (parseInline text)] }
  | .item text =>
    let flushed := draft.flushParagraph
    { flushed with list := flushed.list ++ [parseInline text] }
  | .text text =>
    let flushed := draft.flushList
    { flushed with paragraph := flushed.paragraph ++ [parseInline text] }

end Draft

def blocksOf (lines : List Line) : List MarkdownBlock :=
  (lines.foldl Draft.line ⟨[], [], []⟩).flushParagraph.flushList.blocks

def parseMarkdownBlocks (md : List Char) : List MarkdownBlock := blocksOf (linesOf md)

end Blocks

end CarSalePro.Legal
