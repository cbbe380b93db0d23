import Mathlib
import CarSalePro.Public.ReportData

namespace CarSalePro.Public

section Spellings

/-- A word of at least two letters, in lower case. -/
structure Word where
  letters : List Char
  lower : ∀ c ∈ letters, c.isLower = true
  long : 2 ≤ letters.length

def Word.text (w : Word) : String := String.ofList w.letters

def capitalised : List Char → List Char
  | [] => []
  | c :: rest => c.toUpper :: rest

/-- The ways to write a list of words as one key. -/
inductive Style where
  | camel | pascal | snake | kebab
  deriving DecidableEq, Repr

namespace Style

/-- How the words look, and what stands between them. -/
def pieces : Style → List Word → List (List Char)
  | _, [] => []
  | pascal, w :: words => capitalised w.letters :: words.map (capitalised ·.letters)
  | camel, w :: words => w.letters :: words.map (capitalised ·.letters)
  | snake, w :: words | kebab, w :: words => w.letters :: words.map (·.letters)

def mark : Style → List Char
  | camel | pascal => []
  | snake => ['_']
  | kebab => ['-']

def chars (style : Style) (words : List Word) : List Char :=
  style.mark.intercalate (style.pieces words)

def render (style : Style) (words : List Word) : String := String.ofList (style.chars words)

end Style

/-- A place in a payload where an object has one more field. -/
inductive Place where
  | field (before after : List (String × Json))
  | under (before : List (String × Json)) (key : String) (place : Place)
      (after : List (String × Json))
  | within (before : List Json) (place : Place) (after : List Json)

namespace Place

/-- The payload with the field in its place. -/
def fill (key : String) (value : Json) : Place → Json
  | field before after => .obj (before ++ (key, value) :: after)
  | under before name place after => .obj (before ++ (name, place.fill key value) :: after)
  | within before place after => .arr (before ++ place.fill key value :: after)

/-- The payload without it. -/
def empty : Place → Json
  | field before after => .obj (before ++ after)
  | under before name place after => .obj (before ++ (name, place.empty) :: after)
  | within before place after => .arr (before ++ place.empty :: after)

end Place

/-- The field is not published: the report is what it is without it. -/
def Dropped (place : Place) (key : String) (value : Json) : Prop :=
  reportDataOf (place.fill key value) = reportDataOf place.empty

/-- The spelling of these words does not decide whether they are published. -/
def SpellingFree (words : List Word) : Prop :=
  ∀ style style' : Style, isPiiKey (style.render words) = isPiiKey (style'.render words) ∧
    ∀ place value, Dropped place (style.render words) value ↔
      Dropped place (style'.render words) value

/-- No spelling decides. -/
def SpellingLaw : Prop := ∀ words : List Word, words ≠ [] → SpellingFree words

/-- Several words that only together are a key of the table. -/
def JoinedOnly (words : List Word) : Prop :=
  2 ≤ words.length ∧ String.ofList (words.flatMap (·.letters)) ∈ piiKeys ∧
    piiTokens (words.map Word.text) = false

end Spellings

section Letters

variable {c : Char} {l rest : List Char}

theorem lower_range (h : c.isLower = true) : 97 ≤ c.toNat ∧ c.toNat ≤ 122 := by
  simpa [Char.isLower, UInt32.le_iff_toNat_le, ← Char.toNat_val] using h

/-- What the code asks of a lower-case letter and of its capital. -/
theorem lower_facts (h : c.isLower = true) :
    (c.isUpper = false ∧ c.isAlphanum = true ∧ c.toLower = c ∧ c.toNat ≠ 0x212A) ∧
      c.toUpper.isUpper = true ∧ c.toUpper.isLower = false ∧ c.toUpper.isDigit = false ∧
      c.toUpper.isAlphanum = true ∧ c.toUpper.toLower = c ∧ c.toUpper.toNat ≠ 0x212A := by
  obtain ⟨hlow, hhigh⟩ := lower_range h
  have hc : c = Char.ofNat c.toNat := (Char.ofNat_toNat c).symm
  rw [hc]
  clear hc h
  generalize c.toNat = n at hlow hhigh
  interval_cases n <;> decide

end Letters

section Tokens

variable {c m : Char} {l rest : List Char} {pieces : List (List Char)}

/-- A word as a style writes it: a letter, then at least one in lower case. -/
def Piece (l : List Char) : Prop :=
  ∃ c t, l = c :: t ∧ t ≠ [] ∧ (∀ x ∈ t, x.isLower = true) ∧ c.isAlphanum = true ∧
    (c.isLower = true ∨ c.isUpper = true)

theorem splitCamel_upper (h : c.isUpper = true) (rest : List Char) :
    splitCamel (c :: rest) = c :: splitCamel rest := by
  cases rest with
  | nil => rfl
  | cons d rest =>
    have hlower : c.isLower = false := by
      by_contra hl
      rw [Bool.not_eq_false] at hl
      have hno := (lower_facts hl).1.1
      rw [h] at hno
      cases hno
    have hdigit : c.isDigit = false := by
      simp [Char.isUpper, Char.isDigit, UInt32.le_iff_toNat_le] at h ⊢
      omega
    simp [splitCamel, hlower, hdigit]

/-- Without capitals there is nothing to split. -/
theorem splitCamel_lower (h : ∀ x ∈ l, x.isUpper = false) : splitCamel l = l := by
  induction l using splitCamel.induct with
  | case1 a b rest hsplit ih =>
    rw [h b (by simp), Bool.and_false] at hsplit
    cases hsplit
  | case2 a b rest hsplit ih =>
    rw [splitCamel, if_neg hsplit, ih fun x hx => h x (List.mem_cons_of_mem a hx)]
  | case3 rest hrest => cases rest with
    | nil => rfl
    | cons a rest => cases rest with
      | nil => rfl
      | cons b rest => exact absurd rfl (hrest a b rest)

/-- A capital after a lower-case letter begins a word. -/
theorem splitCamel_word (rest : List Char) (hl : ∀ x ∈ l, x.isLower = true) (hne : l ≠ [])
    (hc : c.isUpper = true) :
    splitCamel (l ++ c :: rest) = l ++ ' ' :: splitCamel (c :: rest) := by
  induction l with
  | nil => exact absurd rfl hne
  | cons a l ih =>
    have ha := hl a List.mem_cons_self
    cases l with
    | nil =>
      rw [splitCamel_upper hc]
      simp [splitCamel, ha, hc]
    | cons b l =>
      have hb := (lower_facts (hl b (by simp))).1.1
      have htail := ih (fun x hx => hl x (List.mem_cons_of_mem a hx)) (by simp)
      simp only [List.cons_append] at htail ⊢
      rw [splitCamel, hb, Bool.and_false, if_neg Bool.false_ne_true, htail]

/-- Capitals begin the words of a text written in camel case. -/
theorem splitCamel_pieces (h : ∀ p ∈ pieces, Piece p ∧ ∃ c t, p = c :: t ∧ c.isUpper = true)
    (hl : Piece l) : splitCamel (l ++ pieces.flatten) = [' '].intercalate (l :: pieces) := by
  induction pieces generalizing l with
  | nil =>
    obtain ⟨c, t, rfl, -, ht, -, hc⟩ := hl
    have hlower : splitCamel t = t := splitCamel_lower fun x hx => (lower_facts (ht x hx)).1.1
    rw [List.flatten_nil, List.append_nil, List.intercalate_singleton]
    rcases hc with hc | hc
    · apply splitCamel_lower
      intro x hx
      rcases List.mem_cons.mp hx with rfl | hx
      · exact (lower_facts hc).1.1
      · exact (lower_facts (ht x hx)).1.1
    · rw [splitCamel_upper hc, hlower]
  | cons p pieces ih =>
    obtain ⟨hp, d, u, hd, hupper⟩ := h p List.mem_cons_self
    have hrest := ih (fun q hq => h q (List.mem_cons_of_mem p hq)) hp
    obtain ⟨c, t, rfl, hne, ht, -, hc⟩ := hl
    rw [List.intercalate_cons_cons, ← hrest, List.flatten_cons, hd]
    rcases hc with hc | hc
    · have hall : ∀ x ∈ c :: t, x.isLower = true := by
        intro x hx
        rcases List.mem_cons.mp hx with rfl | hx
        · exact hc
        · exact ht x hx
      simpa using splitCamel_word (u ++ pieces.flatten) hall (by simp) hupper
    · have hword := splitCamel_word (u ++ pieces.flatten) ht hne hupper
      rw [List.cons_append, splitCamel_upper hc]
      simpa using hword

theorem splitAcronym_first (h : c.isUpper = false) (rest : List Char) :
    splitAcronym (c :: rest) = c :: splitAcronym rest := by
  match rest with
  | [] => rfl
  | [_] => rfl
  | a :: b :: rest => simp [splitAcronym, h]

theorem splitAcronym_second {d : Char} (h : d.isUpper = false) (rest : List Char) :
    splitAcronym (c :: d :: rest) = c :: splitAcronym (d :: rest) := by
  cases rest with
  | nil => rfl
  | cons b rest => simp [splitAcronym, h]

/-- No two capitals stand side by side in a piece. -/
theorem splitAcronym_piece (h : Piece l) (rest : List Char) :
    splitAcronym (l ++ rest) = l ++ splitAcronym rest := by
  obtain ⟨c, t, rfl, hne, ht, -, -⟩ := h
  have htail : splitAcronym (t ++ rest) = t ++ splitAcronym rest := by
    clear hne
    induction t with
    | nil => rfl
    | cons x t ih =>
      have hx := (lower_facts (ht x List.mem_cons_self)).1.1
      rw [List.cons_append, splitAcronym_first hx,
        ih fun y hy => ht y (List.mem_cons_of_mem x hy)]
      rfl
  cases t with
  | nil => exact absurd rfl hne
  | cons x t =>
    have hx := (lower_facts (ht x List.mem_cons_self)).1.1
    rw [List.cons_append, List.cons_append, splitAcronym_second hx]
    rw [List.cons_append] at htail
    rw [htail]
    rfl

theorem splitAcronym_pieces (h : ∀ p ∈ pieces, Piece p) (hm : m.isUpper = false) :
    splitAcronym ([m].intercalate pieces) = [m].intercalate pieces := by
  induction pieces with
  | nil => rfl
  | cons p pieces ih =>
    have hp := h p List.mem_cons_self
    cases pieces with
    | nil =>
      have hsame := splitAcronym_piece hp []
      rw [List.append_nil] at hsame
      rw [List.intercalate_singleton, hsame]
      exact List.append_nil p
    | cons q pieces =>
      rw [List.intercalate_cons_cons, List.append_assoc, splitAcronym_piece hp,
        List.singleton_append, splitAcronym_first hm,
        ih fun r hr => h r (List.mem_cons_of_mem p hr)]

theorem piece_alphanum (h : Piece l) : ∀ x ∈ l, (!x.isAlphanum) = false := by
  obtain ⟨c, t, rfl, -, ht, hc, -⟩ := h
  intro x hx
  rw [Bool.not_eq_false']
  rcases List.mem_cons.mp hx with rfl | hx
  · exact hc
  · exact (lower_facts (ht x hx)).1.2.1

theorem splitOnP_pieces (hne : pieces ≠ []) (h : ∀ p ∈ pieces, Piece p)
    (hm : m.isAlphanum = false) :
    ([m].intercalate pieces).splitOnP (fun c => !c.isAlphanum) = pieces := by
  induction pieces with
  | nil => exact absurd rfl hne
  | cons p pieces ih =>
    have hp := piece_alphanum (h p List.mem_cons_self)
    cases pieces with
    | nil =>
      rw [List.intercalate_singleton]
      exact List.splitOnP_eq_singleton hp
    | cons q pieces =>
      have hsep : (!m.isAlphanum) = true := by rw [hm]; rfl
      rw [List.intercalate_cons_cons, List.append_assoc, List.singleton_append,
        List.splitOnP_append_cons (p := fun c : Char => !c.isAlphanum) _ _ hsep,
        List.splitOnP_eq_singleton hp, ih (by simp) fun r hr => h r (List.mem_cons_of_mem p hr)]
      rfl

end Tokens

section Renderings

variable {words : List Word}

theorem Word.split (w : Word) : ∃ c t, w.letters = c :: t ∧ t ≠ [] ∧ c.isLower = true ∧
    ∀ x ∈ t, x.isLower = true := by
  have hlower := w.lower
  have hlong := w.long
  cases hw : w.letters with
  | nil => simp [hw] at hlong
  | cons c t =>
    rw [hw] at hlower hlong
    refine ⟨c, t, rfl, ?_, hlower c List.mem_cons_self, fun x hx => hlower x (by simp [hx])⟩
    rintro rfl
    simp at hlong

theorem Word.piece (w : Word) : Piece w.letters := by
  obtain ⟨c, t, hw, hne, hc, ht⟩ := w.split
  exact ⟨c, t, hw, hne, ht, (lower_facts hc).1.2.1, .inl hc⟩

theorem Word.capital (w : Word) : Piece (capitalised w.letters) ∧
    (∃ c t, capitalised w.letters = c :: t ∧ c.isUpper = true) ∧
    (capitalised w.letters).map Char.toLower = w.letters ∧
    toLowerCase (capitalised w.letters) = w.letters := by
  obtain ⟨c, t, hw, hne, hc, ht⟩ := w.split
  obtain ⟨-, hupper, -, -, halnum, hback, hkelvin⟩ := lower_facts hc
  have hmap : t.map Char.toLower = t := by
    conv_rhs => rw [← List.map_id t]
    exact List.map_congr_left fun x hx => (lower_facts (ht x hx)).1.2.2.1
  have hsame : toLowerCase t = t := by
    conv_rhs => rw [← List.map_id t]
    apply List.map_congr_left
    intro x hx
    obtain ⟨-, -, hx', hno⟩ := (lower_facts (ht x hx)).1
    rw [if_neg hno]
    exact hx'
  rw [hw]
  refine ⟨⟨_, t, rfl, hne, ht, halnum, .inr hupper⟩, ⟨_, t, rfl, hupper⟩, ?_, ?_⟩
  · rw [capitalised, List.map_cons, hback, hmap]
  · rw [toLowerCase] at hsame
    rw [capitalised, toLowerCase, List.map_cons, if_neg hkelvin, hback, hsame]

theorem Word.same (w : Word) : w.letters.map Char.toLower = w.letters ∧
    toLowerCase w.letters = w.letters := by
  constructor
  · conv_rhs => rw [← List.map_id w.letters]
    exact List.map_congr_left fun x hx => (lower_facts (w.lower x hx)).1.2.2.1
  · conv_rhs => rw [← List.map_id w.letters]
    apply List.map_congr_left
    intro x hx
    obtain ⟨-, -, hx', hno⟩ := (lower_facts (w.lower x hx)).1
    rw [if_neg hno]
    exact hx'

theorem pieces_lower (style : Style) (words : List Word) :
    (∀ p ∈ style.pieces words, Piece p) ∧
      (style.pieces words).map (List.map Char.toLower) = words.map (·.letters) ∧
      (style.pieces words).map toLowerCase = words.map (·.letters) := by
  have hplain (ws : List Word) : (∀ p ∈ ws.map (·.letters), Piece p) ∧
      (ws.map (·.letters)).map (List.map Char.toLower) = ws.map (·.letters) ∧
      (ws.map (·.letters)).map toLowerCase = ws.map (·.letters) := by
    simp only [List.map_map, List.mem_map, forall_exists_index, and_imp, forall_apply_eq_imp_iff₂]
    exact ⟨fun w _ => w.piece, List.map_congr_left fun w _ => w.same.1,
      List.map_congr_left fun w _ => w.same.2⟩
  have hcapital (ws : List Word) : (∀ p ∈ ws.map (capitalised ·.letters), Piece p) ∧
      (ws.map (capitalised ·.letters)).map (List.map Char.toLower) = ws.map (·.letters) ∧
      (ws.map (capitalised ·.letters)).map toLowerCase = ws.map (·.letters) := by
    simp only [List.map_map, List.mem_map, forall_exists_index, and_imp, forall_apply_eq_imp_iff₂]
    exact ⟨fun w _ => w.capital.1, List.map_congr_left fun w _ => w.capital.2.2.1,
      List.map_congr_left fun w _ => w.capital.2.2.2⟩
  cases words with
  | nil => cases style <;> exact ⟨by simp [Style.pieces], rfl, rfl⟩
  | cons w words =>
    cases style with
    | camel =>
      obtain ⟨hpieces, hmap, hlower⟩ := hcapital words
      refine ⟨fun p hp => ?_, ?_, ?_⟩
      · rcases List.mem_cons.mp hp with rfl | hp
        · exact w.piece
        · exact hpieces p hp
      · rw [Style.pieces, List.map_cons, hmap, w.same.1]
        rfl
      · rw [Style.pieces, List.map_cons, hlower, w.same.2]
        rfl
    | pascal => exact hcapital (w :: words)
    | snake | kebab => exact hplain (w :: words)

theorem intercalate_none (pieces : List (List Char)) :
    List.intercalate [] pieces = pieces.flatten := by
  induction pieces with
  | nil => rfl
  | cons p pieces ih =>
    cases pieces with
    | nil => simp
    | cons q pieces =>
      rw [List.intercalate_cons_cons, ih, List.append_nil]
      rfl

theorem mem_marked {m x : Char} {pieces : List (List Char)} (h : x ∈ [m].intercalate pieces) :
    x = m ∨ ∃ p ∈ pieces, x ∈ p := by
  induction pieces with
  | nil => cases h
  | cons p pieces ih =>
    cases pieces with
    | nil =>
      rw [List.intercalate_singleton] at h
      exact .inr ⟨p, List.mem_cons_self, h⟩
    | cons q pieces =>
      rw [List.intercalate_cons_cons] at h
      rcases List.mem_append.mp h with h | h
      · rcases List.mem_append.mp h with h | h
        · exact .inr ⟨p, List.mem_cons_self, h⟩
        · exact .inl (List.mem_singleton.mp h)
      · rcases ih h with hm | ⟨r, hr, hx⟩
        · exact .inl hm
        · exact .inr ⟨r, List.mem_cons_of_mem p hr, hx⟩

/-- A key of any style comes apart into its pieces. -/
theorem splitCamel_chars (style : Style) (hne : words ≠ []) :
    ∃ m : Char, m.isUpper = false ∧ m.isAlphanum = false ∧
      splitCamel (style.chars words) = [m].intercalate (style.pieces words) := by
  have hcapital (ws : List Word) : ∀ p ∈ ws.map (capitalised ·.letters),
      Piece p ∧ ∃ c t, p = c :: t ∧ c.isUpper = true := by
    intro p hp
    obtain ⟨w, -, rfl⟩ := List.mem_map.mp hp
    exact ⟨w.capital.1, w.capital.2.1⟩
  have hmarked (m : Char) (hm : m.isUpper = false) :
      splitCamel ([m].intercalate (words.map (·.letters))) =
        [m].intercalate (words.map (·.letters)) := by
    apply splitCamel_lower
    intro x hx
    rcases mem_marked hx with rfl | ⟨p, hp, hx⟩
    · exact hm
    · obtain ⟨w, -, rfl⟩ := List.mem_map.mp hp
      exact (lower_facts (w.lower x hx)).1.1
  cases words with
  | nil => exact absurd rfl hne
  | cons w words =>
    cases style with
    | camel =>
      refine ⟨' ', rfl, rfl, ?_⟩
      rw [Style.chars, Style.mark, Style.pieces, intercalate_none, List.flatten_cons]
      exact splitCamel_pieces (hcapital words) w.piece
    | pascal =>
      refine ⟨' ', rfl, rfl, ?_⟩
      rw [Style.chars, Style.mark, Style.pieces, intercalate_none, List.flatten_cons]
      exact splitCamel_pieces (hcapital words) w.capital.1
    | snake => exact ⟨'_', rfl, rfl, hmarked '_' rfl⟩
    | kebab => exact ⟨'-', rfl, rfl, hmarked '-' rfl⟩

/-- Every style has the words for its tokens. -/
theorem tokens_render (style : Style) (hne : words ≠ []) :
    keyTokens (style.chars words) = words.map Word.text := by
  obtain ⟨hpieces, hmap, -⟩ := pieces_lower style words
  have hsome : style.pieces words ≠ [] := by
    cases words with
    | nil => exact absurd rfl hne
    | cons w words => cases style <;> exact List.cons_ne_nil _ _
  obtain ⟨m, hupper, halnum, hsplit⟩ := splitCamel_chars style hne
  unfold keyTokens
  rw [hsplit, splitAcronym_pieces hpieces hupper, splitOnP_pieces hsome hpieces halnum]
  have htexts : (style.pieces words).map (fun token => String.ofList (token.map Char.toLower)) =
      words.map Word.text := by
    have hboth := congrArg (List.map String.ofList) hmap
    simp only [List.map_map] at hboth
    exact hboth
  rw [htexts, List.filter_eq_self.mpr]
  intro t ht
  obtain ⟨w, -, rfl⟩ := List.mem_map.mp ht
  have hlong := w.long
  simp only [ne_eq, decide_eq_true_eq]
  intro hempty
  have hnil : w.letters = [] := by
    simpa [Word.text] using congrArg String.toList hempty
  rw [hnil] at hlong
  cases hlong

/-- In lower case, the styles differ in what stands between the words. -/
theorem toLowerCase_chars (style : Style) (words : List Word) :
    toLowerCase (style.chars words) = style.mark.intercalate (words.map (·.letters)) := by
  have hmap (pieces : List (List Char)) : toLowerCase (style.mark.intercalate pieces) =
      style.mark.intercalate (pieces.map toLowerCase) := by
    have hmark : toLowerCase style.mark = style.mark := by cases style <;> rfl
    have happend (a b : List Char) : toLowerCase (a ++ b) = toLowerCase a ++ toLowerCase b :=
      List.map_append
    induction pieces with
    | nil => rfl
    | cons p pieces ih =>
      cases pieces with
      | nil => simp
      | cons q pieces =>
        rw [List.map_cons] at ih
        rw [List.intercalate_cons_cons, happend, happend, hmark, ih, List.map_cons, List.map_cons,
          List.intercalate_cons_cons]
  rw [Style.chars, hmap, (pieces_lower style words).2.2]

theorem isPiiKey_render (style : Style) (hne : words ≠ []) :
    isPiiKey (style.render words) =
      (decide (String.ofList (style.mark.intercalate (words.map (·.letters))) ∈ piiKeys) ||
        piiTokens (words.map Word.text)) := by
  rw [isPiiKey, Style.render, String.toList_ofList, toLowerCase_chars, tokens_render style hne]

/-- No key of the table is written in several parts. -/
theorem piiKeys_unmarked {key : String} (h : key ∈ piiKeys) :
    '_' ∉ key.toList ∧ '-' ∉ key.toList := by
  have hall : piiKeys.all fun key => '_' ∉ key.toList ∧ '-' ∉ key.toList := by decide
  simpa using List.all_eq_true.mp hall key h

theorem marked_unlisted {m : Char} {w w' : Word} (hm : m = '_' ∨ m = '-') :
    String.ofList ([m].intercalate ((w :: w' :: words).map (·.letters))) ∉ piiKeys := by
  intro hkey
  obtain ⟨hunder, hdash⟩ := piiKeys_unmarked hkey
  rw [String.toList_ofList, List.map_cons, List.map_cons, List.intercalate_cons_cons]
    at hunder hdash
  rcases hm with rfl | rfl
  · exact hunder (by simp)
  · exact hdash (by simp)

theorem two_words (h : 2 ≤ words.length) : ∃ w w' rest, words = w :: w' :: rest := by
  match words, h with
  | w :: w' :: rest, _ => exact ⟨w, w', rest, rfl⟩

/-- The spelling decides about words that only together are a key of the table. -/
theorem isPiiKey_styles (hne : words ≠ []) :
    (∀ style style' : Style, isPiiKey (style.render words) = isPiiKey (style'.render words)) ↔
      ¬ JoinedOnly words := by
  have hjoined (style : Style) (hstyle : style.mark = []) : isPiiKey (style.render words) =
      (decide (String.ofList (words.flatMap (·.letters)) ∈ piiKeys) ||
        piiTokens (words.map Word.text)) := by
    rw [isPiiKey_render style hne, hstyle, intercalate_none, List.flatMap]
  have hmarked (style : Style) (m : Char) (hm : m = '_' ∨ m = '-') (hstyle : style.mark = [m])
      (htwo : 2 ≤ words.length) :
      isPiiKey (style.render words) = piiTokens (words.map Word.text) := by
    obtain ⟨w, w', rest, rfl⟩ := two_words htwo
    rw [isPiiKey_render style hne, hstyle, decide_eq_false (marked_unlisted hm), Bool.false_or]
  by_cases htwo : 2 ≤ words.length
  · have hsnake := hmarked .snake '_' (.inl rfl) rfl htwo
    have hkebab := hmarked .kebab '-' (.inr rfl) rfl htwo
    have hcamel := hjoined .camel rfl
    have hpascal := hjoined .pascal rfl
    constructor
    · rintro hsame ⟨-, hlisted, htokens⟩
      have hdiffer := hsame .camel .snake
      rw [hcamel, hsnake, htokens, decide_eq_true hlisted] at hdiffer
      cases hdiffer
    · intro hno
      have hagree : isPiiKey (Style.camel.render words) = piiTokens (words.map Word.text) := by
        rw [hcamel]
        by_cases hlisted : String.ofList (words.flatMap (·.letters)) ∈ piiKeys
        · have htokens : piiTokens (words.map Word.text) = true := by
            by_contra hfalse
            exact hno ⟨htwo, hlisted, by simpa using hfalse⟩
          rw [htokens, Bool.or_true]
        · rw [decide_eq_false hlisted, Bool.false_or]
      have hall (style : Style) : isPiiKey (style.render words) =
          piiTokens (words.map Word.text) := by
        cases style with
        | camel => exact hagree
        | pascal => rw [hpascal, ← hcamel, hagree]
        | snake => exact hsnake
        | kebab => exact hkebab
      intro style style'
      rw [hall, hall]
  · have hone : ∃ w, words = [w] := by
      have hpos := List.length_pos_iff.mpr hne
      exact List.length_eq_one_iff.mp (by omega)
    obtain ⟨w, rfl⟩ := hone
    have hsame (style : Style) : isPiiKey (style.render [w]) =
        (decide (String.ofList w.letters ∈ piiKeys) || piiTokens [w.text]) := by
      rw [isPiiKey_render style hne]
      simp only [List.map_cons, List.map_nil, List.intercalate_singleton]
    constructor
    · exact fun _ hjoined => htwo hjoined.1
    · intro _ style style'
      rw [hsame, hsame]

end Renderings

section Payloads

variable {words : List Word} {key : String} {value : Json} {dropTopLevel : List String}

theorem publicFields_append (a b : List (String × Json)) :
    publicFields dropTopLevel (a ++ b) =
      publicFields dropTopLevel a ++ publicFields dropTopLevel b := by
  induction a with
  | nil => rfl
  | cons field a ih =>
    obtain ⟨name, child⟩ := field
    rw [List.cons_append, publicFields, publicFields, ih]
    split <;> rfl

theorem publicItems_append (a b : List Json) :
    publicItems (a ++ b) = publicItems a ++ publicItems b := by
  induction a with
  | nil => rfl
  | cons item a ih =>
    rw [List.cons_append, publicItems, publicItems, ih]
    rfl

/-- What withholds a field: its own key, or one above it. -/
def Place.withholds (key : String) (dropTopLevel : List String) : Place → Bool
  | .field _ _ => withheld dropTopLevel key
  | .under _ name place _ => withheld dropTopLevel name || place.withholds key []
  | .within _ place _ => place.withholds key []

/-- A field is not published exactly when its key or one above it is withheld. -/
theorem withholds_iff (place : Place) :
    publicReportData dropTopLevel (place.fill key value) =
      publicReportData dropTopLevel place.empty ↔ place.withholds key dropTopLevel = true := by
  induction place generalizing dropTopLevel with
  | field before after =>
    simp only [Place.fill, Place.empty, Place.withholds, publicReportData, publicFields_append,
      publicFields, Json.obj.injEq, List.append_cancel_left_eq]
    split
    next hheld => simp [hheld]
    next hheld =>
      simp only [hheld, Bool.false_eq_true, iff_false]
      intro heq
      simpa using congrArg List.length heq
  | under before name place after ih =>
    simp only [Place.fill, Place.empty, Place.withholds, publicReportData, publicFields_append,
      publicFields, Json.obj.injEq, List.append_cancel_left_eq]
    split
    next hheld => simp [hheld]
    next hheld =>
      rw [Bool.not_eq_true] at hheld
      rw [hheld, Bool.false_or, ← ih]
      simp
  | within before place after ih =>
    simp only [Place.fill, Place.empty, Place.withholds, publicReportData, publicItems_append,
      publicItems, Json.arr.injEq, List.append_cancel_left_eq]
    rw [← ih]
    simp

/-- Two keys of one verdict are withheld in the same places. -/
theorem withholds_congr {key' : String} (hpii : isPiiKey key = isPiiKey key')
    (hproto : key ≠ "__proto__" ∧ key' ≠ "__proto__") (place : Place)
    (hdrop : key ∈ dropTopLevel ↔ key' ∈ dropTopLevel) :
    place.withholds key dropTopLevel = place.withholds key' dropTopLevel := by
  induction place generalizing dropTopLevel with
  | field before after => simp [Place.withholds, withheld, hpii, hproto, hdrop]
  | under before name place after ih =>
    rw [Place.withholds, Place.withholds, ih (by simp)]
  | within before place after ih =>
    rw [Place.withholds, Place.withholds, ih (by simp)]

theorem render_photos (style : Style) (hne : words ≠ []) (h : style.render words = "photos") :
    words.map Word.text = ["photos"] := by
  have htokens := tokens_render style hne
  have hchars : style.chars words = "photos".toList := by
    rw [← h, Style.render, String.toList_ofList]
  rw [hchars] at htokens
  rw [← htokens]
  decide

theorem photos_render (h : words.map Word.text = ["photos"]) :
    Style.camel.render words = "photos" ∧ Style.pascal.render words = "Photos" := by
  obtain ⟨w, rfl⟩ : ∃ w, words = [w] := by
    have hlength := congrArg List.length h
    rw [List.length_map] at hlength
    exact List.length_eq_one_iff.mp hlength
  have htext : String.ofList w.letters = "photos" := (List.cons.inj h).1
  have hletters : w.letters = "photos".toList := by
    rw [← htext, String.toList_ofList]
  constructor
  · rw [Style.render, Style.chars, Style.pieces, List.map_nil, List.intercalate_singleton, htext]
  · rw [Style.render, Style.chars, Style.pieces, List.map_nil, List.intercalate_singleton, hletters]
    decide

theorem render_proto (style : Style) (hne : words ≠ []) : style.render words ≠ "__proto__" := by
  intro h
  have hchars : style.chars words = "__proto__".toList := by
    rw [← h, Style.render, String.toList_ofList]
  have hlower := toLowerCase_chars style words
  rw [hchars] at hlower
  cases words with
  | nil => exact hne rfl
  | cons w words =>
    obtain ⟨c, t, hw, -, hc, -⟩ := w.split
    have hfirst : (style.mark.intercalate ((w :: words).map (·.letters))).head? = some c := by
      cases words with
      | nil => simp [hw]
      | cons w' words => simp [hw, List.intercalate_cons_cons]
    rw [← hlower] at hfirst
    have hunder : c = '_' := by
      have hhead : (toLowerCase "__proto__".toList).head? = some '_' := by decide
      rw [hhead] at hfirst
      exact (Option.some.inj hfirst).symm
    rw [hunder] at hc
    exact absurd hc (by decide)

/-- The spelling of words does not decide whether they are published exactly when they are not
several words that only together are a key of the table, and not the one word that the report drops
in one spelling at its top. -/
theorem spelling_free (words : List Word) (hne : words ≠ []) :
    SpellingFree words ↔ ¬ JoinedOnly words ∧ words.map Word.text ≠ ["photos"] := by
  constructor
  · intro hfree
    refine ⟨(isPiiKey_styles hne).mp fun style style' => (hfree style style').1, fun hphotos => ?_⟩
    obtain ⟨hcamel, hpascal⟩ := photos_render hphotos
    have hboth := (hfree .camel .pascal).2 (.field [] []) .null
    unfold Dropped reportDataOf at hboth
    rw [withholds_iff, withholds_iff, hcamel, hpascal] at hboth
    have hlower : Place.withholds "photos" ["photos"] (.field [] []) = true := by decide +kernel
    have hupper : Place.withholds "Photos" ["photos"] (.field [] []) = false := by decide +kernel
    rw [hupper] at hboth
    exact absurd (hboth.mp hlower) Bool.false_ne_true
  · rintro ⟨hjoined, hphotos⟩ style style'
    have hpii := (isPiiKey_styles hne).mpr hjoined style style'
    refine ⟨hpii, fun place value => ?_⟩
    have hno (s : Style) : s.render words ≠ "photos" := fun h => hphotos (render_photos s hne h)
    unfold Dropped reportDataOf
    rw [withholds_iff, withholds_iff,
      withholds_congr hpii ⟨render_proto style hne, render_proto style' hne⟩ place]
    simp [hno]

end Payloads

section Examples

def idNumber : List Word :=
  [⟨"id".toList, List.all_eq_true.mp (by decide +kernel), by decide +kernel⟩,
    ⟨"number".toList, List.all_eq_true.mp (by decide +kernel), by decide +kernel⟩]

/-- `idNumber` is dropped, and `id_number` is published. -/
theorem idNumber_spelled : ¬ SpellingLaw := by
  intro hlaw
  have hsame := (hlaw idNumber (by simp [idNumber]) .camel .snake).1
  have hcamel : isPiiKey (Style.camel.render idNumber) = true := by decide +kernel
  have hsnake : isPiiKey (Style.snake.render idNumber) = false := by decide +kernel
  rw [hcamel, hsnake] at hsame
  cases hsame

def customerPhone : List Word :=
  [⟨"customer".toList, List.all_eq_true.mp (by decide +kernel), by decide +kernel⟩,
    ⟨"phone".toList, List.all_eq_true.mp (by decide +kernel), by decide +kernel⟩]

/-- `idNumber` is a key only as one word, `customerPhone` has a word that is dropped by itself. -/
theorem spelling_free_idNumber :
    (SpellingFree idNumber ↔ ¬ JoinedOnly idNumber ∧ idNumber.map Word.text ≠ ["photos"]) ∧
      SpellingFree customerPhone := by
  have hphone : piiTokens (customerPhone.map Word.text) = true := by decide +kernel
  refine ⟨spelling_free idNumber (by simp [idNumber]),
    (spelling_free customerPhone (by simp [customerPhone])).mpr ⟨fun hjoined => ?_, by
      simp [customerPhone]⟩⟩
  have hnot := hjoined.2.2
  rw [hphone] at hnot
  cases hnot

end Examples

end CarSalePro.Public
