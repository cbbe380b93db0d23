import CarSalePro.Search.Digraphs

namespace CarSalePro.Search

open Reports (isSpace)

section Respelling

variable {U : Unicode} {g : Char → List Char} {c : Char} {text : List Char}

/-- A character that the ordering, the marks and the white space leave alone. -/
def Unicode.Solid (U : Unicode) (c : Char) : Prop :=
  U.combiningClass c = 0 ∧ isCombiningMark c = false ∧ isSpace c = false

/-- A spelling of such characters by others. -/
def Unicode.Respells (U : Unicode) (g : Char → List Char) : Prop :=
  ∀ c, g c = [c] ∨ U.Solid c ∧ g c ≠ [] ∧ ∀ d ∈ g c, U.Solid d

theorem Unicode.Respells.spells (hg : U.Respells g) :
    CanonicalOrder.Spells U.combiningClass g := by
  intro c
  obtain hc | ⟨hc, hne, hall⟩ := hg c
  · exact Or.inl hc
  · exact Or.inr ⟨hc.1, hne, fun d hd => (hall d hd).1⟩

theorem Unicode.Respells.strip (hg : U.Respells g) (text : List Char) :
    (text.flatMap g).filter (fun c => !isCombiningMark c) =
      (text.filter fun c => !isCombiningMark c).flatMap g := by
  induction text with
  | nil => rfl
  | cons c text ih =>
    rw [List.flatMap_cons, List.filter_append, ih, List.filter_cons]
    obtain hc | ⟨⟨-, hmark, -⟩, -, hall⟩ := hg c
    · cases hmark : isCombiningMark c <;> simp [hc, hmark]
    · have hkept : (g c).filter (fun c => !isCombiningMark c) = g c := by
        rw [List.filter_eq_self]
        intro d hd
        simp [(hall d hd).2.1]
      rw [hkept, hmark]
      rfl

theorem collapseSpaces_append {part : List Char} (hne : part ≠ [])
    (hpart : ∀ c ∈ part, isSpace c = false) (after : Bool) (text : List Char) :
    collapseSpaces after (part ++ text) = part ++ collapseSpaces false text := by
  induction part generalizing after with
  | nil => exact absurd rfl hne
  | cons c part ih =>
    have hc : ¬ isSpace c = true := by simp [hpart c List.mem_cons_self]
    rw [List.cons_append, collapseSpaces, if_neg hc, List.cons_append]
    cases part with
    | nil => rfl
    | cons d part =>
      rw [ih (List.cons_ne_nil d part) fun b hb => hpart b (List.mem_cons_of_mem c hb)]

theorem Unicode.Respells.collapseSpaces (hg : U.Respells g) (after : Bool) (text : List Char) :
    collapseSpaces after (text.flatMap g) = (collapseSpaces after text).flatMap g := by
  have hblank : g ' ' = [' '] := by
    obtain h | ⟨⟨-, -, hspace⟩, -⟩ := hg ' '
    · exact h
    · exact absurd hspace (by decide)
  induction text generalizing after with
  | nil => rfl
  | cons c text ih =>
    rw [List.flatMap_cons]
    by_cases hspace : isSpace c = true
    · have hc : g c = [c] := by
        obtain h | ⟨⟨-, -, hnot⟩, -⟩ := hg c
        · exact h
        · rw [hspace] at hnot
          exact Bool.noConfusion hnot
      rw [hc, List.singleton_append, Search.collapseSpaces, if_pos hspace, Search.collapseSpaces,
        if_pos hspace, ih]
      cases after with
      | true => rfl
      | false =>
        rw [if_neg Bool.false_ne_true, if_neg Bool.false_ne_true, List.flatMap_cons, hblank]
        rfl
    · have hkept : ∀ d ∈ g c, isSpace d = false := by
        obtain h | ⟨-, -, hall⟩ := hg c
        · rw [h]
          intro d hd
          rw [List.mem_singleton.mp hd]
          exact Bool.eq_false_of_not_eq_true hspace
        · exact fun d hd => (hall d hd).2.2
      have hne : g c ≠ [] := by
        obtain h | ⟨-, hne, -⟩ := hg c
        · rw [h]
          exact List.cons_ne_nil c []
        · exact hne
      rw [collapseSpaces_append hne hkept, ih, Search.collapseSpaces, if_neg hspace,
        List.flatMap_cons]

theorem Unicode.Respells.dropWhile (hg : U.Respells g) (text : List Char) :
    (text.flatMap g).dropWhile isSpace = (text.dropWhile isSpace).flatMap g := by
  induction text with
  | nil => rfl
  | cons c text ih =>
    rw [List.flatMap_cons]
    by_cases hspace : isSpace c = true
    · have hc : g c = [c] := by
        obtain h | ⟨⟨-, -, hnot⟩, -⟩ := hg c
        · exact h
        · rw [hspace] at hnot
          exact Bool.noConfusion hnot
      rw [hc, List.singleton_append, List.dropWhile_cons_of_pos hspace, ih,
        List.dropWhile_cons_of_pos hspace]
    · have hfront : ∃ d rest, g c = d :: rest ∧ ¬ isSpace d = true := by
        obtain h | ⟨-, hne, hall⟩ := hg c
        · exact ⟨c, [], h, hspace⟩
        · obtain ⟨d, rest, h⟩ := List.exists_cons_of_ne_nil hne
          have hd := (hall d (h ▸ List.mem_cons_self)).2.2
          exact ⟨d, rest, h, by simp [hd]⟩
      obtain ⟨d, rest, hspelled, hd⟩ := hfront
      rw [List.dropWhile_cons_of_neg hspace, List.flatMap_cons, hspelled, List.cons_append,
        List.dropWhile_cons_of_neg hd]

theorem Unicode.Respells.reverse (hg : U.Respells g) : U.Respells fun c => (g c).reverse := by
  intro c
  obtain hc | ⟨hc, hne, hall⟩ := hg c
  · exact Or.inl (congrArg List.reverse hc)
  · refine Or.inr ⟨hc, by simpa using hne, fun d hd => hall d (List.mem_reverse.mp hd)⟩

theorem Unicode.Respells.trim (hg : U.Respells g) (text : List Char) :
    trim (text.flatMap g) = (trim text).flatMap g := by
  have hreverse (text : List Char) :
      (text.flatMap g).reverse = text.reverse.flatMap fun c => (g c).reverse := by
    rw [List.reverse_flatMap]
    rfl
  have hback (text : List Char) :
      (text.flatMap g).rdropWhile isSpace = (text.rdropWhile isSpace).flatMap g := by
    rw [List.rdropWhile, hreverse, hg.reverse.dropWhile, List.rdropWhile, List.reverse_flatMap]
    simp only [Function.comp_def, List.reverse_reverse]
  rw [Search.trim, hg.dropWhile, hback]
  rfl

/-- A spelling of solid characters may be done before everything else or after it. -/
theorem Unicode.Respells.squeeze (hg : U.Respells g) (text : List Char) :
    squeeze ((CanonicalOrder.ordered U.combiningClass (text.flatMap g)).filter
        fun c => !isCombiningMark c) =
      (squeeze ((CanonicalOrder.ordered U.combiningClass text).filter
        fun c => !isCombiningMark c)).flatMap g := by
  rw [CanonicalOrder.ordered_spelled hg.spells, hg.strip, Search.squeeze, hg.collapseSpaces,
    hg.trim]
  rfl

end Respelling

section German

/-- What the character database has about the letters of the German table. -/
structure Unicode.LawfulGerman (U : Unicode) : Prop where
  umlaut_decomposition : ∀ entry ∈ plainUmlauts,
    U.decomposition entry.1 = entry.2.toList ++ ['\u0308']
  sharp_decomposition : U.decomposition 'ß' = ['ß']
  sharp_origin : ∀ c, 'ß' ∈ U.decomposition c → c = 'ß'
  german_class : ∀ c ∈ germanLetters, U.combiningClass c = 0
  ascii_class : ∀ c : Char, c.toNat < 128 → U.combiningClass c = 0

variable {U : Unicode} {g : Char → List Char} {c d : Char} {text : List Char}

def umlauts : List Char := plainUmlauts.map Prod.fst

theorem german_iff : c ∈ germanLetters ↔ c ∈ umlauts ∨ c = 'ß' := by
  simp only [germanLetters, german, umlauts, plainUmlauts, List.map_cons, List.map_nil,
    List.mem_cons, List.not_mem_nil]
  tauto

theorem german_solid (h : U.LawfulGerman) (hc : c ∈ germanLetters) : U.Solid c := by
  have hall : (germanLetters.all fun c => !isCombiningMark c && !isSpace c) = true := by
    decide
  have hplain := List.all_eq_true.mp hall c hc
  simp only [Bool.and_eq_true, Bool.not_eq_true'] at hplain
  exact ⟨h.german_class c hc, hplain⟩

theorem german_not_cyrillic (hc : c ∈ germanLetters) : c ∉ cyrillicLetters := by
  have hall : (germanLetters.all fun c => decide (c ∉ cyrillicLetters)) = true := by
    decide
  exact of_decide_eq_true (List.all_eq_true.mp hall c hc)

/-- A small letter. -/
def isSmall (c : Char) : Bool := 97 ≤ c.toNat && c.toNat ≤ 122

theorem small_solid (h : U.LawfulGerman) (hc : isSmall c = true) : U.Solid c := by
  simp only [isSmall, Bool.and_eq_true, decide_eq_true_eq] at hc
  refine ⟨h.ascii_class c (by omega), ?_, ?_⟩
  · simp only [isCombiningMark, Bool.and_eq_false_iff, decide_eq_false_iff_not]
    omega
  · have hranges : ¬ (0x9 ≤ c.toNat ∧ c.toNat ≤ 0xD) ∧
        ¬ (0x2000 ≤ c.toNat ∧ c.toNat ≤ 0x200A) := by omega
    have hlist : c.toNat ∉
        [0x20, 0xA0, 0x1680, 0x2028, 0x2029, 0x202F, 0x205F, 0x3000, 0xFEFF] := by
      intro hmem
      have hbound : c.toNat ≤ 0x20 ∨ 0xA0 ≤ c.toNat := by
        simp only [List.mem_cons, List.not_mem_nil, or_false] at hmem
        omega
      omega
    simpa [isSpace, hlist] using hranges

/-- A spelling of the letters of the German table, each in small letters or by itself. -/
def SpellsGerman (g : Char → List Char) : Prop :=
  (∀ c, c ∉ germanLetters → g c = [c]) ∧
    ∀ c ∈ germanLetters, g c = ['ß'] ∧ c = 'ß' ∨ g c ≠ [] ∧ ∀ d ∈ g c, isSmall d = true

theorem SpellsGerman.respells (hg : SpellsGerman g) (h : U.LawfulGerman) : U.Respells g := by
  intro c
  by_cases hc : c ∈ germanLetters
  · obtain ⟨heq, rfl⟩ | ⟨hne, hall⟩ := hg.2 c hc
    · exact Or.inl heq
    · exact Or.inr ⟨german_solid h hc, hne, fun d hd => small_solid h (hall d hd)⟩
  · exact Or.inl (hg.1 c hc)

/-- What is left of a character before the ordering, when the umlauts stay whole. -/
def pieces (U : Unicode) (c : Char) : List Char :=
  if c ∈ umlauts then [c] else (latin c).flatMap U.decomposition

theorem german_mem_pieces (hlawful : U.Lawful) (h : U.LawfulGerman) (hc : c ∈ germanLetters) :
    c ∈ pieces U d ↔ d = c := by
  have hnotSmall : ¬ c.toNat < 128 := by
    have hall : (germanLetters.all fun c => decide (¬ c.toNat < 128)) = true := by
      decide
    exact of_decide_eq_true (List.all_eq_true.mp hall c hc)
  have horigin : c ∈ U.decomposition d → d ∈ umlauts ∨ d = c := by
    intro hmem
    obtain hu | rfl := german_iff.mp hc
    · obtain ⟨entry, hentry, rfl⟩ := List.mem_map.mp hu
      have hfull := hlawful.decomposition_full d entry.1 hmem
      rw [h.umlaut_decomposition entry hentry] at hfull
      have hlength := congrArg List.length hfull
      have hone : entry.2.toList.length = 1 := by
        have hall : (plainUmlauts.all fun entry => entry.2.toList.length == 1) = true := by
          decide
        simpa using List.all_eq_true.mp hall entry hentry
      rw [List.length_append, hone] at hlength
      simp at hlength
    · exact Or.inr (h.sharp_origin d hmem)
  by_cases hd : d ∈ umlauts
  · rw [pieces, if_pos hd, List.mem_singleton, eq_comm]
  · rw [pieces, if_neg hd, List.mem_flatMap]
    constructor
    · rintro ⟨b, hb, hcb⟩
      by_cases hletter : d ∈ cyrillicLetters
      · have hsmall := small_of_mem_latin hletter hb
        rw [hlawful.decomposition_small hletter hb, List.mem_singleton] at hcb
        rw [hcb] at hnotSmall
        omega
      · rw [latin_of_not_mem hletter, List.mem_singleton] at hb
        rw [hb] at hcb
        exact (horigin hcb).resolve_left hd
    · rintro rfl
      have hsharp : d = 'ß' := (german_iff.mp hc).resolve_left hd
      refine ⟨d, ?_, ?_⟩
      · rw [latin_of_not_mem (german_not_cyrillic hc)]
        exact List.mem_singleton_self d
      · rw [hsharp, h.sharp_decomposition]
        exact List.mem_singleton_self 'ß'

/-- The normal form of a lower-cased text, its umlauts still whole. -/
def umlautForm (U : Unicode) (text : List Char) : List Char :=
  squeeze ((CanonicalOrder.ordered U.combiningClass (text.flatMap (pieces U))).filter
    fun c => !isCombiningMark c)

theorem german_mem_umlautForm (hlawful : U.Lawful) (h : U.LawfulGerman)
    (hc : c ∈ germanLetters) : c ∈ umlautForm U text ↔ c ∈ text := by
  obtain ⟨-, hmark, hspace⟩ := german_solid h hc
  rw [umlautForm, mem_squeeze hspace, List.mem_filter, hmark, CanonicalOrder.mem_ordered,
    List.mem_flatMap, and_iff_left (by rfl)]
  simp only [german_mem_pieces hlawful h hc, exists_eq_right]

theorem small_decomposition (hlawful : U.Lawful) (hc : isSmall c = true) :
    (latin c).flatMap U.decomposition = [c] := by
  simp only [isSmall, Bool.and_eq_true, decide_eq_true_eq] at hc
  rw [latin_of_not_mem (not_letter_of_small (by omega)), List.flatMap_singleton]
  exact hlawful.ascii_decomposition c (by omega)

theorem sharp_pieces (h : U.LawfulGerman) :
    (latin 'ß').flatMap U.decomposition = ['ß'] := by
  rw [latin_of_not_mem (german_not_cyrillic (by decide)), List.flatMap_singleton]
  exact h.sharp_decomposition

/-- A name spelled otherwise has the normal form of the name, spelled otherwise. -/
theorem SpellsGerman.searchForm (hg : SpellsGerman g) (hlawful : U.Lawful)
    (h : U.LawfulGerman) (text : List Char) :
    searchForm U (text.flatMap g) = (umlautForm U text).flatMap g := by
  have hpiece (c : Char) :
      ((g c).flatMap latin).flatMap U.decomposition = (pieces U c).flatMap g := by
    by_cases hc : c ∈ germanLetters
    · have hpieces : pieces U c = [c] := by
        unfold pieces
        obtain hu | rfl := german_iff.mp hc
        · rw [if_pos hu]
        · rw [if_neg (by decide), sharp_pieces h]
      rw [hpieces, List.flatMap_singleton]
      obtain ⟨heq, -⟩ | ⟨-, hall⟩ := hg.2 c hc
      · rw [heq, List.flatMap_singleton, sharp_pieces h]
      · rw [List.flatMap_assoc,
          List.flatMap_congr fun d hd => small_decomposition hlawful (hall d hd),
          List.flatMap_singleton']
    · have hkept : ∀ d ∈ pieces U c, g d = [d] := by
        intro d hd
        apply hg.1
        intro hmem
        exact hc ((german_mem_pieces hlawful h hmem).mp hd ▸ hmem)
      have hu : c ∉ umlauts := fun hu => hc (german_iff.mpr (Or.inl hu))
      rw [hg.1 c hc, List.flatMap_singleton, List.flatMap_congr hkept, List.flatMap_singleton',
        pieces, if_neg hu]
  have hpieces : ((text.flatMap g).flatMap latin).flatMap U.decomposition =
      (text.flatMap (pieces U)).flatMap g := by
    rw [List.flatMap_assoc, List.flatMap_assoc, List.flatMap_assoc]
    apply List.flatMap_congr
    intro c _
    rw [← hpiece, List.flatMap_assoc]
  rw [Search.searchForm, bare, U.normalizeNFD_eq, hpieces, (hg.respells h).squeeze]
  rfl

theorem spellsGerman_of_table {table : List (Char × String)}
    (hkeys : ((table.map Prod.fst).all fun c => decide (c ∈ germanLetters)) = true)
    (hall : (germanLetters.all fun c => decide (rewriteLetter table c = ['ß'] ∧ c = 'ß') ||
      !(rewriteLetter table c).isEmpty && (rewriteLetter table c).all isSmall) = true) :
    SpellsGerman (rewriteLetter table) := by
  constructor
  · intro c hc
    apply rewriteLetter_of_not_mem
    intro hmem
    exact hc (of_decide_eq_true (List.all_eq_true.mp hkeys c hmem))
  · intro c hc
    have hentry := List.all_eq_true.mp hall c hc
    rw [Bool.or_eq_true, decide_eq_true_eq, Bool.and_eq_true, List.all_eq_true] at hentry
    exact hentry.imp_right fun ⟨hne, hsmall⟩ => ⟨by simpa using hne, hsmall⟩

theorem plainUmlauts_spells : SpellsGerman (rewriteLetter plainUmlauts) :=
  spellsGerman_of_table (by decide) (by decide +kernel)

theorem german_spells : SpellsGerman (rewriteLetter german) :=
  spellsGerman_of_table (by decide) (by decide +kernel)

theorem blankedUmlauts_spells : SpellsGerman (rewriteLetter blankedUmlauts) :=
  spellsGerman_of_table (by decide) (by decide +kernel)

/-- The diaeresis of an umlaut leaves no trace: a name has the plain spelling of its form. -/
theorem searchForm_eq_plain (hlawful : U.Lawful) (h : U.LawfulGerman) (text : List Char) :
    searchForm U text = plainSpelling (umlautForm U text) := by
  have hdiaeresis : keepsPlace U '\u0308' = false := by
    have hmark : isCombiningMark '\u0308' = true := by decide
    simpa [keepsPlace, hmark] using hlawful.diaeresis_class
  have hpiece (c : Char) : ((latin c).flatMap U.decomposition).filter (keepsPlace U) =
      ((pieces U c).flatMap (rewriteLetter plainUmlauts)).filter (keepsPlace U) := by
    by_cases hc : c ∈ umlauts
    · obtain ⟨entry, hentry, rfl⟩ := List.mem_map.mp hc
      have hgerman : entry.1 ∈ germanLetters := german_iff.mpr (Or.inl hc)
      have hspelled : rewriteLetter plainUmlauts entry.1 = entry.2.toList := by
        have hall : (plainUmlauts.all fun entry =>
            decide (rewriteLetter plainUmlauts entry.1 = entry.2.toList)) = true := by
          decide
        exact of_decide_eq_true (List.all_eq_true.mp hall entry hentry)
      rw [latin_of_not_mem (german_not_cyrillic hgerman), List.flatMap_singleton,
        h.umlaut_decomposition entry hentry, pieces, if_pos hc, List.flatMap_singleton, hspelled,
        List.filter_append, List.filter_cons_of_neg (by simp [hdiaeresis]), List.filter_nil,
        List.append_nil]
    · have hkept : ∀ d ∈ pieces U c, rewriteLetter plainUmlauts d = [d] := by
        intro d hd
        apply rewriteLetter_of_not_mem
        intro hmem
        have hgerman : d ∈ germanLetters := german_iff.mpr (Or.inl hmem)
        exact hc ((german_mem_pieces hlawful h hgerman).mp hd ▸ hmem)
      rw [List.flatMap_congr hkept, List.flatMap_singleton', pieces, if_neg hc]
  have hpieces : ((text.flatMap latin).flatMap U.decomposition).filter (keepsPlace U) =
      ((text.flatMap (pieces U)).flatMap (rewriteLetter plainUmlauts)).filter (keepsPlace U) := by
    rw [List.flatMap_assoc, List.flatMap_assoc, List.filter_flatMap, List.filter_flatMap]
    exact List.flatMap_congr fun c _ => hpiece c
  rw [searchForm, bare, U.normalizeNFD_eq, strip_ordered, hpieces, ← strip_ordered,
    (plainUmlauts_spells.respells h).squeeze]
  rfl

end German

end CarSalePro.Search
