import CarSalePro.Search.Spacing
import CarSalePro.Text.CanonicalOrder

namespace CarSalePro.Search

open CanonicalOrder (InOrder)
open Reports (isSpace)

section Letters

variable {c d : Char} {table : List (Char × String)} {text : List Char}

/-- What a table writes for a letter. -/
def rewriteLetter (table : List (Char × String)) (c : Char) : List Char :=
  match table.lookup c with
  | some replacement => replacement.toList
  | none => [c]

/-- No replacement has a letter of a later entry. -/
def Settled (table : List (Char × String)) : Prop :=
  table.Pairwise fun entry later => later.1 ∉ entry.2.toList

theorem rewriteLetter_of_not_mem (h : c ∉ table.map Prod.fst) : rewriteLetter table c = [c] := by
  have hnone : table.lookup c = none := by
    rw [List.lookup_eq_none_iff]
    intro entry hentry
    have hne : c ≠ entry.1 := fun heq => h (heq ▸ List.mem_map_of_mem hentry)
    simpa using hne
  rw [rewriteLetter, hnone]

theorem rewriteLetter_cons (entry : Char × String) (table : List (Char × String)) (c : Char) :
    rewriteLetter (entry :: table) c =
      if c = entry.1 then entry.2.toList else rewriteLetter table c := by
  unfold rewriteLetter
  rw [List.lookup_cons]
  by_cases hc : c = entry.1
  · simp [hc]
  · have hfalse : (c == entry.1) = false := by simpa using hc
    rw [hfalse, if_neg hc]

/-- One letter after another, or all of them at once. -/
theorem replaceLetters_eq (h : Settled table) (text : List Char) :
    replaceLetters table text = text.flatMap (rewriteLetter table) := by
  induction table generalizing text with
  | nil => exact (List.flatMap_singleton' text).symm
  | cons entry table ih =>
    obtain ⟨hentry, htable⟩ := List.pairwise_cons.mp h
    have hkept : entry.2.toList.flatMap (rewriteLetter table) = entry.2.toList := by
      have hsame : ∀ c ∈ entry.2.toList, rewriteLetter table c = [c] := by
        intro c hc
        apply rewriteLetter_of_not_mem
        intro hmem
        obtain ⟨later, hlater, heq⟩ := List.mem_map.mp hmem
        exact hentry later hlater (heq ▸ hc)
      rw [List.flatMap_congr hsame, List.flatMap_singleton']
    have hstep : replaceLetters (entry :: table) text =
        replaceLetters table (replaceLetter entry.1 entry.2 text) := rfl
    rw [hstep, ih htable, replaceLetter, List.flatMap_assoc]
    apply List.flatMap_congr
    intro c _
    rw [rewriteLetter_cons]
    by_cases hc : c = entry.1
    · rw [if_pos hc, if_pos hc, hkept]
    · rw [if_neg hc, if_neg hc, List.flatMap_singleton]

def cyrillicLetters : List Char := cyrillic.map Prod.fst

/-- The Latin spelling of a letter. -/
def latin (c : Char) : List Char := rewriteLetter cyrillic c

theorem settled_cyrillic : Settled cyrillic := by
  unfold Settled
  decide

theorem transliterate_eq (U : Unicode) (text : List Char) :
    transliterate U text = (U.toLowerCase text).flatMap latin :=
  replaceLetters_eq settled_cyrillic _

theorem latin_of_not_mem (h : c ∉ cyrillicLetters) : latin c = [c] := rewriteLetter_of_not_mem h

/-- The Latin spellings are of small letters. -/
theorem small_of_mem_latin (hc : c ∈ cyrillicLetters) (hd : d ∈ latin c) :
    97 ≤ d.toNat ∧ d.toNat ≤ 122 := by
  have hall : (cyrillicLetters.all fun c =>
      (latin c).all fun d => decide (97 ≤ d.toNat ∧ d.toNat ≤ 122)) = true := by decide
  exact of_decide_eq_true (List.all_eq_true.mp (List.all_eq_true.mp hall c hc) d hd)

theorem letter_block (hc : c ∈ cyrillicLetters) : 0x400 ≤ c.toNat ∧ c.toNat ≤ 0x4FF := by
  have hall : (cyrillicLetters.all fun c =>
      decide (0x400 ≤ c.toNat ∧ c.toNat ≤ 0x4FF)) = true := by decide
  exact of_decide_eq_true (List.all_eq_true.mp hall c hc)

theorem letter_not_mark (hc : c ∈ cyrillicLetters) : isCombiningMark c = false := by
  have := letter_block hc
  simp only [isCombiningMark, Bool.and_eq_false_iff, decide_eq_false_iff_not]
  omega

theorem letter_not_space (hc : c ∈ cyrillicLetters) : isSpace c = false := by
  have hall : (cyrillicLetters.all fun c => !isSpace c) = true := by decide
  simpa using List.all_eq_true.mp hall c hc

theorem not_letter_of_small (hc : c.toNat < 128) : c ∉ cyrillicLetters := by
  intro hmem
  have := letter_block hmem
  omega

end Letters

section Laws

/-- The letters of the table that decompose, and what into. -/
def composedLetters : List (Char × List Char) :=
  [('й', ['и', '\u0306']), ('ё', ['е', '\u0308']), ('ї', ['і', '\u0308'])]

/-- What the operations of the Unicode character database keep to. -/
structure Unicode.Lawful (U : Unicode) : Prop where
  nfd_nfc : ∀ text, U.normalizeNFD (U.normalizeNFC text) = U.normalizeNFD text
  nfd_lower : ∀ text, U.normalizeNFD (U.toLowerCase text) = U.toLowerCase (U.normalizeNFD text)
  lower_stable : ∀ text, ∀ c ∈ U.toLowerCase text, U.toLowerCase [c] = [c]
  lower_fixed : ∀ text, (∀ c ∈ text, U.toLowerCase [c] = [c]) → U.toLowerCase text = text
  decomposition_full : ∀ c, ∀ d ∈ U.decomposition c, U.decomposition d = [d]
  ascii_decomposition : ∀ c : Char, c.toNat < 128 → U.decomposition c = [c]
  ascii_lower : ∀ c : Char, c.toNat < 128 → ¬ ('A' ≤ c ∧ c ≤ 'Z') → U.toLowerCase [c] = [c]
  space_class : ∀ c, isSpace c = true → U.combiningClass c = 0
  letter_class : ∀ c ∈ cyrillicLetters, U.combiningClass c = 0
  letter_decomposition : ∀ c ∈ cyrillicLetters,
    U.decomposition c = (composedLetters.lookup c).getD [c]
  breve_class : U.combiningClass '\u0306' ≠ 0
  diaeresis_class : U.combiningClass '\u0308' ≠ 0

variable {U : Unicode} {c d : Char} {text : List Char}

theorem Unicode.normalizeNFD_eq (U : Unicode) (text : List Char) :
    U.normalizeNFD text = CanonicalOrder.ordered U.combiningClass (text.flatMap U.decomposition) :=
    rfl

theorem Unicode.mem_normalizeNFD :
    c ∈ U.normalizeNFD text ↔ ∃ d ∈ text, c ∈ U.decomposition d := by
  rw [U.normalizeNFD_eq, CanonicalOrder.mem_ordered, List.mem_flatMap]

/-- A character that lower-casing leaves as it is. -/
def Unicode.Stable (U : Unicode) (c : Char) : Prop := U.toLowerCase [c] = [c]

theorem Unicode.Lawful.decomposition_stable (h : U.Lawful) (hc : U.Stable c)
    (hd : d ∈ U.decomposition c) : U.Stable d := by
  have hlower : U.normalizeNFD [c] = U.toLowerCase (U.normalizeNFD [c]) := by
    rw [← h.nfd_lower, hc]
  have hmem : d ∈ U.normalizeNFD [c] :=
    Unicode.mem_normalizeNFD.mpr ⟨c, List.mem_singleton_self c, hd⟩
  rw [hlower] at hmem
  exact h.lower_stable _ d hmem

theorem Unicode.Lawful.small_stable (h : U.Lawful) (hc : 97 ≤ c.toNat ∧ c.toNat ≤ 122) :
    U.Stable c := by
  apply h.ascii_lower c (by omega)
  intro hupper
  have : c.toNat ≤ 90 := hupper.2
  omega

theorem Unicode.Lawful.decomposition_small (h : U.Lawful) (hc : c ∈ cyrillicLetters)
    (hd : d ∈ latin c) : U.decomposition d = [d] := by
  have := small_of_mem_latin hc hd
  exact h.ascii_decomposition d (by omega)

/-- A character outside the table that decomposes into a letter of the table. -/
def Unicode.Hides (U : Unicode) (c : Char) : Prop :=
  c ∉ cyrillicLetters ∧ ∃ d ∈ U.decomposition c, d ∈ cyrillicLetters

instance (U : Unicode) (c : Char) : Decidable (U.Hides c) :=
  inferInstanceAs (Decidable (_ ∧ _))

end Laws

section Forms

variable {U : Unicode} {c d : Char} {text : List Char}

/-- A lower-cased text, in Latin letters and without its marks. -/
def bare (U : Unicode) (text : List Char) : List Char :=
  (U.normalizeNFD (text.flatMap latin)).filter fun c => !isCombiningMark c

/-- A combining mark that the ordering moves is dropped; the others stay. -/
def keepsPlace (U : Unicode) (c : Char) : Bool :=
  !(isCombiningMark c && U.combiningClass c != 0)

/-- What `normalizeSearchText` makes of a lower-cased text. -/
def searchForm (U : Unicode) (text : List Char) : List Char := squeeze (bare U text)

theorem strip_ordered (U : Unicode) (text : List Char) :
    (CanonicalOrder.ordered U.combiningClass text).filter (fun c => !isCombiningMark c) =
      (CanonicalOrder.ordered U.combiningClass (text.filter (keepsPlace U))).filter
        fun c => !isCombiningMark c := by
  have hstarter : ∀ c, U.combiningClass c = 0 → keepsPlace U c = true := by
    intro c hc
    simp [keepsPlace, hc]
  rw [← CanonicalOrder.filter_ordered hstarter, List.filter_filter]
  apply List.filter_congr
  intro c _
  cases hmark : isCombiningMark c <;> simp [keepsPlace, hmark]

theorem mem_bare : d ∈ bare U text ↔
    (∃ c ∈ text, ∃ b ∈ latin c, d ∈ U.decomposition b) ∧ isCombiningMark d = false := by
  rw [bare, List.mem_filter, Unicode.mem_normalizeNFD, Bool.not_eq_true']
  apply and_congr_left'
  constructor
  · rintro ⟨b, hb, hd⟩
    obtain ⟨c, hc, hbc⟩ := List.mem_flatMap.mp hb
    exact ⟨c, hc, b, hbc, hd⟩
  · rintro ⟨c, hc, b, hbc, hd⟩
    exact ⟨b, List.mem_flatMap.mpr ⟨c, hc, hbc⟩, hd⟩

theorem Unicode.Lawful.bare_stable (h : U.Lawful) (htext : ∀ c ∈ text, U.Stable c)
    (hd : d ∈ bare U text) : U.Stable d := by
  obtain ⟨⟨c, hc, b, hb, hdb⟩, -⟩ := mem_bare.mp hd
  have hbase : U.Stable b := by
    by_cases hletter : c ∈ cyrillicLetters
    · exact h.small_stable (small_of_mem_latin hletter hb)
    · rw [latin_of_not_mem hletter, List.mem_singleton] at hb
      rw [hb]
      exact htext c hc
  exact h.decomposition_stable hbase hdb

theorem Unicode.Lawful.fold_eq (h : U.Lawful) (htext : ∀ c ∈ text, U.Stable c) :
    fold U (text.flatMap latin) = searchForm U text := by
  have hlower : U.toLowerCase (bare U text) = bare U text :=
    h.lower_fixed _ fun c hc => h.bare_stable htext hc
  show trim (collapseSpaces false (U.toLowerCase (bare U text))) = searchForm U text
  rw [hlower]
  rfl

theorem Unicode.Lawful.normalizeSearchText_eq (h : U.Lawful) (text : String) :
    normalizeSearchText U (some text) =
      String.ofList (searchForm U (U.toLowerCase text.toList)) := by
  by_cases htext : text = ""
  · have hempty : U.toLowerCase [] = [] := h.lower_fixed [] (by simp)
    rw [htext, String.toList_empty, hempty]
    rfl
  · rw [normalizeSearchText, if_neg htext, transliterate_eq, h.fold_eq (h.lower_stable _)]

theorem Unicode.Lawful.decomposed_of_mem (h : U.Lawful) (hd : d ∈ searchForm U text) :
    U.decomposition d = [d] := by
  by_cases hspace : isSpace d = true
  · rw [blank_of_mem_squeeze hd hspace]
    exact h.ascii_decomposition ' ' (by decide)
  · rw [searchForm, mem_squeeze (Bool.eq_false_of_not_eq_true hspace)] at hd
    obtain ⟨⟨c, -, b, -, hdb⟩, -⟩ := mem_bare.mp hd
    exact h.decomposition_full b d hdb

theorem not_mark_of_mem (hd : d ∈ searchForm U text) : isCombiningMark d = false := by
  by_cases hspace : isSpace d = true
  · rw [blank_of_mem_squeeze hd hspace]
    decide
  · rw [searchForm, mem_squeeze (Bool.eq_false_of_not_eq_true hspace)] at hd
    exact (mem_bare.mp hd).2

theorem Unicode.Lawful.stable_of_mem (h : U.Lawful) (htext : ∀ c ∈ text, U.Stable c)
    (hd : d ∈ searchForm U text) : U.Stable d := by
  by_cases hspace : isSpace d = true
  · rw [blank_of_mem_squeeze hd hspace]
    exact h.ascii_lower ' ' (by decide) (by decide)
  · rw [searchForm, mem_squeeze (Bool.eq_false_of_not_eq_true hspace)] at hd
    exact h.bare_stable htext hd

theorem not_hides_of_decomposed (hc : U.decomposition c = [c]) : ¬ U.Hides c := by
  rintro ⟨hletter, d, hd, hmem⟩
  rw [hc, List.mem_singleton] at hd
  exact hletter (hd ▸ hmem)

/-- A letter of the table is left exactly by the characters that hide one. -/
theorem Unicode.Lawful.letter_mem_iff (h : U.Lawful) (hd : d ∈ cyrillicLetters) :
    d ∈ searchForm U text ↔ ∃ c ∈ text, c ∉ cyrillicLetters ∧ d ∈ U.decomposition c := by
  rw [searchForm, mem_squeeze (letter_not_space hd), mem_bare]
  constructor
  · rintro ⟨⟨c, hc, b, hb, hdb⟩, -⟩
    by_cases hletter : c ∈ cyrillicLetters
    · have hsmall := small_of_mem_latin hletter hb
      rw [h.decomposition_small hletter hb, List.mem_singleton] at hdb
      exact absurd hd (hdb ▸ not_letter_of_small (by omega))
    · rw [latin_of_not_mem hletter, List.mem_singleton] at hb
      exact ⟨c, hc, hletter, hb ▸ hdb⟩
  · rintro ⟨c, hc, hletter, hdc⟩
    refine ⟨⟨c, hc, c, ?_, hdc⟩, letter_not_mark hd⟩
    rw [latin_of_not_mem hletter]
    exact List.mem_singleton_self c

theorem Unicode.Lawful.not_letter_of_mem (h : U.Lawful) (htext : ∀ c ∈ text, ¬ U.Hides c)
    (hd : d ∈ searchForm U text) : d ∉ cyrillicLetters := by
  intro hletter
  obtain ⟨c, hc, hnot, hdc⟩ := (h.letter_mem_iff hletter).mp hd
  exact htext c hc ⟨hnot, d, hdc, hletter⟩

end Forms

section Spaces

variable {U : Unicode} {text : List Char}

theorem Unicode.Lawful.blank_class (h : U.Lawful) : U.combiningClass ' ' = 0 :=
  h.space_class ' ' isSpace_blank

/-- White space does not come between two marks, and takes no part in their order. -/
theorem Unicode.Lawful.inOrder_collapse (h : U.Lawful) (text : List Char) :
    (∀ c, InOrder U.combiningClass (c :: collapseSpaces false text) ↔
      InOrder U.combiningClass (c :: text)) ∧
    (InOrder U.combiningClass (collapseSpaces true text) ↔ InOrder U.combiningClass text) := by
  induction text with
  | nil => exact ⟨fun _ => Iff.rfl, Iff.rfl⟩
  | cons d text ih =>
    obtain ⟨hfalse, htrue⟩ := ih
    by_cases hd : isSpace d = true
    · have hclass := h.space_class d hd
      constructor
      · intro c
        have hsplit {d : Char} (hd : U.combiningClass d = 0) (rest : List Char) :
            InOrder U.combiningClass (c :: d :: rest) ↔
              InOrder U.combiningClass [c] ∧ InOrder U.combiningClass rest := by
          rw [← CanonicalOrder.inOrder_append_starter hd]
          rfl
        rw [collapseSpaces, if_pos hd, if_neg Bool.false_ne_true]
        rw [hsplit h.blank_class, hsplit hclass, htrue]
      · rw [collapseSpaces, if_pos hd, if_pos rfl, CanonicalOrder.inOrder_starter_cons hclass]
        exact htrue
    · constructor
      · intro c
        rw [collapseSpaces, if_neg hd]
        exact List.isChain_cons_cons.trans
          ((and_congr_right fun _ => hfalse d).trans List.isChain_cons_cons.symm)
      · rw [collapseSpaces, if_neg hd]
        exact hfalse d

theorem Unicode.Lawful.inOrder_squeeze (h : U.Lawful) (text : List Char) :
    InOrder U.combiningClass (squeeze text) ↔ InOrder U.combiningClass text := by
  obtain ⟨before, after, htext, hbefore, hafter⟩ := trim_split (collapseSpaces false text)
  have hcollapse : InOrder U.combiningClass (collapseSpaces false text) ↔
      InOrder U.combiningClass text := by
    have hfront := (h.inOrder_collapse text).1 ' '
    rwa [CanonicalOrder.inOrder_starter_cons h.blank_class,
      CanonicalOrder.inOrder_starter_cons h.blank_class] at hfront
  rw [← hcollapse, htext,
    CanonicalOrder.inOrder_append_starters fun c hc => h.space_class c (hafter c hc),
    CanonicalOrder.inOrder_starters_append fun c hc => h.space_class c (hbefore c hc)]
  rfl

end Spaces

section Sample

/-- Letters with a mark, as the database decomposes them. -/
def sampleTable : List (Char × List Char) :=
  composedLetters ++ [('ў', ['у', '\u0306']), ('ä', ['a', '\u0308']), ('ö', ['o', '\u0308']),
    ('ü', ['u', '\u0308'])]

/-- The database as far as the letters of the table and ASCII go, over composed text. -/
def sample : Unicode where
  decomposition c := (sampleTable.lookup c).getD [c]
  combiningClass c := if c = '\u0306' ∨ c = '\u0308' then 230 else 0
  normalizeNFC text := text
  toLowerCase text := text.map Char.toLower
  toUpperCase text := text.map Char.toUpper

variable {c d : Char}

theorem sampleTable_entry {letters : List Char} (h : sampleTable.lookup c = some letters) :
    128 ≤ c.toNat ∧ c.toLower = c ∧
      ∀ d ∈ letters, sampleTable.lookup d = none ∧ d.toLower = d := by
  have hall : (sampleTable.all fun entry =>
      decide (128 ≤ entry.1.toNat) && (entry.1.toLower == entry.1) &&
        entry.2.all fun d => (sampleTable.lookup d).isNone && (d.toLower == d)) = true := by
    decide
  obtain ⟨before, after, htable, -⟩ := List.lookup_eq_some_iff.mp h
  have hmem : (c, letters) ∈ sampleTable := by
    rw [htable]
    exact List.mem_append_right _ List.mem_cons_self
  have hentry := List.all_eq_true.mp hall (c, letters) hmem
  simp only [Bool.and_eq_true, decide_eq_true_eq, beq_iff_eq, List.all_eq_true,
    Option.isNone_iff_eq_none] at hentry
  exact ⟨hentry.1.1, hentry.1.2, hentry.2⟩

theorem sample_ascii (hc : c.toNat < 128) : sample.decomposition c = [c] := by
  show (sampleTable.lookup c).getD [c] = [c]
  cases hlookup : sampleTable.lookup c with
  | none => rfl
  | some letters =>
    have := (sampleTable_entry hlookup).1
    omega

theorem toLower_of_not_upper (h : ¬ ('A' ≤ c ∧ c ≤ 'Z')) : c.toLower = c := by
  unfold Char.toLower
  exact dif_neg h

theorem toNat_toLower (h : 'A' ≤ c ∧ c ≤ 'Z') : c.toLower.toNat = c.toNat + 32 := by
  have hrange : c.val ≥ 'A'.val ∧ c.val ≤ 'Z'.val := h
  have hle : c.val.toNat ≤ 90 := h.2
  have hval : c.toLower.val = c.val + 32 := by
    unfold Char.toLower
    rw [dif_pos hrange]
    rfl
  have h32 : (32 : UInt32).toNat = 32 := rfl
  show c.toLower.val.toNat = c.val.toNat + 32
  rw [hval, UInt32.toNat_add]
  omega

theorem toLower_ascii (c : Char) :
    c.toLower = c ∨ 97 ≤ c.toLower.toNat ∧ c.toLower.toNat < 128 ∧ c.toNat < 128 := by
  by_cases hc : 'A' ≤ c ∧ c ≤ 'Z'
  · have hle : c.toNat ≤ 90 := hc.2
    have hge : 65 ≤ c.toNat := hc.1
    have := toNat_toLower hc
    omega
  · exact Or.inl (toLower_of_not_upper hc)

theorem toLower_toLower (c : Char) : c.toLower.toLower = c.toLower := by
  obtain heq | ⟨hlarge, -⟩ := toLower_ascii c
  · rw [heq, heq]
  · apply toLower_of_not_upper
    intro hupper
    have : c.toLower.toNat ≤ 90 := hupper.2
    omega

theorem sample_class_lower (c : Char) :
    sample.combiningClass c.toLower = sample.combiningClass c := by
  obtain heq | ⟨-, hlower, hc⟩ := toLower_ascii c
  · rw [heq]
  · have hnot {c : Char} (hc : c.toNat < 128) : ¬ (c = '\u0306' ∨ c = '\u0308') := by
      rintro (rfl | rfl)
      · exact absurd hc (by decide)
      · exact absurd hc (by decide)
    show ite _ _ _ = ite _ _ _
    rw [if_neg (hnot hlower), if_neg (hnot hc)]

theorem sample_decomposition_lower (c : Char) :
    sample.decomposition c.toLower = (sample.decomposition c).map Char.toLower := by
  obtain heq | ⟨-, hlower, hc⟩ := toLower_ascii c
  · rw [heq]
    show (sampleTable.lookup c).getD [c] = ((sampleTable.lookup c).getD [c]).map Char.toLower
    cases hlookup : sampleTable.lookup c with
    | none =>
      show [c] = [c.toLower]
      rw [heq]
    | some letters =>
      have hletters : ∀ d ∈ letters, d.toLower = d := fun d hd =>
        ((sampleTable_entry hlookup).2.2 d hd).2
      exact (List.map_congr_left hletters).trans (List.map_id' letters) |>.symm
  · rw [sample_ascii hlower, sample_ascii hc]
    rfl

theorem sample_lawful : sample.Lawful where
  nfd_nfc _ := rfl
  nfd_lower text := by
    have hflat : (text.map Char.toLower).flatMap sample.decomposition =
        (text.flatMap sample.decomposition).map Char.toLower := by
      rw [List.flatMap_map, List.map_flatMap]
      exact List.flatMap_congr fun c _ => sample_decomposition_lower c
    show CanonicalOrder.ordered _ _ = List.map Char.toLower (CanonicalOrder.ordered _ _)
    rw [show sample.toLowerCase text = text.map Char.toLower from rfl, hflat]
    symm
    apply List.map_insertionSort
    intro a _ b _
    unfold CanonicalOrder.MayPrecede
    rw [sample_class_lower, sample_class_lower]
  lower_stable text c hc := by
    obtain ⟨d, -, rfl⟩ := List.mem_map.mp hc
    exact congrArg (fun c => [c]) (toLower_toLower d)
  lower_fixed text htext := by
    have hsame : ∀ c ∈ text, c.toLower = c := fun c hc => List.head_eq_of_cons_eq (htext c hc)
    exact (List.map_congr_left hsame).trans (List.map_id' text)
  decomposition_full c d hd := by
    change d ∈ (sampleTable.lookup c).getD [c] at hd
    show (sampleTable.lookup d).getD [d] = [d]
    cases hlookup : sampleTable.lookup c with
    | none =>
      rw [hlookup] at hd
      rw [List.mem_singleton.mp hd, hlookup]
      rfl
    | some letters =>
      rw [hlookup] at hd
      rw [((sampleTable_entry hlookup).2.2 d hd).1]
      rfl
  ascii_decomposition _ hc := sample_ascii hc
  ascii_lower _ _ hupper := congrArg (fun c => [c]) (toLower_of_not_upper hupper)
  space_class c hc := by
    have hnot : ¬ (c = '\u0306' ∨ c = '\u0308') := by
      rintro (rfl | rfl)
      · exact absurd hc (by decide)
      · exact absurd hc (by decide)
    exact if_neg hnot
  letter_class c hc := by
    have hblock := letter_block hc
    have hnot : ¬ (c = '\u0306' ∨ c = '\u0308') := by
      rintro (rfl | rfl)
      · exact absurd hblock (by decide)
      · exact absurd hblock (by decide)
    exact if_neg hnot
  letter_decomposition c hc := by
    have hall : (cyrillicLetters.all fun c =>
        decide (sampleTable.lookup c = composedLetters.lookup c)) = true := by decide
    have hsame := of_decide_eq_true (List.all_eq_true.mp hall c hc)
    show (sampleTable.lookup c).getD [c] = (composedLetters.lookup c).getD [c]
    rw [hsame]
  breve_class := by decide
  diaeresis_class := by decide

end Sample

end CarSalePro.Search
