import CarSalePro.Search.SearchForm

namespace CarSalePro.Search

open CanonicalOrder (InOrder)
open Reports (isSpace)

section Again

variable {U : Unicode} {text : List Char}

/-- Over decomposed text without letters of the table only the order of the marks is left to do. -/
theorem bare_eq_ordered (hletter : ∀ c ∈ text, c ∉ cyrillicLetters)
    (hdecomposed : ∀ c ∈ text, U.decomposition c = [c])
    (hmark : ∀ c ∈ text, isCombiningMark c = false) :
    bare U text = CanonicalOrder.ordered U.combiningClass text := by
  have hlatin : text.flatMap latin = text := by
    rw [List.flatMap_congr fun c hc => latin_of_not_mem (hletter c hc), List.flatMap_singleton']
  have hflat : text.flatMap U.decomposition = text := by
    rw [List.flatMap_congr hdecomposed, List.flatMap_singleton']
  rw [bare, hlatin, U.normalizeNFD_eq, hflat, List.filter_eq_self]
  intro c hc
  rw [hmark c (CanonicalOrder.mem_ordered.mp hc)]
  rfl

/-- The second pass changes nothing where no letter was hidden and the marks left are in order. -/
theorem Unicode.Lawful.searchForm_twice (h : U.Lawful) (text : List Char) :
    searchForm U (searchForm U text) = searchForm U text ↔
      (∀ c ∈ text, ¬ U.Hides c) ∧ InOrder U.combiningClass (bare U text) := by
  have hnone : ∀ c ∈ searchForm U text, ¬ U.Hides c := fun c hc =>
    not_hides_of_decomposed (h.decomposed_of_mem hc)
  have hordered (hplain : ∀ c ∈ text, ¬ U.Hides c) : searchForm U (searchForm U text) =
      squeeze (CanonicalOrder.ordered U.combiningClass (searchForm U text)) := by
    have hletter : ∀ c ∈ searchForm U text, c ∉ cyrillicLetters := fun c hc =>
      h.not_letter_of_mem hplain hc
    have hbare := bare_eq_ordered hletter (fun c hc => h.decomposed_of_mem hc)
      fun c hc => not_mark_of_mem hc
    rw [searchForm, hbare]
  constructor
  · intro heq
    have hplain : ∀ c ∈ text, ¬ U.Hides c := by
      rintro c hc ⟨hletter, d, hd, hmem⟩
      have hleft : d ∈ searchForm U text := (h.letter_mem_iff hmem).mpr ⟨c, hc, hletter, hd⟩
      rw [← heq] at hleft
      exact h.not_letter_of_mem hnone hleft hmem
    refine ⟨hplain, ?_⟩
    rw [hordered hplain] at heq
    have horder : InOrder U.combiningClass (searchForm U text) := by
      rw [← heq, h.inOrder_squeeze]
      exact CanonicalOrder.inOrder_ordered _
    exact (h.inOrder_squeeze _).mp horder
  · rintro ⟨hplain, hbare⟩
    have horder : InOrder U.combiningClass (searchForm U text) := (h.inOrder_squeeze _).mpr hbare
    rw [hordered hplain, horder.ordered_eq]
    exact squeeze_squeeze _

end Again

section Equivalent

variable {U : Unicode} {c d : Char} {text : List Char}

/-- The marks that the composed letters of the table bring leave no trace. -/
theorem Unicode.Lawful.filter_latin_decomposition (h : U.Lawful) (hc : ¬ U.Hides c) :
    ((U.decomposition c).flatMap latin).filter (keepsPlace U) =
      ((latin c).flatMap U.decomposition).filter (keepsPlace U) := by
  by_cases hletter : c ∈ cyrillicLetters
  · have htable : (cyrillicLetters.all fun c => decide
        ((((composedLetters.lookup c).getD [c]).flatMap latin).filter
          (fun d => d != '\u0306' && d != '\u0308') = latin c)) = true := by decide
    have hlatin := of_decide_eq_true (List.all_eq_true.mp htable c hletter)
    have hbreve : keepsPlace U '\u0306' = false := by
      have hmark : isCombiningMark '\u0306' = true := by decide
      simpa [keepsPlace, hmark] using h.breve_class
    have hdiaeresis : keepsPlace U '\u0308' = false := by
      have hmark : isCombiningMark '\u0308' = true := by decide
      simpa [keepsPlace, hmark] using h.diaeresis_class
    have hkept (d : Char) : (keepsPlace U d && (d != '\u0306' && d != '\u0308')) =
        keepsPlace U d := by
      by_cases hd : d = '\u0306'
      · rw [hd, hbreve, Bool.false_and]
      · by_cases hd' : d = '\u0308'
        · rw [hd', hdiaeresis, Bool.false_and]
        · simp [hd, hd']
    rw [h.letter_decomposition c hletter,
      List.flatMap_congr fun d hd => h.decomposition_small hletter hd, List.flatMap_singleton',
      ← hlatin, List.filter_filter]
    exact (List.filter_congr fun d _ => hkept d).symm
  · have hplain : ∀ d ∈ U.decomposition c, latin d = [d] := by
      intro d hd
      exact latin_of_not_mem fun hmem => hc ⟨hletter, d, hd, hmem⟩
    rw [latin_of_not_mem hletter, List.flatMap_singleton, List.flatMap_congr hplain,
      List.flatMap_singleton']

/-- Decomposing first makes no difference where no letter is hidden. -/
theorem Unicode.Lawful.searchForm_normalizeNFD (h : U.Lawful) (text : List Char) :
    searchForm U (U.normalizeNFD text) = searchForm U text ↔ ∀ c ∈ text, ¬ U.Hides c := by
  have hfull : ∀ c ∈ U.normalizeNFD text, U.decomposition c = [c] := by
    intro c hc
    obtain ⟨d, -, hcd⟩ := Unicode.mem_normalizeNFD.mp hc
    exact h.decomposition_full d c hcd
  constructor
  · rintro heq c hc ⟨hletter, d, hd, hmem⟩
    have hleft : d ∈ searchForm U text := (h.letter_mem_iff hmem).mpr ⟨c, hc, hletter, hd⟩
    rw [← heq] at hleft
    exact h.not_letter_of_mem (fun c hc => not_hides_of_decomposed (hfull c hc)) hleft hmem
  · intro hplain
    have hmarkFixed : ∀ c, U.combiningClass c ≠ 0 → latin c = [c] := by
      intro c hc
      exact latin_of_not_mem fun hletter => hc (h.letter_class c hletter)
    have hlatinFull : ((U.normalizeNFD text).flatMap latin).flatMap U.decomposition =
        (U.normalizeNFD text).flatMap latin := by
      have hsame : ∀ d ∈ (U.normalizeNFD text).flatMap latin, U.decomposition d = [d] := by
        intro d hd
        obtain ⟨c, hc, hdc⟩ := List.mem_flatMap.mp hd
        by_cases hletter : c ∈ cyrillicLetters
        · exact h.decomposition_small hletter hdc
        · rw [latin_of_not_mem hletter, List.mem_singleton] at hdc
          rw [hdc]
          exact hfull c hc
      rw [List.flatMap_congr hsame, List.flatMap_singleton']
    have hfilter : ((text.flatMap U.decomposition).flatMap latin).filter (keepsPlace U) =
        ((text.flatMap latin).flatMap U.decomposition).filter (keepsPlace U) := by
      rw [List.flatMap_assoc, List.flatMap_assoc, List.filter_flatMap, List.filter_flatMap]
      exact List.flatMap_congr fun c hc => h.filter_latin_decomposition (hplain c hc)
    have hbare : bare U (U.normalizeNFD text) = bare U text := by
      rw [bare, bare, U.normalizeNFD_eq (List.flatMap latin (U.normalizeNFD text)), hlatinFull,
        U.normalizeNFD_eq text, CanonicalOrder.ordered_flatMap hmarkFixed, strip_ordered, hfilter,
        ← strip_ordered]
      rfl
    rw [searchForm, hbare]
    rfl

end Equivalent

section NormalForm

/-- Without its combining marks the text is still in canonical order. -/
def StaysInOrder (U : Unicode) (text : List Char) : Prop :=
  InOrder U.combiningClass (text.filter fun c => !isCombiningMark c)

instance (U : Unicode) (text : List Char) : Decidable (StaysInOrder U text) :=
  inferInstanceAs (Decidable (InOrder _ _))

theorem normalizeSearchText_normal_form (U : Unicode) (h : U.Lawful) (input : String) :
    (normalizeSearchText U (some (normalizeSearchText U (some input))) =
        normalizeSearchText U (some input) ∧
      normalizeSearchText U (some (String.ofList (U.normalizeNFC input.toList))) =
        normalizeSearchText U (some (String.ofList (U.normalizeNFD input.toList)))) ↔
    (∀ c ∈ U.toLowerCase input.toList, ¬ U.Hides c) ∧
      (∀ c ∈ U.toLowerCase (U.normalizeNFC input.toList), ¬ U.Hides c) ∧
      StaysInOrder U (U.normalizeNFD (transliterate U input.toList)) := by
  have hstable : ∀ c ∈ searchForm U (U.toLowerCase input.toList), U.Stable c := fun c hc =>
    h.stable_of_mem (h.lower_stable _) hc
  have hagain : U.toLowerCase (searchForm U (U.toLowerCase input.toList)) =
      searchForm U (U.toLowerCase input.toList) := h.lower_fixed _ hstable
  have hforms : U.toLowerCase (U.normalizeNFD input.toList) =
      U.normalizeNFD (U.toLowerCase (U.normalizeNFC input.toList)) := by
    rw [h.nfd_lower, h.nfd_nfc]
  have htwice : normalizeSearchText U (some (normalizeSearchText U (some input))) =
        normalizeSearchText U (some input) ↔
      (∀ c ∈ U.toLowerCase input.toList, ¬ U.Hides c) ∧
        StaysInOrder U (U.normalizeNFD (transliterate U input.toList)) := by
    rw [h.normalizeSearchText_eq, h.normalizeSearchText_eq, String.toList_ofList,
      String.ofList_inj, hagain, h.searchForm_twice, transliterate_eq]
    rfl
  have hequivalent : normalizeSearchText U (some (String.ofList (U.normalizeNFC input.toList))) =
        normalizeSearchText U (some (String.ofList (U.normalizeNFD input.toList))) ↔
      ∀ c ∈ U.toLowerCase (U.normalizeNFC input.toList), ¬ U.Hides c := by
    rw [h.normalizeSearchText_eq, h.normalizeSearchText_eq, String.toList_ofList,
      String.toList_ofList, String.ofList_inj, hforms, eq_comm, h.searchForm_normalizeNFD]
  rw [htwice, hequivalent, and_assoc, and_comm (b := ∀ c ∈ _, _)]

theorem not_hides_of_all {U : Unicode} {text : List Char}
    (h : (text.all fun c => !decide (U.Hides c)) = true) : ∀ c ∈ text, ¬ U.Hides c := by
  intro c hc
  simpa using List.all_eq_true.mp h c hc

theorem normalizeSearchText_joena :
    (normalizeSearchText sample (some (normalizeSearchText sample (some "йёна"))) =
        normalizeSearchText sample (some "йёна") ∧
      normalizeSearchText sample (some (String.ofList (sample.normalizeNFC "йёна".toList))) =
        normalizeSearchText sample (some (String.ofList (sample.normalizeNFD "йёна".toList)))) :=
  (normalizeSearchText_normal_form sample sample_lawful "йёна").mpr
    ⟨not_hides_of_all (by decide), not_hides_of_all (by decide +kernel),
      by decide⟩

/-- The short u is no letter of the table: one pass leaves the letter under its mark. -/
theorem short_u_twice : sample.Lawful ∧
    [some "ў", some (normalizeSearchText sample (some "ў")),
      some (String.ofList (sample.normalizeNFC "ў".toList)),
      some (String.ofList (sample.normalizeNFD "ў".toList))].map (normalizeSearchText sample) =
        ["у", "u", "у", "u"] :=
  ⟨sample_lawful, by decide⟩

end NormalForm

end CarSalePro.Search
