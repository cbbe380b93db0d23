import CarSalePro.Search.SearchForm

namespace CarSalePro.Search

section Drop

variable {p q : Char → Bool} {c : Char} {text : List Char}

/-- The vowels that an `e` turns into an umlaut. -/
def isUmlautVowel (c : Char) : Bool := c == 'a' || c == 'o' || c == 'u'

/-- Every `e` right behind a character of the kind is dropped, and right behind what came before. -/
def dropE (p : Char → Bool) : Bool → List Char → List Char
  | _, [] => []
  | after, c :: text =>
    if after = true ∧ c = 'e' then dropE p false text else c :: dropE p (p c) text

/-- Behind an `e` that would be dropped only others stand. -/
def lateDigraphs (p : Char → Bool) : Bool → List Char → Bool
  | _, [] => true
  | after, c :: text =>
    if after = true ∧ c = 'e' then text.all (· == 'e') else lateDigraphs p (p c) text

theorem dropE_cons_of_ne (hc : c ≠ 'e') (after : Bool) (text : List Char) :
    dropE p after (c :: text) = c :: dropE p (p c) text := by
  rw [dropE, if_neg fun h => hc h.2]

theorem lateDigraphs_cons_of_ne (hc : c ≠ 'e') (after : Bool) (text : List Char) :
    lateDigraphs p after (c :: text) = lateDigraphs p (p c) text := by
  rw [lateDigraphs, if_neg fun h => hc h.2]

/-- What is dropped behind one kind is not looked at behind another. -/
theorem dropE_dropE (hdisjoint : ∀ c, ¬ (p c = true ∧ q c = true)) (hq : q 'e' = false)
    {a b : Bool} (hab : ¬ (a = true ∧ b = true)) (text : List Char) :
    dropE p a (dropE q b text) = dropE (fun c => p c || q c) (a || b) text := by
  induction text generalizing a b with
  | nil => rfl
  | cons c text ih =>
    have hnone : ¬ (false = true ∧ false = true) := by simp
    by_cases hb : b = true ∧ c = 'e'
    · obtain ⟨rfl, rfl⟩ := hb
      have ha : a = false := by simpa using hab
      rw [dropE, if_pos ⟨rfl, rfl⟩, dropE, if_pos ⟨by simp, rfl⟩, ha, ih hnone]
      rfl
    · rw [dropE, if_neg hb]
      by_cases ha : a = true ∧ c = 'e'
      · obtain ⟨rfl, rfl⟩ := ha
        rw [dropE, if_pos ⟨rfl, rfl⟩, dropE, if_pos ⟨by simp, rfl⟩, hq, ih hnone]
        rfl
      · have hor : ¬ ((a || b) = true ∧ c = 'e') := by
          rintro ⟨hor, hc⟩
          exact (Bool.or_eq_true_iff.mp hor).elim (fun h => ha ⟨h, hc⟩) fun h => hb ⟨h, hc⟩
        rw [dropE, if_neg ha, dropE, if_neg hor, ih (hdisjoint c)]

theorem collapseVowel_eq (vowel : Char) (text : List Char) :
    collapseVowel vowel text = dropE (· == vowel) false text := by
  have hstart (c : Char) (text : List Char) : dropE (· == vowel) false (c :: text) =
      c :: dropE (· == vowel) (c == vowel) text := by
    rw [dropE, if_neg (by simp)]
  induction text using collapseVowel.induct vowel with
  | case1 => rfl
  | case2 c => rw [hstart]; rfl
  | case3 c d text h ih =>
    obtain ⟨rfl, rfl⟩ := h
    rw [collapseVowel, if_pos ⟨rfl, rfl⟩, ih, hstart, dropE, if_pos ⟨by simp, rfl⟩]
  | case4 c d text h ih =>
    have hkept : ¬ ((c == vowel) = true ∧ d = 'e') := by simpa using h
    rw [collapseVowel, if_neg h, ih, hstart c, hstart d, dropE, if_neg hkept]

theorem collapseUmlauts_eq (text : List Char) :
    collapseUmlauts text = dropE isUmlautVowel false text := by
  have hnone : ¬ (false = true ∧ false = true) := by simp
  have hao : ∀ c : Char, ¬ ((c == 'o') = true ∧ (c == 'a') = true) := by
    intro c
    simp only [beq_iff_eq]
    rintro ⟨rfl, h⟩
    exact absurd h (by decide)
  have hu : ∀ c : Char, ¬ ((c == 'u') = true ∧ (c == 'o' || c == 'a') = true) := by
    intro c
    simp only [beq_iff_eq, Bool.or_eq_true]
    rintro ⟨rfl, h⟩
    exact absurd h (by decide)
  rw [collapseUmlauts, collapseVowel_eq, collapseVowel_eq, collapseVowel_eq,
    dropE_dropE hao (by decide) hnone, Bool.or_false,
    dropE_dropE hu (by decide) hnone, Bool.or_false]
  congr 1
  funext c
  cases ha : c == 'a' <;> cases ho : c == 'o' <;> cases hu : c == 'u' <;>
    simp [isUmlautVowel, ha, ho, hu]

/-- Only `e` is dropped. -/
theorem countP_dropE {keep : Char → Bool} (hkeep : keep 'e' = false) (after : Bool)
    (text : List Char) : (dropE p after text).countP keep = text.countP keep := by
  induction text generalizing after with
  | nil => rfl
  | cons c text ih =>
    by_cases h : after = true ∧ c = 'e'
    · rw [dropE, if_pos h, ih, List.countP_cons_of_neg]
      rw [h.2, hkeep]
      exact Bool.false_ne_true
    · rw [dropE, if_neg h, List.countP_cons, List.countP_cons, ih]

end Drop

section Spellings

variable {c : Char} {text : List Char} {after : Bool}

def plainUmlauts : List (Char × String) := [('ä', "a"), ('ö', "o"), ('ü', "u")]

/-- The umlauts made unlike any vowel. -/
def blankedUmlauts : List (Char × String) := [('ä', "x"), ('ö', "x"), ('ü', "x")]

def germanLetters : List Char := german.map Prod.fst

/-- What a letter of the table is in each of the spellings; any other is itself in all. -/
theorem spelling_cases (c : Char) :
    (c ∈ germanLetters ∧ c ≠ 'ß' ∧ ∃ v, isUmlautVowel v = true ∧ v ≠ 'e' ∧
      rewriteLetter plainUmlauts c = [v] ∧ rewriteLetter german c = [v, 'e'] ∧
      rewriteLetter blankedUmlauts c = ['x']) ∨
    (c = 'ß' ∧ rewriteLetter plainUmlauts c = ['ß'] ∧ rewriteLetter german c = ['s', 's'] ∧
      rewriteLetter blankedUmlauts c = ['ß']) ∨
    (c ∉ germanLetters ∧ rewriteLetter plainUmlauts c = [c] ∧ rewriteLetter german c = [c] ∧
      rewriteLetter blankedUmlauts c = [c]) := by
  by_cases hc : c ∈ germanLetters
  · have hletters : c = 'ä' ∨ c = 'ö' ∨ c = 'ü' ∨ c = 'ß' := by
      simpa [germanLetters, german] using hc
    obtain rfl | rfl | rfl | rfl := hletters
    · exact Or.inl ⟨hc, by decide, 'a', by decide⟩
    · exact Or.inl ⟨hc, by decide, 'o', by decide⟩
    · exact Or.inl ⟨hc, by decide, 'u', by decide⟩
    · exact Or.inr (Or.inl (by decide))
  · have hother : c ∉ plainUmlauts.map Prod.fst ∧ c ∉ blankedUmlauts.map Prod.fst := by
      simp only [germanLetters, german, List.map_cons, List.map_nil, List.mem_cons,
        List.not_mem_nil] at hc
      simp only [plainUmlauts, blankedUmlauts, List.map_cons, List.map_nil, List.mem_cons,
        List.not_mem_nil]
      tauto
    exact Or.inr (Or.inr ⟨hc, rewriteLetter_of_not_mem hother.1, rewriteLetter_of_not_mem hc,
      rewriteLetter_of_not_mem hother.2⟩)

/-- The vowels alone, the vowels expanded, and the vowels out of sight. -/
def plainSpelling (text : List Char) : List Char := text.flatMap (rewriteLetter plainUmlauts)

def longSpelling (text : List Char) : List Char := text.flatMap (rewriteLetter german)

def blankedSpelling (text : List Char) : List Char := text.flatMap (rewriteLetter blankedUmlauts)

/-- The expanded spelling as a query tries it. -/
def collapsedSpelling (after : Bool) (text : List Char) : List Char :=
  dropE isUmlautVowel after (longSpelling text)

theorem collapsedSpelling_umlaut {v : Char} (hv : isUmlautVowel v = true) (hne : v ≠ 'e')
    (hc : rewriteLetter german c = [v, 'e']) (after : Bool) (text : List Char) :
    collapsedSpelling after (c :: text) = v :: collapsedSpelling false text := by
  rw [collapsedSpelling, longSpelling, List.flatMap_cons, hc, List.cons_append,
    dropE_cons_of_ne hne, hv, List.cons_append, dropE, if_pos ⟨rfl, rfl⟩]
  rfl

theorem collapsedSpelling_kept (hc : rewriteLetter german c = [c])
    (hkept : ¬ (after = true ∧ c = 'e')) (text : List Char) :
    collapsedSpelling after (c :: text) =
      c :: collapsedSpelling (isUmlautVowel c) text := by
  rw [collapsedSpelling, longSpelling, List.flatMap_cons, hc, List.singleton_append, dropE,
    if_neg hkept]
  rfl

theorem collapsedSpelling_dropped (text : List Char) :
    collapsedSpelling true ('e' :: text) = collapsedSpelling false text := by
  have hc : rewriteLetter german 'e' = ['e'] := by decide
  rw [collapsedSpelling, longSpelling, List.flatMap_cons, hc, List.singleton_append, dropE,
    if_pos ⟨rfl, rfl⟩]
  rfl

/-- A spelling is of nothing but `e` only where the text is. -/
theorem isE_of_spelled {g : Char → List Char} (hg : g c = [c] ∨ ∃ d ∈ g c, d ≠ 'e')
    (hc : c ∈ text) (h : ∀ d ∈ text.flatMap g, d = 'e') : c = 'e' := by
  have hall : ∀ d ∈ g c, d = 'e' := fun d hd => h d (List.mem_flatMap.mpr ⟨c, hc, hd⟩)
  obtain hsame | ⟨d, hd, hne⟩ := hg
  · exact hall c (hsame ▸ List.mem_singleton_self c)
  · exact absurd (hall d hd) hne

theorem isE_of_plainSpelling (h : ∀ d ∈ plainSpelling text, d = 'e') : ∀ c ∈ text, c = 'e' := by
  intro c hc
  refine isE_of_spelled ?_ hc h
  obtain ⟨-, -, v, -, hne, hv, -⟩ | ⟨rfl, hs, -⟩ | ⟨-, hsame, -⟩ := spelling_cases c
  · exact Or.inr ⟨v, hv ▸ List.mem_singleton_self v, hne⟩
  · exact Or.inl hs
  · exact Or.inl hsame

theorem isE_of_blankedSpelling (h : ∀ d ∈ blankedSpelling text, d = 'e') :
    ∀ c ∈ text, c = 'e' := by
  intro c hc
  refine isE_of_spelled ?_ hc h
  obtain ⟨-, -, v, -, -, -, -, hx⟩ | ⟨rfl, -, -, hs⟩ | ⟨-, -, -, hsame⟩ := spelling_cases c
  · exact Or.inr ⟨'x', hx ▸ List.mem_singleton_self 'x', by decide⟩
  · exact Or.inl hs
  · exact Or.inl hsame

theorem lateDigraphs_of_all (h : ∀ c ∈ text, c = 'e') (after : Bool) :
    lateDigraphs isUmlautVowel after text = true := by
  induction text generalizing after with
  | nil => rfl
  | cons c text ih =>
    have htail : ∀ d ∈ text, d = 'e' := fun d hd => h d (List.mem_cons_of_mem c hd)
    rw [lateDigraphs]
    by_cases hc : after = true ∧ c = 'e'
    · rw [if_pos hc, List.all_eq_true]
      intro d hd
      simp [htail d hd]
    · rw [if_neg hc]
      exact ih htail _

theorem spelling_of_all (h : ∀ c ∈ text, c = 'e') :
    plainSpelling text = text ∧ blankedSpelling text = text ∧
    collapsedSpelling false text = text := by
  induction text with
  | nil => exact ⟨rfl, rfl, rfl⟩
  | cons c text ih =>
    obtain ⟨hplain, hblanked, hcollapsed⟩ := ih fun d hd => h d (List.mem_cons_of_mem c hd)
    have hc : c = 'e' := h c List.mem_cons_self
    subst hc
    have hsame : isUmlautVowel 'e' = false := by decide
    refine ⟨?_, ?_, ?_⟩
    · rw [plainSpelling, List.flatMap_cons]
      exact congrArg ('e' :: ·) hplain
    · rw [blankedSpelling, List.flatMap_cons]
      exact congrArg ('e' :: ·) hblanked
    · rw [collapsedSpelling_kept (by decide) (by simp), hsame, hcollapsed]

end Spellings

section Late

variable {c : Char} {text : List Char} {after : Bool}

theorem plainSpelling_cons (c : Char) (text : List Char) :
    plainSpelling (c :: text) = rewriteLetter plainUmlauts c ++ plainSpelling text :=
  List.flatMap_cons

theorem blankedSpelling_cons (c : Char) (text : List Char) :
    blankedSpelling (c :: text) = rewriteLetter blankedUmlauts c ++ blankedSpelling text :=
  List.flatMap_cons

/-- Where every digraph of the name stands late, the collapsed spelling only misses an end. -/
theorem plainSpelling_of_late (hsharp : 'ß' ∉ text)
    (h : lateDigraphs isUmlautVowel after (blankedSpelling text) = true) :
    ∃ n, plainSpelling text = collapsedSpelling after text ++ List.replicate n 'e' := by
  induction text generalizing after with
  | nil => exact ⟨0, rfl⟩
  | cons c text ih =>
    have htail : 'ß' ∉ text := List.not_mem_of_not_mem_cons hsharp
    rw [blankedSpelling_cons] at h
    rw [plainSpelling_cons]
    obtain ⟨-, -, v, hv, hne, hplain, hlong, hblank⟩ | ⟨hc, -⟩ |
      ⟨-, hplain, hlong, hblank⟩ := spelling_cases c
    · rw [hblank, List.singleton_append, lateDigraphs_cons_of_ne (by decide)] at h
      obtain ⟨n, hn⟩ := ih htail h
      rw [hplain, collapsedSpelling_umlaut hv hne hlong, hn]
      exact ⟨n, rfl⟩
    · exact absurd hc.symm (List.ne_of_not_mem_cons hsharp)
    · rw [hblank, List.singleton_append, lateDigraphs] at h
      by_cases hc : after = true ∧ c = 'e'
      · obtain ⟨rfl, rfl⟩ := hc
        rw [if_pos ⟨rfl, rfl⟩] at h
        have hall : ∀ c ∈ text, c = 'e' := by
          apply isE_of_blankedSpelling
          intro d hd
          simpa using List.all_eq_true.mp h d hd
        obtain ⟨htext, -, hcollapsed⟩ := spelling_of_all hall
        have hrun : text = List.replicate text.length 'e' := List.eq_replicate_of_mem hall
        refine ⟨1, ?_⟩
        rw [hplain, collapsedSpelling_dropped, hcollapsed, htext, hrun, List.singleton_append,
          ← List.replicate_succ, List.replicate_succ']
        rfl
      · rw [if_neg hc] at h
        obtain ⟨n, hn⟩ := ih htail h
        rw [hplain, collapsedSpelling_kept hlong hc, hn]
        exact ⟨n, rfl⟩

/-- How many `e` a text starts with. -/
def runOfE (text : List Char) : Nat := (text.takeWhile (· == 'e')).length

theorem runOfE_cons_of_ne (hc : c ≠ 'e') (text : List Char) : runOfE (c :: text) = 0 := by
  have hfalse : (c == 'e') = false := by simpa using hc
  simp [runOfE, hfalse]

theorem runOfE_cons (text : List Char) : runOfE ('e' :: text) = runOfE text + 1 := by
  simp [runOfE]

theorem runOfE_append {rest : List Char} (h : ¬ ∀ c ∈ text, c = 'e') :
    runOfE (text ++ rest) = runOfE text := by
  induction text with
  | nil => exact absurd (fun c hc => absurd hc List.not_mem_nil) h
  | cons c text ih =>
    by_cases hc : c = 'e'
    · subst hc
      have htail : ¬ ∀ c ∈ text, c = 'e' := by
        intro hall
        exact h fun d hd => (List.mem_cons.mp hd).elim id (hall d)
      rw [List.cons_append, runOfE_cons, runOfE_cons, ih htail]
    · rw [List.cons_append, runOfE_cons_of_ne hc, runOfE_cons_of_ne hc]

theorem runOfE_all_append {rest : List Char} (h : ∀ c ∈ text, c = 'e') :
    runOfE (text ++ rest) = text.length + runOfE rest := by
  induction text with
  | nil => exact (Nat.zero_add _).symm
  | cons c text ih =>
    rw [h c List.mem_cons_self, List.cons_append, runOfE_cons,
      ih fun d hd => h d (List.mem_cons_of_mem c hd), List.length_cons]
    omega

/-- At the front nothing is dropped: the two spellings start with as many `e`. -/
theorem runOfE_collapsedSpelling (hsharp : 'ß' ∉ text)
    (h : ¬ ∀ c ∈ plainSpelling text, c = 'e') :
    runOfE (collapsedSpelling false text) = runOfE (plainSpelling text) ∧
      ¬ ∀ c ∈ collapsedSpelling false text, c = 'e' := by
  induction text with
  | nil => exact absurd (fun c hc => absurd hc List.not_mem_nil) h
  | cons c text ih =>
    rw [plainSpelling_cons] at h ⊢
    obtain ⟨-, -, v, hv, hne, hplain, hlong, -⟩ | ⟨hc, -⟩ |
      ⟨-, hplain, hlong, -⟩ := spelling_cases c
    · rw [hplain, List.singleton_append, collapsedSpelling_umlaut hv hne hlong,
        runOfE_cons_of_ne hne, runOfE_cons_of_ne hne]
      exact ⟨rfl, fun hall => hne (hall v List.mem_cons_self)⟩
    · exact absurd hc.symm (List.ne_of_not_mem_cons hsharp)
    · rw [hplain, List.singleton_append] at h ⊢
      rw [collapsedSpelling_kept hlong (by simp)]
      by_cases hc : c = 'e'
      · subst hc
        have hsame : isUmlautVowel 'e' = false := by decide
        have htail : ¬ ∀ c ∈ plainSpelling text, c = 'e' := by
          intro hall
          exact h fun d hd => (List.mem_cons.mp hd).elim id (hall d)
        obtain ⟨hrun, hrest⟩ := ih (List.not_mem_of_not_mem_cons hsharp) htail
        rw [hsame, runOfE_cons, runOfE_cons, hrun]
        exact ⟨rfl, fun hall => hrest fun d hd => hall d (List.mem_cons_of_mem 'e' hd)⟩
      · rw [runOfE_cons_of_ne hc, runOfE_cons_of_ne hc]
        exact ⟨rfl, fun hall => hc (hall c List.mem_cons_self)⟩

/-- Where the collapsed spelling only misses an end, every digraph of the name stands late. -/
theorem late_of_plainSpelling (hsharp : 'ß' ∉ text) {n : Nat}
    (h : plainSpelling text = collapsedSpelling after text ++ List.replicate n 'e') :
    lateDigraphs isUmlautVowel after (blankedSpelling text) = true := by
  induction text generalizing after with
  | nil => rfl
  | cons c text ih =>
    have htail : 'ß' ∉ text := List.not_mem_of_not_mem_cons hsharp
    rw [plainSpelling_cons] at h
    rw [blankedSpelling_cons]
    obtain ⟨-, -, v, hv, hne, hplain, hlong, hblank⟩ | ⟨hc, -⟩ |
      ⟨-, hplain, hlong, hblank⟩ := spelling_cases c
    · rw [hplain, collapsedSpelling_umlaut hv hne hlong] at h
      rw [hblank, List.singleton_append, lateDigraphs_cons_of_ne (by decide)]
      exact ih htail (List.cons.inj h).2
    · exact absurd hc.symm (List.ne_of_not_mem_cons hsharp)
    · rw [hblank, List.singleton_append]
      by_cases hc : after = true ∧ c = 'e'
      · obtain ⟨rfl, rfl⟩ := hc
        rw [hplain, collapsedSpelling_dropped, List.singleton_append] at h
        by_cases hall : ∀ c ∈ plainSpelling text, c = 'e'
        · have htext := isE_of_plainSpelling hall
          apply lateDigraphs_of_all
          intro d hd
          rw [(spelling_of_all htext).2.1] at hd
          exact (List.mem_cons.mp hd).elim id (htext d)
        · obtain ⟨hrun, hrest⟩ := runOfE_collapsedSpelling htail hall
          have hlengths := congrArg runOfE h
          rw [runOfE_cons, runOfE_append hrest, hrun] at hlengths
          omega
      · rw [hplain, collapsedSpelling_kept hlong hc] at h
        rw [lateDigraphs, if_neg hc]
        exact ih htail (List.cons.inj h).2

theorem countP_spellings (hsharp : 'ß' ∉ text) :
    (collapsedSpelling false text).countP (· != 'e') =
      (plainSpelling text).countP (· != 'e') := by
  rw [collapsedSpelling, countP_dropE (by decide)]
  induction text with
  | nil => rfl
  | cons c text ih =>
    have hih := ih (List.not_mem_of_not_mem_cons hsharp)
    unfold longSpelling plainSpelling at hih ⊢
    rw [List.flatMap_cons, List.flatMap_cons, List.countP_append, List.countP_append, hih]
    obtain ⟨-, -, v, -, hne, hplain, hlong, -⟩ | ⟨hc, -⟩ | ⟨-, hplain, hlong, -⟩ :=
      spelling_cases c
    · rw [hplain, hlong]
      simp [List.countP_cons]
    · exact absurd hc.symm (List.ne_of_not_mem_cons hsharp)
    · rw [hplain, hlong]

/-- The collapsed spelling is part of the plain one only at its front. -/
theorem late_of_part (hsharp : 'ß' ∉ text)
    (h : collapsedSpelling false text <:+: plainSpelling text) :
    lateDigraphs isUmlautVowel false (blankedSpelling text) = true := by
  obtain ⟨before, behind, hsplit⟩ := h
  have hcount := congrArg (List.countP (· != 'e')) hsplit
  rw [List.countP_append, List.countP_append, countP_spellings hsharp] at hcount
  have hisE (part : List Char) (hpart : part.countP (· != 'e') = 0) : ∀ c ∈ part, c = 'e' := by
    intro c hc
    simpa using List.countP_eq_zero.mp hpart c hc
  have hbefore := hisE before (by omega)
  have hbehind := hisE behind (by omega)
  by_cases hall : ∀ c ∈ plainSpelling text, c = 'e'
  · have htext := isE_of_plainSpelling hall
    apply lateDigraphs_of_all
    rw [(spelling_of_all htext).2.1]
    exact htext
  · obtain ⟨hrun, hrest⟩ := runOfE_collapsedSpelling hsharp hall
    have hlengths := congrArg runOfE hsplit
    rw [List.append_assoc, runOfE_all_append hbefore, runOfE_append hrest, hrun] at hlengths
    have hnil : before = [] := List.length_eq_zero_iff.mp (by omega)
    apply late_of_plainSpelling hsharp (n := behind.length)
    rw [← hsplit, hnil, ← List.eq_replicate_of_mem hbehind]
    rfl

end Late

section Found

variable {text : List Char}

theorem length_longSpelling (text : List Char) : (longSpelling text).length =
    (plainSpelling text).length + text.countP (· ∈ germanLetters) := by
  induction text with
  | nil => rfl
  | cons c text ih =>
    unfold longSpelling plainSpelling at ih ⊢
    rw [List.flatMap_cons, List.flatMap_cons, List.length_append, List.length_append, ih]
    obtain ⟨hc, -, v, -, -, hplain, hlong, -⟩ | ⟨rfl, hplain, hlong, -⟩ |
      ⟨hc, hplain, hlong, -⟩ := spelling_cases c
    · rw [hplain, hlong, List.countP_cons_of_pos (by simpa using hc)]
      simp only [List.length_cons, List.length_nil]
      omega
    · have hsharp : 'ß' ∈ germanLetters := by decide
      rw [hplain, hlong, List.countP_cons_of_pos (by simpa using hsharp)]
      simp only [List.length_cons, List.length_nil]
      omega
    · rw [hplain, hlong, List.countP_cons_of_neg (by simpa using hc)]
      omega

theorem longSpelling_part_iff :
    longSpelling text <:+: plainSpelling text ↔ ∀ c ∈ text, c ∉ germanLetters := by
  have hlength := length_longSpelling text
  constructor
  · intro h
    have hle := h.length_le
    have hzero : text.countP (· ∈ germanLetters) = 0 := by omega
    intro c hc
    simpa using List.countP_eq_zero.mp hzero c hc
  · intro h
    have hsame : longSpelling text = plainSpelling text := by
      apply List.flatMap_congr
      intro c hc
      obtain ⟨hmem, -⟩ | ⟨rfl, -⟩ | ⟨-, hplain, hlong, -⟩ := spelling_cases c
      · exact absurd hmem (h c hc)
      · exact absurd (by decide) (h 'ß' hc)
      · rw [hplain, hlong]
    exact hsame ▸ List.infix_rfl

/-- Of a sharp s two letters are left that the name does not have. -/
theorem count_s_spellings (text : List Char) : (collapsedSpelling false text).countP (· == 's') =
    (plainSpelling text).countP (· == 's') + 2 * text.count 'ß' := by
  rw [collapsedSpelling, countP_dropE (by decide)]
  induction text with
  | nil => rfl
  | cons c text ih =>
    unfold longSpelling plainSpelling at ih ⊢
    rw [List.flatMap_cons, List.flatMap_cons, List.countP_append, List.countP_append, ih]
    obtain ⟨-, hsharp, v, hv, -, hplain, hlong, -⟩ | ⟨rfl, hplain, hlong, -⟩ |
      ⟨hc, hplain, hlong, -⟩ := spelling_cases c
    · have hs : v ≠ 's' := by
        rintro rfl
        exact absurd hv (by decide)
      rw [hplain, hlong, List.count_cons_of_ne hsharp]
      simp [hs]
    · rw [hplain, hlong, List.count_cons_self]
      have hleft : List.countP (· == 's') ['s', 's'] = 2 := by decide
      have hright : List.countP (· == 's') ['ß'] = 0 := by decide
      rw [hleft, hright]
      omega
    · have hsharp : c ≠ 'ß' := by
        rintro rfl
        exact hc (by decide)
      rw [hplain, hlong, List.count_cons_of_ne hsharp]
      omega

theorem sharp_of_part (h : collapsedSpelling false text <:+: plainSpelling text) :
    'ß' ∉ text := by
  have hle := h.sublist.countP_le (p := (· == 's'))
  rw [count_s_spellings] at hle
  intro hmem
  have := List.count_pos_iff.mpr hmem
  omega

/-- The two spellings that a query tries, and when the name contains one of them. -/
theorem spelling_found_iff :
    (longSpelling text <:+: plainSpelling text ∨
      collapsedSpelling false text ≠ longSpelling text ∧
        3 ≤ utf16Length (collapsedSpelling false text) ∧
        collapsedSpelling false text <:+: plainSpelling text) ↔
    (∀ c ∈ text, c ∉ germanLetters) ∨
      'ß' ∉ text ∧ lateDigraphs isUmlautVowel false (blankedSpelling text) = true ∧
        3 ≤ utf16Length (collapsedSpelling false text) := by
  constructor
  · rintro (h | ⟨-, hlength, h⟩)
    · exact Or.inl (longSpelling_part_iff.mp h)
    · have hsharp := sharp_of_part h
      exact Or.inr ⟨hsharp, late_of_part hsharp h, hlength⟩
  · rintro (h | ⟨hsharp, hlate, hlength⟩)
    · exact Or.inl (longSpelling_part_iff.mpr h)
    · obtain ⟨n, hn⟩ := plainSpelling_of_late hsharp hlate
      have hpart : collapsedSpelling false text <:+: plainSpelling text := by
        rw [hn]
        exact (List.prefix_append _ _).isInfix
      by_cases hsame : collapsedSpelling false text = longSpelling text
      · exact Or.inl (hsame ▸ hpart)
      · exact Or.inr ⟨hsame, hlength, hpart⟩

end Found

end CarSalePro.Search
