import CarSalePro.Legal.StarRuns

namespace CarSalePro.Legal

section Showing

/-- A span, written as markup. -/
def InlineSpan.toHtml : InlineSpan → List Char
  | .text run => esc run
  | .bold run => element "strong" (esc run)
  | .italic run => element "em" (esc run)

def spansToHtml (spans : List InlineSpan) : List Char := spans.flatMap InlineSpan.toHtml

end Showing

section Passes

variable {m k : Nat} {s t : List Char} {segments : List (Nat × List Char)}

/-- What the bold pass makes of a spelled text. -/
def bolded (m : Nat) (s : List Char) : List (Nat × List Char) → List Char
  | [] => stars m ++ s
  | (k, t) :: segments =>
    if 2 ≤ m ∧ 2 ≤ k then stars (m - 2) ++ (element "strong" s ++ bolded (k - 2) t segments)
    else stars m ++ (s ++ bolded k t segments)

/-- What the one scan makes of it. -/
def scanned (m : Nat) (s : List Char) : List (Nat × List Char) → List Char
  | [] => stars m ++ s
  | (k, t) :: segments =>
    if m = 0 then s ++ scanned k t segments
    else if 2 ≤ m ∧ 2 ≤ k then
      stars (m - 2) ++ (element "strong" s ++ scanned (k - 2) t segments)
    else stars (m - 1) ++ (element "em" s ++ scanned (k - 1) t segments)

/-- Stars that open nothing stay. -/
theorem scan_stars {α : Type} {find : List Char → Option (α × Nat)} {n low : Nat}
    {rest : List Char} (hlow : low ≤ n)
    (h : ∀ j, low < j → j ≤ n → find (stars j ++ rest) = none) :
    scan find 0 (stars n ++ rest) =
      (stars (n - low)).map .inl ++ scan find 0 (stars low ++ rest) := by
  induction n with
  | zero =>
    have hzero : low = 0 := by omega
    rw [hzero]
    rfl
  | succ n ih =>
    by_cases heq : low = n + 1
    · rw [heq, Nat.sub_self]
      rfl
    · have hnone := h (n + 1) (by omega) (le_refl _)
      have hsucc : n + 1 - low = (n - low) + 1 := by omega
      rw [stars_succ, List.cons_append] at hnone ⊢
      rw [scan_none hnone, ih (by omega) fun j hj hle => h j hj (by omega), hsucc]
      rfl

theorem replaceAll_stars {α : Type} {find : List Char → Option (α × Nat)}
    {replacement : α → List Char} {n low : Nat} {rest : List Char} (hlow : low ≤ n)
    (h : ∀ j, low < j → j ≤ n → find (stars j ++ rest) = none) :
    replaceAll find replacement (stars n ++ rest) =
      stars (n - low) ++ replaceAll find replacement (stars low ++ rest) := by
  unfold replaceAll
  rw [scan_stars hlow h, List.flatMap_append, List.flatMap_map]
  congr 1
  exact List.flatMap_singleton' _

theorem replaceBold_spell (h : Spelled s segments) :
    replaceAll boldAt (element "strong") (spell m s segments) = bolded m s segments := by
  induction segments generalizing m s with
  | nil =>
    unfold spell bolded
    rw [replaceAll_stars (Nat.zero_le m) fun j _ _ => boldAt_end h j]
    have hplain : replaceAll boldAt (element "strong") (s ++ []) =
        s ++ replaceAll boldAt (element "strong") [] := replaceAll_plain boldAt_plain h
    rw [List.append_nil, replaceAll_nil, List.append_nil] at hplain
    rw [stars_zero, List.nil_append, hplain, Nat.sub_zero]
  | cons segment segments ih =>
    obtain ⟨k, t⟩ := segment
    have hplace := boldAt_spell h
    obtain ⟨hs, hne, hk, hspelled⟩ := h
    unfold spell bolded
    split
    next htwo =>
      have hlow (j : Nat) (hj : 2 < j) : boldAt (stars j ++ (s ++ spell k t segments)) = none := by
        rw [hplace, if_neg (by omega)]
      rw [replaceAll_stars htwo.1 fun j hj _ => hlow j hj]
      congr 1
      have hclosed : spell k t segments = '*' :: '*' :: spell (k - 2) t segments := by
        obtain ⟨j, rfl⟩ := Nat.exists_eq_add_of_le' htwo.2
        cases segments <;> rfl
      rw [hclosed, ← ih (m := k - 2) hspelled]
      exact replaceBold_run hs hne
    next htwo =>
      rw [replaceAll_stars (Nat.zero_le m) fun j _ hle => by rw [hplace, if_neg (by omega)]]
      rw [stars_zero, List.nil_append, replaceAll_plain boldAt_plain hs, ih hspelled, Nat.sub_zero]

/-- Which bold runs there are depends on the stars alone. -/
theorem spent_iff (h : Spelled s segments) :
    spent m (segments.map Prod.fst) ↔ '*' ∉ bolded m s segments := by
  have hstars (n : Nat) : '*' ∈ stars n ↔ n ≠ 0 := by simp [stars]
  induction segments generalizing m s with
  | nil => simp [spent, bolded, hstars, h.starFree]
  | cons segment segments ih =>
    obtain ⟨k, t⟩ := segment
    obtain ⟨hs, hne, hk, hspelled⟩ := h
    simp only [List.map_cons, spent, bolded]
    split
    next htwo =>
      have hstrong : '*' ∉ element "strong" s := by simp [element, hs]
      simp only [Bool.and_eq_true, decide_eq_true_iff, List.mem_append, hstars, not_or, hstrong,
        not_false_iff, true_and, ← ih hspelled]
      exact and_congr_left fun _ => by omega
    next htwo =>
      simp only [Bool.and_eq_true, decide_eq_true_iff, List.mem_append, hstars, not_or, hs,
        not_false_iff, true_and, ← ih hspelled]
      exact and_congr_left fun _ => by omega

theorem replaceItalic_starFree {text : List Char} (h : '*' ∉ text) (n : Nat) :
    replaceAll italicAt (element "em") (stars n ++ text) = stars n ++ text := by
  have hplain : replaceAll italicAt (element "em") (text ++ []) =
      text ++ replaceAll italicAt (element "em") [] := replaceAll_plain italicAt_plain h
  rw [List.append_nil, replaceAll_nil, List.append_nil] at hplain
  rw [replaceAll_stars (Nat.zero_le n) fun j _ _ => italicAt_end h j]
  rw [stars_zero, List.nil_append, hplain, Nat.sub_zero]

/-- The last of some stars opens an italic that the next star closes. -/
theorem replaceItalic_stars {run rest : List Char} (hrun : '*' ∉ run) (hne : run ≠ [])
    (hm : 1 ≤ m) :
    replaceAll italicAt (element "em") (stars m ++ (run ++ '*' :: rest)) =
      stars (m - 1) ++ (element "em" run ++ replaceAll italicAt (element "em") rest) := by
  have hnone (j : Nat) (hj : 1 < j) : italicAt (stars j ++ (run ++ '*' :: rest)) = none := by
    obtain ⟨i, rfl⟩ := Nat.exists_eq_add_of_le' hj
    exact italicAt_two _
  rw [replaceAll_stars hm fun j hj _ => hnone j hj]
  congr 1
  exact replaceItalic_run hrun hne

/-- Of stars that could open a bold one can be taken, when what is left could still. -/
theorem bolded_pred (hk : 1 ≤ k)
    (hclear : ¬(k = 2 ∧ (segments.map Prod.fst).head?.any (2 ≤ ·))) :
    bolded k t segments = '*' :: bolded (k - 1) t segments := by
  cases segments with
  | nil =>
    show stars k ++ t = '*' :: (stars (k - 1) ++ t)
    rw [stars_pred hk]
    rfl
  | cons segment segments =>
    obtain ⟨j, u⟩ := segment
    simp only [List.map_cons, List.head?_cons, Option.any_some, decide_eq_true_iff] at hclear
    unfold bolded
    by_cases htwo : 2 ≤ k ∧ 2 ≤ j
    · have hthree : k - 1 - 2 = k - 2 - 1 := by omega
      rw [if_pos htwo, if_pos (by omega), stars_pred (m := k - 2) (by omega), hthree]
      rfl
    · rw [if_neg htwo, if_neg (by omega), stars_pred hk]
      rfl

/-- Two passes make of a text what one scan makes of it, exactly when its stars are
unambiguous. -/
theorem italic_bolded (h : Spelled s segments) :
    replaceAll italicAt (element "em") (bolded m s segments) = scanned m s segments ↔
      unambiguous m (segments.map Prod.fst) := by
  induction segments generalizing m s with
  | nil => exact iff_of_true (replaceItalic_starFree h m) rfl
  | cons segment segments ih =>
    obtain ⟨k, t⟩ := segment
    obtain ⟨hs, hne, hk, hspelled⟩ := h
    have hstrong (u : List Char) (hu : '*' ∉ u) : '*' ∉ element "strong" u := by
      simp [element, hu]
    simp only [List.map_cons, unambiguous]
    by_cases hzero : m = 0
    · subst hzero
      have hbolded : bolded 0 s ((k, t) :: segments) = s ++ bolded k t segments := rfl
      have hscanned : scanned 0 s ((k, t) :: segments) = s ++ scanned k t segments := rfl
      rw [hbolded, hscanned, replaceAll_plain italicAt_plain hs, List.append_right_inj, ih hspelled,
        if_pos rfl]
    · rw [if_neg hzero, scanned, if_neg hzero, bolded]
      by_cases htwo : 2 ≤ m ∧ 2 ≤ k
      · rw [if_pos htwo, if_pos htwo, if_pos htwo]
        by_cases hm : m = 2
        · have hstart : stars (m - 2) = [] := by rw [hm]; rfl
          rw [hstart, List.nil_append, List.nil_append,
            replaceAll_plain italicAt_plain (hstrong s hs), List.append_right_inj, ih hspelled]
          simp [hm]
        · by_cases hstar : '*' ∈ bolded (k - 2) t segments
          · have hspent : spent (k - 2) (segments.map Prod.fst) = false := by
              rw [← Bool.not_eq_true, spent_iff hspelled]
              exact not_not.mpr hstar
            obtain ⟨run, rest, heq, hrun, hrest⟩ := starFree_split (bolded (k - 2) t segments)
            obtain rfl | ⟨tail, rfl⟩ := hrest
            · rw [List.append_nil] at heq
              exact absurd (heq ▸ hstar) hrun
            · have hbehind : '*' ∉ element "strong" s ++ run := by
                rw [List.mem_append]
                exact not_or.mpr ⟨hstrong s hs, hrun⟩
              rw [heq, ← List.append_assoc (element "strong" s),
                replaceItalic_stars hbehind (by simp [element]) (by omega)]
              refine iff_of_false (fun hsame => ?_) (by simp [hm, hspent])
              rw [stars_pred (m := m - 2) (by omega), List.cons_append] at hsame
              have hsplit : '*' :: (stars (m - 2 - 1) ++
                  (element "strong" s ++ scanned (k - 2) t segments)) = stars (m - 2 - 1) ++
                  '*' :: (element "strong" s ++ scanned (k - 2) t segments) := by
                rw [← List.cons_append, ← stars_succ, stars_snoc, List.append_assoc]
                rfl
              rw [hsplit, List.append_right_inj] at hsame
              exact absurd (List.cons.inj hsame).1 (by decide)
          · have hspent := (spent_iff hspelled).mpr hstar
            have hfree : '*' ∉ element "strong" s ++ bolded (k - 2) t segments := by
              rw [List.mem_append]
              exact not_or.mpr ⟨hstrong s hs, hstar⟩
            have hidentity := replaceItalic_starFree hstar 0
            rw [stars_zero, List.nil_append] at hidentity
            rw [replaceItalic_starFree hfree, List.append_right_inj, List.append_right_inj]
            have hinner := ih (m := k - 2) hspelled
            rw [hidentity] at hinner
            rw [hinner, hspent, Bool.or_true, Bool.true_and]
      · rw [if_neg htwo, if_neg htwo, if_neg htwo]
        by_cases hclear : k = 2 ∧ (segments.map Prod.fst).head?.any (2 ≤ ·)
        · obtain ⟨rfl, hnext⟩ := hclear
          have hone : m = 1 := by omega
          subst hone
          refine iff_of_false (fun hsame => ?_) (by rw [hnext]; simp)
          cases segments with
          | nil => cases hnext
          | cons segment segments =>
            obtain ⟨j, u⟩ := segment
            have hj : 2 ≤ j := by simpa using hnext
            have hstart : bolded 2 t ((j, u) :: segments) =
                element "strong" t ++ bolded (j - 2) u segments := by
              rw [bolded, if_pos ⟨le_refl _, hj⟩]
              rfl
            rw [hstart] at hsame
            obtain ⟨run, rest, heq, hrun, hrest⟩ := starFree_split (bolded (j - 2) u segments)
            have hbehind : '*' ∉ s ++ (element "strong" t ++ run) := by
              simp only [List.mem_append, not_or]
              exact ⟨hs, hstrong t hspelled.starFree, hrun⟩
            obtain rfl | ⟨tail, rfl⟩ := hrest
            · rw [heq, List.append_nil, replaceItalic_starFree hbehind] at hsame
              exact absurd (List.cons.inj hsame).1 (by decide)
            · have hassoc : s ++ (element "strong" t ++ (run ++ '*' :: tail)) =
                  (s ++ (element "strong" t ++ run)) ++ '*' :: tail := by simp
              rw [heq, hassoc, replaceItalic_stars hbehind (by simp [element]) (le_refl _)] at hsame
              simp [element] at hsame
        · rw [bolded_pred hk hclear, replaceItalic_stars hs hne (by omega), List.append_right_inj,
            List.append_right_inj, ih hspelled]
          rw [Bool.and_eq_true, Bool.not_eq_true', Bool.and_eq_false_iff]
          refine (and_iff_right ?_).symm
          by_cases hk2 : k = 2
          · exact .inr (Bool.eq_false_iff.mpr fun hany => hclear ⟨hk2, hany⟩)
          · exact .inl (decide_eq_false hk2)

end Passes

section Scan

variable {m k : Nat} {s t text : List Char} {segments : List (Nat × List Char)}

/-- A place of a scan, written as markup. -/
def shown : Char ⊕ InlineSpan → List Char
  | .inl c => escape c
  | .inr span => span.toHtml

theorem spansToHtml_collect (pending : List Char) (found : List (Char ⊕ InlineSpan)) :
    spansToHtml (collect pending found) = esc pending ++ found.flatMap shown := by
  have hempty : esc [] = [] := rfl
  induction found generalizing pending with
  | nil =>
    unfold collect
    split
    next hnil => simp [hnil, spansToHtml, hempty]
    next => simp [spansToHtml, InlineSpan.toHtml]
  | cons place found ih =>
    cases place with
    | inl c =>
      rw [collect, ih]
      simp [esc, shown]
    | inr span =>
      have htail : spansToHtml (collect [] found) = found.flatMap shown := by
        rw [ih, hempty, List.nil_append]
      unfold collect
      split
      next hnil =>
        rw [hnil, hempty, List.flatMap_cons, ← htail]
        rfl
      next =>
        rw [List.flatMap_cons, ← htail]
        rfl

theorem spansToHtml_parseInline (text : List Char) :
    spansToHtml (parseInline text) = (scan spanAt 0 text).flatMap shown := by
  have hcollect := spansToHtml_collect [] (scan spanAt 0 text)
  unfold parseInline
  dsimp only
  split
  next hnil =>
    rw [hnil] at hcollect
    exact hcollect
  next => exact hcollect

theorem spanAt_plain (c : Char) (text : List Char) (h : c ≠ '*') : spanAt (c :: text) = none := by
  unfold spanAt
  rw [boldAt_plain c text h, italicAt_plain c text h]
  rfl

theorem spanAt_end (hs : '*' ∉ s) (n : Nat) : spanAt (stars n ++ s) = none := by
  unfold spanAt
  rw [boldAt_end hs, italicAt_end hs]
  rfl

theorem italicAt_spell (h : Spelled s ((k, t) :: segments)) (n : Nat) :
    italicAt (stars n ++ (s ++ spell k t segments)) =
      if n = 1 then some (s, s.length + 2) else none := by
  obtain ⟨hs, hne, hk, hspelled⟩ := h
  obtain ⟨c, tail, hhead, hc⟩ := head_of_starFree hs hne
  match n with
  | 0 =>
    rw [if_neg (by omega), hhead]
    exact italicAt_plain c _ hc
  | 1 =>
    have hnext : ∃ tail, spell k t segments = '*' :: tail := spell_head hk
    obtain ⟨rest, hrest⟩ := hnext
    rw [if_pos rfl, hrest]
    exact italicAt_run hs hne
  | n + 2 =>
    rw [if_neg (by omega)]
    exact italicAt_two _

theorem spanAt_spell (h : Spelled s ((k, t) :: segments)) (n : Nat) :
    spanAt (stars n ++ (s ++ spell k t segments)) =
      if n = 2 ∧ 2 ≤ k then some (.bold s, s.length + 4)
      else if n = 1 then some (.italic s, s.length + 2) else none := by
  unfold spanAt
  rw [boldAt_spell h, italicAt_spell h]
  by_cases htwo : n = 2 ∧ 2 ≤ k
  · rw [if_pos htwo, if_pos htwo]
  · rw [if_neg htwo, if_neg htwo]
    by_cases hone : n = 1
    · rw [if_pos hone, if_pos hone]
      rfl
    · rw [if_neg hone, if_neg hone]
      rfl

theorem flatMap_shown (text : List Char) :
    (text.map (Sum.inl (β := InlineSpan))).flatMap shown = esc text := by
  rw [List.flatMap_map]
  rfl

theorem esc_stars (n : Nat) : esc (stars n) = stars n := by
  induction n with
  | zero => rfl
  | succ n ih =>
    have hcons : esc (stars (n + 1)) = '*' :: esc (stars n) := rfl
    rw [hcons, ih]
    rfl

theorem esc_append (u v : List Char) : esc (u ++ v) = esc u ++ esc v := List.flatMap_append

/-- The runs, escaped. -/
def escaped (segments : List (Nat × List Char)) : List (Nat × List Char) :=
  segments.map fun segment => (segment.1, esc segment.2)

theorem esc_spell (m : Nat) (s : List Char) (segments : List (Nat × List Char)) :
    esc (spell m s segments) = spell m (esc s) (escaped segments) := by
  induction segments generalizing m s with
  | nil =>
    show esc (stars m ++ s) = stars m ++ esc s
    rw [esc_append, esc_stars]
  | cons segment segments ih =>
    obtain ⟨k, t⟩ := segment
    show esc (stars m ++ (s ++ spell k t segments)) =
      stars m ++ (esc s ++ spell k (esc t) (escaped segments))
    rw [esc_append, esc_append, esc_stars, ih]

theorem escape_star {c : Char} (h : '*' ∈ escape c) : c = '*' := by
  unfold escape at h
  have hliteral (text : String) (hno : text.toList.all (· ≠ '*')) : '*' ∉ text.toList :=
    fun hmem => absurd (List.all_eq_true.mp hno '*' hmem) (by decide)
  split at h
  next => exact absurd h (hliteral "&amp;" (by decide +kernel))
  next =>
    split at h
    next => exact absurd h (hliteral "&lt;" (by decide +kernel))
    next =>
      split at h
      next => exact absurd h (hliteral "&gt;" (by decide +kernel))
      next =>
        split at h
        next => exact absurd h (hliteral "&quot;" (by decide +kernel))
        next => exact (List.mem_singleton.mp h).symm

theorem escape_ne_nil (c : Char) : escape c ≠ [] := by
  unfold escape
  split
  next => decide +kernel
  next =>
    split
    next => decide +kernel
    next =>
      split
      next => decide +kernel
      next =>
        split
        next => decide +kernel
        next => exact List.cons_ne_nil c []

theorem esc_starFree (h : '*' ∉ s) : '*' ∉ esc s := by
  intro hmem
  obtain ⟨c, hc, hstar⟩ := List.mem_flatMap.mp hmem
  exact h (escape_star hstar ▸ hc)

theorem esc_ne_nil (h : s ≠ []) : esc s ≠ [] := by
  cases s with
  | nil => exact absurd rfl h
  | cons c s =>
    intro hnil
    exact escape_ne_nil c (List.append_eq_nil_iff.mp hnil).1

theorem spelled_escaped (h : Spelled s segments) : Spelled (esc s) (escaped segments) := by
  induction segments generalizing s with
  | nil => exact esc_starFree h
  | cons segment segments ih =>
    obtain ⟨hs, hne, hk, hspelled⟩ := h
    exact ⟨esc_starFree hs, esc_ne_nil hne, hk, ih hspelled⟩

/-- What the one scan makes of a spelled text, written as markup. -/
theorem shown_spell (h : Spelled s segments) :
    (scan spanAt 0 (spell m s segments)).flatMap shown = scanned m (esc s) (escaped segments) := by
  have hplain (run rest : List Char) (hrun : '*' ∉ run) :
      (scan spanAt 0 (run ++ rest)).flatMap shown =
        esc run ++ (scan spanAt 0 rest).flatMap shown := by
    rw [scan_plain spanAt_plain hrun, List.flatMap_append, flatMap_shown]
  induction segments generalizing m s with
  | nil =>
    show (scan spanAt 0 (stars m ++ s)).flatMap shown = stars m ++ esc s
    have hend := hplain s [] h
    rw [List.append_nil] at hend
    rw [scan_stars (Nat.zero_le m) fun j _ _ => spanAt_end h j, stars_zero, List.nil_append,
      List.flatMap_append, flatMap_shown, esc_stars, hend, Nat.sub_zero]
    simp [scan]
  | cons segment segments ih =>
    obtain ⟨k, t⟩ := segment
    have hplace := spanAt_spell h
    obtain ⟨hs, hne, hk, hspelled⟩ := h
    show (scan spanAt 0 (stars m ++ (s ++ spell k t segments))).flatMap shown = _
    have hescaped : escaped ((k, t) :: segments) = (k, esc t) :: escaped segments := rfl
    rw [hescaped, scanned]
    by_cases hzero : m = 0
    · rw [if_pos hzero, hzero, stars_zero, List.nil_append, hplain _ _ hs, ih hspelled]
    · rw [if_neg hzero]
      by_cases htwo : 2 ≤ m ∧ 2 ≤ k
      · have hnone (j : Nat) (hj : 2 < j) :
            spanAt (stars j ++ (s ++ spell k t segments)) = none := by
          rw [hplace, if_neg (by omega), if_neg (by omega)]
        have hstart := scan_stars htwo.1 fun j hj _ => hnone j hj
        have hfound := hplace 2
        have hclosed : spell k t segments = ['*', '*'] ++ spell (k - 2) t segments := by
          obtain ⟨j, rfl⟩ := Nat.exists_eq_add_of_le' htwo.2
          cases segments <;> rfl
        have hshape : stars 2 ++ (s ++ spell k t segments) =
            '*' :: ('*' :: s ++ ['*', '*']) ++ spell (k - 2) t segments := by
          rw [hclosed]
          simp [stars]
        rw [if_pos ⟨rfl, htwo.2⟩, hshape] at hfound
        rw [if_pos htwo, hstart, hshape, scan_match (by simpa using hfound), List.flatMap_append,
          flatMap_shown, esc_stars, List.flatMap_cons, ih hspelled]
        rfl
      · have hnone (j : Nat) (hj : 1 < j) (hle : j ≤ m) :
            spanAt (stars j ++ (s ++ spell k t segments)) = none := by
          rw [hplace, if_neg (by omega), if_neg (by omega)]
        have hpositive : 1 ≤ m := by omega
        have hstart := scan_stars hpositive hnone
        have hfound := hplace 1
        have hclosed : spell k t segments = ['*'] ++ spell (k - 1) t segments := by
          obtain ⟨j, rfl⟩ := Nat.exists_eq_add_of_le' hk
          cases segments <;> rfl
        have hshape : stars 1 ++ (s ++ spell k t segments) =
            '*' :: (s ++ ['*']) ++ spell (k - 1) t segments := by
          rw [hclosed]
          simp [stars]
        rw [if_neg (by omega), if_pos rfl, hshape] at hfound
        rw [if_neg htwo, hstart, hshape, scan_match (by simpa using hfound), List.flatMap_append,
          flatMap_shown, esc_stars, List.flatMap_cons, ih hspelled]
        rfl

/-- A text is formatted as its spans are shown, exactly when its stars are unambiguous. -/
theorem inlineFormat_eq_iff (text : List Char) :
    inlineFormat text = spansToHtml (parseInline text) ↔ unambiguous 0 (starRuns text) := by
  obtain ⟨m, s, segments, rfl, hspelled⟩ := spell_exists text
  have hescaped := spelled_escaped hspelled
  have hruns : (escaped segments).map Prod.fst = segments.map Prod.fst := by
    unfold escaped
    rw [List.map_map]
    rfl
  rw [spansToHtml_parseInline, shown_spell hspelled, inlineFormat, esc_spell,
    replaceBold_spell hescaped, italic_bolded hescaped, hruns, unambiguous_starRuns hspelled]

end Scan

section Tags

variable {m : Nat} {s text rest : List Char} {segments : List (Nat × List Char)}

/-- A text on one line whose every `<` begins a tag of emphasis. -/
inductive Tagged : List Char → Prop where
  | nil : Tagged []
  | plain (c : Char) (rest : List Char) (less : c ≠ '<') (newline : c ≠ '\n')
      (after : Tagged rest) : Tagged (c :: rest)
  | tag (c : Char) (rest : List Char) (known : c = 's' ∨ c = 'e' ∨ c = '/')
      (after : Tagged rest) : Tagged ('<' :: c :: rest)

theorem Tagged.append (h : Tagged text) (hrest : Tagged rest) : Tagged (text ++ rest) := by
  induction h with
  | nil => exact hrest
  | plain c text hless hnewline _ ih => exact .plain c _ hless hnewline ih
  | tag c text hknown _ ih => exact .tag c _ hknown ih

theorem Tagged.ofPlain (h : ∀ c ∈ text, c ≠ '<' ∧ c ≠ '\n') : Tagged text := by
  induction text with
  | nil => exact .nil
  | cons c text ih =>
    have hc := h c List.mem_cons_self
    exact .plain c text hc.1 hc.2 (ih fun d hd => h d (List.mem_cons_of_mem c hd))

theorem Tagged.ofWord (word : String) (h : word.toList.all fun c => c ≠ '<' && c ≠ '\n') :
    Tagged word.toList := by
  refine .ofPlain fun c hc => ?_
  have hplain := List.all_eq_true.mp h c hc
  simpa using hplain

theorem Tagged.strong (h : Tagged text) : Tagged (element "strong" text) := by
  have hopen : Tagged "<strong>".toList :=
    .tag 's' _ (.inl rfl) (.ofWord "trong>" (by decide +kernel))
  have hclose : Tagged "</strong>".toList :=
    .tag '/' _ (.inr (.inr rfl)) (.ofWord "strong>" (by decide +kernel))
  have heq : element "strong" text = "<strong>".toList ++ (text ++ "</strong>".toList) := by
    simp [element]
  rw [heq]
  exact hopen.append (h.append hclose)

theorem Tagged.em (h : Tagged text) : Tagged (element "em" text) := by
  have hopen : Tagged "<em>".toList :=
    .tag 'e' _ (.inr (.inl rfl)) (.ofWord "m>" (by decide +kernel))
  have hclose : Tagged "</em>".toList :=
    .tag '/' _ (.inr (.inr rfl)) (.ofWord "em>" (by decide +kernel))
  have heq : element "em" text = "<em>".toList ++ (text ++ "</em>".toList) := by simp [element]
  rw [heq]
  exact hopen.append (h.append hclose)

theorem Tagged.stars (n : Nat) : Tagged (stars n) := by
  refine .ofPlain fun c hc => ?_
  rw [(List.mem_replicate.mp hc).2]
  decide

/-- Such a text can be cut at a star. -/
theorem Tagged.split (h : Tagged (text ++ '*' :: rest)) : Tagged text ∧ Tagged rest := by
  have hcut (n : Nat) (text : List Char) (hn : text.length ≤ n)
      (h : Tagged (text ++ '*' :: rest)) : Tagged text ∧ Tagged rest := by
    induction n generalizing text with
    | zero =>
      rw [List.length_eq_zero_iff.mp (Nat.le_zero.mp hn)] at h ⊢
      cases h with
      | plain _ _ _ _ after => exact ⟨.nil, after⟩
    | succ n ih =>
      cases text with
      | nil =>
        cases h with
        | plain _ _ _ _ after => exact ⟨.nil, after⟩
      | cons c text =>
        have hlength : text.length ≤ n := by simpa using hn
        generalize hwhole : c :: text ++ '*' :: rest = whole at h
        cases h with
        | nil => cases hwhole
        | plain d tail hless hnewline after =>
          obtain ⟨rfl, rfl⟩ := List.cons.inj hwhole
          obtain ⟨hleft, hright⟩ := ih text hlength after
          exact ⟨.plain c text hless hnewline hleft, hright⟩
        | tag d tail hknown after =>
          obtain ⟨rfl, htail⟩ := List.cons.inj hwhole
          cases text with
          | nil =>
            obtain ⟨rfl, -⟩ := List.cons.inj htail
            exact absurd hknown (by decide)
          | cons d' text =>
            obtain ⟨rfl, rfl⟩ := List.cons.inj htail
            have hshorter : text.length ≤ n := by
              simp only [List.length_cons] at hlength
              omega
            obtain ⟨hleft, hright⟩ := ih text hshorter after
            exact ⟨.tag d' text hknown hleft, hright⟩
  exact hcut _ text (le_refl _) h

theorem Tagged.newlineFree (h : Tagged text) : '\n' ∉ text := by
  induction h with
  | nil => exact List.not_mem_nil
  | plain c text _ hnewline _ ih => exact List.not_mem_cons_of_ne_of_not_mem (Ne.symm hnewline) ih
  | tag c text hknown _ ih =>
    have hc : '\n' ≠ c := by rcases hknown with rfl | rfl | rfl <;> decide
    exact List.not_mem_cons_of_ne_of_not_mem (by decide)
      (List.not_mem_cons_of_ne_of_not_mem hc ih)

/-- A line break shows where such a text ends. -/
theorem Tagged.cancel_break {other more more' : List Char} (h : Tagged text)
    (hother : Tagged other)
    (heq : text ++ '<' :: 'b' :: more = other ++ '<' :: 'b' :: more') :
    text = other ∧ more = more' := by
  induction h generalizing other with
  | nil =>
    cases hother with
    | nil => exact ⟨rfl, (List.cons.inj (List.cons.inj heq).2).2⟩
    | plain c rest hless _ _ => exact absurd (List.cons.inj heq).1.symm hless
    | tag c rest hknown _ =>
      have hc : 'b' = c := (List.cons.inj (List.cons.inj heq).2).1
      subst hc
      exact absurd hknown (by decide)
  | plain c text hless hnewline _ ih =>
    cases hother with
    | nil => exact absurd (List.cons.inj heq).1 hless
    | plain d rest _ _ after =>
      obtain ⟨rfl, htail⟩ := List.cons.inj heq
      obtain ⟨rfl, hmore⟩ := ih after htail
      exact ⟨rfl, hmore⟩
    | tag d rest _ _ => exact absurd (List.cons.inj heq).1 hless
  | tag c text hknown _ ih =>
    cases hother with
    | nil =>
      have hc : c = 'b' := (List.cons.inj (List.cons.inj heq).2).1
      subst hc
      exact absurd hknown (by decide)
    | plain d rest hless _ _ => exact absurd (List.cons.inj heq).1.symm hless
    | tag d rest _ after =>
      obtain ⟨rfl, htail⟩ := List.cons.inj (List.cons.inj heq).2
      obtain ⟨rfl, hmore⟩ := ih after htail
      exact ⟨rfl, hmore⟩

theorem tagged_esc (h : '\n' ∉ text) : Tagged (esc text) := by
  refine .ofPlain fun c hc => ?_
  obtain ⟨d, hd, hmem⟩ := List.mem_flatMap.mp hc
  have hliteral (word : String) (hno : word.toList.all fun c => c ≠ '<' && c ≠ '\n')
      (hc : c ∈ word.toList) : c ≠ '<' ∧ c ≠ '\n' := by
    have hall := List.all_eq_true.mp hno c hc
    simpa using hall
  unfold escape at hmem
  split at hmem
  next => exact hliteral "&amp;" (by decide +kernel) hmem
  next =>
    split at hmem
    next => exact hliteral "&lt;" (by decide +kernel) hmem
    next hless =>
      split at hmem
      next => exact hliteral "&gt;" (by decide +kernel) hmem
      next =>
        split at hmem
        next => exact hliteral "&quot;" (by decide +kernel) hmem
        next =>
          rw [List.mem_singleton.mp hmem]
          exact ⟨hless, fun hnewline => h (hnewline ▸ hd)⟩

/-- The runs of such a text are such texts. -/
theorem Tagged.runs (h : Tagged (spell m s segments)) (hspelled : Spelled s segments) :
    Tagged s ∧ ∀ segment ∈ segments, Tagged segment.2 := by
  have hpeel (n : Nat) (text : List Char) (h : Tagged (Legal.stars n ++ text)) : Tagged text := by
    induction n with
    | zero => exact h
    | succ n ih =>
      cases h with
      | plain _ _ _ _ after => exact ih after
  induction segments generalizing m s with
  | nil => exact ⟨hpeel m s h, fun _ hmem => by cases hmem⟩
  | cons segment segments ih =>
    obtain ⟨k, t⟩ := segment
    obtain ⟨-, -, hk, hrest⟩ := hspelled
    have hbehind := hpeel m _ h
    have hclosed : spell k t segments = '*' :: spell (k - 1) t segments := by
      obtain ⟨j, rfl⟩ := Nat.exists_eq_add_of_le' hk
      cases segments <;> rfl
    rw [hclosed] at hbehind
    obtain ⟨hs, htail⟩ := hbehind.split
    obtain ⟨ht, hsegments⟩ := ih htail hrest
    refine ⟨hs, fun segment hmem => ?_⟩
    rcases List.mem_cons.mp hmem with rfl | hmem
    · exact ht
    · exact hsegments segment hmem

theorem tagged_bolded (hs : Tagged s) (h : ∀ segment ∈ segments, Tagged segment.2) :
    Tagged (bolded m s segments) := by
  induction segments generalizing m s with
  | nil => exact (Tagged.stars m).append hs
  | cons segment segments ih =>
    obtain ⟨k, t⟩ := segment
    have htail (j : Nat) : Tagged (bolded j t segments) :=
      ih (h (k, t) List.mem_cons_self) fun other hmem => h other (List.mem_cons_of_mem _ hmem)
    unfold bolded
    split
    next => exact (Tagged.stars _).append (hs.strong.append (htail _))
    next => exact (Tagged.stars _).append (hs.append (htail _))

theorem tagged_scanned (hs : Tagged s) (h : ∀ segment ∈ segments, Tagged segment.2) :
    Tagged (scanned m s segments) := by
  induction segments generalizing m s with
  | nil => exact (Tagged.stars m).append hs
  | cons segment segments ih =>
    obtain ⟨k, t⟩ := segment
    have htail (j : Nat) : Tagged (scanned j t segments) :=
      ih (h (k, t) List.mem_cons_self) fun other hmem => h other (List.mem_cons_of_mem _ hmem)
    unfold scanned
    split
    next => exact hs.append (htail _)
    next =>
      split
      next => exact (Tagged.stars _).append (hs.strong.append (htail _))
      next => exact (Tagged.stars _).append (hs.em.append (htail _))

/-- The italic pass keeps a text so. -/
theorem tagged_italic (n : Nat) (hn : text.length ≤ n) (h : Tagged text) :
    Tagged (replaceAll italicAt (element "em") text) := by
  induction n generalizing text with
  | zero =>
    rw [List.length_eq_zero_iff.mp (Nat.le_zero.mp hn)]
    exact .nil
  | succ n ih =>
    obtain ⟨before, rest, rfl, hbefore, hrest⟩ := starFree_split text
    rw [replaceAll_plain italicAt_plain hbefore]
    rcases hrest with rfl | ⟨tail, rfl⟩
    · rw [List.append_nil] at h
      exact h.append .nil
    · obtain ⟨hleft, hright⟩ := h.split
      have hlength : tail.length ≤ n := by
        simp only [List.length_append, List.length_cons] at hn
        omega
      refine hleft.append ?_
      cases hfind : italicAt ('*' :: tail) with
      | none =>
        rw [replaceAll_none hfind]
        exact .plain '*' _ (by decide) (by decide) (ih hlength hright)
      | some found =>
        obtain ⟨run, length⟩ := found
        obtain ⟨behind, heq, hrun, hne, -⟩ := italicAt_some hfind
        have htail : tail = run ++ '*' :: behind := (List.cons.inj heq).2
        rw [htail] at hright hlength
        obtain ⟨hinside, hbehind⟩ := hright.split
        rw [heq, replaceItalic_run hrun hne]
        refine hinside.em.append (ih ?_ hbehind)
        simp only [List.length_append, List.length_cons] at hlength
        omega

theorem tagged_inlineFormat (h : '\n' ∉ text) : Tagged (inlineFormat text) := by
  have hesc := tagged_esc h
  obtain ⟨m, s, segments, rfl, hspelled⟩ := spell_exists text
  have hescaped := spelled_escaped hspelled
  rw [esc_spell] at hesc
  obtain ⟨hs, hsegments⟩ := hesc.runs hescaped
  have hbold := tagged_bolded (m := m) hs hsegments
  rw [← replaceBold_spell hescaped, ← esc_spell] at hbold
  exact tagged_italic _ (le_refl _) hbold

theorem tagged_spans (h : '\n' ∉ text) : Tagged (spansToHtml (parseInline text)) := by
  have hesc := tagged_esc h
  obtain ⟨m, s, segments, rfl, hspelled⟩ := spell_exists text
  have hescaped := spelled_escaped hspelled
  rw [esc_spell] at hesc
  obtain ⟨hs, hsegments⟩ := hesc.runs hescaped
  rw [spansToHtml_parseInline, shown_spell hspelled]
  exact tagged_scanned hs hsegments

end Tags

end CarSalePro.Legal
