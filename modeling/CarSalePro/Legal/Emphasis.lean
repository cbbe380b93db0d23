import CarSalePro.Legal.Markdown

namespace CarSalePro.Legal

section Scans

variable {α : Type} {find : List Char → Option (α × Nat)} {replacement : α → List Char}
  {text rest run : List Char} {c : Char} {a : α} {n : Nat}

theorem scan_skip (find : List Char → Option (α × Nat)) (n : Nat) (text : List Char) :
    scan find n text = scan find 0 (text.drop n) := by
  induction text generalizing n with
  | nil => cases n <;> rfl
  | cons c text ih =>
    cases n with
    | zero => rfl
    | succ n => exact ih n

theorem scan_none (h : find (c :: text) = none) :
    scan find 0 (c :: text) = .inl c :: scan find 0 text := by
  simp only [scan, h]

/-- Behind a match the scan goes on. -/
theorem scan_match (h : find (c :: run ++ rest) = some (a, run.length + 1)) :
    scan find 0 (c :: run ++ rest) = .inr a :: scan find 0 rest := by
  have hdrop : (run ++ rest).drop run.length = rest := List.drop_left
  rw [List.cons_append] at h ⊢
  simp only [scan, h]
  rw [scan_skip, Nat.add_sub_cancel, hdrop]

@[simp] theorem replaceAll_nil : replaceAll find replacement [] = [] := rfl

theorem replaceAll_none (h : find (c :: text) = none) :
    replaceAll find replacement (c :: text) = c :: replaceAll find replacement text := by
  unfold replaceAll
  rw [scan_none h]
  rfl

theorem replaceAll_match (h : find (c :: run ++ rest) = some (a, run.length + 1)) :
    replaceAll find replacement (c :: run ++ rest) =
      replacement a ++ replaceAll find replacement rest := by
  unfold replaceAll
  rw [scan_match h]
  rfl

/-- A pattern that begins with a star finds nothing where there is none. -/
theorem scan_plain (hfind : ∀ c text, c ≠ '*' → find (c :: text) = none) (h : '*' ∉ run) :
    scan find 0 (run ++ rest) = run.map .inl ++ scan find 0 rest := by
  induction run with
  | nil => rfl
  | cons c run ih =>
    have hc : c ≠ '*' := Ne.symm (List.ne_of_not_mem_cons h)
    rw [List.cons_append, scan_none (hfind c _ hc), ih (List.not_mem_of_not_mem_cons h)]
    rfl

theorem replaceAll_plain (hfind : ∀ c text, c ≠ '*' → find (c :: text) = none)
    (h : '*' ∉ run) :
    replaceAll find replacement (run ++ rest) = run ++ replaceAll find replacement rest := by
  unfold replaceAll
  rw [scan_plain hfind h, List.flatMap_append]
  congr 1
  induction run with
  | nil => rfl
  | cons c run ih =>
    have htail := ih (List.not_mem_of_not_mem_cons h)
    simp only [List.map_cons, List.flatMap_cons, htail]
    rfl

end Scans

section Patterns

variable {text run rest : List Char} {n : Nat}

theorem starFreeRun_eq (hrun : '*' ∉ run) (hrest : rest = [] ∨ ∃ tail, rest = '*' :: tail) :
    starFreeRun (run ++ rest) = (run, rest) := by
  have hall : ∀ c ∈ run, (decide (c ≠ '*')) = true := by
    intro c hc
    rw [decide_eq_true_iff]
    rintro rfl
    exact hrun hc
  unfold starFreeRun
  rw [List.span_eq_takeWhile_dropWhile, List.takeWhile_append_of_pos hall,
    List.dropWhile_append_of_pos hall]
  rcases hrest with rfl | ⟨tail, rfl⟩ <;> simp

/-- Every text is a run without stars and what is behind it. -/
theorem starFree_split (text : List Char) : ∃ run rest, text = run ++ rest ∧ '*' ∉ run ∧
    (rest = [] ∨ ∃ tail, rest = '*' :: tail) := by
  induction text with
  | nil => exact ⟨[], [], rfl, List.not_mem_nil, .inl rfl⟩
  | cons c text ih =>
    by_cases hc : c = '*'
    · subst hc
      exact ⟨[], '*' :: text, rfl, List.not_mem_nil, .inr ⟨text, rfl⟩⟩
    · obtain ⟨run, rest, rfl, hrun, hrest⟩ := ih
      exact ⟨c :: run, rest, rfl, List.not_mem_cons_of_ne_of_not_mem (Ne.symm hc) hrun, hrest⟩

theorem boldAt_plain (c : Char) (text : List Char) (h : c ≠ '*') : boldAt (c :: text) = none := by
  unfold boldAt
  split
  next heq => exact absurd (List.cons.inj heq).1 h
  next => rfl

theorem italicAt_plain (c : Char) (text : List Char) (h : c ≠ '*') :
    italicAt (c :: text) = none := by
  unfold italicAt
  split
  next heq => exact absurd (List.cons.inj heq).1 h
  next => rfl

theorem boldAt_run (hrun : '*' ∉ run) (hne : run ≠ []) :
    boldAt ('*' :: '*' :: (run ++ '*' :: '*' :: rest)) = some (run, run.length + 4) := by
  cases run with
  | nil => exact absurd rfl hne
  | cons c run => simp only [boldAt, starFreeRun_eq hrun (.inr ⟨_, rfl⟩)]

theorem italicAt_run (hrun : '*' ∉ run) (hne : run ≠ []) :
    italicAt ('*' :: (run ++ '*' :: rest)) = some (run, run.length + 2) := by
  cases run with
  | nil => exact absurd rfl hne
  | cons c run => simp only [italicAt, starFreeRun_eq hrun (.inr ⟨_, rfl⟩)]

/-- What is bold stands between two stars and two stars. -/
theorem boldAt_some (h : boldAt text = some (run, n)) :
    ∃ rest, text = '*' :: '*' :: (run ++ '*' :: '*' :: rest) ∧ '*' ∉ run ∧ run ≠ [] ∧
      n = run.length + 4 := by
  unfold boldAt at h
  split at h
  next inner =>
    obtain ⟨run', rest, rfl, hrun, hrest⟩ := starFree_split inner
    rw [starFreeRun_eq hrun hrest] at h
    split at h
    next => cases h
    next found tail hne heq =>
      obtain ⟨rfl, rfl⟩ := Prod.mk.inj heq
      cases h
      exact ⟨tail, rfl, hrun, hne, rfl⟩
    next => cases h
  next => cases h

theorem italicAt_some (h : italicAt text = some (run, n)) :
    ∃ rest, text = '*' :: (run ++ '*' :: rest) ∧ '*' ∉ run ∧ run ≠ [] ∧ n = run.length + 2 := by
  unfold italicAt at h
  split at h
  next inner =>
    obtain ⟨run', rest, rfl, hrun, hrest⟩ := starFree_split inner
    rw [starFreeRun_eq hrun hrest] at h
    split at h
    next => cases h
    next found tail hne heq =>
      obtain ⟨rfl, rfl⟩ := Prod.mk.inj heq
      cases h
      exact ⟨tail, rfl, hrun, hne, rfl⟩
    next => cases h
  next => cases h

/-- The bold pass over a text it finds something in. -/
theorem replaceBold_run {replacement : List Char → List Char} (hrun : '*' ∉ run) (hne : run ≠ []) :
    replaceAll boldAt replacement ('*' :: '*' :: (run ++ '*' :: '*' :: rest)) =
      replacement run ++ replaceAll boldAt replacement rest := by
  have hfind : boldAt ('*' :: '*' :: (run ++ '*' :: '*' :: rest)) = some (run, run.length + 4) :=
    boldAt_run hrun hne
  have hshape : '*' :: '*' :: (run ++ '*' :: '*' :: rest) =
      '*' :: ('*' :: run ++ ['*', '*']) ++ rest := by simp
  rw [hshape] at hfind ⊢
  exact replaceAll_match (by simpa using hfind)

theorem replaceItalic_run {replacement : List Char → List Char} (hrun : '*' ∉ run)
    (hne : run ≠ []) :
    replaceAll italicAt replacement ('*' :: (run ++ '*' :: rest)) =
      replacement run ++ replaceAll italicAt replacement rest := by
  have hfind : italicAt ('*' :: (run ++ '*' :: rest)) = some (run, run.length + 2) :=
    italicAt_run hrun hne
  have hshape : '*' :: (run ++ '*' :: rest) = '*' :: (run ++ ['*']) ++ rest := by simp
  rw [hshape] at hfind ⊢
  exact replaceAll_match (by simpa using hfind)

end Patterns

end CarSalePro.Legal
