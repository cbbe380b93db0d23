import CarSalePro.Legal.Emphasis

namespace CarSalePro.Legal

section Runs

def stars (n : Nat) : List Char := List.replicate n '*'

/-- The lengths of the runs of stars in a text, after `open` stars. -/
def starRunsFrom (before : Nat) : List Char → List Nat
  | [] => if before = 0 then [] else [before]
  | c :: text =>
    if c = '*' then starRunsFrom (before + 1) text
    else if before = 0 then starRunsFrom 0 text
    else before :: starRunsFrom 0 text

def starRuns (text : List Char) : List Nat := starRunsFrom 0 text

/-- The bold pass leaves no star, of `m` stars and the runs behind them. -/
def spent : Nat → List Nat → Bool
  | m, [] => m = 0
  | m, k :: runs => if 2 ≤ m ∧ 2 ≤ k then m = 2 && spent (k - 2) runs else m = 0 && spent k runs

/-- Two passes and one scan read the same emphasis, of `m` stars and the runs behind them: no bold
is opened by the last of more stars while a star behind it stays unpaired, and no two stars that
close an italic could open a bold. -/
def unambiguous : Nat → List Nat → Bool
  | _, [] => true
  | m, k :: runs =>
    if m = 0 then unambiguous k runs
    else if 2 ≤ m ∧ 2 ≤ k then (m = 2 || spent (k - 2) runs) && unambiguous (k - 2) runs
    else !(k = 2 && runs.head?.any (2 ≤ ·)) && unambiguous (k - 1) runs

end Runs

section Spelling

variable {m k : Nat} {s t text rest : List Char} {segments : List (Nat × List Char)}

/-- A text as `m` stars and a run, and more stars and runs behind them. -/
def spell (m : Nat) (s : List Char) : List (Nat × List Char) → List Char
  | [] => stars m ++ s
  | (k, t) :: segments => stars m ++ (s ++ spell k t segments)

/-- Runs without stars, and stars between any two of them. -/
def Spelled (s : List Char) : List (Nat × List Char) → Prop
  | [] => '*' ∉ s
  | (k, t) :: segments => '*' ∉ s ∧ s ≠ [] ∧ 1 ≤ k ∧ Spelled t segments

theorem Spelled.starFree (h : Spelled s segments) : '*' ∉ s := by
  cases segments with
  | nil => exact h
  | cons segment segments => exact h.1

@[simp] theorem stars_zero : stars 0 = [] := rfl

@[simp] theorem stars_succ (n : Nat) : stars (n + 1) = '*' :: stars n := rfl

theorem stars_pred (h : 1 ≤ m) : stars m = '*' :: stars (m - 1) := by
  cases m with
  | zero => omega
  | succ m => rfl

theorem stars_snoc (n : Nat) : stars (n + 1) = stars n ++ ['*'] := List.replicate_succ'

/-- Every text is spelled so. -/
theorem spell_exists (text : List Char) : ∃ m s segments, text = spell m s segments ∧
    Spelled s segments := by
  induction text with
  | nil => exact ⟨0, [], [], rfl, List.not_mem_nil⟩
  | cons c text ih =>
    obtain ⟨m, s, segments, rfl, hspelled⟩ := ih
    by_cases hc : c = '*'
    · subst hc
      refine ⟨m + 1, s, segments, ?_, hspelled⟩
      cases segments <;> rfl
    · have hcons : '*' ∉ c :: s := List.not_mem_cons_of_ne_of_not_mem (Ne.symm hc) hspelled.starFree
      cases m with
      | zero =>
        refine ⟨0, c :: s, segments, ?_, ?_⟩
        · cases segments <;> rfl
        · cases segments with
          | nil => exact hcons
          | cons segment segments =>
            exact ⟨hcons, List.cons_ne_nil c s, hspelled.2.2⟩
      | succ m =>
        have hsingle : '*' ∉ [c] := List.not_mem_cons_of_ne_of_not_mem (Ne.symm hc) List.not_mem_nil
        exact ⟨0, [c], (m + 1, s) :: segments, rfl, hsingle, List.cons_ne_nil c [], by omega,
          hspelled⟩

theorem starRunsFrom_stars (n m : Nat) (text : List Char) :
    starRunsFrom n (stars m ++ text) = starRunsFrom (n + m) text := by
  induction m generalizing n with
  | zero => rfl
  | succ m ih =>
    rw [stars_succ, List.cons_append, starRunsFrom, if_pos rfl, ih]
    congr 1
    omega

theorem starRunsFrom_run (hs : '*' ∉ s) :
    starRunsFrom 0 (s ++ text) = starRunsFrom 0 text := by
  induction s with
  | nil => rfl
  | cons c s ih =>
    have hc : c ≠ '*' := Ne.symm (List.ne_of_not_mem_cons hs)
    rw [List.cons_append, starRunsFrom, if_neg hc, if_pos rfl,
      ih (List.not_mem_of_not_mem_cons hs)]

/-- The runs of a text are the ones it is spelled with. -/
theorem unambiguous_starRuns (h : Spelled s segments) :
    unambiguous 0 (starRuns (spell m s segments)) = unambiguous m (segments.map Prod.fst) := by
  have hruns (m : Nat) (s : List Char) (segments : List (Nat × List Char))
      (h : Spelled s segments) : starRuns (spell m s segments) =
        if m = 0 then segments.map Prod.fst else m :: segments.map Prod.fst := by
    induction segments generalizing m s with
    | nil =>
      unfold starRuns spell
      rw [starRunsFrom_stars, Nat.zero_add]
      cases s with
      | nil => rfl
      | cons c s =>
        have hc : c ≠ '*' := Ne.symm (List.ne_of_not_mem_cons h)
        have htail : starRunsFrom 0 s = [] := by
          have hrun : starRunsFrom 0 (s ++ []) = starRunsFrom 0 [] :=
            starRunsFrom_run (List.not_mem_of_not_mem_cons h)
          rwa [List.append_nil] at hrun
        rw [starRunsFrom, if_neg hc, htail]
        rfl
    | cons segment segments ih =>
      obtain ⟨k, t⟩ := segment
      obtain ⟨hs, hne, hk, hspelled⟩ := h
      have hinner := ih k t hspelled
      rw [if_neg (by omega)] at hinner
      unfold starRuns spell
      rw [starRunsFrom_stars, Nat.zero_add]
      cases s with
      | nil => exact absurd rfl hne
      | cons c s =>
        have hc : c ≠ '*' := Ne.symm (List.ne_of_not_mem_cons hs)
        rw [List.cons_append, starRunsFrom, if_neg hc,
          starRunsFrom_run (List.not_mem_of_not_mem_cons hs)]
        have hinner' : starRunsFrom 0 (spell k t segments) = k :: segments.map Prod.fst := hinner
        rw [hinner']
        rfl
  rw [hruns m s segments h]
  by_cases hm : m = 0
  · rw [if_pos hm, hm]
  · rw [if_neg hm]
    simp [unambiguous]

end Spelling

section Places

variable {m k : Nat} {s t rest : List Char} {segments : List (Nat × List Char)}

theorem head_of_starFree (hs : '*' ∉ s) (hne : s ≠ []) : ∃ c tail, s = c :: tail ∧ c ≠ '*' := by
  cases s with
  | nil => exact absurd rfl hne
  | cons c tail => exact ⟨c, tail, rfl, Ne.symm (List.ne_of_not_mem_cons hs)⟩

/-- What follows a run of a text: stars, or nothing. -/
theorem spell_head (h : 1 ≤ k) : ∃ tail, spell k t segments = '*' :: tail := by
  rw [← Nat.sub_add_cancel h]
  cases segments with
  | nil => exact ⟨stars (k - 1) ++ t, rfl⟩
  | cons segment segments =>
    exact ⟨stars (k - 1) ++ (t ++ spell segment.1 segment.2 segments), rfl⟩

/-- Three stars open no bold. -/
theorem boldAt_three (rest : List Char) : boldAt ('*' :: '*' :: '*' :: rest) = none := by
  have hrun : starFreeRun ([] ++ '*' :: rest) = ([], '*' :: rest) :=
    starFreeRun_eq List.not_mem_nil (.inr ⟨_, rfl⟩)
  rw [List.nil_append] at hrun
  simp only [boldAt, hrun]

theorem italicAt_two (rest : List Char) : italicAt ('*' :: '*' :: rest) = none := by
  have hrun : starFreeRun ([] ++ '*' :: rest) = ([], '*' :: rest) :=
    starFreeRun_eq List.not_mem_nil (.inr ⟨_, rfl⟩)
  rw [List.nil_append] at hrun
  simp only [italicAt, hrun]

/-- One star opens no bold. -/
theorem boldAt_one (h : rest = [] ∨ ∃ c tail, rest = c :: tail ∧ c ≠ '*') :
    boldAt ('*' :: rest) = none := by
  rcases h with rfl | ⟨c, tail, rfl, hc⟩
  · rfl
  · unfold boldAt
    split
    next heq => exact absurd (List.cons.inj (List.cons.inj heq).2).1 hc
    next => rfl

/-- Two stars open no bold that is not closed by two. -/
theorem boldAt_unclosed (hs : '*' ∉ s)
    (hrest : rest = [] ∨ ∃ tail, rest = '*' :: tail ∧ ∀ more, tail ≠ '*' :: more) :
    boldAt ('*' :: '*' :: (s ++ rest)) = none := by
  have hrun := starFreeRun_eq hs (hrest.imp_right fun ⟨tail, h, _⟩ => ⟨tail, h⟩)
  unfold boldAt
  simp only [hrun]
  split
  next => rfl
  next heq =>
    obtain ⟨-, rfl⟩ := Prod.mk.inj heq
    rcases hrest with hnil | ⟨tail, htail, hmore⟩
    · cases hnil
    · cases htail
      exact absurd rfl (hmore _)
  next => rfl

theorem italicAt_unclosed (hs : '*' ∉ s) : italicAt ('*' :: s) = none := by
  have hrun : starFreeRun (s ++ []) = (s, []) := starFreeRun_eq hs (.inl rfl)
  rw [List.append_nil] at hrun
  unfold italicAt
  simp only [hrun]
  split
  next => rfl
  next heq => cases (Prod.mk.inj heq).2
  next => rfl

/-- A bold opens at the last two of some stars, when two close it. -/
theorem boldAt_spell (h : Spelled s ((k, t) :: segments)) (n : Nat) :
    boldAt (stars n ++ (s ++ spell k t segments)) =
      if n = 2 ∧ 2 ≤ k then some (s, s.length + 4) else none := by
  obtain ⟨hs, hne, hk, hspelled⟩ := h
  obtain ⟨c, tail, hhead, hc⟩ := head_of_starFree hs hne
  match n with
  | 0 =>
    rw [if_neg (by omega), hhead]
    exact boldAt_plain c _ hc
  | 1 =>
    rw [if_neg (by omega)]
    exact boldAt_one (.inr ⟨c, tail ++ spell k t segments, by rw [hhead]; rfl, hc⟩)
  | 2 =>
    show boldAt ('*' :: '*' :: (s ++ spell k t segments)) = _
    by_cases htwo : 2 ≤ k
    · rw [if_pos ⟨rfl, htwo⟩]
      obtain ⟨j, rfl⟩ := Nat.exists_eq_add_of_le' htwo
      cases segments with
      | nil => exact boldAt_run hs hne
      | cons segment segments => exact boldAt_run hs hne
    · rw [if_neg (by omega)]
      have hone : k = 1 := by omega
      subst hone
      apply boldAt_unclosed hs
      right
      cases segments with
      | nil =>
        refine ⟨t, rfl, fun more heq => ?_⟩
        rw [heq] at hspelled
        exact hspelled List.mem_cons_self
      | cons segment segments =>
        obtain ⟨ht, htne, -⟩ := hspelled
        obtain ⟨d, tail', rfl, hd⟩ := head_of_starFree ht htne
        exact ⟨_, rfl, fun more heq => hd (List.cons.inj heq).1⟩
  | n + 3 =>
    rw [if_neg (by omega)]
    exact boldAt_three _

theorem boldAt_end (hs : '*' ∉ s) (n : Nat) : boldAt (stars n ++ s) = none := by
  match n with
  | 0 =>
    cases s with
    | nil => rfl
    | cons c s => exact boldAt_plain c s (Ne.symm (List.ne_of_not_mem_cons hs))
  | 1 =>
    apply boldAt_one
    cases s with
    | nil => exact .inl rfl
    | cons c s => exact .inr ⟨c, s, rfl, Ne.symm (List.ne_of_not_mem_cons hs)⟩
  | 2 =>
    have hunclosed : boldAt ('*' :: '*' :: (s ++ [])) = none := boldAt_unclosed hs (.inl rfl)
    rwa [List.append_nil] at hunclosed
  | n + 3 => exact boldAt_three _

theorem italicAt_end (hs : '*' ∉ s) (n : Nat) : italicAt (stars n ++ s) = none := by
  match n with
  | 0 =>
    cases s with
    | nil => rfl
    | cons c s => exact italicAt_plain c s (Ne.symm (List.ne_of_not_mem_cons hs))
  | 1 => exact italicAt_unclosed hs
  | n + 2 => exact italicAt_two _

end Places

end CarSalePro.Legal
