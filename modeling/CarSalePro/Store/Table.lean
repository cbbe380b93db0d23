import Mathlib.Data.List.Sort

namespace Store

/-- A database table: rows by key, and the keys in the order they were created. -/
structure Table (κ ν : Type) where
  get : κ → Option ν
  keys : List κ
  complete : ∀ k, (get k).isSome → k ∈ keys

namespace Table

variable {κ ν : Type}

section Queries

def empty : Table κ ν := ⟨fun _ => none, [], by simp⟩

/-- The rows that match, in creation order. -/
def findMany (t : Table κ ν) (p : κ → ν → Bool) : List (κ × ν) :=
  t.keys.filterMap fun k => (t.get k).bind fun v => if p k v then some (k, v) else none

def findFirst (t : Table κ ν) (p : κ → ν → Bool) : Option (κ × ν) := (t.findMany p).head?

/-- The last created row that matches. -/
def findLast (t : Table κ ν) (p : κ → ν → Bool) : Option (κ × ν) := (t.findMany p).getLast?

/-- The first `limit` of the matching rows, in the order `le`. -/
def findSorted (t : Table κ ν) (p : κ → ν → Bool) (le : ν → ν → Bool) (limit : Nat) :
    List (κ × ν) :=
  ((t.findMany p).insertionSort fun a b => le a.2 b.2).take limit

def any (t : Table κ ν) (p : κ → ν → Bool) : Bool := !(t.findMany p).isEmpty

/-- Rewrite every row for which `f` has a new value. -/
def rewrite (t : Table κ ν) (f : κ → ν → Option ν) : Table κ ν where
  get k := (t.get k).map fun v => (f k v).getD v
  keys := t.keys
  complete k h := t.complete k (by simpa using h)

/-- How many rows `rewrite` writes. -/
def hits (t : Table κ ν) (f : κ → ν → Option ν) : Nat :=
  (t.findMany fun k v => (f k v).isSome).length

/-- A key no row has. -/
def fresh (t : Table Nat ν) : Nat := t.keys.foldr max 0 + 1

/-- Delete every row that matches. -/
def deleteMany (t : Table κ ν) (p : κ → ν → Bool) : Table κ ν where
  get k := (t.get k).filter fun v => !p k v
  keys := t.keys
  complete k h := t.complete k (by
    cases hk : t.get k with
    | none => simp [hk] at h
    | some v => rfl)

@[simp] theorem get_empty (k : κ) : (empty : Table κ ν).get k = none := rfl

@[simp] theorem get_rewrite (t : Table κ ν) (f : κ → ν → Option ν) (k : κ) :
    (t.rewrite f).get k = (t.get k).map fun v => (f k v).getD v := rfl

@[simp] theorem get_deleteMany (t : Table κ ν) (p : κ → ν → Bool) (k : κ) :
    (t.deleteMany p).get k = (t.get k).filter fun v => !p k v := rfl

theorem fresh_not_mem (t : Table Nat ν) : t.fresh ∉ t.keys := by
  have hbound (ks : List Nat) (k : Nat) (hk : k ∈ ks) : k ≤ ks.foldr max 0 := by
    induction ks with
    | nil => cases hk
    | cons j ks ih =>
      rcases List.mem_cons.mp hk with rfl | hk
      · exact le_max_left _ _
      · exact (ih hk).trans (le_max_right _ _)
  intro hmem
  exact absurd (hbound t.keys t.fresh hmem) (Nat.not_le_of_lt (Nat.lt_succ_self _))

theorem get_fresh (t : Table Nat ν) : t.get t.fresh = none := by
  by_contra hne
  exact t.fresh_not_mem (t.complete _ (Option.isSome_iff_ne_none.mpr hne))

theorem mem_findMany {t : Table κ ν} {p : κ → ν → Bool} {k : κ} {v : ν} :
    (k, v) ∈ t.findMany p ↔ t.get k = some v ∧ p k v = true := by
  simp only [findMany, List.mem_filterMap]
  constructor
  · rintro ⟨k', _, h⟩
    obtain ⟨v', hv, h⟩ := Option.bind_eq_some_iff.mp h
    split at h
    next hp => cases h; exact ⟨hv, hp⟩
    next => cases h
  · rintro ⟨hv, hp⟩
    exact ⟨k, t.complete k (by simp [hv]), by simp [hv, hp]⟩

/-- To find and then filter is to find both. -/
theorem filter_findMany (t : Table κ ν) (p : κ → ν → Bool) (q : κ × ν → Bool) :
    (t.findMany p).filter q = t.findMany fun k v => p k v && q (k, v) := by
  unfold findMany
  rw [List.filter_filterMap]
  congr 1
  funext k
  cases t.get k with
  | none => rfl
  | some v =>
    by_cases hp : p k v = true
    · by_cases hq : q (k, v) = true <;> simp [hp, hq, Option.filter]
    · simp [hp]

/-- Conditions that agree on the rows there are find the same. -/
theorem findMany_congr {t : Table κ ν} {p q : κ → ν → Bool}
    (h : ∀ k v, t.get k = some v → p k v = q k v) : t.findMany p = t.findMany q := by
  unfold findMany
  congr 1
  funext k
  cases hk : t.get k with
  | none => rfl
  | some v => simp [h k v hk]

theorem length_findMany_lt {t : Table κ ν} {p q : κ → ν → Bool} {k : κ} {v : ν}
    (h : ∀ k v, t.get k = some v → p k v = true → q k v = true) (hk : t.get k = some v)
    (hp : p k v = false) (hq : q k v = true) :
    (t.findMany p).length < (t.findMany q).length := by
  have hboth : t.findMany p = (t.findMany q).filter fun r => p r.1 r.2 := by
    rw [filter_findMany]
    refine findMany_congr fun k v hk => ?_
    have himp := h k v hk
    revert himp
    cases p k v <;> cases q k v <;> simp
  rw [hboth]
  refine List.length_filter_lt_length_iff_exists.mpr ⟨(k, v), mem_findMany.mpr ⟨hk, hq⟩, ?_⟩
  simp [hp]

theorem mem_findSorted {t : Table κ ν} {p : κ → ν → Bool} {le : ν → ν → Bool} {limit : Nat}
    {k : κ} {v : ν} (h : (k, v) ∈ t.findSorted p le limit) : t.get k = some v ∧ p k v = true :=
  mem_findMany.mp ((List.mem_insertionSort _).mp (List.mem_of_mem_take h))

/-- The first of the sorted rows is a least one of those that match. -/
theorem findSorted_least {t : Table κ ν} {p : κ → ν → Bool} {le : ν → ν → Bool} {limit : Nat}
    {k k' : κ} {v v' : ν} {rest : List (κ × ν)} (htotal : ∀ a b, le a b = true ∨ le b a = true)
    (htrans : ∀ a b c, le a b = true → le b c = true → le a c = true)
    (h : t.findSorted p le limit = (k, v) :: rest) (hv : t.get k' = some v')
    (hp : p k' v' = true) : le v v' = true := by
  let r : κ × ν → κ × ν → Prop := fun a b => le a.2 b.2 = true
  have : Std.Total r := ⟨fun a b => htotal a.2 b.2⟩
  have : IsTrans (κ × ν) r := ⟨fun a b c => htrans a.2 b.2 c.2⟩
  have hsorted := List.pairwise_insertionSort r (t.findMany p)
  have hmem : (k', v') ∈ List.insertionSort r (t.findMany p) :=
    (List.mem_insertionSort r).mpr (mem_findMany.mpr ⟨hv, hp⟩)
  change (List.insertionSort r (t.findMany p)).take limit = (k, v) :: rest at h
  cases hl : List.insertionSort r (t.findMany p) with
  | nil =>
    rw [hl] at hmem
    cases hmem
  | cons a l =>
    have ha : a = (k, v) := by
      rw [hl] at h
      cases limit with
      | zero => cases h
      | succ n => exact (List.cons.inj h).1
    rw [hl, ha] at hsorted hmem
    rcases List.mem_cons.mp hmem with heq | hmem
    · cases heq
      rcases htotal v v with hself | hself <;> exact hself
    · exact (List.pairwise_cons.mp hsorted).1 _ hmem

theorem findMany_eq_nil {t : Table κ ν} {p : κ → ν → Bool} :
    t.findMany p = [] ↔ ∀ k v, t.get k = some v → p k v = false := by
  constructor
  · intro h k v hv
    by_contra hp
    have hm : (k, v) ∈ t.findMany p := mem_findMany.mpr ⟨hv, by simpa using hp⟩
    simp [h] at hm
  · intro h
    apply List.eq_nil_iff_forall_not_mem.mpr
    rintro ⟨k, v⟩ hm
    obtain ⟨hv, hp⟩ := mem_findMany.mp hm
    simp [h k v hv] at hp

theorem findFirst_some {t : Table κ ν} {p : κ → ν → Bool} {k : κ} {v : ν}
    (h : t.findFirst p = some (k, v)) : t.get k = some v ∧ p k v = true :=
  mem_findMany.mp (List.mem_of_head? h)

theorem findLast_some {t : Table κ ν} {p : κ → ν → Bool} {k : κ} {v : ν}
    (h : t.findLast p = some (k, v)) : t.get k = some v ∧ p k v = true :=
  mem_findMany.mp (List.mem_of_getLast? h)

theorem findFirst_none {t : Table κ ν} {p : κ → ν → Bool} :
    t.findFirst p = none ↔ ∀ k v, t.get k = some v → p k v = false := by
  rw [findFirst, List.head?_eq_none_iff, findMany_eq_nil]

theorem findLast_none {t : Table κ ν} {p : κ → ν → Bool} :
    t.findLast p = none ↔ ∀ k v, t.get k = some v → p k v = false := by
  rw [findLast, List.getLast?_eq_none_iff, findMany_eq_nil]

theorem any_eq_false {t : Table κ ν} {p : κ → ν → Bool} :
    t.any p = false ↔ ∀ k v, t.get k = some v → p k v = false := by
  rw [← findMany_eq_nil]
  simp [any]

theorem any_eq_true {t : Table κ ν} {p : κ → ν → Bool} :
    t.any p = true ↔ ∃ k v, t.get k = some v ∧ p k v = true := by
  rw [← Bool.not_eq_false, any_eq_false]
  simp

theorem hits_eq_zero {t : Table κ ν} {f : κ → ν → Option ν} :
    t.hits f = 0 ↔ ∀ k v, t.get k = some v → f k v = none := by
  rw [hits, List.length_eq_zero_iff, findMany_eq_nil]
  simp

end Queries

variable [DecidableEq κ]

/-- Insert the row, or replace the one with this key. -/
def set (t : Table κ ν) (k : κ) (v : ν) : Table κ ν where
  get k' := if k' = k then some v else t.get k'
  keys := if k ∈ t.keys then t.keys else t.keys ++ [k]
  complete k' h := by
    by_cases hk : k' = k
    · subst hk
      split <;> simp_all
    · have hm := t.complete k' (by simpa [hk] using h)
      split <;> simp_all

@[simp] theorem get_set (t : Table κ ν) (k : κ) (v : ν) (k' : κ) :
    (t.set k v).get k' = if k' = k then some v else t.get k' := rfl

/-- A row that matches neither before nor after it is written changes no answer. -/
theorem findMany_set_other {t : Table κ ν} {k : κ} {v : ν} {p : κ → ν → Bool}
    (hp : ∀ v, p k v = false) : (t.set k v).findMany p = t.findMany p := by
  have hrow (k' : κ) : (((t.set k v).get k').bind fun v => if p k' v then some (k', v) else none) =
      (t.get k').bind fun v => if p k' v then some (k', v) else none := by
    by_cases hsame : k' = k
    · subst hsame
      cases t.get k' <;> simp [hp]
    · rw [get_set, if_neg hsame]
  have hkeys : (t.set k v).keys = if k ∈ t.keys then t.keys else t.keys ++ [k] := rfl
  unfold findMany
  rw [hkeys, List.filterMap_congr fun k' _ => hrow k']
  split
  · rfl
  next hnew =>
    have hlast : ((t.get k).bind fun v => if p k v then some (k, v) else none) = none := by
      cases t.get k <;> simp [hp]
    simp [List.filterMap_append, hlast]

/-- Rows that match before a new row is made match after it. -/
theorem length_findMany_set {t : Table κ ν} {k : κ} {v : ν} (hk : t.get k = none)
    (p : κ → ν → Bool) : (t.findMany p).length ≤ ((t.set k v).findMany p).length := by
  have hkeys (ks : List κ) :
      (ks.filterMap fun k' =>
        (t.get k').bind fun v => if p k' v then some (k', v) else none).length ≤
      (ks.filterMap fun k' => ((t.set k v).get k').bind fun v =>
        if p k' v then some (k', v) else none).length := by
    induction ks with
    | nil => exact Nat.le_refl 0
    | cons k' ks ih =>
      by_cases hsame : k' = k
      · subst hsame
        rw [List.filterMap_cons_none (by simp [hk])]
        refine ih.trans ?_
        simp only [List.filterMap_cons]
        split <;> simp
      · simp only [List.filterMap_cons, get_set, if_neg hsame]
        split
        · exact ih
        · simpa using ih
  refine (hkeys t.keys).trans ?_
  unfold findMany set
  by_cases hmem : k ∈ t.keys
  · simp only [if_pos hmem]
    exact Nat.le_refl _
  · simp only [if_neg hmem, List.filterMap_append, List.length_append]
    exact Nat.le_add_right _ _

/-- A row that matches as it did before is replaced without a change of how many match. -/
theorem length_findMany_replace {t : Table κ ν} {k : κ} {v v' : ν} {p : κ → ν → Bool}
    (hk : t.get k = some v) (hp : p k v' = p k v) :
    ((t.set k v').findMany p).length = (t.findMany p).length := by
  have hkeys (ks : List κ) :
      (ks.filterMap fun k' => ((t.set k v').get k').bind fun v =>
        if p k' v then some (k', v) else none).length =
      (ks.filterMap fun k' => (t.get k').bind fun v =>
        if p k' v then some (k', v) else none).length := by
    induction ks with
    | nil => rfl
    | cons k' ks ih =>
      simp only [get_set] at ih
      by_cases hsame : k' = k
      · subst hsame
        by_cases hmatch : p k' v = true
        · simp only [List.filterMap_cons, get_set, if_true, hk, Option.bind_some, hp, hmatch,
            List.length_cons, ih]
        · simp only [List.filterMap_cons, get_set, if_true, hk, Option.bind_some, hp, hmatch,
            Bool.false_eq_true, if_false, ih]
      · simp only [List.filterMap_cons, get_set, if_neg hsame]
        split
        · exact ih
        · simpa using ih
  have hmem : k ∈ t.keys := t.complete k (by simp [hk])
  unfold findMany
  simp only [set, if_pos hmem]
  exact hkeys t.keys

/-- The new row under a fresh key is the last of those that match. -/
theorem findMany_set_fresh {t : Table Nat ν} {v : ν} (p : Nat → ν → Bool) :
    (t.set t.fresh v).findMany p =
      t.findMany p ++ if p t.fresh v then [(t.fresh, v)] else [] := by
  have hnew := t.fresh_not_mem
  unfold findMany set
  simp only [if_neg hnew, List.filterMap_append]
  congr 1
  · refine List.filterMap_congr fun k' hk' => ?_
    have hne : k' ≠ t.fresh := fun he => hnew (he ▸ hk')
    simp only [if_neg hne]
  · simp only [List.filterMap_cons, List.filterMap_nil, if_true, Option.bind_some]
    split
    next h =>
      split at h
      · cases h
      next hp => rw [if_neg hp]
    next h =>
      split at h
      next hp => cases h; rw [if_pos hp]
      · cases h

end Table

end Store
