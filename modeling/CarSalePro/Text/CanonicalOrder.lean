import Mathlib.Data.List.Chain
import Mathlib.Data.List.Sort

/-! The canonical ordering of a text whose characters have combining classes: a character of
class zero stays where it is, and the marks between two of them are sorted by their classes. -/

namespace CanonicalOrder

section Ordering

variable {α : Type*} (cls : α → Nat)

/-- In a canonical order, `c` may stand before `d`. -/
def MayPrecede (c d : α) : Prop := cls d = 0 ∨ cls c ≤ cls d

instance : DecidableRel (MayPrecede cls) := fun c d =>
  inferInstanceAs (Decidable (cls d = 0 ∨ cls c ≤ cls d))

/-- Marks move before marks of a greater class, and past nothing else. -/
def ordered (text : List α) : List α := text.insertionSort (MayPrecede cls)

/-- A text in its canonical order. -/
def InOrder (text : List α) : Prop := text.IsChain (MayPrecede cls)

instance (text : List α) : Decidable (InOrder cls text) :=
  inferInstanceAs (Decidable (text.IsChain (MayPrecede cls)))

end Ordering

section Insertion

variable {α : Type*} {cls : α → Nat} {c d : α} {x y : List α}

theorem MayPrecede.of_starter (h : cls c = 0) : MayPrecede cls c d := by
  apply Or.inr
  omega

theorem MayPrecede.before_starter (h : cls d = 0) : MayPrecede cls c d := Or.inl h

theorem MayPrecede.of_not (h : ¬ MayPrecede cls c d) : cls d ≠ 0 ∧ cls d < cls c := by
  unfold MayPrecede at h
  omega

theorem ordered_cons (c : α) (x : List α) :
    ordered cls (c :: x) = (ordered cls x).orderedInsert (MayPrecede cls) c :=
  List.insertionSort_cons ..

@[simp] theorem ordered_nil : ordered cls ([] : List α) = [] := rfl

@[simp] theorem mem_ordered : c ∈ ordered cls x ↔ c ∈ x := List.mem_insertionSort _

@[simp] theorem length_ordered (x : List α) : (ordered cls x).length = x.length :=
  List.length_insertionSort ..

theorem insert_starter (h : cls c = 0) (x : List α) :
    x.orderedInsert (MayPrecede cls) c = c :: x := by
  cases x with
  | nil => rfl
  | cons d x => exact List.orderedInsert_cons_of_le _ x (MayPrecede.of_starter h)

theorem ordered_starter (h : cls c = 0) (x : List α) :
    ordered cls (c :: x) = c :: ordered cls x := by
  rw [ordered_cons, insert_starter h]

/-- A mark of a smaller class ends up first, whichever way the two came. -/
theorem insert_comm_of_lt (hc : cls c ≠ 0) (hlt : cls c < cls d) (x : List α) :
    (x.orderedInsert (MayPrecede cls) d).orderedInsert (MayPrecede cls) c =
      (x.orderedInsert (MayPrecede cls) c).orderedInsert (MayPrecede cls) d := by
  have hcd : MayPrecede cls c d := Or.inr hlt.le
  have hdc : ¬ MayPrecede cls d c := by
    unfold MayPrecede
    omega
  induction x with
  | nil =>
    rw [List.orderedInsert_nil, List.orderedInsert_nil, List.orderedInsert_cons_of_le _ _ hcd,
      List.orderedInsert_of_not_le _ _ hdc, List.orderedInsert_nil]
  | cons b x ih =>
    by_cases hdb : MayPrecede cls d b
    · have hcb : MayPrecede cls c b := hdb.imp_right hlt.le.trans
      rw [List.orderedInsert_cons_of_le _ _ hdb, List.orderedInsert_cons_of_le _ _ hcd,
        List.orderedInsert_cons_of_le _ _ hcb, List.orderedInsert_of_not_le _ _ hdc,
        List.orderedInsert_cons_of_le _ _ hdb]
    · rw [List.orderedInsert_of_not_le _ _ hdb]
      by_cases hcb : MayPrecede cls c b
      · rw [List.orderedInsert_cons_of_le _ _ hcb, List.orderedInsert_cons_of_le _ _ hcb,
          List.orderedInsert_of_not_le _ _ hdc, List.orderedInsert_of_not_le _ _ hdb]
      · rw [List.orderedInsert_of_not_le _ _ hcb, List.orderedInsert_of_not_le _ _ hcb,
          List.orderedInsert_of_not_le _ _ hdb, ih]

end Insertion

section Order

variable {α : Type*} {cls : α → Nat} {c d : α} {x y : List α}

/-- An insertion into a text in order leaves it in order. -/
theorem InOrder.insert (h : InOrder cls x) (c : α) :
    InOrder cls (x.orderedInsert (MayPrecede cls) c) := by
  induction x with
  | nil => exact List.isChain_singleton c
  | cons b x ih =>
    by_cases hb : MayPrecede cls c b
    · rw [List.orderedInsert_cons_of_le _ _ hb]
      exact List.IsChain.cons_cons hb h
    · have hbc : MayPrecede cls b c := Or.inr (MayPrecede.of_not hb).2.le
      rw [List.orderedInsert_of_not_le _ _ hb]
      have htail : InOrder cls (x.orderedInsert (MayPrecede cls) c) := ih h.tail
      cases x with
      | nil => exact List.IsChain.cons_cons hbc htail
      | cons d x =>
        have hbd : MayPrecede cls b d := (List.isChain_cons_cons.mp h).1
        by_cases hd : MayPrecede cls c d
        · rw [List.orderedInsert_cons_of_le _ _ hd] at htail ⊢
          exact List.IsChain.cons_cons hbc htail
        · rw [List.orderedInsert_of_not_le _ _ hd] at htail ⊢
          exact List.IsChain.cons_cons hbd htail

theorem inOrder_ordered (x : List α) : InOrder cls (ordered cls x) := by
  induction x with
  | nil => exact List.isChain_nil
  | cons c x ih => exact ih.insert c

theorem InOrder.ordered_eq (h : InOrder cls x) : ordered cls x = x := by
  induction x with
  | nil => rfl
  | cons c x ih =>
    rw [ordered_cons, ih h.tail]
    cases x with
    | nil => rfl
    | cons d x => exact List.orderedInsert_cons_of_le _ _ (List.isChain_cons_cons.mp h).1

/-- Characters of class zero may come and go in front of others. -/
theorem inOrder_starter_cons (h : cls c = 0) : InOrder cls (c :: x) ↔ InOrder cls x := by
  cases x with
  | nil => exact ⟨fun _ => List.isChain_nil, fun _ => List.isChain_singleton c⟩
  | cons d x =>
    exact List.isChain_cons_cons.trans (and_iff_right (MayPrecede.of_starter h))

theorem inOrder_append_starter (h : cls d = 0) :
    InOrder cls (x ++ d :: y) ↔ InOrder cls x ∧ InOrder cls y := by
  induction x with
  | nil =>
    rw [List.nil_append, inOrder_starter_cons h]
    exact (and_iff_right List.isChain_nil).symm
  | cons c x ih =>
    cases x with
    | nil =>
      have hsingle : InOrder cls [c] := List.isChain_singleton c
      have hcd : MayPrecede cls c d := MayPrecede.before_starter h
      have hpair : InOrder cls (c :: d :: y) ↔ InOrder cls (d :: y) :=
        List.isChain_cons_cons.trans (and_iff_right hcd)
      rw [List.singleton_append, hpair, inOrder_starter_cons h, and_iff_right hsingle]
    | cons b x =>
      have hstep (z : List α) :
          InOrder cls (c :: b :: z) ↔ MayPrecede cls c b ∧ InOrder cls (b :: z) :=
        List.isChain_cons_cons
      rw [hstep, and_assoc, ← ih]
      exact hstep (x ++ d :: y)

theorem inOrder_of_starters (h : ∀ c ∈ x, cls c = 0) : InOrder cls x := by
  induction x with
  | nil => exact List.isChain_nil
  | cons c x ih =>
    rw [inOrder_starter_cons (h c List.mem_cons_self)]
    exact ih fun d hd => h d (List.mem_cons_of_mem c hd)

theorem inOrder_starters_append (h : ∀ c ∈ x, cls c = 0) :
    InOrder cls (x ++ y) ↔ InOrder cls y := by
  induction x with
  | nil => rfl
  | cons c x ih =>
    rw [List.cons_append, inOrder_starter_cons (h c List.mem_cons_self)]
    exact ih fun d hd => h d (List.mem_cons_of_mem c hd)

theorem inOrder_append_starters (h : ∀ c ∈ y, cls c = 0) :
    InOrder cls (x ++ y) ↔ InOrder cls x := by
  cases y with
  | nil => rw [List.append_nil]
  | cons d y =>
    rw [inOrder_append_starter (h d List.mem_cons_self)]
    exact and_iff_left (inOrder_of_starters fun c hc => h c (List.mem_cons_of_mem d hc))

end Order

section Rewriting

variable {α : Type*} {cls : α → Nat} {c d : α} {x y : List α} {p : α → Bool}

/-- Where the marks before it are gone, a mark of no greater class stands first. -/
theorem insert_filter_front (hp : ∀ b, cls b = 0 → p b = true) {b : α}
    (h : InOrder cls (b :: x)) (hb : cls b ≠ 0) (hcb : cls c ≤ cls b) :
    (x.filter p).orderedInsert (MayPrecede cls) c = c :: x.filter p := by
  induction x generalizing b with
  | nil => rfl
  | cons d x ih =>
    obtain ⟨hbd, htail⟩ := List.isChain_cons_cons.mp h
    have hcd : MayPrecede cls c d := hbd.imp_right hcb.trans
    by_cases hd : p d = true
    · rw [List.filter_cons_of_pos hd]
      exact List.orderedInsert_cons_of_le _ _ hcd
    · have hmark : cls d ≠ 0 := mt (hp d) hd
      rw [List.filter_cons_of_neg hd]
      exact ih htail hmark (hcd.resolve_left hmark)

theorem filter_insert (hp : ∀ b, cls b = 0 → p b = true) (hc : p c = true)
    (h : InOrder cls x) :
    (x.orderedInsert (MayPrecede cls) c).filter p =
      (x.filter p).orderedInsert (MayPrecede cls) c := by
  induction x with
  | nil => exact List.filter_cons_of_pos hc
  | cons b x ih =>
    by_cases hcb : MayPrecede cls c b
    · rw [List.orderedInsert_cons_of_le _ _ hcb, List.filter_cons_of_pos hc]
      by_cases hb : p b = true
      · rw [List.filter_cons_of_pos hb, List.orderedInsert_cons_of_le _ _ hcb]
      · have hmark : cls b ≠ 0 := mt (hp b) hb
        rw [List.filter_cons_of_neg hb]
        exact (insert_filter_front hp h hmark (hcb.resolve_left hmark)).symm
    · rw [List.orderedInsert_of_not_le _ _ hcb]
      by_cases hb : p b = true
      · rw [List.filter_cons_of_pos hb, List.filter_cons_of_pos hb,
          List.orderedInsert_of_not_le _ _ hcb, ih h.tail]
      · rw [List.filter_cons_of_neg hb, List.filter_cons_of_neg hb, ih h.tail]

theorem filter_insert_neg (hc : p c = false) (x : List α) :
    (x.orderedInsert (MayPrecede cls) c).filter p = x.filter p := by
  have hneg : ¬ p c = true := by simp [hc]
  induction x with
  | nil => exact List.filter_cons_of_neg hneg
  | cons b x ih =>
    by_cases hcb : MayPrecede cls c b
    · rw [List.orderedInsert_cons_of_le _ _ hcb, List.filter_cons_of_neg hneg]
    · rw [List.orderedInsert_of_not_le _ _ hcb, List.filter_cons, List.filter_cons, ih]

/-- Marks may be dropped before the ordering or after it. -/
theorem filter_ordered (hp : ∀ b, cls b = 0 → p b = true) (x : List α) :
    (ordered cls x).filter p = ordered cls (x.filter p) := by
  induction x with
  | nil => rfl
  | cons c x ih =>
    rw [ordered_cons]
    by_cases hc : p c = true
    · rw [filter_insert hp hc (inOrder_ordered x), ih, List.filter_cons_of_pos hc, ordered_cons]
    · rw [filter_insert_neg (by simpa using hc), ih, List.filter_cons_of_neg hc]

theorem ordered_append_congr (h : ordered cls x = ordered cls y) (z : List α) :
    ordered cls (z ++ x) = ordered cls (z ++ y) := by
  induction z with
  | nil => exact h
  | cons c z ih => rw [List.cons_append, List.cons_append, ordered_cons, ordered_cons, ih]

theorem ordered_insert_flatMap {g : α → List α} (hg : ∀ b, cls b ≠ 0 → g b = [b]) (c : α)
    (x : List α) :
    ordered cls ((x.orderedInsert (MayPrecede cls) c).flatMap g) =
      ordered cls ((c :: x).flatMap g) := by
  induction x with
  | nil => rfl
  | cons b x ih =>
    by_cases hcb : MayPrecede cls c b
    · rw [List.orderedInsert_cons_of_le _ _ hcb]
    · obtain ⟨hb, hlt⟩ := MayPrecede.of_not hcb
      have hc : cls c ≠ 0 := by omega
      rw [List.orderedInsert_of_not_le _ _ hcb, List.flatMap_cons, ordered_append_congr ih]
      simp only [List.flatMap_cons, hg b hb, hg c hc, List.singleton_append, ordered_cons]
      exact insert_comm_of_lt hb hlt _

/-- What rewrites no mark may be done before the ordering or after it. -/
theorem ordered_flatMap {g : α → List α} (hg : ∀ b, cls b ≠ 0 → g b = [b]) (x : List α) :
    ordered cls ((ordered cls x).flatMap g) = ordered cls (x.flatMap g) := by
  induction x with
  | nil => rfl
  | cons c x ih =>
    rw [ordered_cons, ordered_insert_flatMap hg, List.flatMap_cons, List.flatMap_cons]
    exact ordered_append_congr ih (g c)

theorem ordered_starters_append (h : ∀ c ∈ x, cls c = 0) (y : List α) :
    ordered cls (x ++ y) = x ++ ordered cls y := by
  induction x with
  | nil => rfl
  | cons c x ih =>
    rw [List.cons_append, ordered_starter (h c List.mem_cons_self),
      ih fun d hd => h d (List.mem_cons_of_mem c hd), List.cons_append]

/-- A spelling of characters of class zero by others. -/
def Spells (cls : α → Nat) (g : α → List α) : Prop :=
  ∀ c, g c = [c] ∨ cls c = 0 ∧ g c ≠ [] ∧ ∀ d ∈ g c, cls d = 0

theorem insert_flatMap {g : α → List α} (hg : Spells cls g) (hc : g c = [c]) (x : List α) :
    (x.flatMap g).orderedInsert (MayPrecede cls) c =
      (x.orderedInsert (MayPrecede cls) c).flatMap g := by
  induction x with
  | nil =>
    rw [List.orderedInsert_nil, List.flatMap_singleton, hc]
    rfl
  | cons b x ih =>
    obtain hb | ⟨hb, hne, hall⟩ := hg b
    · by_cases hcb : MayPrecede cls c b
      · rw [List.orderedInsert_cons_of_le _ _ hcb, List.flatMap_cons, List.flatMap_cons,
          List.flatMap_cons, hb, hc, List.singleton_append,
          List.orderedInsert_cons_of_le _ _ hcb]
        rfl
      · rw [List.orderedInsert_of_not_le _ _ hcb, List.flatMap_cons, List.flatMap_cons, hb,
          List.singleton_append, List.orderedInsert_of_not_le _ _ hcb, ih]
        rfl
    · obtain ⟨d, rest, hspelled⟩ := List.exists_cons_of_ne_nil hne
      have hd : cls d = 0 := hall d (hspelled ▸ List.mem_cons_self)
      rw [List.orderedInsert_cons_of_le _ _ (MayPrecede.before_starter hb), List.flatMap_cons,
        List.flatMap_cons, List.flatMap_cons, hc, hspelled, List.cons_append,
        List.orderedInsert_cons_of_le _ _ (MayPrecede.before_starter hd)]
      rfl

/-- Such a spelling may be done before the ordering or after it. -/
theorem ordered_spelled {g : α → List α} (hg : Spells cls g) (x : List α) :
    ordered cls (x.flatMap g) = (ordered cls x).flatMap g := by
  induction x with
  | nil => rfl
  | cons c x ih =>
    rw [List.flatMap_cons]
    obtain hc | ⟨hc, -, hall⟩ := hg c
    · rw [hc, List.singleton_append, ordered_cons, ordered_cons, ih, insert_flatMap hg hc]
    · rw [ordered_starters_append hall, ih, ordered_starter hc, List.flatMap_cons]

end Rewriting

end CanonicalOrder
