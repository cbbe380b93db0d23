import Mathlib.Data.List.Chain
import CarSalePro.Search.SearchText

namespace CarSalePro.Search

open Reports (isSpace)

section Spacing

variable {c : Char} {text : List Char}

/-- White space collapsed, and none left at the ends. -/
def squeeze (text : List Char) : List Char := trim (collapseSpaces false text)

/-- A text whose only white space is single blanks. -/
def Collapsed (text : List Char) : Prop :=
  (∀ c ∈ text, isSpace c = true → c = ' ') ∧
    text.IsChain fun c d => ¬ (isSpace c = true ∧ isSpace d = true)

theorem isSpace_blank : isSpace ' ' = true := by decide

theorem mem_collapseSpaces (hc : isSpace c = false) (after : Bool) :
    c ∈ collapseSpaces after text ↔ c ∈ text := by
  have hne (d : Char) (hd : isSpace d = true) : c ≠ d := by
    rintro rfl
    rw [hd] at hc
    exact Bool.noConfusion hc
  induction text generalizing after with
  | nil => rfl
  | cons d text ih =>
    by_cases hd : isSpace d = true
    · cases after with
      | true =>
        simp only [collapseSpaces, if_pos hd, if_true, ih, List.mem_cons, hne d hd, false_or]
      | false =>
        simp only [collapseSpaces, if_pos hd, Bool.false_eq_true, if_false, List.mem_cons, ih,
          hne d hd, hne ' ' isSpace_blank, false_or]
    · simp only [collapseSpaces, if_neg hd, List.mem_cons, ih]

theorem blank_of_mem_collapseSpaces {after : Bool} (hc : isSpace c = true)
    (hmem : c ∈ collapseSpaces after text) : c = ' ' := by
  induction text generalizing after with
  | nil => exact absurd hmem List.not_mem_nil
  | cons d text ih =>
    by_cases hd : isSpace d = true
    · cases after with
      | true =>
        rw [collapseSpaces, if_pos hd, if_pos rfl] at hmem
        exact ih hmem
      | false =>
        rw [collapseSpaces, if_pos hd, if_neg Bool.false_ne_true] at hmem
        exact (List.mem_cons.mp hmem).elim id ih
    · rw [collapseSpaces, if_neg hd] at hmem
      have hne : c ≠ d := fun heq => hd (heq ▸ hc)
      exact ih ((List.mem_cons.mp hmem).resolve_left hne)

theorem head_collapseSpaces (hmem : c ∈ (collapseSpaces true text).head?) : isSpace c = false := by
  induction text with
  | nil => exact absurd hmem (Option.not_mem_none c)
  | cons d text ih =>
    by_cases hd : isSpace d = true
    · rw [collapseSpaces, if_pos hd, if_pos rfl] at hmem
      exact ih hmem
    · rw [collapseSpaces, if_neg hd, List.head?_cons, Option.mem_some_iff] at hmem
      rw [← hmem]
      exact Bool.eq_false_of_not_eq_true hd

theorem collapsed_collapseSpaces (after : Bool) (text : List Char) :
    Collapsed (collapseSpaces after text) := by
  constructor
  · intro c hmem hc
    exact blank_of_mem_collapseSpaces hc hmem
  · induction text generalizing after with
    | nil => exact List.isChain_nil
    | cons d text ih =>
      by_cases hd : isSpace d = true
      · cases after with
        | true =>
          rw [collapseSpaces, if_pos hd, if_pos rfl]
          exact ih true
        | false =>
          rw [collapseSpaces, if_pos hd, if_neg Bool.false_ne_true]
          apply (ih true).cons
          intro c hc
          simp [head_collapseSpaces hc]
      · rw [collapseSpaces, if_neg hd]
        apply (ih false).cons
        intro c _
        simp [hd]

/-- There is nothing to collapse between single blanks. -/
theorem Collapsed.collapseSpaces_eq (h : Collapsed text) : collapseSpaces false text = text := by
  obtain ⟨hblank, hchain⟩ := h
  have hfrom : ∀ after, (after = true → ∀ c ∈ text.head?, isSpace c = false) →
      collapseSpaces after text = text := by
    induction text with
    | nil => exact fun _ _ => rfl
    | cons c text ih =>
      intro after hafter
      have htail := ih (fun d hd => hblank d (List.mem_cons_of_mem c hd)) hchain.tail
      by_cases hc : isSpace c = true
      · have hfalse : after = false := by
          cases after with
          | false => rfl
          | true => exact absurd hc (by simp [hafter rfl c rfl])
        have hnext : ∀ d ∈ text.head?, isSpace d = false := by
          intro d hd
          have hpair := (List.isChain_cons.mp hchain).1 d hd
          simpa [hc] using hpair
        rw [hfalse, collapseSpaces, if_pos hc, if_neg Bool.false_ne_true,
          htail true (fun _ => hnext), hblank c List.mem_cons_self hc]
      · rw [collapseSpaces, if_neg hc, htail false (by simp)]
  exact hfrom false (by simp)

theorem trim_split (text : List Char) : ∃ before after, text = before ++ trim text ++ after ∧
    (∀ c ∈ before, isSpace c = true) ∧ ∀ c ∈ after, isSpace c = true := by
  refine ⟨text.takeWhile isSpace, (text.dropWhile isSpace).rtakeWhile isSpace, ?_, ?_, ?_⟩
  · rw [trim, List.append_assoc, List.rdropWhile_append_rtakeWhile, List.takeWhile_append_dropWhile]
  · intro c hc
    exact List.mem_takeWhile_imp hc
  · intro c hc
    exact List.mem_rtakeWhile_imp hc

theorem trim_part (text : List Char) : trim text <:+: text := by
  obtain ⟨before, after, htext, -⟩ := trim_split text
  exact ⟨before, after, htext.symm⟩

theorem mem_trim (hc : isSpace c = false) : c ∈ trim text ↔ c ∈ text := by
  obtain ⟨before, after, htext, hbefore, hafter⟩ := trim_split text
  have hnot {blanks : List Char} (h : ∀ c ∈ blanks, isSpace c = true) : c ∉ blanks := by
    intro hmem
    rw [h c hmem] at hc
    exact Bool.noConfusion hc
  constructor
  · exact fun h => (trim_part text).subset h
  · intro h
    rw [htext] at h
    simpa [hnot hbefore, hnot hafter] using h

theorem mem_squeeze (hc : isSpace c = false) : c ∈ squeeze text ↔ c ∈ text :=
  (mem_trim hc).trans (mem_collapseSpaces hc false)

theorem collapsed_squeeze (text : List Char) : Collapsed (squeeze text) := by
  obtain ⟨hblank, hchain⟩ := collapsed_collapseSpaces false text
  have hpart := trim_part (collapseSpaces false text)
  exact ⟨fun c hc => hblank c (hpart.subset hc), List.IsChain.infix hchain hpart⟩

theorem blank_of_mem_squeeze (hmem : c ∈ squeeze text) (hc : isSpace c = true) : c = ' ' :=
  (collapsed_squeeze text).1 c hmem hc

theorem trim_trim (text : List Char) : trim (trim text) = trim text := by
  have hhead : (trim text).dropWhile isSpace = trim text := by
    rw [List.dropWhile_eq_self_iff]
    intro hlength
    have hfront : trim text <+: text.dropWhile isSpace := List.rdropWhile_prefix isSpace _
    have hdrop := List.dropWhile_eq_self_iff.mp (List.dropWhile_idempotent isSpace text)
    have hlonger : 0 < (text.dropWhile isSpace).length := by
      have := hfront.length_le
      omega
    rw [hfront.getElem hlength]
    exact hdrop hlonger
  unfold trim at hhead ⊢
  rw [hhead, List.rdropWhile_idempotent]

theorem squeeze_squeeze (text : List Char) : squeeze (squeeze text) = squeeze text := by
  show trim (collapseSpaces false (squeeze text)) = squeeze text
  rw [(collapsed_squeeze text).collapseSpaces_eq]
  exact trim_trim _

end Spacing

end CarSalePro.Search
