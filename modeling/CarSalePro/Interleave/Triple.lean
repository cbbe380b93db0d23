import CarSalePro.Interleave.Discipline

namespace Interleave

variable {L S : Type} {R : S → Type} {σ ε χ α β δ φ : Type}

namespace Discipline

variable {D : Discipline L S σ χ φ} {M : Machine L S R σ ε χ} {B : α → φ → Prop}
  {E : ε → φ → Prop} {p : Prog L S R σ ε α} {ph : φ}

/-- A program run alone ends where its discipline leads, when no move of it spoils the view. -/
theorem Follows.alone {c : χ} {w : σ} (h : D.Follows M B E p ph) (hw : D.view ph w)
    (hkeep : ∀ x l w x', D.view x w → D.moves x l c w x' → D.view x' (M.after l c w)) :
    ∃ ph', D.view ph' (p.alone M c w).2 ∧ onAnswer B E (p.alone M c w).1 ph' := by
  induction p generalizing ph w with
  | ret a => exact ⟨ph, hw, h⟩
  | raise e => exact ⟨ph, hw, h⟩
  | ask l f k ih =>
    obtain ⟨ph', hm, hk⟩ := h c w hw
    exact ih _ hk (hkeep ph _ w ph' hw hm)
  | call s k ih =>
    obtain ⟨ph', hm, hk⟩ := h c w hw
    exact ih _ hk (hkeep ph _ w ph' hw hm)

end Discipline

/-- The discipline whose phases are assertions about the state: a step that `ok` admits leads to
one that holds of the state it leaves. -/
def asserting (M : Machine L S R σ ε χ) (ok : Label L S → χ → σ → Prop) :
    Discipline L S σ χ (σ → Prop) where
  view P w := P w
  moves _ l c w P' := ok l c w → P' (M.after l c w)

/-- From a state in `P`, by steps that `ok` admits, the program ends with an answer in `Q` or an
error in `X`. -/
abbrev Triple (M : Machine L S R σ ε χ) (ok : Label L S → χ → σ → Prop) (P : σ → Prop)
    (p : Prog L S R σ ε α) (Q : α → σ → Prop) (X : ε → σ → Prop) : Prop :=
  (asserting M ok).Flow M (fun P' => ∀ w, P' w → P w) p (fun a P' => ∀ w, P' w → Q a w)
    fun e P' => ∀ w, P' w → X e w

namespace Triple

variable {M : Machine L S R σ ε χ} {ok : Label L S → χ → σ → Prop} {P P' : σ → Prop}
  {p : Prog L S R σ ε α} {Q Q' : α → σ → Prop} {X X' : ε → σ → Prop}

theorem weaken (h : Triple M ok P p Q X) (hP : ∀ w, P' w → P w) (hQ : ∀ a w, Q a w → Q' a w)
    (hX : ∀ e w, X e w → X' e w) : Triple M ok P' p Q' X' :=
  Discipline.Flow.weaken h (fun _ hx w hw => hP w (hx w hw)) (fun a _ hx w hw => hQ a w (hx w hw))
    fun e _ hx w hw => hX e w (hx w hw)

theorem pure {a : α} (h : ∀ w, P w → Q a w) :
    Triple M ok P (Pure.pure a : Prog L S R σ ε α) Q X :=
  Discipline.Flow.pure fun _ hx w hw => h w (hx w hw)

theorem throw {e : ε} (h : ∀ w, P w → X e w) :
    Triple M ok P (MonadExcept.throw e : Prog L S R σ ε α) Q X :=
  Discipline.Flow.throw fun _ hx w hw => h w (hx w hw)

/-- A fact in the precondition that is none about the state. -/
theorem fact {Fact : Prop} (h : Fact → Triple M ok P p Q X) :
    Triple M ok (fun w => P w ∧ Fact) p Q X := by
  intro P' hP'
  by_cases hne : ∃ w, P' w
  · obtain ⟨w, hw⟩ := hne
    exact h (hP' w hw).2 P' fun v hv => (hP' v hv).1
  · cases p with
    | ret a => exact fun w hw => absurd ⟨w, hw⟩ hne
    | raise e => exact fun w hw => absurd ⟨w, hw⟩ hne
    | ask l f k => exact fun _ w hw => absurd ⟨w, hw⟩ hne
    | call s k => exact fun _ w hw => absurd ⟨w, hw⟩ hne

/-- A triple holds from an assertion when it holds from each of its states. -/
theorem each (h : ∀ w, P w → Triple M ok (· = w) p Q X) : Triple M ok P p Q X := by
  intro P' hP'
  cases p with
  | ret a => exact fun w hw => h w (hP' w hw) (· = w) (fun _ hv => hv) w rfl
  | raise e => exact fun w hw => h w (hP' w hw) (· = w) (fun _ hv => hv) w rfl
  | ask l f k => exact fun c w hw => h w (hP' w hw) (· = w) (fun _ hv => hv) c w rfl
  | call s k => exact fun c w hw => h w (hP' w hw) (· = w) (fun _ hv => hv) c w rfl

/-- What the statements of a program keep, the program keeps. -/
theorem keeps {A : S → Prop} (hp : p.Only A)
    (h : ∀ s c w, A s → ok (.call s) c w → P w → P (M.exec s c w).2) :
    Triple M ok P p (fun _ => P) fun _ => P := by
  induction p with
  | ret a => exact fun P' hP' w hw => hP' w hw
  | raise e => exact fun P' hP' w hw => hP' w hw
  | ask l f k ih => exact fun P' hP' c w hw => ⟨P', fun _ => hw, ih _ (hp _) P' hP'⟩
  | call s k ih =>
    intro P' hP' c w hw
    exact ⟨P, fun hok => h s c w hp.1 hok (hP' w hw), ih _ (hp.2 _) P fun _ hv => hv⟩

/-- What is never reached. -/
theorem unreached : Triple M ok (fun _ => False) p Q X := by
  have hnone : Triple M ok (fun _ => True ∧ False) p Q X := fact (P := fun _ => True) (False.elim ·)
  exact hnone.weaken (fun _ h => ⟨trivial, h⟩) (fun _ _ h => h) fun _ _ h => h

theorem fetch {l : L} {f : σ → α}
    (h : ∀ c w, P w → ok (.ask l) c w → Discipline.onAnswer Q X (M.answer l f c w) w) :
    Triple M ok P (Prog.fetch l f : Prog L S R σ ε α) Q X := by
  refine Discipline.Flow.fetch fun x c w hx hw => ?_
  refine ⟨fun v => Discipline.onAnswer Q X (M.answer l f c w) v, fun hok => h c w (hx w hw) hok, ?_⟩
  cases M.answer l f c w with
  | ok a => exact fun _ hv => hv
  | error e => exact fun _ hv => hv

theorem perform {s : S} {Q : R s → σ → Prop}
    (h : ∀ c w, P w → ok (.call s) c w →
      Discipline.onAnswer Q X (M.exec s c w).1 (M.exec s c w).2) :
    Triple M ok P (Prog.perform s : Prog L S R σ ε (R s)) Q X := by
  refine Discipline.Flow.perform fun x c w hx hw => ?_
  refine ⟨fun v => Discipline.onAnswer Q X (M.exec s c w).1 v, fun hok => h c w (hx w hw) hok, ?_⟩
  cases (M.exec s c w).1 with
  | ok a => exact fun _ hv => hv
  | error e => exact fun _ hv => hv

/-- What the triple says of the run alone. -/
theorem alone {c : χ} {w : σ} (h : Triple M (fun _ c' _ => c' = c) P p Q X) (hw : P w) :
    Discipline.onAnswer Q X (p.alone M c w).1 (p.alone M c w).2 := by
  obtain ⟨P', hP', hend⟩ := Discipline.Follows.alone (h P fun _ hv => hv) hw
    fun _ _ _ _ _ hm => hm rfl
  cases hr : (p.alone M c w).1 with
  | ok a => rw [hr] at hend; exact hend _ hP'
  | error e => rw [hr] at hend; exact hend _ hP'

end Triple

end Interleave
