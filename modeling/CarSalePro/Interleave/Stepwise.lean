import CarSalePro.Interleave.Watched

namespace Interleave

variable {L S : Type} {R : S → Type} {σ τ ε χ γ α δ : Type}

/-- The discipline of a program nobody works beside, whose steps are all in `T`. Its phases are
assertions about `obs`, the part of the state the environment leaves alone. -/
def stepwise (M : Machine L S R σ ε χ) (obs : σ → τ) (ok : Label L S → χ → σ → Prop)
    (T : σ → σ → Prop) : Discipline L S σ χ (τ → Prop) where
  view P w := P (obs w)
  moves _ l c w P' := ok l c w → T w (M.after l c w) ∧ P' (obs (M.after l c w))

/-- From `P`, by steps that `ok` admits, the program ends with an answer in `Q` or an error in
`X`, and each of its steps is in `T`. -/
abbrev Stepwise (M : Machine L S R σ ε χ) (obs : σ → τ) (ok : Label L S → χ → σ → Prop)
    (T : σ → σ → Prop) (P : τ → Prop) (p : Prog L S R σ ε α) (Q : α → τ → Prop)
    (X : ε → τ → Prop) : Prop :=
  (stepwise M obs ok T).Flow M (fun P' => ∀ x, P' x → P x) p (fun a P' => ∀ x, P' x → Q a x)
    fun e P' => ∀ x, P' x → X e x

namespace Stepwise

variable {M : Machine L S R σ ε χ} {obs : σ → τ} {ok : Label L S → χ → σ → Prop}
  {T : σ → σ → Prop} {P P' : τ → Prop} {p : Prog L S R σ ε α} {Q Q' : α → τ → Prop}
  {X X' : ε → τ → Prop}

/-- The steps in `T`. -/
def Within (M : Machine L S R σ ε χ) (T : σ → σ → Prop) : Label L S → χ → σ → Prop :=
  fun l c w => T w (M.after l c w)

theorem weaken (h : Stepwise M obs ok T P p Q X) (hP : ∀ x, P' x → P x)
    (hQ : ∀ a x, Q a x → Q' a x) (hX : ∀ e x, X e x → X' e x) :
    Stepwise M obs ok T P' p Q' X' :=
  Watched.weaken (J := Within M T) h hP hQ hX

theorem pure {a : α} (h : ∀ x, P x → Q a x) :
    Stepwise M obs ok T P (Pure.pure a : Prog L S R σ ε α) Q X :=
  Watched.pure (J := Within M T) h

theorem throw {e : ε} (h : ∀ x, P x → X e x) :
    Stepwise M obs ok T P (MonadExcept.throw e : Prog L S R σ ε α) Q X :=
  Watched.throw (J := Within M T) h

/-- A fact in the precondition that is none about the state. -/
theorem fact {F : Prop} (h : F → Stepwise M obs ok T P p Q X) :
    Stepwise M obs ok T (fun x => P x ∧ F) p Q X :=
  Watched.fact (J := Within M T) h

/-- A read that may fail. -/
theorem ask {l : L} {f : σ → α} (hT : ∀ w, T w w) (hQ : ∀ w, P (obs w) → Q (f w) (obs w))
    (hX : ∀ e x, P x → X e x) :
    Stepwise M obs ok T P (Prog.fetch l f : Prog L S R σ ε α) Q X :=
  Watched.ask (J := Within M T) (fun _ w _ _ => hT w) hQ hX

theorem perform {s : S} {Q : R s → τ → Prop}
    (h : ∀ c w, P (obs w) → ok (.call s) c w → T w (M.exec s c w).2 ∧
      Discipline.onAnswer Q X (M.exec s c w).1 (obs (M.exec s c w).2)) :
    Stepwise M obs ok T P (Prog.perform s : Prog L S R σ ε (R s)) Q X :=
  Watched.perform (J := Within M T) h

/-- Statements that keep an assertion, in any order. -/
theorem only {F : S → Prop} (hp : p.Only F) (hT : ∀ w, T w w)
    (hcall : ∀ s c w, F s → ok (.call s) c w → P (obs w) →
      T w (M.exec s c w).2 ∧ P (obs (M.exec s c w).2)) :
    Stepwise M obs ok T P p (fun _ => P) fun _ => P :=
  Watched.only (J := Within M T) hp (fun _ _ w _ _ => hT w) hcall

/-- A series of programs that all keep an assertion. -/
theorem series {ps : List (Prog L S R σ ε Unit)}
    (h : ∀ p ∈ ps, Stepwise M obs ok T P p (fun _ => P) fun _ => P) :
    Stepwise M obs ok T P (Prog.series ps) (fun _ => P) X :=
  Watched.series (J := Within M T) h

section Runs

variable {rec : Recorder L S σ γ} {C : Guard L S σ χ γ} {p : Prog L S R σ ε Unit}
  {Q : Unit → τ → Prop} {w : σ} {g g' : Pool L S R σ ε γ}

/-- The one thread of a pool is where an assertion holds, and goes on in `T` from there. -/
abbrev Stands (M : Machine L S R σ ε χ) (obs : σ → τ) (ok : Label L S → χ → σ → Prop)
    (T : σ → σ → Prop) (Q : Unit → τ → Prop) (X : ε → τ → Prop) (g : Pool L S R σ ε γ) : Prop :=
  Watched.Stands M obs ok (Within M T) Q X g

theorem stands_step (hobs : ∀ c w, obs (M.env c w) = obs w) (henv : ∀ c w, T w (M.env c w))
    (hC : ∀ t l c x, C t l c x → ok l c x.1) {m : Move χ} (h : Stands M obs ok T Q X g)
    (hm : g.Meets C m) (hs : Pool.step M rec m g = some g') :
    T g.state g'.state ∧ Stands M obs ok T Q X g' := by
  cases m with
  | env c =>
    cases Option.some.inj hs
    exact ⟨henv c g.state, Watched.stands_env hobs h c⟩
  | run t c =>
    obtain ⟨⟨l, hT, hafter⟩, hstands⟩ := Watched.stands_run hC h hm hs
    rw [hafter]
    exact ⟨hT, hstands⟩

/-- The run rule: from where the program stands, every run stays in what its steps make up. -/
theorem stands_reach {T' : σ → σ → Prop} (hobs : ∀ c w, obs (M.env c w) = obs w)
    (henv : ∀ c w, T w (M.env c w)) (hT : ∀ w w', T w w' → T' w w') (hrefl : ∀ w, T' w w)
    (htrans : ∀ u v w, T' u v → T' v w → T' u w)
    (hC : ∀ t l c x, C t l c x → ok l c x.1) (h : Stands M obs ok T Q X g)
    (hr : Pool.Reach M rec C g g') : T' g.state g'.state ∧ Stands M obs ok T Q X g' :=
  Watched.stands_reach hobs (fun c w => hT _ _ (henv c w)) (fun _ _ _ h => hT _ _ h) hrefl htrans
    hC h hr

theorem stands_start (h : Stepwise M obs ok T P p Q X) (hist : γ) (hP : P (obs w)) :
    Stands M obs ok T Q X (⟨w, hist, [p]⟩ : Pool L S R σ ε γ) :=
  Watched.stands_start (J := Within M T) h hist hP

end Runs

end Stepwise

end Interleave
