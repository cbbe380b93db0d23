import CarSalePro.Interleave.Triple

namespace Interleave

variable {L S : Type} {R : S → Type} {σ τ ε χ γ α β δ : Type}

/-- Programs one after another. What one of them throws is its caller's affair. -/
def Prog.series : List (Prog L S R σ ε Unit) → Prog L S R σ ε Unit
  | [] => .ret ()
  | p :: ps => p.quietly.bind fun _ => Prog.series ps

/-- The discipline of a program nobody works beside. Its phases are assertions about `obs`, the
part of the state the environment leaves alone, and every step is one that `J` allows. -/
def watched (M : Machine L S R σ ε χ) (obs : σ → τ) (ok J : Label L S → χ → σ → Prop) :
    Discipline L S σ χ (τ → Prop) where
  view P w := P (obs w)
  moves _ l c w P' := ok l c w → J l c w ∧ P' (obs (M.after l c w))

/-- From `P`, by steps that `ok` admits, the program ends with an answer in `Q` or an error in
`X`, and `J` allows each of its steps. -/
abbrev Watched (M : Machine L S R σ ε χ) (obs : σ → τ) (ok J : Label L S → χ → σ → Prop)
    (P : τ → Prop) (p : Prog L S R σ ε α) (Q : α → τ → Prop) (X : ε → τ → Prop) : Prop :=
  (watched M obs ok J).Flow M (fun P' => ∀ x, P' x → P x) p (fun a P' => ∀ x, P' x → Q a x)
    fun e P' => ∀ x, P' x → X e x

namespace Watched

variable {M : Machine L S R σ ε χ} {obs : σ → τ} {ok J : Label L S → χ → σ → Prop}
  {P P' : τ → Prop} {p : Prog L S R σ ε α} {Q Q' : α → τ → Prop} {X X' : ε → τ → Prop}

theorem weaken (h : Watched M obs ok J P p Q X) (hP : ∀ x, P' x → P x)
    (hQ : ∀ a x, Q a x → Q' a x) (hX : ∀ e x, X e x → X' e x) : Watched M obs ok J P' p Q' X' :=
  Discipline.Flow.weaken h (fun _ hx v hv => hP v (hx v hv)) (fun a _ hx v hv => hQ a v (hx v hv))
    fun e _ hx v hv => hX e v (hx v hv)

theorem pure {a : α} (h : ∀ x, P x → Q a x) :
    Watched M obs ok J P (Pure.pure a : Prog L S R σ ε α) Q X :=
  Discipline.Flow.pure fun _ hx v hv => h v (hx v hv)

theorem throw {e : ε} (h : ∀ x, P x → X e x) :
    Watched M obs ok J P (MonadExcept.throw e : Prog L S R σ ε α) Q X :=
  Discipline.Flow.throw fun _ hx v hv => h v (hx v hv)

/-- The cases of an assertion. -/
theorem cases {ι : Sort*} {P : ι → τ → Prop} (h : ∀ i, Watched M obs ok J (P i) p Q X) :
    Watched M obs ok J (fun x => ∃ i, P i x) p Q X := by
  intro A hA
  induction p generalizing P A with
  | ret a =>
    intro x hx
    obtain ⟨i, hi⟩ := hA x hx
    exact h i (P i) (fun _ hv => hv) x hi
  | raise e =>
    intro x hx
    obtain ⟨i, hi⟩ := hA x hx
    exact h i (P i) (fun _ hv => hv) x hi
  | ask l f k ih =>
    intro c w hw
    obtain ⟨i, hi⟩ := hA _ hw
    exact h i (P i) (fun _ hv => hv) c w hi
  | call s k ih =>
    intro c w hw
    obtain ⟨i, hi⟩ := hA _ hw
    exact h i (P i) (fun _ hv => hv) c w hi

/-- A fact in the precondition that is none about the state. -/
theorem fact {F : Prop} (h : F → Watched M obs ok J P p Q X) :
    Watched M obs ok J (fun x => P x ∧ F) p Q X :=
  (cases (P := fun (_ : F) x => P x) h).weaken (fun _ hx => ⟨hx.2, hx.1⟩) (fun _ _ hx => hx)
    fun _ _ hx => hx

theorem fetch {l : L} {f : σ → α} (hJ : ∀ c w, P (obs w) → ok (.ask l) c w → J (.ask l) c w)
    (h : ∀ c w, P (obs w) → ok (.ask l) c w → Discipline.onAnswer Q X (M.answer l f c w) (obs w)) :
    Watched M obs ok J P (Prog.fetch l f : Prog L S R σ ε α) Q X := by
  refine Discipline.Flow.fetch fun A c w hA hw => ?_
  refine ⟨fun x => Discipline.onAnswer Q X (M.answer l f c w) x,
    fun hok => ⟨hJ c w (hA _ hw) hok, h c w (hA _ hw) hok⟩, ?_⟩
  cases M.answer l f c w with
  | ok a => exact fun _ hv => hv
  | error e => exact fun _ hv => hv

theorem perform {s : S} {Q : R s → τ → Prop}
    (h : ∀ c w, P (obs w) → ok (.call s) c w → J (.call s) c w ∧
      Discipline.onAnswer Q X (M.exec s c w).1 (obs (M.exec s c w).2)) :
    Watched M obs ok J P (Prog.perform s : Prog L S R σ ε (R s)) Q X := by
  refine Discipline.Flow.perform fun A c w hA hw => ?_
  refine ⟨fun x => Discipline.onAnswer Q X (M.exec s c w).1 x, fun hok => h c w (hA _ hw) hok, ?_⟩
  cases (M.exec s c w).1 with
  | ok a => exact fun _ hv => hv
  | error e => exact fun _ hv => hv

/-- A read that may fail. -/
theorem ask {l : L} {f : σ → α} (hJ : ∀ c w, P (obs w) → ok (.ask l) c w → J (.ask l) c w)
    (hQ : ∀ w, P (obs w) → Q (f w) (obs w)) (hX : ∀ e x, P x → X e x) :
    Watched M obs ok J P (Prog.fetch l f : Prog L S R σ ε α) Q X := by
  refine fetch hJ fun c w hP _ => ?_
  unfold Machine.answer
  cases M.fault l c with
  | some e => exact hX e _ hP
  | none => exact hQ w hP

/-- Statements that keep an assertion, in any order. -/
theorem only {F : S → Prop} (hp : p.Only F)
    (hJ : ∀ l c w, P (obs w) → ok (.ask l) c w → J (.ask l) c w)
    (hcall : ∀ s c w, F s → ok (.call s) c w → P (obs w) →
      J (.call s) c w ∧ P (obs (M.exec s c w).2)) :
    Watched M obs ok J P p (fun _ => P) fun _ => P := by
  intro A hA
  induction p generalizing A with
  | ret a => exact hA
  | raise e => exact hA
  | ask l f k ih =>
    exact fun c w hw => ⟨A, fun hok => ⟨hJ l c w (hA _ hw) hok, hw⟩, ih _ (hp _) A hA⟩
  | call s k ih =>
    intro c w hw
    exact ⟨P, fun hok => hcall s c w hp.1 hok (hA _ hw), ih _ (hp.2 _) P fun _ hx => hx⟩

/-- A series of programs that all keep an assertion. -/
theorem series {ps : List (Prog L S R σ ε Unit)}
    (h : ∀ p ∈ ps, Watched M obs ok J P p (fun _ => P) fun _ => P) :
    Watched M obs ok J P (Prog.series ps) (fun _ => P) X := by
  induction ps with
  | nil => exact Discipline.Flow.ret fun _ hx => hx
  | cons p ps ih =>
    have hp : Watched M obs ok J P p.quietly (fun _ => P) X :=
      Discipline.Flow.quietly (h p (by simp))
    exact Discipline.Flow.bind hp fun _ => ih fun q hq => h q (List.mem_cons_of_mem p hq)

section Runs

variable {rec : Recorder L S σ γ} {C : Guard L S σ χ γ} {p : Prog L S R σ ε Unit}
  {Q : Unit → τ → Prop} {w : σ} {g g' : Pool L S R σ ε γ}

/-- The one thread of a pool is where an assertion holds, and `J` allows what it does from there. -/
def Stands (M : Machine L S R σ ε χ) (obs : σ → τ) (ok J : Label L S → χ → σ → Prop)
    (Q : Unit → τ → Prop) (X : ε → τ → Prop) (g : Pool L S R σ ε γ) : Prop :=
  ∃ q A, g.threads = [q] ∧ A (obs g.state) ∧
    (watched M obs ok J).Follows M (fun a A => ∀ x, A x → Q a x) (fun e A => ∀ x, A x → X e x) q A

/-- A step of the thread is one that `J` allows. -/
theorem stands_run {t : Nat} {c : χ} (hC : ∀ t l c x, C t l c x → ok l c x.1)
    (h : Stands M obs ok J Q X g) (hm : g.Meets C (.run t c))
    (hs : Pool.step M rec (.run t c) g = some g') :
    (∃ l, J l c g.state ∧ g'.state = M.after l c g.state) ∧ Stands M obs ok J Q X g' := by
  obtain ⟨q, A, hq, hA, hf⟩ := h
  obtain ⟨q', l, w', q'', hq', hst, rfl⟩ := Pool.step_run_eq hs
  have hok := hC _ _ _ _ (Pool.meets_run hm hq' (Pool.label_of_step hst))
  have ht : t = 0 := by
    have hlt := (List.getElem?_eq_some_iff.mp hq').1
    rw [hq, List.length_singleton] at hlt
    omega
  subst ht
  rw [hq] at hq'
  cases hq'
  cases q with
  | ret a => cases hst
  | raise e => cases hst
  | ask l f k =>
    cases hst
    obtain ⟨A', hmove, hk⟩ := hf c g.state hA
    exact ⟨⟨_, (hmove hok).1, rfl⟩, _, A', by rw [hq]; rfl, (hmove hok).2, hk⟩
  | call s k =>
    cases hst
    obtain ⟨A', hmove, hk⟩ := hf c g.state hA
    exact ⟨⟨_, (hmove hok).1, rfl⟩, _, A', by rw [hq]; rfl, (hmove hok).2, hk⟩

/-- So is the step it takes next. -/
theorem stands_next {q : Prog L S R σ ε Unit} {l : Label L S} {c : χ}
    (h : Stands M obs ok J Q X g) (hq : g.threads = [q]) (hl : q.label = some l)
    (hok : ok l c g.state) : J l c g.state := by
  obtain ⟨q', A, hq', hA, hf⟩ := h
  rw [hq] at hq'
  cases hq'
  cases q with
  | ret a => cases hl
  | raise e => cases hl
  | ask l' f k =>
    cases hl
    obtain ⟨A', hmove, -⟩ := hf c g.state hA
    exact (hmove hok).1
  | call s k =>
    cases hl
    obtain ⟨A', hmove, -⟩ := hf c g.state hA
    exact (hmove hok).1

theorem stands_env (hobs : ∀ c w, obs (M.env c w) = obs w) (h : Stands M obs ok J Q X g) (c : χ) :
    Stands M obs ok J Q X { g with state := M.env c g.state } := by
  obtain ⟨q, A, hq, hA, hf⟩ := h
  exact ⟨q, A, hq, (hobs c g.state).symm ▸ hA, hf⟩

/-- The run rule: from where the program stands, every run stays in what its steps make up. -/
theorem stands_reach {T : σ → σ → Prop} (hobs : ∀ c w, obs (M.env c w) = obs w)
    (henv : ∀ c w, T w (M.env c w)) (hT : ∀ l c w, J l c w → T w (M.after l c w))
    (hrefl : ∀ w, T w w) (htrans : ∀ u v w, T u v → T v w → T u w)
    (hC : ∀ t l c x, C t l c x → ok l c x.1) (h : Stands M obs ok J Q X g)
    (hr : Pool.Reach M rec C g g') : T g.state g'.state ∧ Stands M obs ok J Q X g' := by
  induction hr with
  | start => exact ⟨hrefl _, h⟩
  | @next g₁ g₂ m _ hm hs ih =>
    cases m with
    | env c =>
      cases Option.some.inj hs
      exact ⟨htrans _ _ _ ih.1 (henv c _), stands_env hobs ih.2 c⟩
    | run t c =>
      obtain ⟨⟨l, hJ, hafter⟩, hstands⟩ := stands_run hC ih.2 hm hs
      have hstep := hT l c _ hJ
      rw [← hafter] at hstep
      exact ⟨htrans _ _ _ ih.1 hstep, hstands⟩

theorem stands_start (h : Watched M obs ok J P p Q X) (hist : γ) (hP : P (obs w)) :
    Stands M obs ok J Q X (⟨w, hist, [p]⟩ : Pool L S R σ ε γ) :=
  ⟨p, P, rfl, hP, h P fun _ hx => hx⟩

end Runs

end Watched

end Interleave
