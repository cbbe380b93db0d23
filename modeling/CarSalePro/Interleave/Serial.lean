import CarSalePro.Interleave.Watched

namespace Interleave

variable {L S : Type} {R : S → Type} {σ τ ε χ γ α β δ : Type}

/-- The discipline of a program nobody works beside. Its phases are assertions about `obs`, the
part of the state the environment leaves alone, and every step keeps `I`. -/
def serially (M : Machine L S R σ ε χ) (obs : σ → τ) (ok : Label L S → χ → σ → Prop)
    (I : τ → Prop) : Discipline L S σ χ (τ → Prop) where
  view P w := P (obs w)
  moves _ l c w P' := ok l c w → I (obs (M.after l c w)) ∧ P' (obs (M.after l c w))

/-- From `P`, by steps that `ok` admits, the program ends with an answer in `Q` or an error in
`X`, and `I` holds wherever it stands on the way. -/
abbrev Serial (M : Machine L S R σ ε χ) (obs : σ → τ) (ok : Label L S → χ → σ → Prop)
    (I : τ → Prop) (P : τ → Prop) (p : Prog L S R σ ε α) (Q : α → τ → Prop) (X : ε → τ → Prop) :
    Prop :=
  (serially M obs ok I).Flow M (fun P' => ∀ x, P' x → P x) p (fun a P' => ∀ x, P' x → Q a x)
    fun e P' => ∀ x, P' x → X e x

namespace Serial

variable {M : Machine L S R σ ε χ} {obs : σ → τ} {ok : Label L S → χ → σ → Prop}
  {I P P' : τ → Prop} {p : Prog L S R σ ε α} {Q Q' : α → τ → Prop} {X X' : ε → τ → Prop}

/-- The steps that keep `I`. -/
def Keeping (M : Machine L S R σ ε χ) (obs : σ → τ) (I : τ → Prop) : Label L S → χ → σ → Prop :=
  fun l c w => I (obs (M.after l c w))

theorem weaken (h : Serial M obs ok I P p Q X) (hP : ∀ x, P' x → P x)
    (hQ : ∀ a x, Q a x → Q' a x) (hX : ∀ e x, X e x → X' e x) : Serial M obs ok I P' p Q' X' :=
  Watched.weaken (J := Keeping M obs I) h hP hQ hX

theorem pre (h : Serial M obs ok I P p Q X) (hP : ∀ x, P' x → P x) : Serial M obs ok I P' p Q X :=
  h.weaken hP (fun _ _ h => h) fun _ _ h => h

theorem post (h : Serial M obs ok I P p Q X) (hQ : ∀ a x, Q a x → Q' a x)
    (hX : ∀ e x, X e x → X' e x) : Serial M obs ok I P p Q' X' := h.weaken (fun _ h => h) hQ hX

theorem pure {a : α} (h : ∀ x, P x → Q a x) :
    Serial M obs ok I P (Pure.pure a : Prog L S R σ ε α) Q X :=
  Watched.pure (J := Keeping M obs I) h

theorem throw {e : ε} (h : ∀ x, P x → X e x) :
    Serial M obs ok I P (MonadExcept.throw e : Prog L S R σ ε α) Q X :=
  Watched.throw (J := Keeping M obs I) h

/-- The cases of an assertion. -/
theorem cases {ι : Sort*} {P : ι → τ → Prop} (h : ∀ i, Serial M obs ok I (P i) p Q X) :
    Serial M obs ok I (fun x => ∃ i, P i x) p Q X :=
  Watched.cases (J := Keeping M obs I) h

/-- A fact in the precondition that is none about the state. -/
theorem fact {F : Prop} (h : F → Serial M obs ok I P p Q X) :
    Serial M obs ok I (fun x => P x ∧ F) p Q X :=
  Watched.fact (J := Keeping M obs I) h

/-- Either of two assertions. -/
theorem either (h : Serial M obs ok I P p Q X) (h' : Serial M obs ok I P' p Q X) :
    Serial M obs ok I (fun x => P x ∨ P' x) p Q X := by
  have hb (b : Bool) : Serial M obs ok I (if b then P else P') p Q X := by
    cases b with
    | true => exact h
    | false => exact h'
  refine (cases hb).pre fun x hx => ?_
  rcases hx with hx | hx
  · exact ⟨true, hx⟩
  · exact ⟨false, hx⟩

theorem fetch {l : L} {f : σ → α} (hI : ∀ x, P x → I x)
    (h : ∀ c w, P (obs w) → ok (.ask l) c w → Discipline.onAnswer Q X (M.answer l f c w) (obs w)) :
    Serial M obs ok I P (Prog.fetch l f : Prog L S R σ ε α) Q X :=
  Watched.fetch (J := Keeping M obs I) (fun _ _ hP _ => hI _ hP) h

theorem perform {s : S} {Q : R s → τ → Prop}
    (h : ∀ c w, P (obs w) → ok (.call s) c w → I (obs (M.exec s c w).2) ∧
      Discipline.onAnswer Q X (M.exec s c w).1 (obs (M.exec s c w).2)) :
    Serial M obs ok I P (Prog.perform s : Prog L S R σ ε (R s)) Q X :=
  Watched.perform (J := Keeping M obs I) h

/-- A read that may fail. -/
theorem ask {l : L} {f : σ → α} (hI : ∀ x, P x → I x) (hQ : ∀ w, P (obs w) → Q (f w) (obs w))
    (hX : ∀ e x, P x → X e x) :
    Serial M obs ok I P (Prog.fetch l f : Prog L S R σ ε α) Q X :=
  Watched.ask (J := Keeping M obs I) (fun _ _ hP _ => hI _ hP) hQ hX

/-- Statements that keep an assertion, in any order. -/
theorem only {F : S → Prop} (hp : p.Only F) (hI : ∀ x, P x → I x)
    (hcall : ∀ s c w, F s → ok (.call s) c w → P (obs w) → P (obs (M.exec s c w).2)) :
    Serial M obs ok I P p (fun _ => P) fun _ => P := by
  refine Watched.only (J := Keeping M obs I) hp (fun _ _ _ hP _ => hI _ hP)
    fun s c w hs hok hP => ?_
  have hafter := hcall s c w hs hok hP
  exact ⟨hI _ hafter, hafter⟩

/-- What holds at every moment of the program, and of its answer once it has ended. -/
def Standing (Q : α → τ → Prop) (X : ε → τ → Prop) : Prog L S R σ ε α → τ → Prop
  | .ret a, x => Q a x
  | .raise e, x => X e x
  | .ask _ _ _, _ | .call _ _, _ => True

/-- The run rule: a program alone in its pool keeps `I` from its start to its end. -/
theorem reach {rec : Recorder L S σ γ} {C : Guard L S σ χ γ} {p : Prog L S R σ ε Unit}
    {Q : Unit → τ → Prop} {w : σ} {hist : γ} {g : Pool L S R σ ε γ}
    (h : Serial M obs ok I P p Q X) (hobs : ∀ c w, obs (M.env c w) = obs w)
    (hC : ∀ t l c x, C t l c x → ok l c x.1) (hP : P (obs w)) (hI : I (obs w))
    (hr : Pool.Reach M rec C ⟨w, hist, [p]⟩ g) :
    I (obs g.state) ∧ ∃ q, g.threads = [q] ∧ Standing Q X q (obs g.state) := by
  have hstart := Watched.stands_start (J := Keeping M obs I) h hist hP
  have hkept := Watched.stands_reach (T := fun w w' => I (obs w) → I (obs w')) hobs
    (fun c w hw => (hobs c w).symm ▸ hw) (fun l c w hJ _ => hJ) (fun _ hw => hw)
    (fun _ _ _ h h' hw => h' (h hw)) hC hstart hr
  obtain ⟨q, A, hq, hA, hf⟩ := hkept.2
  refine ⟨hkept.1 hI, q, hq, ?_⟩
  cases q with
  | ret a => exact hf _ hA
  | raise e => exact hf _ hA
  | ask l f k => trivial
  | call s k => trivial

/-- A series of programs that all keep an assertion. -/
theorem series {ps : List (Prog L S R σ ε Unit)}
    (h : ∀ p ∈ ps, Serial M obs ok I P p (fun _ => P) fun _ => P) :
    Serial M obs ok I P (Prog.series ps) (fun _ => P) X :=
  Watched.series (J := Keeping M obs I) h

/-- Such a series, and a last program that goes on from the assertion. -/
theorem series_last {ps : List (Prog L S R σ ε Unit)} {p : Prog L S R σ ε Unit} {Q : τ → Prop}
    (h : ∀ p ∈ ps, Serial M obs ok I P p (fun _ => P) fun _ => P)
    (hp : Serial M obs ok I P p (fun _ => Q) fun _ => Q) :
    Serial M obs ok I P (Prog.series (ps ++ [p])) (fun _ => Q) X := by
  induction ps with
  | nil =>
    have hlast : Serial M obs ok I P p.quietly (fun _ => Q) X := Discipline.Flow.quietly hp
    exact Discipline.Flow.bind hlast fun _ => Discipline.Flow.ret fun _ hx => hx
  | cons q ps ih =>
    have hq : Serial M obs ok I P q.quietly (fun _ => P) X :=
      Discipline.Flow.quietly (h q (by simp))
    exact Discipline.Flow.bind hq fun _ => ih fun r hr => h r (List.mem_cons_of_mem q hr)

end Serial

end Interleave
