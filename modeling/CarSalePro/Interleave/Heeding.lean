import CarSalePro.Interleave.Discipline

namespace Interleave

variable {L S : Type} {R : S → Type} {σ ε χ γ α β : Type}

/-- The discipline of programs that rely on an invariant and keep it: met in `V` only, they issue
only the statements of `A`. -/
def heeding (V : σ → Prop) (A : S → Prop) : Discipline L S σ χ Unit where
  view _ w := V w
  moves _ l _ _ _ := ∀ s, l = .call s → A s

/-- As long as the states it meets are in `V`, the program issues only statements of `A`, and what
it answers is in `Q`. -/
abbrev Heeds (M : Machine L S R σ ε χ) (V : σ → Prop) (A : S → Prop) (p : Prog L S R σ ε α)
    (Q : α → Prop) : Prop :=
  (heeding V A).Flow M (fun _ => True) p (fun a _ => Q a) fun _ _ => True

namespace Heeds

variable {M : Machine L S R σ ε χ} {V : σ → Prop} {A : S → Prop} {p : Prog L S R σ ε α}
  {Q Q' : α → Prop}

theorem pure {a : α} (h : Q a) : Heeds M V A (Pure.pure a : Prog L S R σ ε α) Q :=
  Discipline.Flow.pure fun _ _ => h

theorem throw {e : ε} : Heeds M V A (MonadExcept.throw e : Prog L S R σ ε α) Q :=
  Discipline.Flow.throw fun _ _ => trivial

/-- What is answered is what the rest may rely on. -/
theorem seq {k : α → Prog L S R σ ε β} {Q' : β → Prop} (h : Heeds M V A p Q)
    (hk : ∀ a, Q a → Heeds M V A (k a) Q') : Heeds M V A (p >>= k) Q' :=
  Discipline.Flow.seq h fun a x ha => hk a ha x trivial

theorem ite {c : Prop} [Decidable c] {q : Prog L S R σ ε α} (hp : c → Heeds M V A p Q)
    (hq : ¬ c → Heeds M V A q Q) : Heeds M V A (if c then p else q) Q :=
  Discipline.Flow.ite hp hq

/-- A read answers with what holds of a state in `V`. -/
theorem fetch {l : L} {f : σ → α} (h : ∀ w, V w → Q (f w)) :
    Heeds M V A (Prog.fetch l f : Prog L S R σ ε α) Q := by
  apply Discipline.Flow.fetch
  intro x c w _ hw
  have hmove : (heeding V A).moves x (.ask l) c w x := by
    intro s hs
    cases hs
  refine ⟨x, hmove, ?_⟩
  unfold Machine.answer
  cases M.fault l c with
  | some e => trivial
  | none => exact h w hw

theorem perform {s : S} (h : A s) :
    Heeds M V A (Prog.perform s : Prog L S R σ ε (R s)) fun _ => True := by
  apply Discipline.Flow.perform
  intro x c w _ _
  have hmove : (heeding V A).moves x (.call s : Label L S) c w x := by
    intro s' hs
    cases hs
    exact h
  refine ⟨x, hmove, ?_⟩
  cases (M.exec s c w).1 <;> trivial

/-- A program that issues only statements of `A` whatever it meets. -/
theorem only (h : p.Only A) : Heeds M V A p fun _ => True := by
  have hflow : (heeding V A).Flow M (fun _ => True) p (fun _ _ => True) fun _ _ => True := by
    apply Discipline.Flow.only h
    · intro x l c w _ _ s hs
      cases hs
    · intro x s c w _ hs _ s' hs'
      cases hs'
      exact hs
  exact hflow

/-- The run rule: the invariant that all programs rely on is kept by all of them. -/
theorem reach {rec : Recorder L S σ γ} {C : Guard L S σ χ γ} {g₀ g : Pool L S R σ ε γ}
    (hcall : ∀ s c w, A s → V w → V (M.exec s c w).2) (henv : ∀ c w, V w → V (M.env c w))
    (hstart : V g₀.state) (hp : ∀ p ∈ g₀.threads, Heeds M V A p fun _ => True)
    (hr : Pool.Reach M rec C g₀ g) : V g.state := by
  have hkept : (heeding V A).Invariant M rec C fun (_ : Nat → Unit) x => V x.1 := by
    refine ⟨fun _ _ _ h => h, fun _ x t l c ph h _ hm => ?_, fun _ x c h => henv c x.1 h⟩
    cases l with
    | ask l => exact h
    | call s => exact hcall s c x.1 (hm s rfl) h
  obtain ⟨_, hinv, -⟩ := hkept.reach (Φ := fun _ => ()) (B := fun _ _ _ => True)
    (E := fun _ _ _ => True) hstart
    (fun t p hthread => hp p (List.mem_of_getElem? hthread) () trivial) hr
  exact hinv

end Heeds

end Interleave
