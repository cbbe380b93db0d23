import Mathlib.Algebra.BigOperators.Group.Finset.Basic
import Mathlib.Logic.Function.Basic
import CarSalePro.Interleave.Pool

namespace Interleave

/-- A discipline for the threads of a pool. A thread is in a phase; the phase says which steps it
may take and which phase they lead to. `view` is what a thread in this phase may rely on of the
state it finds. -/
structure Discipline (L S σ χ φ : Type) where
  view : φ → σ → Prop
  moves : φ → Label L S → χ → σ → φ → Prop

variable {L S : Type} {R : S → Type} {σ ε χ γ φ α β : Type}

/-- The state a step leaves. -/
def Machine.after (M : Machine L S R σ ε χ) (l : Label L S) (c : χ) (w : σ) : σ :=
  match l with
  | .ask _ => w
  | .call s => (M.exec s c w).2

@[simp] theorem Machine.after_ask (M : Machine L S R σ ε χ) (l : L) (c : χ) (w : σ) :
    M.after (.ask l) c w = w := rfl

@[simp] theorem Machine.after_call (M : Machine L S R σ ε χ) (s : S) (c : χ) (w : σ) :
    M.after (.call s) c w = (M.exec s c w).2 := rfl

namespace Discipline

/-- Every step of the program is a move of the discipline, whatever state in view of its phase it
is taken in, and the program ends in a phase of `B` or, by an error, in one of `E`. -/
def Follows (D : Discipline L S σ χ φ) (M : Machine L S R σ ε χ) (B : α → φ → Prop)
    (E : ε → φ → Prop) : Prog L S R σ ε α → φ → Prop
  | .ret a, ph => B a ph
  | .raise e, ph => E e ph
  | .ask l f k, ph => ∀ c w, D.view ph w → ∃ ph', D.moves ph (.ask l) c w ph' ∧
      Follows D M B E (k (M.answer l f c w)) ph'
  | .call s k, ph => ∀ c w, D.view ph w → ∃ ph', D.moves ph (.call s) c w ph' ∧
      Follows D M B E (k (M.exec s c w).1) ph'

/-- From the phases of `A`, the program follows the discipline into `B` or `E`. -/
def Flow (D : Discipline L S σ χ φ) (M : Machine L S R σ ε χ) (A : φ → Prop)
    (p : Prog L S R σ ε α) (B : α → φ → Prop) (E : ε → φ → Prop) : Prop :=
  ∀ ph, A ph → D.Follows M B E p ph

variable {D : Discipline L S σ χ φ} {M : Machine L S R σ ε χ} {A A' : φ → Prop}
  {B B' : α → φ → Prop} {E X : ε → φ → Prop} {p : Prog L S R σ ε α} {ph : φ}

theorem Follows.mono (h : D.Follows M B E p ph) (hB : ∀ a x, B a x → B' a x)
    (hE : ∀ e x, E e x → X e x) : D.Follows M B' X p ph := by
  induction p generalizing ph with
  | ret a => exact hB a ph h
  | raise e => exact hE e ph h
  | ask l f k ih =>
    intro c w hw
    obtain ⟨ph', hm, hk⟩ := h c w hw
    exact ⟨ph', hm, ih _ hk⟩
  | call s k ih =>
    intro c w hw
    obtain ⟨ph', hm, hk⟩ := h c w hw
    exact ⟨ph', hm, ih _ hk⟩

theorem Follows.bind {f : α → Prog L S R σ ε β} {C : β → φ → Prop}
    (h : D.Follows M B E p ph) (hf : ∀ a, D.Flow M (B a) (f a) C E) :
    D.Follows M C E (p.bind f) ph := by
  induction p generalizing ph with
  | ret a => exact hf a ph h
  | raise e => exact h
  | ask l g k ih =>
    intro c w hw
    obtain ⟨ph', hm, hk⟩ := h c w hw
    exact ⟨ph', hm, ih _ hk⟩
  | call s k ih =>
    intro c w hw
    obtain ⟨ph', hm, hk⟩ := h c w hw
    exact ⟨ph', hm, ih _ hk⟩

theorem Follows.catch {f : ε → Prog L S R σ ε α} (h : D.Follows M B X p ph)
    (hf : ∀ e, D.Flow M (X e) (f e) B E) : D.Follows M B E (p.tryCatch f) ph := by
  induction p generalizing ph with
  | ret a => exact h
  | raise e => exact hf e ph h
  | ask l g k ih =>
    intro c w hw
    obtain ⟨ph', hm, hk⟩ := h c w hw
    exact ⟨ph', hm, ih _ hk⟩
  | call s k ih =>
    intro c w hw
    obtain ⟨ph', hm, hk⟩ := h c w hw
    exact ⟨ph', hm, ih _ hk⟩

theorem Flow.weaken (h : D.Flow M A p B E) (hA : ∀ x, A' x → A x)
    (hB : ∀ a x, B a x → B' a x) (hE : ∀ e x, E e x → X e x) : D.Flow M A' p B' X :=
  fun x hx => (h x (hA x hx)).mono hB hE

theorem Flow.post (h : D.Flow M A p B E) (hB : ∀ a x, B a x → B' a x)
    (hE : ∀ e x, E e x → X e x) : D.Flow M A p B' X :=
  h.weaken (fun _ hx => hx) hB hE

/-- A fact about the phase that is no fact of the phase. -/
theorem Flow.fact {Q : Prop} (h : Q → D.Flow M A p B E) : D.Flow M (fun x => A x ∧ Q) p B E :=
  fun x hx => h hx.2 x hx.1

theorem Flow.ret {a : α} (h : ∀ x, A x → B a x) :
    D.Flow M A (.ret a : Prog L S R σ ε α) B E := h

theorem Flow.pure {a : α} (h : ∀ x, A x → B a x) :
    D.Flow M A (Pure.pure a : Prog L S R σ ε α) B E := h

theorem Flow.throw {e : ε} (h : ∀ x, A x → E e x) :
    D.Flow M A (MonadExcept.throw e : Prog L S R σ ε α) B E := h

theorem Flow.bind {f : α → Prog L S R σ ε β} {C : β → φ → Prop} (h : D.Flow M A p B E)
    (hf : ∀ a, D.Flow M (B a) (f a) C E) : D.Flow M A (p.bind f) C E :=
  fun x hx => (h x hx).bind hf

theorem Flow.seq {f : α → Prog L S R σ ε β} {C : β → φ → Prop} (h : D.Flow M A p B E)
    (hf : ∀ a, D.Flow M (B a) (f a) C E) : D.Flow M A (p >>= f) C E := h.bind hf

theorem Flow.catch {f : ε → Prog L S R σ ε α} (h : D.Flow M A p B X)
    (hf : ∀ e, D.Flow M (X e) (f e) B E) : D.Flow M A (p.tryCatch f) B E :=
  fun x hx => (h x hx).catch hf

theorem Flow.handle {f : ε → Prog L S R σ ε α} (h : D.Flow M A p B X)
    (hf : ∀ e, D.Flow M (X e) (f e) B E) :
    D.Flow M A (MonadExcept.tryCatch p f : Prog L S R σ ε α) B E := h.catch hf

theorem Flow.quietly (h : D.Flow M A p (fun _ => A') (fun _ => A')) :
    D.Flow M A p.quietly (fun _ => A') E :=
  (h.bind fun _ => .ret fun _ hx => hx).catch fun _ => .ret fun _ hx => hx

/-- The phase an answer leaves: `B` when it came, `E` when the step failed. -/
def onAnswer (B : α → φ → Prop) (E : ε → φ → Prop) : Except ε α → φ → Prop
  | .ok a => B a
  | .error e => E e

theorem Flow.attempt (h : D.Flow M A p B E) :
    D.Flow M A p.attempt (onAnswer B E) X := by
  have hok (a : α) : D.Flow M (B a) (.ret (.ok a) : Prog L S R σ ε (Except ε α))
      (onAnswer B E) E := .ret fun _ hx => hx
  have herr (e : ε) : D.Flow M (E e) (.ret (.error e) : Prog L S R σ ε (Except ε α))
      (onAnswer B E) X := .ret fun _ hx => hx
  exact (h.bind hok).catch herr

theorem Flow.when {c : Prop} [Decidable c] {p : Prog L S R σ ε Unit}
    (h : c → D.Flow M A p (fun _ => A') E) (hn : ¬c → ∀ x, A x → A' x) :
    D.Flow M A (Prog.when c p) (fun _ => A') E := by
  unfold Prog.when
  split
  next hc => exact h hc
  next hc => exact .ret (hn hc)

theorem Flow.ite {c : Prop} [Decidable c] {p q : Prog L S R σ ε α}
    (hp : c → D.Flow M A p B E) (hq : ¬c → D.Flow M A q B E) :
    D.Flow M A (if c then p else q) B E := by
  split
  next hc => exact hp hc
  next hc => exact hq hc

theorem Flow.fetch {l : L} {ρ : Type} {f : σ → ρ} {B : ρ → φ → Prop}
    (h : ∀ x c w, A x → D.view x w →
      ∃ x', D.moves x (.ask l) c w x' ∧ onAnswer B E (M.answer l f c w) x') :
    D.Flow M A (Prog.fetch l f : Prog L S R σ ε ρ) B E := by
  intro x hx c w hw
  obtain ⟨x', hm, ha⟩ := h x c w hx hw
  refine ⟨x', hm, ?_⟩
  cases hr : M.answer l f c w <;> (rw [hr] at ha; exact ha)

theorem Flow.perform {s : S} {B : R s → φ → Prop}
    (h : ∀ x c w, A x → D.view x w →
      ∃ x', D.moves x (.call s) c w x' ∧ onAnswer B E (M.exec s c w).1 x') :
    D.Flow M A (Prog.perform s : Prog L S R σ ε (R s)) B E := by
  intro x hx c w hw
  obtain ⟨x', hm, ha⟩ := h x c w hx hw
  refine ⟨x', hm, ?_⟩
  cases hr : (M.exec s c w).1 <;> (rw [hr] at ha; exact ha)

/-- A program that issues only statements of `F` stays in a phase that allows them. -/
theorem Flow.only {F : S → Prop} (hp : p.Only F)
    (hask : ∀ x l c w, A x → D.view x w → D.moves x (.ask l) c w x)
    (hcall : ∀ x s c w, A x → F s → D.view x w → D.moves x (.call s) c w x) :
    D.Flow M A p (fun _ => A) (fun _ => A) := by
  intro x hx
  induction p with
  | ret a => exact hx
  | raise e => exact hx
  | ask l f k ih => exact fun c w hw => ⟨x, hask x l c w hx hw, ih _ (hp _)⟩
  | call s k ih => exact fun c w hw => ⟨x, hcall x s c w hx hp.1 hw, ih _ (hp.2 _)⟩

theorem Flow.forEach {δ : Type} {bs : List δ} {f : δ → Prog L S R σ ε Unit}
    (hf : ∀ b ∈ bs, D.Flow M A (f b) (fun _ => A) E) :
    D.Flow M A (Prog.forEach bs f) (fun _ => A) E := by
  induction bs with
  | nil => exact .ret fun _ hx => hx
  | cons b bs ih =>
    exact (hf b (by simp)).bind fun _ => ih fun c hc => hf c (List.mem_cons_of_mem b hc)

theorem Flow.countEach {δ : Type} {bs : List δ} {f : δ → Prog L S R σ ε Bool}
    (hf : ∀ b ∈ bs, D.Flow M A (f b) (fun _ => A) E) :
    D.Flow M A (Prog.countEach bs f) (fun _ => A) E := by
  induction bs with
  | nil => exact .ret fun _ hx => hx
  | cons b bs ih =>
    refine (hf b (by simp)).bind fun _ => Flow.bind (B := fun _ => A) ?_ fun _ => ?_
    · exact ih fun c hc => hf c (List.mem_cons_of_mem b hc)
    · exact .ret fun _ hx => hx

/-- An invariant of the phases, the state and the history. It shows every thread what its phase
promises, and survives every move of the discipline and of the environment. -/
structure Invariant (D : Discipline L S σ χ φ) (M : Machine L S R σ ε χ)
    (rec : Recorder L S σ γ) (C : Guard L S σ χ γ) (I : (Nat → φ) → σ × γ → Prop) : Prop where
  view : ∀ Φ x t, I Φ x → D.view (Φ t) x.1
  move : ∀ Φ x t l c ph, I Φ x → C t l c x → D.moves (Φ t) l c x.1 ph →
    I (Function.update Φ t ph) (M.after l c x.1, rec t l x.1 (M.after l c x.1) x.2)
  env : ∀ Φ x c, I Φ x → I Φ (M.env c x.1, x.2)

variable {rec : Recorder L S σ γ} {C : Guard L S σ χ γ} {I : (Nat → φ) → σ × γ → Prop}
  {rest : φ → Prop} {Φ : Nat → φ} {g g' g₀ : Pool L S R σ ε γ} {t : Nat} {c : χ}

/-- The next step of a thread that follows the discipline is a move from its phase. -/
theorem Invariant.next {B : Unit → φ → Prop} (hI : D.Invariant M rec C I) (h : I Φ g.snapshot)
    (hf : ∀ p, g.threads[t]? = some p → D.Follows M B E p (Φ t))
    (hs : Pool.step M rec (.run t c) g = some g') :
    ∃ p l p' ph, g.threads[t]? = some p ∧ p.label = some l ∧
      D.moves (Φ t) l c g.state ph ∧ g'.threads = g.threads.set t p' ∧ D.Follows M B E p' ph ∧
      g'.snapshot = (M.after l c g.state, rec t l g.state (M.after l c g.state) g.hist) := by
  obtain ⟨p, l, w, p', hp, hst, rfl⟩ := Pool.step_run_eq hs
  have hview := hI.view Φ g.snapshot t h
  have hf := hf p hp
  cases p with
  | ret a => cases hst
  | raise e => cases hst
  | ask l f k =>
    cases hst
    obtain ⟨ph, hm, hk⟩ := hf c g.state hview
    exact ⟨_, _, _, ph, hp, rfl, hm, rfl, hk, rfl⟩
  | call s k =>
    cases hst
    obtain ⟨ph, hm, hk⟩ := hf c g.state hview
    exact ⟨_, _, _, ph, hp, rfl, hm, rfl, hk, rfl⟩

/-- One step of threads that follow the discipline, each to ends of its own, keeps the
invariant. -/
theorem Invariant.step {B : Nat → Unit → φ → Prop} {E : Nat → ε → φ → Prop}
    (hI : D.Invariant M rec C I) (h : I Φ g.snapshot)
    (hf : ∀ t p, g.threads[t]? = some p → D.Follows M (B t) (E t) p (Φ t)) {m : Move χ}
    (hm : g.Meets C m) (hs : Pool.step M rec m g = some g') :
    ∃ Ψ, I Ψ g'.snapshot ∧
      (∀ t p, g'.threads[t]? = some p → D.Follows M (B t) (E t) p (Ψ t)) ∧
      ∀ t, g.threads.length ≤ t → Ψ t = Φ t := by
  cases m with
  | env c =>
    cases Option.some.inj hs
    exact ⟨Φ, hI.env Φ g.snapshot c h, hf, fun _ _ => rfl⟩
  | run t c =>
    obtain ⟨p, l, p', ph, hp, hl, hmove, hthreads, hk, hsnap⟩ := hI.next h (hf t) hs
    have ht : t < g.threads.length := (List.getElem?_eq_some_iff.mp hp).1
    refine ⟨Function.update Φ t ph, ?_, fun u q hq => ?_, fun u hu => ?_⟩
    · rw [hsnap]
      exact hI.move Φ g.snapshot t l c ph h (Pool.meets_run hm hp hl) hmove
    · rw [hthreads] at hq
      by_cases hu : t = u
      · subst hu
        rw [List.getElem?_set_self ht] at hq
        cases hq
        rw [Function.update_self]
        exact hk
      · rw [List.getElem?_set_ne hu] at hq
        rw [Function.update_of_ne (Ne.symm hu)]
        exact hf u q hq
    · exact Function.update_of_ne (by omega) _ _

/-- The run rule for threads that follow the discipline, each to ends of its own. -/
theorem Invariant.reach {B : Nat → Unit → φ → Prop} {E : Nat → ε → φ → Prop}
    (hI : D.Invariant M rec C I) (h₀ : I Φ g₀.snapshot)
    (hf : ∀ t p, g₀.threads[t]? = some p → D.Follows M (B t) (E t) p (Φ t))
    (hr : Pool.Reach M rec C g₀ g) :
    ∃ Ψ, I Ψ g.snapshot ∧
      (∀ t p, g.threads[t]? = some p → D.Follows M (B t) (E t) p (Ψ t)) ∧
      ∀ t, g.threads.length ≤ t → Ψ t = Φ t := by
  induction hr with
  | start => exact ⟨Φ, h₀, hf, fun _ _ => rfl⟩
  | @next g g' m before hm hs ih =>
    obtain ⟨Ψ, hinv, hthreads, habsent⟩ := ih
    obtain ⟨Ψ', hinv', hthreads', habsent'⟩ := hI.step hinv hthreads hm hs
    have hlen : g'.threads.length = g.threads.length :=
      Pool.reach_threads_length (.next .start hm hs)
    refine ⟨Ψ', hinv', hthreads', fun t ht => ?_⟩
    rw [habsent' t (hlen ▸ ht), habsent t (hlen ▸ ht)]

/-- The invariant holds, and every thread follows the discipline from its phase. -/
structure Kept (D : Discipline L S σ χ φ) (M : Machine L S R σ ε χ)
    (I : (Nat → φ) → σ × γ → Prop) (rest : φ → Prop) (Φ : Nat → φ) (g : Pool L S R σ ε γ) :
    Prop where
  inv : I Φ g.snapshot
  threads : ∀ t p, g.threads[t]? = some p → D.Follows M (fun _ => rest) (fun _ => rest) p (Φ t)
  absent : ∀ t, g.threads.length ≤ t → rest (Φ t)

/-- The next step of a thread is a move from its phase. -/
theorem Kept.move (hI : D.Invariant M rec C I) (h : D.Kept M I rest Φ g)
    (hs : Pool.step M rec (.run t c) g = some g') :
    ∃ p l p' ph, g.threads[t]? = some p ∧ p.label = some l ∧
      D.moves (Φ t) l c g.state ph ∧ g'.threads = g.threads.set t p' ∧
      D.Follows M (fun _ => rest) (fun _ => rest) p' ph ∧
      g'.snapshot = (M.after l c g.state, rec t l g.state (M.after l c g.state) g.hist) :=
  hI.next h.inv (h.threads t) hs

theorem Kept.step (hI : D.Invariant M rec C I) (h : D.Kept M I rest Φ g) {m : Move χ}
    (hm : g.Meets C m) (hs : Pool.step M rec m g = some g') : ∃ Ψ, D.Kept M I rest Ψ g' := by
  obtain ⟨Ψ, hinv, hthreads, habsent⟩ := hI.step h.inv h.threads hm hs
  refine ⟨Ψ, hinv, hthreads, fun t ht => ?_⟩
  have hlen : g'.threads.length = g.threads.length := Pool.reach_threads_length (.next .start hm hs)
  rw [habsent t (hlen ▸ ht)]
  exact h.absent t (hlen ▸ ht)

/-- The run rule: an invariant of the discipline holds in every pool reached by threads that
follow it. -/
theorem kept_of_reach (hI : D.Invariant M rec C I) (h₀ : D.Kept M I rest Φ g₀)
    (hr : Pool.Reach M rec C g₀ g) : ∃ Ψ, D.Kept M I rest Ψ g := by
  induction hr with
  | start => exact ⟨Φ, h₀⟩
  | next _ hm hs ih =>
    obtain ⟨Ψ, h⟩ := ih
    exact h.step hI hm hs

/-- A thread whose phase is not one of rest is running. -/
theorem Kept.running (h : D.Kept M I rest Φ g) (hr : ¬ rest (Φ t)) :
    ∃ p, g.threads[t]? = some p ∧ ¬ p.Ended := by
  cases hp : g.threads[t]? with
  | none => exact absurd (h.absent t (List.getElem?_eq_none_iff.mp hp)) hr
  | some p =>
    refine ⟨p, rfl, fun he => hr ?_⟩
    have hf := h.threads t p hp
    cases p with
    | ret a => exact hf
    | raise e => exact hf
    | ask l f k => cases he
    | call s k => cases he

/-- When all threads have ended, every phase is one of rest. -/
theorem Kept.ended (h : D.Kept M I rest Φ g) (hend : g.AllEnded) (t : Nat) : rest (Φ t) := by
  by_contra hr
  obtain ⟨p, hp, hrun⟩ := h.running hr
  exact hrun (hend p (List.mem_of_getElem? hp))

end Discipline

section Outstanding

variable {φ : Type} {v : φ → Int} {Φ : Nat → φ} {n : Int} {t : Nat}

/-- What all threads together have outstanding, when `v` says what a phase has. -/
def Outstanding (v : φ → Int) (Φ : Nat → φ) (n : Int) : Prop :=
  ∃ S : Finset Nat, (∀ t, t ∉ S → v (Φ t) = 0) ∧ n = ∑ t ∈ S, v (Φ t)

theorem Outstanding.none (h : ∀ t, v (Φ t) = 0) : Outstanding v Φ 0 :=
  ⟨∅, fun t _ => h t, rfl⟩

/-- One thread moves. -/
theorem Outstanding.update (h : Outstanding v Φ n) (ph : φ) :
    Outstanding v (Function.update Φ t ph) (n + (v ph - v (Φ t))) := by
  obtain ⟨S, hrest, rfl⟩ := h
  refine ⟨insert t S, fun u hu => ?_, ?_⟩
  · have hut : u ≠ t := fun he => hu (he ▸ Finset.mem_insert_self t S)
    rw [Function.update_of_ne hut]
    exact hrest u fun hS => hu (Finset.mem_insert_of_mem hS)
  · have hothers : ∑ u ∈ S.erase t, v (Function.update Φ t ph u) = ∑ u ∈ S.erase t, v (Φ u) := by
      refine Finset.sum_congr rfl fun u hu => ?_
      rw [Function.update_of_ne (Finset.ne_of_mem_erase hu)]
    have hafter : ∑ u ∈ insert t S, v (Function.update Φ t ph u) =
        v ph + ∑ u ∈ S.erase t, v (Φ u) := by
      rw [← hothers, ← Finset.add_sum_erase _ _ (Finset.mem_insert_self t S),
        Function.update_self, Finset.erase_insert_eq_erase]
    have hbefore : ∑ u ∈ S, v (Φ u) = v (Φ t) + ∑ u ∈ S.erase t, v (Φ u) := by
      by_cases ht : t ∈ S
      · exact (Finset.add_sum_erase S _ ht).symm
      · rw [Finset.erase_eq_of_notMem ht, hrest t ht, zero_add]
    rw [hafter, hbefore]
    omega

/-- When no thread has anything outstanding, nothing is. -/
theorem Outstanding.eq_zero (h : Outstanding v Φ n) (hrest : ∀ t, v (Φ t) = 0) : n = 0 := by
  obtain ⟨S, -, rfl⟩ := h
  exact Finset.sum_eq_zero fun t _ => hrest t

end Outstanding

end Interleave
