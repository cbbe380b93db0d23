import CarSalePro.Interleave.Program

namespace Interleave

/-- What a step is about: the site of a read, or the statement issued. -/
inductive Label (L S : Type) where
  | ask (l : L)
  | call (s : S)

/-- How statements act on the shared state. The fate `χ` of a step is what the environment
decides about it: that it fails, how a provider answers, how far a clock moves. -/
structure Machine (L S : Type) (R : S → Type) (σ ε χ : Type) where
  exec : (s : S) → χ → σ → Except ε (R s) × σ
  fault : L → χ → Option ε
  env : χ → σ → σ

variable {L S : Type} {R : S → Type} {σ ε χ γ α β : Type}

/-- The answer a read gets. -/
def Machine.answer (M : Machine L S R σ ε χ) (l : L) {ρ : Type} (f : σ → ρ) (c : χ) (w : σ) :
    Except ε ρ :=
  match M.fault l c with
  | some e => .error e
  | none => .ok (f w)

namespace Prog

def label : Prog L S R σ ε α → Option (Label L S)
  | ret _ => none
  | raise _ => none
  | ask l _ _ => some (.ask l)
  | call s _ => some (.call s)

/-- One atomic step of a program: at most one statement against the shared state. -/
def step (M : Machine L S R σ ε χ) (c : χ) (w : σ) :
    Prog L S R σ ε α → Option (Label L S × σ × Prog L S R σ ε α)
  | ret _ => none
  | raise _ => none
  | ask l f k => some (.ask l, w, k (M.answer l f c w))
  | call s k => some (.call s, (M.exec s c w).2, k (M.exec s c w).1)

/-- The run of a program alone, every step meeting the same fate. -/
def alone (M : Machine L S R σ ε χ) (c : χ) : Prog L S R σ ε α → σ → Except ε α × σ
  | ret a, w => (.ok a, w)
  | raise e, w => (.error e, w)
  | ask l f k, w => (k (M.answer l f c w)).alone M c w
  | call s k, w => (k (M.exec s c w).1).alone M c (M.exec s c w).2

/-- A program alone that goes on from another's end. -/
theorem alone_bind {M : Machine L S R σ ε χ} {c : χ} {p : Prog L S R σ ε α}
    {k : α → Prog L S R σ ε β} {w : σ} : (p >>= k).alone M c w =
      match p.alone M c w with
      | (.ok a, w') => (k a).alone M c w'
      | (.error e, w') => (.error e, w') := by
  show (p.bind k).alone M c w = _
  induction p generalizing w with
  | ret a => rfl
  | raise e => rfl
  | ask l f q ih => exact ih _
  | call s q ih => exact ih _

theorem alone_fetch {ρ : Type} {M : Machine L S R σ ε χ} {c : χ} {l : L} {f : σ → ρ} {w : σ} :
    (fetch l f : Prog L S R σ ε ρ).alone M c w = (M.answer l f c w, w) := by
  show (ofExcept (M.answer l f c w)).alone M c w = _
  cases M.answer l f c w <;> rfl

theorem alone_perform {M : Machine L S R σ ε χ} {c : χ} {s : S} {w : σ} :
    (perform s : Prog L S R σ ε (R s)).alone M c w = M.exec s c w := by
  show (ofExcept (M.exec s c w).1).alone M c (M.exec s c w).2 = _
  rcases M.exec s c w with ⟨r, w'⟩
  cases r <;> rfl

theorem alone_catch {M : Machine L S R σ ε χ} {c : χ} {p : Prog L S R σ ε α}
    {f : ε → Prog L S R σ ε α} {w : σ} : (p.tryCatch f).alone M c w =
      match p.alone M c w with
      | (.ok a, w') => (.ok a, w')
      | (.error e, w') => (f e).alone M c w' := by
  induction p generalizing w with
  | ret a => rfl
  | raise e => rfl
  | ask l f q ih => exact ih _
  | call s q ih => exact ih _

theorem alone_quietly {M : Machine L S R σ ε χ} {c : χ} {p : Prog L S R σ ε α} {w : σ} :
    p.quietly.alone M c w = (.ok (), (p.alone M c w).2) := by
  have hbind : (p.bind fun _ => ret ()).alone M c w = _ := alone_bind
  rw [quietly, alone_catch, hbind]
  rcases p.alone M c w with ⟨r, w'⟩
  cases r <;> rfl

theorem alone_attempt {M : Machine L S R σ ε χ} {c : χ} {p : Prog L S R σ ε α} {w : σ} :
    p.attempt.alone M c w = (.ok (p.alone M c w).1, (p.alone M c w).2) := by
  let answered : Prog L S R σ ε (Except ε α) := p >>= fun a => ret (.ok a)
  have hbind : answered.alone M c w = _ := alone_bind
  show (answered.tryCatch fun e => ret (.error e)).alone M c w = _
  rw [alone_catch, hbind]
  rcases p.alone M c w with ⟨r, w'⟩
  cases r <;> rfl

/-- A transaction: the program alone, its effect undone when it throws. -/
def transact (M : Machine L S R σ ε χ) (c : χ) (p : Prog L S R σ ε α) (w : σ) : Except ε α × σ :=
  match p.alone M c w with
  | (.ok a, w') => (.ok a, w')
  | (.error e, _) => (.error e, w)

/-- `Q` holds of the program and of all that can be left of it. -/
def Every (Q : Prog L S R σ ε α → Prop) : Prog L S R σ ε α → Prop
  | ret a => Q (ret a)
  | raise e => Q (raise e)
  | ask l f k => Q (ask l f k) ∧ ∀ r, (k r).Every Q
  | call s k => Q (call s k) ∧ ∀ r, (k r).Every Q

/-- Where `p` issues `s`, what is left of it is `q`. -/
def IssuesAt (p : Prog L S R σ ε α) (s : S) (q : Prog L S R σ ε α) : Prop :=
  p.Every fun p' => p'.label = some (.call s) → p' = q

section Every

variable {Q : Prog L S R σ ε α → Prop} {p p' : Prog L S R σ ε α} {s : S}
  {q : Prog L S R σ ε β}

theorem Every.here (h : p.Every Q) : Q p := by
  cases p with
  | ret a => exact h
  | raise e => exact h
  | ask l f k => exact h.1
  | call s k => exact h.1

theorem Every.step {M : Machine L S R σ ε χ} {c : χ} {w w' : σ} {l : Label L S}
    (h : p.Every Q) (hs : p.step M c w = some (l, w', p')) : p'.Every Q := by
  cases p with
  | ret a => cases hs
  | raise e => cases hs
  | ask l f k => cases hs; exact h.2 _
  | call s k => cases hs; exact h.2 _

theorem issuesAt_bind {f : α → Prog L S R σ ε β} (hp : p.Only (· ≠ s))
    (hf : ∀ a, (f a).IssuesAt s q) : (p.bind f).IssuesAt s q := by
  induction p with
  | ret a => exact hf a
  | raise e => intro h; cases h
  | ask l g k ih => exact ⟨fun h => (by cases h), fun r => ih r (hp r)⟩
  | call s' k ih => exact ⟨fun h => absurd (by cases h; rfl) hp.1, fun r => ih r (hp.2 r)⟩

theorem issuesAt_only {p : Prog L S R σ ε β} (hp : p.Only (· ≠ s)) : p.IssuesAt s q := by
  induction p with
  | ret a => intro h; cases h
  | raise e => intro h; cases h
  | ask l g k ih => exact ⟨fun h => (by cases h), fun r => ih r (hp r)⟩
  | call s' k ih => exact ⟨fun h => absurd (by cases h; rfl) hp.1, fun r => ih r (hp.2 r)⟩

theorem Only.every {A : S → Prop} {p : Prog L S R σ ε α} (hp : p.Only A) :
    p.Every fun p' => ∀ s, p'.label = some (.call s) → A s := by
  induction p with
  | ret a => intro s h; cases h
  | raise e => intro s h; cases h
  | ask l f k ih => exact ⟨fun s h => (by cases h), fun r => ih r (hp r)⟩
  | call s' k ih => exact ⟨fun s h => (by cases h; exact hp.1), fun r => ih r (hp.2 r)⟩

end Every

/-- A program has ended when it returned or threw. -/
def Ended (p : Prog L S R σ ε α) : Prop := p.label = none

instance (p : Prog L S R σ ε α) : Decidable p.Ended :=
  match p with
  | ret _ => .isTrue rfl
  | raise _ => .isTrue rfl
  | ask _ _ _ => .isFalse (by simp [Ended, label])
  | call _ _ => .isFalse (by simp [Ended, label])

end Prog

/-- Programs running concurrently on one state. `hist` is a history variable: it records what
has happened and influences nothing. -/
structure Pool (L S : Type) (R : S → Type) (σ ε γ : Type) where
  state : σ
  hist : γ
  threads : List (Prog L S R σ ε Unit)

/-- One entry of a schedule: a thread takes its next step, or the environment moves. -/
inductive Move (χ : Type) where
  | run (t : Nat) (c : χ)
  | env (c : χ)

/-- How a step of a thread is recorded in the history, from the states around it. -/
abbrev Recorder (L S σ γ : Type) := Nat → Label L S → σ → σ → γ → γ

/-- A condition on steps: the thread, the step, its fate, and the state before it. -/
abbrev Guard (L S σ χ γ : Type) := Nat → Label L S → χ → σ × γ → Bool

namespace Pool

def step (M : Machine L S R σ ε χ) (rec : Recorder L S σ γ) :
    Move χ → Pool L S R σ ε γ → Option (Pool L S R σ ε γ)
  | .run t c, g => do
      let p ← g.threads[t]?
      let out ← p.step M c g.state
      some ⟨out.2.1, rec t out.1 g.state out.2.1 g.hist, g.threads.set t out.2.2⟩
  | .env c, g => some { g with state := M.env c g.state }

/-- The state and history of a pool. -/
abbrev snapshot (g : Pool L S R σ ε γ) : σ × γ := (g.state, g.hist)

/-- The next step of this move meets the condition `C`. -/
def Meets (C : Guard L S σ χ γ) (g : Pool L S R σ ε γ) : Move χ → Bool
  | .run t c => (g.threads[t]?.bind Prog.label).all fun l => C t l c g.snapshot
  | .env _ => true

/-- The pool after a whole schedule; `none` when some entry cannot be taken, or breaks the
condition. -/
def run (M : Machine L S R σ ε χ) (rec : Recorder L S σ γ) (C : Guard L S σ χ γ) :
    List (Move χ) → Pool L S R σ ε γ → Option (Pool L S R σ ε γ)
  | [], g => some g
  | m :: ms, g => if g.Meets C m then (step M rec m g).bind (run M rec C ms) else none

/-- The pools reached from `g₀` by steps that all meet `C`, in any interleaving. -/
inductive Reach (M : Machine L S R σ ε χ) (rec : Recorder L S σ γ) (C : Guard L S σ χ γ)
    (g₀ : Pool L S R σ ε γ) : Pool L S R σ ε γ → Prop
  | start : Reach M rec C g₀ g₀
  | next {g g' : Pool L S R σ ε γ} {m : Move χ} (before : Reach M rec C g₀ g)
      (meets : g.Meets C m) (step : step M rec m g = some g') : Reach M rec C g₀ g'

def AllEnded (g : Pool L S R σ ε γ) : Prop := ∀ p ∈ g.threads, p.Ended

instance (g : Pool L S R σ ε γ) : Decidable g.AllEnded :=
  inferInstanceAs (Decidable (∀ p ∈ g.threads, p.Ended))

variable {M : Machine L S R σ ε χ} {rec : Recorder L S σ γ} {C D : Guard L S σ χ γ}

theorem step_run_eq {g g' : Pool L S R σ ε γ} {t : Nat} {c : χ}
    (h : step M rec (.run t c) g = some g') :
    ∃ p l w p', g.threads[t]? = some p ∧ p.step M c g.state = some (l, w, p') ∧
      g' = ⟨w, rec t l g.state w g.hist, g.threads.set t p'⟩ := by
  simp only [step, Option.bind_eq_bind] at h
  obtain ⟨p, hp, h⟩ := Option.bind_eq_some_iff.mp h
  obtain ⟨⟨l, w, p'⟩, hs, h⟩ := Option.bind_eq_some_iff.mp h
  exact ⟨p, l, w, p', hp, hs, (Option.some.inj h).symm⟩

theorem label_of_step {p p' : Prog L S R σ ε α} {c : χ} {w w' : σ} {l : Label L S}
    (h : p.step M c w = some (l, w', p')) : p.label = some l := by
  cases p with
  | ret a => cases h
  | raise e => cases h
  | ask l f k => cases h; rfl
  | call s k => cases h; rfl

theorem meets_run {g : Pool L S R σ ε γ} {t : Nat} {c : χ} {p : Prog L S R σ ε Unit}
    {l : Label L S} (h : g.Meets C (.run t c)) (hp : g.threads[t]? = some p)
    (hl : p.label = some l) : C t l c g.snapshot := by
  simpa [Meets, hp, hl] using h

theorem Reach.trans {g₀ g g' : Pool L S R σ ε γ} (h : Reach M rec C g₀ g)
    (h' : Reach M rec C g g') : Reach M rec C g₀ g' := by
  induction h' with
  | start => exact h
  | next _ hm hs ih => exact .next ih hm hs

/-- One more step of a thread. -/
theorem Reach.take {g₀ g : Pool L S R σ ε γ} {t : Nat} {c : χ} {l : Label L S} {w : σ}
    {p p' : Prog L S R σ ε Unit} (h : Reach M rec C g₀ g) (hp : g.threads[t]? = some p)
    (hs : p.step M c g.state = some (l, w, p')) (hC : C t l c g.snapshot) :
    Reach M rec C g₀ ⟨w, rec t l g.state w g.hist, g.threads.set t p'⟩ := by
  refine .next (m := .run t c) h ?_ ?_
  · simpa [Meets, hp, label_of_step hs] using hC
  · simp [step, hp, hs]

/-- Every schedule that can be taken under the condition is a run. -/
theorem reach_of_run {ms : List (Move χ)} {g₀ g g' : Pool L S R σ ε γ}
    (hg : Reach M rec C g₀ g) (h : run M rec C ms g = some g') : Reach M rec C g₀ g' := by
  induction ms generalizing g with
  | nil => exact Option.some.inj h ▸ hg
  | cons m ms ih =>
    simp only [run] at h
    split at h
    · next hm =>
      obtain ⟨g₁, h₁, h₂⟩ := Option.bind_eq_some_iff.mp h
      exact ih (.next (m := m) hg hm h₁) h₂
    · cases h

/-- What one step makes of state and history, whichever thread takes it. -/
inductive StepOf (M : Machine L S R σ ε χ) (rec : Recorder L S σ γ) (C : Guard L S σ χ γ) :
    σ × γ → σ × γ → Prop
  | ask {x : σ × γ} (t : Nat) (l : L) (c : χ) (meets : C t (.ask l) c x) :
      StepOf M rec C x (x.1, rec t (.ask l) x.1 x.1 x.2)
  | call {x : σ × γ} (t : Nat) (s : S) (c : χ) (meets : C t (.call s) c x) :
      StepOf M rec C x ((M.exec s c x.1).2, rec t (.call s) x.1 (M.exec s c x.1).2 x.2)
  | env {x : σ × γ} (c : χ) : StepOf M rec C x (M.env c x.1, x.2)

theorem stepOf {g g' : Pool L S R σ ε γ} {m : Move χ} (hm : g.Meets C m)
    (hs : step M rec m g = some g') : StepOf M rec C g.snapshot g'.snapshot := by
  cases m with
  | env c => cases Option.some.inj hs; exact .env c
  | run t c =>
    obtain ⟨p, l, w, p', hp, hst, rfl⟩ := step_run_eq hs
    have hC := meets_run hm hp (label_of_step hst)
    cases p with
    | ret a => cases hst
    | raise e => cases hst
    | ask l f k => cases hst; exact .ask t l c hC
    | call s k => cases hst; exact .call t s c hC

/-- What every step preserves holds in every pool a run reaches. -/
theorem Reach.invariant {I : σ × γ → Prop} {g₀ g : Pool L S R σ ε γ} (h : Reach M rec C g₀ g)
    (h₀ : I g₀.snapshot) (hstep : ∀ x y, I x → StepOf M rec C x y → I y) : I g.snapshot := by
  induction h with
  | start => exact h₀
  | next _ hm hs ih => exact hstep _ _ ih (stepOf hm hs)

/-- The pool a schedule reaches from the start, and one more step, as observed by `f`. -/
def observe {β : Type} (M : Machine L S R σ ε χ) (rec : Recorder L S σ γ) (C : Guard L S σ χ γ)
    (f : Pool L S R σ ε γ → β) (ms : List (Move χ)) (m : Move χ) (g₀ : Pool L S R σ ε γ) :
    Option (β × β) :=
  (run M rec C ms g₀).bind fun g =>
    if g.Meets C m then (step M rec m g).map fun g' => (f g, f g') else none

theorem observe_eq {β : Type} {f : Pool L S R σ ε γ → β} {ms : List (Move χ)} {m : Move χ}
    {g₀ : Pool L S R σ ε γ} {a b : β} (h : observe M rec C f ms m g₀ = some (a, b)) :
    ∃ g g', Reach M rec C g₀ g ∧ g.Meets C m ∧ step M rec m g = some g' ∧ f g = a ∧ f g' = b := by
  obtain ⟨g, hg, h⟩ := Option.bind_eq_some_iff.mp h
  split at h
  · next hm =>
    obtain ⟨g', hg', h⟩ := Option.map_eq_some_iff.mp h
    exact ⟨g, g', reach_of_run .start hg, hm, hg', (Prod.mk.inj h).1, (Prod.mk.inj h).2⟩
  · cases h

/-- What holds of all that can be left of the programs holds of what is left of them. -/
theorem Reach.every {Q : Nat → Prog L S R σ ε Unit → Prop} {g₀ g : Pool L S R σ ε γ}
    (h : Reach M rec C g₀ g) (h₀ : ∀ t p, g₀.threads[t]? = some p → Prog.Every (Q t) p) :
    ∀ t p, g.threads[t]? = some p → Prog.Every (Q t) p := by
  induction h with
  | start => exact h₀
  | @next g g' m _ _ hs ih =>
    cases m with
    | env c => cases Option.some.inj hs; exact ih
    | run u c =>
      obtain ⟨p, l, w, p', hp, hst, rfl⟩ := step_run_eq hs
      intro t q hq
      by_cases ht : u = t
      · subst ht
        rw [List.getElem?_set_self (List.getElem?_eq_some_iff.mp hp).1] at hq
        cases hq
        exact (ih u p hp).step hst
      · rw [List.getElem?_set_ne ht] at hq
        exact ih t q hq

/-- The next statement of a thread is one its program can issue. -/
theorem Reach.issues {A : Nat → S → Prop} {g₀ g : Pool L S R σ ε γ} (h : Reach M rec C g₀ g)
    (h₀ : ∀ t p, g₀.threads[t]? = some p → Prog.Only (A t) p) {t : Nat}
    {p : Prog L S R σ ε Unit} {s : S} (hp : g.threads[t]? = some p)
    (hs : p.label = some (.call s)) : A t s := by
  have hevery := h.every (Q := fun t p => ∀ s, p.label = some (.call s) → A t s)
    (fun t p hp => (h₀ t p hp).every) t p hp
  exact hevery.here s hs

/-- What the steps of some statements preserve holds in every pool reached by programs that issue
no other. -/
theorem Reach.footprint {A : S → Prop} {I : σ × γ → Prop} {g₀ g : Pool L S R σ ε γ}
    (h : Reach M rec C g₀ g) (hp : ∀ p ∈ g₀.threads, p.Only A) (h₀ : I g₀.snapshot)
    (hask : ∀ t l x, I x → I (x.1, rec t (.ask l) x.1 x.1 x.2))
    (hcall : ∀ t s c x, I x → A s → C t (.call s) c x →
      I ((M.exec s c x.1).2, rec t (.call s) x.1 (M.exec s c x.1).2 x.2))
    (henv : ∀ c x, I x → I (M.env c x.1, x.2)) : I g.snapshot := by
  have hboth : I g.snapshot ∧ ∀ p ∈ g.threads, p.Only A := by
    induction h with
    | start => exact ⟨h₀, hp⟩
    | @next g g' m _ hm hs ih =>
      cases m with
      | env c =>
        cases Option.some.inj hs
        exact ⟨henv c g.snapshot ih.1, ih.2⟩
      | run t c =>
        obtain ⟨p, l, w, p', hthread, hst, rfl⟩ := step_run_eq hs
        have honly := ih.2 p (List.mem_of_getElem? hthread)
        have hC := meets_run hm hthread (label_of_step hst)
        cases p with
        | ret a => cases hst
        | raise e => cases hst
        | ask l' f k =>
          cases hst
          refine ⟨hask t l' g.snapshot ih.1, fun q hq => ?_⟩
          rcases List.mem_or_eq_of_mem_set hq with hq | rfl
          · exact ih.2 q hq
          · exact honly _
        | call s k =>
          cases hst
          refine ⟨hcall t s c g.snapshot ih.1 honly.1 hC, fun q hq => ?_⟩
          rcases List.mem_or_eq_of_mem_set hq with hq | rfl
          · exact ih.2 q hq
          · exact honly.2 _
  exact hboth.1

theorem reach_threads_length {g₀ g : Pool L S R σ ε γ} (h : Reach M rec C g₀ g) :
    g.threads.length = g₀.threads.length := by
  induction h with
  | start => rfl
  | @next g g' m _ _ hs ih =>
    cases m with
    | run t c =>
      obtain ⟨p, l, w, p', _, _, rfl⟩ := step_run_eq hs
      simpa using ih
    | env c => cases Option.some.inj hs; exact ih

end Pool

end Interleave
