import CarSalePro.Interleave.Discipline

namespace Interleave

variable {L S : Type} {R : S → Type} {σ ε χ γ φ α β : Type}

/-- The discipline of threads that remember, by `note`, what they have done, in which states and to
which it led. A thread issues only the statements that `may` allows after what it remembers. Of a
step that is not `fair` nothing is asked. -/
def recallingAfter (M : Machine L S R σ ε χ) (fair : Label L S → χ → σ → Prop)
    (note : φ → Label L S → σ → σ → φ) (may : φ → S → Prop) : Discipline L S σ χ φ where
  view _ _ := True
  moves seen l c w seen' :=
    fair l c w → seen' = note seen l w (M.after l c w) ∧
      match l with
      | .ask _ => True
      | .call s => may seen s

/-- What a program does after what is remembered in `A`, when its steps are fair; nothing is said of
where an error leaves it. -/
abbrev RecallsAfter (M : Machine L S R σ ε χ) (fair : Label L S → χ → σ → Prop)
    (note : φ → Label L S → σ → σ → φ) (may : φ → S → Prop) (A : φ → Prop)
    (p : Prog L S R σ ε α) (B : α → φ → Prop) : Prop :=
  (recallingAfter M fair note may).Flow M A p B fun _ _ => True

/-- As before, where a thread remembers nothing of the state a step leaves. -/
abbrev RecallsFair (M : Machine L S R σ ε χ) (fair : Label L S → χ → σ → Prop)
    (note : φ → Label L S → σ → φ) (may : φ → S → Prop) (A : φ → Prop) (p : Prog L S R σ ε α)
    (B : α → φ → Prop) : Prop :=
  RecallsAfter M fair (fun seen l w _ => note seen l w) may A p B

/-- What a program does after what is remembered in `A`, in steps of any kind. -/
abbrev Recalls (M : Machine L S R σ ε χ) (note : φ → Label L S → σ → φ) (may : φ → S → Prop)
    (A : φ → Prop) (p : Prog L S R σ ε α) (B : α → φ → Prop) : Prop :=
  RecallsFair M (fun _ _ _ => True) note may A p B

namespace Recalls

variable {M : Machine L S R σ ε χ} {fair : Label L S → χ → σ → Prop}
  {note : φ → Label L S → σ → σ → φ} {may : φ → S → Prop} {A : φ → Prop}

theorem fetch {l : L} {ρ : Type} {f : σ → ρ} {B : ρ → φ → Prop}
    (h : ∀ seen w, A seen → B (f w) (note seen (.ask l) w w)) :
    RecallsAfter M fair note may A (Prog.fetch l f : Prog L S R σ ε ρ) B := by
  refine Discipline.Flow.fetch fun seen c w hseen _ => ⟨_, fun _ => ⟨rfl, trivial⟩, ?_⟩
  unfold Machine.answer
  cases M.fault l c with
  | none => exact h seen w hseen
  | some e => trivial

/-- A fair read. -/
theorem fetch_fair {l : L} {ρ : Type} {f : σ → ρ} {B : ρ → φ → Prop}
    (h : ∀ seen c w, A seen → fair (.ask l) c w → B (f w) (note seen (.ask l) w w))
    (hB : ∀ r, ∃ seen, B r seen) :
    RecallsAfter M fair note may A (Prog.fetch l f : Prog L S R σ ε ρ) B := by
  refine Discipline.Flow.fetch fun seen c w hseen _ => ?_
  unfold Machine.answer
  by_cases hfair : fair (.ask l) c w
  · refine ⟨_, fun _ => ⟨rfl, trivial⟩, ?_⟩
    cases M.fault l c with
    | none => exact h seen c w hseen hfair
    | some e => trivial
  · obtain ⟨any, hany⟩ := hB (f w)
    refine ⟨any, fun h => absurd h hfair, ?_⟩
    cases M.fault l c with
    | none => exact hany
    | some e => trivial

theorem perform {s : S} {B : R s → φ → Prop} (hmay : ∀ seen, A seen → may seen s)
    (h : ∀ seen c w r, A seen → (M.exec s c w).1 = .ok r →
      B r (note seen (.call s) w (M.exec s c w).2)) :
    RecallsAfter M fair note may A (Prog.perform s : Prog L S R σ ε (R s)) B := by
  refine Discipline.Flow.perform fun seen c w hseen _ =>
    ⟨_, fun _ => ⟨rfl, hmay seen hseen⟩, ?_⟩
  cases hr : (M.exec s c w).1 with
  | ok r => exact h seen c w r hseen hr
  | error e => trivial

/-- A fair statement, answered or failed. -/
theorem attempt_fair {s : S} {B : Except ε (R s) → φ → Prop} (hmay : ∀ seen, A seen → may seen s)
    (h : ∀ seen c w, A seen → fair (.call s) c w →
      B (M.exec s c w).1 (note seen (.call s) w (M.exec s c w).2))
    (hB : ∀ r, ∃ seen, B r seen) :
    RecallsAfter M fair note may A
      (Prog.perform s : Prog L S R σ ε (R s)).attempt B := by
  have hstmt : (recallingAfter M fair note may).Flow M A (Prog.perform s : Prog L S R σ ε (R s))
      (fun r => B (.ok r)) (fun e => B (.error e)) := by
    refine Discipline.Flow.perform fun seen c w hseen _ => ?_
    have hanswer (r : Except ε (R s)) (x : φ) (hx : B r x) :
        Discipline.onAnswer (fun r => B (.ok r)) (fun e => B (.error e)) r x := by
      cases r <;> exact hx
    by_cases hfair : fair (.call s) c w
    · exact ⟨_, fun _ => ⟨rfl, hmay seen hseen⟩, hanswer _ _ (h seen c w hseen hfair)⟩
    · obtain ⟨any, hany⟩ := hB (M.exec s c w).1
      exact ⟨any, fun h => absurd h hfair, hanswer _ _ hany⟩
  refine (Discipline.Flow.attempt (X := fun _ _ => True) hstmt).post (fun r x hx => ?_)
    fun _ _ h => h
  cases r <;> exact hx

/-- A statement that `A` outlasts, answered or failed. -/
theorem kept {s : S} (hmay : ∀ seen, A seen → may seen s)
    (hA : ∀ seen c w, A seen → A (note seen (.call s) w (M.exec s c w).2)) :
    (recallingAfter M fair note may).Flow M A (Prog.perform s : Prog L S R σ ε (R s)) (fun _ => A)
      (fun _ => A) := by
  refine Discipline.Flow.perform fun seen c w hseen _ =>
    ⟨_, fun _ => ⟨rfl, hmay seen hseen⟩, ?_⟩
  cases (M.exec s c w).1 <;> exact hA seen c w hseen

/-- A program whose statements are all allowed, whatever is remembered. -/
theorem free {F : S → Prop} {p : Prog L S R σ ε α} (hp : p.Only F)
    (hF : ∀ seen s, F s → may seen s) : RecallsAfter M fair note may A p fun _ _ => True := by
  intro seen hseen
  clear hseen
  induction p generalizing seen with
  | ret a => trivial
  | raise e => trivial
  | ask l f k ih => exact fun c w _ => ⟨_, fun _ => ⟨rfl, trivial⟩, ih _ (hp _) _⟩
  | call s k ih => exact fun c w _ => ⟨_, fun _ => ⟨rfl, hF seen s hp.1⟩, ih _ (hp.2 _) _⟩

/-- Statements that are allowed, and nothing noted that `A` would not outlast. -/
theorem only_after {F : S → Prop} {p : Prog L S R σ ε α} (hp : p.Only F)
    (hF : ∀ seen s, A seen → F s → may seen s) (hA : ∀ seen l w w', A seen → A (note seen l w w')) :
    RecallsAfter M fair note may A p fun _ => A := by
  intro seen hseen
  induction p generalizing seen with
  | ret a => exact hseen
  | raise e => trivial
  | ask l f k ih =>
    exact fun c w _ => ⟨_, fun _ => ⟨rfl, trivial⟩, ih _ (hp _) _ (hA _ _ _ _ hseen)⟩
  | call s k ih =>
    exact fun c w _ => ⟨_, fun _ => ⟨rfl, hF seen s hseen hp.1⟩, ih _ (hp.2 _) _ (hA _ _ _ _ hseen)⟩

theorem only {note : φ → Label L S → σ → φ} {F : S → Prop} {p : Prog L S R σ ε α}
    (hp : p.Only F) (hF : ∀ seen s, A seen → F s → may seen s)
    (hA : ∀ seen l w, A seen → A (note seen l w)) :
    RecallsFair M fair note may A p fun _ => A :=
  only_after hp hF fun seen l w _ => hA seen l w

end Recalls

/-- `memory` is the part of the history that holds what each thread remembers. -/
def RecordsAfter (rec : Recorder L S σ γ) (note : φ → Label L S → σ → σ → φ)
    (memory : γ → Nat → φ) : Prop :=
  ∀ t l w w' h, memory (rec t l w w' h) =
    Function.update (memory h) t (note (memory h t) l w w')

abbrev Records (rec : Recorder L S σ γ) (note : φ → Label L S → σ → φ) (memory : γ → Nat → φ) :
    Prop :=
  RecordsAfter rec (fun seen l w _ => note seen l w) memory

variable {M : Machine L S R σ ε χ} {fair : Label L S → χ → σ → Prop}
  {note : φ → Label L S → σ → σ → φ} {may : φ → S → Prop} {rec : Recorder L S σ γ}
  {C : Guard L S σ χ γ} {memory : γ → Nat → φ} {g₀ g g' : Pool L S R σ ε γ}

theorem recalling_invariant (hrec : RecordsAfter rec note memory)
    (hfair : ∀ t l c x, C t l c x → fair l c x.1) :
    (recallingAfter M fair note may).Invariant M rec C fun Φ x => Φ = memory x.2 where
  view _ _ _ _ := trivial
  move Φ x t l c seen hΦ hC hm := by
    subst hΦ
    show Function.update (memory x.2) t seen = memory _
    rw [hrec, (hm (hfair t l c x hC)).1]
  env _ _ _ h := h

/-- Every statement a thread issues in a fair step is one it may issue after what it remembers. -/
theorem recalled_fair (hrec : RecordsAfter rec note memory)
    (hfair : ∀ t l c x, C t l c x → fair l c x.1)
    (hthreads : ∀ t p, g₀.threads[t]? = some p →
      RecallsAfter M fair note may (· = memory g₀.hist t) p fun _ _ => True)
    (hg : Pool.Reach M rec C g₀ g) {t : Nat} {p : Prog L S R σ ε Unit} {s : S}
    (hp : g.threads[t]? = some p) (hs : p.label = some (.call s)) {c : χ}
    (hstep : fair (.call s) c g.state) : may (memory g.hist t) s := by
  obtain ⟨Φ, hΦ, hfollows, -⟩ := (recalling_invariant hrec hfair).reach
    (B := fun _ _ _ => True) (E := fun _ _ _ => True) rfl
    (fun t p hp => hthreads t p hp _ rfl) hg
  have hnext := hfollows t p hp
  cases p with
  | ret a => cases hs
  | raise e => cases hs
  | ask l f k => cases hs
  | call s' k =>
    cases hs
    obtain ⟨seen, hm, -⟩ := hnext c g.state trivial
    rw [hΦ] at hm
    exact (hm hstep).2

theorem recalled {note : φ → Label L S → σ → φ}
    (hrec : Records rec note memory)
    (hthreads : ∀ t p, g₀.threads[t]? = some p →
      Recalls M note may (· = memory g₀.hist t) p fun _ _ => True)
    (hg : Pool.Reach M rec C g₀ g) {t : Nat} {p : Prog L S R σ ε Unit} {s : S}
    (hp : g.threads[t]? = some p) (hs : p.label = some (.call s)) (c : χ) :
    may (memory g.hist t) s :=
  recalled_fair (c := c) hrec (fun _ _ _ _ _ => trivial) hthreads hg hp hs trivial

/-- What every step keeps, given what its thread may do after what it remembers. -/
theorem recalled_keeps {J : σ × γ → Prop} (hrec : RecordsAfter rec note memory)
    (hthreads : ∀ t p, g₀.threads[t]? = some p →
      RecallsAfter M (fun _ _ _ => True) note may (· = memory g₀.hist t) p fun _ _ => True)
    (hstart : J g₀.snapshot)
    (hask : ∀ t l c x, J x → C t (.ask l) c x → J (x.1, rec t (.ask l) x.1 x.1 x.2))
    (hcall : ∀ t s c x, J x → may (memory x.2 t) s → C t (.call s) c x →
      J ((M.exec s c x.1).2, rec t (.call s) x.1 (M.exec s c x.1).2 x.2))
    (henv : ∀ c x, J x → J (M.env c x.1, x.2)) (hg : Pool.Reach M rec C g₀ g) : J g.snapshot := by
  have hinv : (recallingAfter M (fun _ _ _ => True) note may).Invariant M rec C
      fun Φ x => Φ = memory x.2 ∧ J x := by
    have hrecall : (recallingAfter M (fun _ _ _ => True) note may).Invariant M rec C
        fun Φ x => Φ = memory x.2 := recalling_invariant hrec fun _ _ _ _ _ => trivial
    refine ⟨fun _ _ _ _ => trivial, fun Φ x t l c seen h hC hm => ?_, fun Φ x c h => ?_⟩
    · refine ⟨hrecall.move Φ x t l c seen h.1 hC hm, ?_⟩
      cases l with
      | ask l => exact hask t l c x h.2 hC
      | call s => exact hcall t s c x h.2 (h.1 ▸ (hm trivial).2) hC
    · exact ⟨h.1, henv c x h.2⟩
  obtain ⟨Φ, h, -⟩ := hinv.reach (B := fun _ _ _ => True) (E := fun _ _ _ => True)
    ⟨rfl, hstart⟩ (fun t p hp => hthreads t p hp _ rfl) hg
  exact h.2

section Implies

variable {D : Guard L S σ χ γ} {J : σ × γ → Prop}

/-- A step that meets `C` meets `D`, when `D` follows from what holds of the state, `J`, and for a
statement from what its thread remembers. -/
theorem recalledFair_meets (hrec : RecordsAfter rec note memory)
    (hfair : ∀ t l c x, C t l c x → fair l c x.1)
    (hthreads : ∀ t p, g₀.threads[t]? = some p →
      RecallsAfter M fair note may (· = memory g₀.hist t) p fun _ _ => True)
    (hJ : J g.snapshot) (hask : ∀ t l c x, J x → C t (.ask l) c x → D t (.ask l) c x)
    (hcall : ∀ t s c x, J x → may (memory x.2 t) s → C t (.call s) c x → D t (.call s) c x)
    (hg : Pool.Reach M rec C g₀ g) {m : Move χ} (hm : g.Meets C m) : g.Meets D m := by
  cases m with
  | env c => rfl
  | run t c =>
    simp only [Pool.Meets, Option.all_eq_true] at hm ⊢
    intro l hl
    obtain ⟨p, hp, hlabel⟩ := Option.bind_eq_some_iff.mp hl
    cases l with
    | ask l => exact hask t l c _ hJ (hm _ hl)
    | call s =>
      have hmay := recalled_fair hrec hfair hthreads hg hp hlabel (hfair _ _ _ _ (hm _ hl))
      exact hcall t s c _ hJ hmay (hm _ hl)

/-- What comes after a run under `C`, under `C` too, is a run under `D`. -/
theorem recalledFair_later (hrec : RecordsAfter rec note memory)
    (hfair : ∀ t l c x, C t l c x → fair l c x.1)
    (hthreads : ∀ t p, g₀.threads[t]? = some p →
      RecallsAfter M fair note may (· = memory g₀.hist t) p fun _ _ => True)
    (hJ : ∀ g, Pool.Reach M rec C g₀ g → J g.snapshot)
    (hask : ∀ t l c x, J x → C t (.ask l) c x → D t (.ask l) c x)
    (hcall : ∀ t s c x, J x → may (memory x.2 t) s → C t (.call s) c x → D t (.call s) c x)
    (hg : Pool.Reach M rec C g₀ g) (hlater : Pool.Reach M rec C g g') :
    Pool.Reach M rec D g g' := by
  induction hlater with
  | start => exact .start
  | next before meets hs ih =>
    have hreach := hg.trans before
    exact .next ih (recalledFair_meets hrec hfair hthreads (hJ _ hreach) hask hcall hreach meets) hs

theorem recalled_meets_under {note : φ → Label L S → σ → φ}
    (hrec : Records rec note memory)
    (hthreads : ∀ t p, g₀.threads[t]? = some p →
      Recalls M note may (· = memory g₀.hist t) p fun _ _ => True)
    (hJ : J g.snapshot) (hask : ∀ t l c x, J x → C t (.ask l) c x → D t (.ask l) c x)
    (hcall : ∀ t s c x, J x → may (memory x.2 t) s → C t (.call s) c x → D t (.call s) c x)
    (hg : Pool.Reach M rec C g₀ g) {m : Move χ} (hm : g.Meets C m) : g.Meets D m :=
  recalledFair_meets hrec (fun _ _ _ _ _ => trivial) hthreads hJ hask hcall hg hm

theorem recalled_later_under {note : φ → Label L S → σ → φ}
    (hrec : Records rec note memory)
    (hthreads : ∀ t p, g₀.threads[t]? = some p →
      Recalls M note may (· = memory g₀.hist t) p fun _ _ => True)
    (hJ : ∀ g, Pool.Reach M rec C g₀ g → J g.snapshot)
    (hask : ∀ t l c x, J x → C t (.ask l) c x → D t (.ask l) c x)
    (hcall : ∀ t s c x, J x → may (memory x.2 t) s → C t (.call s) c x → D t (.call s) c x)
    (hg : Pool.Reach M rec C g₀ g) (hlater : Pool.Reach M rec C g g') : Pool.Reach M rec D g g' :=
  recalledFair_later hrec (fun _ _ _ _ _ => trivial) hthreads hJ hask hcall hg hlater

theorem recalled_meets {note : φ → Label L S → σ → φ}
    (hrec : Records rec note memory)
    (hthreads : ∀ t p, g₀.threads[t]? = some p →
      Recalls M note may (· = memory g₀.hist t) p fun _ _ => True)
    (hask : ∀ t l c x, C t (.ask l) c x → D t (.ask l) c x)
    (hcall : ∀ t s c x, may (memory x.2 t) s → C t (.call s) c x → D t (.call s) c x)
    (hg : Pool.Reach M rec C g₀ g) {m : Move χ} (hm : g.Meets C m) : g.Meets D m :=
  recalled_meets_under (J := fun _ => True) hrec hthreads trivial
    (fun t l c x _ => hask t l c x) (fun t s c x _ => hcall t s c x) hg hm

theorem recalled_later {note : φ → Label L S → σ → φ}
    (hrec : Records rec note memory)
    (hthreads : ∀ t p, g₀.threads[t]? = some p →
      Recalls M note may (· = memory g₀.hist t) p fun _ _ => True)
    (hask : ∀ t l c x, C t (.ask l) c x → D t (.ask l) c x)
    (hcall : ∀ t s c x, may (memory x.2 t) s → C t (.call s) c x → D t (.call s) c x)
    (hg : Pool.Reach M rec C g₀ g) (hlater : Pool.Reach M rec C g g') :
    Pool.Reach M rec D g g' :=
  recalled_later_under (J := fun _ => True) hrec hthreads (fun _ _ => trivial)
    (fun t l c x _ => hask t l c x) (fun t s c x _ => hcall t s c x) hg hlater

/-- A run under `C` is one under `D`. -/
theorem recalled_mono {note : φ → Label L S → σ → φ}
    (hrec : Records rec note memory)
    (hthreads : ∀ t p, g₀.threads[t]? = some p →
      Recalls M note may (· = memory g₀.hist t) p fun _ _ => True)
    (hask : ∀ t l c x, C t (.ask l) c x → D t (.ask l) c x)
    (hcall : ∀ t s c x, may (memory x.2 t) s → C t (.call s) c x → D t (.call s) c x)
    (hg : Pool.Reach M rec C g₀ g) : Pool.Reach M rec D g₀ g :=
  recalled_later hrec hthreads hask hcall .start hg

end Implies

end Interleave
