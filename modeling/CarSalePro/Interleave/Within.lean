import CarSalePro.Interleave.Serial

namespace Interleave

variable {L S L' S' : Type} {R : S → Type} {R' : S' → Type} {σ σ' ε ε' χ φ α β : Type}

/-- How the programs of a part run in a whole: the part of the state they see, what their sites and
statements are called there, and how answers and errors go forth and back. -/
structure Place (L S : Type) (R : S → Type) (σ ε : Type) (L' S' : Type) (R' : S' → Type)
    (σ' ε' : Type) where
  view : σ' → σ
  site : L → L'
  stmt : S → S'
  answer : ∀ s, R' (stmt s) → R s
  up : ε → ε'
  down : ε' → ε

namespace Prog

/-- A program of the part, as one of the whole. -/
def within (P : Place L S R σ ε L' S' R' σ' ε') : Prog L S R σ ε α → Prog L' S' R' σ' ε' α
  | ret a => ret a
  | raise e => raise (P.up e)
  | ask l f k => ask (P.site l) (fun w => f (P.view w)) fun r => (k (r.mapError P.down)).within P
  | call s k => call (P.stmt s) fun r => (k ((r.mapError P.down).map (P.answer s))).within P

theorem only_all (p : Prog L S R σ ε α) : p.Only fun _ => True := by
  induction p with
  | ret a => trivial
  | raise e => trivial
  | ask l f k ih => exact fun r => ih r
  | call s k ih => exact ⟨trivial, fun r => ih r⟩

theorem Only.within {P : Place L S R σ ε L' S' R' σ' ε'} {A : S → Prop} {A' : S' → Prop}
    {p : Prog L S R σ ε α} (hp : p.Only A) (h : ∀ s, A s → A' (P.stmt s)) :
    (p.within P).Only A' := by
  induction p with
  | ret a => trivial
  | raise e => trivial
  | ask l f k ih => exact fun r => ih _ (hp _)
  | call s k ih => exact ⟨h s hp.1, fun r => ih _ (hp.2 _)⟩

section Rewriting

variable {P : Place L S R σ ε L' S' R' σ' ε'}

theorem within_bind (p : Prog L S R σ ε α) (f : α → Prog L S R σ ε β) :
    (p >>= f).within P = p.within P >>= fun a => (f a).within P := by
  show (p.bind f).within P = (p.within P).bind fun a => (f a).within P
  induction p with
  | ret a => rfl
  | raise e => rfl
  | ask l g k ih =>
    simp only [bind, within]
    congr 1
    exact funext fun r => ih _
  | call s k ih =>
    simp only [bind, within]
    congr 1
    exact funext fun r => ih _

theorem within_catch (hP : ∀ e, P.down (P.up e) = e) (p : Prog L S R σ ε α)
    (h : ε → Prog L S R σ ε α) :
    (p.tryCatch h).within P = (p.within P).tryCatch fun e => (h (P.down e)).within P := by
  induction p with
  | ret a => rfl
  | raise e =>
    show (h e).within P = (h (P.down (P.up e))).within P
    rw [hP]
  | ask l g k ih =>
    simp only [tryCatch, within]
    congr 1
    exact funext fun r => ih _
  | call s k ih =>
    simp only [tryCatch, within]
    congr 1
    exact funext fun r => ih _

theorem within_fetch (hP : ∀ e, P.up (P.down e) = e) (l : L) (f : σ → α) :
    (fetch l f : Prog L S R σ ε α).within P = fetch (P.site l) fun w => f (P.view w) := by
  show ask _ _ _ = ask _ _ _
  congr 1
  funext r
  cases r with
  | ok a => rfl
  | error e =>
    show raise (P.up (P.down e)) = raise e
    rw [hP]

theorem within_perform (hP : ∀ e, P.up (P.down e) = e) (s : S) :
    (perform s : Prog L S R σ ε (R s)).within P =
      perform (P.stmt s) >>= fun r => ret (P.answer s r) := by
  show call _ _ = call _ _
  congr 1
  funext r
  cases r with
  | ok a => rfl
  | error e =>
    show raise (P.up (P.down e)) = raise e
    rw [hP]

theorem within_ite {c : Prop} [Decidable c] (p q : Prog L S R σ ε α) :
    (if c then p else q).within P = if c then p.within P else q.within P := by
  split <;> rfl

end Rewriting

end Prog

/-- The machine of the whole runs the statements of the part on their part of the state, answers
them as the machine of the part does, and leaves the rest of the state alone. -/
structure Place.Runs (P : Place L S R σ ε L' S' R' σ' ε') (M : Machine L S R σ ε χ)
    (M' : Machine L' S' R' σ' ε' χ) (rest : σ' → β) : Prop where
  exec_view : ∀ s c w, P.view (M'.exec (P.stmt s) c w).2 = (M.exec s c (P.view w)).2
  exec_rest : ∀ s c w, rest (M'.exec (P.stmt s) c w).2 = rest w
  exec_answer : ∀ s c w, ((M'.exec (P.stmt s) c w).1.mapError P.down).map (P.answer s) =
    (M.exec s c (P.view w)).1
  fault : ∀ l c, (M'.fault (P.site l) c).map P.down = M.fault l c

/-- A program of the part follows in the whole the discipline it follows alone, when the moves of
the part are moves of the whole and every view of the whole is one of the part. -/
theorem Discipline.Flow.within {P : Place L S R σ ε L' S' R' σ' ε'} {M : Machine L S R σ ε χ}
    {M' : Machine L' S' R' σ' ε' χ} {rest : σ' → β} {D : Discipline L S σ χ φ}
    {D' : Discipline L' S' σ' χ φ} {A : φ → Prop} {B : α → φ → Prop} {E : ε → φ → Prop}
    {E' : ε' → φ → Prop} {p : Prog L S R σ ε α} (hP : P.Runs M M' rest)
    (hview : ∀ ph w, D'.view ph w → D.view ph (P.view w))
    (hask : ∀ ph l c w ph', D.moves ph (.ask l) c (P.view w) ph' →
      D'.moves ph (.ask (P.site l)) c w ph')
    (hcall : ∀ ph s c w ph', D.moves ph (.call s) c (P.view w) ph' →
      D'.moves ph (.call (P.stmt s)) c w ph')
    (hE : ∀ e ph, E e ph → E' (P.up e) ph) (h : D.Flow M A p B E) :
    D'.Flow M' A (p.within P) B E' := by
  intro ph hph
  have hp := h ph hph
  clear hph h
  induction p generalizing ph with
  | ret a => exact hp
  | raise e => exact hE e ph hp
  | ask l f k ih =>
    intro c w hw
    obtain ⟨ph', hmove, hk⟩ := hp c (P.view w) (hview ph w hw)
    refine ⟨ph', hask ph l c w ph' hmove, ih _ ph' ?_⟩
    have hanswer : (M'.answer (P.site l) (fun w => f (P.view w)) c w).mapError P.down =
        M.answer l f c (P.view w) := by
      unfold Machine.answer
      rw [← hP.fault l c]
      cases M'.fault (P.site l) c <;> rfl
    rw [hanswer]
    exact hk
  | call s k ih =>
    intro c w hw
    obtain ⟨ph', hmove, hk⟩ := hp c (P.view w) (hview ph w hw)
    refine ⟨ph', hcall ph s c w ph' hmove, ih _ ph' ?_⟩
    rw [hP.exec_answer s c w]
    exact hk

end Interleave
