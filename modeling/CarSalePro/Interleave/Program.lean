import Mathlib.Logic.Relation

namespace Interleave

/-- A sequential program over a shared state. It asks the state a question at a named site, or
performs a statement, and goes on from the answer or from the error it met. -/
inductive Prog (L S : Type) (R : S → Type) (σ ε α : Type) : Type 1 where
  | ret (a : α)
  | raise (e : ε)
  | ask (l : L) {ρ : Type} (f : σ → ρ) (k : Except ε ρ → Prog L S R σ ε α)
  | call (s : S) (k : Except ε (R s) → Prog L S R σ ε α)

variable {L S : Type} {R : S → Type} {σ ε α β : Type}

namespace Prog

def bind : Prog L S R σ ε α → (α → Prog L S R σ ε β) → Prog L S R σ ε β
  | ret a, f => f a
  | raise e, _ => raise e
  | ask l g k, f => ask l g fun r => (k r).bind f
  | call s k, f => call s fun r => (k r).bind f

def tryCatch : Prog L S R σ ε α → (ε → Prog L S R σ ε α) → Prog L S R σ ε α
  | ret a, _ => ret a
  | raise e, h => h e
  | ask l g k, h => ask l g fun r => (k r).tryCatch h
  | call s k, h => call s fun r => (k r).tryCatch h

instance : Monad (Prog L S R σ ε) where
  pure := ret
  bind := bind

instance : MonadExceptOf ε (Prog L S R σ ε) where
  throw := raise
  tryCatch := tryCatch

def ofExcept : Except ε α → Prog L S R σ ε α
  | .ok a => ret a
  | .error e => raise e

/-- Read one value of the state, in one step. -/
def fetch (l : L) {ρ : Type} (f : σ → ρ) : Prog L S R σ ε ρ := ask l f ofExcept

/-- Issue one statement, in one step. -/
def perform (s : S) : Prog L S R σ ε (R s) := call s ofExcept

/-- `p` for its effect only, with every error swallowed. -/
def quietly (p : Prog L S R σ ε α) : Prog L S R σ ε Unit :=
  (p.bind fun _ => ret ()).tryCatch fun _ => ret ()

/-- `p`, with its error as an answer. -/
def attempt (p : Prog L S R σ ε α) : Prog L S R σ ε (Except ε α) :=
  (p.bind fun a => ret (.ok a)).tryCatch fun e => ret (.error e)

/-- `p` under a condition. -/
def when (c : Prop) [Decidable c] (p : Prog L S R σ ε Unit) : Prog L S R σ ε Unit :=
  if c then p else ret ()

/-- The loop over a list already read. -/
def forEach : List β → (β → Prog L S R σ ε Unit) → Prog L S R σ ε Unit
  | [], _ => ret ()
  | b :: bs, f => (f b).bind fun _ => forEach bs f

/-- `forEach` with a counter: the number of elements whose body answered `true`. -/
def countEach : List β → (β → Prog L S R σ ε Bool) → Prog L S R σ ε Nat
  | [], _ => ret 0
  | b :: bs, f => (f b).bind fun hit => (countEach bs f).bind fun n =>
      ret (if hit then n + 1 else n)

/-- Every statement `p` can issue, whatever it is answered, is in `A`. -/
def Only (A : S → Prop) : Prog L S R σ ε α → Prop
  | ret _ => True
  | raise _ => True
  | ask _ _ k => ∀ r, (k r).Only A
  | call s k => A s ∧ ∀ r, (k r).Only A

variable {A B : S → Prop}

@[simp] theorem only_ret (a : α) : (ret a : Prog L S R σ ε α).Only A := trivial

@[simp] theorem only_raise (e : ε) : (raise e : Prog L S R σ ε α).Only A := trivial

@[simp] theorem only_pure (a : α) : (pure a : Prog L S R σ ε α).Only A := trivial

@[simp] theorem only_throw (e : ε) : (throw e : Prog L S R σ ε α).Only A := trivial

@[simp] theorem only_ofExcept (r : Except ε α) : (ofExcept r : Prog L S R σ ε α).Only A := by
  cases r <;> trivial

@[simp] theorem only_fetch (l : L) {ρ : Type} (f : σ → ρ) :
    (fetch l f : Prog L S R σ ε ρ).Only A := fun r => only_ofExcept r

@[simp] theorem only_perform (s : S) : (perform s : Prog L S R σ ε (R s)).Only A ↔ A s :=
  ⟨fun h => h.1, fun h => ⟨h, fun r => only_ofExcept r⟩⟩

theorem Only.mono {p : Prog L S R σ ε α} (hp : p.Only A) (h : ∀ s, A s → B s) : p.Only B := by
  induction p with
  | ret a => trivial
  | raise e => trivial
  | ask l f k ih => exact fun r => ih r (hp r)
  | call s k ih => exact ⟨h s hp.1, fun r => ih r (hp.2 r)⟩

theorem Only.bind {p : Prog L S R σ ε α} {f : α → Prog L S R σ ε β}
    (hp : p.Only A) (hf : ∀ a, (f a).Only A) : (p.bind f).Only A := by
  induction p with
  | ret a => exact hf a
  | raise e => trivial
  | ask l g k ih => exact fun r => ih r (hp r)
  | call s k ih => exact ⟨hp.1, fun r => ih r (hp.2 r)⟩

theorem Only.seq {p : Prog L S R σ ε α} {f : α → Prog L S R σ ε β}
    (hp : p.Only A) (hf : ∀ a, (f a).Only A) : (p >>= f).Only A := hp.bind hf

theorem Only.catch {p : Prog L S R σ ε α} {h : ε → Prog L S R σ ε α}
    (hp : p.Only A) (hh : ∀ e, (h e).Only A) : (p.tryCatch h).Only A := by
  induction p with
  | ret a => trivial
  | raise e => exact hh e
  | ask l g k ih => exact fun r => ih r (hp r)
  | call s k ih => exact ⟨hp.1, fun r => ih r (hp.2 r)⟩

theorem Only.quietly {p : Prog L S R σ ε α} (hp : p.Only A) : p.quietly.Only A :=
  (hp.bind fun _ => only_ret ()).catch fun _ => only_ret ()

theorem Only.attempt {p : Prog L S R σ ε α} (hp : p.Only A) : p.attempt.Only A :=
  (hp.bind fun _ => only_ret _).catch fun _ => only_ret _

theorem Only.when {c : Prop} [Decidable c] {p : Prog L S R σ ε Unit} (hp : c → p.Only A) :
    (when c p).Only A := by
  unfold Prog.when
  split
  next hc => exact hp hc
  next => trivial

theorem Only.ite {c : Prop} [Decidable c] {p q : Prog L S R σ ε α} (hp : c → p.Only A)
    (hq : ¬c → q.Only A) : (if c then p else q).Only A := by
  split
  next hc => exact hp hc
  next hc => exact hq hc

theorem only_forEach {bs : List β} {f : β → Prog L S R σ ε Unit} (hf : ∀ b ∈ bs, (f b).Only A) :
    (forEach bs f).Only A := by
  induction bs with
  | nil => trivial
  | cons b bs ih =>
    exact (hf b (by simp)).bind fun _ => ih fun c hc => hf c (List.mem_cons_of_mem b hc)

theorem only_countEach {bs : List β} {f : β → Prog L S R σ ε Bool}
    (hf : ∀ b ∈ bs, (f b).Only A) : (countEach bs f).Only A := by
  induction bs with
  | nil => trivial
  | cons b bs ih =>
    refine (hf b (by simp)).bind fun _ => Only.bind ?_ fun _ => only_ret _
    exact ih fun c hc => hf c (List.mem_cons_of_mem b hc)

end Prog

end Interleave
