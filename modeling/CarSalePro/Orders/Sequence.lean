import CarSalePro.Interleave.Serial
import CarSalePro.Orders.Effects

namespace CarSalePro

open Interleave Prog

/-- Only Stripe fails: every read and every statement of the database goes through. -/
def databaseUp {γ : Type} : StepGuard γ := fun _ l c _ =>
  match l with
  | .ask site => site = .retrievePaymentIntent || (World.fault site c).isNone
  | .call s => s.touchesProvider || c ≠ .down

/-- Two conditions at once. -/
def both {γ : Type} (C D : StepGuard γ) : StepGuard γ := fun t l c x => C t l c x && D t l c x

/-- The operations one after another, each running to its end before the next begins. -/
def sequence (w : World) (ops : List Op) : Run Unit := ⟨w, (), [Prog.series (ops.map Op.prog)]⟩

/-- The steps of a run in which only Stripe fails. -/
def upheld (l : Label Site Stmt) (c : Fate) (w : World) : Prop := databaseUp 0 l c (w, ()) = true

/-- What of a world only its statements change. -/
def World.still (w : World) : World := { w with now := 0 }

theorem World.still_tick (c : Fate) (w : World) : (World.tick c w).still = w.still := by
  obtain ⟨now, he⟩ := World.tick_eq c w
  rw [he]
  rfl

namespace Serial

variable {τ α β δ : Type} {obs : World → τ} {I P P' : τ → Prop} {X : Err → τ → Prop}

/-- A read of the database is answered. -/
theorem read {l : Site} {f : World → α} {Q : α → τ → Prop} (hl : l ≠ .retrievePaymentIntent)
    (hI : ∀ x, P x → I x) (hQ : ∀ w, P (obs w) → Q (f w) (obs w)) :
    Serial machine obs upheld I P (fetch l f : Act α) Q X := by
  refine Serial.fetch hI fun c w hP hok => ?_
  have hfault : World.fault l c = none := by simpa [upheld, databaseUp, hl] using hok
  simp only [Machine.answer, machine, hfault]
  exact hQ w hP

/-- A read whose answer is not looked at more closely. -/
theorem look {l : Site} {f : World → α} (hl : l ≠ .retrievePaymentIntent)
    (hI : ∀ x, P x → I x) :
    Serial machine obs upheld I P (fetch l f : Act α) (fun _ => P) X :=
  read hl hI fun _ hP => hP

/-- A statement of the database, which is carried out. -/
theorem stmt {s : Stmt} {Q : Nat → τ → Prop} (hs : s.touchesProvider = false)
    (h : ∀ c w, c ≠ .down → P (obs w) → I (obs (World.exec s c w).2) ∧
      Discipline.onAnswer Q X (World.exec s c w).1 (obs (World.exec s c w).2)) :
    Serial machine obs upheld I P (perform s) Q X := by
  refine Serial.perform fun c w hP hok => h c w ?_ hP
  simpa [upheld, databaseUp, hs] using hok

/-- A statement whose row count nobody reads. -/
theorem issue {s : Stmt} {Q : Unit → τ → Prop} (hs : s.touchesProvider = false)
    (h : ∀ c w, c ≠ .down → P (obs w) → I (obs (World.exec s c w).2) ∧
      Discipline.onAnswer (fun _ => Q ()) X (World.exec s c w).1 (obs (World.exec s c w).2)) :
    Serial machine obs upheld I P (issue s) Q X :=
  (stmt (Q := fun _ => Q ()) hs h).seq fun _ => Serial.pure fun _ hx => hx

end Serial

end CarSalePro
