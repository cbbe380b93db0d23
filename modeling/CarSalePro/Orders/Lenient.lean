import CarSalePro.Orders.Effects

namespace CarSalePro

open Store Interleave Prog OrderStatus

variable {φ α : Type}

/-- A discipline in which reads, the statements of `Q` and database statements that fail leave a
thread in its phase. -/
structure Lenient (D : Discipline Site Stmt World Fate φ) (Q : Stmt → Prop) : Prop where
  read : ∀ ph l c w, D.moves ph (.ask l) c w ph
  side : ∀ ph s c w, Q s → D.moves ph (.call s) c w ph
  refused : ∀ ph s c w e, s.touchesProvider = false → (World.exec s c w).1 = .error e →
    D.moves ph (.call s) c w ph

/-- A method follows the discipline from one phase; an error it does not catch ends it anywhere. -/
abbrev LenientFlow (D : Discipline Site Stmt World Fate φ) (ph : φ) (p : Act α)
    (B : α → φ → Prop) : Prop :=
  D.Flow machine (· = ph) p B fun _ _ => True

namespace Lenient

variable {D : Discipline Site Stmt World Fate φ} {Q : Stmt → Prop} {ph ph' : φ}

theorem only (hD : Lenient D Q) {p : Act α} (hp : p.Only Q) :
    LenientFlow D ph p fun _ => (· = ph) := by
  have hflow := Discipline.Flow.only (D := D) (M := machine) (A := (· = ph)) hp
    (fun x l c w _ _ => hD.read x l c w) fun x s c w _ hs _ => hD.side x s c w hs
  exact hflow.post (fun _ _ hx => hx) fun _ _ _ => trivial

/-- The last part of a method. -/
theorem rest (hD : Lenient D Q) {p : Act α} (hp : p.Only Q) : LenientFlow D ph p fun _ _ => True :=
  (hD.only hp).post (fun _ _ _ => trivial) fun _ _ _ => trivial

theorem issue (hD : Lenient D Q) {s : Stmt} (ht : s.touchesProvider = false)
    (hmove : ∀ c w n, (World.exec s c w).1 = .ok n → D.moves ph (.call s) c w ph') :
    LenientFlow D ph (CarSalePro.issue s) fun _ => (· = ph') := by
  refine Discipline.Flow.seq (B := fun _ => (· = ph')) ?_ fun _ => .pure fun _ hx => hx
  refine Discipline.Flow.perform fun x c w hx _ => ?_
  subst hx
  rw [show machine.exec = World.exec from rfl]
  cases hr : (World.exec s c w).1 with
  | ok n => exact ⟨ph', hmove c w n hr, rfl⟩
  | error e => exact ⟨x, hD.refused x s c w e ht hr, trivial⟩

/-- A conditional write leads to `ph'` when it wrote. -/
theorem conditional (hD : Lenient D Q) {s : Stmt} (ht : s.touchesProvider = false)
    (hmiss : ∀ c w, (World.exec s c w).1 = .ok 0 → D.moves ph (.call s) c w ph)
    (hmove : ∀ c w n, (World.exec s c w).1 = .ok n → n ≠ 0 → D.moves ph (.call s) c w ph') :
    LenientFlow D ph (perform s) fun n x => x = if n = 0 then ph else ph' := by
  refine Discipline.Flow.perform fun x c w hx _ => ?_
  subst hx
  rw [show machine.exec = World.exec from rfl]
  cases hr : (World.exec s c w).1 with
  | ok n =>
    by_cases hn : n = 0
    · subst hn
      exact ⟨x, hmiss c w hr, (if_pos rfl).symm⟩
    · exact ⟨ph', hmove c w n hr hn, (if_neg hn).symm⟩
  | error e => exact ⟨x, hD.refused x s c w e ht hr, trivial⟩

/-- What follows a conditional write. -/
theorem branch {n : Nat} {p q : Act α} {B : α → φ → Prop} (hmissed : LenientFlow D ph p B)
    (hwrote : LenientFlow D ph' q B) :
    D.Flow machine (fun x => x = if n = 0 then ph else ph') (if n = 0 then p else q) B
      fun _ _ => True := by
  by_cases hn : n = 0
  · simpa only [if_pos hn] using hmissed
  · simpa only [if_neg hn] using hwrote

theorem transition (hD : Lenient D Q) (hevent : ∀ e, Q (.event e)) {o : OrderId} {actor : Actor}
    (hdeadline : ∀ n, Q (.order (.setInspectionDeadline o n)))
    (hmove : ∀ source legal c w n,
      (World.exec (.order (.transition o source assigned legal)) c w).1 = .ok n →
      D.moves ph (.call (.order (.transition o source assigned legal))) c w ph') :
    LenientFlow D ph (CarSalePro.transition o assigned actor) fun _ _ => True := by
  refine Discipline.Flow.seq (hD.only (only_requireOrderAt _ _)) fun r => ?_
  refine .ite (fun _ => .pure fun _ _ => trivial) fun _ => ?_
  split
  next legal =>
    refine Discipline.Flow.seq (hD.issue rfl (hmove r.status legal)) fun _ => ?_
    have hrest : (do
        writeEvent o actor .statusChange (some r.status) (some assigned) none
        Prog.when (assigned = assigned) (enterAssigned o) : Act Unit).Only Q :=
      Only.seq (only_writeEvent _ _ _ _ _ _ hevent) fun _ =>
        Only.when fun _ => only_enterAssigned o hdeadline
    exact hD.rest hrest
  next => exact .throw fun _ _ => trivial

end Lenient

end CarSalePro
