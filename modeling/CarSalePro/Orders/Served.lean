import CarSalePro.Orders.Sequence

namespace CarSalePro

open Interleave Prog

variable {φ α : Type} {D : Discipline Site Stmt World Fate φ} {rest : φ} {A A' : φ → Prop}

/-- A discipline in which a step of the database that fails leads to rest, and a thread may look at
the database in every phase. -/
structure Served (D : Discipline Site Stmt World Fate φ) (rest : φ) : Prop where
  dead : ∀ ph l c w, ¬ upheld l c w → D.moves ph l c w rest
  look : ∀ ph site c w, upheld (.ask site) c w → D.moves ph (.ask site) c w ph

/-- From the phases in `A` the method goes to those in `B`; what it throws, it throws at rest. -/
abbrev ServedFlow (D : Discipline Site Stmt World Fate φ) (rest : φ) (A : φ → Prop) (p : Act α)
    (B : α → φ → Prop) : Prop :=
  D.Flow machine A p B fun _ ph => ph = rest

namespace Served

theorem read (hD : Served D rest) {site : Site} {f : World → α} {B : α → φ → Prop}
    (hsite : site ≠ .retrievePaymentIntent)
    (h : ∀ ph w, A ph → D.view ph w →
      ∃ ph', (∀ c, upheld (.ask site) c w → D.moves ph (.ask site) c w ph') ∧ B (f w) ph') :
    ServedFlow D rest A (fetch site f) B := by
  refine Discipline.Flow.fetch fun ph c w hph hview => ?_
  cases hfault : World.fault site c with
  | none =>
    obtain ⟨ph', hmove, hB⟩ := h ph w hph hview
    refine ⟨ph', hmove c (by simp [upheld, databaseUp, hsite, hfault]), ?_⟩
    simpa [Machine.answer, machine, hfault, Discipline.onAnswer] using hB
  | some e =>
    refine ⟨rest, hD.dead _ _ _ _ ?_, ?_⟩
    · simp [upheld, databaseUp, hsite, hfault]
    · simp [Machine.answer, machine, hfault, Discipline.onAnswer]

theorem peek (hD : Served D rest) {site : Site} {f : World → α}
    (hsite : site ≠ .retrievePaymentIntent) :
    ServedFlow D rest A (fetch site f) fun _ => A :=
  hD.read hsite fun ph w hph _ => ⟨ph, fun c => hD.look ph site c w, hph⟩

theorem stmt (hD : Served D rest) {s : Stmt} {B : Nat → φ → Prop} (hs : s.touchesProvider = false)
    (h : ∀ ph w c, A ph → D.view ph w → c ≠ .down → ∃ ph', D.moves ph (.call s) c w ph' ∧
      Discipline.onAnswer B (fun _ ph => ph = rest) (World.exec s c w).1 ph') :
    ServedFlow D rest A (perform s) B := by
  refine Discipline.Flow.perform fun ph c w hph hview => ?_
  by_cases hc : c = .down
  · refine ⟨rest, hD.dead _ _ _ _ (by simp [upheld, databaseUp, hs, hc]), ?_⟩
    have hexec : (World.exec s c w).1 = .error .database := by
      cases s with
      | stripe call => cases hs
      | _ => simp [World.exec, hc]
    rw [show machine.exec = World.exec from rfl, hexec]
    rfl
  · exact h ph w c hph hview hc

theorem issue (hD : Served D rest) {s : Stmt} (hs : s.touchesProvider = false)
    (h : ∀ ph w c, A ph → D.view ph w → c ≠ .down → ∃ ph', D.moves ph (.call s) c w ph' ∧
      Discipline.onAnswer (fun _ => A') (fun _ ph => ph = rest) (World.exec s c w).1 ph') :
    ServedFlow D rest A (CarSalePro.issue s) fun _ => A' :=
  (hD.stmt hs h).seq fun _ => .pure fun _ hx => hx

end Served

end CarSalePro
