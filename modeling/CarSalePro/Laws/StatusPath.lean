import CarSalePro.Orders.Effects

namespace CarSalePro

open Store Interleave OrderStatus

/-- A step takes the status of order `o`, if it changes it, along an allowed edge. -/
def LegalWrite (o : OrderId) (w w' : World) : Prop :=
  ∀ r r', w.orders.get o = some r → w'.orders.get o = some r' → r'.status ≠ r.status →
    canTransition r.status r'.status = true

/-- Under the condition `C`, every write to a status column in a run of any operations takes an
allowed edge from the status the row has at that moment. -/
def StatusLaw (C : StepGuard Unit) : Prop :=
  ∀ (w : World) (ops : List Op) (o : OrderId) (g g' : Run Unit) (m : Move Fate),
    Pool.Reach machine noRecord C (launch w () ops) g → g.Meets C m →
    Pool.step machine noRecord m g = some g' → LegalWrite o g.state g'.state

/-- The write of `transition` finds the row in the status `transition` read. -/
def readStatusStands : StepGuard Unit := fun _ l _ x =>
  match l with
  | .call (.order (.transition id source _ _)) =>
    (x.1.orders.get id).all fun r => r.status = source
  | _ => true

theorem legalWrite_refl (o : OrderId) (w : World) : LegalWrite o w w := by
  intro r r' h h' hne
  cases h.symm.trans h'
  exact absurd rfl hne

/-- One statement, whoever issues it. -/
theorem legalWrite_exec {s : Stmt} {c : Fate} {w : World} {t : Nat} (o : OrderId)
    (hC : readStatusStands t (.call s) c (w, ())) : LegalWrite o w (World.exec s c w).2 := by
  intro r r' h h' hne
  obtain ⟨r₁, h₁, heff⟩ := World.exec_order (s := s) (c := c) h
  cases h₁.symm.trans h'
  cases heff with
  | same => exact absurd rfl hne
  | sale counter price at_ stmt => exact absurd rfl hne
  | write u stmt row rewrite =>
    rcases OrderStmt.rewrite_status rewrite with hs | ⟨id, source, target, legal, rfl, hs⟩ |
      ⟨id, guard, rfl, hg, hs⟩
    · exact absurd hs hne
    · subst stmt
      cases row
      have hget : w.orders.get id = some r := h
      have hread : r.status = source := by simpa [readStatusStands, hget] using hC
      rw [hs, hread]
      exact legal
    · rw [hs]
      exact CancelGuard.legal hg

theorem legalWrite_step {x y : World × Unit} (o : OrderId)
    (h : Pool.StepOf machine noRecord readStatusStands x y) : LegalWrite o x.1 y.1 := by
  cases h with
  | ask t l c hC => exact legalWrite_refl o _
  | call t s c hC => exact legalWrite_exec o hC
  | env c =>
    obtain ⟨now, he⟩ := World.tick_eq c x.1
    simp only [machine, he]
    exact legalWrite_refl o x.1

/-- An order whose report waits for the customer's answer. -/
def submittedOrder : Order where
  customerId := 7
  inspectorId := some 8
  status := submitted
  totalCents := 10000
  platformFeeCents := 2000
  inspectorShareCents := 8000
  searchExpiresAt := some 86400000
  inspectionDeadlineAt := some 604800000
  ownerContactConfirmedAt := some 1000
  submittedAt := some 2000
  autoApproveAt := some 604802000
  dispatchRound := 0

def submittedWorld : World := { World.empty with orders := Table.empty.set 1 submittedOrder }

/-- The customer approves and disputes the same report at once, in two requests. -/
def approveAndDispute : Run Unit :=
  launch submittedWorld () [.approve 1 7, .dispute 1 7 "the report is wrong"]

def statusOfOrder (o : OrderId) (g : Run Unit) : Option OrderStatus :=
  (g.state.orders.get o).map (·.status)

/-- Both requests pass the check on `submitted`, and the second write finds `approved`. -/
theorem approve_dispute_race : ¬ StatusLaw anyStep := by
  intro hlaw
  have hrun : Pool.observe machine noRecord anyStep (statusOfOrder 1)
      [.run 0 .ok, .run 0 .ok, .run 1 .ok, .run 1 .ok, .run 0 .ok] (.run 1 .ok) approveAndDispute =
      some (some approved, some disputed) := by decide
  obtain ⟨g, g', hg, hm, hs, hbefore, hafter⟩ := Pool.observe_eq hrun
  obtain ⟨r, hr, hrs⟩ := Option.map_eq_some_iff.mp hbefore
  obtain ⟨r', hr', hrs'⟩ := Option.map_eq_some_iff.mp hafter
  have hlegal := hlaw _ _ 1 g g' _ hg hm hs r r' hr hr' (by rw [hrs, hrs']; decide)
  rw [hrs, hrs'] at hlegal
  exact absurd hlegal (by decide)

/-- Order status follows the state machine in every run in which each write of `transition` finds
the status it was checked against. -/
theorem status_path (w : World) (ops : List Op) (o : OrderId) (g g' : Run Unit) (m : Move Fate)
    (_hreach : Pool.Reach machine noRecord readStatusStands (launch w () ops) g)
    (hm : g.Meets readStatusStands m) (hs : Pool.step machine noRecord m g = some g') :
    LegalWrite o g.state g'.state :=
  legalWrite_step o (Pool.stepOf hm hs)

/-- The customer approves, and disputes only afterwards: the write of `approved` is legal. -/
theorem status_path_approve : ∃ g g' : Run Unit,
    statusOfOrder 1 g = some submitted ∧ statusOfOrder 1 g' = some approved ∧
    LegalWrite 1 g.state g'.state := by
  have hrun : Pool.observe machine noRecord readStatusStands (statusOfOrder 1)
      [.run 0 .ok, .run 0 .ok] (.run 0 .ok) approveAndDispute =
      some (some submitted, some approved) := by decide
  obtain ⟨g, g', hg, hm, hs, hbefore, hafter⟩ := Pool.observe_eq hrun
  exact ⟨g, g', hbefore, hafter, status_path _ _ 1 g g' _ hg hm hs⟩

end CarSalePro
