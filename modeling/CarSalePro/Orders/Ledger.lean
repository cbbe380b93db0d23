import CarSalePro.Orders.Sequence

namespace CarSalePro

open Store Interleave OrderStatus

/-- What decides about the money of one order: its row, its payout and its refunds, and the
percentages a cancellation gives back. -/
structure Ledger where
  row : Option Order
  payout : Option Payout
  refund : RefundReason → Option Refund
  settings : Time → Settings

def World.ledger (o : OrderId) (w : World) : Ledger where
  row := w.orders.get o
  payout := w.payouts.get o
  refund reason := w.refunds.get (o, reason)
  settings := w.settings

/-- The statement writes nothing of the ledger of order `o`. -/
def Stmt.spares (o : OrderId) : Stmt → Prop
  | .order u => u.order ≠ o
  | .payout u => u.order ≠ o
  | .upsertRefund id _ _ | .amendRefund id _ _ | .sale id _ _ _ => id ≠ o
  | _ => True

namespace World

variable {o : OrderId} {s : Stmt} {c : Fate} {w : World}

theorem ledger_tick (c : Fate) (w : World) : (tick c w).ledger o = w.ledger o := by
  obtain ⟨now, he⟩ := tick_eq c w
  rw [he]
  rfl

/-- What a statement on an order row makes of the ledger. -/
theorem ledger_order {u : OrderStmt} {r : Order} (hu : u.order = o)
    (hr : (w.ledger o).row = some r) (hc : c ≠ .down) :
    (u.rewrite w.now r = none ∧ (exec (.order u) c w).1 = .ok 0 ∧
      (exec (.order u) c w).2.ledger o = w.ledger o) ∨
    ∃ r', u.rewrite w.now r = some r' ∧ (exec (.order u) c w).1 = .ok 1 ∧
      (exec (.order u) c w).2.ledger o = { w.ledger o with row := some r' } := by
  subst hu
  rcases exec_orderStmt (c := c) hr with ⟨hd, _⟩ | ⟨hn, he⟩ | ⟨r', hr', he⟩
  · exact absurd hd hc
  · exact .inl ⟨hn, by rw [he], by rw [he]⟩
  · refine .inr ⟨r', hr', by rw [he], ?_⟩
    rw [he]
    simp [ledger]

theorem ledger_payout (u : PayoutStmt) (c : Fate) (w : World) :
    (exec (.payout u) c w).2.ledger o = w.ledger o ∨
    ∃ p, u.order = o ∧ u.rewrite w.now (w.ledger o).payout = some p ∧
      (exec (.payout u) c w).2.ledger o = { w.ledger o with payout := some p } := by
  have hframe := frame_exec (.payout u) c w
  have horders := hframe.orders rfl
  have hrefunds := hframe.refunds rfl
  have hsettings := hframe.settings
  rcases exec_payout (.payout u) c w o with hp | ⟨u', p, hu, ho, hp, hget⟩
  · left
    simp only [ledger, horders, hrefunds, hsettings, hp]
  · cases hu
    right
    refine ⟨p, ho, hp, ?_⟩
    simp only [ledger, horders, hrefunds, hsettings, hget]

theorem ledger_upsertRefund (reason : RefundReason) (row : Refund) (hc : c ≠ .down) :
    (exec (.upsertRefund o reason row) c w).1 = .ok 1 ∧
    (exec (.upsertRefund o reason row) c w).2.ledger o =
      { w.ledger o with refund := Function.update (w.ledger o).refund reason (some row) } := by
  have hexec : exec (.upsertRefund o reason row) c w =
      (.ok 1, { w with refunds := w.refunds.set (o, reason) row }) := by simp [exec, hc, write]
  refine ⟨by rw [hexec], ?_⟩
  rw [hexec]
  simp only [ledger, Ledger.mk.injEq, true_and, and_true]
  funext reason'
  by_cases hr : reason' = reason
  · subst hr
    simp
  · simp [hr]

theorem ledger_amendRefund (reason : RefundReason) (a : RefundAmendment) (c : Fate) (w : World) :
    (exec (.amendRefund o reason a) c w).2.ledger o = w.ledger o ∨
    ∃ x, (w.ledger o).refund reason = some x ∧
      (exec (.amendRefund o reason a) c w).2.ledger o = { w.ledger o with
        refund := Function.update (w.ledger o).refund reason (some (a.amend w.now x)) } := by
  by_cases hc : c = .down
  · left
    simp [exec, hc]
  · simp only [exec, hc, if_false, write]
    split
    next => exact .inl rfl
    next x hx =>
      refine .inr ⟨x, hx, ?_⟩
      simp only [ledger, Ledger.mk.injEq, true_and, and_true]
      funext reason'
      by_cases hr : reason' = reason
      · subst hr
        simp
      · simp [hr]

/-- A statement on other orders leaves the ledger as it is. -/
theorem ledger_spares (h : s.spares o) : (exec s c w).2.ledger o = w.ledger o := by
  have hframe := frame_exec s c w
  have hsettings := hframe.settings
  have hplain (ho : s.touchesOrders = false) (hp : s.touchesPayouts = false)
      (hr : s.touchesRefunds = false) : (exec s c w).2.ledger o = w.ledger o := by
    simp only [ledger, hframe.orders ho, hframe.payouts hp, hframe.refunds hr, hsettings]
  by_cases hc : c = .down
  · cases s with
    | stripe call => exact hplain rfl rfl rfl
    | _ => simp [exec, hc]
  cases s with
  | order u =>
    have hne : o ≠ u.order := fun he => h he.symm
    simp only [exec, hc, if_false, write, writeOrder]
    split
    · rfl
    · split
      · rfl
      · simp [ledger, hne]
  | payout u =>
    rcases ledger_payout (o := o) u c w with he | ⟨p, ho, _⟩
    · exact he
    · exact absurd ho h
  | upsertRefund id reason row =>
    have hne : o ≠ id := fun he => h he.symm
    simp [exec, hc, write, ledger, hne]
  | amendRefund id reason a =>
    have hne : o ≠ id := fun he => h he.symm
    simp only [exec, hc, if_false, write]
    split
    · rfl
    · simp [ledger, hne]
  | sale id counter price at_ =>
    have hne : o ≠ id := fun he => h he.symm
    simp only [exec, hc, if_false, write, writeSale]
    split
    · rfl
    · simp [ledger, hne]
  | _ => exact hplain rfl rfl rfl

end World

end CarSalePro
