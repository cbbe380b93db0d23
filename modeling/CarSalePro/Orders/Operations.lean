import CarSalePro.Orders.Sweeps

namespace CarSalePro

open Interleave Prog

/-- The operations that run against the orders: requests, webhook deliveries and sweeps. -/
inductive Op where
  | acceptOffer (offer : OfferId) (user : UserId)
  | declineOffer (offer : OfferId) (user : UserId)
  | adminAssign (order : OrderId) (inspector admin : UserId)
  | cancel (order : OrderId) (user : UserId)
  | adminCancel (order : OrderId) (refundPercent : ℚ) (admin : UserId)
  | declineByInspector (order : OrderId) (user : UserId) (reason : String)
  | recordOwnerContact (order : OrderId) (user : UserId) (reached : Bool)
  | updateStatusByInspector (order : OrderId) (user : UserId) (start : Bool)
  | submitReportForOrder (order : OrderId)
  | approve (order : OrderId) (user : UserId)
  | dispute (order : OrderId) (user : UserId) (reason : String)
  | resolveDispute (order : OrderId) (forCustomer : Bool) (admin : UserId)
      (refundPercent : Option ℚ)
  | releasePayout (order : OrderId)
  | adminMarkPayoutPaid (order : OrderId)
  | adminRetryPayout (order : OrderId)
  | retryStuckPayouts (limit : Nat)
  | adminRetryRefund (order : OrderId) (reason : RefundReason)
  | retryStuckRefunds (limit : Nat)
  | finalizeCounterOfferPayment (payment : PaymentId) (order : OrderId)
  | abandonCounterOfferPayment (order : OrderId) (alreadyCanceledAtStripe : Bool)
  | handleWebhook (event : StripeEventId) (kind : StripeEventKind)
  | autoApproveOverdue
  | expireStaleOffers
  | redispatchUnfilledOrders (limit : Nat)
  | expireUnfilledSearches (limit : Nat)
  | sweepAbandonedInspections
  | reconcileStuckOrderPayments (limit : Nat)

/-- A method for its effect, its answer dropped. -/
def discard {α : Type} (p : Act α) : Act Unit := do
  let _ ← p
  pure ()

def Op.prog : Op → Act Unit
  | acceptOffer offer user => CarSalePro.acceptOffer offer user
  | declineOffer offer user => CarSalePro.declineOffer offer user
  | adminAssign order inspector admin => CarSalePro.adminAssign order inspector admin
  | cancel order user => discard (CarSalePro.cancel order user)
  | adminCancel order percent admin => discard (CarSalePro.adminCancel order percent admin)
  | declineByInspector order user reason =>
    discard (CarSalePro.declineByInspector order user reason)
  | recordOwnerContact order user reached =>
    discard (CarSalePro.recordOwnerContact order user reached)
  | updateStatusByInspector order user start =>
    discard (CarSalePro.updateStatusByInspector order user start)
  | submitReportForOrder order => discard (CarSalePro.submitReportForOrder order)
  | approve order user => discard (CarSalePro.approve order user)
  | dispute order user reason => CarSalePro.dispute order user reason
  | resolveDispute order forCustomer admin percent =>
    discard (CarSalePro.resolveDispute order forCustomer admin percent)
  | releasePayout order => discard (CarSalePro.releasePayout order)
  | adminMarkPayoutPaid order => CarSalePro.adminMarkPayoutPaid order
  | adminRetryPayout order => CarSalePro.adminRetryPayout order
  | retryStuckPayouts limit => discard (CarSalePro.retryStuckPayouts limit)
  | adminRetryRefund order reason => CarSalePro.adminRetryRefund order reason
  | retryStuckRefunds limit => discard (CarSalePro.retryStuckRefunds limit)
  | finalizeCounterOfferPayment payment order =>
    CarSalePro.finalizeCounterOfferPayment payment order
  | abandonCounterOfferPayment order canceled =>
    CarSalePro.abandonCounterOfferPayment order canceled
  | handleWebhook event kind => CarSalePro.handleWebhook event (processWebhook kind)
  | autoApproveOverdue => discard CarSalePro.autoApproveOverdue
  | expireStaleOffers => discard CarSalePro.expireStaleOffers
  | redispatchUnfilledOrders limit => discard (CarSalePro.redispatchUnfilledOrders limit)
  | expireUnfilledSearches limit => discard (CarSalePro.expireUnfilledSearches limit)
  | sweepAbandonedInspections => discard CarSalePro.sweepAbandonedInspections
  | reconcileStuckOrderPayments limit => discard (CarSalePro.reconcileStuckOrderPayments limit)

/-- Programs of the services running concurrently on one world. -/
abbrev Run (γ : Type) := Pool Site Stmt Stmt.Resp World Err γ

/-- The operations, all at their first step. -/
def launch {γ : Type} (w : World) (hist : γ) (ops : List Op) : Run γ :=
  ⟨w, hist, ops.map Op.prog⟩

theorem launch_thread {γ : Type} {w : World} {hist : γ} {ops : List Op} {t : Nat} {p : Act Unit}
    (h : (launch w hist ops).threads[t]? = some p) : ∃ op ∈ ops, op.prog = p := by
  simp only [launch, List.getElem?_map, Option.map_eq_some_iff] at h
  obtain ⟨op, hop, rfl⟩ := h
  exact ⟨op, List.mem_of_getElem? hop, rfl⟩

/-- Nothing is recorded. -/
def noRecord : Recorder Site Stmt World Unit := fun _ _ _ _ h => h

/-- A condition on the steps of the services. -/
abbrev StepGuard (γ : Type) := Guard Site Stmt World Fate γ

/-- No condition. -/
def anyStep {γ : Type} : StepGuard γ := fun _ _ _ _ => true

/-- Thread `t` takes `n` steps in which nothing fails. -/
def goes (t n : Nat) : List (Move Fate) := List.replicate n (.run t .ok)

/-- Every step goes through. -/
def answering : Label Site Stmt → Fate → World → Prop := fun _ c _ => c = .ok

theorem fault_ok (l : Site) : World.fault l .ok = none := by cases l <;> rfl

/-- A read that is answered, in a known world. -/
theorem answered_read {w : World} {α : Type} {l : Site} {ρ : Type} {f : World → ρ} {k : ρ → Act α}
    {Q : α → World → Prop} {X : Err → World → Prop}
    (hk : Triple machine answering (· = w) (k (f w)) Q X) :
    Triple machine answering (· = w) (fetch l f >>= k) Q X := by
  have hread : Triple machine answering (· = w) (fetch l f : Act ρ) (fun r v => v = w ∧ r = f w)
      X := by
    refine Triple.fetch fun c v hv hc => ?_
    subst hv hc
    simp only [Machine.answer, machine, fault_ok]
    exact ⟨rfl, rfl⟩
  exact hread.seq fun r => Triple.fact fun hr => hr ▸ hk

end CarSalePro
