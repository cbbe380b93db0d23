import CarSalePro.Orders.CounterOfferCreation

namespace CarSalePro

open Interleave Prog OrderStatus

/-- The operations that name, answer, pay and close the prices of orders. -/
def PriceOp.plays : PriceOp → Bool
  | .create _ _ _ => true
  | .trade (.accept _ _ _) | .trade (.decline _ _ _) | .trade (.withdraw _ _)
  | .trade .sweepExpired => true
  | .trade (.orders op) =>
    match op with
    | .acceptOffer _ _ | .adminAssign _ _ _ | .finalizeCounterOfferPayment _ _
    | .abandonCounterOfferPayment _ _ => true
    | _ => false
  | .trade (.dispatch _) => false

/-- The statements that open no payment and no window, and name no price. -/
def Stmt.priceless : Stmt → Prop
  | .createPayment _ _ _ | .upsertCounterOffer _ _ _ | .counterOffer (.startPayment _ _) => False
  | _ => True

section Families

variable {id : OrderId} {s : Stmt}

theorem PromoteStmt.priceless (h : PromoteStmt id s) : s.priceless := by cases h <;> trivial

theorem DispatchStmt.priceless (h : DispatchStmt id s) : s.priceless := by cases h <;> trivial

theorem SettleStmt.priceless (h : SettleStmt s) : s.priceless := by
  cases h with
  | promote h => exact h.priceless
  | _ => trivial

theorem SupersedeStmt.priceless (h : SupersedeStmt s) : s.priceless := by cases h <;> trivial

theorem CaptureStmt.priceless (h : CaptureStmt s) : s.priceless := by cases h <;> trivial

theorem RefundStmt.priceless {reason : RefundReason} {payment : PaymentId}
    {intent : Option IntentId}
    (h : RefundStmt id reason payment intent s) : s.priceless := by cases h <;> trivial

theorem AbandonStmt.priceless (h : AbandonStmt id s) : s.priceless := by
  cases h with
  | promote h => exact h.priceless
  | dispatch h => exact h.priceless
  | _ => trivial

end Families

section Assignments

variable {id : OrderId}

theorem priceless_transition (target : OrderStatus) (actor : Actor) :
    (transition id target actor).Only Stmt.priceless :=
  only_transition id target actor (fun _ _ => trivial) (fun _ => trivial) fun _ => trivial

theorem priceless_settle (inspector : UserId) :
    (settleCounterOffersOnAssignment id inspector).Only Stmt.priceless :=
  (only_settleCounterOffersOnAssignment id inspector).mono fun _ h => h.priceless

theorem priceless_capture (amountCents : Option Cents) :
    (captureOrderPayment id amountCents).Only Stmt.priceless :=
  (only_captureOrderPayment id amountCents).mono fun _ h => h.priceless

theorem priceless_settleRefund (amountCents : Cents) (reason : RefundReason) :
    (settleRefund id amountCents reason).Only Stmt.priceless :=
  only_settleRefund id reason amountCents fun _ _ _ h => h.priceless

theorem priceless_acceptOffer (offerId : OfferId) (user : UserId) :
    (acceptOffer offerId user).Only Stmt.priceless := by
  apply (only_acceptOffer offerId user).mono
  rintro s ⟨id, h⟩
  cases h with
  | capture h => exact h.priceless
  | refund h => exact h.priceless
  | settle h => exact h.priceless
  | _ => trivial

theorem priceless_adminAssign (inspector admin : UserId) :
    (adminAssign id inspector admin).Only Stmt.priceless := by
  refine Only.seq (only_requireOrderAt _ _) fun order =>
    Only.ite (fun _ => only_fail _ _ _) fun _ => ?_
  refine Only.seq (only_fetch _ _) fun profile => Only.ite (fun _ => only_fail _ _ _) fun _ => ?_
  refine Only.ite (fun _ => only_fail _ _ _) fun _ => ?_
  refine Only.seq ((only_perform _).mpr trivial) fun claimed => ?_
  refine Only.ite (fun _ => only_fail _ _ _) fun _ =>
    Only.seq (priceless_capture _) fun outcome => ?_
  have hdone : (completeAssignment id inspector admin).Only Stmt.priceless := by
    refine Only.seq (only_expirePendingOffers id _ fun _ => trivial) fun _ => ?_
    refine Only.seq (only_acceptChosenOffer id inspector fun _ => trivial) fun _ => ?_
    exact Only.seq (priceless_settle inspector) fun _ => priceless_transition _ _
  cases outcome with
  | captured => exact hdone
  | alreadyCaptured => exact hdone
  | retryable message => exact Only.seq (only_issue trivial) fun _ => only_fail _ _ _
  | fatal message =>
    refine Only.seq (only_issue trivial) fun _ =>
      Only.seq (only_note _ _ _ fun _ => trivial) fun _ => ?_
    refine Only.seq (priceless_settleRefund _ _) fun _ => ?_
    exact Only.seq (priceless_transition _ _) fun _ => only_fail _ _ _

end Assignments

section Payments

variable {id : OrderId} {payment : PaymentId}

theorem priceless_release : (releaseSupersededHold payment id).Only Stmt.priceless :=
  (only_releaseSupersededHold id payment).mono fun _ h => h.priceless

theorem priceless_abandon (alreadyCanceledAtStripe : Bool) :
    (abandonCounterOfferPayment id alreadyCanceledAtStripe).Only Stmt.priceless :=
  (only_abandonCounterOfferPayment id alreadyCanceledAtStripe).mono fun _ h => h.priceless

theorem priceless_promoteQuietly : (promoteQuietly id).Only Stmt.priceless :=
  (only_promoteQuietly id).mono fun _ h => h.priceless

theorem priceless_dispatch : (dispatch id).Only Stmt.priceless :=
  (only_dispatch id).mono fun _ h => h.priceless

theorem priceless_claimSale (counterId : CounterOfferId) (counter : OrderCounterOffer)
    (now : Time) :
    (claimSale payment id counterId counter now).Only Stmt.priceless := by
  have hdone : (completeSale id counterId counter now).Only Stmt.priceless := by
    refine Only.seq (only_issue trivial) fun _ =>
      Only.seq (only_note _ _ _ fun _ => trivial) fun _ => ?_
    exact Only.seq (priceless_settle _) fun _ => priceless_transition _ _
  have habort : (abortSale payment id counter).Only Stmt.priceless := by
    refine Only.seq (only_issue trivial) fun _ => Only.seq priceless_release fun _ => ?_
    exact only_note _ _ _ fun _ => trivial
  refine Only.seq ((only_perform _).mpr trivial) fun claimed => ?_
  refine Only.ite (fun _ => priceless_release) fun _ => ?_
  refine Only.seq ((only_releaseReplacedHold id payment).mono fun _ h => h.priceless) fun _ => ?_
  refine Only.seq (Only.quietly ((only_perform _).mpr trivial)) fun _ => ?_
  refine Only.seq (priceless_capture _) fun outcome => ?_
  cases outcome with
  | captured => exact hdone
  | alreadyCaptured => exact hdone
  | retryable message => exact habort
  | fatal message => exact habort

theorem priceless_finalize : (finalizeCounterOfferPayment payment id).Only Stmt.priceless := by
  refine Only.seq (only_fetch _ _) fun found => ?_
  split
  · exact only_pure _
  · refine Only.seq (only_fetch _ _) fun counter => Only.seq (only_fetch _ _) fun order => ?_
    split
    next counterId counter order =>
      refine Only.ite (fun _ => priceless_release) fun _ =>
        Only.ite (fun _ => priceless_release) fun _ => ?_
      refine Only.seq only_readClock fun now => Only.seq (only_fetch _ _) fun busy => ?_
      refine Only.ite (fun _ => ?_) fun _ => priceless_claimSale counterId counter now
      refine Only.seq priceless_release fun _ => Only.seq (only_issue trivial) fun _ => ?_
      refine Only.seq (only_note _ _ _ fun _ => trivial) fun _ => ?_
      exact Only.seq priceless_promoteQuietly fun _ =>
        Only.seq priceless_dispatch fun _ => only_pure _
    · exact only_pure _

end Payments

end CarSalePro
