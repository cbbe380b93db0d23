import CarSalePro.Orders.ClaimDiscipline

namespace CarSalePro

open Store Interleave Prog OrderStatus

/-- The statements of an assignment besides the claim, the capture and the status. -/
inductive AssignStmt : Stmt → Prop where
  | offer (s) : AssignStmt (.offer s)
  | price (o p) : AssignStmt (.order (.setPrice o p))
  | markCaptured (k) : AssignStmt (.payment (.markCaptured k))
  | stampCaptured (k) : AssignStmt (.payment (.stampCaptured k))
  | event (e) : AssignStmt (.event e)
  | settle {s} (h : SettleStmt s) : AssignStmt s

/-- What finishing a counter-offer payment adds to them. -/
inductive FinalizeStmt : Stmt → Prop where
  | assign {s} (h : AssignStmt s) : FinalizeStmt s
  | supersede {s} (h : SupersedeStmt s) : FinalizeStmt s
  | authorize (k at_) : FinalizeStmt (.payment (.authorize k at_))
  | sale (o c p at_) : FinalizeStmt (.sale o c p at_)
  | withdraw (c at_) : FinalizeStmt (.counterOffer (.withdrawAccepting c at_))
  | promote {o s} (h : PromoteStmt o s) : FinalizeStmt s
  | dispatch {o s} (h : DispatchStmt o s) : FinalizeStmt s

/-- The end of an assignment: the claim is used, or the method broke off. -/
def Used (o : OrderId) (i : UserId) (x : Stance) : Prop := x = .done o ∨ x = .broken o i

theorem Used.rest {o : OrderId} {i : UserId} {x : Stance} (h : Used o i x) : x.Rest :=
  h.elim (fun h => .inr (.inl ⟨o, h⟩)) fun h => .inr (.inr (.inl ⟨o, i, h⟩))

section Outside

variable {S : ClaimScope} {α β : Type}

/-- A flow from outside every claim to an end. -/
abbrev EndFlow (S : ClaimScope) (p : Act α) : Prop :=
  ClaimFlow S .out p (fun _ => Stance.Rest) Stance.Rest

theorem endFlow_only {p : Act α} (hp : p.Only S.side) : EndFlow S p :=
  (flow_only hp fun _ h => by cases h).post (fun _ _ hx => .inl hx) fun _ _ hx => .inl hx

theorem endFlow_seq {p : Act α} {f : α → Act β} (hp : p.Only S.side)
    (hf : ∀ a, EndFlow S (f a)) : EndFlow S (p >>= f) :=
  ((flow_only hp fun _ h => by cases h).post (fun _ _ hx => hx) fun _ _ hx => .inl hx).seq hf

theorem endFlow_pure (a : α) : EndFlow S (pure a : Act α) := endFlow_only (only_pure a)

theorem endFlow_fail (status : HttpStatus) (code message : String) :
    EndFlow S (fail status code message : Act α) := endFlow_only (only_fail _ _ _)

theorem flow_claim (o : OrderId) {statuses : List OrderStatus} (i : UserId)
    (hs : ∀ s ∈ statuses, s ∈ searchStatuses) :
    ClaimFlow S .out (perform (.order (.claim o statuses i)))
      (fun n x => x = if n = 0 then .out else .held o i) (· = .out) := by
  refine Discipline.Flow.perform fun x c w hx _ => ?_
  subst hx
  rw [show machine.exec = World.exec from rfl]
  cases hr : (World.exec (.order (.claim o statuses i)) c w).1 with
  | error e => exact ⟨_, .missed o statuses i c w (by simp [wrote, hr]), rfl⟩
  | ok n =>
    cases n with
    | zero => exact ⟨_, .missed o statuses i c w (by simp [wrote, hr]), rfl⟩
    | succ n => exact ⟨_, .claimed o statuses i c w hs ⟨n, hr⟩, rfl⟩

/-- A claim, with what follows when it is lost and when it is won. -/
theorem endFlow_claim {o : OrderId} {statuses : List OrderStatus} {i : UserId} {p q : Act α}
    (hs : ∀ s ∈ statuses, s ∈ searchStatuses) (hp : EndFlow S p)
    (hq : ClaimFlow S (.held o i) q (fun _ => Stance.Rest) Stance.Rest) :
    EndFlow S (do
      let claimed ← perform (.order (.claim o statuses i))
      if claimed = 0 then p else q) := by
  refine ((flow_claim o i hs).post (fun _ _ hx => hx) fun _ _ hx => .inl hx).seq fun n => ?_
  by_cases hn : n = 0
  · rw [if_pos hn, if_pos hn]; exact hp
  · rw [if_neg hn, if_neg hn]; exact hq

/-- Undoing a claim: whatever follows is issued from outside it. -/
theorem flow_giveUp {p : Act α} {o : OrderId} {i : UserId} (hp : EndFlow S p) :
    ClaimFlow S (.held o i) (do releaseOrderClaim o i; p) (fun _ => Stance.Rest)
      Stance.Rest :=
  ((flow_release o i).post (fun _ _ hx => hx) fun _ _ hx => .inr (.inr (.inl ⟨o, i, hx⟩))).seq
    fun _ => hp

/-- Money back, and the order cancelled. -/
theorem endFlow_close {p : RefundOutcome → Act α} (hE : ∀ e, S.side (.event e)) (o : OrderId)
    (amountCents : Cents) (reason : RefundReason) (actor : Actor)
    (hp : ∀ r, EndFlow S (p r)) :
    EndFlow S (do
      let outcome ← settleRefund o amountCents reason
      transition o cancelled actor
      p outcome) :=
  (flow_settleRefund o hE amountCents reason).seq fun outcome =>
    ((flow_cancelled o actor hE).post (fun _ _ hx => hx) fun _ _ hx => .inl hx).seq
      fun _ => hp outcome

end Outside

section Assignment

variable {S : ClaimScope} (hA : ∀ s, AssignStmt s → S.side s)
include hA

theorem captureSide (s : Stmt) (hs : CaptureStmt s)
    (hn : ∀ i k a, s ≠ .stripe (.capture i k a)) : S.side s := by
  cases hs with
  | capture i k a => exact absurd rfl (hn i k a)
  | markCaptured k => exact hA _ (.markCaptured k)
  | stampCaptured k => exact hA _ (.stampCaptured k)

theorem flow_settleCounterOffers {ph : Stance} {X : Stance → Prop} (h : Holding S ph X)
    (o : OrderId) (i : UserId) :
    ClaimFlow S ph (settleCounterOffersOnAssignment o i) (fun _ => (· = ph)) X := by
  refine h.then_read rfl fun superseded => h.then_read rfl fun withdrawn => ?_
  refine (h.optional (hA _ (.settle (.supersede _))) rfl).seq fun _ => ?_
  refine .when (fun _ => ?_) fun _ _ hx => hx
  refine (h.writes (hA _ (.settle (.withdraw _))) rfl).seq fun _ => ?_
  refine Discipline.Flow.seq
    (.forEach fun c _ => h.note (fun e => hA _ (.event e)) _ _ _ (by decide))
    fun _ => .forEach fun o' _ => ?_
  exact h.quiet ((only_promote o').mono fun s hs => hA _ (.settle (.promote hs)))

theorem held_write {o : OrderId} {i : UserId} {s : Stmt} (hs : AssignStmt s)
    (hc : caughtStmt s = false) :
    ClaimFlow S (.held o i) (issue s) (fun _ => (· = .held o i)) (Used o i) :=
  ((holding_held o i).writes (hA s hs) hc).post (fun _ _ hx => hx) fun _ _ hx => .inr hx

/-- Closing the other counter-offers, then the status. -/
theorem flow_assign (o : OrderId) (i : UserId) (actor : Actor) :
    ClaimFlow S (.held o i) (do
      settleCounterOffersOnAssignment o i
      transition o assigned actor) (fun _ => Used o i) (Used o i) :=
  ((flow_settleCounterOffers hA (holding_held o i) o i).post (fun _ _ hx => hx)
    fun _ _ hx => .inr hx).seq fun _ => flow_assigned o i actor

theorem flow_completeAcceptance (o : OrderId) (offer : OrderOffer) (order : Order) (i : UserId) :
    ClaimFlow S (.held o i) (completeAcceptance o offer order i) (fun _ => Used o i)
      (Used o i) := by
  refine (held_write hA (.offer _) rfl).seq fun _ => ?_
  refine Discipline.Flow.seq (B := fun _ => (· = .held o i)) ?_ fun _ => flow_assign hA o i _
  refine .when (fun _ => ?_) fun _ _ hx => hx
  exact (held_write hA (.price _ _) rfl).seq fun _ => held_write hA (.event _) rfl

theorem flow_captureHeld (o : OrderId) (i : UserId) (amountCents : Option Cents)
    {k : CaptureOutcome → Act Unit}
    (hk : ∀ r, ClaimFlow S (.held o i) (k r) (fun _ => Stance.Rest) Stance.Rest) :
    ClaimFlow S (.held o i) (captureOrderPayment o amountCents >>= k) (fun _ => Stance.Rest)
      Stance.Rest :=
  ((flow_captureOrderPayment (captureSide hA) (holding_held o i) rfl amountCents).post
    (fun _ _ hx => hx) fun _ _ hx => .inr (.inr (.inl ⟨o, i, hx⟩))).seq hk

theorem flow_rejectAcceptance (o : OrderId) (order : Order) (i : UserId) :
    ClaimFlow S (.held o i) (rejectAcceptance o order i) (fun _ => Stance.Rest)
      Stance.Rest := by
  have hE (e : OrderEvent) : S.side (.event e) := hA _ (.event e)
  refine flow_giveUp (endFlow_seq (only_issue (hA _ (.offer _))) fun _ => ?_)
  refine endFlow_seq (only_note _ _ _ hE) fun _ => ?_
  exact endFlow_close hE o _ _ _ fun _ => endFlow_fail _ _ _

theorem flow_deferAcceptance (offerId : OfferId) (o : OrderId) (i : UserId) :
    ClaimFlow S (.held o i) (deferAcceptance offerId o i) (fun _ => Stance.Rest)
      Stance.Rest := by
  refine flow_giveUp (endFlow_seq (only_issue (hA _ (.offer _))) fun _ => ?_)
  exact endFlow_seq (only_note _ _ _ fun e => hA _ (.event e)) fun _ => endFlow_fail _ _ _

theorem endFlow_claimOffer (offerId : OfferId) (offer : OrderOffer) (order : Order) (i : UserId) :
    EndFlow S (claimOffer offerId offer order i) := by
  refine endFlow_claim (fun s hs => hs) (endFlow_fail _ _ _) ?_
  refine ((held_write hA (.offer _) rfl).post (fun _ _ hx => hx) fun _ _ hx => hx.rest).seq
    fun _ => ?_
  refine flow_captureHeld hA offer.orderId i _ fun r => ?_
  have hcomplete := (flow_completeAcceptance (S := S) hA offer.orderId offer order i).post
    (fun _ _ hx => hx.rest) fun _ _ hx => hx.rest
  cases r with
  | retryable _ => exact flow_deferAcceptance hA offerId offer.orderId i
  | fatal _ => exact flow_rejectAcceptance hA offer.orderId order i
  | captured => exact hcomplete
  | alreadyCaptured => exact hcomplete

theorem endFlow_acceptOffer (offerId : OfferId) (user : UserId) :
    EndFlow S (acceptOffer offerId user) := by
  refine endFlow_seq (only_fetch _ _) fun found => ?_
  split
  next => exact endFlow_fail _ _ _
  next offer =>
    refine .ite (fun _ => endFlow_fail _ _ _) fun _ => endFlow_seq only_readClock fun now => ?_
    refine .ite (fun _ => endFlow_fail _ _ _) fun _ => ?_
    refine endFlow_seq (only_assertInspectorPro user) fun _ => ?_
    refine endFlow_seq (only_fetch _ _) fun order => ?_
    split
    next => exact endFlow_fail _ _ _
    next order =>
      refine .ite (fun _ => endFlow_fail _ _ _) fun _ => ?_
      refine endFlow_seq (only_fetch _ _) fun locked => ?_
      exact .ite (fun _ => endFlow_fail _ _ _) fun _ =>
        endFlow_claimOffer hA offerId offer order user

theorem flow_completeAssignment (o : OrderId) (i admin : UserId) :
    ClaimFlow S (.held o i) (completeAssignment o i admin) (fun _ => Used o i) (Used o i) := by
  have h := (holding_held (S := S) o i)
  refine Discipline.Flow.seq (B := fun _ => (· = .held o i)) ?_ fun _ => ?_
  · refine (h.then_read (B := fun _ => (· = .held o i)) rfl fun pending => ?_).post
      (fun _ _ hx => hx) fun _ _ hx => .inr hx
    exact h.optional (hA _ (.offer _)) rfl
  refine Discipline.Flow.seq (B := fun _ => (· = .held o i)) ?_ fun _ => flow_assign hA o i _
  refine (h.then_read (B := fun _ => (· = .held o i)) rfl fun found => ?_).post
    (fun _ _ hx => hx) fun _ _ hx => .inr hx
  split
  next => exact h.writes (hA _ (.offer _)) rfl
  next => exact h.then_read rfl fun _ => h.writes (hA _ (.offer _)) rfl

theorem flow_rejectAssignment (o : OrderId) (order : Order) (i admin : UserId) :
    ClaimFlow S (.held o i) (rejectAssignment o order i admin) (fun _ => Stance.Rest)
      Stance.Rest := by
  have hE (e : OrderEvent) : S.side (.event e) := hA _ (.event e)
  refine flow_giveUp (endFlow_seq (only_note _ _ _ hE) fun _ => ?_)
  exact endFlow_close hE o _ _ _ fun _ => endFlow_fail _ _ _

theorem endFlow_adminAssign (o : OrderId) (i admin : UserId) :
    EndFlow S (adminAssign o i admin) := by
  refine endFlow_seq (only_requireOrderAt _ _) fun order => ?_
  refine .ite (fun _ => endFlow_fail _ _ _) fun _ => endFlow_seq (only_fetch _ _) fun profile => ?_
  refine .ite (fun _ => endFlow_fail _ _ _) fun _ => .ite (fun _ => endFlow_fail _ _ _) fun hl => ?_
  have hs : order.status ∈ searchStatuses := canTransition_assigned (by simpa using hl)
  refine endFlow_claim (fun s h => by simp at h; exact h ▸ hs) (endFlow_fail _ _ _) ?_
  refine flow_captureHeld hA o i _ fun r => ?_
  have hcomplete := (flow_completeAssignment (S := S) hA o i admin).post
    (fun _ _ hx => hx.rest) fun _ _ hx => hx.rest
  cases r with
  | retryable _ => exact flow_giveUp (endFlow_fail _ _ _)
  | fatal _ => exact flow_rejectAssignment hA o order i admin
  | captured => exact hcomplete
  | alreadyCaptured => exact hcomplete

end Assignment

section Cancellation

variable {S : ClaimScope} (hE : ∀ e, S.side (.event e))
include hE

end Cancellation

section CounterOffer

variable {S : ClaimScope} (hN : ∀ s, FinalizeStmt s → S.side s)
include hN

theorem flow_releaseAndSupersede {ph : Stance} {X : Stance → Prop} (h : Holding S ph X)
    (o : OrderId) (k : PaymentId) (p : Payment) :
    ClaimFlow S ph (releaseAndSupersede o k p) (fun _ => (· = ph)) X := by
  have hpure (b : Bool) : ClaimFlow S ph (pure b : Act Bool) (fun _ => (· = ph)) X :=
    .pure fun _ hx => hx
  refine Discipline.Flow.seq (B := fun _ => (· = ph)) ?_ fun released => ?_
  · refine h.then_read rfl fun configured => .ite (fun _ => ?_) fun _ => hpure _
    split
    next => exact hpure _
    next intent _ =>
      have hask : ClaimFlow S ph (perform (.stripe (.cancel intent k))) (fun _ => (· = ph))
          (· = ph) :=
        flow_only ((only_perform _).mpr (hN _ (.supersede (.cancel intent k)))) h.plain
      refine hask.attempt.seq fun r => ?_
      cases r with
      | ok n => exact .pure fun _ hx => hx
      | error e => exact .pure fun _ hx => hx
  · refine (h.writes (hN _ (.supersede (.supersede _ _))) rfl).seq fun _ => ?_
    exact h.writes (hN _ (.assign (.event _))) (by cases released <;> rfl)

theorem flow_releaseReplacedHold {ph : Stance} {X : Stance → Prop} (h : Holding S ph X)
    (o : OrderId) (k : PaymentId) :
    ClaimFlow S ph (releaseReplacedHold o k) (fun _ => (· = ph)) X :=
  h.then_read rfl fun _ => .forEach fun _ _ => flow_releaseAndSupersede hN h o _ _

theorem only_releaseSuperseded (k : PaymentId) (o : OrderId) :
    (releaseSupersededHold k o).Only S.side :=
  (only_releaseSupersededHold o k).mono fun s hs => hN s (.supersede hs)

theorem flow_completeSale (o : OrderId) (counterId : CounterOfferId)
    (counter : OrderCounterOffer) (now : Time) :
    ClaimFlow S (.held o counter.inspectorId) (completeSale o counterId counter now)
      (fun _ => Used o counter.inspectorId) (Used o counter.inspectorId) := by
  have hA (s : Stmt) (hs : AssignStmt s) : S.side s := hN s (.assign hs)
  have h := (holding_held (S := S) o counter.inspectorId)
  refine ((h.writes (hN _ (.sale _ _ _ _)) rfl).post (fun _ _ hx => hx)
    fun _ _ hx => .inr hx).seq fun _ => ?_
  exact (held_write hA (.event _) rfl).seq fun _ => flow_assign hA o _ _

theorem flow_abortSale (k : PaymentId) (o : OrderId) (counter : OrderCounterOffer) :
    ClaimFlow S (.held o counter.inspectorId) (abortSale k o counter) (fun _ => Stance.Rest)
      Stance.Rest :=
  flow_giveUp (endFlow_seq (only_releaseSuperseded hN k o) fun _ =>
    endFlow_only (only_note _ _ _ fun e => hN _ (.assign (.event e))))

theorem endFlow_claimSale (k : PaymentId) (o : OrderId) (counterId : CounterOfferId)
    (counter : OrderCounterOffer) (now : Time) :
    EndFlow S (claimSale k o counterId counter now) := by
  have h := (holding_held (S := S) o counter.inspectorId)
  refine endFlow_claim (fun s hs => hs) (endFlow_only (only_releaseSuperseded hN k o)) ?_
  have hrest {x : Stance} (hx : x = .broken o counter.inspectorId) : x.Rest :=
    .inr (.inr (.inl ⟨o, _, hx⟩))
  refine ((flow_releaseReplacedHold hN h o k).post (fun _ _ hx => hx)
    fun _ _ hx => hrest hx).seq fun _ => ?_
  refine ((h.quiet ((only_perform _).mpr (hN _ (.authorize k now)))).post (fun _ _ hx => hx)
    fun _ _ hx => hrest hx).seq fun _ => ?_
  refine flow_captureHeld (fun s hs => hN s (.assign hs)) o counter.inspectorId none fun r => ?_
  have hcomplete := (flow_completeSale (S := S) hN o counterId counter now).post
    (fun _ _ hx => hx.rest) fun _ _ hx => hx.rest
  cases r with
  | retryable _ => exact flow_abortSale hN k o counter
  | fatal _ => exact flow_abortSale hN k o counter
  | captured => exact hcomplete
  | alreadyCaptured => exact hcomplete

theorem only_withdrawBusy (k : PaymentId) (o : OrderId) (counterId : CounterOfferId)
    (counter : OrderCounterOffer) (now : Time) :
    (withdrawBusyCounterOffer k o counterId counter now).Only S.side := by
  refine Only.seq (only_releaseSuperseded hN k o) fun _ => ?_
  refine Only.seq (only_issue (hN _ (.withdraw _ _))) fun _ => ?_
  refine Only.seq (only_note _ _ _ fun e => hN _ (.assign (.event e))) fun _ => ?_
  refine Only.seq ((only_promoteQuietly o).mono fun s hs => hN s (.promote hs)) fun _ => ?_
  exact Only.seq ((only_dispatch o).mono fun s hs => hN s (.dispatch hs)) fun _ => only_pure _

theorem endFlow_finalize (k : PaymentId) (o : OrderId) :
    EndFlow S (finalizeCounterOfferPayment k o) := by
  refine endFlow_seq (only_fetch _ _) fun found => ?_
  split
  next => exact endFlow_pure _
  next p =>
    refine endFlow_seq (only_fetch _ _) fun counter => endFlow_seq (only_fetch _ _) fun order => ?_
    split
    next counterId counter order =>
      have hlate := endFlow_only (S := S) (only_releaseSuperseded hN k o)
      refine .ite (fun _ => hlate) fun _ => .ite (fun _ => hlate) fun _ => ?_
      refine endFlow_seq only_readClock fun now => endFlow_seq (only_fetch _ _) fun busy => ?_
      refine .ite (fun _ => ?_) fun _ => endFlow_claimSale hN k o counterId counter now
      exact endFlow_only (only_withdrawBusy hN k o counterId counter now)
    next => exact endFlow_pure _

end CounterOffer

end CarSalePro
