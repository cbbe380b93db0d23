import CarSalePro.Orders.Lenient

namespace CarSalePro

open Store Interleave Prog OrderStatus

namespace World

variable {s : Stmt} {c : Fate} {w : World}

/-- Who has claimed the order. -/
def claimant (w : World) (o : OrderId) : Option UserId :=
  (w.orders.get o).bind (·.inspectorId)

/-- The inspector has an order to work on. -/
def busy (w : World) (i : UserId) : Bool :=
  w.orders.any fun _ o => o.inspectorId = some i && o.status ∈ busyStatuses

/-- What a statement does to the claim of an order. -/
theorem claimant_exec (s : Stmt) (c : Fate) (w : World) (o : OrderId) :
    (exec s c w).2.claimant o = w.claimant o ∨
    (∃ statuses i, s = .order (.claim o statuses i) ∧ w.claimant o = none ∧
      (exec s c w).2.claimant o = some i) ∨
    ∃ i, s = .order (.releaseClaim o i) := by
  cases hr : w.orders.get o with
  | none => exact .inl (by rw [claimant, claimant, exec_order_none hr, hr])
  | some r =>
    obtain ⟨r', hr', heff⟩ := exec_order (s := s) (c := c) hr
    have hsame (hi : r'.inspectorId = r.inspectorId) :
        (exec s c w).2.claimant o = w.claimant o := by
      rw [claimant, claimant, hr', hr, Option.bind_some, Option.bind_some, hi]
    cases heff with
    | same => exact .inl (hsame rfl)
    | sale => exact .inl (hsame rfl)
    | write u stmt row rewrite =>
      subst stmt row
      cases u with
      | claim id statuses i =>
        simp only [OrderStmt.rewrite] at rewrite
        split at rewrite
        next hc =>
          cases rewrite
          exact .inr (.inl ⟨statuses, i, rfl, by rw [claimant, hr]; exact hc.2,
            by rw [claimant, hr']; rfl⟩)
        next => cases rewrite
      | releaseClaim id i => exact .inr (.inr ⟨i, rfl⟩)
      | confirmOwnerContact id i at_ =>
        simp only [OrderStmt.rewrite] at rewrite
        split at rewrite
        next => cases rewrite; exact .inl (hsame rfl)
        next => cases rewrite
      | cancelWhere id guard =>
        simp only [OrderStmt.rewrite] at rewrite
        split at rewrite
        next => cases rewrite; exact .inl (hsame rfl)
        next => cases rewrite
      | raiseRound id now =>
        simp only [OrderStmt.rewrite] at rewrite
        split at rewrite
        next => cases rewrite; exact .inl (hsame rfl)
        next => cases rewrite
      | _ => cases rewrite; exact .inl (hsame rfl)

/-- A claim that wrote found the order free. -/
theorem claim_wrote {o : OrderId} {statuses : List OrderStatus} {i : UserId} {n : Nat}
    (h : (exec (.order (.claim o statuses i)) c w).1 = .ok n) (hn : n ≠ 0) :
    w.claimant o = none ∧ (exec (.order (.claim o statuses i)) c w).2.claimant o = some i := by
  have hdown : c ≠ .down := by
    intro hc
    rw [hc] at h
    cases h
  cases hr : w.orders.get o with
  | none =>
    simp only [exec, if_neg hdown, write, writeOrder, OrderStmt.order, hr] at h
    cases h
    exact absurd rfl hn
  | some r =>
    rcases exec_orderStmt (c := c) (u := .claim o statuses i) hr with
      ⟨hc, _⟩ | ⟨_, he⟩ | ⟨r', hw, he⟩
    · exact absurd hc hdown
    · rw [he] at h
      cases h
      exact absurd rfl hn
    · simp only [OrderStmt.rewrite] at hw
      split at hw
      next hc =>
        cases hw
        refine ⟨by rw [claimant, hr]; exact hc.2, ?_⟩
        rw [he]
        simp [claimant, OrderStmt.order]
      next => cases hw

/-- A claim that wrote nothing. -/
theorem claim_missed {o : OrderId} {statuses : List OrderStatus} {i : UserId}
    (h : (exec (.order (.claim o statuses i)) c w).1 = .ok 0) :
    (exec (.order (.claim o statuses i)) c w).2 = w := by
  have hdown : c ≠ .down := by
    intro hc
    rw [hc] at h
    cases h
  cases hr : w.orders.get o with
  | none => simp only [exec, if_neg hdown, write, writeOrder, OrderStmt.order, hr]
  | some r =>
    rcases exec_orderStmt (c := c) (u := .claim o statuses i) hr with
      ⟨hc, _⟩ | ⟨_, he⟩ | ⟨r', hw, he⟩
    · exact absurd hc hdown
    · rw [he]
    · rw [he] at h
      cases h

theorem claimant_other {o : OrderId} (hc : ∀ statuses i, s ≠ .order (.claim o statuses i))
    (hr : ∀ i, s ≠ .order (.releaseClaim o i)) : (exec s c w).2.claimant o = w.claimant o := by
  rcases claimant_exec s c w o with h | ⟨statuses, i, h, _⟩ | ⟨i, h⟩
  · exact h
  · exact absurd h (hc statuses i)
  · exact absurd h (hr i)

end World

/-- Where a thread stands with the claim of an order. `selling` is how a counter-offer payment
begins: it pledges an inspector it found free, and only then claims. -/
inductive Tenure where
  | free
  | held (order : OrderId) (inspector : UserId)
  | selling
  | pledged (order : OrderId) (inspector : UserId)
  | sold (order : OrderId) (inspector : UserId)

/-- The claim the thread has. -/
def Tenure.holds : Tenure → Option (OrderId × UserId)
  | held o i | sold o i => some (o, i)
  | _ => none

/-- A statement that takes, gives up and uses no claim. -/
def Stmt.claimFree : Stmt → Bool
  | .order (.claim _ _ _) | .order (.releaseClaim _ _) => false
  | .order (.transition _ _ target _) => target ∉ busyStatuses
  | _ => true

/-- The moves of a claim. -/
inductive TenureMove : Tenure → Label Site Stmt → Fate → World → Tenure → Prop where
  | read (ph l c w) : TenureMove ph (.ask l) c w ph
  | pledge (o i c w) (h : w.busy i = false) :
      TenureMove .selling (.ask (.finalizeBusy o i)) c w (.pledged o i)
  | side (ph s c w) (h : s.claimFree) : TenureMove ph (.call s) c w ph
  | refused (ph s c w e) (ht : s.touchesProvider = false)
      (h : (World.exec s c w).1 = .error e) : TenureMove ph (.call s) c w ph
  | missed (ph o statuses i c w)
      (h : (World.exec (.order (.claim o statuses i)) c w).1 = .ok 0) :
      TenureMove ph (.call (.order (.claim o statuses i))) c w ph
  | claimed (o statuses i c w n) (hs : ∀ s ∈ statuses, s ∈ searchStatuses)
      (h : (World.exec (.order (.claim o statuses i)) c w).1 = .ok n) (hn : n ≠ 0) :
      TenureMove .free (.call (.order (.claim o statuses i))) c w (.held o i)
  | bought (o statuses i c w n) (hs : ∀ s ∈ statuses, s ∈ searchStatuses)
      (h : (World.exec (.order (.claim o statuses i)) c w).1 = .ok n) (hn : n ≠ 0) :
      TenureMove (.pledged o i) (.call (.order (.claim o statuses i))) c w (.sold o i)
  | released (o i c w) :
      TenureMove (.held o i) (.call (.order (.releaseClaim o i))) c w .free
  | returned (o i c w) :
      TenureMove (.sold o i) (.call (.order (.releaseClaim o i))) c w .selling
  | assigned (o i source legal c w n)
      (h : (World.exec (.order (.transition o source assigned legal)) c w).1 = .ok n) :
      TenureMove (.held o i) (.call (.order (.transition o source assigned legal))) c w .free
  | closed (o i source legal c w n)
      (h : (World.exec (.order (.transition o source assigned legal)) c w).1 = .ok n) :
      TenureMove (.sold o i) (.call (.order (.transition o source assigned legal))) c w .selling

/-- How claims are held. -/
def tenures : Discipline Site Stmt World Fate Tenure where
  view _ _ := True
  moves := TenureMove

/-- Every claim is in the row of its order, and one thread has it. -/
structure Tenures (Φ : Nat → Tenure) (w : World) : Prop where
  mine : ∀ t o i, (Φ t).holds = some (o, i) → w.claimant o = some i
  sole : ∀ t u o i j, (Φ t).holds = some (o, i) → (Φ u).holds = some (o, j) → t = u

section Moves

variable {ph ph' : Tenure} {l : Label Site Stmt} {c : Fate} {w : World} {Φ : Nat → Tenure} {t : Nat}

/-- A claim is held on from the step before, or found the order free. -/
theorem TenureMove.holds (hm : TenureMove ph l c w ph') {o : OrderId} {i : UserId}
    (h : ph'.holds = some (o, i)) : ph.holds = some (o, i) ∨
      (w.claimant o = none ∧ (machine.after l c w).claimant o = some i) := by
  cases hm with
  | pledge => cases h
  | claimed o' statuses i' _ _ n hs he hn => cases h; exact .inr (World.claim_wrote he hn)
  | bought o' statuses i' _ _ n hs he hn => cases h; exact .inr (World.claim_wrote he hn)
  | released => cases h
  | returned => cases h
  | assigned => cases h
  | closed => cases h
  | _ => exact .inl h

/-- The claim of an order changes hands only by its holder, or while it is free. -/
theorem TenureMove.claimant (hm : TenureMove ph l c w ph') (o : OrderId) :
    (machine.after l c w).claimant o = w.claimant o ∨ w.claimant o = none ∨
      ((∃ i, ph.holds = some (o, i)) ∧ ph'.holds = none) := by
  have hsame {s : Stmt} (hc : ∀ statuses i, s ≠ .order (.claim o statuses i))
      (hr : ∀ i, s ≠ .order (.releaseClaim o i)) :
      (World.exec s c w).2.claimant o = w.claimant o := World.claimant_other hc hr
  have hrelease {o' : OrderId} {i : UserId} (h : ph.holds = some (o', i)) (h' : ph'.holds = none) :
      (World.exec (.order (.releaseClaim o' i)) c w).2.claimant o = w.claimant o ∨
        w.claimant o = none ∨ ((∃ i, ph.holds = some (o, i)) ∧ ph'.holds = none) := by
    by_cases ho : o' = o
    · subst ho
      exact .inr (.inr ⟨⟨i, h⟩, h'⟩)
    · exact .inl (hsame (fun _ _ he => by cases he) fun _ he => (by cases he; exact ho rfl))
  have hclaim {o' : OrderId} {statuses : List OrderStatus} {i : UserId} {n : Nat}
      (he : (World.exec (.order (.claim o' statuses i)) c w).1 = .ok n) (hn : n ≠ 0) :
      (World.exec (.order (.claim o' statuses i)) c w).2.claimant o = w.claimant o ∨
        w.claimant o = none ∨ ((∃ i, ph.holds = some (o, i)) ∧ ph'.holds = none) := by
    by_cases ho : o' = o
    · subst ho
      exact .inr (.inl (World.claim_wrote he hn).1)
    · exact .inl (hsame (fun _ _ he => by cases he; exact ho rfl) fun _ he => (by cases he))
  cases hm with
  | read => exact .inl rfl
  | pledge => exact .inl rfl
  | side _ s _ _ hs =>
    exact .inl (hsame (fun _ _ he => by subst he; cases hs) fun _ he => by subst he; cases hs)
  | refused _ s _ _ e ht he =>
    exact .inl (congrArg (·.claimant o) (World.exec_failed ht he))
  | missed _ o' statuses i _ _ he => exact .inl (congrArg (·.claimant o) (World.claim_missed he))
  | claimed o' statuses i _ _ n hs he hn => exact hclaim he hn
  | bought o' statuses i _ _ n hs he hn => exact hclaim he hn
  | released o' i => exact hrelease rfl rfl
  | returned o' i => exact hrelease rfl rfl
  | assigned => exact .inl (hsame (fun _ _ he => by cases he) fun _ he => (by cases he))
  | closed => exact .inl (hsame (fun _ _ he => by cases he) fun _ he => (by cases he))

/-- The step lemma: every move keeps the claims. -/
theorem Tenures.move (hI : Tenures Φ w) (hm : TenureMove (Φ t) l c w ph) :
    Tenures (Function.update Φ t ph) (machine.after l c w) := by
  have hheld (u : Nat) (o : OrderId) (i : UserId)
      (hu : (Function.update Φ t ph u).holds = some (o, i)) : (Φ u).holds = some (o, i) ∨
        (u = t ∧ w.claimant o = none ∧ (machine.after l c w).claimant o = some i) := by
    by_cases hut : u = t
    · subst hut
      rw [Function.update_self] at hu
      exact (hm.holds hu).imp id fun h => ⟨rfl, h⟩
    · rw [Function.update_of_ne hut] at hu
      exact .inl hu
  constructor
  case mine =>
    intro u o i hu
    rcases hheld u o i hu with hold | ⟨_, _, hnew⟩
    · have hmine := hI.mine u o i hold
      rcases hm.claimant o with hsame | hfree | ⟨⟨j, hj⟩, hnone⟩
      · rw [hsame, hmine]
      · rw [hmine] at hfree
        cases hfree
      · have hut := hI.sole u t o i j hold hj
        subst hut
        rw [Function.update_self, hnone] at hu
        cases hu
    · exact hnew
  case sole =>
    intro u v o i j hu hv
    rcases hheld u o i hu with hold | ⟨hut, hfree, _⟩
    · rcases hheld v o j hv with hold' | ⟨_, hfree, _⟩
      · exact hI.sole u v o i j hold hold'
      · rw [hI.mine u o i hold] at hfree
        cases hfree
    · rcases hheld v o j hv with hold' | ⟨hvt, _, _⟩
      · rw [hI.mine v o j hold'] at hfree
        cases hfree
      · rw [hut, hvt]

theorem Tenures.of_free {w : World} (h : ∀ t, (Φ t).holds = none) : Tenures Φ w := by
  refine ⟨fun t o i ht => ?_, fun t u o i j ht => ?_⟩
  · rw [h t] at ht
    cases ht
  · rw [h t] at ht
    cases ht

end Moves

section Flows

theorem tenures_lenient : Lenient tenures (·.claimFree = true) where
  read := .read
  side := .side
  refused := .refused

abbrev TenureFlow {α : Type} (ph : Tenure) (p : Act α) : Prop :=
  LenientFlow tenures ph p fun _ _ => True

theorem claimFree_refund {o : OrderId} {k : PaymentId} {i : Option IntentId} {s : Stmt}
    {reason : RefundReason} (h : RefundStmt o reason k i s) : s.claimFree := by
  cases h <;> rfl

theorem claimFree_capture {s : Stmt} (h : CaptureStmt s) : s.claimFree := by
  cases h <;> rfl

theorem claimFree_settle {s : Stmt} (h : SettleStmt s) : s.claimFree := by
  cases h with
  | promote h => cases h <;> rfl
  | _ => rfl

theorem claimFree_dispatch {o : OrderId} {s : Stmt} (h : DispatchStmt o s) : s.claimFree := by
  cases h <;> rfl

theorem claimFree_supersede {s : Stmt} (h : SupersedeStmt s) : s.claimFree := by
  cases h <;> rfl

theorem claimFree_promote {o : OrderId} {s : Stmt} (h : PromoteStmt o s) : s.claimFree := by
  cases h <;> rfl

variable (o : OrderId) (i : UserId) {ph ph' : Tenure}

/-- The end of an assignment. -/
theorem tenure_assign (actor : Actor) (hmove : ∀ source legal c w n,
    (World.exec (.order (.transition o source assigned legal)) c w).1 = .ok n →
    TenureMove ph (.call (.order (.transition o source assigned legal))) c w ph') :
    TenureFlow ph (do
      settleCounterOffersOnAssignment o i
      transition o assigned actor) := by
  have hsettle := (only_settleCounterOffersOnAssignment o i).mono fun _ => claimFree_settle
  refine Discipline.Flow.seq (tenures_lenient.only hsettle) fun _ => ?_
  exact tenures_lenient.transition (fun _ => rfl) (fun _ => rfl) hmove

/-- An order that nobody can be charged for is cancelled. -/
theorem claimFree_reject (actor closer : Actor) (order : Order) : (do
    note o actor .captureFailed
    let _ ← settleRefund o order.totalCents .captureFailed
    transition o cancelled closer
    captureFailed : Act Unit).Only (·.claimFree = true) := by
  refine Only.seq (only_note _ _ _ fun _ => rfl) fun _ => ?_
  refine Only.seq (only_settleRefund o _ _ fun _ _ _ => claimFree_refund) fun _ => ?_
  refine Only.seq ?_ fun _ => only_fail _ _ _
  exact only_transition_plain _ _ _ (by decide) (fun _ _ => rfl) fun _ => rfl

theorem tenure_released (hmove : ∀ c w, TenureMove ph (.call (.order (.releaseClaim o i))) c w ph')
    {f : Unit → Act Unit} (hf : (f ()).Only (·.claimFree = true)) :
    TenureFlow ph (releaseOrderClaim o i >>= f) :=
  Discipline.Flow.seq (tenures_lenient.issue rfl fun c w _ _ => hmove c w) fun _ =>
    tenures_lenient.rest hf

theorem tenure_claimOffer (k : OfferId) (offer : OrderOffer) (order : Order) :
    TenureFlow .free (claimOffer k offer order i) := by
  have hclaim : LenientFlow tenures .free (perform (.order (.claim offer.orderId searchStatuses i)))
      fun n x => x = if n = 0 then .free else .held offer.orderId i :=
    tenures_lenient.conditional rfl (fun c w h => .missed _ _ _ _ c w h)
      fun c w n h hn => .claimed offer.orderId searchStatuses i c w n (fun _ hs => hs) h hn
  refine Discipline.Flow.seq hclaim fun n => Lenient.branch (.throw fun _ _ => trivial) ?_
  refine Discipline.Flow.seq (tenures_lenient.only (only_issue rfl)) fun _ => ?_
  have hcapture := (only_captureOrderPayment offer.orderId
    (captureAmount (chargeCents offer order) order.totalCents)).mono fun _ => claimFree_capture
  have hcomplete :
      TenureFlow (.held offer.orderId i) (completeAcceptance offer.orderId offer order i) := by
    have hlower : (lowerPrice offer.orderId offer order i).Only (·.claimFree = true) :=
      Only.seq (only_issue rfl) fun _ => only_note _ _ _ fun _ => rfl
    refine Discipline.Flow.seq (tenures_lenient.only (only_issue rfl)) fun _ => ?_
    refine Discipline.Flow.seq (tenures_lenient.only (Only.when fun _ => hlower)) fun _ => ?_
    exact tenure_assign offer.orderId i _ fun source legal c w n h =>
      .assigned offer.orderId i source legal c w n h
  refine Discipline.Flow.seq (tenures_lenient.only hcapture) fun outcome => ?_
  cases outcome with
  | retryable detail =>
    refine tenure_released offer.orderId i (fun c w => .released offer.orderId i c w) ?_
    refine Only.seq (only_issue rfl) fun _ => ?_
    exact Only.seq (only_note _ _ _ fun _ => rfl) fun _ => only_fail _ _ _
  | fatal detail =>
    refine tenure_released offer.orderId i (fun c w => .released offer.orderId i c w) ?_
    exact Only.seq (only_issue rfl) fun _ => claimFree_reject offer.orderId (.user i) .system order
  | captured => exact hcomplete
  | alreadyCaptured => exact hcomplete

theorem tenure_acceptOffer (k : OfferId) : TenureFlow .free (acceptOffer k i) := by
  refine Discipline.Flow.seq (tenures_lenient.only (only_fetch _ _)) fun found => ?_
  split
  · exact .throw fun _ _ => trivial
  next offer =>
    refine .ite (fun _ => .throw fun _ _ => trivial) fun _ => ?_
    refine Discipline.Flow.seq (tenures_lenient.only only_readClock) fun now => ?_
    refine .ite (fun _ => .throw fun _ _ => trivial) fun _ => ?_
    refine Discipline.Flow.seq (tenures_lenient.only (only_assertInspectorPro i)) fun _ => ?_
    refine Discipline.Flow.seq (tenures_lenient.only (only_fetch _ _)) fun found => ?_
    cases found with
    | none => exact .throw fun _ _ => trivial
    | some order =>
      refine .ite (fun _ => .throw fun _ _ => trivial) fun _ => ?_
      refine Discipline.Flow.seq (tenures_lenient.only (only_fetch _ _)) fun locked => ?_
      exact .ite (fun _ => .throw fun _ _ => trivial) fun _ => tenure_claimOffer i k offer order

theorem tenure_adminAssign (admin : UserId) : TenureFlow .free (adminAssign o i admin) := by
  refine Discipline.Flow.seq (tenures_lenient.only (only_requireOrderAt _ _)) fun order => ?_
  refine .ite (fun _ => .throw fun _ _ => trivial) fun _ => ?_
  refine Discipline.Flow.seq (tenures_lenient.only (only_fetch _ _)) fun profile => ?_
  refine .ite (fun _ => .throw fun _ _ => trivial) fun _ => ?_
  refine .ite (fun _ => .throw fun _ _ => trivial) fun hlegal => ?_
  have hsearch : ∀ s ∈ [order.status], s ∈ searchStatuses := by
    intro s hs
    rw [List.mem_singleton.mp hs]
    exact canTransition_assigned (by simpa using hlegal)
  have hclaim : LenientFlow tenures .free (perform (.order (.claim o [order.status] i)))
      fun n x => x = if n = 0 then .free else .held o i :=
    tenures_lenient.conditional rfl (fun c w h => .missed _ _ _ _ c w h)
      fun c w n h hn => .claimed o [order.status] i c w n hsearch h hn
  refine Discipline.Flow.seq hclaim fun n => Lenient.branch (.throw fun _ _ => trivial) ?_
  have hcapture := (only_captureOrderPayment o none).mono fun _ => claimFree_capture
  have hcomplete : TenureFlow (.held o i) (completeAssignment o i admin) := by
    refine Discipline.Flow.seq
      (tenures_lenient.only (only_expirePendingOffers o (some i) fun _ => rfl)) fun _ => ?_
    refine Discipline.Flow.seq
      (tenures_lenient.only (only_acceptChosenOffer o i fun _ => rfl)) fun _ => ?_
    exact tenure_assign o i _ fun source legal c w n h => .assigned o i source legal c w n h
  refine Discipline.Flow.seq (tenures_lenient.only hcapture) fun outcome => ?_
  cases outcome with
  | retryable detail =>
    exact tenure_released o i (fun c w => .released o i c w) (only_fail _ _ _)
  | fatal detail =>
    refine tenure_released o i (fun c w => .released o i c w) ?_
    exact claimFree_reject o (.admin admin) (.admin admin) order
  | captured => exact hcomplete
  | alreadyCaptured => exact hcomplete

theorem only_lateHold (k : PaymentId) : (releaseSupersededHold k o).Only (·.claimFree = true) :=
  (only_releaseSupersededHold o k).mono fun _ => claimFree_supersede

theorem tenure_claimSale (k : PaymentId) (counterId : CounterOfferId) (counter : OrderCounterOffer)
    (now : Time) :
    TenureFlow (.pledged o counter.inspectorId) (claimSale k o counterId counter now) := by
  have hclaim : LenientFlow tenures (.pledged o counter.inspectorId)
      (perform (.order (.claim o searchStatuses counter.inspectorId)))
      fun n x => x = if n = 0 then .pledged o counter.inspectorId
        else .sold o counter.inspectorId :=
    tenures_lenient.conditional rfl (fun c w h => .missed _ _ _ _ c w h)
      fun c w n h hn => .bought o searchStatuses counter.inspectorId c w n (fun _ hs => hs) h hn
  refine Discipline.Flow.seq hclaim fun n =>
    Lenient.branch (tenures_lenient.rest (only_lateHold o k)) ?_
  have hreplace := (only_releaseReplacedHold o k).mono fun _ => claimFree_supersede
  refine Discipline.Flow.seq (tenures_lenient.only hreplace) fun _ => ?_
  have hmark : (Prog.quietly (perform (.payment (.authorize k now)))).Only (·.claimFree = true) :=
    Only.quietly ((only_perform _).mpr rfl)
  refine Discipline.Flow.seq (tenures_lenient.only hmark) fun _ => ?_
  have hcapture := (only_captureOrderPayment o none).mono fun _ => claimFree_capture
  have habort : TenureFlow (.sold o counter.inspectorId) (abortSale k o counter) := by
    refine tenure_released o counter.inspectorId
      (fun c w => .returned o counter.inspectorId c w) ?_
    exact Only.seq (only_lateHold o k) fun _ => only_note _ _ _ fun _ => rfl
  have hcomplete :
      TenureFlow (.sold o counter.inspectorId) (completeSale o counterId counter now) := by
    refine Discipline.Flow.seq (tenures_lenient.only (only_issue rfl)) fun _ => ?_
    refine Discipline.Flow.seq (tenures_lenient.only (only_note _ _ _ fun _ => rfl)) fun _ => ?_
    exact tenure_assign o counter.inspectorId _ fun source legal c w n h =>
      .closed o counter.inspectorId source legal c w n h
  refine Discipline.Flow.seq (tenures_lenient.only hcapture) fun outcome => ?_
  cases outcome with
  | retryable detail => exact habort
  | fatal detail => exact habort
  | captured => exact hcomplete
  | alreadyCaptured => exact hcomplete

theorem only_withdrawBusyClaimFree (k : PaymentId) (counterId : CounterOfferId)
    (counter : OrderCounterOffer) (now : Time) :
    (withdrawBusyCounterOffer k o counterId counter now).Only (·.claimFree = true) := by
  refine Only.seq (only_lateHold o k) fun _ => Only.seq (only_issue rfl) fun _ => ?_
  refine Only.seq (only_note _ _ _ fun _ => rfl) fun _ => ?_
  refine Only.seq ((only_promoteQuietly o).mono fun _ => claimFree_promote) fun _ => ?_
  exact Only.seq ((only_dispatch o).mono fun _ => claimFree_dispatch) fun _ => only_pure _

theorem tenure_finalize (k : PaymentId) :
    TenureFlow .selling (finalizeCounterOfferPayment k o) := by
  refine Discipline.Flow.seq (tenures_lenient.only (only_fetch _ _)) fun found => ?_
  split
  next => exact .pure fun _ _ => trivial
  next p =>
    refine Discipline.Flow.seq (tenures_lenient.only (only_fetch _ _)) fun counter => ?_
    refine Discipline.Flow.seq (tenures_lenient.only (only_fetch _ _)) fun order => ?_
    split
    next counterId counter order =>
      have hlate : TenureFlow .selling (releaseSupersededHold k o) :=
        tenures_lenient.rest (only_lateHold o k)
      refine .ite (fun _ => hlate) fun _ => .ite (fun _ => hlate) fun _ => ?_
      refine Discipline.Flow.seq (tenures_lenient.only only_readClock) fun now => ?_
      have hbusy : LenientFlow tenures .selling
          (fetch (.finalizeBusy o counter.inspectorId) (·.busy counter.inspectorId) : Act Bool)
          fun busy x => x = if busy then .selling else .pledged o counter.inspectorId := by
        refine Discipline.Flow.fetch fun x c w hx _ => ?_
        subst hx
        simp only [Machine.answer, machine]
        cases World.fault (.finalizeBusy o counter.inspectorId) c with
        | some e => exact ⟨_, .read _ _ c w, trivial⟩
        | none =>
          cases hb : w.busy counter.inspectorId with
          | true => exact ⟨_, .read _ _ c w, rfl⟩
          | false => exact ⟨_, .pledge o counter.inspectorId c w hb, rfl⟩
      refine Discipline.Flow.seq hbusy fun busy => ?_
      cases busy with
      | true =>
        exact tenures_lenient.rest (only_withdrawBusyClaimFree o k counterId counter now)
      | false => exact tenure_claimSale o k counterId counter now
    next => exact .pure fun _ _ => trivial

end Flows

end CarSalePro
