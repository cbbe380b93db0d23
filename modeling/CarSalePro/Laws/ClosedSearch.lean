import CarSalePro.Laws.PriceOverwrite
import CarSalePro.Orders.Sequence

namespace CarSalePro

open Store Interleave Prog OrderStatus

/-- A price waits for an answer on this order. -/
def World.hasPending (w : World) (id : OrderId) : Bool :=
  w.counterOffers.any fun _ c => c.orderId = id && c.status = .pending

/-- An order nobody is sought for any more has no price waiting. -/
def SearchesClosed (w : World) : Prop :=
  ∀ id order, w.orders.get id = some order → order.status ∉ searchStatuses → w.hasPending id = false

/-- An order is cancelled only when none of its prices waits, and a price goes back to waiting after
its payment only while its order is still searched for. -/
def closesInTime : StepGuard Unit := fun _ l c x =>
  match l with
  | .call (.order (.cancelWhere id guard)) =>
    c = .down || (x.1.orders.get id).all (!guard.admits ·) || !x.1.hasPending id
  | .call (.order (.transition id _ target _)) =>
    c = .down || target ≠ cancelled || !x.1.hasPending id
  | .call (.counterOffer (.returnFromPayment k true _)) =>
    c = .down || (x.1.counterOffers.get k).all fun counter => counter.status ≠ .accepting ||
      (x.1.orders.get counter.orderId).all (·.status ∈ searchStatuses)
  | _ => true

/-- The operations that name and answer prices, assign orders and end their searches. -/
def PriceOp.trades : PriceOp → Bool
  | .create _ _ _ => true
  | .trade (.accept _ _ _) | .trade (.decline _ _ _) | .trade (.withdraw _ _)
  | .trade .sweepExpired => true
  | .trade (.orders op) =>
    match op with
    | .acceptOffer _ _ | .adminAssign _ _ _ | .finalizeCounterOfferPayment _ _
    | .abandonCounterOfferPayment _ _ | .cancel _ _ | .adminCancel _ _ _
    | .expireUnfilledSearches _ => true
    | _ => false
  | .trade (.dispatch _) => false

/-- The operations one after another, each running to its end before the next begins. -/
def PriceOp.sequence (w : World) (ops : List PriceOp) : Run Unit :=
  ⟨w, (), [Prog.series (ops.map PriceOp.prog)]⟩

/-- However many operations have completed, no price waits on an order that is not searched for. -/
def ClosedSearchLaw (C : StepGuard Unit) : Prop :=
  ∀ (w : World) (ops : List PriceOp) (g : Run Unit), (∀ op ∈ ops, op.trades) → SearchesClosed w →
    Pool.Reach machine noRecord C (PriceOp.sequence w ops) g → g.AllEnded → SearchesClosed g.state

/-- The only step that makes a price wait again is the return from its payment. -/
theorem CounterOfferStmt.rewrite_pending {u : CounterOfferStmt} {now : Time} {k : CounterOfferId}
    {x x' : OrderCounterOffer} (h : u.rewrite now k x = some x') (hs : x'.status = .pending) :
    x.status = .pending ∨ x.status = .accepting ∧ ∃ at_, u = .returnFromPayment k true at_ := by
  cases u with
  | present id at_ expiresAt =>
    simp only [rewrite] at h
    split at h
    next hc => exact .inl hc.2.1
    next => cases h
  | returnFromPayment id stillOpen at_ =>
    simp only [rewrite] at h
    split at h
    next hc =>
      cases stillOpen with
      | true => exact .inr ⟨hc.2, at_, by rw [hc.1]⟩
      | false =>
        cases h
        cases hs
    next => cases h
  | _ =>
    simp only [rewrite] at h
    split at h
    · cases h
      cases hs
    · cases h

namespace World

variable {w : World} {s : Stmt} {c : Fate} {id : OrderId}

theorem hasPending_eq_false : w.hasPending id = false ↔
    ∀ k x, w.counterOffers.get k = some x → x.orderId = id → x.status ≠ .pending := by
  simp only [hasPending, Table.any_eq_false, Bool.and_eq_false_iff, decide_eq_false_iff_not]
  constructor
  · intro h k x hx ho hs
    rcases h k x hx with hne | hne
    · exact hne ho
    · exact hne hs
  · intro h k x hx
    by_cases ho : x.orderId = id
    · exact .inr (h k x hx ho)
    · exact .inl ho

/-- What a step has to respect: a search it ends has no price waiting, and a price it makes wait is
on an open search. -/
theorem searchesClosed_exec (h : SearchesClosed w)
    (hleft : ∀ id r', (exec s c w).2.orders.get id = some r' → r'.status ∉ searchStatuses →
      (∃ r, w.orders.get id = some r ∧ r.status ∉ searchStatuses) ∨ w.hasPending id = false)
    (hjoined : ∀ k x', (exec s c w).2.counterOffers.get k = some x' → x'.status = .pending →
      (∃ x, w.counterOffers.get k = some x ∧ x.orderId = x'.orderId ∧ x.status = .pending) ∨
      ∀ r, (exec s c w).2.orders.get x'.orderId = some r → r.status ∈ searchStatuses) :
    SearchesClosed (exec s c w).2 := by
  intro id r' hr' hout
  refine hasPending_eq_false.mpr fun k x' hx' ho hs => ?_
  rcases hjoined k x' hx' hs with ⟨x, hx, hox, hsx⟩ | hopen
  · have hempty : w.hasPending id = false := by
      rcases hleft id r' hr' hout with ⟨r, hr, hrout⟩ | hempty
      · exact h id r hr hrout
      · exact hempty
    exact hasPending_eq_false.mp hempty k x hx (hox.trans ho) hsx
  · exact hout (hopen r' (by rw [ho]; exact hr'))

/-- A step that takes no order out of its search. -/
def Stays (s : Stmt) (c : Fate) (w : World) : Prop :=
  ∀ id r', (exec s c w).2.orders.get id = some r' → r'.status ∉ searchStatuses →
    (∃ r, w.orders.get id = some r ∧ r.status ∉ searchStatuses) ∨ w.hasPending id = false

/-- A step that makes no price wait on a search that ended. -/
def Joins (s : Stmt) (c : Fate) (w : World) : Prop :=
  ∀ k x', (exec s c w).2.counterOffers.get k = some x' → x'.status = .pending →
    (∃ x, w.counterOffers.get k = some x ∧ x.orderId = x'.orderId ∧ x.status = .pending) ∨
    ∀ r, (exec s c w).2.orders.get x'.orderId = some r → r.status ∈ searchStatuses

end World

/-- The statements that neither assign an order nor name a price. -/
def Stmt.tidy : Stmt → Prop
  | .upsertCounterOffer _ _ _ => False
  | .order (.transition _ _ target _) => target ∈ searchStatuses ∨ target = cancelled
  | _ => True

/-- The statements that make no price wait. -/
def Stmt.unpriced : Stmt → Prop
  | .upsertCounterOffer _ _ _ | .counterOffer (.returnFromPayment _ _ _) => False
  | _ => True

/-- The steps the condition admits, whichever the operation. -/
def closing (l : Label Site Stmt) (c : Fate) (w : World) : Prop := closesInTime 0 l c (w, ()) = true

section Steps

variable {w : World} {s : Stmt} {c : Fate} {id : OrderId}

/-- The status of an order after a step, when it was not written. -/
theorem World.exec_order_back {o : OrderId} {r' : Order}
    (h : (World.exec s c w).2.orders.get o = some r') :
    ∃ r, w.orders.get o = some r ∧ OrderEffect s w.now o r r' := by
  cases hr : w.orders.get o with
  | none =>
    rw [World.exec_order_none hr] at h
    cases h
  | some r =>
    obtain ⟨x, hx, heffect⟩ := World.exec_order (s := s) (c := c) hr
    cases hx.symm.trans h
    exact ⟨r, rfl, heffect⟩

/-- A statement of a database that is down changes no order and no counter-offer. -/
theorem World.exec_down (s : Stmt) (w : World) : (World.exec s .down w).2.orders = w.orders ∧
    (World.exec s .down w).2.counterOffers = w.counterOffers := by
  rcases World.exec_cases s .down w with ⟨call, rfl, he⟩ | ⟨_, _, he⟩ | ⟨_, hup, _⟩
  · rw [he]
    exact ⟨rfl, rfl⟩
  · rw [he]
    exact ⟨rfl, rfl⟩
  · exact absurd rfl hup

theorem tidy_stays (hs : s.tidy) (hok : closing (.call s) c w) : World.Stays s c w := by
  intro id r' hr' hout
  by_cases hc : c = .down
  · subst hc
    rw [(World.exec_down s w).1] at hr'
    exact .inl ⟨r', hr', hout⟩
  obtain ⟨r, hr, heffect⟩ := World.exec_order_back hr'
  cases heffect with
  | same => exact .inl ⟨r', hr, hout⟩
  | sale counter price at_ stmt => exact .inl ⟨r, hr, hout⟩
  | write u stmt row hrewrite =>
    subst stmt row
    rcases OrderStmt.rewrite_status hrewrite with hsame | ⟨o, source, target, legal, rfl, htarget⟩ |
      ⟨o, guard, rfl, hadmits, hcancelled⟩
    · exact .inl ⟨r, hr, hsame ▸ hout⟩
    · rcases hs with hs | hs
      · exact absurd (htarget ▸ hs) hout
      · have hempty : w.hasPending o = false := by
          simpa [closing, closesInTime, hc, hs] using hok
        exact .inr hempty
    · have hr : w.orders.get o = some r := hr
      have hempty : w.hasPending o = false := by
        simpa [closing, closesInTime, hc, hr, hadmits] using hok
      exact .inr hempty

theorem tidy_joins (hs : s.tidy) (hok : closing (.call s) c w) : World.Joins s c w := by
  intro k x' hx' hpending
  by_cases hc : c = .down
  · subst hc
    rw [(World.exec_down s w).2] at hx'
    exact .inl ⟨x', hx', rfl, hpending⟩
  rcases World.exec_counterOffer hx' with ⟨order, inspector, terms, rfl, _⟩ | ⟨x, hx, h⟩
  · exact hs.elim
  rcases h with rfl | ⟨u, rfl, hrewrite⟩ | ⟨haccepted, _⟩
  · exact .inl ⟨_, hx, rfl, hpending⟩
  · have ho : x'.orderId = x.orderId := CounterOfferStmt.rewrite_order hrewrite
    rcases CounterOfferStmt.rewrite_pending hrewrite hpending with hsame | ⟨hpaying, at_, rfl⟩
    · exact .inl ⟨x, hx, ho.symm, hsame⟩
    · right
      intro r hr
      rw [(World.frame_exec _ c w).orders rfl, ho] at hr
      simpa [closing, closesInTime, hc, hx, hpaying, hr] using hok
  · rw [haccepted] at hpending
    cases hpending

/-- A statement that makes no price wait, at any moment. -/
theorem unpriced_joins (hs : s.unpriced) : ∀ k x',
    (World.exec s c w).2.counterOffers.get k = some x' → x'.status = .pending →
    ∃ x, w.counterOffers.get k = some x ∧ x.orderId = x'.orderId ∧ x.status = .pending := by
  intro k x' hx' hpending
  rcases World.exec_counterOffer hx' with ⟨order, inspector, terms, rfl, _⟩ | ⟨x, hx, h⟩
  · exact hs.elim
  rcases h with rfl | ⟨u, rfl, hrewrite⟩ | ⟨haccepted, _⟩
  · exact ⟨_, hx, rfl, hpending⟩
  · rcases CounterOfferStmt.rewrite_pending hrewrite hpending with hsame | ⟨_, at_, rfl⟩
    · exact ⟨x, hx, (CounterOfferStmt.rewrite_order hrewrite).symm, hsame⟩
    · exact hs.elim
  · rw [haccepted] at hpending
    cases hpending

theorem hasPending_exec (hs : s.unpriced) (h : w.hasPending id = false) :
    (World.exec s c w).2.hasPending id = false := by
  refine World.hasPending_eq_false.mpr fun k x' hx' ho hpending => ?_
  obtain ⟨x, hx, hox, hsx⟩ := unpriced_joins hs k x' hx' hpending
  exact World.hasPending_eq_false.mp h k x hx (hox.trans ho) hsx

/-- The prices of an order that are superseded wait no longer. -/
theorem supersede_empties {ids : List CounterOfferId} {n : Nat}
    (hdone : (World.exec (.counterOffer (.supersede ids)) c w).1 = .ok n)
    (h : ∀ k x, w.counterOffers.get k = some x → x.orderId = id → x.status = .pending → k ∈ ids) :
    (World.exec (.counterOffer (.supersede ids)) c w).2.hasPending id = false := by
  refine World.hasPending_eq_false.mpr fun k x' hx' ho hpending => ?_
  rcases World.exec_cases (.counterOffer (.supersede ids)) c w with
    ⟨call, hcall, _⟩ | ⟨_, _, he⟩ | ⟨_, _, he⟩
  · cases hcall
  · rw [he] at hdone
    cases hdone
  rw [he] at hdone hx'
  simp only [World.write, World.writeCounterOffer] at hdone hx'
  split at hdone
  · cases hdone
  next hfree =>
    rw [if_neg hfree] at hx'
    simp only [Table.get_rewrite, Option.map_eq_some_iff] at hx'
    obtain ⟨x, hx, hget⟩ := hx'
    by_cases hlisted : k ∈ ids ∧ x.status = .pending
    · rw [CounterOfferStmt.rewrite, if_pos hlisted] at hget
      cases hget
      cases hpending
    · rw [CounterOfferStmt.rewrite, if_neg hlisted] at hget
      cases hget
      exact hlisted ⟨h k x hx ho hpending, hpending⟩

end Steps

/-- From `P` the program ends in `Q`, or fails with every finished search closed. -/
abbrev Closing {α : Type} (P : World → Prop) (p : Act α) (Q : α → World → Prop) : Prop :=
  Serial machine World.still closing (fun _ => True) P p Q fun _ => SearchesClosed

/-- Every finished search is closed, and so is the search of this order. -/
def QueueClosed (id : OrderId) (w : World) : Prop := SearchesClosed w ∧ w.hasPending id = false

section Programs

variable {α : Type} {id : OrderId}

theorem closing_only {p : Act α} (hp : p.Only Stmt.tidy) :
    Closing SearchesClosed p fun _ => SearchesClosed := by
  refine Serial.only hp (fun _ _ => trivial) fun s c w hs hok h => ?_
  exact World.searchesClosed_exec (w := w) h (tidy_stays hs hok) (tidy_joins hs hok)

/-- An empty queue stays empty. -/
theorem closing_quiet {p : Act α} (hp : p.Only fun s => s.tidy ∧ s.unpriced) :
    Closing (QueueClosed id) p fun _ => QueueClosed id := by
  have hkept : Serial machine World.still closing (fun _ => True) (QueueClosed id) p
      (fun _ => QueueClosed id) fun _ => QueueClosed id := by
    refine Serial.only hp (fun _ _ => trivial) fun s c w hs hok h => ⟨?_, ?_⟩
    · exact World.searchesClosed_exec (w := w) h.1 (tidy_stays hs.1 hok) (tidy_joins hs.1 hok)
    · exact hasPending_exec (w := w) hs.2 h.2
  exact hkept.post (fun _ _ h => h) fun _ _ h => h.1

/-- Once its queue is empty an order may be assigned. -/
theorem closing_assign (target : OrderStatus) (actor : Actor) :
    Closing (QueueClosed id) (transition id target actor) fun _ => SearchesClosed := by
  have hkept : Serial machine World.still closing (fun _ => True) (QueueClosed id)
      (transition id target actor) (fun _ => QueueClosed id) fun _ => QueueClosed id := by
    refine Serial.only (F := fun s => (∃ source legal,
      s = .order (.transition id source target legal)) ∨ s.tidy ∧ s.unpriced) ?_
      (fun _ _ => trivial) fun s c w hs hok h => ?_
    · exact only_transition id target actor (fun _ _ => .inl ⟨_, _, rfl⟩)
        (fun _ => .inr ⟨trivial, trivial⟩) fun _ => .inr ⟨trivial, trivial⟩
    rcases hs with ⟨source, legal, rfl⟩ | hs
    · have hfree : (Stmt.order (.transition id source target legal)).unpriced := trivial
      have hempty := hasPending_exec (c := c) (w := w) hfree h.2
      refine ⟨World.searchesClosed_exec (w := w) h.1 ?_ ?_, hempty⟩
      · intro o r' hr' hout
        obtain ⟨r, hr, heffect⟩ := World.exec_order_back hr'
        cases heffect with
        | same => exact .inl ⟨r', hr, hout⟩
        | sale counter price at_ stmt => cases stmt
        | write u stmt row hrewrite =>
          cases stmt
          exact .inr (row ▸ h.2)
      · exact fun k x' hx' hpending => .inl (unpriced_joins hfree k x' hx' hpending)
    · refine ⟨?_, hasPending_exec (w := w) hs.2 h.2⟩
      exact World.searchesClosed_exec (w := w) h.1 (tidy_stays hs.1 hok) (tidy_joins hs.1 hok)
  exact hkept.post (fun _ _ h => h.1) fun _ _ h => h.1

/-- The prices waiting on the order are among these. -/
def Waiting (id : OrderId) (rows : List (CounterOfferId × OrderCounterOffer)) (w : World) : Prop :=
  SearchesClosed w ∧ ∀ k x, w.counterOffers.get k = some x → x.orderId = id →
    x.status = .pending → k ∈ rows.map (·.1)

/-- All prices that wait are closed at once. -/
theorem closing_supersede (rows : List (CounterOfferId × OrderCounterOffer)) :
    Closing (Waiting id rows) (issue (.counterOffer (.supersede (rows.map (·.1)))))
      fun _ => QueueClosed id := by
  have hwrite : Closing (Waiting id rows) (perform (.counterOffer (.supersede (rows.map (·.1)))))
      fun _ => QueueClosed id := by
    refine Serial.perform fun c w h hok => ⟨trivial, ?_⟩
    have hkept : SearchesClosed (World.exec (.counterOffer (.supersede (rows.map (·.1)))) c w).2 :=
      World.searchesClosed_exec (w := w) h.1 (tidy_stays trivial hok) (tidy_joins trivial hok)
    rw [show machine.exec = World.exec from rfl]
    cases hanswer : (World.exec (.counterOffer (.supersede (rows.map (·.1)))) c w).1 with
    | error e => exact hkept
    | ok n => exact ⟨hkept, supersede_empties (w := w) hanswer h.2⟩
  exact hwrite.seq fun _ => Serial.pure fun _ h => h

/-- An assignment closes the queue of its order first. -/
theorem closing_settle (inspector : UserId) :
    Closing SearchesClosed (settleCounterOffersOnAssignment id inspector)
    fun _ => QueueClosed id := by
  have hrest (rows : List (CounterOfferId × OrderCounterOffer)) :
      Closing (QueueClosed id) (Prog.when (rows ≠ []) do
        issue (.counterOffer (.withdraw (rows.map (·.1))))
        forEach rows fun c => note c.2.orderId (.user inspector) .counterOfferWithdrawn
        forEach (rows.map (·.2.orderId)).eraseDups promoteQuietly) fun _ => QueueClosed id := by
    refine closing_quiet (Only.when fun _ => Only.seq (only_issue ⟨trivial, trivial⟩) fun _ => ?_)
    refine Only.seq (only_forEach fun c _ => only_note _ _ _ fun _ => ⟨trivial, trivial⟩)
      fun _ => ?_
    refine only_forEach fun o _ => (only_promoteQuietly o).mono fun s hs => ?_
    cases hs <;> exact ⟨trivial, trivial⟩
  have hread : Closing SearchesClosed
      (fetch .settleCounterOffersOnAssignment fun w =>
        w.counterOffers.findMany fun _ c => c.orderId = id && c.status = .pending)
      fun rows => Waiting id rows := by
    refine Serial.ask (fun _ _ => trivial) (fun w h => ⟨h, fun k x hx ho hpending => ?_⟩)
      fun _ _ h => h
    have hmem :
        (k, x) ∈ w.counterOffers.findMany fun _ c => c.orderId = id && c.status = .pending :=
      Table.mem_findMany.mpr ⟨hx, by simp [ho, hpending]⟩
    exact List.mem_map.mpr ⟨(k, x), hmem, rfl⟩
  refine hread.seq fun superseded => ?_
  have hlook : Closing (Waiting id superseded)
      (fetch .settleCounterOffersOnAssignment fun w => w.counterOffers.findMany fun _ c =>
        c.inspectorId = inspector && c.status = .pending && c.orderId ≠ id)
      fun _ => Waiting id superseded :=
    Serial.ask (fun _ _ => trivial) (fun _ h => h) fun _ _ h => h.1
  refine hlook.seq fun withdrawn => ?_
  have hclose : Closing (Waiting id superseded) (Prog.when (superseded ≠ [])
      (issue (.counterOffer (.supersede (superseded.map (·.1)))))) fun _ => QueueClosed id := by
    refine Discipline.Flow.when (fun _ => closing_supersede superseded) fun hnone A hA w hw => ?_
    have hempty : superseded = [] := not_not.mp hnone
    have hwaiting := hA w hw
    rw [hempty] at hwaiting
    refine ⟨hwaiting.1, World.hasPending_eq_false.mpr fun k x hx ho hpending => ?_⟩
    exact absurd (hwaiting.2 k x hx ho hpending) (by simp)
  exact hclose.seq fun _ => hrest withdrawn

end Programs

section Footprints

variable {id : OrderId} {s : Stmt}

theorem PromoteStmt.tidy (h : PromoteStmt id s) : s.tidy := by cases h <;> trivial

theorem DispatchStmt.tidy (h : DispatchStmt id s) : s.tidy := by
  cases h with
  | unassign source legal => exact .inl (by decide)
  | _ => trivial

theorem SupersedeStmt.tidy (h : SupersedeStmt s) : s.tidy := by cases h <;> trivial

theorem CaptureStmt.tidy (h : CaptureStmt s) : s.tidy := by cases h <;> trivial

theorem RefundStmt.tidy {reason : RefundReason} {payment : PaymentId} {intent : Option IntentId}
    (h : RefundStmt id reason payment intent s) : s.tidy := by cases h <;> trivial

theorem AbandonStmt.tidy (h : AbandonStmt id s) : s.tidy := by
  cases h with
  | promote h => exact h.tidy
  | dispatch h => exact h.tidy
  | _ => trivial

theorem tidy_promote : (promote id).Only Stmt.tidy := (only_promote id).mono fun _ h => h.tidy

theorem tidy_promoteQuietly : (promoteQuietly id).Only Stmt.tidy := Only.quietly tidy_promote

theorem tidy_dispatch : (dispatch id).Only Stmt.tidy := (only_dispatch id).mono fun _ h => h.tidy

theorem tidy_capture (amountCents : Option Cents) :
    (captureOrderPayment id amountCents).Only Stmt.tidy :=
  (only_captureOrderPayment id amountCents).mono fun _ h => h.tidy

theorem tidy_settleRefund (amountCents : Cents) (reason : RefundReason) :
    (settleRefund id amountCents reason).Only Stmt.tidy :=
  only_settleRefund id reason amountCents fun _ _ _ h => h.tidy

theorem tidy_cancelled (actor : Actor) : (transition id cancelled actor).Only Stmt.tidy :=
  only_transition_plain id cancelled actor (by decide) (fun _ _ => .inr rfl) fun _ => trivial

theorem tidy_release {payment : PaymentId} : (releaseSupersededHold payment id).Only Stmt.tidy :=
  (only_releaseSupersededHold id payment).mono fun _ h => h.tidy

theorem tidy_abandon (alreadyCanceledAtStripe : Bool) :
    (abandonCounterOfferPayment id alreadyCanceledAtStripe).Only Stmt.tidy :=
  (only_abandonCounterOfferPayment id alreadyCanceledAtStripe).mono fun _ h => h.tidy

theorem tidy_cancel (user : UserId) : (cancel id user).Only Stmt.tidy := by
  have hsettle (amountCents : Cents) (reason : RefundReason) (actor : Actor) :
      (settleAndCancel id amountCents reason actor).Only Stmt.tidy :=
    Only.seq (tidy_settleRefund _ _) fun _ => Only.seq (tidy_cancelled _) fun _ => only_pure _
  refine Only.seq (only_requireOrderAt _ _) fun order =>
    Only.ite (fun _ => only_fail _ _ _) fun _ => ?_
  refine Only.ite (fun _ => Only.seq only_readSettings fun _ => hsettle _ _ _) fun _ => ?_
  exact Only.ite (fun _ => Only.seq only_readSettings fun _ => hsettle _ _ _)
    fun _ => only_fail _ _ _

theorem tidy_adminCancel (percent : ℚ) (admin : UserId) :
    (adminCancel id percent admin).Only Stmt.tidy := by
  refine Only.seq (only_requireOrderAt _ _) fun order =>
    Only.ite (fun _ => only_fail _ _ _) fun _ => ?_
  refine Only.seq (Only.ite (fun _ => ?_) fun _ => only_pure _) fun outcome => ?_
  · exact Only.seq (tidy_settleRefund _ _) fun _ => only_pure _
  refine Only.seq (tidy_cancelled _) fun _ => ?_
  exact Only.seq (Only.quietly (only_note _ _ _ fun _ => trivial)) fun _ => only_pure _

theorem tidy_expireUnfilledSearches (limit : Nat) :
    (expireUnfilledSearches limit).Only Stmt.tidy := by
  refine Only.seq only_readClock fun now => Only.seq (only_fetch _ _) fun due => ?_
  refine only_countEach fun o _ => only_guarded ?_
  refine Only.seq ((only_perform _).mpr trivial) fun claimed => ?_
  refine Only.ite (fun _ => only_pure _) fun _ => ?_
  refine Only.seq (only_expirePendingOffers _ _ fun _ => trivial) fun _ => ?_
  refine Only.seq (tidy_settleRefund _ _) fun _ => ?_
  refine Only.seq (only_note _ _ _ fun _ => trivial) fun _ => ?_
  exact Only.seq (only_writeEvent _ _ _ _ _ _ fun _ => trivial) fun _ => only_pure _

theorem tidy_joinSession (counterId : CounterOfferId) (counter : OrderCounterOffer) :
    (joinSession id counterId counter).Only Stmt.tidy := only_joinSession _ _ _

end Footprints

section Assignments

variable {α β : Type} {id : OrderId}

theorem closing_then {p : Act α} {f : α → Act β} (hp : p.Only Stmt.tidy)
    (hf : ∀ a, Closing SearchesClosed (f a) fun _ => SearchesClosed) :
    Closing SearchesClosed (p >>= f) fun _ => SearchesClosed :=
  (closing_only hp).seq hf

/-- An assignment, once its inspector is paid for. -/
theorem closing_complete {p : Act Unit} (hp : p.Only Stmt.tidy) (inspector : UserId)
    (actor : Actor) :
    Closing SearchesClosed (p >>= fun _ => settleCounterOffersOnAssignment id inspector >>= fun _ =>
      transition id assigned actor) fun _ => SearchesClosed :=
  closing_then hp fun _ => (closing_settle inspector).seq fun _ => closing_assign assigned actor

theorem closing_completeAcceptance (offer : OrderOffer) (order : Order) (user : UserId) :
    Closing SearchesClosed (completeAcceptance id offer order user) fun _ => SearchesClosed := by
  refine closing_then (only_issue trivial) fun _ => closing_complete (Only.when fun _ => ?_) _ _
  exact Only.seq (only_issue trivial) fun _ => only_note _ _ _ fun _ => trivial

theorem closing_claimOffer (offerId : OfferId) (offer : OrderOffer) (order : Order)
    (user : UserId) :
    Closing SearchesClosed (claimOffer offerId offer order user) fun _ => SearchesClosed := by
  refine closing_then ((only_perform _).mpr trivial) fun claimed => ?_
  refine Discipline.Flow.ite (fun _ => closing_only (only_fail _ _ _)) fun _ => ?_
  refine closing_then (only_issue trivial) fun _ => ?_
  refine closing_then (tidy_capture _) fun outcome => ?_
  cases outcome with
  | captured => exact closing_completeAcceptance offer order user
  | alreadyCaptured => exact closing_completeAcceptance offer order user
  | retryable message =>
    refine closing_only (Only.seq (only_issue trivial) fun _ => ?_)
    refine Only.seq (only_issue trivial) fun _ => ?_
    exact Only.seq (only_note _ _ _ fun _ => trivial) fun _ => only_fail _ _ _
  | fatal message =>
    refine closing_only (Only.seq (only_issue trivial) fun _ => ?_)
    refine Only.seq (only_issue trivial) fun _ => ?_
    refine Only.seq (only_note _ _ _ fun _ => trivial) fun _ => ?_
    refine Only.seq (tidy_settleRefund _ _) fun _ => ?_
    exact Only.seq (tidy_cancelled _) fun _ => only_fail _ _ _

theorem closing_acceptOffer (offerId : OfferId) (user : UserId) :
    Closing SearchesClosed (acceptOffer offerId user) fun _ => SearchesClosed := by
  refine closing_then (only_fetch _ _) fun found => ?_
  cases found with
  | none => exact closing_only (only_fail _ _ _)
  | some offer =>
    refine Discipline.Flow.ite (fun _ => closing_only (only_fail _ _ _)) fun _ => ?_
    refine closing_then only_readClock fun now => ?_
    refine Discipline.Flow.ite (fun _ => closing_only (only_fail _ _ _)) fun _ => ?_
    refine closing_then (only_assertInspectorPro _) fun _ => ?_
    refine closing_then (only_fetch _ _) fun order => ?_
    cases order with
    | none => exact closing_only (only_fail _ _ _)
    | some order =>
      refine Discipline.Flow.ite (fun _ => closing_only (only_fail _ _ _)) fun _ => ?_
      refine closing_then (only_fetch _ _) fun locked => ?_
      refine Discipline.Flow.ite (fun _ => closing_only (only_fail _ _ _)) fun _ => ?_
      exact closing_claimOffer _ _ _ _

theorem closing_adminAssign (inspector admin : UserId) :
    Closing SearchesClosed (adminAssign id inspector admin) fun _ => SearchesClosed := by
  refine closing_then (only_requireOrderAt _ _) fun order => ?_
  refine Discipline.Flow.ite (fun _ => closing_only (only_fail _ _ _)) fun _ => ?_
  refine closing_then (only_fetch _ _) fun profile => ?_
  refine Discipline.Flow.ite (fun _ => closing_only (only_fail _ _ _)) fun _ => ?_
  refine Discipline.Flow.ite (fun _ => closing_only (only_fail _ _ _)) fun _ => ?_
  refine closing_then ((only_perform _).mpr trivial) fun claimed => ?_
  refine Discipline.Flow.ite (fun _ => closing_only (only_fail _ _ _)) fun _ => ?_
  refine closing_then (tidy_capture _) fun outcome => ?_
  have hdone : Closing SearchesClosed (completeAssignment id inspector admin)
      fun _ => SearchesClosed := by
    refine closing_then (only_expirePendingOffers id _ fun _ => trivial) fun _ => ?_
    exact closing_complete (only_acceptChosenOffer id inspector fun _ => trivial) _ _
  cases outcome with
  | captured => exact hdone
  | alreadyCaptured => exact hdone
  | retryable message =>
    exact closing_only (Only.seq (only_issue trivial) fun _ => only_fail _ _ _)
  | fatal message =>
    refine closing_only (Only.seq (only_issue trivial) fun _ => ?_)
    refine Only.seq (only_note _ _ _ fun _ => trivial) fun _ => ?_
    refine Only.seq (tidy_settleRefund _ _) fun _ => ?_
    exact Only.seq (tidy_cancelled _) fun _ => only_fail _ _ _

theorem closing_claimSale (payment : PaymentId) (counterId : CounterOfferId)
    (counter : OrderCounterOffer) (now : Time) :
    Closing SearchesClosed (claimSale payment id counterId counter now)
    fun _ => SearchesClosed := by
  have hdone : Closing SearchesClosed (completeSale id counterId counter now)
      fun _ => SearchesClosed := by
    refine closing_then (only_issue trivial) fun _ => ?_
    exact closing_complete (only_note _ _ _ fun _ => trivial) _ _
  have habort : Closing SearchesClosed (abortSale payment id counter) fun _ => SearchesClosed := by
    refine closing_only (Only.seq (only_issue trivial) fun _ => Only.seq tidy_release fun _ => ?_)
    exact only_note _ _ _ fun _ => trivial
  refine closing_then ((only_perform _).mpr trivial) fun claimed => ?_
  refine Discipline.Flow.ite (fun _ => closing_only tidy_release) fun _ => ?_
  refine closing_then ((only_releaseReplacedHold id payment).mono fun _ h => h.tidy) fun _ => ?_
  refine closing_then (Only.quietly ((only_perform _).mpr trivial)) fun _ => ?_
  refine closing_then (tidy_capture _) fun outcome => ?_
  cases outcome with
  | captured => exact hdone
  | alreadyCaptured => exact hdone
  | retryable message => exact habort
  | fatal message => exact habort

theorem closing_finalize (payment : PaymentId) :
    Closing SearchesClosed (finalizeCounterOfferPayment payment id) fun _ => SearchesClosed := by
  refine closing_then (only_fetch _ _) fun found => ?_
  split
  · exact closing_only (only_pure _)
  refine closing_then (only_fetch _ _) fun counter => ?_
  refine closing_then (only_fetch _ _) fun order => ?_
  split
  next counterId counter order =>
    refine Discipline.Flow.ite (fun _ => closing_only tidy_release) fun _ => ?_
    refine Discipline.Flow.ite (fun _ => closing_only tidy_release) fun _ => ?_
    refine closing_then only_readClock fun now => closing_then (only_fetch _ _) fun busy => ?_
    refine Discipline.Flow.ite (fun _ => closing_only ?_) fun _ => closing_claimSale _ _ _ _
    refine Only.seq tidy_release fun _ => Only.seq (only_issue trivial) fun _ => ?_
    refine Only.seq (only_note _ _ _ fun _ => trivial) fun _ => ?_
    exact Only.seq tidy_promoteQuietly fun _ => Only.seq tidy_dispatch fun _ => only_pure _
  · exact closing_only (only_pure _)

end Assignments

section Prices

variable {id : OrderId}

theorem closing_accept (counterId : CounterOfferId) (user : UserId) :
    Closing SearchesClosed (accept id counterId user) fun _ => SearchesClosed := by
  refine closing_then (only_requireCustomerOrder _ _) fun order => ?_
  refine closing_then (only_requireCounterOffer _ _ _) fun counter => ?_
  refine Discipline.Flow.ite (fun _ => closing_only (only_fail _ _ _)) fun _ => ?_
  refine closing_then (only_fetch _ _) fun busy => Discipline.Flow.ite (fun _ => ?_) fun _ => ?_
  · exact closing_only (only_refuseBusy _ _ trivial fun _ h => h.tidy)
  refine closing_then (only_fetch _ _) fun settings => closing_then only_readClock fun now => ?_
  refine closing_then ((only_perform _).mpr trivial) fun claimed => ?_
  refine Discipline.Flow.ite (fun _ => closing_only (tidy_joinSession _ _)) fun _ => ?_
  refine closing_then ((only_perform _).mpr trivial) fun payment => ?_
  refine closing_then (only_writeEvent _ _ _ _ _ _ fun _ => trivial) fun _ => ?_
  refine closing_then only_stripeConfigured fun configured =>
    Discipline.Flow.ite (fun _ => ?_) fun _ => ?_
  · refine closing_only (Only.seq ((only_perform _).mpr trivial) fun intent => ?_)
    exact Only.seq (only_issue trivial) fun _ => only_pure _
  · exact (closing_finalize payment).seq fun _ => closing_only (only_pure _)

/-- A program that only reads. -/
theorem closing_reads {α : Type} {P : World → Prop} {p : Act α} (hp : p.Only fun _ => False)
    (hP : ∀ w, P w → SearchesClosed w) : Closing P p fun _ => P := by
  have hkept : Serial machine World.still closing (fun _ => True) P p (fun _ => P) fun _ => P :=
    Serial.only hp (fun _ _ => trivial) fun _ _ _ h => h.elim
  exact hkept.post (fun _ _ h => h) fun _ _ h => hP _ h

/-- Whoever may name a price on an order, it is waiting for an expert. -/
theorem closing_mayOffer (order : Order) (user : UserId) :
    Closing (fun w => SearchesClosed w ∧ w.orders.get id = some order)
      (assertInspectorMayOffer id order user)
      fun _ w => SearchesClosed w ∧ w.orders.get id = some order ∧ order.status = unassigned := by
  have hfail {status : HttpStatus} {code message : String} :
      Closing (fun w => SearchesClosed w ∧ w.orders.get id = some order)
        (fail status code message : Act Unit)
        fun _ w => SearchesClosed w ∧ w.orders.get id = some order ∧ order.status = unassigned :=
    Serial.throw fun _ h => h.1
  refine Discipline.Flow.ite (fun _ => hfail) fun _ => ?_
  refine Discipline.Flow.ite (fun _ => hfail) fun _ => ?_
  refine Discipline.Flow.ite (fun _ => hfail) fun hopen => ?_
  have hunassigned : order.status = unassigned := by
    by_contra hne
    exact hopen (.inl hne)
  have hreads : Closing (fun w => SearchesClosed w ∧ w.orders.get id = some order) (do
        let profile ← fetch .assertInspectorMayOffer (·.inspectors.get user)
        let declined ← fetch .assertInspectorMayOffer fun w => w.offers.any fun _ o =>
          o.orderId = id && o.inspectorId = user && o.status = .declined
        let own ← fetch .ownCounterOffer (·.ownCounterOffer id user)
        assertEligible profile user
        assertUnanswered own
        Prog.when (declined = true)
          (fail .conflict "order_declined" "You refused this order already"))
      fun _ w => SearchesClosed w ∧ w.orders.get id = some order := by
    refine closing_reads ?_ fun _ h => h.1
    refine Only.seq (only_fetch _ _) fun _ => Only.seq (only_fetch _ _) fun _ => ?_
    refine Only.seq (only_fetch _ _) fun own => Only.seq (only_assertEligible _ _) fun _ => ?_
    exact Only.seq (only_assertUnanswered _) fun _ => Only.when fun _ => only_fail _ _ _
  exact hreads.post (fun _ _ h => ⟨h.1, h.2, hunassigned⟩) fun _ _ h => h

/-- A price named on an order that is searched for. -/
theorem closing_upsert (user : UserId) (terms : CounterOfferTerms) :
    Closing (fun w => SearchesClosed w ∧ ∃ order, w.orders.get id = some order ∧
        order.status ∈ searchStatuses)
      (upsertCounterOffer id user terms) fun _ => SearchesClosed := by
  have hwrite : Closing (fun w => SearchesClosed w ∧ ∃ order, w.orders.get id = some order ∧
      order.status ∈ searchStatuses) (perform (.upsertCounterOffer id user terms))
      fun _ => SearchesClosed := by
    refine Serial.perform fun c w h _ => ⟨trivial, ?_⟩
    obtain ⟨hclosed, order, horder, hopen⟩ := h
    have horders := (World.frame_exec (.upsertCounterOffer id user terms) c w).orders rfl
    have hkept : SearchesClosed (World.exec (.upsertCounterOffer id user terms) c w).2 := by
      refine World.searchesClosed_exec (w := w) hclosed (fun o r' hr' hout => ?_)
        fun k x' hx' hs => ?_
      · rw [horders] at hr'
        exact .inl ⟨r', hr', hout⟩
      rcases World.exec_counterOffer hx' with ⟨o, inspector, terms', hstmt, ho, _⟩ | ⟨x, hx, h⟩
      · cases hstmt
        right
        intro r hr
        rw [horders, ho] at hr
        cases horder.symm.trans hr
        exact hopen
      · rcases h with rfl | ⟨u, hu, _⟩ | ⟨haccepted, _⟩
        · exact .inl ⟨_, hx, rfl, hs⟩
        · cases hu
        · rw [haccepted] at hs
          cases hs
    rw [show machine.exec = World.exec from rfl]
    cases (World.exec (.upsertCounterOffer id user terms) c w).1 <;> exact hkept
  refine (Discipline.Flow.attempt hwrite).seq fun answer => ?_
  cases answer with
  | ok counterId => exact Serial.pure fun _ h => h
  | error err => cases err <;> exact Serial.throw fun _ h => h

theorem closing_create (user : UserId) (payoutCents : Cents) :
    Closing SearchesClosed (createCounterOffer id user payoutCents) fun _ => SearchesClosed := by
  have hread : Closing SearchesClosed (fetch .createCounterOffer (·.orders.get id))
      fun found w => SearchesClosed w ∧ w.orders.get id = found :=
    Serial.ask (fun _ _ => trivial) (fun _ h => ⟨h, rfl⟩) fun _ _ h => h
  refine hread.seq fun found => ?_
  cases found with
  | none => exact Serial.throw fun _ h => h.1
  | some order =>
    refine (closing_mayOffer order user).seq fun _ => ?_
    refine (closing_reads (only_distanceInReach id user) fun _ h => h.1).seq fun distanceKm => ?_
    refine (closing_reads (only_termsOf id order user distanceKm payoutCents) fun _ h => h.1).seq
      fun terms => ?_
    have hopen : Closing (fun w => SearchesClosed w ∧ w.orders.get id = some order ∧
        order.status = unassigned) (upsertCounterOffer id user terms) fun _ => SearchesClosed := by
      refine Serial.pre (closing_upsert user terms) fun w h => ⟨h.1, order, h.2.1, ?_⟩
      rw [h.2.2]
      decide
    refine hopen.seq fun counterId => ?_
    refine closing_then (only_note _ _ _ fun _ => trivial) fun _ => ?_
    refine closing_then tidy_promote fun _ => closing_then (only_fetch _ _) fun current => ?_
    exact closing_then (only_queuePositionOf _) fun position => closing_only (only_pure _)

end Prices

section Runs

theorem closing_op {op : PriceOp} (h : op.trades) :
    Closing SearchesClosed op.prog fun _ => SearchesClosed := by
  have hdiscard {α : Type} {p : Act α} (hp : Closing SearchesClosed p fun _ => SearchesClosed) :
      Closing SearchesClosed (discard p) fun _ => SearchesClosed :=
    hp.seq fun _ => closing_only (only_pure _)
  cases op with
  | create order user payoutCents => exact hdiscard (closing_create user payoutCents)
  | trade op =>
    cases op with
    | accept order counter user => exact hdiscard (closing_accept counter user)
    | decline order counter user =>
      exact closing_only (only_decline _ _ _ trivial fun _ h => h.tidy)
    | withdraw counter user => exact closing_only (only_withdraw _ _ trivial fun _ _ h => h.tidy)
    | sweepExpired =>
      exact hdiscard (closing_only (only_sweepExpired (fun _ _ h => h.tidy) fun _ _ => trivial))
    | dispatch order => cases h
    | orders op =>
      cases op with
      | acceptOffer offer user => exact closing_acceptOffer offer user
      | adminAssign order inspector admin => exact closing_adminAssign inspector admin
      | finalizeCounterOfferPayment payment order => exact closing_finalize payment
      | abandonCounterOfferPayment order canceled => exact closing_only (tidy_abandon canceled)
      | cancel order user => exact hdiscard (closing_only (tidy_cancel user))
      | adminCancel order percent admin =>
        exact hdiscard (closing_only (tidy_adminCancel percent admin))
      | expireUnfilledSearches limit =>
        exact hdiscard (closing_only (tidy_expireUnfilledSearches limit))
      | _ => cases h

/-- While no order is cancelled under a waiting price, and no price goes back to wait on a finished
search, every finished search is closed after each operation. -/
theorem closed_search (w : World) (ops : List PriceOp) (g : Run Unit) (hops : ∀ op ∈ ops, op.trades)
    (hw : SearchesClosed w)
    (hg : Pool.Reach machine noRecord closesInTime (PriceOp.sequence w ops) g)
    (hend : g.AllEnded) : SearchesClosed g.state := by
  have hseries : Closing SearchesClosed (Prog.series (ops.map PriceOp.prog))
      fun _ => SearchesClosed := by
    refine Serial.series fun p hp => ?_
    obtain ⟨op, hop, rfl⟩ := List.mem_map.mp hp
    exact closing_op (hops op hop)
  have hC (t : Nat) (l : Label Site Stmt) (c : Fate) (x : World × Unit)
      (h : closesInTime t l c x = true) : closing l c x.1 := h
  obtain ⟨-, q, hq, hstand⟩ := hseries.reach World.still_tick hC hw trivial hg
  have hended := hend q (by rw [hq]; simp)
  cases q with
  | ret a => exact hstand
  | raise e => exact hstand
  | ask l f k => cases hended
  | call s k => cases hended

end Runs

section Cancelled

/-- The order, whether a price waits on it, and whether all has run. -/
def searchEnd (g : Run Unit) : Option OrderStatus × Bool × Bool :=
  ((g.state.orders.get 1).map (·.status), g.state.hasPending 1, decide g.AllEnded)

theorem searchesClosed_pricedWorld : SearchesClosed pricedWorld := by
  intro id order horder hout
  simp only [pricedWorld, Table.get_set, Table.get_empty] at horder
  split at horder
  · cases horder
    exact absurd (by decide) hout
  · cases horder

/-- The customer cancels while a price is on their screen. -/
theorem cancelled_under_price : ¬ ClosedSearchLaw anyStep := by
  intro hlaw
  have hrun : Pool.observe machine noRecord anyStep searchEnd (goes 0 8) (.run 0 .ok)
      (PriceOp.sequence pricedWorld [.trade (.orders (.cancel 1 7))]) =
      some ((some cancelled, true, false), (some cancelled, true, true)) := by decide +kernel
  obtain ⟨g, g', hg, hm, hs, -, hafter⟩ := Pool.observe_eq hrun
  obtain ⟨hrow, hrest⟩ := Prod.mk.inj hafter
  obtain ⟨hwaits, hend⟩ := Prod.mk.inj hrest
  obtain ⟨order, horder, hstatus⟩ := Option.map_eq_some_iff.mp hrow
  have hclosed := hlaw pricedWorld _ g' (by decide) searchesClosed_pricedWorld
    (.next (m := .run 0 .ok) hg hm hs) (of_decide_eq_true hend) 1 order horder
    (by rw [hstatus]; decide)
  rw [hclosed] at hwaits
  cases hwaits

/-- The customer declines the price first. -/
theorem closed_search_declined : ∃ g : Run Unit,
    searchEnd g = (some cancelled, false, true) ∧ SearchesClosed g.state := by
  have hrun : Pool.observe machine noRecord closesInTime searchEnd (goes 0 18) (.run 0 .ok)
      (PriceOp.sequence pricedWorld [.trade (.decline 1 5 7), .trade (.orders (.cancel 1 7))]) =
      some ((some cancelled, false, false), (some cancelled, false, true)) := by decide +kernel
  obtain ⟨g, g', hg, hm, hs, -, hafter⟩ := Pool.observe_eq hrun
  have hend := of_decide_eq_true (Prod.mk.inj (Prod.mk.inj hafter).2).2
  refine ⟨g', hafter, ?_⟩
  exact closed_search pricedWorld _ g' (by decide) searchesClosed_pricedWorld
    (.next (m := .run 0 .ok) hg hm hs) hend

end Cancelled

end CarSalePro
