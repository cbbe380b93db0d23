import CarSalePro.Interleave.Recall
import CarSalePro.Interleave.Within
import CarSalePro.Laws.DoubleBooking
import CarSalePro.Orders.CounterOffers

namespace CarSalePro

open Store Interleave OrderStatus

namespace TradeOp

/-- The opening of the payment window, with all that contends for the order. -/
def contends : TradeOp → Prop
  | accept _ _ _ | decline _ _ _ | withdraw _ _ | sweepExpired | dispatch _ => True
  | orders op =>
    match op with
    | .acceptOffer _ _ | .adminAssign _ _ _ => True
    | .expireStaleOffers | .redispatchUnfilledOrders _ | .expireUnfilledSearches _ => True
    | .sweepAbandonedInspections | .reconcileStuckOrderPayments _ | .autoApproveOverdue => True
    | .retryStuckPayouts _ | .retryStuckRefunds _ => True
    | _ => False

/-- The calls that assign an order at its own price. -/
def assigns : TradeOp → Bool
  | orders (.acceptOffer _ _) | orders (.adminAssign _ _ _) => true
  | _ => false

def accepts : TradeOp → Bool
  | orders (.acceptOffer _ _) => true
  | _ => false

end TradeOp

/-- A counter-offer of the order is being paid, and its payment window is open. -/
def World.payingFor (w : World) (o : OrderId) : Bool :=
  w.counterOffers.any fun _ c =>
    c.orderId = o && c.status = .accepting && c.acceptingUntil.any (w.now < ·)

/-- What a thread remembers: whether it accepts an offer, and the orders it read to be unlocked. -/
structure LockMemory where
  accepts : Bool
  unlocked : OrderId → Bool

namespace LockMemory

def note (m : LockMemory) (l : Label Site Stmt) (w : World) : LockMemory :=
  match l with
  | .ask (.counterOfferPaymentLock o) =>
    { m with unlocked := fun o' => m.unlocked o' || o' = o && !w.payingFor o' }
  | _ => m

/-- Whoever accepts an offer claims an order that was read to be unlocked. -/
def may (m : LockMemory) : Stmt → Prop
  | .order (.claim o _ _) => m.accepts = true → m.unlocked o = true
  | _ => True

end LockMemory

abbrev LockLog := Nat → LockMemory

def recordLocks : Recorder Site Stmt World LockLog := fun t l w _ h =>
  Function.update h t ((h t).note l w)

def startLocks (ops : List TradeOp) : LockLog := fun t =>
  ⟨(ops[t]?).any TradeOp.accepts, fun _ => false⟩

/-- While a counter-offer is being paid nobody else gets the order. -/
def PaymentWindowLaw (C : List TradeOp → StepGuard LockLog) : Prop :=
  ∀ (w : World) (ops : List TradeOp) (g g' : Run LockLog) (t : Nat) (c : Fate) (op : TradeOp)
    (p : Act Unit) (l : Label Site Stmt) (o : OrderId), (∀ op ∈ ops, op.contends) →
    Pool.Reach machine recordLocks (C ops) (TradeOp.launch w (startLocks ops) ops) g →
    g.Meets (C ops) (.run t c) → Pool.step machine recordLocks (.run t c) g = some g' →
    ops[t]? = some op → op.assigns → g.threads[t]? = some p → p.label = some l →
    assignsOrder l = some o → g.state.assignedOrder o = false → g'.state.assignedOrder o →
    g.state.payingFor o = false

/-- No counter-offer is being paid for an order that an admin assigns, or that is claimed for an
offer and was read to be unlocked; and a customer starts to pay for a counter-offer only while its
order is unclaimed. -/
def respectsWindow (ops : List TradeOp) : StepGuard LockLog := fun t l _ x =>
  match l with
  | .call (.order (.claim o _ _)) => !((ops[t]?).any TradeOp.assigns && x.1.payingFor o) ||
      ((x.2 t).accepts && !(x.2 t).unlocked o)
  | .call (.counterOffer (.startPayment k _)) =>
    (x.1.counterOffers.get k).all fun c => x.1.claimant c.orderId = none
  | _ => true

/-- The orders claimed at their own price are not being paid for. -/
def claimsUnpaid (ops : List TradeOp) : StepGuard LockLog := fun t l c x =>
  respectsWindow ops t l c x && match l with
    | .call (.order (.claim o _ _)) => !((ops[t]?).any TradeOp.assigns && x.1.payingFor o)
    | _ => true

section Windows

variable {s : Stmt} {c : Fate} {w : World} {o : OrderId}

/-- A payment window opens only when a customer starts to pay. -/
theorem payingFor_exec (h : (World.exec s c w).2.payingFor o) : w.payingFor o ∨
    ∃ k acceptingUntil x, s = .counterOffer (.startPayment k acceptingUntil) ∧
      w.counterOffers.get k = some x ∧ x.orderId = o := by
  obtain ⟨k, x', hx', hpays⟩ := Table.any_eq_true.mp h
  simp only [Bool.and_eq_true, decide_eq_true_eq] at hpays
  obtain ⟨⟨ho, hs⟩, hopen⟩ := hpays
  rcases World.exec_counterOffer hx' with ⟨_, _, _, _, _, hpending⟩ | ⟨x, hx, heff⟩
  · rw [hs] at hpending
    cases hpending
  rcases heff with rfl | ⟨u, rfl, hr⟩ | ⟨hs', _⟩
  · have hnow := (World.frame_exec s c w).now
    rw [hnow] at hopen
    exact .inl (Table.any_eq_true.mpr ⟨k, x', hx, by simp [ho, hs, hopen]⟩)
  · obtain ⟨acceptingUntil, rfl⟩ := CounterOfferStmt.rewrite_accepting hr hs
    exact .inr ⟨k, acceptingUntil, x, rfl, hx, by rw [← CounterOfferStmt.rewrite_order hr, ho]⟩
  · rw [hs] at hs'
    cases hs'

theorem payingFor_tick (h : (World.tick c w).payingFor o) : w.payingFor o := by
  obtain ⟨k, x, hx, hpays⟩ := Table.any_eq_true.mp h
  have htime : w.now ≤ (World.tick c w).now := by
    cases c <;> first | exact Nat.le_add_right _ _ | exact Nat.le_refl _
  obtain ⟨now, he⟩ := World.tick_eq c w
  rw [he] at hx hpays htime
  refine Table.any_eq_true.mpr ⟨k, x, hx, ?_⟩
  simp only [Bool.and_eq_true, decide_eq_true_eq, Option.any_eq_true] at hpays ⊢
  obtain ⟨hs, stop, hstop, hlt⟩ := hpays
  exact ⟨hs, stop, hstop, Nat.lt_of_le_of_lt htime hlt⟩

end Windows

/-- The invariant of the windows: an order claimed at its own price is not being paid for. -/
structure WindowsKept (assigns : Nat → Bool) (Φ : Nat → Tenure) (x : World × LockLog) : Prop where
  tenures : Tenures Φ x.1
  role : ∀ t, (Φ t).sells = !assigns t
  clear : ∀ t o i, Φ t = .held o i → x.1.payingFor o = false

section Runs

variable {ops : List TradeOp}

/-- A claim at the order's own price goes on from the step before, or is made at this step. -/
theorem TenureMove.held {ph ph' : Tenure} {l : Label Site Stmt} {c : Fate} {w : World} {o : OrderId}
    {i : UserId} (hm : TenureMove ph l c w ph') (h : ph' = .held o i) : ph = .held o i ∨
      (ph = .free ∧ ∃ statuses, l = .call (.order (.claim o statuses i))) := by
  cases hm with
  | pledge => cases h
  | claimed o' statuses i' => cases h; exact .inr ⟨rfl, statuses, rfl⟩
  | bought => cases h
  | released => cases h
  | returned => cases h
  | assigned => cases h
  | closed => cases h
  | _ => exact .inl h

/-- One step of any of the calls keeps the windows. -/
theorem windowsKept : tenures.Invariant machine recordLocks (claimsUnpaid ops)
    (WindowsKept fun t => (ops[t]?).any TradeOp.assigns) where
  view Φ x t _ := trivial
  move Φ x t l c ph hI hC hm := by
    refine ⟨hI.tenures.move hm, fun u => ?_, fun u o i hu => ?_⟩
    · by_cases hut : u = t
      · subst hut
        rw [Function.update_self, hm.sells, hI.role]
      · rw [Function.update_of_ne hut, hI.role]
    · -- the order was not being paid for before the step, and nobody starts to pay at it
      have hbefore : x.1.payingFor o = false ∧ ∀ k acceptingUntil y,
          l = .call (.counterOffer (.startPayment k acceptingUntil)) →
          x.1.counterOffers.get k = some y → y.orderId ≠ o := by
        have hheld (hΦ : Φ u = .held o i) : x.1.payingFor o = false ∧ ∀ k acceptingUntil y,
            l = .call (.counterOffer (.startPayment k acceptingUntil)) →
            x.1.counterOffers.get k = some y → y.orderId ≠ o := by
          refine ⟨hI.clear u o i hΦ, fun k acceptingUntil y hl hy ho => ?_⟩
          have hmine := hI.tenures.mine u o i (by rw [hΦ]; rfl)
          subst hl
          simp [claimsUnpaid, respectsWindow, hy, ho, hmine] at hC
        by_cases hut : u = t
        · subst hut
          rw [Function.update_self] at hu
          rcases hm.held hu with hΦ | ⟨hfree, statuses, rfl⟩
          · exact hheld hΦ
          · have hrole := hI.role u
            rw [hfree] at hrole
            have hassigns : (ops[u]?).any TradeOp.assigns = true := by
              simpa [Tenure.sells] using hrole
            have hunpaid := (Bool.and_eq_true_iff.mp hC).2
            exact ⟨by simpa [hassigns] using hunpaid, fun _ _ _ hl => by cases hl⟩
        · rw [Function.update_of_ne hut] at hu
          exact hheld hu
      cases l with
      | ask site => exact hbefore.1
      | call s =>
        rw [Machine.after_call, ← Bool.not_eq_true]
        intro hpays
        rcases payingFor_exec hpays with h | ⟨k, acceptingUntil, y, rfl, hy, ho⟩
        · rw [hbefore.1] at h
          cases h
        · exact hbefore.2 k acceptingUntil y rfl hy ho
  env Φ x c hI := by
    refine ⟨?_, hI.role, fun t o i ht => ?_⟩
    · obtain ⟨now, he⟩ := World.tick_eq c x.1
      rw [show machine.env = World.tick from rfl, he]
      exact ⟨hI.tenures.mine, hI.tenures.sole⟩
    · rw [← Bool.not_eq_true]
      intro hpays
      have h := payingFor_tick hpays
      rw [hI.clear t o i ht] at h
      cases h

end Runs

section Flows

variable {ph : Tenure}

theorem claimFree_start {s : Stmt} (h : StartStmt s) : s.claimFree := by
  cases h with
  | dispatch h => exact claimFree_dispatch h
  | _ => rfl

theorem claimFree_reconcile {s : Stmt} (h : ReconcileStmt s) : s.claimFree := by
  cases h with
  | start h => exact claimFree_start h
  | refund h => exact claimFree_refund h
  | _ => rfl

theorem claimFree_pay {o : OrderId} {s : Stmt} (h : PayStmt o s) : s.claimFree := by
  cases h <;> rfl

theorem claimFree_abandon {o : OrderId} {s : Stmt} (h : AbandonStmt o s) : s.claimFree := by
  cases h with
  | promote h => exact claimFree_promote h
  | dispatch h => exact claimFree_dispatch h
  | _ => rfl

/-- A call that takes no claim, its answer dropped. -/
theorem tenure_aside {α : Type} {p : Act α} (hp : p.Only (·.claimFree = true)) :
    TenureFlow ph (discard p) :=
  tenures_lenient.rest (Prog.Only.seq hp fun _ => Prog.only_pure _)

theorem tenure_openSession (o : OrderId) (counter : OrderCounterOffer) (user : UserId) :
    TenureFlow .selling (openSession o counter user) := by
  refine Discipline.Flow.seq (tenures_lenient.only ((Prog.only_perform _).mpr rfl)) fun k => ?_
  have hevent := only_writeEvent (A := (·.claimFree = true)) o (.user user)
    .counterOfferPaymentStarted none none (some k) fun _ => rfl
  refine Discipline.Flow.seq (tenures_lenient.only hevent) fun _ => ?_
  refine Discipline.Flow.seq (tenures_lenient.only only_stripeConfigured) fun configured => ?_
  refine .ite (fun _ => ?_) fun _ => ?_
  · refine tenures_lenient.rest (Prog.Only.seq ((Prog.only_perform _).mpr rfl) fun intent => ?_)
    exact Prog.Only.seq (only_issue rfl) fun _ => Prog.only_pure _
  · exact Discipline.Flow.seq (tenure_finalize o k) fun _ => .pure fun _ _ => trivial

/-- The customer's acceptance claims nothing before its payment is in place. -/
theorem tenure_accept (o : OrderId) (k : CounterOfferId) (user : UserId) :
    TenureFlow .selling (accept o k user) := by
  refine Discipline.Flow.seq (tenures_lenient.only (only_requireCustomerOrder o user))
    fun order => ?_
  refine Discipline.Flow.seq (tenures_lenient.only (only_requireCounterOffer _ o k))
    fun counter => ?_
  refine .ite (fun _ => .throw fun _ _ => trivial) fun _ => ?_
  refine Discipline.Flow.seq (tenures_lenient.only (Prog.only_fetch _ _)) fun busy => ?_
  refine .ite (fun _ => ?_) fun _ => ?_
  · exact tenures_lenient.rest (only_refuseBusy o k rfl fun _ => claimFree_promote)
  refine Discipline.Flow.seq (tenures_lenient.only (Prog.only_fetch _ _)) fun settings => ?_
  refine Discipline.Flow.seq (tenures_lenient.only only_readClock) fun now => ?_
  refine Discipline.Flow.seq (tenures_lenient.only ((Prog.only_perform _).mpr rfl))
    fun claimed => ?_
  refine .ite (fun _ => tenures_lenient.rest (only_joinSession o k counter)) fun _ => ?_
  exact tenure_openSession o counter user

/-- Where a call begins. -/
def TradeOp.tenure (op : TradeOp) : Tenure := if op.assigns then .free else .selling

theorem contends_flow {op : TradeOp} (h : op.contends) : TenureFlow op.tenure op.prog := by
  cases op with
  | accept o k user =>
    exact Discipline.Flow.seq (tenure_accept o k user) fun _ => .pure fun _ _ => trivial
  | decline o k user =>
    exact tenures_lenient.rest (only_decline o k user rfl fun _ => claimFree_promote)
  | withdraw k user =>
    exact tenures_lenient.rest (only_withdraw k user rfl fun _ _ => claimFree_promote)
  | sweepExpired =>
    exact tenure_aside (only_sweepExpired (fun _ _ => claimFree_abandon) fun _ _ => rfl)
  | dispatch o => exact tenure_aside ((only_dispatch o).mono fun _ => claimFree_dispatch)
  | orders op =>
    cases op with
    | acceptOffer k i => exact tenure_acceptOffer i k
    | adminAssign o i admin => exact tenure_adminAssign o i admin
    | expireStaleOffers =>
      exact tenure_aside (only_expireStaleOffers (fun _ => rfl) fun _ _ => claimFree_dispatch)
    | redispatchUnfilledOrders limit =>
      exact tenure_aside (only_redispatchUnfilledOrders limit (fun _ _ => rfl)
        fun _ _ => claimFree_dispatch)
    | expireUnfilledSearches limit =>
      exact tenure_aside (only_expireUnfilledSearches limit (fun _ _ => rfl) (fun _ => rfl)
        fun _ _ _ _ => claimFree_refund)
    | sweepAbandonedInspections =>
      exact tenure_aside (only_sweepAbandonedInspections (fun _ _ => rfl) (fun _ => rfl)
        fun _ _ _ _ => claimFree_refund)
    | reconcileStuckOrderPayments limit =>
      exact tenure_aside (only_reconcileStuckOrderPayments limit (fun _ => claimFree_capture)
        fun _ => claimFree_reconcile)
    | autoApproveOverdue =>
      exact tenure_aside (only_autoApproveOverdue (fun _ _ _ => rfl) fun _ _ => claimFree_pay)
    | retryStuckPayouts limit =>
      exact tenure_aside (only_retryStuckPayouts limit fun _ _ => claimFree_pay)
    | retryStuckRefunds limit =>
      exact tenure_aside (only_retryStuckRefunds limit (fun _ _ => rfl)
        fun _ _ _ _ _ => claimFree_refund)
    | _ => exact h.elim

/-- The threads of a launch, each where its call begins. -/
theorem windowsKept_launch (w : World) {ops : List TradeOp} (hops : ∀ op ∈ ops, op.contends) :
    tenures.Kept machine (WindowsKept fun t => (ops[t]?).any TradeOp.assigns) (fun _ => True)
      (fun t => (ops[t]?).elim .selling TradeOp.tenure)
        (TradeOp.launch w (startLocks ops) ops) := by
  have hstart (t : Nat) : ((ops[t]?).elim .selling TradeOp.tenure).holds = none ∧
      ((ops[t]?).elim .selling TradeOp.tenure).sells = !(ops[t]?).any TradeOp.assigns := by
    cases ops[t]? with
    | none => exact ⟨rfl, rfl⟩
    | some op =>
      simp only [Option.elim_some, Option.any_some, TradeOp.tenure]
      cases op.assigns <;> exact ⟨rfl, rfl⟩
  refine ⟨⟨.of_free fun t => (hstart t).1, fun t => (hstart t).2, fun t o i ht => ?_⟩,
    fun t p hp => ?_, fun _ _ => trivial⟩
  · have hfree := (hstart t).1
    rw [ht] at hfree
    cases hfree
  · simp only [TradeOp.launch, List.getElem?_map, Option.map_eq_some_iff] at hp
    obtain ⟨op, hop, rfl⟩ := hp
    simp only [hop, Option.elim_some]
    exact (contends_flow (hops op (List.mem_of_getElem? hop))) _ rfl

end Flows

section Locks

abbrev Locks {α : Type} (A : LockMemory → Prop) (p : Act α) (B : α → LockMemory → Prop) : Prop :=
  Recalls machine LockMemory.note LockMemory.may A p B

variable {α : Type} {A : LockMemory → Prop}

/-- A program that claims nothing. -/
theorem locks_reads {p : Act α} (hp : p.Only fun _ => False) :
    Locks (fun _ => True) p fun _ _ => True :=
  Recalls.only hp (fun _ _ _ h => h.elim) fun _ _ _ _ => trivial

/-- Whoever accepts no offer claims as it likes. -/
theorem locks_other (p : Act α) : Locks (·.accepts = false) p fun _ => (·.accepts = false) := by
  apply Recalls.only (F := fun _ => True) (Prog.only_all p)
  · intro m s hm _
    unfold LockMemory.may
    split
    · intro haccepts
      rw [hm] at haccepts
      cases haccepts
    · trivial
  · intro m l w hm
    unfold LockMemory.note
    split <;> exact hm

theorem locks_lock (o : OrderId) : Locks (fun _ => True) (counterOfferPaymentLock o)
    fun locked m => locked = false → m.unlocked o = true := by
  apply Recalls.fetch
  intro m w _ hlocked
  have hfree : w.payingFor o = false := hlocked
  simp [LockMemory.note, hfree]

/-- The claim of an acceptance is of the order that was read to be unlocked. -/
theorem locks_claimOffer (offerId : OfferId) (offer : OrderOffer) (order : Order) (user : UserId) :
    Locks (·.unlocked offer.orderId = true) (claimOffer offerId offer order user)
      fun _ _ => True := by
  have hclaims : Locks (·.unlocked offer.orderId = true) (claimOffer offerId offer order user)
      fun _ => (·.unlocked offer.orderId = true) := by
    apply Recalls.only (only_claimOffer offerId offer order user)
    · intro m s hm hs
      unfold LockMemory.may
      split
      next o statuses i =>
        cases hs with
        | claim => exact fun _ => hm
        | capture h => cases h
        | refund h => cases h
        | settle h =>
          cases h with
          | promote h => cases h
      next => trivial
    · intro m l w hm
      unfold LockMemory.note
      split
      · exact Bool.or_eq_true_iff.mpr (.inl hm)
      · exact hm
  exact hclaims.post (fun _ _ _ => trivial) fun _ _ h => h

theorem locks_acceptOffer (offerId : OfferId) (user : UserId) :
    Locks (fun _ => True) (acceptOffer offerId user) fun _ _ => True := by
  refine (locks_reads (Prog.only_fetch _ _)).seq fun found => ?_
  split
  · exact .throw fun _ _ => trivial
  next offer =>
    refine .ite (fun _ => .throw fun _ _ => trivial) fun _ => ?_
    refine (locks_reads only_readClock).seq fun now => ?_
    refine .ite (fun _ => .throw fun _ _ => trivial) fun _ => ?_
    refine (locks_reads (only_assertInspectorPro user)).seq fun _ => ?_
    refine (locks_reads (Prog.only_fetch _ _)).seq fun order => ?_
    split
    · exact .throw fun _ _ => trivial
    next order =>
      refine .ite (fun _ => .throw fun _ _ => trivial) fun _ => ?_
      refine (locks_lock offer.orderId).seq fun locked => ?_
      refine .ite (fun _ => .throw fun _ _ => trivial) fun hlocked => ?_
      exact (locks_claimOffer offerId offer order user).weaken
        (fun m hm => hm (by simpa using hlocked))
        (fun _ _ h => h) fun _ _ h => h

theorem locks_prog (op : TradeOp) (m : LockMemory) (hm : m.accepts = op.accepts) :
    Locks (· = m) op.prog fun _ _ => True := by
  have hother (p : Act Unit) (hnone : m.accepts = false) : Locks (· = m) p fun _ _ => True :=
    (locks_other p).weaken (fun _ h => h ▸ hnone) (fun _ _ _ => trivial) fun _ _ h => h
  cases op with
  | orders op =>
    cases op with
    | acceptOffer k i =>
      exact (locks_acceptOffer k i).weaken (fun _ _ => trivial) (fun _ _ h => h) fun _ _ h => h
    | _ => exact hother _ hm
  | _ => exact hother _ hm

/-- A run that respects the windows claims no order that is being paid for. -/
theorem respects_unpaid {w : World} {ops : List TradeOp} {g : Run LockLog}
    (hg : Pool.Reach machine recordLocks (respectsWindow ops)
      (TradeOp.launch w (startLocks ops) ops) g) :
    Pool.Reach machine recordLocks (claimsUnpaid ops) (TradeOp.launch w (startLocks ops) ops)
    g := by
  have hrec : Records recordLocks LockMemory.note fun h => h := fun _ _ _ _ _ => rfl
  have hthreads : ∀ (t : Nat) (p : Act Unit),
      (TradeOp.launch w (startLocks ops) ops).threads[t]? = some p →
      Locks (· = startLocks ops t) p fun _ _ => True := by
    intro t p hp
    simp only [TradeOp.launch, List.getElem?_map, Option.map_eq_some_iff] at hp
    obtain ⟨op, hop, rfl⟩ := hp
    exact locks_prog op _ (by simp [startLocks, hop])
  refine recalled_mono hrec hthreads (fun t l c x _ => rfl) (fun t s c x hmay hC => ?_) hg
  refine Bool.and_eq_true_iff.mpr ⟨hC, ?_⟩
  split
  next o statuses i hl =>
    cases hl
    rcases Bool.or_eq_true_iff.mp hC with hunpaid | hlocked
    · exact hunpaid
    · obtain ⟨haccepts, hno⟩ := Bool.and_eq_true_iff.mp hlocked
      rw [show (x.2 t).unlocked o = true from hmay haccepts] at hno
      cases hno
  next => rfl

end Locks

section Law

/-- Nobody gets an order at its own price while a counter-offer of it is being paid, where no
assignment by hand lands in an open window, and no window opens on a claimed order or between the
look of an acceptance and its claim. -/
theorem payment_window (w : World) (ops : List TradeOp) (g g' : Run LockLog) (t : Nat) (c : Fate)
    (op : TradeOp) (p : Act Unit) (l : Label Site Stmt) (o : OrderId)
    (hops : ∀ op ∈ ops, op.contends)
    (hreach : Pool.Reach machine recordLocks (respectsWindow ops)
      (TradeOp.launch w (startLocks ops) ops) g)
    (hs : Pool.step machine recordLocks (.run t c) g = some g') (hop : ops[t]? = some op)
    (hassigns : op.assigns) (hp : g.threads[t]? = some p) (hl : p.label = some l)
    (hassign : assignsOrder l = some o) (hbefore : g.state.assignedOrder o = false)
    (hafter : g'.state.assignedOrder o) : g.state.payingFor o = false := by
  obtain ⟨Φ, hk⟩ := Discipline.kept_of_reach windowsKept (windowsKept_launch w hops)
    (respects_unpaid hreach)
  obtain ⟨q, l', q', ph, hq, hl', hmove, _, _, hsnap⟩ := hk.move windowsKept hs
  cases hp.symm.trans hq
  cases hl.symm.trans hl'
  have hstate : g'.state = machine.after l c g.state := congrArg Prod.fst hsnap
  have hrole : (Φ t).sells = false := by
    rw [hk.inv.role, hop, Option.any_some, hassigns]
    rfl
  obtain ⟨source, legal, rfl⟩ := assignsOrder_eq hassign
  -- the thread has claimed the order: no other move writes `assigned`
  have hheld : ∃ i, Φ t = .held o i := by
    generalize Φ t = ph₀ at hmove hrole
    cases hmove with
    | side _ _ _ _ hside => cases hside
    | refused _ _ _ _ e ht he =>
      rw [hstate, Machine.after_call, show machine.exec = World.exec from rfl,
        World.exec_failed ht he, hbefore] at hafter
      cases hafter
    | assigned o i => exact ⟨i, rfl⟩
    | closed => cases hrole
  obtain ⟨i, hi⟩ := hheld
  exact hk.inv.clear t o i hi

end Law

section Race

/-- `saleWorld` before the customer answered the price. -/
def askedWorld : World := { saleWorld with
  orders := Table.empty.set 1 { paidOrder with status := unassigned, dispatchRound := 1 }
  counterOffers := Table.empty.set 3
    { acceptedCounter with status := .pending, acceptingUntil := none }
  payments := Table.empty.set 5 heldPayment }

/-- The customer accepts the price of inspector 8, and an admin assigns inspector 9. -/
def acceptAndAssign : Run LockLog :=
  let ops : List TradeOp := [.accept 1 3 7, .orders (.adminAssign 1 9 100)]
  TradeOp.launch askedWorld (startLocks ops) ops

theorem acceptAndAssign_contends :
    ∀ op ∈ [TradeOp.accept 1 3 7, .orders (.adminAssign 1 9 100)], op.contends := by
  simp [TradeOp.contends]

/-- Whether order 1 is assigned, whether a counter-offer of it is being paid, and what the admin's
call assigns next. -/
structure WindowView where
  assigned : Bool
  paying : Bool
  next : Option (Option OrderId)
  deriving DecidableEq

def windowView (g : Run LockLog) : WindowView where
  assigned := g.state.assignedOrder 1
  paying := g.state.payingFor 1
  next := (g.threads[1]?.bind Prog.label).map assignsOrder

/-- The customer is entering a card; the assignment by hand does not ask. -/
theorem assigned_while_paying : ¬ PaymentWindowLaw fun _ => anyStep := by
  intro hlaw
  have hrun : Pool.observe machine recordLocks anyStep windowView (goes 0 11 ++ goes 1 15)
      (.run 1 .ok) acceptAndAssign =
      some (⟨false, true, some (some 1)⟩, ⟨true, true, some none⟩) := by decide +kernel
  obtain ⟨g, g', hg, hm, hs, hbefore, hafter⟩ := Pool.observe_eq hrun
  obtain ⟨l, hl, hassign⟩ := Option.map_eq_some_iff.mp (congrArg WindowView.next hbefore)
  obtain ⟨p, hp, hl⟩ := Option.bind_eq_some_iff.mp hl
  have hclear := hlaw _ _ g g' 1 .ok _ p l 1 acceptAndAssign_contends hg hm hs rfl rfl hp hl hassign
    (congrArg WindowView.assigned hbefore) (congrArg WindowView.assigned hafter)
  cases hclear.symm.trans (congrArg WindowView.paying hbefore)

/-- The assignment alone, before the customer answers. -/
theorem payment_window_assigned : ∃ g : Run LockLog, windowView g = ⟨false, false, some (some 1)⟩ ∧
    g.state.payingFor 1 = false := by
  have hrun : Pool.observe machine recordLocks
      (respectsWindow [.accept 1 3 7, .orders (.adminAssign 1 9 100)]) windowView (goes 1 16)
      (.run 1 .ok) acceptAndAssign =
      some (⟨false, false, some (some 1)⟩, ⟨true, false, some none⟩) := by decide +kernel
  obtain ⟨g, g', hg, hm, hs, hbefore, hafter⟩ := Pool.observe_eq hrun
  obtain ⟨l, hl, hassign⟩ := Option.map_eq_some_iff.mp (congrArg WindowView.next hbefore)
  obtain ⟨p, hp, hl⟩ := Option.bind_eq_some_iff.mp hl
  exact ⟨g, hbefore, payment_window _ _ g g' 1 .ok _ p l 1 acceptAndAssign_contends hg hs rfl rfl hp
    hl hassign (congrArg WindowView.assigned hbefore) (congrArg WindowView.assigned hafter)⟩

end Race

end CarSalePro
