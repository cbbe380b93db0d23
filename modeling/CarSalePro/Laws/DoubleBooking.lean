import CarSalePro.Laws.CapturedMoney
import CarSalePro.Orders.Tenure

namespace CarSalePro

open Store Interleave OrderStatus

/-- The calls that assign inspectors. -/
def Op.books : Op → Prop
  | .finalizeCounterOfferPayment _ _ | .acceptOffer _ _ | .adminAssign _ _ _ => True
  | _ => False

/-- The counter-offer payments among them. -/
def Op.sells : Op → Bool
  | .finalizeCounterOfferPayment _ _ => true
  | _ => false

def World.assignedOrder (w : World) (o : OrderId) : Bool :=
  (w.orders.get o).any (·.status = assigned)

/-- The order the statement moves to `assigned`. -/
def assignsOrder : Label Site Stmt → Option OrderId
  | .call (.order (.transition o _ assigned _)) => some o
  | _ => none

/-- The inspector a counter-offer payment asks about. -/
def checksInspector : Label Site Stmt → Option UserId
  | .ask (.finalizeBusy _ i) => some i
  | _ => none

/-- For each thread and each inspector it found free, the orders assigned to that inspector
since. -/
abbrev Bookings := Nat → UserId → Option (List OrderId)

def recordBookings : Recorder Site Stmt World Bookings := fun t l w w' h =>
  match checksInspector l, assignsOrder l with
  | some i, _ =>
    if w.busy i then h else Function.update h t (Function.update (h t) i (some []))
  | none, some o =>
    if w'.assignedOrder o then
      fun u i => (h u i).map fun os => if w'.claimant o = some i then o :: os else os
    else h
  | none, none => h

/-- The order is its inspector's only one to work on. -/
def SingleBooking (o : OrderId) (w : World) : Prop :=
  ∃ i, w.claimant o = some i ∧ ∀ o' r, w.orders.get o' = some r → r.inspectorId = some i →
    r.status ∈ busyStatuses → o' = o

/-- A counter-offer payment that assigns an order assigns it to an inspector who has no other. -/
def DoubleBookingLaw (C : StepGuard Bookings) : Prop :=
  ∀ (w : World) (ops : List Op) (g g' : Run Bookings) (t : Nat) (c : Fate) (op : Op) (p : Act Unit)
    (l : Label Site Stmt) (o : OrderId), (∀ op ∈ ops, op.books) →
    Pool.Reach machine recordBookings C (launch w (fun _ _ => none) ops) g →
    g.Meets C (.run t c) → Pool.step machine recordBookings (.run t c) g = some g' →
    ops[t]? = some op → op.sells → g.threads[t]? = some p → p.label = some l →
    assignsOrder l = some o → g.state.assignedOrder o = false → g'.state.assignedOrder o →
    SingleBooking o g'.state

/-- A counter-offer payment assigns its order only when nothing else was assigned to the inspector
since it found them free. -/
def soleBooking : StepGuard Bookings := fun t l _ x =>
  (assignsOrder l).all fun o => (x.1.claimant o).all fun i => (x.2 t i).all fun os => os.all (· = o)

section Moves

variable {ph ph' : Tenure} {l : Label Site Stmt} {c : Fate} {w : World} {o : OrderId}
  {r r' : Order} {i : UserId}

theorem assignsOrder_eq (h : assignsOrder l = some o) : ∃ source legal,
    l = .call (.order (.transition o source assigned legal)) := by
  unfold assignsOrder at h
  split at h
  next o' source legal => cases h; exact ⟨source, legal, rfl⟩
  next => cases h

theorem checksInspector_eq (h : checksInspector l = some i) :
    ∃ o, l = .ask (.finalizeBusy o i) := by
  unfold checksInspector at h
  split at h
  next o j => cases h; exact ⟨o, rfl⟩
  next => cases h

theorem busy_search {s : OrderStatus} (hb : s ∈ busyStatuses) (hs : s ∈ searchStatuses) :
    False := by
  revert hb hs
  cases s <;> decide

/-- An order becomes one to work on only by an assignment. -/
theorem busy_move (hm : TenureMove ph l c w ph') (hr : w.orders.get o = some r)
    (hr' : (machine.after l c w).orders.get o = some r') (hi : r'.inspectorId = some i)
    (hb : r'.status ∈ busyStatuses) : (r.inspectorId = some i ∧ r.status ∈ busyStatuses) ∨
      (assignsOrder l = some o ∧ r'.status = assigned) := by
  have hsame (he : (machine.after l c w).orders.get o = w.orders.get o) :
      r.inspectorId = some i ∧ r.status ∈ busyStatuses := by
    cases hr.symm.trans (he.symm.trans hr')
    exact ⟨hi, hb⟩
  cases l with
  | ask site => exact .inl (hsame rfl)
  | call s =>
    obtain ⟨r₁, hr₁, heff⟩ := World.exec_order (s := s) (c := c) hr
    cases hr₁.symm.trans hr'
    cases heff with
    | same => exact .inl ⟨hi, hb⟩
    | sale => exact .inl ⟨hi, hb⟩
    | write u stmt row rewrite =>
      subst stmt row
      cases u with
      | transition id source target legal =>
        cases rewrite
        cases hm with
        | side _ _ _ _ hs =>
          simp only [Stmt.claimFree, decide_eq_true_eq] at hs
          exact absurd hb hs
        | refused _ _ _ _ e ht he =>
          exact .inl (hsame (congrArg (·.orders.get id) (World.exec_failed ht he)))
        | assigned o i source legal => exact .inr ⟨rfl, rfl⟩
        | closed o i source legal => exact .inr ⟨rfl, rfl⟩
      | claim id statuses j =>
        have hnew {n : Nat} (hs : ∀ s ∈ statuses, s ∈ searchStatuses) : False := by
          simp only [OrderStmt.rewrite] at rewrite
          split at rewrite
          next hc =>
            cases rewrite
            exact busy_search hb (hs _ hc.1)
          next => cases rewrite
        cases hm with
        | side _ _ _ _ hs => cases hs
        | refused _ _ _ _ e ht he =>
          exact .inl (hsame (congrArg (·.orders.get id) (World.exec_failed ht he)))
        | missed _ _ _ _ _ _ he =>
          exact .inl (hsame (congrArg (·.orders.get id) (World.claim_missed he)))
        | claimed _ _ _ _ _ n hs => exact (hnew (n := n) hs).elim
        | bought _ _ _ _ _ n hs => exact (hnew (n := n) hs).elim
      | releaseClaim id j =>
        simp only [OrderStmt.rewrite] at rewrite
        split at rewrite
        next => cases rewrite; cases hi
        next => cases rewrite
      | cancelWhere id guard =>
        simp only [OrderStmt.rewrite] at rewrite
        split at rewrite
        next =>
          cases rewrite
          simp [busyStatuses] at hb
        next => cases rewrite
      | confirmOwnerContact id j at_ =>
        simp only [OrderStmt.rewrite] at rewrite
        split at rewrite
        next => cases rewrite; exact .inl ⟨hi, hb⟩
        next => cases rewrite
      | raiseRound id now =>
        simp only [OrderStmt.rewrite] at rewrite
        split at rewrite
        next => cases rewrite; exact .inl ⟨hi, hb⟩
        next => cases rewrite
      | _ => cases rewrite; exact .inl ⟨hi, hb⟩

/-- The thread works for a counter-offer payment. -/
def Tenure.sells : Tenure → Bool
  | free | held _ _ => false
  | selling | pledged _ _ | sold _ _ => true

/-- The inspector a counter-offer payment has pledged. -/
def Tenure.pledgee : Tenure → Option UserId
  | pledged _ i | sold _ i => some i
  | _ => none

theorem TenureMove.sells (hm : TenureMove ph l c w ph') : ph'.sells = ph.sells := by
  cases hm <;> rfl

/-- A pledge is kept from the step before, or the inspector was just found free. -/
theorem TenureMove.pledgee (hm : TenureMove ph l c w ph') (h : ph'.pledgee = some i) :
    ph.pledgee = some i ∨ ∃ o, l = .ask (.finalizeBusy o i) ∧ w.busy i = false := by
  cases hm with
  | pledge o j _ _ hb => cases h; exact .inr ⟨o, rfl, hb⟩
  | bought => exact .inl h
  | claimed => cases h
  | released => cases h
  | returned => cases h
  | assigned => cases h
  | closed => cases h
  | _ => exact .inl h

end Moves

/-- The invariant of the bookings: a pledge has its record, and every order its inspector has to
work on is in the record. -/
structure BookingsKept (sells : Nat → Bool) (Φ : Nat → Tenure) (x : World × Bookings) : Prop where
  tenures : Tenures Φ x.1
  role : ∀ t, (Φ t).sells = sells t
  pledged : ∀ t i, (Φ t).pledgee = some i → (x.2 t i).isSome
  listed : ∀ t i os, x.2 t i = some os → ∀ o r, x.1.orders.get o = some r →
    r.inspectorId = some i → r.status ∈ busyStatuses → o ∈ os

section Runs

variable {sells : Nat → Bool} {C : StepGuard Bookings}

/-- A record was just begun, or goes on from the step before. -/
theorem recordBookings_eq {t u : Nat} {l : Label Site Stmt} {w w' : World} {h : Bookings}
    {i : UserId} {os : List OrderId} (hu : recordBookings t l w w' h u i = some os) :
    ((∃ o, l = .ask (.finalizeBusy o i)) ∧ w.busy i = false) ∨
    ∃ os', h u i = some os' ∧ (∀ o ∈ os', o ∈ os) ∧
      ∀ o, assignsOrder l = some o → w'.assignedOrder o → w'.claimant o = some i → o ∈ os := by
  unfold recordBookings at hu
  cases hcheck : checksInspector l with
  | some j =>
    obtain ⟨o, hl⟩ := checksInspector_eq hcheck
    have hold (hs : h u i = some os) : ∃ os', h u i = some os' ∧ (∀ o ∈ os', o ∈ os) ∧
        ∀ o, assignsOrder l = some o → w'.assignedOrder o → w'.claimant o = some i → o ∈ os := by
      refine ⟨os, hs, fun _ h => h, fun o' ha => ?_⟩
      rw [hl] at ha
      cases ha
    rw [hcheck] at hu
    simp only at hu
    split at hu
    next => exact .inr (hold hu)
    next hb =>
      by_cases hut : u = t
      · rw [hut, Function.update_self] at hu
        by_cases hij : i = j
        · subst hij
          exact .inl ⟨⟨o, hl⟩, by simpa using hb⟩
        · rw [Function.update_of_ne hij, ← hut] at hu
          exact .inr (hold hu)
      · rw [Function.update_of_ne hut] at hu
        exact .inr (hold hu)
  | none =>
    right
    rw [hcheck] at hu
    cases hassign : assignsOrder l with
    | none =>
      rw [hassign] at hu
      exact ⟨os, hu, fun _ h => h, fun o ha => by cases ha⟩
    | some o =>
      rw [hassign] at hu
      simp only at hu
      split at hu
      next ha =>
        obtain ⟨os', hj, he⟩ := Option.map_eq_some_iff.mp hu
        split at he
        next hc =>
          subst he
          refine ⟨os', hj, fun o' ho' => List.mem_cons_of_mem o ho', fun o' ho' _ _ => ?_⟩
          cases ho'
          exact List.mem_cons_self
        next hc =>
          subst he
          refine ⟨os', hj, fun _ h => h, fun o' ho' _ hc' => ?_⟩
          cases ho'
          exact absurd hc' hc
      next ha =>
        refine ⟨os, hu, fun _ h => h, fun o' ho' ha' => ?_⟩
        cases ho'
        exact absurd ha' ha

/-- A record is never dropped, and a check that finds the inspector free begins one. -/
theorem recordBookings_some {t u : Nat} {l : Label Site Stmt} {w w' : World} {h : Bookings}
    {i : UserId} (hu : (h u i).isSome ∨ u = t ∧ (∃ o, l = .ask (.finalizeBusy o i)) ∧
      w.busy i = false) :
    (recordBookings t l w w' h u i).isSome := by
  rcases hu with hu | ⟨rfl, ⟨o, rfl⟩, hb⟩
  · unfold recordBookings
    cases checksInspector l with
    | some j =>
      simp only
      split
      · exact hu
      · by_cases hut : u = t
        · rw [hut, Function.update_self]
          by_cases hij : i = j
          · rw [hij, Function.update_self]
            rfl
          · rw [Function.update_of_ne hij, ← hut]
            exact hu
        · rw [Function.update_of_ne hut]
          exact hu
    | none =>
      cases assignsOrder l with
      | none => exact hu
      | some o =>
        simp only
        split
        · simpa using hu
        · exact hu
  · simp [recordBookings, checksInspector, hb]

theorem claimant_eq {w : World} {o : OrderId} {r : Order} (hr : w.orders.get o = some r) :
    w.claimant o = r.inspectorId := by
  rw [World.claimant, hr, Option.bind_some]

theorem not_busy {w : World} {i : UserId} (h : w.busy i = false) {o : OrderId} {r : Order}
    (hr : w.orders.get o = some r) (hi : r.inspectorId = some i) : r.status ∉ busyStatuses := by
  have hrow := Table.any_eq_false.mp h o r hr
  simpa [hi] using hrow

/-- One step of any of the calls keeps the bookings. -/
theorem bookingsKept : tenures.Invariant machine recordBookings C (BookingsKept sells) where
  view Φ x t _ := trivial
  move Φ x t l c ph hI _ hm := by
    refine ⟨hI.tenures.move hm, fun u => ?_, fun u i hu => ?_, fun u i os hu o r' hr' hi hb => ?_⟩
    · by_cases hut : u = t
      · subst hut
        rw [Function.update_self, hm.sells, hI.role]
      · rw [Function.update_of_ne hut, hI.role]
    · apply recordBookings_some
      by_cases hut : u = t
      · subst hut
        rw [Function.update_self] at hu
        exact (hm.pledgee hu).imp (hI.pledged u i) fun ⟨o, hl, hb⟩ => ⟨rfl, ⟨o, hl⟩, hb⟩
      · rw [Function.update_of_ne hut] at hu
        exact .inl (hI.pledged u i hu)
    · have hrow : ∃ r, x.1.orders.get o = some r := by
        cases l with
        | ask site => exact ⟨r', hr'⟩
        | call s =>
          cases hr : x.1.orders.get o with
          | some r => exact ⟨r, rfl⟩
          | none =>
            have hnone := World.exec_order_none (s := s) (c := c) hr
            cases hnone.symm.trans hr'
      obtain ⟨r, hr⟩ := hrow
      have hmove := busy_move hm hr hr' hi hb
      rcases recordBookings_eq hu with ⟨⟨o', hl⟩, hfree⟩ | ⟨os', hold, hsub, hnew⟩
      · subst hl
        cases hr.symm.trans hr'
        exact absurd hb (not_busy hfree hr hi)
      · rcases hmove with ⟨hi₀, hb₀⟩ | ⟨hassign, hs⟩
        · exact hsub o (hI.listed u i os' hold o r hr hi₀ hb₀)
        · refine hnew o hassign ?_ (by rw [claimant_eq hr', hi])
          exact (Option.any_eq_true _ _).mpr ⟨r', hr', by simpa using hs⟩
  env Φ x c hI := by
    obtain ⟨now, he⟩ := World.tick_eq c x.1
    rw [show machine.env = World.tick from rfl, he]
    exact ⟨⟨hI.tenures.mine, hI.tenures.sole⟩, hI.role, hI.pledged, hI.listed⟩

/-- Where a call begins. -/
def Op.tenure (op : Op) : Tenure := if op.sells then .selling else .free

theorem books_flow {op : Op} (h : op.books) : TenureFlow op.tenure op.prog := by
  cases op with
  | acceptOffer k i => exact tenure_acceptOffer i k
  | adminAssign o i admin => exact tenure_adminAssign o i admin
  | finalizeCounterOfferPayment k o => exact tenure_finalize o k
  | _ => exact h.elim

/-- The threads of a launch, each where its call begins. -/
theorem bookingsKept_launch (w : World) {ops : List Op} (hops : ∀ op ∈ ops, op.books) :
    tenures.Kept machine (BookingsKept fun t => (ops[t]?).any Op.sells) (fun _ => True)
      (fun t => (ops[t]?).elim .free Op.tenure) (launch w (fun _ _ => none : Bookings) ops) := by
  have hstart (t : Nat) : ((ops[t]?).elim .free Op.tenure).holds = none ∧
      ((ops[t]?).elim .free Op.tenure).sells = (ops[t]?).any Op.sells ∧
      ((ops[t]?).elim .free Op.tenure).pledgee = none := by
    cases ops[t]? with
    | none => exact ⟨rfl, rfl, rfl⟩
    | some op => cases op <;> exact ⟨rfl, rfl, rfl⟩
  refine ⟨⟨.of_free fun t => (hstart t).1, fun t => (hstart t).2.1, fun t i ht => ?_,
    fun t i os h => (by cases h)⟩, fun t p hp => ?_, fun _ _ => trivial⟩
  · rw [(hstart t).2.2] at ht
    cases ht
  · simp only [launch, List.getElem?_map, Option.map_eq_some_iff] at hp
    obtain ⟨op, hop, rfl⟩ := hp
    simp only [hop, Option.elim_some]
    exact (books_flow (hops op (List.mem_of_getElem? hop))) _ rfl

/-- A counter-offer never double-books its inspector, where nothing is assigned to the inspector
between the check and the assignment. -/
theorem single_booking (w : World) (ops : List Op) (g g' : Run Bookings) (t : Nat) (c : Fate)
    (op : Op) (p : Act Unit) (l : Label Site Stmt) (o : OrderId) (hops : ∀ op ∈ ops, op.books)
    (hreach : Pool.Reach machine recordBookings soleBooking (launch w (fun _ _ => none) ops) g)
    (hm : g.Meets soleBooking (.run t c))
    (hs : Pool.step machine recordBookings (.run t c) g = some g') (hop : ops[t]? = some op)
    (hsells : op.sells) (hp : g.threads[t]? = some p) (hl : p.label = some l)
    (hassign : assignsOrder l = some o) (hbefore : g.state.assignedOrder o = false)
    (hafter : g'.state.assignedOrder o) : SingleBooking o g'.state := by
  obtain ⟨Φ, hk⟩ := Discipline.kept_of_reach bookingsKept (bookingsKept_launch w hops) hreach
  obtain ⟨q, l', q', ph, hq, hl', hmove, _, _, hsnap⟩ :=
    hk.move (bookingsKept (C := soleBooking)) hs
  obtain ⟨Ψ, hk'⟩ := hk.step bookingsKept hm hs
  cases hp.symm.trans hq
  cases hl.symm.trans hl'
  have hstate : g'.state = machine.after l c g.state := congrArg Prod.fst hsnap
  have hhist : g'.hist = recordBookings t l g.state g'.state g.hist := by
    rw [hstate]
    exact congrArg Prod.snd hsnap
  have hrole : (Φ t).sells = true := by
    rw [hk.inv.role, hop]
    exact hsells
  obtain ⟨source, legal, rfl⟩ := assignsOrder_eq hassign
  -- the thread is the seller of the order: no other move writes `assigned`
  have hsold : ∃ i, Φ t = .sold o i := by
    generalize Φ t = ph₀ at hmove hrole
    cases hmove with
    | side _ _ _ _ hside => cases hside
    | refused _ _ _ _ e ht he =>
      rw [hstate, Machine.after_call, show machine.exec = World.exec from rfl,
        World.exec_failed ht he, hbefore] at hafter
      cases hafter
    | assigned => cases hrole
    | closed o i => exact ⟨i, rfl⟩
  obtain ⟨i, hi⟩ := hsold
  have hclaim : g.state.claimant o = some i := hk.inv.tenures.mine t o i (by rw [hi]; rfl)
  have hclaim' : g'.state.claimant o = some i := by
    rw [hstate, ← hclaim]
    exact World.claimant_other (fun _ _ h => by cases h) fun _ h => by cases h
  obtain ⟨os, hos⟩ : ∃ os, g.hist t i = some os :=
    Option.isSome_iff_exists.mp (hk.inv.pledged t i (by rw [hi]; rfl))
  have hown : ∀ o' ∈ os, o' = o := by
    have hcond := Pool.meets_run hm hp hl
    simpa [soleBooking, assignsOrder, hclaim, hos] using hcond
  have hrecord : g'.hist t i = some (o :: os) := by
    simp [hhist, recordBookings, checksInspector, assignsOrder, hafter, hos, hclaim']
  refine ⟨i, hclaim', fun o' r hr hid hb => ?_⟩
  rcases List.mem_cons.mp (hk'.inv.listed t i (o :: os) hrecord o' r hr hid hb) with h | h
  · exact h
  · exact hown o' h

end Runs

section Race

/-- The inspector who named a price for order 1 is also offered order 2. -/
def twoOrdersWorld : World := { saleWorld with
  orders := saleWorld.orders.set 2 paidOrder
  offers := saleWorld.offers.set 3 { pendingOffer 8 with orderId := 2 }
  payments := saleWorld.payments.set 7
    { heldPayment with orderId := some 2, stripePaymentIntentId := some 11 }
  provider := ⟨saleWorld.provider.intents.set 11 ⟨10000, .requiresCapture⟩, .empty, .empty⟩ }

/-- The customer of order 1 has paid the inspector's price; the inspector accepts order 2. -/
def finalizeAndAccept : Run Bookings :=
  launch twoOrdersWorld (fun _ _ => none) [.finalizeCounterOfferPayment 6 1, .acceptOffer 3 8]

theorem finalizeAndAccept_books :
    ∀ op ∈ [Op.finalizeCounterOfferPayment 6 1, .acceptOffer 3 8], op.books := by
  simp [Op.books]

/-- Whether order 1 is assigned and who has claimed it, whether inspector 8 works on order 2, and
what the counter-offer payment assigns next. -/
structure BookingView where
  assigned : Bool
  claimant : Option UserId
  working : Bool
  next : Option (Option OrderId)
  deriving DecidableEq

def bookings (g : Run Bookings) : BookingView where
  assigned := g.state.assignedOrder 1
  claimant := g.state.claimant 1
  working := (g.state.orders.get 2).any fun r => r.inspectorId = some 8 && r.status ∈ busyStatuses
  next := (g.threads[0]?.bind Prog.label).map assignsOrder

/-- The payment finds the inspector free, the inspector accepts the other order, and the payment
assigns its own. -/
theorem booked_twice : ¬ DoubleBookingLaw anyStep := by
  intro hlaw
  have hrun : Pool.observe machine recordBookings anyStep bookings
      (goes 0 5 ++ goes 1 21 ++ goes 0 17) (.run 0 .ok) finalizeAndAccept =
      some (⟨false, some 8, true, some (some 1)⟩, ⟨true, some 8, true, some none⟩) := by
    decide +kernel
  obtain ⟨g, g', hg, hm, hs, hbefore, hafter⟩ := Pool.observe_eq hrun
  obtain ⟨l, hl, hassign⟩ := Option.map_eq_some_iff.mp (congrArg BookingView.next hbefore)
  obtain ⟨p, hp, hl⟩ := Option.bind_eq_some_iff.mp hl
  obtain ⟨i, hi, honly⟩ :=
    hlaw _ _ g g' 0 .ok _ p l 1 finalizeAndAccept_books hg hm hs rfl rfl hp hl
    hassign (congrArg BookingView.assigned hbefore) (congrArg BookingView.assigned hafter)
  obtain ⟨r, hr, hother⟩ := (Option.any_eq_true _ _).mp (congrArg BookingView.working hafter)
  simp only [Bool.and_eq_true, decide_eq_true_eq] at hother
  cases hi.symm.trans (congrArg BookingView.claimant hafter)
  exact absurd (honly 2 r hr hother.1 hother.2) (by decide)

/-- The payment alone assigns order 1, the inspector's only one. -/
theorem single_booking_sale : ∃ g : Run Bookings, bookings g = ⟨true, some 8, false, some none⟩ ∧
    SingleBooking 1 g.state := by
  have hrun : Pool.observe machine recordBookings soleBooking bookings (goes 0 22) (.run 0 .ok)
      finalizeAndAccept =
      some (⟨false, some 8, false, some (some 1)⟩, ⟨true, some 8, false, some none⟩) := by
    decide +kernel
  obtain ⟨g, g', hg, hm, hs, hbefore, hafter⟩ := Pool.observe_eq hrun
  obtain ⟨l, hl, hassign⟩ := Option.map_eq_some_iff.mp (congrArg BookingView.next hbefore)
  obtain ⟨p, hp, hl⟩ := Option.bind_eq_some_iff.mp hl
  exact ⟨g', hafter, single_booking _ _ g g' 0 .ok _ p l 1 finalizeAndAccept_books hg hm hs rfl rfl
    hp hl hassign (congrArg BookingView.assigned hbefore) (congrArg BookingView.assigned hafter)⟩

end Race

end CarSalePro
