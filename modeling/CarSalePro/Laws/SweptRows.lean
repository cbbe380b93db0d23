import CarSalePro.Interleave.Rounds
import CarSalePro.Orders.Sweeps

namespace CarSalePro

open Interleave Prog OrderStatus

/-- One selection of a sweep: the rows that are due, in the order they are taken, how many one
round takes, whether an error ends the round, and what is done with a row. -/
structure Selection where
  Row : Type
  Answer : Type
  due : World → List (Nat × Row)
  limit : Option Nat
  stops : Bool
  body : Time → Nat × Row → Act Answer

/-- The sweeps over orders, offers and payments. The reconciler makes four selections. -/
inductive Sweep where
  | redispatchUnfilledOrders (limit : Nat)
  | reconcileWaiting (limit : Nat)
  | reconcileWorking (limit : Nat)
  | reconcileStranded (limit : Nat)
  | reconcileAbandoned (limit : Nat)
  | autoApproveOverdue
  | expireStaleOffers

/-- What is guarded of `releaseStrandedHold`. -/
def strandedBody (r : PaymentId × Payment) : Act Bool :=
  match r.2.orderId with
  | none => pure false
  | some id => do
    match ← fetch .reconcile (·.orders.get id) with
    | none => pure false
    | some _ => do
      let outcome ← releaseAuthorization id r.1 r.2 .reconcileStrandedHold
      pure (decide (outcome.status = .released))

/-- What is guarded of `captureWorking`. -/
def workingBody (r : PaymentId × Payment) : Act Bool :=
  match r.2.orderId with
  | none => pure false
  | some id => do
    let outcome ← captureOrderPayment id none
    pure (decide (outcome = .captured))

/-- What is guarded of `releaseAbandonedHold`. -/
def abandonedBody (r : PaymentId × Payment) : Act Bool :=
  match r.2.stripePaymentIntentId with
  | none => pure false
  | some intent => do
    let asked ← cancelUnlessCanceled r.1 intent
    quietly (perform (.payment (.release r.1)))
    pure asked

def Sweep.selection : Sweep → Selection
  | .redispatchUnfilledOrders limit =>
    { Row := Order
      Answer := Bool
      due := fun w => w.orders.findSorted
        (fun _ o => o.status = unassigned && o.inspectorId.isNone &&
          o.searchExpiresAt.any (w.now < ·)) earlierDeadline w.orders.keys.length
      limit := some limit
      stops := false
      body := fun now o => redispatchOrder now o.1 }
  | .reconcileWaiting limit =>
    { Row := Payment
      Answer := Bool
      due := fun w =>
        stuckPayments w.now w.payments.keys.length Payment.uncaptured preAssignmentStatuses w
      limit := some limit
      stops := false
      body := fun _ r => reconcileWaitingPayment r.1 r.2 }
  | .reconcileWorking limit =>
    { Row := Payment
      Answer := Bool
      due := fun w =>
        stuckPayments w.now w.payments.keys.length Payment.uncaptured postAssignmentStatuses w
      limit := some limit
      stops := false
      body := fun _ r => workingBody r }
  | .reconcileStranded limit =>
    { Row := Payment
      Answer := Bool
      due := fun w => stuckPayments w.now w.payments.keys.length (·.status = .authorized)
        [cancelled, refunded] w
      limit := some limit
      stops := false
      body := fun _ r => strandedBody r }
  | .reconcileAbandoned limit =>
    { Row := Payment
      Answer := Bool
      due := fun w => w.payments.findSorted (fun _ p => p.abandonedHold w.now) earlierPayment
        w.payments.keys.length
      limit := some limit
      stops := false
      body := fun _ r => abandonedBody r }
  | .autoApproveOverdue =>
    { Row := Order
      Answer := Unit
      due := fun w => w.orders.findMany fun _ o =>
        o.status = submitted && o.autoApproveAt.any (· < w.now)
      limit := none
      stops := true
      body := fun _ o => do
        transition o.1 approved .system
        let _ ← releasePayout o.1
        pure () }
  | .expireStaleOffers =>
    { Row := OrderOffer
      Answer := Unit
      due := fun w => w.offers.findMany fun _ o => o.status = .pending && o.expiresAt < w.now
      limit := none
      stops := true
      body := fun _ offer => do
        issue (.offer (.update offer.1 .expired))
        let _ ← fetch .expireStaleOffers (·.orders.get offer.2.orderId)
        let _ ← dispatch offer.2.orderId
        pure () }

/-- A round of a sweep: the world its rows were selected in, and its pass over them. -/
structure SweepRound (s : Selection) where
  selectedAt : World
  start : World
  stop : World
  seen : List ((Nat × s.Row) × Bool)
  pass : Pass machine s.stops (s.body selectedAt.now) (firstOf s.limit (s.due selectedAt))
    start seen stop

namespace SweepRound

variable {s : Selection}

/-- The rows that are due when the round selects. -/
def due (r : SweepRound s) : List Nat := (s.due r.selectedAt).map Prod.fst

/-- The rows whose processing begins. -/
def processed (r : SweepRound s) : List Nat := r.seen.map (·.1.1)

end SweepRound

section Runs

variable {w w' : World}

theorem take_findSorted {ν : Type} (t : Store.Table Nat ν) (p : Nat → ν → Bool)
    (le : ν → ν → Bool) (limit : Nat) :
    (t.findSorted p le t.keys.length).take limit = t.findSorted p le limit := by
  have hlength : (t.findMany p).length ≤ t.keys.length := List.length_filterMap_le _ _
  have hall : t.findSorted p le t.keys.length =
      (t.findMany p).insertionSort fun a b => le a.2 b.2 :=
    List.take_of_length_le (by rwa [List.length_insertionSort])
  rw [hall]
  rfl

theorem releaseStrandedHold_eq (r : PaymentId × Payment) :
    releaseStrandedHold r.1 r.2 = guarded (strandedBody r) := by
  unfold releaseStrandedHold strandedBody
  cases r.2.orderId <;> rfl

theorem captureWorking_eq (r : PaymentId × Payment) :
    captureWorking r.2 = guarded (workingBody r) := by
  unfold captureWorking workingBody
  cases r.2.orderId <;> rfl

theorem releaseAbandonedHold_eq (r : PaymentId × Payment) :
    releaseAbandonedHold r.1 r.2 = guarded (abandonedBody r) := by
  unfold releaseAbandonedHold abandonedBody
  cases r.2.stripePaymentIntentId <;> rfl

/-- A run of the sweep that ends with an answer is a round. -/
theorem round_redispatch {limit n : Nat}
    (h : Runs machine (redispatchUnfilledOrders limit) w (.ok n) w') :
    ∃ r : SweepRound (Sweep.redispatchUnfilledOrders limit).selection,
      r.selectedAt = w ∧ r.start = w ∧ r.stop = w' := by
  obtain ⟨now, w₁, hclock, h⟩ := Runs.of_bind_ok h
  obtain ⟨rfl, rfl⟩ := Runs.of_fetch_ok hclock
  obtain ⟨rows, w₂, hrows, h⟩ := Runs.of_bind_ok h
  obtain ⟨rfl, rfl⟩ := Runs.of_fetch_ok hrows
  obtain ⟨seen, hpass⟩ := Runs.pass_countEach h
  rw [← take_findSorted] at hpass
  exact ⟨⟨w₂, w₂, w', seen, hpass⟩, rfl, rfl, rfl⟩

/-- A run of the sweep is a round, or its rows could not be read. -/
theorem round_autoApprove {a : Except Err Nat} (h : Runs machine autoApproveOverdue w a w') :
    (∃ r : SweepRound Sweep.autoApproveOverdue.selection,
      r.selectedAt = w ∧ r.start = w ∧ r.stop = w') ∨ ∃ e, a = .error e ∧ w' = w := by
  obtain ⟨rows, w₁, hrows, h⟩ | ⟨e, hrows, he⟩ := Runs.of_bind h
  · obtain ⟨rfl, rfl⟩ := Runs.of_fetch_ok hrows
    obtain ⟨a', hloop⟩ := Runs.of_bind_ret h
    obtain ⟨seen, hpass⟩ := Runs.pass_forEach hloop
    exact .inl ⟨⟨w₁, w₁, w', seen, hpass⟩, rfl, rfl, rfl⟩
  · exact .inr ⟨e, he, (Runs.of_fetch hrows).1⟩

theorem round_expireStaleOffers {a : Except Err Nat} (h : Runs machine expireStaleOffers w a w') :
    (∃ r : SweepRound Sweep.expireStaleOffers.selection,
      r.selectedAt = w ∧ r.start = w ∧ r.stop = w') ∨ ∃ e, a = .error e ∧ w' = w := by
  obtain ⟨rows, w₁, hrows, h⟩ | ⟨e, hrows, he⟩ := Runs.of_bind h
  · obtain ⟨rfl, rfl⟩ := Runs.of_fetch_ok hrows
    obtain ⟨a', hloop⟩ := Runs.of_bind_ret h
    obtain ⟨seen, hpass⟩ := Runs.pass_forEach hloop
    exact .inl ⟨⟨w₁, w₁, w', seen, hpass⟩, rfl, rfl, rfl⟩
  · exact .inr ⟨e, he, (Runs.of_fetch hrows).1⟩

/-- The counter-offer holds are looked at first, and only with Stripe there. -/
theorem round_abandoned {limit n : Nat}
    (h : Runs machine (reconcileAbandonedCounterOfferHolds w.now limit) w (.ok n) w') :
    w' = w ∨ ∃ r : SweepRound (Sweep.reconcileAbandoned limit).selection,
      r.selectedAt = w ∧ r.start = w ∧ r.stop = w' := by
  obtain ⟨configured, w₁, hconfig, h⟩ := Runs.of_bind_ok h
  obtain ⟨rfl, -⟩ := Runs.of_fetch_ok hconfig
  cases configured with
  | false =>
    cases h
    exact .inl rfl
  | true =>
    obtain ⟨rows, w₂, hrows, h⟩ := Runs.of_bind_ok h
    obtain ⟨rfl, rfl⟩ := Runs.of_fetch_ok hrows
    simp only [releaseAbandonedHold_eq] at h
    obtain ⟨seen, hpass⟩ := Runs.pass_countEach h
    rw [← take_findSorted] at hpass
    exact .inr ⟨⟨w₂, w₂, w', seen, hpass⟩, rfl, rfl, rfl⟩

/-- A run of the reconciler that ends with an answer is a round over each of its selections. All
of them are made at its start, and worked through one after another. -/
theorem round_reconcile {limit n : Nat}
    (h : Runs machine (reconcileStuckOrderPayments limit) w (.ok n) w') :
    ∃ stranded : SweepRound (Sweep.reconcileStranded limit).selection,
    ∃ working : SweepRound (Sweep.reconcileWorking limit).selection,
    ∃ waiting : SweepRound (Sweep.reconcileWaiting limit).selection,
      (stranded.start = w ∨ ∃ abandoned : SweepRound (Sweep.reconcileAbandoned limit).selection,
        abandoned.selectedAt = w ∧ abandoned.start = w ∧ abandoned.stop = stranded.start) ∧
      stranded.selectedAt = w ∧ working.selectedAt = w ∧ waiting.selectedAt = w ∧
      working.start = stranded.stop ∧ waiting.start = working.stop ∧ waiting.stop = w' := by
  obtain ⟨now, w₁, hclock, h⟩ := Runs.of_bind_ok h
  obtain ⟨rfl, rfl⟩ := Runs.of_fetch_ok hclock
  obtain ⟨waiting, w₂, hwaiting, h⟩ := Runs.of_bind_ok h
  obtain ⟨rfl, rfl⟩ := Runs.of_fetch_ok hwaiting
  obtain ⟨working, w₃, hworking, h⟩ := Runs.of_bind_ok h
  obtain ⟨rfl, rfl⟩ := Runs.of_fetch_ok hworking
  obtain ⟨stranded, w₄, hstranded, h⟩ := Runs.of_bind_ok h
  obtain ⟨rfl, rfl⟩ := Runs.of_fetch_ok hstranded
  obtain ⟨a₁, w₁, habandoned, h⟩ := Runs.of_bind_ok h
  obtain ⟨a₂, w₂, hreleased, h⟩ := Runs.of_bind_ok h
  obtain ⟨a₃, w₃, hcaptured, h⟩ := Runs.of_bind_ok h
  obtain ⟨a₄, hadvanced⟩ := Runs.of_bind_ret h
  simp only [releaseStrandedHold_eq] at hreleased
  simp only [captureWorking_eq] at hcaptured
  obtain ⟨seen₂, hstranded⟩ := Runs.pass_countEach hreleased
  obtain ⟨seen₃, hworking⟩ := Runs.pass_countEach hcaptured
  obtain ⟨seen₄, hwaiting⟩ := Runs.pass_countEach hadvanced
  unfold stuckPayments at hstranded hworking hwaiting
  rw [← take_findSorted] at hstranded hworking hwaiting
  exact ⟨⟨w₄, w₁, w₂, seen₂, hstranded⟩, ⟨w₄, w₂, w₃, seen₃, hworking⟩,
    ⟨w₄, w₃, w', seen₄, hwaiting⟩, round_abandoned habandoned, rfl, rfl, rfl, rfl, rfl, rfl⟩

end Runs

section Scenario

variable {s : Selection} {throws leaves : Nat → Bool}

/-- What is known of the rows: which throw each time, and which leave once they are processed. -/
def Selection.sweeping (s : Selection) (throws leaves : Nat → Bool) : Sweeping Nat :=
  ⟨s.limit, s.stops, throws, leaves⟩

/-- Round after round: the same rows are due, but for those that were processed and left. -/
def Unfolds (s : Selection) (throws leaves : Nat → Bool) :
    List Nat → List (SweepRound s) → Prop
  | _, [] => True
  | due, r :: rounds => r.due = due ∧ (∀ x ∈ r.seen, x.2 = throws x.1.1) ∧
      Unfolds s throws leaves ((s.sweeping throws leaves).next due) rounds

theorem SweepRound.processed_eq (leaves : Nat → Bool) {r : SweepRound s}
    (ht : ∀ x ∈ r.seen, x.2 = throws x.1.1) :
    r.processed = (s.sweeping throws leaves).reached r.due := by
  have hrows := r.pass.rows (fun x => throws x.1) ht
  have hkeys : r.processed = (r.seen.map Prod.fst).map Prod.fst := by
    rw [List.map_map]
    rfl
  rw [hkeys, hrows, rowsReached_map, firstOf_map]
  rfl

theorem Unfolds.processed {due : List Nat} {rounds : List (SweepRound s)}
    (h : Unfolds s throws leaves due rounds) {d : Nat} :
    (∃ r ∈ rounds, d ∈ r.processed) ↔
      ∃ i < rounds.length, d ∈ (s.sweeping throws leaves).reached
        ((s.sweeping throws leaves).next^[i] due) := by
  induction rounds generalizing due with
  | nil => simp
  | cons r rounds ih =>
    obtain ⟨rfl, hthrows, hrest⟩ := h
    have hfirst := SweepRound.processed_eq leaves hthrows
    constructor
    · rintro ⟨r', hr', hd⟩
      rcases List.mem_cons.mp hr' with rfl | hr'
      · exact ⟨0, Nat.succ_pos _, hfirst ▸ hd⟩
      · obtain ⟨i, hi, hd⟩ := (ih hrest).mp ⟨r', hr', hd⟩
        exact ⟨i + 1, Nat.succ_lt_succ hi, hd⟩
    · rintro ⟨i, hi, hd⟩
      cases i with
      | zero => exact ⟨r, List.mem_cons_self, hfirst ▸ hd⟩
      | succ i =>
        obtain ⟨r', hr', hd⟩ := (ih hrest).mpr ⟨i, Nat.lt_of_succ_lt_succ hi, hd⟩
        exact ⟨r', List.mem_cons_of_mem r hr', hd⟩

/-- Repeated as often as rows are due, a sweep comes to all that do not throw, exactly if before
each of them fewer rows than one batch stay due and, where an error ends the round, none throws. -/
theorem rows_swept (sweep : Sweep) (throws leaves : Nat → Bool) (due : List Nat)
    (rounds : List (SweepRound sweep.selection))
    (hrounds : Unfolds sweep.selection throws leaves due rounds)
    (hmany : due.length ≤ rounds.length) :
    (∀ d ∈ due, throws d = false → ∃ r ∈ rounds, d ∈ r.processed) ↔
      ∀ before d behind, due = before ++ d :: behind → d ∉ before → throws d = false →
        (sweep.selection.sweeping throws leaves).Clear before := by
  constructor
  · intro hall before d behind hdue hd hthrows
    have hlt : before.length < rounds.length := by
      rw [hdue, List.length_append, List.length_cons] at hmany
      omega
    have hin : d ∈ due := hdue ▸ List.mem_append_right before List.mem_cons_self
    have hreached := hrounds.processed.mp (hall d hin hthrows)
    rw [hdue] at hreached
    exact (Sweeping.reached_iff hd hlt).mp hreached
  · intro hclear d hin hthrows
    obtain ⟨before, behind, hdue, hd⟩ := List.eq_append_cons_of_mem hin
    have hlt : before.length < rounds.length := by
      rw [hdue, List.length_append, List.length_cons] at hmany
      omega
    have hbefore := hclear before d behind hdue hd hthrows
    apply hrounds.processed.mpr
    rw [hdue]
    exact (Sweeping.reached_iff hd hlt).mpr hbefore

/-- Some number of rounds comes to every due row that does not throw. -/
def SweepLaw (sweep : Sweep) : Prop :=
  ∀ throws leaves : Nat → Bool, ∀ due, ∃ n, ∀ rounds : List (SweepRound sweep.selection),
    rounds.length = n → Unfolds sweep.selection throws leaves due rounds →
      ∀ d ∈ due, throws d = false → ∃ r ∈ rounds, d ∈ r.processed

def overdueOrder : Order :=
  ⟨3, some 7, submitted, 4000, 667, 3333, none, none, none, some 0, some 1000, 1⟩

/-- Two submitted reports nobody answered. -/
def twoOverdue : World :=
  { World.empty with
    now := 2000
    orders := (Store.Table.empty.set 1 overdueOrder).set 2 overdueOrder }

theorem twoOverdue_due : Sweep.autoApproveOverdue.selection.due twoOverdue =
    [(1, overdueOrder), (2, overdueOrder)] := by
  have hrows : (twoOverdue.orders.findMany fun _ o =>
      o.status = submitted && o.autoApproveAt.any (· < twoOverdue.now)) =
      [(1, overdueOrder), (2, overdueOrder)] := by decide +kernel
  exact hrows

/-- The approval of the first order fails, and with it the round. -/
theorem first_throws : Prog.Runs machine
    (Sweep.autoApproveOverdue.selection.body twoOverdue.now (1, overdueOrder)) twoOverdue
    (.error .database) twoOverdue :=
  .ask .down (.raise _ _)

def blockedRound : SweepRound Sweep.autoApproveOverdue.selection where
  selectedAt := twoOverdue
  start := twoOverdue
  stop := twoOverdue
  seen := [((1, overdueOrder), true)]
  pass := by
    rw [twoOverdue_due]
    exact .stop rfl first_throws

theorem unfolds_blocked (n : Nat) : Unfolds Sweep.autoApproveOverdue.selection (· = 1)
    (fun _ => true) [1, 2] (List.replicate n blockedRound) := by
  induction n with
  | zero => trivial
  | succ n ih =>
    have hdue : blockedRound.due = [1, 2] := by
      show (Sweep.autoApproveOverdue.selection.due twoOverdue).map Prod.fst = [1, 2]
      rw [twoOverdue_due]
      rfl
    exact ⟨hdue, by simp [blockedRound], ih⟩

/-- A replacement hold nothing reaches any more, of an intent that Stripe has cancelled. -/
def abandonedRow (intent : IntentId) : Payment :=
  ⟨some 3, .orderCounterOffer, 6000, .authorized, some intent, some 0, none, none, some 0, 0⟩

def twoAbandoned : World :=
  { World.empty with
    now := 100000000
    payments := (Store.Table.empty.set 1 (abandonedRow 8)).set 2 (abandonedRow 9)
    provider := { World.empty.provider with
      intents := (Store.Table.empty.set 8 ⟨6000, .canceled⟩).set 9 ⟨6000, .canceled⟩ } }

theorem twoAbandoned_due : (Sweep.reconcileAbandoned 2).selection.due twoAbandoned =
    [(1, abandonedRow 8), (2, abandonedRow 9)] := by
  have hrows : (twoAbandoned.payments.findSorted (fun _ p => p.abandonedHold twoAbandoned.now)
      earlierPayment twoAbandoned.payments.keys.length) =
      [(1, abandonedRow 8), (2, abandonedRow 9)] := by decide +kernel
  exact hrows

/-- Stripe does not answer for the first hold. -/
theorem first_unanswered : Prog.Runs machine
    ((Sweep.reconcileAbandoned 2).selection.body twoAbandoned.now (1, abandonedRow 8)) twoAbandoned
    (.error (.stripe .connection)) twoAbandoned :=
  .ask .down (.raise _ _)

/-- The second is found cancelled, and its row stays as it is. -/
theorem second_done : Prog.Runs machine
    ((Sweep.reconcileAbandoned 2).selection.body twoAbandoned.now (2, abandonedRow 9)) twoAbandoned
    (.ok false) twoAbandoned :=
  .ask .ok (.call .down (.ret false twoAbandoned))

def passedRound : SweepRound (Sweep.reconcileAbandoned 2).selection where
  selectedAt := twoAbandoned
  start := twoAbandoned
  stop := twoAbandoned
  seen := [((1, abandonedRow 8), true), ((2, abandonedRow 9), false)]
  pass := by
    rw [twoAbandoned_due]
    exact .skip rfl first_unanswered (.done second_done (.nil _))

theorem unfolds_passed (n : Nat) : Unfolds (Sweep.reconcileAbandoned 2).selection (· = 1)
    (fun _ => false) [1, 2] (List.replicate n passedRound) := by
  induction n with
  | zero => trivial
  | succ n ih =>
    have hdue : passedRound.due = [1, 2] := by
      show ((Sweep.reconcileAbandoned 2).selection.due twoAbandoned).map Prod.fst = [1, 2]
      rw [twoAbandoned_due]
      rfl
    exact ⟨hdue, by simp [passedRound], ih⟩

/-- In front of the second order is one that ends every round, in front of the second hold one
that each round passes over. -/
theorem rows_swept_blocked :
    ((∀ d ∈ [1, 2], decide (d = 1) = false → ∃ r ∈ List.replicate 2 blockedRound,
      d ∈ r.processed) ↔
      ∀ before d behind, [1, 2] = before ++ d :: behind → d ∉ before → decide (d = 1) = false →
        (Sweep.autoApproveOverdue.selection.sweeping (· = 1) fun _ => true).Clear before) ∧
    ∀ d ∈ [1, 2], decide (d = 1) = false → ∃ r ∈ List.replicate 2 passedRound,
      d ∈ r.processed := by
  refine ⟨rows_swept .autoApproveOverdue _ _ _ _ (unfolds_blocked 2) (Nat.le_refl 2),
    (rows_swept (.reconcileAbandoned 2) (· = 1) (fun _ => false) [1, 2] _ (unfolds_passed 2)
      (Nat.le_refl 2)).mpr ?_⟩
  intro before d behind hdue hd hthrows
  have hlength : before.length < 2 := by
    have hall := congrArg List.length hdue
    rw [List.length_append, List.length_cons] at hall
    simp only [List.length_cons, List.length_nil] at hall
    omega
  refine ⟨fun hstops => absurd hstops Bool.false_ne_true, fun n hn => ?_⟩
  cases hn
  exact lt_of_le_of_lt (List.length_filter_le _ _) hlength

/-- As often as the sweep is repeated, it never comes to the second order. -/
theorem second_starves : ¬ ∀ sweep, SweepLaw sweep := by
  intro hlaw
  obtain ⟨n, hn⟩ := hlaw .autoApproveOverdue (· = 1) (fun _ => true) [1, 2]
  obtain ⟨r, hr, hin⟩ := hn (List.replicate n blockedRound) List.length_replicate
    (unfolds_blocked n) 2 (by simp) rfl
  rw [List.eq_of_mem_replicate hr] at hin
  simp [SweepRound.processed, blockedRound] at hin

end Scenario

end CarSalePro
