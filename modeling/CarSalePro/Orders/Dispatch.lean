import CarSalePro.Orders.CounterOfferQueue

namespace CarSalePro

open Interleave Prog OrderStatus

/-- How many candidates a quote and a dispatch look at. -/
def candidateLimit : Nat := 10

/-- A candidate with the price the job is offered to them at. -/
structure PricedCandidate where
  candidate : Candidate
  price : PriceBreakdown
  ownPriceCents : Cents
  concessionCents : Nat
  deriving DecidableEq, Repr

/-- The candidate's own price, or the authorised total when that is less. -/
def priceCandidate (order : Order) (own : PriceBreakdown) (candidate : Candidate) :
    PricedCandidate where
  candidate := candidate
  price := if own.totalCents ≤ order.totalCents then own
    else ⟨order.totalCents, order.platformFeeCents, order.inspectorShareCents⟩
  ownPriceCents := own.totalCents
  concessionCents := (own.totalCents - order.totalCents).natAbs

/-- Smallest concession first; the nearest breaks a tie. -/
def compareCandidates (a b : PricedCandidate) : Bool :=
  a.concessionCents < b.concessionCents ||
    (a.concessionCents = b.concessionCents && a.candidate.distance ≤ b.candidate.distance)

/-- The candidate to offer the order to next. The tariffs the prices come from are read in one
step. -/
def bestPoolCandidate (id : OrderId) (order : Order) (candidates : List Candidate) :
    Act (Option PricedCandidate) := do
  let priced ← fetch (.dispatch id) fun w => candidates.map fun c =>
    priceCandidate order (w.priceOf w.now id c.userId) c
  pure (priced.insertionSort fun a b => compareCandidates a b).head?

/-- A customer is paying for a counter-offer on this order. -/
def counterOfferPaymentLock (id : OrderId) : Act Bool :=
  fetch (.counterOfferPaymentLock id) fun w => w.counterOffers.any fun _ c =>
    c.orderId = id && c.status = .accepting && c.acceptingUntil.any (w.now < ·)

/-- Inspectors the order is not offered to: a refusal and a live offer exclude for ever, an
expired offer for its own round. -/
def excludedInspectors (id : OrderId) (order : Order) (w : World) : List UserId :=
  (w.offers.findMany fun _ o => o.orderId = id && (o.status = .declined || o.status = .pending ||
    o.status = .accepted || (o.status = .expired && o.round = order.dispatchRound))).map
      fun o => o.2.inspectorId

/-- `findNearestInspectors`: the nearest who are not excluded, never the customer. -/
def findNearestInspectors (id : OrderId) (order : Order) (excluded : List UserId) :
    Act (List Candidate) :=
  fetch (.dispatch id) fun w => ((w.nearby w.now id).filter fun c =>
    c.userId ∉ excluded && c.userId ≠ order.customerId).take candidateLimit

def offerTo (id : OrderId) (order : Order) (chosen : PricedCandidate) : Act Unit := do
  let settings ← readSettings
  let now ← readClock
  issue (.offer (.create {
    orderId := id
    inspectorId := chosen.candidate.userId
    status := .pending
    expiresAt := now + minutes settings.offerTimeoutMinutes
    round := order.dispatchRound
    priceCents := some chosen.price.totalCents
    platformFeeCents := some chosen.price.platformFeeCents
    inspectorShareCents := some chosen.price.inspectorShareCents }))
  note id .system .offerSent

/-- Offer the order to the best inspector not asked yet; with nobody left it becomes
`unassigned`. -/
def dispatch (id : OrderId) : Act Bool := do
  match ← fetch (.dispatch id) (·.orders.get id) with
  | none => pure false
  | some order =>
    if order.status ≠ paid ∧ order.status ≠ unassigned then pure false
    else do
      if ← counterOfferPaymentLock id then pure false
      else do
        let _ ← requireOrderAt (.dispatch id) id
        let _ ← readSettings
        let excluded ← fetch (.dispatch id) (excludedInspectors id order)
        let candidates ← findNearestInspectors id order excluded
        match ← bestPoolCandidate id order candidates with
        | some chosen => do
          offerTo id order chosen
          pure true
        | none => do
          Prog.when (order.status ≠ unassigned) (transition id unassigned .system)
          pure false

/-- The statements of a dispatch. -/
inductive DispatchStmt (id : OrderId) : Stmt → Prop where
  | offer (o : OrderOffer) (h : o.status = .pending) : DispatchStmt id (.offer (.create o))
  | unassign (source legal) : DispatchStmt id (.order (.transition id source unassigned legal))
  | event (e) : DispatchStmt id (.event e)

section Footprints

variable (id : OrderId) (order : Order) {A : Stmt → Prop}

theorem only_offerTo (chosen : PricedCandidate)
    (ho : ∀ x : OrderOffer, x.orderId = id → x.status = .pending → A (.offer (.create x)))
    (he : ∀ e, A (.event e)) : (offerTo id order chosen).Only A :=
  Only.seq only_readSettings fun _ => Only.seq only_readClock fun _ =>
    Only.seq (only_issue (ho _ rfl rfl)) fun _ => only_note _ _ _ he

theorem only_bestPoolCandidate (candidates : List Candidate) :
    (bestPoolCandidate id order candidates).Only A :=
  Only.seq (only_fetch _ _) fun _ => only_pure _

/-- A transition to a status other than `assigned`. -/
theorem only_transition_plain (target : OrderStatus) (actor : Actor) (ht : target ≠ assigned)
    (hs : ∀ source legal, A (.order (.transition id source target legal)))
    (he : ∀ e, A (.event e)) : (transition id target actor).Only A := by
  refine Only.seq (only_requireOrderAt _ _) fun order => Only.ite (fun _ => only_pure _) fun _ => ?_
  split
  next legal =>
    refine Only.seq (only_issue (hs _ _)) fun _ => ?_
    exact Only.seq (only_writeEvent _ _ _ _ _ _ he) fun _ => Only.when fun h => absurd h ht
  next => exact only_fail _ _ _

/-- A dispatch makes offers of its order, or gives the order back to wait. -/
theorem only_dispatchOf
    (ho : ∀ x : OrderOffer, x.orderId = id → x.status = .pending → A (.offer (.create x)))
    (hs : ∀ source legal, A (.order (.transition id source unassigned legal)))
    (he : ∀ e, A (.event e)) : (dispatch id).Only A := by
  refine Only.seq (only_fetch _ _) fun found => ?_
  split
  · exact only_pure _
  · refine Only.ite (fun _ => only_pure _) fun _ => ?_
    refine Only.seq (only_fetch _ _) fun locked => Only.ite (fun _ => only_pure _) fun _ => ?_
    refine Only.seq (only_requireOrderAt _ _) fun _ => Only.seq only_readSettings fun _ => ?_
    refine Only.seq (only_fetch _ _) fun excluded => Only.seq (only_fetch _ _) fun candidates => ?_
    refine Only.seq (only_bestPoolCandidate _ _ _) fun chosen => ?_
    split
    · exact Only.seq (only_offerTo _ _ _ ho he) fun _ => only_pure _
    · refine Only.seq (Only.when fun _ => ?_) fun _ => only_pure _
      exact only_transition_plain _ _ _ (by decide) hs he

theorem only_dispatch : (dispatch id).Only (DispatchStmt id) :=
  only_dispatchOf id (fun _ _ => .offer _) .unassign .event

end Footprints

end CarSalePro
