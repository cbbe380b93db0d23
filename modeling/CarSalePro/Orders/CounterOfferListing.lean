import CarSalePro.Orders.CounterOfferCreation

namespace CarSalePro

open Interleave Prog OrderStatus

section Rules

/-- The percentage a conversion works with: none, where it makes no sense. -/
def readPercent (platformFeePercent : ℚ) : ℚ :=
  if 0 < platformFeePercent then platformFeePercent else 0

/-- The payout that a customer's total leaves. -/
def counterOfferPayoutFromTotal (totalCents : Cents) (platformFeePercent : ℚ) : Cents :=
  mathRound ((max 0 totalCents : Cents) / (1 + readPercent platformFeePercent / 100))

/-- The correction loop: the payout is lowered by a cent until its total fits. The second number is
how often the loop ran. -/
def lowerToFit (ceilingTotalCents : Cents) (platformFeePercent : ℚ) : Nat → Nat × Nat
  | 0 => (0, 0)
  | payout + 1 =>
    if ceilingTotalCents < counterOfferTotalFromPayout (payout + 1 : Nat) platformFeePercent then
      let lowered := lowerToFit ceilingTotalCents platformFeePercent payout
      (lowered.1, lowered.2 + 1)
    else (payout + 1, 0)

/-- Where the loop starts: the payout of the ceiling, and no less than none. -/
def uncorrectedPayout (ceilingTotalCents : Cents) (platformFeePercent : ℚ) : Nat :=
  (counterOfferPayoutFromTotal ceilingTotalCents platformFeePercent).toNat

/-- The largest payout that still fits under a ceiling on the customer's total. -/
def counterOfferMaxPayoutCents (ceilingTotalCents : Cents) (platformFeePercent : ℚ) : Cents :=
  (lowerToFit ceilingTotalCents platformFeePercent
    (uncorrectedPayout ceilingTotalCents platformFeePercent)).1

end Rules

/-- The inspector's own price, as the tab shows it. -/
structure MyCounterOffer where
  status : CounterOfferStatus
  priceCents : Cents
  payoutCents : Cents
  presented : Bool
  queuePosition : Nat
  deriving DecidableEq, Repr

/-- An order that pays less than the inspector charges. -/
structure OpenOrder where
  orderId : OrderId
  distanceKm : ℚ
  orderTotalCents : Cents
  orderPayoutCents : Cents
  fairPriceCents : Cents
  fairPayoutCents : Cents
  maxPriceCents : Cents
  maxPayoutCents : Cents
  platformFeePercent : ℚ
  searchExpiresAt : Option Time
  queuedAhead : Nat
  answerDueAt : Option Time
  myCounterOffer : Option MyCounterOffer
  deriving DecidableEq, Repr

/-- How many prices are in front of the inspector's own, or wait in all when there is none. -/
def queuedAhead (user : UserId) (queue : List OrderCounterOffer) (own : Option OrderCounterOffer) :
    Nat :=
  match own.filter (·.status = .pending) with
  | some own => (queue.filter fun c => c.inspectorId ≠ user && (c.presentedAt.isSome ||
      c.priceCents < own.priceCents ||
        (c.priceCents = own.priceCents && c.createdAt < own.createdAt))).length
  | none => queue.length

/-- The inspector's own price, with so many in front of it. -/
def myCounterOffer (ahead : Nat) (own : OrderCounterOffer) : MyCounterOffer where
  status := own.status
  priceCents := own.priceCents
  payoutCents := own.inspectorShareCents
  presented := own.presentedAt.isSome && own.status = .pending
  queuePosition := if own.status = .pending then ahead + 1 else 0

/-- One entry of the tab. -/
def openOrder (user : UserId) (multiplier platformFeePercent : ℚ) (id : OrderId) (order : Order)
    (distanceKm : ℚ) (fair : PriceBreakdown) (queue : List OrderCounterOffer)
    (own : Option OrderCounterOffer) : OpenOrder where
  orderId := id
  distanceKm := distanceKm
  orderTotalCents := order.totalCents
  orderPayoutCents := counterOfferPayoutFromTotal order.totalCents platformFeePercent
  fairPriceCents := fair.totalCents
  fairPayoutCents := counterOfferPayoutFromTotal fair.totalCents platformFeePercent
  maxPriceCents := counterOfferCeilingCents fair.totalCents multiplier
  maxPayoutCents := counterOfferMaxPayoutCents (counterOfferCeilingCents fair.totalCents multiplier)
    platformFeePercent
  platformFeePercent := platformFeePercent
  searchExpiresAt := order.searchExpiresAt
  queuedAhead := queuedAhead user queue own
  answerDueAt := (queue.find? (·.presentedAt.isSome)).map fun c => c.acceptingUntil.getD c.expiresAt
  myCounterOffer := own.map (myCounterOffer (queuedAhead user queue own))

/-- What the loop over the orders within reach has read before it starts. -/
structure OpenSearch where
  waiting : List (OrderId × Order)
  active : List OrderCounterOffer
  mine : List OrderCounterOffer
  multiplier : ℚ
  platformFeePercent : ℚ

namespace OpenSearch

/-- The prices in play on an order. -/
def queue (s : OpenSearch) (id : OrderId) : List OrderCounterOffer :=
  s.active.filter (·.orderId = id)

/-- The inspector's own row on an order. -/
def own (s : OpenSearch) (id : OrderId) : Option OrderCounterOffer :=
  (s.mine.filter (·.orderId = id)).getLast?

def order (s : OpenSearch) (id : OrderId) : Option Order :=
  ((s.waiting.filter (·.1 = id)).getLast?).map (·.2)

end OpenSearch

/-- The entries of the orders within reach whose own total does not cover this inspector. -/
def openOrders (user : UserId) (s : OpenSearch) : List (OrderId × ℚ) → Act (List OpenOrder)
  | [] => pure []
  | (id, distanceKm) :: rest =>
    match s.order id with
    | none => openOrders user s rest
    | some order => do
      let fair ← fetch .fairPriceForInspector fun w => w.fairPriceOf w.now id user distanceKm
      let items ← openOrders user s rest
      if fair.totalCents ≤ order.totalCents then pure items
      else pure (openOrder user s.multiplier s.platformFeePercent id order distanceKm fair
        (s.queue id) (s.own id) :: items)

/-- The orders whose trade is open to this inspector, the newest first. -/
def World.openFor (w : World) (user : UserId) : List (OrderId × Order) :=
  (w.orders.findMany fun id o => o.status = unassigned && o.inspectorId.isNone &&
    1 ≤ o.dispatchRound && o.customerId ≠ user &&
    !(w.offers.any fun _ f => f.orderId = id && f.inspectorId = user && f.status = .declined)
    ).reverse.take 100

/-- The orders this inspector can reach but cannot be offered. The geo query, with the distance it
answers for each order, is the caller's. -/
def listOpenForInspector
    (ordersNearInspector : World → UserId → List OrderId → ℚ → List (OrderId × ℚ))
    (user : UserId) : Act (List OpenOrder) := do
  match ← fetch .listOpenForInspector (·.inspectors.get user) with
  | none => forbidden "You are not an inspector"
  | some _ => do
    assertInspectorPro user
    let waiting ← fetch .listOpenForInspector (·.openFor user)
    if waiting = [] then pure []
    else do
      let settings ← readSettings
      let reachable ← fetch .ordersNearInspector fun w =>
        ordersNearInspector w user (waiting.map (·.1)) settings.expertSearchRadiusKm
      if reachable = [] then pure []
      else do
        let active ← fetch .listOpenForInspector fun w => w.counterOffers.findMany fun _ c =>
          c.orderId ∈ reachable.map (·.1) && (c.status = .pending || c.status = .accepting)
        let mine ← fetch .listOpenForInspector fun w => w.counterOffers.findMany fun _ c =>
          c.orderId ∈ reachable.map (·.1) && c.inspectorId = user
        let settings ← readSettings
        let fee ← readSettings
        openOrders user ⟨waiting, active.map (·.2), mine.map (·.2),
          settings.counterOfferMaxMultiplier, fee.platformFeePercent⟩ reachable

namespace World

/-- The prices in play on an order. -/
def queueOf (w : World) (id : OrderId) : List OrderCounterOffer :=
  (w.counterOffers.findMany fun _ c =>
    c.orderId = id && (c.status = .pending || c.status = .accepting)).map (·.2)

/-- The inspector's row on an order; a unique key keeps them from having two. -/
def ownRow (w : World) (id : OrderId) (user : UserId) : Option OrderCounterOffer :=
  ((w.counterOffers.findMany fun _ c => c.orderId = id && c.inspectorId = user).map (·.2)).getLast?

/-- What the tab tells of an order is what the database has of it. -/
def Lists (w : World) (user : UserId) (item : OpenOrder) : Prop :=
  ∃ order, w.orders.get item.orderId = some order ∧
    order.totalCents < (w.fairPriceOf w.now item.orderId user item.distanceKm).totalCents ∧
    item = openOrder user w.setting.counterOfferMaxMultiplier w.setting.platformFeePercent
      item.orderId order item.distanceKm (w.fairPriceOf w.now item.orderId user item.distanceKm)
      (w.queueOf item.orderId) (w.ownRow item.orderId user)

end World

section Spec

variable {w : World} {user : UserId} {s : OpenSearch} {reachable : List (OrderId × ℚ)}

/-- What was read before the loop is what the database has. -/
structure OpenSearch.Read (s : OpenSearch) (w : World) (user : UserId) (ids : List OrderId) :
    Prop where
  order : ∀ id order, s.order id = some order → w.orders.get id = some order
  queue : ∀ id ∈ ids, s.queue id = w.queueOf id
  own : ∀ id ∈ ids, s.own id = w.ownRow id user
  multiplier : s.multiplier = w.setting.counterOfferMaxMultiplier
  percent : s.platformFeePercent = w.setting.platformFeePercent

theorem openOrders_lists {ids : List OrderId} (hs : s.Read w user ids)
    (hids : ∀ r ∈ reachable, r.1 ∈ ids) :
    Triple machine answering (· = w) (openOrders user s reachable)
      (fun items v => v = w ∧ ∀ item ∈ items, w.Lists user item) fun _ _ => True := by
  induction reachable with
  | nil => exact Triple.pure fun v hv => ⟨hv, by simp⟩
  | cons r rest ih =>
    obtain ⟨id, km⟩ := r
    have hid : id ∈ ids := hids (id, km) (by simp)
    have hrest := ih fun r hr => hids r (List.mem_cons_of_mem _ hr)
    unfold openOrders
    cases horder : s.order id with
    | none => exact hrest
    | some order =>
      apply answered_read
      refine Discipline.Flow.seq hrest fun items => ?_
      refine .ite (fun _ => Triple.pure fun v hv => hv) fun hmore => ?_
      refine Triple.pure fun v hv => ⟨hv.1, fun item hitem => ?_⟩
      rcases List.mem_cons.mp hitem with rfl | hitem
      · refine ⟨order, hs.order id order horder, not_le.mp hmore, ?_⟩
        rw [hs.multiplier, hs.percent, hs.queue id hid, hs.own id hid]
        rfl
      · exact hv.2 item hitem

/-- The rows of one order among those of several. -/
theorem rows_of_order {ids : List OrderId} {id : OrderId} (hid : id ∈ ids)
    (p : OrderCounterOffer → Bool) :
    ((w.counterOffers.findMany fun _ c => c.orderId ∈ ids && p c).map (·.2)).filter
        (·.orderId = id) =
      (w.counterOffers.findMany fun _ c => c.orderId = id && p c).map (·.2) := by
  have hrow (c : OrderCounterOffer) : (c.orderId ∈ ids && p c) = true ∧ (c.orderId = id) ↔
      (decide (c.orderId = id) && p c) = true := by
    constructor
    · rintro ⟨hc, he⟩
      simp only [Bool.and_eq_true, decide_eq_true_eq] at hc ⊢
      exact ⟨he, hc.2⟩
    · intro hc
      simp only [Bool.and_eq_true, decide_eq_true_eq] at hc ⊢
      exact ⟨⟨hc.1 ▸ hid, hc.2⟩, hc.1⟩
  rw [List.filter_map, Store.Table.filter_findMany]
  congr 2
  funext k c
  rw [Bool.eq_iff_iff]
  simpa using hrow c

theorem openFor_get {id : OrderId} {order : Order} (h : (id, order) ∈ w.openFor user) :
    w.orders.get id = some order :=
  (Store.Table.mem_findMany.mp (List.mem_reverse.mp (List.mem_of_mem_take h))).1

/-- The entries of the tab are true. -/
theorem listOpenForInspector_lists
    (ordersNearInspector : World → UserId → List OrderId → ℚ → List (OrderId × ℚ)) :
    Triple machine answering (· = w) (listOpenForInspector ordersNearInspector user)
      (fun items _ => ∀ item ∈ items, w.Lists user item) fun _ _ => True := by
  apply answered_read
  split
  next => exact Triple.throw fun _ _ => trivial
  next =>
    refine Discipline.Flow.seq (B := fun _ P => ∀ v, P v → v = w) ?_ fun _ => ?_
    · apply answered_read
      exact .ite (fun _ => Triple.pure fun v hv => hv) fun _ => Triple.throw fun _ _ => trivial
    apply answered_read
    refine .ite (fun _ => Triple.pure fun v _ => by simp) fun _ => ?_
    apply answered_read
    apply answered_read
    refine .ite (fun _ => Triple.pure fun v _ => by simp) fun _ => ?_
    apply answered_read
    apply answered_read
    apply answered_read
    apply answered_read
    refine Discipline.Flow.post (openOrders_lists (s := ⟨_, _, _, _, _⟩) ⟨?_, ?_, ?_, rfl, rfl⟩
      fun r hr => List.mem_map_of_mem hr) (fun _ _ h v hv => (h v hv).2) fun _ _ h => h
    · intro id order horder
      obtain ⟨⟨id', order'⟩, hlast, rfl⟩ := Option.map_eq_some_iff.mp horder
      have hmem := List.mem_filter.mp (List.mem_of_getLast? hlast)
      have hid : id' = id := by simpa using hmem.2
      exact hid ▸ openFor_get hmem.1
    · exact fun id hid => rows_of_order hid _
    · intro id hid
      have hrows := rows_of_order (w := w) hid fun c => c.inspectorId = user
      exact congrArg List.getLast? hrows

end Spec

end CarSalePro
