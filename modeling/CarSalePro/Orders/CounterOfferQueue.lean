import CarSalePro.Orders.Refunds

namespace CarSalePro

open Interleave Prog

/-- When the collection window over an order's first prices ends, while it lasts. -/
def collectionHoldUntil (now firstOfferAt : Time) (collectMinutes : Nat)
    (searchExpiresAt : Option Time) : Option Time :=
  let stop := firstOfferAt + minutes collectMinutes
  if collectMinutes = 0 ∨ stop ≤ now ∨ searchExpiresAt.any (· ≤ stop) then none else some stop

/-- How long a counter-offer may wait for the customer, inside the order's search deadline. -/
def counterOfferExpiry (now : Time) (windowMinutes : Nat) (searchExpiresAt : Option Time) :
    Option Time :=
  let wanted := now + minutes windowMinutes
  match searchExpiresAt with
  | none => some wanted
  | some deadline => if deadline ≤ now then none else some (min deadline wanted)

/-- The queue order: cheapest first, and the earlier price wins a tie. -/
def compareQueuedOffers (a b : OrderCounterOffer) : Bool :=
  a.priceCents < b.priceCents || (a.priceCents = b.priceCents && a.createdAt ≤ b.createdAt)

/-- The screen of the order is taken: a price is being paid, or presented and in its window. -/
def screenOccupied (id : OrderId) (now : Time) : Act Bool :=
  fetch .promote fun w => w.counterOffers.any fun _ c => c.orderId = id &&
    (c.status = .accepting || (c.status = .pending && c.presentedAt.isSome && now < c.expiresAt))

/-- The first price of the order is still held for the queue to fill. -/
def heldForCollection (id : OrderId) (order : Order) (now : Time) : Act Bool := do
  if ← fetch .promote fun w => w.counterOffers.any fun _ c =>
      c.orderId = id && c.presentedAt.isSome then pure false
  else do
    let first ← fetch .promote fun w =>
      ((w.counterOffers.findMany fun _ c => c.orderId = id && c.status = .pending).map
        fun c => c.2.createdAt).min?
    match first with
    | none => pure false
    | some firstOfferAt => do
      let settings ← fetch .promote (·.setting)
      pure (collectionHoldUntil now firstOfferAt settings.counterOfferCollectMinutes
        order.searchExpiresAt).isSome

/-- Put the cheapest queued price in front of the customer. -/
def presentNext (id : OrderId) (order : Order) (now : Time) : Act (Option CounterOfferId) := do
  let settings ← fetch .promote (·.setting)
  let queue ← fetch .promote fun w => w.counterOffers.findSorted
    (fun _ c => c.orderId = id && c.status = .pending && c.presentedAt.isNone)
    compareQueuedOffers 1
  match queue with
  | [] => pure none
  | (next, c) :: _ =>
    match counterOfferExpiry now settings.counterOfferWindowMinutes order.searchExpiresAt with
    | none => do
      issue (.counterOffer (.expireQueue id now))
      pure none
    | some expiresAt => do
      match ← attempt (perform (.counterOffer (.present next now expiresAt))) with
      | .ok 0 => pure none
      | .ok _ => do
        note id (.user c.inspectorId) .counterOfferPresented
        pure (some next)
      | .error .unique => pure none
      | .error err => throw err

/-- Put the best waiting price in front of the customer, if the screen is free. -/
def promote (id : OrderId) : Act (Option CounterOfferId) := do
  match ← fetch .promote (·.orders.get id) with
  | none => pure none
  | some order =>
    if order.status ≠ .unassigned ∨ order.inspectorId ≠ none then pure none
    else do
      let now ← readClock
      if ← screenOccupied id now then pure none
      else do
        if ← heldForCollection id order now then pure none
        else presentNext id order now

def promoteQuietly (id : OrderId) : Act Unit := quietly (promote id)

/-- The orders whose collection window ended with nothing to end it. The answer is how many prices
were presented. -/
def sweepCollected : Act Nat := do
  let settings ← fetch .sweepCollected (·.setting)
  let now ← readClock
  let waiting ← fetch .sweepCollected fun w => w.counterOffers.findMany fun _ c =>
    c.status = .pending && c.presentedAt.isNone &&
      c.createdAt + minutes settings.counterOfferCollectMinutes ≤ now
  countEach (waiting.map (·.2.orderId)).eraseDups fun id => guarded do
    let promoted ← promote id
    pure promoted.isSome

/-- The statements of a promotion. -/
inductive PromoteStmt (id : OrderId) : Stmt → Prop where
  | expireQueue (now) : PromoteStmt id (.counterOffer (.expireQueue id now))
  | present (next now expiresAt) : PromoteStmt id (.counterOffer (.present next now expiresAt))
  | event (e) : PromoteStmt id (.event e)

section Footprints

variable (id : OrderId) (order : Order) (now : Time)

theorem only_presentNext : (presentNext id order now).Only (PromoteStmt id) := by
  refine Only.seq (only_fetch _ _) fun settings => Only.seq (only_fetch _ _) fun queue => ?_
  split
  · exact only_pure _
  · split
    · exact Only.seq (only_issue (.expireQueue _)) fun _ => only_pure _
    · refine Only.seq (Only.attempt ((only_perform _).mpr (.present _ _ _))) fun r => ?_
      split
      · exact only_pure _
      · exact Only.seq (only_note _ _ _ .event) fun _ => only_pure _
      · exact only_pure _
      · exact only_throw _

theorem only_heldForCollection {A : Stmt → Prop} : (heldForCollection id order now).Only A := by
  refine Only.seq (only_fetch _ _) fun ever => Only.ite (fun _ => only_pure _) fun _ => ?_
  refine Only.seq (only_fetch _ _) fun first => ?_
  split
  · exact only_pure _
  · exact Only.seq (only_fetch _ _) fun _ => only_pure _

theorem only_promote : (promote id).Only (PromoteStmt id) := by
  refine Only.seq (only_fetch _ _) fun found => ?_
  split
  · exact only_pure _
  · refine Only.ite (fun _ => only_pure _) fun _ => Only.seq only_readClock fun now => ?_
    refine Only.seq (only_fetch _ _) fun occupied => Only.ite (fun _ => only_pure _) fun _ => ?_
    refine Only.seq (only_heldForCollection _ _ _) fun held => ?_
    exact Only.ite (fun _ => only_pure _) fun _ => only_presentNext _ _ _

theorem only_promoteQuietly : (promoteQuietly id).Only (PromoteStmt id) :=
  Only.quietly (only_promote id)

theorem only_sweepCollected {A : Stmt → Prop} (h : ∀ id s, PromoteStmt id s → A s) :
    sweepCollected.Only A := by
  refine Only.seq (only_fetch _ _) fun settings => Only.seq only_readClock fun now => ?_
  refine Only.seq (only_fetch _ _) fun waiting => only_countEach fun id _ => ?_
  exact only_guarded (Only.seq ((only_promote id).mono (h id)) fun _ => only_pure _)

end Footprints

end CarSalePro
