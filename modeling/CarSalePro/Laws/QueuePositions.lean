import CarSalePro.Orders.CounterOfferListing

namespace CarSalePro

open Store Interleave Prog OrderStatus

/-- This price is in front of that one: it was shown already, or it is cheaper, or as cheap and
earlier. -/
def OrderCounterOffer.before (c row : OrderCounterOffer) : Bool :=
  c.presentedAt.isSome || c.priceCents < row.priceCents ||
    (c.priceCents = row.priceCents && c.createdAt < row.createdAt)

/-- The other prices in play on the order that are in front of row `k`. -/
def World.aheadOf (w : World) (k : CounterOfferId) (row : OrderCounterOffer) :
    List (CounterOfferId × OrderCounterOffer) :=
  w.counterOffers.findMany fun k' c => c.orderId = row.orderId &&
    (c.status = .pending || c.status = .accepting) && k' ≠ k && c.before row

namespace OrderCounterOffer

variable {a b c : OrderCounterOffer}

theorem before_iff : a.before b = true ↔ a.presentedAt.isSome = true ∨ a.priceCents < b.priceCents ∨
    (a.priceCents = b.priceCents ∧ a.createdAt < b.createdAt) := by
  simp [before, or_assoc]

/-- Whatever is in front of a waiting price is in front of those behind it. -/
theorem before_trans (hb : b.presentedAt = none) (hab : a.before b = true)
    (hbc : b.before c = true) : a.before c = true := by
  rw [before_iff] at hab hbc ⊢
  rw [hb] at hbc
  rcases hab with hshown | hab | ⟨hab, htie⟩
  · exact .inl hshown
  · rcases hbc with h | hbc | ⟨hbc, _⟩
    · cases h
    · exact .inr (.inl (hab.trans hbc))
    · exact .inr (.inl (hbc ▸ hab))
  · rcases hbc with h | hbc | ⟨hbc, htie'⟩
    · cases h
    · exact .inr (.inl (hab ▸ hbc))
    · exact .inr (.inr ⟨hab.trans hbc, htie.trans htie'⟩)

/-- Two waiting prices are in front of each other in the order in which they would be shown. -/
theorem before_iff_compare (ha : a.presentedAt = none) :
    a.before b = true ↔ compareQueuedOffers b a = false := by
  rw [before_iff, ha]
  simp only [compareQueuedOffers, Option.isSome_none, Bool.false_eq_true, false_or,
    Bool.or_eq_false_iff, decide_eq_false_iff_not, Bool.and_eq_false_iff, not_lt, not_le]
  constructor
  · rintro (hless | ⟨heq, htie⟩)
    · exact ⟨hless.le, .inl hless.ne'⟩
    · exact ⟨heq.le, .inr htie⟩
  · rintro ⟨hle, hne | htie⟩
    · exact .inl (lt_of_le_of_ne hle fun h => hne h.symm)
    · rcases hle.lt_or_eq with hless | heq
      · exact .inl hless
      · exact .inr ⟨heq, htie⟩

end OrderCounterOffer

variable {w : World} {k k' : CounterOfferId} {row row' : OrderCounterOffer} {user : UserId}

/-- The position as the service counts it. -/
theorem queuePositionOf_alone (hrow : w.counterOffers.get k = some row)
    (hpending : row.status = .pending) :
    (queuePositionOf k).alone machine .ok w =
      (.ok (if row.presentedAt.isSome then 1 else (w.aheadOf k row).length + 1), w) := by
  have hread {α β : Type} {l : Site} (f : World → α) (p : α → Act β) :
      (fetch l f >>= p).alone machine .ok w = (p (f w)).alone machine .ok w := by
    cases l <;> rfl
  have hfound : (w.counterOffers.get k).filter (·.status = .pending) = some row := by
    rw [hrow, Option.filter_some, if_pos (by simpa using hpending)]
  unfold queuePositionOf
  rw [hread]
  simp only [hfound]
  by_cases hshown : row.presentedAt.isSome = true
  · rw [if_pos hshown, if_pos hshown]
    rfl
  · rw [if_neg hshown, if_neg hshown, hread]
    rfl

/-- The row that the tab reads as the inspector's own. -/
theorem ownRow_eq (hrow : w.counterOffers.get k = some row) (huser : row.inspectorId = user)
    (hunique : ∀ k' c, w.counterOffers.get k' = some c → c.orderId = row.orderId →
      c.inspectorId = user → k' = k) :
    w.ownRow row.orderId user = some row := by
  unfold World.ownRow
  have hmem : (k, row) ∈ w.counterOffers.findMany fun _ c =>
      c.orderId = row.orderId && c.inspectorId = user :=
    Table.mem_findMany.mpr ⟨hrow, by simpa using huser⟩
  rw [List.getLast?_map]
  cases hlast : (w.counterOffers.findMany fun _ c =>
      c.orderId = row.orderId && c.inspectorId = user).getLast? with
  | none =>
    rw [List.getLast?_eq_none_iff] at hlast
    rw [hlast] at hmem
    cases hmem
  | some r =>
    obtain ⟨hget, hown⟩ := Table.mem_findMany.mp (List.mem_of_getLast? hlast)
    simp only [Bool.and_eq_true, decide_eq_true_eq] at hown
    have hkey := hunique r.1 r.2 hget hown.1 hown.2
    rw [hkey, hrow] at hget
    exact (Option.some.inj hget).symm ▸ rfl

/-- What the tab counts is what is in front of the row. -/
theorem queuedAhead_eq (hrow : w.counterOffers.get k = some row) (hpending : row.status = .pending)
    (huser : row.inspectorId = user)
    (hunique : ∀ k' c, w.counterOffers.get k' = some c → c.orderId = row.orderId →
      c.inspectorId = user → k' = k) :
    queuedAhead user (w.queueOf row.orderId) (some row) = (w.aheadOf k row).length := by
  have hown : (some row).filter (·.status = .pending) = some row := by
    rw [Option.filter_some, if_pos (by simpa using hpending)]
  unfold queuedAhead
  simp only [hown]
  rw [World.queueOf, List.filter_map, List.length_map, Table.filter_findMany, World.aheadOf]
  congr 1
  refine Table.findMany_congr fun k' c hc => ?_
  have hkey : c.orderId = row.orderId → (c.inspectorId ≠ user ↔ k' ≠ k) := by
    intro horder
    refine not_congr ⟨fun hins => hunique k' c hc horder hins, fun heq => ?_⟩
    rw [heq, hrow] at hc
    exact Option.some.inj hc ▸ huser
  rw [Bool.eq_iff_iff]
  simp only [OrderCounterOffer.before, Function.comp, Bool.and_eq_true, decide_eq_true_eq,
    and_assoc]
  constructor
  · rintro ⟨horder, hplay, hins, hbefore⟩
    exact ⟨horder, hplay, (hkey horder).mp hins, hbefore⟩
  · rintro ⟨horder, hplay, hother, hbefore⟩
    exact ⟨horder, hplay, (hkey horder).mpr hother, hbefore⟩

/-- Among waiting prices of one order, the one that would be shown first has fewer in front of
it. -/
theorem ahead_lt (hrow : w.counterOffers.get k = some row) (hwaits : row.presentedAt = none)
    (hplay : row.status = .pending) (hwaits' : row'.presentedAt = none)
    (hrow' : w.counterOffers.get k' = some row') (horder : row.orderId = row'.orderId)
    (h : row.before row' = true) : (w.aheadOf k row).length < (w.aheadOf k' row').length := by
  have hne : k ≠ k' := by
    intro heq
    rw [heq, hrow'] at hrow
    cases hrow
    simp [OrderCounterOffer.before, hwaits] at h
  have hin : (decide (row.orderId = row'.orderId) &&
      (decide (row.status = .pending) || decide (row.status = .accepting)) && decide (k ≠ k') &&
      row.before row') = true := by simp [horder, hplay, hne, h]
  refine Table.length_findMany_lt (fun j c hc hahead => ?_) hrow (by simp) hin
  simp only [Bool.and_eq_true, decide_eq_true_eq] at hahead ⊢
  obtain ⟨⟨⟨hsame, hactive⟩, _⟩, hbefore⟩ := hahead
  refine ⟨⟨⟨hsame.trans horder, hactive⟩, fun heq => ?_⟩,
    OrderCounterOffer.before_trans hwaits hbefore h⟩
  -- the row that is behind cannot be in front as well
  rw [heq, hrow'] at hc
  cases hc
  have hself := OrderCounterOffer.before_trans hwaits hbefore h
  rw [OrderCounterOffer.before_iff, hwaits'] at hself
  simp at hself

/-- Waiting prices that would be shown at the same turn have the same number in front of them. -/
theorem ahead_eq (hrow : w.counterOffers.get k = some row) (hwaits : row.presentedAt = none)
    (hwaits' : row'.presentedAt = none) (hrow' : w.counterOffers.get k' = some row')
    (horder : row.orderId = row'.orderId) (hprice : row.priceCents = row'.priceCents)
    (htie : row.createdAt = row'.createdAt) :
    (w.aheadOf k row).length = (w.aheadOf k' row').length := by
  unfold World.aheadOf
  congr 1
  refine Table.findMany_congr fun j c hc => ?_
  have hbefore : c.before row = c.before row' := by
    simp only [OrderCounterOffer.before, hprice, htie]
  have hsame : c.before row' = true → (j ≠ k ↔ j ≠ k') := by
    intro h
    have hself (j' : CounterOfferId) (row'' : OrderCounterOffer)
        (hget : w.counterOffers.get j' = some row'') (hun : row''.presentedAt = none)
        (hp : row''.priceCents = row'.priceCents) (ht : row''.createdAt = row'.createdAt) :
        j ≠ j' := by
      intro heq
      rw [heq, hget] at hc
      cases hc
      rw [OrderCounterOffer.before_iff, hun, hp, ht] at h
      simp at h
    exact iff_of_true (hself k row hrow hwaits hprice htie) (hself k' row' hrow' hwaits' rfl rfl)
  rw [Bool.eq_iff_iff]
  simp only [Bool.and_eq_true, decide_eq_true_eq, hbefore, horder]
  constructor
  · rintro ⟨⟨hplay, hne⟩, h⟩
    exact ⟨⟨hplay, (hsame h).mp hne⟩, h⟩
  · rintro ⟨⟨hplay, hne⟩, h⟩
    exact ⟨⟨hplay, (hsame h).mpr hne⟩, h⟩

/-- The positions of waiting prices follow the order in which they would be shown. -/
theorem ahead_lt_iff (hrow : w.counterOffers.get k = some row) (hplay : row.status = .pending)
    (hwaits : row.presentedAt = none) (hrow' : w.counterOffers.get k' = some row')
    (hplay' : row'.status = .pending) (hwaits' : row'.presentedAt = none)
    (horder : row.orderId = row'.orderId) :
    (w.aheadOf k row).length < (w.aheadOf k' row').length ↔
    compareQueuedOffers row' row = false := by
  rw [← OrderCounterOffer.before_iff_compare hwaits]
  constructor
  · intro hless
    by_contra hnot
    by_cases hback : row'.before row = true
    · have hmore := ahead_lt hrow' hwaits' hplay' hwaits hrow horder.symm hback
      omega
    · rw [OrderCounterOffer.before_iff, hwaits] at hnot
      rw [OrderCounterOffer.before_iff, hwaits'] at hback
      have hprice : row.priceCents = row'.priceCents := by
        refine le_antisymm (not_lt.mp fun h => ?_) (not_lt.mp fun h => ?_)
        · exact hback (.inr (.inl h))
        · exact hnot (.inr (.inl h))
      have htie : row.createdAt = row'.createdAt := by
        refine le_antisymm (not_lt.mp fun h => ?_) (not_lt.mp fun h => ?_)
        · exact hback (.inr (.inr ⟨hprice.symm, h⟩))
        · exact hnot (.inr (.inr ⟨hprice, h⟩))
      have hsame := ahead_eq hrow hwaits hwaits' hrow' horder hprice htie
      omega
  · exact ahead_lt hrow hwaits hplay hwaits' hrow' horder

/-- The position that the tab shows of the inspector's own price. -/
theorem listed_position {near : World → UserId → List OrderId → ℚ → List (OrderId × ℚ)}
    {items : List OpenOrder} {item : OpenOrder}
    (hlist : ((listOpenForInspector near user).alone machine .ok w).1 = .ok items)
    (hitem : item ∈ items) (hrow : w.counterOffers.get k = some row)
    (horder : row.orderId = item.orderId) (huser : row.inspectorId = user)
    (hpending : row.status = .pending)
    (hunique : ∀ k' c, w.counterOffers.get k' = some c → c.orderId = row.orderId →
      c.inspectorId = user → k' = k) :
    ∃ mine, item.myCounterOffer = some mine ∧
      mine.queuePosition = (w.aheadOf k row).length + 1 := by
  have hlists : Triple machine answering (· = w) (listOpenForInspector near user)
      (fun items _ => ∀ item ∈ items, w.Lists user item) (fun _ _ => True) :=
    listOpenForInspector_lists near
  have hrun := hlists.alone rfl
  rw [hlist] at hrun
  obtain ⟨order, _, _, heq⟩ := hrun item hitem
  have hmine : item.myCounterOffer = (w.ownRow row.orderId user).map (myCounterOffer
      (queuedAhead user (w.queueOf row.orderId) (w.ownRow row.orderId user))) := by
    rw [horder, heq]
    rfl
  rw [ownRow_eq hrow huser hunique, queuedAhead_eq hrow hpending huser hunique] at hmine
  exact ⟨_, hmine, if_pos hpending⟩

/-- The tab and the service give a pending price one position, the presented price the first and the
others theirs in the order of their turn, exactly where the price still waits or nothing is in front
of it. -/
theorem positions_agree (near : World → UserId → List OrderId → ℚ → List (OrderId × ℚ)) (w : World)
    (user : UserId) (items : List OpenOrder) (item : OpenOrder) (k : CounterOfferId)
    (row : OrderCounterOffer)
    (hlist : ((listOpenForInspector near user).alone machine .ok w).1 = .ok items)
    (hitem : item ∈ items) (hrow : w.counterOffers.get k = some row)
    (horder : row.orderId = item.orderId) (huser : row.inspectorId = user)
    (hpending : row.status = .pending)
    (hunique : ∀ k' c, w.counterOffers.get k' = some c → c.orderId = row.orderId →
      c.inspectorId = user → k' = k) :
    (∃ mine n, item.myCounterOffer = some mine ∧
      ((queuePositionOf k).alone machine .ok w).1 = .ok n ∧ mine.queuePosition = n ∧
      (row.presentedAt.isSome → mine.queuePosition = 1) ∧
      (row.presentedAt = none → ∀ k' row' n', w.counterOffers.get k' = some row' →
        row'.orderId = row.orderId → row'.status = .pending → row'.presentedAt = none →
        ((queuePositionOf k').alone machine .ok w).1 = .ok n' →
        (mine.queuePosition < n' ↔ compareQueuedOffers row' row = false))) ↔
    row.presentedAt = none ∨ w.aheadOf k row = [] := by
  obtain ⟨mine, hmine, hposition⟩ :=
    listed_position hlist hitem hrow horder huser hpending hunique
  have hcounted := queuePositionOf_alone hrow hpending
  constructor
  · rintro ⟨mine', n, hmine', _, _, hfirst, _⟩
    cases hmine.symm.trans hmine'
    cases hshown : row.presentedAt with
    | none => exact .inl rfl
    | some at_ =>
      have hone := hfirst (by simp [hshown])
      have hnone : (w.aheadOf k row).length = 0 := by omega
      exact .inr (List.length_eq_zero_iff.mp hnone)
  · intro hcond
    refine ⟨mine, mine.queuePosition, hmine, ?_, rfl, ?_, ?_⟩
    · rw [hcounted, hposition]
      rcases hcond with hwaits | hnone
      · simp [hwaits]
      · simp [hnone]
    · intro hshown
      rcases hcond with hwaits | hnone
      · rw [hwaits] at hshown
        cases hshown
      · rw [hposition, hnone]
        rfl
    · intro hwaits k' row' n' hrow' horder' hpending' hwaits' hn'
      rw [queuePositionOf_alone hrow' hpending'] at hn'
      have hcount : (w.aheadOf k' row').length + 1 = n' := by simpa [hwaits'] using hn'
      rw [hposition, ← hcount, Nat.add_lt_add_iff_right]
      exact ahead_lt_iff hrow hpending hwaits hrow' hpending' hwaits' horder'.symm

/-- A price of 54 is on the screen when another inspector asks 48. -/
def undercut : World :=
  { World.empty with
    orders := Table.empty.set 1
      ⟨3, none, unassigned, 4000, 667, 3333, none, none, none, none, none, 1⟩
    inspectors := (Table.empty.set 7 ⟨true, true, true, some 1, 0, none, none, true, 300⟩).set 8
      ⟨true, true, true, some 2, 0, none, none, true, 300⟩
    counterOffers :=
      (Table.empty.set 1 ⟨1, 7, .pending, 5400, 900, 4500, some 900, 9000, none, none, 100⟩).set 2
        ⟨1, 8, .pending, 4800, 800, 4000, none, 9000, none, none, 950⟩
    fairPriceOf := fun _ _ _ _ => ⟨5000, 833, 4167⟩
    now := 1000 }

/-- The position on each entry of a tab. -/
def positionsOf (r : Except Err (List OpenOrder)) : Option (List (Option Nat)) :=
  r.toOption.map fun items => items.map fun item => item.myCounterOffer.map (·.queuePosition)

/-- The inspector whose price the customer is looking at is told they are second. -/
theorem undercut_second :
    positionsOf ((listOpenForInspector (fun _ _ ids _ => ids.map (·, 12)) 7).alone machine .ok
      undercut).1 = some [some 2] ∧
    ((queuePositionOf 1).alone machine .ok undercut).1 = .ok 1 := by decide +kernel

/-- What the tab shows the other inspector. -/
def undercutItem : OpenOrder where
  orderId := 1
  distanceKm := 12
  orderTotalCents := 4000
  orderPayoutCents := 3333
  fairPriceCents := 5000
  fairPayoutCents := 4167
  maxPriceCents := 6000
  maxPayoutCents := 5000
  platformFeePercent := 20
  searchExpiresAt := none
  queuedAhead := 1
  answerDueAt := some 9000
  myCounterOffer := some ⟨.pending, 4800, 4000, false, 2⟩

/-- The other inspector is told they are second, and they are. -/
theorem undercut_agrees : ∃ mine n, undercutItem.myCounterOffer = some mine ∧
    ((queuePositionOf 2).alone machine .ok undercut).1 = .ok n ∧ mine.queuePosition = n := by
  have hlist : ((listOpenForInspector (fun _ _ ids _ => ids.map (·, 12)) 8).alone machine .ok
      undercut).1 = .ok [undercutItem] := by decide +kernel
  have hunique : ∀ k' c, undercut.counterOffers.get k' = some c → c.orderId = 1 →
      c.inspectorId = 8 → k' = 2 := by
    intro k' c hget _ hins
    simp only [undercut, Table.get_set, Table.get_empty] at hget
    split at hget
    next h => exact h
    next =>
      split at hget
      · cases hget
        exact absurd hins (by decide)
      · cases hget
  have hagree := (positions_agree (fun _ _ ids _ => ids.map (·, 12)) undercut 8 [undercutItem]
    undercutItem 2 ⟨1, 8, .pending, 4800, 800, 4000, none, 9000, none, none, 950⟩
      hlist (by simp) rfl
    rfl rfl rfl hunique).mpr (.inl rfl)
  obtain ⟨mine, n, hmine, hn, hsame, _⟩ := hagree
  exact ⟨mine, n, hmine, hn, hsame⟩

end CarSalePro
