import CarSalePro.Orders.Alone

namespace CarSalePro

open Store Interleave Prog OrderStatus

namespace World

/-- The search of the order is open, and nothing holds the customer's screen. -/
structure Free (w : World) (id : OrderId) (order : Order) : Prop where
  row : w.orders.get id = some order
  searching : order.status = unassigned
  unclaimed : order.inspectorId = none
  screen : ∀ k c, w.counterOffers.get k = some c → c.orderId = id →
    c.status ≠ .accepting ∧ (c.status = .pending → c.presentedAt ≠ none → c.expiresAt ≤ w.now)

/-- Row `k` is a price of the order that waits for its turn. -/
structure Waits (w : World) (id : OrderId) (k : CounterOfferId) (c : OrderCounterOffer) : Prop where
  row : w.counterOffers.get k = some c
  order : c.orderId = id
  pending : c.status = .pending
  unpresented : c.presentedAt = none

/-- The collection window holds the prices of the order back: none was ever shown, and the window
of the first of those in play is open. -/
structure Held (w : World) (id : OrderId) (order : Order) : Prop where
  unshown : ∀ k c, w.counterOffers.get k = some c → c.orderId = id → c.presentedAt = none
  window : ∃ k c, w.Waits id k c ∧ (∀ k' c', w.Waits id k' c' → c.createdAt ≤ c'.createdAt) ∧
    (collectionHoldUntil w.now c.createdAt w.setting.counterOfferCollectMinutes
      order.searchExpiresAt).isSome

/-- The prices after row `k` was put on the screen. -/
def shown (w : World) (k : CounterOfferId) (expiresAt : Time) :
    Table CounterOfferId OrderCounterOffer :=
  w.counterOffers.rewrite fun k' c =>
    CounterOfferStmt.rewrite w.now k' c (.present k w.now expiresAt)

/-- The prices after those that wait were closed. -/
def closed (w : World) (id : OrderId) : Table CounterOfferId OrderCounterOffer :=
  w.counterOffers.rewrite fun k' c => CounterOfferStmt.rewrite w.now k' c (.expireQueue id w.now)

/-- Row `k` is the one to be shown next, until then. -/
structure Next (w : World) (id : OrderId) (order : Order) (k : CounterOfferId)
    (c : OrderCounterOffer) (expiresAt : Time) : Prop where
  free : w.Free id order
  unheld : ¬ w.Held id order
  waits : w.Waits id k c
  least : ∀ k' c', w.Waits id k' c' → compareQueuedOffers c c' = true
  expiry : counterOfferExpiry w.now w.setting.counterOfferWindowMinutes order.searchExpiresAt =
    some expiresAt

end World

/-- How a promotion that nothing disturbs ends. -/
inductive Promotion (w : World) (id : OrderId) : Option CounterOfferId → World → Prop where
  | idle (h : ∀ order, w.Free id order → w.Held id order ∨ (∀ k c, ¬ w.Waits id k c) ∨
      ∃ k c e, w.Next id order k c e ∧ presentedConflict (w.shown k e) = true) :
      Promotion w id none w
  | presented (order k c e events) (h : w.Next id order k c e) :
      Promotion w id (some k) { w with counterOffers := w.shown k e, events := events }
  | closed (order) (h : w.Free id order) (hpast : order.searchExpiresAt.any (· ≤ w.now)) :
      Promotion w id none { w with counterOffers := w.closed id }

/-- How a promotion that was broken off leaves the state: as it was, or with a price shown. -/
inductive Broken (w : World) (id : OrderId) : World → Prop where
  | same : Broken w id w
  | presented (order k c e) (h : w.Next id order k c e) :
      Broken w id { w with counterOffers := w.shown k e }

section Spec

variable {w : World} {id : OrderId} {order : Order} {α : Type}
  {ok : Label Site Stmt → Fate → World → Prop} {F : Prop}

theorem counterOfferExpiry_none {now : Time} {window : Nat} {deadline : Option Time} :
    counterOfferExpiry now window deadline = none ↔ deadline.any (· ≤ now) = true := by
  unfold counterOfferExpiry
  cases deadline with
  | none => simp
  | some d => by_cases hd : d ≤ now <;> simp [hd]

/-- A window that is open ends before the search does. -/
theorem counterOfferExpiry_some {now e : Time} {window : Nat} {deadline : Option Time}
    (hwindow : 0 < window) (h : counterOfferExpiry now window deadline = some e) :
    now < e ∧ ∀ d, deadline = some d → e ≤ d := by
  have hwanted : now < now + minutes window := by
    unfold minutes
    exact Nat.lt_add_of_pos_right (Nat.mul_pos hwindow (by decide))
  unfold counterOfferExpiry at h
  cases deadline with
  | none =>
    cases h
    exact ⟨hwanted, fun d hd => by cases hd⟩
  | some d =>
    simp only at h
    split at h
    · cases h
    next hd =>
      cases h
      refine ⟨lt_min (not_le.mp hd) hwanted, fun d' hd' => ?_⟩
      cases hd'
      exact min_le_left _ _

/-- A search that is over holds nothing back. -/
theorem collectionHoldUntil_past {now first : Time} {collect : Nat} {deadline : Option Time}
    (hpast : deadline.any (· ≤ now) = true) :
    collectionHoldUntil now first collect deadline = none := by
  unfold collectionHoldUntil
  cases deadline with
  | none => cases hpast
  | some d =>
    simp only [Option.any_some, decide_eq_true_eq] at hpast ⊢
    refine if_pos ?_
    by_cases hstop : first + minutes collect ≤ now
    · exact .inr (.inl hstop)
    · exact .inr (.inr (hpast.trans (not_le.mp hstop).le))

/-- What the guard of the screen reads. -/
theorem screen_free (horder : w.orders.get id = some order) (hstatus : order.status = unassigned)
    (hclaim : order.inspectorId = none) :
    (w.counterOffers.any fun _ c => c.orderId = id && (c.status = .accepting ||
      (c.status = .pending && c.presentedAt.isSome && w.now < c.expiresAt))) = false ↔
      w.Free id order := by
  rw [Table.any_eq_false]
  constructor
  · intro h
    refine ⟨horder, hstatus, hclaim, fun k c hc hid => ?_⟩
    have hrow := h k c hc
    simp only [hid, decide_true, Bool.true_and, Bool.or_eq_false_iff, decide_eq_false_iff_not,
      Bool.and_eq_false_iff, not_lt] at hrow
    refine ⟨hrow.1, fun hp hs => ?_⟩
    rcases hrow.2 with (h | h) | h
    · exact absurd hp h
    · exact absurd (Option.isSome_iff_ne_none.mpr hs) (by simp [h])
    · exact h
  · intro h k c hc
    by_cases hid : c.orderId = id
    · obtain ⟨haccepting, hshown⟩ := h.screen k c hc hid
      by_cases hp : c.status = .pending
      · cases hs : c.presentedAt with
        | none => simp [hp]
        | some t =>
          have hexp := hshown hp (by simp [hs])
          simp [hp, hexp]
      · simp [haccepting, hp]
    · simp [hid]

/-- The guard of the collection window answers whether it holds. -/
theorem held_spec {X : Err → World → Prop} (hok : FailsOnly ok F) (hX : F → ∀ e, X e w) :
    Triple machine ok (· = w) (heldForCollection id order w.now)
      (fun b v => v = w ∧ (b = true ↔ w.Held id order)) X := by
  apply pinned_read hok (by trivial) hX
  refine .ite (fun hshown => ?_) fun hunshown => ?_
  · obtain ⟨k, c, hc, hrow⟩ := Table.any_eq_true.mp hshown
    simp only [Bool.and_eq_true, decide_eq_true_eq] at hrow
    refine Triple.pure fun v hv => ⟨hv, iff_of_false (by simp) fun hheld => ?_⟩
    rw [hheld.unshown k c hc hrow.1] at hrow
    exact absurd hrow.2 (by simp)
  have hnone : ∀ k c, w.counterOffers.get k = some c → c.orderId = id → c.presentedAt = none := by
    intro k c hc hid
    have hrow := Table.any_eq_false.mp (Bool.not_eq_true _ ▸ hunshown) k c hc
    simpa [hid] using hrow
  have hwaits (t : Time) : t ∈ (w.counterOffers.findMany fun _ c =>
      c.orderId = id && c.status = .pending).map (fun c => c.2.createdAt) ↔
      ∃ k c, w.Waits id k c ∧ c.createdAt = t := by
    simp only [List.mem_map, Prod.exists, Table.mem_findMany, Bool.and_eq_true, decide_eq_true_eq]
    constructor
    · rintro ⟨k, c, ⟨hc, hid, hp⟩, rfl⟩
      exact ⟨k, c, ⟨hc, hid, hp, hnone k c hc hid⟩, rfl⟩
    · rintro ⟨k, c, hc, rfl⟩
      exact ⟨k, c, ⟨hc.row, hc.order, hc.pending⟩, rfl⟩
  apply pinned_read hok (by trivial) hX
  split
  next hmin =>
    have hempty := List.min?_eq_none_iff.mp hmin
    refine Triple.pure fun v hv => ⟨hv, iff_of_false (by simp) fun hheld => ?_⟩
    obtain ⟨k, c, hc, _⟩ := hheld.window
    have hmem := (hwaits c.createdAt).mpr ⟨k, c, hc, rfl⟩
    rw [hempty] at hmem
    cases hmem
  next first hmin =>
    obtain ⟨hmem, hleast⟩ := List.min?_eq_some_iff.mp hmin
    obtain ⟨k, c, hc, rfl⟩ := (hwaits first).mp hmem
    apply pinned_read hok (by trivial) hX
    refine Triple.pure fun v hv => ⟨hv, ?_⟩
    constructor
    · intro hopen
      exact ⟨hnone, k, c, hc, fun k' c' hc' => hleast _ ((hwaits _).mpr ⟨k', c', hc', rfl⟩), hopen⟩
    · rintro ⟨_, k', c', hc', hleast', hopen⟩
      have hsame : c'.createdAt = c.createdAt :=
        le_antisymm (hleast' k c hc) (hleast _ ((hwaits _).mpr ⟨k', c', hc', rfl⟩))
      rw [hsame] at hopen
      exact hopen

theorem compareQueuedOffers_total (a b : OrderCounterOffer) :
    compareQueuedOffers a b = true ∨ compareQueuedOffers b a = true := by
  simp only [compareQueuedOffers, Bool.or_eq_true, Bool.and_eq_true, decide_eq_true_eq]
  rcases lt_trichotomy a.priceCents b.priceCents with h | h | h
  · exact .inl (.inl h)
  · rcases le_total a.createdAt b.createdAt with ht | ht
    · exact .inl (.inr ⟨h, ht⟩)
    · exact .inr (.inr ⟨h.symm, ht⟩)
  · exact .inr (.inl h)

theorem compareQueuedOffers_trans (a b c : OrderCounterOffer) (hab : compareQueuedOffers a b = true)
    (hbc : compareQueuedOffers b c = true) : compareQueuedOffers a c = true := by
  simp only [compareQueuedOffers, Bool.or_eq_true, Bool.and_eq_true, decide_eq_true_eq] at hab hbc ⊢
  rcases hab with hab | ⟨hab, htie⟩
  · rcases hbc with hbc | ⟨hbc, _⟩
    · exact .inl (hab.trans hbc)
    · exact .inl (hbc ▸ hab)
  · rcases hbc with hbc | ⟨hbc, htie'⟩
    · exact .inl (hab ▸ hbc)
    · exact .inr ⟨hab.trans hbc, htie.trans htie'⟩

theorem closed_conflict (h : presentedConflict (w.closed id) = true) :
    presentedConflict w.counterOffers = true := by
  refine presentedConflict_rewrite (fun k c c' hc => ?_) h
  simp only [CounterOfferStmt.rewrite] at hc
  split at hc
  · cases hc
    exact ⟨rfl, fun h => by simp [OrderCounterOffer.presented] at h⟩
  · cases hc

/-- Putting the next price on the screen. -/
theorem present_spec {k : CounterOfferId} {c : OrderCounterOffer} {e : Time}
    (hok : FailsOnly ok F) (hnext : w.Next id order k c e) :
    Triple machine ok (· = w) (do
      match ← attempt (perform (.counterOffer (.present k w.now e))) with
      | .ok 0 => pure none
      | .ok _ => do
        note id (.user c.inspectorId) .counterOfferPresented
        pure (some k)
      | .error .unique => pure none
      | .error err => throw err : Act (Option CounterOfferId))
      (fun r v => Promotion w id r v) (fun _ v => F ∧ Broken w id v) := by
  have hwrite : Triple machine ok (· = w) (perform (.counterOffer (.present k w.now e)))
      (fun n v => v = { w with counterOffers := w.shown k e } ∧ n ≠ 0)
      (fun err v => v = w ∧ (F ∧ err = .database ∨
        err = .unique ∧ presentedConflict (w.shown k e) = true)) := by
    refine Triple.perform fun f v hv hf => ?_
    subst hv
    rw [show machine.exec = World.exec from rfl]
    rcases exec_prices (.present k v.now e) f v with ⟨err, he, hdown | hunique⟩ | he
    · rw [he]
      exact ⟨rfl, .inl ⟨hok _ _ _ (by trivial) hf hdown.1, hdown.2⟩⟩
    · rw [he]
      exact ⟨rfl, .inr hunique⟩
    · rw [he]
      refine ⟨rfl, fun hnone => ?_⟩
      have hmiss := Table.hits_eq_zero.mp hnone k c hnext.waits.row
      simp [CounterOfferStmt.rewrite, hnext.waits.pending, hnext.waits.unpresented] at hmiss
  refine Discipline.Flow.seq (Discipline.Flow.attempt hwrite) fun r => ?_
  cases r with
  | ok n =>
    have hevent : Triple machine ok (· = { w with counterOffers := w.shown k e })
        (do
          note id (.user c.inspectorId) .counterOfferPresented
          pure (some k) : Act (Option CounterOfferId))
        (fun r v => Promotion w id r v) (fun _ v => F ∧ Broken w id v) := by
      refine Discipline.Flow.seq (B := fun _ P => ∀ v, P v → Promotion w id (some k) v) ?_
        fun _ => ?_
      · refine Discipline.Flow.seq (B := fun _ P => ∀ v, P v → Promotion w id (some k) v) ?_
          fun _ => .pure fun _ hv => hv
        refine Triple.perform fun f v hv hf => ?_
        subst hv
        rw [show machine.exec = World.exec from rfl]
        by_cases hdown : f = .down
        · simp only [World.exec, hdown, if_true]
          exact ⟨hok _ _ _ (by trivial) hf hdown, .presented order k c e hnext⟩
        · simp only [World.exec, hdown, if_false, World.write]
          exact .presented order k c e _ hnext
      · exact .pure fun _ hv => hv
    have hgo : Triple machine ok (fun v => v = { w with counterOffers := w.shown k e } ∧ n ≠ 0)
        (match (Except.ok n : Except Err Nat) with
          | .ok 0 => pure none
          | .ok _ => do
            note id (.user c.inspectorId) .counterOfferPresented
            pure (some k)
          | .error .unique => pure none
          | .error err => throw err : Act (Option CounterOfferId))
        (fun r v => Promotion w id r v) (fun _ v => F ∧ Broken w id v) := by
      refine Triple.fact fun hn => ?_
      cases n with
      | zero => exact absurd rfl hn
      | succ n => exact hevent
    exact hgo
  | error err =>
    have hidle (hconflict : presentedConflict (w.shown k e) = true) : Promotion w id none w :=
      .idle fun _ hfree => by
        cases hfree.row.symm.trans hnext.free.row
        exact .inr (.inr ⟨k, c, e, hnext, hconflict⟩)
    have hfailed : Triple machine ok (fun v => v = w ∧
        (F ∧ err = .database ∨ err = .unique ∧ presentedConflict (w.shown k e) = true))
        (match (Except.error err : Except Err Nat) with
          | .ok 0 => pure none
          | .ok _ => do
            note id (.user c.inspectorId) .counterOfferPresented
            pure (some k)
          | .error .unique => pure none
          | .error err => throw err : Act (Option CounterOfferId))
        (fun r v => Promotion w id r v) (fun _ v => F ∧ Broken w id v) := by
      refine Triple.fact fun hwhy => ?_
      rcases hwhy with ⟨hF, rfl⟩ | ⟨rfl, hconflict⟩
      · exact Triple.throw fun v hv => ⟨hF, hv ▸ .same⟩
      · exact Triple.pure fun v hv => hv ▸ hidle hconflict
    exact hfailed

/-- Nothing is shown, for a reason. -/
theorem idle_spec {X : Err → World → Prop}
    (h : ∀ order, w.Free id order → w.Held id order ∨ (∀ k c, ¬ w.Waits id k c) ∨
      ∃ k c e, w.Next id order k c e ∧ presentedConflict (w.shown k e) = true) :
    Triple machine ok (· = w) (pure none) (fun r v => Promotion w id r v) X := by
  refine Triple.pure fun v hv => ?_
  rw [hv]
  exact .idle h

theorem presentNext_spec (hok : FailsOnly ok F)
    (hclean : presentedConflict w.counterOffers = true → F)
    (hfree : w.Free id order) (hunheld : ¬ w.Held id order) :
    Triple machine ok (· = w) (presentNext id order w.now) (fun r v => Promotion w id r v)
      fun _ v => F ∧ Broken w id v := by
  apply pinned_read hok (by trivial) fun hF _ => ⟨hF, .same⟩
  apply pinned_read hok (by trivial) fun hF _ => ⟨hF, .same⟩
  split
  next hempty =>
    have hnone : ∀ k c, ¬ w.Waits id k c := by
      intro k c hc
      have hmem : (k, c) ∈ w.counterOffers.findMany fun _ c =>
          c.orderId = id && c.status = .pending && c.presentedAt.isNone :=
        Table.mem_findMany.mpr ⟨hc.row, by simp [hc.order, hc.pending, hc.unpresented]⟩
      have hsorted := (List.mem_insertionSort (fun a b =>
        compareQueuedOffers a.2 b.2 = true)).mpr hmem
      cases hl : List.insertionSort (fun a b => compareQueuedOffers a.2 b.2 = true)
          (w.counterOffers.findMany fun _ c =>
            c.orderId = id && c.status = .pending && c.presentedAt.isNone) with
      | nil =>
        rw [hl] at hsorted
        cases hsorted
      | cons a l =>
        unfold Table.findSorted at hempty
        rw [hl] at hempty
        cases hempty
    exact idle_spec fun _ _ => .inr (.inl hnone)
  next k c rest hqueue =>
    have hfirst := Table.mem_findSorted (by rw [hqueue]; exact List.mem_cons_self)
    have hwaits : w.Waits id k c := by
      have hrow := hfirst.2
      simp only [Bool.and_eq_true, decide_eq_true_eq, Option.isNone_iff_eq_none] at hrow
      exact ⟨hfirst.1, hrow.1.1, hrow.1.2, hrow.2⟩
    have hleast : ∀ k' c', w.Waits id k' c' → compareQueuedOffers c c' = true := by
      intro k' c' hc'
      exact Table.findSorted_least compareQueuedOffers_total compareQueuedOffers_trans hqueue
        hc'.row (by simp [hc'.order, hc'.pending, hc'.unpresented])
    split
    next hpast =>
      rw [counterOfferExpiry_none] at hpast
      refine Discipline.Flow.seq (B := fun _ P => ∀ v, P v → Promotion w id none v) ?_
        fun _ => .pure fun _ hv => hv
      refine Discipline.Flow.seq (B := fun _ P => ∀ v, P v → Promotion w id none v) ?_
        fun _ => .pure fun _ hv => hv
      refine Triple.perform fun f v hv hf => ?_
      subst hv
      rw [show machine.exec = World.exec from rfl]
      rcases exec_prices (.expireQueue id v.now) f v with ⟨err, he, hdown | ⟨_, hconflict⟩⟩ | he
      · rw [he]
        exact ⟨hok _ _ _ (by trivial) hf hdown.1, .same⟩
      · rw [he]
        exact ⟨hclean (closed_conflict hconflict), .same⟩
      · rw [he]
        exact .closed order hfree hpast
    next e hexpiry => exact present_spec hok ⟨hfree, hunheld, hwaits, hleast, hexpiry⟩

/-- Every way a promotion can end, when nothing else works on the state. -/
theorem promote_spec (hok : FailsOnly ok F)
    (hclean : presentedConflict w.counterOffers = true → F) :
    Triple machine ok (· = w) (promote id) (fun r v => Promotion w id r v)
      fun _ v => F ∧ Broken w id v := by
  have hX : F → ∀ e : Err, F ∧ Broken w id w := fun hF _ => ⟨hF, .same⟩
  apply pinned_read hok (by trivial) hX
  split
  next hnone =>
    refine idle_spec fun order hfree => ?_
    have hrow := hfree.row
    rw [hnone] at hrow
    cases hrow
  next order horder =>
    refine .ite (fun hclosed => ?_) fun hopen => ?_
    · refine idle_spec fun order' hfree => ?_
      cases hfree.row.symm.trans horder
      rcases hclosed with h | h
      · exact absurd hfree.searching h
      · exact absurd hfree.unclaimed h
    have hstatus : order.status = unassigned := by_contra fun h => hopen (.inl h)
    have hclaim : order.inspectorId = none := by_contra fun h => hopen (.inr h)
    apply pinned_read hok (by trivial) hX
    apply pinned_read hok (by trivial) hX
    refine .ite (fun htaken => ?_) fun hscreen => ?_
    · refine idle_spec fun order' hfree => ?_
      cases hfree.row.symm.trans horder
      rw [(screen_free horder hstatus hclaim).mpr hfree] at htaken
      cases htaken
    have hfree := (screen_free horder hstatus hclaim).mp (Bool.not_eq_true _ ▸ hscreen)
    refine Discipline.Flow.seq (held_spec hok hX) fun b => ?_
    refine Triple.fact (P := (· = w)) fun hheld => ?_
    refine .ite (fun htrue => ?_) fun hfalse => ?_
    · refine idle_spec fun order' hfree' => ?_
      cases hfree'.row.symm.trans horder
      exact .inl (hheld.mp htrue)
    · exact presentNext_spec hok hclean hfree fun h => hfalse (hheld.mpr h)

/-- Of the rows, only the one that is shown changes. -/
theorem shown_get {k k' : CounterOfferId} {c : OrderCounterOffer} {e : Time}
    (hc : w.Waits id k c) : (w.shown k e).get k' =
      if k' = k then some { c with presentedAt := some w.now, expiresAt := e }
      else w.counterOffers.get k' := by
  simp only [World.shown, Table.get_rewrite, CounterOfferStmt.rewrite]
  by_cases hk : k' = k
  · rw [hk, hc.row]
    simp [hc.pending, hc.unpresented]
  · cases w.counterOffers.get k' <;> simp [hk]

/-- Of the rows, only those that wait change. -/
theorem closed_get {k : CounterOfferId} : (w.closed id).get k =
    (w.counterOffers.get k).map fun c =>
      if c.orderId = id ∧ c.status = .pending ∧ c.presentedAt = none then
        { c with status := .expired, respondedAt := some w.now }
      else c := by
  simp only [World.closed, Table.get_rewrite, CounterOfferStmt.rewrite]
  cases w.counterOffers.get k with
  | none => rfl
  | some c =>
    simp only [Option.map_some]
    split <;> rfl

end Spec

/-- What a promotion makes of the prices: nothing; the next price shown, inside the search and for
longer than no time; or, once the search is over, every waiting price closed. -/
inductive Promoted (w : World) (id : OrderId) (t : Table CounterOfferId OrderCounterOffer) :
    Prop where
  | same (h : t = w.counterOffers)
  | shown (order k c e) (next : w.Next id order k c e)
      (row : t.get k = some { c with presentedAt := some w.now, expiresAt := e })
      (others : ∀ k', k' ≠ k → t.get k' = w.counterOffers.get k')
      (later : w.now < e) (inside : ∀ d, order.searchExpiresAt = some d → e ≤ d)
  | closed (order) (free : w.Free id order) (past : order.searchExpiresAt.any (· ≤ w.now))
      (rows : ∀ k c, w.Waits id k c →
        t.get k = some { c with status := .expired, respondedAt := some w.now })
      (others : ∀ k, (∀ c, ¬ w.Waits id k c) → t.get k = w.counterOffers.get k)

section Effects

variable {w w' : World} {id : OrderId} {order : Order} {k : CounterOfferId} {c : OrderCounterOffer}
  {e : Time} {r : Option CounterOfferId}

theorem World.Next.promoted (hwindow : 0 < w.setting.counterOfferWindowMinutes)
    (h : w.Next id order k c e) : Promoted w id (w.shown k e) := by
  obtain ⟨hlater, hinside⟩ := counterOfferExpiry_some hwindow h.expiry
  refine .shown order k c e h ?_ (fun k' hk' => ?_) hlater hinside
  · rw [shown_get h.waits, if_pos rfl]
  · rw [shown_get h.waits, if_neg hk']

/-- Where a price is shown, the search is not over. -/
theorem World.Next.open (h : w.Next id order k c e) :
    order.searchExpiresAt.any (· ≤ w.now) = false := by
  have hexpiry :
      counterOfferExpiry w.now w.setting.counterOfferWindowMinutes order.searchExpiresAt ≠
      none := by
    rw [h.expiry]
    nofun
  rw [← Bool.not_eq_true]
  exact fun hpast => hexpiry (counterOfferExpiry_none.mpr hpast)

theorem closed_waits (hc : w.Waits id k c) :
    (w.closed id).get k = some { c with status := .expired, respondedAt := some w.now } := by
  rw [closed_get, hc.row, Option.map_some, if_pos ⟨hc.order, hc.pending, hc.unpresented⟩]

theorem closed_others (hk : ∀ c, ¬ w.Waits id k c) :
    (w.closed id).get k = w.counterOffers.get k := by
  rw [closed_get]
  cases hget : w.counterOffers.get k with
  | none => rfl
  | some c => rw [Option.map_some, if_neg fun h => hk c ⟨hget, h.1, h.2.1, h.2.2⟩]

theorem Promotion.promoted (hwindow : 0 < w.setting.counterOfferWindowMinutes)
    (h : Promotion w id r w') : Promoted w id w'.counterOffers := by
  cases h with
  | idle h => exact .same rfl
  | presented order k c e events h => exact h.promoted hwindow
  | closed order hfree hpast =>
    exact .closed order hfree hpast (fun _ _ hc => closed_waits hc) fun _ hk => closed_others hk

theorem Promotion.beside (h : Promotion w id r w') :
    w' = { w with counterOffers := w'.counterOffers, events := w'.events } := by
  cases h <;> rfl

/-- Once the search is over, a free screen has the waiting prices closed. -/
theorem Promotion.past (h : Promotion w id r w') (hfree : w.Free id order)
    (hpast : order.searchExpiresAt.any (· ≤ w.now) = true) (hc : w.Waits id k c) :
    w'.counterOffers.get k = some { c with status := .expired, respondedAt := some w.now } := by
  have hopen {k' : CounterOfferId} {c' : OrderCounterOffer} {e : Time} {order' : Order}
      (hn : w.Next id order' k' c' e) : False := by
    cases hn.free.row.symm.trans hfree.row
    rw [hn.open] at hpast
    cases hpast
  cases h with
  | idle h =>
    rcases h order hfree with hheld | hnone | ⟨k', c', e, hn, _⟩
    · obtain ⟨k', c', _, _, hhold⟩ := hheld.window
      rw [collectionHoldUntil_past hpast] at hhold
      cases hhold
    · exact absurd hc (hnone k c)
    · exact (hopen hn).elim
  | presented order' k' c' e events hn => exact (hopen hn).elim
  | closed order' _ _ => exact closed_waits hc

/-- Once the search is over, no price is shown. -/
theorem Promoted.unshown {t : Table CounterOfferId OrderCounterOffer} (h : Promoted w id t)
    (horder : w.orders.get id = some order) (hpast : order.searchExpiresAt.any (· ≤ w.now) = true)
    (hc : w.Waits id k c) : ∃ c', t.get k = some c' ∧ c'.presentedAt = none := by
  cases h with
  | same h => exact ⟨c, h ▸ hc.row, hc.unpresented⟩
  | shown order' k' c' e hn _ _ _ _ =>
    cases hn.free.row.symm.trans horder
    rw [hn.open] at hpast
    cases hpast
  | closed order' _ _ hrows _ => exact ⟨_, hrows k c hc, hc.unpresented⟩

end Effects

/-- A promotion shows the best waiting price, one at a time. -/
theorem promote_presents (w w' : World) (id : OrderId) (r : Except Err (Option CounterOfferId))
    (hwindow : 0 < w.setting.counterOfferWindowMinutes)
    (hrun : (promote id).Ends machine anyFate w r w') :
    Promoted w id w'.counterOffers ∧
    (∀ order, w.orders.get id = some order → order.searchExpiresAt.any (· ≤ w.now) = true →
      (∀ k c, w.Waits id k c → ∃ c', w'.counterOffers.get k = some c' ∧ c'.presentedAt = none) ∧
      (w.Free id order → (∃ answer, r = .ok answer) → ∀ k c, w.Waits id k c →
        w'.counterOffers.get k = some { c with status := .expired, respondedAt := some w.now })) ∧
    w' = { w with counterOffers := w'.counterOffers, events := w'.events } := by
  have hend := (promote_spec failsOnly_any fun _ => trivial).ends rfl hrun
  have hboth : Promoted w id w'.counterOffers ∧
      w' = { w with counterOffers := w'.counterOffers, events := w'.events } := by
    cases r with
    | ok answer => exact ⟨Promotion.promoted hwindow hend, Promotion.beside hend⟩
    | error err =>
      replace hend : Broken w id w' := hend.2
      cases hend with
      | same => exact ⟨.same rfl, rfl⟩
      | presented order k c e h => exact ⟨h.promoted hwindow, rfl⟩
  refine ⟨hboth.1, fun order horder hpast => ⟨fun k c hc => ?_, fun hfree hok k c hc => ?_⟩,
    hboth.2⟩
  · exact hboth.1.unshown horder hpast hc
  · obtain ⟨answer, rfl⟩ := hok
    exact Promotion.past hend hfree hpast hc

/-- A price of 54 is being paid when the search ends, and one of 60 waits. -/
def lateOrder : World :=
  { World.empty with
    orders := Table.empty.set 1
      ⟨3, none, unassigned, 4000, 667, 3333, some 9000, none, none, none, none, 1⟩
    counterOffers :=
      (Table.empty.set 1
        ⟨1, 7, .accepting, 5400, 900, 4500, some 900, 9000, some 9500, none, 100⟩).set 2
        ⟨1, 8, .pending, 6000, 1000, 5000, none, 9000, none, none, 950⟩
    now := 9000 }

/-- The search is over, and the price that waits is not closed. -/
theorem lateOrder_kept : presentedConflict lateOrder.counterOffers = false ∧
    (lateOrder.orders.get 1).any (fun o => o.status = unassigned && o.inspectorId.isNone &&
      o.searchExpiresAt.any (· ≤ lateOrder.now)) = true ∧
    ((promote 1).alone machine .ok lateOrder).1 = .ok none ∧
    ((promote 1).alone machine .ok lateOrder).2.counterOffers.get 2 =
      some ⟨1, 8, .pending, 6000, 1000, 5000, none, 9000, none, none, 950⟩ := by decide +kernel

/-- Two prices of 54 and one of 60 whose collection window ended. -/
def fullQueue : World :=
  { World.empty with
    orders := Table.empty.set 1
      ⟨3, none, unassigned, 4000, 667, 3333, some 9000000, none, none, none, none, 1⟩
    counterOffers :=
      ((Table.empty.set 1 ⟨1, 7, .pending, 6000, 1000, 5000, none, 9000000, none, none, 100⟩).set 2
        ⟨1, 8, .pending, 5400, 900, 4500, none, 9000000, none, none, 950⟩).set 3
        ⟨1, 9, .pending, 5400, 900, 4500, none, 9000000, none, none, 940⟩
    now := 700000 }

/-- The earlier of the two cheapest is shown. -/
theorem fullQueue_shown :
    ((promote 1).alone machine .ok fullQueue).2.counterOffers.get 3 =
      some ⟨1, 9, .pending, 5400, 900, 4500, some 700000, 1900000, none, none, 940⟩ ∧
    Promoted fullQueue 1 ((promote 1).alone machine .ok fullQueue).2.counterOffers := by
  refine ⟨by decide +kernel, ?_⟩
  exact (promote_presents fullQueue _ 1 _ (by decide) (ends_alone (fun _ _ => trivial) _ _)).1

end CarSalePro
