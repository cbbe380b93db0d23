import CarSalePro.Interleave.Within
import CarSalePro.Laws.Promotion
import CarSalePro.Orders.CounterOfferCreation
import CarSalePro.Orders.Effects

namespace CarSalePro

open Store Interleave Prog OrderStatus

namespace World

/-- No price stays on a screen past its time. -/
def Fresh (w : World) : Prop :=
  ∀ k c, w.counterOffers.get k = some c → c.status = .pending → c.presentedAt ≠ none →
    w.now < c.expiresAt

/-- A price of the order is on the customer's screen, in its time. -/
def Showing (w : World) (o : OrderId) : Prop :=
  ∃ k c, w.counterOffers.get k = some c ∧ c.orderId = o ∧ c.status = .pending ∧
    c.presentedAt ≠ none ∧ w.now < c.expiresAt

/-- The order waits for an expert, before the end of its search and with no price being paid. -/
structure Searching (w : World) (o : OrderId) : Prop where
  row : ∃ order, w.orders.get o = some order ∧ order.status = unassigned ∧
    order.inspectorId = none ∧ order.searchExpiresAt.all (w.now < ·) = true
  unpaid : ∀ k c, w.counterOffers.get k = some c → c.orderId = o → c.status ≠ .accepting

/-- The price was named before the collection window. -/
def Due (w : World) (c : OrderCounterOffer) : Prop :=
  c.createdAt + minutes w.setting.counterOfferCollectMinutes ≤ w.now

/-- Where a due price waits for a turn, one is shown. -/
def Turned (w : World) (o : OrderId) : Prop :=
  w.Searching o → (∃ k c, w.Waits o k c ∧ w.Due c) → w.Showing o

/-- Where a price is due, shown before or not, one is shown. -/
def Settled (w : World) (o : OrderId) : Prop :=
  w.Searching o → (∃ k c, w.counterOffers.get k = some c ∧ c.orderId = o ∧ c.status = .pending ∧
    w.Due c) → w.Showing o

/-- A due price that does not wait for its turn is on the screen, in its time. -/
theorem Turned.settled {w : World} {o : OrderId} (h : w.Turned o) (hw : w.Fresh) : w.Settled o := by
  intro hsearch hdue
  obtain ⟨k, c, hc, horder, hp, hcdue⟩ := hdue
  by_cases hshown : c.presentedAt = none
  · exact h hsearch ⟨k, c, ⟨hc, horder, hp, hshown⟩, hcdue⟩
  · exact ⟨k, c, hc, horder, hp, hshown, hw k c hc hp hshown⟩

/-- The index is respected, and the answer window is open for some time. -/
structure Ready (w : World) : Prop where
  index : presentedConflict w.counterOffers = false
  window : 0 < w.setting.counterOfferWindowMinutes

end World

section Promotions

variable {w w' : World} {id o : OrderId} {order : Order} {k : CounterOfferId}
  {c : OrderCounterOffer} {r : Option CounterOfferId} {t : Table CounterOfferId OrderCounterOffer}

/-- A row that does not wait is left as it is. -/
theorem Promoted.kept (h : Promoted w id t) (hk : ∀ c, ¬ w.Waits id k c) :
    t.get k = w.counterOffers.get k := by
  cases h with
  | same h => rw [h]
  | shown order k' c' e hn _ hothers _ _ =>
    exact hothers k fun heq => hk c' (heq ▸ hn.waits)
  | closed order _ _ _ hothers => exact hothers k hk

/-- A row that waits afterwards has waited all along. -/
theorem Promoted.waiting (h : Promoted w id t) (hc : t.get k = some c) (hp : c.status = .pending)
    (hu : c.presentedAt = none) : w.counterOffers.get k = some c := by
  cases h with
  | same h => exact h ▸ hc
  | shown order k' c' e hn hrow hothers _ _ =>
    by_cases hk : k = k'
    · subst hk
      cases hc.symm.trans hrow
      cases hu
    · exact (hothers k hk).symm.trans hc
  | closed order _ _ hrows hothers =>
    by_cases hw : ∃ c', w.Waits id k c'
    · obtain ⟨c', hw⟩ := hw
      cases hc.symm.trans (hrows k c' hw)
      cases hp
    · exact (hothers k fun c' hc' => hw ⟨c', hc'⟩).symm.trans hc

theorem Promoted.fresh (h : Promoted w id t) (hw : w.Fresh) :
    ({ w with counterOffers := t } : World).Fresh := by
  intro k c hc hp hshown
  cases h with
  | same h => exact hw k c (h ▸ hc) hp hshown
  | shown order k' c' e hn hrow hothers hlater _ =>
    by_cases hk : k = k'
    · subst hk
      cases hc.symm.trans hrow
      exact hlater
    · exact hw k c ((hothers k hk).symm.trans hc) hp hshown
  | closed order _ _ hrows hothers =>
    by_cases hwaits : ∃ c', w.Waits id k c'
    · obtain ⟨c', hwaits⟩ := hwaits
      cases hc.symm.trans (hrows k c' hwaits)
      cases hp
    · exact hw k c ((hothers k fun c' hc' => hwaits ⟨c', hc'⟩).symm.trans hc) hp hshown

/-- On a screen that is free and fresh there is room for the next price. -/
theorem shown_conflict {e : Time} (hw : w.Fresh) (hready : w.Ready) (hn : w.Next id order k c e) :
    presentedConflict (w.shown k e) = false := by
  rw [← Bool.not_eq_true]
  intro hconflict
  obtain ⟨j, x, j', x', hx, hx', hne, hp, hp', hid⟩ := presentedConflict_iff.mp hconflict
  rw [shown_get hn.waits] at hx hx'
  -- no other row of the order is on the screen
  have hscreen {i : CounterOfferId} {y : OrderCounterOffer} (hi : w.counterOffers.get i = some y)
      (hy : y.presented = true) (ho : y.orderId = id) : False := by
    obtain ⟨hunpaid, htime⟩ := hn.free.screen i y hi ho
    simp only [OrderCounterOffer.presented, Bool.or_eq_true, Bool.and_eq_true,
      decide_eq_true_eq] at hy
    rcases hy with hy | ⟨hy, hshown⟩
    · exact hunpaid hy
    · have hne' := Option.isSome_iff_ne_none.mp hshown
      exact absurd (hw i y hi hy hne') (not_lt.mpr (htime hy hne'))
  split at hx
  next hj =>
    cases hx
    rw [if_neg (hj ▸ hne)] at hx'
    exact hscreen hx' hp' (hid.trans hn.waits.order)
  next hj =>
    split at hx'
    next hj' =>
      cases hx'
      exact hscreen hx hp (hid.symm.trans hn.waits.order)
    next =>
      have hold := presentedConflict_iff.mpr ⟨j, x, j', x', hx, hx', hne, hp, hp', hid⟩
      rw [hready.index] at hold
      cases hold

/-- A price that was due is not held back. -/
theorem due_unheld (hc : w.Waits id k c) (hdue : w.Due c) : ¬ w.Held id order := by
  intro hheld
  obtain ⟨k', c', _, hleast, hhold⟩ := hheld.window
  have hstop : c'.createdAt + minutes w.setting.counterOfferCollectMinutes ≤ w.now :=
    (Nat.add_le_add_right (hleast k c hc) _).trans hdue
  unfold collectionHoldUntil at hhold
  simp [hstop] at hhold

/-- After its promotion a due price of the order has had its turn. -/
theorem Promotion.turns (h : Promotion w id r w') (hw : w.Fresh) (hready : w.Ready) :
    w'.Turned id := by
  intro hsearch hdue
  obtain ⟨⟨order, horder, hstatus, hclaim, hopen⟩, hunpaid⟩ := hsearch
  obtain ⟨k, c, hc, hcdue⟩ := hdue
  cases h with
  | idle h =>
    by_contra hnone
    have hfree : w.Free id order := by
      refine ⟨horder, hstatus, hclaim, fun j x hx hid => ⟨hunpaid j x hx hid, fun hp hs => ?_⟩⟩
      exact not_lt.mp fun hlt => hnone ⟨j, x, hx, hid, hp, hs, hlt⟩
    rcases h order hfree with hheld | hnobody | ⟨j, x, e, hn, hconflict⟩
    · exact due_unheld hc hcdue hheld
    · exact hnobody k c hc
    · rw [shown_conflict hw hready hn] at hconflict
      cases hconflict
  | presented order' j x e events hn =>
    have hlater := (counterOfferExpiry_some hready.window hn.expiry).1
    refine ⟨j, { x with presentedAt := some w.now, expiresAt := e }, ?_, hn.waits.order,
      hn.waits.pending, nofun, hlater⟩
    exact (shown_get hn.waits).trans (if_pos rfl)
  | closed order' hfree hpast =>
    have hsame : order' = order := Option.some.inj (hfree.row.symm.trans horder)
    rw [hsame] at hpast
    cases hd : order.searchExpiresAt with
    | none =>
      rw [hd] at hpast
      cases hpast
    | some d =>
      rw [hd] at hpast hopen
      simp only [Option.any_some, Option.all_some, decide_eq_true_eq] at hpast hopen
      exact absurd hopen (not_lt.mpr hpast)

/-- The promotion of another order takes nobody's turn away. -/
theorem Promoted.turned (h : Promoted w id t) {events : List OrderEvent} (hs : w.Turned o) :
    ({ w with counterOffers := t, events := events } : World).Turned o := by
  intro hsearch hdue
  obtain ⟨hrow, hunpaid⟩ := hsearch
  obtain ⟨k, c, hc, hcdue⟩ := hdue
  have hunpaid' : ∀ j x, w.counterOffers.get j = some x → x.orderId = o →
    x.status ≠ .accepting := by
    intro j x hx hid hacc
    have hkept : t.get j = some x := by
      refine (h.kept fun y hy => ?_).trans hx
      cases hx.symm.trans hy.row
      have hp := hy.pending
      rw [hacc] at hp
      cases hp
    exact hunpaid j x hkept hid hacc
  have hwaits : w.Waits o k c :=
    ⟨h.waiting hc.row hc.pending hc.unpresented, hc.order, hc.pending, hc.unpresented⟩
  obtain ⟨j, x, hx, hid, hp, hshown, hlater⟩ := hs ⟨hrow, hunpaid'⟩ ⟨k, c, hwaits, hcdue⟩
  refine ⟨j, x, (h.kept fun y hy => ?_).trans hx, hid, hp, hshown, hlater⟩
  cases hx.symm.trans hy.row
  exact hshown hy.unpresented

theorem Promotion.ready (h : Promotion w id r w') (hw : w.Fresh) (hready : w.Ready) : w'.Ready := by
  cases h with
  | idle h => exact hready
  | presented order k c e events hn => exact ⟨shown_conflict hw hready hn, hready.window⟩
  | closed order hfree hpast =>
    refine ⟨?_, hready.window⟩
    rw [← Bool.not_eq_true]
    intro hconflict
    have hold := closed_conflict hconflict
    rw [hready.index] at hold
    cases hold

end Promotions

section Index

variable {w : World} {s : Stmt} {c : Fate}

theorem World.Ready.exec (h : w.Ready) : (World.exec s c w).2.Ready := by
  have hframe := World.frame_exec s c w
  refine ⟨index_exec h.index, ?_⟩
  unfold World.setting
  rw [hframe.settings, hframe.now]
  exact h.window

end Index

section Sweep

variable {α : Type} {ok : Label Site Stmt → Fate → World → Prop} {n : Time}

/-- Any program, at any instant. -/
theorem ready_spec (p : Act α) : Triple machine ok (fun v => v.Ready ∧ v.now = n) p
    (fun _ v => v.Ready ∧ v.now = n) fun _ v => v.Ready ∧ v.now = n := by
  apply Triple.keeps (only_all p)
  intro s c w _ _ hw
  exact ⟨hw.1.exec, (World.frame_exec s c w).now.trans hw.2⟩

/-- What a promotion does to an order that is fresh. -/
theorem freshPromotion_spec (id : OrderId) (A : OrderId → Prop) :
    Triple machine databaseServes
      (fun v => v.Ready ∧ v.Fresh ∧ v.now = n ∧ ∀ o, A o → v.Turned o) (promote id)
      (fun _ v => v.Ready ∧ v.Fresh ∧ v.now = n ∧ v.Turned id ∧ ∀ o, A o → v.Turned o)
      fun _ _ => False := by
  refine Triple.each fun w hw => ?_
  obtain ⟨hready, hfresh, hnow, hturned⟩ := hw
  have hclean : presentedConflict w.counterOffers = true → False := by
    rw [hready.index]
    nofun
  refine (promote_spec failsOnly_up hclean).weaken (fun _ h => h) (fun r v h => ?_) fun _ _ h => h.1
  have hpromoted := h.promoted hready.window
  have hbeside := h.beside
  refine ⟨h.ready hfresh hready, ?_, ?_, h.turns hfresh hready, fun o ho => ?_⟩
  · have hfresh' := hpromoted.fresh hfresh
    rw [hbeside]
    exact hfresh'
  · rw [hbeside]
    exact hnow
  · rw [hbeside]
    exact hpromoted.turned (hturned o ho)

/-- The promotion of one order, as the others see it. -/
theorem presentOne_spec (id : OrderId) (A : OrderId → Prop) :
    Triple machine databaseServes
      (fun v => v.Ready ∧ v.Fresh ∧ v.now = n ∧ ∀ o, A o → v.Turned o) (guarded do
        let promoted ← promote id
        pure promoted.isSome)
      (fun _ v => v.Ready ∧ v.Fresh ∧ v.now = n ∧ v.Turned id ∧ ∀ o, A o → v.Turned o)
      fun _ _ => False := by
  refine Discipline.Flow.catch (X := fun _ (P : World → Prop) => ∀ v, P v → False) ?_ fun _ => ?_
  · exact (freshPromotion_spec id A).seq fun _ => .pure fun _ hv => hv
  · exact .pure fun _ hv v hP => (hv v hP).elim

/-- The loop over the orders whose window ended: those still to come are the only ones that may
miss a turn. -/
theorem collect_spec (ids : List OrderId) :
    Triple machine databaseServes
      (fun v => v.Ready ∧ v.Fresh ∧ v.now = n ∧ ∀ o, o ∉ ids → v.Turned o)
      (countEach ids fun id => guarded do
        let promoted ← promote id
        pure promoted.isSome)
      (fun _ v => v.Fresh ∧ v.now = n ∧ ∀ o, v.Turned o) fun _ _ => False := by
  induction ids with
  | nil =>
    refine .ret fun _ hx v hv => ?_
    obtain ⟨-, hfresh, hnow, hturned⟩ := hx v hv
    exact ⟨hfresh, hnow, fun o => hturned o nofun⟩
  | cons id ids ih =>
    refine Discipline.Flow.bind (presentOne_spec id fun o => o ∉ id :: ids) fun _ => ?_
    refine Discipline.Flow.bind (ih.weaken (fun v hv => ?_) (fun _ _ h => h) fun _ _ h => h)
      fun _ => .ret fun _ hx => hx
    obtain ⟨hready, hfresh, hnow, hid, hrest⟩ := hv
    refine ⟨hready, hfresh, hnow, fun o ho => ?_⟩
    by_cases hsame : o = id
    · rw [hsame]
      exact hid
    · exact hrest o (by simp [hsame, ho])

theorem sweepCollected_spec {w : World} (hready : w.Ready) (hfresh : w.Fresh) :
    Triple machine databaseServes (· = w) sweepCollected
      (fun _ v => v.now = w.now ∧ ∀ o, v.Settled o) fun _ _ => False := by
  have hX : False → ∀ _ : Err, False := fun h _ => h
  apply pinned_read failsOnly_up (by trivial) hX
  apply pinned_read failsOnly_up (by trivial) hX
  apply pinned_read failsOnly_up (by trivial) hX
  refine (collect_spec _).weaken (fun v hv => ?_)
    (fun _ v hv => ⟨hv.2.1, fun o => (hv.2.2 o).settled hv.1⟩) fun _ _ h => h
  subst hv
  refine ⟨hready, hfresh, rfl, fun o ho _ hdue => ?_⟩
  obtain ⟨k, c, hc, hcdue⟩ := hdue
  refine absurd ?_ ho
  rw [List.mem_eraseDups]
  refine List.mem_map.mpr ⟨(k, c), Table.mem_findMany.mpr ⟨hc.row, ?_⟩, hc.order⟩
  unfold World.Due at hcdue
  simp [hc.pending, hc.unpresented, hcdue]

/-- The prices on a screen past their time. -/
def World.overdue (w : World) : List (CounterOfferId × OrderCounterOffer) :=
  w.counterOffers.findMany fun _ c =>
    c.status = .pending && c.presentedAt.isSome && c.expiresAt ≤ w.now

theorem expirePresented_get {w : World} {ids : List CounterOfferId} {at_ : Time}
    {k : CounterOfferId} {c : OrderCounterOffer}
    (hc : (w.counterOffers.rewrite fun k c =>
      CounterOfferStmt.rewrite w.now k c (.expirePresented ids at_)).get k = some c)
    (hp : c.status = .pending) : w.counterOffers.get k = some c ∧ k ∉ ids := by
  rw [Table.get_rewrite] at hc
  obtain ⟨x, hx, hrow⟩ := Option.map_eq_some_iff.mp hc
  simp only [CounterOfferStmt.rewrite] at hrow
  split at hrow
  next =>
    cases hrow
    cases hp
  next hno =>
    cases hrow
    exact ⟨hx, fun hk => hno ⟨hk, hp⟩⟩

/-- Closing the prices past their time takes them off the screens. -/
theorem expire_spec {w : World} (hready : w.Ready) :
    Triple machine databaseServes (· = w) (Prog.when (w.overdue ≠ [])
      (issue (.counterOffer (.expirePresented (w.overdue.map (·.1)) w.now))))
      (fun _ v => v.Ready ∧ v.Fresh ∧ v.now = w.now) fun _ _ => False := by
  have hoverdue {k : CounterOfferId} {c : OrderCounterOffer} (hc : w.counterOffers.get k = some c)
      (hp : c.status = .pending) (hs : c.presentedAt ≠ none) (hlate : c.expiresAt ≤ w.now) :
      (k, c) ∈ w.overdue := by
    refine Table.mem_findMany.mpr ⟨hc, ?_⟩
    simp [hp, hlate, Option.isSome_iff_ne_none.mpr hs]
  apply Discipline.Flow.when
  · intro _
    refine Discipline.Flow.seq
      (B := fun _ (P : World → Prop) => ∀ v, P v → v.Ready ∧ v.Fresh ∧ v.now = w.now) ?_
      fun _ => .pure fun _ hv => hv
    refine Triple.perform fun f v hv hf => ?_
    subst hv
    have hready' := hready.exec (s := .counterOffer (.expirePresented (v.overdue.map (·.1)) v.now))
      (c := f)
    rw [show machine.exec = World.exec from rfl]
    rcases exec_prices (.expirePresented (v.overdue.map (·.1)) v.now) f v with
      ⟨err, he, hdown | ⟨_, hconflict⟩⟩ | he
    · exact absurd hdown.1 (hf (by trivial))
    · have hold := presentedConflict_rewrite (fun k c c' hc => ?_) hconflict
      · rw [hready.index] at hold
        cases hold
      · simp only [CounterOfferStmt.rewrite] at hc
        split at hc
        · cases hc
          exact ⟨rfl, fun h => by simp [OrderCounterOffer.presented] at h⟩
        · cases hc
    · rw [he] at hready' ⊢
      refine ⟨hready', fun k c hc hp hs => ?_, rfl⟩
      obtain ⟨hold, hno⟩ := expirePresented_get hc hp
      refine not_le.mp fun hlate => hno ?_
      exact List.mem_map.mpr ⟨(k, c), hoverdue hold hp hs hlate, rfl⟩
  · intro hnone P hP v hv
    cases hP v hv
    refine ⟨hready, fun k c hc hp hs => not_le.mp fun hlate => ?_, rfl⟩
    have hmem := hoverdue hc hp hs hlate
    rw [not_ne_iff.mp hnone] at hmem
    cases hmem

/-- After a sweep every order is settled. -/
theorem sweepExpired_spec {w : World} (hready : w.Ready) :
    Triple machine databaseServes (· = w) sweepExpired
      (fun _ v => v.now = w.now ∧ ∀ o, v.Settled o) fun _ _ => False := by
  have hX : False → ∀ _ : Err, False := fun h _ => h
  apply pinned_read failsOnly_up (by trivial) hX
  apply pinned_read failsOnly_up (by trivial) hX
  have habandon (orders : List (CounterOfferId × OrderCounterOffer)) :
      Triple machine databaseServes (· = w)
        (forEach orders fun c => quietly (abandonCounterOfferPayment c.2.orderId false))
        (fun _ v => v.Ready ∧ v.now = w.now) fun _ _ => False := by
    have hloop : Triple machine databaseServes (fun v => v.Ready ∧ v.now = w.now)
        (forEach orders fun c => quietly (abandonCounterOfferPayment c.2.orderId false))
        (fun _ v => v.Ready ∧ v.now = w.now) fun _ _ => False :=
      Discipline.Flow.forEach fun c _ => Discipline.Flow.quietly (ready_spec _)
    exact hloop.weaken (fun v hv => by rw [hv]; exact ⟨hready, rfl⟩)
      (fun _ _ h => h) fun _ _ h => h
  refine Discipline.Flow.seq (habandon _) fun _ => Triple.each fun v hv => ?_
  obtain ⟨hready', hnow⟩ := hv
  rw [← hnow]
  apply pinned_read failsOnly_up (by trivial) hX
  refine Discipline.Flow.seq (expire_spec hready') fun _ => ?_
  have hpromotions (ids : List OrderId) : Triple machine databaseServes
      (fun u => u.Ready ∧ u.Fresh ∧ u.now = v.now) (forEach ids promoteQuietly)
      (fun _ u => u.Ready ∧ u.Fresh ∧ u.now = v.now) fun _ _ => False := by
    refine Discipline.Flow.forEach fun id _ => Discipline.Flow.quietly ?_
    refine (freshPromotion_spec (n := v.now) id fun _ => False).weaken (fun u hu => ?_)
      (fun _ u hu => ?_)
      fun _ _ h => h.elim
    · exact ⟨hu.1, hu.2.1, hu.2.2, nofun⟩
    · exact ⟨hu.1, hu.2.1, hu.2.2.1⟩
  refine Discipline.Flow.seq (hpromotions _) fun _ => Triple.each fun u hu => ?_
  obtain ⟨hready'', hfresh, hnow'⟩ := hu
  rw [← hnow']
  refine Discipline.Flow.seq (sweepCollected_spec hready'' hfresh).attempt fun r => ?_
  cases r with
  | ok presented => exact .pure fun _ hx => hx
  | error e => exact .pure fun _ hx u hu => (hx u hu).elim

end Sweep

section Runs

/-- The orders that had a price shown. -/
abbrev ShownLog := OrderId → Bool

/-- A price of the order bears the mark of having been shown. -/
def World.presentedOn (w : World) (o : OrderId) : Bool :=
  w.counterOffers.any fun _ c => c.orderId = o && c.presentedAt.isSome

def recordPresented : Recorder Site Stmt World ShownLog :=
  fun _ _ _ w' shown o => shown o || w'.presentedOn o

/-- A price that is named again is not the only one of its order with the mark. -/
def keepsShown : StepGuard ShownLog
  | _, .call (.upsertCounterOffer order inspector _), c, x =>
    c = .down || (x.1.ownCounterOffer order inspector).all fun own => own.2.presentedAt.isNone ||
      x.1.counterOffers.any fun k r => k ≠ own.1 && r.orderId = order && r.presentedAt.isSome
  | _, _, _, _ => true

variable {w : World} {o : OrderId} {s : Stmt} {c : Fate} {x : World × ShownLog} {t : Nat}

theorem World.presentedOn_iff : w.presentedOn o = true ↔
    ∃ k c, w.counterOffers.get k = some c ∧ c.orderId = o ∧ c.presentedAt ≠ none := by
  unfold World.presentedOn
  simp only [Table.any_eq_true, Bool.and_eq_true, decide_eq_true_eq, Option.isSome_iff_ne_none]

/-- No rewriting of the prices takes the mark away. -/
theorem CounterOfferStmt.rewrite_shown {now : Time} {k : CounterOfferId} {r r' : OrderCounterOffer}
    {u : CounterOfferStmt} (h : u.rewrite now k r = some r') :
    r'.orderId = r.orderId ∧ (r.presentedAt ≠ none → r'.presentedAt ≠ none) := by
  cases u with
  | returnFromPayment id stillOpen at_ =>
    simp only [CounterOfferStmt.rewrite] at h
    split at h
    · cases stillOpen <;> (cases h; exact ⟨rfl, fun hr => hr⟩)
    · cases h
  | present id at_ expiresAt =>
    simp only [CounterOfferStmt.rewrite] at h
    split at h
    · cases h
      exact ⟨rfl, fun _ => by simp⟩
    · cases h
  | _ =>
    simp only [CounterOfferStmt.rewrite] at h
    split at h
    · cases h
      exact ⟨rfl, fun hr => hr⟩
    · cases h

theorem presentedOn_rewrite {v : World}
    {f : CounterOfferId → OrderCounterOffer → Option OrderCounterOffer}
    (hf : ∀ k r r', f k r = some r' →
      r'.orderId = r.orderId ∧ (r.presentedAt ≠ none → r'.presentedAt ≠ none))
    (hv : v.counterOffers = w.counterOffers.rewrite f) (h : w.presentedOn o = true) :
    v.presentedOn o = true := by
  obtain ⟨k, r, hr, hid, hshown⟩ := World.presentedOn_iff.mp h
  refine World.presentedOn_iff.mpr ⟨k, (f k r).getD r, ?_, ?_⟩
  · rw [hv, Table.get_rewrite, hr, Option.map_some]
  · cases hfr : f k r with
    | none => exact ⟨hid, hshown⟩
    | some r' => exact ⟨(hf k r r' hfr).1.trans hid, (hf k r r' hfr).2 hshown⟩

/-- Only a price that is named again loses the mark. -/
theorem exec_presented (hC : keepsShown t (.call s) c x) (h : x.1.presentedOn o = true) :
    (World.exec s c x.1).2.presentedOn o = true := by
  obtain ⟨w, shown⟩ := x
  by_cases ht : s.touchesCounterOffers = false
  · unfold World.presentedOn
    rw [(World.frame_exec s c w).counterOffers ht]
    exact h
  rcases World.exec_cases s c w with ⟨call, rfl, _⟩ | ⟨_, _, he⟩ | ⟨_, hup, he⟩
  · exact absurd rfl ht
  · rw [he]
    exact h
  · rw [he]
    cases s with
    | counterOffer u =>
      simp only [World.write, World.writeCounterOffer]
      split
      next => exact h
      next => exact presentedOn_rewrite (fun k r r' hr => u.rewrite_shown hr) rfl h
    | upsertCounterOffer order inspector terms =>
      simp only [World.write, World.upsertCounterOffer]
      obtain ⟨k, r, hr, hid, hshown⟩ := World.presentedOn_iff.mp h
      have hbeside {j j' : CounterOfferId} {y y' : OrderCounterOffer} (hj : j ≠ j')
          (hget : w.counterOffers.get j = some y) : (w.counterOffers.set j' y').get j = some y := by
        rw [Table.get_set, if_neg hj]
        exact hget
      split
      next own y hown =>
        by_cases hk : k = own
        · -- the row itself is named again, and another bears the mark
          have hy : y = r :=
            Option.some.inj ((World.ownCounterOffer_some hown).1.symm.trans (hk ▸ hr))
          simp only [keepsShown, hup, decide_false, Bool.false_or, hown, Option.all_some,
            Bool.or_eq_true, Option.isNone_iff_eq_none, Table.any_eq_true, Bool.and_eq_true,
            decide_eq_true_eq] at hC
          rcases hC with hC | ⟨k', r', hr', ⟨hne, hid'⟩, hshown'⟩
          · exact absurd (hy ▸ hC) hshown
          · have horder := (World.ownCounterOffer_some hown).2.1
            refine World.presentedOn_iff.mpr
              ⟨k', r', hbeside hne hr', ?_, Option.isSome_iff_ne_none.mp hshown'⟩
            rw [hid', ← hid, ← hy, horder]
        · exact World.presentedOn_iff.mpr ⟨k, r, hbeside hk hr, hid, hshown⟩
      next =>
        refine World.presentedOn_iff.mpr ⟨k, r, hbeside ?_ hr, hid, hshown⟩
        intro hk
        rw [hk, Table.get_fresh] at hr
        cases hr
    | sale order counter price at_ =>
      simp only [World.write, World.writeSale]
      split
      · exact h
      · refine presentedOn_rewrite (fun k r r' hr => ?_) rfl h
        split at hr
        · cases hr
          exact ⟨rfl, fun hs => hs⟩
        · cases hr
    | _ => exact absurd rfl ht

/-- An order with the mark is not held back. -/
theorem unheld_spec {order : Order} {now : Time} (h : w.presentedOn o = true) :
    Triple machine anyFate (· = w) (heldForCollection o order now) (fun b _ => b = false)
      fun _ _ => True := by
  apply pinned_read failsOnly_any (by trivial) fun _ _ => trivial
  unfold World.presentedOn at h
  rw [h]
  exact Triple.pure fun _ _ => rfl

/-- Along a run the mark is there for every order that had a price shown. -/
structure Marked (x : World × ShownLog) : Prop where
  index : presentedConflict x.1.counterOffers = false
  window : ∀ t, 0 < (x.1.settings t).counterOfferWindowMinutes
  shown : ∀ o, x.2 o = true → x.1.presentedOn o = true

theorem Marked.step {y : World × ShownLog} (h : Marked x)
    (hs : Pool.StepOf machine recordPresented keepsShown x y) : Marked y := by
  cases hs with
  | env c =>
    cases c with
    | elapse ms => exact ⟨h.index, h.window, h.shown⟩
    | _ => exact h
  | ask t l c hC =>
    refine ⟨h.index, h.window, fun o ho => ?_⟩
    rcases Bool.or_eq_true_iff.mp ho with ho | ho
    · exact h.shown o ho
    · exact ho
  | call t s c hC =>
    refine ⟨index_exec h.index, fun u => ?_, fun o ho => ?_⟩
    · rw [show machine.exec = World.exec from rfl, (World.frame_exec s c x.1).settings]
      exact h.window u
    · rcases Bool.or_eq_true_iff.mp ho with ho | ho
      · exact exec_presented hC (h.shown o ho)
      · exact ho

/-- What the queue owes an order: no window once a price was shown, and after a sweep no due price
before an empty screen. -/
structure QueueMoves (g : Run ShownLog) : Prop where
  once : ∀ o, g.hist o = true → ∀ order now r w',
    (heldForCollection o order now).Ends machine anyFate g.state r w' → r ≠ .ok true
  settled : ∀ r w', sweepExpired.Ends machine databaseServes g.state r w' → ∀ o, w'.Settled o

theorem Marked.moves {g : Run ShownLog} (h : Marked g.snapshot) : QueueMoves g where
  once o ho order now r w' hends hr := by
    have hend := (unheld_spec (h.shown o ho)).ends rfl hends
    rw [hr] at hend
    cases hend
  settled r w' hends := by
    have hready : g.state.Ready := ⟨h.index, h.window g.state.now⟩
    have hend := (sweepExpired_spec hready).ends rfl hends
    cases r with
    | ok swept => exact hend.2
    | error e => exact hend.elim

end Runs

/-- The queue holds once, and never stalls, while no price named again was the only one shown. -/
theorem queue_holds_once (w : World) (ops : List PriceOp) (g : Run ShownLog)
    (hindex : presentedConflict w.counterOffers = false)
    (hwindow : ∀ t, 0 < (w.settings t).counterOfferWindowMinutes)
    (hrun : Pool.Reach machine recordPresented keepsShown (PriceOp.launch w w.presentedOn ops) g) :
    QueueMoves g := by
  have hmarked : Marked g.snapshot :=
    hrun.invariant ⟨hindex, hwindow, fun _ h => h⟩ fun _ _ => Marked.step
  exact hmarked.moves

/-- An order that nobody took, and two inspectors who may name a price for it. -/
def pricedTwice : World :=
  { World.empty with
    orders := Table.empty.set 1
      ⟨3, none, unassigned, 4000, 667, 3333, none, none, none, none, none, 1⟩
    inspectors := (Table.empty.set 7 ⟨true, true, true, some 1, 0, none, none, true, 300⟩).set 8
      ⟨true, true, true, some 2, 0, none, none, true, 300⟩
    distanceKmOf := fun _ _ _ => some 12
    fairPriceOf := fun _ _ _ _ => ⟨5000, 833, 4167⟩ }

/-- Both name a price, the cheaper one is shown, both take theirs back, and one names it again. -/
def twoPrices : Run ShownLog :=
  PriceOp.launch pricedTwice pricedTwice.presentedOn
    [.create 1 8 4500, .create 1 7 4400, .trade .sweepExpired, .trade (.withdraw 1 8),
      .trade (.withdraw 2 7), .create 1 7 4450]

/-- The schedule of the first five. -/
def untilWithdrawn : List (Move Fate) :=
  goes 0 23 ++ [.env (.elapse 540000)] ++ goes 1 23 ++ [.env (.elapse 60000)] ++ goes 2 16 ++
    goes 3 6 ++ goes 4 8

/-- The order had a price shown, and whether its next one is held back. -/
def holdView (g : Run ShownLog) : Bool × Option Bool :=
  (g.hist 1, (g.state.orders.get 1).bind fun order =>
    ((heldForCollection 1 order g.state.now).alone machine .ok g.state).1.toOption)

/-- After a price was named again the collection window holds the queue a second time. -/
theorem named_again_holds : ¬ ∀ (w : World) (ops : List PriceOp) (g : Run ShownLog),
    presentedConflict w.counterOffers = false →
    (∀ t, 0 < (w.settings t).counterOfferWindowMinutes) →
    Pool.Reach machine recordPresented anyStep (PriceOp.launch w w.presentedOn ops) g →
    QueueMoves g := by
  intro hlaw
  have hrun : Pool.observe machine recordPresented anyStep holdView
      (untilWithdrawn ++ [.run 4 .ok] ++ goes 5 22) (.run 5 .ok) twoPrices =
      some ((true, some true), (true, some true)) := by decide +kernel
  obtain ⟨g, g', hg, -, -, hview, -⟩ := Pool.observe_eq hrun
  obtain ⟨hshown, hheld⟩ := Prod.mk.inj hview
  have hmoves := hlaw pricedTwice _ g (by decide +kernel) (fun _ => Nat.succ_pos 19) hg
  obtain ⟨order, -, hanswer⟩ := Option.bind_eq_some_iff.mp hheld
  refine hmoves.once 1 hshown order g.state.now _ _
    (ends_alone (c := .ok) (fun _ _ => trivial) _ _) ?_
  cases hr : ((heldForCollection 1 order g.state.now).alone machine .ok g.state).1 with
  | ok b =>
    rw [hr] at hanswer
    cases hanswer
    rfl
  | error e =>
    rw [hr] at hanswer
    cases hanswer

/-- Until then the queue is open. -/
theorem withdrawn_unheld : ∃ g : Run ShownLog, g.hist 1 = true ∧ QueueMoves g := by
  have hrun : Pool.observe machine recordPresented keepsShown holdView untilWithdrawn (.run 4 .ok)
      twoPrices = some ((true, some false), (true, some false)) := by decide +kernel
  obtain ⟨g, g', hg, -, -, hview, -⟩ := Pool.observe_eq hrun
  exact ⟨g, (Prod.mk.inj hview).1,
    queue_holds_once pricedTwice _ g (by decide +kernel) (fun _ => Nat.succ_pos 19) hg⟩

end CarSalePro
