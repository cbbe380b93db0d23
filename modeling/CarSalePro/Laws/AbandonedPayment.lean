import CarSalePro.Orders.Alone

namespace CarSalePro

open Store Interleave Prog OrderStatus

/-- The row of a price whose payment was given up. -/
def OrderCounterOffer.givenUp (c : OrderCounterOffer) (now : Time) : OrderCounterOffer :=
  if now < c.expiresAt then { c with status := .pending, acceptingUntil := none }
  else { c with status := .expired, acceptingUntil := none, respondedAt := some now }

/-- An intent that belongs to a payment somebody opened for a counter-offer of the order. -/
def World.openIntent (w : World) (id : OrderId) (intent : IntentId) : Prop :=
  ∃ k p, w.payments.get k = some p ∧ p.openCounterOffer id = true ∧
    p.stripePaymentIntentId = some intent

/-- The payment of price `k` was given up in `w`: the order is as it was, with its other payments
and what Stripe holds for them, no counter-offer payment of it is open, and the price is back. -/
structure GivenUp (w : World) (id : OrderId) (k : CounterOfferId) (c : OrderCounterOffer)
    (v : World) : Prop where
  order : v.orders.get id = w.orders.get id
  beside : ∀ k p, w.payments.get k = some p → p.openCounterOffer id = false →
    v.payments.get k = some p
  ended : ∀ k p, v.payments.get k = some p → p.openCounterOffer id = false
  intents : ∀ i, ¬ w.openIntent id i → v.provider.intents.get i = w.provider.intents.get i
  counter : v.counterOffers.get k = some (c.givenUp w.now)

section Steps

variable {w v : World} {id : OrderId} {order : Order} {k : CounterOfferId} {c : OrderCounterOffer}
  {s : Stmt} {f : Fate}

/-- An order that waits is left alone by a dispatch. -/
theorem exec_waiting (horder : v.orders.get id = some order) (hstatus : order.status = unassigned)
    (hs : DispatchStmt id s) : (World.exec s f v).2.orders.get id = some order := by
  cases hs with
  | offer o ho =>
    rw [(World.frame_exec (.offer (.create o)) f v).orders rfl]
    exact horder
  | event e =>
    rw [(World.frame_exec (.event e) f v).orders rfl]
    exact horder
  | unassign source legal =>
    obtain ⟨r, hr, heff⟩ := World.exec_order (s := .order (.transition id source unassigned legal))
      (c := f) horder
    cases heff with
    | same => exact hr
    | write u heq ho hw =>
      cases heq
      cases hw
      rw [hr, ← hstatus]
    | sale counter price at_ heq => cases heq

/-- A price that does not wait is left alone by a promotion. -/
theorem exec_closed (hc : v.counterOffers.get k = some c) (hp : c.status ≠ .pending)
    (hs : PromoteStmt id s) : (World.exec s f v).2.counterOffers.get k = some c := by
  have hprice {u : CounterOfferStmt} (hu : u.rewrite v.now k c = none) :
      (World.exec (.counterOffer u) f v).2.counterOffers.get k = some c := by
    rcases exec_prices u f v with ⟨e, he, _⟩ | he
    · rw [he]
      exact hc
    · rw [he]
      simp only [Table.get_rewrite, hc, Option.map_some, hu, Option.getD_none]
  cases hs with
  | expireQueue now => exact hprice (if_neg fun h => hp h.2.1)
  | present next now expiresAt => exact hprice (if_neg fun h => hp h.2.1)
  | event e =>
    rw [(World.frame_exec (.event e) f v).counterOffers rfl]
    exact hc

theorem GivenUp.dispatched (h : GivenUp w id k c v) (horder : w.orders.get id = some order)
    (hstatus : order.status = unassigned) (hs : DispatchStmt id s) :
    GivenUp w id k c (World.exec s f v).2 := by
  have hframe := World.frame_exec s f v
  have hpayments : (World.exec s f v).2.payments = v.payments :=
    hframe.payments (by cases hs <;> rfl)
  have hprovider : (World.exec s f v).2.provider = v.provider :=
    hframe.provider (by cases hs <;> rfl)
  have hprices : (World.exec s f v).2.counterOffers = v.counterOffers :=
    hframe.counterOffers (by cases hs <;> rfl)
  have hrow : v.orders.get id = some order := h.order.trans horder
  constructor
  · rw [exec_waiting hrow hstatus hs, horder]
  · rw [hpayments]
    exact h.beside
  · rw [hpayments]
    exact h.ended
  · rw [hprovider]
    exact h.intents
  · rw [hprices]
    exact h.counter

theorem GivenUp.promoted (h : GivenUp w id k c v) (hover : ¬ w.now < c.expiresAt)
    (hs : PromoteStmt id s) : GivenUp w id k c (World.exec s f v).2 := by
  have hframe := World.frame_exec s f v
  have horders : (World.exec s f v).2.orders = v.orders := hframe.orders (by cases hs <;> rfl)
  have hpayments : (World.exec s f v).2.payments = v.payments :=
    hframe.payments (by cases hs <;> rfl)
  have hprovider : (World.exec s f v).2.provider = v.provider :=
    hframe.provider (by cases hs <;> rfl)
  constructor
  · rw [horders]
    exact h.order
  · rw [hpayments]
    exact h.beside
  · rw [hpayments]
    exact h.ended
  · rw [hprovider]
    exact h.intents
  · refine exec_closed h.counter ?_ hs
    unfold OrderCounterOffer.givenUp
    rw [if_neg hover]
    nofun

/-- At Stripe a cancellation changes the one intent it names. -/
theorem answer_cancel {P : Provider} {intent i : IntentId} {payment : PaymentId} (hi : i ≠ intent) :
    (P.answer (.cancel intent payment) f).2.intents.get i = P.intents.get i := by
  rcases P.answer_state (.cancel intent payment) f with h | h
  · rw [h]
  · simp only [Provider.carryOut] at h
    split at h
    · cases h
    · split at h
      · rw [← Except.ok.inj h]
        exact (Table.get_set _ _ _ _).trans (if_neg hi)
      · rw [← Except.ok.inj h]
        exact (Table.get_set _ _ _ _).trans (if_neg hi)
      · cases h

/-- One price of an order at most is being paid. -/
theorem accepting_unique {k' : CounterOfferId} {c' : OrderCounterOffer}
    (hindex : presentedConflict w.counterOffers = false) (hc : w.counterOffers.get k = some c)
    (hacc : c.status = .accepting) (hc' : w.counterOffers.get k' = some c')
    (hacc' : c'.status = .accepting) (hid : c'.orderId = c.orderId) : k' = k := by
  by_contra hne
  have hconflict := presentedConflict_iff.mpr
    ⟨k, c, k', c', hc, hc', hne, by simp [OrderCounterOffer.presented, hacc],
      by simp [OrderCounterOffer.presented, hacc'], hid⟩
  rw [hindex] at hconflict
  cases hconflict

end Steps

section Spec

variable {w : World} {id : OrderId} {order : Order} {k : CounterOfferId} {c : OrderCounterOffer}

/-- The intents of the opened payments are cancelled, and nothing else happens. -/
theorem cancels_spec {v : World} (already configured : Bool) (opened : List (PaymentId × Payment))
    (hopened : ∀ r ∈ opened, w.payments.get r.1 = some r.2 ∧ r.2.openCounterOffer id = true)
    {X : Err → World → Prop} : Triple machine databaseServes
      (fun u => u = { v with provider := u.provider } ∧
        ∀ i, ¬ w.openIntent id i → u.provider.intents.get i = v.provider.intents.get i)
      (forEach opened fun r =>
        match already || !configured, r.2.stripePaymentIntentId with
        | false, some intent => quietly (perform (.stripe (.cancel intent r.1)))
        | _, _ => pure ())
      (fun _ u => u = { v with provider := u.provider } ∧
        ∀ i, ¬ w.openIntent id i → u.provider.intents.get i = v.provider.intents.get i) X := by
  refine Discipline.Flow.forEach fun r hr => ?_
  split
  next intent _ hintent =>
    refine Discipline.Flow.quietly ?_
    apply Triple.keeps ((only_perform _).mpr (rfl : Stmt.stripe (.cancel intent r.1) = _))
    intro s f u hs _ hu
    subst hs
    obtain ⟨hrest, hintents⟩ := hu
    have he : (World.exec (.stripe (.cancel intent r.1)) f u).2 =
        { u with provider := (u.provider.answer (.cancel intent r.1) f).2 } := by
      rcases World.exec_cases (.stripe (.cancel intent r.1)) f u with
        ⟨call, hcall, he⟩ | ⟨ht, _, _⟩ | ⟨ht, _, _⟩
      · cases hcall
        exact he
      · cases ht
      · cases ht
    rw [show machine.exec = World.exec from rfl, he]
    refine ⟨by rw [hrest], fun i hi => ?_⟩
    have hne : i ≠ intent := by
      intro heq
      exact hi ⟨r.1, r.2, (hopened r hr).1, (hopened r hr).2, heq ▸ hintent⟩
    exact (answer_cancel hne).trans (hintents i hi)
  next => exact .pure fun _ hx => hx

/-- The state after the price went back to wait, or closed. -/
def World.handBack (w : World) (k : CounterOfferId) (c : OrderCounterOffer) : World :=
  let back := CounterOfferStmt.returnFromPayment k (decide (w.now < c.expiresAt)) w.now
  { w with counterOffers := w.counterOffers.rewrite fun j x => back.rewrite w.now j x }

theorem handBack_get (hc : w.counterOffers.get k = some c) (hacc : c.status = .accepting) :
    (w.handBack k c).counterOffers.get k = some (c.givenUp w.now) := by
  simp only [World.handBack, Table.get_rewrite, hc, Option.map_some, CounterOfferStmt.rewrite, hacc,
    and_self, if_true, Option.getD_some, OrderCounterOffer.givenUp, decide_eq_true_eq]

theorem handBack_write (hindex : presentedConflict w.counterOffers = false) :
    ∃ n, w.write (.counterOffer (.returnFromPayment k (decide (w.now < c.expiresAt)) w.now)) =
      (.ok n, w.handBack k c) := by
  have hclean : presentedConflict (w.handBack k c).counterOffers = false := by
    rw [← Bool.not_eq_true]
    intro hconflict
    have hbefore := presentedConflict_rewrite (fun j x x' hx => ?_) hconflict
    · rw [hindex] at hbefore
      cases hbefore
    · simp only [CounterOfferStmt.rewrite] at hx
      split at hx
      next hj =>
        have hpresented : x.presented = true := by simp [OrderCounterOffer.presented, hj.2]
        split at hx <;> (cases hx; exact ⟨rfl, fun _ => hpresented⟩)
      next => cases hx
  exact ⟨_, if_neg (Bool.not_eq_true _ ▸ hclean)⟩

/-- What follows once the payment is given up. -/
theorem givenUp_spec {v : World} (actor : Actor) (h : GivenUp w id k c v)
    (horder : w.orders.get id = some order) (hstatus : order.status = unassigned) :
    Triple machine databaseServes (· = v) (do
      note id actor .counterOfferPaymentAbandoned
      Prog.when (decide (w.now < c.expiresAt) = false) do
        let _ ← fetch .abandonCounterOfferPayment (·.counterOffers.get k)
        promoteQuietly id
      let _ ← dispatch id
      pure ())
      (fun _ v => GivenUp w id k c v) fun _ v => GivenUp w id k c v := by
  let A (s : Stmt) : Prop := DispatchStmt id s ∨ ¬ w.now < c.expiresAt ∧ PromoteStmt id s
  refine Triple.weaken (P := GivenUp w id k c) (Triple.keeps (A := A) ?_ ?_)
    (fun u hu => hu ▸ h) (fun _ _ h => h) fun _ _ h => h
  · refine Only.seq (only_note _ _ _ fun e => .inl (.event e)) fun _ => ?_
    refine Only.seq (Only.when fun hover => ?_) fun _ => ?_
    · refine Only.seq (only_fetch _ _) fun _ => ?_
      exact (only_promoteQuietly id).mono fun s hs => .inr ⟨of_decide_eq_false hover, hs⟩
    · exact Only.seq ((only_dispatch id).mono fun s hs => .inl hs) fun _ => only_pure _
  · intro s f u hs _ hu
    rcases hs with hs | ⟨hover, hs⟩
    · exact hu.dispatched horder hstatus hs
    · exact hu.promoted hover hs

/-- Giving up the payment of a price. -/
theorem abandon_spec (already : Bool) (hindex : presentedConflict w.counterOffers = false)
    (hlive : activePaymentConflict w.payments = false) (horder : w.orders.get id = some order)
    (hstatus : order.status = unassigned) (hc : w.counterOffers.get k = some c)
    (hid : c.orderId = id) (hacc : c.status = .accepting) :
    Triple machine databaseServes (· = w) (abandonCounterOfferPayment id already)
      (fun _ v => GivenUp w id k c v) fun _ v => GivenUp w id k c v := by
  have hX : False → ∀ e : Err, GivenUp w id k c w := fun h => h.elim
  apply pinned_read failsOnly_up (by trivial) hX
  split
  next hnone =>
    have hrow := Table.findFirst_none.mp hnone k c hc
    simp [hid, hacc] at hrow
  next k' c' hfound =>
    obtain ⟨hc', hrow⟩ := Table.findFirst_some hfound
    simp only [Bool.and_eq_true, decide_eq_true_eq] at hrow
    have hk : k' = k := accepting_unique hindex hc hacc hc' hrow.2 (hrow.1.trans hid.symm)
    subst hk
    have hsame : c' = c := Option.some.inj (hc'.symm.trans hc)
    subst hsame
    apply pinned_read failsOnly_up (by trivial) hX
    obtain ⟨n, hwrite⟩ := handBack_write (w := w) (k := k') (c := c') hindex
    have hback := handBack_get hc hacc
    refine served_issue failsOnly_up rfl (congrArg Prod.fst hwrite) ?_
    rw [hwrite]
    apply pinned_read failsOnly_up (by trivial) (fun h => h.elim)
    apply pinned_read failsOnly_up (by trivial) (fun h => h.elim)
    have hopened : ∀ r ∈ (w.handBack k' c').payments.findMany fun _ p => p.openCounterOffer id,
        w.payments.get r.1 = some r.2 ∧ r.2.openCounterOffer id = true :=
      fun r hr => Table.mem_findMany.mp hr
    refine Discipline.Flow.seq
      ((cancels_spec (v := w.handBack k' c') already w.stripeConfigured _ hopened).weaken
      (fun u hu => ?_) (fun _ _ h => h) fun _ _ h => h) fun _ => Triple.each fun u hu => ?_
    · rw [hu]
      exact ⟨rfl, fun _ _ => rfl⟩
    obtain ⟨hrest, hintents⟩ := hu
    have hpayments : u.payments = w.payments := by rw [hrest]; rfl
    have hnow : (w.handBack k' c').now = w.now := rfl
    have hunlive : activePaymentConflict (u.payments.rewrite fun j p =>
        PaymentStmt.rewrite u.now j p (.abandon id w.now)) = false := by
      rw [← Bool.not_eq_true]
      intro hconflict
      have hbefore := activePaymentConflict_rewrite (fun j p p' hp => ?_) hconflict
      · rw [hpayments, hlive] at hbefore
        cases hbefore
      · simp only [PaymentStmt.rewrite] at hp
        split at hp
        · cases hp
          exact ⟨rfl, fun h => by simp [Payment.live] at h⟩
        · cases hp
    refine served_issue (n := u.payments.hits fun j p =>
      PaymentStmt.rewrite u.now j p (.abandon id w.now)) failsOnly_up rfl ?_ ?_
    · simp only [World.write, World.writePayment, PaymentStmt.strict, hunlive, Bool.false_eq_true,
        false_and, if_false]
    refine givenUp_spec _ ?_ horder hstatus
    have hwrite' : (u.write (.payment (.abandon id w.now))).2 = { u with
        payments := u.payments.rewrite fun j p =>
          PaymentStmt.rewrite u.now j p (.abandon id w.now) } := by
      simp only [World.write, World.writePayment, PaymentStmt.strict, hunlive, Bool.false_eq_true,
        false_and, if_false]
    rw [hwrite']
    have hprices : u.counterOffers = (w.handBack k' c').counterOffers := by rw [hrest]
    have horders : u.orders = w.orders := by rw [hrest]; rfl
    constructor
    · exact congrArg (·.get id) horders
    · intro j p hp hopen
      simp only [hpayments, Table.get_rewrite, hp, Option.map_some, PaymentStmt.rewrite, hopen,
        Bool.false_eq_true, if_false, Option.getD_none]
    · intro j p hp
      simp only [Table.get_rewrite, PaymentStmt.rewrite] at hp
      obtain ⟨p₀, _, hp⟩ := Option.map_eq_some_iff.mp hp
      split at hp
      · cases hp
        simp [Payment.openCounterOffer]
      next hopen =>
        cases hp
        exact Bool.not_eq_true _ ▸ hopen
    · exact hintents
    · exact (congrArg (·.get k') hprices).trans hback

end Spec

/-- An abandoned counter-offer payment leaves the order in its search, with its own hold. -/
theorem abandon_restores (w w' : World) (id : OrderId) (order : Order) (k : CounterOfferId)
    (c : OrderCounterOffer) (already : Bool) (r : Except Err Unit)
    (hindex : presentedConflict w.counterOffers = false)
    (hlive : activePaymentConflict w.payments = false) (horder : w.orders.get id = some order)
    (hstatus : order.status = unassigned) (hc : w.counterOffers.get k = some c)
    (hid : c.orderId = id) (hacc : c.status = .accepting)
    (hrun : (abandonCounterOfferPayment id already).Ends machine databaseServes w r w') :
    GivenUp w id k c w' := by
  have hspec := abandon_spec already hindex hlive horder hstatus hc hid hacc
  have hend := hspec.ends rfl hrun
  cases r with
  | ok a => exact hend
  | error e => exact hend

/-- A customer stopped half-way through a card: 40 are held, and 54 would have been. -/
def halfPaid : World :=
  { World.empty with
    orders := Table.empty.set 1
      ⟨3, none, unassigned, 4000, 667, 3333, none, none, none, none, none, 1⟩
    counterOffers :=
      Table.empty.set 1 ⟨1, 7, .accepting, 5400, 900, 4500, some 900, 9000, some 2000, none, 100⟩
    payments := (Table.empty.set 1
      ⟨some 1, .order, 4000, .authorized, some 1, some 50, none, none, none, 40⟩).set 2
        ⟨some 1, .orderCounterOffer, 5400, .pending, some 2, none, none, none, none, 950⟩
    provider := { World.empty.provider with
      intents := (Table.empty.set 1 ⟨4000, .requiresCapture⟩).set 2 ⟨5400, .requiresPaymentMethod⟩ }
    now := 2000 }

/-- The price is back on the screen, and the 40 are held as before. -/
theorem halfPaid_restored :
    ((abandonCounterOfferPayment 1 false).alone machine .ok halfPaid).1 = .ok () ∧
    GivenUp halfPaid 1 1 ⟨1, 7, .accepting, 5400, 900, 4500, some 900, 9000, some 2000, none, 100⟩
      ((abandonCounterOfferPayment 1 false).alone machine .ok halfPaid).2 := by
  refine ⟨by decide +kernel, ?_⟩
  apply abandon_restores halfPaid _ 1
    ⟨3, none, unassigned, 4000, 667, 3333, none, none, none, none, none, 1⟩ 1 _ false (.ok ())
    (by decide +kernel) (by decide +kernel) rfl rfl rfl rfl rfl
  have hends : (abandonCounterOfferPayment 1 false).Ends machine databaseServes halfPaid
      ((abandonCounterOfferPayment 1 false).alone machine .ok halfPaid).1
      ((abandonCounterOfferPayment 1 false).alone machine .ok halfPaid).2 :=
    ends_alone (fun _ _ => nofun) _ _
  exact hends

end CarSalePro
