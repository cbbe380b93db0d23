import CarSalePro.Orders.Effects
import CarSalePro.Payments.Transfers

namespace CarSalePro.Transfers

open Store Interleave Prog

/-- The books a payout and the transfer it names are kept in. -/
structure Ledger where
  orders : Table OrderId Order
  payouts : Table OrderId Payout
  transfers : Table Nat Transfer

def World.ledger (w : World) : Ledger := ⟨w.market.orders, w.market.payouts, w.transfers⟩

/-- The order's transfer of this number, not reported failed or reversed. -/
def Ledger.live (x : Ledger) (id : OrderId) (transfer : Nat) : Prop :=
  ∃ t, x.transfers.get transfer = some t ∧ t.order = id ∧ t.reported = false

/-- A payout belongs to an order, and the transfer it names is live. -/
structure Sound (x : Ledger) : Prop where
  order : ∀ id p, x.payouts.get id = some p → (x.orders.get id).isSome
  transfer : ∀ id p n, x.payouts.get id = some p → p.stripeTransferId = some (.stripe n) →
    x.live id n

/-- No paid payout names a transfer that Stripe has reported failed or reversed. -/
def PaidLive (w : World) : Prop :=
  ∀ id p n t, w.market.payouts.get id = some p → p.status = .settled →
    p.stripeTransferId = some (.stripe n) → w.transfers.get n = some t → t.reported = false

/-- In every sequence of calls whose steps meet `C`, each paid payout names a live transfer. -/
def TransferLaw (C : StepGuard Unit) : Prop :=
  ∀ (w : World) (calls : List Call) (g : Run Unit), Sound w.ledger →
    Pool.Reach machine noRecord C (launch w calls) g → PaidLive g.state

/-- A transfer is asked for when the one that Stripe would bring back was not reported. -/
def asksAnew : StepGuard Unit := fun _ label _ x =>
  match label with
  | .call (.service (.stripe (.createTransfer id _))) => (x.1.keyed id).all fun t => !t.2.reported
  | _ => true

section Effects

variable {w : World} {s : CarSalePro.Stmt} {c : Fate} {id o : OrderId} {n : Nat}

/-- The statement makes no payout but that of `id`, which names no transfer but the one drawn. -/
def Draws (id : OrderId) (drawn : Option Nat) : CarSalePro.Stmt → Prop
  | .payout (.park o row) => o = id ∧ row.stripeTransferId = none
  | .payout (.markPaid o _ _ _ transfer) => o = id ∧ ∀ n, transfer = .stripe n → drawn = some n
  | _ => True

/-- The statement makes no payout. -/
def MakesNone : CarSalePro.Stmt → Prop
  | .payout (.park _ _) | .payout (.markPaid _ _ _ _ _) => False
  | _ => True

theorem MakesNone.draws {drawn : Option Nat} (hs : MakesNone s) : Draws id drawn s := by
  unfold Draws
  split
  · exact hs.elim
  · exact hs.elim
  · trivial

/-- A statement of the services acts on the orders and payouts as it does there, and a transfer it
finds stays. -/
structure Acts (s : CarSalePro.Stmt) (c : Fate) (w w' : World) : Prop where
  orders : ∀ o, (w.market.orders.get o).isSome → (w'.market.orders.get o).isSome
  payouts : ∀ o, w'.market.payouts.get o = w.market.payouts.get o ∨
    ∃ u p, s = .payout u ∧ u.order = o ∧
      u.rewrite w.market.now (w.market.payouts.get o) = some p ∧
      w'.market.payouts.get o = some p
  transfers : ∀ n t, w.transfers.get n = some t → w'.transfers.get n = some t

theorem createTransfer_keeps (w : World) (id : OrderId) (amountCents : Cents) {n : Nat}
    {t : Transfer} (h : w.transfers.get n = some t) :
    (w.createTransfer id amountCents).2.transfers.get n = some t := by
  unfold World.createTransfer
  split
  · exact h
  · have hne : w.transfers.fresh ≠ n := by
      intro heq
      rw [← heq, Table.get_fresh] at h
      cases h
    simpa [Ne.symm hne] using h

theorem createTransfer_market (w : World) (id : OrderId) (amountCents : Cents) :
    (w.createTransfer id amountCents).2.market = w.market := by
  unfold World.createTransfer
  split <;> rfl

/-- The transfer that answers a create call is live, when the one brought back was not reported. -/
theorem createTransfer_live {w : World} {id : OrderId} (amountCents : Cents)
    (h : (w.keyed id).all fun t => !t.2.reported) :
    (w.createTransfer id amountCents).2.ledger.live id (w.createTransfer id amountCents).1 := by
  unfold World.createTransfer
  cases hkeyed : w.keyed id with
  | none => exact ⟨_, Table.get_set _ _ _ _ |>.trans (if_pos rfl), rfl, rfl⟩
  | some found =>
    obtain ⟨hget, hmatch⟩ := Table.findLast_some hkeyed
    have horder : found.2.order = id := by
      simp only [Bool.and_eq_true, decide_eq_true_eq] at hmatch
      exact hmatch.1
    exact ⟨found.2, hget, horder, by simpa [hkeyed] using h⟩

theorem acts_exec (s : CarSalePro.Stmt) (c : Fate) (w : World) :
    Acts s c w (World.exec (.service s) c w).2 := by
  have hself : Acts s c w w := ⟨fun _ h => h, fun _ => .inl rfl, fun _ _ h => h⟩
  have hmarket : Acts s c w { w with market := (CarSalePro.World.exec s c w.market).2 } := by
    refine ⟨fun o h => ?_, fun o => CarSalePro.World.exec_payout s c w.market o, fun _ _ h => h⟩
    obtain ⟨r, hr⟩ := Option.isSome_iff_exists.mp h
    obtain ⟨r', hr', -⟩ := CarSalePro.World.exec_order hr
    exact Option.isSome_of_eq_some hr'
  unfold World.exec
  split
  next order amountCents heq =>
    cases heq
    have hcreated : Acts (.stripe (.createTransfer order amountCents)) c w
        (w.createTransfer order amountCents).2 := by
      refine ⟨fun o h => ?_, fun o => .inl ?_, fun n t => createTransfer_keeps w order amountCents⟩
      · rw [createTransfer_market]
        exact h
      · rw [createTransfer_market]
    cases c with
    | ok => exact hcreated
    | down => exact hself
    | refused e => exact hself
    | lost e => exact hcreated
    | replayed => exact hcreated
    | elapse ms => exact hcreated
  next s' hs heq =>
    cases heq
    exact hmarket
  next transfer heq => cases heq

/-- The transfer a rewritten payout names: what the row named, none, or one that is new to it. -/
inductive Names (now : Time) (old : Option Payout) (u : PayoutStmt) (p : Payout) : Prop where
  | kept (r : Payout) (hr : old = some r) (h : p.stripeTransferId = r.stripeTransferId)
  | freed (r : Payout) (hr : old = some r) (h : p.stripeTransferId = none)
  | parked (hu : u = .park u.order p)
  | paid (inspector : UserId) (amountCents : Cents) (attempts : Nat) (transfer : TransferId)
      (hu : u = .markPaid u.order inspector amountCents attempts transfer)
      (h : p.stripeTransferId = some transfer)

theorem rewrite_names {now : Time} {old : Option Payout} {u : PayoutStmt} {p : Payout}
    (h : u.rewrite now old = some p) : Names now old u p := by
  cases u with
  | skip o =>
    obtain ⟨r, hr, rfl⟩ := Option.map_eq_some_iff.mp h
    exact .kept r (Option.filter_eq_some_iff.mp hr).1 rfl
  | park o row =>
    cases Option.some.inj h
    cases old with
    | none => exact .parked rfl
    | some r => exact .kept r rfl rfl
  | markPaid o inspector amountCents attempts transfer =>
    cases Option.some.inj h
    cases old with
    | none => exact .paid inspector amountCents attempts transfer rfl rfl
    | some r => exact .paid inspector amountCents attempts transfer rfl rfl
  | settleOutOfBand o =>
    obtain ⟨r, hr, rfl⟩ := Option.map_eq_some_iff.mp h
    exact .kept r hr rfl
  | retryNow o =>
    obtain ⟨r, hr, rfl⟩ := Option.map_eq_some_iff.mp h
    exact .kept r hr rfl
  | freeTransfer o =>
    obtain ⟨r, hr, rfl⟩ := Option.map_eq_some_iff.mp h
    exact .freed r hr rfl
  | confirm o =>
    obtain ⟨r, hr, rfl⟩ := Option.map_eq_some_iff.mp h
    exact .kept r hr rfl

variable {w' : World} {drawn : Option Nat}

theorem Acts.live (ha : Acts s c w w') (h : w.ledger.live o n) : w'.ledger.live o n := by
  obtain ⟨t, hget, horder, hreported⟩ := h
  exact ⟨t, ha.transfers n t hget, horder, hreported⟩

/-- The books are in order, and so is what a payout of `id` is about to be written from. -/
structure Ready (id : OrderId) (drawn : Option Nat) (x : Ledger) : Prop where
  sound : Sound x
  order : (x.orders.get id).isSome
  drawn : ∀ n, drawn = some n → x.live id n

/-- A statement keeps the books, when a payout it makes has an order and a live transfer. -/
theorem Acts.sound (ha : Acts s c w w') (h : Sound w.ledger) (hs : Draws id drawn s)
    (hready : ¬ MakesNone s → Ready id drawn w.ledger) : Sound w'.ledger := by
  refine ⟨fun o p hp => ?_, fun o p n hp hn => ?_⟩
  · apply ha.orders
    rcases ha.payouts o with hsame | ⟨u, p', rfl, rfl, hrewrite, -⟩
    · exact h.order o p (hsame ▸ hp)
    · cases rewrite_names hrewrite with
      | kept r hr => exact h.order _ r hr
      | freed r hr => exact h.order _ r hr
      | parked hu =>
        rw [hu] at hs hready
        exact hs.1 ▸ (hready fun hnone => hnone).order
      | paid inspector amountCents attempts transfer hu =>
        rw [hu] at hs hready
        exact hs.1 ▸ (hready fun hnone => hnone).order
  · apply ha.live
    rcases ha.payouts o with hsame | ⟨u, p', rfl, rfl, hrewrite, hafter⟩
    · exact h.transfer o p n (hsame ▸ hp) hn
    · have hp' : p' = p := Option.some.inj (hafter.symm.trans hp)
      subst hp'
      cases rewrite_names hrewrite with
      | kept r hr hkept => exact h.transfer _ r n hr (hkept ▸ hn)
      | freed r hr hfreed =>
        rw [hfreed] at hn
        cases hn
      | parked hu =>
        rw [hu] at hs
        rw [hs.2] at hn
        cases hn
      | paid inspector amountCents attempts transfer hu hpaid =>
        rw [hu] at hs hready
        rw [hpaid] at hn
        have hlive := (hready fun hnone => hnone).drawn n (hs.2 n (Option.some.inj hn))
        exact hs.1 ▸ hlive

theorem Acts.ready (ha : Acts s c w w') (h : Ready id drawn w.ledger) (hs : Draws id drawn s) :
    Ready id drawn w'.ledger :=
  ⟨ha.sound h.sound hs fun _ => h, ha.orders id h.order, fun n hn => ha.live (h.drawn n hn)⟩

/-- No payout names this transfer. -/
def Ledger.unnamed (x : Ledger) (n : Nat) : Prop :=
  ∀ id p, x.payouts.get id = some p → p.stripeTransferId ≠ some (.stripe n)

theorem Acts.unnamed (ha : Acts s c w w') (h : w.ledger.unnamed n) (hs : Draws id none s) :
    w'.ledger.unnamed n := by
  intro o p hp hn
  rcases ha.payouts o with hsame | ⟨u, p', rfl, rfl, hrewrite, hafter⟩
  · exact h o p (hsame ▸ hp) hn
  · have hp' : p' = p := Option.some.inj (hafter.symm.trans hp)
    subst hp'
    cases rewrite_names hrewrite with
    | kept r hr hkept => exact h _ r hr (hkept ▸ hn)
    | freed r hr hfreed =>
      rw [hfreed] at hn
      cases hn
    | parked hu =>
      rw [hu] at hs
      rw [hs.2] at hn
      cases hn
    | paid inspector amountCents attempts transfer hu hpaid =>
      rw [hu] at hs
      rw [hpaid] at hn
      cases hs.2 n (Option.some.inj hn)

/-- A report of a transfer no payout names leaves the books in order. -/
theorem report_sound (h : Sound w.ledger) (hn : w.ledger.unnamed n) (c : Fate) :
    Sound (World.exec (.report n) c w).2.ledger := by
  cases ht : w.transfers.get n with
  | none =>
    simp only [World.exec, ht]
    exact h
  | some t =>
    simp only [World.exec, ht]
    refine ⟨h.order, fun o p k hp hk => ?_⟩
    obtain ⟨t', hget, horder, hreported⟩ := h.transfer o p k hp hk
    have hne : k ≠ n := fun heq => hn o p hp (heq ▸ hk)
    exact ⟨t', (Table.get_set _ _ _ _).trans ((if_neg hne).trans hget), horder, hreported⟩

end Effects

section Flows

/-- From `P` the program goes to an answer in `Q` or an error in `X`, and the books are in order
at every moment. -/
abbrev Keeps {α : Type} (P : Ledger → Prop) (p : Act α) (Q : α → Ledger → Prop)
    (X : Err → Ledger → Prop) : Prop :=
  Serial machine World.ledger (fun l c w => asksAnew 0 l c (w, ()) = true) Sound P p Q X

variable {α : Type} {id : OrderId} {drawn : Option Nat} {n : Nat}

theorem keeps_makesNone {p : CarSalePro.Act α} (hp : p.Only MakesNone) :
    Keeps Sound (inMarket p) (fun _ => Sound) fun _ => Sound := by
  have honly : (inMarket p).Only fun s => ∃ s', s = .service s' ∧ MakesNone s' :=
    hp.within fun s hs => ⟨s, rfl, hs⟩
  refine Serial.only honly (fun _ h => h) fun s c w hs _ h => ?_
  obtain ⟨s', rfl, hnone⟩ := hs
  have hdraws : Draws 0 none s' := hnone.draws
  exact (acts_exec s' c w).sound h hdraws fun hmakes => (hmakes hnone).elim

theorem keeps_ready {p : CarSalePro.Act α} (hp : p.Only (Draws id drawn)) :
    Keeps (Ready id drawn) (inMarket p) (fun _ => Ready id drawn) fun _ => Sound := by
  have honly : (inMarket p).Only fun s => ∃ s', s = .service s' ∧ Draws id drawn s' :=
    hp.within fun s hs => ⟨s, rfl, hs⟩
  have hkeep : Keeps (Ready id drawn) (inMarket p) (fun _ => Ready id drawn)
      fun _ => Ready id drawn := by
    refine Serial.only honly (fun _ h => h.sound) fun s c w hs _ h => ?_
    obtain ⟨s', rfl, hdraws⟩ := hs
    exact (acts_exec s' c w).ready h hdraws
  exact hkeep.post (fun _ _ h => h) fun _ _ h => h.sound

/-- The payout is written, and nothing more is asked of it. -/
theorem keeps_written {p : CarSalePro.Act α} (hp : p.Only (Draws id drawn)) :
    Keeps (Ready id drawn) (inMarket p) (fun _ => Sound) fun _ => Sound :=
  (keeps_ready hp).post (fun _ _ h => h.sound) fun _ _ h => h

theorem keeps_seq {β : Type} {P : Ledger → Prop} {Q : α → Ledger → Prop} {T : β → Ledger → Prop}
    {X : Err → Ledger → Prop} {p : CarSalePro.Act α} {f : α → CarSalePro.Act β}
    (h : Keeps P (inMarket p) Q X) (hf : ∀ a, Keeps (Q a) (inMarket (f a)) T X) :
    Keeps P (inMarket (p >>= f)) T X := by
  rw [inMarket_bind]
  exact h.seq hf

theorem keeps_ite {P : Ledger → Prop} {Q : α → Ledger → Prop} {X : Err → Ledger → Prop} {b : Prop}
    [Decidable b] {p q : CarSalePro.Act α} (hp : Keeps P (inMarket p) Q X)
    (hq : Keeps P (inMarket q) Q X) : Keeps P (inMarket (if b then p else q)) Q X := by
  rw [inMarket_ite]
  exact .ite (fun _ => hp) fun _ => hq

theorem keeps_read {P : Ledger → Prop} {Q : α → Ledger → Prop} {l : Site}
    {f : CarSalePro.World → α} (hP : ∀ x, P x → Sound x)
    (hQ : ∀ w : World, P w.ledger → Q (f w.market) w.ledger) :
    Keeps P (inMarket (Prog.fetch l f)) Q fun _ => Sound := by
  rw [inMarket_fetch]
  exact Serial.ask hP hQ fun _ => hP

section Footprints

theorem only_skipPayout (reason : String) : (skipPayout id reason).Only MakesNone :=
  Only.seq (only_issue trivial) fun _ => only_pure _

theorem only_parkPayout (inspector : Option UserId) (amountCents : Cents) (reason : String) :
    (parkPayout id inspector amountCents reason).Only (Draws id drawn) := by
  cases inspector with
  | none => exact (only_skipPayout _).mono fun _ hs => hs.draws
  | some inspector =>
    refine Only.seq (only_fetch _ _) fun existing => Only.seq only_readClock fun now => ?_
    refine Only.seq (only_issue ⟨rfl, rfl⟩) fun _ => ?_
    exact Only.seq (Only.when fun _ => only_notifyAdmins) fun _ => only_pure _

theorem only_finishPayout (order : Order) (inspector : UserId) (transfer : TransferId)
    (h : ∀ n, transfer = .stripe n → drawn = some n) :
    (finishPayout id order inspector transfer).Only (Draws id drawn) := by
  refine Only.seq (Only.seq (only_fetch _ _) fun existing => ?_) fun paid => ?_
  · refine Only.ite (fun _ => only_pure _) fun _ => ?_
    refine Only.seq (Only.attempt ((only_perform _).mpr ⟨rfl, h⟩)) fun r => ?_
    split
    · exact only_pure _
    · exact only_pure _
    · exact only_throw _
  · refine Only.ite (fun _ => only_pure _) fun _ => Only.seq ?_ fun _ => only_pure _
    exact only_transition_plain _ _ _ (by decide) (fun _ _ => trivial) fun _ => trivial

end Footprints

/-- The transfer that is answered is live. -/
theorem keeps_createTransfer (amountCents : Cents) :
    Keeps (Ready id none) (inMarket (CarSalePro.perform (.stripe (.createTransfer id amountCents))))
      (fun n => Ready id (some n)) fun _ => Ready id none := by
  rw [inMarket_perform]
  have hcall : Keeps (Ready id none)
      (Prog.perform (.service (.stripe (.createTransfer id amountCents))) : Act Nat)
      (fun n => Ready id (some n)) fun _ => Ready id none := by
    refine Serial.perform fun c w h hok => ?_
    have hafter := (acts_exec (.stripe (.createTransfer id amountCents)) c w).ready h trivial
    have hlive := createTransfer_live amountCents hok
    refine ⟨hafter.sound, ?_⟩
    cases c with
    | ok => exact ⟨hafter.sound, hafter.order, fun n hn => Option.some.inj hn ▸ hlive⟩
    | replayed => exact ⟨hafter.sound, hafter.order, fun n hn => Option.some.inj hn ▸ hlive⟩
    | elapse ms => exact ⟨hafter.sound, hafter.order, fun n hn => Option.some.inj hn ▸ hlive⟩
    | down => exact hafter
    | refused e => exact hafter
    | lost e => exact hafter
  exact hcall.seq fun n => Serial.pure fun _ h => h

/-- The share is asked for where the charge is found. -/
theorem keeps_shareAsked (order : Order) (intent : IntentId) :
    Keeps (Ready id none) (inMarket (do
      match ← retrievePaymentIntent intent with
      | some i =>
        if i.captured.isSome then
          CarSalePro.perform (.stripe (.createTransfer id order.inspectorShareCents))
        else throw (.other "PaymentIntent has no latest_charge")
      | none => throw (.stripe .missing)))
      (fun n => Ready id (some n)) fun _ => Ready id none := by
  have hfound : Keeps (Ready id none) (inMarket (retrievePaymentIntent intent))
      (fun _ => Ready id none) fun _ => Ready id none := by
    unfold retrievePaymentIntent
    rw [inMarket_fetch]
    exact Serial.ask (fun _ h => h.sound) (fun _ h => h) fun _ _ h => h
  refine keeps_seq hfound fun found => ?_
  cases found with
  | none => exact Serial.throw fun _ h => h
  | some i => exact keeps_ite (keeps_createTransfer _) (Serial.throw fun _ h => h)

theorem keeps_transferShare (order : Order) (intent : IntentId) :
    Keeps (Ready id none) (inMarket (transferShare id order intent))
      (fun r => Ready id r.toOption) fun _ => Sound := by
  unfold transferShare
  rw [inMarket_attempt]
  have hasked : Keeps (Ready id none) _ (fun n => Ready id (some n)) fun _ => Ready id none :=
    keeps_shareAsked order intent
  have hattempt := Discipline.Flow.attempt (X := fun _ (P : Ledger → Prop) => ∀ x, P x → Sound x)
    hasked
  refine hattempt.post (fun r P hP => ?_) fun _ _ h => h
  cases r with
  | ok n => exact hP
  | error e => exact hP

theorem keeps_payOut (order : Order) (inspector : UserId) :
    Keeps (Ready id none) (inMarket (payOut id order inspector)) (fun _ => Sound)
      fun _ => Sound := by
  refine keeps_seq (keeps_ready only_stripeConfigured) fun configured => keeps_ite ?_ ?_
  · refine keeps_seq (keeps_ready (only_activePaymentForOrder id)) fun payment => ?_
    split
    next => exact keeps_written (only_parkPayout _ _ _)
    next intent _ =>
      refine keeps_seq (keeps_transferShare order intent) fun r => ?_
      cases r with
      | ok transfer =>
        exact keeps_written (only_finishPayout _ _ _ fun n h => by cases h; rfl)
      | error err => exact keeps_written (only_parkPayout _ _ _)
  · exact keeps_written (only_finishPayout _ _ _ nofun)

theorem keeps_releasePayout (id : OrderId) :
    Keeps Sound (inMarket (CarSalePro.releasePayout id)) (fun _ => Sound) fun _ => Sound := by
  refine keeps_seq (keeps_read
    (Q := fun found x => Sound x ∧ (found.isSome → (x.orders.get id).isSome))
    (fun _ h => h) fun w h => ⟨h, fun hfound => hfound⟩) fun found => ?_
  cases found with
  | none => exact Serial.pre (keeps_makesNone (only_skipPayout _)) fun _ h => h.1
  | some order =>
    apply Serial.pre (P := Ready id none)
    · have hskip (reason : String) :
          Keeps (Ready id none) (inMarket (skipPayout id reason)) (fun _ => Sound)
            fun _ => Sound :=
        keeps_written ((only_skipPayout reason).mono fun _ hs => hs.draws)
      refine keeps_ite (hskip _) ?_
      split
      next => exact hskip _
      next inspector _ =>
        refine keeps_seq (keeps_ready (only_fetch _ _)) fun existing => keeps_ite ?_ ?_
        · exact keeps_written (only_pure _)
        · refine keeps_seq (keeps_ready (only_fetch _ _)) fun profile => keeps_ite ?_ ?_
          · exact keeps_written (only_parkPayout _ _ _)
          · exact keeps_payOut order inspector
    · exact fun _ h => ⟨h.1, h.2 rfl, nofun⟩

theorem keeps_retryPayout (id : OrderId) :
    Keeps Sound (inMarket (guarded (retryPayout id))) (fun _ => Sound) fun _ => Sound := by
  have hbody : Keeps Sound (inMarket (retryPayout id)) (fun _ => Sound) fun _ => Sound := by
    refine keeps_seq (keeps_releasePayout id) fun outcome => ?_
    cases outcome with
    | skipped reason => exact Serial.pure fun _ h => h
    | _ => exact keeps_makesNone (Only.seq (only_fetch _ _) fun _ => only_pure _)
  show Keeps Sound (inMarket ((retryPayout id).tryCatch fun _ => pure false)) _ _
  rw [inMarket_catch]
  exact hbody.catch fun _ => Serial.pure fun _ h => h

theorem keeps_countEach {β : Type} (bs : List β) {f : β → CarSalePro.Act Bool}
    (hf : ∀ b, Keeps Sound (inMarket (f b)) (fun _ => Sound) fun _ => Sound) :
    Keeps Sound (inMarket (countEach bs f)) (fun _ => Sound) fun _ => Sound := by
  induction bs with
  | nil => exact Serial.pure fun _ h => h
  | cons b bs ih =>
    exact keeps_seq (hf b) fun _ => keeps_seq ih fun _ => Serial.pure fun _ h => h

theorem keeps_retryStuckPayouts (limit : Nat) :
    Keeps Sound (inMarket (CarSalePro.retryStuckPayouts limit)) (fun _ => Sound) fun _ => Sound :=
  keeps_seq (keeps_makesNone (only_fetch _ _)) fun due =>
    keeps_countEach due fun p => keeps_retryPayout p.1

theorem keeps_adminRetryPayout (id : OrderId) :
    Keeps Sound (inMarket (CarSalePro.adminRetryPayout id)) (fun _ => Sound) fun _ => Sound := by
  refine keeps_seq (keeps_makesNone (only_fetch _ _)) fun found => ?_
  cases found with
  | none => exact keeps_makesNone (only_fail _ _ _)
  | some payout =>
    refine keeps_ite (keeps_makesNone (only_pure _)) ?_
    refine keeps_seq (keeps_makesNone (only_issue trivial)) fun _ => ?_
    refine keeps_seq (keeps_releasePayout id) fun _ => ?_
    exact keeps_makesNone (Only.seq (only_fetch _ _) fun _ => only_pure _)

/-- The order's payout names the transfer. -/
structure Named (id : OrderId) (n : Nat) (x : Ledger) : Prop where
  sound : Sound x
  payout : ∃ p, x.payouts.get id = some p ∧ p.stripeTransferId = some (.stripe n)

theorem Named.order {x : Ledger} (h : Named id n x) : (x.orders.get id).isSome := by
  obtain ⟨p, hp, -⟩ := h.payout
  exact h.sound.order id p hp

/-- The payout that is freed was the only one that named the transfer. -/
theorem Named.freed {w : World} (h : Named id n w.ledger) {p : Payout}
    (hp : p.stripeTransferId = none) :
    Ledger.unnamed { w.ledger with payouts := w.market.payouts.set id p } n := by
  obtain ⟨r, hr, hnamed⟩ := h.payout
  obtain ⟨t, hget, horder, -⟩ := h.sound.transfer id r n hr hnamed
  intro o q hq hn
  by_cases ho : o = id
  · subst ho
    cases hq.symm.trans ((Table.get_set _ _ _ _).trans (if_pos rfl))
    rw [hp] at hn
    cases hn
  · have hold : w.ledger.payouts.get o = some q :=
      ((Table.get_set _ _ _ _).trans (if_neg ho)).symm.trans hq
    obtain ⟨t', hget', horder', -⟩ := h.sound.transfer o q n hold hn
    have heq : t' = t := Option.some.inj (hget'.symm.trans hget)
    exact ho (horder'.symm.trans (heq ▸ horder))

theorem keeps_freeTransfer (id : OrderId) (n : Nat) :
    Keeps (Named id n) (inMarket (issue (.payout (.freeTransfer id))))
      (fun _ x => Ready id none x ∧ x.unnamed n) fun _ => Sound := by
  have hcall : Keeps (Named id n) (Prog.perform (.service (.payout (.freeTransfer id))) : Act Nat)
      (fun _ x => Ready id none x ∧ x.unnamed n) fun _ => Sound := by
    refine Serial.perform fun c w h _ => ?_
    have hready : Ready id none w.ledger := ⟨h.sound, h.order, nofun⟩
    have hafter := (acts_exec (.payout (.freeTransfer id)) c w).ready hready trivial
    refine ⟨hafter.sound, ?_⟩
    obtain ⟨p, hp, -⟩ := h.payout
    by_cases hc : c = .down
    · subst hc
      exact hafter.sound
    · have hexec : World.exec (.service (.payout (.freeTransfer id))) c w = (.ok 1, { w with
          market := { w.market with
            payouts := w.market.payouts.set id { p with stripeTransferId := none } } }) := by
        have hget : w.market.payouts.get id = some p := hp
        simp [World.exec, CarSalePro.World.exec, hc, CarSalePro.World.write,
          CarSalePro.World.writePayout, PayoutStmt.order, PayoutStmt.rewrite, hget]
      rw [show machine.exec = World.exec from rfl, hexec]
      rw [hexec] at hafter
      exact ⟨hafter, h.freed rfl⟩
  show Keeps _ (inMarket (CarSalePro.perform _ >>= fun _ => pure ())) _ _
  refine keeps_seq ?_ fun _ => Serial.pure fun _ h => h
  rw [inMarket_perform]
  exact hcall.seq fun n => Serial.pure fun _ h => h

/-- Parking a payout names no transfer. -/
theorem keeps_parkFreed (inspector : Option UserId) (amountCents : Cents) (reason : String) :
    Keeps (fun x => Ready id none x ∧ x.unnamed n)
      (inMarket (parkPayout id inspector amountCents reason)) (fun _ x => Sound x ∧ x.unnamed n)
      fun _ => Sound := by
  have honly : (inMarket (parkPayout id inspector amountCents reason)).Only
      fun s => ∃ s', s = .service s' ∧ Draws id none s' :=
    (only_parkPayout inspector amountCents reason).within fun s hs => ⟨s, rfl, hs⟩
  have hkeep : Keeps (fun x => Ready id none x ∧ x.unnamed n)
      (inMarket (parkPayout id inspector amountCents reason))
      (fun _ x => Ready id none x ∧ x.unnamed n) fun _ x => Ready id none x ∧ x.unnamed n := by
    refine Serial.only honly (fun _ h => h.1.sound) fun s c w hs _ h => ?_
    obtain ⟨s', rfl, hdraws⟩ := hs
    exact ⟨(acts_exec s' c w).ready h.1 hdraws, (acts_exec s' c w).unnamed h.2 hdraws⟩
  exact hkeep.post (fun _ _ h => ⟨h.1.sound, h.2⟩) fun _ _ h => h.1.sound

theorem keeps_parkPayoutForFailedTransfer (id : OrderId) (n : Nat) :
    Keeps (Named id n) (inMarket (parkPayoutForFailedTransfer id))
      (fun _ x => Sound x ∧ x.unnamed n) fun _ => Sound := by
  refine keeps_seq (keeps_read (Q := fun found x => Named id n x ∧ found.isSome)
    (fun _ h => h.sound) fun w h => ⟨h, ?_⟩) fun found => ?_
  · obtain ⟨p, hp, -⟩ := h.payout
    exact Option.isSome_of_eq_some hp
  cases found with
  | none => exact Serial.pure fun _ h => absurd h.2 nofun
  | some payout =>
    refine keeps_seq (keeps_read (Q := fun found x => Named id n x ∧ found.isSome)
      (fun _ h => h.1.sound) fun w h => ⟨h.1, h.1.order⟩) fun found => ?_
    cases found with
    | none => exact Serial.pure fun _ h => absurd h.2 nofun
    | some order =>
      refine keeps_seq (Serial.pre (keeps_freeTransfer id n) fun _ h => h.1) fun _ => ?_
      exact keeps_seq (keeps_parkFreed _ _ _) fun _ => Serial.pure fun _ h => h

/-- After the handler of a failed transfer no payout names it. -/
theorem keeps_failTransfer (n : Nat) :
    Keeps Sound (inMarket (failTransfer (.stripe n))) (fun _ x => Sound x ∧ x.unnamed n)
      fun _ => Sound := by
  refine keeps_seq (keeps_read (Q := fun found x =>
    Sound x ∧ found.elim (x.unnamed n) fun r => Named r.1 n x) (fun _ h => h) fun w h => ⟨h, ?_⟩)
    fun found => ?_
  · cases hfound : w.market.payouts.findFirst fun _ p => p.stripeTransferId = some (.stripe n) with
    | none =>
      intro o p hp hn
      have hnone := Table.findFirst_none.mp hfound o p hp
      simp [hn] at hnone
    | some r =>
      obtain ⟨hget, hnamed⟩ := Table.findFirst_some hfound
      exact ⟨h, r.2, hget, of_decide_eq_true hnamed⟩
  cases found with
  | none => exact Serial.pure fun _ h => h
  | some r => exact Serial.pre (keeps_parkPayoutForFailedTransfer r.1 n) fun _ h => h.2

theorem keeps_transferFailed (n : Nat) :
    Keeps Sound (transferFailed n) (fun _ => Sound) fun _ => Sound := by
  have hreport : Keeps (fun x => Sound x ∧ x.unnamed n) (Prog.perform (.report n) : Act Nat)
      (fun _ => Sound) fun _ => Sound := by
    refine Serial.perform fun c w h _ => ?_
    have hafter := report_sound h.1 h.2 c
    refine ⟨hafter, ?_⟩
    cases (machine.exec (.report n) c w).1 <;> exact hafter
  exact (keeps_failTransfer n).seq fun _ => hreport.seq fun _ => Serial.pure fun _ h => h

theorem keeps_call (call : Call) : Keeps Sound call.prog (fun _ => Sound) fun _ => Sound := by
  cases call with
  | releasePayout id => exact keeps_seq (keeps_releasePayout id) fun _ => Serial.pure fun _ h => h
  | retryStuckPayouts limit =>
    exact keeps_seq (keeps_retryStuckPayouts limit) fun _ => Serial.pure fun _ h => h
  | adminRetryPayout id => exact keeps_adminRetryPayout id
  | transferFailed n => exact keeps_transferFailed n

end Flows

theorem Sound.paidLive {w : World} (h : Sound w.ledger) : PaidLive w := by
  intro id p n t hp _ hn ht
  obtain ⟨t', hget, -, hreported⟩ := h.transfer id p n hp hn
  have heq : t' = t := Option.some.inj (hget.symm.trans ht)
  exact heq ▸ hreported

/-- Each paid payout names a live transfer, in every sequence in which no transfer is asked for
while the order's key still brings back one that was reported. -/
theorem paid_transfer_live (w : World) (calls : List Call) (g : Run Unit) (hw : Sound w.ledger)
    (hg : Pool.Reach machine noRecord asksAnew (launch w calls) g) : PaidLive g.state := by
  have hcalls :
      Keeps Sound (Prog.series (calls.map Call.prog)) (fun _ => Sound) fun _ => Sound := by
    apply Serial.series
    intro p hp
    obtain ⟨call, -, rfl⟩ := List.mem_map.mp hp
    exact keeps_call call
  have htick (c : Fate) (v : World) : World.ledger (machine.env c v) = v.ledger := by
    cases c <;> rfl
  exact (Serial.reach hcalls htick (fun _ _ _ _ h => h) hw hw hg).1.paidLive

section Reuse

/-- An approved order whose customer has paid. -/
def approvedOrder : Order where
  customerId := 9
  inspectorId := some 7
  status := .approved
  totalCents := 10000
  platformFeeCents := 2000
  inspectorShareCents := 8000
  searchExpiresAt := none
  inspectionDeadlineAt := none
  ownerContactConfirmedAt := none
  submittedAt := none
  autoApproveAt := none
  dispatchRound := 1

def capturedPayment : Payment where
  orderId := some 1
  purpose := .order
  amountCents := 10000
  status := .succeeded
  stripePaymentIntentId := some 5
  authorizedAt := none
  capturedAt := none
  canceledAt := none
  supersededAt := none
  createdAt := 0

def onboardedInspector : InspectorProfile where
  kycVerified := true
  hasPro := true
  stripeOnboarded := true
  stripeAccountId := some 70
  cancelCount := 0
  bannedAt := none
  deletedAt := none
  available := true
  searchRadiusKm := 100

/-- Nothing is paid out yet. Stripe retains a key for a day. -/
def unpaidShare : World where
  market := { CarSalePro.World.empty with
    orders := Table.empty.set 1 approvedOrder
    payments := Table.empty.set 4 capturedPayment
    inspectors := Table.empty.set 7 onboardedInspector
    provider := ⟨Table.empty.set 5 ⟨10000, .succeeded 10000 0⟩, .empty, .empty⟩ }
  transfers := .empty
  retention := days 1

theorem unpaidShare_sound : Sound unpaidShare.ledger := ⟨nofun, nofun⟩

/-- The share is transferred, the transfer fails, and an operator has the payout tried again. -/
def retriedTransfer : List Call := [.releasePayout 1, .transferFailed 1, .adminRetryPayout 1]

/-- What the order's payout says, and whether the first transfer was reported. -/
structure Outcome where
  payout : Option (SettlementStatus × Option TransferId)
  reported : Option Bool
  deriving DecidableEq, Repr

def outcome (g : Run Unit) : Outcome where
  payout := (g.state.market.payouts.get 1).map fun p => (p.status, p.stripeTransferId)
  reported := (g.state.transfers.get 1).map (·.reported)

/-- The retry comes on the same day: the key brings the failed transfer back, and the payout is
paid by it. -/
theorem failed_transfer_reused : ¬ TransferLaw anyStep := by
  intro hlaw
  have hrun : Pool.observe machine noRecord anyStep outcome (goes 0 30) (.run 0 .ok)
      (launch unpaidShare retriedTransfer) =
      some (⟨some (.pending, none), some true⟩,
        ⟨some (.settled, some (.stripe 1)), some true⟩) := by
    decide +kernel
  obtain ⟨g, g', hg, hm, hs, -, hafter⟩ := Pool.observe_eq hrun
  have hlive := hlaw _ _ g' unpaidShare_sound (.next hg hm hs)
  obtain ⟨p, hp, hpaid⟩ := Option.map_eq_some_iff.mp (congrArg Outcome.payout hafter)
  obtain ⟨t, ht, hreported⟩ := Option.map_eq_some_iff.mp (congrArg Outcome.reported hafter)
  have hnot := hlive 1 p 1 t hp (congrArg Prod.fst hpaid) (congrArg Prod.snd hpaid) ht
  exact Bool.noConfusion (hnot.symm.trans hreported)

/-- The retry comes a day later, and the payout is paid by a transfer of its own. -/
theorem own_transfer : ∃ g : Run Unit,
    outcome g = ⟨some (.settled, some (.stripe 2)), some true⟩ ∧ PaidLive g.state := by
  have hrun : Pool.observe machine noRecord asksAnew outcome
      (goes 0 19 ++ [.env (.elapse (days 1))] ++ goes 0 11) (.run 0 .ok)
      (launch unpaidShare retriedTransfer) =
      some (⟨some (.pending, none), some true⟩,
        ⟨some (.settled, some (.stripe 2)), some true⟩) := by
    decide +kernel
  obtain ⟨g, g', hg, hm, hs, -, hafter⟩ := Pool.observe_eq hrun
  exact ⟨g', hafter, paid_transfer_live unpaidShare retriedTransfer g' unpaidShare_sound
    (.next hg hm hs)⟩

end Reuse

end CarSalePro.Transfers
