import CarSalePro.Orders.StartFlows

namespace CarSalePro

open Store Interleave Prog OrderStatus

/-- What starts the search of an order: a call from the service itself, a delivery of the news that
the card is authorised, or a run of the reconciler. -/
inductive StartRun where
  | direct
  | delivery (event : StripeEventId)
  | reconcile (limit : Nat)
  deriving DecidableEq, Repr

def StartRun.prog (k : PaymentId) (o : OrderId) : StartRun → Act Unit
  | direct => authorizeOrderPayment k o
  | delivery event =>
    handleWebhook event (processWebhook (.amountCapturableUpdated ⟨.order, some o, some k⟩))
  | reconcile limit => discard (reconcileStuckOrderPayments limit)

/-- The run is about this order alone. -/
def StartRun.single : StartRun → Bool
  | direct | delivery _ => true
  | reconcile _ => false

def World.deadline (w : World) (o : OrderId) : Option Time :=
  (w.orders.get o).bind Order.searchExpiresAt

/-- How often the deadline of the order was set and how often the order was dispatched, which
threads have looked at it, which of them found it waiting and have not moved it, and which moved it
and owes it a dispatch. -/
structure SearchLog where
  windows : Nat
  dispatches : Nat
  entered : Nat → Bool
  reading : Nat → Bool
  owing : Option Nat

def SearchLog.empty : SearchLog := ⟨0, 0, fun _ => false, fun _ => false, none⟩

def recordSearch (o : OrderId) : Recorder Site Stmt World SearchLog := fun t l w w' h =>
  match l with
  | .ask (.authorizeOrderPayment id) =>
    if id = o then
      { h with
        entered := Function.update h.entered t true
        reading := Function.update h.reading t (w.statusIs o created) }
    else h
  | .ask .reconcile => { h with reading := Function.update h.reading t false }
  | .call (.order (.setSearchExpiresAt id _)) =>
    if id = o ∧ w'.deadline o ≠ w.deadline o then { h with windows := h.windows + 1 } else h
  | .call (.order (.transition id _ target _)) =>
    if id = o ∧ w'.statusIs o target ∧ w.statusIs o target = false then
      { h with
        reading := Function.update h.reading t false
        owing := if target = paid then some t else none
        dispatches := if target = unassigned then h.dispatches + 1 else h.dispatches }
    else h
  | .call (.offer (.create made)) =>
    if made.orderId = o ∧ w'.nextOffer ≠ w.nextOffer then
      { h with owing := none, dispatches := h.dispatches + 1 }
    else h
  | _ => h

/-- A thread writes the deadline and the status of the order only while they are what it found, and
once it has started the search the database does not fail it before the order is dispatched. -/
def startsCleanly (o : OrderId) : StepGuard SearchLog := fun t l c x =>
  (x.2.owing ≠ some t || databaseUp 0 l c (x.1, ())) &&
  match l with
  | .ask .transition => !(x.2.reading t && x.1.statusIs o paid)
  | .call (.order (.setSearchExpiresAt id _)) => id ≠ o || (x.1.deadline o).isNone
  | .call (.order (.transition id _ target _)) => id ≠ o || target ≠ paid || x.1.statusIs o created
  | _ => true

/-- How far the search of an order has come. -/
inductive SearchStage (o : OrderId) (w : World) (h : SearchLog) (r : Order) : Prop where
  | waiting (status : r.status = created) (owing : h.owing = none) (dispatches : h.dispatches = 0)
  | owed (t : Nat) (owing : h.owing = some t) (status : r.status = paid)
      (window : r.searchExpiresAt.isSome) (dispatches : h.dispatches = 0)
  | started (owing : h.owing = none) (window : r.searchExpiresAt.isSome)
      (status : r.status = paid ∧ w.offered o ∨ r.status = unassigned)
      (dispatches : h.dispatches = 1)

/-- What the phase of thread `t` means for the state and the history. -/
def StartPhase.Means (o : OrderId) (t : Nat) (x : World × SearchLog) : StartPhase → Prop
  | fresh => x.2.entered t = false
  | began => x.2.reading t = true
  | opened => x.2.reading t = true ∧ (x.1.deadline o).isSome
  | past => x.1.statusIs o created = false
  | lost => False
  | aside | owing => True

/-- The invariant of the starts. -/
structure StartsKept (o : OrderId) (k : PaymentId) (n : IntentId) (Φ : Nat → StartPhase)
    (x : World × SearchLog) : Prop where
  secured : Secured o k n x.1
  fresh : x.1.offersFresh
  order : ∃ r, x.1.orders.get o = some r ∧ r.inspectorId = none ∧
    x.2.windows = (if r.searchExpiresAt.isSome then 1 else 0) ∧ SearchStage o x.1 x.2 r
  owes : ∀ t, Φ t = .owing ↔ x.2.owing = some t
  means : ∀ t, (Φ t).Means o t x

section Moves

variable {o : OrderId} {k : PaymentId} {n : IntentId} {Φ : Nat → StartPhase}
  {x y : World × SearchLog} {t : Nat} {ph : StartPhase}

theorem StartPhase.Means.mono {u : Nat} (h : ph.Means o u x)
    (hentered : y.2.entered u = x.2.entered u) (hreading : y.2.reading u = x.2.reading u)
    (hdeadline : (x.1.deadline o).isSome → (y.1.deadline o).isSome)
    (hstatus : x.1.statusIs o created = false → y.1.statusIs o created = false) :
    ph.Means o u y := by
  cases ph with
  | fresh => exact hentered.trans h
  | began => exact hreading.trans h
  | opened => exact ⟨hreading.trans h.1, hdeadline h.2⟩
  | past => exact hstatus h
  | lost => exact h
  | aside => trivial
  | owing => trivial

/-- A step of thread `t` into phase `ph`. -/
theorem StartsKept.change (hI : StartsKept o k n Φ x) (hsecured : Secured o k n y.1)
    (hfresh : y.1.offersFresh)
    (horder : ∃ r, y.1.orders.get o = some r ∧ r.inspectorId = none ∧
      y.2.windows = (if r.searchExpiresAt.isSome then 1 else 0) ∧ SearchStage o y.1 y.2 r)
    (hdeadline : (x.1.deadline o).isSome → (y.1.deadline o).isSome)
    (hstatus : x.1.statusIs o created = false → y.1.statusIs o created = false)
    (hothers : ∀ u, u ≠ t → y.2.entered u = x.2.entered u ∧ y.2.reading u = x.2.reading u)
    (howes : ∀ u, Function.update Φ t ph u = .owing ↔ y.2.owing = some u)
    (hself : ph.Means o t y) : StartsKept o k n (Function.update Φ t ph) y where
  secured := hsecured
  fresh := hfresh
  order := horder
  owes := howes
  means u := by
    by_cases hu : u = t
    · subst hu
      rw [Function.update_self]
      exact hself
    · rw [Function.update_of_ne hu]
      exact (hI.means u).mono (hothers u hu).1 (hothers u hu).2 hdeadline hstatus

/-- A step of thread `t` that leaves the order as it was. -/
theorem StartsKept.same (hI : StartsKept o k n Φ x) (hsecured : Secured o k n y.1)
    (hfresh : y.1.offersFresh) (horder : y.1.orders.get o = x.1.orders.get o)
    (hoffered : x.1.offered o → y.1.offered o) (howing : y.2.owing = x.2.owing)
    (hwindows : y.2.windows = x.2.windows) (hdispatches : y.2.dispatches = x.2.dispatches)
    (hothers : ∀ u, u ≠ t → y.2.entered u = x.2.entered u ∧ y.2.reading u = x.2.reading u)
    (hfree : Φ t = .owing ↔ ph = .owing) (hself : ph.Means o t y) :
    StartsKept o k n (Function.update Φ t ph) y := by
  refine hI.change hsecured hfresh ?_ (fun h => ?_) (fun h => ?_) hothers (fun u => ?_) hself
  · obtain ⟨r, hr, hi, hw, hstage⟩ := hI.order
    refine ⟨r, horder.trans hr, hi, hwindows.trans hw, ?_⟩
    cases hstage with
    | waiting status owing dispatches =>
      exact .waiting status (howing.trans owing) (hdispatches.trans dispatches)
    | owed u owing status window dispatches =>
      exact .owed u (howing.trans owing) status window (hdispatches.trans dispatches)
    | started owing window status dispatches =>
      refine .started (howing.trans owing) window ?_ (hdispatches.trans dispatches)
      exact status.imp_left fun h => ⟨h.1, hoffered h.2⟩
  · simpa [World.deadline, horder] using h
  · simpa [World.statusIs, horder] using h
  · rw [howing, ← hI.owes u]
    by_cases hu : u = t
    · subst hu
      rw [Function.update_self, hfree]
    · rw [Function.update_of_ne hu]

/-- How a read is recorded by the other threads, and by those the order's start is no affair of. -/
theorem recordSearch_ask {l : Site} {w w' : World} {h : SearchLog} :
    (recordSearch o t (.ask l) w w' h).owing = h.owing ∧
    (recordSearch o t (.ask l) w w' h).windows = h.windows ∧
    (recordSearch o t (.ask l) w w' h).dispatches = h.dispatches ∧
    (∀ u, u ≠ t → (recordSearch o t (.ask l) w w' h).entered u = h.entered u ∧
      (recordSearch o t (.ask l) w w' h).reading u = h.reading u) ∧
    (l ≠ .authorizeOrderPayment o → l ≠ .reconcile → recordSearch o t (.ask l) w w' h = h) := by
  cases l with
  | authorizeOrderPayment id =>
    simp only [recordSearch]
    by_cases hid : id = o
    · subst hid
      rw [if_pos rfl]
      refine ⟨rfl, rfl, rfl, fun u hu => ?_, fun hne => absurd rfl hne⟩
      exact ⟨Function.update_of_ne hu _ _, Function.update_of_ne hu _ _⟩
    · rw [if_neg hid]
      exact ⟨rfl, rfl, rfl, fun _ _ => ⟨rfl, rfl⟩, fun _ _ => rfl⟩
  | reconcile =>
    exact ⟨rfl, rfl, rfl, fun u hu => ⟨rfl, Function.update_of_ne hu _ _⟩, fun _ h => absurd rfl h⟩
  | _ => exact ⟨rfl, rfl, rfl, fun _ _ => ⟨rfl, rfl⟩, fun _ _ => rfl⟩

/-- A read, with the phase it leads to. -/
theorem StartsKept.ask {l : Site} (hI : StartsKept o k n Φ x)
    (hfree : Φ t = .owing ↔ ph = .owing)
    (hself : ph.Means o t (x.1, recordSearch o t (.ask l) x.1 x.1 x.2)) :
    StartsKept o k n (Function.update Φ t ph) (x.1, recordSearch o t (.ask l) x.1 x.1 x.2) := by
  obtain ⟨howing, hwindows, hdispatches, hothers, -⟩ :=
    recordSearch_ask (o := o) (t := t) (l := l) (w := x.1) (h := x.2)
  exact hI.same hI.secured hI.fresh rfl (fun h => h) howing hwindows hdispatches hothers hfree hself

/-- A statement beside the order is not recorded. -/
theorem recordSearch_beside {s : Stmt} {w : World} {c : Fate} {h : SearchLog}
    (hs : s.beside o n) :
    recordSearch o t (.call s) w (World.exec s c w).2 h = h := by
  cases s with
  | order u =>
    have hu : u.order ≠ o := hs.2
    cases u with
    | setSearchExpiresAt id at_ => exact if_neg fun hc => hu hc.1
    | transition id source target legal => exact if_neg fun hc => hu hc.1
    | _ => rfl
  | offer u =>
    cases u with
    | create made => exact if_neg fun hc => hs.2 hc.1
    | _ => rfl
  | _ => rfl

/-- A statement that leaves the hold alone makes offers, if any. -/
theorem StartsKept.beside {s : Stmt} {c : Fate} (hI : StartsKept o k n Φ x)
    (hs : s.beside o n) :
    StartsKept o k n (Function.update Φ t (Φ t))
      ((World.exec s c x.1).2, recordSearch o t (.call s) x.1 (World.exec s c x.1).2 x.2) := by
  obtain ⟨r, hr, -⟩ := hI.order
  have horder : (World.exec s c x.1).2.orders.get o = x.1.orders.get o := by
    rw [beside_order hs hr, hr]
  rw [recordSearch_beside hs]
  refine hI.same (secured_exec hs.1 hI.secured) (World.offersFresh_exec hI.fresh) horder
    (fun h => ?_)
    rfl rfl rfl (fun _ _ => ⟨rfl, rfl⟩) Iff.rfl ?_
  · refine offered_exec hs.1 (fun u hu => ?_) hI.fresh h
    subst hu
    cases u with
    | create made => exact ⟨made, rfl⟩
    | update id status => exact hs.2.elim
    | updateMany filter status => exact hs.2.elim
  · refine (hI.means t).mono rfl rfl (fun h => ?_) fun h => ?_
    · simpa [World.deadline, horder] using h
    · simpa [World.statusIs, horder] using h

/-- A statement the database does not get is not recorded. -/
theorem StartsKept.failed {s : Stmt} (hI : StartsKept o k n Φ x)
    (hs : s.touchesProvider = false) :
    StartsKept o k n (Function.update Φ t (Φ t))
      ((World.exec s .down x.1).2,
        recordSearch o t (.call s) x.1 (World.exec s .down x.1).2 x.2) := by
  have hdown : (World.exec s .down x.1).2 = x.1 := by
    cases s with
    | stripe request => cases hs
    | _ => rfl
  have hrecord : recordSearch o t (.call s) x.1 x.1 x.2 = x.2 := by
    cases s with
    | order u =>
      cases u with
      | setSearchExpiresAt id at_ => exact if_neg fun h => h.2 rfl
      | transition id source target legal =>
        exact if_neg fun h => by rw [h.2.1] at h; exact absurd h.2.2 (by simp)
      | _ => rfl
    | offer u =>
      cases u with
      | create made => exact if_neg fun h => h.2 rfl
      | _ => rfl
    | _ => rfl
  rw [hdown, hrecord, Function.update_eq_self]
  exact hI

/-- An order statement that changes the row of order `o`. -/
theorem exec_row {u : OrderStmt} {c : Fate} {w : World} {r r' : Order} (hc : c ≠ .down)
    (hu : u.order = o) (hr : w.orders.get o = some r) (hrewrite : u.rewrite w.now r = some r') :
    (World.exec (.order u) c w).2 = { w with orders := w.orders.set o r' } := by
  subst hu
  simp [World.exec, hc, World.write, World.writeOrder, hr, hrewrite]

/-- The deadline is set where there was none. -/
theorem StartsKept.window {at_ : Time} {c : Fate} (hI : StartsKept o k n Φ x)
    (hph : Φ t = .began) (hnone : (x.1.deadline o).isNone) (hc : c ≠ .down) :
    StartsKept o k n (Function.update Φ t .opened)
      ((World.exec (.order (.setSearchExpiresAt o at_)) c x.1).2,
        recordSearch o t (.call (.order (.setSearchExpiresAt o at_))) x.1
          (World.exec (.order (.setSearchExpiresAt o at_)) c x.1).2 x.2) := by
  obtain ⟨r, hr, hi, hw, hstage⟩ := hI.order
  have hopen : r.searchExpiresAt = none := by simpa [World.deadline, hr] using hnone
  have hsecured : Secured o k n (World.exec (.order (.setSearchExpiresAt o at_)) c x.1).2 :=
    secured_exec trivial hI.secured
  have hfresh : (World.exec (.order (.setSearchExpiresAt o at_)) c x.1).2.offersFresh :=
    World.offersFresh_exec hI.fresh
  rw [exec_row (o := o) hc rfl hr rfl] at hsecured hfresh ⊢
  have hrecord : recordSearch o t (.call (.order (.setSearchExpiresAt o at_))) x.1
      { x.1 with orders := x.1.orders.set o { r with searchExpiresAt := some at_ } } x.2 =
      { x.2 with windows := x.2.windows + 1 } := by
    refine if_pos ⟨rfl, ?_⟩
    simp [World.deadline, hr, hopen]
  rw [hrecord]
  have hreading : x.2.reading t = true := by
    have hmeans := hI.means t
    rw [hph] at hmeans
    exact hmeans
  refine hI.change hsecured hfresh ⟨{ r with searchExpiresAt := some at_ }, by simp, hi, ?_, ?_⟩
    (fun _ => by simp [World.deadline]) (fun h => ?_) (fun _ _ => ⟨rfl, rfl⟩) (fun u => ?_)
    ⟨hreading, by simp [World.deadline]⟩
  · simp [hw, hopen]
  · cases hstage with
    | waiting status owing dispatches => exact .waiting status owing dispatches
    | owed u owing status window dispatches => rw [hopen] at window; cases window
    | started owing window status dispatches => rw [hopen] at window; cases window
  · simpa [World.statusIs, hr] using h
  · rw [← hI.owes u]
    by_cases hu : u = t
    · subst hu
      rw [Function.update_self, hph]
      exact ⟨StartPhase.noConfusion, StartPhase.noConfusion⟩
    · rw [Function.update_of_ne hu]

/-- The order is searched for from here on. -/
theorem StartsKept.pay {legal : canTransition created paid} {c : Fate}
    (hI : StartsKept o k n Φ x) (hph : Φ t = .opened) (hcreated : x.1.statusIs o created)
    (hc : c ≠ .down) :
    StartsKept o k n (Function.update Φ t .owing)
      ((World.exec (.order (.transition o created paid legal)) c x.1).2,
        recordSearch o t (.call (.order (.transition o created paid legal))) x.1
          (World.exec (.order (.transition o created paid legal)) c x.1).2 x.2) := by
  obtain ⟨r, hr, hi, hw, hstage⟩ := hI.order
  have hwaiting : r.status = created := by simpa [World.statusIs, hr] using hcreated
  have hset : r.searchExpiresAt.isSome := by
    have hmeans := hI.means t
    rw [hph] at hmeans
    simpa [World.deadline, hr] using hmeans.2
  have hsecured : Secured o k n (World.exec (.order (.transition o created paid legal)) c x.1).2 :=
    secured_exec trivial hI.secured
  have hfresh : (World.exec (.order (.transition o created paid legal)) c x.1).2.offersFresh :=
    World.offersFresh_exec hI.fresh
  rw [exec_row (o := o) hc rfl hr rfl] at hsecured hfresh ⊢
  have hrecord : recordSearch o t (.call (.order (.transition o created paid legal))) x.1
      { x.1 with orders := x.1.orders.set o { r with status := paid } } x.2 =
      { x.2 with reading := Function.update x.2.reading t false, owing := some t } := by
    refine (if_pos ⟨rfl, ?_, ?_⟩).trans rfl
    · simp [World.statusIs]
    · simp [World.statusIs, hr, hwaiting]
  rw [hrecord]
  have hnone : x.2.owing = none ∧ x.2.dispatches = 0 := by
    cases hstage with
    | waiting status owing dispatches => exact ⟨owing, dispatches⟩
    | owed u owing status window dispatches => rw [hwaiting] at status; cases status
    | started owing window status dispatches =>
      rw [hwaiting] at status
      rcases status with ⟨h, _⟩ | h <;> cases h
  refine hI.change hsecured hfresh ⟨{ r with status := paid }, by simp, hi, hw,
    .owed t rfl rfl hset hnone.2⟩ (fun h => ?_) (fun _ => by simp [World.statusIs])
    (fun u hu => ⟨rfl, Function.update_of_ne hu _ _⟩) (fun u => ?_) trivial
  · simpa [World.deadline] using hset
  · by_cases hu : u = t
    · subst hu
      rw [Function.update_self]
      exact ⟨fun _ => rfl, fun _ => rfl⟩
    · rw [Function.update_of_ne hu, hI.owes u, hnone.1]
      exact ⟨fun h => (by cases h), fun h => absurd (Option.some.inj h).symm hu⟩

/-- The order whose dispatch thread `t` owes. -/
theorem StartsKept.owed (hI : StartsKept o k n Φ x) (hph : Φ t = .owing) :
    x.2.owing = some t ∧ ∃ r, x.1.orders.get o = some r ∧ r.inspectorId = none ∧
      x.2.windows = 1 ∧ r.searchExpiresAt.isSome ∧ r.status = paid ∧ x.2.dispatches = 0 := by
  have howing : x.2.owing = some t := (hI.owes t).mp hph
  obtain ⟨r, hr, hi, hw, hstage⟩ := hI.order
  refine ⟨howing, r, hr, hi, ?_⟩
  cases hstage with
  | waiting status owing dispatches => rw [howing] at owing; cases owing
  | owed u owing status window dispatches =>
    rw [if_pos window] at hw
    exact ⟨hw, window, status, dispatches⟩
  | started owing window status dispatches => rw [howing] at owing; cases owing

/-- No thread owes a dispatch once thread `t`, which did, has moved on. -/
theorem StartsKept.settled (hI : StartsKept o k n Φ x) (hph : Φ t = .owing) (hpast : ph ≠ .owing)
    (u : Nat) : Function.update Φ t ph u = .owing ↔ (none : Option Nat) = some u := by
  refine ⟨fun h => ?_, fun h => by cases h⟩
  by_cases hu : u = t
  · subst hu
    rw [Function.update_self] at h
    exact absurd h hpast
  · rw [Function.update_of_ne hu, hI.owes u, (hI.owes t).mp hph] at h
    exact absurd (Option.some.inj h).symm hu

/-- The order is offered to an inspector. -/
theorem StartsKept.offer {made : OrderOffer} {c : Fate} (hI : StartsKept o k n Φ x)
    (hph : Φ t = .owing) (ho : made.orderId = o) (hpending : made.status = .pending)
    (hc : c ≠ .down) :
    StartsKept o k n (Function.update Φ t .past)
      ((World.exec (.offer (.create made)) c x.1).2,
        recordSearch o t (.call (.offer (.create made))) x.1
          (World.exec (.offer (.create made)) c x.1).2 x.2) := by
  obtain ⟨-, r, hr, hi, hw, hset, hpaid, hnone⟩ := hI.owed hph
  have hsecured : Secured o k n (World.exec (.offer (.create made)) c x.1).2 :=
    secured_exec trivial hI.secured
  have hfresh : (World.exec (.offer (.create made)) c x.1).2.offersFresh :=
    World.offersFresh_exec hI.fresh
  have hafter : (World.exec (.offer (.create made)) c x.1).2 = { x.1 with
      offers := x.1.offers.set x.1.nextOffer made, nextOffer := x.1.nextOffer + 1 } := by
    simp [World.exec, hc, World.write, World.writeOffer]
  rw [hafter] at hsecured hfresh ⊢
  have hrecord : recordSearch o t (.call (.offer (.create made))) x.1 { x.1 with
      offers := x.1.offers.set x.1.nextOffer made, nextOffer := x.1.nextOffer + 1 } x.2 =
      { x.2 with owing := none, dispatches := x.2.dispatches + 1 } :=
    if_pos ⟨ho, Nat.succ_ne_self _⟩
  rw [hrecord]
  have hoffered : ({ x.1 with
      offers := x.1.offers.set x.1.nextOffer made
      nextOffer := x.1.nextOffer + 1 } : World).offered o :=
    Table.any_eq_true.mpr ⟨x.1.nextOffer, made, by simp, by simp [ho, hpending]⟩
  refine hI.change hsecured hfresh ⟨r, hr, hi, by simpa [hset] using hw, ?_⟩ (fun h => h)
    (fun h => h) (fun _ _ => ⟨rfl, rfl⟩) (hI.settled hph StartPhase.noConfusion) ?_
  · exact .started rfl hset (.inl ⟨hpaid, hoffered⟩) (by simp [hnone])
  · simp [StartPhase.Means, World.statusIs, hr, hpaid]

/-- Nobody can be offered the order. -/
theorem StartsKept.unassign {legal : canTransition paid unassigned} {c : Fate}
    (hI : StartsKept o k n Φ x) (hph : Φ t = .owing) (hc : c ≠ .down) :
    StartsKept o k n (Function.update Φ t .past)
      ((World.exec (.order (.transition o paid unassigned legal)) c x.1).2,
        recordSearch o t (.call (.order (.transition o paid unassigned legal))) x.1
          (World.exec (.order (.transition o paid unassigned legal)) c x.1).2 x.2) := by
  obtain ⟨-, r, hr, hi, hw, hset, hpaid, hnone⟩ := hI.owed hph
  have hsecured : Secured o k n
      (World.exec (.order (.transition o paid unassigned legal)) c x.1).2 :=
    secured_exec trivial hI.secured
  have hfresh : (World.exec (.order (.transition o paid unassigned legal)) c x.1).2.offersFresh :=
    World.offersFresh_exec hI.fresh
  rw [exec_row (o := o) hc rfl hr rfl] at hsecured hfresh ⊢
  have hrecord : recordSearch o t (.call (.order (.transition o paid unassigned legal))) x.1
      { x.1 with orders := x.1.orders.set o { r with status := unassigned } } x.2 =
      { x.2 with
        reading := Function.update x.2.reading t false
        owing := none
        dispatches := x.2.dispatches + 1 } := by
    refine (if_pos ⟨rfl, ?_, ?_⟩).trans rfl
    · simp [World.statusIs]
    · simp [World.statusIs, hr, hpaid]
  rw [hrecord]
  refine hI.change hsecured hfresh ⟨{ r with status := unassigned }, by simp, hi,
    by simpa [hset] using hw, .started rfl hset (.inr rfl) (by simp [hnone])⟩ (fun _ => ?_)
    (fun _ => by simp [World.statusIs]) (fun u hu => ⟨rfl, Function.update_of_ne hu _ _⟩)
    (hI.settled hph StartPhase.noConfusion) ?_
  · simpa [World.deadline] using hset
  · simp [StartPhase.Means, World.statusIs]

/-- Every step a start takes under the condition keeps the invariant. -/
theorem StartsKept.step {l : Label Site Stmt} {c : Fate} (hI : StartsKept o k n Φ x)
    (hC : startsCleanly o t l c x) (hm : StartMove o n (Φ t) l c x.1 ph) :
    StartsKept o k n (Function.update Φ t ph)
      (machine.after l c x.1, recordSearch o t l x.1 (machine.after l c x.1) x.2) := by
  simp only [startsCleanly, Bool.and_eq_true] at hC
  generalize hph : Φ t = here at hm
  cases hm with
  | look site c w free other ahead =>
    refine hI.ask (by rw [hph]) ?_
    have hmeans := hI.means t
    rw [hph] at hmeans
    rcases other with rfl | rfl | hl
    · trivial
    · exact hmeans
    · rw [recordSearch_ask.2.2.2.2 hl.1 hl.2]
      exact hmeans
  | late c w behind =>
    have hmeans := hI.means t
    rw [hph] at hmeans
    have hclean := hC.2
    simp [hmeans.1, behind] at hclean
  | found c w r free row waiting =>
    have hfree : Φ t = .owing ↔
        (if r.searchExpiresAt = none then StartPhase.began else .opened) = .owing := by
      rw [hph]
      rcases free with rfl | rfl <;> split <;> simp
    refine hI.ask hfree ?_
    have hcreated : x.1.statusIs o created = true := by simp [World.statusIs, row, waiting]
    have hreading : (recordSearch o t (.ask (.authorizeOrderPayment o)) x.1 x.1 x.2).reading t =
        true := by
      simp [recordSearch, hcreated]
    split
    next => exact hreading
    next hset =>
      exact ⟨hreading, by simpa [World.deadline, row, Option.isSome_iff_ne_none] using hset⟩
  | missed c w r free row started =>
    refine hI.ask ?_ (by simp [StartPhase.Means, World.statusIs, row, started])
    rw [hph]
    rcases free with rfl | rfl <;> simp
  | next c w free =>
    refine hI.ask ?_ trivial
    rw [hph]
    exact ⟨fun h => absurd h free, fun h => by cases h⟩
  | beside s c w free stmt =>
    rw [← hph]
    exact hI.beside stmt
  | window at_ c w =>
    by_cases hc : c = .down
    · subst hc
      rw [if_pos rfl, ← hph]
      exact hI.failed rfl
    · rw [if_neg hc]
      exact hI.window hph (by simpa using hC.2) hc
  | pay legal c w =>
    by_cases hc : c = .down
    · subst hc
      rw [if_pos rfl, ← hph]
      exact hI.failed rfl
    · rw [if_neg hc]
      exact hI.pay hph (by simpa using hC.2) hc
  | owes site c w up => exact hI.ask (by rw [hph]) trivial
  | tells e c w up =>
    rw [← hph]
    exact hI.beside (s := .event e) ⟨trivial, trivial⟩
  | offers made c w up row pending => exact hI.offer hph row pending up
  | unassigns legal c w up => exact hI.unassign hph up
  | dropped l c w down =>
    have hclean := hC.1
    have hup : databaseUp 0 l c (x.1, ()) = true := by simpa [(hI.owes t).mp hph] using hclean
    exact absurd hup down

end Moves

section Runs

variable {o : OrderId} {k : PaymentId} {n : IntentId}

theorem StartsKept.sees {Φ : Nat → StartPhase} {x : World × SearchLog} (hI : StartsKept o k n Φ x)
    (t : Nat) : (Φ t).Sees o k n x.1 := by
  have hsearching : Searching o k n x.1 := by
    refine ⟨hI.secured, ?_⟩
    obtain ⟨r, hr, -, -, hstage⟩ := hI.order
    refine ⟨r, hr, ?_⟩
    cases hstage with
    | waiting status owing dispatches => rw [status]; decide
    | owed u owing status window dispatches => rw [status]; decide
    | started owing window status dispatches =>
      rcases status with ⟨h, _⟩ | h <;> (rw [h]; decide)
  cases hph : Φ t with
  | owing =>
    obtain ⟨-, r, hr, -, -, -, hpaid, -⟩ := hI.owed hph
    exact ⟨hI.secured, r, hr, hpaid⟩
  | lost =>
    have hmeans := hI.means t
    rw [hph] at hmeans
    exact hmeans
  | _ => exact hsearching

theorem StartsKept.tick {Φ : Nat → StartPhase} {x : World × SearchLog} (c : Fate)
    (hI : StartsKept o k n Φ x) : StartsKept o k n Φ (World.tick c x.1, x.2) := by
  have hsecured := secured_tick (c := c) hI.secured
  obtain ⟨now, he⟩ := World.tick_eq c x.1
  rw [he] at hsecured ⊢
  refine ⟨hsecured, hI.fresh, ?_, hI.owes,
    fun t => (hI.means t).mono rfl rfl (fun h => h) fun h => h⟩
  obtain ⟨r, hr, hi, hw, hstage⟩ := hI.order
  refine ⟨r, hr, hi, hw, ?_⟩
  cases hstage with
  | waiting status owing dispatches => exact .waiting status owing dispatches
  | owed u owing status window dispatches => exact .owed u owing status window dispatches
  | started owing window status dispatches => exact .started owing window status dispatches

/-- Where a run about the order, or a reconciler, begins. -/
def StartRun.phase : StartRun → StartPhase
  | direct | delivery _ => .fresh
  | reconcile _ => .aside

variable {w : World} {runs : List StartRun} {g : Run SearchLog}

theorem StartsKept.once {Φ : Nat → StartPhase} {x : World × SearchLog}
    (hI : StartsKept o k n Φ x) : x.2.windows ≤ 1 ∧ x.2.dispatches ≤ 1 := by
  obtain ⟨r, -, -, hwindows, hstage⟩ := hI.order
  constructor
  · rw [hwindows]
    split
    · exact Nat.le_refl 1
    · exact Nat.zero_le 1
  · cases hstage with
    | waiting status owing dispatches => exact dispatches ▸ Nat.zero_le 1
    | owed t owing status window dispatches => exact dispatches ▸ Nat.zero_le 1
    | started owing window status dispatches => exact dispatches ▸ Nat.le_refl 1

end Runs

section Interrupted

end Interrupted

end CarSalePro
