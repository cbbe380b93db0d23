import CarSalePro.Orders.Effects

namespace CarSalePro

open Interleave Prog OrderStatus

/-- The events Stripe may send late, or again, about a counter-offer payment. -/
inductive LateEvent where
  | canceled | paymentFailed | amountCapturableUpdated | succeeded
  deriving DecidableEq, Repr

/-- The event about a payment of the order, as it arrives. -/
def LateEvent.kind (id : OrderId) (payment : PaymentId) : LateEvent → StripeEventKind
  | canceled => .canceled ⟨.orderCounterOffer, some id, some payment⟩
  | paymentFailed => .paymentFailed ⟨.orderCounterOffer, some id, some payment⟩
  | amountCapturableUpdated => .amountCapturableUpdated ⟨.orderCounterOffer, some id, some payment⟩
  | succeeded => .succeeded ⟨.orderCounterOffer, some id, some payment⟩

namespace World

/-- A counter-offer of the order is being paid. -/
def beingPaid (w : World) (id : OrderId) : Bool :=
  w.counterOffers.any fun _ c => c.orderId = id && c.status = .accepting

/-- The order does not wait for this payment, or waits for it no more. -/
def stale (w : World) (id : OrderId) (payment : PaymentId) : Bool :=
  (w.payments.get payment).all fun p => !p.awaited id

/-- What Stripe keeps of the payment. -/
def intentOf (w : World) (payment : PaymentId) : Option Intent :=
  ((w.payments.get payment).bind Payment.stripePaymentIntentId).bind w.provider.intents.get

/-- The news that the payment is authorised, handled now, assigns the order. -/
def finalises (w : World) (payment : PaymentId) (id : OrderId) : Bool :=
  (((finalizeCounterOfferPayment payment id).alone machine .ok w).2.orders.get id).any
    (·.status = assigned)

end World

/-- The event finds no counter-offer payment to abandon. -/
def LateEvent.harmless (w : World) (id : OrderId) : LateEvent → Bool
  | canceled | paymentFailed => !w.beingPaid id
  | amountCapturableUpdated | succeeded => true

/-- Payment `k` is the live attempt of order `o`, made for counter-offer `c`: no other price of the
order is being paid. -/
structure LiveAttempt (o : OrderId) (k : PaymentId) (c : CounterOfferId) (w : World) : Prop where
  payment : ∃ p, w.payments.get k = some p ∧ p.awaited o
  counter : ∃ x, w.counterOffers.get c = some x ∧ x.orderId = o
  sole : ∀ c' x, w.counterOffers.get c' = some x → x.orderId = o → x.status = .accepting → c' = c
  index : presentedConflict w.counterOffers = false

/-- Between `w` and `v` nothing happened to the live attempt: its row, the status of its
counter-offer and its order are what they were, and it can be authorised and finalised as before. -/
structure Undisturbed (o : OrderId) (k : PaymentId) (c : CounterOfferId) (w v : World) : Prop where
  payment : v.payments.get k = w.payments.get k
  counter : (v.counterOffers.get c).map OrderCounterOffer.status =
    (w.counterOffers.get c).map OrderCounterOffer.status
  order : v.orders.get o = w.orders.get o
  authorisable : v.intentOf k = w.intentOf k
  finalises : v.finalises k o = { w with now := v.now }.finalises k o

/-- The handlers of events about payments of order `o`, all at their first step. -/
def deliverLate (o : OrderId) (w : World) (events : List (PaymentId × LateEvent)) : Run Unit :=
  ⟨w, (), events.map fun d => processWebhook (d.2.kind o d.1)⟩

/-- Late events about stale attempts of an order do not disturb the live one. -/
def StaleAttempts : Prop :=
  ∀ (w : World) (o : OrderId) (k : PaymentId) (c : CounterOfferId)
    (events : List (PaymentId × LateEvent)), LiveAttempt o k c w →
    (∀ d ∈ events, w.stale o d.1) →
    ∀ g, Pool.Reach machine noRecord anyStep (deliverLate o w events) g →
      Undisturbed o k c w g.state

section Harmless

/-- The discipline of threads that read the world `w`, while its clock runs, and write nothing. -/
def reading (w : World) : Discipline Site Stmt World Fate Unit where
  view _ v := v = { w with now := v.now }
  moves _ l _ _ _ := ∃ site, l = .ask site

abbrev Reads (w : World) (p : Act Unit) : Prop :=
  (reading w).Flow machine (fun _ => True) p (fun _ _ => True) fun _ _ => True

variable {w : World} {o : OrderId} {k : PaymentId} {c : CounterOfferId}

theorem reads_pure : Reads w (pure ()) := Discipline.Flow.pure fun _ _ => trivial

theorem reads_fetch {ρ : Type} {l : Site} {f : World → ρ} {a : ρ} {p : ρ → Act Unit}
    (hf : ∀ now, f { w with now := now } = a) (hp : Reads w (p a)) :
    Reads w (fetch l f >>= p) := by
  have hread : (reading w).Flow machine (fun _ => True) (fetch l f : Act ρ) (fun r _ => r = a)
      fun _ _ => True := by
    refine Discipline.Flow.fetch fun _ x v _ hv => ⟨(), ⟨l, rfl⟩, ?_⟩
    unfold Machine.answer
    cases machine.fault l x with
    | some e => trivial
    | none =>
      have hv : v = { w with now := v.now } := hv
      rw [hv]
      exact hf v.now
  exact hread.seq fun r _ hr => hr ▸ hp () trivial

theorem reads_finalize (hstale : w.stale o k) : Reads w (finalizeCounterOfferPayment k o) := by
  have hnone : (w.payments.get k).filter (·.awaited o) = none := by
    cases hk : w.payments.get k with
    | none => rfl
    | some p =>
      have hp : p.awaited o = false := by simpa [World.stale, hk] using hstale
      simp [Option.filter, hp]
  refine reads_fetch (a := w.payments.get k) (fun _ => rfl) ?_
  rw [hnone]
  exact reads_pure

theorem reads_abandon (hfree : w.beingPaid o = false) (canceled : Bool) :
    Reads w (abandonCounterOfferPayment o canceled) := by
  have hnone : (w.counterOffers.findFirst fun _ c => c.orderId = o && c.status = .accepting) =
      none := Store.Table.findFirst_none.mpr (Store.Table.any_eq_false.mp hfree)
  refine reads_fetch (a := none) (fun _ => hnone) ?_
  exact reads_pure

theorem reads_late {event : LateEvent} (hstale : w.stale o k) (h : event.harmless w o) :
    Reads w (processWebhook (event.kind o k)) := by
  cases event with
  | canceled => exact reads_abandon (by simpa [LateEvent.harmless] using h) true
  | paymentFailed => exact reads_abandon (by simpa [LateEvent.harmless] using h) false
  | amountCapturableUpdated => exact reads_finalize hstale
  | succeeded => exact reads_pure

theorem readingKept : (reading w).Invariant machine noRecord anyStep
    fun _ x => x.1 = { w with now := x.1.now } where
  view _ _ _ h := h
  move _ x _ _ _ _ h _ hm := by
    obtain ⟨site, rfl⟩ := hm
    exact h
  env _ x d h := by
    obtain ⟨now, he⟩ := World.tick_eq d x.1
    rw [show machine.env = World.tick from rfl, he, h]

theorem Undisturbed.of_clock {v : World} (h : v = { w with now := v.now }) :
    Undisturbed o k c w v := by
  rw [h]
  exact ⟨rfl, rfl, rfl, rfl, rfl⟩

/-- Harmless events change nothing, in whatever order they are handled. -/
theorem undisturbed_of_harmless {events : List (PaymentId × LateEvent)}
    (hstale : ∀ d ∈ events, w.stale o d.1) (hall : ∀ d ∈ events, d.2.harmless w o) {g : Run Unit}
    (hg : Pool.Reach machine noRecord anyStep (deliverLate o w events) g) :
    Undisturbed o k c w g.state := by
  have hstart : (reading w).Kept machine (fun _ x => x.1 = { w with now := x.1.now })
      (fun _ => True) (fun _ => ()) (deliverLate o w events) := by
    refine ⟨rfl, fun t p hp => ?_, fun _ _ => trivial⟩
    obtain ⟨d, hd, rfl⟩ := List.mem_map.mp (List.mem_of_getElem? hp)
    exact reads_late (hstale d hd) (hall d hd) () trivial
  obtain ⟨Φ, hkept⟩ := Discipline.kept_of_reach readingKept hstart hg
  exact .of_clock hkept.inv

end Harmless

section Harmful

variable {w : World} {o : OrderId} {c : CounterOfferId}

/-- Returning a counter-offer from its payment presents no other price. -/
theorem presented_returned {stillOpen : Bool} {at_ : Time}
    (hindex : presentedConflict w.counterOffers = false) :
    presentedConflict (w.counterOffers.rewrite fun id x =>
      (CounterOfferStmt.returnFromPayment c stillOpen at_).rewrite w.now id x) = false := by
  have hback (id : CounterOfferId) (y : OrderCounterOffer)
      (hy : (w.counterOffers.rewrite fun id x =>
        (CounterOfferStmt.returnFromPayment c stillOpen at_).rewrite w.now id x).get id = some y) :
      ∃ x, w.counterOffers.get id = some x ∧ x.orderId = y.orderId ∧
        (y.presented → x.presented) := by
    obtain ⟨x, hx, rfl⟩ := Option.map_eq_some_iff.mp hy
    refine ⟨x, hx, ?_⟩
    simp only [CounterOfferStmt.rewrite]
    split
    next h =>
      have hpresented : x.presented = true := by simp [OrderCounterOffer.presented, h.2]
      cases stillOpen <;> exact ⟨rfl, fun _ => hpresented⟩
    next => exact ⟨rfl, fun h => h⟩
  have hno := Store.Table.any_eq_false.mp hindex
  refine Store.Table.any_eq_false.mpr fun id y hy => ?_
  obtain ⟨x, hx, ho, hp⟩ := hback id y hy
  by_contra hconflict
  simp only [Bool.not_eq_false, Bool.and_eq_true] at hconflict
  obtain ⟨id', y', hy', hboth⟩ := Store.Table.any_eq_true.mp hconflict.2
  obtain ⟨x', hx', ho', hp'⟩ := hback id' y' hy'
  simp only [Bool.and_eq_true, decide_eq_true_eq] at hboth
  have hpair := hno id x hx
  rw [hp hconflict.1, Bool.true_and] at hpair
  have hother := Store.Table.any_eq_false.mp hpair id' x' hx'
  simp [hboth.1.1, hp' hboth.1.2, ho', ho, hboth.2] at hother

/-- An abandoned payment takes its counter-offer out of payment. -/
theorem returned_status {x : OrderCounterOffer} {stillOpen : Bool} {at_ : Time}
    (hindex : presentedConflict w.counterOffers = false) (hx : w.counterOffers.get c = some x)
    (hpaid : x.status = .accepting) :
    ((World.exec (.counterOffer (.returnFromPayment c stillOpen at_)) .ok w).2.counterOffers.get
      c).map OrderCounterOffer.status ≠ some .accepting := by
  have hwrite : (World.exec (.counterOffer (.returnFromPayment c stillOpen at_)) .ok w).2 =
      { w with counterOffers := w.counterOffers.rewrite fun id x =>
        (CounterOfferStmt.returnFromPayment c stillOpen at_).rewrite w.now id x } := by
    simp [World.exec, World.write, World.writeCounterOffer, presented_returned hindex]
  rw [hwrite]
  cases stillOpen <;> simp [hx, CounterOfferStmt.rewrite, hpaid]

/-- The first three steps of an abandonment take the order's counter-offer out of payment,
whichever attempt the event is about. -/
theorem disturbs_abandon {k : PaymentId} (canceled : Bool) {g : Run Unit} {t : Nat}
    (hlive : LiveAttempt o k c g.state) (hpaid : g.state.beingPaid o)
    (ht : g.threads[t]? = some (abandonCounterOfferPayment o canceled)) :
    ∃ g', Pool.Reach machine noRecord anyStep g g' ∧ ¬ Undisturbed o k c g.state g'.state := by
  obtain ⟨c', x, hx, hp⟩ := Store.Table.any_eq_true.mp hpaid
  cases hfound : g.state.counterOffers.findFirst
      fun _ c => c.orderId = o && c.status = .accepting with
  | none =>
    have hno := Store.Table.findFirst_none.mp hfound c' x hx
    rw [hp] at hno
    cases hno
  | some found =>
    obtain ⟨c₀, x₀⟩ := found
    obtain ⟨hx₀, hp₀⟩ := Store.Table.findFirst_some hfound
    simp only [Bool.and_eq_true, decide_eq_true_eq] at hp₀
    cases hlive.sole c₀ x₀ hx₀ hp₀.1 hp₀.2
    have hanswer : machine.answer .abandonCounterOfferPayment (fun w =>
        w.counterOffers.findFirst fun _ c => c.orderId = o && c.status = .accepting) .ok g.state =
        .ok (some (c, x₀)) := congrArg Except.ok hfound
    have hsteps : ∃ q₁, (abandonCounterOfferPayment o canceled).step machine .ok g.state =
          some (.ask .abandonCounterOfferPayment, g.state, q₁) ∧
        ∃ q₂, q₁.step machine .ok g.state = some (.ask .clock, g.state, q₂) ∧
        ∃ stillOpen at_ q₃, q₂.step machine .ok g.state =
          some (.call (.counterOffer (.returnFromPayment c stillOpen at_)),
            (World.exec (.counterOffer (.returnFromPayment c stillOpen at_)) .ok g.state).2,
            q₃) := by
      refine ⟨_, rfl, ?_⟩
      rw [hanswer]
      exact ⟨_, rfl, _, _, _, rfl⟩
    obtain ⟨q₁, h₁, q₂, h₂, stillOpen, at_, q₃, h₃⟩ := hsteps
    have hlt := (List.getElem?_eq_some_iff.mp ht).1
    have hr₁ : Pool.Reach machine noRecord anyStep g _ := Pool.Reach.start.take ht h₁ rfl
    have hr₂ := hr₁.take (List.getElem?_set_self hlt) h₂ rfl
    have hr₃ := hr₂.take (List.getElem?_set_self (by simpa using hlt)) h₃ rfl
    refine ⟨_, hr₃, fun hsame => ?_⟩
    have hstatus := hsame.counter
    rw [hx₀] at hstatus
    exact returned_status hlive.index hx₀ hp₀.2 (hstatus.trans (congrArg some hp₀.2))

/-- A harmful event disturbs the live attempt as soon as its handler gets to work. -/
theorem disturbed_of_harmful {k : PaymentId} {events : List (PaymentId × LateEvent)}
    {d : PaymentId × LateEvent} (hlive : LiveAttempt o k c w) (hd : d ∈ events)
    (hharm : d.2.harmless w o = false) :
    ∃ g, Pool.Reach machine noRecord anyStep (deliverLate o w events) g ∧
      ¬ Undisturbed o k c w g.state := by
  obtain ⟨t, ht⟩ := List.mem_iff_getElem?.mp hd
  have hthread : (deliverLate o w events).threads[t]? =
      some (processWebhook (d.2.kind o d.1)) := by simp [deliverLate, ht]
  cases he : d.2 with
  | canceled =>
    have hpaid : w.beingPaid o := by simpa [he, LateEvent.harmless] using hharm
    rw [he] at hthread
    have hcancel : (deliverLate o w events).threads[t]? =
        some (abandonCounterOfferPayment o true) := hthread
    exact disturbs_abandon true hlive hpaid hcancel
  | paymentFailed =>
    have hpaid : w.beingPaid o := by simpa [he, LateEvent.harmless] using hharm
    rw [he] at hthread
    have hrefuse : (deliverLate o w events).threads[t]? =
        some (abandonCounterOfferPayment o false) := hthread
    exact disturbs_abandon false hlive hpaid hrefuse
  | amountCapturableUpdated => rw [he] at hharm; cases hharm
  | succeeded => rw [he] at hharm; cases hharm

end Harmful

/-- Late events about stale attempts leave the live attempt alone exactly when none of them is a
cancellation or a refusal that comes while a price of the order is being paid. -/
theorem stale_attempts (w : World) (o : OrderId) (k : PaymentId) (c : CounterOfferId)
    (events : List (PaymentId × LateEvent)) (hlive : LiveAttempt o k c w)
    (hstale : ∀ d ∈ events, w.stale o d.1) :
    (∀ g, Pool.Reach machine noRecord anyStep (deliverLate o w events) g →
      Undisturbed o k c w g.state) ↔ ∀ d ∈ events, d.2.harmless w o := by
  constructor
  · intro hsame d hd
    by_contra hharm
    obtain ⟨g, hg, hdisturbed⟩ := disturbed_of_harmful hlive hd (by simpa using hharm)
    exact hdisturbed (hsame g hg)
  · intro hall g hg
    exact undisturbed_of_harmless hstale hall hg

section Retried

/-- A payment of 120 for the counter-offer on order 1. -/
def attemptRow (status : PaymentStatus) (intent : IntentId) (supersededAt : Option Time) :
    Payment where
  orderId := some 1
  purpose := .orderCounterOffer
  amountCents := 12000
  status := status
  stripePaymentIntentId := some intent
  authorizedAt := none
  capturedAt := none
  canceledAt := none
  supersededAt := supersededAt
  createdAt := 0

/-- The customer's first card was refused; the second attempt, payment 7, waits for another card.
Stripe's news that the first intent is cancelled is still on its way. -/
def retriedWorld : World :=
  { World.empty with
    orders := Store.Table.empty.set 1 {
      customerId := 10
      inspectorId := none
      status := unassigned
      totalCents := 10000
      platformFeeCents := 2000
      inspectorShareCents := 8000
      searchExpiresAt := some 90000000
      inspectionDeadlineAt := none
      ownerContactConfirmedAt := none
      submittedAt := none
      autoApproveAt := none
      dispatchRound := 1 }
    counterOffers := Store.Table.empty.set 4 {
      orderId := 1
      inspectorId := 20
      status := .accepting
      priceCents := 12000
      platformFeeCents := 2400
      inspectorShareCents := 9600
      presentedAt := some 0
      expiresAt := 1200000
      acceptingUntil := some 600000
      respondedAt := none
      createdAt := 0 }
    payments := (Store.Table.empty.set 6 (attemptRow .failed 60 (some 30000))).set 7
      (attemptRow .pending 70 none)
    provider := {
      intents := (Store.Table.empty.set 60 ⟨12000, .canceled⟩).set 70
        ⟨12000, .requiresPaymentMethod⟩
      refunds := .empty
      transfers := .empty } }

theorem live_retriedWorld : LiveAttempt 1 7 4 retriedWorld where
  payment := ⟨attemptRow .pending 70 none, rfl, rfl⟩
  counter := ⟨_, rfl, rfl⟩
  sole c x hx _ _ := by
    by_contra hc
    have hnone : retriedWorld.counterOffers.get c = none := if_neg hc
    rw [hnone] at hx
    cases hx
  index := by decide

/-- The late cancellation of the first attempt ends the second one. -/
theorem late_cancellation_abandons : ¬ StaleAttempts := by
  intro hlaw
  have hrun : Pool.observe machine noRecord anyStep
      (fun g => (g.state.payments.get 7).map Payment.status) (goes 0 5) (.run 0 .ok)
      (deliverLate 1 retriedWorld [(6, .canceled)]) = some (some .pending, some .failed) := by
    decide +kernel
  obtain ⟨g, g', hg, hm, hs, -, hafter⟩ := Pool.observe_eq hrun
  have hsame := hlaw retriedWorld 1 7 4 [(6, .canceled)] live_retriedWorld
    (by decide) g' (.next hg hm hs)
  rw [hsame.payment] at hafter
  cases hafter

/-- The repeated news of the first attempt's authorisation does nothing to the second one. -/
theorem stale_attempts_repeated : ∃ g : Run Unit, g.AllEnded ∧
    Undisturbed 1 7 4 retriedWorld g.state := by
  have hrun : Pool.observe machine noRecord anyStep (fun g => decide g.AllEnded) []
      (.run 0 .ok) (deliverLate 1 retriedWorld [(6, .amountCapturableUpdated), (6, .succeeded)]) =
      some (false, true) := by decide +kernel
  obtain ⟨g, g', hg, hm, hs, -, hafter⟩ := Pool.observe_eq hrun
  have hall := (stale_attempts retriedWorld 1 7 4 [(6, .amountCapturableUpdated), (6, .succeeded)]
    live_retriedWorld (by decide)).mpr (by decide)
  exact ⟨g', of_decide_eq_true hafter, hall g' (.next hg hm hs)⟩

end Retried

end CarSalePro
