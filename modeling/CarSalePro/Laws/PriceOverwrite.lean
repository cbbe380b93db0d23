import CarSalePro.Interleave.Recall
import CarSalePro.Orders.Effects
import CarSalePro.Orders.TradeFootprints

namespace CarSalePro

open Store Interleave Prog OrderStatus

/-- What a thread remembers: the state in which it checked the inspector's own price, the state in
which it read the price to accept, and the price it started to pay. Each is the first of its
kind. -/
structure PriceMemory where
  own : Option World
  accepted : Option World
  locking : Option CounterOfferId

namespace PriceMemory

def empty : PriceMemory := ⟨none, none, none⟩

def note (m : PriceMemory) (l : Label Site Stmt) (w : World) : PriceMemory :=
  match l with
  | .ask .ownCounterOffer => { m with own := m.own.or (some w) }
  | .ask .acceptCounterOffer => { m with accepted := m.accepted.or (some w) }
  | .call (.counterOffer (.startPayment k _)) => { m with locking := m.locking.or (some k) }
  | _ => m

/-- A price is named where the one there was had no answer, a payment is started for a price that
was read, and is opened at that price. -/
def may (m : PriceMemory) : Stmt → Prop
  | .upsertCounterOffer order inspector _ => ∃ w, m.own = some w ∧
      ∀ c, w.ownCounterOffer order inspector = some c → c.2.status.answered = none
  | .counterOffer (.startPayment k _) => m.locking = none ∧
      ∃ w c, m.accepted = some w ∧ w.counterOffers.get k = some c
  | .createPayment _ _ amountCents => ∃ w k c, m.accepted = some w ∧ m.locking = some k ∧
      w.counterOffers.get k = some c ∧ amountCents = c.priceCents
  | _ => True

/-- What is remembered stays so. -/
theorem own_note {m : PriceMemory} {l : Label Site Stmt} {w w' : World} (h : m.own = some w') :
    (m.note l w).own = some w' := by
  unfold note
  split <;> simp [h]

theorem accepted_note {m : PriceMemory} {l : Label Site Stmt} {w w' : World}
    (h : m.accepted = some w') : (m.note l w).accepted = some w' := by
  unfold note
  split <;> simp [h]

theorem locking_note {m : PriceMemory} {l : Label Site Stmt} {w : World} {k : CounterOfferId}
    (h : m.locking = some k) : (m.note l w).locking = some k := by
  unfold note
  split <;> simp [h]

theorem may_plain {m : PriceMemory} {s : Stmt} (h : s.priceless) : m.may s := by
  unfold may
  split
  · exact h.elim
  · exact h.elim
  · exact h.elim
  · trivial

end PriceMemory

/-- What the threads remember, which of them opened the window of a counter-offer, and what the
payment is that each has opened. -/
structure PriceLog where
  memory : Nat → PriceMemory
  opener : CounterOfferId → Option Nat
  amount : Nat → Option Cents

def PriceLog.empty : PriceLog := ⟨fun _ => .empty, fun _ => none, fun _ => none⟩

def World.accepting (w : World) (k : CounterOfferId) : Bool :=
  (w.counterOffers.get k).any (·.status = .accepting)

def recordPrices : Recorder Site Stmt World PriceLog := fun t l w w' h =>
  { memory := Function.update h.memory t ((h.memory t).note l w)
    opener :=
      match l with
      | .call (.counterOffer (.startPayment k _)) =>
        if w'.accepting k && !w.accepting k then Function.update h.opener k (some t) else h.opener
      | _ => h.opener
    amount :=
      match l with
      | .call (.createPayment _ _ amountCents) => Function.update h.amount t (some amountCents)
      | _ => h.amount }

/-- A price is named while the row has the status that was checked, and a payment is started while
the row has the price that was read. -/
def pricesInTime : StepGuard PriceLog := fun t l c x =>
  match l with
  | .call (.upsertCounterOffer order inspector _) => c = .down ||
      (x.2.memory t).own.all fun w => (w.ownCounterOffer order inspector).map (·.2.status) =
        (x.1.ownCounterOffer order inspector).map (·.2.status)
  | .call (.counterOffer (.startPayment k _)) => c = .down ||
      (x.2.memory t).accepted.all fun w => (w.counterOffers.get k).map (·.priceCents) =
        (x.1.counterOffers.get k).map (·.priceCents)
  | _ => true

/-- The price being paid for in an open window is the price of its row. -/
def PaidAtPrice (x : World × PriceLog) : Prop :=
  ∀ k row t amountCents, x.1.counterOffers.get k = some row → row.status = .accepting →
    x.2.opener k = some t → x.2.amount t = some amountCents → amountCents = row.priceCents

/-- In every run of the operations on prices, the naming of a price leaves a row alone that is being
paid for or was answered, an open window keeps its row as it is, and what is paid in it is the price
of its row. -/
def PriceLaw (C : StepGuard PriceLog) : Prop :=
  ∀ (w : World) (ops : List PriceOp) (g g' : Run PriceLog) (m : Move Fate),
    (∀ op ∈ ops, op.plays) → Pool.Reach machine recordPrices C (PriceOp.launch w .empty ops) g →
    g.Meets C m → Pool.step machine recordPrices m g = some g' →
    (∀ t c order inspector terms k row, m = .run t c →
      g.threads[t]?.bind Prog.label = some (.call (.upsertCounterOffer order inspector terms)) →
      g.state.counterOffers.get k = some row → row.status.answered ≠ none →
      g'.state.counterOffers.get k = some row) ∧
    (∀ k row row', g.state.counterOffers.get k = some row → row.status = .accepting →
      g'.state.counterOffers.get k = some row' → row'.status = .accepting → row' = row) ∧
    PaidAtPrice g'.snapshot

section Programs

abbrev Prices {α : Type} (A : PriceMemory → Prop) (p : Act α) (B : α → PriceMemory → Prop) : Prop :=
  Recalls machine PriceMemory.note PriceMemory.may A p B

variable {α : Type} {A : PriceMemory → Prop} {id : OrderId} {user : UserId}

/-- A program that opens nothing and names nothing. -/
theorem prices_plain {p : Act α} (hp : p.Only Stmt.priceless) : Prices A p fun _ _ => True := by
  have hfree : Prices (fun _ => True) p fun _ _ => True :=
    Recalls.free (A := fun _ => True) hp fun _ _ => PriceMemory.may_plain
  exact hfree.weaken (fun _ _ => trivial) (fun _ _ h => h) fun _ _ h => h

/-- A program that only reads forgets nothing. -/
theorem prices_reads {p : Act α} (hp : p.Only fun _ => False)
    (hA : ∀ m l w, A m → A (m.note l w)) : Prices A p fun _ => A :=
  Recalls.only hp (fun _ _ _ h => h.elim) hA

theorem prices_fail {status : HttpStatus} {code message : String} {B : α → PriceMemory → Prop} :
    Prices A (fail status code message : Act α) B := .throw fun _ _ => trivial

/-- A row of the inspector that was checked and has no answer. -/
def Checked (id : OrderId) (user : UserId) (m : PriceMemory) : Prop :=
  ∃ w, m.own = some w ∧ ∀ c, w.ownCounterOffer id user = some c → c.2.status.answered = none

theorem Checked.note {m : PriceMemory} (h : Checked id user m) (l : Label Site Stmt) (w : World) :
    Checked id user (m.note l w) := by
  obtain ⟨w', hown, hrow⟩ := h
  exact ⟨w', PriceMemory.own_note hown, hrow⟩

theorem prices_assertInspectorMayOffer {order : Order} : Prices (·.own = none)
    (assertInspectorMayOffer id order user) fun _ => Checked id user := by
  apply Discipline.Flow.ite (fun _ => prices_fail)
  intro _
  apply Discipline.Flow.ite (fun _ => prices_fail)
  intro _
  apply Discipline.Flow.ite (fun _ => prices_fail)
  intro _
  have hprofile : Prices (·.own = none) (fetch .assertInspectorMayOffer (·.inspectors.get user))
      fun _ => (·.own = none) := Recalls.fetch fun _ _ h => h
  have hdeclined : Prices (·.own = none) (fetch .assertInspectorMayOffer fun w =>
      w.offers.any fun _ o => o.orderId = id && o.inspectorId = user && o.status = .declined)
      fun _ => (·.own = none) := Recalls.fetch fun _ _ h => h
  let read (own : Option (CounterOfferId × OrderCounterOffer)) (m : PriceMemory) : Prop :=
    ∃ w, m.own = some w ∧ own = w.ownCounterOffer id user
  have hread (own : Option (CounterOfferId × OrderCounterOffer)) (m : PriceMemory)
      (l : Label Site Stmt) (w : World) (h : read own m) : read own (m.note l w) := by
    obtain ⟨w', hown, hrow⟩ := h
    exact ⟨w', PriceMemory.own_note hown, hrow⟩
  have hown : Prices (·.own = none) (fetch .ownCounterOffer (·.ownCounterOffer id user)) read := by
    apply Recalls.fetch
    intro m w h
    exact ⟨w, by simp [PriceMemory.note, show m.own = none from h], rfl⟩
  apply hprofile.seq
  intro profile
  apply hdeclined.seq
  intro declined
  apply hown.seq
  intro own
  apply Discipline.Flow.seq (prices_reads (only_assertEligible profile user) (hread own))
  intro _
  have hunanswered : Prices (read own) (assertUnanswered own) fun _ => Checked id user := by
    unfold assertUnanswered
    cases hanswered : own.bind fun c => c.2.status.answered with
    | some message => exact prices_fail
    | none =>
      apply Discipline.Flow.pure
      rintro m ⟨w, hw, rfl⟩
      refine ⟨w, hw, fun c hc => ?_⟩
      rw [hc] at hanswered
      exact hanswered
  apply hunanswered.seq
  intro _
  exact .when (fun _ => prices_fail) fun _ _ h => h

theorem prices_create {payoutCents : Cents} : Prices (· = .empty)
    (createCounterOffer id user payoutCents) fun _ _ => True := by
  have horder : Prices (· = .empty) (fetch .createCounterOffer (·.orders.get id))
      fun _ => (·.own = none) := by
    apply Recalls.fetch
    rintro m w rfl
    rfl
  apply horder.seq
  intro found
  cases found with
  | none => exact prices_fail
  | some order =>
    apply prices_assertInspectorMayOffer.seq
    intro _
    apply Discipline.Flow.seq
      (prices_reads (only_distanceInReach id user) fun _ l w h => h.note l w)
    intro distanceKm
    apply Discipline.Flow.seq
      (prices_reads (only_termsOf id order user distanceKm payoutCents) fun _ l w h => h.note l w)
    intro terms
    have hupsert : Prices (Checked id user) (perform (.upsertCounterOffer id user terms))
        fun _ _ => True :=
      Recalls.perform (fun _ h => h) fun _ _ _ _ _ _ => trivial
    have hnamed : Prices (Checked id user) (upsertCounterOffer id user terms) fun _ _ => True := by
      apply Discipline.Flow.seq (Discipline.Flow.attempt hupsert)
      intro r
      cases r with
      | ok counterId => exact .pure fun _ _ => trivial
      | error err => cases err <;> exact .throw fun _ _ => trivial
    apply hnamed.seq
    intro counterId
    refine prices_plain (Only.seq (only_note _ _ _ fun _ => trivial) fun _ => ?_)
    refine Only.seq ((only_promote id).mono fun _ h => h.priceless) fun _ => ?_
    refine Only.seq (only_fetch _ _) fun current => ?_
    exact Only.seq (only_queuePositionOf counterId) fun _ => only_pure _

/-- The price to accept that was read. -/
def Read (k : CounterOfferId) (counter : OrderCounterOffer) (m : PriceMemory) : Prop :=
  ∃ w, m.accepted = some w ∧ w.counterOffers.get k = some counter

theorem Read.note {k : CounterOfferId} {counter : OrderCounterOffer} {m : PriceMemory}
    (h : Read k counter m) (l : Label Site Stmt) (w : World) : Read k counter (m.note l w) := by
  obtain ⟨w', haccepted, hrow⟩ := h
  exact ⟨w', PriceMemory.accepted_note haccepted, hrow⟩

theorem prices_requireCounterOffer {k : CounterOfferId} :
    Prices (fun m => m.accepted = none ∧ m.locking = none)
      (requireCounterOffer .acceptCounterOffer id k)
      fun counter m => m.locking = none ∧ Read k counter m := by
  let read (found : Option OrderCounterOffer) (m : PriceMemory) : Prop :=
    m.locking = none ∧ ∀ counter, found = some counter → Read k counter m
  have hfetch : Prices (fun m => m.accepted = none ∧ m.locking = none)
      (fetch .acceptCounterOffer (·.counterOffers.get k)) read := by
    apply Recalls.fetch
    rintro m w ⟨haccepted, hlocking⟩
    refine ⟨hlocking, fun counter hcounter => ⟨w, ?_, hcounter⟩⟩
    simp [PriceMemory.note, haccepted]
  apply hfetch.seq
  intro found
  split
  · exact prices_fail
  next counter hcounter =>
    apply Discipline.Flow.pure
    rintro m ⟨hlocking, hread⟩
    exact ⟨hlocking, hread counter (Option.filter_eq_some_iff.mp hcounter).1⟩

theorem prices_openSession {k : CounterOfferId} {counter : OrderCounterOffer} :
    Prices (fun m => m.locking = some k ∧ Read k counter m) (openSession id counter user)
      fun _ _ => True := by
  have hcreate : Prices (fun m => m.locking = some k ∧ Read k counter m)
      (perform (.createPayment id .orderCounterOffer counter.priceCents)) fun _ _ => True := by
    apply Recalls.perform
    · rintro m ⟨hlocking, w, haccepted, hrow⟩
      exact ⟨w, k, counter, haccepted, hlocking, hrow, rfl⟩
    · exact fun _ _ _ _ _ _ => trivial
  apply hcreate.seq
  intro payment
  refine prices_plain (Only.seq (only_writeEvent _ _ _ _ _ _ fun _ => trivial) fun _ => ?_)
  refine Only.seq only_stripeConfigured fun _ => Only.ite (fun _ => ?_) fun _ => ?_
  · refine Only.seq ((only_perform _).mpr trivial) fun intent => ?_
    exact Only.seq (only_issue trivial) fun _ => only_pure _
  · exact Only.seq priceless_finalize fun _ => only_pure _

theorem prices_accept {k : CounterOfferId} : Prices (· = .empty) (accept id k user)
    fun _ _ => True := by
  have horder : Prices (· = .empty) (requireCustomerOrder id user)
      fun _ m => m.accepted = none ∧ m.locking = none := by
    have hfetch : Prices (· = .empty) (fetch .requireCustomerOrder (·.orders.get id))
        fun _ m => m.accepted = none ∧ m.locking = none := by
      apply Recalls.fetch
      rintro m w rfl
      exact ⟨rfl, rfl⟩
    apply hfetch.seq
    intro found
    split
    · exact prices_fail
    · exact .ite (fun _ => prices_fail) fun _ => .pure fun _ h => h
  apply horder.seq
  intro order
  apply prices_requireCounterOffer.seq
  intro counter
  let A (m : PriceMemory) : Prop := m.locking = none ∧ Read k counter m
  have hlook {ρ : Type} {l : Site} {f : World → ρ} : Prices A (fetch l f) fun _ => A := by
    apply Recalls.fetch
    rintro m w ⟨hlocking, hread⟩
    refine ⟨?_, hread.note _ w⟩
    cases l <;> exact hlocking
  apply Discipline.Flow.ite (fun _ => prices_fail)
  intro _
  apply hlook.seq
  intro busy
  apply Discipline.Flow.ite
  · intro _
    exact prices_plain (only_refuseBusy id k trivial fun _ h => h.priceless)
  · intro _
    apply hlook.seq
    intro settings
    apply Discipline.Flow.seq (hlook : Prices A readClock fun _ => A)
    intro now
    have hstart : Prices A (perform (.counterOffer
        (.startPayment k (now + minutes settings.counterOfferPaymentMinutes))))
        fun _ m => m.locking = some k ∧ Read k counter m := by
      apply Recalls.perform
      · rintro m ⟨hlocking, w, haccepted, hrow⟩
        exact ⟨hlocking, w, counter, haccepted, hrow⟩
      · rintro m c w r ⟨hlocking, hread⟩ _
        exact ⟨by simp [PriceMemory.note, hlocking], hread.note _ w⟩
    apply hstart.seq
    intro claimed
    apply Discipline.Flow.ite
    · intro _
      exact prices_plain (only_joinSession id k counter)
    · intro _
      exact prices_openSession

theorem prices_op (op : PriceOp) (hop : op.plays) :
    Prices (· = .empty) op.prog fun _ _ => True := by
  cases op with
  | create order user payoutCents => exact prices_create.seq fun _ => .pure fun _ _ => trivial
  | trade op =>
    cases op with
    | accept order counter user => exact prices_accept.seq fun _ => .pure fun _ _ => trivial
    | decline order counter user =>
      exact prices_plain (only_decline order counter user trivial fun _ h => h.priceless)
    | withdraw counter user =>
      exact prices_plain (only_withdraw counter user trivial fun _ _ h => h.priceless)
    | sweepExpired =>
      refine prices_plain (Only.seq ?_ fun _ => only_pure _)
      exact only_sweepExpired (fun _ _ h => h.priceless) fun _ _ => trivial
    | dispatch order => cases hop
    | orders op =>
      cases op with
      | acceptOffer offer user => exact prices_plain (priceless_acceptOffer offer user)
      | adminAssign order inspector admin =>
        exact prices_plain (priceless_adminAssign inspector admin)
      | finalizeCounterOfferPayment payment order => exact prices_plain priceless_finalize
      | abandonCounterOfferPayment order canceled => exact prices_plain (priceless_abandon canceled)
      | _ => cases hop

theorem records_prices : Records recordPrices PriceMemory.note PriceLog.memory :=
  fun _ _ _ _ _ => rfl

/-- In every run, a thread issues what it may after what it remembers. -/
theorem may_reach {C : StepGuard PriceLog} {w : World} {ops : List PriceOp} {g : Run PriceLog}
    {t : Nat} {p : Act Unit} {s : Stmt} (hops : ∀ op ∈ ops, op.plays)
    (hg : Pool.Reach machine recordPrices C (PriceOp.launch w .empty ops) g)
    (hp : g.threads[t]? = some p) (hs : p.label = some (.call s)) : (g.hist.memory t).may s := by
  have hthreads (u : Nat) (q : Act Unit)
      (hq : (PriceOp.launch w PriceLog.empty ops).threads[u]? = some q) :
      Prices (· = PriceLog.empty.memory u) q fun _ _ => True := by
    simp only [PriceOp.launch, List.getElem?_map] at hq
    obtain ⟨op, hop, rfl⟩ := Option.map_eq_some_iff.mp hq
    exact prices_op op (hops op (List.mem_of_getElem? hop))
  exact recalled records_prices hthreads hg hp hs .ok

end Programs

section Steps

variable {w : World} {x : World × PriceLog} {s : Stmt} {c : Fate} {t : Nat} {k : CounterOfferId}

/-- A row that is being paid for after a step was so before it, or the step began its payment. -/
theorem accepting_exec {row : OrderCounterOffer}
    (h : (World.exec s c w).2.counterOffers.get k = some row) (hs : row.status = .accepting) :
    w.counterOffers.get k = some row ∨ c ≠ .down ∧ ∃ acceptingUntil before,
      s = .counterOffer (.startPayment k acceptingUntil) ∧ w.counterOffers.get k = some before ∧
      before.status = .pending ∧ before.priceCents = row.priceCents := by
  by_cases hdown : c = .down
  · left
    subst hdown
    rcases World.exec_cases s .down w with ⟨call, rfl, he⟩ | ⟨_, _, he⟩ | ⟨_, hne, _⟩
    · rw [he] at h
      exact h
    · rw [he] at h
      exact h
    · exact absurd rfl hne
  rcases World.exec_counterOffer h with ⟨_, _, _, _, _, hpending⟩ | ⟨before, hbefore, heff⟩
  · rw [hs] at hpending
    cases hpending
  rcases heff with rfl | ⟨u, rfl, hr⟩ | ⟨haccepted, _⟩
  · exact .inl hbefore
  · right
    obtain ⟨acceptingUntil, rfl⟩ := CounterOfferStmt.rewrite_accepting hr hs
    refine ⟨hdown, acceptingUntil, before, rfl, hbefore, ?_⟩
    simp only [CounterOfferStmt.rewrite] at hr
    split at hr
    next hwhere =>
      cases hr
      exact ⟨hwhere.2.1, rfl⟩
    next => cases hr
  · rw [hs] at haccepted
    cases haccepted

/-- The naming of a price leaves an answered row alone, where the one it would write is not. -/
theorem answered_upsert {order : OrderId} {inspector : UserId} {terms : CounterOfferTerms}
    {row : OrderCounterOffer}
    (hopen : ∀ own, w.ownCounterOffer order inspector = some own → own.2.status.answered = none)
    (hrow : w.counterOffers.get k = some row) (hanswered : row.status.answered ≠ none) :
    (w.upsertCounterOffer order inspector terms).2.counterOffers.get k = some row := by
  unfold World.upsertCounterOffer
  cases hown : w.ownCounterOffer order inspector with
  | some own =>
    obtain ⟨k', before⟩ := own
    have hbefore := (World.ownCounterOffer_some hown).1
    have hne : k ≠ k' := by
      rintro rfl
      cases hrow.symm.trans hbefore
      exact hanswered (hopen _ hown)
    simp only [Table.get_set, if_neg hne]
    exact hrow
  | none =>
    have hne : k ≠ w.counterOffers.fresh := by
      rintro rfl
      rw [Table.get_fresh] at hrow
      cases hrow
    simp only [Table.get_set, if_neg hne]
    exact hrow

/-- What the threads remember of the prices that are being paid. -/
structure PricesKept (x : World × PriceLog) : Prop where
  opened : ∀ k row t, x.1.counterOffers.get k = some row → row.status = .accepting →
    x.2.opener k = some t → (x.2.memory t).locking = some k ∧
      ∃ counter, Read k counter (x.2.memory t) ∧ counter.priceCents = row.priceCents
  paid : ∀ t amountCents, x.2.amount t = some amountCents → ∃ k counter,
    (x.2.memory t).locking = some k ∧ Read k counter (x.2.memory t) ∧
      amountCents = counter.priceCents

theorem PricesKept.paidAtPrice (h : PricesKept x) : PaidAtPrice x := by
  intro k row t amountCents hrow hs hopener hamount
  obtain ⟨hlocking, counter, ⟨v, hv, hcounter⟩, hprice⟩ := h.opened k row t hrow hs hopener
  obtain ⟨k', counter', hlocking', ⟨v', hv', hcounter'⟩, rfl⟩ := h.paid t amountCents hamount
  cases hlocking.symm.trans hlocking'
  cases hv.symm.trans hv'
  cases hcounter.symm.trans hcounter'
  exact hprice

/-- What a thread remembers, it remembers after any step. -/
theorem recall_kept {l : Label Site Stmt} {w w' : World} {h : PriceLog} {P : PriceMemory → Prop}
    (hP : ∀ m, P m → P (m.note l w)) (u : Nat) (hu : P (h.memory u)) :
    P ((recordPrices t l w w' h).memory u) := by
  show P (Function.update h.memory t ((h.memory t).note l w) u)
  by_cases hut : u = t
  · subst hut
    rw [Function.update_self]
    exact hP _ hu
  · rw [Function.update_of_ne hut]
    exact hu

theorem opened_kept {l : Label Site Stmt} {w : World} (w' : World) {h : PriceLog}
    {row : OrderCounterOffer} (u : Nat)
    (hu : (h.memory u).locking = some k ∧ ∃ counter, Read k counter (h.memory u) ∧
      counter.priceCents = row.priceCents) :
    ((recordPrices t l w w' h).memory u).locking = some k ∧ ∃ counter,
      Read k counter ((recordPrices t l w w' h).memory u) ∧
        counter.priceCents = row.priceCents := by
  refine recall_kept (P := fun m => m.locking = some k ∧ ∃ counter, Read k counter m ∧
    counter.priceCents = row.priceCents) (fun m hm => ?_) u hu
  obtain ⟨hlocking, counter, hread, hprice⟩ := hm
  exact ⟨PriceMemory.locking_note hlocking, counter, hread.note l w, hprice⟩

theorem paid_kept {l : Label Site Stmt} {w : World} (w' : World) {h : PriceLog}
    {amountCents : Cents} (u : Nat)
    (hu : ∃ k counter, (h.memory u).locking = some k ∧ Read k counter (h.memory u) ∧
      amountCents = counter.priceCents) :
    ∃ k counter, ((recordPrices t l w w' h).memory u).locking = some k ∧
      Read k counter ((recordPrices t l w w' h).memory u) ∧ amountCents = counter.priceCents := by
  refine recall_kept (P := fun m => ∃ k counter, m.locking = some k ∧ Read k counter m ∧
    amountCents = counter.priceCents) (fun m hm => ?_) u hu
  obtain ⟨k, counter, hlocking, hread, hprice⟩ := hm
  exact ⟨k, counter, PriceMemory.locking_note hlocking, hread.note l w, hprice⟩

/-- The opener of a window is the one of the window that is open. -/
theorem opener_same {l : Label Site Stmt} {w' : World} {h : PriceLog} (hwas : w.accepting k) :
    (recordPrices t l w w' h).opener k = h.opener k := by
  cases l with
  | ask site => rfl
  | call s =>
    cases s with
    | counterOffer u =>
      cases u with
      | startPayment k' acceptingUntil =>
        simp only [recordPrices]
        split
        next hnew =>
          have hne : k ≠ k' := by
            rintro rfl
            simp [hwas] at hnew
          exact Function.update_of_ne hne _ _
        next => rfl
      | _ => rfl
    | _ => rfl

theorem opener_new (t : Nat) (h : PriceLog) (acceptingUntil : Time) {w' : World}
    (hwas : w.accepting k = false) (his : w'.accepting k) :
    (recordPrices t (.call (.counterOffer (.startPayment k acceptingUntil))) w w' h).opener k =
      some t := by
  simp only [recordPrices, hwas, his]
  exact Function.update_self _ _ _

theorem PricesKept.ask (h : PricesKept x) (site : Site) :
    PricesKept (x.1, recordPrices t (.ask site) x.1 x.1 x.2) := by
  constructor
  · intro k row u hrow hs hopener
    exact opened_kept x.1 u (h.opened k row u hrow hs hopener)
  · intro u amountCents hamount
    exact paid_kept x.1 u (h.paid u amountCents hamount)

theorem PricesKept.call (h : PricesKept x) (hmay : (x.2.memory t).may s)
    (hC : pricesInTime t (.call s) c x) :
    PricesKept ((World.exec s c x.1).2,
      recordPrices t (.call s) x.1 (World.exec s c x.1).2 x.2) := by
  constructor
  · intro k row u hrow hs hopener
    rcases accepting_exec hrow hs with
      hbefore | ⟨hup, acceptingUntil, before, rfl, hbefore, hpending, hprice⟩
    · apply opened_kept _ u
      apply h.opened k row u hbefore hs
      have hwas : x.1.accepting k := by simp [World.accepting, hbefore, hs]
      exact (opener_same hwas).symm.trans hopener
    · have hrow : (World.exec (.counterOffer (.startPayment k acceptingUntil)) c
          x.1).2.counterOffers.get k = some row := hrow
      have hself := (opener_new t x.2 acceptingUntil
        (by simp [World.accepting, hbefore, hpending])
        (by simp [World.accepting, hrow, hs])).symm.trans hopener
      cases hself
      obtain ⟨hlocking, v, counter, haccepted, hcounter⟩ := hmay
      have hmemory : (recordPrices t (.call (.counterOffer (.startPayment k acceptingUntil))) x.1
          (World.exec (.counterOffer (.startPayment k acceptingUntil)) c x.1).2 x.2).memory t =
          (x.2.memory t).note (.call (.counterOffer (.startPayment k acceptingUntil))) x.1 :=
        Function.update_self _ _ _
      rw [hmemory]
      refine ⟨by simp [PriceMemory.note, hlocking], counter, ⟨v, haccepted, hcounter⟩, ?_⟩
      have hsame : some counter.priceCents = some before.priceCents := by
        simpa [pricesInTime, hup, haccepted, hcounter, hbefore] using hC
      rw [Option.some.inj hsame, hprice]
  · intro u amountCents hamount
    apply paid_kept _ u
    cases s with
    | createPayment order purpose amountCents' =>
      have hamount : Function.update x.2.amount t (some amountCents') u = some amountCents :=
        hamount
      by_cases hu : u = t
      · subst hu
        rw [Function.update_self] at hamount
        cases hamount
        obtain ⟨v, k, counter, haccepted, hlocking, hcounter, hprice⟩ := hmay
        exact ⟨k, counter, hlocking, ⟨v, haccepted, hcounter⟩, hprice⟩
      · rw [Function.update_of_ne hu] at hamount
        exact h.paid u amountCents hamount
    | _ => exact h.paid u amountCents hamount

end Steps

section Runs

variable {w : World} {ops : List PriceOp} {g g' : Run PriceLog} {m : Move Fate}

/-- One move of a run in time keeps what is remembered of the prices. -/
theorem pricesKept_step (hops : ∀ op ∈ ops, op.plays)
    (hg : Pool.Reach machine recordPrices pricesInTime (PriceOp.launch w .empty ops) g)
    (hkept : PricesKept g.snapshot) (hm : g.Meets pricesInTime m)
    (hs : Pool.step machine recordPrices m g = some g') : PricesKept g'.snapshot := by
  cases m with
  | env c =>
    cases Option.some.inj hs
    obtain ⟨now, he⟩ := World.tick_eq c g.state
    show PricesKept (World.tick c g.state, g.hist)
    rw [he]
    exact ⟨hkept.opened, hkept.paid⟩
  | run t c =>
    obtain ⟨p, l, w', p', hp, hst, rfl⟩ := Pool.step_run_eq hs
    have hlabel := Pool.label_of_step hst
    cases p with
    | ret a => cases hst
    | raise e => cases hst
    | ask l f k =>
      cases hst
      exact hkept.ask l
    | call s k =>
      cases hst
      exact hkept.call (may_reach hops hg hp hlabel) (Pool.meets_run hm hp hlabel)

theorem pricesKept_reach (hops : ∀ op ∈ ops, op.plays)
    (hg : Pool.Reach machine recordPrices pricesInTime (PriceOp.launch w .empty ops) g) :
    PricesKept g.snapshot := by
  induction hg with
  | start =>
    constructor
    · intro k row t hrow hs hopener
      cases hopener
    · intro t amountCents hamount
      cases hamount
  | next before hm hs ih => exact pricesKept_step hops before ih hm hs

/-- The naming of a price, in time, leaves an answered row alone. -/
theorem answered_step (hops : ∀ op ∈ ops, op.plays)
    (hg : Pool.Reach machine recordPrices pricesInTime (PriceOp.launch w .empty ops) g)
    {t : Nat} {c : Fate} {order : OrderId} {inspector : UserId} {terms : CounterOfferTerms}
    {k : CounterOfferId} {row : OrderCounterOffer} (hm : g.Meets pricesInTime (.run t c))
    (hs : Pool.step machine recordPrices (.run t c) g = some g')
    (hlabel : g.threads[t]?.bind Prog.label =
      some (.call (.upsertCounterOffer order inspector terms)))
    (hrow : g.state.counterOffers.get k = some row) (hanswered : row.status.answered ≠ none) :
    g'.state.counterOffers.get k = some row := by
  obtain ⟨p, l, w', p', hp, hst, rfl⟩ := Pool.step_run_eq hs
  rw [hp] at hlabel
  have hlabel : p.label = some (.call (.upsertCounterOffer order inspector terms)) := hlabel
  obtain ⟨v, hown, hopen⟩ := may_reach hops hg hp hlabel
  have hC := Pool.meets_run hm hp hlabel
  cases p with
  | ret a => cases hst
  | raise e => cases hst
  | ask l f k => cases hlabel
  | call s q =>
    cases hlabel
    cases hst
    show (World.exec (.upsertCounterOffer order inspector terms) c
      g.state).2.counterOffers.get k = some row
    rcases World.exec_cases (.upsertCounterOffer order inspector terms) c g.state with
      ⟨call, hcall, _⟩ | ⟨_, _, he⟩ | ⟨_, hup, he⟩
    · cases hcall
    · rw [he]
      exact hrow
    · rw [he]
      apply answered_upsert ?_ hrow hanswered
      intro own hcurrent
      have hsame : (v.ownCounterOffer order inspector).map (·.2.status) = some own.2.status := by
        simpa [pricesInTime, hup, hown, hcurrent] using hC
      obtain ⟨before, hbefore, hstatus⟩ := Option.map_eq_some_iff.mp hsame
      rw [← hstatus]
      exact hopen before hbefore

/-- An open window keeps its row. -/
theorem window_step {rec : Recorder Site Stmt World PriceLog} {k : CounterOfferId}
    {row row' : OrderCounterOffer} (hs : Pool.step machine rec m g = some g')
    (hrow : g.state.counterOffers.get k = some row) (hbefore : row.status = .accepting)
    (hrow' : g'.state.counterOffers.get k = some row') (hafter : row'.status = .accepting) :
    row' = row := by
  have hsame (h : g.state.counterOffers.get k = some row') : row' = row :=
    (Option.some.inj (hrow.symm.trans h)).symm
  cases m with
  | env c =>
    cases Option.some.inj hs
    obtain ⟨now, he⟩ := World.tick_eq c g.state
    have hrow' : (World.tick c g.state).counterOffers.get k = some row' := hrow'
    rw [he] at hrow'
    exact hsame hrow'
  | run t c =>
    obtain ⟨p, l, w', p', hp, hst, rfl⟩ := Pool.step_run_eq hs
    cases p with
    | ret a => cases hst
    | raise e => cases hst
    | ask l f q =>
      cases hst
      exact hsame hrow'
    | call s q =>
      cases hst
      rcases accepting_exec hrow' hafter with h | ⟨_, _, before, _, h, hpending, _⟩
      · exact hsame h
      · cases hrow.symm.trans h
        rw [hbefore] at hpending
        cases hpending

/-- While a price is named on what its check found, and paid at what its customer read, the naming
of a price leaves a row alone that is being paid for or was answered, and what is paid in a window
is the price of its row. -/
theorem price_overwrite (w : World) (ops : List PriceOp) (g g' : Run PriceLog) (m : Move Fate)
    (hops : ∀ op ∈ ops, op.plays)
    (hg : Pool.Reach machine recordPrices pricesInTime (PriceOp.launch w .empty ops) g)
    (hm : g.Meets pricesInTime m) (hs : Pool.step machine recordPrices m g = some g') :
    (∀ t c order inspector terms k row, m = .run t c →
      g.threads[t]?.bind Prog.label = some (.call (.upsertCounterOffer order inspector terms)) →
      g.state.counterOffers.get k = some row → row.status.answered ≠ none →
      g'.state.counterOffers.get k = some row) ∧
    (∀ k row row', g.state.counterOffers.get k = some row → row.status = .accepting →
      g'.state.counterOffers.get k = some row' → row'.status = .accepting → row' = row) ∧
    PaidAtPrice g'.snapshot := by
  refine ⟨?_, ?_, ?_⟩
  · intro t c order inspector terms k row hmove hlabel hrow hanswered
    subst hmove
    exact answered_step hops hg hm hs hlabel hrow hanswered
  · intro k row row' hrow hbefore hrow' hafter
    exact window_step hs hrow hbefore hrow' hafter
  · exact (pricesKept_step hops hg (pricesKept_reach hops hg) hm hs).paidAtPrice

end Runs

section Renamed

/-- An order that waits for an expert. -/
def waitingOrder : Order where
  customerId := 7
  inspectorId := none
  status := unassigned
  totalCents := 10000
  platformFeeCents := 1667
  inspectorShareCents := 8333
  searchExpiresAt := none
  inspectionDeadlineAt := none
  ownerContactConfirmedAt := none
  submittedAt := none
  autoApproveAt := none
  dispatchRound := 1

/-- A price on the customer's screen. -/
def presentedPrice : OrderCounterOffer where
  orderId := 1
  inspectorId := 8
  status := .pending
  priceCents := 12000
  platformFeeCents := 2000
  inspectorShareCents := 10000
  presentedAt := some 0
  expiresAt := 1000
  acceptingUntil := none
  respondedAt := none
  createdAt := 0

def pricedWorld : World := { World.empty with
  orders := Table.empty.set 1 waitingOrder
  counterOffers := Table.empty.set 5 presentedPrice
  inspectors := Table.empty.set 8 ⟨true, true, true, none, 0, none, none, true, 300⟩
  distanceKmOf := fun _ _ _ => some 10
  fairPriceOf := fun _ _ _ _ => ⟨20000, 3333, 16667⟩ }

/-- The inspector names another price while the customer accepts the one presented. -/
def renameAndAccept : List PriceOp := [.create 1 8 12000, .trade (.accept 1 5 7)]

/-- What the first thread is about to write, and the status and price of the row. -/
structure Renaming where
  writes : Option (OrderId × UserId × CounterOfferTerms)
  row : Option (CounterOfferStatus × Cents)
  deriving DecidableEq

def renamed (g : Run PriceLog) : Renaming where
  writes :=
    match (g.threads[0]?.bind Prog.label : Option (Label Site Stmt)) with
    | some (.call (.upsertCounterOffer order inspector terms)) => some (order, inspector, terms)
    | _ => none
  row := (g.state.counterOffers.get 5).map fun c => (c.status, c.priceCents)

/-- The price was checked before the customer accepted it, and is written over while they pay. -/
theorem paid_price_overwritten : ¬ PriceLaw anyStep := by
  intro hlaw
  have hrun : Pool.observe machine recordPrices anyStep renamed (goes 0 12 ++ goes 1 6) (.run 0 .ok)
      (PriceOp.launch pricedWorld .empty renameAndAccept) =
      some (⟨some (1, 8, ⟨14400, 2400, 12000, 1200000⟩), some (.accepting, 12000)⟩,
        ⟨none, some (.pending, 14400)⟩) := by decide +kernel
  obtain ⟨g, g', hg, hm, hs, hbefore, hafter⟩ := Pool.observe_eq hrun
  obtain ⟨hwrites, hrow⟩ := Renaming.mk.inj hbefore
  obtain ⟨row, hrow, hstatus⟩ := Option.map_eq_some_iff.mp hrow
  have hlabel : g.threads[0]?.bind Prog.label =
      some (.call (.upsertCounterOffer 1 8 ⟨14400, 2400, 12000, 1200000⟩)) := by
    revert hwrites
    cases g.threads[0]?.bind Prog.label with
    | none => intro h; cases h
    | some l =>
      cases l with
      | ask site => intro h; cases h
      | call s =>
        cases s with
        | upsertCounterOffer order inspector terms =>
          intro h
          cases h
          rfl
        | _ => intro h; cases h
  have hanswered : row.status.answered ≠ none := by
    rw [(Prod.mk.inj hstatus).1]
    decide
  have hkept := (hlaw _ _ g g' _ (by decide) hg hm hs).1 0 .ok 1 8 _ 5 row rfl hlabel hrow hanswered
  have hchanged := (Renaming.mk.inj hafter).2
  rw [hkept, Option.map_some, hstatus] at hchanged
  cases hchanged

/-- Who opened the window, what they opened to pay, and the price of the row. -/
def paying (g : Run PriceLog) : Option Nat × Option Cents × Option Cents :=
  (g.hist.opener 5, g.hist.amount 1, (g.state.counterOffers.get 5).map (·.priceCents))

/-- A customer who accepts the price pays it. -/
theorem price_overwrite_accepted : ∃ g : Run PriceLog,
    paying g = (some 1, some 12000, some 12000) ∧ PaidAtPrice g.snapshot := by
  have hrun : Pool.observe machine recordPrices pricesInTime paying (goes 1 6) (.run 1 .ok)
      (PriceOp.launch pricedWorld .empty renameAndAccept) =
      some ((some 1, none, some 12000), (some 1, some 12000, some 12000)) := by decide +kernel
  obtain ⟨g, g', hg, hm, hs, -, hafter⟩ := Pool.observe_eq hrun
  exact ⟨g', hafter, (price_overwrite _ _ g g' _ (by decide) hg hm hs).2.2⟩

end Renamed

end CarSalePro
