import CarSalePro.Interleave.Stepwise
import CarSalePro.Laws.LiveOffers
import CarSalePro.Orders.OfferDiscipline
import CarSalePro.Orders.Sequence

namespace CarSalePro

open Store Interleave Prog OrderStatus

/-- The calls that send offers out, and those that answer or end them. -/
def SearchCall.asks : SearchCall → Bool
  | dispatch _ | declineOffer _ _ | expireStaleOffers | redispatchUnfilledOrders _ => true
  | acceptOffer _ _ | expireUnfilledSearches _ => false

/-- The calls one after another, each running to its end before the next begins. -/
def SearchCall.sequence (w : World) (calls : List SearchCall) : Run Unit :=
  ⟨w, (), [Prog.series (calls.map SearchCall.prog)]⟩

/-- Of every order and inspector at most one offer is of the same round. -/
def World.OneARound (w : World) : Prop :=
  ∀ k k' r r', w.offers.get k = some r → w.offers.get k' = some r' → r.orderId = r'.orderId →
    r.inspectorId = r'.inspectorId → r.round = r'.round → k = k'

/-- The offer goes to somebody who may be asked: not the customer, and nobody who was asked before
unless that offer expired in another round. -/
def World.MayAsk (w : World) (made : OrderOffer) : Prop :=
  (∃ order, w.orders.get made.orderId = some order ∧ made.inspectorId ≠ order.customerId) ∧
  ∀ k r, w.offers.get k = some r → r.orderId = made.orderId → r.inspectorId = made.inspectorId →
    r.status = .expired ∧ r.round ≠ made.round

/-- No refusal is lost. -/
def Refused (w w' : World) : Prop :=
  ∀ k r, w.offers.get k = some r → r.status = .declined → w'.offers.get k = some r

/-- What a step may do to the offers: no refusal is lost, an offer it makes goes to somebody who may
be asked, and no inspector has two of a round. -/
structure Heeds (w w' : World) : Prop where
  refused : Refused w w'
  asked : ∀ k r, w.offers.get k = none → w'.offers.get k = some r → w.MayAsk r
  once : w.OneARound → w'.OneARound

/-- What a step from `now` to `next` makes no offer to, when `past` came before it: the customer, an
inspector who declined by then, one who holds an offer, and one asked in the same round. -/
structure NeverReasks (past now next : World) : Prop where
  customer : ∀ k r, now.offers.get k = none → next.offers.get k = some r →
    ∃ order, now.orders.get r.orderId = some order ∧ r.inspectorId ≠ order.customerId
  declined : ∀ k r, now.offers.get k = none → next.offers.get k = some r →
    ∀ j q, past.offers.get j = some q → q.orderId = r.orderId → q.status = .declined →
      q.inspectorId ≠ r.inspectorId
  held : ∀ k r, now.offers.get k = none → next.offers.get k = some r →
    ∀ j q, now.offers.get j = some q → q.orderId = r.orderId →
      q.status = .pending ∨ q.status = .accepted → q.inspectorId ≠ r.inspectorId
  rounds : next.OneARound

theorem Refused.refl (w : World) : Refused w w := fun _ _ h _ => h

theorem Refused.trans {u v w : World} (h : Refused u v) (h' : Refused v w) : Refused u w :=
  fun k r hr hs => h' k r (h k r hr hs) hs

theorem Heeds.refl (w : World) : Heeds w w := by
  refine ⟨.refl w, fun k r hnone hr => ?_, fun h => h⟩
  rw [hnone] at hr
  cases hr

/-- The offers are in order, and none of these is a refusal. -/
structure Undeclined (ks : List OfferId) (w : World) : Prop where
  fresh : w.offersFresh
  once : w.OneARound
  among : ∀ k ∈ ks, ∀ r, w.offers.get k = some r → r.status ≠ .declined

theorem undeclined_still {ks : List OfferId} {w : World} :
    Undeclined ks w.still ↔ Undeclined ks w :=
  ⟨fun h => ⟨h.fresh, h.once, h.among⟩, fun h => ⟨h.fresh, h.once, h.among⟩⟩

theorem Undeclined.mono {ks js : List OfferId} {w : World} (h : Undeclined ks w) (hsub : js ⊆ ks) :
    Undeclined js w :=
  ⟨h.fresh, h.once, fun k hk => h.among k (hsub hk)⟩

/-- From `P` to `Q` or `X`, and every step heeds the answers given so far. -/
abbrev Asks {α : Type} (P : World → Prop) (p : Act α) (Q : α → World → Prop)
    (X : Err → World → Prop) : Prop :=
  Stepwise machine World.still (fun _ _ _ => True) Heeds P p Q X

section Steps

variable {w : World} {s : Stmt} {c : Fate} {ks : List OfferId} {k j : OfferId}
  {r made : OrderOffer} {status : OfferStatus}

/-- Statements that leave the offers alone. -/
theorem undeclined_exec (hs : s.touchesOffers = false) (h : Undeclined ks w) :
    Heeds w (World.exec s c w).2 ∧ Undeclined ks (World.exec s c w).2 := by
  have hoffers := (World.frame_exec s c w).offers hs
  have honce (h : w.OneARound) : (World.exec s c w).2.OneARound := by
    intro k k' r r' hr hr'
    rw [hoffers] at hr hr'
    exact h k k' r r' hr hr'
  constructor
  · refine ⟨fun k r hr _ => ?_, fun k r hnone hr => ?_, honce⟩
    · rwa [hoffers]
    · rw [hoffers, hnone] at hr
      cases hr
  · constructor
    · exact World.offersFresh_exec h.fresh
    · exact honce h.once
    · intro k hk r hr
      rw [hoffers] at hr
      exact h.among k hk r hr

/-- An offer after a change of status. -/
theorem updated_row (hr : (World.exec (.offer (.update k status)) c w).2.offers.get j = some r) :
    w.offers.get j = some r ∨
      ∃ r₀, j = k ∧ w.offers.get j = some r₀ ∧ r = { r₀ with status := status } := by
  have heff := World.exec_offer (.offer (.update k status)) c w j
  rw [hr] at heff
  generalize hbefore : w.offers.get j = before at heff
  cases heff with
  | same => exact .inl rfl
  | update r₀ status' stmt =>
    cases stmt
    exact .inr ⟨r₀, rfl, rfl, rfl⟩
  | create _ offer stmt => cases stmt
  | updateMany r₀ filter status' stmt => cases stmt
  | sale r₀ order counter price at_ stmt => cases stmt

/-- An offer that was not declined gets its answer. -/
theorem undeclined_update (status : OfferStatus) (h : Undeclined ks w)
    (hrow : ∀ r, w.offers.get k = some r → r.status ≠ .declined)
    (hstatus : ∀ j ∈ ks, status ≠ .declined) :
    Heeds w (World.exec (.offer (.update k status)) c w).2 ∧
      Undeclined ks (World.exec (.offer (.update k status)) c w).2 := by
  have hback {j : OfferId} {r : OrderOffer}
      (hr : (World.exec (.offer (.update k status)) c w).2.offers.get j = some r) :
      ∃ r₀, w.offers.get j = some r₀ ∧ r₀.orderId = r.orderId ∧ r₀.inspectorId = r.inspectorId ∧
        r₀.round = r.round := by
    rcases updated_row hr with hsame | ⟨r₀, -, hget, rfl⟩
    · exact ⟨r, hsame, rfl, rfl, rfl⟩
    · exact ⟨r₀, hget, rfl, rfl, rfl⟩
  have honce (h : w.OneARound) : (World.exec (.offer (.update k status)) c w).2.OneARound := by
    intro j j' r r' hr hr' horder hinspector hround
    obtain ⟨q, hq, ho, hi, hn⟩ := hback hr
    obtain ⟨q', hq', ho', hi', hn'⟩ := hback hr'
    exact h j j' q q' hq hq' (ho.trans (horder.trans ho'.symm))
      (hi.trans (hinspector.trans hi'.symm)) (hn.trans (hround.trans hn'.symm))
  constructor
  · refine ⟨?_, ?_, honce⟩
    · intro j r hr hdeclined
      have heff := World.exec_offer (.offer (.update k status)) c w j
      rw [hr] at heff
      generalize (World.exec (.offer (.update k status)) c w).2.offers.get j = after at heff ⊢
      cases heff with
      | same => rfl
      | update r₀ status' stmt =>
        cases stmt
        exact absurd hdeclined (hrow r hr)
      | create _ offer stmt => cases stmt
      | updateMany r₀ filter status' stmt => cases stmt
      | sale r₀ order counter price at_ stmt => cases stmt
    · intro j r hnone hr
      obtain ⟨r₀, hget, -⟩ := hback hr
      rw [hnone] at hget
      cases hget
  · constructor
    · exact World.offersFresh_exec h.fresh
    · exact honce h.once
    · intro j hj r hr
      rcases updated_row hr with hsame | ⟨r₀, -, -, rfl⟩
      · exact h.among j hj r hsame
      · exact hstatus j hj

/-- An offer after one is made is that one, in the first free place, or it was there. -/
theorem created_row (hr : (World.exec (.offer (.create made)) c w).2.offers.get j = some r) :
    w.offers.get j = some r ∨ j = w.nextOffer ∧ r = made := by
  have heff := World.exec_offer (.offer (.create made)) c w j
  rw [hr] at heff
  generalize hbefore : w.offers.get j = before at heff
  cases heff with
  | same => exact .inl rfl
  | create _ offer stmt fresh =>
    cases stmt
    exact .inr ⟨fresh, rfl⟩
  | update r₀ status' stmt => cases stmt
  | updateMany r₀ filter status' stmt => cases stmt
  | sale r₀ order counter price at_ stmt => cases stmt

/-- An offer is made to somebody who may be asked. -/
theorem undeclined_create (h : Undeclined ks w) (hmay : w.MayAsk made)
    (hpending : made.status = .pending) :
    Heeds w (World.exec (.offer (.create made)) c w).2 ∧
      Undeclined ks (World.exec (.offer (.create made)) c w).2 := by
  have honce (h : w.OneARound) : (World.exec (.offer (.create made)) c w).2.OneARound := by
    intro j j' r r' hr hr' horder hinspector hround
    rcases created_row hr with hold | ⟨hj, rfl⟩
    · rcases created_row hr' with hold' | ⟨-, rfl⟩
      · exact h j j' r r' hold hold' horder hinspector hround
      · exact absurd hround (hmay.2 j r hold horder hinspector).2
    · rcases created_row hr' with hold' | ⟨hj', -⟩
      · exact absurd hround.symm (hmay.2 j' r' hold' horder.symm hinspector.symm).2
      · exact hj.trans hj'.symm
  constructor
  · refine ⟨?_, ?_, honce⟩
    · intro j r hr _
      have heff := World.exec_offer (.offer (.create made)) c w j
      rw [hr] at heff
      generalize (World.exec (.offer (.create made)) c w).2.offers.get j = after at heff ⊢
      cases heff with
      | same => rfl
      | create _ offer stmt fresh =>
        rw [h.fresh j (Nat.le_of_eq fresh.symm)] at hr
        cases hr
      | update r₀ status' stmt => cases stmt
      | updateMany r₀ filter status' stmt => cases stmt
      | sale r₀ order counter price at_ stmt => cases stmt
    · intro j r hnone hr
      rcases created_row hr with hsame | ⟨-, rfl⟩
      · rw [hnone] at hsame
        cases hsame
      · exact hmay
  · constructor
    · exact World.offersFresh_exec h.fresh
    · exact honce h.once
    · intro j hj r hr
      rcases created_row hr with hold | ⟨-, rfl⟩
      · exact h.among j hj r hold
      · rw [hpending]
        intro hdeclined
        cases hdeclined

end Steps

section Flows

variable {α : Type} {P : World → Prop} {ks : List OfferId} (id : OrderId)

/-- A read leaves an assertion, and is answered from a state where it holds. -/
theorem Asks.read {site : Site} {f : World → α} (Q : α → World → Prop)
    (hQ : ∀ w, P w.still → Q (f w) w.still) : Asks P (fetch site f) Q fun _ => P :=
  Stepwise.ask Heeds.refl hQ fun _ _ h => h

theorem Asks.issue {s : Stmt} {Q : World → Prop} (h : ∀ c w, P w.still →
    Heeds w (World.exec s c w).2 ∧ Q (World.exec s c w).2.still) :
    Asks P (CarSalePro.issue s) (fun _ => Q) fun _ => Q := by
  have hperform : Asks P (perform s) (fun _ => Q) fun _ => Q := by
    refine Stepwise.perform fun c w hw _ => ?_
    obtain ⟨hheeds, hQ⟩ := h c w hw
    refine ⟨hheeds, ?_⟩
    show Discipline.onAnswer _ _ (World.exec s c w).1 (World.exec s c w).2.still
    cases (World.exec s c w).1 with
    | ok n => exact hQ
    | error e => exact hQ
  exact Discipline.Flow.seq hperform fun _ => Stepwise.pure fun _ h => h

/-- A program that leaves the offers alone. -/
theorem Asks.aside {p : Act α} (hp : p.Only fun s => s.touchesOffers = false) :
    Asks (Undeclined ks) p (fun _ => Undeclined ks) fun _ => Undeclined ks := by
  refine Stepwise.only hp Heeds.refl fun _ _ _ hs _ h => ?_
  obtain ⟨hheeds, hafter⟩ := undeclined_exec hs (undeclined_still.mp h)
  exact ⟨hheeds, undeclined_still.mpr hafter⟩

theorem Asks.note (actor : Actor) (type : EventType) : Asks (Undeclined ks) (note id actor type)
    (fun _ => Undeclined ks) fun _ => Undeclined ks :=
  .aside (only_note _ _ _ fun _ => rfl)

theorem Asks.transition (target : OrderStatus) (actor : Actor) : Asks (Undeclined ks)
    (transition id target actor) (fun _ => Undeclined ks) fun _ => Undeclined ks :=
  .aside (only_transition id target actor (fun _ _ => rfl) (fun _ => rfl) fun _ => rfl)

/-- The order as it was read, and whom it is not offered to. -/
structure Excludes (ks : List OfferId) (order : Order) (excluded : List UserId) (w : World) :
    Prop where
  undeclined : Undeclined ks w
  row : w.orders.get id = some order
  prior : ∀ k r, w.offers.get k = some r → r.orderId = id → r.inspectorId ∉ excluded →
    r.status = .expired ∧ r.round ≠ order.dispatchRound

/-- Who is not excluded was asked in other rounds only, and let the offer expire. -/
theorem excludes_prior {order : Order} {w : World} {k : OfferId} {r : OrderOffer}
    (hr : w.offers.get k = some r) (horder : r.orderId = id)
    (hnot : r.inspectorId ∉ excludedInspectors id order w) :
    r.status = .expired ∧ r.round ≠ order.dispatchRound := by
  have hfilter : ¬(r.status = .declined ∨ r.status = .pending ∨ r.status = .accepted ∨
      r.status = .expired ∧ r.round = order.dispatchRound) := by
    intro hhit
    refine hnot (List.mem_map.mpr ⟨(k, r), Table.mem_findMany.mpr ⟨hr, ?_⟩, rfl⟩)
    simpa [horder, or_assoc] using hhit
  cases hs : r.status with
  | expired => exact ⟨rfl, fun hround => hfilter (.inr (.inr (.inr ⟨hs, hround⟩)))⟩
  | pending => exact absurd (.inr (.inl hs)) hfilter
  | accepted => exact absurd (.inr (.inr (.inl hs))) hfilter
  | declined => exact absurd (.inl hs) hfilter

/-- The candidate chosen is one of the candidates. -/
theorem chosen_mem {candidates : List Candidate} {order : Order} {price : UserId → PriceBreakdown}
    {chosen : PricedCandidate}
    (h : ((candidates.map fun c => priceCandidate order (price c.userId) c).insertionSort
      fun a b => compareCandidates a b).head? = some chosen) : chosen.candidate ∈ candidates := by
  have hmem := (List.mem_insertionSort _).mp (List.mem_of_mem_head? h)
  obtain ⟨c, hc, rfl⟩ := List.mem_map.mp hmem
  exact hc

theorem asks_offerTo {order : Order} {excluded : List UserId} {chosen : PricedCandidate}
    (hnot : chosen.candidate.userId ∉ excluded)
    (hcustomer : chosen.candidate.userId ≠ order.customerId) :
    Asks (Excludes id ks order excluded) (offerTo id order chosen) (fun _ => Undeclined ks)
      fun _ => Undeclined ks := by
  have hread {site : Site} {β : Type} (f : World → β) : Asks (Excludes id ks order excluded)
      (fetch site f) (fun _ => Excludes id ks order excluded) fun _ => Undeclined ks :=
    Stepwise.ask Heeds.refl (fun _ h => h) fun _ _ h => h.undeclined
  refine Discipline.Flow.seq (hread _) fun settings => Discipline.Flow.seq (hread _) fun now => ?_
  refine Discipline.Flow.seq (Asks.issue (Q := Undeclined ks) fun c w h => ?_) fun _ =>
    Asks.note id _ _
  have hmay : w.MayAsk {
      orderId := id
      inspectorId := chosen.candidate.userId
      status := .pending
      expiresAt := now + minutes settings.offerTimeoutMinutes
      round := order.dispatchRound
      priceCents := some chosen.price.totalCents
      platformFeeCents := some chosen.price.platformFeeCents
      inspectorShareCents := some chosen.price.inspectorShareCents } := by
    constructor
    · exact ⟨order, h.row, hcustomer⟩
    · intro k r hr horder hinspector
      exact h.prior k r hr horder (hinspector ▸ hnot)
  obtain ⟨hheeds, hafter⟩ := undeclined_create (c := c) (undeclined_still.mp h.undeclined) hmay rfl
  exact ⟨hheeds, undeclined_still.mpr hafter⟩

theorem asks_bestPoolCandidate {order : Order} {candidates : List Candidate} :
    Asks P (bestPoolCandidate id order candidates)
      (fun chosen x => P x ∧ ∀ best, chosen = some best → best.candidate ∈ candidates)
      fun _ => P := by
  refine Discipline.Flow.seq (Asks.read (fun (priced : List PricedCandidate) x => P x ∧
    ∃ price : UserId → PriceBreakdown, priced = candidates.map fun c =>
      priceCandidate order (price c.userId) c) fun w h =>
        ⟨h, fun c => w.priceOf w.now id c, rfl⟩) fun priced => ?_
  refine Stepwise.pure fun x h => ⟨h.1, fun best hbest => ?_⟩
  obtain ⟨price, rfl⟩ := h.2
  exact chosen_mem hbest

/-- The order is as it was read. -/
structure AsRead (ks : List OfferId) (order : Order) (w : World) : Prop where
  undeclined : Undeclined ks w
  row : w.orders.get id = some order

theorem asRead_read {order : Order} {site : Site} {f : World → α} :
    Asks (AsRead id ks order) (fetch site f) (fun _ => AsRead id ks order) fun _ => Undeclined ks :=
  Stepwise.ask Heeds.refl (fun _ h => h) fun _ _ h => h.undeclined

theorem asRead_requireOrderAt {order : Order} {site : Site} :
    Asks (AsRead id ks order) (requireOrderAt site id) (fun _ => AsRead id ks order)
      fun _ => Undeclined ks := by
  refine Discipline.Flow.seq (asRead_read id) fun row => ?_
  cases row with
  | none => exact Stepwise.throw fun x h => h.undeclined
  | some row => exact Stepwise.pure fun x h => h

/-- The candidates are not among those the search was told to exclude. -/
theorem asks_findNearestInspectors {order : Order} {excluded : List UserId} :
    Asks (Excludes id ks order excluded) (findNearestInspectors id order excluded)
      (fun candidates x => Excludes id ks order excluded x ∧
        ∀ c ∈ candidates, c.userId ∉ excluded ∧ c.userId ≠ order.customerId)
      fun _ => Undeclined ks := by
  refine Stepwise.ask Heeds.refl (fun w h => ⟨h, fun c hc => ?_⟩) fun _ _ h => h.undeclined
  have hfilter := (List.mem_filter.mp (List.mem_of_mem_take hc)).2
  simpa using hfilter

/-- What a dispatch does once it knows whom to exclude. -/
theorem heeds_excluding {order : Order} {excluded : List UserId} :
    Asks (Excludes id ks order excluded) (do
      let candidates ← findNearestInspectors id order excluded
      match ← bestPoolCandidate id order candidates with
      | some chosen => do
        offerTo id order chosen
        pure true
      | none => do
        Prog.when (order.status ≠ unassigned) (transition id unassigned .system)
        pure false : Act Bool) (fun _ => Undeclined ks) fun _ => Undeclined ks := by
  refine Discipline.Flow.seq (asks_findNearestInspectors id) fun candidates => ?_
  refine Stepwise.fact fun hcandidates => ?_
  have hbest : Asks (Excludes id ks order excluded) (bestPoolCandidate id order candidates)
      (fun chosen x => Excludes id ks order excluded x ∧
        ∀ best, chosen = some best → best.candidate ∈ candidates)
      fun _ => Excludes id ks order excluded := asks_bestPoolCandidate id
  refine Discipline.Flow.seq (Stepwise.weaken hbest (fun _ h => h) (fun _ _ h => h)
    fun _ _ h => h.undeclined) fun chosen => Stepwise.fact fun hchosen => ?_
  cases chosen with
  | none =>
    refine Discipline.Flow.seq (Stepwise.weaken (Discipline.Flow.when (fun _ =>
      Asks.transition id _ _) fun _ _ h => h) (fun _ h => h.undeclined) (fun _ _ h => h)
        fun _ _ h => h) fun _ => ?_
    exact Stepwise.pure fun _ h => h
  | some best =>
    obtain ⟨hnot, hcustomer⟩ := hcandidates _ (hchosen best rfl)
    exact Discipline.Flow.seq (asks_offerTo id hnot hcustomer) fun _ => Stepwise.pure fun _ h => h

/-- A dispatch heeds the answers, and makes no refusal. -/
theorem heeds_dispatch : Asks (Undeclined ks) (dispatch id) (fun _ => Undeclined ks)
    fun _ => Undeclined ks := by
  refine Discipline.Flow.seq (Asks.read (fun found x => Undeclined ks x ∧
    ∀ order, found = some order → x.orders.get id = some order) fun w h =>
      ⟨h, fun order horder => horder⟩) fun found => ?_
  cases found with
  | none => exact Stepwise.pure fun x h => h.1
  | some order =>
    refine Discipline.Flow.ite (fun _ => Stepwise.pure fun x h => h.1) fun _ => ?_
    refine Discipline.Flow.seq (Stepwise.weaken (asRead_read id) (fun x h => ⟨h.1, h.2 order rfl⟩)
      (fun _ _ h => h) fun _ _ h => h) fun locked => ?_
    refine Discipline.Flow.ite (fun _ => Stepwise.pure fun x h => h.undeclined) fun _ => ?_
    refine Discipline.Flow.seq (asRead_requireOrderAt id) fun _ => ?_
    refine Discipline.Flow.seq (asRead_read id) fun _ => ?_
    refine Discipline.Flow.seq (Stepwise.ask Heeds.refl (Q := Excludes id ks order)
      (fun w h => ?_) fun _ _ h => h.undeclined) fun excluded => heeds_excluding id
    exact ⟨h.undeclined, h.row, fun k r hr horder hnot => excludes_prior id hr horder hnot⟩

/-- A refusal is written only on an offer that waits for an answer. -/
theorem heeds_declineOffer (offerId : OfferId) (user : UserId) : Asks (Undeclined [])
    (declineOffer offerId user) (fun _ => Undeclined []) fun _ => Undeclined [] := by
  refine Discipline.Flow.seq (Asks.read (fun found x => Undeclined [] x ∧
    ∀ offer, found = some offer → x.offers.get offerId = some offer) fun w h =>
      ⟨h, fun offer hoffer => hoffer⟩) fun found => ?_
  cases found with
  | none => exact Stepwise.throw fun x h => h.1
  | some offer =>
    refine Discipline.Flow.ite (fun _ => Stepwise.throw fun x h => h.1) fun _ => ?_
    refine Discipline.Flow.seq (Discipline.Flow.when (fun hpending => ?_) fun _ _ h x hx =>
      (h x hx).1) fun _ => ?_
    · refine Discipline.Flow.seq (Asks.issue fun c w h => ?_) fun _ => Asks.note _ _ _
      have hrow (r : OrderOffer) (hr : w.offers.get offerId = some r) : r.status ≠ .declined := by
        have hsame := Option.some.inj (hr.symm.trans (h.2 offer rfl))
        rw [hsame, hpending]
        intro hdeclined
        cases hdeclined
      obtain ⟨hheeds, hafter⟩ := undeclined_update (c := c) .declined
        (undeclined_still.mp h.1) hrow fun j hj => absurd hj (by simp)
      exact ⟨hheeds, undeclined_still.mpr hafter⟩
    · exact Discipline.Flow.seq (heeds_dispatch _) fun _ => Stepwise.pure fun _ h => h

/-- The offers that were due when the sweep read them wait for their answers until it comes to
them. -/
theorem heeds_expireEach {due : List (OfferId × OrderOffer)} : Asks (Undeclined (due.map (·.1)))
    (forEach due fun offer => do
      issue (.offer (.update offer.1 .expired))
      let _ ← fetch .expireStaleOffers (·.orders.get offer.2.orderId)
      let _ ← dispatch offer.2.orderId
      pure ()) (fun _ => Undeclined []) fun _ => Undeclined [] := by
  induction due with
  | nil => exact Discipline.Flow.ret fun _ h => h
  | cons offer due ih =>
    have hsub : due.map (·.1) ⊆ (offer :: due).map (·.1) := by simp
    have hbody : Asks (Undeclined ((offer :: due).map (·.1))) (do
        issue (.offer (.update offer.1 .expired))
        let _ ← fetch .expireStaleOffers (·.orders.get offer.2.orderId)
        let _ ← dispatch offer.2.orderId
        pure () : Act Unit) (fun _ => Undeclined ((offer :: due).map (·.1)))
        fun _ => Undeclined ((offer :: due).map (·.1)) := by
      refine Discipline.Flow.seq (Asks.issue fun c w h => ?_) fun _ => ?_
      · have hrow := (undeclined_still.mp h).among offer.1 (by simp)
        obtain ⟨hheeds, hafter⟩ := undeclined_update (c := c) .expired
          (undeclined_still.mp h) hrow fun j _ hdeclined => by cases hdeclined
        exact ⟨hheeds, undeclined_still.mpr hafter⟩
      · refine Discipline.Flow.seq (Asks.read (fun _ => Undeclined _) fun _ h => h) fun _ => ?_
        exact Discipline.Flow.seq (heeds_dispatch _) fun _ => Stepwise.pure fun _ h => h
    refine Discipline.Flow.bind (Stepwise.weaken hbody (fun _ h => h) (fun _ _ h => h.mono hsub)
      fun _ _ h => h.mono (List.nil_subset _)) fun _ => ih

theorem heeds_expireStaleOffers : Asks (Undeclined []) expireStaleOffers (fun _ => Undeclined [])
    fun _ => Undeclined [] := by
  refine Discipline.Flow.seq (Asks.read (fun stale x => Undeclined (stale.map (·.1)) x)
    fun w h => ?_) fun stale => ?_
  · refine ⟨h.fresh, h.once, fun k hk r hr => ?_⟩
    obtain ⟨entry, hentry, rfl⟩ := List.mem_map.mp hk
    obtain ⟨hget, hmatch⟩ := Table.mem_findMany.mp hentry
    have hsame := Option.some.inj (hr.symm.trans hget)
    have hpending : entry.2.status = .pending :=
      of_decide_eq_true (Bool.and_eq_true_iff.mp hmatch).1
    rw [hsame, hpending]
    intro hdeclined
    cases hdeclined
  · exact Discipline.Flow.seq heeds_expireEach fun _ => Stepwise.pure fun _ h => h

theorem heeds_redispatchOrder (now : Time) : Asks (Undeclined []) (redispatchOrder now id)
    (fun _ => Undeclined []) fun _ => Undeclined [] := by
  have hraise : Asks (Undeclined []) (perform (.order (.raiseRound id now)))
      (fun _ => Undeclined []) fun _ => Undeclined [] := .aside ((only_perform _).mpr rfl)
  refine Discipline.Flow.seq hraise fun claimed => ?_
  refine Discipline.Flow.ite (fun _ => Stepwise.pure fun _ h => h) fun _ => ?_
  refine Discipline.Flow.seq (heeds_dispatch id) fun offered => ?_
  refine Discipline.Flow.seq (Discipline.Flow.when (fun _ => Asks.note id _ _) fun _ _ h => h)
    fun _ => Stepwise.pure fun _ h => h

theorem heeds_redispatchUnfilledOrders (limit : Nat) : Asks (Undeclined [])
    (redispatchUnfilledOrders limit) (fun _ => Undeclined []) fun _ => Undeclined [] := by
  refine Discipline.Flow.seq (Asks.read (fun _ => Undeclined []) fun _ h => h) fun now => ?_
  refine Discipline.Flow.seq (Asks.read (fun _ => Undeclined []) fun _ h => h) fun due => ?_
  refine Discipline.Flow.countEach fun o _ => ?_
  exact Discipline.Flow.handle (heeds_redispatchOrder o.1 now) fun _ => Stepwise.pure fun _ h => h

theorem heeds_prog {call : SearchCall} (hcall : call.asks) : Asks (Undeclined []) call.prog
    (fun _ => Undeclined []) fun _ => Undeclined [] := by
  have hdiscard {α : Type} {p : Act α} (hp : Asks (Undeclined []) p (fun _ => Undeclined [])
      fun _ => Undeclined []) : Asks (Undeclined []) (discard p) (fun _ => Undeclined [])
        fun _ => Undeclined [] := Discipline.Flow.seq hp fun _ => Stepwise.pure fun _ h => h
  cases call with
  | dispatch order => exact hdiscard (heeds_dispatch order)
  | declineOffer offer user => exact heeds_declineOffer offer user
  | expireStaleOffers => exact hdiscard heeds_expireStaleOffers
  | redispatchUnfilledOrders limit => exact hdiscard (heeds_redispatchUnfilledOrders limit)
  | acceptOffer offer user => cases hcall
  | expireUnfilledSearches limit => cases hcall

end Flows

/-- No dispatch asks again: no offer goes to the customer, to an inspector who has declined one of
the order's, or to one who holds one, and no inspector is asked twice in a round. -/
theorem never_reasks (w : World) (calls : List SearchCall) (g g' g'' : Run Unit) (m : Move Fate)
    (hcalls : ∀ call ∈ calls, call.asks) (hfresh : w.offersFresh) (honce : w.OneARound)
    (hg : Pool.Reach machine noRecord anyStep (SearchCall.sequence w calls) g)
    (hg' : Pool.Reach machine noRecord anyStep g g')
    (hs : Pool.step machine noRecord m g' = some g'') :
    NeverReasks g.state g'.state g''.state := by
  have hprog : Asks (Undeclined []) (series (calls.map SearchCall.prog)) (fun _ => Undeclined [])
      fun _ => Undeclined [] := by
    refine Stepwise.series fun p hp => ?_
    obtain ⟨call, hcall, rfl⟩ := List.mem_map.mp hp
    exact heeds_prog (hcalls call hcall)
  have henv (c : Fate) (w : World) : Heeds w (machine.env c w) := by
    obtain ⟨now, hnow⟩ := World.tick_eq c w
    rw [show machine.env c w = World.tick c w from rfl, hnow]
    exact ⟨fun _ _ h _ => h, (Heeds.refl w).asked, fun h => h⟩
  have hkept : ∀ u v : World, Heeds u v → Refused u v ∧ (u.OneARound → v.OneARound) :=
    fun u v h => ⟨h.refused, h.once⟩
  have hrefl : ∀ u : World, Refused u u ∧ (u.OneARound → u.OneARound) :=
    fun u => ⟨.refl u, fun h => h⟩
  have htrans : ∀ u v x : World, Refused u v ∧ (u.OneARound → v.OneARound) →
      Refused v x ∧ (v.OneARound → x.OneARound) → Refused u x ∧ (u.OneARound → x.OneARound) :=
    fun u v x h h' => ⟨h.1.trans h'.1, fun hu => h'.2 (h.2 hu)⟩
  have hok (t : Nat) (l : Label Site Stmt) (c : Fate) (x : World × Unit)
      (_ : anyStep t l c x = true) : True := trivial
  have hstart := hprog.stands_start (w := w) () ⟨hfresh, honce, fun k hk => absurd hk (by simp)⟩
  obtain ⟨⟨-, hround⟩, hstands⟩ :=
    Stepwise.stands_reach World.still_tick henv hkept hrefl htrans hok hstart hg
  obtain ⟨⟨hrefused, hround'⟩, hstands'⟩ :=
    Stepwise.stands_reach World.still_tick henv hkept hrefl htrans hok hstands hg'
  have hmeets : g'.Meets anyStep m := by
    cases m with
    | env c => rfl
    | run t c => cases h : g'.threads[t]?.bind Prog.label <;> simp [Pool.Meets, h, anyStep]
  have hheeds := (Stepwise.stands_step World.still_tick henv hok hstands' hmeets hs).1
  constructor
  · exact fun k r hnone hr => (hheeds.asked k r hnone hr).1
  · intro k r hnone hr j q hq horder hdeclined hinspector
    have hprior := (hheeds.asked k r hnone hr).2 j q (hrefused j q hq hdeclined) horder hinspector
    rw [hprior.1] at hdeclined
    cases hdeclined
  · intro k r hnone hr j q hq horder hheld hinspector
    have hprior := (hheeds.asked k r hnone hr).2 j q hq horder hinspector
    rw [hprior.1] at hheld
    rcases hheld with hpending | haccepted
    · cases hpending
    · cases haccepted
  · exact hheeds.once (hround' (hround honce))

/-- Whom the second offer went to. -/
def secondAsked (g : Run Unit) : Option UserId := (g.state.offers.get 1).map (·.inspectorId)

/-- The nearest declines, and the offer goes to the next one. -/
theorem declined_then_other : ∃ g g' : Run Unit, secondAsked g = none ∧ secondAsked g' = some 8 ∧
    NeverReasks g.state g.state g'.state := by
  have hrun : Pool.observe machine noRecord anyStep secondAsked (goes 0 23) (.run 0 .ok)
      (SearchCall.sequence unfilled [.dispatch 1, .declineOffer 0 7]) = some (none, some 8) := by
    decide +kernel
  obtain ⟨g, g', hg, -, hs, hbefore, hafter⟩ := Pool.observe_eq hrun
  have hnone (k : OfferId) : unfilled.offers.get k = none := rfl
  refine ⟨g, g', hbefore, hafter, never_reasks unfilled _ g g g' _ (by decide) (fun k _ => hnone k)
    (fun k k' r r' hr => ?_) hg .start hs⟩
  rw [hnone] at hr
  cases hr

end CarSalePro
