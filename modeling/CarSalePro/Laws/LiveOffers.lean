import CarSalePro.Interleave.Recall
import CarSalePro.Orders.Effects

namespace CarSalePro

open Store Interleave Prog OrderStatus

/-- Somebody holds the offer, or is to answer it. -/
def OfferStatus.held : OfferStatus → Bool
  | pending | accepted => true
  | _ => false

/-- The offer waits for an answer and has time left. -/
def OrderOffer.live (now : Time) (r : OrderOffer) : Bool := r.status = .pending && now < r.expiresAt

/-- The offer is live, or it was accepted before its time was up. -/
def OrderOffer.out (now : Time) (r : OrderOffer) : Bool := r.status.held && now < r.expiresAt

/-- Of every order at most one offer is such. -/
def World.AtMostOne (w : World) (p : OrderOffer → Bool) : Prop :=
  ∀ k k' r r', w.offers.get k = some r → w.offers.get k' = some r' → r.orderId = r'.orderId →
    p r → p r' → k = k'

/-- A call that has to do with the search for an inspector. -/
inductive SearchCall where
  | dispatch (order : OrderId)
  | acceptOffer (offer : OfferId) (user : UserId)
  | declineOffer (offer : OfferId) (user : UserId)
  | expireStaleOffers
  | redispatchUnfilledOrders (limit : Nat)
  | expireUnfilledSearches (limit : Nat)

def SearchCall.prog : SearchCall → Act Unit
  | dispatch order => discard (CarSalePro.dispatch order)
  | acceptOffer offer user => CarSalePro.acceptOffer offer user
  | declineOffer offer user => CarSalePro.declineOffer offer user
  | expireStaleOffers => discard CarSalePro.expireStaleOffers
  | redispatchUnfilledOrders limit => discard (CarSalePro.redispatchUnfilledOrders limit)
  | expireUnfilledSearches limit => discard (CarSalePro.expireUnfilledSearches limit)

/-- Whether the offer is one of the order, and out. -/
def World.outOf (w : World) (order : OrderId) (r : OrderOffer) : Bool :=
  r.orderId = order && r.out w.now

def World.noneOut (w : World) (order : OrderId) : Bool := !w.offers.any fun _ => w.outOf order

/-- The offers of the order that are out were out in `w₀` already. -/
def World.noneNew (w₀ w : World) (order : OrderId) : Bool :=
  !w.offers.any fun k r => w.outOf order r && !(w₀.offers.get k).any (w₀.outOf order)

/-- What a thread remembers: the live offer it read to decline, as its first step, and for an order
the state in which it last found none out, reading the order to dispatch it or declining that
offer. -/
structure AskMemory where
  begun : Bool
  own : Option (OfferId × OrderId)
  clear : OrderId → Option World

namespace AskMemory

def empty : AskMemory := ⟨false, none, fun _ => none⟩

def note (m : AskMemory) (l : Label Site Stmt) (w w' : World) : AskMemory :=
  match l with
  | .ask (.declineOffer k) =>
    { m with
      begun := true
      own := if m.begun then m.own else
        ((w.offers.get k).filter (·.live w.now)).map fun r => (k, r.orderId) }
  | .ask (.dispatch order) =>
    { m with
      begun := true
      clear := if w.noneOut order then Function.update m.clear order (some w) else m.clear }
  | .call (.offer (.update k _)) =>
    { m with
      begun := true
      clear :=
        match m.own with
        | some own => if own.1 = k ∧ (w'.offers.get k).all (fun r => !r.status.held) then
            Function.update m.clear own.2 (some w') else m.clear
        | none => m.clear }
  | _ => { m with begun := true }

end AskMemory

def recordAsks : Recorder Site Stmt World (Nat → AskMemory) := fun t l w w' h =>
  Function.update h t ((h t).note l w w')

/-- The calls, all at their first step. -/
def search (w : World) (calls : List SearchCall) : Run (Nat → AskMemory) :=
  ⟨w, fun _ => .empty, calls.map SearchCall.prog⟩

/-- Under the condition `C`, no order has ever two live offers, however the calls run. -/
def LiveOfferLaw (C : StepGuard (Nat → AskMemory)) : Prop :=
  ∀ (w : World) (calls : List SearchCall) (g : Run (Nat → AskMemory)), w.AtMostOne (·.out w.now) →
    Pool.Reach machine recordAsks C (search w calls) g →
    g.state.AtMostOne (·.live g.state.now)

/-- An offer is made by a call that declines a live offer of the order, or found none out as it read
the order, and nobody puts another out meanwhile. The offer a call declines is still live, or none
of the order is out. -/
def asksInTurn : StepGuard (Nat → AskMemory) := fun t l c x =>
  match l with
  | .call (.offer (.create offer)) => c = .down ||
      ((x.2 t).own.any (·.2 = offer.orderId) || ((x.2 t).clear offer.orderId).isSome) &&
        ((x.2 t).clear offer.orderId).all fun w => w.noneNew x.1 offer.orderId
  | .call (.offer (.update k _)) => (x.2 t).own.all fun own =>
      own.1 ≠ k || x.1.noneOut own.2 ||
        (x.1.offers.get k).any fun r => r.orderId = own.2 && r.live x.1.now
  | _ => true

section Statements

/-- The statement puts nobody's offer out that was not: what it marks as held was held. -/
def Stmt.putsNoneOut : Stmt → Prop
  | .offer (.update _ status) => status.held = false
  | .offer (.updateMany filter status) => status.held → ∀ k r, filter k r → r.status.held
  | _ => True

variable {s : Stmt} {c : Fate} {w : World} {k : OfferId} {r : OrderOffer}

/-- An offer that is there after a statement is a new one, or it was there, and out if it is out. -/
theorem offer_before (now : Time) (hs : s.putsNoneOut)
    (hr : (World.exec s c w).2.offers.get k = some r) :
    (s = .offer (.create r) ∧ k = w.nextOffer) ∨
      ∃ r₀, w.offers.get k = some r₀ ∧ r₀.orderId = r.orderId ∧ (r.out now → r₀.out now) := by
  have heff := World.exec_offer s c w k
  rw [hr] at heff
  generalize hbefore : w.offers.get k = before at heff
  cases heff with
  | same => exact .inr ⟨r, rfl, rfl, fun h => h⟩
  | create _ offer stmt fresh => exact .inl ⟨stmt, fresh⟩
  | update r₀ status stmt =>
    subst stmt
    have hheld : status.held = false := hs
    refine .inr ⟨r₀, rfl, rfl, fun hout => ?_⟩
    simp [OrderOffer.out, hheld] at hout
  | updateMany r₀ filter status stmt hit =>
    subst stmt
    refine .inr ⟨r₀, rfl, rfl, fun hout => ?_⟩
    simp only [OrderOffer.out, Bool.and_eq_true] at hout ⊢
    exact ⟨hs hout.1 k r₀ hit, hout.2⟩
  | sale r₀ order counter price at_ stmt pending =>
    refine .inr ⟨r₀, rfl, rfl, fun hout => ?_⟩
    simp [OrderOffer.out, OfferStatus.held] at hout

theorem noneOut_iff {order : OrderId} : w.noneOut order = true ↔
    ∀ k r, w.offers.get k = some r → w.outOf order r = false := by
  rw [World.noneOut, Bool.not_eq_true', Table.any_eq_false]

/-- Where none was out, and none was put out, none is out. -/
theorem noneOut_later {w₀ : World} {order : OrderId} (h : w₀.noneOut order)
    (hnew : w₀.noneNew w order) : w.noneOut order := by
  rw [noneOut_iff] at h ⊢
  intro k r hr
  rw [World.noneNew, Bool.not_eq_true', Table.any_eq_false] at hnew
  have hrow := hnew k r hr
  cases hout : w.outOf order r with
  | false => rfl
  | true =>
    have hbefore : (w₀.offers.get k).any (w₀.outOf order) = true := by simpa [hout] using hrow
    obtain ⟨r₀, hget, hout₀⟩ := (Option.any_eq_true _ _).mp hbefore
    rw [h k r₀ hget] at hout₀
    cases hout₀

/-- A statement of a call leaves at most one offer out, if it makes none while one is out. -/
theorem atMostOne_exec (hs : s.putsNoneOut)
    (hnone : ∀ offer, s = .offer (.create offer) → c ≠ .down → w.noneOut offer.orderId)
    (h : w.AtMostOne (·.out w.now)) :
    (World.exec s c w).2.AtMostOne (·.out (World.exec s c w).2.now) := by
  by_cases hlost : ∃ offer, s = .offer (.create offer) ∧ c = .down
  · obtain ⟨offer, rfl, rfl⟩ := hlost
    exact h
  rw [(World.frame_exec s c w).now]
  intro k k' r r' hr hr' horder hout hout'
  have hfree {r : OrderOffer} (hcreate : s = .offer (.create r)) {k' : OfferId} {r₀ : OrderOffer}
      (hget : w.offers.get k' = some r₀) (horder : r₀.orderId = r.orderId)
      (hout : r₀.out w.now) : False := by
    have hrow := noneOut_iff.mp (hnone r hcreate fun hc => hlost ⟨r, hcreate, hc⟩) k' r₀ hget
    simp [World.outOf, horder, hout] at hrow
  rcases offer_before w.now hs hr with ⟨hcreate, hk⟩ | ⟨r₀, hget, heq, hbefore⟩
  · rcases offer_before w.now hs hr' with ⟨-, hk'⟩ | ⟨r₀', hget', heq', hbefore'⟩
    · exact hk.trans hk'.symm
    · exact (hfree hcreate hget' (heq'.trans horder.symm) (hbefore' hout')).elim
  · rcases offer_before w.now hs hr' with ⟨hcreate', -⟩ | ⟨r₀', hget', heq', hbefore'⟩
    · exact (hfree hcreate' hget (heq.trans horder) (hbefore hout)).elim
    · exact h k k' r₀ r₀' hget hget' (heq.trans (horder.trans heq'.symm)) (hbefore hout)
        (hbefore' hout')

/-- When the only offer that can be out is written and not held any more, none is out. -/
theorem noneOut_update {order : OrderId} {status : OfferStatus}
    (hs : (Stmt.offer (.update k status)).putsNoneOut)
    (honly : ∀ k' r, w.offers.get k' = some r → w.outOf order r → k' = k)
    (hgone : ((World.exec (.offer (.update k status)) c w).2.offers.get k).all (!·.status.held)) :
    (World.exec (.offer (.update k status)) c w).2.noneOut order := by
  rw [noneOut_iff]
  intro k' r hr
  cases hout : World.outOf _ order r with
  | false => rfl
  | true =>
    simp only [World.outOf, Bool.and_eq_true, decide_eq_true_eq,
      (World.frame_exec (.offer (.update k status)) c w).now] at hout
    rcases offer_before w.now hs hr with ⟨hcreate, -⟩ | ⟨r₀, hget, horder, hbefore⟩
    · cases hcreate
    · have hk : k' = k := honly k' r₀ hget (by simp [World.outOf, horder, hout.1, hbefore hout.2])
      subst hk
      rw [hr] at hgone
      simp only [OrderOffer.out, Bool.and_eq_true] at hout
      simp [hout.2.1] at hgone

end Statements

/-- What a decline does about the offer it read. -/
def declineRead (offerId : OfferId) (offer : OrderOffer) (user : UserId) : Act Unit := do
  Prog.when (offer.status = .pending) do
    issue (.offer (.update offerId .declined))
    note offer.orderId (.user user) .offerDeclined
  let _ ← dispatch offer.orderId
  pure ()

section Footprints

variable (id : OrderId)

theorem DispatchStmt.putsNoneOut {s : Stmt} (h : DispatchStmt id s) : s.putsNoneOut := by
  cases h <;> trivial

theorem RefundStmt.putsNoneOut {reason : RefundReason} {k : PaymentId} {i : Option IntentId}
    {s : Stmt} (h : RefundStmt id reason k i s) : s.putsNoneOut := by
  cases h <;> trivial

theorem CaptureStmt.putsNoneOut {s : Stmt} (h : CaptureStmt s) : s.putsNoneOut := by
  cases h <;> trivial

theorem SettleStmt.putsNoneOut {s : Stmt} (h : SettleStmt s) : s.putsNoneOut := by
  cases h with
  | promote h => cases h <;> trivial
  | _ => trivial

theorem asks_dispatch : (dispatch id).Only Stmt.putsNoneOut :=
  (only_dispatch id).mono fun _ h => h.putsNoneOut

theorem asks_expirePending (filter : OfferId → OrderOffer → Bool) :
    (Stmt.offer (.updateMany filter .expired)).putsNoneOut := fun h => by cases h

theorem asks_acceptOffer (offerId : OfferId) (user : UserId) :
    (acceptOffer offerId user).Only Stmt.putsNoneOut := by
  have hheld {status : OfferStatus} (hstatus : status.held) {status' : OfferStatus} :
      (Stmt.offer (.updateMany (fun k r => k = offerId && r.status = status)
        status')).putsNoneOut := by
    intro _ k r hr
    simp only [Bool.and_eq_true, decide_eq_true_eq] at hr
    rw [hr.2]
    exact hstatus
  apply (only_acceptOffer offerId user).mono
  rintro s ⟨id, h⟩
  cases h with
  | accept => exact hheld rfl
  | defer => exact hheld rfl
  | expire filter => exact asks_expirePending filter
  | capture h => exact h.putsNoneOut
  | refund h => exact h.putsNoneOut
  | settle h => exact h.putsNoneOut
  | _ => trivial

theorem asks_declineRead (offerId : OfferId) (offer : OrderOffer) (user : UserId) :
    (declineRead offerId offer user).Only Stmt.putsNoneOut := by
  refine Only.seq (Only.when fun _ => ?_) fun _ => ?_
  · exact Only.seq (only_issue rfl) fun _ => only_note _ _ _ fun _ => trivial
  · exact Only.seq (asks_dispatch _) fun _ => only_pure _

end Footprints

/-- What is out later was out before, as long as its row stays. -/
theorem OrderOffer.out_earlier {r : OrderOffer} {now later : Time} (hnow : now ≤ later)
    (h : r.out later) : r.out now := by
  simp only [OrderOffer.out, Bool.and_eq_true, decide_eq_true_eq] at h ⊢
  exact ⟨h.1, Nat.lt_of_le_of_lt hnow h.2⟩

theorem OrderOffer.out_of_live {r : OrderOffer} {now : Time} (h : r.live now) : r.out now := by
  simp only [OrderOffer.live, OrderOffer.out, Bool.and_eq_true, decide_eq_true_eq] at h ⊢
  rw [h.1]
  exact ⟨rfl, h.2⟩

theorem World.AtMostOne.mono {w : World} {p q : OrderOffer → Bool} (h : w.AtMostOne q)
    (hpq : ∀ r, p r → q r) : w.AtMostOne p := fun k k' r r' hr hr' horder hp hp' =>
  h k k' r r' hr hr' horder (hpq r hp) (hpq r' hp')

theorem atMostOne_tick {w : World} (c : Fate) (h : w.AtMostOne (·.out w.now)) :
    (World.tick c w).AtMostOne (·.out (World.tick c w).now) := by
  cases c with
  | elapse ms => exact h.mono fun r => OrderOffer.out_earlier (Nat.le_add_right w.now ms)
  | _ => exact h

section Memory

namespace AskMemory

/-- A call makes offers of the order whose offer it declined only after it did. -/
def may (m : AskMemory) (s : Stmt) : Prop :=
  s.putsNoneOut ∧ ∀ offer, s = .offer (.create offer) → (m.own.any (·.2 = offer.orderId)) →
    (m.clear offer.orderId).isSome

/-- A call that declines nothing. -/
def Plain (m : AskMemory) : Prop := m.begun = true ∧ m.own = none

/-- A call that declined its offer. -/
def Declined (own : OfferId × OrderId) (m : AskMemory) : Prop :=
  m.begun = true ∧ m.own = some own ∧ (m.clear own.2).isSome

variable {m : AskMemory} {l : Label Site Stmt} {w w' : World}

theorem begun_note : (m.note l w w').begun = true := by
  unfold note
  split <;> rfl

theorem own_note (h : m.begun = true) : (m.note l w w').own = m.own := by
  unfold note
  split <;> simp [h]

theorem clear_note {order : OrderId} (h : (m.clear order).isSome) :
    ((m.note l w w').clear order).isSome := by
  unfold note
  split
  · exact h
  · dsimp only
    split
    · rw [Function.update_apply]
      split <;> simp [h]
    · exact h
  · cases m.own with
    | none => exact h
    | some own =>
      dsimp only
      split
      · rw [Function.update_apply]
        split <;> simp [h]
      · exact h
  · exact h

theorem Plain.note (h : m.Plain) : (m.note l w w').Plain :=
  ⟨begun_note, (own_note h.1).trans h.2⟩

theorem Declined.note {own : OfferId × OrderId} (h : m.Declined own) :
    (m.note l w w').Declined own :=
  ⟨begun_note, (own_note h.1).trans h.2.1, clear_note h.2.2⟩

end AskMemory

abbrev Searches {α : Type} (A : AskMemory → Prop) (p : Act α) (B : α → AskMemory → Prop) : Prop :=
  RecallsAfter machine (fun _ _ _ => True) AskMemory.note AskMemory.may A p B

variable {α : Type} {p : Act α}

theorem searches_plain (hp : p.Only Stmt.putsNoneOut) :
    Searches AskMemory.Plain p fun _ => AskMemory.Plain :=
  Recalls.only_after hp (fun m s hm hs => ⟨hs, fun _ _ hown => by simp [hm.2] at hown⟩)
    fun _ _ _ _ h => h.note

/-- A call whose first step does not read an offer to decline it. -/
theorem searches_other (hp : p.Only Stmt.putsNoneOut)
    (hfirst : ∀ k, p.label ≠ some (.ask (.declineOffer k))) :
    Searches (· = .empty) p fun _ _ => True := by
  rintro m rfl
  have hplain {l : Label Site Stmt} (hl : p.label = some l) (w w' : World) :
      (AskMemory.empty.note l w w').Plain := by
    refine ⟨AskMemory.begun_note, ?_⟩
    unfold AskMemory.note
    split
    · exact absurd hl (hfirst _)
    all_goals rfl
  have hrest {q : Act α} (hq : q.Only Stmt.putsNoneOut) :
      Searches AskMemory.Plain q fun _ _ => True :=
    (searches_plain hq).post (fun _ _ _ => trivial) fun _ _ h => h
  cases p with
  | ret a => trivial
  | raise e => trivial
  | ask l f k =>
    exact fun c w _ => ⟨_, fun _ => ⟨rfl, trivial⟩, hrest (hp _) _ (hplain rfl w w)⟩
  | call s k =>
    have hmay : AskMemory.empty.may s := ⟨hp.1, fun _ _ hown => by cases hown⟩
    exact fun c w _ => ⟨_, fun _ => ⟨rfl, hmay⟩, hrest (hp.2 _) _ (hplain rfl w _)⟩

/-- What is remembered of the offer that was read to be declined. -/
def FoundLive (k : OfferId) (found : Option OrderOffer) (m : AskMemory) : Prop :=
  m.Plain ∨ ∃ r, found = some r ∧ r.status = .pending ∧ m.begun = true ∧ m.own = some (k, r.orderId)

theorem searches_find (k : OfferId) :
    Searches (· = .empty) (fetch (.declineOffer k) (·.offers.get k)) (FoundLive k) := by
  apply Recalls.fetch
  rintro m w rfl
  cases hr : (w.offers.get k).filter (·.live w.now) with
  | none => exact .inl ⟨rfl, by simp [AskMemory.note, AskMemory.empty, hr]⟩
  | some r =>
    obtain ⟨hget, hlive⟩ := Option.filter_eq_some_iff.mp hr
    simp only [OrderOffer.live, Bool.and_eq_true, decide_eq_true_eq] at hlive
    exact .inr ⟨r, hget, hlive.1, rfl, by simp [AskMemory.note, AskMemory.empty, hr]⟩

/-- After a write that went through, the offer is not held. -/
theorem update_gone {c : Fate} {w : World} {k : OfferId} {status : OfferStatus} {n : Nat}
    (hheld : status.held = false)
    (h : (World.exec (.offer (.update k status)) c w).1 = .ok n) :
    ((World.exec (.offer (.update k status)) c w).2.offers.get k).all (!·.status.held) := by
  by_cases hc : c = .down
  · simp [World.exec, hc] at h
  · cases hr : w.offers.get k with
    | none => simp [World.exec, World.write, World.writeOffer, hc, hr]
    | some r => simp [World.exec, World.write, World.writeOffer, hc, hr, hheld]

/-- The offer a call declines is not held any more when the call looks for the next inspector. -/
theorem searches_declineRead (offerId : OfferId) (offer : OrderOffer) (user : UserId)
    (hpending : offer.status = .pending) :
    Searches (fun m => m.begun = true ∧ m.own = some (offerId, offer.orderId))
      (declineRead offerId offer user) fun _ _ => True := by
  have hwrite : Searches (fun m => m.begun = true ∧ m.own = some (offerId, offer.orderId))
      (issue (.offer (.update offerId .declined)))
      fun _ => AskMemory.Declined (offerId, offer.orderId) := by
    refine Discipline.Flow.seq (Recalls.perform (fun _ _ => ⟨rfl, fun _ h => by cases h⟩)
      (B := fun _ => AskMemory.Declined (offerId, offer.orderId)) fun m c w r hm hok => ?_)
      fun _ => .pure fun _ h => h
    refine ⟨AskMemory.begun_note, (AskMemory.own_note hm.1).trans hm.2, ?_⟩
    have hgone := update_gone rfl hok
    simp [AskMemory.note, hm.2, machine, hgone]
  have hnote : Searches (AskMemory.Declined (offerId, offer.orderId))
      (note offer.orderId (.user user) .offerDeclined)
      fun _ => AskMemory.Declined (offerId, offer.orderId) := by
    refine Recalls.only_after (only_note (A := fun s => ∃ e, s = .event e) _ _ _ fun e => ⟨e, rfl⟩)
      (fun m s _ hs => ?_) fun _ _ _ _ h => h.note
    obtain ⟨e, rfl⟩ := hs
    exact ⟨trivial, fun _ h => by cases h⟩
  have hdispatch : Searches (AskMemory.Declined (offerId, offer.orderId)) (dispatch offer.orderId)
      fun _ => AskMemory.Declined (offerId, offer.orderId) := by
    apply Recalls.only_after (F := fun s => s.putsNoneOut ∧ ∀ x, s = .offer (.create x) →
      x.orderId = offer.orderId)
    · exact only_dispatchOf _ (fun x horder _ => ⟨trivial, fun _ h => by cases h; exact horder⟩)
        (fun _ _ => ⟨trivial, fun _ h => by cases h⟩) fun _ => ⟨trivial, fun _ h => by cases h⟩
    · intro m s hm hs
      exact ⟨hs.1, fun x hx _ => (hs.2 x hx).symm ▸ hm.2.2⟩
    · exact fun _ _ _ _ h => h.note
  refine Discipline.Flow.seq (.when (fun _ => hwrite.seq fun _ => hnote)
    fun h => absurd hpending h) fun _ => ?_
  exact hdispatch.seq fun _ => .pure fun _ _ => trivial

theorem searches_declineOffer (offerId : OfferId) (user : UserId) :
    Searches (· = .empty) (declineOffer offerId user) fun _ _ => True := by
  apply (searches_find offerId).seq
  intro found
  cases found with
  | none => exact .throw fun _ _ => trivial
  | some offer =>
    refine .ite (fun _ => .throw fun _ _ => trivial) fun _ => ?_
    rintro m (hplain | ⟨r, hr, hpending, hown⟩)
    · exact (searches_plain (asks_declineRead offerId offer user)).post (fun _ _ _ => trivial)
        (fun _ _ h => h) m hplain
    · cases hr
      exact searches_declineRead offerId offer user hpending m hown

theorem searches_prog (call : SearchCall) :
    Searches (· = .empty) call.prog fun _ _ => True := by
  have hdiscard {α : Type} {p : Act α} (hp : p.Only Stmt.putsNoneOut) :
      (discard p).Only Stmt.putsNoneOut := Only.seq hp fun _ => only_pure _
  cases call with
  | dispatch order => exact searches_other (hdiscard (asks_dispatch order)) fun _ h => by cases h
  | acceptOffer offer user =>
    exact searches_other (asks_acceptOffer offer user) fun _ h => by cases h
  | declineOffer offer user => exact searches_declineOffer offer user
  | expireStaleOffers =>
    refine searches_other (hdiscard ?_) fun _ h => by cases h
    exact only_expireStaleOffers (fun _ => rfl) fun _ _ h => h.putsNoneOut
  | redispatchUnfilledOrders limit =>
    refine searches_other (hdiscard ?_) fun _ h => by cases h
    exact only_redispatchUnfilledOrders limit (fun _ _ => trivial) fun _ _ h => h.putsNoneOut
  | expireUnfilledSearches limit =>
    refine searches_other (hdiscard ?_) fun _ h => by cases h
    exact only_expireUnfilledSearches limit (fun _ _ => trivial) asks_expirePending
      fun _ _ _ _ h => h.putsNoneOut

end Memory

/-- No order has two offers out, and where a thread saw none out there was none. -/
structure InTurn (x : World × (Nat → AskMemory)) : Prop where
  one : x.1.AtMostOne (·.out x.1.now)
  clear : ∀ t order w, (x.2 t).clear order = some w → w.noneOut order

section Steps

variable {t : Nat} {c : Fate} {x : World × (Nat → AskMemory)}

/-- What is remembered stays true when what a step adds is true. -/
theorem InTurn.note {l : Label Site Stmt} {w w' : World} {h : Nat → AskMemory}
    (hclear : ∀ t order w, (h t).clear order = some w → w.noneOut order)
    (hnew : ∀ order w₀, ((h t).note l w w').clear order = some w₀ →
      (h t).clear order = some w₀ ∨ w₀.noneOut order) :
    ∀ t' order w₀, (recordAsks t l w w' h t').clear order = some w₀ → w₀.noneOut order := by
  intro t' order w₀ h₀
  by_cases ht : t' = t
  · subst ht
    rw [recordAsks, Function.update_self] at h₀
    exact (hnew order w₀ h₀).elim (hclear t' order w₀) id
  · rw [recordAsks, Function.update_of_ne ht] at h₀
    exact hclear t' order w₀ h₀

/-- What is set for one order is what is remembered of it, and nothing else is new. -/
theorem clear_update {clear : OrderId → Option World} {order order' : OrderId} {w w₀ : World}
    (h : Function.update clear order' (some w) order = some w₀)
    (hnone : w.noneOut order') : clear order = some w₀ ∨ w₀.noneOut order := by
  rw [Function.update_apply] at h
  split at h
  next heq =>
    cases h
    exact .inr (heq ▸ hnone)
  next => exact .inl h

theorem InTurn.ask {site : Site} (h : InTurn x) :
    InTurn (x.1, recordAsks t (.ask site) x.1 x.1 x.2) := by
  refine ⟨h.one, InTurn.note h.clear fun order w₀ h₀ => ?_⟩
  unfold AskMemory.note at h₀
  split at h₀
  · exact .inl h₀
  · dsimp only at h₀
    split at h₀
    next hnone => exact clear_update h₀ hnone
    next => exact .inl h₀
  next hl => cases hl
  · exact .inl h₀

/-- A creation finds none of the order out. -/
theorem InTurn.creates {s : Stmt} (h : InTurn x) (hmay : (x.2 t).may s)
    (hC : asksInTurn t (.call s) c x) :
    ∀ offer, s = .offer (.create offer) → c ≠ .down → x.1.noneOut offer.orderId := by
  intro offer hs hup
  subst hs
  simp only [asksInTurn, hup, decide_false, Bool.false_or, Bool.and_eq_true, Bool.or_eq_true] at hC
  have hsome : ((x.2 t).clear offer.orderId).isSome := hC.1.elim (hmay.2 offer rfl) id
  obtain ⟨w₀, h₀⟩ := Option.isSome_iff_exists.mp hsome
  have hnew : w₀.noneNew x.1 offer.orderId := by simpa [h₀] using hC.2
  exact noneOut_later (h.clear t _ _ h₀) hnew

/-- After the write that declines it, no offer of the order is out. -/
theorem InTurn.declines {k : OfferId} {status : OfferStatus} {order : OrderId} (h : InTurn x)
    (hmay : (x.2 t).may (.offer (.update k status)))
    (hC : asksInTurn t (.call (.offer (.update k status))) c x)
    (hown : (x.2 t).own = some (k, order))
    (hgone : ((World.exec (.offer (.update k status)) c x.1).2.offers.get k).all (!·.status.held)) :
    (World.exec (.offer (.update k status)) c x.1).2.noneOut order := by
  refine noneOut_update hmay.1 (fun k' r hr hout => ?_) hgone
  simp only [asksInTurn, hown, Option.all_some, ne_eq, not_true_eq_false, decide_false,
    Bool.false_or, Bool.or_eq_true] at hC
  rcases hC with hnone | hlive
  · rw [noneOut_iff.mp hnone k' r hr] at hout
    cases hout
  · obtain ⟨r₀, hget, hrow⟩ := (Option.any_eq_true _ _).mp hlive
    simp only [Bool.and_eq_true, decide_eq_true_eq] at hrow
    simp only [World.outOf, Bool.and_eq_true, decide_eq_true_eq] at hout
    exact h.one k' k r r₀ hr hget (hout.1.trans hrow.1.symm) hout.2 (OrderOffer.out_of_live hrow.2)

theorem InTurn.call {s : Stmt} (h : InTurn x) (hmay : (x.2 t).may s)
    (hC : asksInTurn t (.call s) c x) :
    InTurn ((World.exec s c x.1).2, recordAsks t (.call s) x.1 (World.exec s c x.1).2 x.2) := by
  refine ⟨atMostOne_exec hmay.1 (h.creates hmay hC) h.one,
    InTurn.note h.clear fun order w₀ h₀ => ?_⟩
  unfold AskMemory.note at h₀
  split at h₀
  next hl => cases hl
  next hl => cases hl
  next k status hl =>
    cases hl
    cases hown : (x.2 t).own with
    | none => exact .inl (by simpa [hown] using h₀)
    | some own =>
      simp only [hown] at h₀
      split at h₀
      next hgone =>
        obtain ⟨rfl, hgone⟩ := hgone
        exact clear_update h₀ (h.declines hmay hC hown hgone)
      next => exact .inl h₀
  · exact .inl h₀

end Steps

/-- While a call asks the next inspector only about an order that has no offer out, or whose offer
it has just declined, an order has one live offer at most. -/
theorem one_live_offer (w : World) (calls : List SearchCall) (g : Run (Nat → AskMemory))
    (hw : w.AtMostOne (·.out w.now))
    (hg : Pool.Reach machine recordAsks asksInTurn (search w calls) g) :
    g.state.AtMostOne (·.live g.state.now) := by
  have hrec : RecordsAfter recordAsks AskMemory.note fun h => h := fun _ _ _ _ _ => rfl
  have hthreads : ∀ (t : Nat) (p : Act Unit), (search w calls).threads[t]? = some p →
      Searches (· = .empty) p fun _ _ => True := by
    intro t p hp
    obtain ⟨call, -, rfl⟩ := List.mem_map.mp (List.mem_of_getElem? hp)
    exact searches_prog call
  have hturn : InTurn g.snapshot := by
    apply recalled_keeps hrec hthreads _ _ _ _ hg
    · exact ⟨hw, fun _ _ _ h => by cases h⟩
    · exact fun t l c x hx _ => hx.ask
    · exact fun t s c x hx hmay hC => hx.call hmay hC
    · exact fun c x hx => ⟨atMostOne_tick c hx.one, hx.clear⟩
  exact hturn.one.mono fun r => OrderOffer.out_of_live

/-- An order that nobody took, and two inspectors near it. -/
def unfilled : World :=
  { World.empty with
    orders := Table.empty.set 1
      ⟨3, none, unassigned, 4000, 667, 3333, some 90000000, none, none, none, none, 1⟩
    inspectors := (Table.empty.set 7 ⟨true, true, true, some 1, 0, none, none, true, 300⟩).set 8
      ⟨true, true, true, some 2, 0, none, none, true, 300⟩
    nearby := fun _ _ => [⟨7, 100⟩, ⟨8, 200⟩] }

theorem atMostOne_unfilled : unfilled.AtMostOne (·.out unfilled.now) := by
  intro k k' r r' hr
  cases hr

/-- The sweep that starts a new round runs twice. -/
def twoRounds : Run (Nat → AskMemory) :=
  search unfilled [.redispatchUnfilledOrders 50, .redispatchUnfilledOrders 50]

/-- Whether an offer is a live one of the order. -/
def liveAt (order : OrderId) (k : OfferId) (g : Run (Nat → AskMemory)) : Bool :=
  (g.state.offers.get k).any fun r => r.orderId = order && r.live g.state.now

theorem liveAt_spec {order : OrderId} {k : OfferId} {g : Run (Nat → AskMemory)}
    (h : liveAt order k g) :
    ∃ r, g.state.offers.get k = some r ∧ r.orderId = order ∧ r.live g.state.now := by
  obtain ⟨r, hr, hlive⟩ := (Option.any_eq_true _ _).mp h
  simp only [Bool.and_eq_true, decide_eq_true_eq] at hlive
  exact ⟨r, hr, hlive⟩

/-- The sweep does not look whether an offer is out: its next round asks a second inspector while
the first still has time to answer. -/
theorem second_round_asks_another : ¬ LiveOfferLaw anyStep := by
  intro hlaw
  have hrun : Pool.observe machine recordAsks anyStep (fun g => (liveAt 1 0 g, liveAt 1 1 g))
      (goes 0 15 ++ goes 1 14) (.run 1 .ok) twoRounds = some ((true, true), (true, true)) := by
    decide +kernel
  obtain ⟨g, -, hg, -, -, hview, -⟩ := Pool.observe_eq hrun
  obtain ⟨hfirst, hsecond⟩ := Prod.mk.inj hview
  obtain ⟨r, hr, horder, hlive⟩ := liveAt_spec hfirst
  obtain ⟨r', hr', horder', hlive'⟩ := liveAt_spec hsecond
  have hone := hlaw unfilled _ g atMostOne_unfilled hg
  have hsame := hone 0 1 r r' hr hr' (horder.trans horder'.symm) hlive hlive'
  cases hsame

/-- The sweep starts a round, and the inspector it asked declines. -/
def declinedRound : Run (Nat → AskMemory) :=
  search unfilled [.redispatchUnfilledOrders 50, .declineOffer 0 7]

/-- The first inspector declines, the second has the one live offer. -/
theorem decline_asks_the_next : ∃ g : Run (Nat → AskMemory), liveAt 1 0 g = false ∧
    liveAt 1 1 g = true ∧ g.state.AtMostOne (·.live g.state.now) := by
  have hrun : Pool.observe machine recordAsks asksInTurn (fun g => (liveAt 1 0 g, liveAt 1 1 g))
      (goes 0 15 ++ goes 1 12) (.run 1 .ok) declinedRound =
        some ((false, false), (false, true)) := by
    decide +kernel
  obtain ⟨g, g', hg, hm, hs, -, hview⟩ := Pool.observe_eq hrun
  obtain ⟨hfirst, hsecond⟩ := Prod.mk.inj hview
  exact ⟨g', hfirst, hsecond, one_live_offer unfilled _ g' atMostOne_unfilled (.next hg hm hs)⟩

end CarSalePro
