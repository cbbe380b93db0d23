import CarSalePro.Laws.OneEnding
import CarSalePro.Orders.Ledger

namespace CarSalePro

open Store Interleave Prog OrderStatus

/-- The percentages an operator may set. -/
structure Settings.Fair (s : Settings) : Prop where
  before : 0 ≤ s.refundBeforeAssignPercent ∧ s.refundBeforeAssignPercent ≤ 100
  after : 0 ≤ s.refundAfterAssignPercent ∧ s.refundAfterAssignPercent ≤ 100

/-- The statuses a payout is owed in. -/
def payableStatuses : List OrderStatus := [approved, completed]

/-- The statuses of an order whose money went back. -/
def returnedStatuses : List OrderStatus := [cancelled, refunded]

namespace Ledger

variable {T : Cents} {r : Order} {l : Ledger}

/-- The ledger of an order with row `r` and total `T`. -/
structure At (T : Cents) (r : Order) (l : Ledger) : Prop where
  row : l.row = some r
  total : r.totalCents = T
  percents : ∀ t, (l.settings t).Fair

/-- Nothing has been refunded, and nothing tried. -/
def Unrefunded (l : Ledger) : Prop := ∀ reason, l.refund reason = none

/-- There is no payout, and refunds for one reason only, within the total. -/
structure Owing (T : Cents) (reason : RefundReason) (l : Ledger) : Prop where
  payout : l.payout = none
  only : ∀ reason', (l.refund reason').isSome → reason' = reason
  bound : ∀ x, l.refund reason = some x → x.amountCents ≤ T

/-- What holds of the order's money at every moment. -/
inductive Apart (T : Cents) (l : Ledger) : Prop
  | unrefunded (r : Order) (at_ : At T r l) (free : l.Unrefunded)
  | owing (r : Order) (reason : RefundReason) (at_ : At T r l) (owed : Owing T reason l)

/-- What holds of it between operations. -/
inductive Rest (T : Cents) (l : Ledger) : Prop
  | clear (r : Order) (at_ : At T r l) (free : l.Unrefunded) (unpaid : l.payout = none)
  | payable (r : Order) (at_ : At T r l) (free : l.Unrefunded) (status : r.status ∈ payableStatuses)
  | closed (r : Order) (reason : RefundReason) (at_ : At T r l) (owed : Owing T reason l)
      (status : r.status ∈ returnedStatuses)

/-- A payout may be made. -/
def Payable (T : Cents) (l : Ledger) : Prop :=
  ∃ r, At T r l ∧ l.Unrefunded ∧ r.status ∈ payableStatuses

theorem Rest.apart (h : Rest T l) : Apart T l := by
  cases h with
  | clear r at_ free unpaid => exact .unrefunded r at_ free
  | payable r at_ free status => exact .unrefunded r at_ free
  | closed r reason at_ owed status => exact .owing r reason at_ owed

theorem Unrefunded.owing (h : l.Unrefunded) (hp : l.payout = none) (reason : RefundReason) :
    Owing T reason l where
  payout := hp
  only reason' h' := by rw [h reason'] at h'; cases h'
  bound x hx := by rw [h reason] at hx; cases hx

theorem Rest.row (h : Rest T l) : ∃ r, At T r l := by
  cases h with
  | clear r at_ free unpaid => exact ⟨r, at_⟩
  | payable r at_ free status => exact ⟨r, at_⟩
  | closed r reason at_ owed status => exact ⟨r, at_⟩

theorem Rest.payout (h : Rest T l) (hp : l.payout ≠ none) : Payable T l := by
  cases h with
  | clear r at_ free unpaid => exact absurd unpaid hp
  | payable r at_ free status => exact ⟨r, at_, free, status⟩
  | closed r reason at_ owed status => exact absurd owed.payout hp

/-- An order that is neither payable nor closed owes nobody anything yet. -/
theorem Rest.clean (h : Rest T l) (hr : l.row = some r) (hp : r.status ∉ payableStatuses)
    (hc : r.status ∉ returnedStatuses) : At T r l ∧ l.Unrefunded ∧ l.payout = none := by
  cases h with
  | clear r' at_ free unpaid =>
    cases hr.symm.trans at_.row
    exact ⟨at_, free, unpaid⟩
  | payable r' at_ free status =>
    cases hr.symm.trans at_.row
    exact absurd status hp
  | closed r' reason at_ owed status =>
    cases hr.symm.trans at_.row
    exact absurd status hc

/-- A refund row belongs to a closed order. -/
theorem Rest.refund (h : Rest T l) {reason : RefundReason} (hx : (l.refund reason).isSome) :
    ∃ r, At T r l ∧ Owing T reason l ∧ r.status ∈ returnedStatuses := by
  cases h with
  | clear r at_ free unpaid => rw [free reason] at hx; cases hx
  | payable r at_ free status => rw [free reason] at hx; cases hx
  | closed r reason' at_ owed status =>
    cases owed.only reason hx
    exact ⟨r, at_, owed, status⟩

/-- The row may change, as far as its total stays. -/
theorem At.setRow (h : At T r l) {r' : Order} (hr : r'.totalCents = r.totalCents) :
    At T r' { l with row := some r' } := ⟨rfl, hr.trans h.total, h.percents⟩

theorem Owing.update {reason : RefundReason} {x : Refund} (h : Owing T reason l)
    (hx : x.amountCents ≤ T) :
    Owing T reason { l with refund := Function.update l.refund reason (some x) } where
  payout := h.payout
  only reason' h' := by
    by_contra hne
    simp only [Function.update_of_ne hne] at h'
    exact hne (h.only reason' h')
  bound y hy := by
    simp only [Function.update_self, Option.some.injEq] at hy
    exact hy ▸ hx

theorem Owing.amend {reason reason' : RefundReason} {x x' : Refund} (h : Owing T reason l)
    (hx : l.refund reason' = some x) (hx' : x'.amountCents = x.amountCents) :
    Owing T reason { l with refund := Function.update l.refund reason' (some x') } := by
  cases h.only reason' (by rw [hx]; rfl)
  exact h.update (by rw [hx']; exact h.bound x hx)

end Ledger

open Ledger

/-- `p` keeps what holds between operations. -/
abbrev Keeps (o : OrderId) (T : Cents) {α : Type} (p : Act α) : Prop :=
  Serial machine (World.ledger o) upheld (Apart T) (Rest T) p (fun _ => Rest T) fun _ => Rest T

section Parts

variable {o : OrderId} {T : Cents} {r : Order} {α : Type} {X : Err → Ledger → Prop}

/-- What is said of the ledger survives all that is about other orders. -/
theorem serial_spares {P : Ledger → Prop} {p : Act α} (hp : p.Only (Stmt.spares o))
    (hI : ∀ l, P l → Apart T l) :
    Serial machine (World.ledger o) upheld (Apart T) P p (fun _ => P) fun _ => P :=
  Serial.only hp hI fun s c w hs _ hP => by rwa [show machine.exec = World.exec from rfl,
    World.ledger_spares hs]

theorem keeps_spares {p : Act α} (hp : p.Only (Stmt.spares o)) : Keeps o T p :=
  serial_spares hp fun _ => Rest.apart

theorem keeps_guarded {body : Act Bool} (h : Keeps o T body) :
    Serial machine (World.ledger o) upheld (Apart T) (Rest T) (guarded body) (fun _ => Rest T) X :=
  Discipline.Flow.catch h fun _ => Serial.pure fun _ hx => hx

theorem keeps_drop {p : Act α} (h : Keeps o T p) : Keeps o T (discard p) :=
  h.seq fun _ => Serial.pure fun _ hx => hx

/-- The read of an order. What it finds of order `o` is the row of the ledger. -/
theorem keeps_requireOrder (site : Site) (hs : site ≠ .retrievePaymentIntent) (id : OrderId) :
    Serial machine (World.ledger o) upheld (Apart T) (Rest T) (requireOrderAt site id)
      (fun order l => Rest T l ∧ (id = o → l.row = some order)) fun _ => Rest T := by
  have hread : Serial machine (World.ledger o) upheld (Apart T) (Rest T)
      (fetch site (·.orders.get id) : Act (Option Order))
      (fun found l => Rest T l ∧ (id = o → l.row = found)) fun _ => Rest T :=
    Serial.read hs (fun _ => Rest.apart) fun w hw => ⟨hw, fun he => he ▸ rfl⟩
  refine hread.seq fun found => ?_
  cases found with
  | some order => exact Serial.pure fun _ hx => hx
  | none => exact Serial.throw fun _ hx => hx.1

/-- A status is changed along an allowed edge, or the transition is refused; nothing else of the
ledger moves. -/
theorem serial_transition {J : Ledger → Prop}
    (target : OrderStatus) (actor : Actor) (hplain : target ≠ assigned)
    (hJ : ∀ l r', J l → J { l with row := some r' })
    (hI : ∀ r' l, At T r' l → J l → Apart T l) :
    Serial machine (World.ledger o) upheld (Apart T) (fun l => At T r l ∧ J l)
      (transition o target actor)
      (fun _ l => J l ∧ (At T r l ∧ r.status = target ∨
        canTransition r.status target ∧ At T { r with status := target } l))
      fun _ l => (At T r l ∧ J l) ∧ canTransition r.status target = false := by
  have hread : Serial machine (World.ledger o) upheld (Apart T)
      (fun l => At T r l ∧ J l) (requireOrderAt .transition o)
      (fun order l => (At T r l ∧ J l) ∧ order = r)
      fun _ l => (At T r l ∧ J l) ∧ canTransition r.status target = false := by
    have hfetch : Serial machine (World.ledger o) upheld (Apart T)
        (fun l => At T r l ∧ J l)
        (fetch .transition (·.orders.get o) : Act (Option Order))
        (fun found l => (At T r l ∧ J l) ∧ found = some r)
        fun _ l => (At T r l ∧ J l) ∧ canTransition r.status target = false :=
      Serial.read (by decide) (fun l hl => hI r l hl.1 hl.2) fun w hw => ⟨hw, hw.1.row⟩
    refine hfetch.seq fun found => Serial.fact fun hf => ?_
    subst hf
    exact Serial.pure fun _ hx => ⟨hx, rfl⟩
  refine hread.seq fun order => Serial.fact fun ho => ?_
  subst ho
  by_cases hst : order.status = target
  · rw [if_pos hst]
    exact Serial.pure fun l hl => ⟨hl.2, .inl ⟨hl.1, hst⟩⟩
  · rw [if_neg hst]
    by_cases hlegal : canTransition order.status target
    · rw [dif_pos hlegal]
      have hwrite : Serial machine (World.ledger o) upheld (Apart T)
          (fun l => At T order l ∧ J l)
          (issue (.order (.transition o order.status target hlegal)))
          (fun _ l => At T { order with status := target } l ∧ J l)
          fun _ l => (At T order l ∧ J l) ∧
            canTransition order.status target = false := by
        refine Serial.issue rfl fun c w hc hP => ?_
        have hu : (OrderStmt.transition o order.status target hlegal).order = o := rfl
        rcases World.ledger_order hu hP.1.row hc with ⟨hn, _⟩ | ⟨r', hr', ha, hl⟩
        · cases hn
        · cases hr'
          have hat : At T { order with status := target }
              { w.ledger o with row := some { order with status := target } } := hP.1.setRow rfl
          rw [ha, hl]
          exact ⟨hI _ _ hat (hJ _ _ hP.2), hat, hJ _ _ hP.2⟩
      refine hwrite.seq fun _ => ?_
      have hafter : Serial machine (World.ledger o) upheld (Apart T)
          (fun l => At T { order with status := target } l ∧ J l)
          (writeEvent o actor .statusChange (some order.status) (some target) none)
          (fun _ l => At T { order with status := target } l ∧ J l)
          fun _ l => (At T order l ∧ J l) ∧
            canTransition order.status target = false := by
        refine Serial.issue rfl fun c w hc hP => ?_
        have hsame : (World.exec (.event ⟨o, actor, .statusChange, some order.status, some target,
            none⟩) c w).2.ledger o = w.ledger o := World.ledger_spares trivial
        rw [hsame]
        refine ⟨hI _ _ hP.1 hP.2, ?_⟩
        simp only [World.exec, hc, if_false, World.write]
        exact hP
      refine hafter.seq fun _ => ?_
      rw [Prog.when, if_neg hplain]
      exact Discipline.Flow.ret fun _ hx l hl => ⟨(hx l hl).2, .inr ⟨hlegal, (hx l hl).1⟩⟩
    · rw [dif_neg hlegal]
      exact Serial.throw fun l hl => ⟨hl, by simpa using hlegal⟩

/-- A transition from a class of statuses no allowed edge leads out of. -/
theorem keeps_within {J : Ledger → Prop} {K : OrderStatus → Prop} (target : OrderStatus)
    (actor : Actor) (hplain : target ≠ assigned) (hJ : ∀ l r', J l → J { l with row := some r' })
    (hK : ∀ s t, K s → canTransition s t → K t)
    (hrest : ∀ r l, At T r l → J l → K r.status → Rest T l)
    (hI : ∀ r l, At T r l → J l → Apart T l) :
    Serial machine (World.ledger o) upheld (Apart T) (fun l => ∃ r, (At T r l ∧ J l) ∧ K r.status)
      (transition o target actor) (fun _ => Rest T) fun _ => Rest T := by
  refine Serial.cases fun r => Serial.fact fun hs => ?_
  refine (serial_transition target actor hplain hJ hI).post (fun _ l h => ?_)
    fun _ l h => hrest r l h.1.1 h.1.2 hs
  rcases h.2 with ⟨ha, _⟩ | ⟨hlegal, ha⟩
  · exact hrest r l ha h.1 hs
  · exact hrest _ l ha h.1 (hK _ _ hs hlegal)

theorem payable_closed {s t : OrderStatus} (hs : s ∈ payableStatuses) (ht : canTransition s t) :
    t ∈ payableStatuses := by
  revert hs ht
  cases s <;> cases t <;> decide

theorem payable_open {s : OrderStatus} (hs : s ∈ payableStatuses) : s ∉ returnedStatuses := by
  revert hs
  cases s <;> decide

theorem closed_closed {s t : OrderStatus} (hs : s ∈ returnedStatuses) (ht : canTransition s t) :
    t ∈ returnedStatuses := by
  revert hs ht
  cases s <;> cases t <;> decide

/-- The transition of any order, from one rest to another. -/
theorem keeps_transition (id : OrderId) (target : OrderStatus) (actor : Actor)
    (hplain : target ≠ assigned) : Keeps o T (transition id target actor) := by
  by_cases hid : id = o
  · subst hid
    have hclear := keeps_within (o := id) (T := T) (J := fun l => l.Unrefunded ∧ l.payout = none)
      (K := fun _ => True) target actor hplain (fun _ _ h => h) (fun _ _ _ _ => trivial)
      (fun r l ha h _ => .clear r ha h.1 h.2) fun r l ha h => .unrefunded r ha h.1
    have hpayable := keeps_within (o := id) (T := T) (J := Unrefunded)
      (K := (· ∈ payableStatuses)) target actor hplain (fun _ _ h => h)
      (fun _ _ => payable_closed) (fun r l ha h hs => .payable r ha h hs)
      fun r l ha h => .unrefunded r ha h
    have hclosed (reason : RefundReason) := keeps_within (o := id) (T := T) (J := Owing T reason)
      (K := (· ∈ returnedStatuses)) target actor hplain (fun _ _ h => ⟨h.payout, h.only, h.bound⟩)
      (fun _ _ => closed_closed) (fun r l ha h hs => .closed r reason ha h hs)
      fun r l ha h => .owing r reason ha h
    refine (hclear.either (hpayable.either (Serial.cases hclosed))).pre fun l h => ?_
    cases h with
    | clear r at_ free unpaid => exact .inl ⟨r, ⟨at_, free, unpaid⟩, trivial⟩
    | payable r at_ free status => exact .inr (.inl ⟨r, ⟨at_, free⟩, status⟩)
    | closed r reason at_ owed status => exact .inr (.inr ⟨reason, r, ⟨at_, owed⟩, status⟩)
  · exact keeps_spares (only_transition id target actor (fun _ _ => hid) (fun _ => trivial)
      fun _ => hid)

/-- A refund of the one reason there may be, within the total. Its errors end in the outcome. -/
theorem serial_settle {reason : RefundReason} {amountCents : Cents} (hle : amountCents ≤ T) :
    Serial machine (World.ledger o) upheld (Apart T) (fun l => At T r l ∧ Owing T reason l)
      (settleRefund o amountCents reason) (fun _ l => At T r l ∧ Owing T reason l) X := by
  have hinner : Serial machine (World.ledger o) upheld (Apart T)
      (fun l => At T r l ∧ Owing T reason l) (settleRefundInner o amountCents reason)
      (fun _ l => At T r l ∧ Owing T reason l) fun _ l => At T r l ∧ Owing T reason l := by
    have honly : (settleRefundInner o amountCents reason).Only
        fun s => ∃ k i, RefundOf o reason amountCents k i s :=
      only_settleRefundInner o reason amountCents fun k i s h => ⟨k, i, h⟩
    refine Serial.only honly (fun l h => .owing r reason h.1 h.2) fun s c w hs hok hP => ?_
    obtain ⟨k, i, hs, ha⟩ := hs
    have hspared (h : s.spares o) : At T r ((World.exec s c w).2.ledger o) ∧
        Owing T reason ((World.exec s c w).2.ledger o) := by
      rwa [World.ledger_spares h]
    cases hs with
    | upsert row =>
      have hc : c ≠ .down := by simpa [upheld, databaseUp, Stmt.touchesProvider] using hok
      obtain ⟨_, hl⟩ := World.ledger_upsertRefund (o := o) (w := w) reason row hc
      rw [show machine.exec = World.exec from rfl, hl]
      refine ⟨⟨hP.1.row, hP.1.total, hP.1.percents⟩, hP.2.update ?_⟩
      exact (show row.amountCents = amountCents from ha) ▸ hle
    | _ => exact hspared trivial
  exact Discipline.Flow.catch hinner fun _ => Serial.pure fun _ hx => hx

/-- Where a payout is owed, paying keeps it so. -/
theorem serial_pay {p : Act α} (hp : p.Only (PayStmt o)) :
    Serial machine (World.ledger o) upheld (Apart T) (Payable T) p (fun _ => Payable T)
      fun _ => Payable T := by
  refine Serial.only hp (fun l ⟨r, ha, hf, _⟩ => .unrefunded r ha hf) fun s c w hs hok hP => ?_
  obtain ⟨r, ha, hf, hst⟩ := hP
  have hspared (h : s.spares o) : Payable T ((World.exec s c w).2.ledger o) := by
    rw [World.ledger_spares h]
    exact ⟨r, ha, hf, hst⟩
  cases hs with
  | payout u hu =>
    rcases World.ledger_payout (o := o) u c w with hl | ⟨p, _, _, hl⟩
    · exact hl ▸ ⟨r, ha, hf, hst⟩
    · exact hl ▸ ⟨r, ⟨ha.row, ha.total, ha.percents⟩, hf, hst⟩
  | completed source legal =>
    have hc : c ≠ .down := by simpa [upheld, databaseUp, Stmt.touchesProvider] using hok
    have hu : (OrderStmt.transition o source completed legal).order = o := rfl
    rcases World.ledger_order hu ha.row hc with ⟨hn, _⟩ | ⟨r', hr', _, hl⟩
    · cases hn
    · cases hr'
      exact hl ▸ ⟨_, ha.setRow rfl, hf, by simp [payableStatuses]⟩
  | transfer amountCents => exact hspared trivial
  | event e => exact hspared trivial

theorem payable_rest {l : Ledger} (h : Payable T l) : Rest T l := by
  obtain ⟨r, ha, hf, hs⟩ := h
  exact .payable r ha hf hs

/-- A statement that only changes a payout there is. -/
theorem rest_payout {u : PayoutStmt} {c : Fate} {w : World} (hu : ∀ now, u.rewrite now none = none)
    (h : Rest T (w.ledger o)) : Rest T ((World.exec (.payout u) c w).2.ledger o) := by
  rcases World.ledger_payout (o := o) u c w with hl | ⟨p, _, hp, hl⟩
  · rwa [hl]
  · have hsome : (w.ledger o).payout ≠ none := by
      intro hn
      rw [hn, hu] at hp
      cases hp
    obtain ⟨r, ha, hf, hs⟩ := h.payout hsome
    rw [hl]
    exact .payable r ⟨ha.row, ha.total, ha.percents⟩ hf hs

theorem keeps_amend {p : Act α} {u : PayoutStmt} (hp : p.Only (· = .payout u))
    (hu : ∀ now, u.rewrite now none = none) : Keeps o T p :=
  Serial.only hp (fun _ => Rest.apart) fun _ _ _ hs _ hP => hs ▸ rest_payout hu hP

theorem keeps_skipPayout (id : OrderId) (reason : String) : Keeps o T (skipPayout id reason) :=
  keeps_amend (u := .skip id) (Only.seq (only_issue rfl) fun _ => only_pure _) fun _ => rfl

theorem pay_spares {id : OrderId} (hid : id ≠ o) {s : Stmt} (hs : PayStmt id s) : s.spares o := by
  cases hs with
  | payout u hu => exact fun h => hid (hu.symm.trans h)
  | transfer amountCents => trivial
  | completed source legal => exact hid
  | event e => trivial

/-- A read of the row of order `id`, whatever it finds of other orders. -/
theorem keeps_findOrder (site : Site) (hs : site ≠ .retrievePaymentIntent) (id : OrderId) :
    Serial machine (World.ledger o) upheld (Apart T) (Rest T)
      (fetch site (·.orders.get id) : Act (Option Order))
      (fun found l => Rest T l ∧ (id = o → l.row = found)) X :=
  Serial.read hs (fun _ => Rest.apart) fun _ hw => ⟨hw, fun he => he ▸ rfl⟩

theorem keeps_releasePayout (id : OrderId) : Keeps o T (releasePayout id) := by
  by_cases hid : id = o
  · subst hid
    refine (keeps_findOrder .releasePayout (by decide) id).seq fun found => ?_
    cases found with
    | none => exact (keeps_skipPayout id _).pre fun _ h => h.1
    | some order =>
      by_cases hst : order.status ≠ approved ∧ order.status ≠ completed
      · simp only [if_pos hst]
        exact (keeps_skipPayout id _).pre fun _ h => h.1
      · have hpayable : order.status ∈ payableStatuses := by
          revert hst
          cases order.status <;> decide
        have honly := only_releasePayout id (.ok (some order))
        refine (serial_pay honly).weaken (fun l h => ?_) (fun _ _ => payable_rest)
          fun _ _ => payable_rest
        have hrow : l.row = some order := h.2 rfl
        cases h.1 with
        | clear r at_ free unpaid =>
          cases hrow.symm.trans at_.row
          exact ⟨_, at_, free, hpayable⟩
        | payable r at_ free status => exact ⟨r, at_, free, status⟩
        | closed r reason at_ owed status =>
          cases hrow.symm.trans at_.row
          exact absurd status (payable_open hpayable)
  · exact keeps_spares ((only_releasePayout id).mono fun _ => pay_spares hid)

theorem refund_spares {id : OrderId} (hid : id ≠ o) {reason : RefundReason} {k : PaymentId}
    {i : Option IntentId} {s : Stmt} (hs : RefundStmt id reason k i s) : s.spares o := by
  cases hs with
  | upsert row => exact hid
  | _ => trivial

/-- A refund of another order. Its errors end in the outcome. -/
theorem serial_settleOther {P : Ledger → Prop} {id : OrderId} (hid : id ≠ o) (amountCents : Cents)
    (reason : RefundReason) (hI : ∀ l, P l → Apart T l) :
    Serial machine (World.ledger o) upheld (Apart T) P (settleRefund id amountCents reason)
      (fun _ => P) X := by
  have hinner : (settleRefundInner id amountCents reason).Only (Stmt.spares o) :=
    only_settleRefundInner id reason amountCents fun _ _ _ hs => refund_spares hid hs.1
  exact Discipline.Flow.catch (serial_spares hinner hI) fun _ => Serial.pure fun _ hx => hx

/-- The order is closed, with refunds for this reason at most. -/
def Closed (T : Cents) (reason : RefundReason) (l : Ledger) : Prop :=
  ∃ r, (At T r l ∧ Owing T reason l) ∧ r.status ∈ returnedStatuses

theorem Closed.rest {reason : RefundReason} {l : Ledger} (h : Closed T reason l) : Rest T l := by
  obtain ⟨r, ⟨ha, ho⟩, hs⟩ := h
  exact .closed r reason ha ho hs

/-- A refund on a closed order, or on another one. -/
theorem serial_settleClosed {id : OrderId} {reason reason' : RefundReason} {amountCents : Cents}
    (h : id = o → reason' = reason ∧ amountCents ≤ T) :
    Serial machine (World.ledger o) upheld (Apart T) (Closed T reason)
      (settleRefund id amountCents reason') (fun _ => Closed T reason) X := by
  by_cases hid : id = o
  · subst hid
    obtain ⟨rfl, hle⟩ := h rfl
    refine Serial.cases fun r => Serial.fact fun hs => ?_
    exact (serial_settle hle).post (fun _ l hl => ⟨r, hl, hs⟩) fun _ _ h => h
  · exact serial_settleOther hid _ _ fun _ hl => hl.rest.apart

theorem serial_amendRefund (id : OrderId) {reason reason' : RefundReason} (a : RefundAmendment)
    (h : id = o → reason' = reason) :
    Serial machine (World.ledger o) upheld (Apart T) (Closed T reason)
      (issue (.amendRefund id reason' a)) (fun _ => Closed T reason) fun _ => Closed T reason := by
  by_cases hid : id = o
  · subst hid
    cases h rfl
    refine Serial.only (F := (· = .amendRefund id reason a)) (only_issue rfl)
      (fun _ hl => hl.rest.apart) fun s c w hs _ hP => ?_
    subst hs
    obtain ⟨r, ⟨ha, ho⟩, hst⟩ := hP
    rcases World.ledger_amendRefund (o := id) reason a c w with hl | ⟨x, hx, hl⟩
    · exact hl ▸ ⟨r, ⟨ha, ho⟩, hst⟩
    · have hamount : (a.amend w.now x).amountCents = x.amountCents := by cases a <;> rfl
      exact hl ▸ ⟨r, ⟨⟨ha.row, ha.total, ha.percents⟩, ho.amend hx hamount⟩, hst⟩
  · exact serial_spares (only_issue hid) fun _ hl => hl.rest.apart

/-- A guarded cancellation closes an order of which nothing was refunded or paid out. -/
theorem serial_cancelWhere (id : OrderId) (guard : CancelGuard) (reason : RefundReason) :
    Serial machine (World.ledger o) upheld (Apart T) (Rest T)
      (perform (.order (.cancelWhere id guard)))
      (fun n l => Rest T l ∧ (n ≠ 0 → id = o → Closed T reason l)) fun _ => Rest T := by
  by_cases hid : id = o
  · subst hid
    refine Serial.stmt rfl fun c w hc hP => ?_
    obtain ⟨r, ha⟩ := hP.row
    have hu : (OrderStmt.cancelWhere id guard).order = id := rfl
    rcases World.ledger_order hu ha.row hc with ⟨_, hans, hl⟩ | ⟨r', hr', hans, hl⟩
    · rw [hans, hl]
      exact ⟨hP.apart, hP, fun hn => absurd rfl hn⟩
    · simp only [OrderStmt.rewrite] at hr'
      split at hr'
      next hg =>
        cases hr'
        have hlegal := CancelGuard.legal hg
        have hclean : r.status ∉ payableStatuses ∧ r.status ∉ returnedStatuses := by
          revert hlegal
          cases r.status <;> decide
        obtain ⟨_, hf, hp⟩ := hP.clean ha.row hclean.1 hclean.2
        have hclosed : Closed T reason
            { w.ledger id with row := some { r with status := cancelled } } := by
          have howing := hf.owing (T := T) hp reason
          exact ⟨_, ⟨ha.setRow rfl, howing.payout, howing.only, howing.bound⟩,
            by simp [returnedStatuses]⟩
        rw [hans, hl]
        exact ⟨hclosed.rest.apart, hclosed.rest, fun _ _ => hclosed⟩
      next => cases hr'
  · refine Serial.stmt rfl fun c w hc hP => ?_
    have hsame : (World.exec (.order (.cancelWhere id guard)) c w).2.ledger o = w.ledger o :=
      World.ledger_spares hid
    rw [hsame]
    refine ⟨hP.apart, ?_⟩
    cases (World.exec (.order (.cancelWhere id guard)) c w).1 with
    | ok n => exact ⟨hP, fun _ ho => absurd ho hid⟩
    | error e => exact hP

/-- A payment of an ending under way: order `o` still has the row that was read, and refunds for
this reason at most. -/
def Pending (o id : OrderId) (T : Cents) (r : Order) (reason : RefundReason) (l : Ledger) : Prop :=
  (id = o ∧ At T r l ∧ Owing T reason l) ∨ (id ≠ o ∧ Rest T l)

theorem Pending.apart {id : OrderId} {reason : RefundReason} {l : Ledger}
    (h : Pending o id T r reason l) : Apart T l := by
  rcases h with ⟨_, ha, ho⟩ | ⟨_, hr⟩
  · exact .owing r reason ha ho
  · exact hr.apart

/-- An order that can still be closed has nothing refunded or paid out. -/
theorem Pending.start {id : OrderId} {reason : RefundReason} {target : OrderStatus} {l : Ledger}
    (h : Rest T l) (hrow : id = o → l.row = some r) (hlegal : canTransition r.status target)
    (htarget : target ∈ returnedStatuses) (hst : r.status ∉ returnedStatuses) :
    Pending o id T r reason l := by
  by_cases hid : id = o
  · have hopen : r.status ∉ payableStatuses := fun hp =>
      payable_open (payable_closed hp hlegal) htarget
    obtain ⟨ha, hf, hp⟩ := h.clean (hrow hid) hopen hst
    exact .inl ⟨hid, ha, hf.owing hp reason⟩
  · exact .inr ⟨hid, h⟩

theorem pending_settle {id : OrderId} {reason : RefundReason} {amountCents : Cents}
    (h : r.totalCents = T → amountCents ≤ T) :
    Serial machine (World.ledger o) upheld (Apart T) (Pending o id T r reason)
      (settleRefund id amountCents reason) (fun _ => Pending o id T r reason) X := by
  by_cases hid : id = o
  · subst hid
    have hown : Serial machine (World.ledger id) upheld (Apart T)
        (fun l => (At T r l ∧ Owing T reason l) ∧ r.totalCents = T)
        (settleRefund id amountCents reason) (fun _ => Pending id id T r reason) X := by
      refine Serial.fact fun hT => ?_
      exact (serial_settle (h hT)).post (fun _ l hl => .inl ⟨rfl, hl⟩) fun _ _ h => h
    refine hown.pre fun l hl => ?_
    rcases hl with ⟨_, hl⟩ | ⟨hne, _⟩
    · exact ⟨hl, hl.1.total⟩
    · exact absurd rfl hne
  · exact serial_settleOther hid _ _ fun _ hl => hl.apart

theorem pending_settleIntended {id : OrderId} {reason : RefundReason} {amountCents : Cents}
    (h : r.totalCents = T → amountCents ≤ T) :
    Serial machine (World.ledger o) upheld (Apart T) (Pending o id T r reason)
      (settleIntended id amountCents reason) (fun _ => Pending o id T r reason) X :=
  .ite (fun _ => (pending_settle h).seq fun _ => Serial.pure fun _ hl => hl)
    fun _ => Serial.pure fun _ hl => hl

/-- The status that closes the order is written, or was there. -/
theorem pending_close {id : OrderId} {reason : RefundReason} {target : OrderStatus} {actor : Actor}
    (hlegal : canTransition r.status target) (htarget : target ∈ returnedStatuses) :
    Serial machine (World.ledger o) upheld (Apart T) (Pending o id T r reason)
      (transition id target actor) (fun _ => Rest T) fun _ => Rest T := by
  have hplain : target ≠ assigned := by
    intro he
    subst he
    revert htarget
    decide
  by_cases hid : id = o
  · subst hid
    have hown := serial_transition (o := id) (r := r) (J := Owing T reason) target actor hplain
      (fun _ _ h => ⟨h.payout, h.only, h.bound⟩) fun r' l ha ho => .owing r' reason ha ho
    refine hown.weaken (fun l hl => ?_) (fun _ l hl => ?_) fun _ l hl => ?_
    · rcases hl with ⟨_, hl⟩ | ⟨hne, _⟩
      · exact hl
      · exact absurd rfl hne
    · rcases hl.2 with ⟨ha, hs⟩ | ⟨_, ha⟩
      · exact .closed r reason ha hl.1 (hs ▸ htarget)
      · exact .closed _ reason ha hl.1 htarget
    · rw [hlegal] at hl
      cases hl.2
  · refine (keeps_transition id target actor hplain).pre fun l hl => ?_
    rcases hl with ⟨ho, _⟩ | ⟨_, hr⟩
    · exact absurd ho hid
    · exact hr

end Parts

/-- A percentage of the total is within it. -/
theorem percentOf_le {T : Cents} {percent : ℚ} (hT : 0 ≤ T) (hp : percent ≤ 100) :
    percentOf T percent ≤ T := by
  have hle : (T : ℚ) * percent / 100 ≤ T := by
    have hmul : (T : ℚ) * percent ≤ T * 100 :=
      mul_le_mul_of_nonneg_left hp (by exact_mod_cast hT)
    linarith
  have hround : mathRound ((T : ℚ) * percent / 100) ≤ ⌊(T : ℚ) + 1 / 2⌋ :=
    Int.floor_le_floor (by linarith)
  have htotal : ⌊(T : ℚ) + 1 / 2⌋ = T := by
    rw [Int.floor_eq_iff]
    constructor <;> linarith
  exact hround.trans_eq htotal

section Operations

variable {o : OrderId} {T : Cents} {α : Type}

/-- The row that was read, and what it says of the total. -/
theorem keeps_require (id : OrderId) :
    Serial machine (World.ledger o) upheld (Apart T) (Rest T) (requireOrder id)
      (fun order l => (Rest T l ∧ (id = o → l.row = some order)) ∧
        (id = o → order.totalCents = T)) fun _ => Rest T := by
  have hread := keeps_requireOrder (o := o) (T := T) .requireOrder (by decide) id
  refine hread.post (fun order l hl => ⟨hl, fun hid => ?_⟩) fun _ _ hl => hl
  obtain ⟨r, ha⟩ := hl.1.row
  cases (hl.2 hid).symm.trans ha.row
  exact ha.total

/-- A read of nothing the ledger is about. -/
theorem keeps_look {l : Site} {f : World → α} (hl : l ≠ .retrievePaymentIntent) :
    Keeps o T (fetch l f : Act α) := Serial.look hl fun _ => Rest.apart

/-- The refund and the status of the customer's cancellation. -/
theorem keeps_settleAndCancel (hT : 0 ≤ T) (id : OrderId) (order : Order) (pick : Settings → ℚ)
    (reason : RefundReason) (actor : Actor) (hpick : ∀ s : Settings, s.Fair → pick s ≤ 100)
    (hlegal : canTransition order.status cancelled) :
    Serial machine (World.ledger o) upheld (Apart T)
      (fun l => Rest T l ∧ (id = o → l.row = some order))
      (do
        let settings ← readSettings
        settleAndCancel id (percentOf order.totalCents (pick settings)) reason actor)
      (fun _ => Rest T) fun _ => Rest T := by
  have hread : Serial machine (World.ledger o) upheld (Apart T)
      (fun l => Rest T l ∧ (id = o → l.row = some order)) readSettings
      (fun settings l => (Rest T l ∧ (id = o → l.row = some order)) ∧ settings.Fair)
      fun _ => Rest T :=
    Serial.read (by decide) (fun _ hl => hl.1.apart) fun w hw => by
      obtain ⟨r, ha⟩ := hw.1.row
      exact ⟨hw, ha.percents w.now⟩
  refine hread.seq fun settings => Serial.fact fun hfair => ?_
  have hle (htotal : order.totalCents = T) : percentOf order.totalCents (pick settings) ≤ T := by
    rw [htotal]
    exact percentOf_le hT (hpick _ hfair)
  have hopen : order.status ∉ returnedStatuses := by
    revert hlegal
    cases order.status <;> decide
  refine Serial.pre (P := Pending o id T order reason) ?_
    fun l hl => Pending.start hl.1 hl.2 hlegal (by decide) hopen
  refine (pending_settle hle).seq fun outcome => ?_
  exact (pending_close hlegal (by decide)).seq fun _ => Serial.pure fun _ hx => hx

theorem keeps_cancel (hT : 0 ≤ T) (id : OrderId) (user : UserId) : Keeps o T (cancel id user) := by
  refine (keeps_require id).seq fun order => ?_
  refine .ite (fun _ => Serial.throw fun _ hl => hl.1.1) fun _ => ?_
  refine .ite (fun hs => ?_) fun _ => .ite (fun hs => ?_) fun _ => Serial.throw fun _ hl => hl.1.1
  · have hlegal : canTransition order.status cancelled := by
      revert hs
      cases order.status <;> decide
    exact (keeps_settleAndCancel hT id order _ .cancelBeforeAssign _ (fun _ h => h.before.2)
      hlegal).pre fun _ hl => hl.1
  · have hlegal : canTransition order.status cancelled := by
      revert hs
      cases order.status <;> decide
    exact (keeps_settleAndCancel hT id order _ .cancelAfterAssign _ (fun _ h => h.after.2)
      hlegal).pre fun _ hl => hl.1

theorem clamp_le (percent : ℚ) : clampPercent percent ≤ 100 :=
  max_le (by norm_num) (min_le_left _ _)

theorem keeps_adminCancel (hT : 0 ≤ T) (id : OrderId) (percent : ℚ) (admin : UserId) :
    Keeps o T (adminCancel id percent admin) := by
  refine (keeps_require id).seq fun order => ?_
  refine .ite (fun _ => Serial.throw fun _ hl => hl.1.1) fun hlegal => ?_
  have hlegal : canTransition order.status cancelled := by simpa using hlegal
  have hopen : order.status ∉ returnedStatuses := by
    revert hlegal
    cases order.status <;> decide
  have hle (htotal : order.totalCents = T) :
      percentOf order.totalCents (clampPercent percent) ≤ T := by
    rw [htotal]
    exact percentOf_le hT (clamp_le percent)
  refine Serial.pre (P := Pending o id T order .admin) ?_
    fun l hl => Pending.start hl.1.1 hl.1.2 hlegal (by decide) hopen
  refine (pending_settleIntended hle).seq fun outcome => ?_
  refine (pending_close hlegal (by decide)).seq fun _ => ?_
  have hdecision : Keeps o T (recordAdminDecision id admin) :=
    keeps_spares (Only.quietly (only_note _ _ _ fun _ => trivial))
  exact hdecision.seq fun _ => Serial.pure fun _ hx => hx

/-- The refund of an order a guarded write has just cancelled. -/
theorem keeps_refundClaimed {id : OrderId} {reason : RefundReason} {amountCents : Cents}
    (hle : id = o → amountCents ≤ T) :
    Serial machine (World.ledger o) upheld (Apart T)
      (fun l => Rest T l ∧ (id = o → Closed T reason l)) (settleRefund id amountCents reason)
      (fun _ => Rest T) fun _ => Rest T := by
  by_cases hid : id = o
  · refine (serial_settleClosed fun ho => ⟨rfl, hle ho⟩).weaken (fun l hl => hl.2 hid)
      (fun _ _ hl => hl.rest) fun _ _ h => h
  · exact (serial_settleOther hid _ _ fun _ => Rest.apart).pre fun _ hl => hl.1

/-- A guarded write cancels the order, and what follows it is paid for. -/
theorem keeps_claimAndRefund {id : OrderId} {guard : CancelGuard} {reason : RefundReason}
    {amountCents : Cents} (hle : id = o → amountCents ≤ T) {missed : Act α}
    {k : RefundOutcome → Act α} (hmissed : Keeps o T missed)
    (hk : ∀ outcome, Keeps o T (k outcome)) :
    Keeps o T (do
      let claimed ← perform (.order (.cancelWhere id guard))
      if claimed = 0 then missed
      else do
        let outcome ← settleRefund id amountCents reason
        k outcome) := by
  refine (serial_cancelWhere id guard reason).seq fun claimed => ?_
  refine .ite (fun _ => hmissed.pre fun _ hl => hl.1) fun hn => ?_
  have hrefund : Serial machine (World.ledger o) upheld (Apart T)
      (fun l => Rest T l ∧ (id = o → Closed T reason l)) (settleRefund id amountCents reason)
      (fun _ => Rest T) fun _ => Rest T := keeps_refundClaimed hle
  exact Serial.pre (hrefund.seq hk) fun l hl => ⟨hl.1, hl.2 hn⟩

theorem keeps_throw {e : Err} : Keeps o T (throw e : Act α) := Serial.throw fun _ hx => hx

theorem keeps_pure {a : α} : Keeps o T (pure a : Act α) := Serial.pure fun _ hx => hx

theorem keeps_events (id : OrderId) (actor : Actor) (type : EventType) (source : OrderStatus) :
    Keeps o T (recordClaimedCancellation id actor type source) :=
  keeps_spares (Only.seq (only_issue trivial) fun _ => only_issue trivial)

theorem keeps_declineByInspector (id : OrderId) (user : UserId) (reason : String) :
    Keeps o T (declineByInspector id user reason) := by
  refine (keeps_require id).seq fun order => Serial.fact fun htotal => ?_
  refine .ite (fun _ => Serial.throw fun _ hl => hl.1) fun _ => ?_
  refine .ite (fun _ => Serial.throw fun _ hl => hl.1) fun _ => ?_
  refine .ite (fun _ => Serial.throw fun _ hl => hl.1) fun _ => ?_
  refine Serial.pre (keeps_claimAndRefund (fun ho => (htotal ho).le) keeps_throw fun outcome => ?_)
    fun _ hl => hl.1
  refine (keeps_events _ _ _ _).seq fun _ => ?_
  have hcount : Keeps o T (countInspectorCancellation user) :=
    keeps_spares (Only.quietly ((only_perform _).mpr trivial))
  exact hcount.seq fun _ => keeps_pure

theorem keeps_recordOwnerContact (id : OrderId) (user : UserId) :
    Keeps o T (recordOwnerContact id user false) := by
  refine (keeps_require id).seq fun order => Serial.fact fun htotal => ?_
  refine .ite (fun _ => Serial.throw fun _ hl => hl.1) fun _ => ?_
  refine .ite (fun h => by cases h) fun _ => ?_
  refine Serial.pre (keeps_claimAndRefund (fun ho => (htotal ho).le) keeps_throw fun outcome => ?_)
    fun _ hl => hl.1
  exact (keeps_events _ _ _ _).seq fun _ => keeps_pure

theorem keeps_note (id : OrderId) (actor : Actor) (type : EventType) :
    Keeps o T (note id actor type) := keeps_spares (only_note _ _ _ fun _ => trivial)

theorem keeps_sweepAbandonedInspections : Keeps o T sweepAbandonedInspections := by
  refine (keeps_look (by decide)).seq fun now => ?_
  have hsettings : Keeps o T (quietly readSettings) :=
    Discipline.Flow.quietly (keeps_look (by decide))
  refine hsettings.seq fun _ => ?_
  have hread : Serial machine (World.ledger o) upheld (Apart T) (Rest T)
      (fetch .sweepAbandonedInspections fun w => w.orders.findMany fun _ r =>
        r.status ∈ afterAssignStatuses && r.inspectionDeadlineAt.any (· < now) :
        Act (List (OrderId × Order)))
      (fun stale l => Rest T l ∧ ∀ x ∈ stale, x.1 = o → x.2.totalCents = T) fun _ => Rest T := by
    refine Serial.read (by decide) (fun _ => Rest.apart) fun w hw => ⟨hw, fun x hx ho => ?_⟩
    obtain ⟨r, ha⟩ := hw.row
    have hget : w.orders.get o = some x.2 := ho ▸ (Table.mem_findMany.mp hx).1
    cases ha.row.symm.trans hget
    exact ha.total
  refine hread.seq fun stale => Serial.fact fun hstale => ?_
  refine Discipline.Flow.countEach fun x hx => keeps_guarded ?_
  refine keeps_claimAndRefund (fun ho => (hstale x hx ho).le) keeps_pure fun outcome => ?_
  refine (keeps_note _ _ _).seq fun _ => ?_
  have hevent : Keeps o T (writeEvent x.1 .system .statusChange (some x.2.status) (some cancelled)
      none) := keeps_spares (only_issue trivial)
  refine hevent.seq fun _ => ?_
  split
  next inspector _ =>
    have hcount : Keeps o T (countInspectorCancellation inspector) :=
      keeps_spares (Only.quietly ((only_perform _).mpr trivial))
    exact hcount.seq fun _ => keeps_pure
  next => exact keeps_pure

theorem keeps_approve (id : OrderId) (user : UserId) : Keeps o T (approve id user) := by
  refine (keeps_require id).seq fun order => Serial.pre ?_ fun _ hl => hl.1.1
  refine .ite (fun _ => keeps_throw) fun _ => ?_
  refine (keeps_transition id approved _ (by decide)).seq fun _ => ?_
  refine (keeps_releasePayout id).seq fun _ => ?_
  exact (keeps_require id).seq fun _ => Serial.pure fun _ hl => hl.1.1

theorem keeps_dispute (id : OrderId) (user : UserId) (reason : String) :
    Keeps o T (dispute id user reason) := by
  refine (keeps_require id).seq fun order => Serial.pre ?_ fun _ hl => hl.1.1
  refine .ite (fun _ => keeps_throw) fun _ => ?_
  exact (keeps_transition id disputed _ (by decide)).seq fun _ => keeps_spares (only_issue trivial)

theorem keeps_autoApproveOverdue : Keeps o T autoApproveOverdue := by
  refine (keeps_look (by decide)).seq fun overdue => Discipline.Flow.seq ?_ fun _ => keeps_pure
  refine Discipline.Flow.forEach fun x _ => ?_
  refine (keeps_transition x.1 approved _ (by decide)).seq fun _ => ?_
  exact (keeps_releasePayout x.1).seq fun _ => keeps_pure

/-- What follows the decision of a dispute touches no money. -/
theorem keeps_closeAndRethrow (id : OrderId) (status : DisputeStatus) (admin : UserId)
    (moved : Except Err Unit) : Keeps o T (closeAndRethrow id status admin moved) := by
  have hclose : Keeps o T (closeDispute id status) :=
    keeps_spares (Only.quietly ((only_perform _).mpr trivial))
  have hdecision : Keeps o T (recordAdminDecision id admin) :=
    keeps_spares (Only.quietly (only_note _ _ _ fun _ => trivial))
  refine hclose.seq fun _ => hdecision.seq fun _ => ?_
  cases moved with
  | error err => exact keeps_throw
  | ok _ => exact (keeps_require id).post (fun _ _ hl => hl.1.1) fun _ _ h => h

/-- Trying something that keeps the rest, whatever comes of it. -/
theorem keeps_attempt {p : Act α} (h : Keeps o T p) : Keeps o T (attempt p) := by
  refine Discipline.Flow.post (Discipline.Flow.attempt h) (fun r _ hx => ?_) fun _ _ h => h
  cases r with
  | ok a => exact hx
  | error e => exact hx

theorem keeps_resolveDispute (hT : 0 ≤ T) (id : OrderId) (forCustomer : Bool) (admin : UserId)
    (percent : Option ℚ) : Keeps o T (resolveDispute id forCustomer admin percent) := by
  refine (keeps_require id).seq fun order => ?_
  refine .ite (fun _ => Serial.throw fun _ hl => hl.1.1) fun hst => ?_
  have hst : order.status = disputed := not_not.mp hst
  refine .ite (fun _ => ?_) fun _ => Serial.pre ?_ fun _ hl => hl.1.1
  · have hle (htotal : order.totalCents = T) :
        percentOf order.totalCents (clampPercent (percent.getD 100)) ≤ T := by
      rw [htotal]
      exact percentOf_le hT (clamp_le _)
    have hlegal : canTransition order.status refunded := by rw [hst]; decide
    have hopen : order.status ∉ returnedStatuses := by rw [hst]; decide
    refine Serial.pre (P := Pending o id T order .dispute) ?_
      fun l hl => Pending.start hl.1.1 hl.1.2 hlegal (by decide) hopen
    refine (pending_settleIntended hle).seq fun outcome => ?_
    have hmoved : Serial machine (World.ledger o) upheld (Apart T) (Pending o id T order .dispute)
        (attempt (transition id refunded (.admin admin))) (fun _ => Rest T) fun _ => Rest T := by
      have hturn : Serial machine (World.ledger o) upheld (Apart T) (Pending o id T order .dispute)
          (transition id refunded (.admin admin)) (fun _ => Rest T) fun _ => Rest T :=
        pending_close hlegal (by decide)
      have hclose := Discipline.Flow.attempt (X := fun _ A => ∀ l, A l → Rest T l) hturn
      refine Discipline.Flow.post hclose (fun r _ hx => ?_) fun _ _ h => h
      cases r with
      | ok a => exact hx
      | error e => exact hx
    refine hmoved.seq fun moved => ?_
    exact (keeps_closeAndRethrow _ _ _ _).seq fun _ => keeps_pure
  · have hmoved : Keeps o T (do
        transition id approved (.admin admin)
        let _ ← releasePayout id
        pure ()) :=
      (keeps_transition id approved _ (by decide)).seq fun _ =>
        (keeps_releasePayout id).seq fun _ => keeps_pure
    refine (keeps_attempt hmoved).seq fun moved => ?_
    refine (keeps_closeAndRethrow _ _ _ _).seq fun _ => ?_
    exact (keeps_look (by decide)).seq fun _ => keeps_pure

theorem keeps_retryStuckPayouts (limit : Nat) : Keeps o T (retryStuckPayouts limit) := by
  refine (keeps_look (by decide)).seq fun due => Discipline.Flow.countEach fun x _ => ?_
  refine keeps_guarded ((keeps_releasePayout x.1).seq fun outcome => ?_)
  split
  · exact keeps_pure
  · exact (keeps_look (by decide)).seq fun _ => keeps_pure

theorem keeps_adminRetryPayout (id : OrderId) : Keeps o T (adminRetryPayout id) := by
  refine (keeps_look (by decide)).seq fun found => ?_
  cases found with
  | none => exact keeps_throw
  | some payout =>
    refine .ite (fun _ => keeps_pure) fun _ => ?_
    have hnow : Keeps o T (issue (.payout (.retryNow id))) :=
      keeps_amend (only_issue rfl) fun _ => rfl
    refine hnow.seq fun _ => (keeps_releasePayout id).seq fun _ => ?_
    exact (keeps_look (by decide)).seq fun _ => keeps_pure

/-- The refund rows of order `o` that a read finds are all for one reason. -/
theorem refund_found {l : Ledger} {reason : RefundReason} {x : Refund} (h : Rest T l)
    (hx : l.refund reason = some x) : Closed T reason l ∧ x.amountCents ≤ T := by
  have hsome : (l.refund reason).isSome := by
    rw [hx]
    rfl
  obtain ⟨r, ha, ho, hs⟩ := h.refund hsome
  exact ⟨⟨r, ⟨ha, ho⟩, hs⟩, ho.bound x hx⟩

theorem serial_retryRefund {reason reason' : RefundReason} {id : OrderId} {amountCents : Cents}
    (h : id = o → reason' = reason ∧ amountCents ≤ T) :
    Serial machine (World.ledger o) upheld (Apart T) (Closed T reason)
      (retryRefund id reason' amountCents) (fun _ => Closed T reason) fun _ => Closed T reason := by
  have hlook {α : Type} {f : World → α} : Serial machine (World.ledger o) upheld (Apart T)
      (Closed T reason) (fetch .retryStuckRefunds f : Act α) (fun _ => Closed T reason)
      fun _ => Closed T reason := Serial.look (by decide) fun _ hl => hl.rest.apart
  have hstop := serial_amendRefund (T := T) id .terminate fun ho => (h ho).1
  refine hlook.seq fun found => ?_
  split
  · exact hstop.seq fun _ => Serial.pure fun _ hl => hl
  · refine (serial_settleClosed h).seq fun outcome => ?_
    split
    · exact Serial.pure fun _ hl => hl
    · exact hstop.seq fun _ => Serial.pure fun _ hl => hl
    · exact hstop.seq fun _ => Serial.pure fun _ hl => hl
    · exact Serial.pure fun _ hl => hl
    · exact Serial.pure fun _ hl => hl

/-- What a sweep knows of the refund rows it has read: those of order `o`, if there are any, are
for one reason and within the total. -/
def RefundsDue (o : OrderId) (T : Cents) (due : List ((OrderId × RefundReason) × Refund))
    (l : Ledger) : Prop :=
  (Rest T l ∧ ∀ x ∈ due, x.1.1 ≠ o) ∨ ∃ reason, Closed T reason l ∧
    ∀ x ∈ due, x.1.1 = o → x.1.2 = reason ∧ x.2.amountCents ≤ T

theorem RefundsDue.found {w : World} {due : List ((OrderId × RefundReason) × Refund)}
    (h : Rest T (w.ledger o)) (hdue : ∀ x ∈ due, w.refunds.get x.1 = some x.2) :
    RefundsDue o T due (w.ledger o) := by
  by_cases hown : ∃ x ∈ due, x.1.1 = o
  · obtain ⟨x, hx, ho⟩ := hown
    have hrow (y : (OrderId × RefundReason) × Refund) (hy : y ∈ due) (ho : y.1.1 = o) :
        (w.ledger o).refund y.1.2 = some y.2 := by
      subst ho
      exact hdue y hy
    obtain ⟨r, ⟨ha, howing⟩, hs⟩ := (refund_found h (hrow x hx ho)).1
    refine .inr ⟨x.1.2, ⟨r, ⟨ha, howing⟩, hs⟩, fun y hy hyo => ⟨?_, ?_⟩⟩
    · exact howing.only y.1.2 (by rw [hrow y hy hyo]; rfl)
    · exact (refund_found h (hrow y hy hyo)).2
  · exact .inl ⟨h, fun x hx ho => hown ⟨x, hx, ho⟩⟩

theorem keeps_retryStuckRefunds (limit : Nat) : Keeps o T (retryStuckRefunds limit) := by
  have hread : Serial machine (World.ledger o) upheld (Apart T) (Rest T)
      (fetch .retryStuckRefunds fun w => w.refunds.findSorted
        (fun _ r => r.status ≠ .settled && r.nextRetryAt.any (· ≤ w.now) &&
          r.attempts < moneyRetryMaxAttempts)
        (fun a b => earlierRetry a.nextRetryAt b.nextRetryAt) limit :
        Act (List ((OrderId × RefundReason) × Refund)))
      (RefundsDue o T) fun _ => Rest T :=
    Serial.read (by decide) (fun _ => Rest.apart) fun w hw =>
      RefundsDue.found hw fun x hx => (Table.mem_findSorted hx).1
  refine hread.seq fun due => Serial.either ?_ ?_
  · refine Serial.fact fun hother => Discipline.Flow.countEach fun x hx => keeps_guarded ?_
    have honly : (retryRefund x.1.1 x.1.2 x.2.amountCents).Only (Stmt.spares o) := by
      refine Only.seq (only_fetch _ _) fun found => ?_
      have hstop : (issue (.amendRefund x.1.1 x.1.2 .terminate)).Only (Stmt.spares o) :=
        only_issue (hother x hx)
      split
      · exact Only.seq hstop fun _ => only_pure _
      · have hsettle := only_settleRefund x.1.1 x.1.2 x.2.amountCents
          fun _ _ _ => refund_spares (hother x hx)
        refine Only.seq hsettle fun outcome => ?_
        split
        · exact only_pure _
        · exact Only.seq hstop fun _ => only_pure _
        · exact Only.seq hstop fun _ => only_pure _
        · exact only_pure _
        · exact only_pure _
    exact keeps_spares honly
  · refine Serial.cases fun reason => Serial.fact fun hdue => ?_
    have hloop : Serial machine (World.ledger o) upheld (Apart T) (Closed T reason)
        (countEach due fun x => guarded (retryRefund x.1.1 x.1.2 x.2.amountCents))
        (fun _ => Closed T reason) fun _ => Rest T := by
      refine Discipline.Flow.countEach fun x hx => Discipline.Flow.catch ?_ fun _ =>
        Serial.pure fun _ hl => hl
      exact serial_retryRefund (hdue x hx)
    exact hloop.post (fun _ _ hl => hl.rest) fun _ _ h => h

theorem keeps_adminRetryRefund (id : OrderId) (reason : RefundReason) :
    Keeps o T (adminRetryRefund id reason) := by
  have hread : Serial machine (World.ledger o) upheld (Apart T) (Rest T)
      (fetch .adminRetryRefund (·.refunds.get (id, reason)) : Act (Option Refund))
      (fun found l => Rest T l ∧ (id = o → l.refund reason = found)) fun _ => Rest T :=
    Serial.read (by decide) (fun _ => Rest.apart) fun w hw => ⟨hw, fun he => he ▸ rfl⟩
  refine hread.seq fun found => ?_
  cases found with
  | none => exact Serial.throw fun _ hl => hl.1
  | some refund =>
    refine .ite (fun _ => Serial.pure fun _ hl => hl.1) fun _ => ?_
    by_cases hid : id = o
    · subst hid
      refine Serial.pre (Serial.fact (P := Closed T reason) fun hle => ?_)
        fun l hl => refund_found hl.1 (hl.2 rfl)
      have hlook {α : Type} {f : World → α} : Serial machine (World.ledger id) upheld (Apart T)
          (Closed T reason) (fetch .adminRetryRefund f : Act α) (fun _ => Closed T reason)
          fun _ => Rest T := Serial.look (by decide) fun _ hl => hl.rest.apart
      refine hlook.seq fun order => ?_
      cases order with
      | none => exact Serial.throw fun _ hl => hl.rest
      | some _ =>
        have hamend := serial_amendRefund (o := id) (T := T) id .retryNow
          (fun _ => rfl : id = id → reason = reason)
        have hnow := hamend.post (fun _ _ h => h) fun _ _ hl => hl.rest
        refine hnow.seq fun _ => ?_
        refine (serial_settleClosed fun _ => ⟨rfl, hle⟩).seq fun _ => ?_
        exact hlook.seq fun _ => Serial.pure fun _ hl => hl.rest
    · refine Serial.pre ?_ fun _ hl => hl.1
      refine (keeps_look (by decide)).seq fun order => ?_
      cases order with
      | none => exact keeps_throw
      | some _ =>
        have hnow : Keeps o T (issue (.amendRefund id reason .retryNow)) :=
          keeps_spares (only_issue hid)
        refine hnow.seq fun _ => ?_
        refine (serial_settleOther hid _ _ fun _ => Rest.apart).seq fun _ => ?_
        exact (keeps_look (by decide)).seq fun _ => keeps_pure

/-- What a webhook says of a transfer or a refund. -/
def StripeEventKind.ofMoney : StripeEventKind → Prop
  | .transferCreated _ | .transferFailed _ | .chargeRefunded _ => True
  | _ => False

theorem keeps_findPayout (site : Site) (hs : site ≠ .retrievePaymentIntent)
    (transfer : TransferId) :
    Serial machine (World.ledger o) upheld (Apart T) (Rest T) (findPayout site transfer)
      (fun found l => Rest T l ∧ ∀ x ∈ found, x.1 = o → Payable T l) fun _ => Rest T := by
  refine Serial.read hs (fun _ => Rest.apart) fun w hw => ⟨hw, fun x hx ho => ?_⟩
  have hget : w.payouts.get o = some x.2 := ho ▸ (Table.findFirst_some hx).1
  refine hw.payout ?_
  rw [show (w.ledger o).payout = w.payouts.get o from rfl, hget]
  exact Option.some_ne_none _

theorem keeps_processWebhook {kind : StripeEventKind} (h : kind.ofMoney) :
    Keeps o T (processWebhook kind) := by
  cases kind with
  | transferCreated transfer =>
    refine (keeps_findPayout .confirmTransfer (by decide) transfer).seq fun found => ?_
    refine Serial.pre ?_ fun _ hl => hl.1
    cases found with
    | none => exact keeps_pure
    | some x =>
      refine Discipline.Flow.when (fun _ => Discipline.Flow.quietly ?_) fun _ _ hx => hx
      exact keeps_amend (u := .confirm x.1) ((only_perform _).mpr rfl) fun _ => rfl
  | transferFailed transfer =>
    refine (keeps_findPayout .failTransfer (by decide) transfer).seq fun found => ?_
    cases found with
    | none => exact Serial.pure fun _ hl => hl.1
    | some x =>
      by_cases hid : x.1 = o
      · have honly : (parkPayoutForFailedTransfer x.1).Only (PayStmt o) :=
          (only_parkPayoutForFailedTransfer x.1).mono fun s hs => hid ▸ hs
        exact (serial_pay (T := T) honly).weaken (fun l hl => hl.2 x rfl hid)
          (fun _ _ => payable_rest) fun _ _ => payable_rest
      · refine Serial.pre ?_ fun _ hl => hl.1
        exact keeps_spares ((only_parkPayoutForFailedTransfer x.1).mono fun _ => pay_spares hid)
  | chargeRefunded intent =>
    cases intent with
    | none => exact keeps_pure
    | some n =>
      refine (keeps_look (by decide)).seq fun found => ?_
      cases found with
      | none => exact keeps_pure
      | some x =>
        have honly := only_markPaymentRefunded (o + 1) x.1 .admin 0 none
        exact keeps_spares (honly.mono fun s hs => refund_spares (Nat.succ_ne_self o) hs.1)
  | _ => exact h.elim

theorem keeps_handleWebhook (event : StripeEventId) {handler : Act Unit} (h : Keeps o T handler) :
    Keeps o T (handleWebhook event handler) := by
  have hclaim : Keeps o T (claimWebhookEvent event) := by
    refine keeps_spares (Only.seq (Only.attempt ((only_perform _).mpr trivial)) fun r => ?_)
    split
    · exact only_pure _
    · exact Only.seq only_readClock fun _ => Only.seq ((only_perform _).mpr trivial) fun _ =>
        only_pure _
    · exact only_throw _
  refine hclaim.seq fun won => .ite (fun _ => ?_) fun _ => keeps_pure
  refine (keeps_attempt h).seq fun outcome => ?_
  cases outcome with
  | ok _ => exact keeps_spares (Only.quietly ((only_perform _).mpr trivial))
  | error err =>
    exact keeps_spares (Only.seq (Only.quietly ((only_perform _).mpr trivial)) fun _ =>
      only_throw _)

end Operations

/-- The operations that end an order with a refund or a payout, and those that try one again. -/
def Op.settlesOrPays : Op → Prop
  | .approve _ _ | .autoApproveOverdue | .dispute _ _ _ | .resolveDispute _ _ _ _
  | .releasePayout _ | .retryStuckPayouts _ | .retryStuckRefunds _ | .adminRetryPayout _
  | .adminRetryRefund _ _ | .cancel _ _ | .adminCancel _ _ _ | .declineByInspector _ _ _
  | .sweepAbandonedInspections => True
  | .recordOwnerContact _ _ reached => reached = false
  | .handleWebhook _ kind => kind.ofMoney
  | _ => False

def RefundReason.all : List RefundReason :=
  [.cancelBeforeAssign, .cancelAfterAssign, .dispute, .admin, .captureFailed, .searchExpired,
    .inspectorDeclined, .ownerUnreachable, .inspectorNoShow, .reconcileStrandedHold]

namespace World

/-- A refund of the order is pending or has succeeded. -/
def refunding (o : OrderId) (w : World) : Prop :=
  ∃ reason x, w.refunds.get (o, reason) = some x ∧ x.status ≠ .failed

/-- The payout of the order is paid, or still to be paid. -/
def payingOut (o : OrderId) (w : World) : Prop :=
  ∃ p, w.payouts.get o = some p ∧ (p.status ≠ .failed ∨ p.nextRetryAt.isSome)

/-- The refund of the order for this reason has succeeded. -/
def succeeded (o : OrderId) (reason : RefundReason) (w : World) : Prop :=
  ∃ x, w.refunds.get (o, reason) = some x ∧ x.status = .settled

/-- What has succeeded of the refund for one reason. -/
def succeededFor (o : OrderId) (w : World) (reason : RefundReason) : Cents :=
  ((w.refunds.get (o, reason)).filter (·.status = .settled)).elim 0 (·.amountCents)

def succeededCents (o : OrderId) (w : World) : Cents :=
  (RefundReason.all.map (w.succeededFor o)).sum

end World

section Runs

variable {o : OrderId} {T : Cents} {w : World} {ops : List Op} {g g' : Run Unit}

theorem keeps_op (hT : 0 ≤ T) {op : Op} (h : op.settlesOrPays) : Keeps o T op.prog := by
  cases op with
  | approve id user => exact keeps_drop (keeps_approve id user)
  | autoApproveOverdue => exact keeps_drop keeps_autoApproveOverdue
  | dispute id user reason => exact keeps_dispute id user reason
  | resolveDispute id forCustomer admin percent =>
    exact keeps_drop (keeps_resolveDispute hT id forCustomer admin percent)
  | releasePayout id => exact keeps_drop (keeps_releasePayout id)
  | retryStuckPayouts limit => exact keeps_drop (keeps_retryStuckPayouts limit)
  | retryStuckRefunds limit => exact keeps_drop (keeps_retryStuckRefunds limit)
  | adminRetryPayout id => exact keeps_adminRetryPayout id
  | adminRetryRefund id reason => exact keeps_adminRetryRefund id reason
  | cancel id user => exact keeps_drop (keeps_cancel hT id user)
  | adminCancel id percent admin => exact keeps_drop (keeps_adminCancel hT id percent admin)
  | declineByInspector id user reason => exact keeps_drop (keeps_declineByInspector id user reason)
  | sweepAbandonedInspections => exact keeps_drop keeps_sweepAbandonedInspections
  | recordOwnerContact id user reached =>
    have hreached : reached = false := h
    subst hreached
    exact keeps_drop (keeps_recordOwnerContact id user)
  | handleWebhook event kind => exact keeps_handleWebhook event (keeps_processWebhook h)
  | _ => exact h.elim

/-- The money of an order nothing was refunded or paid out of stays apart in every run. -/
theorem apart_of_reach (hops : ∀ op ∈ ops, op.settlesOrPays) (hT : 0 ≤ T)
    (hw : Rest T (w.ledger o))
    (hreach : Pool.Reach machine noRecord databaseUp (sequence w ops) g) :
    Apart T (g.state.ledger o) := by
  have hseries : Serial machine (World.ledger o) upheld (Apart T) (Rest T)
      (Prog.series (ops.map Op.prog)) (fun _ => Rest T) fun _ _ => True := by
    refine Serial.series fun p hp => ?_
    obtain ⟨op, hop, rfl⟩ := List.mem_map.mp hp
    exact keeps_op hT (hops op hop)
  exact (Serial.reach hseries World.ledger_tick (fun _ _ _ _ h => h) hw hw.apart hreach).1

theorem apart_exclusive (h : Apart T (w.ledger o)) : ¬ (w.refunding o ∧ w.payingOut o) := by
  rintro ⟨⟨reason, x, hx, _⟩, p, hp, _⟩
  cases h with
  | unrefunded r at_ free =>
    have hnone : w.refunds.get (o, reason) = none := free reason
    rw [hnone] at hx
    cases hx
  | owing r reason' at_ owed =>
    have hnone : w.payouts.get o = none := owed.payout
    rw [hnone] at hp
    cases hp

/-- All that has succeeded was refunded for one reason. -/
theorem apart_total (hT : 0 ≤ T) (h : Apart T (w.ledger o)) : w.succeededCents o ≤ T := by
  cases h with
  | unrefunded r at_ free =>
    have hnone (reason : RefundReason) : w.succeededFor o reason = 0 := by
      have hget : w.refunds.get (o, reason) = none := free reason
      simp [World.succeededFor, hget]
    simpa [World.succeededCents, RefundReason.all, hnone] using hT
  | owing r reason at_ owed =>
    have hother (reason' : RefundReason) (hne : reason' ≠ reason) :
        w.succeededFor o reason' = 0 := by
      cases hget : w.refunds.get (o, reason') with
      | none => simp [World.succeededFor, hget]
      | some x =>
        refine absurd (owed.only reason' ?_) hne
        rw [show (w.ledger o).refund reason' = w.refunds.get (o, reason') from rfl, hget]
        rfl
    have hown : w.succeededFor o reason ≤ T := by
      unfold World.succeededFor
      cases hget : w.refunds.get (o, reason) with
      | none => exact hT
      | some x =>
        have hbound := owed.bound x hget
        by_cases hs : x.status = .settled
        · simpa [Option.filter, hs] using hbound
        · simpa [Option.filter, hs] using hT
    have hsum : w.succeededCents o = w.succeededFor o reason := by
      unfold World.succeededCents
      cases reason <;> simp [RefundReason.all, hother]
    exact hsum.trans_le hown

/-- Never refunded and paid out: the two never stand beside each other, only one reason is ever
refunded, and no more than the total. -/
theorem never_refunded_and_paid (w : World) (ops : List Op) (o : OrderId) (r : Order)
    (g g' : Run Unit) (hops : ∀ op ∈ ops, op.settlesOrPays) (hr : w.orders.get o = some r)
    (htotal : 0 ≤ r.totalCents) (hrefunds : ∀ reason, w.refunds.get (o, reason) = none)
    (hpayout : w.payouts.get o = none) (hfair : ∀ t, (w.settings t).Fair)
    (hreach : Pool.Reach machine noRecord databaseUp (sequence w ops) g)
    (hlater : Pool.Reach machine noRecord databaseUp g g') :
    ¬ (g.state.refunding o ∧ g.state.payingOut o) ∧
    (∀ reason reason', g.state.succeeded o reason → g'.state.succeeded o reason' →
      reason = reason') ∧
    ∃ q, g.state.orders.get o = some q ∧ g.state.succeededCents o ≤ q.totalCents := by
  have hstart : Rest r.totalCents (w.ledger o) :=
    .clear r ⟨hr, rfl, hfair⟩ hrefunds hpayout
  have hnow := apart_of_reach hops htotal hstart hreach
  have hafter := apart_of_reach hops htotal hstart (hreach.trans hlater)
  refine ⟨apart_exclusive hnow, fun reason reason' hs hs' => ?_, ?_⟩
  · obtain ⟨x, hx, _⟩ := hs
    obtain ⟨x', hx', _⟩ := hs'
    have hkept : (g'.state.refunds.get (o, reason)).isSome := by
      refine hlater.invariant (I := fun x => (x.1.refunds.get (o, reason)).isSome)
        (by rw [hx]; rfl) fun y z hy hstep => ?_
      cases hstep with
      | ask t l c hC => exact hy
      | call t s c hC => exact World.exec_refund hy
      | env c =>
        obtain ⟨now, he⟩ := World.tick_eq c y.1
        rw [show machine.env = World.tick from rfl, he]
        exact hy
    cases hafter with
    | unrefunded q at_ free =>
      have hnone : g'.state.refunds.get (o, reason) = none := free reason
      rw [hnone] at hkept
      cases hkept
    | owing q reason'' at_ owed =>
      have hlast : (g'.state.refunds.get (o, reason')).isSome := by rw [hx']; rfl
      exact (owed.only reason hkept).trans (owed.only reason' hlast).symm
  · have hrow : ∃ q, At r.totalCents q (g.state.ledger o) := by
      cases hnow with
      | unrefunded q at_ free => exact ⟨q, at_⟩
      | owing q reason at_ owed => exact ⟨q, at_⟩
    obtain ⟨q, hq⟩ := hrow
    exact ⟨q, hq.row, hq.total.symm ▸ apart_total htotal hnow⟩

/-- The customer cancels, and then tries to approve; the payouts are swept afterwards. -/
def cancelThenApprove : Run Unit :=
  sequence assignedWorld [.cancel 1 7, .approve 1 7, .retryStuckPayouts 5]

/-- Whether the run is over, and how the refund of the late cancellation stands. -/
def refundLeft (g : Run Unit) : Bool × Option SettlementStatus :=
  (decide g.AllEnded, (g.state.refunds.get (1, .cancelAfterAssign)).map (·.status))

theorem defaults_fair : Settings.defaults.Fair := by
  constructor <;> norm_num [Settings.defaults]

/-- The share of a late cancellation is refunded, and nothing is paid out. -/
theorem never_refunded_and_paid_cancelled : ∃ g : Run Unit, g.AllEnded ∧
    g.state.succeeded 1 .cancelAfterAssign ∧
    ¬ (g.state.refunding 1 ∧ g.state.payingOut 1) ∧
    (∀ reason reason', g.state.succeeded 1 reason → g.state.succeeded 1 reason' →
      reason = reason') ∧
    ∃ q, g.state.orders.get 1 = some q ∧ g.state.succeededCents 1 ≤ q.totalCents := by
  have hrun : Pool.observe machine noRecord databaseUp refundLeft (goes 0 15) (.run 0 .ok)
      cancelThenApprove = some ((false, some .settled), (true, some .settled)) := by
    decide +kernel
  obtain ⟨g, g', hg, hm, hs, _, hafter⟩ := Pool.observe_eq hrun
  obtain ⟨hend, hst⟩ := Prod.mk.inj hafter
  obtain ⟨x, hx, hxs⟩ := Option.map_eq_some_iff.mp hst
  have hreach : Pool.Reach machine noRecord databaseUp cancelThenApprove g' :=
    .next (m := .run 0 .ok) hg hm hs
  have hops : ∀ op ∈ [Op.cancel 1 7, .approve 1 7, .retryStuckPayouts 5], op.settlesOrPays := by
    simp [Op.settlesOrPays]
  refine ⟨g', of_decide_eq_true hend, ⟨x, hx, hxs⟩, ?_⟩
  exact never_refunded_and_paid assignedWorld _ 1 _ g' g' hops rfl (by decide) (fun _ => rfl) rfl
    (fun _ => defaults_fair) hreach .start

end Runs

end CarSalePro
