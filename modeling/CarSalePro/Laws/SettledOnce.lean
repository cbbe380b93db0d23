import CarSalePro.Laws.RefundLedger
import CarSalePro.Orders.Alone

namespace CarSalePro

open Store Interleave Prog

/-- One thread by itself. -/
def soleRun (w : World) (p : Act Unit) : Run Unit := ⟨w, (), [p]⟩

/-- The refund of an order for one reason, asked for several times in a row. -/
def settles (order : OrderId) (amountCents : Cents) (reason : RefundReason) (calls : Nat) :
    Act Unit :=
  series (List.replicate calls (discard (settleRefund order amountCents reason)))

/-- Money went back, or a hold was let go. -/
def RefundOutcomeStatus.success : RefundOutcomeStatus → Bool
  | refunded | released => true
  | _ => false

/-- The same call, which fails unless it is a success. -/
def succeeds (order : OrderId) (amountCents : Cents) (reason : RefundReason) : Act Unit := do
  let outcome ← settleRefund order amountCents reason
  if outcome.status.success then pure () else throw (.other "not settled")

namespace World

variable (w : World) (order : OrderId)

/-- The payment holds the customer's money for the order, uncaptured. -/
structure Holds (k : PaymentId) (p : Payment) : Prop where
  row : w.payments.get k = some p
  order : p.orderId = some order
  current : p.supersededAt = none
  status : p.status = .authorized

/-- Stripe holds the money, where it has been asked to. -/
def HeldAtStripe (p : Payment) : Prop :=
  w.stripeConfigured → ∀ i, p.stripePaymentIntentId = some i →
    ∃ x, w.provider.intents.get i = some x ∧ x.status = .requiresCapture

/-- The hold is gone, here and at Stripe. -/
structure LetGo (k : PaymentId) (p : Payment) : Prop where
  row : ∃ p', w.payments.get k = some p' ∧ p'.status = .cancelled
  intent : w.stripeConfigured → ∀ i, p.stripePaymentIntentId = some i →
    ∃ x, w.provider.intents.get i = some x ∧ x.status = .canceled

/-- No money of the order was taken. -/
def Untouched : Prop :=
  ∀ k p, w.payments.get k = some p → p.orderId = some order → p.live → p.status = .authorized

/-- Nothing of the order is left to give back for this reason. -/
def Closed (reason : RefundReason) : Prop :=
  w.refundSucceeded (order, reason) ∨
    ∀ k p, w.payments.get k = some p → p.orderId = some order → p.live = false

end World

/-- Neither the ledger nor Stripe is disturbed, and Stripe is not asked for anything. -/
structure LeftAlone (w : World) (g : Run Unit) : Prop where
  refunds : g.state.refunds = w.refunds
  payments : g.state.payments = w.payments
  provider : g.state.provider = w.provider
  asks : ∀ p call, g.threads = [p] → p.label ≠ some (.call (.stripe call))

/-- What calls that settle a refund may have done when they came from `w` to `g`. -/
structure SettledOnce (order : OrderId) (amountCents : Cents) (reason : RefundReason) (w : World)
    (g : Run Unit) : Prop where
  key : ∀ p intent a o r, g.threads = [p] →
    p.label = some (.call (.stripe (.createRefund intent a o r))) →
    a = amountCents ∧ o = order ∧ r = reason
  rows : ∀ k, k ≠ (order, reason) → g.state.refunds.get k = w.refunds.get k
  hold : (∃ k p, w.Holds order k p) → g.state.refunds = w.refunds
  released : ∀ k p, g.state.Holds order k p → g.state.HeldAtStripe p → 0 < amountCents →
    g.state.refundSucceeded (order, reason) = false →
    ((settleRefund order amountCents reason).alone machine .ok g.state).2.LetGo k p
  expired : reason = .searchExpired → g.state.refunds = w.refunds ∧
    ∀ p intent a o r, g.threads = [p] →
      p.label ≠ some (.call (.stripe (.createRefund intent a o r)))
  after : g.AllEnded → ∀ g₁,
    Pool.Reach machine noRecord databaseUp
      (soleRun g.state (succeeds order amountCents reason)) g₁ →
    g₁.threads = [.ret ()] → ∀ later g₂,
    Pool.Reach machine noRecord databaseUp
      (soleRun g₁.state (settles order amountCents reason later)) g₂ → LeftAlone g₁.state g₂

theorem World.Holds.live {w : World} {order : OrderId} {k : PaymentId} {p : Payment}
    (h : w.Holds order k p) : p.live := by
  simp [Payment.live, h.current, h.status]

/-- The unique index: an order has one live payment. -/
theorem sole_live {w : World} {order : OrderId} {k j : PaymentId} {p q : Payment}
    (hindex : activePaymentConflict w.payments = false) (hk : w.payments.get k = some p)
    (hp : p.orderId = some order) (hlive : p.live) (hj : w.payments.get j = some q)
    (hq : q.orderId = some order) (hlive' : q.live) : j = k := by
  by_contra hne
  have hrow := Table.any_eq_false.mp hindex k p hk
  simp only [hlive, hp, Option.isSome_some, Bool.and_self, Bool.true_and] at hrow
  have hother := Table.any_eq_false.mp hrow j q hj
  simp [hne, hlive', hq] at hother

section Release

variable {w : World} {c : Fate} {order : OrderId} {k : PaymentId} {p : Payment}

/-- The row of a hold is marked as released. -/
theorem released_payments (hindex : activePaymentConflict w.payments = false) (hc : c ≠ .down)
    (hrow : w.payments.get k = some p) :
    (World.exec (.payment (.release k)) c w).2.payments =
      w.payments.rewrite fun j q => PaymentStmt.rewrite w.now j q (.release k) := by
  have hhits : w.payments.hits (fun j q => PaymentStmt.rewrite w.now j q (.release k)) ≠ 0 := by
    intro hzero
    have hnone := Table.hits_eq_zero.mp hzero k p hrow
    simp [PaymentStmt.rewrite] at hnone
  have hclean : activePaymentConflict (w.payments.rewrite fun j q =>
      PaymentStmt.rewrite w.now j q (.release k)) = false := by
    rw [← Bool.not_eq_true]
    intro hconflict
    have hbefore := activePaymentConflict_rewrite (fun j q q' hq => ?_) hconflict
    · rw [hindex] at hbefore
      cases hbefore
    · simp only [PaymentStmt.rewrite] at hq
      split at hq
      · cases hq
        exact ⟨rfl, fun h => by simp [Payment.live] at h⟩
      · cases hq
  rcases World.exec_cases (.payment (.release k)) c w with
    ⟨call, hcall, -⟩ | ⟨-, hdown, -⟩ | ⟨-, -, he⟩
  · cases hcall
  · exact absurd hdown hc
  · rw [he]
    simp only [World.write, World.writePayment, hhits, and_false, if_false, hclean,
      Bool.false_eq_true]

/-- With the one hold of the order gone, nothing of it is live. -/
theorem closed_release (hindex : activePaymentConflict w.payments = false) (hc : c ≠ .down)
    (h : w.Holds order k p) (reason : RefundReason) :
    (World.exec (.payment (.release k)) c w).2.Closed order reason := by
  refine .inr fun j q hj hq => ?_
  rw [released_payments hindex hc h.row, Table.get_rewrite] at hj
  obtain ⟨q₀, hq₀, hrow⟩ := Option.map_eq_some_iff.mp hj
  by_cases hk : j = k
  · subst hk
    simp only [PaymentStmt.rewrite, if_true, Option.getD_some] at hrow
    rw [← hrow]
    simp [Payment.live]
  · simp only [PaymentStmt.rewrite, hk, if_false, Option.getD_none] at hrow
    subst hrow
    rw [← Bool.not_eq_true]
    exact fun hlive => hk (sole_live hindex h.row h.order h.live hq₀ hq hlive)

end Release

section Footprints

variable (order : OrderId) (amountCents : Cents) (reason : RefundReason)

/-- The statements of the refund of an order for one reason. -/
def Stmt.settling (s : Stmt) : Prop := ∃ k i, RefundOf order reason amountCents k i s

theorem settling_settles (calls : Nat) :
    (settles order amountCents reason calls).Only (Stmt.settling order amountCents reason) := by
  induction calls with
  | zero => exact only_pure _
  | succ calls ih =>
    have hcall : (discard (settleRefund order amountCents reason)).Only
        (Stmt.settling order amountCents reason) :=
      Only.seq (only_settle order reason amountCents fun k i s hs => ⟨k, i, hs⟩) fun _ =>
        only_pure _
    exact Only.bind (Only.quietly hcall) fun _ => ih

variable {order amountCents reason} {s : Stmt} {c : Fate} {w : World}

/-- What Stripe is asked to refund is this amount, under this key. -/
theorem settling_key {intent : IntentId} {a : Cents} {o : OrderId} {r : RefundReason}
    (h : Stmt.settling order amountCents reason (.stripe (.createRefund intent a o r))) :
    a = amountCents ∧ o = order ∧ r = reason := by
  obtain ⟨k, i, hstmt, howes⟩ := h
  cases hstmt
  exact ⟨howes, rfl, rfl⟩

theorem settling_spares {k : OrderId × RefundReason} (hk : k ≠ (order, reason))
    (h : Stmt.settling order amountCents reason s) : s.sparesRefund k := by
  obtain ⟨_, _, hstmt, -⟩ := h
  cases hstmt with
  | upsert row => exact hk.symm
  | createRefund i a hi => exact hk.symm
  | _ => trivial

/-- The unique index stays. -/
theorem settling_index (h : Stmt.settling order amountCents reason s)
    (hindex : activePaymentConflict w.payments = false) :
    activePaymentConflict (World.exec s c w).2.payments = false := by
  obtain ⟨_, _, hstmt, -⟩ := h
  have hkept (hs : s.touchesPayments = false) :
      activePaymentConflict (World.exec s c w).2.payments = false := by
    rwa [(World.frame_exec s c w).payments hs]
  have hwritten (u : PaymentStmt) (hu : s = .payment u) :
      activePaymentConflict (World.exec s c w).2.payments = false := by
    subst hu
    rcases World.exec_cases (.payment u) c w with ⟨call, hcall, -⟩ | ⟨-, -, he⟩ | ⟨-, -, he⟩
    · cases hcall
    · rwa [he]
    · rw [he]
      simp only [World.write, World.writePayment]
      split
      · exact hindex
      · split
        next => exact hindex
        next hclean => exact Bool.not_eq_true _ ▸ hclean
  cases hstmt with
  | release => exact hwritten _ rfl
  | refund => exact hwritten _ rfl
  | _ => exact hkept rfl

end Footprints

section Success

variable {α : Type} {P : World → Prop} {Q : α → World → Prop} (order : OrderId)
  (amountCents : Cents) (reason : RefundReason)

/-- From `P` to `Q`, in runs in which only Stripe fails. -/
abbrev Repays (P : World → Prop) (p : Act α) (Q : α → World → Prop) : Prop :=
  Serial machine World.still upheld (fun _ => True) P p Q fun _ _ => True

/-- Nothing is known of the state. -/
abbrev anywhere : World → Prop := fun _ => True

theorem Repays.any (p : Act α) : Repays anywhere p fun _ => anywhere := by
  have hp : p.Only fun _ => True := by
    induction p with
    | ret a => trivial
    | raise e => trivial
    | ask l f k ih => exact fun r => ih r
    | call s k ih => exact ⟨trivial, fun r => ih r⟩
  exact Serial.only hp (fun _ _ => trivial) fun _ _ _ _ _ _ => trivial

/-- Statements that keep an assertion about the state. -/
theorem Repays.aside {p : Act α} {F : Stmt → Prop} (hp : p.Only F)
    (h : ∀ s c w, F s → P w → P (World.exec s c w).2) (hstill : ∀ w, P w.still ↔ P w) :
    Repays P p fun _ => P := by
  refine Serial.post (Serial.only hp (fun _ _ => trivial) fun s c w hs _ hw => ?_)
    (fun _ _ h => h) fun _ _ _ => trivial
  exact (hstill _).mpr (h s c w hs ((hstill w).mp hw))

/-- A success leaves nothing to give back. -/
def Repaid (outcome : RefundOutcome) (x : World) : Prop :=
  outcome.status.success → x.Closed order reason

/-- Nothing is left to give back after statements that leave refunds and payments alone. -/
theorem closed_exec {w : World} {s : Stmt} {c : Fate} (hr : s.touchesRefunds = false)
    (hp : s.touchesPayments = false) (h : w.Closed order reason) :
    (World.exec s c w).2.Closed order reason := by
  unfold World.Closed World.refundSucceeded at *
  rw [(World.frame_exec s c w).refunds hr, (World.frame_exec s c w).payments hp]
  exact h

theorem repays_skip (detail : String) :
    Repays anywhere (skipRefund order reason detail) (Repaid order reason) :=
  Discipline.Flow.seq (Repays.any _) fun _ => Serial.pure fun _ _ h => by cases h

theorem repays_park (error : String) (fatal : Bool) :
    Repays anywhere (parkRefund order amountCents reason error fatal) (Repaid order reason) := by
  refine Discipline.Flow.seq (Repays.any _) fun existing => ?_
  refine Discipline.Flow.seq (Repays.any _) fun now => ?_
  refine Discipline.Flow.seq (Repays.any _) fun _ => Discipline.Flow.seq (Repays.any _) fun _ => ?_
  exact Discipline.Flow.seq (Repays.any _) fun _ => Serial.pure fun _ _ h => by cases h

/-- A refund that is recorded is settled. -/
theorem repays_record (payment : PaymentId) (existing : Option Refund) :
    Repays anywhere (recordRefund order payment amountCents reason existing)
      (Repaid order reason) := by
  have hupsert (row : Refund) (hrow : row.status = .settled) :
      Repays anywhere (issue (.upsertRefund order reason row))
        fun _ x => x.refundSucceeded (order, reason) = true := by
    refine Serial.issue rfl fun c w hc _ => ⟨trivial, ?_⟩
    have hwritten := upsert_written (k := (order, reason)) (w := w) row hc
    have hsettled : (World.exec (.upsertRefund order reason row) c w).2.refundSucceeded
        (order, reason) = true := by
      unfold World.refundSucceeded
      rw [hwritten]
      simp [hrow]
    cases (World.exec (.upsertRefund order reason row) c w).1 with
    | ok n => exact hsettled
    | error e => trivial
  have hkept {p : Act Unit} (hp : p.Only fun s => s.touchesRefunds = false) :
      Repays (fun x => x.refundSucceeded (order, reason) = true) p
        fun _ x => x.refundSucceeded (order, reason) = true := by
    refine Repays.aside hp (fun s c w hs h => ?_) fun _ => Iff.rfl
    unfold World.refundSucceeded
    rw [(World.frame_exec s c w).refunds hs]
    exact h
  refine Discipline.Flow.seq (hupsert _ rfl) fun _ => ?_
  refine Discipline.Flow.seq (hkept ?_) fun _ => Discipline.Flow.seq (hkept ?_) fun _ => ?_
  · refine Only.seq (Only.attempt ((only_perform _).mpr rfl)) fun r => ?_
    cases r with
    | ok n => exact only_issue rfl
    | error e => exact only_pure _
  · exact only_note _ _ _ fun _ => rfl
  · exact Serial.pure fun _ h _ => .inl h

theorem repays_captured (payment : PaymentId) (p : Payment) (existing : Option Refund) :
    Repays anywhere (refundCaptured order payment p amountCents reason existing)
      (Repaid order reason) := by
  refine Discipline.Flow.seq (Repays.any _) fun configured => ?_
  refine Discipline.Flow.ite (fun _ => ?_) fun _ => repays_record _ _ _ _ _
  split
  · exact repays_park _ _ _ _ _
  · refine Discipline.Flow.seq (Repays.any _) fun r => ?_
    cases r with
    | ok n => exact repays_record _ _ _ _ _
    | error e => exact repays_park _ _ _ _ _

/-- The order's one live payment is this hold. -/
def HeldBy (k : PaymentId) (p : Payment) (w : World) : Prop :=
  activePaymentConflict w.payments = false ∧ w.Holds order k p

theorem heldBy_still {k : PaymentId} {p : Payment} {w : World} :
    HeldBy order k p w.still ↔ HeldBy order k p w :=
  ⟨fun h => ⟨h.1, h.2.row, h.2.order, h.2.current, h.2.status⟩,
    fun h => ⟨h.1, h.2.row, h.2.order, h.2.current, h.2.status⟩⟩

theorem heldBy_exec {k : PaymentId} {p : Payment} {w : World} {s : Stmt} {c : Fate}
    (hs : s.touchesPayments = false) (h : HeldBy order k p w) :
    HeldBy order k p (World.exec s c w).2 := by
  have hsame := (World.frame_exec s c w).payments hs
  refine ⟨by rw [hsame]; exact h.1, ?_, h.2.order, h.2.current, h.2.status⟩
  rw [hsame]
  exact h.2.row

/-- Letting a hold go asks Stripe to cancel, and nothing else. -/
theorem cancels_releaseHold (k : PaymentId) (p : Payment) :
    (releaseHold order k p).Only fun s => ∃ i, s = .stripe (.cancel i k) := by
  refine Only.seq only_stripeConfigured fun configured => ?_
  split
  next i _ =>
    refine Only.seq (Only.attempt ((only_perform _).mpr ⟨i, rfl⟩)) fun r => ?_
    cases r with
    | ok n => exact only_pure _
    | error err =>
      refine Only.seq (only_fetch _ _) fun repeated => ?_
      exact Only.seq (Only.when fun _ => only_notifyAdmins) fun _ => only_pure _
  next => exact only_pure _

/-- A hold that is let go leaves nothing live. -/
theorem repays_release (k : PaymentId) (p : Payment) :
    Repays (HeldBy order k p) (releaseAuthorization order k p reason) (Repaid order reason) := by
  have hhold : Repays (HeldBy order k p) (releaseHold order k p) fun _ => HeldBy order k p :=
    Repays.aside (cancels_releaseHold order k p)
      (fun _ _ _ ⟨i, hs⟩ h => heldBy_exec order (hs ▸ rfl) h)
      fun _ => heldBy_still order
  refine Discipline.Flow.seq hhold fun release => ?_
  have hclosed : Repays (HeldBy order k p) (quietly (perform (.payment (.release k))))
      fun _ x => x.Closed order reason := by
    refine Discipline.Flow.quietly (Serial.stmt rfl fun c w hc h => ⟨trivial, ?_⟩)
    have hheld := (heldBy_still order).mp h
    have hafter := closed_release hheld.1 hc hheld.2 reason
    cases (World.exec (.payment (.release k)) c w).1 with
    | ok n => exact hafter
    | error e => exact hafter
  have hwhen : Repays (HeldBy order k p)
      (Prog.when (release.released = true) (quietly (perform (.payment (.release k)))))
      fun _ x => release.released = true → x.Closed order reason := by
    refine Discipline.Flow.when (fun _ => ?_) fun hnot x _ v _ hyes => absurd hyes hnot
    exact Serial.post hclosed (fun _ _ h _ => h) fun _ _ h => h
  refine Discipline.Flow.seq hwhen fun _ => ?_
  have hevent : Repays (fun x => release.released = true → x.Closed order reason)
      (Prog.when (release.repeatFailure = false)
        (writeEvent order .system (releaseEventType release.released) none none (some k)))
      fun _ x => release.released = true → x.Closed order reason := by
    have honly : (writeEvent order .system (releaseEventType release.released) none none
        (some k)).Only fun s => ∃ e, s = .event e := only_writeEvent _ _ _ _ _ _ fun e => ⟨e, rfl⟩
    refine Repays.aside (Only.when fun _ => honly) (fun s c w hs h hyes => ?_) fun _ => Iff.rfl
    obtain ⟨e, rfl⟩ := hs
    exact closed_exec order reason rfl rfl (h hyes)
  refine Discipline.Flow.seq hevent fun _ => Serial.pure fun x h hsuccess => ?_
  apply h
  cases hreleased : release.released with
  | true => rfl
  | false =>
    rw [hreleased] at hsuccess
    cases hsuccess

/-- The payment a settlement looks at is a current one of the order. -/
def FoundPayment (found : Option (PaymentId × Payment)) (w : World) : Prop :=
  activePaymentConflict w.payments = false ∧ ∀ k p, found = some (k, p) →
    w.payments.get k = some p ∧ p.orderId = some order ∧ p.supersededAt = none

theorem repays_active : Repays (fun x => activePaymentConflict x.payments = false)
    (activePaymentForOrder order) (FoundPayment order) := by
  have hholding : Repays (fun x => activePaymentConflict x.payments = false)
      (fetch (.activePaymentForOrder order) fun w =>
        w.payments.findFirst fun _ p => p.orderId = some order && p.live) (FoundPayment order) := by
    refine Serial.read (by simp) (fun _ _ => trivial) fun w h => ⟨h, fun k p hfound => ?_⟩
    obtain ⟨hrow, hmatch⟩ := Table.findFirst_some hfound
    simp only [Payment.live, Bool.and_eq_true, decide_eq_true_eq,
      Option.isNone_iff_eq_none] at hmatch
    exact ⟨hrow, hmatch.1, hmatch.2.1⟩
  refine Discipline.Flow.seq hholding fun holding => ?_
  cases holding with
  | some payment => exact Serial.pure fun _ h => h
  | none =>
    refine Serial.read (by simp) (fun _ _ => trivial) fun w h => ⟨h.1, fun k p hfound => ?_⟩
    obtain ⟨hrow, hmatch⟩ := Table.findLast_some hfound
    simp only [Bool.and_eq_true, decide_eq_true_eq, Option.isNone_iff_eq_none] at hmatch
    exact ⟨hrow, hmatch.1, hmatch.2⟩

theorem repays_found (existing : Option Refund) (k : PaymentId) (p : Payment) :
    Repays (FoundPayment order (some (k, p))) (settleFound order amountCents reason existing k p)
      (Repaid order reason) := by
  have hskip (detail : String) : Repays (FoundPayment order (some (k, p)))
      (skipRefund order reason detail) (Repaid order reason) :=
    Serial.pre (repays_skip order reason detail) fun _ _ => trivial
  unfold settleFound
  split
  · exact hskip _
  · exact hskip _
  · exact hskip _
  · exact hskip _
  next hauthorized =>
    refine Serial.pre (repays_release order reason k p) fun x h => ?_
    obtain ⟨hrow, horder, hcurrent⟩ := h.2 k p rfl
    exact ⟨h.1, hrow, horder, hcurrent, hauthorized⟩
  next =>
    refine Discipline.Flow.ite (fun _ => hskip _) fun _ => ?_
    exact Serial.pre (repays_captured order amountCents reason k p existing) fun _ _ => trivial

/-- A call that is a success leaves nothing to give back. -/
theorem repays_settle : Repays (fun x => activePaymentConflict x.payments = false)
    (settleRefund order amountCents reason) (Repaid order reason) := by
  have hskip (detail : String) : Repays (fun x => activePaymentConflict x.payments = false)
      (skipRefund order reason detail) (Repaid order reason) :=
    Serial.pre (repays_skip order reason detail) fun _ _ => trivial
  have hinner : Repays (fun x => activePaymentConflict x.payments = false)
      (settleRefundInner order amountCents reason) (Repaid order reason) := by
    have hexisting : Repays (fun x => activePaymentConflict x.payments = false)
        (findRefund order reason) fun existing x => activePaymentConflict x.payments = false ∧
          existing = x.refunds.get (order, reason) :=
      Serial.read nofun (fun _ _ => trivial) fun w h => ⟨h, rfl⟩
    refine Discipline.Flow.seq hexisting fun existing => ?_
    split
    next row hrow =>
      refine Serial.pure fun x h _ => .inl ?_
      obtain ⟨hget, hsettled⟩ := Option.filter_eq_some_iff.mp hrow
      unfold World.refundSucceeded
      rw [← h.2, hget]
      exact hsettled
    next =>
      refine Serial.pre (P := fun x => activePaymentConflict x.payments = false) ?_ fun _ h => h.1
      refine Discipline.Flow.ite (fun _ => hskip _) fun _ => ?_
      refine Discipline.Flow.seq (repays_active order) fun found => ?_
      cases found with
      | none => exact Serial.pre (repays_skip order reason _) fun _ _ => trivial
      | some payment => exact repays_found order amountCents reason existing payment.1 payment.2
  exact Discipline.Flow.handle hinner fun _ => Serial.pure fun _ _ h => by cases h

end Success

section Notes

variable {α : Type} (order : OrderId) (amountCents : Cents) (reason : RefundReason)

/-- The step reads, or notes an event. -/
def NotesOnly (l : Label Site Stmt) (_ : Fate) (_ : World) : Prop :=
  ∀ s, l = .call s → ∃ e, s = .event e

/-- From `P` to `Q` by reads and notes alone, and nothing is left to give back all the while. -/
abbrev Notes (P : World → Prop) (p : Act α) (Q : α → World → Prop) : Prop :=
  Watched machine World.still (fun _ _ _ => True) NotesOnly P p Q fun _ x => x.Closed order reason

theorem notes_read {P : World → Prop} {site : Site} {f : World → α} (Q : α → World → Prop)
    (hP : ∀ x, P x → x.Closed order reason) (hQ : ∀ w, P w.still → Q (f w) w.still) :
    Notes order reason P (fetch site f) Q :=
  Watched.ask (fun _ _ _ _ _ h => nomatch h) hQ fun _ x hx => hP x hx

theorem notes_skip (detail : String) : Notes order reason (·.Closed order reason)
    (skipRefund order reason detail) fun _ x => x.Closed order reason := by
  have honly : (skipRefund order reason detail).Only fun s => ∃ e, s = .event e :=
    only_skipRefund order reason detail fun e => ⟨e, rfl⟩
  refine Watched.only honly (fun _ _ _ _ _ _ h => nomatch h) fun s c w hs _ hw => ⟨?_, ?_⟩
  · intro s' hs'
    cases hs'
    exact hs
  · obtain ⟨e, rfl⟩ := hs
    exact closed_exec order reason rfl rfl hw

/-- No payment of the order is live. -/
def NoneLive (w : World) : Prop :=
  ∀ k p, w.payments.get k = some p → p.orderId = some order → p.live = false

theorem closed_of_noneLive {w : World} (h : NoneLive order w) : w.Closed order reason := .inr h

theorem notes_active : Notes order reason (NoneLive order) (activePaymentForOrder order)
    fun found x => NoneLive order x ∧ ∀ k p, found = some (k, p) →
      p.status ≠ .authorized ∧ p.status ≠ .succeeded := by
  have hclosed (x : World) (h : NoneLive order x) := closed_of_noneLive order reason h
  refine Discipline.Flow.seq (notes_read order reason (fun holding x => NoneLive order x ∧
    holding = none) hclosed fun w h => ⟨h, ?_⟩) fun holding => Watched.fact fun hnone => ?_
  · refine Table.findFirst_none.mpr fun k p hrow => ?_
    by_cases horder : p.orderId = some order
    · simpa [horder] using h k p hrow horder
    · simp [horder]
  · subst hnone
    refine notes_read order reason _ hclosed fun w h => ⟨h, fun k p hfound => ?_⟩
    obtain ⟨hrow, hmatch⟩ := Table.findLast_some hfound
    simp only [Bool.and_eq_true, decide_eq_true_eq, Option.isNone_iff_eq_none] at hmatch
    have hdead := h k p hrow hmatch.1
    simpa [Payment.live, hmatch.2] using hdead

theorem notes_found (existing : Option Refund) {k : PaymentId} {p : Payment}
    (hp : p.status ≠ .authorized ∧ p.status ≠ .succeeded) : Notes order reason (NoneLive order)
      (settleFound order amountCents reason existing k p) fun _ x => x.Closed order reason := by
  have hskip (detail : String) : Notes order reason (NoneLive order)
      (skipRefund order reason detail) fun _ x => x.Closed order reason :=
    Watched.weaken (notes_skip order reason detail)
      (fun _ h => closed_of_noneLive order reason h) (fun _ _ h => h) fun _ _ h => h
  unfold settleFound
  split
  · exact hskip _
  · exact hskip _
  · exact hskip _
  · exact hskip _
  next h => exact absurd h hp.1
  next h => exact absurd h hp.2

/-- With nothing left to give back, a call reads and notes. -/
theorem notes_settle : Notes order reason (·.Closed order reason)
    (settleRefund order amountCents reason) fun _ x => x.Closed order reason := by
  have hskip (detail : String) : Notes order reason (NoneLive order)
      (skipRefund order reason detail) fun _ x => x.Closed order reason :=
    Watched.weaken (notes_skip order reason detail)
      (fun _ h => closed_of_noneLive order reason h) (fun _ _ h => h) fun _ _ h => h
  have hinner : Notes order reason (·.Closed order reason)
      (settleRefundInner order amountCents reason) fun _ x => x.Closed order reason := by
    refine Discipline.Flow.seq (notes_read order reason (fun existing x => x.Closed order reason ∧
      existing = x.refunds.get (order, reason)) (fun _ h => h) fun w h => ⟨h, rfl⟩)
        fun existing => ?_
    split
    next row hrow => exact Watched.pure fun x h => h.1
    next hrow =>
      refine Watched.weaken (P := NoneLive order) ?_ (fun x h => ?_) (fun _ _ h => h) fun _ _ h => h
      · refine Discipline.Flow.ite (fun _ => hskip _) fun _ => ?_
        refine Discipline.Flow.seq (notes_active order reason) fun found => ?_
        cases found with
        | none =>
          exact Watched.weaken (hskip _) (fun _ h => h.1) (fun _ _ h => h) fun _ _ h => h
        | some payment =>
          refine Watched.fact fun hfound => ?_
          exact notes_found order amountCents reason existing (hfound payment.1 payment.2 rfl)
      · rcases h.1 with hsettled | hnone
        · unfold World.refundSucceeded at hsettled
          obtain ⟨row, hget, hstatus⟩ := (Option.any_eq_true ..).mp hsettled
          have hfilter := Option.filter_eq_none_iff.mp hrow row (h.2.trans hget)
          exact absurd hstatus hfilter
        · exact hnone
  exact Discipline.Flow.handle hinner fun _ => Watched.pure fun _ h => h

end Notes

section Unrefunding

variable {α : Type} (order : OrderId) (amountCents : Cents) (reason : RefundReason)

/-- The statement records a refund, or asks Stripe for one. -/
def Stmt.refunds : Stmt → Bool
  | .upsertRefund _ _ _ | .amendRefund _ _ _ | .stripe (.createRefund _ _ _ _) => true
  | _ => false

/-- The step refunds nothing. -/
def Unrefunding (l : Label Site Stmt) (_ : Fate) (_ : World) : Prop :=
  ∀ s, l = .call s → s.refunds = false

/-- Nothing can be refunded: no money of the order was taken, or the search for it expired. -/
def Unowed (w : World) : Prop := reason = .searchExpired ∨ w.Untouched order

/-- From `P` to `Q` without a refund, and none can be made all the while. -/
abbrev Withholds (P : World → Prop) (p : Act α) (Q : α → World → Prop) : Prop :=
  Watched machine World.still (fun _ _ _ => True) Unrefunding P p Q fun _ => Unowed order reason

/-- The statements that let a hold go. -/
inductive LetsGo (k : PaymentId) : Stmt → Prop where
  | event (e) : LetsGo k (.event e)
  | cancel (i) : LetsGo k (.stripe (.cancel i k))
  | release : LetsGo k (.payment (.release k))

theorem letsGo_releaseAuthorization (k : PaymentId) (p : Payment) :
    (releaseAuthorization order k p reason).Only (LetsGo k) := by
  have hhold : (releaseHold order k p).Only (LetsGo k) :=
    (cancels_releaseHold order k p).mono fun s ⟨i, hs⟩ => hs ▸ .cancel i
  refine Only.seq hhold fun release => ?_
  refine Only.seq (Only.when fun _ => Only.quietly ((only_perform _).mpr .release)) fun _ => ?_
  refine Only.seq (Only.when fun _ => only_writeEvent _ _ _ _ _ _ .event) fun _ => ?_
  exact only_pure _

/-- No money is taken by letting a hold go. -/
theorem untouched_letsGo {k : PaymentId} {s : Stmt} {c : Fate} {w : World} (hs : LetsGo k s)
    (h : w.Untouched order) : (World.exec s c w).2.Untouched order := by
  intro j q hj hq hlive
  have hopens : s.opensPayment = false := by cases hs <;> rfl
  cases hbefore : w.payments.get j with
  | none =>
    rw [World.exec_payment_none hopens hbefore] at hj
    cases hj
  | some q₀ =>
    obtain ⟨q', hq', hsame | ⟨u, hu, hwritten⟩⟩ := World.exec_payment (s := s) (c := c) hbefore
    · rw [hj] at hq'
      cases hq'
      rw [hsame] at hq hlive ⊢
      exact h j q₀ hbefore hq hlive
    · rw [hj] at hq'
      cases hq'
      cases hs with
      | release =>
        cases hu
        simp only [PaymentStmt.rewrite] at hwritten
        split at hwritten
        · cases hwritten
          simp [Payment.live] at hlive
        · cases hwritten
      | _ => cases hu

theorem withholds_only {p : Act α} {F : Stmt → Prop} (hp : p.Only F)
    (hF : ∀ s, F s → s.refunds = false)
    (h : ∀ s c w, F s → w.Untouched order → (World.exec s c w).2.Untouched order) :
    Withholds order reason (Unowed order reason) p fun _ => Unowed order reason := by
  refine Watched.only hp (fun _ _ _ _ _ _ hs => nomatch hs) fun s c w hs _ hw => ⟨?_, ?_⟩
  · intro s' hs'
    cases hs'
    exact hF s hs
  · rcases hw with hexpired | huntouched
    · exact .inl hexpired
    · exact .inr (h s c w hs huntouched)

theorem withholds_skip (detail : String) : Withholds order reason (Unowed order reason)
    (skipRefund order reason detail) fun _ => Unowed order reason := by
  have honly : (skipRefund order reason detail).Only (LetsGo 0) :=
    only_skipRefund order reason detail .event
  exact withholds_only order reason honly (fun s hs => by cases hs <;> rfl)
    fun _ _ _ hs h => untouched_letsGo order hs h

theorem withholds_active : Withholds order reason (Unowed order reason)
    (activePaymentForOrder order) fun found x => Unowed order reason x ∧
      ∀ k p, found = some (k, p) → reason = .searchExpired ∨ p.status ≠ .succeeded := by
  have hread {β : Type} {site : Site} {f : World → β} {P : World → Prop} (Q : β → World → Prop)
      (hP : ∀ x, P x → Unowed order reason x) (hQ : ∀ w, P w.still → Q (f w) w.still) :
      Withholds order reason P (fetch site f) Q :=
    Watched.ask (fun _ _ _ _ _ h => nomatch h) hQ fun _ x hx => hP x hx
  refine Discipline.Flow.seq (hread (fun holding x => Unowed order reason x ∧
    (∀ k p, holding = some (k, p) → reason = .searchExpired ∨ p.status ≠ .succeeded) ∧
    (holding = none → NoneLive order x)) (fun _ h => h) fun w h => ⟨h, ?_, ?_⟩) fun holding => ?_
  · intro k p hfound
    rcases h with hexpired | huntouched
    · exact .inl hexpired
    · obtain ⟨hrow, hmatch⟩ := Table.findFirst_some hfound
      simp only [Bool.and_eq_true, decide_eq_true_eq] at hmatch
      rw [huntouched k p hrow hmatch.1 hmatch.2]
      exact .inr (by decide)
  · intro hnone k p hrow horder
    have hdead := Table.findFirst_none.mp hnone k p hrow
    simpa [horder] using hdead
  · cases holding with
    | some payment => exact Watched.pure fun _ h => ⟨h.1, h.2.1⟩
    | none =>
      refine hread _ (fun _ h => h.1) fun w h => ⟨h.1, fun k p hfound => .inr ?_⟩
      obtain ⟨hrow, hmatch⟩ := Table.findLast_some hfound
      simp only [Bool.and_eq_true, decide_eq_true_eq, Option.isNone_iff_eq_none] at hmatch
      have hdead := h.2.2 rfl k p hrow hmatch.1
      intro htaken
      simp [Payment.live, hmatch.2, htaken] at hdead

theorem withholds_found (existing : Option Refund) {k : PaymentId} {p : Payment}
    (hp : reason = .searchExpired ∨ p.status ≠ .succeeded) :
    Withholds order reason (Unowed order reason)
      (settleFound order amountCents reason existing k p) fun _ => Unowed order reason := by
  unfold settleFound
  split
  · exact withholds_skip _ _ _
  · exact withholds_skip _ _ _
  · exact withholds_skip _ _ _
  · exact withholds_skip _ _ _
  · exact withholds_only order reason (letsGo_releaseAuthorization order reason k p)
      (fun s hs => by cases hs <;> rfl) fun _ _ _ hs h => untouched_letsGo order hs h
  next htaken =>
    refine Discipline.Flow.ite (fun _ => withholds_skip _ _ _) fun hreason => ?_
    rcases hp with hexpired | hnot
    · exact absurd hexpired hreason
    · exact absurd htaken hnot

/-- What was not taken, or was left when the search expired, is not refunded. -/
theorem withholds_settle : Withholds order reason (Unowed order reason)
    (settleRefund order amountCents reason) fun _ => Unowed order reason := by
  have hinner : Withholds order reason (Unowed order reason)
      (settleRefundInner order amountCents reason) fun _ => Unowed order reason := by
    have hexisting : Withholds order reason (Unowed order reason) (findRefund order reason)
        fun _ => Unowed order reason :=
      Watched.ask (fun _ _ _ _ _ h => nomatch h) (fun _ h => h) fun _ _ h => h
    refine Discipline.Flow.seq hexisting fun existing => ?_
    split
    next row => exact Watched.pure fun _ h => h
    next =>
      refine Discipline.Flow.ite (fun _ => withholds_skip _ _ _) fun _ => ?_
      refine Discipline.Flow.seq (withholds_active order reason) fun found =>
        Watched.fact fun hfound => ?_
      cases found with
      | none => exact withholds_skip _ _ _
      | some payment =>
        exact withholds_found order amountCents reason existing (hfound payment.1 payment.2 rfl)
  exact Discipline.Flow.handle hinner fun _ => Watched.pure fun _ h => h

end Unrefunding

section Release

variable {α : Type} {order : OrderId} {amountCents : Cents} {reason : RefundReason} {w : World}
  {k : PaymentId} {p : Payment}

/-- Nothing fails on the way, at the database or at Stripe. -/
def nothingFails : Label Site Stmt → Fate → World → Prop := fun _ c _ => c = .ok

theorem failsOnly_nothing : FailsOnly nothingFails False := by
  intro l c w _ hok hdown
  rw [show c = .ok from hok] at hdown
  cases hdown

/-- The way to `Q` when nothing fails. -/
abbrev Smooth (P : World → Prop) (p : Act α) (Q : α → World → Prop) : Prop :=
  Triple machine nothingFails P p Q fun _ _ => False

/-- Stripe has let the hold go, and the ledger is as it was. -/
structure Unheld (w : World) (p : Payment) (v : World) : Prop where
  payments : v.payments = w.payments
  configured : v.stripeConfigured = w.stripeConfigured
  intent : w.stripeConfigured → ∀ i, p.stripePaymentIntentId = some i →
    ∃ x, v.provider.intents.get i = some x ∧ x.status = .canceled

theorem smooth_cancelHold {i : IntentId} {x : Intent} (hintent : p.stripePaymentIntentId = some i)
    (hx : w.provider.intents.get i = some x) (hheld : x.status = .requiresCapture) :
    Smooth (· = w) (cancelHold order k i) fun release v => Unheld w p v ∧
      release = ⟨true, none, false⟩ := by
  have hcarry : w.provider.carryOut (.cancel i k) =
      .ok { w.provider with
        intents := w.provider.intents.set i { x with status := .canceled } } := by
    simp [Provider.carryOut, hx, hheld]
  have hexec : World.exec (.stripe (.cancel i k)) .ok w =
      (.ok (w.provider.reply (.cancel i k)), { w with
        provider := { w.provider with
          intents := w.provider.intents.set i { x with status := .canceled } } }) := by
    simp [World.exec, Provider.answer, hcarry]
  have hcancel : Smooth (· = w) (perform (.stripe (.cancel i k))) fun _ v => Unheld w p v := by
    refine Triple.perform fun c v hv hc => ?_
    rw [show c = .ok from hc, show v = w from hv, show machine.exec = World.exec from rfl, hexec]
    refine ⟨rfl, rfl, fun _ j hj => ?_⟩
    cases hintent.symm.trans hj
    exact ⟨{ x with status := .canceled }, by simp, rfl⟩
  refine Discipline.Flow.seq hcancel.attempt fun r => ?_
  cases r with
  | ok n => exact Triple.pure fun v hv => ⟨hv, rfl⟩
  | error e => exact Triple.unreached

theorem smooth_releaseHold (hheld : w.HeldAtStripe p) :
    Smooth (· = w) (releaseHold order k p) fun release v => Unheld w p v ∧
      release = ⟨true, none, false⟩ := by
  apply pinned_read failsOnly_nothing (by trivial) fun h => h.elim
  cases hconfigured : w.stripeConfigured with
  | false =>
    refine Triple.pure fun v hv => ⟨⟨by rw [hv], by rw [hv], fun h => ?_⟩, rfl⟩
    rw [hconfigured] at h
    cases h
  | true =>
    cases hintent : p.stripePaymentIntentId with
    | none =>
      refine Triple.pure fun v hv => ⟨⟨by rw [hv], by rw [hv], fun _ i hi => ?_⟩, rfl⟩
      rw [hintent] at hi
      cases hi
    | some i =>
      obtain ⟨x, hx, hstatus⟩ := hheld hconfigured i hintent
      exact smooth_cancelHold hintent hx hstatus

/-- A hold that Stripe still has is gone after the call. -/
theorem smooth_release (hindex : activePaymentConflict w.payments = false)
    (hholds : w.Holds order k p) (hheld : w.HeldAtStripe p) :
    Smooth (· = w) (releaseAuthorization order k p reason) fun _ v => v.LetGo k p := by
  refine Discipline.Flow.seq (smooth_releaseHold hheld) fun release =>
    Triple.fact fun hrelease => ?_
  subst hrelease
  have hwrite : Triple machine nothingFails (Unheld w p) (perform (.payment (.release k)))
      (fun _ v => v.LetGo k p) fun _ v => v.LetGo k p := by
    refine Triple.perform fun c v hv hc => ?_
    have hrow : v.payments.get k = some p := by
      rw [hv.payments]
      exact hholds.row
    have hframe := World.frame_exec (.payment (.release k)) c v
    have hgo : (World.exec (.payment (.release k)) c v).2.LetGo k p := by
      constructor
      · rw [released_payments (by rw [hv.payments]; exact hindex) (by rw [hc]; decide) hrow,
          Table.get_rewrite, hrow]
        exact ⟨{ p with status := .cancelled, canceledAt := some v.now },
          by simp [PaymentStmt.rewrite], rfl⟩
      · rw [hframe.stripeConfigured, hframe.provider rfl, hv.configured]
        exact hv.intent
    rw [show machine.exec = World.exec from rfl]
    cases (World.exec (.payment (.release k)) c v).1 with
    | ok n => exact hgo
    | error e => exact hgo
  have hmark : Smooth (Unheld w p)
      (Prog.when (true = true) (quietly (perform (.payment (.release k)))))
      fun _ v => v.LetGo k p :=
    Discipline.Flow.when (fun _ => Discipline.Flow.quietly hwrite) fun hnot => absurd rfl hnot
  refine Discipline.Flow.seq hmark fun _ => ?_
  have hevent : Smooth (fun v => v.LetGo k p) (Prog.when (false = false)
      (writeEvent order .system (releaseEventType true) none none (some k)))
      fun _ v => v.LetGo k p := by
    refine Discipline.Flow.when (fun _ => ?_) fun hnot => absurd rfl hnot
    have hnote (e : OrderEvent) : Smooth (fun v => v.LetGo k p) (perform (.event e))
        fun _ v => v.LetGo k p := by
      refine Triple.perform fun c v hv hc => ?_
      rw [show c = .ok from hc]
      exact ⟨hv.row, hv.intent⟩
    exact Discipline.Flow.seq (hnote _) fun _ => Triple.pure (Q := fun _ v => World.LetGo v k p)
      fun _ h => h
  exact Discipline.Flow.seq hevent fun _ => Triple.pure fun _ h => h

theorem smooth_settle (hindex : activePaymentConflict w.payments = false)
    (hholds : w.Holds order k p) (hheld : w.HeldAtStripe p) (hamount : 0 < amountCents)
    (howed : w.refundSucceeded (order, reason) = false) :
    Smooth (· = w) (settleRefund order amountCents reason) fun _ v => v.LetGo k p := by
  have hfound : w.payments.findFirst (fun _ q => q.orderId = some order && q.live) =
      some (k, p) := by
    cases hfirst : w.payments.findFirst fun _ q => q.orderId = some order && q.live with
    | none =>
      have hrow := Table.findFirst_none.mp hfirst k p hholds.row
      simp [hholds.order, hholds.live] at hrow
    | some found =>
      obtain ⟨j, q⟩ := found
      obtain ⟨hrow, hmatch⟩ := Table.findFirst_some hfirst
      simp only [Bool.and_eq_true, decide_eq_true_eq] at hmatch
      have hsame := sole_live hindex hholds.row hholds.order hholds.live hrow hmatch.1 hmatch.2
      subst hsame
      rw [hholds.row] at hrow
      cases hrow
      rfl
  have hinner : Smooth (· = w) (settleRefundInner order amountCents reason)
      fun _ v => v.LetGo k p := by
    apply pinned_read failsOnly_nothing (by trivial) fun h => h.elim
    have hunsettled : (w.refunds.get (order, reason)).filter (·.status = .settled) = none := by
      refine Option.filter_eq_none_iff.mpr fun row hrow hsettled => ?_
      simp [World.refundSucceeded, hrow, hsettled] at howed
    rw [hunsettled]
    refine Discipline.Flow.ite (fun hzero => absurd hzero (Int.not_le.mpr hamount)) fun _ => ?_
    have hactive : Smooth (· = w) (activePaymentForOrder order) fun found v => v = w ∧
        found = some (k, p) := by
      apply pinned_read failsOnly_nothing (by trivial) fun h => h.elim
      rw [hfound]
      exact Triple.pure fun _ h => ⟨h, rfl⟩
    refine Discipline.Flow.seq hactive fun found => Triple.fact fun hsome => ?_
    subst hsome
    show Smooth (· = w) (settleFound order amountCents reason _ k p) _
    unfold settleFound
    rw [hholds.status]
    exact smooth_release hindex hholds hheld
  refine Discipline.Flow.handle (Triple.weaken hinner (fun _ h => h) (fun _ _ h => h)
    fun _ _ h => h) fun _ => Triple.unreached

/-- The call in which nothing fails lets a hold go that Stripe still has. -/
theorem released_settle (hindex : activePaymentConflict w.payments = false)
    (hholds : w.Holds order k p) (hheld : w.HeldAtStripe p) (hamount : 0 < amountCents)
    (howed : w.refundSucceeded (order, reason) = false) :
    ((settleRefund order amountCents reason).alone machine .ok w).2.LetGo k p := by
  have hsmooth : Smooth (· = w) (settleRefund order amountCents reason) fun _ v => v.LetGo k p :=
    smooth_settle hindex hholds hheld hamount howed
  have hend := hsmooth.alone rfl
  cases hr : ((settleRefund order amountCents reason).alone machine .ok w).1 with
  | ok outcome =>
    rw [hr] at hend
    exact hend
  | error e =>
    rw [hr] at hend
    exact hend.elim

end Release

section Runs

variable (order : OrderId) (amountCents : Cents) (reason : RefundReason)

/-- Every step of the calls while nothing is left to give back. -/
theorem notes_series (calls : Nat) : Notes order reason (·.Closed order reason)
    (settles order amountCents reason calls) fun _ x => x.Closed order reason := by
  refine Watched.series fun p hp => ?_
  rw [List.eq_of_mem_replicate hp]
  exact Discipline.Flow.seq (notes_settle order amountCents reason) fun _ =>
    Watched.pure fun _ h => h

theorem withholds_series (calls : Nat) : Withholds order reason (Unowed order reason)
    (settles order amountCents reason calls) fun _ => Unowed order reason := by
  refine Watched.series fun p hp => ?_
  rw [List.eq_of_mem_replicate hp]
  exact Discipline.Flow.seq (withholds_settle order amountCents reason) fun _ =>
    Watched.pure fun _ h => h

variable {order amountCents reason} {w : World} {g : Run Unit} {calls : Nat}

/-- Once nothing is left to give back, the calls leave the ledger and Stripe alone. -/
theorem leftAlone_reach (hclosed : w.Closed order reason)
    (hg : Pool.Reach machine noRecord databaseUp
      (soleRun w (settles order amountCents reason calls)) g) : LeftAlone w g := by
  have hstart := (notes_series order amountCents reason calls).stands_start () hclosed
  have henv (c : Fate) (u : World) : (machine.env c u).refunds = u.refunds ∧
      (machine.env c u).payments = u.payments ∧ (machine.env c u).provider = u.provider := by
    obtain ⟨now, hnow⟩ := World.tick_eq c u
    rw [show machine.env c u = World.tick c u from rfl, hnow]
    exact ⟨rfl, rfl, rfl⟩
  have hquiet (l : Label Site Stmt) (c : Fate) (u : World) (h : NotesOnly l c u) :
      (machine.after l c u).refunds = u.refunds ∧ (machine.after l c u).payments = u.payments ∧
        (machine.after l c u).provider = u.provider := by
    cases l with
    | ask site => exact ⟨rfl, rfl, rfl⟩
    | call s =>
      obtain ⟨e, rfl⟩ := h s rfl
      have hframe := World.frame_exec (.event e) c u
      exact ⟨hframe.refunds rfl, hframe.payments rfl, hframe.provider rfl⟩
  obtain ⟨⟨hrefunds, hpayments, hprovider⟩, hstands⟩ := Watched.stands_reach
    (T := fun (u v : World) => v.refunds = u.refunds ∧ v.payments = u.payments ∧
      v.provider = u.provider)
    World.still_tick henv hquiet (fun _ => ⟨rfl, rfl, rfl⟩)
    (fun u v x h h' => ⟨h'.1.trans h.1, h'.2.1.trans h.2.1, h'.2.2.trans h.2.2⟩)
    (fun _ _ _ _ _ => trivial) hstart hg
  refine ⟨hrefunds, hpayments, hprovider, fun p call hp hl => ?_⟩
  obtain ⟨e, he⟩ := Watched.stands_next (c := .ok) hstands hp hl trivial _ rfl
  cases he

/-- What was not taken is not refunded, nor is anything because the search expired. -/
theorem unrefunded_reach (howed : Unowed order reason w)
    (hg : Pool.Reach machine noRecord databaseUp
      (soleRun w (settles order amountCents reason calls)) g) : g.state.refunds = w.refunds ∧
      ∀ p intent a o r, g.threads = [p] →
        p.label ≠ some (.call (.stripe (.createRefund intent a o r))) := by
  have hstart := (withholds_series order amountCents reason calls).stands_start () howed
  have henv (c : Fate) (u : World) : (machine.env c u).refunds = u.refunds := by
    obtain ⟨now, hnow⟩ := World.tick_eq c u
    rw [show machine.env c u = World.tick c u from rfl, hnow]
  have hnone (l : Label Site Stmt) (c : Fate) (u : World) (h : Unrefunding l c u) :
      (machine.after l c u).refunds = u.refunds := by
    cases l with
    | ask site => rfl
    | call s =>
      have hspares : s.touchesRefunds = false := by
        have hs := h s rfl
        cases s with
        | upsertRefund order reason row => cases hs
        | amendRefund order reason a => cases hs
        | _ => rfl
      exact (World.frame_exec s c u).refunds hspares
  obtain ⟨hrefunds, hstands⟩ := Watched.stands_reach
    (T := fun (u v : World) => v.refunds = u.refunds) World.still_tick henv hnone (fun _ => rfl)
    (fun u v x h h' => h'.trans h)
    (fun _ _ _ _ _ => trivial) hstart hg
  refine ⟨hrefunds, fun p intent a o r hp hl => ?_⟩
  have hcall := Watched.stands_next (c := .ok) hstands hp hl trivial _ rfl
  cases hcall

/-- Where a call ended in success, nothing is left to give back. -/
theorem closed_succeeds (hindex : activePaymentConflict w.payments = false)
    (hg : Pool.Reach machine noRecord databaseUp (soleRun w (succeeds order amountCents reason)) g)
    (hend : g.threads = [.ret ()]) : g.state.Closed order reason := by
  have hprog : Repays (fun x => activePaymentConflict x.payments = false)
      (succeeds order amountCents reason) fun _ x => x.Closed order reason := by
    refine Discipline.Flow.seq (repays_settle order amountCents reason) fun outcome => ?_
    refine Discipline.Flow.ite (fun hsuccess => Serial.pure fun _ h => h hsuccess) fun _ => ?_
    exact Serial.throw fun _ _ => trivial
  have hC (t : Nat) (l : Label Site Stmt) (c : Fate) (x : World × Unit)
      (h : databaseUp t l c x = true) : upheld l c x.1 := h
  obtain ⟨-, q, hq, hstand⟩ := hprog.reach World.still_tick hC hindex trivial hg
  rw [hend] at hq
  cases hq
  exact hstand

/-- Settling a refund again and again is settling it once. -/
theorem settled_once (w : World) (order : OrderId) (amountCents : Cents) (reason : RefundReason)
    (calls : Nat) (g : Run Unit) (hindex : activePaymentConflict w.payments = false)
    (hg : Pool.Reach machine noRecord databaseUp
      (soleRun w (settles order amountCents reason calls)) g) :
    SettledOnce order amountCents reason w g := by
  have hasks : ∀ p ∈ (soleRun w (settles order amountCents reason calls)).threads,
      p.Only (Stmt.settling order amountCents reason) := by
    intro p hp
    rw [List.mem_singleton.mp hp]
    exact settling_settles order amountCents reason calls
  have hlater : activePaymentConflict g.state.payments = false := by
    apply hg.footprint (I := fun x => activePaymentConflict x.1.payments = false) hasks hindex
    · exact fun t l x hx => hx
    · exact fun t s c x hx hs _ => settling_index hs hx
    · intro c x hx
      obtain ⟨now, hnow⟩ := World.tick_eq c x.1
      rw [show machine.env c x.1 = World.tick c x.1 from rfl, hnow]
      exact hx
  constructor
  · intro p intent a o r hp hl
    have hissues := hg.issues (A := fun _ => Stmt.settling order amountCents reason)
      (fun t q hq => hasks q (List.mem_of_getElem? hq)) (t := 0) (by rw [hp]; rfl) hl
    exact settling_key hissues
  · intro k hk
    apply hg.footprint (I := fun x => x.1.refunds.get k = w.refunds.get k) hasks rfl
    · exact fun t l x hx => hx
    · exact fun t s c x hx hs _ => (exec_sparesRefund (settling_spares hk hs)).1.trans hx
    · intro c x hx
      obtain ⟨now, hnow⟩ := World.tick_eq c x.1
      rw [show machine.env c x.1 = World.tick c x.1 from rfl, hnow]
      exact hx
  · rintro ⟨k, p, hholds⟩
    refine (unrefunded_reach (.inr fun j q hj hq hlive => ?_) hg).1
    have hsame := sole_live hindex hholds.row hholds.order hholds.live hj hq hlive
    subst hsame
    rw [hholds.row] at hj
    cases hj
    exact hholds.status
  · exact fun k p hholds hheld hamount howed => released_settle hlater hholds hheld hamount howed
  · exact fun hexpired => unrefunded_reach (.inl hexpired) hg
  · intro _ g₁ hg₁ hend later g₂ hg₂
    exact leftAlone_reach (closed_succeeds hlater hg₁ hend) hg₂

end Runs

/-- A refund of nothing is skipped before the payment is looked at, so that the hold stays. -/
theorem zero_amount_keeps_hold : ¬ ∀ (w : World) (order : OrderId) (amountCents : Cents)
    (reason : RefundReason) (k : PaymentId) (p : Payment),
    activePaymentConflict w.payments = false → w.Holds order k p → w.HeldAtStripe p →
    w.refundSucceeded (order, reason) = false →
    ((settleRefund order amountCents reason).alone machine .ok w).2.LetGo k p := by
  intro hlaw
  have hheld : searchWorld.HeldAtStripe heldPayment := by
    intro _ i hi
    cases hi
    exact ⟨⟨10000, .requiresCapture⟩, rfl, rfl⟩
  obtain ⟨p', hrow, hcancelled⟩ := (hlaw searchWorld 1 0 .admin 5 heldPayment (by decide)
    ⟨rfl, rfl, rfl, rfl⟩ hheld rfl).row
  have hkept : ((settleRefund 1 0 .admin).alone machine .ok searchWorld).2.payments.get 5 =
      some heldPayment := by decide +kernel
  rw [hkept] at hrow
  cases hrow
  cases hcancelled

/-- What the row of the refund says. -/
def refundRow (g : Run Unit) : Option (SettlementStatus × Nat) :=
  (g.state.refunds.get (1, .cancelAfterAssign)).map fun r => (r.status, r.attempts)

/-- Stripe cannot be reached at first, and the second call finds the row parked. -/
theorem settled_at_second_call : ∃ g : Run Unit, refundRow g = some (.settled, 2) ∧
    SettledOnce 1 8000 .cancelAfterAssign assignedWorld g := by
  have hrun : Pool.observe machine noRecord databaseUp refundRow
      (goes 0 3 ++ [.run 0 (.refused .connection)] ++ goes 0 12) (.run 0 .ok)
      (soleRun assignedWorld (settles 1 8000 .cancelAfterAssign 2)) =
      some (some (.settled, 2), some (.settled, 2)) := by decide +kernel
  obtain ⟨g, -, hg, -, -, hview, -⟩ := Pool.observe_eq hrun
  exact ⟨g, hview, settled_once assignedWorld 1 8000 .cancelAfterAssign 2 g (by decide) hg⟩

end CarSalePro
