import CarSalePro.Orders.Effects

namespace CarSalePro

open Store Interleave Prog OrderStatus

/-- Where a thread stands with the orders it works on. -/
inductive Stance where
  | out
  | held (order : OrderId) (inspector : UserId)
  | done (order : OrderId)
  | closing (order : OrderId)
  | broken (order : OrderId) (inspector : UserId)
  | working (orders : List OrderId)
  deriving DecidableEq

namespace Stance

/-- The thread may ask for the money of this order. -/
def covers : Stance → OrderId → Prop
  | held o _, o' => o = o'
  | working orders, o' => o' ∈ orders
  | _, _ => False

/-- Where a thread may end. -/
def Rest (ph : Stance) : Prop :=
  ph = out ∨ (∃ o, ph = done o) ∨ (∃ o i, ph = broken o i) ∨ ∃ os, ph = working os

theorem Rest.out : Rest .out := .inl rfl

end Stance

/-- The order is still in the search. -/
def Order.isOpen (r : Order) : Bool := r.status ∈ searchStatuses

def World.openOrder (w : World) (o : OrderId) : Bool := (w.orders.get o).any Order.isOpen

def World.cancelledOrder (w : World) (o : OrderId) : Bool :=
  (w.orders.get o).any (·.status = cancelled)

/-- The order has been assigned and not cancelled since. -/
def World.workedOn (w : World) (o : OrderId) : Bool :=
  (w.orders.get o).any (·.status ∈ postAssignmentStatuses)

/-- A cancellation of the order would be refused. -/
def World.uncancellable (w : World) (o : OrderId) : Bool :=
  (w.orders.get o).all fun r => r.status ≠ cancelled && !canTransition r.status cancelled

/-- Sites whose failure the operations catch. -/
def caughtSite : Site → Bool
  | .promote | .retrievePaymentIntent => true
  | _ => false

/-- Statements whose failure the operations catch. -/
def caughtStmt : Stmt → Bool
  | .stripe _ => true
  | .counterOffer (.present _ _ _) | .counterOffer (.expireQueue _ _) => true
  | .event e => e.type = .counterOfferPresented
  | .payment (.authorize _ _) => true
  | _ => false

/-- The order whose row the statement is an update of. -/
def Stmt.order? : Stmt → Option OrderId
  | .order u => some u.order
  | _ => none

/-- The statement went through, and wrote a row. -/
def wrote (s : Stmt) (c : Fate) (w : World) : Prop := ∃ n, (World.exec s c w).1 = .ok (n + 1)

/-- What a discipline of claims leaves open: the payments it is about, the statements that touch
no claim, and whether a sweep captures outside a claim. -/
structure ClaimScope where
  registry : Registry
  side : Stmt → Prop
  sweeps : Prop

/-- The moves of a claim. -/
inductive ClaimMove (S : ClaimScope) :
    Stance → Label Site Stmt → Fate → World → Stance → Prop where
  | read (ph l c w) : ClaimMove S ph (.ask l) c w ph
  | enter (o l c w) : ClaimMove S .out (.ask l) c w (.closing o)
  | watch (orders l c w) (hw : S.sweeps) (h : ∀ o ∈ orders, w.workedOn o = true) :
      ClaimMove S .out (.ask l) c w (.working orders)
  | readFails (o i l c w) (h : World.fault l c ≠ none) (hc : caughtSite l = false) :
      ClaimMove S (.held o i) (.ask l) c w (.broken o i)
  | closed (o i c w) (h : w.openOrder o = false) :
      ClaimMove S (.held o i) (.ask .transition) c w (.broken o i)
  | cancelledBefore (o c w) (h : w.cancelledOrder o = true) :
      ClaimMove S (.closing o) (.ask .transition) c w .out
  | illegal (o c w) (h : w.uncancellable o = true) :
      ClaimMove S (.closing o) (.ask .transition) c w .out
  | lapse (o c w) (h : World.fault .transition c ≠ none) :
      ClaimMove S (.closing o) (.ask .transition) c w .out
  | side (ph s c w) (h : S.side s) (hd : ∀ o, ph ≠ .done o) : ClaimMove S ph (.call s) c w ph
  | event (o e c w) : ClaimMove S (.done o) (.call (.event e)) c w (.done o)
  | deadline (o n c w) :
      ClaimMove S (.done o) (.call (.order (.setInspectionDeadline o n))) c w (.done o)
  | claimed (o statuses i c w) (hs : ∀ s ∈ statuses, s ∈ searchStatuses)
      (h : wrote (.order (.claim o statuses i)) c w) :
      ClaimMove S .out (.call (.order (.claim o statuses i))) c w (.held o i)
  | missed (o statuses i c w) (h : ¬ wrote (.order (.claim o statuses i)) c w) :
      ClaimMove S .out (.call (.order (.claim o statuses i))) c w .out
  | released (o i c w n) (h : (World.exec (.order (.releaseClaim o i)) c w).1 = .ok n) :
      ClaimMove S (.held o i) (.call (.order (.releaseClaim o i))) c w .out
  | writeFails (o i s c w e) (h : (World.exec s c w).1 = .error e) (hc : caughtStmt s = false)
      (hs : S.side s ∨ s.order? = some o) :
      ClaimMove S (.held o i) (.call s) c w (.broken o i)
  | assigned (o i source legal c w n)
      (h : (World.exec (.order (.transition o source assigned legal)) c w).1 = .ok n) :
      ClaimMove S (.held o i) (.call (.order (.transition o source assigned legal))) c w
        (.done o)
  | cancelled (o source legal c w n)
      (h : (World.exec (.order (.transition o source cancelled legal)) c w).1 = .ok n) :
      ClaimMove S (.closing o) (.call (.order (.transition o source cancelled legal))) c w .out
  | cancelFails (o source legal c w e)
      (h : (World.exec (.order (.transition o source cancelled legal)) c w).1 = .error e) :
      ClaimMove S (.closing o) (.call (.order (.transition o source cancelled legal))) c w .out
  | refund (o reason k s intent c w) (hk : S.registry k = some (some o, intent))
      (h : RefundStmt o reason k intent s) :
      ClaimMove S (.closing o) (.call s) c w (.closing o)
  | capture (ph o k intent amountCents c w) (hk : S.registry k = some (some o, some intent))
      (h : ph.covers o) :
      ClaimMove S ph (.call (.stripe (.capture intent k amountCents))) c w ph

/-- How claims are taken, used and given up. -/
def claimDiscipline (S : ClaimScope) : Discipline Site Stmt World Fate Stance where
  view _ w := w.registry = S.registry
  moves := ClaimMove S

/-- A method follows the discipline from one stance. -/
abbrev ClaimFlow (S : ClaimScope) {α : Type} (ph : Stance) (p : Act α)
    (B : α → Stance → Prop) (E : Stance → Prop) : Prop :=
  (claimDiscipline S).Flow machine (· = ph) p B fun _ => E

section Rules

variable {S : ClaimScope} {ph : Stance} {α : Type}

theorem flow_read {l : Site} {ρ : Type} (f : World → ρ) :
    ClaimFlow S ph (fetch l f : Act ρ)
      (fun r x => x = ph ∧ ∃ w, w.registry = S.registry ∧ r = f w) (· = ph) := by
  refine Discipline.Flow.fetch fun x c w hx hw => ?_
  subst hx
  refine ⟨x, .read _ _ _ _, ?_⟩
  simp only [Machine.answer, machine]
  cases World.fault l c with
  | none => exact ⟨rfl, w, hw, rfl⟩
  | some e => rfl

theorem flow_only {p : Act α} (hp : p.Only S.side) (hd : ∀ o, ph ≠ .done o) :
    ClaimFlow S ph p (fun _ => (· = ph)) (· = ph) :=
  Discipline.Flow.only hp (fun x l c w _ _ => .read x l c w)
    fun x s c w hx hs _ => .side x s c w hs (hx ▸ hd)

/-- A stance in which methods read and write, `X` being where an error they do not catch leaves
them. -/
structure Holding (S : ClaimScope) (ph : Stance) (X : Stance → Prop) :
    Prop where
  plain : ∀ o, ph ≠ .done o
  reads : ∀ {l : Site} {ρ : Type} (f : World → ρ), caughtSite l = false →
    ClaimFlow S ph (fetch l f : Act ρ)
    (fun r x => x = ph ∧ ∃ w, w.registry = S.registry ∧ r = f w) X
  writes : ∀ {s : Stmt}, S.side s → caughtStmt s = false →
    ClaimFlow S ph (issue s) (fun _ => (· = ph)) X

theorem holding_held (o : OrderId) (i : UserId) :
    Holding S (.held o i) (· = .broken o i) where
  plain _ h := by cases h
  reads {l} _ f hl := by
    refine Discipline.Flow.fetch fun x c w hx hw => ?_
    subst hx
    cases hf : World.fault l c with
    | none =>
      refine ⟨_, .read _ _ _ _, ?_⟩
      simp only [Machine.answer, machine, hf]
      exact ⟨rfl, w, hw, rfl⟩
    | some e =>
      refine ⟨_, .readFails o i l c w (by simp [hf]) hl, ?_⟩
      simp only [Machine.answer, machine, hf]
      rfl
  writes {s} hs hc := by
    refine Discipline.Flow.seq (B := fun _ => (· = .held o i)) ?_ fun _ => .pure fun _ hx => hx
    refine Discipline.Flow.perform fun x c w hx _ => ?_
    subst hx
    cases hr : (World.exec s c w).1 with
    | ok n =>
      refine ⟨_, .side _ s c w hs fun _ h => (by cases h), ?_⟩
      rw [show machine.exec s c w = World.exec s c w from rfl, hr]
      rfl
    | error e =>
      refine ⟨_, .writeFails o i s c w e hr hc (.inl hs), ?_⟩
      rw [show machine.exec s c w = World.exec s c w from rfl, hr]
      rfl

theorem holding_same (hd : ∀ o, ph ≠ .done o) : Holding S ph (· = ph) where
  plain := hd
  reads f _ := flow_read f
  writes hs _ := flow_only (only_issue hs) hd

variable {X : Stance → Prop}

/-- A best-effort part of a method. -/
theorem Holding.quiet (h : Holding S ph X) {p : Act α} (hp : p.Only S.side) :
    ClaimFlow S ph (quietly p) (fun _ => (· = ph)) X :=
  Discipline.Flow.quietly (flow_only hp h.plain)

theorem Holding.optional (h : Holding S ph X) {c : Prop} [Decidable c] {s : Stmt} (hs : S.side s)
    (hc : caughtStmt s = false) : ClaimFlow S ph (Prog.when c (issue s)) (fun _ => (· = ph)) X :=
  Discipline.Flow.when (fun _ => h.writes hs hc) fun _ _ hx => hx

theorem Holding.note (h : Holding S ph X) (hs : ∀ e, S.side (.event e)) (o : OrderId)
    (actor : Actor) (type : EventType) (ht : type ≠ .counterOfferPresented) :
    ClaimFlow S ph (note o actor type) (fun _ => (· = ph)) X :=
  h.writes (hs _) (by simpa [caughtStmt] using ht)

theorem Holding.then_read (h : Holding S ph X) {l : Site} {ρ : Type} {f : World → ρ}
    (hl : caughtSite l = false) {k : ρ → Act α} {B : α → Stance → Prop}
    (hk : ∀ r, ClaimFlow S ph (k r) B X) : ClaimFlow S ph (fetch l f >>= k) B X :=
  (h.reads f hl).seq fun r => (hk r).weaken (fun _ hx => hx.1) (fun _ _ hx => hx) fun _ _ hx => hx

end Rules

section Capture

variable {S : ClaimScope} {ph : Stance} {X : Stance → Prop}

/-- What `activePaymentForOrder` finds is a payment of the order. -/
theorem flow_activePayment (h : Holding S ph X) (o : OrderId) :
    ClaimFlow S ph (activePaymentForOrder o) (fun r x => x = ph ∧
      ∀ k p, r = some (k, p) → S.registry k = some (some o, p.stripePaymentIntentId)) X := by
  have hrow {w : World} {k : PaymentId} {p : Payment} (hw : w.registry = S.registry)
      (hp : w.payments.get k = some p) (ho : p.orderId = some o) :
      S.registry k = some (some o, p.stripePaymentIntentId) := by
    rw [← hw, World.registry_get hp, Payment.tag, ho]
  refine (h.reads _ rfl).seq fun holding => ?_
  rintro x ⟨rfl, w, hw, rfl⟩
  cases hf : w.payments.findFirst fun _ p => p.orderId = some o && p.live with
  | some found =>
    refine ⟨rfl, fun k p hkp => ?_⟩
    cases hkp
    have hp := Table.findFirst_some hf
    simp only [Bool.and_eq_true, decide_eq_true_eq] at hp
    exact hrow hw hp.1 hp.2.1
  | none =>
    refine ((h.reads _ rfl).post ?_ fun _ _ hx => hx) _ rfl
    rintro r x ⟨rfl, v, hv, rfl⟩
    refine ⟨rfl, fun k p hkp => ?_⟩
    have hp := Table.findLast_some hkp
    simp only [Bool.and_eq_true, decide_eq_true_eq] at hp
    exact hrow hv hp.1 hp.2.1

variable (hF : ∀ s, CaptureStmt s → (∀ i k a, s ≠ .stripe (.capture i k a)) → S.side s)
include hF

theorem flow_markPaymentCaptured (h : Holding S ph X) (k : PaymentId) :
    ClaimFlow S ph (markPaymentCaptured k) (fun _ => (· = ph)) X :=
  (h.writes (hF _ (.markCaptured k) (by simp)) rfl).seq fun _ =>
    h.writes (hF _ (.stampCaptured k) (by simp)) rfl

theorem flow_captureRefused (h : Holding S ph X) (k : PaymentId) (intent : IntentId)
    (err : Err) : ClaimFlow S ph (captureRefused k intent err) (fun _ => (· = ph)) X := by
  have hpure (v : CaptureOutcome) :
      ClaimFlow S ph (pure v : Act CaptureOutcome) (fun _ => (· = ph)) X := .pure fun _ hx => hx
  unfold captureRefused
  refine .ite (fun _ => ?_) fun _ => hpure _
  have hask : ClaimFlow S ph (retrievePaymentIntent intent) (fun _ => (· = ph)) (· = ph) :=
    flow_only (only_fetch _ _) h.plain
  refine hask.attempt.seq fun r => ?_
  cases r with
  | error e => exact hpure _
  | ok found =>
    cases found with
    | none => exact hpure _
    | some i =>
      exact .ite (fun _ => (flow_markPaymentCaptured hF h k).seq fun _ => hpure _) fun _ => hpure _

theorem flow_captureHold (h : Holding S ph X) {o : OrderId} (hc : ph.covers o)
    {k : PaymentId} {intent : IntentId} (hk : S.registry k = some (some o, some intent))
    (amountCents : Option Cents) :
    ClaimFlow S ph (captureHold k intent amountCents) (fun _ => (· = ph)) X := by
  have hask : ClaimFlow S ph (perform (.stripe (.capture intent k amountCents)))
      (fun _ => (· = ph)) (· = ph) := by
    refine Discipline.Flow.perform fun x c w hx _ => ?_
    subst hx
    refine ⟨x, .capture x o k intent amountCents c w hk hc, ?_⟩
    cases (machine.exec (.stripe (.capture intent k amountCents)) c w).1 <;> rfl
  refine hask.attempt.seq fun r => ?_
  cases r with
  | ok n => exact (flow_markPaymentCaptured hF h k).seq fun _ => .pure fun _ hx => hx
  | error err => exact flow_captureRefused hF h k intent err

/-- A capture, in a stance that may ask for the order's money. -/
theorem flow_captureOrderPayment (h : Holding S ph X) {o : OrderId} (hc : ph.covers o)
    (amountCents : Option Cents) :
    ClaimFlow S ph (captureOrderPayment o amountCents) (fun _ => (· = ph)) X := by
  have hpure (v : CaptureOutcome) :
      ClaimFlow S ph (pure v : Act CaptureOutcome) (fun _ => (· = ph)) X := .pure fun _ hx => hx
  refine (flow_activePayment h o).seq fun found => Discipline.Flow.fact fun hreg => ?_
  cases found with
  | none => exact hpure _
  | some found =>
    obtain ⟨k, p⟩ := found
    refine .ite (fun _ => hpure _) fun _ => .ite (fun _ => hpure _) fun _ => ?_
    refine h.then_read rfl fun configured => .ite (fun _ => ?_) fun _ => ?_
    · cases hi : p.stripePaymentIntentId with
      | none => exact hpure _
      | some intent =>
        refine .ite (fun _ => hpure _) fun _ => ?_
        exact flow_captureHold hF h hc (by rw [hreg k p rfl, hi]) amountCents
    · exact (flow_markPaymentCaptured hF h k).seq fun _ => hpure _

end Capture

section Endings

variable {S : ClaimScope} (o : OrderId) (i : UserId) (actor : Actor)

theorem flow_release :
    ClaimFlow S (.held o i) (releaseOrderClaim o i) (fun _ => (· = .out)) (· = .broken o i) := by
  refine Discipline.Flow.seq (B := fun _ => (· = .out)) ?_ fun _ => .pure fun _ hx => hx
  refine Discipline.Flow.perform fun x c w hx _ => ?_
  subst hx
  rw [show machine.exec = World.exec from rfl]
  cases hr : (World.exec (.order (.releaseClaim o i)) c w).1 with
  | ok n => exact ⟨_, .released o i c w n hr, rfl⟩
  | error e => exact ⟨_, .writeFails o i _ c w e hr rfl (.inr rfl), rfl⟩

/-- What a transition to `assigned` writes after the status. -/
theorem flow_done {p : Act Unit}
    (hp : p.Only fun s => (∃ e, s = .event e) ∨ ∃ n, s = .order (.setInspectionDeadline o n)) :
    ClaimFlow S (.done o) p (fun _ => (· = .done o)) (· = .done o) := by
  refine Discipline.Flow.only hp (fun x l c w _ _ => .read x l c w) fun x s c w hx hs _ => ?_
  subst hx
  rcases hs with ⟨e, rfl⟩ | ⟨n, rfl⟩
  · exact .event o e c w
  · exact .deadline o n c w

theorem flow_assigned :
    ClaimFlow S (.held o i) (transition o assigned actor)
      (fun _ x => x = .done o ∨ x = .broken o i) (fun x => x = .done o ∨ x = .broken o i) := by
  have hread : ClaimFlow S (.held o i) (requireOrderAt .transition o)
      (fun r x => x = if r.isOpen then .held o i else .broken o i) (· = .broken o i) := by
    refine Discipline.Flow.seq
      (B := fun r x => x = if r.any Order.isOpen then .held o i else .broken o i) ?_ fun r => ?_
    · refine Discipline.Flow.fetch fun x c w hx _ => ?_
      subst hx
      simp only [Machine.answer, machine]
      cases hf : World.fault .transition c with
      | some e => exact ⟨_, .readFails o i _ c w (by simp [hf]) rfl, rfl⟩
      | none =>
        by_cases ho : w.openOrder o = true
        · exact ⟨_, .read _ _ _ _, (if_pos ho).symm⟩
        · exact ⟨_, .closed o i c w (by simpa using ho), (if_neg ho).symm⟩
    · cases r with
      | none => exact .throw fun x hx => hx
      | some r => exact .pure fun x hx => hx
  refine (hread.post (fun _ _ hx => hx) fun _ _ hx => .inr hx).seq fun r => ?_
  by_cases ho : r.isOpen
  · have hs : r.status ∈ searchStatuses := by simpa [Order.isOpen] using ho
    have hne : r.status ≠ assigned := by intro h; rw [h] at hs; revert hs; decide
    have hlegal : canTransition r.status assigned = true := by
      revert hs; cases r.status <;> decide
    rw [if_neg hne, dif_pos hlegal, if_pos ho]
    refine Discipline.Flow.seq (B := fun _ => (· = .done o)) ?_ fun _ => ?_
    · refine Discipline.Flow.seq (B := fun _ => (· = .done o)) ?_ fun _ => .pure fun _ hx => hx
      refine Discipline.Flow.perform fun x c w hx _ => ?_
      subst hx
      rw [show machine.exec = World.exec from rfl]
      cases hr : (World.exec (.order (.transition o r.status assigned hlegal)) c w).1 with
      | ok n => exact ⟨_, .assigned o i _ hlegal c w n hr, rfl⟩
      | error e => exact ⟨_, .writeFails o i _ c w e hr rfl (.inr rfl), .inr rfl⟩
    · refine (flow_done o ?_).post (fun _ _ hx => .inl hx) fun _ _ hx => .inl hx
      refine Only.seq (only_writeEvent _ _ _ _ _ _ fun e => .inl ⟨e, rfl⟩) fun _ => ?_
      exact Only.when fun _ => only_enterAssigned o fun n => .inr ⟨n, rfl⟩
  · rw [if_neg ho]
    refine .ite (fun _ => .pure fun _ hx => .inr hx) fun _ => ?_
    split
    next legal =>
      have hs := canTransition_assigned legal
      exact absurd (by simpa [Order.isOpen] using hs) ho
    next => exact .throw fun _ hx => .inr hx

/-- A transition to `cancelled`, from a stance whose read of the order leads to `closing`. -/
theorem flow_cancelFrom {ph : Stance} (hE : ∀ e, S.side (.event e))
    (hread : ClaimFlow S ph (fetch .transition (·.orders.get o) : Act (Option Order))
      (fun r x => x = if r.any fun r => canTransition r.status cancelled then .closing o else .out)
      (· = .out)) :
    ClaimFlow S ph (transition o cancelled actor) (fun _ => (· = .out)) (· = .out) := by
  have hrow : ClaimFlow S ph (requireOrderAt .transition o)
      (fun r x => x = if canTransition r.status cancelled then .closing o else .out)
      (· = .out) := by
    refine hread.seq fun r => ?_
    cases r with
    | none => exact .throw fun x hx => hx
    | some r => exact .pure fun x hx => hx
  refine hrow.seq fun r => ?_
  by_cases hl : canTransition r.status cancelled
  · have hne : r.status ≠ cancelled := by
      intro h; rw [h] at hl; exact absurd hl (by decide)
    rw [if_neg hne, dif_pos hl, if_pos hl]
    refine Discipline.Flow.seq (B := fun _ => (· = .out)) ?_ fun _ => ?_
    · refine Discipline.Flow.seq (B := fun _ => (· = .out)) ?_ fun _ => .pure fun _ hx => hx
      refine Discipline.Flow.perform fun x c w hx _ => ?_
      subst hx
      rw [show machine.exec = World.exec from rfl]
      cases hr : (World.exec (.order (.transition o r.status cancelled hl)) c w).1 with
      | ok n => exact ⟨_, .cancelled o _ hl c w n hr, rfl⟩
      | error e => exact ⟨_, .cancelFails o _ hl c w e hr, rfl⟩
    · refine flow_only ?_ fun _ h => by cases h
      refine Only.seq (only_writeEvent _ _ _ _ _ _ hE) fun _ => ?_
      exact Only.when fun h => absurd h (by decide)
  · rw [if_neg hl, dif_neg hl]
    exact .ite (fun _ => .pure fun _ hx => hx) fun _ => .throw fun _ hx => hx

theorem flow_cancelled (hE : ∀ e, S.side (.event e)) :
    ClaimFlow S (.closing o) (transition o cancelled actor) (fun _ => (· = .out))
      (· = .out) := by
  refine flow_cancelFrom o actor hE (Discipline.Flow.fetch fun x c w hx _ => ?_)
  subst hx
  simp only [Machine.answer, machine]
  cases hf : World.fault .transition c with
  | some e => exact ⟨_, .lapse o c w (by simp [hf]), rfl⟩
  | none =>
    simp only [Discipline.onAnswer]
    cases hr : w.orders.get o with
    | none => exact ⟨_, .illegal o c w (by simp [World.uncancellable, hr]), rfl⟩
    | some r =>
      by_cases hl : canTransition r.status cancelled
      · exact ⟨_, .read _ _ _ _, (if_pos hl).symm⟩
      · refine ⟨.out, ?_, (if_neg hl).symm⟩
        by_cases hs : r.status = cancelled
        · exact .cancelledBefore o c w (by simp [World.cancelledOrder, hr, hs])
        · exact .illegal o c w (by simp [World.uncancellable, hr, hs, hl])

/-- `settleRefund` never throws, and leaves its caller to close the order. -/
theorem flow_settleRefund (hE : ∀ e, S.side (.event e)) (amountCents : Cents)
    (reason : RefundReason)
    {E : Stance → Prop} :
    ClaimFlow S .out (settleRefund o amountCents reason) (fun _ => (· = .closing o)) E := by
  have hpure (r : RefundOutcome) :
      ClaimFlow S (.closing o) (pure r : Act RefundOutcome) (fun _ => (· = .closing o))
        (· = .closing o) := .pure fun _ hx => hx
  have hd (o') : Stance.closing o ≠ .done o' := by intro h; cases h
  refine Discipline.Flow.catch (X := fun _ => (· = .closing o)) ?_ fun _ => .pure fun _ hx => hx
  refine Discipline.Flow.seq (B := fun _ => (· = .closing o)) ?_ fun existing => ?_
  · refine Discipline.Flow.fetch fun x c w hx _ => ?_
    subst hx
    refine ⟨_, .enter o _ c w, ?_⟩
    cases machine.answer (.findRefund o reason) (·.refunds.get (o, reason)) c w <;> rfl
  have hskip (detail : String) : ClaimFlow S (.closing o) (skipRefund o reason detail)
      (fun _ => (· = .closing o)) (· = .closing o) :=
    flow_only (only_skipRefund o reason detail hE) hd
  split
  next row => exact hpure _
  next =>
    refine .ite (fun _ => hskip _) fun _ => ?_
    refine (flow_activePayment (holding_same hd) o).seq fun found =>
      Discipline.Flow.fact fun hreg => ?_
    split
    next => exact hskip _
    next k p =>
      have hk := hreg k p rfl
      refine Discipline.Flow.only (only_settleFound o k p reason amountCents existing)
        (fun x l c w _ _ => .read x l c w) fun x s c w hx hs _ => ?_
      subst hx
      exact .refund o reason k s _ c w hk hs.1

end Endings

end CarSalePro
