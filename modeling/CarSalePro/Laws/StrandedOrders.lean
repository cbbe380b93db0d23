import CarSalePro.Laws.PaidOnce
import CarSalePro.Orders.Served

namespace CarSalePro

open Store Interleave Prog OrderStatus

/-- What a call has left to do about the payout of an order: to write one down for the order it has
approved, to alert operators of one it has parked for good, or to complete the order it has recorded
paid. -/
inductive Duty where
  | none | payout | alert | completion
  deriving DecidableEq

/-- What was done about the payout of one order: what each thread has left to do, and whether since
the payout last changed operators were alerted of it, or it was skipped. -/
structure PayoutNotes where
  duty : Nat → Duty
  alerted : Bool
  skipped : Bool

/-- The payout stands as this row parks it. -/
def Payout.parkedAs (p row : Payout) : Bool :=
  p.status = row.status && p.attempts = row.attempts && p.nextRetryAt = row.nextRetryAt

namespace PayoutNotes

def empty : PayoutNotes := ⟨fun _ => .none, false, false⟩

/-- The thread has nothing left to do. -/
def free (h : PayoutNotes) (t : Nat) : Bool :=
  h.duty t = .none || h.duty t = .alert && h.alerted

def assign (h : PayoutNotes) (t : Nat) (d : Duty) : PayoutNotes :=
  { h with duty := Function.update h.duty t d }

/-- A payout was parked as this row, by a thread that has left to alert of it if that is for
good. -/
def park (h : PayoutNotes) (t : Nat) (row : Payout) (changed : Bool) : PayoutNotes :=
  ⟨Function.update h.duty t (if row.nextRetryAt.isNone then .alert else .none),
    h.alerted && !changed, h.skipped && !changed⟩

end PayoutNotes

def recordNotes (o : OrderId) : Recorder Site Stmt World PayoutNotes := fun t label w w' h =>
  match label with
  | .call (.order (.transition id _ target _)) =>
    if id = o ∧ w'.orders.get o ≠ w.orders.get o then
      h.assign t (if target = approved then .payout else .none)
    else h
  | .call (.payout (.park id row)) =>
    if id = o ∧ (w'.payouts.get o).any (·.parkedAs row) ∧
        (w'.payouts.get o ≠ w.payouts.get o ∨ h.duty t = .payout) then
      h.park t row (w'.payouts.get o ≠ w.payouts.get o)
    else h
  | .call (.payout (.markPaid id _ _ _ _)) =>
    if id = o ∧ w'.paidOut o then
      h.assign t (if w.paidOut o then .none else .completion)
    else h
  | .call (.payout (.skip id)) =>
    if id = o ∧ w'.payouts.get o ≠ w.payouts.get o then { h with skipped := true } else h
  | .ask .notifyAdmins => if h.duty t = .alert then { h with alerted := true } else h
  | _ => h

/-- A sweep will take the payout up: this is what `retryStuckPayouts` selects by, once the time has
come. -/
def Payout.scheduled (p : Payout) : Bool :=
  p.status ≠ .settled && p.nextRetryAt.isSome && p.attempts < moneyRetryMaxAttempts

/-- An unpaid payout that is scheduled, failed for good with operators alerted, or skipped. -/
def Payout.tended (p : Payout) (h : PayoutNotes) : Prop :=
  p.status ≠ .settled ∧ (p.scheduled ∨
    p.nextRetryAt = none ∧ (p.status = .failed ∧ h.alerted ∨ h.skipped))

/-- The order has been approved, and is not completed. -/
def World.awaitsPayout (w : World) (o : OrderId) : Prop :=
  ∃ r, w.orders.get o = some r ∧ r.status = approved

/-- An order that is approved has a payout that somebody looks after. -/
def Unstranded (o : OrderId) (x : World × PayoutNotes) : Prop :=
  x.1.awaitsPayout o → ∃ p, x.1.payouts.get o = some p ∧ p.tended x.2

/-- The next release of the payout completes an approved order whose payout is paid. -/
def Repairable (o : OrderId) (w : World) : Prop :=
  w.awaitsPayout o → w.paidOut o →
    ∃ r, ((releasePayout o).alone machine .ok w).2.orders.get o = some r ∧ r.status = completed

/-- What approves orders and what pays them out. -/
def Op.approvesOrPays : Op → Prop
  | .approve _ _ | .autoApproveOverdue | .resolveDispute _ _ _ _ | .releasePayout _
  | .retryStuckPayouts _ | .adminRetryPayout _ => True
  | _ => False

/-- No approved order is stranded when the operations have ended, each by its return or by the
error it met. A process that dies is one whose every further step fails. -/
def StrandingLaw (C : OrderId → StepGuard PayoutNotes) : Prop :=
  ∀ (w : World) (h : PayoutNotes) (ops : List Op) (o : OrderId) (g : Run PayoutNotes),
    (∀ op ∈ ops, op.approvesOrPays) → Unstranded o (w, h) →
    Pool.Reach machine (recordNotes o) (C o) (launch w h ops) g → g.AllEnded →
    Unstranded o g.snapshot ∧ Repairable o g.state

/-- A call does not fail, and its process does not die, between the approval of the order and the
first write of its payout, between a parking for good and the alert, or between the record of the
payment and the completion. A transition finds the order in the status that was read, and an order
that is approved has an inspector and no paid payout. -/
def paysOut (o : OrderId) : StepGuard PayoutNotes := fun t label c x =>
  (x.2.free t || databaseUp t label c x) &&
  match label with
  | .call (.order (.transition id source target _)) =>
    c = .down || id ≠ o || (x.1.orders.get o).any fun r => r.status = source &&
      (target ≠ approved || r.inspectorId.isSome && !x.1.paidOut o)
  | _ => true

section Discipline

/-- The order has been approved, and may be completed already. -/
def Order.payable (r : Order) : Prop := r.status = approved ∨ r.status = completed

/-- How far a thread is with the payout of the order: it does nothing about it, it has seen the
order payable and owes it a payout if it approved the order itself, it is about to alert operators
of a payout parked for good, or it has recorded the payout paid and is to complete the order. In the
last two it owes that if the payout was not parked or paid so before. -/
inductive Phase where
  | calm
  | working (owes : Bool)
  | alerting (owes : Bool)
  | completing (owes : Bool)

namespace Phase

/-- What a thread knows of the order. -/
def sees (o : OrderId) (w : World) : Phase → Prop
  | calm | alerting _ => True
  | working owes => ∃ r, w.orders.get o = some r ∧ r.payable ∧ (owes → r.inspectorId.isSome)
  | completing _ => ∃ r, w.orders.get o = some r ∧ r.payable

/-- What a thread has left to do. -/
def duty : Phase → Duty
  | working true => .payout
  | alerting true => .alert
  | completing true => .completion
  | _ => .none

end Phase

/-- The statement writes neither the order nor its payout. -/
def Stmt.leaves (o : OrderId) : Stmt → Prop
  | .order u => u.order ≠ o
  | .payout u => u.order ≠ o
  | .sale id _ _ _ => id ≠ o
  | _ => True

inductive PayoutMoves (o : OrderId) : Phase → Label Site Stmt → Fate → World → Phase → Prop
  | look {ph : Phase} {site : Site} {c : Fate} {w : World} : PayoutMoves o ph (.ask site) c w ph
  | turn {site : Site} {c : Fate} {w : World} (h : (Phase.working false).sees o w) :
      PayoutMoves o .calm (.ask site) c w (.working false)
  | paidAlready {owes : Bool} {site : Site} {c : Fate} {w : World} (h : w.paidOut o) :
      PayoutMoves o (.working owes) (.ask site) c w .calm
  | completedAlready {owes : Bool} {site : Site} {c : Fate} {w : World} (h : ¬ w.awaitsPayout o) :
      PayoutMoves o (.completing owes) (.ask site) c w .calm
  | alert {owes : Bool} {c : Fate} {w : World} :
      PayoutMoves o (.alerting owes) (.ask .notifyAdmins) c w .calm
  | plain {ph : Phase} {s : Stmt} {c : Fate} {w : World} (h : s.leaves o) :
      PayoutMoves o ph (.call s) c w ph
  | approve {source : OrderStatus} {legal : canTransition source approved} {c : Fate} {w : World} :
      PayoutMoves o .calm (.call (.order (.transition o source approved legal))) c w (.working true)
  | missing {ph ph' : Phase} {source target : OrderStatus} {legal : canTransition source target}
      {c : Fate} {w : World} (h : w.orders.get o = none) :
      PayoutMoves o ph (.call (.order (.transition o source target legal))) c w ph'
  | transit {ph : Phase} {source target : OrderStatus} {legal : canTransition source target}
      {c : Fate} {w : World} (hph : ph = .calm ∨ ∃ owes, ph = .completing owes)
      (h : target ≠ approved) :
      PayoutMoves o ph (.call (.order (.transition o source target legal))) c w .calm
  | skip {ph : Phase} {c : Fate} {w : World} (hph : ph = .calm ∨ ph = .working false) :
      PayoutMoves o ph (.call (.payout (.skip o))) c w .calm
  | retry {c : Fate} {w : World} : PayoutMoves o .calm (.call (.payout (.retryNow o))) c w .calm
  | park {owes : Bool} {row : Payout} {c : Fate} {w : World} (h : row.scheduled) :
      PayoutMoves o (.working owes) (.call (.payout (.park o row))) c w .calm
  | parkForGood {owes : Bool} {row : Payout} {c : Fate} {w : World} (h : row.status = .failed)
      (hnext : row.nextRetryAt = none) (hnew : owes = true ∨
        (World.exec (.payout (.park o row)) c w).2.payouts.get o ≠ w.payouts.get o) :
      PayoutMoves o (.working owes) (.call (.payout (.park o row))) c w (.alerting true)
  | parkedAlready {row : Payout} {c : Fate} {w : World}
      (h : (World.exec (.payout (.park o row)) c w).2.payouts.get o = w.payouts.get o) :
      PayoutMoves o (.working false) (.call (.payout (.park o row))) c w (.alerting false)
  | paid {owes : Bool} {inspector : UserId} {amountCents : Cents} {attempts : Nat}
      {transfer : TransferId} {c : Fate} {w : World} :
      PayoutMoves o (.working owes)
        (.call (.payout (.markPaid o inspector amountCents attempts transfer))) c w
        (.completing (!w.paidOut o))

/-- A thread that approves the order sees to its payout, and does nothing more about it once a step
of the database has failed. -/
def seeing (o : OrderId) : Discipline Site Stmt World Fate Phase where
  view ph w := ph.sees o w
  moves ph l c w ph' := upheld l c w ∧ PayoutMoves o ph l c w ph' ∨ ¬ upheld l c w ∧ ph' = .calm

/-- An unpaid payout that is scheduled or skipped, or failed for good with operators alerted, be it
by a thread that is about to. -/
def Watched (Φ : Nat → Phase) (h : PayoutNotes) (p : Payout) : Prop :=
  p.status ≠ .settled ∧ (p.scheduled ∨ p.nextRetryAt = none ∧
    (p.status = .failed ∧ (h.alerted ∨ ∃ t, Φ t = .alerting true) ∨ h.skipped))

/-- An approved order is looked after, by its payout or by a thread. -/
structure Tracked (o : OrderId) (Φ : Nat → Phase) (x : World × PayoutNotes) : Prop where
  sees : ∀ t, (Φ t).sees o x.1
  watched : x.1.awaitsPayout o → x.1.paidOut o ∨ (∃ t, Φ t = .working true) ∨
    ∃ p, x.1.payouts.get o = some p ∧ Watched Φ x.2 p
  paid : x.1.awaitsPayout o → x.1.paidOut o → ∃ t, Φ t = .completing true
  bound : ∀ t, (Φ t).duty ≠ .none → x.2.duty t = (Φ t).duty

variable {o : OrderId} {Φ : Nat → Phase} {x : World × PayoutNotes} {t : Nat} {ph : Phase}
  {w : World}
  {h' : PayoutNotes} {c : Fate} {s : Stmt} {p : Payout} {r : Order}

theorem update_other {a : Phase} (h : ∃ u, Φ u = a) (ht : Φ t ≠ a) :
    ∃ u, Function.update Φ t ph u = a := by
  obtain ⟨u, hu⟩ := h
  have hne : u ≠ t := fun heq => ht (heq ▸ hu)
  exact ⟨u, (Function.update_of_ne hne _ _).trans hu⟩

theorem Phase.sees_congr (h : w.orders.get o = x.1.orders.get o) (hs : ph.sees o x.1) :
    ph.sees o w := by
  cases ph with
  | calm => trivial
  | alerting owes => trivial
  | working owes =>
    obtain ⟨r, hr, hkept⟩ := hs
    exact ⟨r, h.trans hr, hkept⟩
  | completing owes =>
    obtain ⟨r, hr, hkept⟩ := hs
    exact ⟨r, h.trans hr, hkept⟩

theorem awaits_congr (h : w.orders.get o = x.1.orders.get o) :
    w.awaitsPayout o ↔ x.1.awaitsPayout o := by
  unfold World.awaitsPayout
  rw [h]

theorem paidOut_congr (h : w.payouts.get o = x.1.payouts.get o) : w.paidOut o = x.1.paidOut o := by
  unfold World.paidOut
  rw [h]

/-- The notes of a step of thread `t` say no less of a payout that has not changed. -/
structure NotedSince (t : Nat) (h h' : PayoutNotes) : Prop where
  others : ∀ u, u ≠ t → h'.duty u = h.duty u
  alerted : h.alerted → h'.alerted
  skipped : h.skipped → h'.skipped

theorem Watched.later (h : Watched Φ x.2 p) (hn : NotedSince t x.2 h')
    (ht : Φ t = .alerting true → ph = .alerting true ∨ h'.alerted) :
    Watched (Function.update Φ t ph) h' p := by
  refine ⟨h.1, h.2.imp_right fun hidle => ⟨hidle.1, ?_⟩⟩
  rcases hidle.2 with ⟨hfailed, halert⟩ | hskip
  · refine .inl ⟨hfailed, ?_⟩
    rcases halert with halert | ⟨u, hu⟩
    · exact .inl (hn.alerted halert)
    · by_cases hut : u = t
      · subst hut
        rcases ht hu with hph | halert
        · exact .inr ⟨u, by rw [Function.update_self, hph]⟩
        · exact .inl halert
      · exact .inr ⟨u, (Function.update_of_ne hut _ _).trans hu⟩
  · exact .inr (hn.skipped hskip)

/-- What is noted of every thread's duty, when the others' have not changed. -/
theorem bound_later (h : ∀ u, (Φ u).duty ≠ .none → x.2.duty u = (Φ u).duty)
    (hothers : ∀ u, u ≠ t → h'.duty u = x.2.duty u) (ht : ph.duty ≠ .none → h'.duty t = ph.duty)
    (u : Nat) (hu : (Function.update Φ t ph u).duty ≠ .none) :
    h'.duty u = (Function.update Φ t ph u).duty := by
  by_cases hut : u = t
  · subst hut
    rw [Function.update_self] at hu ⊢
    exact ht hu
  · rw [Function.update_of_ne hut] at hu ⊢
    exact (hothers u hut).trans (h u hu)

/-- A step that leaves the order and its payout as they are. -/
theorem Tracked.stay (h : Tracked o Φ x) (hrow : w.orders.get o = x.1.orders.get o)
    (hpayout : w.payouts.get o = x.1.payouts.get o) (hn : NotedSince t x.2 h')
    (hsees : ph.sees o w) (hworking : Φ t = .working true → ph = .working true ∨ x.1.paidOut o)
    (halerting : Φ t = .alerting true → ph = .alerting true ∨ h'.alerted)
    (hcompleting : Φ t = .completing true → ph = .completing true ∨ ¬ x.1.awaitsPayout o)
    (hbound : ph.duty ≠ .none → h'.duty t = ph.duty) :
    Tracked o (Function.update Φ t ph) (w, h') := by
  refine ⟨fun u => ?_, fun hawaits => ?_, fun hawaits hpaid => ?_,
    bound_later h.bound hn.others hbound⟩
  · by_cases hu : u = t
    · subst hu
      rw [Function.update_self]
      exact hsees
    · rw [Function.update_of_ne hu]
      exact Phase.sees_congr hrow (h.sees u)
  · rcases h.watched ((awaits_congr hrow).mp hawaits) with hpaid | ⟨u, hu⟩ | ⟨p, hp, hwatched⟩
    · exact .inl ((paidOut_congr hpayout).trans hpaid)
    · by_cases hut : u = t
      · subst hut
        rcases hworking hu with hph | hpaid
        · exact .inr (.inl ⟨u, by rw [Function.update_self, hph]⟩)
        · exact .inl ((paidOut_congr hpayout).trans hpaid)
      · exact .inr (.inl ⟨u, (Function.update_of_ne hut _ _).trans hu⟩)
    · exact .inr (.inr ⟨p, hpayout.trans hp, hwatched.later hn halerting⟩)
  · have hbefore := (awaits_congr hrow).mp hawaits
    obtain ⟨u, hu⟩ := h.paid hbefore ((paidOut_congr hpayout).symm.trans hpaid)
    by_cases hut : u = t
    · subst hut
      rcases hcompleting hu with hph | hdone
      · exact ⟨u, by rw [Function.update_self, hph]⟩
      · exact absurd hbefore hdone
    · exact ⟨u, (Function.update_of_ne hut _ _).trans hu⟩

/-- An approved order leaves its status only when it is completed. -/
theorem approved_completes {target : OrderStatus} (h : canTransition approved target) :
    target = completed := by
  revert h
  cases target <;> decide

theorem upheld_call (hup : upheld (.call s) c w) (hs : s.touchesProvider = false) : c ≠ .down := by
  simpa [upheld, databaseUp, hs] using hup

/-- A step of the database that fails leaves everything as it was. -/
theorem after_failed {l : Label Site Stmt} (hfailed : ¬ upheld l c w) :
    machine.after l c w = w := by
  cases l with
  | ask site => rfl
  | call s =>
    have hdown : s.touchesProvider = false ∧ c = .down := by
      simpa [upheld, databaseUp] using hfailed
    obtain ⟨hs, rfl⟩ := hdown
    cases s with
    | stripe call => cases hs
    | _ => simp [Machine.after, machine, World.exec]

theorem exec_leaves (hs : s.leaves o) :
    (World.exec s c w).2.orders.get o = w.orders.get o ∧
      (World.exec s c w).2.payouts.get o = w.payouts.get o := by
  constructor
  · cases hr : w.orders.get o with
    | none => exact World.exec_order_none hr
    | some r =>
      obtain ⟨r', hr', heffect⟩ := World.exec_order hr
      cases heffect with
      | same => exact hr'
      | write u stmt row => exact absurd row (by subst stmt; exact hs)
      | sale counter price at_ stmt => subst stmt; exact absurd rfl hs
  · rcases World.exec_payout s c w o with hsame | ⟨u, p, rfl, hu, -⟩
    · exact hsame
    · exact absurd hu hs

/-- What is noted of a statement that leaves the payout alone. -/
theorem noted_leaves (hs : s.leaves o) (w' : World) (h : PayoutNotes) :
    recordNotes o t (.call s) w w' h = h := by
  unfold recordNotes
  split
  next heq => cases heq; exact if_neg fun hid => hs hid.1
  next heq => cases heq; exact if_neg fun hid => hs hid.1
  next heq => cases heq; exact if_neg fun hid => hs hid.1
  next heq => cases heq; exact if_neg fun hid => hs hid.1
  next heq => cases heq
  next => rfl

theorem noted_same (t : Nat) (h : PayoutNotes) : NotedSince t h h :=
  ⟨fun _ _ => rfl, fun ha => ha, fun hs => hs⟩

theorem noted_assign (t : Nat) (h : PayoutNotes) (d : Duty) : NotedSince t h (h.assign t d) :=
  ⟨fun _ hu => Function.update_of_ne hu _ _, fun ha => ha, fun hs => hs⟩

/-- What is noted of a read: an alert. -/
theorem noted_ask {site : Site} (w' : World) (h : PayoutNotes) :
    NotedSince t h (recordNotes o t (.ask site) w w' h) ∧
      (recordNotes o t (.ask site) w w' h).duty = h.duty := by
  unfold recordNotes
  split
  next heq => cases heq
  next heq => cases heq
  next heq => cases heq
  next heq => cases heq
  next =>
    split
    · exact ⟨⟨fun _ _ => rfl, fun _ => rfl, fun hs => hs⟩, rfl⟩
    · exact ⟨noted_same t h, rfl⟩
  next => exact ⟨noted_same t h, rfl⟩

/-- What is noted of a parking that leaves the payout as it was. -/
theorem noted_unchanged {row : Payout} {w' : World} (h : PayoutNotes)
    (hsame : w'.payouts.get o = w.payouts.get o) :
    NotedSince t h (recordNotes o t (.call (.payout (.park o row))) w w' h) := by
  simp only [recordNotes, hsame]
  split
  · exact ⟨fun u hu => Function.update_of_ne hu _ _, fun ha => by simpa [PayoutNotes.park] using ha,
      fun hs => by simpa [PayoutNotes.park] using hs⟩
  · exact noted_same t h

/-- What is noted of a step that fails and leaves everything as it was. -/
theorem noted_failed (l : Label Site Stmt) (h : PayoutNotes) :
    NotedSince t h (recordNotes o t l w w h) := by
  unfold recordNotes
  split
  next => simpa using noted_same t h
  next =>
    split
    · exact ⟨fun u hu => Function.update_of_ne hu _ _,
        fun ha => by simpa [PayoutNotes.park] using ha,
        fun hs => by simpa [PayoutNotes.park] using hs⟩
    · exact noted_same t h
  next =>
    split
    · exact noted_assign t h _
    · exact noted_same t h
  next => simpa using noted_same t h
  next =>
    split
    · exact ⟨fun _ _ => rfl, fun _ => rfl, fun hs => hs⟩
    · exact noted_same t h
  next => exact noted_same t h

/-- What a payout statement leaves of the order. -/
theorem payout_orders (u : PayoutStmt) (c : Fate) (w : World) :
    (World.exec (.payout u) c w).2.orders = w.orders :=
    (World.frame_exec (.payout u) c w).orders rfl

theorem payout_written {u : PayoutStmt} (hc : c ≠ .down)
    (hp : u.rewrite w.now (w.payouts.get u.order) = some p) :
    (World.exec (.payout u) c w).2.payouts.get u.order = some p := by
  simp [World.exec, hc, World.write, World.writePayout, hp]

theorem payout_unwritten {u : PayoutStmt} (hp : u.rewrite w.now (w.payouts.get u.order) = none) :
    (World.exec (.payout u) c w).2.payouts.get u.order = w.payouts.get u.order := by
  by_cases hc : c = .down
  · simp [World.exec, hc]
  · simp [World.exec, hc, World.write, World.writePayout, hp]

/-- A step that writes the payout: it is watched afterwards, or paid with a thread to complete the
order. -/
theorem Tracked.rewritten (h : Tracked o Φ x) (hrow : w.orders.get o = x.1.orders.get o)
    (hp : w.payouts.get o = some p) (hsees : ph.sees o w)
    (hwatched : Watched (Function.update Φ t ph) h' p ∨
      p.status = .settled ∧ (x.1.awaitsPayout o → ∃ u, Function.update Φ t ph u = .completing true))
    (hothers : ∀ u, u ≠ t → h'.duty u = x.2.duty u)
    (hbound : ph.duty ≠ .none → h'.duty t = ph.duty) :
    Tracked o (Function.update Φ t ph) (w, h') := by
  refine ⟨fun u => ?_, fun _ => ?_, fun hawaits hpaid => ?_, bound_later h.bound hothers hbound⟩
  · by_cases hu : u = t
    · subst hu
      rw [Function.update_self]
      exact hsees
    · rw [Function.update_of_ne hu]
      exact Phase.sees_congr hrow (h.sees u)
  · rcases hwatched with hwatched | ⟨hsettled, -⟩
    · exact .inr (.inr ⟨p, hp, hwatched⟩)
    · exact .inl (by simp [World.paidOut, hp, hsettled])
  · rcases hwatched with hwatched | ⟨-, hcompleting⟩
    · have hsettled : p.status = .settled := by simpa [World.paidOut, hp] using hpaid
      exact absurd hsettled hwatched.1
    · exact hcompleting ((awaits_congr hrow).mp hawaits)

theorem paysOut_transition {source target : OrderStatus} {legal : canTransition source target}
    (hC : paysOut o t (.call (.order (.transition o source target legal))) c x) (hc : c ≠ .down) :
    ∃ r, x.1.orders.get o = some r ∧ r.status = source ∧
      (target = approved → r.inspectorId.isSome ∧ x.1.paidOut o = false) := by
  have hfinds := ((Bool.and_eq_true _ _).mp hC).2
  simp only [hc, ne_eq, not_true_eq_false, decide_false, Bool.false_or,
    Option.any_eq_true] at hfinds
  obtain ⟨r, hr, hmatch⟩ := hfinds
  simp only [Bool.and_eq_true, decide_eq_true_eq, Bool.or_eq_true, Bool.not_eq_true'] at hmatch
  refine ⟨r, hr, hmatch.1, fun htarget => ?_⟩
  rcases hmatch.2 with hother | happrovable
  · exact absurd htarget hother
  · exact happrovable

/-- A transition of the order, written over the status it was read in. -/
theorem tracked_transition {source target : OrderStatus} {legal : canTransition source target}
    (h : Tracked o Φ x) (hC : paysOut o t (.call (.order (.transition o source target legal))) c x)
    (hc : c ≠ .down) (hnext : ph = if target = approved then .working true else .calm) :
    Tracked o (Function.update Φ t ph)
      ((World.exec (.order (.transition o source target legal)) c x.1).2,
        recordNotes o t (.call (.order (.transition o source target legal))) x.1
          (World.exec (.order (.transition o source target legal)) c x.1).2 x.2) := by
  obtain ⟨r, hr, hstatus, happrovable⟩ := paysOut_transition hC hc
  have hexec : (World.exec (.order (.transition o source target legal)) c x.1).2 = { x.1 with
      orders := x.1.orders.set o { r with status := target } } := by
    simp [World.exec, hc, World.write, World.writeOrder, OrderStmt.order, hr, OrderStmt.rewrite]
  rw [hexec]
  have hrow : (x.1.orders.set o { r with status := target }).get o =
      some { r with status := target } := by simp
  have hlegal : canTransition r.status target := hstatus ▸ legal
  have hsees (a : Phase) (ha : a.sees o x.1) : a.sees o { x.1 with
      orders := x.1.orders.set o { r with status := target } } := by
    have hpayable (hbefore : r.payable) : Order.payable { r with status := target } := by
      rcases hbefore with hs | hs
      · exact .inr (approved_completes (hs ▸ hlegal))
      · rw [hs, canTransition_completed] at hlegal
        cases hlegal
    cases a with
    | calm => trivial
    | alerting owes => trivial
    | working owes =>
      obtain ⟨r', hr', hbefore, howes⟩ := ha
      cases hr.symm.trans hr'
      exact ⟨_, hrow, hpayable hbefore, howes⟩
    | completing owes =>
      obtain ⟨r', hr', hbefore⟩ := ha
      cases hr.symm.trans hr'
      exact ⟨_, hrow, hpayable hbefore⟩
  have hchanged : some { r with status := target } ≠ some r := by
    intro heq
    have hsame : target = r.status := congrArg Order.status (Option.some.inj heq)
    rw [hsame, canTransition_irrefl] at hlegal
    cases hlegal
  have hnoted : recordNotes o t (.call (.order (.transition o source target legal))) x.1
      { x.1 with orders := x.1.orders.set o { r with status := target } } x.2 =
      x.2.assign t (if target = approved then .payout else .none) := by
    unfold recordNotes
    exact if_pos ⟨rfl, by rw [hrow, hr]; exact hchanged⟩
  rw [hnoted]
  have hothers := (noted_assign t x.2 (if target = approved then .payout else .none)).others
  by_cases htarget : target = approved
  · rw [if_pos htarget] at hnext
    subst hnext
    obtain ⟨hinspector, hunpaid⟩ := happrovable htarget
    refine ⟨fun u => ?_, fun _ => ?_, fun _ hpaid => ?_, bound_later h.bound hothers fun _ => ?_⟩
    · by_cases hut : u = t
      · subst hut
        rw [Function.update_self]
        exact ⟨_, hrow, .inl htarget, fun _ => hinspector⟩
      · rw [Function.update_of_ne hut]
        exact hsees _ (h.sees u)
    · exact .inr (.inl ⟨t, Function.update_self ..⟩)
    · have hsame : x.1.paidOut o := hpaid
      rw [hunpaid] at hsame
      cases hsame
    · simp [PayoutNotes.assign, htarget, Phase.duty]
  · rw [if_neg htarget] at hnext
    subst hnext
    have hdone : ¬ World.awaitsPayout { x.1 with
        orders := x.1.orders.set o { r with status := target } } o := by
      rintro ⟨r', hr', hs⟩
      cases hrow.symm.trans hr'
      exact htarget hs
    refine ⟨fun u => ?_, fun hawaits => absurd hawaits hdone,
      fun hawaits => absurd hawaits hdone, bound_later h.bound hothers fun hno => absurd rfl hno⟩
    by_cases hut : u = t
    · subst hut
      rw [Function.update_self]
      trivial
    · rw [Function.update_of_ne hut]
      exact hsees _ (h.sees u)

theorem park_written {row : Payout} (hc : c ≠ .down) :
    ∃ p, (World.exec (.payout (.park o row)) c w).2.payouts.get o = some p ∧ p.parkedAs row := by
  have hrewrite (old : Option Payout) :
      ∃ p, (PayoutStmt.park o row).rewrite w.now old = some p ∧ p.parkedAs row := by
    cases old with
    | none => exact ⟨_, rfl, by simp [Payout.parkedAs]⟩
    | some q => exact ⟨_, rfl, by simp [Payout.parkedAs]⟩
  obtain ⟨p, hp, hparked⟩ := hrewrite (w.payouts.get o)
  exact ⟨p, payout_written (u := .park o row) hc hp, hparked⟩

theorem Payout.parkedAs_iff {row : Payout} : p.parkedAs row ↔
    p.status = row.status ∧ p.attempts = row.attempts ∧ p.nextRetryAt = row.nextRetryAt := by
  simp [Payout.parkedAs, and_assoc]

/-- What is noted of a parking that went through, by a thread whose duty it was or of a payout that
changed. -/
theorem noted_park {row : Payout} {w' : World} {h : PayoutNotes} (hp : w'.payouts.get o = some p)
    (hparked : p.parkedAs row) (hnew : h.duty t = .payout ∨ w'.payouts.get o ≠ w.payouts.get o) :
    recordNotes o t (.call (.payout (.park o row))) w w' h =
      h.park t row (w'.payouts.get o ≠ w.payouts.get o) := by
  unfold recordNotes
  exact if_pos ⟨rfl, by simp [hp, hparked], hnew.symm⟩

theorem noted_park_others {row : Payout} {w' : World} {h : PayoutNotes} {u : Nat} (hu : u ≠ t) :
    (recordNotes o t (.call (.payout (.park o row))) w w' h).duty u = h.duty u := by
  simp only [recordNotes]
  split
  · exact Function.update_of_ne hu _ _
  · rfl

/-- A payout parked for a later attempt. -/
theorem tracked_park {row : Payout} (h : Tracked o Φ x) (hc : c ≠ .down) (hrow : row.scheduled) :
    Tracked o (Function.update Φ t .calm) ((World.exec (.payout (.park o row)) c x.1).2,
      recordNotes o t (.call (.payout (.park o row))) x.1
        (World.exec (.payout (.park o row)) c x.1).2 x.2) := by
  obtain ⟨p, hp, hparked⟩ := park_written hc
  obtain ⟨hstatus, hattempts, hnext⟩ := Payout.parkedAs_iff.mp hparked
  have hkept : p.scheduled := by
    simpa [Payout.scheduled, hstatus, hattempts, hnext] using hrow
  have hunpaid : p.status ≠ .settled := by
    simp only [Payout.scheduled, Bool.and_eq_true, decide_eq_true_eq] at hkept
    exact hkept.1.1
  exact h.rewritten (congrArg (·.get o) (payout_orders _ c x.1)) hp trivial
    (.inl ⟨hunpaid, .inl hkept⟩) (fun _ => noted_park_others) fun hno => absurd rfl hno

/-- A payout parked for good, by a thread that is to alert of it. -/
theorem tracked_parkForGood {row : Payout} (h : Tracked o Φ x) (hc : c ≠ .down)
    (hfailed : row.status = .failed) (hnone : row.nextRetryAt = none)
    (hnew : x.2.duty t = .payout ∨
      (World.exec (.payout (.park o row)) c x.1).2.payouts.get o ≠ x.1.payouts.get o) :
    Tracked o (Function.update Φ t (.alerting true))
      ((World.exec (.payout (.park o row)) c x.1).2,
        recordNotes o t (.call (.payout (.park o row))) x.1
          (World.exec (.payout (.park o row)) c x.1).2 x.2) := by
  obtain ⟨p, hp, hparked⟩ := park_written hc
  obtain ⟨hstatus, -, hnext⟩ := Payout.parkedAs_iff.mp hparked
  refine h.rewritten (congrArg (·.get o) (payout_orders _ c x.1)) hp trivial (.inl ?_)
    (fun _ => noted_park_others) fun _ => ?_
  · refine ⟨by rw [hstatus, hfailed]; decide, .inr ⟨hnext.trans hnone, .inl ?_⟩⟩
    exact ⟨hstatus.trans hfailed, .inr ⟨t, Function.update_self ..⟩⟩
  · rw [noted_park hp hparked hnew]
    simp [PayoutNotes.park, hnone, Phase.duty]

theorem tracked_paid {owes : Bool} {inspector : UserId} {amountCents : Cents} {attempts : Nat}
    {transfer : TransferId} (h : Tracked o Φ x) (hph : Φ t = .working owes) (hc : c ≠ .down) :
    Tracked o (Function.update Φ t (.completing (!x.1.paidOut o)))
      ((World.exec (.payout (.markPaid o inspector amountCents attempts transfer)) c x.1).2,
        recordNotes o t (.call (.payout (.markPaid o inspector amountCents attempts transfer))) x.1
          (World.exec (.payout (.markPaid o inspector amountCents attempts transfer)) c x.1).2
          x.2) := by
  have hrewrite (old : Option Payout) : ∃ p,
      (PayoutStmt.markPaid o inspector amountCents attempts transfer).rewrite x.1.now old = some p ∧
        p.status = .settled := by
    cases old with
    | none => exact ⟨_, rfl, rfl⟩
    | some q => exact ⟨_, rfl, rfl⟩
  obtain ⟨p, hp, hsettled⟩ := hrewrite (x.1.payouts.get o)
  have hget := payout_written (u := .markPaid o inspector amountCents attempts transfer) hc hp
  have hrow := congrArg (·.get o)
    (payout_orders (.markPaid o inspector amountCents attempts transfer) c x.1)
  have hpaid : (World.exec (.payout (.markPaid o inspector amountCents attempts transfer)) c
      x.1).2.paidOut o := by
    have hget : (World.exec (.payout (.markPaid o inspector amountCents attempts transfer)) c
        x.1).2.payouts.get o = some p := hget
    simp [World.paidOut, hget, hsettled]
  have hnoted : recordNotes o t
      (.call (.payout (.markPaid o inspector amountCents attempts transfer))) x.1
      (World.exec (.payout (.markPaid o inspector amountCents attempts transfer)) c x.1).2 x.2 =
      x.2.assign t (if x.1.paidOut o then .none else .completion) := by
    unfold recordNotes
    exact if_pos ⟨rfl, hpaid⟩
  rw [hnoted]
  have hsees : (Phase.completing (!x.1.paidOut o)).sees o x.1 := by
    have hworking := h.sees t
    rw [hph] at hworking
    obtain ⟨r, hr, hpayable, -⟩ := hworking
    exact ⟨r, hr, hpayable⟩
  refine h.rewritten hrow hget (Phase.sees_congr hrow hsees) (.inr ⟨hsettled, fun hawaits => ?_⟩)
    (noted_assign t x.2 _).others fun hduty => ?_
  · cases hbefore : x.1.paidOut o with
    | true => exact update_other (h.paid hawaits hbefore) (by simp [hph])
    | false => exact ⟨t, Function.update_self ..⟩
  · cases hbefore : x.1.paidOut o with
    | true => simp [hbefore, Phase.duty] at hduty
    | false => simp [PayoutNotes.assign, Phase.duty]

/-- A statement that takes the schedule of an unpaid payout away, or gives it a new one. -/
theorem tracked_amended {u : PayoutStmt} (h : Tracked o Φ x) (hu : u.order = o) (hc : c ≠ .down)
    (hph : Φ t = .calm ∨ Φ t = .working false) (hn : NotedSince t x.2 h')
    (hnone : u.rewrite x.1.now none = none)
    (hrewrite : ∀ p q, x.1.payouts.get o = some p → u.rewrite x.1.now (some p) = some q →
      q.status = p.status ∧
        (q.status ≠ .settled → q ≠ p → q.scheduled ∨ q.nextRetryAt = none ∧ h'.skipped)) :
    Tracked o (Function.update Φ t .calm) ((World.exec (.payout u) c x.1).2, h') := by
  subst hu
  have hrow := congrArg (·.get u.order) (payout_orders u c x.1)
  have halert : Φ t ≠ .alerting true := by rcases hph with hph | hph <;> rw [hph] <;> simp
  have howes : Φ t ≠ .working true := by rcases hph with hph | hph <;> rw [hph] <;> simp
  have hcompleting : Φ t ≠ .completing true := by rcases hph with hph | hph <;> rw [hph] <;> simp
  have hstay (hsame : (World.exec (.payout u) c x.1).2.payouts.get u.order =
      x.1.payouts.get u.order) :
      Tracked u.order (Function.update Φ t .calm) ((World.exec (.payout u) c x.1).2, h') :=
    h.stay hrow hsame hn trivial (fun h => absurd h howes)
      (fun h => absurd h halert) (fun h => absurd h hcompleting) fun hno => absurd rfl hno
  cases hold : x.1.payouts.get u.order with
  | none => exact hstay (payout_unwritten (hold ▸ hnone))
  | some p =>
    cases hnew : u.rewrite x.1.now (some p) with
    | none => exact hstay (payout_unwritten (hold ▸ hnew))
    | some q =>
      have hget : (World.exec (.payout u) c x.1).2.payouts.get u.order = some q :=
        payout_written hc (hold ▸ hnew)
      by_cases hsame : q = p
      · exact hstay (by rw [hget, hold, hsame])
      obtain ⟨hstatus, hwatched⟩ := hrewrite p q hold hnew
      refine h.rewritten hrow hget trivial ?_ hn.others fun hno => absurd rfl hno
      by_cases hs : q.status = .settled
      · refine .inr ⟨hs, fun hawaits => ?_⟩
        have hpaid : x.1.paidOut u.order := by simp [World.paidOut, hold, hstatus.symm.trans hs]
        exact update_other (h.paid hawaits hpaid) hcompleting
      · exact .inl ⟨hs, (hwatched hs hsame).imp_right fun hidle => ⟨hidle.1, .inr hidle.2⟩⟩

theorem tracked_skip (h : Tracked o Φ x) (hc : c ≠ .down)
    (hph : Φ t = .calm ∨ Φ t = .working false) :
    Tracked o (Function.update Φ t .calm) ((World.exec (.payout (.skip o)) c x.1).2,
      recordNotes o t (.call (.payout (.skip o))) x.1
        (World.exec (.payout (.skip o)) c x.1).2 x.2) := by
  have hnotes : NotedSince t x.2 (recordNotes o t (.call (.payout (.skip o))) x.1
      (World.exec (.payout (.skip o)) c x.1).2 x.2) := by
    simp only [recordNotes]
    split
    · exact ⟨fun _ _ => rfl, fun ha => ha, fun _ => rfl⟩
    · exact noted_same t x.2
  refine tracked_amended (u := .skip o) h rfl hc hph hnotes rfl fun p q hp hq => ?_
  have hget : (World.exec (.payout (.skip o)) c x.1).2.payouts.get o = some q :=
    payout_written (u := .skip o) hc (by rw [show PayoutStmt.order (.skip o) = o from rfl, hp, hq])
  obtain ⟨r, hr, rfl⟩ := Option.map_eq_some_iff.mp hq
  cases (Option.filter_eq_some_iff.mp hr).1
  refine ⟨rfl, fun _ hchanged => .inr ⟨rfl, ?_⟩⟩
  have hnoted : recordNotes o t (.call (.payout (.skip o))) x.1
      (World.exec (.payout (.skip o)) c x.1).2 x.2 = { x.2 with skipped := true } := by
    unfold recordNotes
    exact if_pos ⟨rfl, by rw [hget, hp]; exact fun heq => hchanged (Option.some.inj heq)⟩
  rw [hnoted]

/-- A read changes nothing, but that a thread may be done, or has alerted. -/
theorem tracked_look (h : Tracked o Φ x) {site : Site} (hph : ph.sees o x.1)
    (hworking : Φ t = .working true → ph = .working true ∨ x.1.paidOut o)
    (halerting : Φ t = .alerting true → ph = .alerting true ∨
      (recordNotes o t (.ask site) x.1 x.1 x.2).alerted)
    (hcompleting : Φ t = .completing true → ph = .completing true ∨ ¬ x.1.awaitsPayout o)
    (hduty : ph.duty ≠ .none → ph = Φ t) :
    Tracked o (Function.update Φ t ph) (x.1, recordNotes o t (.ask site) x.1 x.1 x.2) := by
  obtain ⟨hnoted, hsame⟩ : NotedSince t x.2 (recordNotes o t (.ask site) x.1 x.1 x.2) ∧
      (recordNotes o t (.ask site) x.1 x.1 x.2).duty = x.2.duty := noted_ask x.1 x.2
  refine h.stay rfl rfl hnoted hph hworking halerting hcompleting fun hno => ?_
  rw [hsame, hduty hno]
  exact h.bound t (hduty hno ▸ hno)

theorem tracked_leaves (h : Tracked o Φ x) {s : Stmt} (hs : s.leaves o) :
    Tracked o (Function.update Φ t (Φ t)) ((World.exec s c x.1).2, x.2) := by
  obtain ⟨hrow, hpayout⟩ := exec_leaves (s := s) (c := c) (w := x.1) hs
  exact h.stay hrow hpayout (noted_same t _) (Phase.sees_congr hrow (h.sees t)) .inl .inl .inl
    (h.bound t)

/-- A thread that fails with nothing left to do is not missed. -/
theorem tracked_failed (h : Tracked o Φ x) {l : Label Site Stmt} (hfree : x.2.free t) :
    Tracked o (Function.update Φ t .calm) (x.1, recordNotes o t l x.1 x.1 x.2) := by
  have hduty (d : Duty) (hd : (Φ t).duty = d) (hno : d ≠ .none) : d = .alert ∧ x.2.alerted := by
    have hnoted : x.2.duty t = d := (h.bound t (hd ▸ hno)).trans hd
    simpa [PayoutNotes.free, hnoted, hno] using hfree
  refine h.stay rfl rfl (noted_failed l x.2) trivial (fun howes => ?_) (fun howes => ?_)
    (fun howes => ?_) fun hno => absurd rfl hno
  · cases (hduty .payout (by rw [howes]; rfl) (by simp)).1
  · exact .inr ((noted_failed l x.2).alerted (hduty .alert (by rw [howes]; rfl) (by simp)).2)
  · cases (hduty .completion (by rw [howes]; rfl) (by simp)).1

theorem tracked_invariant (o : OrderId) :
    (seeing o).Invariant machine (recordNotes o) (paysOut o) (Tracked o) where
  view Φ x t h := h.sees t
  env Φ x c h := by
    obtain ⟨now, hnow⟩ := World.tick_eq c x.1
    rw [show machine.env c x.1 = World.tick c x.1 from rfl, hnow]
    exact ⟨h.sees, h.watched, h.paid, h.bound⟩
  move Φ x t l c ph h hC hm := by
    have hbound := h.bound t
    rcases hm with ⟨hup, hm⟩ | ⟨hfailed, rfl⟩
    · generalize hΦ : Φ t = old at hm
      cases hm with
      | look =>
        rw [← hΦ]
        exact tracked_look h (h.sees t) .inl .inl .inl fun _ => rfl
      | turn hturn =>
        exact tracked_look h hturn (by simp [hΦ]) (by simp [hΦ]) (by simp [hΦ])
          (by simp [Phase.duty])
      | paidAlready hpaid =>
        exact tracked_look h trivial (fun _ => .inr hpaid) (by simp [hΦ]) (by simp [hΦ])
          (by simp [Phase.duty])
      | completedAlready hdone =>
        exact tracked_look h trivial (by simp [hΦ]) (by simp [hΦ]) (fun _ => .inr hdone)
          (by simp [Phase.duty])
      | alert =>
        refine tracked_look h trivial (by simp [hΦ]) (fun howes => .inr ?_) (by simp [hΦ])
          (by simp [Phase.duty])
        have hduty : x.2.duty t = .alert := by
          rw [howes] at hbound
          exact hbound (by simp [Phase.duty])
        simp [recordNotes, hduty]
      | plain hs =>
        rw [← hΦ]
        show Tracked o _ ((World.exec _ c x.1).2, _)
        rw [noted_leaves hs]
        exact tracked_leaves h hs
      | missing hnone =>
        obtain ⟨r, hr, -⟩ := paysOut_transition hC (upheld_call hup rfl)
        rw [hnone] at hr
        cases hr
      | approve => exact tracked_transition h hC (upheld_call hup rfl) rfl
      | transit hph htarget =>
        exact tracked_transition h hC (upheld_call hup rfl) (by simp [htarget])
      | skip hph => exact tracked_skip h (upheld_call hup rfl) (hΦ ▸ hph)
      | retry =>
        refine tracked_amended (u := .retryNow o) h rfl (upheld_call hup rfl) (.inl hΦ)
          (noted_same t _) rfl fun p q _ hq => ?_
        cases hq
        refine ⟨rfl, fun hunpaid _ => .inl ?_⟩
        have hattempts : 0 < moneyRetryMaxAttempts := by decide
        simpa [Payout.scheduled, hattempts] using hunpaid
      | park hrow => exact tracked_park h (upheld_call hup rfl) hrow
      | parkForGood hfailed hnone hnew =>
        refine tracked_parkForGood h (upheld_call hup rfl) hfailed hnone
          (hnew.imp_left fun howes => ?_)
        subst howes
        rw [hΦ] at hbound
        exact hbound (by simp [Phase.duty])
      | parkedAlready hsame =>
        exact h.stay (congrArg (·.get o) (payout_orders _ c x.1)) hsame (noted_unchanged _ hsame)
          trivial (by simp [hΦ]) (by simp [hΦ]) (by simp [hΦ]) (by simp [Phase.duty])
      | paid => exact tracked_paid h hΦ (upheld_call hup rfl)
    · have hfree : x.2.free t := by
        have hor := ((Bool.and_eq_true _ _).mp hC).1
        exact ((Bool.or_eq_true _ _).mp hor).resolve_right hfailed
      rw [after_failed hfailed]
      exact tracked_failed h hfree

end Discipline

section Walks

variable {o : OrderId} {α β : Type} {A A' : Phase → Prop} {B : α → Phase → Prop} {p : Act α}

/-- From the phases in `A` the method goes to those in `B`; what it throws, it throws when it has
nothing left to do about the payout. -/
abbrev Sees (o : OrderId) (A : Phase → Prop) (p : Act α) (B : α → Phase → Prop) : Prop :=
  ServedFlow (seeing o) .calm A p B

def Calm (ph : Phase) : Prop := ph = .calm

theorem seeing_served (o : OrderId) : Served (seeing o) .calm :=
  ⟨fun _ _ _ _ hfailed => .inr ⟨hfailed, rfl⟩, fun _ _ _ _ hup => .inl ⟨hup, .look⟩⟩

theorem sees_read {site : Site} {f : World → α} (hsite : site ≠ .retrievePaymentIntent)
    (h : ∀ ph w, A ph → ph.sees o w →
      ∃ ph', (∀ c, PayoutMoves o ph (.ask site) c w ph') ∧ B (f w) ph') :
    Sees o A (Prog.fetch site f) B := by
  refine (seeing_served o).read hsite fun ph w hph hview => ?_
  obtain ⟨ph', hmove, hB⟩ := h ph w hph hview
  exact ⟨ph', fun c hup => .inl ⟨hup, hmove c⟩, hB⟩

theorem sees_look {site : Site} {f : World → α} (hsite : site ≠ .retrievePaymentIntent) :
    Sees o A (Prog.fetch site f) fun _ => A := (seeing_served o).peek hsite

theorem sees_stmt {s : Stmt} {B : Nat → Phase → Prop} (hs : s.touchesProvider = false)
    (h : ∀ ph w c, A ph → ph.sees o w → c ≠ .down → ∃ ph', PayoutMoves o ph (.call s) c w ph' ∧
      Discipline.onAnswer B (fun _ ph => ph = .calm) (World.exec s c w).1 ph') :
    Sees o A (perform s) B := by
  refine (seeing_served o).stmt hs fun ph w c hph hview hc => ?_
  obtain ⟨ph', hmove, hB⟩ := h ph w c hph hview hc
  exact ⟨ph', .inl ⟨by simp [upheld, databaseUp, hc], hmove⟩, hB⟩

theorem sees_issue {s : Stmt} (hs : s.touchesProvider = false)
    (h : ∀ ph w c, A ph → ph.sees o w → c ≠ .down → ∃ ph', PayoutMoves o ph (.call s) c w ph' ∧
      Discipline.onAnswer (fun _ => A') (fun _ ph => ph = .calm) (World.exec s c w).1 ph') :
    Sees o A (issue s) fun _ => A' :=
  (sees_stmt hs h).seq fun _ => .pure fun _ hx => hx

theorem sees_event (id : OrderId) (actor : Actor) (type : EventType)
    (source target : Option OrderStatus) (payment : Option PaymentId) :
    Sees o A (writeEvent id actor type source target payment) fun _ => A :=
  sees_issue rfl fun ph w c hph _ hc => ⟨ph, .plain trivial, by
    simpa [World.exec, hc, World.write, Discipline.onAnswer] using hph⟩

/-- A method that leaves the order and its payout alone. -/
theorem sees_leaves (hp : p.Only (Stmt.leaves o)) : Sees o Calm p fun _ => Calm :=
  Discipline.Flow.only hp
    (fun _ l c w hph _ => (em (upheld (.ask l) c w)).imp (⟨·, .look⟩) (⟨·, hph⟩))
    fun _ s c w hph hs _ => (em (upheld (.call s) c w)).imp (⟨·, .plain hs⟩) (⟨·, hph⟩)

theorem sees_require {site : Site} (id : OrderId) :
    Sees o Calm (requireOrderAt site id) fun _ => Calm :=
  sees_leaves (only_requireOrderAt site id)

theorem transition_answer {id : OrderId} {source target : OrderStatus}
    {legal : canTransition source target} {c : Fate} {w : World} {r : Order}
    (hr : w.orders.get id = some r) (hc : c ≠ .down) :
    (World.exec (.order (.transition id source target legal)) c w).1 = .ok 1 := by
  simp [World.exec, hc, World.write, World.writeOrder, OrderStmt.order, hr, OrderStmt.rewrite]

theorem transition_missing {id : OrderId} {source target : OrderStatus}
    {legal : canTransition source target} {c : Fate} {w : World} (hr : w.orders.get id = none)
    (hc : c ≠ .down) :
    (World.exec (.order (.transition id source target legal)) c w).1 = .error .recordNotFound := by
  simp [World.exec, hc, World.write, World.writeOrder, OrderStmt.order, hr, OrderStmt.strict]

/-- The write of a transition, and where it leads when the order is there. -/
theorem sees_write {source target : OrderStatus} {legal : canTransition source target}
    (h : ∀ ph w c, A ph → ∃ ph',
      PayoutMoves o ph (.call (.order (.transition o source target legal))) c w ph' ∧ A' ph') :
    Sees o A (issue (.order (.transition o source target legal))) fun _ => A' := by
  refine sees_issue rfl fun ph w c hph _ hc => ?_
  cases hr : w.orders.get o with
  | none => exact ⟨.calm, .missing hr, by rw [transition_missing hr hc]; rfl⟩
  | some r =>
    obtain ⟨ph', hmove, hA⟩ := h ph w c hph
    exact ⟨ph', hmove, by rw [transition_answer hr hc]; exact hA⟩

/-- What a thread is in that has just approved the order, or found it approved. -/
def Approving (ph : Phase) : Prop := ph = .calm ∨ ph = .working true

theorem sees_approval (actor : Actor) :
    Sees o Calm (transition o approved actor) fun _ => Approving := by
  refine (sees_require o).seq fun order => ?_
  refine .ite (fun _ => .pure fun _ hx => .inl hx) fun _ => ?_
  split
  next legal =>
    refine Discipline.Flow.seq (B := fun _ => Approving)
      (sees_write fun ph w c hph => ⟨_, hph ▸ .approve, .inr rfl⟩) fun _ => ?_
    refine (sees_event _ _ _ _ _ _).seq fun _ => ?_
    exact .when (fun h => absurd h (by decide)) fun _ _ hx => hx
  next => exact .throw fun _ hx => hx

theorem sees_transit (target : OrderStatus) (actor : Actor) (htarget : target ≠ approved)
    (hplain : target ≠ assigned) : Sees o Calm (transition o target actor) fun _ => Calm := by
  refine (sees_require o).seq fun order => ?_
  refine .ite (fun _ => .pure fun _ hx => hx) fun _ => ?_
  split
  next legal =>
    refine Discipline.Flow.seq (B := fun _ => Calm)
      (sees_write fun ph w c hph => ⟨_, .transit (.inl hph) htarget, rfl⟩) fun _ => ?_
    refine (sees_event _ _ _ _ _ _).seq fun _ => ?_
    exact .when (fun h => absurd h hplain) fun _ _ hx => hx
  next => exact .throw fun _ hx => hx

/-- A thread that has found or recorded the payout paid, and is to complete the order. -/
def Completing (ph : Phase) : Prop := ∃ owes, ph = .completing owes

/-- The order whose payout is recorded paid is completed, unless another thread has done it. -/
theorem sees_completion :
    Sees o Completing (transition o completed .system) fun _ => Calm := by
  have hread : Sees o Completing (requireOrderAt .transition o) fun order ph =>
      order.status = completed ∧ ph = .calm ∨ order.status = approved ∧ Completing ph := by
    refine Discipline.Flow.seq (B := fun found ph => ∃ r, found = some r ∧
      (r.status = completed ∧ ph = .calm ∨ r.status = approved ∧ Completing ph))
      (sees_read (by decide) fun ph w hph hview => ?_) fun found => ?_
    · obtain ⟨owes, rfl⟩ := hph
      obtain ⟨r, hr, hpayable⟩ := hview
      rcases hpayable with hs | hs
      · exact ⟨.completing owes, fun _ => .look, r, hr, .inr ⟨hs, owes, rfl⟩⟩
      · refine ⟨.calm, fun _ => .completedAlready ?_, r, hr, .inl ⟨hs, rfl⟩⟩
        rintro ⟨r', hr', hs'⟩
        cases hr.symm.trans hr'
        rw [hs] at hs'
        cases hs'
    · cases found with
      | none => exact .throw fun _ hx => by obtain ⟨r, hr, -⟩ := hx; cases hr
      | some order =>
        refine .pure fun _ hx => ?_
        obtain ⟨r, hr, hx⟩ := hx
        cases hr
        exact hx
  refine hread.seq fun order => .ite (fun hdone => .pure fun _ hx => ?_) fun hopen => ?_
  · rcases hx with ⟨-, hph⟩ | ⟨hs, -⟩
    · exact hph
    · rw [hs] at hdone
      cases hdone
  · refine Discipline.Flow.weaken (A := fun ph => Completing ph ∧ order.status = approved) ?_
      (fun ph hx => ?_) (fun _ _ hx => hx) fun _ _ hx => hx
    · refine Discipline.Flow.fact fun hs => ?_
      have hlegal : canTransition order.status completed = true := by rw [hs]; rfl
      rw [dif_pos hlegal]
      refine Discipline.Flow.seq (B := fun _ => Calm)
        (sees_write fun ph w c hph => ⟨_, .transit (.inr hph) (by decide), rfl⟩) fun _ => ?_
      refine (sees_event _ _ _ _ _ _).seq fun _ => ?_
      exact .when (fun h => absurd h (by decide)) fun _ _ hx => hx
    · rcases hx with ⟨hs, -⟩ | ⟨hs, hph⟩
      · exact absurd hs hopen
      · exact ⟨hph, hs⟩

/-- A thread that has seen the order payable. -/
def Working (ph : Phase) : Prop := ∃ owes, ph = .working owes

theorem sees_skip (reason : String) :
    Sees o (fun ph => ph = .calm ∨ ph = .working false) (skipPayout o reason) fun _ => Calm := by
  refine Discipline.Flow.seq (B := fun _ => Calm) (sees_issue rfl fun ph w c hph _ hc => ?_)
    fun _ => .pure fun _ hx => hx
  refine ⟨.calm, .skip hph, ?_⟩
  simp only [World.exec, hc, if_false, World.write, World.writePayout]
  split <;> rfl

/-- A thread that is to alert operators of a payout parked for good. -/
def Alerting (ph : Phase) : Prop := ∃ owes, ph = .alerting owes

theorem sees_alert : Sees o Alerting notifyAdmins fun _ => Calm := by
  refine sees_read (by decide) fun ph w hph _ => ?_
  obtain ⟨owes, rfl⟩ := hph
  exact ⟨.calm, fun _ => .alert, rfl⟩

theorem park_answer {id : OrderId} {row : Payout} {c : Fate} {w : World} (hc : c ≠ .down) :
    (World.exec (.payout (.park id row)) c w).1 = .ok 1 := by
  simp [World.exec, hc, World.write, World.writePayout, PayoutStmt.rewrite]

/-- The payout is parked for a later attempt, or for good, and then the operators are told. -/
theorem sees_park (inspector : UserId) (amountCents : Cents) (reason : String) :
    Sees o Working (parkPayout o (some inspector) amountCents reason) fun _ => Calm := by
  refine (sees_look (by decide)).seq fun existing => (sees_look (by decide)).seq fun now => ?_
  by_cases hterminal : moneyRetryMaxAttempts ≤ existing.elim 0 (·.attempts) + 1
  · have hplan : (planRetry (existing.elim 0 (·.attempts)) false now).terminal = true := by
      simp [planRetry, hterminal]
    have hnext : (planRetry (existing.elim 0 (·.attempts)) false now).nextRetryAt = none := by
      simp [planRetry, hterminal]
    simp only [hplan, if_true, or_true]
    refine Discipline.Flow.seq (B := fun _ => Alerting)
      (sees_issue rfl fun ph w c hph _ hc => ?_) fun _ => ?_
    · obtain ⟨owes, rfl⟩ := hph
      by_cases hnew : owes = true ∨ (World.exec (.payout (.park o ⟨inspector, amountCents, .failed,
          (planRetry (existing.elim 0 (·.attempts)) false now).attempts,
          (planRetry (existing.elim 0 (·.attempts)) false now).nextRetryAt, none⟩)) c
          w).2.payouts.get o ≠ w.payouts.get o
      · exact ⟨.alerting true, .parkForGood rfl hnext hnew, by rw [park_answer hc]; exact ⟨_, rfl⟩⟩
      · obtain ⟨howes, hsame⟩ := not_or.mp hnew
        cases Bool.eq_false_iff.mpr howes
        exact ⟨.alerting false, .parkedAlready (Classical.not_not.mp hsame), by
          rw [park_answer hc]; exact ⟨_, rfl⟩⟩
    · exact Discipline.Flow.seq (.when (fun _ => sees_alert) fun h => absurd trivial h) fun _ =>
        .pure fun _ hx => hx
  · have hplan : (planRetry (existing.elim 0 (·.attempts)) false now).terminal = false := by
      simpa [planRetry] using hterminal
    have hleft : existing.elim 0 (·.attempts) + 1 < moneyRetryMaxAttempts := by omega
    have hscheduled : (Payout.mk inspector amountCents
        (if (planRetry (existing.elim 0 (·.attempts)) false now).terminal then .failed
          else .pending)
        (planRetry (existing.elim 0 (·.attempts)) false now).attempts
        (planRetry (existing.elim 0 (·.attempts)) false now).nextRetryAt none).scheduled := by
      simp [Payout.scheduled, planRetry, hterminal, hleft]
    refine Discipline.Flow.seq (B := fun _ => Calm)
      (sees_issue rfl fun ph w c hph _ hc => ?_) fun _ => ?_
    · obtain ⟨owes, rfl⟩ := hph
      exact ⟨.calm, .park hscheduled, by rw [park_answer hc]; rfl⟩
    · exact Discipline.Flow.seq (.when (fun _ => sees_leaves only_notifyAdmins) fun _ _ hx => hx)
        fun _ => .pure fun _ hx => hx

/-- A payout that is found paid is another thread's business. -/
theorem sees_payout {site : Site} (hsite : site ≠ .retrievePaymentIntent) :
    Sees o Working (Prog.fetch site (·.payouts.get o)) fun existing ph =>
      if existing.any (·.status = .settled) then ph = .calm else Working ph := by
  refine sees_read hsite fun ph w hph _ => ?_
  obtain ⟨owes, rfl⟩ := hph
  by_cases hpaid : (w.payouts.get o).any (·.status = .settled)
  · exact ⟨.calm, fun _ => .paidAlready hpaid, by rw [if_pos hpaid]⟩
  · exact ⟨.working owes, fun _ => .look, by rw [if_neg hpaid]; exact ⟨owes, rfl⟩⟩

/-- A payout that is paid already is found so, or it is recorded paid. -/
theorem sees_markPaid (inspector : UserId) (amountCents : Cents) (transfer : TransferId) :
    Sees o Working (markPayoutPaid o inspector amountCents transfer) fun already ph =>
      if already then ph = .calm else Completing ph := by
  refine (sees_payout (by decide)).seq fun existing => ?_
  refine .ite (fun hpaid => .pure fun _ hx => by rw [if_pos hpaid] at hx; exact hx) fun hpaid => ?_
  simp only [hpaid]
  have hperform : Sees o Working (perform (.payout (.markPaid o inspector amountCents
      (existing.elim 0 (·.attempts) + 1) transfer))) fun _ => Completing := by
    refine sees_stmt rfl fun ph w c hph _ hc => ?_
    obtain ⟨owes, rfl⟩ := hph
    refine ⟨.completing _, .paid, ?_⟩
    simp [World.exec, hc, World.write, World.writePayout, PayoutStmt.rewrite, Discipline.onAnswer,
      Completing]
  refine Discipline.Flow.seq (Discipline.Flow.attempt hperform) fun r => ?_
  split
  next => exact .pure fun _ hx => hx
  next => exact .pure fun _ hx => hx
  next => exact .throw fun _ hx => hx

theorem sees_finish (order : Order) (inspector : UserId) (transfer : TransferId) :
    Sees o Working (finishPayout o order inspector transfer) fun _ => Calm := by
  refine (sees_markPaid inspector order.inspectorShareCents transfer).seq fun already => ?_
  cases already with
  | true => exact .pure fun _ hx => hx
  | false => exact sees_completion.seq fun _ => .pure fun _ hx => hx

theorem sees_transferShare (order : Order) (intent : IntentId) :
    Sees o Working (transferShare o order intent) fun _ => Working := by
  have hintent : (seeing o).Flow machine Working (retrievePaymentIntent intent)
      (fun _ => Working) fun _ => Working := by
    refine Discipline.Flow.fetch fun ph c w hph _ => ⟨ph, .inl ⟨rfl, .look⟩, ?_⟩
    cases machine.answer .retrievePaymentIntent (·.provider.intents.get intent) c w <;> exact hph
  have htransfer : (seeing o).Flow machine Working
      (perform (.stripe (.createTransfer o order.inspectorShareCents)))
      (fun _ => Working) fun _ => Working := by
    refine Discipline.Flow.perform fun ph c w hph _ => ⟨ph, .inl ⟨rfl, .plain trivial⟩, ?_⟩
    cases (machine.exec (.stripe (.createTransfer o order.inspectorShareCents)) c w).1 <;> exact hph
  refine Discipline.Flow.post (Discipline.Flow.attempt (B := fun _ => Working)
    (E := fun _ => Working) (hintent.seq fun found => ?_)) (fun r ph hx => ?_) fun _ _ hx => hx
  · cases found with
    | none => exact .throw fun _ hx => hx
    | some i => exact .ite (fun _ => htransfer) fun _ => .throw fun _ hx => hx
  · cases r with
    | ok n => exact hx
    | error e => exact hx

theorem sees_payOut (order : Order) (inspector : UserId) (h : order.inspectorId = some inspector) :
    Sees o Working (payOut o order inspector) fun _ => Calm := by
  unfold payOut
  rw [h]
  refine (sees_look (by decide)).seq fun configured => .ite (fun _ => ?_) fun _ => ?_
  · have hpayment : Sees o Working (activePaymentForOrder o) fun _ => Working := by
      refine (sees_look (by simp)).seq fun holding => ?_
      cases holding with
      | none => exact sees_look (by simp)
      | some payment => exact .pure fun _ hx => hx
    refine hpayment.seq fun payment => ?_
    split
    next => exact sees_park inspector _ _
    next intent _ =>
      refine (sees_transferShare order intent).seq fun r => ?_
      cases r with
      | ok transfer => exact sees_finish _ _ _
      | error err => exact sees_park inspector _ _
  · exact sees_finish _ _ _

/-- Where a thread is that has looked for the order to release its payout. -/
def Found : Option Order → Phase → Prop
  | none, ph => ph = .calm
  | some r, ph => ¬ r.payable ∧ ph = .calm ∨
      r.payable ∧ ∃ owes, ph = .working owes ∧ (owes = true → r.inspectorId.isSome)

theorem sees_order : Sees o Approving (Prog.fetch .releasePayout (·.orders.get o)) Found := by
  refine sees_read (by decide) fun ph w hph hview => ?_
  rcases hph with rfl | rfl
  · cases hr : w.orders.get o with
    | none => exact ⟨.calm, fun _ => .look, rfl⟩
    | some r =>
      by_cases hpayable : r.payable
      · exact ⟨.working false, fun _ => .turn ⟨r, hr, hpayable, nofun⟩,
          .inr ⟨hpayable, false, rfl, nofun⟩⟩
      · exact ⟨.calm, fun _ => .look, .inl ⟨hpayable, rfl⟩⟩
  · obtain ⟨r, hr, hpayable, howes⟩ := hview
    rw [hr]
    exact ⟨.working true, fun _ => .look, .inr ⟨hpayable, true, rfl, fun _ => howes rfl⟩⟩

/-- The payout of the order is released, whether the thread owes it or not. -/
theorem sees_release : Sees o Approving (releasePayout o) fun _ => Calm := by
  refine sees_order.seq fun found => ?_
  cases found with
  | none => exact (sees_skip _).weaken (fun _ hx => .inl hx) (fun _ _ hx => hx) fun _ _ hx => hx
  | some order =>
    refine .ite (fun hclosed => ?_) fun hopen => ?_
    · refine (sees_skip _).weaken (fun ph hx => ?_) (fun _ _ hx => hx) fun _ _ hx => hx
      rcases hx with ⟨-, hph⟩ | ⟨hpayable, -⟩
      · exact .inl hph
      · exact absurd hpayable fun h => h.elim hclosed.1 hclosed.2
    have hpayable : order.payable := by
      by_contra hno
      exact hopen ⟨fun h => hno (.inl h), fun h => hno (.inr h)⟩
    split
    next hnone =>
      refine (sees_skip _).weaken (fun ph hx => ?_) (fun _ _ hx => hx) fun _ _ hx => hx
      rcases hx with ⟨hno, -⟩ | ⟨-, owes, hph, howes⟩
      · exact absurd hpayable hno
      · cases owes with
        | false => exact .inr hph
        | true =>
          have hsome := howes rfl
          rw [hnone] at hsome
          cases hsome
    next inspector hinspector =>
      refine Discipline.Flow.weaken (A := Working) ?_ (fun ph hx => ?_) (fun _ _ hx => hx)
        fun _ _ hx => hx
      · refine (sees_payout (by simp)).seq fun existing => ?_
        refine .ite (fun hpaid => .pure fun _ hx => by rw [if_pos hpaid] at hx; exact hx)
          fun hpaid => ?_
        simp only [hpaid]
        refine (sees_look (by decide)).seq fun profile => .ite (fun _ => ?_) fun _ => ?_
        · rw [hinspector]
          exact sees_park inspector _ _
        · exact sees_payOut order inspector hinspector
      · rcases hx with ⟨hno, -⟩ | ⟨-, owes, hph, -⟩
        · exact absurd hpayable hno
        · exact ⟨owes, hph⟩

theorem leaves_pay {id : OrderId} (hid : id ≠ o) {s : Stmt} (hs : PayStmt id s) : s.leaves o := by
  cases hs with
  | payout u hu => exact fun heq => hid (hu.symm.trans heq)
  | transfer amountCents => trivial
  | completed source legal => exact hid
  | event e => trivial

/-- A release that is not owed. -/
theorem sees_releasePayout (id : OrderId) : Sees o Calm (releasePayout id) fun _ => Calm := by
  by_cases hid : id = o
  · subst hid
    exact sees_release.weaken (fun _ hx => .inl hx) (fun _ _ hx => hx) fun _ _ hx => hx
  · exact sees_leaves ((only_releasePayout id).mono fun _ hs => leaves_pay hid hs)

/-- An approval, and the release of the payout it owes. -/
theorem sees_approveAndPay (id : OrderId) (actor : Actor) :
    Sees o Calm (do
      transition id approved actor
      let _ ← releasePayout id
      pure ()) fun _ => Calm := by
  by_cases hid : id = o
  · subst hid
    exact (sees_approval actor).seq fun _ => sees_release.seq fun _ => .pure fun _ hx => hx
  · have happrove : (transition id approved actor).Only (Stmt.leaves o) :=
      only_transition_plain _ _ _ (by decide) (fun _ _ => hid) fun _ => trivial
    exact (sees_leaves happrove).seq fun _ =>
      (sees_releasePayout id).seq fun _ => .pure fun _ hx => hx

theorem sees_attempt (h : Sees o Calm p fun _ => Calm) : Sees o Calm (attempt p) fun _ => Calm := by
  refine (Discipline.Flow.attempt h).post (fun r _ hx => ?_) fun _ _ hx => hx
  cases r with
  | ok a => exact hx
  | error e => exact hx

theorem sees_approve (id : OrderId) (user : UserId) :
    Sees o Calm (approve id user) fun _ => Calm := by
  refine (sees_require id).seq fun order => .ite (fun _ => .throw fun _ hx => hx) fun _ => ?_
  by_cases hid : id = o
  · subst hid
    refine (sees_approval _).seq fun _ => sees_release.seq fun _ => ?_
    exact (sees_require id).seq fun _ => .pure fun _ hx => hx
  · have happrove : (transition id approved (.user user)).Only (Stmt.leaves o) :=
      only_transition_plain _ _ _ (by decide) (fun _ _ => hid) fun _ => trivial
    refine (sees_leaves happrove).seq fun _ => (sees_releasePayout id).seq fun _ => ?_
    exact (sees_require id).seq fun _ => .pure fun _ hx => hx

theorem sees_autoApproveOverdue : Sees o Calm autoApproveOverdue fun _ => Calm := by
  refine (sees_look (by decide)).seq fun overdue => ?_
  refine Discipline.Flow.seq (Discipline.Flow.forEach fun x _ => ?_) fun _ => .pure fun _ hx => hx
  exact sees_approveAndPay x.1 .system

theorem sees_closeAndRethrow (id : OrderId) (status : DisputeStatus) (admin : UserId)
    (moved : Except Err Unit) :
    Sees o Calm (closeAndRethrow id status admin moved) fun _ => Calm := by
  refine sees_leaves (Only.seq (Only.quietly ((only_perform _).mpr trivial)) fun _ => ?_)
  refine Only.seq (Only.quietly (only_note _ _ _ fun _ => trivial)) fun _ => ?_
  cases moved with
  | error err => exact only_throw _
  | ok _ => exact only_requireOrderAt _ _

theorem sees_settleIntended (id : OrderId) (intendedCents : Cents) (reason : RefundReason) :
    Sees o Calm (settleIntended id intendedCents reason) fun _ => Calm := by
  refine sees_leaves (Only.ite (fun _ => Only.seq (only_settleRefund _ _ _ ?_) fun _ => only_pure _)
    fun _ => only_pure _)
  intro payment intent s hs
  cases hs <;> trivial

theorem sees_refunding (id : OrderId) (actor : Actor) :
    Sees o Calm (transition id refunded actor) fun _ => Calm := by
  by_cases hid : id = o
  · subst hid
    exact sees_transit refunded actor (by decide) (by decide)
  · exact sees_leaves (only_transition_plain _ _ _ (by decide) (fun _ _ => hid) fun _ => trivial)

theorem sees_resolveDispute (id : OrderId) (forCustomer : Bool) (admin : UserId)
    (percent : Option ℚ) :
    Sees o Calm (resolveDispute id forCustomer admin percent) fun _ => Calm := by
  refine (sees_require id).seq fun order => .ite (fun _ => .throw fun _ hx => hx) fun _ => ?_
  refine .ite (fun _ => ?_) fun _ => ?_
  · refine (sees_settleIntended id _ _).seq fun outcome => ?_
    refine (sees_attempt (sees_refunding id _)).seq fun moved => ?_
    exact (sees_closeAndRethrow id _ _ moved).seq fun _ => .pure fun _ hx => hx
  · refine (sees_attempt (sees_approveAndPay id _)).seq fun moved => ?_
    refine (sees_closeAndRethrow id _ _ moved).seq fun _ => ?_
    exact (sees_look (by decide)).seq fun _ => .pure fun _ hx => hx

theorem sees_retryStuckPayouts (limit : Nat) :
    Sees o Calm (retryStuckPayouts limit) fun _ => Calm := by
  refine (sees_look (by decide)).seq fun due => Discipline.Flow.countEach fun x _ => ?_
  have hretry : Sees o Calm (retryPayout x.1) fun _ => Calm := by
    refine (sees_releasePayout x.1).seq fun outcome => ?_
    split
    · exact .pure fun _ hx => hx
    · exact (sees_look (by decide)).seq fun _ => .pure fun _ hx => hx
  exact hretry.handle fun _ => .pure fun _ hx => hx

theorem sees_retryNow (id : OrderId) :
    Sees o Calm (issue (.payout (.retryNow id))) fun _ => Calm := by
  by_cases hid : id = o
  · subst hid
    refine sees_issue rfl fun ph w c hph _ _ => ⟨.calm, ?_, ?_⟩
    · cases hph
      exact .retry
    cases (World.exec (.payout (.retryNow id)) c w).1 <;> rfl
  · exact sees_leaves (only_issue hid)

theorem sees_adminRetryPayout (id : OrderId) : Sees o Calm (adminRetryPayout id) fun _ => Calm := by
  refine (sees_look (by decide)).seq fun found => ?_
  cases found with
  | none => exact .throw fun _ hx => hx
  | some payout =>
    refine .ite (fun _ => .pure fun _ hx => hx) fun _ => ?_
    refine (sees_retryNow id).seq fun _ => (sees_releasePayout id).seq fun _ => ?_
    exact (sees_look (by decide)).seq fun _ => .pure fun _ hx => hx

theorem sees_op {op : Op} (h : op.approvesOrPays) : Sees o Calm op.prog fun _ => Calm := by
  cases op with
  | approve id user => exact (sees_approve id user).seq fun _ => .pure fun _ hx => hx
  | autoApproveOverdue => exact sees_autoApproveOverdue.seq fun _ => .pure fun _ hx => hx
  | resolveDispute id forCustomer admin percent =>
    exact (sees_resolveDispute id forCustomer admin percent).seq fun _ => .pure fun _ hx => hx
  | releasePayout id => exact (sees_releasePayout id).seq fun _ => .pure fun _ hx => hx
  | retryStuckPayouts limit =>
    exact (sees_retryStuckPayouts limit).seq fun _ => .pure fun _ hx => hx
  | adminRetryPayout id => exact sees_adminRetryPayout id
  | _ => exact h.elim

end Walks

/-- No approved order is stranded, in every interleaving and wherever the calls fail, but for the
three places where one has approved the order, parked its payout for good or recorded it paid and
not yet done what follows; when each transition finds the order in the status it was read in, and an
order that is approved has an inspector and no paid payout. -/
theorem no_stranded_order (w : World) (h : PayoutNotes) (ops : List Op) (o : OrderId)
    (g : Run PayoutNotes) (hops : ∀ op ∈ ops, op.approvesOrPays) (hstart : Unstranded o (w, h))
    (hg : Pool.Reach machine (recordNotes o) (paysOut o) (launch w h ops) g) (hend : g.AllEnded) :
    Unstranded o g.snapshot ∧ Repairable o g.state := by
  have hheld : Tracked o (fun _ => .calm) (w, h) := by
    refine ⟨fun _ => trivial, fun hawaits => ?_, fun hawaits hpaid => ?_,
      fun _ hno => absurd rfl hno⟩
    · obtain ⟨p, hp, hunpaid, htended⟩ := hstart hawaits
      refine .inr (.inr ⟨p, hp, hunpaid, htended.imp_right fun hidle => ⟨hidle.1, ?_⟩⟩)
      exact hidle.2.imp_left fun hfailed => ⟨hfailed.1, .inl hfailed.2⟩
    · obtain ⟨p, hp, hunpaid, -⟩ := hstart hawaits
      have hget : w.payouts.get o = some p := hp
      have hsettled : p.status = .settled := by simpa [World.paidOut, hget] using hpaid
      exact absurd hsettled hunpaid
  have hkept : (seeing o).Kept machine (Tracked o) Calm (fun _ => .calm) (launch w h ops) := by
    refine ⟨hheld, fun t p hp => ?_, fun _ _ => rfl⟩
    obtain ⟨op, hop, rfl⟩ := launch_thread hp
    exact sees_op (hops op hop) _ rfl
  obtain ⟨Φ, hafter⟩ := Discipline.kept_of_reach (tracked_invariant o) hkept hg
  have hcalm (t : Nat) : Φ t = .calm := hafter.ended hend t
  have hunpaid (hawaits : g.state.awaitsPayout o) : ¬ g.state.paidOut o := by
    intro hpaid
    obtain ⟨t, ht⟩ := hafter.inv.paid hawaits hpaid
    rw [hcalm t] at ht
    cases ht
  refine ⟨fun hawaits => ?_, fun hawaits hpaid => absurd hpaid (hunpaid hawaits)⟩
  rcases hafter.inv.watched hawaits with hpaid | ⟨t, ht⟩ | ⟨p, hp, hsettled, hwatched⟩
  · exact absurd hpaid (hunpaid hawaits)
  · rw [hcalm t] at ht
    cases ht
  · refine ⟨p, hp, hsettled, hwatched.imp_right fun hidle => ⟨hidle.1, ?_⟩⟩
    refine hidle.2.imp_left fun hfailed => ⟨hfailed.1, ?_⟩
    rcases hfailed.2 with halerted | ⟨t, ht⟩
    · exact halerted
    · rw [hcalm t] at ht
      cases ht

section Stranded

/-- The customer approves the report. -/
def approveReport : Run PayoutNotes :=
  launch submittedWorld .empty [.approve 1 7]

/-- Whether the run is over, where the order stands, and whether its payout waits for a sweep. -/
def payoutLeft (g : Run PayoutNotes) : Bool × Option OrderStatus × Option Bool :=
  (decide g.AllEnded, (g.state.orders.get 1).map (·.status),
    (g.state.payouts.get 1).map (·.scheduled))

theorem submitted_unstranded : Unstranded 1 (submittedWorld, .empty) := by
  rintro ⟨r, hr, happroved⟩
  cases hr
  cases happroved

theorem approves_only : ∀ op ∈ [Op.approve 1 7], op.approvesOrPays := by
  simp [Op.approvesOrPays]

/-- The process dies when the order has been approved and before its payout is looked for: no payout
exists, and no sweep looks for an approved order without one. -/
theorem approved_stranded : ¬ StrandingLaw fun _ => anyStep := by
  intro hlaw
  have hrun : Pool.observe machine (recordNotes 1) anyStep payoutLeft (goes 0 4) (.run 0 .down)
      approveReport = some ((false, some approved, none), (true, some approved, none)) := by
    decide +kernel
  obtain ⟨g, g', hg, hm, hs, -, hafter⟩ := Pool.observe_eq hrun
  obtain ⟨hend, hrest⟩ := Prod.mk.inj hafter
  obtain ⟨hstatus, hpayout⟩ := Prod.mk.inj hrest
  obtain ⟨r, hr, happroved⟩ := Option.map_eq_some_iff.mp hstatus
  have hleft := hlaw submittedWorld _ _ 1 g' approves_only submitted_unstranded (.next hg hm hs)
    (of_decide_eq_true hend)
  obtain ⟨p, hp, -⟩ := hleft.1 ⟨r, hr, happroved⟩
  rw [Option.map_eq_none_iff.mp hpayout] at hp
  cases hp

/-- The inspector cannot be paid yet, and the process dies when that is written down: the payout
waits for a sweep. -/
theorem approved_scheduled : ∃ g : Run PayoutNotes,
    payoutLeft g = (true, some approved, some true) ∧
    Unstranded 1 g.snapshot ∧ Repairable 1 g.state := by
  have hrun : Pool.observe machine (recordNotes 1) (paysOut 1) payoutLeft (goes 0 11) (.run 0 .down)
      approveReport = some ((false, some approved, some true),
        (true, some approved, some true)) := by
    decide +kernel
  obtain ⟨g, g', hg, hm, hs, -, hafter⟩ := Pool.observe_eq hrun
  exact ⟨g', hafter, no_stranded_order submittedWorld _ _ 1 g' approves_only submitted_unstranded
    (.next (m := .run 0 .down) hg hm hs) (of_decide_eq_true (Prod.mk.inj hafter).1)⟩

end Stranded

end CarSalePro
