import CarSalePro.Laws.CapturedMoney
import CarSalePro.Orders.Lenient

namespace CarSalePro

open Store Interleave OrderStatus

/-- The calls that end an order that money was taken for. -/
def Op.ends : Op → Prop
  | .cancel _ _ | .adminCancel _ _ _ | .declineByInspector _ _ _
    | .sweepAbandonedInspections => True
  | .recordOwnerContact _ _ reached => reached = false
  | .resolveDispute _ _ _ _ => True
  | _ => False

namespace RefundReason

/-- The status check of the call that refunds for this reason before it moves the order. -/
def admits (s : OrderStatus) : RefundReason → Bool
  | cancelBeforeAssign => s ∈ beforeAssignStatuses
  | cancelAfterAssign => s ∈ afterAssignStatuses
  | admin => canTransition s cancelled
  | dispute => s = disputed
  | _ => false

/-- The call that refunds for this reason pays first and moves the order afterwards. -/
def paysFirst : RefundReason → Bool
  | cancelBeforeAssign | cancelAfterAssign | admin | dispute => true
  | _ => false

end RefundReason

/-- The statuses an ending leaves the order in. -/
def closedStatuses : List OrderStatus := [cancelled, refunded, approved, completed]

/-- The endings under way: which call began to pay for which order and reason, and has not moved
the order since. -/
abbrev Endings := List (Nat × OrderId × RefundReason)

def recordEnding : Recorder Site Stmt World Endings := fun t l _ w' h =>
  match l with
  | .ask (.findRefund o reason) =>
    if reason.paysFirst ∧ (t, o, reason) ∉ h then (t, o, reason) :: h else h
  | .call (.order (.transition o _ target _)) =>
    if target ∈ closedStatuses ∧ (w'.orders.get o).any (·.status = target) then
      h.filter fun e => ¬(e.1 = t ∧ e.2.1 = o)
    else h
  | _ => h

/-- A refund of the order was recorded or issued for this reason since `w`. -/
def Obtained (w w' : World) (o : OrderId) (reason : RefundReason) : Prop :=
  (w.refunds.get (o, reason) = none ∧ (w'.refunds.get (o, reason)).isSome) ∨
  (w.provider.refunds.get (o, reason) = none ∧ (w'.provider.refunds.get (o, reason)).isSome)

/-- An order is refunded for one reason. -/
def OneEndingLaw (C : StepGuard Endings) : Prop :=
  ∀ (w : World) (ops : List Op) (g : Run Endings) (o : OrderId) (reason reason' : RefundReason),
    (∀ op ∈ ops, op.ends) → Pool.Reach machine recordEnding C (launch w [] ops) g →
    Obtained w g.state o reason → Obtained w g.state o reason' → reason = reason'

/-- A call that pays first begins while its order is still in a status its own check admits, and
no call stands for another reason between its payment and its status; a cancellation that is the
claim itself finds no call standing there. -/
def oneAtATime : StepGuard Endings := fun t l _ x =>
  match l with
  | .ask (.findRefund o reason) =>
    !reason.paysFirst || (t, o, reason) ∈ x.2 ||
      (x.1.orders.get o).any (fun r => reason.admits r.status) &&
        x.2.all fun e => e.2.1 ≠ o || e.2.2 = reason
  | .call (.order (.cancelWhere o guard)) =>
    !(x.1.orders.get o).any (fun r => guard.admits r) || x.2.all fun e => e.2.1 ≠ o
  | _ => true

def World.closedOrder (w : World) (o : OrderId) : Bool :=
  (w.orders.get o).any (·.status ∈ closedStatuses)

/-- The statements of these calls besides their refunds and claims. -/
def endingSide : Stmt → Bool
  | .order (.transition _ _ target _) => target ∈ closedStatuses
  | .order (.cancelWhere _ _) => false
  | .upsertRefund _ _ _ | .stripe (.createRefund _ _ _ _) => false
  | _ => true

/-- What a call may pay for: nothing yet, or one order and reason. -/
inductive Due where
  | nothing
  | owing (order : OrderId) (reason : RefundReason)

/-- The moves of an ending. -/
inductive EndingMove : Due → Label Site Stmt → Fate → World → Due → Prop where
  | read (ph l c w) : EndingMove ph (.ask l) c w ph
  | began (ph o reason c w) (h : reason.paysFirst) :
      EndingMove ph (.ask (.findRefund o reason)) c w (.owing o reason)
  | side (ph s c w) (h : endingSide s) : EndingMove ph (.call s) c w ph
  | refused (ph s c w e) (ht : s.touchesProvider = false)
      (h : (World.exec s c w).1 = .error e) : EndingMove ph (.call s) c w ph
  | missed (ph o guard c w) (h : (World.exec (.order (.cancelWhere o guard)) c w).1 = .ok 0) :
      EndingMove ph (.call (.order (.cancelWhere o guard))) c w ph
  | claimed (ph o guard reason c w n)
      (h : (World.exec (.order (.cancelWhere o guard)) c w).1 = .ok n) (hn : n ≠ 0) :
      EndingMove ph (.call (.order (.cancelWhere o guard))) c w (.owing o reason)
  | refund (o reason k i s c w) (h : RefundStmt o reason k i s) :
      EndingMove (.owing o reason) (.call s) c w (.owing o reason)

/-- How endings are paid for. -/
def endings : Discipline Site Stmt World Fate Due where
  view _ _ := True
  moves := EndingMove

section Steps

variable {s : Stmt} {c : Fate} {w v : World} {o : OrderId} {reason : RefundReason}
  {ph ph' : Due} {l : Label Site Stmt}

theorem admits_open {r : Order} (h : reason.admits r.status) : r.status ∉ closedStatuses := by
  revert h
  cases reason <;> cases r.status <;> decide

theorem guard_open {r : Order} {guard : CancelGuard} (h : guard.admits r) :
    r.status ∉ closedStatuses := by
  have hlegal := CancelGuard.legal h
  revert hlegal
  cases r.status <;> decide

theorem not_obtained_self : ¬ Obtained w w o reason := by
  rintro (⟨hnone, hsome⟩ | ⟨hnone, hsome⟩)
  · rw [hnone] at hsome
    cases hsome
  · rw [hnone] at hsome
    cases hsome

/-- A refund is new only at the statement that records or issues it. -/
theorem obtained_exec (h : Obtained v (World.exec s c w).2 o reason) : Obtained v w o reason ∨
    (∃ row, s = .upsertRefund o reason row) ∨ ∃ i a, s = .stripe (.createRefund i a o reason) := by
  rcases h with ⟨hnone, hsome⟩ | ⟨hnone, hsome⟩
  · rcases World.exec_refundRow s c w (o, reason) with he | hs
    · rw [he] at hsome
      exact .inl (.inl ⟨hnone, hsome⟩)
    · exact .inr (.inl hs)
  · rcases World.exec_providerRefund s c w (o, reason) with he | hs
    · rw [he] at hsome
      exact .inl (.inr ⟨hnone, hsome⟩)
    · exact .inr (.inr hs)

theorem obtained_move (hm : EndingMove ph l c w ph')
    (h : Obtained v (machine.after l c w) o reason) :
    Obtained v w o reason ∨ ph = .owing o reason := by
  cases l with
  | ask site => exact .inl h
  | call s =>
    rcases obtained_exec h with h | ⟨row, rfl⟩ | ⟨i, a, rfl⟩
    · exact .inl h
    · cases hm with
      | side _ _ _ _ hs => cases hs
      | refused _ _ _ _ e ht he =>
        rw [Machine.after_call, show machine.exec = World.exec from rfl,
          World.exec_failed ht he] at h
        exact .inl h
      | refund _ _ k i _ _ _ hs => cases hs; exact .inr rfl
    · cases hm with
      | side _ _ _ _ hs => cases hs
      | refused _ _ _ _ e ht => cases ht
      | refund _ _ k i _ _ _ hs => cases hs; exact .inr rfl

/-- A cancellation that wrote found its guard satisfied. -/
theorem cancelWhere_wrote {guard : CancelGuard} {n : Nat}
    (h : (World.exec (.order (.cancelWhere o guard)) c w).1 = .ok n) (hn : n ≠ 0) :
    (w.orders.get o).any (fun r => guard.admits r) = true ∧
      (World.exec (.order (.cancelWhere o guard)) c w).2.closedOrder o := by
  have hdown : c ≠ .down := by
    intro hc
    rw [hc] at h
    cases h
  cases hr : w.orders.get o with
  | none =>
    simp only [World.exec, if_neg hdown, World.write, World.writeOrder, OrderStmt.order, hr] at h
    cases h
    exact absurd rfl hn
  | some r =>
    rcases World.exec_orderStmt (c := c) (u := .cancelWhere o guard) hr with
      ⟨hc, _⟩ | ⟨_, he⟩ | ⟨r', hw, he⟩
    · exact absurd hc hdown
    · rw [he] at h
      cases h
      exact absurd rfl hn
    · simp only [OrderStmt.rewrite] at hw
      split at hw
      next hg =>
        cases hw
        refine ⟨by simpa using hg, ?_⟩
        rw [he]
        simp [World.closedOrder, OrderStmt.order, closedStatuses]
      next => cases hw

/-- A closed order stays closed. -/
theorem closed_move (hm : EndingMove ph l c w ph') (h : w.closedOrder o) :
    (machine.after l c w).closedOrder o := by
  cases l with
  | ask site => exact h
  | call s =>
    obtain ⟨r, hr, hclosed⟩ := (Option.any_eq_true _ _).mp h
    obtain ⟨r', hr', heff⟩ := World.exec_order (s := s) (c := c) hr
    have hstatus (hs : r'.status ∈ closedStatuses) : (World.exec s c w).2.closedOrder o :=
      (Option.any_eq_true _ _).mpr ⟨r', hr', by simpa using hs⟩
    have hsame (hs : r'.status = r.status) : (World.exec s c w).2.closedOrder o :=
      hstatus (by rw [hs]; simpa using hclosed)
    cases heff with
    | same => exact hsame rfl
    | sale => exact hsame rfl
    | write u stmt row rewrite =>
      subst stmt
      rcases OrderStmt.rewrite_status rewrite with hs | ⟨id, source, target, legal, rfl, hs⟩ |
        ⟨id, guard, rfl, _, hs⟩
      · exact hsame hs
      · cases hm with
        | side _ _ _ _ hside => exact hstatus (by rw [hs]; simpa [endingSide] using hside)
        | refused _ _ _ _ e ht he =>
          rw [Machine.after_call, show machine.exec = World.exec from rfl, World.exec_failed ht he]
          exact h
        | refund _ _ k i _ _ _ hs => cases hs
      · exact hstatus (by rw [hs]; decide)

/-- An entry of the endings under way is kept, or its order is closed. -/
theorem recordEnding_call {t : Nat} {h : Endings} (e : Nat × OrderId × RefundReason) :
    (e ∈ recordEnding t (.call s) w v h → e ∈ h) ∧
      (e ∈ h → e ∈ recordEnding t (.call s) w v h ∨ v.closedOrder e.2.1) := by
  unfold recordEnding
  split
  next hl => cases hl
  next o' _ target _ hl =>
    split
    next hc =>
      refine ⟨fun he => (List.mem_filter.mp he).1, fun he => ?_⟩
      by_cases ho : e.1 = t ∧ e.2.1 = o'
      · right
        obtain ⟨r, hr, hs⟩ := (Option.any_eq_true _ _).mp hc.2
        simp only [decide_eq_true_eq] at hs
        rw [ho.2]
        exact (Option.any_eq_true _ _).mpr ⟨r, hr, by simpa [hs] using hc.1⟩
      · exact .inl (List.mem_filter.mpr ⟨he, decide_eq_true ho⟩)
    next => exact ⟨fun he => he, .inl⟩
  next => exact ⟨fun he => he, .inl⟩

end Steps

/-- The calls agree on what the order is refunded for. -/
structure Agreed (v : World) (o : OrderId) (reason : RefundReason) (Φ : Nat → Due)
    (x : World × Endings) : Prop where
  obtained : ∀ ρ, Obtained v x.1 o ρ → ρ = reason
  underway : ∀ e ∈ x.2, e.2.1 = o → e.2.2 = reason
  owing : ∀ t ρ, Φ t = .owing o ρ → ρ = reason

/-- Nothing has been begun for the order. -/
structure Untouched (v : World) (o : OrderId) (Φ : Nat → Due) (x : World × Endings) : Prop where
  obtained : ∀ ρ, ¬ Obtained v x.1 o ρ
  underway : ∀ e ∈ x.2, e.2.1 ≠ o
  owing : ∀ t ρ, Φ t ≠ .owing o ρ

/-- The invariant of the endings: once one is begun it is the only one, and until it is over it is
under way. -/
def EndingKept (v : World) (o : OrderId) (Φ : Nat → Due) (x : World × Endings) : Prop :=
  Untouched v o Φ x ∨ ∃ reason, Agreed v o reason Φ x ∧
    (x.1.closedOrder o ∨ ∃ e ∈ x.2, e.2.1 = o)

section Runs

variable {v : World} {o : OrderId} {Φ : Nat → Due} {x : World × Endings} {t : Nat} {c : Fate}
  {ph : Due} {reason : RefundReason}

theorem Untouched.agreed (h : Untouched v o Φ x) (reason : RefundReason) :
    Agreed v o reason Φ x where
  obtained ρ hρ := absurd hρ (h.obtained ρ)
  underway e he ho := absurd ho (h.underway e he)
  owing u ρ hu := absurd hu (h.owing u ρ)

/-- While the order is open and nothing else is under way for it, what is begun is agreed on. -/
theorem EndingKept.agree (hI : EndingKept v o Φ x) (hopen : x.1.closedOrder o = false)
    (hothers : ∀ e ∈ x.2, e.2.1 = o → e.2.2 = reason) : Agreed v o reason Φ x := by
  rcases hI with h | ⟨ρ, h, hclosed | ⟨e, he, ho⟩⟩
  · exact h.agreed reason
  · rw [hopen] at hclosed
    cases hclosed
  · rw [← hothers e he ho, h.underway e he ho]
    exact h

theorem Agreed.update (h : Agreed v o reason Φ x) (hph : ∀ ρ, ph = .owing o ρ → ρ = reason)
    (u : Nat)
    (ρ : RefundReason) (hu : Function.update Φ t ph u = .owing o ρ) : ρ = reason := by
  by_cases hut : u = t
  · subst hut
    rw [Function.update_self] at hu
    exact hph ρ hu
  · rw [Function.update_of_ne hut] at hu
    exact h.owing u ρ hu

/-- A read allows payment only where an ending begins. -/
theorem EndingMove.ask {ph₀ : Due} {site : Site} {w : World} {ρ : RefundReason}
    (hm : EndingMove ph₀ (.ask site) c w ph) (h : ph = .owing o ρ) :
    ph₀ = .owing o ρ ∨ (site = .findRefund o ρ ∧ ρ.paysFirst = true) := by
  cases hm with
  | read => exact .inl h
  | began _ o' ρ' _ _ hρ => cases h; exact .inr ⟨rfl, hρ⟩

theorem endingKept_ask {site : Site} (hI : EndingKept v o Φ x)
    (hC : oneAtATime t (.ask site) c x) (hm : EndingMove (Φ t) (.ask site) c x.1 ph) :
    EndingKept v o (Function.update Φ t ph) (x.1, recordEnding t (.ask site) x.1 x.1 x.2) := by
  by_cases hbegin : ∃ ρ, site = .findRefund o ρ ∧ ρ.paysFirst
  · obtain ⟨ρ, rfl, hρ⟩ := hbegin
    have hfrom (ρ' : RefundReason) (hph : ph = .owing o ρ') : Φ t = .owing o ρ' ∨ ρ' = ρ :=
      (hm.ask hph).imp_right fun hfirst => by cases hfirst.1; rfl
    by_cases hmem : (t, o, ρ) ∈ x.2
    · -- the call reads its refund again
      have hlog : recordEnding t (.ask (.findRefund o ρ)) x.1 x.1 x.2 = x.2 := by
        simp [recordEnding, hmem]
      rw [hlog]
      rcases hI with h | ⟨reason, h, hover⟩
      · exact absurd rfl (h.underway _ hmem)
      · refine .inr ⟨reason, ⟨h.obtained, h.underway, h.update fun ρ' hph => ?_⟩, hover⟩
        rcases hfrom ρ' hph with hold | hnew
        · exact h.owing t ρ' hold
        · rw [hnew]
          exact h.underway _ hmem rfl
    · have hlog : recordEnding t (.ask (.findRefund o ρ)) x.1 x.1 x.2 = (t, o, ρ) :: x.2 := by
        simp [recordEnding, hmem, hρ]
      simp only [oneAtATime, hρ, hmem, Bool.not_true, decide_false, Bool.false_or, Bool.and_eq_true,
        List.all_eq_true, Bool.or_eq_true, decide_eq_true_eq] at hC
      obtain ⟨hadmits, hothers⟩ := hC
      have hopen : x.1.closedOrder o = false := by
        obtain ⟨r, hr, ha⟩ := (Option.any_eq_true _ _).mp hadmits
        simpa [World.closedOrder, hr] using admits_open ha
      have h := hI.agree hopen fun e he ho => (hothers e he).resolve_left (absurd ho)
      rw [hlog]
      refine .inr ⟨ρ, ⟨h.obtained, fun e he ho => ?_, h.update fun ρ' hph => ?_⟩,
        .inr ⟨_, List.mem_cons_self, rfl⟩⟩
      · rcases List.mem_cons.mp he with rfl | he
        · rfl
        · exact h.underway e he ho
      · exact (hfrom ρ' hph).elim (h.owing t ρ') id
  · have hfrom (ρ : RefundReason) (hph : ph = .owing o ρ) : Φ t = .owing o ρ :=
      (hm.ask hph).resolve_right fun h => hbegin ⟨ρ, h⟩
    have hlog (e : Nat × OrderId × RefundReason) (ho : e.2.1 = o) :
        e ∈ recordEnding t (.ask site) x.1 x.1 x.2 ↔ e ∈ x.2 := by
      unfold recordEnding
      split
      next o' ρ hl =>
        cases hl
        split
        next hc =>
          refine ⟨fun he => ?_, List.mem_cons_of_mem _⟩
          rcases List.mem_cons.mp he with rfl | he
          · cases ho
            exact absurd ⟨ρ, rfl, hc.1⟩ hbegin
          · exact he
        next => exact Iff.rfl
      next hl => cases hl
      next => exact Iff.rfl
    rcases hI with h | ⟨reason, h, hover⟩
    · refine .inl ⟨h.obtained, fun e he ho => h.underway e ((hlog e ho).mp he) ho, fun u ρ hu => ?_⟩
      by_cases hut : u = t
      · subst hut
        rw [Function.update_self] at hu
        exact h.owing u ρ (hfrom ρ hu)
      · rw [Function.update_of_ne hut] at hu
        exact h.owing u ρ hu
    · refine .inr ⟨reason, ⟨h.obtained, fun e he ho => h.underway e ((hlog e ho).mp he) ho,
        h.update fun ρ hph => h.owing t ρ (hfrom ρ hph)⟩, ?_⟩
      refine hover.imp_right fun hunder => ?_
      obtain ⟨e, he, ho⟩ := hunder
      exact ⟨e, (hlog e ho).mpr he, ho⟩

/-- A statement pays for what was begun, but where the cancellation is the claim itself. -/
theorem EndingMove.call {ph₀ : Due} {s : Stmt} {w : World} (hm : EndingMove ph₀ (.call s) c w ph) :
    (∀ ρ, ph = .owing o ρ → ph₀ = .owing o ρ) ∨
    ∃ guard n, s = .order (.cancelWhere o guard) ∧ (World.exec s c w).1 = .ok n ∧ n ≠ 0 := by
  cases hm with
  | claimed _ o' guard _ _ _ n he hn =>
    by_cases ho : o' = o
    · subst ho
      exact .inr ⟨guard, n, rfl, he, hn⟩
    · exact .inl fun ρ h => by cases h; exact absurd rfl ho
  | _ => exact .inl fun _ h => h

theorem endingKept_call {s : Stmt} (hI : EndingKept v o Φ x) (hC : oneAtATime t (.call s) c x)
    (hm : EndingMove (Φ t) (.call s) c x.1 ph) :
    EndingKept v o (Function.update Φ t ph) ((World.exec s c x.1).2,
      recordEnding t (.call s) x.1 (World.exec s c x.1).2 x.2) := by
  have hlog := recordEnding_call (s := s) (w := x.1) (v := (World.exec s c x.1).2) (t := t)
    (h := x.2)
  rcases hm.call (o := o) with hfrom | ⟨guard, n, rfl, he, hn⟩
  · rcases hI with h | ⟨reason, h, hover⟩
    · refine .inl ⟨fun ρ hρ => ?_, fun e he => h.underway e ((hlog e).1 he), fun u ρ hu => ?_⟩
      · exact (obtained_move hm hρ).elim (h.obtained ρ) (h.owing t ρ)
      · by_cases hut : u = t
        · subst hut
          rw [Function.update_self] at hu
          exact h.owing u ρ (hfrom ρ hu)
        · rw [Function.update_of_ne hut] at hu
          exact h.owing u ρ hu
    · refine .inr ⟨reason, ⟨fun ρ hρ => ?_, fun e he => h.underway e ((hlog e).1 he),
        h.update fun ρ hph => h.owing t ρ (hfrom ρ hph)⟩, ?_⟩
      · exact (obtained_move hm hρ).elim (h.obtained ρ) (h.owing t ρ)
      · rcases hover with hclosed | ⟨e, he, ho⟩
        · exact .inl (closed_move hm hclosed)
        · rcases (hlog e).2 he with hkept | hclosed
          · exact .inr ⟨e, hkept, ho⟩
          · exact .inl (ho ▸ hclosed)
  · obtain ⟨hadmits, hclosed⟩ := cancelWhere_wrote he hn
    have hothers : ∀ e ∈ x.2, e.2.1 ≠ o := by simpa [oneAtATime, hadmits] using hC
    have hopen : x.1.closedOrder o = false := by
      obtain ⟨r, hr, ha⟩ := (Option.any_eq_true _ _).mp hadmits
      simpa [World.closedOrder, hr] using guard_open ha
    have hagree (reason : RefundReason) : Agreed v o reason Φ x :=
      hI.agree hopen fun e he ho => absurd ho (hothers e he)
    obtain ⟨reason, hreason⟩ : ∃ reason, ∀ ρ, ph = .owing o ρ → ρ = reason := by
      cases ph with
      | nothing => exact ⟨.admin, fun ρ h => by cases h⟩
      | owing o' ρ => exact ⟨ρ, fun ρ' h => by cases h; rfl⟩
    refine .inr ⟨reason, ⟨fun ρ hρ => ?_, fun e he ho => absurd ho (hothers e ((hlog e).1 he)),
      (hagree reason).update hreason⟩, .inl hclosed⟩
    exact (obtained_move hm hρ).elim ((hagree reason).obtained ρ) ((hagree reason).owing t ρ)

/-- One step of any of the calls keeps the endings. -/
theorem endingKept : endings.Invariant machine recordEnding oneAtATime (EndingKept v o) where
  view Φ x t _ := trivial
  move Φ x t l c ph hI hC hm := by
    cases l with
    | ask site => exact endingKept_ask hI hC hm
    | call s => exact endingKept_call hI hC hm
  env Φ x c hI := by
    obtain ⟨now, he⟩ := World.tick_eq c x.1
    rw [show machine.env = World.tick from rfl, he]
    rcases hI with h | ⟨reason, h, hover⟩
    · exact .inl ⟨h.obtained, h.underway, h.owing⟩
    · exact .inr ⟨reason, ⟨h.obtained, h.underway, h.owing⟩, hover⟩

end Runs

section Flows

theorem endings_lenient : Lenient endings (endingSide · = true) where
  read := .read
  side := .side
  refused := .refused

abbrev EndingFlow {α : Type} (p : Act α) : Prop :=
  endings.Flow machine (fun _ => True) p (fun _ _ => True) fun _ _ => True

variable {α : Type} (o : OrderId) (a : Cents) (reason : RefundReason)

theorem ending_side {p : Act α} (hp : p.Only (endingSide · = true)) : EndingFlow p :=
  fun x _ => endings_lenient.rest hp x rfl

/-- The refund of what has been begun. -/
theorem ending_owed {p : Act α} {k : PaymentId} {i : Option IntentId}
    (hp : p.Only (RefundStmt o reason k i)) :
    LenientFlow endings (.owing o reason) p fun _ _ => True := by
  have hflow := Discipline.Flow.only (D := endings) (M := machine) (A := (· = .owing o reason)) hp
    (fun x l c w _ _ => .read x l c w) fun x s c w hx hs _ => hx ▸ .refund o reason k i s c w hs
  exact hflow.post (fun _ _ _ => trivial) fun _ _ _ => trivial

/-- Paying for an ending, from the moment the thread may. -/
theorem ending_settle {A : Due → Prop} (hread : endings.Flow machine A (findRefund o reason)
    (fun _ => (· = .owing o reason)) fun _ _ => True) :
    endings.Flow machine A (settleRefund o a reason) (fun _ _ => True) fun _ _ => True := by
  refine Discipline.Flow.catch (X := fun _ _ => True) ?_ fun _ => .pure fun _ _ => trivial
  have hskip (detail : String) : LenientFlow endings (.owing o reason) (skipRefund o reason detail)
      fun _ _ => True := endings_lenient.rest (only_skipRefund o reason detail fun _ => rfl)
  refine Discipline.Flow.seq hread fun existing => ?_
  split
  next row => exact .pure fun _ _ => trivial
  next =>
    refine .ite (fun _ => hskip _) fun _ => ?_
    refine Discipline.Flow.seq (endings_lenient.only (only_activePaymentForOrder o)) fun found => ?_
    split
    next => exact hskip _
    next k p =>
      exact ending_owed o reason ((only_settleFound o k p reason a existing).mono fun _ h => h.1)

/-- A call that pays first. -/
theorem ending_paysFirst (h : reason.paysFirst) : EndingFlow (settleRefund o a reason) := by
  refine ending_settle o a reason
    (Discipline.Flow.fetch fun x c w _ _ => ⟨_, .began x o reason c w h, ?_⟩)
  cases machine.answer (.findRefund o reason) (·.refunds.get (o, reason)) c w <;>
    first | rfl | trivial

/-- A call whose cancellation is its claim. -/
theorem ending_claim {guard : CancelGuard} {p q : Act α} (hp : p.Only (endingSide · = true))
    (hq : endings.Flow machine (· = .owing o reason) q (fun _ _ => True) fun _ _ => True) :
    EndingFlow (do
      let claimed ← perform (.order (.cancelWhere o guard))
      if claimed = 0 then p else q) := by
  intro x _
  have hclaim : LenientFlow endings x (perform (.order (.cancelWhere o guard)))
      fun n y => y = if n = 0 then x else .owing o reason :=
    endings_lenient.conditional rfl (fun c w h => .missed _ _ _ c w h)
      fun c w n h hn => .claimed x o guard reason c w n h hn
  exact (Discipline.Flow.seq hclaim fun n =>
    Lenient.branch (endings_lenient.rest hp) hq) x rfl

/-- The refund of a claimed cancellation. -/
theorem ending_settleClaimed : endings.Flow machine (· = .owing o reason) (settleRefund o a reason)
    (fun _ _ => True) fun _ _ => True :=
  ending_settle o a reason
    ((endings_lenient.only (Prog.only_fetch _ _)).post (fun _ _ h => h) fun _ _ _ => trivial)

/-- What follows a payment needs none. -/
theorem ending_then {A : Due → Prop} {β : Type} {p : Act β} {f : β → Act α}
    (hp : endings.Flow machine A p (fun _ _ => True) fun _ _ => True)
    (hf : ∀ b, (f b).Only (endingSide · = true)) :
    endings.Flow machine A (p >>= f) (fun _ _ => True) fun _ _ => True :=
  Discipline.Flow.seq hp fun b => ending_side (hf b)

theorem ending_first {β : Type} {p : Act β} {f : β → Act α} (hp : p.Only (endingSide · = true))
    (hf : ∀ b, EndingFlow (f b)) : EndingFlow (p >>= f) :=
  Discipline.Flow.seq (ending_side hp) hf

theorem only_closing {target : OrderStatus} (ht : target ∈ closedStatuses) (actor : Actor) :
    (transition o target actor).Only (endingSide · = true) := by
  have hassigned : target ≠ assigned := by
    rintro rfl
    exact absurd ht (by decide)
  exact only_transition_plain o target actor hassigned (fun _ _ => decide_eq_true ht) fun _ => rfl

theorem ending_settleAndCancel (actor : Actor) (h : reason.paysFirst) :
    EndingFlow (settleAndCancel o a reason actor) :=
  ending_then (ending_paysFirst o a reason h) fun _ =>
    Prog.Only.seq (only_closing o (by decide) actor) fun _ => Prog.only_pure _

theorem ending_settleIntended (h : reason.paysFirst) : EndingFlow (settleIntended o a reason) :=
  .ite (fun _ => ending_then (ending_paysFirst o a reason h) fun _ => Prog.only_pure _)
    fun _ => .pure fun _ _ => trivial

theorem only_recordAdminDecision (admin : UserId) :
    (recordAdminDecision o admin).Only (endingSide · = true) :=
  Prog.Only.quietly (only_note _ _ _ fun _ => rfl)

theorem ending_cancel (user : UserId) : EndingFlow (cancel o user) := by
  refine ending_first (only_requireOrderAt _ _) fun order => ?_
  refine .ite (fun _ => .throw fun _ _ => trivial) fun _ => .ite (fun _ => ?_) fun _ => ?_
  · exact ending_first only_readSettings fun _ => ending_settleAndCancel o _ _ _ rfl
  · refine .ite (fun _ => ?_) fun _ => .throw fun _ _ => trivial
    exact ending_first only_readSettings fun _ => ending_settleAndCancel o _ _ _ rfl

theorem ending_adminCancel (percent : ℚ) (admin : UserId) :
    EndingFlow (adminCancel o percent admin) := by
  refine ending_first (only_requireOrderAt _ _) fun order => ?_
  refine .ite (fun _ => .throw fun _ _ => trivial) fun _ => ?_
  refine ending_then (ending_settleIntended o _ _ rfl) fun outcome => ?_
  refine Prog.Only.seq (only_closing o (by decide) _) fun _ => ?_
  exact Prog.Only.seq (only_recordAdminDecision o admin) fun _ => Prog.only_pure _

theorem only_closeAndRethrow (status : DisputeStatus) (admin : UserId) (moved : Except Err Unit) :
    (closeAndRethrow o status admin moved).Only (endingSide · = true) := by
  refine Prog.Only.seq (Prog.Only.quietly ((Prog.only_perform _).mpr rfl)) fun _ => ?_
  refine Prog.Only.seq (only_recordAdminDecision o admin) fun _ => ?_
  split
  · exact Prog.only_throw _
  · exact only_requireOrderAt _ _

theorem ending_resolveDispute (forCustomer : Bool) (admin : UserId) (percent : Option ℚ) :
    EndingFlow (resolveDispute o forCustomer admin percent) := by
  refine ending_first (only_requireOrderAt _ _) fun order => ?_
  refine .ite (fun _ => .throw fun _ _ => trivial) fun _ => .ite (fun _ => ?_) fun _ => ?_
  · refine ending_then (ending_settleIntended o _ _ rfl) fun outcome => ?_
    refine Prog.Only.seq (Prog.Only.attempt (only_closing o (by decide) _)) fun moved => ?_
    exact Prog.Only.seq (only_closeAndRethrow o _ admin moved) fun _ => Prog.only_pure _
  · have hrelease := (only_releasePayout o).mono (B := (endingSide · = true)) fun _ h => by
      cases h <;> rfl
    refine ending_side (Prog.Only.seq (Prog.Only.attempt ?_) fun moved => ?_)
    · refine Prog.Only.seq (only_closing o (by decide) _) fun _ => ?_
      exact Prog.Only.seq hrelease fun _ => Prog.only_pure _
    · refine Prog.Only.seq (only_closeAndRethrow o _ admin moved) fun _ => ?_
      exact Prog.Only.seq (Prog.only_fetch _ _) fun _ => Prog.only_pure _

theorem only_recordClaimed (actor : Actor) (type : EventType) (source : OrderStatus) :
    (recordClaimedCancellation o actor type source).Only (endingSide · = true) :=
  Prog.Only.seq (only_writeEvent _ _ _ _ _ _ fun _ => rfl) fun _ =>
    only_writeEvent _ _ _ _ _ _ fun _ => rfl

theorem ending_declineByInspector (user : UserId) (text : String) :
    EndingFlow (declineByInspector o user text) := by
  refine ending_first (only_requireOrderAt _ _) fun order => ?_
  refine .ite (fun _ => .throw fun _ _ => trivial) fun _ => ?_
  refine .ite (fun _ => .throw fun _ _ => trivial) fun _ => ?_
  refine .ite (fun _ => .throw fun _ _ => trivial) fun _ => ?_
  refine ending_claim o .inspectorDeclined (only_fail _ _ _) ?_
  refine ending_then (ending_settleClaimed o _ _) fun outcome => ?_
  refine Prog.Only.seq (only_recordClaimed o _ _ _) fun _ => ?_
  exact Prog.Only.seq (Prog.Only.quietly ((Prog.only_perform _).mpr rfl)) fun _ => Prog.only_pure _

theorem ending_recordOwnerContact (user : UserId) (reached : Bool) :
    EndingFlow (recordOwnerContact o user reached) := by
  refine ending_first (only_requireOrderAt _ _) fun order => ?_
  refine .ite (fun _ => .throw fun _ _ => trivial) fun _ => .ite (fun _ => ?_) fun _ => ?_
  · refine ending_first only_readClock fun now => ?_
    refine ending_first ((Prog.only_perform _).mpr rfl) fun claimed => ?_
    refine .ite (fun _ => .throw fun _ _ => trivial) fun _ => ?_
    exact ending_side (Prog.Only.seq (only_note _ _ _ fun _ => rfl) fun _ => Prog.only_pure _)
  · refine ending_claim o .ownerUnreachable (only_fail _ _ _) ?_
    refine ending_then (ending_settleClaimed o _ _) fun outcome => ?_
    exact Prog.Only.seq (only_recordClaimed o _ _ _) fun _ => Prog.only_pure _

theorem ending_cancelAbandoned (now : Time) (order : Order) :
    EndingFlow (cancelAbandoned now o order) := by
  refine ending_claim o .inspectorNoShow (Prog.only_pure _) ?_
  refine ending_then (ending_settleClaimed o _ _) fun outcome => ?_
  refine Prog.Only.seq (only_note _ _ _ fun _ => rfl) fun _ => ?_
  refine Prog.Only.seq (only_writeEvent _ _ _ _ _ _ fun _ => rfl) fun _ => ?_
  split
  · refine Prog.Only.seq (Prog.Only.quietly ((Prog.only_perform _).mpr rfl)) fun _ => ?_
    exact Prog.only_pure _
  · exact Prog.only_pure _

theorem ending_sweepAbandonedInspections : EndingFlow sweepAbandonedInspections := by
  refine ending_first only_readClock fun now => ?_
  refine ending_first (Prog.Only.quietly only_readSettings) fun _ => ?_
  refine ending_first (Prog.only_fetch _ _) fun stale => ?_
  refine Discipline.Flow.countEach fun o _ => ?_
  exact Discipline.Flow.catch (ending_cancelAbandoned o.1 now o.2) fun _ => .pure fun _ _ => trivial

theorem ends_flow {op : Op} (h : op.ends) : EndingFlow op.prog := by
  have hdrop {β : Type} {p : Act β} (hp : EndingFlow p) : EndingFlow (discard p) :=
    ending_then hp fun _ => Prog.only_pure _
  cases op with
  | cancel o user => exact hdrop (ending_cancel o user)
  | adminCancel o percent admin => exact hdrop (ending_adminCancel o percent admin)
  | declineByInspector o user text => exact hdrop (ending_declineByInspector o user text)
  | recordOwnerContact o user reached => exact hdrop (ending_recordOwnerContact o user reached)
  | sweepAbandonedInspections => exact hdrop ending_sweepAbandonedInspections
  | resolveDispute o forCustomer admin percent =>
    exact hdrop (ending_resolveDispute o forCustomer admin percent)
  | _ => exact h.elim

/-- The threads of a launch, before anything is begun. -/
theorem endingKept_launch (w : World) {ops : List Op} (hops : ∀ op ∈ ops, op.ends) :
    endings.Kept machine (EndingKept w o) (fun _ => True) (fun _ => .nothing)
      (launch w ([] : Endings) ops) := by
  refine ⟨.inl ⟨fun ρ hρ => ?_, fun e he => ?_, fun t ρ ht => ?_⟩, fun t p hp => ?_,
    fun _ _ => trivial⟩
  · exact not_obtained_self hρ
  · cases he
  · cases ht
  · obtain ⟨op, hop, rfl⟩ := launch_thread hp
    exact ends_flow (hops op hop) _ trivial

/-- An order is refunded for one reason, where the calls that pay before they move the order are
not overtaken. -/
theorem one_ending (w : World) (ops : List Op) (g : Run Endings) (o : OrderId)
    (reason reason' : RefundReason) (hops : ∀ op ∈ ops, op.ends)
    (hreach : Pool.Reach machine recordEnding oneAtATime (launch w [] ops) g)
    (h : Obtained w g.state o reason) (h' : Obtained w g.state o reason') : reason = reason' := by
  obtain ⟨Φ, hk⟩ := Discipline.kept_of_reach endingKept (endingKept_launch o w hops) hreach
  rcases hk.inv with huntouched | ⟨ρ, hagreed, _⟩
  · exact absurd h (huntouched.obtained reason)
  · rw [hagreed.obtained reason h, hagreed.obtained reason' h']

end Flows

section Race

/-- An order that inspector 8 works on, its payment taken. -/
def assignedWorld : World := { searchWorld with
  orders := Table.empty.set 1 { paidOrder with status := assigned, inspectorId := some 8 }
  offers := .empty
  payments := Table.empty.set 5 { heldPayment with status := .succeeded, capturedAt := some 2000 }
  provider := ⟨Table.empty.set 9 ⟨10000, .succeeded 10000 0⟩, .empty, .empty⟩ }

/-- The customer cancels, and an admin cancels with a refund of 20 percent. -/
def twoCancellations : Run Endings := launch assignedWorld [] [.cancel 1 7, .adminCancel 1 20 100]

theorem twoCancellations_end : ∀ op ∈ [Op.cancel 1 7, .adminCancel 1 20 100], op.ends := by
  simp [Op.ends]

/-- What Stripe has refunded for the two reasons. -/
def refundsIssued (g : Run Endings) : Option Cents × Option Cents :=
  (g.state.provider.refunds.get (1, .cancelAfterAssign), g.state.provider.refunds.get (1, .admin))

theorem obtained_issued {w w' : World} {o : OrderId} {reason : RefundReason} {a : Cents}
    (h : w.provider.refunds.get (o, reason) = none)
    (h' : w'.provider.refunds.get (o, reason) = some a) : Obtained w w' o reason :=
  .inr ⟨h, by rw [h']; rfl⟩

/-- Both calls find the payment captured, and both refund it. -/
theorem refunded_for_two_reasons : ¬ OneEndingLaw anyStep := by
  intro hlaw
  have hrun : Pool.observe machine recordEnding anyStep refundsIssued (goes 0 5 ++ goes 1 13)
      (.run 0 .ok) twoCancellations = some ((none, some 2000), (some 8000, some 2000)) := by
    decide +kernel
  obtain ⟨g, g', hg, hm, hs, _, hafter⟩ := Pool.observe_eq hrun
  have hcustomer : Obtained assignedWorld g'.state 1 .cancelAfterAssign :=
    obtained_issued rfl (congrArg Prod.fst hafter)
  have hadmin : Obtained assignedWorld g'.state 1 .admin :=
    obtained_issued rfl (congrArg Prod.snd hafter)
  cases hlaw _ _ g' 1 _ _ twoCancellations_end (.next (m := .run 0 .ok) hg hm hs) hcustomer hadmin

/-- The admin comes first; the customer's call has read the order, and is not begun. -/
theorem one_ending_admin : ∃ g : Run Endings, refundsIssued g = (none, some 2000) ∧
    ∀ reason, Obtained assignedWorld g.state 1 reason → reason = .admin := by
  have hrun : Pool.observe machine recordEnding oneAtATime refundsIssued (goes 0 2 ++ goes 1 12)
      (.run 1 .ok) twoCancellations = some ((none, some 2000), (none, some 2000)) := by
    decide +kernel
  obtain ⟨g, g', hg, hm, hs, _, hafter⟩ := Pool.observe_eq hrun
  have hadmin : Obtained assignedWorld g'.state 1 .admin :=
    obtained_issued rfl (congrArg Prod.snd hafter)
  exact ⟨g', hafter, fun reason h => one_ending _ _ g' 1 _ _ twoCancellations_end
    (.next (m := .run 1 .ok) hg hm hs) h hadmin⟩

end Race

end CarSalePro
