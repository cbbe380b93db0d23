import CarSalePro.Interleave.Recall
import CarSalePro.Laws.StatusPath

namespace CarSalePro

open Store Interleave Prog OrderStatus

namespace World

def transferred (w : World) (o : OrderId) : Bool := (w.provider.transfers.get o).isSome

def paidOut (w : World) (o : OrderId) : Bool := (w.payouts.get o).any (·.status = .settled)

end World

/-- What a call remembers of the payout of order `o`: that it has read it unpaid, that it reports a
failed transfer, and that an operator's call has read it when Stripe had a transfer. -/
structure PayMemory where
  unpaid : Bool
  freed : Bool
  sent : Bool

namespace PayMemory

def note (o : OrderId) (m : PayMemory) (l : Label Site Stmt) (w : World) : PayMemory :=
  match l with
  | .ask (.releasePayoutRow id) => { m with unpaid := m.unpaid || (id = o && !w.paidOut o) }
  | .ask (.adminMarkPayoutPaid id) => { m with sent := m.sent || (id = o && w.transferred o) }
  | .call (.payout (.freeTransfer id)) => { m with freed := m.freed || id = o }
  | _ => m

/-- A transfer is asked for when the payout was read unpaid, and a payout is parked when it was, or
when its transfer failed. -/
def may (o : OrderId) (m : PayMemory) : Stmt → Prop
  | .payout (.park id _) => id = o → m.unpaid ∨ m.freed
  | .stripe (.createTransfer id _) => id = o → m.unpaid
  | _ => True

end PayMemory

/-- What has been paid for an order: how many transfers Stripe made, whether an operator recorded a
payment outside Stripe, whether Stripe reported the transfer failed or reversed, which threads
handle such a report, and what each call remembers. -/
structure PayLog where
  transfers : Nat
  outOfBand : Bool
  failed : Bool
  reporting : Nat → Bool
  calls : Nat → PayMemory

def PayLog.empty : PayLog := ⟨0, false, false, fun _ => false, fun _ => ⟨false, false, false⟩⟩

def recordPaid (o : OrderId) : Recorder Site Stmt World PayLog := fun t l w w' h =>
  match l with
  | .call (.stripe (.createTransfer _ _)) =>
    if w'.transferred o ∧ ¬ w.transferred o then { h with transfers := h.transfers + 1 } else h
  | .call (.payout (.settleOutOfBand id)) =>
    if id = o ∧ w'.paidOut o then { h with outOfBand := true } else h
  | .call (.payout (.freeTransfer id)) =>
    if id = o ∧ w.transferred o then
      { h with failed := true, reporting := Function.update h.reporting t true }
    else h
  | _ => h

def recordPayouts (o : OrderId) : Recorder Site Stmt World PayLog := fun t l w w' h =>
  { recordPaid o t l w w' h with
    calls := Function.update h.calls t ((h.calls t).note o l w) }

/-- The calls that pay an inspector out, record that he was paid, or report what became of his
transfer. -/
def Op.pays : Op → Prop
  | .approve _ _ | .resolveDispute _ _ _ _ | .releasePayout _ | .adminMarkPayoutPaid _
  | .adminRetryPayout _ | .retryStuckPayouts _ | .autoApproveOverdue
  | .handleWebhook _ (.transferCreated _) | .handleWebhook _ (.transferFailed _) => True
  | _ => False

/-- The share is paid at most once, in one state. -/
structure PaidOnce (o : OrderId) (x : World × PayLog) : Prop where
  oneWay : ¬ (x.1.transferred o ∧ x.2.failed = false ∧ x.2.outOfBand)
  oneTransfer : x.2.transfers ≤ 1

/-- A payout that is paid is not taken back by a step of thread `t`, but for a failed transfer. -/
def KeptPaid (o : OrderId) (t : Nat) (x y : World × PayLog) : Prop :=
  x.1.paidOut o → y.1.paidOut o = false → x.2.reporting t

/-- The inspector's share is paid at most once, in every run of these operations, for an order that
has no transfer yet. -/
def PaidOnceLaw (C : OrderId → StepGuard PayLog) : Prop :=
  ∀ (w : World) (ops : List Op) (o : OrderId) (g : Run PayLog),
    (∀ op ∈ ops, op.pays) → w.transferred o = false →
    Pool.Reach machine (recordPayouts o) (C o) (launch w .empty ops) g →
    PaidOnce o g.snapshot ∧
    ∀ t c g', g.Meets (C o) (.run t c) →
      Pool.step machine (recordPayouts o) (.run t c) g = some g' →
      KeptPaid o t g.snapshot g'.snapshot

/-- A payout is not paid between the read of a call that finds it unpaid and that call's first
transfer request or parking. An operator's call reads it while no transfer stands, and no transfer
is made before it writes. Stripe reports no failure of a transfer it has not made. -/
def paysInTime (o : OrderId) : StepGuard PayLog := fun t l _ x =>
  match l with
  | .call (.payout (.park id _)) => id ≠ o || (x.2.calls t).freed || !x.1.paidOut o ||
      !(x.2.calls t).unpaid
  | .call (.stripe (.createTransfer id _)) => id ≠ o || x.1.transferred o || !x.1.paidOut o ||
      !(x.2.calls t).unpaid
  | .ask (.adminMarkPayoutPaid id) => id ≠ o || !x.1.transferred o || x.2.failed
  | .call (.payout (.settleOutOfBand id)) => id ≠ o || !x.1.transferred o || (x.2.calls t).sent
  | .call (.payout (.freeTransfer id)) => id ≠ o || x.1.transferred o
  | _ => true

/-- A parking that reports no failed transfer finds the payout unpaid, an operator's record finds no
transfer that stands, and a first transfer is asked for while the payout is unpaid. -/
def findsUnpaid (o : OrderId) : StepGuard PayLog := fun t l _ x =>
  match l with
  | .call (.payout (.park id _)) => id ≠ o || x.2.reporting t || !x.1.paidOut o
  | .call (.payout (.settleOutOfBand id)) => id ≠ o || !x.1.transferred o || x.2.failed
  | .call (.stripe (.createTransfer id _)) => id ≠ o || !x.1.paidOut o || x.1.transferred o
  | _ => true

/-- What every step keeps: a payment outside Stripe leaves the payout paid until a transfer failed,
and the transfers are counted. -/
structure PaidInv (o : OrderId) (x : World × PayLog) : Prop where
  standing : x.2.outOfBand → x.1.paidOut o ∨ x.2.failed
  oneWay : ¬ (x.1.transferred o ∧ x.2.failed = false ∧ x.2.outOfBand)
  counted : x.2.transfers = if x.1.transferred o then 1 else 0
  reported : ∀ t, x.2.reporting t → x.2.failed

section Steps

variable {o : OrderId} {t : Nat} {l : Label Site Stmt} {s : Stmt} {c : Fate} {x : World × PayLog}

/-- A paid payout is taken back by a parking only. -/
theorem unpaid_step (hpaid : x.1.paidOut o) (hafter : (World.exec s c x.1).2.paidOut o = false) :
    ∃ row, s = .payout (.park o row) := by
  rcases World.exec_payout s c x.1 o with hsame | ⟨u, p, rfl, rfl, hp, hp'⟩
  · simp only [World.paidOut] at hpaid hafter
    rw [hsame, hpaid] at hafter
    cases hafter
  obtain ⟨q, hq, hqs⟩ := (Option.any_eq_true ..).mp hpaid
  have hqs : q.status = .settled := of_decide_eq_true hqs
  have hps : p.status ≠ .settled := by simpa [World.paidOut, hp'] using hafter
  rw [hq] at hp
  cases u with
  | park id row => exact ⟨row, rfl⟩
  | skip id => simp [PayoutStmt.rewrite, Option.filter, hqs] at hp
  | _ => cases hp; exact absurd (by first | rfl | exact hqs) hps

theorem paidOut_kept (hpaid : x.1.paidOut o) (hs : ∀ row, s ≠ .payout (.park o row)) :
    (World.exec s c x.1).2.paidOut o := by
  by_contra hno
  obtain ⟨row, hrow⟩ := unpaid_step hpaid (Bool.eq_false_iff.mpr hno)
  exact hs row hrow

theorem transferred_same (hs : ∀ a, s ≠ .stripe (.createTransfer o a)) :
    (World.exec s c x.1).2.transferred o = x.1.transferred o := by
  rcases World.exec_transfer s c x.1 o with hsame | ⟨a, ha, _⟩
  · simp only [World.transferred, hsame]
  · exact absurd ha (hs a)

/-- A step that records nothing. -/
theorem PaidInv.same (hI : PaidInv o x) {w : World} (ht : w.transferred o = x.1.transferred o)
    (hp : x.2.outOfBand → x.1.paidOut o → w.paidOut o ∨ x.2.failed) : PaidInv o (w, x.2) where
  standing hob := (hI.standing hob).elim (hp hob) .inr
  oneWay h := hI.oneWay ⟨ht ▸ h.1, h.2⟩
  counted := by rw [hI.counted, ht]
  reported := hI.reported

/-- What the calls remember plays no part. -/
theorem PaidInv.recall {w : World} {h : PayLog} (hI : PaidInv o (w, h))
    (calls : Nat → PayMemory) : PaidInv o (w, { h with calls := calls }) :=
  ⟨hI.standing, hI.oneWay, hI.counted, hI.reported⟩

theorem paidInv_transfer (hI : PaidInv o x) {id : OrderId} {a : Cents}
    (hC : findsUnpaid o t (.call (.stripe (.createTransfer id a))) c x) :
    PaidInv o ((World.exec (.stripe (.createTransfer id a)) c x.1).2,
      recordPaid o t (.call (.stripe (.createTransfer id a))) x.1
        (World.exec (.stripe (.createTransfer id a)) c x.1).2 x.2) := by
  have hpaid : (World.exec (.stripe (.createTransfer id a)) c x.1).2.paidOut o = x.1.paidOut o := by
    have hframe := World.frame_exec (.stripe (.createTransfer id a)) c x.1
    simp only [World.paidOut, hframe.payouts rfl]
  rcases World.exec_transfer (.stripe (.createTransfer id a)) c x.1 o with
    hsame | ⟨a', ha, hnone, hsome⟩
  · have ht : (World.exec (.stripe (.createTransfer id a)) c x.1).2.transferred o =
        x.1.transferred o := by simp only [World.transferred, hsame]
    rw [recordPaid, if_neg fun h => h.2 (ht ▸ h.1)]
    exact hI.same ht fun _ hp => .inl (hpaid ▸ hp)
  · cases ha
    have hbefore : x.1.transferred o = false := by simp [World.transferred, hnone]
    have hafter : (World.exec (.stripe (.createTransfer o a)) c x.1).2.transferred o = true := by
      simp [World.transferred, hsome]
    have hunpaid : x.1.paidOut o = false := by simpa [findsUnpaid, hbefore] using hC
    rw [recordPaid, if_pos ⟨hafter, by simp [hbefore]⟩]
    refine ⟨fun hob => ?_, fun ⟨_, hf, hob⟩ => ?_, ?_, hI.reported⟩
    · rw [hpaid]; exact hI.standing hob
    · rcases hI.standing hob with hp | hf'
      · rw [hunpaid] at hp; cases hp
      · rw [hf'] at hf; cases hf
    · simp [hI.counted, hbefore, hafter]

theorem paidInv_step (hI : PaidInv o x) {y : World × PayLog}
    (h : Pool.StepOf machine (recordPayouts o) (findsUnpaid o) x y) : PaidInv o y := by
  cases h with
  | ask t site c hC => exact hI.recall _
  | env c =>
    obtain ⟨now, hnow⟩ := World.tick_eq c x.1
    rw [show machine.env c x.1 = World.tick c x.1 from rfl, hnow]
    exact hI.same rfl fun _ hp => .inl hp
  | call t s c hC =>
    rw [show machine.exec = World.exec from rfl]
    suffices hpaid : PaidInv o ((World.exec s c x.1).2,
        recordPaid o t (.call s) x.1 (World.exec s c x.1).2 x.2) from hpaid.recall _
    by_cases htr : ∃ id a, s = .stripe (.createTransfer id a)
    · obtain ⟨id, a, rfl⟩ := htr
      exact paidInv_transfer hI hC
    have ht : (World.exec s c x.1).2.transferred o = x.1.transferred o :=
      transferred_same fun a ha => htr ⟨o, a, ha⟩
    by_cases hpark : ∃ row, s = .payout (.park o row)
    · obtain ⟨row, rfl⟩ := hpark
      refine hI.same ht fun _ hp => .inr ?_
      have hr : x.2.reporting t := by simpa [findsUnpaid, hp] using hC
      exact hI.reported t hr
    have hkeep (hp : x.1.paidOut o) : (World.exec s c x.1).2.paidOut o :=
      paidOut_kept hp fun row hrow => hpark ⟨row, hrow⟩
    unfold recordPaid
    split
    next id a hl => cases hl; exact absurd ⟨id, a, rfl⟩ htr
    next id hl =>
      cases hl
      split
      next hdone =>
        refine ⟨fun _ => .inl hdone.2, fun ⟨htr', hf, _⟩ => ?_, by rw [hI.counted, ht], hI.reported⟩
        have hg : x.1.transferred o = false ∨ x.2.failed = true := by
          simpa [findsUnpaid, hdone.1] using hC
        rcases hg with hg | hg
        · rw [ht, hg] at htr'; cases htr'
        · rw [hg] at hf; cases hf
      next => exact hI.same ht fun _ hp => .inl (hkeep hp)
    next id hl =>
      split
      next =>
        exact ⟨fun _ => .inr rfl, fun ⟨_, hf, _⟩ => (by cases hf), by rw [hI.counted, ht],
          fun _ _ => rfl⟩
      next => exact hI.same ht fun _ hp => .inl (hkeep hp)
    next => exact hI.same ht fun _ hp => .inl (hkeep hp)

/-- The step that takes a payout back is the parking of a thread that reports a failed transfer. -/
theorem keptPaid_step (hC : findsUnpaid o t (.call s) c x) {h : PayLog} :
    KeptPaid o t x ((World.exec s c x.1).2, h) := by
  intro hpaid hafter
  obtain ⟨row, rfl⟩ := unpaid_step hpaid hafter
  simpa [findsUnpaid, hpaid] using hC

end Steps

section Calls

variable {α : Type} {o id : OrderId} {p : Act α} {A : PayMemory → Prop}

/-- From some memories, the program pays and parks what it has read unpaid. -/
abbrev Pays (o : OrderId) (A : PayMemory → Prop) (p : Act α) (B : α → PayMemory → Prop) : Prop :=
  Recalls machine (PayMemory.note o) (PayMemory.may o) A p B

/-- The statement neither parks a payout nor makes a transfer. -/
def Stmt.paysNone : Stmt → Prop
  | .payout (.park _ _) | .stripe (.createTransfer _ _) => False
  | _ => True

theorem pays_plain (hp : p.Only Stmt.paysNone) : Pays o A p fun _ _ => True := by
  apply Recalls.free hp
  intro m s hs
  cases s with
  | payout u =>
    cases u with
    | park id row => exact hs.elim
    | _ => trivial
  | stripe call =>
    cases call with
    | createTransfer id a => exact hs.elim
    | _ => trivial
  | _ => trivial

/-- What a call has noted it does not forget. -/
theorem PayMemory.note_keeps (m : PayMemory) (l : Label Site Stmt) (w : World) :
    (m.unpaid → (m.note o l w).unpaid) ∧ (m.freed → (m.note o l w).freed) := by
  unfold PayMemory.note
  split <;> simp +contextual

theorem plain_transition (target : OrderStatus) (actor : Actor) :
    (transition id target actor).Only Stmt.paysNone :=
  only_transition id target actor (fun _ _ => trivial) (fun _ => trivial) fun _ => trivial

theorem only_parking (inspector : Option UserId) (amountCents : Cents) (reason : String) :
    (parkPayout id inspector amountCents reason).Only fun s =>
      s.paysNone ∨ ∃ row, s = .payout (.park id row) := by
  cases inspector with
  | none => exact Only.seq (only_issue (.inl trivial)) fun _ => only_pure _
  | some inspector =>
    refine Only.seq (only_fetch _ _) fun existing => Only.seq only_readClock fun now => ?_
    refine Only.seq (only_issue (.inr ⟨_, rfl⟩)) fun _ => ?_
    exact Only.seq (Only.when fun _ => only_notifyAdmins) fun _ => only_pure _

theorem PayMemory.may_plain {m : PayMemory} {s : Stmt} (h : s.paysNone) : m.may o s := by
  cases s with
  | payout u =>
    cases u with
    | park id row => exact h.elim
    | _ => trivial
  | stripe call =>
    cases call with
    | createTransfer id a => exact h.elim
    | _ => trivial
  | _ => trivial

/-- What a call does that has read the payout unpaid. -/
theorem pays_unpaid (hp : p.Only (PayStmt id)) :
    Pays o (fun m => id = o → m.unpaid) p fun _ _ => True := by
  refine (Recalls.only hp (fun m s hm hs => ?_) fun m l w hm hid =>
    (m.note_keeps l w).1 (hm hid)).post (fun _ _ _ => trivial) fun _ _ h => h
  cases hs with
  | payout u hu =>
    cases u with
    | park id' row => exact fun hid => .inl (hm (hu.symm.trans hid))
    | _ => trivial
  | transfer a => exact hm
  | _ => trivial

/-- A release pays, or parks, a payout it has read unpaid. -/
theorem pays_releasePayout : Pays o A (releasePayout id) fun _ _ => True := by
  have hskip (reason : String) : (skipPayout id reason).Only Stmt.paysNone :=
    Only.seq (only_issue trivial) fun _ => only_pure _
  apply (pays_plain (only_fetch _ _)).seq
  intro found
  cases found with
  | none => exact pays_plain (hskip _)
  | some order =>
    refine .ite (fun _ => pays_plain (hskip _)) fun _ => ?_
    split
    next => exact pays_plain (hskip _)
    next inspector hinspector =>
      have hread : Pays o (fun _ => True) (fetch (.releasePayoutRow id) (·.payouts.get id))
          fun existing m => id = o → existing.any (·.status = .settled) = false → m.unpaid := by
        apply Recalls.fetch
        intro m w _ hid hunpaid
        subst hid
        simp [PayMemory.note, World.paidOut, hunpaid]
      apply hread.seq
      intro existing
      refine .ite (fun _ => .pure fun _ _ => trivial) fun hunpaid => ?_
      apply Discipline.Flow.weaken (A := fun m => id = o → m.unpaid) _
        (fun m hm hid => hm hid (by simpa using hunpaid)) (fun _ _ h => h) fun _ _ h => h
      apply pays_unpaid
      refine Only.seq (only_fetch _ _) fun profile => ?_
      exact Only.ite (fun _ => only_parkPayout _ _ _ _) fun _ => only_payOut _ _ _

/-- A failed transfer frees the payout before it is parked. -/
theorem pays_parkPayoutForFailedTransfer :
    Pays o A (parkPayoutForFailedTransfer id) fun _ _ => True := by
  apply (pays_plain (only_fetch _ _)).seq
  intro payout
  cases payout with
  | none => exact .pure fun _ _ => trivial
  | some payout =>
    apply (pays_plain (only_fetch _ _)).seq
    intro order
    cases order with
    | none => exact .pure fun _ _ => trivial
    | some order =>
      have hfree : Pays o (fun _ => True) (issue (.payout (.freeTransfer id)))
          fun _ m => id = o → m.freed := by
        have hstmt : Pays o (fun _ => True) (perform (.payout (.freeTransfer id)))
            fun _ m => id = o → m.freed := by
          apply Recalls.perform
          · exact fun _ _ => trivial
          · intro m c w r _ _ hid
            simp [PayMemory.note, hid]
        exact hstmt.seq fun _ => .pure fun _ h => h
      apply hfree.seq
      intro _
      have hpark : Pays o (fun m => id = o → m.freed) (parkPayout id
          (order.inspectorId.orElse fun _ => some payout.inspectorId) payout.amountCents
          "stripe reported the transfer failed or was reversed") fun _ _ => True := by
        refine (Recalls.only (only_parking _ _ _) (fun m s hm hs => ?_) fun m l w hm hid =>
          (m.note_keeps l w).2 (hm hid)).post (fun _ _ _ => trivial) fun _ _ h => h
        rcases hs with hplain | ⟨row, rfl⟩
        · exact PayMemory.may_plain hplain
        · exact fun hid => .inr (hm hid)
      exact hpark.seq fun _ => .pure fun _ _ => trivial

theorem pays_approving {actor : Actor} : Pays o A
    (do transition id approved actor; let _ ← releasePayout id; pure () : Act Unit)
    fun _ _ => True := by
  apply (pays_plain (plain_transition _ _)).seq
  intro _
  apply pays_releasePayout.seq
  exact fun _ => .pure fun _ _ => trivial

theorem pays_approve {user : UserId} : Pays o A (approve id user) fun _ _ => True := by
  apply (pays_plain (only_requireOrderAt _ _)).seq
  intro order
  refine .ite (fun _ => .throw fun _ _ => trivial) fun _ => ?_
  apply (pays_plain (plain_transition _ _)).seq
  intro _
  apply pays_releasePayout.seq
  intro _
  exact pays_plain (Only.seq (only_requireOrderAt _ _) fun _ => only_pure _)

theorem pays_resolveDispute {forCustomer : Bool} {admin : UserId} {percent : Option ℚ} :
    Pays o A (resolveDispute id forCustomer admin percent) fun _ _ => True := by
  have hclose (status : DisputeStatus) (moved : Except Err Unit) :
      (closeAndRethrow id status admin moved).Only Stmt.paysNone := by
    refine Only.seq (Only.quietly ((only_perform _).mpr trivial)) fun _ => ?_
    refine Only.seq (Only.quietly (only_note _ _ _ fun _ => trivial)) fun _ => ?_
    cases moved with
    | ok r => exact only_requireOrderAt _ _
    | error e => exact only_throw _
  apply (pays_plain (only_requireOrderAt _ _)).seq
  intro order
  refine .ite (fun _ => .throw fun _ _ => trivial) fun _ => .ite (fun _ => ?_) fun _ => ?_
  · apply pays_plain
    refine Only.seq ?_ fun outcome => Only.seq (Only.attempt (plain_transition _ _)) fun moved => ?_
    · refine Only.ite (fun _ => ?_) fun _ => only_pure _
      refine Only.seq ?_ fun _ => only_pure _
      exact only_settleRefund id _ _ fun _ _ s hs => by cases hs <;> trivial
    · exact Only.seq (hclose _ _) fun _ => only_pure _
  · apply (Discipline.Flow.attempt (X := fun _ _ => True) pays_approving).seq
    intro moved
    exact pays_plain (Only.seq (hclose _ _) fun _ => Only.seq (only_fetch _ _) fun _ => only_pure _)

theorem pays_retryStuckPayouts {limit : Nat} :
    Pays o A (retryStuckPayouts limit) fun _ _ => True := by
  apply (pays_plain (only_fetch _ _)).seq
  intro due
  refine Discipline.Flow.countEach fun payout _ => Discipline.Flow.catch (X := fun _ _ => True)
    ?_ fun _ => .pure fun _ _ => trivial
  apply pays_releasePayout.seq
  intro outcome
  split
  · exact .pure fun _ _ => trivial
  · exact pays_plain (Only.seq (only_fetch _ _) fun _ => only_pure _)

theorem pays_adminRetryPayout : Pays o A (adminRetryPayout id) fun _ _ => True := by
  apply (pays_plain (only_fetch _ _)).seq
  intro found
  cases found with
  | none => exact .throw fun _ _ => trivial
  | some payout =>
    refine .ite (fun _ => .pure fun _ _ => trivial) fun _ => ?_
    apply (pays_plain (only_issue (s := .payout (.retryNow id)) trivial)).seq
    intro _
    apply pays_releasePayout.seq
    intro _
    exact pays_plain (Only.seq (only_fetch _ _) fun _ => only_pure _)

theorem plain_adminMarkPayoutPaid : (adminMarkPayoutPaid id).Only Stmt.paysNone := by
  refine Only.seq (only_fetch _ _) fun found => ?_
  cases found with
  | none => exact only_throw _
  | some payout => exact Only.seq (only_issue trivial) fun _ => plain_transition _ _

theorem pays_autoApproveOverdue : Pays o A autoApproveOverdue fun _ _ => True := by
  apply (pays_plain (only_fetch _ _)).seq
  intro overdue
  have hall : Pays o (fun _ => True) (forEach overdue fun order => do
      transition order.1 approved .system
      let _ ← releasePayout order.1
      pure ()) fun _ _ => True :=
    Discipline.Flow.forEach fun order _ => pays_approving
  exact hall.seq fun _ => .pure fun _ _ => trivial

theorem pays_handleWebhook {event : StripeEventId} {handler : Act Unit}
    (h : Pays o (fun _ => True) handler fun _ _ => True) :
    Pays o A (handleWebhook event handler) fun _ _ => True := by
  apply (pays_plain (only_claimWebhookEvent trivial fun _ => trivial)).seq
  intro claimed
  refine .ite (fun _ => ?_) fun _ => .pure fun _ _ => trivial
  apply (Discipline.Flow.attempt (X := fun _ _ => True) h).seq
  intro outcome
  exact pays_plain (only_finishWebhook outcome trivial trivial)

theorem pays_processWebhook {transfer : TransferId} :
    Pays o A (processWebhook (.transferCreated transfer)) (fun _ _ => True) ∧
      Pays o A (processWebhook (.transferFailed transfer)) fun _ _ => True := by
  constructor
  · apply pays_plain
    refine Only.seq (only_fetch _ _) fun found => ?_
    cases found with
    | none => exact only_pure _
    | some payout => exact Only.when fun _ => Only.quietly ((only_perform _).mpr trivial)
  · apply (pays_plain (only_fetch _ _)).seq
    intro found
    cases found with
    | none => exact .pure fun _ _ => trivial
    | some payout => exact pays_parkPayoutForFailedTransfer

theorem pays_op {op : Op} (h : op.pays) : Pays o A op.prog fun _ _ => True := by
  have hdiscard {β : Type} {q : Act β} (hq : Pays o A q fun _ _ => True) :
      Pays o A (discard q) fun _ _ => True := hq.seq fun _ => .pure fun _ _ => trivial
  cases op with
  | approve id user => exact hdiscard pays_approve
  | resolveDispute id forCustomer admin percent => exact hdiscard pays_resolveDispute
  | releasePayout id => exact hdiscard pays_releasePayout
  | adminMarkPayoutPaid id => exact pays_plain plain_adminMarkPayoutPaid
  | adminRetryPayout id => exact pays_adminRetryPayout
  | retryStuckPayouts limit => exact hdiscard pays_retryStuckPayouts
  | autoApproveOverdue => exact hdiscard pays_autoApproveOverdue
  | handleWebhook event kind =>
    cases kind with
    | transferCreated transfer => exact pays_handleWebhook pays_processWebhook.1
    | transferFailed transfer => exact pays_handleWebhook pays_processWebhook.2
    | _ => exact h.elim
  | _ => exact h.elim

end Calls

section Runs

variable {w : World} {ops : List Op} {o : OrderId} {g g' : Run PayLog}

/-- What a call remembers is in the log: a transfer that stood when an operator looked had failed,
and a call that freed a payout reports its transfer. -/
structure Remembered (x : World × PayLog) : Prop where
  sent : ∀ t, (x.2.calls t).sent → x.2.failed
  freed : ∀ t, (x.2.calls t).freed → x.2.reporting t

theorem recordPaid_grows (o : OrderId) (t : Nat) (l : Label Site Stmt) (w w' : World) (h : PayLog) :
    (h.failed → (recordPaid o t l w w' h).failed) ∧
      ∀ u, h.reporting u → (recordPaid o t l w w' h).reporting u := by
  unfold recordPaid
  split
  · split <;> exact ⟨id, fun _ => id⟩
  · split <;> exact ⟨id, fun _ => id⟩
  · split
    · refine ⟨fun _ => rfl, fun u hu => ?_⟩
      by_cases hut : u = t
      · rw [hut]
        exact Function.update_self ..
      · exact (Function.update_of_ne hut _ _).trans hu
    · exact ⟨id, fun _ => id⟩
  · exact ⟨id, fun _ => id⟩

/-- What a call notes of a transfer is that an operator's read has found it, or that it reports it
failed. -/
theorem PayMemory.note_new (m : PayMemory) (l : Label Site Stmt) (w : World) :
    ((m.note o l w).sent → m.sent ∨ l = .ask (.adminMarkPayoutPaid o) ∧ w.transferred o) ∧
      ((m.note o l w).freed → m.freed ∨ l = .call (.payout (.freeTransfer o))) := by
  unfold PayMemory.note
  split
  next id => exact ⟨.inl, .inl⟩
  next id =>
    refine ⟨fun h => ?_, .inl⟩
    have h : m.sent = true ∨ id = o ∧ w.transferred o = true := by simpa using h
    exact h.imp_right fun h => ⟨by rw [h.1], h.2⟩
  next id =>
    refine ⟨.inl, fun h => ?_⟩
    have h : m.freed = true ∨ id = o := by simpa using h
    exact h.imp_right fun h => by rw [h]
  next => exact ⟨.inl, .inl⟩

theorem Remembered.step {x : World × PayLog} {t : Nat} {l : Label Site Stmt} {c : Fate} {w' : World}
    (hx : Remembered x) (hC : paysInTime o t l c x) :
    Remembered (w', recordPayouts o t l x.1 w' x.2) := by
  obtain ⟨hfailed, hreporting⟩ := recordPaid_grows o t l x.1 w' x.2
  obtain ⟨hsent, hfreed⟩ := (x.2.calls t).note_new (o := o) l x.1
  constructor
  · intro u hu
    have hu : (Function.update x.2.calls t ((x.2.calls t).note o l x.1) u).sent = true := hu
    by_cases hut : u = t
    · subst hut
      rw [Function.update_self] at hu
      rcases hsent hu with hold | ⟨rfl, htr⟩
      · exact hfailed (hx.sent u hold)
      · exact hfailed (by simpa [paysInTime, htr] using hC)
    · rw [Function.update_of_ne hut] at hu
      exact hfailed (hx.sent u hu)
  · intro u hu
    have hu : (Function.update x.2.calls t ((x.2.calls t).note o l x.1) u).freed = true := hu
    by_cases hut : u = t
    · subst hut
      rw [Function.update_self] at hu
      rcases hfreed hu with hold | rfl
      · exact hreporting u (hx.freed u hold)
      · have htr : x.1.transferred o = true := by simpa [paysInTime] using hC
        simp [recordPayouts, recordPaid, htr]
    · rw [Function.update_of_ne hut] at hu
      exact hreporting u (hx.freed u hu)

theorem remembered_reach
    (hg : Pool.Reach machine (recordPayouts o) (paysInTime o) (launch w .empty ops) g) :
    Remembered g.snapshot := by
  apply hg.invariant
  · exact ⟨by simp [PayLog.empty, launch], by simp [PayLog.empty, launch]⟩
  · intro x y hx hxy
    cases hxy with
    | ask t site c hC => exact hx.step hC
    | call t s c hC => exact hx.step hC
    | env c => exact ⟨hx.sent, hx.freed⟩

/-- A write that comes in time finds the payout as its call has read it. -/
theorem unpaid_of_time {t : Nat} {s : Stmt} {c : Fate} {x : World × PayLog} (hx : Remembered x)
    (hmay : (x.2.calls t).may o s) (hC : paysInTime o t (.call s) c x) :
    findsUnpaid o t (.call s) c x := by
  cases s with
  | payout u =>
    cases u with
    | park id row =>
      by_cases hid : id = o
      · subst hid
        rcases hmay rfl with hunpaid | hfreed
        · simp only [paysInTime, hunpaid] at hC
          simp only [findsUnpaid]
          cases hfreed : (x.2.calls t).freed with
          | true => simp [hx.freed t hfreed]
          | false =>
            have hnot : x.1.paidOut id = false := by simpa [hfreed] using hC
            simp [hnot]
        · simp [findsUnpaid, hx.freed t hfreed]
      · simp [findsUnpaid, hid]
    | settleOutOfBand id =>
      simp only [paysInTime, findsUnpaid, Bool.or_eq_true] at hC ⊢
      exact hC.imp_right fun hsent => hx.sent t hsent
    | _ => rfl
  | stripe call =>
    cases call with
    | createTransfer id a =>
      by_cases hid : id = o
      · have hunpaid := hmay hid
        simp only [paysInTime, hunpaid, hid, findsUnpaid] at hC ⊢
        simpa [or_comm] using hC
      · simp [findsUnpaid, hid]
    | _ => rfl
  | _ => rfl

theorem pays_launch (hops : ∀ op ∈ ops, op.pays) (t : Nat) (p : Act Unit)
    (hp : (launch w PayLog.empty ops).threads[t]? = some p) :
    Pays o (· = PayLog.empty.calls t) p fun _ _ => True := by
  obtain ⟨op, hop, rfl⟩ := launch_thread hp
  exact pays_op (hops op hop)

/-- The inspector's share is paid at most once, where no payout is paid between a call's check and
its transfer or parking, and operators record payments where no transfer stands. -/
theorem paid_once (w : World) (ops : List Op) (o : OrderId) (g : Run PayLog)
    (hops : ∀ op ∈ ops, op.pays) (htr : w.transferred o = false)
    (hreach : Pool.Reach machine (recordPayouts o) (paysInTime o) (launch w .empty ops) g) :
    PaidOnce o g.snapshot ∧
    ∀ t c g', g.Meets (paysInTime o) (.run t c) →
      Pool.step machine (recordPayouts o) (.run t c) g = some g' →
      KeptPaid o t g.snapshot g'.snapshot := by
  have hstart : PaidInv o (w, PayLog.empty) :=
    ⟨fun h => (by cases h), fun h => (by cases h.2.2), by simp [PayLog.empty, htr],
      fun _ h => by cases h⟩
  have hfound := recalled_later_under (D := findsUnpaid o) (fun _ _ _ _ _ => rfl)
    (pays_launch hops) (fun _ => remembered_reach) (fun _ _ _ _ _ _ => rfl)
    (fun _ _ _ _ => unpaid_of_time) .start hreach
  have hI := hfound.invariant (I := PaidInv o) hstart fun _ _ h hstep => paidInv_step h hstep
  refine ⟨⟨hI.oneWay, by rw [hI.counted]; split <;> simp⟩, fun t c g' hm hs => ?_⟩
  have hm := recalled_meets_under (D := findsUnpaid o) (fun _ _ _ _ _ => rfl)
    (pays_launch hops) (remembered_reach hreach) (fun _ _ _ _ _ _ => rfl)
    (fun _ _ _ _ => unpaid_of_time) hreach hm
  obtain ⟨p, l, w', p', hp, hst, rfl⟩ := Pool.step_run_eq hs
  have hC := Pool.meets_run hm hp (Pool.label_of_step hst)
  cases p with
  | ret a => cases hst
  | raise e => cases hst
  | ask site f k =>
    cases hst
    intro hpaid hafter
    rw [show g.snapshot.1.paidOut o = false from hafter] at hpaid
    cases hpaid
  | call s k => cases hst; exact keptPaid_step hC

end Runs

section Overwritten

/-- The report is approved and the money taken, and the inspector can be paid. -/
def approvedWorld : World := { submittedWorld with
  orders := Table.empty.set 1 { submittedOrder with status := approved }
  payments := Table.empty.set 5 {
    orderId := some 1
    purpose := .order
    amountCents := 10000
    status := .succeeded
    stripePaymentIntentId := some 9
    authorizedAt := some 1000
    capturedAt := some 1500
    canceledAt := none
    supersededAt := none
    createdAt := 500 }
  inspectors := Table.empty.set 8 ⟨true, true, true, some 4, 0, none, none, true, 300⟩
  provider := ⟨Table.empty.set 9 ⟨10000, .succeeded 10000 0⟩, .empty, .empty⟩ }

def twoPayouts : Run PayLog := launch approvedWorld .empty [.releasePayout 1, .releasePayout 1]

def paidNow (g : Run PayLog) : Bool × Bool := (g.state.paidOut 1, g.hist.reporting 0)

/-- The first transfer is not answered in time, the second attempt pays, and the first one parks
the paid payout. -/
theorem parks_paid_payout : ¬ PaidOnceLaw fun _ => anyStep := by
  intro hlaw
  have hrun : Pool.observe machine (recordPayouts 1) anyStep paidNow
      (goes 0 6 ++ [.run 0 .down] ++ goes 0 2 ++ goes 1 9) (.run 0 .ok) twoPayouts =
      some ((true, false), (false, false)) := by decide +kernel
  obtain ⟨g, g', hg, hm, hs, hbefore, hafter⟩ := Pool.observe_eq hrun
  have hkept := (hlaw approvedWorld _ 1 g (by simp [Op.pays]) rfl hg).2 0 .ok g' hm hs
  have hreport := hkept (Prod.mk.inj hbefore).1 (Prod.mk.inj hafter).1
  rw [show g.snapshot.2.reporting 0 = false from (Prod.mk.inj hbefore).2] at hreport
  cases hreport

/-- Two attempts share one transfer. -/
theorem paid_once_retried : ∃ g : Run PayLog, g.state.paidOut 1 ∧ PaidOnce 1 g.snapshot := by
  have hrun : Pool.observe machine (recordPayouts 1) (paysInTime 1) paidNow
      (goes 0 7 ++ goes 1 8) (.run 1 .ok) twoPayouts = some ((false, false), (true, false)) := by
    decide +kernel
  obtain ⟨g, g', hg, hm, hs, _, hafter⟩ := Pool.observe_eq hrun
  exact ⟨g', (Prod.mk.inj hafter).1,
    (paid_once approvedWorld _ 1 g' (by simp [Op.pays]) rfl (.next (m := .run 1 .ok) hg hm hs)).1⟩

end Overwritten

end CarSalePro
