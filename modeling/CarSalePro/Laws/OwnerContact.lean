import CarSalePro.Orders.Errands
import CarSalePro.Reports.Effects

namespace CarSalePro.Reports

open Store Interleave Prog

/-- What a call has to do with trips. -/
def Call.errand : Call → Errand
  | create _ dto => dto.orderId.elim .none (.awaits .submitReportForOrder)
  | attachReportByCode order _ _ => .awaits .submitReportForOrder order
  | operation (.submitReportForOrder order) => .awaits .submitReportForOrder order
  | operation (.updateStatusByInspector order _ false) => .checks order
  | _ => .none

/-- The calls that concern the trip of an order: those of its inspector, those that file its report,
and the sweeps. -/
def Call.concernsTrips : Call → Prop
  | operation (.updateStatusByInspector _ _ _) | operation (.recordOwnerContact _ _ _)
  | operation (.submitReportForOrder _) | operation (.retryStuckPayouts _)
  | operation (.retryStuckRefunds _) | operation .autoApproveOverdue
  | operation .expireStaleOffers | operation (.redispatchUnfilledOrders _)
  | operation (.expireUnfilledSearches _) | operation .sweepAbandonedInspections
  | operation (.reconcileStuckOrderPayments _) => True
  | operation _ => False
  | _ => True

/-- The moves of an errand among those of the devices. -/
def filing : Discipline Site Stmt World Fate Errand where
  view ph w := ph.view w.market
  moves ph l c w ph' :=
    match l with
    | .ask (.market site) => Errand.Moves ph (.ask site) c w.market ph'
    | .call (.market s) => Errand.Moves ph (.call s) c w.market ph'
    | _ => ph' = ph

abbrev Files {α : Type} (A : Errand → Prop) (p : Act α) (B : α → Errand → Prop) : Prop :=
  filing.Flow machine A p B fun _ _ => True

/-- The statement starts no trip. -/
def Stmt.stays : Stmt → Prop
  | .market s => s.startsTrip = false
  | _ => True

section Files

variable {α : Type} {A : Errand → Prop} {p : Act α}

theorem files_plain (hp : p.Only Stmt.stays) : Files A p fun _ => A := by
  have hflow : filing.Flow machine A p (fun _ => A) fun _ => A := by
    refine Discipline.Flow.only hp (fun ph l c w _ _ => ?_) fun ph s c w _ hs _ => ?_
    · cases l with
      | market site => exact Errand.Moves.look
      | _ => rfl
    · cases s with
      | market s => exact Errand.Moves.plain hs
      | _ => rfl
  exact hflow.post (fun _ _ hx => hx) fun _ _ _ => trivial

theorem files_inMarket {q : CarSalePro.Act α} {B : α → Errand → Prop} (h : Trips A q B) :
    Files A (inMarket q) B :=
  Discipline.Flow.within market_runs (fun _ _ hview => hview) (fun _ _ _ _ _ hmove => hmove)
    (fun _ _ _ _ _ hmove => hmove) (fun _ _ _ => trivial) h

/-- A program that starts no trip, and one that goes on from where it ends. -/
theorem files_after {β : Type} {k : α → Act β} (hp : p.Only Stmt.stays)
    (hk : ∀ a, Files A (k a) fun _ _ => True) : Files A (p >>= k) fun _ _ => True :=
  Discipline.Flow.seq (files_plain hp) hk

theorem files_any (hp : p.Only Stmt.stays) : Files A p fun _ _ => True :=
  (files_plain hp).post (fun _ _ _ => trivial) fun _ _ hx => hx

end Files

section Calls

theorem DispatchStmt.stays {id : OrderId} {s : CarSalePro.Stmt} (h : DispatchStmt id s) :
    s.startsTrip = false := by
  cases h <;> rfl

theorem PayStmt.stays {id : OrderId} {s : CarSalePro.Stmt} (h : PayStmt id s) :
    s.startsTrip = false := by
  cases h <;> rfl

theorem RefundStmt.stays {id : OrderId} {reason : RefundReason} {k : PaymentId}
    {intent : Option IntentId} {s : CarSalePro.Stmt} (h : RefundStmt id reason k intent s) :
    s.startsTrip = false := by
  cases h <;> rfl

theorem CaptureStmt.stays {s : CarSalePro.Stmt} (h : CaptureStmt s) : s.startsTrip = false := by
  cases h <;> rfl

theorem ReconcileStmt.stays {s : CarSalePro.Stmt} (h : ReconcileStmt s) :
    s.startsTrip = false := by
  cases h with
  | start h =>
    cases h with
    | dispatch h => exact DispatchStmt.stays h
    | _ => rfl
  | refund h => exact RefundStmt.stays h
  | _ => rfl

theorem plain_settleRefund (id : OrderId) (amountCents : Cents) (reason : RefundReason) :
    (settleRefund id amountCents reason).Only fun s => s.startsTrip = false :=
  only_settleRefund id _ _ fun _ _ _ => RefundStmt.stays

theorem plain_recordOwnerContact (id : OrderId) (user : UserId) (reached : Bool) :
    (recordOwnerContact id user reached).Only fun s => s.startsTrip = false := by
  refine Only.seq (only_requireOrderAt _ _) fun order =>
    Only.ite (fun _ => only_fail _ _ _) fun _ => ?_
  refine Only.ite (fun _ => ?_) fun _ => ?_
  · refine Only.seq only_readClock fun now => Only.seq ((only_perform _).mpr rfl) fun claimed => ?_
    refine Only.ite (fun _ => only_fail _ _ _) fun _ => ?_
    exact Only.seq (only_note _ _ _ fun _ => rfl) fun _ => only_pure _
  · refine Only.seq ((only_perform _).mpr rfl) fun claimed => ?_
    refine Only.ite (fun _ => only_fail _ _ _) fun _ => ?_
    refine Only.seq (plain_settleRefund _ _ _) fun outcome => Only.seq ?_ fun _ => only_pure _
    exact Only.seq (only_writeEvent _ _ _ _ _ _ fun _ => rfl) fun _ =>
      only_writeEvent _ _ _ _ _ _ fun _ => rfl

theorem plain_start (id : OrderId) (user : UserId) :
    (updateStatusByInspector id user true).Only fun s => s.startsTrip = false := by
  refine Only.seq (only_requireOrderAt _ _) fun order =>
    Only.ite (fun _ => only_fail _ _ _) fun _ => ?_
  refine Only.ite (fun _ => only_fail _ _ _) fun _ => ?_
  exact Only.seq (only_moveTo (by decide) _) fun _ => only_pure _

/-- The operations that concern trips and start none. -/
theorem plain_operation {op : Op} (h : (Call.operation op).concernsTrips)
    (hnone : (Call.operation op).errand = .none) : op.prog.Only fun s => s.startsTrip = false := by
  have hdiscard {α : Type} {p : CarSalePro.Act α} (hp : p.Only fun s => s.startsTrip = false) :
      (discard p).Only fun s => s.startsTrip = false := Only.seq hp fun _ => only_pure _
  cases op with
  | updateStatusByInspector order user start =>
    cases start with
    | true => exact hdiscard (plain_start order user)
    | false => cases hnone
  | submitReportForOrder order => cases hnone
  | recordOwnerContact order user reached => exact hdiscard (plain_recordOwnerContact _ _ _)
  | retryStuckPayouts limit =>
    exact hdiscard (only_retryStuckPayouts limit fun _ _ => PayStmt.stays)
  | retryStuckRefunds limit =>
    exact hdiscard (only_retryStuckRefunds limit (fun _ _ => rfl) fun _ _ _ _ _ => RefundStmt.stays)
  | autoApproveOverdue =>
    exact hdiscard (only_autoApproveOverdue (fun _ _ _ => rfl) fun _ _ => PayStmt.stays)
  | expireStaleOffers =>
    exact hdiscard (only_expireStaleOffers (fun _ => rfl) fun _ _ => DispatchStmt.stays)
  | redispatchUnfilledOrders limit =>
    exact hdiscard (only_redispatchUnfilledOrders limit (fun _ _ => rfl) fun _ _ =>
      DispatchStmt.stays)
  | expireUnfilledSearches limit =>
    exact hdiscard (only_expireUnfilledSearches limit (fun _ _ => rfl) (fun _ => rfl)
      fun _ _ _ _ => RefundStmt.stays)
  | sweepAbandonedInspections =>
    exact hdiscard (only_sweepAbandonedInspections (fun _ _ => rfl) (fun _ => rfl)
      fun _ _ _ _ => RefundStmt.stays)
  | reconcileStuckOrderPayments limit =>
    exact hdiscard (only_reconcileStuckOrderPayments limit (fun _ => CaptureStmt.stays)
      fun _ => ReconcileStmt.stays)
  | _ => exact h.elim

theorem files_operation {op : Op} (h : (Call.operation op).concernsTrips) :
    Files (· = (Call.operation op).errand) (Call.operation op).prog fun _ _ => True := by
  have hplain (hnone : (Call.operation op).errand = .none) :
      Files (· = (Call.operation op).errand) (Call.operation op).prog fun _ _ => True :=
    files_any (Only.within (plain_operation h hnone) fun _ hs => hs)
  have hdiscard {α : Type} {A : Errand → Prop} {p : CarSalePro.Act α}
      (hp : Trips A p fun _ _ => True) : Trips A (discard p) fun _ _ => True :=
    Discipline.Flow.seq hp fun _ => .pure fun _ _ => trivial
  cases op with
  | submitReportForOrder order => exact files_inMarket (hdiscard trips_submitReportForOrder)
  | updateStatusByInspector order user start =>
    cases start with
    | true => exact hplain rfl
    | false => exact files_inMarket (hdiscard (trips_updateStatusByInspector user))
  | _ => exact hplain rfl

theorem files_storeReport (device : Quota.DeviceId) (dto : CreateReportDto)
    (extracted : ExtractedReportFields) (tier : Quota.Tier) :
    Files (· = (Call.create device dto).errand) (storeReport device dto extracted tier)
      fun _ _ => True := by
  have hfail (e : Err) : Files (· = (Call.create device dto).errand)
      (do rollbackQuota device tier; throw e : Act CreateReportResponse) fun _ _ => True :=
    files_any (Only.seq (only_rollbackQuota tier trivial) fun _ => only_throw _)
  refine files_after (only_fetch _ _) fun configured => ?_
  refine Discipline.Flow.ite (fun _ => hfail _) fun _ => ?_
  refine files_after (Only.attempt ((only_perform _).mpr trivial)) fun stored => ?_
  cases stored with
  | error e => exact hfail _
  | ok report =>
    refine files_after ((only_perform _).mpr trivial) fun _ => ?_
    refine files_after (only_fetch _ _) fun _ => ?_
    cases horder : dto.orderId with
    | none => exact files_any (Only.seq (only_pure _) fun _ => only_pure _)
    | some order =>
      have hsubmit : Files (· = (Call.create device dto).errand) (submitOrderForReport order)
          fun _ _ => True := by
        have herrand : (Call.create device dto).errand = .awaits .submitReportForOrder order := by
          simp [Call.errand, horder]
        rw [herrand]
        exact Discipline.Flow.quietly (files_inMarket trips_submitReportForOrder)
      exact Discipline.Flow.seq hsubmit fun _ => .pure fun _ _ => trivial

theorem files_create (device : Quota.DeviceId) (dto : CreateReportDto) :
    Files (· = (Call.create device dto).errand) (create device dto) fun _ _ => True := by
  refine files_after (only_ofExcept _) fun extracted => ?_
  refine files_after (only_assertSubmission _ _ _) fun _ => ?_
  refine files_after (only_findExisting _ _) fun existing => ?_
  split
  next => exact files_any (only_recreate trivial)
  next => exact files_after (only_consumeQuota trivial) fun tier =>
    files_storeReport device dto _ tier

theorem files_attachReportByCode (order : OrderId) (inspector : UserId) (code : String) :
    Files (· = .awaits .submitReportForOrder order) (attachReportByCode order inspector code)
      fun _ _ => True := by
  refine files_after (only_requireAttachable _ _) fun _ => ?_
  refine files_after (only_requireReport _ _ _) fun found => ?_
  refine files_after ((only_perform _).mpr trivial) fun _ => ?_
  refine Discipline.Flow.seq (files_inMarket trips_submitReportForOrder) fun _ => ?_
  refine files_any (Only.seq ?_ fun _ => only_pure _)
  exact Only.within (only_requireOrderAt (A := fun _ => False) _ _) fun _ => False.elim

theorem files_call {call : Call} (h : call.concernsTrips) :
    Files (· = call.errand) call.prog fun _ _ => True := by
  have hanswered {α : Type} {A : Errand → Prop} {p : Act α} (hp : Files A p fun _ _ => True) :
      Files A (answered p) fun _ _ => True :=
    Discipline.Flow.seq hp fun _ => .pure fun _ _ => trivial
  cases call with
  | create device dto => exact hanswered (files_create device dto)
  | attachReportByCode order inspector code =>
    exact hanswered (files_attachReportByCode order inspector code)
  | operation op => exact files_operation h
  | update device report dto =>
    exact hanswered (files_any (only_update fun _ => trivial))
  | remove device report =>
    exact hanswered (files_any (only_remove trivial))

end Calls

section Run

/-- The states in which each call has read an order to check it. -/
abbrev CheckLog := Nat → List World

def CheckLog.empty : CheckLog := fun _ => []

def recordChecks : Recorder Site Stmt World CheckLog := fun t label w _ h =>
  match label with
  | .ask (.market .requireOrder) => Function.update h t (w :: h t)
  | _ => h

def World.assigned (w : World) (order : OrderId) : Bool :=
  (w.market.orders.get order).any (·.status = .assigned)

/-- A step takes order `o` from `assigned` to `enRoute` only if its owner has been reached. -/
def TripPermitted (o : OrderId) (w w' : World) : Prop :=
  ∀ r r', w.market.orders.get o = some r → w'.market.orders.get o = some r' →
    r.status = .assigned → r'.status = .enRoute → r.ownerContactConfirmedAt.isSome

/-- Under the condition `C calls`, no order starts its trip before its owner was reached. -/
def TripLaw (C : List Call → StepGuard CheckLog) : Prop :=
  ∀ (w : World) (calls : List Call), (∀ call ∈ calls, call.concernsTrips) →
    ∀ (o : OrderId) (g g' : Run CheckLog) (m : Move Fate),
      Pool.Reach machine recordChecks (C calls) (launch w .empty calls) g → g.Meets (C calls) m →
      Pool.step machine recordChecks m g = some g' → TripPermitted o g.state g'.state

/-- A report that is submitted does not find its order assigned with the owner still to be reached,
and an order is not assigned between the check of an inspector's departure and its transition. -/
def ownerReachedFirst (calls : List Call) : StepGuard CheckLog := fun t l _ x =>
  match l, (calls[t]?).map Call.errand with
  | .ask (.market .submitReportForOrder), some (.awaits _ order) =>
    (x.1.market.orders.get order).all (!·.ownerPending)
  | .ask (.market .transition), some (.checks order) =>
    (x.1.market.orders.get order).all (!·.ownerPending) || (x.2 t).all (·.assigned order)
  | _, _ => true

/-- The errand of a call awaits this read: it is that of its call, or a check has found the order
not assigned. -/
def Awaited (call : Option Call) (reads : List World) (site : CarSalePro.Site) (order : OrderId) :
    Prop :=
  site = .submitReportForOrder ∧ call.map Call.errand = some (.awaits site order) ∨
  site = .transition ∧ call.map Call.errand = some (.checks order) ∧
    ∃ w ∈ reads, w.assigned order = false

/-- Every errand is what its call makes it, and knows of its order what it has learnt. -/
structure ErrandsKept (calls : List Call) (Φ : Nat → Errand) (x : World × CheckLog) : Prop where
  view : ∀ t, (Φ t).view x.1.market
  checks : ∀ t order, Φ t = .checks order → (calls[t]?).map Call.errand = some (.checks order)
  awaits : ∀ t site order, Φ t = .awaits site order → Awaited calls[t]? (x.2 t) site order

variable {calls : List Call} {Φ : Nat → Errand} {x : World × CheckLog} {t : Nat} {ph : Errand}

/-- A statement of the device side leaves the orders alone. -/
theorem market_exec {s : Stmt} {c : Fate} {w : World} (hs : ∀ s', s ≠ .market s') :
    (World.exec s c w).2.market = w.market := by
  have hupdate (report : Quota.ReportId) (f : Report → Report) :
      (w.updateReport report f).2.market = w.market := by
    unfold World.updateReport
    split <;> rfl
  by_cases hc : c = .down
  · subst hc
    rw [exec_down hs]
  · rw [exec_write hs hc]
    cases s with
    | market s' => exact absurd rfl (hs s')
    | incrementFree device => rfl
    | rollbackQuota device =>
      simp only [World.write]
      split <;> rfl
    | createReport row =>
      simp only [World.write]
      split <;> rfl
    | setS3Key report key => exact hupdate _ _
    | patchReport report patch => exact hupdate _ _
    | linkReport report order user =>
      simp only [World.write]
      split
      · rfl
      · exact hupdate _ _
    | softDelete report => exact hupdate _ _

/-- What an errand knows of the orders no statement undoes. -/
theorem view_exec {s : Stmt} {c : Fate} {w : World} (h : ph.view w.market) :
    ph.view (World.exec s c w).2.market := by
  by_cases hs : ∃ s', s = .market s'
  · obtain ⟨s', rfl⟩ := hs
    cases ph with
    | reached order => exact ownerReached_exec h
    | lost => exact h
    | _ => trivial
  · rw [market_exec fun s' heq => hs ⟨s', heq⟩]
    exact h

theorem view_tick {c : Fate} {w : CarSalePro.World} (h : ph.view w) : ph.view (w.tick c) := by
  obtain ⟨now, htick⟩ := World.tick_eq c w
  rw [htick]
  cases ph with
  | reached order => exact h
  | lost => exact h
  | _ => trivial

theorem Awaited.mono {call : Option Call} {reads reads' : List World} {site : CarSalePro.Site}
    {order : OrderId} (h : Awaited call reads site order) (hreads : ∀ w ∈ reads, w ∈ reads') :
    Awaited call reads' site order := by
  rcases h with hfiled | ⟨hsite, hcall, w, hw, hother⟩
  · exact .inl hfiled
  · exact .inr ⟨hsite, hcall, w, hreads w hw, hother⟩

/-- What a read adds to the log. -/
theorem mem_recordChecks {l : Label Site Stmt} {w w' : World} {u : Nat} {h : CheckLog}
    {read : World} (hread : read ∈ h u) : read ∈ recordChecks t l w w' h u := by
  unfold recordChecks
  split
  next =>
    by_cases hu : u = t
    · subst hu
      rw [Function.update_self]
      exact List.mem_cons_of_mem _ hread
    · rwa [Function.update_of_ne hu]
  next => exact hread

/-- A move of one thread, whose new errand is kept too. -/
theorem ErrandsKept.move {w : World} {l : Label Site Stmt} (h : ErrandsKept calls Φ x)
    (hothers : ∀ ph : Errand, ph.view x.1.market → ph.view w.market) (hview : ph.view w.market)
    (hchecks : ∀ order, ph = .checks order → Φ t = .checks order)
    (hawaits : ∀ site order, ph = .awaits site order → Φ t = .awaits site order ∨
      Awaited calls[t]? (recordChecks t l x.1 w x.2 t) site order) :
    ErrandsKept calls (Function.update Φ t ph) (w, recordChecks t l x.1 w x.2) := by
  constructor
  · intro u
    by_cases hu : u = t
    · subst hu
      rw [Function.update_self]
      exact hview
    · rw [Function.update_of_ne hu]
      exact hothers _ (h.view u)
  · intro u order hph
    by_cases hu : u = t
    · subst hu
      rw [Function.update_self] at hph
      exact h.checks u order (hchecks order hph)
    · rw [Function.update_of_ne hu] at hph
      exact h.checks u order hph
  · intro u site order hph
    have hkept (hold : Φ u = .awaits site order) :
        Awaited calls[u]? (recordChecks t l x.1 w x.2 u) site order :=
      (h.awaits u site order hold).mono fun _ => mem_recordChecks
    by_cases hu : u = t
    · subst hu
      rw [Function.update_self] at hph
      exact (hawaits site order hph).elim hkept id
    · rw [Function.update_of_ne hu] at hph
      exact hkept hph

/-- Under the condition, the read that an errand awaits does not find the owner pending. -/
theorem reached_of_guard {c : Fate} {site : CarSalePro.Site} {order : OrderId} {r : Order}
    (h : Awaited calls[t]? (x.2 t) site order)
    (hC : ownerReachedFirst calls t (.ask (.market site)) c x)
    (hr : x.1.market.orders.get order = some r) : r.ownerPending = false := by
  rcases h with ⟨rfl, hcall⟩ | ⟨rfl, hcall, w, hw, hother⟩
  · simpa [ownerReachedFirst, hcall, hr] using hC
  · simp only [ownerReachedFirst, hcall, hr, Option.all_some, Bool.or_eq_true, Bool.not_eq_true',
      List.all_eq_true] at hC
    refine hC.resolve_right fun hall => ?_
    rw [hall w hw] at hother
    cases hother

theorem errands_invariant (calls : List Call) :
    filing.Invariant machine recordChecks (ownerReachedFirst calls) (ErrandsKept calls) where
  view Φ x t h := h.view t
  env Φ x c h := ⟨fun t => view_tick (h.view t), h.checks, h.awaits⟩
  move Φ x t l c ph h hC hmove := by
    have hown := h.view t
    have hsame (heq : ph = Φ t) {w : World}
        (hothers : ∀ ph : Errand, ph.view x.1.market → ph.view w.market) :
        ErrandsKept calls (Function.update Φ t ph) (w, recordChecks t l x.1 w x.2) :=
      h.move hothers (heq ▸ hothers _ hown) (fun _ hph => heq ▸ hph) fun _ _ hph =>
        .inl (heq ▸ hph)
    cases l with
    | ask site =>
      cases site with
      | market site =>
        have hmove : Errand.Moves (Φ t) (.ask site) c x.1.market ph := hmove
        generalize hΦ : Φ t = old at hmove
        cases hmove with
        | look => exact hsame hΦ.symm fun _ hv => hv
        | pass hreached => exact h.move (fun _ hv => hv) hreached (by simp) (by simp)
        | @early order _ _ hother =>
          refine h.move (fun _ hv => hv) trivial (by simp) fun site order' hph => .inr ?_
          cases hph
          refine .inr ⟨rfl, h.checks t order hΦ, x.1, ?_, ?_⟩
          · show x.1 ∈ Function.update x.2 t (x.1 :: x.2 t) t
            simp
          · show (x.1.market.orders.get order).any _ = false
            cases hrow : x.1.market.orders.get order with
            | none => rfl
            | some r => simpa using hother r hrow
        | learn hreached => exact h.move (fun _ hv => hv) hreached (by simp) (by simp)
        | miss hget hpending =>
          rw [reached_of_guard (h.awaits t _ _ hΦ) hC hget] at hpending
          cases hpending
      | _ => exact hsame hmove fun _ hv => hv
    | call s =>
      have hothers : ∀ ph : Errand, ph.view x.1.market → ph.view (World.exec s c x.1).2.market :=
        fun _ => view_exec
      cases s with
      | market s =>
        have hmove : Errand.Moves (Φ t) (.call s) c x.1.market ph := hmove
        generalize hΦ : Φ t = old at hmove
        cases hmove with
        | plain hplain => exact hsame hΦ.symm hothers
        | start => exact hsame hΦ.symm hothers
      | _ => exact hsame hmove hothers

/-- The errand of a call, at its first step. -/
theorem errand_start (call : Call) : (∃ order, call.errand = .awaits .submitReportForOrder order) ∨
    (∃ order, call.errand = .checks order) ∨ call.errand = .none := by
  cases call with
  | create device dto =>
    simp only [Call.errand]
    cases dto.orderId with
    | none => exact .inr (.inr rfl)
    | some order => exact .inl ⟨order, rfl⟩
  | attachReportByCode order inspector code => exact .inl ⟨order, rfl⟩
  | operation op =>
    cases op with
    | submitReportForOrder order => exact .inl ⟨order, rfl⟩
    | updateStatusByInspector order user start =>
      cases start with
      | true => exact .inr (.inr rfl)
      | false => exact .inr (.inl ⟨order, rfl⟩)
    | _ => exact .inr (.inr rfl)
  | _ => exact .inr (.inr rfl)

theorem errands_start (w : World) : ErrandsKept calls
    (fun t => ((calls[t]?).map Call.errand).getD .none) (w, .empty) := by
  have hstart (t : Nat) : (∃ order, (calls[t]?).map Call.errand =
        some (.awaits .submitReportForOrder order)) ∨
      (∃ order, (calls[t]?).map Call.errand = some (.checks order)) ∨
      ((calls[t]?).map Call.errand).getD .none = .none := by
    cases calls[t]? with
    | none => exact .inr (.inr rfl)
    | some call => simpa using errand_start call
  constructor
  · intro t
    show Errand.view (((calls[t]?).map Call.errand).getD .none) w.market
    rcases hstart t with ⟨order, h⟩ | ⟨order, h⟩ | h
    · rw [h]
      trivial
    · rw [h]
      trivial
    · rw [h]
      trivial
  · intro t order hchecks
    rcases hstart t with ⟨order', h⟩ | ⟨order', h⟩ | h
    · simp [h] at hchecks
    · simpa [h] using hchecks
    · simp [h] at hchecks
  · intro t site order hawaits
    rcases hstart t with ⟨order', h⟩ | ⟨order', h⟩ | h
    · obtain ⟨rfl, rfl⟩ : Site.submitReportForOrder = site ∧ order' = order := by
        simpa [h] using hawaits
      exact .inl ⟨rfl, h⟩
    · simp [h] at hawaits
    · simp [h] at hawaits

theorem launch_call {w : World} {p : Act Unit}
    (h : (launch w CheckLog.empty calls).threads[t]? = some p) :
    ∃ call, calls[t]? = some call ∧ call.prog = p := by
  simp only [launch, List.getElem?_map, Option.map_eq_some_iff] at h
  obtain ⟨call, hcall, rfl⟩ := h
  exact ⟨call, hcall, rfl⟩

/-- In a run in which the owner is reached before a report is filed, and no order is assigned
between the check of its inspector's departure and the transition, no trip starts before the owner
was reached. -/
theorem owner_reached_first (w : World) (calls : List Call)
    (hcalls : ∀ call ∈ calls, call.concernsTrips) (o : OrderId) (g g' : Run CheckLog)
    (m : Move Fate)
    (hreach : Pool.Reach machine recordChecks (ownerReachedFirst calls) (launch w .empty calls) g)
    (hm : g.Meets (ownerReachedFirst calls) m) (hs : Pool.step machine recordChecks m g = some g') :
    TripPermitted o g.state g'.state := by
  have hinvariant := errands_invariant calls
  obtain ⟨Φ, hkept, hfollows, -⟩ := hinvariant.reach (B := fun _ _ _ => True)
    (E := fun _ _ _ => True) (errands_start w) (fun t p hp => by
      obtain ⟨call, hcall, rfl⟩ := launch_call hp
      have herrand : ((calls[t]?).map Call.errand).getD .none = call.errand := by rw [hcall]; rfl
      exact files_call (hcalls call (List.mem_of_getElem? hcall)) _ herrand) hreach
  intro r r' hr hr' hbefore hafter
  cases m with
  | env c =>
    cases Option.some.inj hs
    obtain ⟨now, htick⟩ := World.tick_eq c g.state.market
    have hsame : (g.state.market.tick c).orders.get o = some r := by rw [htick]; exact hr
    have heq : r = r' := Option.some.inj (hsame.symm.trans hr')
    rw [← heq, hbefore] at hafter
    cases hafter
  | run t c =>
    obtain ⟨p, l, p', ph, hp, hl, hmove, -, -, hsnap⟩ := hinvariant.next hkept (hfollows t) hs
    have hstate : g'.state = machine.after l c g.state := congrArg Prod.fst hsnap
    rw [hstate] at hr'
    have hstill {w' : World} (hw' : w'.market = g.state.market)
        (hr' : w'.market.orders.get o = some r') : r.ownerContactConfirmedAt.isSome := by
      rw [hw', hr] at hr'
      rw [← Option.some.inj hr', hbefore] at hafter
      cases hafter
    cases l with
    | ask site => exact hstill rfl hr'
    | call s =>
      by_cases hmarket : ∃ s', s = .market s'
      · obtain ⟨s', rfl⟩ := hmarket
        obtain ⟨source, legal, rfl⟩ := startsTrip_of_enRoute hr hr'
          (by rw [hbefore]; decide) hafter
        have hmove : Errand.Moves (Φ t) _ c g.state.market ph := hmove
        generalize hΦ : Φ t = old at hmove
        cases hmove with
        | plain hplain => cases hplain
        | start =>
          have hview := hkept.view t
          rw [hΦ] at hview
          obtain ⟨r₁, hr₁, hreached⟩ := hview
          cases hr.symm.trans hr₁
          exact hreached
      · exact hstill (market_exec fun s' heq => hmarket ⟨s', heq⟩) hr'

end Run

section Runs

/-- An order of inspector 7, who has not reached its owner. -/
def callPending : Order where
  customerId := 9
  inspectorId := some 7
  status := .assigned
  totalCents := 10000
  platformFeeCents := 2000
  inspectorShareCents := 8000
  searchExpiresAt := none
  inspectionDeadlineAt := none
  ownerContactConfirmedAt := none
  submittedAt := none
  autoApproveAt := none
  dispatchRound := 1

def earlyReport : Report where
  deviceId := "device"
  code := "CSP-7"
  tier := .free
  s3Key := "free/device/1.pdf"
  orderId := none
  userId := none
  vehicle := ⟨none, none, none⟩
  qualityScore := none
  reportData := none
  uploaded := true
  createdAt := 0
  deletedAt := none

/-- The order and a report its inspector has made already, with the gate switched off. -/
def earlyWorld : World := { World.start
    { CarSalePro.World.empty with orders := Table.empty.set 1 callPending } .empty with
  reports := Table.empty.set 1 earlyReport
  minReportQualityScore := fun _ => 0 }

def tripOf (g : Run CheckLog) : Option (OrderStatus × Bool) :=
  (g.state.market.orders.get 1).map fun r => (r.status, r.ownerContactConfirmedAt.isSome)

/-- The report takes its order through `enRoute` though nobody has called the owner. -/
theorem report_starts_trip : ¬ TripLaw fun _ => anyStep := by
  intro hlaw
  have hrun : Pool.observe machine recordChecks anyStep tripOf (goes 0 8) (.run 0 .ok)
      (launch earlyWorld .empty [.attachReportByCode 1 7 "CSP-7"]) =
      some (some (.assigned, false), some (.enRoute, false)) := by
    decide +kernel
  obtain ⟨g, g', hg, hm, hs, hbefore, hafter⟩ := Pool.observe_eq hrun
  obtain ⟨r, hr, htrip⟩ := Option.map_eq_some_iff.mp hbefore
  obtain ⟨r', hr', htrip'⟩ := Option.map_eq_some_iff.mp hafter
  have hpermitted := hlaw earlyWorld _ (by simp [Call.concernsTrips]) 1 g g' _ hg hm hs r r' hr hr'
    (congrArg Prod.fst htrip) (congrArg Prod.fst htrip')
  have hpending : r.ownerContactConfirmedAt.isSome = false := congrArg Prod.snd htrip
  rw [hpending] at hpermitted
  cases hpermitted

/-- The inspector reaches the owner and leaves, and only then the trip begins. -/
theorem trip_after_call : ∃ g g' : Run CheckLog, tripOf g = some (.assigned, true) ∧
    tripOf g' = some (.enRoute, true) ∧ TripPermitted 1 g.state g'.state := by
  let calls : List Call := [.operation (.recordOwnerContact 1 7 true),
    .operation (.updateStatusByInspector 1 7 false)]
  have hrun : Pool.observe machine recordChecks (ownerReachedFirst calls) tripOf
      (goes 0 4 ++ goes 1 2) (.run 1 .ok) (launch earlyWorld .empty calls) =
      some (some (.assigned, true), some (.enRoute, true)) := by
    decide +kernel
  obtain ⟨g, g', hg, hm, hs, hbefore, hafter⟩ := Pool.observe_eq hrun
  have hcalls : ∀ call ∈ calls, call.concernsTrips := by simp [calls, Call.concernsTrips]
  exact ⟨g, g', hbefore, hafter, owner_reached_first earlyWorld calls hcalls 1 g g' _ hg hm hs⟩

end Runs

end CarSalePro.Reports
