import CarSalePro.Interleave.Recall
import CarSalePro.Reports.Effects

namespace CarSalePro.Reports

open Store Interleave Prog Quota

/-- The order a report is linked to. -/
def World.orderOf (w : World) (report : ReportId) : Option OrderId :=
  (w.reports.get report).bind (·.orderId)

/-- The state in which a call has read a report by its code. -/
abbrev CodeMemory := Option World

namespace CodeMemory

def note (m : CodeMemory) (l : Label Site Stmt) (w : World) : CodeMemory :=
  match l with
  | .ask .reportByCode => some w
  | _ => m

/-- A report is linked that was linked to no other order when it was read. -/
def may (m : CodeMemory) : Stmt → Prop
  | .linkReport report order _ =>
    ∃ w, m = some w ∧ (w.orderOf report = none ∨ w.orderOf report = some order)
  | _ => True

end CodeMemory

/-- What the calls have done: the report each has read by its code, the report and the order each
has linked, and the orders that were moved to `submitted` on the strength of a report. -/
structure SubmissionLog where
  memory : Nat → CodeMemory
  basis : Nat → Option (ReportId × OrderId)
  moved : List (OrderId × ReportId)

def SubmissionLog.empty : SubmissionLog := ⟨fun _ => none, fun _ => none, []⟩

/-- The order has this status. -/
def World.stands (w : World) (order : OrderId) (status : OrderStatus) : Bool :=
  (w.market.orders.get order).any (·.status = status)

/-- The report is linked to the order. -/
def World.links (w : World) (report : ReportId) (order : OrderId) : Bool :=
  (w.reports.get report).any (·.orderId = some order)

/-- A link is noted under the call that makes it, and a submission with the report of its call. -/
def recordMoves : Recorder Site Stmt World SubmissionLog := fun t label w w' log =>
  match label with
  | .call (.linkReport report order _) =>
    if w'.links report order then
      { log with basis := Function.update log.basis t (some (report, order)) }
    else log
  | .call (.createReport row) =>
    match row.orderId with
    | some order =>
      if w'.links w.reports.fresh order then
        { log with basis := Function.update log.basis t (some (w.reports.fresh, order)) }
      else log
    | none => log
  | .call (.market (.order (.transition order _ .submitted _))) =>
    match log.basis t with
    | some (report, _) =>
      if w'.stands order .submitted then { log with moved := (order, report) :: log.moved } else log
    | none => log
  | _ => log

def recordSubmissions : Recorder Site Stmt World SubmissionLog := fun t label w w' log =>
  { recordMoves t label w w' log with
    memory := Function.update log.memory t ((log.memory t).note label w) }

/-- In every interleaving of steps that meet `C`: a report has moved one order to `submitted`, and
an order in `submitted` keeps its report from then on. -/
def ReportLaw (C : StepGuard SubmissionLog) : Prop :=
  ∀ (w : World) (calls : List Call) (g g' : Run SubmissionLog),
    Pool.Reach machine recordSubmissions C (launch w .empty calls) g →
    Pool.Reach machine recordSubmissions C g g' →
    (∀ order order' report, (order, report) ∈ g.hist.moved → (order', report) ∈ g.hist.moved →
      order = order') ∧
    ∀ order report, g.state.stands order .submitted → g.state.links report order →
      g'.state.links report order

/-- No other order has got the report since the call read it. -/
def linksInTime : StepGuard SubmissionLog := fun t label c x =>
  match label with
  | .call (.linkReport report order _) => c = .down || x.1.orderOf report = some order ||
      (x.2.memory t).all fun w => x.1.orderOf report = w.orderOf report
  | _ => true

/-- A link finds the report free, or the order's own. -/
def linksFree : StepGuard SubmissionLog := fun _ label c x =>
  match label with
  | .call (.linkReport report order _) =>
    c = .down || x.1.orderOf report = none || x.1.orderOf report = some order
  | _ => true

section Discipline

/-- Where a call is: it has linked nothing yet, it has linked a report to an order, or it links and
submits no more. -/
inductive Stage where
  | idle
  | linked (report : ReportId) (order : OrderId)
  | done

/-- Neither a new report nor a link. -/
def Stmt.bindsNothing : Stmt → Prop
  | createReport _ | linkReport _ _ _ => False
  | _ => True

/-- The statement moves no order but these to `submitted`. -/
def Stmt.submitsOnly (orders : OrderId → Prop) : Stmt → Prop
  | market (.order (.transition order _ .submitted _)) => orders order
  | _ => True

inductive Moves : Stage → Label Site Stmt → Fate → World → Stage → Prop
  | look {ph : Stage} {site : Site} {c : Fate} {w : World} : Moves ph (.ask site) c w ph
  | free {s : Stmt} {c : Fate} {w : World} (h : s.bindsNothing) : Moves .idle (.call s) c w .idle
  | submit {report : ReportId} {order : OrderId} {s : Stmt} {c : Fate} {w : World}
      (h : s.bindsNothing) (hs : s.submitsOnly (· = order)) :
      Moves (.linked report order) (.call s) c w (.linked report order)
  | rest {s : Stmt} {c : Fate} {w : World} (h : s.bindsNothing)
      (hs : s.submitsOnly fun _ => False) : Moves .done (.call s) c w .done
  | link {report : ReportId} {order : OrderId} {user : UserId} {c : Fate} {w : World}
      (h : (World.exec (.linkReport report order user) c w).1 = .ok ()) :
      Moves .idle (.call (.linkReport report order user)) c w (.linked report order)
  | file {row : Report} {order : OrderId} {c : Fate} {w : World} (horder : row.orderId = some order)
      (h : (World.exec (.createReport row) c w).1 = .ok w.reports.fresh) :
      Moves .idle (.call (.createReport row)) c w (.linked w.reports.fresh order)
  | finish {s : Stmt} {c : Fate} {w : World} (h : s.submitsOnly fun _ => False) :
      Moves .idle (.call s) c w .done

/-- A call submits the order it has linked a report to. -/
def submitting : Discipline Site Stmt World Fate Stage where
  view _ _ := True
  moves := Moves

/-- What is noted of the calls is so, and stays so. -/
structure Noted (Φ : Nat → Stage) (x : World × SubmissionLog) : Prop where
  basis : ∀ t report order, x.2.basis t = some (report, order) → x.1.links report order
  moved : ∀ order report, (order, report) ∈ x.2.moved → x.1.links report order
  idle : ∀ t, Φ t = .idle → x.2.basis t = none
  linked : ∀ t report order, Φ t = .linked report order → x.2.basis t = some (report, order)

variable {Φ : Nat → Stage} {x : World × SubmissionLog} {t : Nat} {ph : Stage} {s : Stmt} {c : Fate}
  {w : World} {report : ReportId} {order : OrderId}

theorem links_iff : w.links report order ↔ w.Linked report order := by
  simp [World.links, World.Linked, Option.any_eq_true]

/-- A report that is linked to an order stays linked to it. -/
theorem links_kept (h : x.1.links report order) (hC : linksFree t (.call s) c x) :
    (World.exec s c x.1).2.links report order := by
  obtain ⟨row, hrow, horder⟩ := links_iff.mp h
  rw [links_iff]
  by_cases hdown : c = .down ∧ ∀ s', s ≠ .market s'
  · rw [hdown.1, exec_down hdown.2]
    exact ⟨row, hrow, horder⟩
  rcases report_exec (s := s) (c := c) hrow with hsame | hnew
  · exact ⟨row, hsame, horder⟩
  · refine ⟨_, hnew, ?_⟩
    cases s with
    | linkReport report' order' user =>
      show (if report' = report then _ else row).orderId = _
      split
      next heq =>
        subst heq
        have hup : c ≠ .down := fun hc => hdown ⟨hc, by simp⟩
        have hfree : row.orderId = none ∨ row.orderId = some order' := by
          simpa [linksFree, World.orderOf, hrow, hup] using hC
        rw [horder] at hfree
        exact hfree.elim nofun Eq.symm
      next => exact horder
    | setS3Key report' key =>
      show (if report' = report then _ else row).orderId = _
      split
      · exact horder
      · exact horder
    | patchReport report' patch =>
      show (if report' = report then _ else row).orderId = _
      split
      · exact horder
      · exact horder
    | softDelete report' =>
      show (if report' = report then _ else row).orderId = _
      split
      · exact horder
      · exact horder
    | market s' => exact horder
    | incrementFree device => exact horder
    | rollbackQuota device => exact horder
    | createReport new => exact horder

/-- What the log says after a statement. -/
structure Written (t : Nat) (s : Stmt) (w' : World) (log log' : SubmissionLog) : Prop where
  basis : ∀ u report order, log'.basis u = some (report, order) → w'.links report order
  moved : ∀ order report, (order, report) ∈ log'.moved → w'.links report order
  others : ∀ u, u ≠ t → log'.basis u = log.basis u
  unbound : s.bindsNothing → log'.basis t = log.basis t

theorem Noted.record (h : Noted Φ x) (hC : linksFree t (.call s) c x)
    (hs : ∀ report order, x.2.basis t = some (report, order) → s.submitsOnly (· = order)) :
    Written t s (World.exec s c x.1).2 x.2
      (recordSubmissions t (.call s) x.1 (World.exec s c x.1).2 x.2) := by
  have hbasis : ∀ u report order, x.2.basis u = some (report, order) →
      (World.exec s c x.1).2.links report order :=
    fun u report order hu => links_kept (h.basis u report order hu) hC
  have hmoved : ∀ order report, (order, report) ∈ x.2.moved →
      (World.exec s c x.1).2.links report order :=
    fun order report hm => links_kept (h.moved order report hm) hC
  have hsame : Written t s (World.exec s c x.1).2 x.2 x.2 :=
    ⟨hbasis, hmoved, fun _ _ => rfl, fun _ => rfl⟩
  have hbind (report : ReportId) (order : OrderId)
      (hlinks : (World.exec s c x.1).2.links report order) (hbinds : ¬ s.bindsNothing) :
        Written t s (World.exec s c x.1).2 x.2
        { x.2 with basis := Function.update x.2.basis t (some (report, order)) } := by
    refine ⟨fun u r o hu => ?_, hmoved, fun u hu => Function.update_of_ne hu _ _,
      fun hs => (hbinds hs).elim⟩
    by_cases hut : u = t
    · subst hut
      simp only [Function.update_self, Option.some.injEq, Prod.mk.injEq] at hu
      rw [← hu.1, ← hu.2]
      exact hlinks
    · simp only [Function.update_of_ne hut] at hu
      exact hbasis u r o hu
  show Written t s (World.exec s c x.1).2 x.2
    { recordMoves t (.call s) x.1 (World.exec s c x.1).2 x.2
    with memory := _ }
  suffices hw : Written t s (World.exec s c x.1).2 x.2
      (recordMoves t (.call s) x.1 (World.exec s c x.1).2 x.2) from
    ⟨hw.basis, hw.moved, hw.others, hw.unbound⟩
  unfold recordMoves
  split
  next report order user heq =>
    cases heq
    split
    next hlinks => exact hbind report order hlinks fun hs => hs
    next => exact hsame
  next row heq =>
    cases heq
    split
    next order horder =>
      split
      next hlinks => exact hbind _ order hlinks fun hs => hs
      next => exact hsame
    next => exact hsame
  next order source legal heq =>
    cases heq
    split
    next report order' hb =>
      have horder : order = order' := hs report order' hb
      subst horder
      split
      next =>
        refine ⟨hbasis, fun o r hm => ?_, fun _ _ => rfl, fun _ => rfl⟩
        rcases List.mem_cons.mp hm with heq | hm
        · cases heq
          exact hbasis t report order hb
        · exact hmoved o r hm
      next => exact hsame
    next => exact hsame
  next => exact hsame

/-- The call goes on in another stage. -/
theorem Noted.go (h : Noted Φ x) {w' : World} {log' : SubmissionLog}
    (hw : Written t s w' x.2 log') (hidle : ph = .idle → log'.basis t = none)
    (hlinked : ∀ report order, ph = .linked report order → log'.basis t = some (report, order)) :
    Noted (Function.update Φ t ph) (w', log') := by
  refine ⟨hw.basis, hw.moved, fun u hu => ?_, fun u report order hu => ?_⟩
  · by_cases hut : u = t
    · subst hut
      rw [Function.update_self] at hu
      exact hidle hu
    · rw [Function.update_of_ne hut] at hu
      exact (hw.others u hut).trans (h.idle u hu)
  · by_cases hut : u = t
    · subst hut
      rw [Function.update_self] at hu
      exact hlinked report order hu
    · rw [Function.update_of_ne hut] at hu
      exact (hw.others u hut).trans (h.linked u report order hu)

theorem submitsOnly_mono {P Q : OrderId → Prop} (h : s.submitsOnly P) (hPQ : ∀ o, P o → Q o) :
    s.submitsOnly Q := by
  unfold Stmt.submitsOnly at h ⊢
  split at h
  · exact hPQ _ h
  · trivial

theorem noted_invariant :
    submitting.Invariant machine recordSubmissions linksFree Noted where
  view _ _ _ _ := trivial
  env _ _ _ h := ⟨h.basis, h.moved, h.idle, h.linked⟩
  move Φ x t l c ph h hC hm := by
    have hnone (s : Stmt) (hidle : Φ t = .idle) :
        ∀ report order, x.2.basis t = some (report, order) → s.submitsOnly (· = order) := by
      intro report order hb
      rw [h.idle t hidle] at hb
      cases hb
    have hquiet {s : Stmt} (hs : s.submitsOnly fun _ => False) :
        ∀ report order, x.2.basis t = some (report, order) → s.submitsOnly (· = order) :=
      fun report order _ => submitsOnly_mono hs fun _ => False.elim
    generalize hΦ : Φ t = old at hm
    cases hm with
    | look =>
      rw [← hΦ, Function.update_eq_self]
      exact ⟨h.basis, h.moved, h.idle, h.linked⟩
    | @free s c w hs =>
      have hw := h.record hC (hnone s hΦ)
      exact h.go hw (fun _ => (hw.unbound hs).trans (h.idle t hΦ)) nofun
    | @submit report order s c w hs hsub =>
      have hbasis := h.linked t report order hΦ
      have hw := h.record (s := s) hC fun r o hb => by
        rw [hbasis] at hb
        cases hb
        exact hsub
      refine h.go hw nofun fun r o heq => ?_
      cases heq
      exact (hw.unbound hs).trans hbasis
    | @rest s c w hs hsub =>
      exact h.go (h.record hC (hquiet hsub)) nofun nofun
    | @link report order user c w hok =>
      refine h.go (h.record hC (hnone _ hΦ)) nofun fun r o heq => ?_
      cases heq
      have hlinks := links_iff.mpr (linked_ok hok)
      exact (congrArg (SubmissionLog.basis · t) (if_pos hlinks)).trans (Function.update_self ..)
    | @file row order c w horder hok =>
      refine h.go (h.record hC (hnone _ hΦ)) nofun fun r o heq => ?_
      cases heq
      have hlinks := links_iff.mpr ⟨_, (created_ok hok).2.2, horder⟩
      simp only [recordSubmissions, recordMoves, horder]
      exact (congrArg (SubmissionLog.basis · t) (if_pos hlinks)).trans (Function.update_self ..)
    | @finish s c w hsub =>
      exact h.go (h.record hC (hquiet hsub)) nofun nofun

section Flows

variable {α β : Type} {p : Act α}

/-- From some stages, the program follows the discipline to others. -/
abbrev Submits (A : Stage → Prop) (p : Act α) (B : α → Stage → Prop) (E : Err → Stage → Prop) :
    Prop :=
  submitting.Flow machine A p B E

/-- A program that links nothing, before anything is linked. -/
theorem submits_free (hp : p.Only Stmt.bindsNothing) :
    Submits (· = .idle) p (fun _ => (· = .idle)) fun _ => (· = .idle) :=
  Discipline.Flow.only hp (fun _ _ _ _ _ _ => .look) fun _ _ _ _ hx hs _ => hx ▸ .free hs

/-- A program that links and submits nothing. -/
theorem submits_rest (hp : p.Only fun s => s.bindsNothing ∧ s.submitsOnly fun _ => False) :
    Submits (· = .done) p (fun _ => (· = .done)) fun _ => (· = .done) :=
  Discipline.Flow.only hp (fun _ _ _ _ _ _ => .look) fun _ _ _ _ hx hs _ => hx ▸ .rest hs.1 hs.2

/-- A program that submits the order a report was linked to. -/
theorem submits_order (report : ReportId)
    (hp : p.Only fun s => s.bindsNothing ∧ s.submitsOnly (· = order)) :
    Submits (· = .linked report order) p (fun _ => (· = .linked report order))
      fun _ => (· = .linked report order) :=
  Discipline.Flow.only hp (fun _ _ _ _ _ _ => .look) fun _ _ _ _ hx hs _ => hx ▸ .submit hs.1 hs.2

theorem only_submission (order : OrderId) :
    (inMarket (submitReportForOrder order)).Only
      fun s => s.bindsNothing ∧ s.submitsOnly (· = order) := by
  refine Only.within (only_submitReportForOrder order) fun s hs => ⟨trivial, ?_⟩
  cases hs with
  | transition source target legal =>
    cases target with
    | submitted => exact rfl
    | _ => trivial
  | _ => trivial

/-- After a report is filed: its order, if it names one. -/
def Stage.after (report : ReportId) : Option OrderId → Stage
  | none => done
  | some order => linked report order

theorem submits_createReport (row : Report) :
    Submits (· = .idle) (Prog.perform (Stmt.createReport row) : Act ReportId)
      (fun report => (· = .after report row.orderId)) fun _ => (· = .done) := by
  refine Discipline.Flow.perform fun x c w hx _ => ?_
  subst hx
  show ∃ x', Moves .idle (.call (.createReport row)) c w x' ∧ Discipline.onAnswer _ _
    (World.exec (.createReport row) c w).1 x'
  cases hr : (World.exec (.createReport row) c w).1 with
  | error e => exact ⟨.done, .finish trivial, rfl⟩
  | ok report =>
    cases horder : row.orderId with
    | none => exact ⟨.done, .finish trivial, rfl⟩
    | some order =>
      have hfresh := (created_ok hr).1
      subst hfresh
      exact ⟨_, .file horder hr, rfl⟩

theorem submits_linkReport (report : ReportId) (order : OrderId) (user : UserId) :
    Submits (· = .idle) (Prog.perform (Stmt.linkReport report order user) : Act Unit)
      (fun _ => (· = .linked report order)) fun _ => (· = .done) := by
  refine Discipline.Flow.perform fun x c w hx _ => ?_
  subst hx
  show ∃ x', Moves .idle (.call (.linkReport report order user)) c w x' ∧ Discipline.onAnswer _ _
    (World.exec (.linkReport report order user) c w).1 x'
  cases hr : (World.exec (.linkReport report order user) c w).1 with
  | error e => exact ⟨.done, .finish trivial, rfl⟩
  | ok r => exact ⟨_, .link hr, rfl⟩

/-- Any end of a call. -/
def anyEnd {δ : Type} : δ → Stage → Prop := fun _ _ => True

theorem Submits.any {A : Stage → Prop} {B : α → Stage → Prop} {E : Err → Stage → Prop}
    (h : Submits A p B E) : Submits A p anyEnd anyEnd :=
  Discipline.Flow.post h (fun _ _ _ => trivial) fun _ _ _ => trivial

theorem submits_pure {A : Stage → Prop} (a : α) : Submits A (pure a : Act α) anyEnd anyEnd :=
  Discipline.Flow.pure fun _ _ => trivial

/-- What goes on after a part that links nothing. -/
theorem submits_first {f : α → Act β} (hp : p.Only Stmt.bindsNothing)
    (hf : ∀ a, Submits (· = .idle) (f a) anyEnd anyEnd) :
    Submits (· = .idle) (p >>= f) anyEnd anyEnd :=
  Discipline.Flow.seq (Discipline.Flow.post (submits_free hp) (fun _ _ h => h) fun _ _ _ => trivial)
    hf

theorem submits_attachReportByCode (order : OrderId) (inspector : UserId) (code : String) :
    Submits (· = .idle) (attachReportByCode order inspector code) anyEnd anyEnd := by
  refine submits_first (only_requireAttachable _ _) fun _ => ?_
  refine submits_first (only_requireReport _ _ _) fun found => ?_
  have hlink := Discipline.Flow.post (submits_linkReport found.1 order
    (found.2.userId.getD inspector)) (fun _ _ h => h) (X := anyEnd) fun _ _ _ => trivial
  refine Discipline.Flow.seq hlink fun _ => ?_
  have hsubmit := Discipline.Flow.post (submits_order found.1 (only_submission order))
    (fun _ _ h => h) (X := anyEnd) fun _ _ _ => trivial
  refine Discipline.Flow.seq hsubmit fun _ => ?_
  have hrequire : (inMarket (requireOrder order)).Only
      fun s => s.bindsNothing ∧ s.submitsOnly (· = order) :=
    Only.within (only_requireOrderAt (A := fun _ => False) _ _) fun _ => False.elim
  refine Discipline.Flow.seq (Submits.any (submits_order found.1 hrequire)) fun _ => ?_
  exact submits_pure _

/-- A statement that neither links nor submits. -/
def Stmt.calm (s : Stmt) : Prop := s.bindsNothing ∧ s.submitsOnly fun _ => False

/-- A part that neither links nor submits leaves the call in its stage. -/
theorem submits_calm {f : α → Act β} {E : Err → Stage → Prop} (hp : p.Only Stmt.calm) (ph : Stage)
    (hE : ∀ e, E e ph) {B : β → Stage → Prop} (hf : ∀ a, Submits (· = ph) (f a) B E) :
    Submits (· = ph) (p >>= f) B E := by
  have hstay : Submits (· = ph) p (fun _ => (· = ph)) fun _ => (· = ph) := by
    cases ph with
    | idle => exact submits_free (hp.mono fun _ hs => hs.1)
    | linked report order =>
      exact submits_order report
        (hp.mono fun _ hs => ⟨hs.1, submitsOnly_mono hs.2 fun _ => False.elim⟩)
    | done => exact submits_rest hp
  exact Discipline.Flow.seq (Discipline.Flow.post hstay (fun _ _ h => h) fun e _ h => h ▸ hE e) hf

theorem submits_finishReport (device : DeviceId) (dto : CreateReportDto) (tier : Tier)
    (report : ReportId) :
    Submits (· = .after report dto.orderId) (finishReport device dto tier report)
    anyEnd anyEnd := by
  have hkey : (Prog.perform (Stmt.setS3Key report (buildKey tier device report)) : Act Unit).Only
      Stmt.calm := (only_perform _).mpr ⟨trivial, trivial⟩
  refine submits_calm hkey _ (fun _ => trivial) fun _ => ?_
  refine submits_calm (only_fetch _ _) _ (fun _ => trivial) fun _ => ?_
  cases horder : dto.orderId with
  | none => exact submits_pure _
  | some order =>
    have hsubmit : Submits (· = .linked report order) (submitOrderForReport order) anyEnd anyEnd :=
      (submits_order report (Only.quietly (only_submission order))).any
    exact Discipline.Flow.seq hsubmit fun _ => submits_pure _

theorem submits_storeReport (device : DeviceId) (dto : CreateReportDto)
    (extracted : ExtractedReportFields) (tier : Tier) :
    Submits (· = .idle) (storeReport device dto extracted tier) anyEnd anyEnd := by
  have hrollback : (rollbackQuota device tier).Only Stmt.calm :=
    only_rollbackQuota tier ⟨trivial, trivial⟩
  have hthrow (ph : Stage) (e : Err) :
      Submits (· = ph) (throw e : Act CreateReportResponse) anyEnd anyEnd :=
    Discipline.Flow.throw fun _ _ => trivial
  refine submits_first (only_fetch _ _) fun configured =>
    Discipline.Flow.ite (fun _ => ?_) fun _ => ?_
  · exact submits_calm hrollback _ (fun _ => trivial) fun _ => hthrow _ _
  · refine Discipline.Flow.seq (Discipline.Flow.attempt (submits_createReport _)) fun r => ?_
    cases r with
    | error e => exact submits_calm hrollback _ (fun _ => trivial) fun _ => hthrow _ _
    | ok report => exact submits_finishReport device dto tier report

theorem submits_create (device : DeviceId) (dto : CreateReportDto) :
    Submits (· = .idle) (create device dto) anyEnd anyEnd := by
  refine submits_first (only_ofExcept _) fun extracted => ?_
  refine submits_first (only_assertSubmission _ _ _) fun _ => ?_
  refine submits_first (only_findExisting _ _) fun existing => ?_
  split
  next existing _ =>
    exact (submits_free (only_recreate trivial)).any
  next =>
    exact submits_first (only_consumeQuota trivial) fun tier =>
      submits_storeReport device dto extracted tier

theorem submits_call (call : Call) : Submits (· = .idle) call.prog anyEnd anyEnd := by
  have hanswered {δ : Type} {q : Act δ} (h : Submits (· = .idle) q anyEnd anyEnd) :
      Submits (· = .idle) (answered q) anyEnd anyEnd :=
    Discipline.Flow.seq (B := anyEnd) h fun _ => submits_pure _
  cases call with
  | create device dto => exact hanswered (submits_create device dto)
  | attachReportByCode order inspector code =>
    exact hanswered (submits_attachReportByCode order inspector code)
  | operation op =>
    have hop : (inMarket op.prog).Only Stmt.bindsNothing :=
      Only.within (only_all op.prog) fun _ _ => trivial
    exact (submits_free hop).any
  | update device report dto =>
    exact hanswered (submits_free (only_update fun _ => trivial)).any
  | remove device report =>
    exact hanswered (submits_free (only_remove trivial)).any

end Flows

end Discipline

section Reads

variable {α β : Type} {p : Act α} {A : CodeMemory → Prop} {order : OrderId} {inspector : UserId}
  {code : String}

/-- From some memories, the program links what it read to be free. -/
abbrev Links (A : CodeMemory → Prop) (p : Act α) (B : α → CodeMemory → Prop) : Prop :=
  Recalls machine CodeMemory.note CodeMemory.may A p B

/-- The statement links no report that is there already. -/
def Stmt.linksNothing : Stmt → Prop
  | linkReport _ _ _ => False
  | _ => True

theorem links_free (hp : p.Only Stmt.linksNothing) : Links A p fun _ _ => True := by
  apply Recalls.free hp
  intro m s hs
  cases s with
  | linkReport report order user => exact hs.elim
  | _ => trivial

/-- The report as it was read by its code. -/
def ReadFree (order : OrderId) (report : ReportId) (m : CodeMemory) : Prop :=
  ∃ w, m = some w ∧ (w.orderOf report = none ∨ w.orderOf report = some order)

theorem newestReport_get {w : World} {found : ReportId × Report}
    (h : w.newestReport code = some found) : w.reports.get found.1 = some found.2 :=
  (Table.mem_findSorted (List.mem_of_mem_head? h)).1

theorem links_assertReportComplete (data : Option Json) (score : Option Int) :
    Links A (assertReportComplete data score) fun _ => A := by
  have hread : Links A (fetch .assertReportComplete fun w => w.minReportQualityScore w.now)
      fun _ => A := Recalls.fetch fun _ _ h => h
  apply hread.seq
  intro min
  refine .ite (fun _ => .pure fun _ h => h) fun _ => ?_
  refine .ite (fun _ => .throw fun _ _ => trivial) fun _ => ?_
  exact .ite (fun _ => .throw fun _ _ => trivial) fun _ => .pure fun _ h => h

/-- The check that the report is free is made on the row that was read. -/
theorem links_requireReport :
    Links A (requireReport order inspector code) fun found => ReadFree order found.1 := by
  have hread : Links A (fetch .reportByCode fun w => (w.newestReport code).map fun found =>
      (found, reportVehicleMatchesOrder w.upperCase (w.vehicles order) found.2.vehicle))
      fun read m => ∀ found ∈ read,
        ∃ w, m = some w ∧ w.reports.get found.1.1 = some found.1.2 := by
    apply Recalls.fetch
    intro m w _ read hread
    obtain ⟨found, hnewest, heq⟩ := Option.map_eq_some_iff.mp hread
    subst heq
    exact ⟨w, rfl, newestReport_get hnewest⟩
  apply hread.seq
  intro read
  split
  next => exact .throw fun _ _ => trivial
  next found sameVehicle =>
    refine .ite (fun _ => .throw fun _ _ => trivial) fun hused => ?_
    have hfree (m : CodeMemory) (hm : ∀ read ∈ some (found, sameVehicle),
        ∃ w, m = some w ∧ w.reports.get read.1.1 = some read.1.2) : ReadFree order found.1 m := by
      obtain ⟨w, hw, hrow⟩ := hm _ rfl
      refine ⟨w, hw, ?_⟩
      cases horder : found.2.orderId with
      | none => exact Or.inl (by simp [World.orderOf, hrow, horder])
      | some other =>
        have hsame : other = order := by simpa [horder] using hused
        exact Or.inr (by simp [World.orderOf, hrow, horder, hsame])
    apply Discipline.Flow.weaken (A := ReadFree order found.1) _ hfree (fun _ _ h => h)
      fun _ _ h => h
    refine .ite (fun _ => .throw fun _ _ => trivial) fun _ => ?_
    refine .ite (fun _ => .throw fun _ _ => trivial) fun _ => ?_
    apply (links_assertReportComplete _ _).seq
    intro _
    have hlink : Links (ReadFree order found.1)
        (fetch .deviceLink (·.deviceLinks.get found.2.deviceId))
        fun _ => ReadFree order found.1 := Recalls.fetch fun _ _ h => h
    apply hlink.seq
    intro link
    exact .ite (fun _ => .throw fun _ _ => trivial) fun _ => .pure fun _ h => h

theorem links_attachReportByCode :
    Links A (attachReportByCode order inspector code) fun _ _ => True := by
  apply (links_free (only_requireAttachable _ _)).seq
  intro _
  apply links_requireReport.seq
  intro found
  have hlink : Links (ReadFree order found.1) (Prog.perform (Stmt.linkReport found.1 order
      (found.2.userId.getD inspector)) : Act Unit) fun _ _ => True :=
    Recalls.perform (fun _ h => h) fun _ _ _ _ _ _ => trivial
  apply hlink.seq
  intro _
  apply links_free
  have hmarket {ρ : Type} (q : CarSalePro.Act ρ) : (inMarket q).Only Stmt.linksNothing :=
    Only.within (only_all q) fun _ _ => trivial
  exact Only.seq (hmarket _) fun _ => Only.seq (hmarket _) fun _ => only_pure _

theorem only_createLinks (device : DeviceId) (dto : CreateReportDto) :
    (create device dto).Only Stmt.linksNothing := by
  refine Only.seq (only_ofExcept _) fun extracted => ?_
  refine Only.seq (only_assertSubmission _ _ _) fun _ => ?_
  refine Only.seq (only_findExisting _ _) fun existing => ?_
  split
  · exact only_recreate trivial
  · refine Only.seq (only_consumeQuota trivial) fun tier => ?_
    exact only_storeReport trivial (fun _ => trivial) (fun _ _ => trivial) fun _ => trivial

theorem links_call (call : Call) : Links A call.prog fun _ _ => True := by
  have hanswered {ρ : Type} {q : Act ρ} (hq : q.Only Stmt.linksNothing) :
      Links A (answered q) fun _ _ => True :=
    links_free (Only.seq hq fun _ => only_pure _)
  cases call with
  | create device dto => exact hanswered (only_createLinks device dto)
  | update device report dto => exact hanswered (only_update fun _ => trivial)
  | remove device report => exact hanswered (only_remove trivial)
  | attachReportByCode order inspector code =>
    exact links_attachReportByCode.seq fun _ => .pure fun _ _ => trivial
  | operation op => exact links_free (Only.within (only_all op.prog) fun _ _ => trivial)

theorem records_codes : Records recordSubmissions CodeMemory.note SubmissionLog.memory :=
  fun _ _ _ _ _ => rfl

/-- A link that no other link of the report came before since the call read it finds it free. -/
theorem free_of_time {t : Nat} {s : Stmt} {c : Fate} {x : World × SubmissionLog}
    (hmay : (x.2.memory t).may s) (hC : linksInTime t (.call s) c x) :
    linksFree t (.call s) c x := by
  cases s with
  | linkReport report order user =>
    obtain ⟨w, hw, hfree⟩ := hmay
    simp only [linksInTime, linksFree, hw, Option.all_some, Bool.or_eq_true,
      decide_eq_true_eq] at hC ⊢
    rcases hC with (hdown | hown) | hsame
    · exact Or.inl (Or.inl hdown)
    · exact Or.inr hown
    · rw [hsame]
      exact hfree.imp Or.inr id
  | _ => rfl

end Reads

section Run

variable {w : World} {calls : List Call} {g g' : Run SubmissionLog}

theorem launch_thread {t : Nat} {p : Act Unit}
    (h : (launch w SubmissionLog.empty calls).threads[t]? = some p) :
    ∃ call ∈ calls, call.prog = p := by
  simp only [launch, List.getElem?_map, Option.map_eq_some_iff] at h
  obtain ⟨call, hcall, rfl⟩ := h
  exact ⟨call, List.mem_of_getElem? hcall, rfl⟩

theorem noted_reach (hg : Pool.Reach machine recordSubmissions linksFree
    (launch w .empty calls) g) :
    ∃ Φ, Noted Φ g.snapshot := by
  have hstart : Noted (fun _ => .idle) (launch w .empty calls).snapshot :=
    ⟨nofun, nofun, fun _ _ => rfl, nofun⟩
  obtain ⟨Φ, hnoted, -⟩ :=
    noted_invariant.reach (B := fun _ => anyEnd) (E := fun _ => anyEnd) hstart
    (fun t p hp => by
      obtain ⟨call, -, rfl⟩ := launch_thread hp
      exact submits_call call _ rfl) hg
  exact ⟨Φ, hnoted⟩

theorem links_launch (t : Nat) (p : Act Unit)
    (hp : (launch w SubmissionLog.empty calls).threads[t]? = some p) :
    Links (· = SubmissionLog.empty.memory t) p fun _ _ => True := by
  obtain ⟨call, -, rfl⟩ := launch_thread hp
  exact links_call call

/-- A run in time is one whose links find their report free. -/
theorem free_later
    (hg : Pool.Reach machine recordSubmissions linksInTime (launch w .empty calls) g)
    (hlater : Pool.Reach machine recordSubmissions linksInTime g g') :
    Pool.Reach machine recordSubmissions linksFree g g' :=
  recalled_later (C := linksInTime) (D := linksFree) records_codes links_launch
    (fun _ _ _ _ _ => rfl) (fun _ _ _ _ => free_of_time) hg hlater

/-- In a run whose links find the report free, a report stays with its order. -/
theorem links_reach {report : ReportId} {order : OrderId}
    (hg : Pool.Reach machine recordSubmissions linksFree g g') (h : g.state.links report order) :
    g'.state.links report order := by
  refine hg.invariant (I := fun x => x.1.links report order) h fun x y hx hxy => ?_
  cases hxy with
  | ask t l c hC => exact hx
  | call t s c hC => exact links_kept hx hC
  | env c => exact hx

end Run

/-- One report serves one order in every run in which no report goes to another order between the
read of a call and its link. -/
theorem one_report_one_order (w : World) (calls : List Call) (g g' : Run SubmissionLog)
    (hg : Pool.Reach machine recordSubmissions linksInTime (launch w .empty calls) g)
    (hlater : Pool.Reach machine recordSubmissions linksInTime g g') :
    (∀ order order' report, (order, report) ∈ g.hist.moved → (order', report) ∈ g.hist.moved →
      order = order') ∧
    ∀ order report, g.state.stands order .submitted → g.state.links report order →
      g'.state.links report order := by
  obtain ⟨Φ, hnoted⟩ := noted_reach (free_later .start hg)
  constructor
  · intro order order' report h h'
    obtain ⟨row, hrow, horder⟩ := links_iff.mp (hnoted.moved order report h)
    obtain ⟨row', hrow', horder'⟩ := links_iff.mp (hnoted.moved order' report h')
    rw [hrow] at hrow'
    cases hrow'
    rw [horder] at horder'
    exact Option.some.inj horder'
  · intro order report _ hlinks
    exact links_reach (free_later hg hlater) hlinks

section Race

/-- An order that waits for the report of inspector 7. -/
def inspectedOrder : Order where
  customerId := 9
  inspectorId := some 7
  status := .inProgress
  totalCents := 10000
  platformFeeCents := 2000
  inspectorShareCents := 8000
  searchExpiresAt := none
  inspectionDeadlineAt := none
  ownerContactConfirmedAt := none
  submittedAt := none
  autoApproveAt := none
  dispatchRound := 1

def standaloneReport : Report where
  deviceId := "device"
  code := "CSP-1"
  tier := .free
  s3Key := "free/device/1.pdf"
  orderId := none
  userId := none
  vehicle := ⟨none, none, none⟩
  qualityScore := none
  reportData := none
  uploaded := true
  createdAt := 0
  deletedAt := none

/-- Two orders of the inspector and one report of his, with the gate switched off. -/
def twoInspections : World := { World.start
    { CarSalePro.World.empty with
      orders := (Table.empty.set 1 inspectedOrder).set 2 inspectedOrder } .empty with
  reports := Table.empty.set 1 standaloneReport
  minReportQualityScore := fun _ => 0 }

/-- The inspector attaches the report to both. -/
def attachTwice : List Call :=
  [.attachReportByCode 1 7 "CSP-1", .attachReportByCode 2 7 "CSP-1"]

/-- Which orders were moved on which report, where the two orders stand, and which order the report
is linked to. -/
structure Outcome where
  moved : List (OrderId × ReportId)
  first : Option OrderStatus
  second : Option OrderStatus
  link : Option OrderId
  deriving DecidableEq, Repr

def outcome (g : Run SubmissionLog) : Outcome where
  moved := g.hist.moved
  first := (g.state.market.orders.get 1).map (·.status)
  second := (g.state.market.orders.get 2).map (·.status)
  link := (g.state.reports.get 1).bind (·.orderId)

/-- Both calls find the report free. The first links it and submits its order, and the second takes
it away and submits its own. -/
theorem attached_twice : ¬ ReportLaw anyStep := by
  intro hlaw
  have hrun : Pool.observe machine recordSubmissions anyStep outcome
      (goes 0 5 ++ goes 1 5 ++ goes 0 7 ++ goes 1 6) (.run 1 .ok)
      (launch twoInspections .empty attachTwice) =
      some (⟨[(1, 1)], some .submitted, some .inProgress, some 2⟩,
        ⟨[(2, 1), (1, 1)], some .submitted, some .submitted, some 2⟩) := by
    decide +kernel
  obtain ⟨g, g', hg, hm, hs, -, hafter⟩ := Pool.observe_eq hrun
  have hmoved : g'.hist.moved = [(2, 1), (1, 1)] := congrArg Outcome.moved hafter
  have hone := (hlaw _ _ g' g' (.next hg hm hs) .start).1 1 2 1 (by simp [hmoved])
    (by simp [hmoved])
  exact absurd hone (by decide)

/-- The second call comes when the report is linked, and is refused. -/
theorem attached_once : ∃ g : Run SubmissionLog,
    outcome g = ⟨[(1, 1)], some .submitted, some .inProgress, some 1⟩ ∧
    (∀ order order' report, (order, report) ∈ g.hist.moved → (order', report) ∈ g.hist.moved →
      order = order') ∧
    ∀ order report, g.state.stands order .submitted → g.state.links report order →
      g.state.links report order := by
  have hrun : Pool.observe machine recordSubmissions linksInTime outcome
      (goes 0 14 ++ goes 1 2) (.run 1 .ok) (launch twoInspections .empty attachTwice) =
      some (⟨[(1, 1)], some .submitted, some .inProgress, some 1⟩,
        ⟨[(1, 1)], some .submitted, some .inProgress, some 1⟩) := by
    decide +kernel
  obtain ⟨g, g', hg, hm, hs, -, hafter⟩ := Pool.observe_eq hrun
  exact ⟨g', hafter, one_report_one_order twoInspections attachTwice g' g' (.next hg hm hs) .start⟩

end Race

end CarSalePro.Reports
