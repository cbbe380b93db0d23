import CarSalePro.Laws.OneClaimer

namespace CarSalePro

open Store Interleave Prog

/-- The event a webhook statement is about. -/
def WebhookStmt.event : WebhookStmt → StripeEventId
  | claim e | steal e _ | complete e | release e => e

/-- The statement writes the row of this event. -/
def Stmt.claimsEvent (e : StripeEventId) : Stmt → Bool
  | webhook s => s.event = e
  | _ => false

/-- A delivery of the event: it is claimed, handled and completed. The handler itself is any
program that leaves the row of the event alone. -/
def Delivers (e : StripeEventId) (p : Act Unit) : Prop :=
  ∃ h : Act Unit, p = handleWebhook e h ∧ h.Only fun s => s.claimsEvent e = false

/-- What has happened to the claim on one event: the thread that wrote the current one, the
threads it was stolen from, and whether a run completed the event while it held the claim. -/
structure DeliveryLog where
  holder : Option Nat
  robbed : Nat → Bool
  completed : Bool

def DeliveryLog.empty : DeliveryLog := ⟨none, fun _ => false, false⟩

/-- The claims a steal takes away. -/
def DeliveryLog.rob (h : DeliveryLog) : Nat → Bool :=
  match h.holder with
  | some u => Function.update h.robbed u true
  | none => h.robbed

def recordDeliveries (e : StripeEventId) : Recorder Site Stmt World DeliveryLog := fun t l w w' h =>
  if w'.webhooks.get e = w.webhooks.get e then h
  else
    match l with
    | .call (.webhook (.claim _)) => { h with holder := some t }
    | .call (.webhook (.steal _ _)) => { h with holder := some t, robbed := h.rob }
    | .call (.webhook (.complete _)) =>
      { h with holder := none, completed := h.completed || h.holder = some t }
    | .call (.webhook (.release _)) => { h with holder := none }
    | _ => h

namespace World

def webhookClaimed (w : World) (e : StripeEventId) : Bool :=
  (w.webhooks.get e).any (·.status = .claimed)

def webhookProcessed (w : World) (e : StripeEventId) : Bool :=
  (w.webhooks.get e).any (·.status = .processed)

/-- Some time later a delivery of the event can claim it. -/
def claimable (w : World) (e : StripeEventId) : Prop :=
  ∃ later, ((claimWebhookEvent e).alone machine .ok { w with now := w.now + later }).1 = .ok true

end World

/-- The end of a run: its claim is completed or cleaned up. -/
def finishes (e : StripeEventId) : Label Site Stmt → Bool
  | .call (.webhook (.complete id)) | .call (.webhook (.release id)) => id = e
  | _ => false

/-- Claims are exclusive, at one step of a thread `t` of which `p` is left. -/
structure ClaimRespected (e : StripeEventId) (t : Nat) (p : Act Unit) (l : Label Site Stmt)
    (x y : World × DeliveryLog) : Prop where
  processed : x.1.webhookProcessed e = false → y.1.webhookProcessed e →
    p = finishWebhook e (.ok ()) ∧ x.2.holder = some t
  stolen : x.2.robbed t → finishes e l → y.1.webhooks.get e = x.1.webhooks.get e

/-- Webhook claims are exclusive and can be delivered again: for any deliveries of an event never
heard of before, at any times, with any outcomes. -/
def WebhookClaims (C : StripeEventId → StepGuard DeliveryLog) : Prop :=
  ∀ (w : World) (e : StripeEventId) (ds : List (Act Unit)) (g : Run DeliveryLog),
    w.webhooks.get e = none → (∀ p ∈ ds, Delivers e p) →
    Pool.Reach machine (recordDeliveries e) (C e) ⟨w, .empty, ds⟩ g →
    (g.hist.completed = false → g.state.claimable e) ∧
    ∀ t c g' p l, g.Meets (C e) (.run t c) →
      Pool.step machine (recordDeliveries e) (.run t c) g = some g' → g.threads[t]? = some p →
      p.label = some l → ClaimRespected e t p l g.snapshot g'.snapshot

/-- No run whose claim was stolen comes to its end while the event is still claimed. -/
def endsInTime (e : StripeEventId) : StepGuard DeliveryLog := fun t l _ x =>
  !(finishes e l && x.2.robbed t && x.1.webhookClaimed e)

/-- What a statement can do to the row of one event. -/
inductive ClaimEffect (e : StripeEventId) (s : Stmt) (now : Time) :
    Option StripeWebhookEvent → Option StripeWebhookEvent → Prop where
  | same (r) : ClaimEffect e s now r r
  | claimed (stmt : s = .webhook (.claim e)) :
      ClaimEffect e s now none (some ⟨.claimed, some now, 1⟩)
  | stolen (r before) (stmt : s = .webhook (.steal e before)) (held : r.status = .claimed) :
      ClaimEffect e s now (some r) (some ⟨.claimed, some now, r.attempts + 1⟩)
  | completed (r) (stmt : s = .webhook (.complete e)) (held : r.status = .claimed) :
      ClaimEffect e s now (some r) (some { r with status := .processed })
  | released (r) (stmt : s = .webhook (.release e)) (held : r.status = .claimed) :
      ClaimEffect e s now (some r) none

section Effects

variable {e : StripeEventId} {s : Stmt} {c : Fate} {w : World}

theorem writeWebhook_effect (u : WebhookStmt) :
    ClaimEffect e (.webhook u) w.now (w.webhooks.get e) ((w.writeWebhook u).2.webhooks.get e) := by
  cases u with
  | claim id =>
    simp only [World.writeWebhook]
    split
    next => exact .same _
    next hnone =>
      by_cases hid : e = id
      · subst hid
        rw [show w.webhooks.get e = none by simpa using hnone]
        simpa using ClaimEffect.claimed rfl
      · simpa [hid] using ClaimEffect.same _
  | steal id before =>
    simp only [World.writeWebhook]
    split
    next => exact .same _
    next r hr =>
      split
      next hs =>
        by_cases hid : e = id
        · subst hid
          rw [hr]
          simpa using ClaimEffect.stolen r before rfl hs.1
        · simpa [hid] using ClaimEffect.same _
      next => exact .same _
  | complete id =>
    simp only [World.writeWebhook]
    split
    next => exact .same _
    next r hr =>
      split
      next hs =>
        by_cases hid : e = id
        · subst hid
          rw [hr]
          simpa using ClaimEffect.completed r rfl hs
        · simpa [hid] using ClaimEffect.same _
      next => exact .same _
  | release id =>
    simp only [World.writeWebhook, Table.get_deleteMany]
    cases hr : w.webhooks.get e with
    | none => exact .same _
    | some r =>
      by_cases hm : e = id ∧ r.status = .claimed
      · obtain ⟨rfl, hs⟩ := hm
        simpa [Option.filter, hs] using ClaimEffect.released r rfl hs
      · have hkeep : e = id → r.status ≠ .claimed := fun h hs => hm ⟨h, hs⟩
        by_cases hid : e = id
        · simpa [Option.filter, hkeep hid] using ClaimEffect.same _
        · simpa [Option.filter, hid] using ClaimEffect.same _

/-- The inversion of a step on the row of an event. -/
theorem exec_webhook : ClaimEffect e s w.now (w.webhooks.get e)
    ((World.exec s c w).2.webhooks.get e) := by
  by_cases ht : s.touchesWebhooks = false
  · rw [(World.frame_exec s c w).webhooks ht]; exact .same _
  rcases World.exec_cases s c w with ⟨call, rfl, _⟩ | ⟨_, _, he⟩ | ⟨_, _, he⟩
  · exact absurd rfl ht
  · rw [he]; exact .same _
  · rw [he]
    cases s with
    | webhook u => exact writeWebhook_effect u
    | _ => exact absurd rfl ht

/-- An insert says whether it took the claim. -/
theorem claim_answer :
    match (World.exec (.webhook (.claim e)) c w).1 with
    | .ok _ => (World.exec (.webhook (.claim e)) c w).2.webhooks.get e ≠ w.webhooks.get e
    | .error _ => (World.exec (.webhook (.claim e)) c w).2.webhooks.get e = w.webhooks.get e := by
  by_cases hc : c = .down
  · simp [World.exec, hc]
  · cases hr : w.webhooks.get e with
    | none => simp [World.exec, hc, World.write, World.writeWebhook, hr]
    | some r => simp [World.exec, hc, World.write, World.writeWebhook, hr]

/-- So does a steal, by the number of rows it wrote. -/
theorem steal_answer (before : Time) :
    match (World.exec (.webhook (.steal e before)) c w).1 with
    | .ok (_ + 1) =>
      (World.exec (.webhook (.steal e before)) c w).2.webhooks.get e ≠ w.webhooks.get e
    | _ => (World.exec (.webhook (.steal e before)) c w).2.webhooks.get e = w.webhooks.get e := by
  by_cases hc : c = .down
  · simp [World.exec, hc]
  · cases hr : w.webhooks.get e with
    | none => simp [World.exec, hc, World.write, World.writeWebhook, hr]
    | some r =>
      by_cases hs : r.status = .claimed ∧ r.claimedAt.any (· < before)
      · have hne : (⟨.claimed, some w.now, r.attempts + 1⟩ : StripeWebhookEvent) ≠ r := by
          intro he
          have hatt := congrArg StripeWebhookEvent.attempts he
          simp at hatt
        simp [World.exec, hc, World.write, World.writeWebhook, hr, hs, hne]
      · simp [World.exec, hc, World.write, World.writeWebhook, hr, hs]

end Effects

/-- Where a thread stands with the claim of an event. -/
inductive Turn where
  | before
  | inside
  | after
  deriving DecidableEq

/-- The moves of a delivery. -/
inductive TurnMove (e : StripeEventId) : Turn → Label Site Stmt → Fate → World → Turn → Prop where
  | read (ph l c w) : TurnMove e ph (.ask l) c w ph
  | other (ph s c w) (h : s.claimsEvent e = false) : TurnMove e ph (.call s) c w ph
  | won (u c w) (hu : u = .claim e ∨ ∃ before, u = .steal e before)
      (h : (World.exec (.webhook u) c w).2.webhooks.get e ≠ w.webhooks.get e) :
      TurnMove e .before (.call (.webhook u)) c w .inside
  | lost (u c w) (hu : u = .claim e ∨ ∃ before, u = .steal e before)
      (h : (World.exec (.webhook u) c w).2.webhooks.get e = w.webhooks.get e) :
      TurnMove e .before (.call (.webhook u)) c w .before
  | finished (u c w) (hu : u = .complete e ∨ u = .release e) :
      TurnMove e .inside (.call (.webhook u)) c w .after

def turnDiscipline (e : StripeEventId) : Discipline Site Stmt World Fate Turn where
  view _ _ := True
  moves := TurnMove e

section Flows

variable {e : StripeEventId}

/-- A method follows the discipline of deliveries from one turn. -/
abbrev TurnFlow (e : StripeEventId) {α : Type} (ph : Turn) (p : Act α) (B : α → Turn → Prop)
    (E : Turn → Prop) : Prop :=
  (turnDiscipline e).Flow machine (· = ph) p B fun _ => E

theorem flow_handler {α : Type} {p : Act α} (hp : p.Only fun s => s.claimsEvent e = false)
    (ph : Turn) : TurnFlow e ph p (fun _ => (· = ph)) (· = ph) :=
  Discipline.Flow.only hp (fun x l c w _ _ => .read x l c w) fun x s c w _ hs _ => .other x s c w hs

theorem flow_claimEvent : TurnFlow e .before (claimWebhookEvent e)
    (fun b x => x = if b then .inside else .before) (· = .before) := by
  have hclaim : TurnFlow e .before (Prog.perform (.webhook (.claim e)) : Act Nat)
      (fun _ => (· = .inside)) (· = .before) := by
    refine Discipline.Flow.perform fun x c w hx _ => ?_
    subst hx
    have ha := claim_answer (e := e) (c := c) (w := w)
    rw [show machine.exec = World.exec from rfl]
    cases hr : (World.exec (.webhook (.claim e)) c w).1 with
    | ok n => rw [hr] at ha; exact ⟨_, .won _ c w (.inl rfl) ha, rfl⟩
    | error err => rw [hr] at ha; exact ⟨_, .lost _ c w (.inl rfl) ha, rfl⟩
  have hsteal (before : Time) :
      TurnFlow e .before (Prog.perform (.webhook (.steal e before)) : Act Nat)
        (fun n x => x = if 0 < n then .inside else .before) (· = .before) := by
    refine Discipline.Flow.perform fun x c w hx _ => ?_
    subst hx
    have ha := steal_answer (e := e) (c := c) (w := w) before
    rw [show machine.exec = World.exec from rfl]
    cases hr : (World.exec (.webhook (.steal e before)) c w).1 with
    | error err => rw [hr] at ha; exact ⟨_, .lost _ c w (.inr ⟨before, rfl⟩) ha, rfl⟩
    | ok n =>
      rw [hr] at ha
      cases n with
      | zero => exact ⟨_, .lost _ c w (.inr ⟨before, rfl⟩) ha, rfl⟩
      | succ n => exact ⟨_, .won _ c w (.inr ⟨before, rfl⟩) ha, rfl⟩
  refine hclaim.attempt.seq fun r => ?_
  rcases r with err | n
  · have herr : TurnFlow e .before (throw err : Act Bool)
        (fun b x => x = if b then .inside else .before) (· = .before) := .throw fun _ hx => hx
    cases err with
    | unique =>
      refine (flow_handler only_readClock _).seq fun now => (hsteal _).seq fun n => ?_
      exact .pure fun x hx => by simpa using hx
    | _ => exact herr
  · exact .pure fun x hx => by simpa [Discipline.onAnswer] using hx

/-- A delivery ends before it has the claim, or after it gave it up. -/
theorem flow_delivers {p : Act Unit} (h : Delivers e p) :
    TurnFlow e .before p (fun _ => (· ≠ .inside)) (· ≠ .inside) := by
  obtain ⟨handler, rfl, hh⟩ := h
  have hfinish (u : WebhookStmt) (hu : u = .complete e ∨ u = .release e) :
      TurnFlow e .inside (quietly (perform (.webhook u))) (fun _ => (· = .after)) (· = .after) := by
    refine Discipline.Flow.quietly (Discipline.Flow.perform fun x c w hx _ => ?_)
    subst hx
    refine ⟨_, .finished u c w hu, ?_⟩
    cases (machine.exec (.webhook u) c w).1 <;> rfl
  refine (flow_claimEvent.post (fun _ _ hx => hx) fun _ _ hx => by rw [hx]; decide).seq
    fun claimed => ?_
  cases claimed with
  | false => exact .pure fun x hx => by rw [hx]; decide
  | true =>
    refine (Discipline.Flow.attempt (flow_handler hh .inside)).seq fun outcome => ?_
    rcases outcome with err | u
    · refine (((hfinish _ (.inr rfl)).post (fun _ _ hx => hx) fun _ _ hx => by rw [hx]; decide).seq
        fun _ => .throw fun x hx => by rw [hx]; decide)
    · exact (hfinish _ (.inl rfl)).post (fun _ _ hx => by rw [hx]; decide)
        fun _ _ hx => by rw [hx]; decide

/-- An event is completed only by what follows a run of its handler that succeeded. -/
theorem completes_at_end {p : Act Unit} (h : Delivers e p) :
    p.IssuesAt (.webhook (.complete e)) (finishWebhook e (.ok ())) := by
  obtain ⟨handler, rfl, hh⟩ := h
  have hclaim : (claimWebhookEvent e).Only (· ≠ .webhook (.complete e)) :=
    only_claimWebhookEvent (by simp) fun _ => by simp
  refine issuesAt_bind hclaim fun claimed => ?_
  cases claimed with
  | false => exact issuesAt_only (only_pure _)
  | true =>
    have hrun : handler.attempt.Only (· ≠ .webhook (.complete e)) :=
      (hh.mono fun s hs he => by
        rw [he] at hs; simp [Stmt.claimsEvent, WebhookStmt.event] at hs).attempt
    refine issuesAt_bind hrun fun outcome => ?_
    rcases outcome with err | u
    · refine issuesAt_only (Only.seq (Only.quietly ((only_perform _).mpr (by simp))) fun _ => ?_)
      exact only_throw _
    · refine ⟨fun _ => rfl, fun r => ?_⟩
      cases r <;> exact fun h => by cases h

end Flows

/-- The invariant of the claim on an event. -/
structure DeliveriesKept (e : StripeEventId) (Φ : Nat → Turn) (x : World × DeliveryLog) :
    Prop where
  held : x.2.holder.isSome ↔ x.1.webhookClaimed e
  stamped : ∀ r, x.1.webhooks.get e = some r → r.claimedAt.isSome
  finished : x.1.webhookProcessed e → x.2.completed
  inside : ∀ t, Φ t = .inside → x.2.holder = some t ∨ x.2.robbed t
  holder : ∀ t, x.2.holder = some t → Φ t ≠ .before
  robbed : ∀ t, x.2.robbed t → Φ t ≠ .before ∧ x.2.holder ≠ some t

section Moves

variable {e : StripeEventId} {Φ : Nat → Turn} {w w' : World} {h : DeliveryLog} {t : Nat} {ph : Turn}
  {l : Label Site Stmt} {c : Fate}

/-- A turn that is no longer before the claim. -/
theorem update_started {u : Nat} (hu : Φ u ≠ .before) (hp : ph ≠ .before) :
    Function.update Φ t ph u ≠ .before := by
  by_cases hut : u = t
  · subst hut; rwa [Function.update_self]
  · rwa [Function.update_of_ne hut]

/-- Nothing happened to the row, and no thread came inside. -/
theorem DeliveriesKept.same (hI : DeliveriesKept e Φ (w, h))
    (hrow : w'.webhooks.get e = w.webhooks.get e)
    (hp : ph = Φ t ∨ ph = .after) : DeliveriesKept e (Function.update Φ t ph) (w', h) where
  held := by rw [World.webhookClaimed, hrow]; exact hI.held
  stamped r hr := hI.stamped r (hrow ▸ hr)
  finished hpr := hI.finished (by rw [World.webhookProcessed, hrow] at hpr; exact hpr)
  inside u hu := by
    by_cases hut : u = t
    · subst hut
      rw [Function.update_self] at hu
      rcases hp with hp | hp
      · exact hI.inside u (hp ▸ hu)
      · rw [hp] at hu; cases hu
    · rw [Function.update_of_ne hut] at hu
      exact hI.inside u hu
  holder u hu := by
    rcases hp with hp | hp
    · rw [hp, Function.update_eq_self]; exact hI.holder u hu
    · exact update_started (hI.holder u hu) (by rw [hp]; decide)
  robbed u hu := by
    refine ⟨?_, (hI.robbed u hu).2⟩
    rcases hp with hp | hp
    · rw [hp, Function.update_eq_self]; exact (hI.robbed u hu).1
    · exact update_started (hI.robbed u hu).1 (by rw [hp]; decide)

/-- A thread wins the claim, taking it from its holder if there is one. -/
theorem DeliveriesKept.won (hI : DeliveriesKept e Φ (w, h)) (ht : Φ t = .before) {n : Nat}
    {now : Time} (hrow : w'.webhooks.get e = some ⟨.claimed, some now, n⟩) (robbed : Nat → Bool)
    (hrob : ∀ u, robbed u ↔ h.robbed u ∨ h.holder = some u) :
    DeliveriesKept e (Function.update Φ t .inside)
      (w', { h with holder := some t, robbed := robbed }) where
  held := by simp [World.webhookClaimed, hrow]
  stamped r hr := by rw [hrow] at hr; cases hr; rfl
  finished hpr := by simp [World.webhookProcessed, hrow] at hpr
  inside u hu := by
    by_cases hut : u = t
    · exact .inl (by rw [hut])
    · rw [Function.update_of_ne hut] at hu
      exact .inr ((hrob u).mpr ((hI.inside u hu).symm))
  holder u hu := by
    cases hu
    rw [Function.update_self]
    decide
  robbed u hu := by
    have hstarted : Φ u ≠ .before := by
      rcases (hrob u).mp hu with hu | hu
      · exact (hI.robbed u hu).1
      · exact hI.holder u hu
    refine ⟨update_started hstarted (by decide), fun he => ?_⟩
    cases he
    exact hstarted ht

/-- The holder of the claim gives it up. -/
theorem DeliveriesKept.gaveUp (hI : DeliveriesKept e Φ (w, h)) (ht : h.holder = some t)
    {completed : Bool} (hclaimed : w'.webhookClaimed e = false)
    (hstamped : ∀ r, w'.webhooks.get e = some r → r.claimedAt.isSome)
    (hfinished : w'.webhookProcessed e → completed) :
    DeliveriesKept e (Function.update Φ t .after)
      (w', { h with holder := none, completed := completed }) where
  held := by simp [hclaimed]
  stamped := hstamped
  finished := hfinished
  inside u hu := by
    by_cases hut : u = t
    · subst hut; rw [Function.update_self] at hu; cases hu
    · rw [Function.update_of_ne hut] at hu
      rcases hI.inside u hu with hu | hu
      · exact absurd (Option.some.inj (hu.symm.trans ht)) hut
      · exact .inr hu
  holder u hu := by cases hu
  robbed u hu := ⟨update_started (hI.robbed u hu).1 (by decide), by simp⟩

/-- A thread that ends its run in time holds the claim. -/
theorem ends_as_holder (hI : DeliveriesKept e Φ (w, h)) (hm : TurnMove e (Φ t) l c w ph)
    (hl : finishes e l) (hC : endsInTime e t l c (w, h)) (hclaimed : w.webhookClaimed e) :
    ph = .after ∧ h.holder = some t := by
  have hrob : h.robbed t = false := by
    simpa [endsInTime, hl, hclaimed] using hC
  have hin : ph = .after ∧ Φ t = .inside := by
    generalize Φ t = ph₀ at hm
    cases hm with
    | read => cases hl
    | other _ s _ _ hs =>
      cases s with
      | webhook u =>
        cases u with
        | complete id => simp_all [finishes, Stmt.claimsEvent, WebhookStmt.event]
        | release id => simp_all [finishes, Stmt.claimsEvent, WebhookStmt.event]
        | _ => cases hl
      | _ => cases hl
    | won u _ _ hu => rcases hu with rfl | ⟨_, rfl⟩ <;> cases hl
    | lost u _ _ hu => rcases hu with rfl | ⟨_, rfl⟩ <;> cases hl
    | finished u _ _ hu => exact ⟨rfl, rfl⟩
  rcases hI.inside t hin.2 with hh | hh
  · exact ⟨hin.1, hh⟩
  · rw [hrob] at hh; cases hh

/-- A thread that wins the claim comes from before it. -/
theorem wins_from_before {u : WebhookStmt} (hu : u = .claim e ∨ ∃ before, u = .steal e before)
    (hm : TurnMove e (Φ t) (.call (.webhook u)) c w ph)
    (hrow : (World.exec (.webhook u) c w).2.webhooks.get e ≠ w.webhooks.get e) :
    ph = .inside ∧ Φ t = .before := by
  generalize Φ t = ph₀ at hm
  cases hm with
  | other _ s _ _ hs =>
    rcases hu with rfl | ⟨_, rfl⟩ <;> simp [Stmt.claimsEvent, WebhookStmt.event] at hs
  | won => exact ⟨rfl, rfl⟩
  | lost _ _ _ _ hsame => exact absurd hsame hrow
  | finished _ _ _ hf => rcases hu with rfl | ⟨_, rfl⟩ <;> rcases hf with hf | hf <;> cases hf

/-- Where the row stays as it is, the thread stays in its turn, or ends its run. -/
theorem turn_same (hm : TurnMove e (Φ t) l c w ph)
    (hrow : (machine.after l c w).webhooks.get e = w.webhooks.get e) : ph = Φ t ∨ ph = .after := by
  generalize Φ t = ph₀ at hm
  cases hm with
  | won _ _ _ _ hne => exact absurd hrow hne
  | finished => exact .inr rfl
  | _ => exact .inl rfl

theorem rob_iff (h : DeliveryLog) (u : Nat) : h.rob u ↔ h.robbed u ∨ h.holder = some u := by
  unfold DeliveryLog.rob
  cases hh : h.holder with
  | none => simp
  | some v =>
    by_cases huv : u = v
    · subst huv; simp
    · simp [Function.update_of_ne huv, Ne.symm huv]

theorem deliveries_move (hI : DeliveriesKept e Φ (w, h)) (hm : TurnMove e (Φ t) l c w ph)
    (hC : endsInTime e t l c (w, h)) : DeliveriesKept e (Function.update Φ t ph)
      (machine.after l c w, recordDeliveries e t l w (machine.after l c w) h) := by
  by_cases hsame : (machine.after l c w).webhooks.get e = w.webhooks.get e
  · rw [show recordDeliveries e t l w (machine.after l c w) h = h from if_pos hsame]
    exact hI.same hsame (turn_same hm hsame)
  cases l with
  | ask site => exact absurd rfl hsame
  | call s =>
    have heff := exec_webhook (e := e) (s := s) (c := c) (w := w)
    rw [Machine.after_call, show machine.exec = World.exec from rfl] at hsame ⊢
    have hne := hsame
    generalize hr : w.webhooks.get e = row at heff hne
    generalize hr' : (World.exec s c w).2.webhooks.get e = row' at heff hne
    cases heff with
    | same => exact absurd rfl hne
    | claimed stmt =>
      subst stmt
      obtain ⟨rfl, ht⟩ := wins_from_before (.inl rfl) hm hsame
      simp only [recordDeliveries, if_neg hsame]
      have hnone : h.holder = none := by
        have hheld := hI.held
        simp only [World.webhookClaimed, hr, Option.any_none] at hheld
        simpa using hheld
      exact hI.won ht hr' h.robbed fun u => by simp [hnone]
    | stolen r before stmt held =>
      subst stmt
      obtain ⟨rfl, ht⟩ := wins_from_before (.inr ⟨before, rfl⟩) hm hsame
      simp only [recordDeliveries, if_neg hsame]
      exact hI.won ht hr' h.rob (rob_iff h)
    | completed r stmt held =>
      subst stmt
      have hclaimed : w.webhookClaimed e := by simp [World.webhookClaimed, hr, held]
      obtain ⟨rfl, ht⟩ := ends_as_holder hI hm (by simp [finishes]) hC hclaimed
      simp only [recordDeliveries, if_neg hsame]
      refine hI.gaveUp ht (by simp [World.webhookClaimed, hr']) (fun q hq => ?_)
        fun _ => by simp [ht]
      rw [hr'] at hq
      cases hq
      exact hI.stamped r hr
    | released r stmt held =>
      subst stmt
      have hclaimed : w.webhookClaimed e := by simp [World.webhookClaimed, hr, held]
      obtain ⟨rfl, ht⟩ := ends_as_holder hI hm (by simp [finishes]) hC hclaimed
      simp only [recordDeliveries, if_neg hsame]
      refine hI.gaveUp ht (by simp [World.webhookClaimed, hr']) (fun q hq => ?_) fun hq => ?_
      · rw [hr'] at hq; cases hq
      · simp [World.webhookProcessed, hr'] at hq

/-- What one step means for the claim. -/
theorem claimRespected_step {p : Act Unit} (hI : DeliveriesKept e Φ (w, h))
    (hm : TurnMove e (Φ t) l c w ph) (hC : endsInTime e t l c (w, h))
    (hp : p.IssuesAt (.webhook (.complete e)) (finishWebhook e (.ok ()))) (hl : p.label = some l)
    {h' : DeliveryLog} : ClaimRespected e t p l (w, h) (machine.after l c w, h') where
  processed hno hyes := by
    cases l with
    | ask site => rw [Machine.after_ask] at hyes; exact absurd hyes (by rw [hno]; decide)
    | call s =>
      have heff := exec_webhook (e := e) (s := s) (c := c) (w := w)
      rw [Machine.after_call, show machine.exec = World.exec from rfl] at hyes
      simp only [World.webhookProcessed] at hno hyes
      generalize hr : w.webhooks.get e = row at heff hno
      generalize hr' : (World.exec s c w).2.webhooks.get e = row' at heff hyes
      cases heff with
      | same => exact absurd hyes (by rw [hno]; decide)
      | claimed => cases hyes
      | stolen => cases hyes
      | released => cases hyes
      | completed r stmt held =>
        subst stmt
        have hclaimed : w.webhookClaimed e := by simp [World.webhookClaimed, hr, held]
        exact ⟨hp.here hl, (ends_as_holder hI hm (by simp [finishes]) hC hclaimed).2⟩
  stolen hrob hfin := by
    have hfree : w.webhookClaimed e = false := by
      simpa [endsInTime, hfin, show h.robbed t = true from hrob] using hC
    cases l with
    | ask site => rfl
    | call s =>
      have heff := exec_webhook (e := e) (s := s) (c := c) (w := w)
      rw [Machine.after_call, show machine.exec = World.exec from rfl]
      simp only [World.webhookClaimed] at hfree
      generalize w.webhooks.get e = row at heff hfree
      generalize (World.exec s c w).2.webhooks.get e = row' at heff
      cases heff with
      | same => rfl
      | claimed stmt => subst stmt; cases hfin
      | stolen r before stmt => subst stmt; cases hfin
      | completed r stmt held => simp [held] at hfree
      | released r stmt held => simp [held] at hfree

/-- A delivery claims an event never heard of. -/
theorem claims_free (hr : w.webhooks.get e = none) : Triple machine answering (· = w)
    (claimWebhookEvent e) (fun b _ => b = true) fun _ _ => False := by
  have hclaim : Triple machine answering (· = w) (perform (.webhook (.claim e)))
      (fun _ _ => True) fun _ _ => False := by
    refine Triple.perform fun c v hv hc => ?_
    subst hv hc
    simp [machine, World.exec, World.write, World.writeWebhook, hr, Discipline.onAnswer]
  refine (Discipline.Flow.attempt hclaim).seq fun r => ?_
  cases r with
  | error err => exact Triple.unreached
  | ok n => exact Triple.pure fun _ _ => rfl

/-- A delivery steals a claim that is stale. -/
theorem claims_stale {r : StripeWebhookEvent} {at_ : Time} (hr : w.webhooks.get e = some r)
    (hs : r.status = .claimed) (hat : r.claimedAt = some at_)
    (hstale : at_ < w.now - webhookClaimStaleMs) : Triple machine answering (· = w)
      (claimWebhookEvent e) (fun b _ => b = true) fun _ _ => False := by
  have hclaim : Triple machine answering (· = w) (perform (.webhook (.claim e)))
      (fun _ _ => False) fun err v => v = w ∧ err = .unique := by
    refine Triple.perform fun c v hv hc => ?_
    subst hv hc
    simp [machine, World.exec, World.write, World.writeWebhook, hr, Discipline.onAnswer]
  have hsteal (before : Time) (hb : at_ < before) : Triple machine answering (· = w)
      (perform (.webhook (.steal e before))) (fun n _ => 0 < n) fun _ _ => False := by
    refine Triple.perform fun c v hv hc => ?_
    subst hv hc
    simp [machine, World.exec, World.write, World.writeWebhook, hr, hs, hat, hb,
      Discipline.onAnswer]
  refine (Discipline.Flow.attempt hclaim).seq fun r => ?_
  cases r with
  | ok n => exact Triple.unreached
  | error err =>
    refine Triple.fact fun herr => ?_
    subst herr
    refine answered_read ((hsteal _ hstale).seq fun n => ?_)
    exact Triple.pure fun _ hn => by simpa using hn

/-- An event that is not processed can be claimed once the claim on it is stale. -/
theorem claimable_of_kept (hI : DeliveriesKept e Φ (w, h)) (hno : h.completed = false) :
    w.claimable e := by
  have hprocessed : w.webhookProcessed e = false := by
    by_contra hp
    rw [hI.finished (by simpa using hp)] at hno
    cases hno
  have hanswer : ∃ later, Triple machine answering (· = { w with now := w.now + later })
      (claimWebhookEvent e) (fun b _ => b = true) fun _ _ => False := by
    cases hr : w.webhooks.get e with
    | none => exact ⟨0, claims_free (by simpa using hr)⟩
    | some r =>
      obtain ⟨at_, hat⟩ := Option.isSome_iff_exists.mp (hI.stamped r hr)
      have hs : r.status = .claimed := by
        cases hs : r.status with
        | claimed => rfl
        | processed => simp [World.webhookProcessed, hr, hs] at hprocessed
      refine ⟨at_ + webhookClaimStaleMs + 1, claims_stale (by simpa using hr) hs hat ?_⟩
      have hlater (a k n : Nat) : a < n + (a + k + 1) - k := by omega
      exact hlater _ _ _
  obtain ⟨later, htriple⟩ := hanswer
  have hrun := htriple.alone rfl
  refine ⟨later, ?_⟩
  revert hrun
  cases ((claimWebhookEvent e).alone machine .ok { w with now := w.now + later }).1 with
  | ok b => rintro rfl; rfl
  | error err => exact False.elim

end Moves

section Runs

variable {e : StripeEventId}

theorem deliveriesKept : (turnDiscipline e).Invariant machine (recordDeliveries e) (endsInTime e)
    (DeliveriesKept e) where
  view _ _ _ _ := trivial
  move Φ x t l c ph h hC hm := deliveries_move h hm hC
  env Φ x c h := by
    obtain ⟨now, he⟩ := World.tick_eq c x.1
    rw [show machine.env = World.tick from rfl, he]
    exact ⟨h.held, h.stamped, h.finished, h.inside, h.holder, h.robbed⟩

theorem deliveriesKept_start {w : World} {ds : List (Act Unit)} (hw : w.webhooks.get e = none)
    (hds : ∀ p ∈ ds, Delivers e p) : (turnDiscipline e).Kept machine (DeliveriesKept e)
      (· ≠ .inside) (fun _ => .before) ⟨w, .empty, ds⟩ where
  inv := by
    refine ⟨?_, fun r hr => ?_, fun hp => ?_, fun _ h => (by cases h), fun _ h => (by cases h),
      fun _ h => (by cases h)⟩
    · simp [DeliveryLog.empty, World.webhookClaimed, hw]
    · rw [show w.webhooks.get e = some r from hr] at hw; cases hw
    · simp [World.webhookProcessed, hw] at hp
  threads t p hp := flow_delivers (hds p (List.mem_of_getElem? hp)) _ rfl
  absent _ _ := by decide

/-- Claims are exclusive where runs end before their claims are stolen. -/
theorem webhook_claims (w : World) (e : StripeEventId) (ds : List (Act Unit))
    (g : Run DeliveryLog) (hw : w.webhooks.get e = none) (hds : ∀ p ∈ ds, Delivers e p)
    (hreach : Pool.Reach machine (recordDeliveries e) (endsInTime e) ⟨w, .empty, ds⟩ g) :
    (g.hist.completed = false → g.state.claimable e) ∧
    ∀ t c g' p l, g.Meets (endsInTime e) (.run t c) →
      Pool.step machine (recordDeliveries e) (.run t c) g = some g' → g.threads[t]? = some p →
      p.label = some l → ClaimRespected e t p l g.snapshot g'.snapshot := by
  obtain ⟨Φ, hk⟩ := Discipline.kept_of_reach deliveriesKept (deliveriesKept_start hw hds) hreach
  refine ⟨fun hno => claimable_of_kept hk.inv hno, fun t c g' p l hm hs hp hl => ?_⟩
  obtain ⟨q, l', q', ph, hq, hl', hmove, _, _, hsnap⟩ := hk.move deliveriesKept hs
  cases hp.symm.trans hq
  cases hl.symm.trans hl'
  rw [hsnap]
  have hissues := hreach.every (fun u p hp => completes_at_end (hds p (List.mem_of_getElem? hp)))
    t p hp
  exact claimRespected_step hk.inv hmove (Pool.meets_run hm hp hl) hissues hl

end Runs

section Handlers

/-- A statement outside the webhook layer. -/
abbrev Stmt.outside (s : Stmt) : Prop := s.touchesWebhooks = false

theorem outside_promote {o : OrderId} {s : Stmt} (h : PromoteStmt o s) : s.outside := by
  cases h <;> rfl

theorem outside_dispatch {o : OrderId} {s : Stmt} (h : DispatchStmt o s) : s.outside := by
  cases h <;> rfl

theorem outside_settle {s : Stmt} (h : SettleStmt s) : s.outside := by
  cases h with
  | promote h => exact outside_promote h
  | _ => rfl

theorem outside_supersede {s : Stmt} (h : SupersedeStmt s) : s.outside := by
  cases h <;> rfl

theorem outside_start {s : Stmt} (h : StartStmt s) : s.outside := by
  cases h with
  | dispatch h => exact outside_dispatch h
  | _ => rfl

theorem outside_abandon {o : OrderId} {s : Stmt} (h : AbandonStmt o s) : s.outside := by
  cases h with
  | promote h => exact outside_promote h
  | dispatch h => exact outside_dispatch h
  | _ => rfl

variable (k : PaymentId) (o : OrderId)

theorem outside_transition (target : OrderStatus) (actor : Actor) :
    (transition o target actor).Only Stmt.outside :=
  only_transition o target actor (fun _ _ => rfl) (fun _ => rfl) fun _ => rfl

theorem outside_releaseSupersededHold : (releaseSupersededHold k o).Only Stmt.outside :=
  (only_releaseSupersededHold o k).mono fun _ => outside_supersede

theorem outside_completeSale (counterId : CounterOfferId) (counter : OrderCounterOffer)
    (now : Time) : (completeSale o counterId counter now).Only Stmt.outside := by
  refine Only.seq (only_issue rfl) fun _ => Only.seq (only_note _ _ _ fun _ => rfl) fun _ => ?_
  refine Only.seq ((only_settleCounterOffersOnAssignment o _).mono fun _ => outside_settle)
    fun _ => ?_
  exact outside_transition o _ _

theorem outside_abortSale (counter : OrderCounterOffer) :
    (abortSale k o counter).Only Stmt.outside :=
  Only.seq (only_issue rfl) fun _ => Only.seq (outside_releaseSupersededHold k o) fun _ =>
    only_note _ _ _ fun _ => rfl

theorem outside_claimSale (counterId : CounterOfferId) (counter : OrderCounterOffer)
    (now : Time) : (claimSale k o counterId counter now).Only Stmt.outside := by
  refine Only.seq ((only_perform _).mpr rfl) fun claimed => ?_
  refine Only.ite (fun _ => outside_releaseSupersededHold k o) fun _ => ?_
  refine Only.seq ((only_releaseReplacedHold o k).mono fun _ => outside_supersede) fun _ => ?_
  refine Only.seq (Only.quietly ((only_perform _).mpr rfl)) fun _ => ?_
  refine Only.seq ((only_captureOrderPayment o none).mono fun s hs => by cases hs <;> rfl)
    fun outcome => ?_
  cases outcome with
  | captured => exact outside_completeSale o counterId counter now
  | alreadyCaptured => exact outside_completeSale o counterId counter now
  | retryable _ => exact outside_abortSale k o counter
  | fatal _ => exact outside_abortSale k o counter

theorem outside_withdrawBusy (counterId : CounterOfferId) (counter : OrderCounterOffer)
    (now : Time) : (withdrawBusyCounterOffer k o counterId counter now).Only Stmt.outside := by
  refine Only.seq (outside_releaseSupersededHold k o) fun _ => Only.seq (only_issue rfl) fun _ => ?_
  refine Only.seq (only_note _ _ _ fun _ => rfl) fun _ => ?_
  refine Only.seq ((only_promoteQuietly o).mono fun _ => outside_promote) fun _ => ?_
  exact Only.seq ((only_dispatch o).mono fun _ => outside_dispatch) fun _ => only_pure _

theorem outside_finalize : (finalizeCounterOfferPayment k o).Only Stmt.outside := by
  refine Only.seq (only_fetch _ _) fun found => ?_
  split
  next => exact only_pure _
  next p =>
    refine Only.seq (only_fetch _ _) fun counter => Only.seq (only_fetch _ _) fun order => ?_
    split
    next counterId counter order =>
      have hlate := outside_releaseSupersededHold k o
      refine Only.ite (fun _ => hlate) fun _ => Only.ite (fun _ => hlate) fun _ => ?_
      refine Only.seq only_readClock fun now => Only.seq (only_fetch _ _) fun busy => ?_
      exact Only.ite (fun _ => outside_withdrawBusy k o counterId counter now)
        fun _ => outside_claimSale k o counterId counter now
    next => exact only_pure _

theorem outside_cancelOrderPayment (id : Option OrderId) :
    (cancelOrderPayment k id).Only Stmt.outside := by
  refine Only.seq ((only_perform _).mpr rfl) fun updated =>
    Only.ite (fun _ => only_pure _) fun _ => ?_
  cases id with
  | none => exact only_pure _
  | some o =>
    refine Only.seq (only_fetch _ _) fun found => ?_
    split
    next => exact only_pure _
    next => exact outside_transition o _ _

theorem outside_abandonIfCounterOffer (intent : IntentMetadata) (canceled : Bool) :
    (abandonIfCounterOffer intent canceled).Only Stmt.outside := by
  unfold abandonIfCounterOffer
  split
  next o _ => exact (only_abandonCounterOfferPayment _ canceled).mono fun _ => outside_abandon
  next => exact only_pure _

/-- No handler touches the webhook layer. -/
theorem outside_processWebhook (kind : StripeEventKind) :
    (processWebhook kind).Only Stmt.outside := by
  cases kind with
  | amountCapturableUpdated intent =>
    simp only [processWebhook]
    split
    next => exact (only_authorizeOrderPayment _ _).mono fun _ => outside_start
    next => exact outside_finalize _ _
    next => exact only_pure _
  | succeeded intent =>
    simp only [processWebhook]
    split
    next => exact (only_settleOrderPayment _ _).mono fun _ => outside_start
    next => exact only_pure _
  | canceled intent =>
    simp only [processWebhook]
    split
    next => exact outside_cancelOrderPayment _ _
    next => exact outside_abandonIfCounterOffer _ _
  | paymentFailed intent =>
    simp only [processWebhook]
    split
    next => exact Only.quietly ((only_perform _).mpr rfl)
    next => exact outside_abandonIfCounterOffer _ _
  | chargeRefunded intent =>
    cases intent with
    | none => exact only_pure _
    | some n =>
      refine Only.seq (only_fetch _ _) fun found => ?_
      split
      next => exact only_pure _
      next =>
        exact (only_markPaymentRefunded 0 _ .admin 0 none).mono fun s hs => by cases hs.1 <;> rfl
  | transferCreated transfer =>
    refine Only.seq (only_fetch _ _) fun found => ?_
    split
    next => exact only_pure _
    next => exact Only.when fun _ => Only.quietly ((only_perform _).mpr rfl)
  | transferFailed transfer =>
    refine Only.seq (only_fetch _ _) fun found => ?_
    split
    next => exact only_pure _
    next =>
      exact (only_parkPayoutForFailedTransfer _).mono fun s hs => by cases hs <;> rfl
  | other => exact only_pure _

/-- Every delivery of an event to the service is one. -/
theorem delivers_handleWebhook (e : StripeEventId) (kind : StripeEventKind) :
    Delivers e (Op.handleWebhook e kind).prog := by
  refine ⟨processWebhook kind, rfl, (outside_processWebhook kind).mono fun s hs => ?_⟩
  cases s with
  | webhook u => cases hs
  | _ => rfl

end Handlers

section Steal

/-- The card of the order payment was declined. -/
def declinedEvent : StripeEventKind := .paymentFailed ⟨.order, some 1, some 5⟩

def twoDeliveries : Run DeliveryLog :=
  launch searchWorld .empty [.handleWebhook 3 declinedEvent, .handleWebhook 3 declinedEvent]

/-- Whether the event is processed, and who holds its claim. -/
def claimHeld (g : Run DeliveryLog) : Bool × Option Nat :=
  (g.state.webhookProcessed 3, g.hist.holder)

theorem twoDeliveries_deliver : ∀ p ∈ twoDeliveries.threads, Delivers 3 p := by
  intro p hp
  obtain ⟨t, ht⟩ := List.mem_iff_getElem?.mp hp
  obtain ⟨op, hop, rfl⟩ := launch_thread ht
  have hone : op = .handleWebhook 3 declinedEvent := by simpa using hop
  exact hone ▸ delivers_handleWebhook 3 declinedEvent

/-- The first delivery runs past the timeout, the second steals the claim, and the first one
completes it. -/
theorem completes_stolen_claim : ¬ WebhookClaims fun _ => anyStep := by
  intro hlaw
  have hrun : Pool.observe machine (recordDeliveries 3) anyStep claimHeld
      ([.run 0 .ok, .env (.elapse 300001)] ++ goes 1 3 ++ goes 0 1) (.run 0 .ok) twoDeliveries =
      some ((false, some 1), (true, none)) := by decide +kernel
  obtain ⟨g, g', hg, hm, hs, hbefore, hafter⟩ := Pool.observe_eq hrun
  obtain ⟨hopen, hholder⟩ := Prod.mk.inj hbefore
  obtain ⟨p, l, w, p', hp, hst, -⟩ := Pool.step_run_eq hs
  have hstep := (hlaw searchWorld 3 _ g rfl twoDeliveries_deliver hg).2 0 .ok g' p l hm hs hp
    (Pool.label_of_step hst)
  have hown := (hstep.processed hopen (Prod.mk.inj hafter).1).2
  rw [show g.snapshot.2.holder = some 1 from hholder] at hown
  cases hown

/-- A delivery that is not disturbed completes its own claim. -/
theorem webhook_claims_undisturbed : ∃ (g g' : Run DeliveryLog) (p : Act Unit),
    g'.state.webhookProcessed 3 ∧ g.threads[0]? = some p ∧
      p = finishWebhook 3 (.ok ()) ∧ g.hist.holder = some 0 := by
  have hrun : Pool.observe machine (recordDeliveries 3) (endsInTime 3) claimHeld (goes 0 2)
      (.run 0 .ok) twoDeliveries = some ((false, some 0), (true, none)) := by decide +kernel
  obtain ⟨g, g', hg, hm, hs, hbefore, hafter⟩ := Pool.observe_eq hrun
  obtain ⟨p, l, w, p', hp, hst, -⟩ := Pool.step_run_eq hs
  have hstep := (webhook_claims searchWorld 3 _ g rfl twoDeliveries_deliver hg).2 0 .ok g' p l hm
    hs hp (Pool.label_of_step hst)
  have hdone : g'.state.webhookProcessed 3 := (Prod.mk.inj hafter).1
  exact ⟨g, g', p, hdone, hp, hstep.processed (Prod.mk.inj hbefore).1 hdone⟩

end Steal

end CarSalePro
