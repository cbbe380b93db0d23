import CarSalePro.Orders.Effects

namespace CarSalePro

open Store Interleave Prog OrderStatus

/-- The owner of the car of order `o` has been reached. -/
def World.OwnerReached (o : OrderId) (w : World) : Prop :=
  ∃ r, w.orders.get o = some r ∧ r.ownerContactConfirmedAt.isSome

/-- The order is assigned, and its inspector has still to reach the owner. -/
def Order.ownerPending (r : Order) : Bool := r.status = assigned && r.ownerContactConfirmedAt.isNone

/-- The statement that starts the trip. -/
def Stmt.startsTrip : Stmt → Bool
  | .order (.transition _ _ enRoute _) => true
  | _ => false

/-- What a thread may do about trips: nothing, check first that the owner of an order has been
reached, start its trip once the read at `site` has found that, or start it. A thread whose read
found the owner pending is lost. -/
inductive Errand where
  | none
  | checks (order : OrderId)
  | awaits (site : Site) (order : OrderId)
  | reached (order : OrderId)
  | lost

inductive Errand.Moves : Errand → Label Site Stmt → Fate → World → Errand → Prop
  | look {ph : Errand} {site : Site} {c : Fate} {w : World} : Moves ph (.ask site) c w ph
  | pass {o : OrderId} {c : Fate} {w : World} (h : w.OwnerReached o) :
      Moves (.checks o) (.ask .requireOrder) c w (.reached o)
  | early {o : OrderId} {c : Fate} {w : World}
      (h : ∀ r, w.orders.get o = some r → r.status ≠ assigned) :
      Moves (.checks o) (.ask .requireOrder) c w (.awaits .transition o)
  | learn {site : Site} {o : OrderId} {c : Fate} {w : World} (h : w.OwnerReached o) :
      Moves (.awaits site o) (.ask site) c w (.reached o)
  | miss {site : Site} {o : OrderId} {r : Order} {c : Fate} {w : World}
      (h : w.orders.get o = some r) (hpending : r.ownerPending) :
      Moves (.awaits site o) (.ask site) c w .lost
  | plain {ph : Errand} {s : Stmt} {c : Fate} {w : World} (h : s.startsTrip = false) :
      Moves ph (.call s) c w ph
  | start {o : OrderId} {source : OrderStatus} {legal : canTransition source enRoute} {c : Fate}
      {w : World} :
      Moves (.reached o) (.call (.order (.transition o source enRoute legal))) c w (.reached o)

def Errand.view : Errand → World → Prop
  | reached o, w => w.OwnerReached o
  | lost, _ => False
  | _, _ => True

/-- No trip before the owner was reached. -/
def tripping : Discipline Site Stmt World Fate Errand where
  view := Errand.view
  moves := Errand.Moves

/-- A program that goes through the phases of `A`, wherever it ends. -/
abbrev Trips {α : Type} (A : Errand → Prop) (p : Act α) (B : α → Errand → Prop) : Prop :=
  tripping.Flow machine A p B fun _ _ => True

section Reached

variable {s : Stmt} {c : Fate} {w : World} {o : OrderId} {r r' : Order}

/-- Once the owner has been reached, that stands. -/
theorem ownerReached_exec (h : w.OwnerReached o) : (World.exec s c w).2.OwnerReached o := by
  obtain ⟨r, hr, hreached⟩ := h
  obtain ⟨r', hr', heff⟩ := World.exec_order (s := s) (c := c) hr
  refine ⟨r', hr', ?_⟩
  cases heff with
  | same => exact hreached
  | sale counter price at_ stmt => exact hreached
  | write u stmt row rewrite =>
    cases u with
    | confirmOwnerContact id inspector at_ =>
      simp only [OrderStmt.rewrite] at rewrite
      split at rewrite
      · cases rewrite
        rfl
      · cases rewrite
    | claim id statuses inspector =>
      simp only [OrderStmt.rewrite] at rewrite
      split at rewrite
      · cases rewrite
        exact hreached
      · cases rewrite
    | releaseClaim id inspector =>
      simp only [OrderStmt.rewrite] at rewrite
      split at rewrite
      · cases rewrite
        exact hreached
      · cases rewrite
    | cancelWhere id guard =>
      simp only [OrderStmt.rewrite] at rewrite
      split at rewrite
      · cases rewrite
        exact hreached
      · cases rewrite
    | raiseRound id now =>
      simp only [OrderStmt.rewrite] at rewrite
      split at rewrite
      · cases rewrite
        exact hreached
      · cases rewrite
    | _ =>
      cases rewrite
      exact hreached

/-- Only one statement makes an assigned order one that is under way. -/
theorem startsTrip_of_enRoute (hr : w.orders.get o = some r)
    (hr' : (World.exec s c w).2.orders.get o = some r') (hbefore : r.status ≠ enRoute)
    (hafter : r'.status = enRoute) :
    ∃ source legal, s = .order (.transition o source enRoute legal) := by
  obtain ⟨r₁, h₁, heff⟩ := World.exec_order (s := s) (c := c) hr
  cases h₁.symm.trans hr'
  cases heff with
  | same => exact absurd hafter hbefore
  | sale counter price at_ stmt => exact absurd hafter hbefore
  | write u stmt row rewrite =>
    rcases OrderStmt.rewrite_status rewrite with hs | ⟨id, source, target, legal, rfl, hs⟩ |
      ⟨id, guard, rfl, hg, hs⟩
    · exact absurd (hs ▸ hafter) hbefore
    · have htarget : target = enRoute := hs.symm.trans hafter
      subst htarget
      cases row
      exact ⟨source, legal, stmt⟩
    · rw [hafter] at hs
      cases hs

end Reached

section Trips

variable {α : Type} {A : Errand → Prop} {p : Act α} {id : OrderId} {site : Site}

/-- A statement of the trip of this order, or of none. -/
def TripStmt (id : OrderId) (s : Stmt) : Prop :=
  s.startsTrip = false ∨ ∃ source legal, s = .order (.transition id source enRoute legal)

/-- A program that starts no trip. -/
theorem trips_plain (hp : p.Only fun s => s.startsTrip = false) : Trips A p fun _ => A :=
  (Discipline.Flow.only hp (fun _ _ _ _ _ _ => Errand.Moves.look)
    fun _ _ _ _ _ hs _ => Errand.Moves.plain hs).post
    (fun _ _ hx => hx) fun _ _ _ => trivial

/-- A program that may start the trip, the owner being reached. -/
theorem trips_reached (hp : p.Only (TripStmt id)) :
    Trips (· = .reached id) p fun _ _ => True := by
  have hflow : tripping.Flow machine (· = .reached id) p (fun _ => (· = .reached id))
      fun _ => (· = .reached id) := by
    refine Discipline.Flow.only hp (fun _ _ _ _ _ _ => Errand.Moves.look) fun x s c w hx hs _ => ?_
    subst hx
    rcases hs with hplain | ⟨source, legal, rfl⟩
    · exact Errand.Moves.plain hplain
    · exact Errand.Moves.start
  exact hflow.post (fun _ _ _ => trivial) fun _ _ _ => trivial

/-- A lost thread takes no further step. -/
theorem trips_lost : Trips (· = .lost) p fun _ _ => True := by
  rintro ph rfl
  cases p with
  | ret a => trivial
  | raise e => trivial
  | ask l f k => exact fun c w hview => hview.elim
  | call s k => exact fun c w hview => hview.elim

theorem canTransition_enRoute {s : OrderStatus} (h : canTransition s enRoute) : s = assigned := by
  revert h
  cases s <;> decide

theorem only_moveTo {target : OrderStatus} (ht : target ≠ enRoute) (actor : Actor) :
    (transition id target actor).Only fun s => s.startsTrip = false := by
  refine only_transition id target actor (fun source legal => ?_) (fun _ => rfl) fun _ => rfl
  cases target with
  | enRoute => exact absurd rfl ht
  | _ => rfl

theorem only_trip (target : OrderStatus) (actor : Actor) :
    (transition id target actor).Only (TripStmt id) := by
  by_cases ht : target = enRoute
  · subst ht
    exact only_transition id enRoute actor (fun source legal => .inr ⟨source, legal, rfl⟩)
      (fun _ => .inl rfl) fun _ => .inl rfl
  · exact (only_moveTo ht actor).mono fun _ => .inl

/-- What the read that an errand awaits leaves: the order is not assigned, or its owner has been
reached, or the thread is lost. -/
def Errand.Read (site : Site) (id : OrderId) (found : Option Order) (ph : Errand) : Prop :=
  ph = .lost ∨ ph = .reached id ∨
    ph = .awaits site id ∧ ∀ r, found = some r → r.status ≠ assigned

theorem trips_read : Trips (· = .awaits site id) (fetch site (·.orders.get id))
    (Errand.Read site id) := by
  refine Discipline.Flow.fetch fun x c w hx _ => ?_
  subst hx
  have hread : ∃ x', Errand.Moves (.awaits site id) (.ask site) c w x' ∧
      Errand.Read site id (w.orders.get id) x' := by
    cases hget : w.orders.get id with
    | none =>
      have hnone : ∀ row : Order, none = some row → row.status ≠ assigned := by
        intro row h
        cases h
      exact ⟨_, .look, .inr (.inr ⟨rfl, hnone⟩)⟩
    | some r =>
      cases hpending : r.ownerPending with
      | true => exact ⟨.lost, .miss hget hpending, .inl rfl⟩
      | false =>
        by_cases hstatus : r.status = assigned
        · have hreached : r.ownerContactConfirmedAt.isSome := by
            simpa [Order.ownerPending, hstatus, Option.isSome_iff_ne_none] using hpending
          exact ⟨.reached id, .learn ⟨r, hget, hreached⟩, .inr (.inl rfl)⟩
        · have hother : ∀ row, some r = some row → row.status ≠ assigned := by
            intro row h
            cases h
            exact hstatus
          exact ⟨_, .look, .inr (.inr ⟨rfl, hother⟩)⟩
  obtain ⟨x', hmove, hx'⟩ := hread
  refine ⟨x', hmove, ?_⟩
  show Discipline.onAnswer _ _ (Machine.answer machine site (·.orders.get id) c w) x'
  unfold Machine.answer
  cases machine.fault site c with
  | none => exact hx'
  | some e => trivial

/-- What follows the read that an errand awaits. -/
theorem trips_then {ρ : Type} {q : Act ρ} {k : ρ → Act α} {found : ρ → Option Order}
    (hq : Trips (· = .awaits site id) q fun r => Errand.Read site id (found r))
    (hreached : ∀ r, (k r).Only (TripStmt id))
    (hother : ∀ r, (∀ row, found r = some row → row.status ≠ assigned) →
      (k r).Only fun s => s.startsTrip = false) :
    Trips (· = .awaits site id) (q >>= k) fun _ _ => True := by
  refine Discipline.Flow.seq hq fun r ph hph => ?_
  rcases hph with rfl | rfl | ⟨rfl, hstatus⟩
  · exact trips_lost _ rfl
  · exact trips_reached (hreached r) _ rfl
  · have hplain : Trips (· = .awaits site id) (k r) fun _ => (· = .awaits site id) :=
      trips_plain (hother r hstatus)
    exact (hplain _ rfl).mono (fun _ _ _ => trivial) fun _ _ _ => trivial

theorem trips_requireOrderAt : Trips (· = .awaits site id) (requireOrderAt site id)
    fun order => Errand.Read site id (some order) := by
  refine Discipline.Flow.seq trips_read fun found => ?_
  cases found with
  | none => exact .throw fun _ _ => trivial
  | some order => exact .pure fun _ hx => hx

theorem trips_transition (actor : Actor) :
    Trips (· = .awaits .transition id) (transition id enRoute actor) fun _ _ => True := by
  refine trips_then trips_requireOrderAt (fun order => ?_) fun order hstatus => ?_
  · refine Only.ite (fun _ => only_pure _) fun _ => ?_
    split
    next legal =>
      refine Only.seq (only_issue (.inr ⟨_, legal, rfl⟩)) fun _ => ?_
      refine Only.seq (only_writeEvent _ _ _ _ _ _ fun _ => .inl rfl) fun _ => ?_
      exact Only.when fun h => by cases h
    next => exact only_fail _ _ _
  · refine Only.ite (fun _ => only_pure _) fun _ => ?_
    split
    next legal => exact absurd (canTransition_enRoute legal) (hstatus order rfl)
    next => exact only_fail _ _ _

/-- What the check leaves: the owner is pending, has been reached, or the order is not assigned
yet. -/
def Errand.Checked (id : OrderId) (order : Order) (ph : Errand) : Prop :=
  order.ownerPending ∨ ph = .reached id ∨ ph = .awaits .transition id

theorem trips_check : Trips (· = .checks id) (requireOrder id) (Errand.Checked id) := by
  have hread : Trips (· = .checks id) (fetch .requireOrder (·.orders.get id))
      fun found ph => ∀ order, found = some order → Errand.Checked id order ph := by
    refine Discipline.Flow.fetch fun x c w hx _ => ?_
    subst hx
    have hcheck : ∃ x', Errand.Moves (.checks id) (.ask .requireOrder) c w x' ∧
        ∀ order, w.orders.get id = some order → Errand.Checked id order x' := by
      by_cases hreached : w.OwnerReached id
      · exact ⟨_, .pass hreached, fun order _ => .inr (.inl rfl)⟩
      · by_cases hother : ∀ r, w.orders.get id = some r → r.status ≠ assigned
        · exact ⟨_, .early hother, fun order _ => .inr (.inr rfl)⟩
        · refine ⟨_, .look, fun order horder => .inl ?_⟩
          have hassigned : order.status = assigned := by simpa [horder] using hother
          have hpending : order.ownerContactConfirmedAt = none := by
            simpa [World.OwnerReached, horder] using hreached
          simp [Order.ownerPending, hassigned, hpending]
    obtain ⟨x', hmove, hx'⟩ := hcheck
    refine ⟨x', hmove, ?_⟩
    show Discipline.onAnswer _ _ (Machine.answer machine .requireOrder (·.orders.get id) c w) x'
    unfold Machine.answer
    cases machine.fault .requireOrder c with
    | none => exact hx'
    | some e => trivial
  refine Discipline.Flow.seq hread fun found => ?_
  cases found with
  | none => exact .throw fun _ _ => trivial
  | some order => exact .pure fun _ hx => hx order rfl

theorem trips_updateStatusByInspector (user : UserId) :
    Trips (· = .checks id) (updateStatusByInspector id user false) fun _ _ => True := by
  refine Discipline.Flow.seq trips_check fun order => ?_
  refine Discipline.Flow.ite (fun _ => .throw fun _ _ => trivial) fun _ => ?_
  refine Discipline.Flow.ite (fun _ => .throw fun _ _ => trivial) fun hrefused => ?_
  rintro ph (hpending | rfl | rfl)
  · exact absurd ⟨rfl, by simpa [Order.ownerPending] using hpending⟩ hrefused
  · exact trips_reached (Only.seq (only_trip enRoute _) fun _ => only_pure _) _ rfl
  · have hmoves : Trips (· = .awaits .transition id)
        (do transition id enRoute (.user user); pure enRoute) fun _ _ => True :=
      Discipline.Flow.seq (trips_transition _) fun _ => .pure fun _ _ => trivial
    exact hmoves _ rfl

/-- The walk of a report's order, when it is assigned and when it is not. -/
theorem only_submission {F : Stmt → Prop} (order : Order)
    (hwalk : (walkToInProgress id order.status).Only F)
    (hmove : (transition id submitted .system).Only F)
    (hset : ∀ at_ autoApproveAt, F (.order (.setSubmitted id at_ autoApproveAt))) :
    (if order.status ∉ attachableReportOrderStatuses then pure false
      else do
        walkToInProgress id order.status
        let settings ← readSettings
        let now ← readClock
        issue (.order (.setSubmitted id now (now + days settings.autoApproveAfterDays)))
        transition id submitted .system
        pure true : Act Bool).Only F := by
  refine Only.ite (fun _ => only_pure _) fun _ => Only.seq hwalk fun _ => ?_
  refine Only.seq only_readSettings fun settings => Only.seq only_readClock fun now => ?_
  refine Only.seq (only_issue (hset _ _)) fun _ => Only.seq hmove fun _ => ?_
  exact only_pure _

theorem trips_submitReportForOrder :
    Trips (· = .awaits .submitReportForOrder id) (submitReportForOrder id) fun _ _ => True := by
  have hread : Trips (· = .awaits .submitReportForOrder id)
      (fetch .submitReportForOrder (·.orders.get id))
      fun found => Errand.Read .submitReportForOrder id found := trips_read
  refine trips_then hread (fun found => ?_) fun found hstatus => ?_
  · cases found with
    | none => exact only_pure _
    | some order =>
      refine only_submission order ?_ (only_trip _ _) fun _ _ => .inl rfl
      unfold walkToInProgress
      split
      · exact Only.seq (only_trip _ _) fun _ => only_trip _ _
      · exact only_trip _ _
      · exact only_pure _
  · cases found with
    | none => exact only_pure _
    | some order =>
      refine only_submission order ?_ (only_moveTo (by decide) _) fun _ _ => rfl
      unfold walkToInProgress
      split
      next hassigned => exact absurd hassigned (hstatus order rfl)
      · exact only_moveTo (by decide) _
      · exact only_pure _

end Trips

end CarSalePro
