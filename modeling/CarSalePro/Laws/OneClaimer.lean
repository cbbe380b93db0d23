import CarSalePro.Orders.ClaimMoves

namespace CarSalePro

open Store Interleave OrderStatus

/-- The calls that claim an order, and the two sweeps over the search. -/
def Op.claims : Op → Prop
  | .acceptOffer _ _ | .adminAssign _ _ _ | .finalizeCounterOfferPayment _ _
  | .expireUnfilledSearches _ | .redispatchUnfilledOrders _ => True
  | _ => False

/-- What has happened to the claim of one order: who wrote it and has not given it up, who
completed an assignment, and whether the expiry sweep cancelled the order. -/
structure ClaimLog where
  claims : Nat → Option UserId
  assigned : List (Nat × Option UserId)
  expired : Bool

def ClaimLog.empty : ClaimLog := ⟨fun _ => none, [], false⟩

def recordClaims (o : OrderId) : Recorder Site Stmt World ClaimLog := fun t l w w' h =>
  match l with
  | .call (.order (.claim id _ i)) =>
    if id = o ∧ w'.orders.get o ≠ w.orders.get o then
      { h with claims := Function.update h.claims t (some i) }
    else h
  | .call (.order (.releaseClaim id _)) =>
    if id = o ∧ w'.orders.get o ≠ w.orders.get o then
      { h with claims := Function.update h.claims t none }
    else h
  | .call (.order (.transition id _ assigned _)) =>
    if id = o ∧ (w'.orders.get o).any (·.status = assigned) then
      { h with
        claims := Function.update h.claims t none
        assigned := (t, h.claims t) :: h.assigned }
    else h
  | .call (.order (.cancelWhere id (.searchExpired _))) =>
    if id = o ∧ w'.orders.get o ≠ w.orders.get o then { h with expired := true } else h
  | _ => h

/-- A request to capture a payment of the order. -/
def capturesFor (o : OrderId) (w : World) : Label Site Stmt → Bool
  | .call (.stripe (.capture _ k _)) => (w.payments.get k).any (·.orderId = some o)
  | _ => false

/-- A claim of the order. -/
def claimsOrder (o : OrderId) : Label Site Stmt → Bool
  | .call (.order (.claim id _ _)) => id = o
  | _ => false

/-- The expiry sweep's guarded cancellation of the order. -/
def expiresOrder (o : OrderId) : Label Site Stmt → Bool
  | .call (.order (.cancelWhere id (.searchExpired _))) => id = o
  | _ => false

/-- One claimer at a time, at one step of a run. -/
structure OneClaimer (o : OrderId) (t : Nat) (l : Label Site Stmt) (x y : World × ClaimLog) :
    Prop where
  capture : capturesFor o x.1 l → ∃ i r, x.2.claims t = some i ∧ x.1.orders.get o = some r ∧
    r.inspectorId = some i ∧ r.isOpen
  once : y.2.assigned.length ≤ 1
  assignee : ∀ r, y.1.orders.get o = some r → r.status = assigned →
    ∃ u i, y.2.assigned = [(u, some i)] ∧ r.inspectorId = some i
  expiry : expiresOrder o l → y.1.orders.get o ≠ x.1.orders.get o →
    ∀ r, x.1.orders.get o = some r → r.inspectorId = none
  shut : x.2.expired → ¬ capturesFor o x.1 l ∧
    (claimsOrder o l → y.1.orders.get o = x.1.orders.get o)

/-- One claimer at a time, at every step of every run on an order that was in the search. -/
def OneClaimerLaw (C : OrderId → StepGuard ClaimLog) : Prop :=
  ∀ (w : World) (ops : List Op) (o : OrderId) (g g' : Run ClaimLog) (t : Nat) (c : Fate)
    (p : Act Unit) (l : Label Site Stmt), (∀ op ∈ ops, op.claims) → w.openOrder o →
    Pool.Reach machine (recordClaims o) (C o) (launch w ClaimLog.empty ops) g →
    g.Meets (C o) (.run t c) → Pool.step machine (recordClaims o) (.run t c) g = some g' →
    g.threads[t]? = some p → p.label = some l → OneClaimer o t l g.snapshot g'.snapshot

/-- A write of `cancelled` does not find the order claimed and still in the search, and a write of
`unassigned` does not find it cancelled by the expiry sweep. -/
def respectsClaim (o : OrderId) : StepGuard ClaimLog := fun _ l _ x =>
  match l with
  | .call (.order (.transition id _ cancelled _)) =>
    id ≠ o || !(x.1.orders.get o).any fun r => r.isOpen && r.inspectorId.isSome
  | .call (.order (.transition id _ unassigned _)) => id ≠ o || !x.2.expired
  | _ => true

/-- The statements of these calls that touch no claim. -/
def searchSide : Stmt → Bool
  | .order (.claim _ _ _) | .order (.releaseClaim _ _) => false
  | .order (.transition _ _ target _) => target = unassigned
  | .order (.cancelWhere _ (.searchExpired _)) => true
  | .order (.cancelWhere _ _) => false
  | .stripe (.capture _ _ _) => false
  | .createPayment _ _ _ | .payment (.attachIntent _ _) => false
  | _ => true

theorem searchSide_opens {s : Stmt} (h : searchSide s) : s.opensPayment = false := by
  unfold Stmt.opensPayment
  split
  · cases h
  · cases h
  · rfl

/-- What such a statement does to an order row. -/
theorem searchSide_effect {s : Stmt} {now : Time} {o : OrderId} {r r' : Order}
    (hs : searchSide s) (heff : OrderEffect s now o r r') : r'.inspectorId = r.inspectorId ∧
      ((r'.status = r.status ∧ ∀ at_, s = .order (.cancelWhere o (.searchExpired at_)) → r' = r) ∨
      (∃ source legal, s = .order (.transition o source unassigned legal) ∧
        r'.status = unassigned) ∨
      (∃ at_, s = .order (.cancelWhere o (.searchExpired at_)) ∧ r.isOpen ∧
        r.inspectorId = none ∧ r'.status = cancelled)) := by
  cases heff with
  | same => exact ⟨rfl, .inl ⟨rfl, fun _ _ => rfl⟩⟩
  | sale counter price at_ stmt => exact ⟨rfl, .inl ⟨rfl, fun _ h => by rw [stmt] at h; cases h⟩⟩
  | write u stmt row rewrite =>
    subst stmt row
    cases u with
    | claim id statuses i => cases hs
    | releaseClaim id i => cases hs
    | transition id source target legal =>
      have ht : target = unassigned := by simpa [searchSide] using hs
      subst ht
      cases rewrite
      exact ⟨rfl, .inr (.inl ⟨source, legal, rfl, rfl⟩)⟩
    | cancelWhere id guard =>
      cases guard with
      | searchExpired at_ =>
        simp only [OrderStmt.rewrite] at rewrite
        split at rewrite
        next hg =>
          cases rewrite
          simp only [CancelGuard.admits, Bool.and_eq_true, Option.isNone_iff_eq_none] at hg
          exact ⟨rfl, .inr (.inr ⟨at_, rfl, hg.1.1, hg.1.2, rfl⟩)⟩
        next => cases rewrite
      | _ => cases hs
    | confirmOwnerContact id i at_ =>
      simp only [OrderStmt.rewrite] at rewrite
      split at rewrite <;> cases rewrite
      exact ⟨rfl, .inl ⟨rfl, fun _ h => by cases h⟩⟩
    | raiseRound id at_ =>
      simp only [OrderStmt.rewrite] at rewrite
      split at rewrite <;> cases rewrite
      exact ⟨rfl, .inl ⟨rfl, fun _ h => by cases h⟩⟩
    | _ => cases rewrite; exact ⟨rfl, .inl ⟨rfl, fun _ h => by cases h⟩⟩

def searchScope (reg : Registry) : ClaimScope := ⟨reg, (searchSide · = true), False⟩

section Footprints

theorem searchSide_promote {o : OrderId} {s : Stmt} (h : PromoteStmt o s) : searchSide s := by
  cases h <;> rfl

theorem searchSide_assign {s : Stmt} (h : AssignStmt s) : searchSide s := by
  cases h with
  | settle h =>
    cases h with
    | promote h => exact searchSide_promote h
    | _ => rfl
  | _ => rfl

theorem searchSide_dispatch {o : OrderId} {s : Stmt} (h : DispatchStmt o s) : searchSide s := by
  cases h <;> rfl

theorem searchSide_refund {o : OrderId} {k : PaymentId} {i : Option IntentId} {s : Stmt}
    {reason : RefundReason} (h : RefundStmt o reason k i s) : searchSide s := by
  cases h <;> rfl

theorem searchSide_finalize {s : Stmt} (h : FinalizeStmt s) : searchSide s := by
  cases h with
  | assign h => exact searchSide_assign h
  | supersede h => cases h <;> rfl
  | promote h => exact searchSide_promote h
  | dispatch h => exact searchSide_dispatch h
  | _ => rfl

theorem searchFlow (reg : Registry) {op : Op} (h : op.claims) :
    EndFlow (searchScope reg) op.prog := by
  cases op with
  | acceptOffer offer user => exact endFlow_acceptOffer (fun _ => searchSide_assign) offer user
  | adminAssign o i admin => exact endFlow_adminAssign (fun _ => searchSide_assign) o i admin
  | finalizeCounterOfferPayment k o => exact endFlow_finalize (fun _ => searchSide_finalize) k o
  | expireUnfilledSearches limit =>
    refine endFlow_seq (only_expireUnfilledSearches limit (fun _ _ => rfl) (fun _ => rfl)
      fun _ _ _ _ => searchSide_refund) fun _ => endFlow_pure _
  | redispatchUnfilledOrders limit =>
    refine endFlow_seq (only_redispatchUnfilledOrders limit (fun _ _ => rfl)
      fun _ _ => searchSide_dispatch) fun _ => endFlow_pure _
  | _ => exact h.elim

end Footprints

/-- The claim of order `o`, whose row is `r`, with the threads in the stances `Φ`. -/
structure Claimed (o : OrderId) (Φ : Nat → Stance) (h : ClaimLog) (r : Order) : Prop where
  holder : ∀ t i, Φ t = .held o i → r.isOpen ∧ r.inspectorId = some i ∧ h.claims t = some i
  unique : ∀ t u i j, Φ t = .held o i → Φ u = .held o j → t = u
  finished : h.assigned = [] ∨
    ∃ t i, h.assigned = [(t, some i)] ∧ r.inspectorId = some i ∧ ∀ u j, Φ u ≠ .held o j
  assignee : r.status = assigned → h.assigned ≠ []
  shut : h.expired → r.status = cancelled

/-- The invariant of the claims on order `o`. -/
structure ClaimsKept (reg : Registry) (o : OrderId) (Φ : Nat → Stance) (x : World × ClaimLog) :
    Prop where
  registry : x.1.registry = reg
  idle : ∀ t os, Φ t ≠ .working os
  row : ∃ r, x.1.orders.get o = some r ∧ Claimed o Φ x.2 r

section Moves

variable {o : OrderId} {Φ Ψ : Nat → Stance} {h : ClaimLog} {r r' : Order} {t : Nat}
  {ph : Stance} {l : Label Site Stmt} {w w' : World}

/-- Nothing happened to the claim. -/
theorem Claimed.keep (hI : Claimed o Φ h r) (hi : r'.inspectorId = r.inspectorId)
    (hs : r'.status = r.status) (hΨ : ∀ u i, Ψ u = .held o i → Φ u = .held o i) :
    Claimed o Ψ h r' where
  holder u i hu := by
    obtain ⟨hopen, hid, hc⟩ := hI.holder u i (hΨ u i hu)
    exact ⟨by rw [Order.isOpen, hs]; exact hopen, by rw [hi, hid], hc⟩
  unique u v i j hu hv := hI.unique u v i j (hΨ u i hu) (hΨ v j hv)
  finished := hI.finished.imp_right fun ⟨u, i, ha, hid, hn⟩ =>
    ⟨u, i, ha, by rw [hi, hid], fun v j hv => hn v j (hΨ v j hv)⟩
  assignee ha := hI.assignee (by rw [← hs, ha])
  shut he := by rw [hs]; exact hI.shut he

/-- The log of a step that leaves the row as it is. -/
theorem record_same (hrow : w'.orders.get o = w.orders.get o)
    (ha : ∀ source legal, l = .call (.order (.transition o source assigned legal)) →
      (w'.orders.get o).any (·.status = assigned) = false) :
    recordClaims o t l w w' h = h := by
  unfold recordClaims
  split
  · exact if_neg fun hc => hc.2 hrow
  · exact if_neg fun hc => hc.2 hrow
  · next id source legal =>
    refine if_neg fun hc => ?_
    obtain ⟨rfl, hc⟩ := hc
    simp [ha source legal rfl] at hc
  · exact if_neg fun hc => hc.2 hrow
  · rfl

/-- The log of a statement that touches no claim. -/
theorem record_side {s : Stmt} (hs : searchSide s)
    (hn : ∀ at_, s ≠ .order (.cancelWhere o (.searchExpired at_))) :
    recordClaims o t (.call s) w w' h = h := by
  unfold recordClaims
  split
  next => rename_i he; cases he; cases hs
  next => rename_i he; cases he; cases hs
  next => rename_i he; cases he; cases hs
  next id at_ he =>
    cases he
    refine if_neg fun hc => ?_
    obtain ⟨rfl, _⟩ := hc
    exact hn at_ rfl
  next => rfl

/-- A statement that touches no claim. -/
theorem claimed_side {s : Stmt} {now : Time} (hI : Claimed o Φ h r)
    (hs : searchSide s) (hr : w.orders.get o = some r) (hr' : w'.orders.get o = some r')
    (hC : ∀ source legal, s = .order (.transition o source unassigned legal) → h.expired = false)
    (heff : OrderEffect s now o r r') : Claimed o Φ (recordClaims o t (.call s) w w' h) r' := by
  obtain ⟨hid, ⟨hst, hsame⟩ | ⟨source, legal, rfl, hst⟩ | ⟨at_, rfl, hopen, hfree, hst⟩⟩ :=
    searchSide_effect hs heff
  · by_cases hx : ∃ at_, s = .order (.cancelWhere o (.searchExpired at_))
    · obtain ⟨at_, rfl⟩ := hx
      cases hsame at_ rfl
      rw [record_same (by rw [hr, hr']) fun _ _ hl => by cases hl]
      exact hI
    · rw [record_side hs fun at_ he => hx ⟨at_, he⟩]
      exact hI.keep hid hst fun _ _ hu => hu
  · rw [record_side hs fun _ he => by cases he]
    have hexp := hC source legal rfl
    refine ⟨fun u i hu => ?_, hI.unique, ?_, fun ha => ?_, fun he => ?_⟩
    · obtain ⟨_, hmine, hc⟩ := hI.holder u i hu
      exact ⟨by rw [Order.isOpen, hst]; rfl, by rw [hid, hmine], hc⟩
    · refine hI.finished.imp_right fun hclaimed => ?_
      obtain ⟨u, i, ha, hmine, hn⟩ := hclaimed
      exact ⟨u, i, ha, by rw [hid, hmine], hn⟩
    · rw [hst] at ha; cases ha
    · rw [hexp] at he; cases he
  · have hlog : recordClaims o t (.call (.order (.cancelWhere o (.searchExpired at_)))) w w' h =
        { h with expired := true } := by
      refine if_pos ⟨rfl, fun he => ?_⟩
      rw [hr, hr'] at he
      rw [← Option.some.inj he, Order.isOpen, hst] at hopen
      exact absurd hopen (by decide)
    rw [hlog]
    have hnone (u : Nat) (i : UserId) (hu : Φ u = .held o i) : False := by
      have hmine := (hI.holder u i hu).2.1
      rw [hfree] at hmine
      cases hmine
    refine ⟨fun u i hu => (hnone u i hu).elim, hI.unique, ?_, fun ha => ?_, fun _ => hst⟩
    · rcases hI.finished with hn | ⟨u, i, _, hmine, _⟩
      · exact .inl hn
      · rw [hfree] at hmine; cases hmine
    · rw [hst] at ha; cases ha

theorem claimed_move {reg : Registry} {c : Fate} (hI : Claimed o Φ h r)
    (hm : RowMove (searchScope reg) o l w.now (Φ t) ph r r') (hr : w.orders.get o = some r)
    (hr' : w'.orders.get o = some r') (hC : respectsClaim o t l c (w, h)) :
    Claimed o (Function.update Φ t ph) (recordClaims o t l w w' h) r' := by
  generalize hph : Φ t = ph₀ at hm
  cases hm with
  | idle _ hclaim hwrite =>
    rw [record_same (by rw [hr, hr']) fun source legal hl => ?_]
    · exact hI.keep rfl rfl (update_held fun i hi => by rw [hph]; exact hclaim i hi)
    · obtain ⟨i, hi⟩ := hwrite source legal hl
      have hopen := (hI.holder t i (hph.trans hi)).1
      rw [hr', Option.any_some, decide_eq_false_iff_not]
      intro hs
      rw [Order.isOpen, hs] at hopen
      exact absurd hopen (by decide)
  | side s label side _ effect =>
    subst label
    have hsame : Function.update Φ t ph = Φ := by rw [← hph, Function.update_eq_self]
    rw [hsame]
    refine claimed_side hI side hr hr' (fun source legal hs => ?_) effect
    subst hs
    simpa [respectsClaim] using hC
  | deadline _ n label =>
    subst label
    exact hI.keep rfl rfl (update_held fun i hi => by cases hi)
  | claimed _ statuses i label search free =>
    subst label
    have hlog : recordClaims o t (.call (.order (.claim o statuses i))) w w' h =
        { h with claims := Function.update h.claims t (some i) } := by
      refine if_pos ⟨rfl, ?_⟩
      rw [hr, hr']
      intro he
      have hid := congrArg (fun x => x.map Order.inspectorId) he
      simp [free] at hid
    rw [hlog]
    have hfree (u : Nat) (j : UserId) (hu : Φ u = .held o j) : False := by
      have hmine := (hI.holder u j hu).2.1
      rw [free] at hmine
      cases hmine
    have honly (u : Nat) (j : UserId) (hu : Function.update Φ t (.held o i) u = .held o j) :
        u = t := by
      by_contra hut
      rw [Function.update_of_ne hut] at hu
      exact hfree u j hu
    refine ⟨fun u j hu => ?_, fun u v j k hu hv => (honly u j hu).trans (honly v k hv).symm, ?_,
      hI.assignee, hI.shut⟩
    · have hut := honly u j hu
      subst hut
      rw [Function.update_self] at hu
      cases hu
      exact ⟨search, rfl, by simp⟩
    · rcases hI.finished with hn | ⟨u, j, _, hid, _⟩
      · exact .inl hn
      · rw [free] at hid; cases hid
  | released _ i label search mine =>
    subst label
    have hlog : recordClaims o t (.call (.order (.releaseClaim o i))) w w' h =
        { h with claims := Function.update h.claims t none } := by
      refine if_pos ⟨rfl, ?_⟩
      rw [hr, hr']
      intro he
      have hid := congrArg (fun x => x.map Order.inspectorId) he
      simp [mine] at hid
    rw [hlog]
    have hnone (u : Nat) (j : UserId) (hu : Function.update Φ t Stance.out u = .held o j) :
        False := by
      have hu' := update_held (fun k hk => by cases hk) u j hu
      have hut := hI.unique u t j i hu' hph
      subst hut
      rw [Function.update_self] at hu
      cases hu
    refine ⟨fun u j hu => (hnone u j hu).elim, fun u v j k hu _ => (hnone u j hu).elim, ?_,
      hI.assignee, hI.shut⟩
    rcases hI.finished with hn | ⟨u, j, _, _, hno⟩
    · exact .inl hn
    · exact absurd hph (hno t i)
  | assigned _ i source legal label =>
    subst label
    obtain ⟨hopen, hid, hc⟩ := hI.holder t i hph
    have hlog : recordClaims o t (.call (.order (.transition o source assigned legal))) w w' h =
        { h with
          claims := Function.update h.claims t none
          assigned := (t, h.claims t) :: h.assigned } := by
      refine if_pos ⟨rfl, ?_⟩
      rw [hr']; rfl
    rw [hlog]
    have hnone (u : Nat) (j : UserId) (hu : Function.update Φ t (Stance.done o) u = .held o j) :
        False := by
      have hu' := update_held (fun k hk => by cases hk) u j hu
      have hut := hI.unique u t j i hu' hph
      subst hut
      rw [Function.update_self] at hu
      cases hu
    have hfirst : h.assigned = [] := by
      rcases hI.finished with hn | ⟨u, j, _, _, hno⟩
      · exact hn
      · exact absurd hph (hno t i)
    refine ⟨fun u j hu => (hnone u j hu).elim, fun u v j k hu _ => (hnone u j hu).elim, ?_,
      fun _ => (by simp), fun he => ?_⟩
    · exact .inr ⟨t, i, by rw [hfirst, hc], hid, fun u j hu => hnone u j hu⟩
    · have hs := hI.shut he
      rw [Order.isOpen, hs] at hopen
      exact absurd hopen (by decide)
  | cancelled _ source legal label =>
    subst label
    have hnone (u : Nat) (j : UserId) (hu : Function.update Φ t Stance.out u = .held o j) :
        False := by
      have hu' := update_held (fun k hk => by cases hk) u j hu
      obtain ⟨hopen, hid, _⟩ := hI.holder u j hu'
      simp [respectsClaim, hr, hopen, hid] at hC
    refine ⟨fun u j hu => (hnone u j hu).elim, fun u v j k hu _ => (hnone u j hu).elim, ?_,
      fun ha => (by cases ha), fun _ => rfl⟩
    rcases hI.finished with hn | ⟨u, j, ha, hid, _⟩
    · exact .inl hn
    · exact .inr ⟨u, j, ha, hid, fun v k hv => hnone v k hv⟩

end Moves

section Runs

variable {reg : Registry} {o : OrderId} {Φ : Nat → Stance} {x : World × ClaimLog}

theorem searchSide_assigned (source : OrderStatus) (legal : canTransition source assigned) :
    ¬ (searchScope reg).side (.order (.transition o source assigned legal)) := fun h => by cases h

/-- One step of any of the calls keeps the claims. -/
theorem claimsKept : (claimDiscipline (searchScope reg)).Invariant machine (recordClaims o)
    (respectsClaim o) (ClaimsKept reg o) where
  view Φ x t h := h.registry
  move Φ x t l c ph h hC hm := by
    obtain ⟨r, hr, hI⟩ := h.row
    obtain ⟨r', hr', hrow⟩ := rowMove searchSide_assigned hm hr
    refine ⟨(registry_after (fun _ => searchSide_opens) hm).trans h.registry,
      fun u os hu => ?_, r', hr', ?_⟩
    · by_cases hut : u = t
      · subst hut
        rw [Function.update_self] at hu
        exact not_working (fun h => h) hm (h.idle u) os hu
      · rw [Function.update_of_ne hut] at hu
        exact h.idle u os hu
    · exact claimed_move (w := x.1) hI hrow hr hr' hC
  env Φ x c h := by
    obtain ⟨now, he⟩ := World.tick_eq c x.1
    rw [show machine.env = World.tick from rfl, he]
    exact ⟨h.registry, h.idle, h.row⟩

/-- The threads of a launch, all outside every claim. -/
theorem claimsKept_launch {w : World} {ops : List Op} (hops : ∀ op ∈ ops, op.claims)
    (ho : w.openOrder o) : (claimDiscipline (searchScope w.registry)).Kept machine
      (ClaimsKept w.registry o) Stance.Rest (fun _ => .out) (launch w ClaimLog.empty ops) := by
  refine ⟨⟨rfl, fun _ _ h => (by cases h), ?_⟩, fun t p hp => ?_, fun _ _ => .out⟩
  · obtain ⟨r, hr, hopen⟩ := (Option.any_eq_true _ _).mp ho
    refine ⟨r, hr, fun _ _ h => (by cases h), fun _ _ _ _ h => (by cases h), .inl rfl,
      fun hs => ?_, fun he => (by cases he)⟩
    rw [Order.isOpen, hs] at hopen
    exact absurd hopen (by decide)
  · obtain ⟨op, hop, rfl⟩ := launch_thread hp
    exact searchFlow _ (hops op hop) _ rfl

/-- A capture for the order is a move of a thread that holds its claim. -/
theorem capture_move {ph ph' : Stance} {l : Label Site Stmt} {c : Fate} {w : World}
    (h : ClaimMove (searchScope reg) ph l c w ph') (hw : w.registry = reg)
    (hp : ∀ os, ph ≠ .working os) (hcap : capturesFor o w l) : ∃ i, ph = .held o i := by
  cases h with
  | side _ s _ _ hs _ =>
    cases s with
    | stripe call =>
      cases call with
      | capture intent k amountCents => cases hs
      | _ => cases hcap
    | _ => cases hcap
  | writeFails o' i s _ _ e he hc _ =>
    cases s with
    | stripe call => cases hc
    | _ => cases hcap
  | refund o' reason k s intent _ _ hk hs => cases hs <;> cases hcap
  | capture _ o' k intent amountCents _ _ hk hc =>
    obtain ⟨p, hp', ho⟩ := (Option.any_eq_true _ _).mp hcap
    have htag : w.registry k = some (some o', some intent) := by rw [hw]; exact hk
    rw [World.registry_get hp'] at htag
    have ho' : p.orderId = some o' := congrArg (fun x => x.map Prod.fst) htag |> Option.some.inj
    rw [decide_eq_true_eq, ho'] at ho
    cases ho
    cases ph with
    | held o₁ i => cases hc; exact ⟨i, rfl⟩
    | working os => exact absurd rfl (hp os)
    | _ => exact hc.elim
  | _ => cases hcap

/-- What one step means for the claims. -/
theorem oneClaimer_step {t : Nat} {l : Label Site Stmt} {c : Fate} {ph : Stance}
    {y : World × ClaimLog} (h : ClaimsKept reg o Φ x)
    (hm : ClaimMove (searchScope reg) (Φ t) l c x.1 ph) (hy : y.1 = machine.after l c x.1)
    (h' : ∃ Ψ, ClaimsKept reg o Ψ y) : OneClaimer o t l x y := by
  obtain ⟨r, hr, hI⟩ := h.row
  obtain ⟨Ψ, hΨ⟩ := h'
  obtain ⟨q, hq, hJ⟩ := hΨ.row
  obtain ⟨r', hr', hrow⟩ := rowMove searchSide_assigned hm hr
  rw [← hy] at hr'
  have hhold (hcap : capturesFor o x.1 l) : ∃ i, r.isOpen ∧ r.inspectorId = some i ∧
      x.2.claims t = some i := by
    obtain ⟨i, hi⟩ := capture_move hm h.registry (h.idle t) hcap
    exact ⟨i, hI.holder t i hi⟩
  have hclosed (he : x.2.expired) : ¬ r.isOpen := by
    rw [Order.isOpen, hI.shut he]; decide
  refine ⟨fun hcap => ?_, ?_, fun p hp hs => ?_, fun hl hne p hp => ?_, fun he => ⟨fun hcap => ?_,
    fun hl => ?_⟩⟩
  · obtain ⟨i, hopen, hid, hc⟩ := hhold hcap
    exact ⟨i, r, hc, hr, hid, hopen⟩
  · rcases hJ.finished with hn | ⟨u, i, ha, _⟩
    · rw [hn]; decide
    · rw [ha]; exact Nat.le_refl 1
  · cases hq.symm.trans hp
    rcases hJ.finished with hn | ⟨u, i, ha, hid, _⟩
    · exact absurd hn (hJ.assignee hs)
    · exact ⟨u, i, ha, hid⟩
  · cases hr.symm.trans hp
    generalize Φ t = ph₀ at hrow
    cases hrow with
    | side s label side _ effect =>
      subst label
      cases effect with
      | write u stmt row rewrite =>
        subst stmt
        cases u with
        | cancelWhere id guard =>
          cases guard with
          | searchExpired now =>
            simp only [OrderStmt.rewrite] at rewrite
            split at rewrite
            next hg =>
              simp only [CancelGuard.admits, Bool.and_eq_true, Option.isNone_iff_eq_none] at hg
              exact hg.1.2
            next => cases rewrite
          | _ => cases hl
        | _ => cases hl
      | same => exact absurd (hr'.trans hr.symm) hne
      | sale counter price at_ stmt => subst stmt; cases hl
    | idle => exact absurd (hr'.trans hr.symm) hne
    | claimed _ statuses i label => subst label; cases hl
    | released _ i label => subst label; cases hl
    | assigned _ i source legal label => subst label; cases hl
    | cancelled _ source legal label => subst label; cases hl
    | deadline _ n label => subst label; cases hl
  · obtain ⟨i, hopen, _⟩ := hhold hcap
    exact hclosed he hopen
  · rw [hr', hr]
    generalize Φ t = ph₀ at hrow
    cases hrow with
    | idle => rfl
    | claimed _ statuses i label search free => exact absurd search (hclosed he)
    | side s label side _ effect =>
      subst label
      cases s with
      | order u =>
        cases u with
        | claim id statuses i => cases side
        | _ => cases hl
      | _ => cases hl
    | released _ i label => subst label; cases hl
    | assigned _ i source legal label => subst label; cases hl
    | cancelled _ source legal label => subst label; cases hl
    | deadline _ n label => subst label; cases hl

/-- One claimer at a time, where no write of a stale status lands on a claim or on a cancellation
by the expiry sweep. -/
theorem one_claimer (w : World) (ops : List Op) (o : OrderId) (g g' : Run ClaimLog) (t : Nat)
    (c : Fate) (p : Act Unit) (l : Label Site Stmt) (hops : ∀ op ∈ ops, op.claims)
    (ho : w.openOrder o)
    (hreach : Pool.Reach machine (recordClaims o) (respectsClaim o) (launch w ClaimLog.empty ops) g)
    (hm : g.Meets (respectsClaim o) (.run t c))
    (hs : Pool.step machine (recordClaims o) (.run t c) g = some g')
    (hp : g.threads[t]? = some p) (hl : p.label = some l) :
    OneClaimer o t l g.snapshot g'.snapshot := by
  obtain ⟨Φ, hk⟩ := Discipline.kept_of_reach claimsKept (claimsKept_launch hops ho) hreach
  obtain ⟨q, l', q', ph, hq, hl', hmove, _, _, hsnap⟩ := hk.move claimsKept hs
  obtain ⟨Ψ, hk'⟩ := hk.step claimsKept hm hs
  cases hp.symm.trans hq
  cases hl.symm.trans hl'
  exact oneClaimer_step hk.inv hmove (congrArg Prod.fst hsnap) ⟨Ψ, hk'.inv⟩

end Runs

section Race

def paidOrder : Order where
  customerId := 7
  inspectorId := none
  status := paid
  totalCents := 10000
  platformFeeCents := 2000
  inspectorShareCents := 8000
  searchExpiresAt := some 86400000
  inspectionDeadlineAt := none
  ownerContactConfirmedAt := none
  submittedAt := none
  autoApproveAt := none
  dispatchRound := 0

def heldPayment : Payment where
  orderId := some 1
  purpose := .order
  amountCents := 10000
  status := .authorized
  stripePaymentIntentId := some 9
  authorizedAt := some 1000
  capturedAt := none
  canceledAt := none
  supersededAt := none
  createdAt := 500

def pendingOffer (inspector : UserId) : OrderOffer where
  orderId := 1
  inspectorId := inspector
  status := .pending
  expiresAt := 3600000
  round := 0
  priceCents := some 10000
  platformFeeCents := some 2000
  inspectorShareCents := some 8000

def proInspector : InspectorProfile := ⟨true, true, true, none, 0, none, none, true, 300⟩

/-- A paid order with its hold in place, offered to two inspectors. -/
def searchWorld : World := { World.empty with
  orders := Table.empty.set 1 paidOrder
  offers := (Table.empty.set 1 (pendingOffer 8)).set 2 (pendingOffer 9)
  payments := Table.empty.set 5 heldPayment
  inspectors := (Table.empty.set 8 proInspector).set 9 proInspector
  provider := ⟨Table.empty.set 9 ⟨10000, .requiresCapture⟩, .empty, .empty⟩ }

def cardDeclinedError : StripeError :=
  ⟨some .card, some .cardDeclined, some 402, "Your card was declined.", some .card, none⟩

/-- Both inspectors accept. -/
def twoAccepts : Run ClaimLog :=
  launch searchWorld .empty [.acceptOffer 1 8, .acceptOffer 2 9]

/-- The status of the order, and whether the next step of thread `t` captures its payment. -/
def dueCapture (t : Nat) (g : Run ClaimLog) : Option OrderStatus × Option Bool :=
  ((g.state.orders.get 1).map (·.status),
    (g.threads[t]?.bind Prog.label).map (capturesFor 1 g.state))

/-- The first inspector's card is declined. Between the release of the claim and the cancellation
the second claims the order, and then asks for the money of a cancelled one. -/
def declinedThenClaimed : List (Move Fate) :=
  goes 1 5 ++ goes 0 9 ++ [.run 0 (.refused cardDeclinedError)] ++ goes 0 1 ++ goes 1 4 ++ goes 0 10

theorem capture_of_cancelled : ¬ OneClaimerLaw fun _ => anyStep := by
  intro hlaw
  have hrun : Pool.observe machine (recordClaims 1) anyStep (dueCapture 1) declinedThenClaimed
      (.run 1 .ok) twoAccepts =
      some ((some cancelled, some true), (some cancelled, some false)) := by decide +kernel
  obtain ⟨g, g', hg, hm, hs, hbefore, _⟩ := Pool.observe_eq hrun
  obtain ⟨r, hr, hrs⟩ := Option.map_eq_some_iff.mp (congrArg Prod.fst hbefore)
  obtain ⟨l, hl, hcap⟩ := Option.map_eq_some_iff.mp (congrArg Prod.snd hbefore)
  obtain ⟨p, hp, hl⟩ := Option.bind_eq_some_iff.mp hl
  have hops : ∀ op ∈ [Op.acceptOffer 1 8, .acceptOffer 2 9], op.claims := by simp [Op.claims]
  have hstep := hlaw _ _ 1 g g' 1 .ok p l hops (by decide) hg hm hs hp hl
  obtain ⟨i, r', _, hr', _, hopen⟩ := hstep.capture hcap
  cases hr.symm.trans hr'
  rw [Order.isOpen, hrs] at hopen
  exact absurd hopen (by decide)

/-- The first inspector asks for the money while holding the claim. -/
theorem one_claimer_capture : ∃ g g' : Run ClaimLog, ∃ l,
    dueCapture 0 g = (some paid, some true) ∧ dueCapture 0 g' = (some paid, some false) ∧
    OneClaimer 1 0 l g.snapshot g'.snapshot := by
  have hrun : Pool.observe machine (recordClaims 1) (respectsClaim 1) (dueCapture 0)
      (goes 1 5 ++ goes 0 9) (.run 0 .ok) twoAccepts =
      some ((some paid, some true), (some paid, some false)) := by decide +kernel
  obtain ⟨g, g', hg, hm, hs, hbefore, hafter⟩ := Pool.observe_eq hrun
  obtain ⟨l, hl, _⟩ := Option.map_eq_some_iff.mp (congrArg Prod.snd hbefore)
  obtain ⟨p, hp, hl⟩ := Option.bind_eq_some_iff.mp hl
  have hops : ∀ op ∈ [Op.acceptOffer 1 8, .acceptOffer 2 9], op.claims := by simp [Op.claims]
  exact ⟨g, g', l, hbefore, hafter,
    one_claimer _ _ 1 g g' 0 .ok p l hops (by decide) hg hm hs hp hl⟩

end Race

end CarSalePro
