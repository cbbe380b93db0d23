import CarSalePro.Laws.OneClaimer

namespace CarSalePro

open Store Interleave OrderStatus

/-- The calls that take a claim. -/
def Op.takesClaim : Op → Prop
  | .acceptOffer _ _ | .adminAssign _ _ _ | .finalizeCounterOfferPayment _ _ => True
  | _ => False

/-- The row is claimed and still in the search. -/
def Order.claimedOpen (r : Order) : Bool := r.isOpen && r.inspectorId.isSome

/-- However a call ends, an order it found free is not left claimed in the search. -/
def NoClaimLeak (C : OrderId → StepGuard Unit) : Prop :=
  ∀ (w : World) (op : Op) (o : OrderId) (r₀ : Order) (g : Run Unit), op.takesClaim →
    w.orders.get o = some r₀ → r₀.isOpen → r₀.inspectorId = none →
    Pool.Reach machine noRecord (C o) (launch w () [op]) g → g.AllEnded →
    ∀ r, g.state.orders.get o = some r → r.isOpen → r.inspectorId = none

/-- While the order is claimed and in the search, nothing fails but what the calls catch. -/
def failsCaught (o : OrderId) : StepGuard Unit := fun _ l c x =>
  !(x.1.orders.get o).any Order.claimedOpen ||
  match l with
  | .ask site => caughtSite site || (World.fault site c).isNone
  | .call s => caughtStmt s || (World.exec s c x.1).1.isOk

/-- The row of order `o` while the one call is in this stance. -/
structure Leakless (o : OrderId) (ph : Stance) (r : Order) : Prop where
  held : ∀ i, ph = .held o i → r.isOpen ∧ r.inspectorId = some i
  broken : ∀ i, ph ≠ .broken o i
  done : ph = .done o → r.isOpen = false
  free : (∀ i, ph ≠ .held o i) → ph ≠ .done o → r.inspectorId = none

/-- The invariant of a single call. The other threads of the pool are not there, and stand still. -/
structure LeakKept (reg : Registry) (o : OrderId) (Φ : Nat → Stance) (x : World × Unit) :
    Prop where
  registry : x.1.registry = reg
  others : ∀ t, t ≠ 0 → ∃ o', Φ t = .done o'
  idle : ∀ os, Φ 0 ≠ .working os
  row : ∃ r, x.1.orders.get o = some r ∧ Leakless o (Φ 0) r

section Moves

variable {reg : Registry} {o : OrderId} {ph ph' : Stance} {l : Label Site Stmt} {c : Fate}
  {w : World} {r r' : Order}

theorem done_move (h : ClaimMove (searchScope reg) (.done o) l c w ph') : ph' = .done o := by
  cases h with
  | side _ s _ _ hs hd => rfl
  | capture _ o' k intent amountCents _ _ hk hc => rfl
  | _ => rfl

/-- A thread that stands still leaves the claim alone. -/
theorem leakless_other {o' : OrderId} {now : Time}
    (h : RowMove (searchScope reg) o l now (.done o') ph' r r') (hI : Leakless o ph r) :
    Leakless o ph r' := by
  cases h with
  | idle => exact hI
  | side s _ _ plain => exact absurd rfl (plain o')
  | deadline => exact ⟨hI.held, hI.broken, hI.done, hI.free⟩

theorem Leakless.of_eq (hI : Leakless o ph r) (hi : r'.inspectorId = r.inspectorId)
    (hs : r'.status = r.status) : Leakless o ph r' := by
  have ho : r'.isOpen = r.isOpen := by rw [Order.isOpen, Order.isOpen, hs]
  exact ⟨fun i h => by rw [ho, hi]; exact hI.held i h, hI.broken,
    fun h => by rw [ho]; exact hI.done h, fun h h' => by rw [hi]; exact hI.free h h'⟩

/-- The stance changes outside the claim. -/
theorem Leakless.leave (hI : Leakless o ph r) (hp : ∀ i, ph ≠ .held o i) (hd : ph ≠ .done o)
    (hp' : ∀ i, ph' ≠ .held o i ∧ ph' ≠ .broken o i) (hd' : ph' ≠ .done o) : Leakless o ph' r :=
  ⟨fun i h => absurd h (hp' i).1, fun i => (hp' i).2, fun h => absurd h hd',
    fun _ _ => hI.free hp hd⟩

/-- A statement that touches no claim, while the call does not stand done. -/
theorem leakless_side {s : Stmt} {now : Time} (hI : Leakless o ph r) (hs : searchSide s)
    (hd : ph ≠ .done o) (heff : OrderEffect s now o r r') : Leakless o ph r' := by
  obtain ⟨hid, ⟨hst, _⟩ | ⟨source, legal, rfl, hst⟩ | ⟨at_, rfl, hopen, hfree, hst⟩⟩ :=
    searchSide_effect hs heff
  · exact hI.of_eq hid hst
  · have hr' : r'.isOpen := by rw [Order.isOpen, hst]; rfl
    exact ⟨fun i h => ⟨hr', by rw [hid]; exact (hI.held i h).2⟩, hI.broken, fun h => absurd h hd,
      fun h h' => by rw [hid]; exact hI.free h h'⟩
  · refine ⟨fun i h => ?_, hI.broken, fun h => absurd h hd, fun _ _ => by rw [hid, hfree]⟩
    have hmine := (hI.held i h).2
    rw [hfree] at hmine
    cases hmine

/-- While the claim is held, a failure is one that is caught. -/
theorem caught_held {i : UserId} (hI : Leakless o (.held o i) r) (hr : w.orders.get o = some r)
    (hC : failsCaught o 0 l c (w, ())) :
    match l with
    | .ask site => caughtSite site ∨ (World.fault site c).isNone
    | .call s => caughtStmt s ∨ (World.exec s c w).1.isOk := by
  obtain ⟨hopen, hid⟩ := hI.held i rfl
  have hclaimed : (w.orders.get o).any Order.claimedOpen = true := by
    simp [hr, Order.claimedOpen, hopen, hid]
  cases l <;> simpa [failsCaught, hclaimed] using hC

theorem leakless_move (h : ClaimMove (searchScope reg) ph l c w ph') (hI : Leakless o ph r)
    (hp : ∀ os, ph ≠ .working os) (hr : w.orders.get o = some r)
    (hr' : (machine.after l c w).orders.get o = some r')
    (hC : failsCaught o 0 l c (w, ())) : Leakless o ph' r' := by
  have hsame (he : (machine.after l c w).orders.get o = w.orders.get o) : r' = r :=
    Option.some.inj (hr'.symm.trans (he.trans hr))
  cases h with
  | read => exact hsame rfl ▸ hI
  | enter o' l c w =>
    rw [hsame rfl]
    exact hI.leave (fun _ h => by cases h) (by simp) (fun _ => by simp) (by simp)
  | watch _ _ _ _ hw _ => exact hw.elim
  | readFails o' i l' c w hf hcs =>
    rw [hsame rfl]
    by_cases ho : o' = o
    · subst ho
      rcases caught_held hI hr hC with h | h
      · rw [hcs] at h; cases h
      · exact absurd (Option.isNone_iff_eq_none.mp h) hf
    · exact hI.leave (fun _ h => by cases h; exact ho rfl) (by simp)
        (fun _ => ⟨by simp, fun h => by cases h; exact ho rfl⟩) (by simp)
  | closed o' i c w hclosed =>
    rw [hsame rfl]
    by_cases ho : o' = o
    · subst ho
      have hopen := (hI.held i rfl).1
      simp [World.openOrder, hr, hopen] at hclosed
    · exact hI.leave (fun _ h => by cases h; exact ho rfl) (by simp)
        (fun _ => ⟨by simp, fun h => by cases h; exact ho rfl⟩) (by simp)
  | cancelledBefore o' c w h =>
    rw [hsame rfl]
    exact hI.leave (by simp) (by simp) (by simp) (by simp)
  | illegal o' c w h =>
    rw [hsame rfl]
    exact hI.leave (by simp) (by simp) (by simp) (by simp)
  | lapse o' c w h =>
    rw [hsame rfl]
    exact hI.leave (by simp) (by simp) (by simp) (by simp)
  | side _ s _ _ hs hd =>
    obtain ⟨q, hq, heff⟩ := World.exec_order (s := s) (c := c) hr
    cases hq.symm.trans hr'
    exact leakless_side hI hs (hd o) heff
  | event o' e _ _ => rw [hsame (by rw [after_frame rfl])]; exact hI
  | deadline o' n _ _ =>
    obtain ⟨q, hq, heff⟩ := World.exec_order (s := .order (.setInspectionDeadline o' n)) (c := c) hr
    cases hq.symm.trans hr'
    cases heff with
    | same => exact hI
    | write u stmt row rewrite => cases stmt; cases rewrite; exact hI.of_eq rfl rfl
    | sale counter price at_ stmt => cases stmt
  | claimed o' statuses i _ _ hs hw =>
    by_cases ho : o' = o
    · subst ho
      obtain ⟨n, hn⟩ := hw
      rcases World.exec_orderStmt (u := .claim o' statuses i) (c := c) hr with
        ⟨_, he⟩ | ⟨_, he⟩ | ⟨q, hq, he⟩
      · rw [he] at hn; cases hn
      · rw [he] at hn; cases hn
      · have hrow : r' = q := by simpa [machine, he, OrderStmt.order] using hr'.symm
        subst hrow
        simp only [OrderStmt.rewrite] at hq
        split at hq <;> cases hq
        next hm =>
        refine ⟨fun j hj => ?_, fun j hj => (by cases hj), fun hj => (by cases hj), fun hj => ?_⟩
        · cases hj; exact ⟨by simpa [Order.isOpen] using hs _ hm.1, rfl⟩
        · exact absurd rfl (hj i)
    · rw [hsame (after_other ho)]
      exact hI.leave (by simp) (by simp) (fun j => ⟨fun h => by cases h; exact ho rfl, by simp⟩)
        (by simp)
  | missed o' statuses i _ _ hw =>
    by_cases ho : o' = o
    · subst ho
      rcases World.exec_orderStmt (u := .claim o' statuses i) (c := c) hr with
        ⟨_, he⟩ | ⟨_, he⟩ | ⟨q, _, he⟩
      · rw [hsame (by simp [machine, he])]; exact hI
      · rw [hsame (by simp [machine, he])]; exact hI
      · exact absurd ⟨0, by rw [he]⟩ hw
    · rw [hsame (after_other ho)]; exact hI
  | released o' i _ _ n hn =>
    by_cases ho : o' = o
    · subst ho
      obtain ⟨hopen, hid⟩ := hI.held i rfl
      rcases World.exec_orderStmt (u := .releaseClaim o' i) (c := c) hr with
        ⟨_, he⟩ | ⟨hq, _⟩ | ⟨q, hq, he⟩
      · rw [he] at hn; cases hn
      · simp only [OrderStmt.rewrite] at hq
        rw [if_pos ⟨hid, by simpa [Order.isOpen] using hopen⟩] at hq
        cases hq
      · have hrow : r' = q := by simpa [machine, he, OrderStmt.order] using hr'.symm
        subst hrow
        simp only [OrderStmt.rewrite] at hq
        split at hq <;> cases hq
        exact ⟨fun _ h => (by cases h), by simp, fun h => (by cases h), fun _ _ => rfl⟩
    · rw [hsame (after_other ho)]
      exact hI.leave (fun j h => by cases h; exact ho rfl) (by simp) (by simp) (by simp)
  | writeFails o' i s _ _ e he hc hs =>
    have ht : s.touchesProvider = false := by cases s <;> first | rfl | cases hc
    rw [hsame (by rw [after_fails ht he])]
    by_cases ho : o' = o
    · subst ho
      rcases caught_held hI hr hC with h | h
      · rw [hc] at h; cases h
      · rw [he] at h; cases h
    · exact hI.leave (fun j h => by cases h; exact ho rfl) (by simp)
        (fun j => ⟨by simp, fun h => by cases h; exact ho rfl⟩) (by simp)
  | assigned o' i source legal _ _ n hn =>
    by_cases ho : o' = o
    · subst ho
      rcases World.exec_orderStmt (u := .transition o' source OrderStatus.assigned legal) (c := c)
        hr with ⟨_, he⟩ | ⟨hq, _⟩ | ⟨q, hq, he⟩
      · rw [he] at hn; cases hn
      · cases hq
      · have hrow : r' = q := by simpa [machine, he, OrderStmt.order] using hr'.symm
        subst hrow
        cases hq
        exact ⟨fun _ h => (by cases h), by simp, fun _ => rfl, fun _ h => absurd rfl h⟩
    · rw [hsame (after_other ho)]
      exact hI.leave (fun j h => by cases h; exact ho rfl) (by simp) (by simp)
        (fun h => by cases h; exact ho rfl)
  | cancelled o' source legal _ _ n hn =>
    by_cases ho : o' = o
    · subst ho
      have hfree := hI.free (by simp) (by simp)
      rcases World.exec_orderStmt (u := .transition o' source OrderStatus.cancelled legal) (c := c)
        hr with ⟨_, he⟩ | ⟨hq, _⟩ | ⟨q, hq, he⟩
      · rw [he] at hn; cases hn
      · cases hq
      · have hrow : r' = q := by simpa [machine, he, OrderStmt.order] using hr'.symm
        subst hrow
        cases hq
        exact ⟨fun _ h => (by cases h), by simp, fun h => (by cases h), fun _ _ => hfree⟩
    · rw [hsame (after_other ho)]
      exact hI.leave (by simp) (by simp) (by simp) (by simp)
  | cancelFails o' source legal _ _ e he =>
    rw [hsame (by rw [after_fails rfl he])]
    exact hI.leave (by simp) (by simp) (by simp) (by simp)
  | refund o' reason k s intent _ _ hk hs =>
    rw [hsame (by rw [after_frame (by cases hs <;> rfl)])]; exact hI
  | capture _ o' k intent amountCents _ _ hk hc =>
    rw [hsame (by rw [after_frame rfl])]; exact hI

end Moves

section Runs

variable {reg : Registry} {o : OrderId}

theorem leakKept : (claimDiscipline (searchScope reg)).Invariant machine noRecord
    (failsCaught o) (LeakKept reg o) where
  view Φ x t h := h.registry
  move Φ x t l c ph h hC hm := by
    obtain ⟨r, hr, hI⟩ := h.row
    obtain ⟨r', hr', hrow⟩ := rowMove searchSide_assigned hm hr
    have hreg := (registry_after (fun _ => searchSide_opens) hm).trans h.registry
    by_cases ht : t = 0
    · subst ht
      refine ⟨hreg, fun u hu => ?_, fun os => ?_, r', hr', ?_⟩
      · rw [Function.update_of_ne hu]; exact h.others u hu
      · rw [Function.update_self]; exact not_working (fun h => h) hm h.idle os
      · rw [Function.update_self]; exact leakless_move hm hI h.idle hr hr' hC
    · obtain ⟨o', ho'⟩ := h.others t ht
      rw [ho'] at hm hrow
      have h0 : Function.update Φ t ph 0 = Φ 0 := Function.update_of_ne (Ne.symm ht) _ _
      refine ⟨hreg, fun u hu => ?_, fun os => ?_, r', hr', ?_⟩
      · by_cases hut : u = t
        · subst hut
          exact ⟨o', by rw [Function.update_self]; exact done_move hm⟩
        · rw [Function.update_of_ne hut]; exact h.others u hu
      · rw [h0]; exact h.idle os
      · rw [h0]; exact leakless_other hrow hI
  env Φ x c h := by
    obtain ⟨now, he⟩ := World.tick_eq c x.1
    rw [show machine.env = World.tick from rfl, he]
    exact ⟨h.registry, h.others, h.idle, h.row⟩

/-- No claim leaks, where nothing that goes uncaught fails during a claim. -/
theorem no_claim_leak (w : World) (op : Op) (o : OrderId) (r₀ : Order) (g : Run Unit)
    (hop : op.takesClaim) (hr₀ : w.orders.get o = some r₀) (_ : r₀.isOpen)
    (hfree : r₀.inspectorId = none)
    (hreach : Pool.Reach machine noRecord (failsCaught o) (launch w () [op]) g)
    (hend : g.AllEnded) (r : Order) (hr : g.state.orders.get o = some r) (hr' : r.isOpen) :
    r.inspectorId = none := by
  have hops : ∀ p ∈ [op], p.claims := by
    intro p hp
    cases List.mem_singleton.mp hp
    cases op <;> trivial
  have hstart : (claimDiscipline (searchScope w.registry)).Kept machine
      (LeakKept w.registry o) Stance.Rest (fun t => if t = 0 then .out else .done 0)
      (launch w () [op]) := by
    refine ⟨⟨rfl, fun t ht => ⟨0, if_neg ht⟩, fun _ h => (by cases h), r₀, hr₀, ?_⟩,
      fun t p hp => ?_,
      fun t _ => ?_⟩
    · exact ⟨fun _ h => (by cases h), fun _ h => (by cases h), fun h => (by cases h),
        fun _ _ => hfree⟩
    · cases t with
      | zero => cases hp; exact searchFlow _ (hops op (by simp)) _ rfl
      | succ t => simp [launch] at hp
    · by_cases ht : t = 0
      · exact .inl (if_pos ht)
      · exact .inr (.inl ⟨0, if_neg ht⟩)
  obtain ⟨Φ, hk⟩ := Discipline.kept_of_reach leakKept hstart hreach
  have hrest : (Φ 0).Rest := hk.ended hend 0
  obtain ⟨q, hq, hI⟩ := hk.inv.row
  cases hr.symm.trans hq
  have hdone : Φ 0 ≠ .done o := fun h => by rw [hI.done h] at hr'; cases hr'
  refine hI.free (fun i h => ?_) hdone
  rcases hrest with h' | ⟨o', h'⟩ | ⟨o', i', h'⟩ | ⟨os, h'⟩ <;> (rw [h'] at h; cases h)

end Runs

section Leak

def oneAccept : Run Unit := launch searchWorld () [.acceptOffer 1 8]

/-- Whether the run is over, and the status and the inspector of the order. -/
def claimLeft (g : Run Unit) : Bool × Option (OrderStatus × Option UserId) :=
  (decide g.AllEnded, (g.state.orders.get 1).map fun r => (r.status, r.inspectorId))

/-- The update of the offer fails after the claim, and the call ends with it. -/
theorem failed_offer_leaks : ¬ NoClaimLeak fun _ => anyStep := by
  intro hlaw
  have hrun : Pool.observe machine noRecord anyStep claimLeft (goes 0 6) (.run 0 .down)
      oneAccept = some ((false, some (paid, some 8)), (true, some (paid, some 8))) := by
    decide +kernel
  obtain ⟨g, g', hg, hm, hs, _, hafter⟩ := Pool.observe_eq hrun
  obtain ⟨r, hr, hrow⟩ := Option.map_eq_some_iff.mp (congrArg Prod.snd hafter)
  obtain ⟨hst, hid⟩ := Prod.mk.inj hrow
  have hend : g'.AllEnded := of_decide_eq_true (congrArg Prod.fst hafter)
  have hfree := hlaw searchWorld (.acceptOffer 1 8) 1 paidOrder g' trivial rfl rfl rfl
    (.next (m := .run 0 .down) hg hm hs) hend r hr
      (by rw [Order.isOpen, hst]; decide)
  rw [hid] at hfree
  cases hfree

/-- The provider is down, and the call gives the order back. -/
theorem no_claim_leak_deferred : ∃ (g : Run Unit) (r : Order), g.AllEnded ∧
    g.state.orders.get 1 = some r ∧ r.status = paid ∧ (r.isOpen → r.inspectorId = none) := by
  have hrun : Pool.observe machine noRecord (failsCaught 1) claimLeft
      (goes 0 9 ++ [.run 0 .down] ++ goes 0 2) (.run 0 .ok) oneAccept =
      some ((false, some (paid, none)), (true, some (paid, none))) := by decide +kernel
  obtain ⟨g, g', hg, hm, hs, _, hafter⟩ := Pool.observe_eq hrun
  obtain ⟨r, hr, hrow⟩ := Option.map_eq_some_iff.mp (congrArg Prod.snd hafter)
  have hend : g'.AllEnded := of_decide_eq_true (congrArg Prod.fst hafter)
  refine ⟨g', r, hend, hr, (Prod.mk.inj hrow).1, ?_⟩
  exact no_claim_leak searchWorld (.acceptOffer 1 8) 1 paidOrder g' trivial rfl rfl rfl
    (.next (m := .run 0 .ok) hg hm hs) hend r hr

end Leak

end CarSalePro
