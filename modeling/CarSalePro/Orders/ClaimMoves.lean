import CarSalePro.Orders.ClaimFlows

namespace CarSalePro

open Store Interleave OrderStatus

/-- What one move of a claim does to the row of order `o`. -/
inductive RowMove (S : ClaimScope) (o : OrderId) (l : Label Site Stmt) (now : Time) :
    Stance → Stance → Order → Order → Prop where
  | idle {ph ph' : Stance} (r : Order) (claim : ∀ i, ph' = .held o i → ph = .held o i)
      (write : ∀ source legal, l = .call (.order (.transition o source assigned legal)) →
        ∃ i, ph = .held o i) : RowMove S o l now ph ph' r r
  | side {ph : Stance} {r r' : Order} (s : Stmt) (label : l = .call s) (side : S.side s)
      (plain : ∀ o, ph ≠ .done o) (effect : OrderEffect s now o r r') : RowMove S o l now ph ph r r'
  | deadline (r : Order) (n : Nat) (label : l = .call (.order (.setInspectionDeadline o n))) :
      RowMove S o l now (.done o) (.done o) r
        { r with inspectionDeadlineAt := some (now + days n) }
  | claimed (r : Order) (statuses : List OrderStatus) (i : UserId)
      (label : l = .call (.order (.claim o statuses i))) (search : r.isOpen)
      (free : r.inspectorId = none) :
      RowMove S o l now .out (.held o i) r { r with inspectorId := some i }
  | released (r : Order) (i : UserId) (label : l = .call (.order (.releaseClaim o i)))
      (search : r.isOpen) (mine : r.inspectorId = some i) :
      RowMove S o l now (.held o i) .out r { r with inspectorId := none }
  | assigned (r : Order) (i : UserId) (source : OrderStatus)
      (legal : canTransition source assigned)
      (label : l = .call (.order (.transition o source assigned legal))) :
      RowMove S o l now (.held o i) (.done o) r { r with status := assigned }
  | cancelled (r : Order) (source : OrderStatus) (legal : canTransition source cancelled)
      (label : l = .call (.order (.transition o source cancelled legal))) :
      RowMove S o l now (.closing o) .out r { r with status := cancelled }

namespace RowMove

variable {S : ClaimScope} {o : OrderId} {l : Label Site Stmt} {now : Time} {ph ph' : Stance}

/-- A move that does not reach the row. -/
theorem of_idle {r : Order} (hheld : ∀ i, ph' = .held o i → ph = .held o i)
    (hw : ∀ source legal, l ≠ .call (.order (.transition o source OrderStatus.assigned legal))) :
    RowMove S o l now ph ph' r r :=
  .idle r hheld fun source legal h => absurd h (hw source legal)

end RowMove

variable {S : ClaimScope} {o : OrderId} {ph ph' : Stance} {l : Label Site Stmt} {c : Fate}
  {w : World} {r : Order}

theorem rowMove_ask {site : Site} (hh : ∀ i, ph' = .held o i → ph = .held o i)
    (hr : w.orders.get o = some r) :
    ∃ r', (machine.after (.ask site) c w).orders.get o = some r' ∧
      RowMove S o (.ask site) w.now ph ph' r r' :=
  ⟨r, hr, .of_idle hh fun _ _ h => by cases h⟩

theorem after_frame {s : Stmt} (ht : s.touchesOrders = false) :
    (machine.after (.call s) c w).orders = w.orders :=
  (World.frame_exec s c w).orders ht

theorem after_other {u : OrderStmt} (ho : u.order ≠ o) :
    (machine.after (.call (.order u)) c w).orders.get o = w.orders.get o := by
  rw [Machine.after_call, show machine.exec = World.exec from rfl]
  rcases World.exec_cases (.order u) c w with ⟨call, h, _⟩ | ⟨_, _, he⟩ | ⟨_, _, he⟩
  · cases h
  · rw [he]
  · rw [he]
    simp only [World.write, World.writeOrder]
    split
    · rfl
    · split
      · rfl
      · simp [Ne.symm ho]

theorem after_fails {s : Stmt} {e : Err} (ht : s.touchesProvider = false)
    (he : (World.exec s c w).1 = .error e) :
    (machine.after (.call s) c w).orders = w.orders :=
  World.exec_error ht he

/-- A statement that leaves the order table alone. -/
theorem rowMove_frame {s : Stmt} (ht : s.touchesOrders = false)
    (hh : ∀ i, ph' = .held o i → ph = .held o i) (hr : w.orders.get o = some r) :
    ∃ r', (machine.after (.call s) c w).orders.get o = some r' ∧
      RowMove S o (.call s) w.now ph ph' r r' := by
  refine ⟨r, by rw [after_frame ht, hr], .of_idle hh fun _ _ h => ?_⟩
  cases h; cases ht

/-- A statement on the row of another order. -/
theorem rowMove_other {u : OrderStmt} (ho : u.order ≠ o)
    (hh : ∀ i, ph' = .held o i → ph = .held o i) (hr : w.orders.get o = some r) :
    ∃ r', (machine.after (.call (.order u)) c w).orders.get o = some r' ∧
      RowMove S o (.call (.order u)) w.now ph ph' r r' :=
  ⟨r, by rw [after_other ho, hr], .of_idle hh fun _ _ h => ho (by cases h; rfl)⟩

/-- A database statement that failed. -/
theorem rowMove_fails {s : Stmt} {e : Err} (ht : s.touchesProvider = false)
    (he : (World.exec s c w).1 = .error e) (hh : ∀ i, ph' = .held o i → ph = .held o i)
    (hw : ∀ source legal, s = .order (.transition o source OrderStatus.assigned legal) →
      ∃ i, ph = .held o i) (hr : w.orders.get o = some r) :
    ∃ r', (machine.after (.call s) c w).orders.get o = some r' ∧
      RowMove S o (.call s) w.now ph ph' r r' := by
  refine ⟨r, ?_, .idle r hh fun source legal h => hw source legal (by cases h; rfl)⟩
  rw [after_fails ht he, hr]

/-- The inversion of a move, at the row of one order. -/
theorem rowMove (hS : ∀ source legal, ¬ S.side (.order (.transition o source assigned legal)))
    (h : ClaimMove S ph l c w ph') (hr : w.orders.get o = some r) :
    ∃ r', (machine.after l c w).orders.get o = some r' ∧ RowMove S o l w.now ph ph' r r' := by
  cases h with
  | read => exact rowMove_ask (fun _ h => h) hr
  | enter => exact rowMove_ask (fun _ h => by cases h) hr
  | watch => exact rowMove_ask (fun _ h => by cases h) hr
  | readFails => exact rowMove_ask (fun _ h => by cases h) hr
  | closed => exact rowMove_ask (fun _ h => by cases h) hr
  | cancelledBefore => exact rowMove_ask (fun _ h => by cases h) hr
  | illegal => exact rowMove_ask (fun _ h => by cases h) hr
  | lapse => exact rowMove_ask (fun _ h => by cases h) hr
  | side _ s _ _ hs hd =>
    obtain ⟨r', hr', heff⟩ := World.exec_order (s := s) (c := c) hr
    exact ⟨r', hr', .side s rfl hs hd heff⟩
  | event o' e _ _ => exact rowMove_frame rfl (fun _ h => h) hr
  | capture _ o' k intent amountCents _ _ hk hc => exact rowMove_frame rfl (fun _ h => h) hr
  | refund o' reason k s intent _ _ hk hs =>
    exact rowMove_frame (by cases hs <;> rfl) (fun _ h => by cases h) hr
  | writeFails o' i s _ _ e he hc hs =>
    have ht : s.touchesProvider = false := by
      cases s <;> first | rfl | cases hc
    refine rowMove_fails ht he (fun _ h => by cases h) (fun source legal hw => ?_) hr
    rcases hs with hs | hs
    · subst hw; exact absurd hs (hS source legal)
    · subst hw; cases hs; exact ⟨i, rfl⟩
  | deadline o' n _ _ =>
    by_cases ho : o' = o
    · subst ho
      rcases World.exec_orderStmt (u := .setInspectionDeadline o' n) (c := c) hr with
        ⟨_, he⟩ | ⟨hn, _⟩ | ⟨r', hr', he⟩
      · exact rowMove_fails rfl (by rw [he]) (fun _ h => h) (fun _ _ h => by cases h) hr
      · cases hn
      · cases hr'
        exact ⟨_, by simp [machine, he, OrderStmt.order], .deadline r n rfl⟩
    · exact rowMove_other ho (fun _ h => by cases h) hr
  | claimed o' statuses i _ _ hs hwrote =>
    by_cases ho : o' = o
    · subst ho
      obtain ⟨n, hn⟩ := hwrote
      rcases World.exec_orderStmt (u := .claim o' statuses i) (c := c) hr with
        ⟨_, he⟩ | ⟨_, he⟩ | ⟨r', hr', he⟩
      · rw [he] at hn; cases hn
      · rw [he] at hn; cases hn
      · simp only [OrderStmt.rewrite] at hr'
        split at hr'
        next hm =>
          cases hr'
          refine ⟨_, by simp [machine, he, OrderStmt.order], .claimed r statuses i rfl ?_ hm.2⟩
          simpa [Order.isOpen] using hs _ hm.1
        next => cases hr'
    · refine rowMove_other ho (fun j h => ?_) hr
      cases h; exact absurd rfl ho
  | missed o' statuses i _ _ hw =>
    by_cases ho : o' = o
    · subst ho
      have hidle : RowMove S o' (.call (.order (.claim o' statuses i))) w.now .out .out r r :=
        .of_idle (fun _ h => h) fun _ _ h => by cases h
      rcases World.exec_orderStmt (u := .claim o' statuses i) (c := c) hr with
        ⟨_, he⟩ | ⟨_, he⟩ | ⟨r', _, he⟩
      · exact ⟨r, by simp [machine, he, hr], hidle⟩
      · exact ⟨r, by simp [machine, he, hr], hidle⟩
      · exact absurd ⟨0, by rw [he]⟩ hw
    · exact rowMove_other ho (fun _ h => h) hr
  | released o' i _ _ n hn =>
    by_cases ho : o' = o
    · subst ho
      have hidle : RowMove S o' (.call (.order (.releaseClaim o' i))) w.now (.held o' i) .out r r :=
        .of_idle (fun _ h => by cases h) fun _ _ h => by cases h
      rcases World.exec_orderStmt (u := .releaseClaim o' i) (c := c) hr with
        ⟨_, he⟩ | ⟨_, he⟩ | ⟨r', hr', he⟩
      · exact ⟨r, by simp [machine, he, hr], hidle⟩
      · exact ⟨r, by simp [machine, he, hr], hidle⟩
      · simp only [OrderStmt.rewrite] at hr'
        split at hr'
        next hm =>
          cases hr'
          refine ⟨_, by simp [machine, he, OrderStmt.order], .released r i rfl ?_ hm.1⟩
          simpa [Order.isOpen] using hm.2
        next => cases hr'
    · exact rowMove_other ho (fun _ h => by cases h) hr
  | assigned o' i source legal _ _ n hn =>
    by_cases ho : o' = o
    · subst ho
      rcases World.exec_orderStmt (u := .transition o' source OrderStatus.assigned legal)
        (c := c) hr
        with ⟨_, he⟩ | ⟨hnone, _⟩ | ⟨r', hr', he⟩
      · rw [he] at hn; cases hn
      · cases hnone
      · cases hr'
        exact ⟨_, by simp [machine, he, OrderStmt.order], .assigned r i source legal rfl⟩
    · exact rowMove_other ho (fun _ h => by cases h) hr
  | cancelled o' source legal _ _ n hn =>
    by_cases ho : o' = o
    · subst ho
      rcases World.exec_orderStmt (u := .transition o' source OrderStatus.cancelled legal) (c := c)
        hr with ⟨_, he⟩ | ⟨hnone, _⟩ | ⟨r', hr', he⟩
      · rw [he] at hn; cases hn
      · cases hnone
      · cases hr'
        exact ⟨_, by simp [machine, he, OrderStmt.order], .cancelled r source legal rfl⟩
    · exact rowMove_other ho (fun _ h => by cases h) hr
  | cancelFails o' source legal _ _ e he =>
    refine rowMove_fails rfl he (fun _ h => by cases h) (fun _ _ h => ?_) hr
    cases h

/-- Only a claim and its release change the inspector of the row, where no side statement does. -/
theorem inspector_move {now : Time} {r' : Order} (hm : RowMove S o l now ph ph' r r')
    (hS : ∀ s, S.side s → OrderEffect s now o r r' → r'.inspectorId = r.inspectorId) :
    r'.inspectorId = r.inspectorId ∨
    (r.inspectorId = none ∧ r.isOpen ∧ r'.status = r.status ∧
      ∃ i, ph' = .held o i ∧ r'.inspectorId = some i) ∨
    (∃ i, ph = .held o i ∧ ph' = .out ∧ r.isOpen ∧ r'.status = r.status ∧ r'.inspectorId = none ∧
      l = .call (.order (.releaseClaim o i))) := by
  cases hm with
  | idle => exact .inl rfl
  | side s label side plain effect => exact .inl (hS s side effect)
  | deadline => exact .inl rfl
  | claimed _ statuses i label search free =>
    exact .inr (.inl ⟨free, search, rfl, i, rfl, rfl⟩)
  | released _ i label search mine => exact .inr (.inr ⟨i, rfl, rfl, search, rfl, rfl, label⟩)
  | assigned => exact .inl rfl
  | cancelled => exact .inl rfl

theorem held_move {now : Time} {r' : Order} (hm : RowMove S o l now ph ph' r r') {i : UserId}
    (hp : ph' = .held o i) :
    ph = .held o i ∨ (r.inspectorId = none ∧ r'.inspectorId = some i) := by
  cases hm with
  | idle _ claim => exact .inl (claim i hp)
  | side => exact .inl hp
  | claimed _ statuses j label search free => cases hp; exact .inr ⟨free, rfl⟩
  | _ => cases hp

/-- An order is held for the inspector in its row, by one thread at a time. -/
structure Holders (o : OrderId) (Φ : Nat → Stance) (r : Order) : Prop where
  mine : ∀ t i, Φ t = .held o i → r.inspectorId = some i
  unique : ∀ t u i j, Φ t = .held o i → Φ u = .held o j → t = u

theorem Holders.move {Φ : Nat → Stance} {t : Nat} {now : Time} {r' : Order} (hI : Holders o Φ r)
    (hm : RowMove S o l now (Φ t) ph' r r')
    (hS : ∀ s, S.side s → OrderEffect s now o r r' → r'.inspectorId = r.inspectorId) :
    Holders o (Function.update Φ t ph') r' := by
  have hheld (u : Nat) (i : UserId) (hu : Function.update Φ t ph' u = .held o i) :
      Φ u = .held o i ∨ (u = t ∧ r.inspectorId = none ∧ r'.inspectorId = some i) := by
    by_cases hut : u = t
    · subst hut
      rw [Function.update_self] at hu
      exact (held_move hm hu).imp id fun h => ⟨rfl, h⟩
    · rw [Function.update_of_ne hut] at hu
      exact .inl hu
  constructor
  case mine =>
    intro u i hui
    rcases hheld u i hui with hΦ | ⟨_, _, hid⟩
    · have hmine := hI.mine u i hΦ
      rcases inspector_move hm hS with hid | ⟨hfree, _⟩ | ⟨j, hj, hout, _⟩
      · rw [hid, hmine]
      · rw [hmine] at hfree; cases hfree
      · cases hI.unique u t i j hΦ hj
        rw [Function.update_self, hout] at hui
        cases hui
    · exact hid
  case unique =>
    intro u v i j hui hvj
    rcases hheld u i hui with hu' | ⟨hut, hfree, _⟩
    · rcases hheld v j hvj with hv' | ⟨_, hfree, _⟩
      · exact hI.unique u v i j hu' hv'
      · rw [hI.mine u i hu'] at hfree; cases hfree
    · rcases hheld v j hvj with hv' | ⟨hvt, _, _⟩
      · rw [hI.mine v j hv'] at hfree; cases hfree
      · rw [hut, hvt]

theorem update_held {Φ : Nat → Stance} {t : Nat} (hp : ∀ i, ph = .held o i → Φ t = .held o i)
    (u : Nat) (i : UserId) (hu : Function.update Φ t ph u = .held o i) : Φ u = .held o i := by
  by_cases hut : u = t
  · subst hut
    rw [Function.update_self] at hu
    exact hp i hu
  · rwa [Function.update_of_ne hut] at hu

/-- Where no sweep captures, no thread comes to stand so. -/
theorem not_working (hS : ¬ S.sweeps) (h : ClaimMove S ph l c w ph') (hp : ∀ os, ph ≠ .working os)
    (os : List OrderId) : ph' ≠ .working os := by
  cases h with
  | watch _ _ _ _ hw _ => exact absurd hw hS
  | _ => first | exact hp os | (intro he; cases he)

/-- Which statements a move may issue. -/
theorem call_move {s : Stmt} (h : ClaimMove S ph (.call s) c w ph') :
    S.side s ∨ (∃ u, s = .order u) ∨ (∃ e, s = .event e) ∨
    (∃ o reason k i, ph = .closing o ∧ ph' = .closing o ∧ S.registry k = some (some o, i) ∧
      RefundStmt o reason k i s) ∨
    ∃ i k a, s = .stripe (.capture i k a) ∧ ph' = ph := by
  cases h with
  | side _ _ _ _ hs _ => exact .inl hs
  | event o e => exact .inr (.inr (.inl ⟨e, rfl⟩))
  | deadline o n => exact .inr (.inl ⟨_, rfl⟩)
  | claimed o statuses i => exact .inr (.inl ⟨_, rfl⟩)
  | missed o statuses i => exact .inr (.inl ⟨_, rfl⟩)
  | released o i => exact .inr (.inl ⟨_, rfl⟩)
  | assigned o i source legal => exact .inr (.inl ⟨_, rfl⟩)
  | cancelled o source legal => exact .inr (.inl ⟨_, rfl⟩)
  | cancelFails o source legal => exact .inr (.inl ⟨_, rfl⟩)
  | writeFails o i _ _ _ e he hc hs =>
    rcases hs with hs | hs
    · exact .inl hs
    · cases s <;> first | exact .inr (.inl ⟨_, rfl⟩) | cases hs
  | refund o reason k _ i _ _ hk hs =>
    exact .inr (.inr (.inr (.inl ⟨o, reason, k, i, rfl, rfl, hk, hs⟩)))
  | capture _ o k i a => exact .inr (.inr (.inr (.inr ⟨i, k, a, rfl, rfl⟩)))

/-- No move opens a payment. -/
theorem registry_after (hS : ∀ s, S.side s → s.opensPayment = false)
    (h : ClaimMove S ph l c w ph') : (machine.after l c w).registry = w.registry := by
  cases l with
  | ask site => rfl
  | call s =>
    refine World.registry_exec ?_ c w
    rcases call_move h with hs | ⟨u, rfl⟩ | ⟨e, rfl⟩ | ⟨o, reason, k, i, _, _, _, hs⟩ |
      ⟨i, k, a, rfl, _⟩
    · exact hS s hs
    · rfl
    · rfl
    · cases hs <;> rfl
    · rfl

end CarSalePro
