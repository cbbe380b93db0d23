import CarSalePro.Orders.Alone

namespace CarSalePro

open Store Interleave Prog OrderStatus

/-- The database is up, and a request to Stripe has its effect or none. -/
def definite : Label Site Stmt → Fate → World → Prop :=
  fun l c w => databaseServes l c w ∧ ∀ call, l = .call (.stripe call) → ∀ e, c ≠ .lost e

theorem failsOnly_definite : FailsOnly definite False := fun _ _ _ hl hok hc => hok.1 hl hc

/-- What Stripe has taken on an intent. -/
def World.takenAt (w : World) (i : IntentId) : Option Cents :=
  (w.provider.intents.get i).bind Intent.captured

/-- Nothing was captured on the way from `w` to `v`. -/
structure Untaken (w v : World) : Prop where
  intents : ∀ i, v.takenAt i = w.takenAt i
  rows : ∀ k p, v.payments.get k = some p → p.status = .succeeded →
    ∃ p', w.payments.get k = some p' ∧ p'.status = .succeeded

/-- The order is not sold: the row is as it was, but for a `paid` order that waits again, and
nothing was captured. -/
structure Unsold (w : World) (id : OrderId) (order : Order) (v : World) : Prop where
  order : ∃ status, v.orders.get id = some { order with status := status } ∧
    (status = order.status ∨ order.status = paid ∧ status = unassigned)
  untaken : Untaken w v

/-- The order is sold for price `c`: it is assigned to the inspector who named it and carries its
sums, no price of it waits, and of its payments this one, taken in full, is the only one left. -/
structure Sold (id : OrderId) (payment : PaymentId) (k : CounterOfferId) (c : OrderCounterOffer)
    (v : World) : Prop where
  order : ∃ order, v.orders.get id = some order ∧ order.status = assigned ∧
    order.inspectorId = some c.inspectorId ∧ order.totalCents = c.priceCents ∧
    order.platformFeeCents = c.platformFeeCents ∧ order.inspectorShareCents = c.inspectorShareCents
  accepted : ∃ c', v.counterOffers.get k = some c' ∧ c'.status = .accepted
  queue : ∀ k c, v.counterOffers.get k = some c → c.orderId = id → c.status ≠ .pending
  paid : ∃ p, v.payments.get payment = some p ∧ p.orderId = some id ∧ p.supersededAt = none ∧
    p.status = .succeeded ∧ p.amountCents = c.priceCents ∧
    (v.stripeConfigured = true → v.captured p = some c.priceCents)
  others : ∀ k p, v.payments.get k = some p → p.orderId = some id → k ≠ payment →
    p.supersededAt ≠ none

section Untaken

variable {w v : World} {id : OrderId} {order : Order} {s : Stmt} {f : Fate} {α : Type}

namespace Stmt

/-- The statement takes no money, and marks none as taken. -/
def takesNothing : Stmt → Prop
  | .stripe (.cancel _ _) | .payment (.supersede _ _) | .payment (.authorize _ _) => True
  | .stripe _ | .payment _ | .createPayment _ _ _ => False
  | _ => True

end Stmt

theorem Untaken.refl : Untaken w w := ⟨fun _ => rfl, fun _ p hp hs => ⟨p, hp, hs⟩⟩

theorem Untaken.exec (h : Untaken w v) (hs : s.takesNothing) :
    Untaken w (World.exec s f v).2 := by
  have hopens : s.opensPayment = false := by
    cases s with
    | payment u => cases u <;> first | rfl | exact hs.elim
    | createPayment _ _ _ => exact hs.elim
    | _ => rfl
  constructor
  · intro i
    rw [← h.intents i]
    unfold World.takenAt
    cases hi : v.provider.intents.get i with
    | none =>
      cases hi' : (World.exec s f v).2.provider.intents.get i with
      | none => rfl
      | some x =>
        have hnew := World.exec_intent_none hi hi'
        simp [Intent.captured, hnew]
    | some x =>
      obtain ⟨x', hx', heff⟩ := World.exec_intent (s := s) (c := f) hi
      rw [hx']
      rcases heff with rfl | ⟨call, rfl, heff⟩
      · rfl
      cases heff with
      | same => rfl
      | capture payment amountCents heq => subst heq; exact hs.elim
      | cancel payment heq hopen =>
        rcases hopen with hopen | hopen <;> simp [Intent.captured, hopen]
      | refund amountCents order reason captured refunded heq => subst heq; exact hs.elim
  · intro k p' hp' hstatus
    cases hk : v.payments.get k with
    | none =>
      rw [World.exec_payment_none hopens hk] at hp'
      cases hp'
    | some p =>
      obtain ⟨x, hx, heff⟩ := World.exec_payment (s := s) (c := f) hk
      cases hp'.symm.trans hx
      refine h.rows k p hk ?_
      rcases heff with rfl | ⟨u, rfl, hu⟩
      · exact hstatus
      cases u with
      | supersede j released =>
        simp only [PaymentStmt.rewrite] at hu
        split at hu
        · cases released <;> (cases hu; first | exact hstatus | cases hstatus)
        · cases hu
      | authorize j at_ =>
        simp only [PaymentStmt.rewrite] at hu
        split at hu
        · cases hu
          cases hstatus
        · cases hu
      | _ => exact hs.elim

/-- The statements that sell nothing. -/
def SellsNothing (id : OrderId) (order : Order) (s : Stmt) : Prop :=
  s.takesNothing ∧ (s.touchesOrders = false ∨ order.status ∈ searchStatuses ∧
    ∃ source legal, s = .order (.transition id source unassigned legal))

theorem Unsold.exec (h : Unsold w id order v) (hs : SellsNothing id order s) :
    Unsold w id order (World.exec s f v).2 := by
  refine ⟨?_, h.untaken.exec hs.1⟩
  obtain ⟨status, hrow, hstatus⟩ := h.order
  rcases hs.2 with ht | ⟨hsearch, source, legal, rfl⟩
  · rw [(World.frame_exec s f v).orders ht]
    exact ⟨status, hrow, hstatus⟩
  · obtain ⟨r, hr, heff⟩ := World.exec_order (s := .order (.transition id source unassigned legal))
      (c := f) hrow
    cases heff with
    | same => exact ⟨status, hr, hstatus⟩
    | write u heq ho hw =>
      cases heq
      cases hw
      refine ⟨unassigned, hr, ?_⟩
      simp only [searchStatuses, List.mem_cons, List.not_mem_nil, or_false] at hsearch
      rcases hsearch with hpaid | hwaits
      · exact .inr ⟨hpaid, rfl⟩
      · exact .inl hwaits.symm
    | sale counter price at_ heq => cases heq

/-- A program that sells nothing. -/
theorem unsold_spec {p : Act α} (hp : p.Only (SellsNothing id order)) (h : Unsold w id order v) :
    Triple machine definite (· = v) p (fun _ => Unsold w id order) fun _ => Unsold w id order := by
  refine (Triple.keeps hp ?_).weaken (fun u hu => hu ▸ h) (fun _ _ h => h) fun _ _ h => h
  intro s f u hs _ hu
  exact hu.exec hs

theorem Unsold.refl (horder : w.orders.get id = some order) : Unsold w id order w :=
  ⟨⟨order.status, horder, .inl rfl⟩, .refl⟩

theorem SupersedeStmt.sellsNothing (hs : SupersedeStmt s) : SellsNothing id order s := by
  cases hs <;> exact ⟨trivial, .inl rfl⟩

theorem PromoteStmt.sellsNothing {o : OrderId} (hs : PromoteStmt o s) :
    SellsNothing id order s := by
  cases hs <;> exact ⟨trivial, .inl rfl⟩

theorem DispatchStmt.sellsNothing (hsearch : order.status ∈ searchStatuses)
    (hs : DispatchStmt id s) : SellsNothing id order s := by
  cases hs with
  | offer o h => exact ⟨trivial, .inl rfl⟩
  | event e => exact ⟨trivial, .inl rfl⟩
  | unassign source legal => exact ⟨trivial, .inr ⟨hsearch, source, legal, rfl⟩⟩

end Untaken

/-- What Stripe has for a payment fits its row: an intent over its amount, taken in full when it is,
and taken where the row says so. -/
structure World.Backs (w : World) (p : Payment) : Prop where
  intent : ∀ i, p.stripePaymentIntentId = some i → ∃ x, w.provider.intents.get i = some x ∧
    x.amountCents = p.amountCents ∧ ∀ a, x.captured = some a → a = p.amountCents
  taken : w.stripeConfigured = true → p.status = .succeeded → w.captured p = some p.amountCents

section Handing

/-- The order is claimed for the inspector of price `c`, and payment `payment`, opened with the
money of `p`, is the only one left of it, but for those of `rest`. -/
structure Handing (w : World) (id : OrderId) (payment : PaymentId) (p : Payment) (order : Order)
    (c : OrderCounterOffer) (rest : List PaymentId) (v : World) : Prop where
  order : v.orders.get id = some { order with inspectorId := some c.inspectorId }
  prices : v.counterOffers = w.counterOffers
  config : v.stripeConfigured = w.stripeConfigured
  row : ∃ p', v.payments.get payment = some p' ∧ p'.orderId = some id ∧ p'.supersededAt = none ∧
    p'.amountCents = c.priceCents ∧ p'.stripePaymentIntentId = p.stripePaymentIntentId
  backed : ∀ i, p.stripePaymentIntentId = some i → ∃ x, v.provider.intents.get i = some x ∧
    x.amountCents = c.priceCents ∧ ∀ a, x.captured = some a → a = c.priceCents
  others : ∀ k p, v.payments.get k = some p → p.orderId = some id → k ≠ payment → k ∉ rest →
    p.supersededAt ≠ none
  rest : ∀ k ∈ rest, (v.payments.get k).isSome
  unlive : activePaymentConflict v.payments = false

variable {w v : World} {id : OrderId} {payment : PaymentId} {p : Payment} {order : Order}
  {c : OrderCounterOffer} {rest : List PaymentId} {s : Stmt} {f : Fate} {α : Type}

/-- The statements of the handover, once the order is claimed. -/
def Stmt.hands (payment : PaymentId) : Stmt → Prop
  | .stripe (.cancel _ _) | .stripe (.capture _ _ none) | .event _ => True
  | .payment (.supersede k _) => k ≠ payment
  | .payment (.authorize k _) | .payment (.markCaptured k) | .payment (.stampCaptured k) =>
    k = payment
  | _ => False

/-- What such a statement writes to a payment: another one is superseded at most, and this one
keeps its order, its money and its place. -/
theorem Stmt.hands.row {u : PaymentStmt} {k : PaymentId} {now : Time} {x x' : Payment}
    (hs : Stmt.hands payment (.payment u)) (hu : u.rewrite now k x = some x') :
    x'.orderId = x.orderId ∧ x'.amountCents = x.amountCents ∧
    x'.stripePaymentIntentId = x.stripePaymentIntentId ∧
    (k = payment → x'.supersededAt = x.supersededAt) ∧
    (x.supersededAt ≠ none → x'.supersededAt ≠ none) := by
  cases u with
  | supersede j released =>
    simp only [PaymentStmt.rewrite] at hu
    split at hu
    next hk =>
      have hother : k ≠ payment := hk ▸ hs
      cases released <;>
        (cases hu; exact ⟨rfl, rfl, rfl, fun h => absurd h hother, fun _ => by simp⟩)
    next => cases hu
  | authorize j at_ =>
    simp only [PaymentStmt.rewrite] at hu
    split at hu
    · cases hu
      exact ⟨rfl, rfl, rfl, fun _ => rfl, fun h => h⟩
    · cases hu
  | markCaptured j =>
    simp only [PaymentStmt.rewrite] at hu
    split at hu
    · cases hu
      exact ⟨rfl, rfl, rfl, fun _ => rfl, fun h => h⟩
    · cases hu
  | stampCaptured j =>
    simp only [PaymentStmt.rewrite] at hu
    split at hu
    · cases hu
      exact ⟨rfl, rfl, rfl, fun _ => rfl, fun h => h⟩
    · cases hu
  | _ => exact hs.elim

/-- A payment row after such a statement, and before. -/
theorem Stmt.hands.back {k : PaymentId} {x' : Payment} (hs : s.hands payment)
    (hx' : (World.exec s f v).2.payments.get k = some x') : ∃ x, v.payments.get k = some x ∧
      x'.orderId = x.orderId ∧ (x.supersededAt ≠ none → x'.supersededAt ≠ none) := by
  have hopens : s.opensPayment = false := by
    cases s with
    | payment u => cases u <;> first | rfl | exact hs.elim
    | createPayment _ _ _ => exact hs.elim
    | _ => rfl
  cases hk : v.payments.get k with
  | none =>
    rw [World.exec_payment_none hopens hk] at hx'
    cases hx'
  | some x =>
    obtain ⟨y, hy, heff⟩ := World.exec_payment (s := s) (c := f) hk
    cases hx'.symm.trans hy
    refine ⟨x, rfl, ?_⟩
    rcases heff with rfl | ⟨u, rfl, hu⟩
    · exact ⟨rfl, fun h => h⟩
    · obtain ⟨horder, _, _, _, hsuper⟩ := hs.row hu
      exact ⟨horder, hsuper⟩

/-- No payment is live twice after such a statement. -/
theorem unlive_exec (hlive : activePaymentConflict v.payments = false) (hs : s.hands payment) :
    activePaymentConflict (World.exec s f v).2.payments = false := by
  by_cases ht : s.touchesPayments = false
  · rw [(World.frame_exec s f v).payments ht]
    exact hlive
  rcases World.exec_cases s f v with ⟨call, rfl, _⟩ | ⟨_, _, he⟩ | ⟨_, _, he⟩
  · exact absurd rfl ht
  · rw [he]
    exact hlive
  · rw [he]
    cases s with
    | payment u =>
      simp only [World.write, World.writePayment]
      split
      · exact hlive
      · split
        next => exact hlive
        next hclean => exact Bool.not_eq_true _ ▸ hclean
    | createPayment _ _ _ => exact hs.elim
    | _ => exact absurd rfl ht

/-- Such a statement keeps the handover going. -/
theorem Handing.exec (h : Handing w id payment p order c rest v) (hs : s.hands payment) :
    Handing w id payment p order c rest (World.exec s f v).2 := by
  have hframe := World.frame_exec s f v
  have horders : s.touchesOrders = false := by cases s <;> first | rfl | exact hs.elim
  have hprices : s.touchesCounterOffers = false := by cases s <;> first | rfl | exact hs.elim
  constructor
  · rw [hframe.orders horders]
    exact h.order
  · rw [hframe.counterOffers hprices]
    exact h.prices
  · rw [hframe.stripeConfigured]
    exact h.config
  · obtain ⟨x, hx, horder, hsuper, hamount, hintent⟩ := h.row
    obtain ⟨x', hx', heff⟩ := World.exec_payment (s := s) (c := f) hx
    refine ⟨x', hx', ?_⟩
    rcases heff with rfl | ⟨u, rfl, hu⟩
    · exact ⟨horder, hsuper, hamount, hintent⟩
    · obtain ⟨horder', hamount', hintent', hsuper', _⟩ := hs.row hu
      exact ⟨horder'.trans horder, (hsuper' rfl).trans hsuper, hamount'.trans hamount,
        hintent'.trans hintent⟩
  · intro i hi
    obtain ⟨x, hx, hamount, htaken⟩ := h.backed i hi
    obtain ⟨x', hx', heff⟩ := World.exec_intent (s := s) (c := f) hx
    refine ⟨x', hx', ?_⟩
    rcases heff with rfl | ⟨call, rfl, heff⟩
    · exact ⟨hamount, htaken⟩
    cases heff with
    | same => exact ⟨hamount, htaken⟩
    | capture k amountCents heq hheld hfits =>
      subst heq
      cases amountCents with
      | none =>
        refine ⟨hamount, fun a ha => ?_⟩
        cases ha
        exact hamount
      | some a => exact hs.elim
    | cancel k heq hopen => exact ⟨hamount, nofun⟩
    | refund amountCents o reason captured refunded heq =>
      subst heq
      exact hs.elim
  · intro k x' hx' horder hk hrest
    obtain ⟨x, hx, horder', hsuper⟩ := hs.back hx'
    exact hsuper (h.others k x hx (horder'.symm.trans horder) hk hrest)
  · exact fun k hk => World.exec_payment_isSome (h.rest k hk)
  · exact unlive_exec h.unlive hs

/-- What is written to the payment of the sale alone makes no second live one. -/
theorem Handing.alone (h : Handing w id payment p order c [] v)
    {g : PaymentId → Payment → Option Payment}
    (hg : ∀ k x x', g k x = some x' → k = payment ∧ x'.orderId = x.orderId) :
    activePaymentConflict (v.payments.rewrite g) = false := by
  rw [← Bool.not_eq_true]
  intro hconflict
  obtain ⟨own, hown, hownOrder, _⟩ := h.row
  -- any row but the payment itself is as it was, and of this order no other is live
  have hback {k : PaymentId} {x : Payment} (hx : (v.payments.rewrite g).get k = some x) :
      k = payment ∧ x.orderId = some id ∨
      k ≠ payment ∧ v.payments.get k = some x ∧ (x.live = true → x.orderId ≠ some id) := by
    rw [Table.get_rewrite] at hx
    obtain ⟨y, hy, hrow⟩ := Option.map_eq_some_iff.mp hx
    by_cases hk : k = payment
    · subst hk
      cases hown.symm.trans hy
      refine .inl ⟨rfl, ?_⟩
      cases hgy : g k own with
      | none =>
        rw [hgy] at hrow
        exact hrow ▸ hownOrder
      | some x' =>
        rw [hgy] at hrow
        cases hrow
        exact (hg k own _ hgy).2.trans hownOrder
    · have hnone : g k y = none := by
        cases hgy : g k y with
        | none => rfl
        | some x' => exact absurd (hg k y x' hgy).1 hk
      rw [hnone] at hrow
      cases hrow
      refine .inr ⟨hk, hy, fun hlive horder => ?_⟩
      have hsuper := h.others k y hy horder hk List.not_mem_nil
      unfold Payment.live at hlive
      simp only [Bool.and_eq_true, Option.isNone_iff_eq_none] at hlive
      exact hsuper hlive.1
  have hclean := h.unlive
  unfold activePaymentConflict at hconflict hclean
  simp only [Table.any_eq_true, Bool.and_eq_true, decide_eq_true_eq] at hconflict
  obtain ⟨k, x, hx, ⟨hlive, hsome⟩, k', x', hx', ⟨hne, hlive'⟩, hsame⟩ := hconflict
  rcases hback hx with ⟨hk, horder⟩ | ⟨hk, hold, hother⟩
  · rcases hback hx' with ⟨hk', _⟩ | ⟨_, _, hother'⟩
    · exact hne (hk'.trans hk.symm)
    · exact hother' hlive' (hsame.trans horder)
  · rcases hback hx' with ⟨hk', horder'⟩ | ⟨_, hold', _⟩
    · exact hother hlive (hsame.symm.trans horder')
    · have hbefore := Table.any_eq_false.mp hclean k x hold
      simp only [hlive, hsome, Bool.and_self, Bool.true_and] at hbefore
      have hnone := Table.any_eq_false.mp hbefore k' x' hold'
      simp [hne, hlive', hsame] at hnone

end Handing

section Capture

variable {w v : World} {id : OrderId} {payment : PaymentId} {p : Payment} {order : Order}
  {c : OrderCounterOffer} {rest : List PaymentId} {α : Type}

/-- The handover goes on, and nothing was captured in it. -/
def Uncharged (w : World) (id : OrderId) (payment : PaymentId) (p : Payment) (order : Order)
    (c : OrderCounterOffer) (rest : List PaymentId) (v : World) : Prop :=
  Handing w id payment p order c rest v ∧ Untaken w v

/-- The payment of the sale is taken, in full. -/
def Paid (payment : PaymentId) (c : OrderCounterOffer) (v : World) : Prop :=
  ∃ p, v.payments.get payment = some p ∧ p.status = .succeeded ∧
    (v.stripeConfigured = true → v.captured p = some c.priceCents)

theorem uncharged_spec {q : Act α} (hq : q.Only fun s => s.hands payment ∧ s.takesNothing) :
    Triple machine definite (Uncharged w id payment p order c rest) q
      (fun _ => Uncharged w id payment p order c rest)
      fun _ => Uncharged w id payment p order c rest := by
  apply Triple.keeps hq
  intro s f u hs _ hu
  exact ⟨hu.1.exec hs.1, hu.2.exec hs.2⟩

/-- Superseding a payment of the order. -/
theorem superseded_write {k : PaymentId} (released : Bool) (hv : Handing w id payment p order c
    (k :: rest) v) (hk : k ≠ payment) : ∃ n,
      v.write (.payment (.supersede k released)) =
        (.ok n, (World.exec (.payment (.supersede k released)) .ok v).2) ∧
      Handing w id payment p order c rest
      (World.exec (.payment (.supersede k released)) .ok v).2 := by
  have hexec := exec_ok (w := v) (s := .payment (.supersede k released)) rfl
  obtain ⟨x, hx⟩ := Option.isSome_iff_exists.mp (hv.rest k List.mem_cons_self)
  have hhits :
      v.payments.hits (fun j y => PaymentStmt.rewrite v.now j y (.supersede k released)) ≠ 0 := by
    intro hzero
    have hnone := Table.hits_eq_zero.mp hzero k x hx
    simp [PaymentStmt.rewrite] at hnone
  have hclean : activePaymentConflict (v.payments.rewrite fun j y =>
      PaymentStmt.rewrite v.now j y (.supersede k released)) = false := by
    rw [← Bool.not_eq_true]
    intro hconflict
    have hbefore := activePaymentConflict_rewrite (fun j y y' hy => ?_) hconflict
    · rw [hv.unlive] at hbefore
      cases hbefore
    · simp only [PaymentStmt.rewrite] at hy
      split at hy
      · cases released <;> (cases hy; exact ⟨rfl, fun h => by simp [Payment.live] at h⟩)
      · cases hy
  have hwrite : v.write (.payment (.supersede k released)) =
      (.ok (v.payments.hits fun j y => PaymentStmt.rewrite v.now j y (.supersede k released)),
        { v with payments := v.payments.rewrite fun j y =>
            PaymentStmt.rewrite v.now j y (.supersede k released) }) := by
    simp only [World.write, World.writePayment, hhits, and_false, if_false, hclean,
      Bool.false_eq_true]
  have hgoes := hv.exec (s := .payment (.supersede k released)) (f := .ok) hk
  rw [hexec, hwrite] at hgoes ⊢
  refine ⟨_, rfl, { hgoes with others := fun j y hy horder hj hrest => ?_, rest := fun j hj => ?_ }⟩
  · by_cases hjk : j = k
    · subst hjk
      simp only [Table.get_rewrite, hx, Option.map_some, PaymentStmt.rewrite, if_true,
        Option.getD_some] at hy
      cases released <;> (cases hy; simp)
    · exact hgoes.others j y hy horder hj (by simp [hjk, hrest])
  · exact hgoes.rest j (List.mem_cons_of_mem k hj)

/-- The hold of a payment that was replaced is cancelled, or is not. -/
theorem cancelReplaced_spec (k : PaymentId) (x : Payment) :
    Triple machine definite (Uncharged w id payment p order c rest) (cancelIntentOf k x)
      (fun _ => Uncharged w id payment p order c rest) fun _ _ => False := by
  refine Triple.each fun u hu => ?_
  apply pinned_read failsOnly_definite (by trivial) fun h => h.elim
  refine .ite (fun _ => ?_) fun _ => Triple.pure fun v hv => hv ▸ hu
  split
  next => exact Triple.pure fun v hv => hv ▸ hu
  next intent hintent =>
    have honly : (perform (.stripe (.cancel intent k))).Only fun s =>
        s.hands payment ∧ s.takesNothing := (only_perform _).mpr ⟨trivial, trivial⟩
    have hask : Triple machine definite (· = u) (perform (.stripe (.cancel intent k)))
        (fun _ => Uncharged w id payment p order c rest)
        fun _ => Uncharged w id payment p order c rest :=
      (uncharged_spec honly).weaken (fun v hv => by rw [hv]; exact hu) (fun _ _ h => h)
        fun _ _ h => h
    refine Discipline.Flow.seq hask.attempt fun r => ?_
    cases r with
    | ok n => exact .pure fun _ hv => hv
    | error e => exact .pure fun _ hv => hv

/-- A payment that was replaced. -/
theorem releaseReplaced_spec {k : PaymentId} (x : Payment) (hk : k ≠ payment) :
    Triple machine definite (Uncharged w id payment p order c (k :: rest))
      (releaseAndSupersede id k x) (fun _ => Uncharged w id payment p order c rest)
      fun _ _ => False := by
  refine Discipline.Flow.seq (cancelReplaced_spec k x) fun released => Triple.each fun u hu => ?_
  obtain ⟨n, hwrite, hgoes⟩ := superseded_write released hu.1 hk
  have huntaken : Untaken w (World.exec (.payment (.supersede k released)) .ok u).2 :=
    hu.2.exec (s := .payment (.supersede k released)) trivial
  refine served_issue failsOnly_definite rfl (congrArg Prod.fst hwrite) ?_
  rw [hwrite]
  have hevent (e : OrderEvent) {v : World} (h : Uncharged w id payment p order c rest v) :
      Uncharged w id payment p order c rest (v.write (.event e)).2 := by
    rw [← exec_ok rfl]
    exact ⟨h.1.exec (s := .event e) (f := .ok) trivial, h.2.exec (s := .event e) trivial⟩
  exact served_end (n := 1) failsOnly_definite rfl rfl (hevent _ ⟨hgoes, huntaken⟩)

/-- All the payments that were replaced. -/
theorem releaseAll_spec (replaced : List (PaymentId × Payment))
    (hreplaced : ∀ r ∈ replaced, r.1 ≠ payment) :
    Triple machine definite (Uncharged w id payment p order c (replaced.map (·.1)))
      (forEach replaced fun r => releaseAndSupersede id r.1 r.2)
      (fun _ => Uncharged w id payment p order c []) fun _ _ => False := by
  induction replaced with
  | nil => exact .ret fun _ hx => hx
  | cons r rs ih =>
    refine Discipline.Flow.bind (releaseReplaced_spec r.2 (hreplaced r List.mem_cons_self))
      fun _ => ?_
    exact ih fun r' hr' => hreplaced r' (List.mem_cons_of_mem r hr')

/-- What is written to the payment of the sale goes through. -/
theorem own_write (hv : Handing w id payment p order c [] v) {u : PaymentStmt}
    (hstrict : u.strict = false)
    (hu : ∀ k x x', u.rewrite v.now k x = some x' → k = payment ∧ x'.orderId = x.orderId) :
    v.write (.payment u) = (.ok (v.payments.hits fun k x => u.rewrite v.now k x),
      { v with payments := v.payments.rewrite fun k x => u.rewrite v.now k x }) := by
  simp only [World.write, World.writePayment, hstrict, Bool.false_eq_true, false_and, if_false,
    hv.alone hu]

/-- The payment is marked as taken, where it is. -/
theorem mark_spec (hv : Handing w id payment p order c [] v)
    (htaken : v.stripeConfigured = true → ∃ i, p.stripePaymentIntentId = some i ∧
      v.takenAt i = some c.priceCents) :
    Triple machine definite (· = v) (markPaymentCaptured payment)
      (fun _ u => Handing w id payment p order c [] u ∧ Paid payment c u) fun _ _ => False := by
  have hmark := own_write hv (u := .markCaptured payment) rfl fun k x x' hx => by
    simp only [PaymentStmt.rewrite] at hx
    split at hx
    next hk =>
      cases hx
      exact ⟨hk, rfl⟩
    next => cases hx
  have hmarked := hv.exec (s := .payment (.markCaptured payment)) (f := .ok) rfl
  rw [exec_ok rfl] at hmarked
  have hstamp := own_write hmarked (u := .stampCaptured payment) rfl fun k x x' hx => by
    simp only [PaymentStmt.rewrite] at hx
    split at hx
    next hk =>
      cases hx
      exact ⟨hk.1, rfl⟩
    next => cases hx
  have hstamped := hmarked.exec (s := .payment (.stampCaptured payment)) (f := .ok) rfl
  rw [exec_ok rfl] at hstamped
  refine served_issue failsOnly_definite rfl (congrArg Prod.fst hmark) ?_
  refine served_end failsOnly_definite rfl (congrArg Prod.fst hstamp) ⟨hstamped, ?_⟩
  obtain ⟨x, hx, _, _, _, hintent⟩ := hv.row
  let done : Payment := { x with status := .succeeded }
  have hdone : (v.write (.payment (.markCaptured payment))).2.payments.get payment = some done := by
    rw [hmark]
    simp [hx, PaymentStmt.rewrite, done]
  obtain ⟨y, hy, heff⟩ :=
    World.exec_payment (s := .payment (.stampCaptured payment)) (c := .ok) hdone
  rw [exec_ok rfl] at hy
  have hkept : y.status = .succeeded ∧ y.stripePaymentIntentId = x.stripePaymentIntentId := by
    rcases heff with rfl | ⟨u, heq, hu⟩
    · exact ⟨rfl, rfl⟩
    · cases heq
      simp only [PaymentStmt.rewrite] at hu
      split at hu
      · cases hu
        exact ⟨rfl, rfl⟩
      · cases hu
  refine ⟨y, hy, hkept.1, fun hconfigured => ?_⟩
  have hsame : ((v.write (.payment (.markCaptured payment))).2.write
      (.payment (.stampCaptured payment))).2.provider = v.provider ∧
      ((v.write (.payment (.markCaptured payment))).2.write
        (.payment (.stampCaptured payment))).2.stripeConfigured = v.stripeConfigured := by
    rw [hstamp, hmark]
    exact ⟨rfl, rfl⟩
  rw [hsame.2] at hconfigured
  obtain ⟨i, hi, htake⟩ := htaken hconfigured
  unfold World.captured
  rw [hsame.1, hkept.2, hintent, hi]
  exact htake

/-- How a capture leaves the handover: with the payment taken, or with nothing taken. -/
def Captured (w : World) (id : OrderId) (payment : PaymentId) (p : Payment) (order : Order)
    (c : OrderCounterOffer) (outcome : CaptureOutcome) (v : World) : Prop :=
  Handing w id payment p order c [] v ∧
    match outcome with
    | .captured | .alreadyCaptured => Paid payment c v
    | .retryable _ | .fatal _ => Untaken w v

theorem captured_verdict {failure : StripeFailure} (hv : Uncharged w id payment p order c [] v) :
    Captured w id payment p order c (captureVerdict failure) v := by
  unfold captureVerdict
  split
  · exact hv
  · exact hv

/-- A request that is not lost had its effect, or none. -/
theorem answer_definite {P : Provider} {call : StripeCall} {f : Fate} (hf : ∀ e, f ≠ .lost e) :
    (∃ P', P.answer call f = (.ok (), P') ∧
      (P' = P ∧ P.served call = true ∨ P.carryOut call = .ok P')) ∨
    ∃ e, P.answer call f = (.error e, P) := by
  have hdone : (∃ P', P.answer call .ok = (.ok (), P') ∧
        (P' = P ∧ P.served call = true ∨ P.carryOut call = .ok P')) ∨
      ∃ e, P.answer call .ok = (.error e, P) := by
    simp only [Provider.answer]
    cases hcarry : P.carryOut call with
    | ok P' => exact .inl ⟨P', rfl, .inr rfl⟩
    | error e => exact .inr ⟨e, rfl⟩
  cases f with
  | ok => exact hdone
  | elapse ms => exact hdone
  | down => exact .inr ⟨_, rfl⟩
  | refused e => exact .inr ⟨e, rfl⟩
  | lost e => exact absurd rfl (hf e)
  | replayed =>
    simp only [Provider.answer]
    split
    next hserved => exact .inl ⟨P, rfl, .inl ⟨rfl, hserved⟩⟩
    next => exact hdone

/-- The request for the money. -/
theorem ask_spec {intent : IntentId} (hv : Uncharged w id payment p order c [] v)
    (hi : p.stripePaymentIntentId = some intent) :
    Triple machine definite (· = v) (perform (.stripe (.capture intent payment none)))
      (fun _ u => Handing w id payment p order c [] u ∧ u.takenAt intent = some c.priceCents)
      fun _ u => Uncharged w id payment p order c [] u := by
  refine Triple.perform fun f u hu hok => ?_
  subst hu
  have hgoes := hv.1.exec (s := .stripe (.capture intent payment none)) (f := f) trivial
  obtain ⟨x, hx, hamount, htaken⟩ := hv.1.backed intent hi
  rw [show machine.exec = World.exec from rfl]
  rcases @answer_definite u.provider (.capture intent payment none) f (hok.2 _ rfl)
    with ⟨P', hanswer, heff⟩ | ⟨e, hanswer⟩
  · simp only [World.exec, hanswer] at hgoes ⊢
    refine ⟨hgoes, ?_⟩
    rcases heff with ⟨rfl, hserved⟩ | hcarry
    · simp only [Provider.served, hx, Option.any_some, Provider.asked, Option.getD_none] at hserved
      simp [World.takenAt, hx, of_decide_eq_true hserved, hamount]
    · simp only [Provider.carryOut, hx, Provider.asked, Option.getD_none, le_refl,
        if_true] at hcarry
      split at hcarry
      · rw [← Except.ok.inj hcarry]
        simp [World.takenAt, Intent.captured, hamount]
      · cases hcarry
  · simp only [World.exec, hanswer]
    exact hv

theorem captureRefused_spec {intent : IntentId} (err : Err)
    (hv : Uncharged w id payment p order c [] v) (hi : p.stripePaymentIntentId = some intent) :
    Triple machine definite (· = v) (captureRefused payment intent err)
      (Captured w id payment p order c) fun _ _ => False := by
  have hverdict {failure : StripeFailure} : Triple machine definite (· = v)
      (pure (captureVerdict failure)) (Captured w id payment p order c) fun _ _ => False :=
    Triple.pure fun u hu => hu ▸ captured_verdict hv
  refine .ite (fun _ => ?_) fun _ => hverdict
  have hread : Triple machine definite (· = v) (retrievePaymentIntent intent)
      (fun r u => u = v ∧ r = v.provider.intents.get intent) fun _ u => u = v := by
    refine Triple.fetch fun f u hu _ => ?_
    subst hu
    unfold Machine.answer
    split
    · rfl
    · exact ⟨rfl, rfl⟩
  refine Discipline.Flow.seq hread.attempt fun r => ?_
  cases r with
  | error e => exact hverdict
  | ok found =>
    refine Triple.fact (P := (· = v)) fun hfound => ?_
    cases found with
    | none => exact hverdict
    | some i =>
      refine .ite (fun htaken => ?_) fun _ => hverdict
      have hmark := mark_spec hv.1 fun _ => by
        obtain ⟨x, hx, _, hprice⟩ := hv.1.backed intent hi
        obtain ⟨a, ha⟩ := Option.isSome_iff_exists.mp htaken
        cases hfound.trans hx
        refine ⟨intent, hi, ?_⟩
        simp [World.takenAt, hx, ha, hprice a ha]
      exact hmark.seq fun _ => .pure fun _ hu => hu

theorem captureHold_spec {intent : IntentId} (hv : Uncharged w id payment p order c [] v)
    (hi : p.stripePaymentIntentId = some intent) :
    Triple machine definite (· = v) (captureHold payment intent none)
      (Captured w id payment p order c) fun _ _ => False := by
  refine Discipline.Flow.seq (ask_spec hv hi).attempt fun r => ?_
  cases r with
  | error err => exact Triple.each fun u hu => captureRefused_spec err hu hi
  | ok n =>
    refine Triple.each fun u hu => ?_
    exact (mark_spec hu.1 fun _ => ⟨intent, hi, hu.2⟩).seq fun _ => .pure fun _ hu => hu

/-- The payment the capture finds is the one of the sale. -/
theorem activePayment_spec (hv : Handing w id payment p order c [] v) :
    Triple machine definite (· = v) (activePaymentForOrder id)
      (fun found u => u = v ∧ ∃ x, found = some (payment, x) ∧ v.payments.get payment = some x)
      fun _ _ => False := by
  obtain ⟨x, hx, horder, hsuper, _⟩ := hv.row
  have hown {k : PaymentId} {y : Payment} (hy : v.payments.get k = some y)
      (hid : y.orderId = some id) (hopen : y.supersededAt = none) : k = payment ∧ y = x := by
    by_cases hk : k = payment
    · subst hk
      exact ⟨rfl, Option.some.inj (hy.symm.trans hx)⟩
    · exact absurd hopen (hv.others k y hy hid hk List.not_mem_nil)
  apply pinned_read failsOnly_definite (by trivial) fun h => h.elim
  split
  next found hfound =>
    obtain ⟨k, y⟩ := found
    obtain ⟨hy, hrow⟩ := Table.findFirst_some hfound
    simp only [Payment.live, Bool.and_eq_true, decide_eq_true_eq, Option.isNone_iff_eq_none] at hrow
    obtain ⟨hk, hsame⟩ := hown hy hrow.1 hrow.2.1
    exact Triple.pure fun u hu => ⟨hu, y, by rw [hk], by rw [hsame]; exact hx⟩
  next =>
    have hlast : Triple machine definite (· = v)
        (fetch (.activePaymentForOrder id) fun w =>
          w.payments.findLast fun _ p => p.orderId = some id && p.supersededAt.isNone)
        (fun r u => u = v ∧ r = v.payments.findLast fun _ p =>
          p.orderId = some id && p.supersededAt.isNone) fun _ _ => False :=
      read_spec failsOnly_definite (by trivial) fun h => h.elim
    refine hlast.weaken (fun _ h => h) (fun found u hfound => ⟨hfound.1, ?_⟩) fun _ _ h => h
    cases hlast : found with
    | none =>
      have hnone := Table.findLast_none.mp (hfound.2.symm.trans hlast) payment x hx
      simp [horder, hsuper] at hnone
    | some r =>
      obtain ⟨k, y⟩ := r
      obtain ⟨hy, hrow⟩ := Table.findLast_some (hfound.2.symm.trans hlast)
      simp only [Bool.and_eq_true, decide_eq_true_eq, Option.isNone_iff_eq_none] at hrow
      obtain ⟨hk, hsame⟩ := hown hy hrow.1 hrow.2
      exact ⟨y, by rw [hk], by rw [hsame]; exact hx⟩

/-- The capture of the sale. -/
theorem capture_spec (hv : Uncharged w id payment p order c [] v)
    (hp : w.payments.get payment = some p) (hbacks : w.Backs p)
    (hprice : p.amountCents = c.priceCents) :
    Triple machine definite (· = v) (captureOrderPayment id none)
      (Captured w id payment p order c) fun _ _ => False := by
  refine Discipline.Flow.seq (activePayment_spec hv.1) fun found => ?_
  refine Triple.fact (P := (· = v)) fun hfound => ?_
  obtain ⟨x, rfl, hx⟩ := hfound
  obtain ⟨x', hx', _, _, _, hintent⟩ := hv.1.row
  cases hx.symm.trans hx'
  have hnothing {outcome : CaptureOutcome} (ho : ∀ u, Untaken w u → match outcome with
      | .captured | .alreadyCaptured => Paid payment c u
      | .retryable _ | .fatal _ => Untaken w u) : Triple machine definite (· = v) (pure outcome)
      (Captured w id payment p order c) fun _ _ => False :=
    Triple.pure fun u hu => hu ▸ ⟨hv.1, ho v hv.2⟩
  refine .ite (fun hsucceeded => ?_) fun _ => .ite (fun _ => hnothing fun _ h => h) fun _ => ?_
  · refine Triple.pure fun u hu => ?_
    rw [hu]
    refine ⟨hv.1, x, hx, hsucceeded, fun hconfigured => ?_⟩
    obtain ⟨y, hy, hstatus⟩ := hv.2.rows payment x hx hsucceeded
    cases hy.symm.trans hp
    have htaken := hbacks.taken (hv.1.config.symm.trans hconfigured) hstatus
    rw [← hprice, ← htaken]
    unfold World.captured
    rw [hintent]
    cases hi : p.stripePaymentIntentId with
    | none => rfl
    | some i => exact hv.2.intents i
  apply pinned_read failsOnly_definite (by trivial) fun h => h.elim
  refine .ite (fun _ => ?_) fun hmock => ?_
  · split
    next => exact hnothing fun _ h => h
    next intent hi =>
      refine .ite (fun _ => hnothing fun _ h => h) fun _ => ?_
      exact captureHold_spec hv (hintent.symm.trans hi)
  · have hmark := mark_spec hv.1 fun h => absurd h hmock
    exact hmark.seq fun _ => .pure fun _ hu => hu

end Capture

section Sale

/-- The sale is written: all is as it is to be, but for the status and the prices that wait. -/
structure Written (id : OrderId) (payment : PaymentId) (k : CounterOfferId) (c : OrderCounterOffer)
    (v : World) : Prop where
  order : ∃ order, v.orders.get id = some order ∧ order.status ∈ searchStatuses ∧
    order.inspectorId = some c.inspectorId ∧ order.totalCents = c.priceCents ∧
    order.platformFeeCents = c.platformFeeCents ∧ order.inspectorShareCents = c.inspectorShareCents
  accepted : ∃ c', v.counterOffers.get k = some c' ∧ c'.status = .accepted
  paid : ∃ p, v.payments.get payment = some p ∧ p.orderId = some id ∧ p.supersededAt = none ∧
    p.status = .succeeded ∧ p.amountCents = c.priceCents ∧
    (v.stripeConfigured = true → v.captured p = some c.priceCents)
  others : ∀ k p, v.payments.get k = some p → p.orderId = some id → k ≠ payment →
    p.supersededAt ≠ none
  index : presentedConflict v.counterOffers = false

/-- No price of the order waits. -/
def Unqueued (id : OrderId) (v : World) : Prop :=
  ∀ k c, v.counterOffers.get k = some c → c.orderId = id → c.status ≠ .pending

variable {w v : World} {id : OrderId} {payment : PaymentId} {p : Payment} {order : Order}
  {k : CounterOfferId} {c : OrderCounterOffer} {s : Stmt} {f : Fate} {α : Type}

/-- The statements that close prices which wait, or show one. -/
def Stmt.closes : Stmt → Prop
  | .event _ | .counterOffer (.supersede _) | .counterOffer (.withdraw _)
  | .counterOffer (.present _ _ _) | .counterOffer (.expireQueue _ _) => True
  | _ => False

theorem PromoteStmt.closes {o : OrderId} (hs : PromoteStmt o s) : s.closes := by
  cases hs <;> trivial

/-- Such a statement writes to prices that wait alone. -/
theorem closes_rewrite {u : CounterOfferStmt} {now : Time} {x x' : OrderCounterOffer}
    (hs : Stmt.closes (.counterOffer u)) (hu : u.rewrite now k x = some x') :
    x.status = .pending ∧ x'.orderId = x.orderId := by
  cases u with
  | present _ _ _ | expireQueue _ _ =>
    simp only [CounterOfferStmt.rewrite] at hu
    split at hu
    next h =>
      cases hu
      exact ⟨h.2.1, rfl⟩
    next => cases hu
  | supersede _ | withdraw _ =>
    simp only [CounterOfferStmt.rewrite] at hu
    split at hu
    next h =>
      cases hu
      exact ⟨h.2, rfl⟩
    next => cases hu
  | _ => exact hs.elim

/-- A price after such a statement: as it was, or one that waited. -/
theorem closes_get (hs : s.closes) {j : CounterOfferId} :
    ∃ g : OrderCounterOffer → OrderCounterOffer,
    (World.exec s f v).2.counterOffers.get j = (v.counterOffers.get j).map g ∧
    ∀ x, g x = x ∨ x.status = .pending ∧ (g x).orderId = x.orderId := by
  have hsame (h : (World.exec s f v).2.counterOffers = v.counterOffers) :
      ∃ g : OrderCounterOffer → OrderCounterOffer,
        (World.exec s f v).2.counterOffers.get j = (v.counterOffers.get j).map g ∧
        ∀ x, g x = x ∨ x.status = .pending ∧ (g x).orderId = x.orderId :=
    ⟨id, by rw [h, Option.map_id]; rfl, fun _ => .inl rfl⟩
  cases s with
  | event e => exact hsame ((World.frame_exec (.event e) f v).counterOffers rfl)
  | counterOffer u =>
    rcases exec_prices u f v with ⟨e, he, _⟩ | he
    · exact hsame (by rw [he])
    · refine ⟨fun x => (u.rewrite v.now j x).getD x, by rw [he, Table.get_rewrite], fun x => ?_⟩
      beta_reduce
      cases hu : u.rewrite v.now j x with
      | none => exact .inl rfl
      | some x' => exact .inr (closes_rewrite hs hu)
  | _ => exact hs.elim

theorem Written.exec (h : Written id payment k c v) (hs : s.closes) :
    Written id payment k c (World.exec s f v).2 := by
  have hframe := World.frame_exec s f v
  have horders : s.touchesOrders = false := by cases s <;> first | rfl | exact hs.elim
  have hpayments : s.touchesPayments = false := by cases s <;> first | rfl | exact hs.elim
  have hprovider : s.touchesProvider = false := by cases s <;> first | rfl | exact hs.elim
  constructor
  · rw [hframe.orders horders]
    exact h.order
  · obtain ⟨c', hc', hstatus⟩ := h.accepted
    obtain ⟨g, hget, hg⟩ := closes_get (f := f) (v := v) hs (j := k)
    refine ⟨c', ?_, hstatus⟩
    rw [hget, hc', Option.map_some]
    rcases hg c' with hsame | ⟨hpending, _⟩
    · rw [hsame]
    · rw [hstatus] at hpending
      cases hpending
  · unfold World.captured
    rw [hframe.payments hpayments, hframe.stripeConfigured, hframe.provider hprovider]
    exact h.paid
  · rw [hframe.payments hpayments]
    exact h.others
  · exact index_exec h.index

theorem Unqueued.exec (h : Unqueued id v) (hs : s.closes) : Unqueued id (World.exec s f v).2 := by
  intro j x hx hid
  obtain ⟨g, hget, hg⟩ := closes_get (f := f) (v := v) hs (j := j)
  rw [hget] at hx
  obtain ⟨y, hy, rfl⟩ := Option.map_eq_some_iff.mp hx
  rcases hg y with hsame | ⟨hpending, horder⟩
  · rw [hsame] at hid ⊢
    exact h j y hy hid
  · exact absurd hpending (h j y hy (horder.symm.trans hid))

/-- The transaction of the sale. -/
theorem sale_write (hv : Handing w id payment p order c [] v) (hpaid : Paid payment c v)
    (hsearch : order.status ∈ searchStatuses) (hc : w.counterOffers.get k = some c)
    (hacc : c.status = .accepting) (hindex : presentedConflict w.counterOffers = false)
    (now : Time) :
    ∃ u, v.write (.sale id k ⟨c.priceCents, c.platformFeeCents, c.inspectorShareCents⟩ now) =
      (.ok 1, u) ∧ Written id payment k c u := by
  have hrow := hv.order
  have hprices := hv.prices
  obtain ⟨x, hx, horder, hsuper, hamount, hintent⟩ := hv.row
  obtain ⟨y, hy, hstatus, htaken⟩ := hpaid
  cases hx.symm.trans hy
  have hclean := index_exec (w := v)
    (s := .sale id k ⟨c.priceCents, c.platformFeeCents, c.inspectorShareCents⟩ now) (f := .ok)
    (hprices ▸ hindex)
  rw [exec_ok rfl] at hclean
  simp only [World.write, World.writeSale, hrow] at hclean ⊢
  refine ⟨_, rfl, ?_⟩
  constructor
  · exact ⟨_, (Table.get_set _ _ _ _).trans (if_pos rfl), hsearch, rfl, rfl, rfl, rfl⟩
  · refine ⟨{ c with status := .accepted, acceptingUntil := none, respondedAt := some now },
      ?_, rfl⟩
    simp [hprices, hc, hacc]
  · exact ⟨x, hx, horder, hsuper, hstatus, hamount, htaken⟩
  · exact fun j z hz hid hj => hv.others j z hz hid hj List.not_mem_nil
  · exact hclean

/-- Closing prices that wait goes through. -/
theorem closing_write {u : CounterOfferStmt} (hindex : presentedConflict v.counterOffers = false)
    (hu : ∀ j x x', u.rewrite v.now j x = some x' → x'.orderId = x.orderId ∧ x'.presented = false) :
    ∃ n, (v.write (.counterOffer u)).1 = .ok n := by
  have hclean :
      presentedConflict (v.counterOffers.rewrite fun j x => u.rewrite v.now j x) = false := by
    rw [← Bool.not_eq_true]
    intro hconflict
    have hbefore := presentedConflict_rewrite (fun j x x' hx => ?_) hconflict
    · rw [hindex] at hbefore
      cases hbefore
    · obtain ⟨horder, hshown⟩ := hu j x x' hx
      exact ⟨horder, fun h => by rw [hshown] at h; cases h⟩
  refine ⟨_, congrArg Prod.fst (if_neg ?_)⟩
  rw [hclean]
  nofun

/-- The statement that closes the prices of the order. -/
theorem unqueue_spec (hv : Written id payment k c v) :
    Triple machine definite (· = v) (Prog.when
      ((v.counterOffers.findMany fun _ x => x.orderId = id && x.status = .pending) ≠ [])
      (issue (.counterOffer (.supersede
        ((v.counterOffers.findMany fun _ x => x.orderId = id && x.status = .pending).map (·.1))))))
      (fun _ u => Written id payment k c u ∧ Unqueued id u) fun _ _ => False := by
  have hmem {j : CounterOfferId} {x : OrderCounterOffer} (hx : v.counterOffers.get j = some x)
      (hid : x.orderId = id) (hp : x.status = .pending) :
      (j, x) ∈ v.counterOffers.findMany fun _ x => x.orderId = id && x.status = .pending :=
    Table.mem_findMany.mpr ⟨hx, by simp [hid, hp]⟩
  generalize hlist : (v.counterOffers.findMany fun _ x => x.orderId = id && x.status = .pending) =
    waiting at hmem ⊢
  unfold Prog.when
  split
  next hsome =>
    obtain ⟨n, hn⟩ := closing_write (u := .supersede (waiting.map (·.1))) hv.index
      fun j x x' hx => by
        simp only [CounterOfferStmt.rewrite] at hx
        split at hx
        · cases hx
          exact ⟨rfl, rfl⟩
        · cases hx
    refine served_end failsOnly_definite rfl hn ?_
    rw [← exec_ok rfl]
    refine ⟨hv.exec trivial, fun j x hx hid hp => ?_⟩
    rcases exec_prices (.supersede (waiting.map (·.1))) .ok v with ⟨e, he, _⟩ | he
    · rw [exec_ok rfl] at he
      rw [he] at hn
      cases hn
    · rw [he] at hx
      simp only [Table.get_rewrite, CounterOfferStmt.rewrite] at hx
      obtain ⟨y, hy, hrow⟩ := Option.map_eq_some_iff.mp hx
      split at hrow
      next =>
        cases hrow
        cases hp
      next hno =>
        cases hrow
        exact hno ⟨List.mem_map.mpr ⟨(j, y), hmem hy hid hp, rfl⟩, hp⟩
  next hnone =>
    refine Triple.pure fun u hu => ?_
    subst hu
    refine ⟨hv, fun j x hx hid hp => ?_⟩
    have h := hmem hx hid hp
    rw [not_ne_iff.mp hnone] at h
    cases h

/-- The sale is written and no price waits, as far as such statements go. -/
theorem closing_spec {q : Act α} (hq : q.Only Stmt.closes) : Triple machine definite
    (fun u => Written id payment k c u ∧ Unqueued id u) q
    (fun _ u => Written id payment k c u ∧ Unqueued id u)
    fun _ u => Written id payment k c u ∧ Unqueued id u := by
  apply Triple.keeps hq
  intro s f u hs _ hu
  exact ⟨hu.1.exec hs, hu.2.exec hs⟩

/-- A line of the timeline. -/
theorem noted_spec (o : OrderId) (actor : Actor) (type : EventType) : Triple machine definite
    (fun u => Written id payment k c u ∧ Unqueued id u) (note o actor type)
    (fun _ u => Written id payment k c u ∧ Unqueued id u) fun _ _ => False := by
  refine Triple.each fun u hu => ?_
  refine served_end (n := 1) failsOnly_definite rfl rfl ?_
  rw [← exec_ok rfl]
  exact ⟨hu.1.exec trivial, hu.2.exec trivial⟩

theorem settle_spec (inspector : UserId) (hv : Written id payment k c v) :
    Triple machine definite (· = v) (settleCounterOffersOnAssignment id inspector)
      (fun _ u => Written id payment k c u ∧ Unqueued id u) fun _ _ => False := by
  apply pinned_read failsOnly_definite (by trivial) fun h => h.elim
  apply pinned_read failsOnly_definite (by trivial) fun h => h.elim
  refine Discipline.Flow.seq (unqueue_spec hv) fun _ =>
    Discipline.Flow.when (fun _ => ?_) fun _ _ h => h
  have hwithdraw (ids : List CounterOfferId) : Triple machine definite
      (fun u => Written id payment k c u ∧ Unqueued id u) (issue (.counterOffer (.withdraw ids)))
      (fun _ u => Written id payment k c u ∧ Unqueued id u) fun _ _ => False := by
    refine Triple.each fun u hu => ?_
    obtain ⟨n, hn⟩ := closing_write (u := .withdraw ids) hu.1.index fun j x x' hx => by
      simp only [CounterOfferStmt.rewrite] at hx
      split at hx
      · cases hx
        exact ⟨rfl, rfl⟩
      · cases hx
    refine served_end failsOnly_definite rfl hn ?_
    rw [← exec_ok rfl]
    exact ⟨hu.1.exec trivial, hu.2.exec trivial⟩
  refine Discipline.Flow.seq (hwithdraw _) fun _ => ?_
  refine Discipline.Flow.seq (Discipline.Flow.forEach fun x _ => noted_spec _ _ _) fun _ => ?_
  refine Discipline.Flow.forEach fun o _ => Discipline.Flow.quietly (closing_spec ?_)
  exact (only_promote o).mono fun s hs => hs.closes

/-- A read of the order row. -/
theorem requireOrder_spec {ok : Label Site Stmt → Fate → World → Prop} {site : Site}
    (hok : FailsOnly ok False) (hsite : atDatabase (.ask site))
    (horder : v.orders.get id = some order) : Triple machine ok (· = v) (requireOrderAt site id)
      (fun o u => u = v ∧ o = order) fun _ _ => False := by
  apply pinned_read hok hsite fun h => h.elim
  split
  next o ho => exact Triple.pure fun u hu => ⟨hu, Option.some.inj (ho.symm.trans horder)⟩
  next hnone =>
    rw [hnone] at horder
    cases horder

theorem Sold.deadline (h : Sold id payment k c v) {n : Nat} :
    Sold id payment k c (World.exec (.order (.setInspectionDeadline id n)) f v).2 := by
  have hframe := World.frame_exec (.order (.setInspectionDeadline id n)) f v
  constructor
  · obtain ⟨o, ho, hrest⟩ := h.order
    rcases World.exec_orderStmt (u := .setInspectionDeadline id n) (c := f) ho with
      ⟨_, he⟩ | ⟨hnone, _⟩ | ⟨o', ho', he⟩
    · rw [he]
      exact ⟨o, ho, hrest⟩
    · cases hnone
    · cases ho'
      rw [he]
      exact ⟨_, (Table.get_set _ _ _ _).trans (if_pos rfl), hrest⟩
  · rw [hframe.counterOffers rfl]
    exact h.accepted
  · rw [hframe.counterOffers rfl]
    exact h.queue
  · unfold World.captured
    rw [hframe.payments rfl, hframe.stripeConfigured, hframe.provider rfl]
    exact h.paid
  · rw [hframe.payments rfl]
    exact h.others

/-- The last step of the sale. -/
theorem assign_spec (actor : Actor) (hv : Written id payment k c v) (hqueue : Unqueued id v) :
    Triple machine definite (· = v) (transition id assigned actor)
      (fun _ u => Sold id payment k c u) fun _ _ => False := by
  obtain ⟨o, ho, hsearch, hclaim, htotal, hfee, hshare⟩ := hv.order
  refine Discipline.Flow.seq (requireOrder_spec failsOnly_definite (by trivial) ho) fun r => ?_
  refine Triple.fact (P := (· = v)) fun hr => ?_
  subst hr
  have hlegal : canTransition r.status assigned = true := by
    revert hsearch
    cases r.status <;> decide
  have hunassigned : r.status ≠ assigned := by
    intro h
    rw [h] at hsearch
    revert hsearch
    decide
  refine .ite (fun h => absurd h hunassigned) fun _ => ?_
  rw [dif_pos hlegal]
  have hwrite : v.write (.order (.transition id r.status assigned hlegal)) =
      (.ok 1, { v with orders := v.orders.set id { r with status := assigned } }) := by
    simp [World.write, World.writeOrder, OrderStmt.order, ho, OrderStmt.rewrite]
  refine served_issue failsOnly_definite rfl (congrArg Prod.fst hwrite) ?_
  rw [hwrite]
  refine served_issue (n := 1) failsOnly_definite rfl rfl ?_
  have hsold : Sold id payment k c ({ v with
      orders := v.orders.set id { r with status := assigned } }.write
        (.event ⟨id, actor, .statusChange, some r.status, some assigned, none⟩)).2 :=
    { order := ⟨_, (Table.get_set _ _ _ _).trans (if_pos rfl), rfl, hclaim, htotal, hfee, hshare⟩
      accepted := hv.accepted
      queue := hqueue
      paid := hv.paid
      others := hv.others }
  refine Discipline.Flow.weaken (A := fun P => ∀ u, P u → Sold id payment k c u) ?_
    (fun P hP u hu => (hP u hu) ▸ hsold) (fun _ _ h => h) fun _ _ h => h
  refine Discipline.Flow.when (fun _ => ?_) fun _ _ h => h
  refine Discipline.Flow.seq (B := fun _ P => ∀ u, P u → Sold id payment k c u)
    (Discipline.Flow.quietly ?_) fun _ => Discipline.Flow.quietly ?_
  · refine Triple.keeps (A := fun s => ∃ n, s = .order (.setInspectionDeadline id n)) ?_ ?_
    · exact Only.seq only_readSettings fun _ => only_issue ⟨_, rfl⟩
    · intro s f u hs _ hu
      obtain ⟨n, rfl⟩ := hs
      exact hu.deadline
  · exact Triple.keeps (A := fun _ => False) only_renderContract fun _ _ _ hs => hs.elim

end Sale

section Finalize

variable {w v : World} {id : OrderId} {payment : PaymentId} {p : Payment} {order : Order}
  {k : CounterOfferId} {c : OrderCounterOffer}

theorem completeSale_spec (hv : Handing w id payment p order c [] v) (hpaid : Paid payment c v)
    (hsearch : order.status ∈ searchStatuses) (hc : w.counterOffers.get k = some c)
    (hacc : c.status = .accepting) (hindex : presentedConflict w.counterOffers = false)
    (now : Time) :
    Triple machine definite (· = v) (completeSale id k c now) (fun _ u => Sold id payment k c u)
      fun _ _ => False := by
  obtain ⟨u, hwrite, hwritten⟩ := sale_write hv hpaid hsearch hc hacc hindex now
  refine served_issue failsOnly_definite rfl (congrArg Prod.fst hwrite) ?_
  rw [hwrite]
  refine served_issue (n := 1) failsOnly_definite rfl rfl ?_
  have hnoted := hwritten.exec (f := .ok)
    (s := .event ⟨id, .user c.inspectorId, .counterOfferAccepted, none, none, none⟩) trivial
  rw [exec_ok rfl] at hnoted
  refine Discipline.Flow.seq (settle_spec c.inspectorId hnoted) fun _ => Triple.each fun x hx => ?_
  exact assign_spec _ hx.1 hx.2

theorem abortSale_spec (hv : Handing w id payment p order c [] v) (huntaken : Untaken w v)
    (hsearch : order.status ∈ searchStatuses) (hclaim : order.inspectorId = none) :
    Triple machine definite (· = v) (abortSale payment id c) (fun _ => Unsold w id order)
      fun _ => Unsold w id order := by
  have hrow := hv.order
  have hwrite : v.write (.order (.releaseClaim id c.inspectorId)) =
      (.ok 1, { v with orders := v.orders.set id order }) := by
    have hback : ({ order with inspectorId := none } : Order) = order := by rw [← hclaim]
    simp [World.write, World.writeOrder, OrderStmt.order, hrow, OrderStmt.rewrite, hsearch, hback]
  have hunsold : Unsold w id order { v with orders := v.orders.set id order } :=
    ⟨⟨order.status, (Table.get_set _ _ _ _).trans (if_pos rfl), .inl rfl⟩, huntaken.1, huntaken.2⟩
  refine served_issue failsOnly_definite rfl (congrArg Prod.fst hwrite) ?_
  rw [hwrite]
  refine unsold_spec ?_ hunsold
  refine Only.seq ((only_releaseSupersededHold id payment).mono fun s hs => hs.sellsNothing)
    fun _ => ?_
  exact only_note _ _ _ fun e => ⟨trivial, .inl rfl⟩

/-- How the finishing of a counter-offer ends. -/
def Finished (w : World) (id : OrderId) (payment : PaymentId) (order : Order) (v : World) : Prop :=
  Unsold w id order v ∨ order.status ∈ searchStatuses ∧ ∃ k c, w.counterOffers.get k = some c ∧
    c.orderId = id ∧ c.status = .accepting ∧ Sold id payment k c v

theorem claimSale_spec (hindex : presentedConflict w.counterOffers = false)
    (hlive : activePaymentConflict w.payments = false) (horder : w.orders.get id = some order)
    (hp : w.payments.get payment = some p) (hawaited : p.awaited id = true) (hbacks : w.Backs p)
    (hc : w.counterOffers.get k = some c) (hid : c.orderId = id) (hacc : c.status = .accepting)
    (hprice : p.amountCents = c.priceCents) (hsearch : order.status ∈ searchStatuses) (now : Time) :
    Triple machine definite (· = w) (claimSale payment id k c now)
      (fun _ => Finished w id payment order) fun _ => Finished w id payment order := by
  have hrelease : Triple machine definite (· = w) (releaseSupersededHold payment id)
      (fun _ => Finished w id payment order) fun _ => Finished w id payment order := by
    have honly : (releaseSupersededHold payment id).Only (SellsNothing id order) :=
      (only_releaseSupersededHold id payment).mono fun s hs => hs.sellsNothing
    exact (unsold_spec honly (.refl horder)).weaken (fun _ h => h) (fun _ _ h => .inl h)
      fun _ _ h => .inl h
  by_cases hclaim : order.inspectorId = none
  · have hwrite : w.write (.order (.claim id searchStatuses c.inspectorId)) = (.ok 1, { w with
        orders := w.orders.set id { order with inspectorId := some c.inspectorId } }) := by
      simp [World.write, World.writeOrder, OrderStmt.order, horder, OrderStmt.rewrite, hsearch,
        hclaim]
    refine served_perform failsOnly_definite rfl (congrArg Prod.fst hwrite) ?_
    refine .ite (fun h => absurd h (by decide)) fun _ => ?_
    rw [hwrite]
    simp only [Payment.awaited, Bool.and_eq_true, decide_eq_true_eq, Option.isNone_iff_eq_none]
      at hawaited
    obtain ⟨⟨⟨hown, _⟩, hopen⟩, _⟩ := hawaited
    have hother {j : PaymentId} {x : Payment} : (j, x) ∈ (w.payments.findMany fun j x =>
        x.orderId = some id && x.supersededAt.isNone && j ≠ payment) ↔
        w.payments.get j = some x ∧ x.orderId = some id ∧ x.supersededAt = none ∧ j ≠ payment := by
      rw [Table.mem_findMany]
      simp [and_assoc]
    have hstart : Uncharged w id payment p order c ((w.payments.findMany fun j x =>
        x.orderId = some id && x.supersededAt.isNone && j ≠ payment).map (·.1)) { w with
          orders := w.orders.set id { order with inspectorId := some c.inspectorId } } := by
      refine ⟨?_, fun _ => rfl, fun j x hx hs => ⟨x, hx, hs⟩⟩
      constructor
      · exact (Table.get_set _ _ _ _).trans (if_pos rfl)
      · rfl
      · rfl
      · exact ⟨p, hp, hown, hopen, hprice, rfl⟩
      · rw [← hprice]
        exact hbacks.intent
      · intro j x hx hid' hj hrest hsuper
        exact hrest (List.mem_map.mpr ⟨(j, x), hother.mpr ⟨hx, hid', hsuper, hj⟩, rfl⟩)
      · intro j hj
        obtain ⟨r, hr, rfl⟩ := List.mem_map.mp hj
        exact Option.isSome_iff_exists.mpr ⟨r.2, (hother.mp hr).1⟩
      · exact hlive
    have hreplaced := @releaseAll_spec w id payment p order c
      (w.payments.findMany fun j x => x.orderId = some id && x.supersededAt.isNone && j ≠ payment)
      fun r hr => (hother.mp hr).2.2.2
    refine Discipline.Flow.seq (pinned_read failsOnly_definite (by trivial) (fun h => h.elim)
      (hreplaced.weaken (fun u hu => hu ▸ hstart) (fun _ _ h => h) fun _ _ h => h.elim)) fun _ => ?_
    have hauthorize : (perform (.payment (.authorize payment now))).Only fun s =>
        s.hands payment ∧ s.takesNothing := (only_perform _).mpr ⟨rfl, trivial⟩
    refine Discipline.Flow.seq (Discipline.Flow.quietly (uncharged_spec hauthorize)) fun _ => ?_
    refine Triple.each fun u hu => ?_
    refine Discipline.Flow.seq ((capture_spec hu hp hbacks hprice).weaken (fun _ h => h)
      (fun _ _ h => h) fun _ _ h => h.elim) fun outcome => Triple.each fun x hx => ?_
    have habort (huntaken : Untaken w x) : Triple machine definite (· = x) (abortSale payment id c)
        (fun _ => Finished w id payment order) fun _ => Finished w id payment order :=
      (abortSale_spec hx.1 huntaken hsearch hclaim).weaken (fun _ h => h) (fun _ _ h => .inl h)
        fun _ _ h => .inl h
    have hcomplete (hpaid : Paid payment c x) : Triple machine definite (· = x)
        (completeSale id k c now) (fun _ => Finished w id payment order)
        fun _ => Finished w id payment order :=
      (completeSale_spec hx.1 hpaid hsearch hc hacc hindex now).weaken (fun _ h => h)
        (fun _ _ h => .inr ⟨hsearch, k, c, hc, hid, hacc, h⟩) fun _ _ h => h.elim
    cases outcome with
    | captured => exact hcomplete hx.2
    | alreadyCaptured => exact hcomplete hx.2
    | retryable detail => exact habort hx.2
    | fatal detail => exact habort hx.2
  · have hwrite : w.write (.order (.claim id searchStatuses c.inspectorId)) = (.ok 0, w) := by
      simp [World.write, World.writeOrder, OrderStmt.order, horder, OrderStmt.rewrite, hclaim]
    refine served_perform failsOnly_definite rfl (congrArg Prod.fst hwrite) ?_
    rw [hwrite]
    exact .ite (fun _ => hrelease) fun h => absurd rfl h

theorem finalize_spec (hindex : presentedConflict w.counterOffers = false)
    (hlive : activePaymentConflict w.payments = false) (horder : w.orders.get id = some order)
    (hbacks : ∀ p, w.payments.get payment = some p → w.Backs p) :
    Triple machine definite (· = w) (finalizeCounterOfferPayment payment id)
      (fun _ => Finished w id payment order) fun _ => Finished w id payment order := by
  have hidle : Unsold w id order w := .refl horder
  have hnothing : Triple machine definite (· = w) (pure ()) (fun _ => Finished w id payment order)
      fun _ => Finished w id payment order := Triple.pure fun u hu => .inl (by rw [hu]; exact hidle)
  have hrelease : Triple machine definite (· = w) (releaseSupersededHold payment id)
      (fun _ => Finished w id payment order) fun _ => Finished w id payment order := by
    have honly : (releaseSupersededHold payment id).Only (SellsNothing id order) :=
      (only_releaseSupersededHold id payment).mono fun s hs => hs.sellsNothing
    exact (unsold_spec honly hidle).weaken (fun _ h => h) (fun _ _ h => .inl h) fun _ _ h => .inl h
  apply pinned_read failsOnly_definite (by trivial) fun h => h.elim
  split
  next => exact hnothing
  next p hfound =>
    obtain ⟨hp, hawaited⟩ := Option.filter_eq_some_iff.mp hfound
    apply pinned_read failsOnly_definite (by trivial) fun h => h.elim
    apply pinned_read failsOnly_definite (by trivial) fun h => h.elim
    split
    next k c order' hcounter horder' =>
      cases horder'.symm.trans horder
      obtain ⟨hc, hrow⟩ := Table.findFirst_some hcounter
      simp only [Bool.and_eq_true, decide_eq_true_eq] at hrow
      refine .ite (fun _ => hrelease) fun hprice => .ite (fun _ => hrelease) fun hsearch => ?_
      have hsearch := not_not.mp hsearch
      apply pinned_read failsOnly_definite (by trivial) fun h => h.elim
      apply pinned_read failsOnly_definite (by trivial) fun h => h.elim
      refine .ite (fun _ => ?_) fun _ => ?_
      · -- the inspector is busy, and the search goes on
        have honly :
            (withdrawBusyCounterOffer payment id k c w.now).Only (SellsNothing id order) := by
          refine Only.seq ((only_releaseSupersededHold id payment).mono fun s hs => hs.sellsNothing)
            fun _ => Only.seq (only_issue ⟨trivial, .inl rfl⟩) fun _ => ?_
          refine Only.seq (only_note _ _ _ fun e => ⟨trivial, .inl rfl⟩) fun _ => ?_
          refine Only.seq ((only_promoteQuietly id).mono fun s hs => hs.sellsNothing) fun _ => ?_
          exact Only.seq ((only_dispatch id).mono fun s hs => hs.sellsNothing hsearch)
            fun _ => only_pure _
        exact (unsold_spec honly hidle).weaken (fun _ h => h) (fun _ _ h => .inl h)
          fun _ _ h => .inl h
      · exact claimSale_spec hindex hlive horder hp hawaited (hbacks p hp) hc hrow.1 hrow.2
          (not_ne_iff.mp hprice) hsearch w.now
    next => exact hnothing

end Finalize

/-- The finishing of a counter-offer sells the order completely, or not at all. -/
theorem finalize_all_or_nothing (w w' : World) (id : OrderId) (payment : PaymentId) (order : Order)
    (r : Except Err Unit) (hindex : presentedConflict w.counterOffers = false)
    (hlive : activePaymentConflict w.payments = false) (horder : w.orders.get id = some order)
    (hbacks : ∀ p, w.payments.get payment = some p → w.Backs p)
    (hrun : (finalizeCounterOfferPayment payment id).Ends machine definite w r w') :
    (order.status ≠ assigned → (w'.orders.get id).any (·.status = assigned) = true →
      ∃ k c, w.counterOffers.get k = some c ∧ c.orderId = id ∧ c.status = .accepting ∧
        Sold id payment k c w') ∧
    (order.status = assigned ∨ (w'.orders.get id).any (·.status = assigned) = false →
      Unsold w id order w') := by
  have hend := (finalize_spec hindex hlive horder hbacks).ends rfl hrun
  have hfinished : Finished w id payment order w' := by
    cases r with
    | ok a => exact hend
    | error e => exact hend
  rcases hfinished with hunsold | ⟨hsearch, k, c, hc, hid, hacc, hsold⟩
  · refine ⟨fun hno hyes => ?_, fun _ => hunsold⟩
    obtain ⟨status, hrow, hstatus⟩ := hunsold.order
    rw [hrow, Option.any_some, decide_eq_true_eq] at hyes
    rcases hstatus with hsame | ⟨_, hwaits⟩
    · exact absurd (hsame.symm.trans hyes) hno
    · rw [hwaits] at hyes
      cases hyes
  · refine ⟨fun _ _ => ⟨k, c, hc, hid, hacc, hsold⟩, fun hnot => ?_⟩
    obtain ⟨o, ho, hstatus, _⟩ := hsold.order
    rcases hnot with h | h
    · rw [h] at hsearch
      exact absurd hsearch (by decide)
    · rw [ho, Option.any_some, hstatus] at h
      cases h

/-- An order at 40 that an inspector took, while the customer was paying another one 54. -/
def takenMeanwhile : World :=
  { World.empty with
    orders := Table.empty.set 1
      ⟨3, some 9, assigned, 4000, 667, 3333, none, none, none, none, none, 1⟩
    counterOffers :=
      Table.empty.set 1 ⟨1, 7, .accepting, 5400, 900, 4500, some 900, 9000, some 2000, none, 100⟩
    payments := (Table.empty.set 1
      ⟨some 1, .order, 4000, .succeeded, some 1, some 50, some 1000, none, none, 40⟩).set 2
        ⟨some 1, .orderCounterOffer, 5400, .pending, some 2, none, none, none, none, 950⟩
    provider := { World.empty.provider with
      intents := (Table.empty.set 1 ⟨4000, .succeeded 4000 0⟩).set 2 ⟨5400, .requiresCapture⟩ }
    now := 1500 }

/-- The order stays assigned at its own price, and the 54 are given back. -/
theorem takenMeanwhile_kept :
    ((finalizeCounterOfferPayment 2 1).alone machine .ok takenMeanwhile).1 = .ok () ∧
    (((finalizeCounterOfferPayment 2 1).alone machine .ok takenMeanwhile).2.orders.get 1).map
      (fun o => (o.status, o.inspectorId, o.totalCents)) = some (assigned, some 9, 4000) ∧
    (takenMeanwhile.counterOffers.get 1).map (fun c => (c.inspectorId, c.priceCents)) =
      some (7, 5400) ∧
    ((finalizeCounterOfferPayment 2 1).alone machine .ok takenMeanwhile).2.takenAt 2 = none := by
  decide +kernel

/-- An order at 40, held on a card, and 54 held for the inspector who named them. -/
def heldTwice : World :=
  { takenMeanwhile with
    orders := Table.empty.set 1
      ⟨3, none, unassigned, 4000, 667, 3333, none, none, none, none, none, 1⟩
    payments := (Table.empty.set 1
      ⟨some 1, .order, 4000, .authorized, some 1, some 50, none, none, none, 40⟩).set 2
        ⟨some 1, .orderCounterOffer, 5400, .pending, some 2, none, none, none, none, 950⟩
    provider := { World.empty.provider with
      intents := (Table.empty.set 1 ⟨4000, .requiresCapture⟩).set 2 ⟨5400, .requiresCapture⟩ } }

/-- The order is sold for the 54. -/
theorem heldTwice_sold : ∃ k c, heldTwice.counterOffers.get k = some c ∧ c.orderId = 1 ∧
    c.status = .accepting ∧
    Sold 1 2 k c ((finalizeCounterOfferPayment 2 1).alone machine .ok heldTwice).2 := by
  have hends : (finalizeCounterOfferPayment 2 1).Ends machine definite heldTwice
      ((finalizeCounterOfferPayment 2 1).alone machine .ok heldTwice).1
      ((finalizeCounterOfferPayment 2 1).alone machine .ok heldTwice).2 :=
    ends_alone (fun _ _ => ⟨nofun, fun _ _ _ => nofun⟩) _ _
  have hbacks : ∀ p, heldTwice.payments.get 2 = some p → heldTwice.Backs p := by
    intro p hp
    cases hp
    refine ⟨fun i hi => ?_, nofun⟩
    cases hi
    exact ⟨_, rfl, rfl, nofun⟩
  exact (finalize_all_or_nothing heldTwice _ 1 2
    ⟨3, none, unassigned, 4000, 667, 3333, none, none, none, none, none, 1⟩ _ (by decide +kernel)
    (by decide +kernel) rfl hbacks hends).1 nofun (by decide +kernel)

end CarSalePro
