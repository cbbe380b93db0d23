import CarSalePro.Orders.CounterOfferListing
import CarSalePro.Orders.Effects
import CarSalePro.Pricing.OrderPricing

namespace CarSalePro

open Store Interleave Prog OrderStatus Pricing

section Conversion

variable {ceiling payout payout' total : Cents} {pct : ℚ}

theorem readPercent_of_nonneg (hpct : 0 ≤ pct) : readPercent pct = pct := by
  unfold readPercent
  split
  next => rfl
  next h => exact le_antisymm hpct (not_lt.mp h)

theorem one_le_markup (hpct : 0 ≤ pct) : (1 : ℚ) ≤ 1 + pct / 100 := by
  have hshare : 0 ≤ pct / 100 := div_nonneg hpct (by norm_num)
  linarith

/-- The commission is added and rounded once, as a markup on the payout. -/
theorem total_eq_round (hpct : 0 ≤ pct) (hp : 0 ≤ payout) :
    counterOfferTotalFromPayout payout pct = round ((payout : ℚ) * (1 + pct / 100)) := by
  unfold counterOfferTotalFromPayout
  rw [max_eq_right hp]
  split
  next hnone =>
    have hzero : pct = 0 := le_antisymm hnone hpct
    rw [hzero, zero_div, add_zero, mul_one, round_intCast]
  next =>
    have hmarkup : (payout : ℚ) * (1 + pct / 100) = payout + payout * pct / 100 := by ring
    rw [mathRound_eq_round, hmarkup, round_intCast_add]

theorem payout_eq_round (hpct : 0 ≤ pct) (ht : 0 ≤ total) :
    counterOfferPayoutFromTotal total pct = round ((total : ℚ) / (1 + pct / 100)) := by
  rw [counterOfferPayoutFromTotal, readPercent_of_nonneg hpct, max_eq_right ht, mathRound_eq_round]

theorem total_mono (hpct : 0 ≤ pct) (hp : 0 ≤ payout) (h : payout ≤ payout') :
    counterOfferTotalFromPayout payout pct ≤ counterOfferTotalFromPayout payout' pct := by
  rw [total_eq_round hpct hp, total_eq_round hpct (hp.trans h)]
  have hcast : (payout : ℚ) ≤ payout' := Int.cast_le.mpr h
  exact Rounding.round_mono
    (mul_le_mul_of_nonneg_right hcast (zero_le_one.trans (one_le_markup hpct)))

theorem total_nonneg (hpct : 0 ≤ pct) (hp : 0 ≤ payout) :
    0 ≤ counterOfferTotalFromPayout payout pct := by
  rw [total_eq_round hpct hp]
  exact Rounding.round_nonneg
    (mul_nonneg (Int.cast_nonneg hp) (zero_le_one.trans (one_le_markup hpct)))

theorem payout_nonneg (hpct : 0 ≤ pct) (ht : 0 ≤ total) :
    0 ≤ counterOfferPayoutFromTotal total pct := by
  rw [payout_eq_round hpct ht]
  exact Rounding.round_nonneg
    (div_nonneg (Int.cast_nonneg ht) (zero_le_one.trans (one_le_markup hpct)))

/-- A payout made a total is found again. -/
theorem payout_total (hpct : 0 ≤ pct) (hp : 0 ≤ payout) :
    counterOfferPayoutFromTotal (counterOfferTotalFromPayout payout pct) pct = payout := by
  rw [payout_eq_round hpct (total_nonneg hpct hp), total_eq_round hpct hp]
  exact Rounding.round_div_round_mul (one_le_markup hpct) payout

end Conversion

section Bound

variable {ceiling payout : Cents} {pct : ℚ} {n : Nat}

theorem lowerToFit_fits (h : counterOfferTotalFromPayout n pct ≤ ceiling) :
    lowerToFit ceiling pct n = (n, 0) := by
  cases n with
  | zero => rfl
  | succ n => exact if_neg (not_lt.mpr h)

theorem lowerToFit_lowered (h : ceiling < counterOfferTotalFromPayout (n + 1 : Nat) pct)
    (hfits : counterOfferTotalFromPayout n pct ≤ ceiling) :
    lowerToFit ceiling pct (n + 1) = (n, 1) := by
  rw [lowerToFit, if_pos h, lowerToFit_fits hfits]

theorem uncorrectedPayout_eq (hc : 0 ≤ ceiling) (hpct : 0 ≤ pct) :
    (uncorrectedPayout ceiling pct : Int) = round ((ceiling : ℚ) / (1 + pct / 100)) := by
  rw [uncorrectedPayout, Int.toNat_of_nonneg (payout_nonneg hpct hc), payout_eq_round hpct hc]

/-- One more than the payout of the ceiling is too much. -/
theorem uncorrectedPayout_succ (hc : 0 ≤ ceiling) (hpct : 0 ≤ pct) :
    ceiling < counterOfferTotalFromPayout (uncorrectedPayout ceiling pct + 1 : Int) pct := by
  have habove := Rounding.lt_round_succ_mul (one_le_markup hpct) ceiling
  rw [← uncorrectedPayout_eq hc hpct] at habove
  have hsucc : (0 : Int) ≤ uncorrectedPayout ceiling pct + 1 := by omega
  rw [total_eq_round hpct hsucc]
  exact habove

/-- One less is not too much. -/
theorem uncorrectedPayout_pred (hc : 0 ≤ ceiling) (hpct : 0 ≤ pct)
    (hn : uncorrectedPayout ceiling pct = n + 1) :
    counterOfferTotalFromPayout n pct ≤ ceiling := by
  have hbelow := Rounding.round_pred_mul_le (one_le_markup hpct) ceiling
  rw [← uncorrectedPayout_eq hc hpct, hn] at hbelow
  have hpred : (((n + 1 : Nat) : Int) - 1) = n := by omega
  rw [hpred] at hbelow
  rw [total_eq_round hpct (Int.natCast_nonneg n)]
  exact hbelow

/-- The bound fits, the next cent does not, and at most one cent was taken off to find it. -/
theorem maxPayout_spec (hc : 0 ≤ ceiling) (hpct : 0 ≤ pct) :
    counterOfferTotalFromPayout (counterOfferMaxPayoutCents ceiling pct) pct ≤ ceiling ∧
    ceiling < counterOfferTotalFromPayout (counterOfferMaxPayoutCents ceiling pct + 1) pct ∧
    (lowerToFit ceiling pct (uncorrectedPayout ceiling pct)).2 ≤ 1 := by
  have habove := uncorrectedPayout_succ hc hpct
  unfold counterOfferMaxPayoutCents
  by_cases hfits : counterOfferTotalFromPayout (uncorrectedPayout ceiling pct) pct ≤ ceiling
  · rw [lowerToFit_fits hfits]
    exact ⟨hfits, habove, Nat.zero_le 1⟩
  · cases hn : uncorrectedPayout ceiling pct with
    | zero =>
      have hnone : counterOfferTotalFromPayout ((0 : Nat) : Int) pct = 0 := by
        rw [total_eq_round hpct (Int.natCast_nonneg 0)]
        simp
      rw [hn, hnone] at hfits
      exact absurd hc hfits
    | succ n =>
      have hbelow := uncorrectedPayout_pred hc hpct hn
      rw [hn] at hfits
      rw [lowerToFit_lowered (not_le.mp hfits) hbelow]
      exact ⟨hbelow, by simpa using not_le.mp hfits, Nat.le_refl 1⟩

theorem maxPayout_nonneg (ceiling : Cents) (pct : ℚ) : 0 ≤ counterOfferMaxPayoutCents ceiling pct :=
  Int.natCast_nonneg _

/-- A payout fits exactly when it is within the bound. -/
theorem total_le_iff (hc : 0 ≤ ceiling) (hpct : 0 ≤ pct) :
    counterOfferTotalFromPayout payout pct ≤ ceiling ↔
      payout ≤ counterOfferMaxPayoutCents ceiling pct := by
  obtain ⟨hfits, habove, _⟩ := maxPayout_spec hc hpct
  have hbound := maxPayout_nonneg ceiling pct
  constructor
  · intro h
    by_contra hmore
    have hsucc : counterOfferMaxPayoutCents ceiling pct + 1 ≤ payout :=
      Int.add_one_le_of_lt (not_le.mp hmore)
    have hnext : counterOfferTotalFromPayout (counterOfferMaxPayoutCents ceiling pct + 1) pct ≤
        counterOfferTotalFromPayout payout pct :=
      total_mono hpct (add_nonneg hbound zero_le_one) hsucc
    exact absurd (hnext.trans h) (not_le.mpr habove)
  · intro h
    by_cases hp : 0 ≤ payout
    · exact (total_mono hpct hp h).trans hfits
    · have hnone : counterOfferTotalFromPayout payout pct = counterOfferTotalFromPayout 0 pct := by
        have hmax : max 0 payout = 0 := max_eq_left (not_le.mp hp).le
        simp only [counterOfferTotalFromPayout, hmax, max_self]
      rw [hnone]
      exact (total_mono hpct (Int.le_refl 0) hbound).trans hfits

end Bound

section Refusal

/-- The refusal of a price on account of the ceiling. -/
def aboveCeiling (maxPriceCents : Cents) : Err :=
  .http .badRequest "counter_offer_price_invalid" ("The price is more than the maximum of " ++
    toString maxPriceCents ++ " cents for this order")

/-- The three refusals begin differently. -/
theorem counterOfferPriceError_ceiling {priceCents orderTotalCents maxPriceCents : Cents} :
    counterOfferPriceError priceCents orderTotalCents maxPriceCents =
        some ("The price is more than the maximum of " ++ toString maxPriceCents ++
          " cents for this order") ↔
      0 < priceCents ∧ orderTotalCents < priceCents ∧ maxPriceCents < priceCents := by
  have hstart (a b : String) (h : a = b) : a.toList.take 14 = b.toList.take 14 := by rw [h]
  have hceiling : (("The price is more than the maximum of " ++ toString maxPriceCents ++
      " cents for this order").toList.take 14) = "The price is m".toList.take 14 := by
    simp only [String.toList_append, List.append_assoc]
    rw [List.take_append_of_le_length (by decide)]
    decide
  unfold counterOfferPriceError
  constructor
  · intro h
    split at h
    · have hsame := hstart _ _ (Option.some.inj h)
      rw [hceiling] at hsame
      exact absurd hsame (by decide)
    split at h
    · have hsame := hstart _ _ (Option.some.inj h)
      rw [hceiling] at hsame
      exact absurd hsame (by decide)
    split at h
    next h₁ h₂ h₃ => exact ⟨not_le.mp h₁, not_le.mp h₂, h₃⟩
    · cases h
  · rintro ⟨h₁, h₂, h₃⟩
    rw [if_neg (not_le.mpr h₁), if_neg (not_le.mpr h₂), if_pos h₃]

/-- No refusal of a figure the inspector typed. -/
def Err.late : Err → Prop
  | .http .badRequest _ _ => False
  | _ => True

/-- A program that refuses no figure. -/
abbrev Late {α : Type} (p : Act α) : Prop :=
  Triple machine answering (fun _ => True) p (fun _ _ => True) fun e _ => e.late

variable {α β : Type} {w : World} {id : OrderId} {user : UserId}

theorem late_fetch {l : Site} {f : World → α} : Late (fetch l f) := by
  refine Triple.fetch fun c v _ hc => ?_
  subst hc
  simp only [Machine.answer, machine, fault_ok]
  trivial

theorem late_pure {a : α} : Late (pure a : Act α) := Triple.pure fun _ _ => trivial

theorem late_seq {p : Act α} {k : α → Act β} (hp : Late p) (hk : ∀ a, Late (k a)) :
    Late (p >>= k) := Discipline.Flow.seq hp hk

/-- The statements after the price was checked fail as the database does. -/
theorem late_perform {s : Stmt} (h : ∀ w e, (World.exec s .ok w).1 = .error e → e.late) :
    Late (perform s) := by
  refine Triple.perform fun c v _ hc => ?_
  subst hc
  rw [show machine.exec = World.exec from rfl]
  cases hr : (World.exec s .ok v).1 with
  | ok n => trivial
  | error e => exact h v e hr

theorem late_event (e : OrderEvent) : Late (perform (.event e)) :=
  late_perform fun _ _ h => nomatch h

theorem late_counterOffer (u : CounterOfferStmt) : Late (perform (.counterOffer u)) := by
  refine late_perform fun w e h => ?_
  simp only [World.exec, reduceCtorEq, if_false, World.write, World.writeCounterOffer] at h
  split at h
  · cases h; trivial
  · cases h

theorem late_alone {p : Act α} (hp : Late p) {ceiling : Cents} :
    (p.alone machine .ok w).1 ≠ .error (aboveCeiling ceiling) := by
  intro h
  have hend := hp.alone (w := w) trivial
  rw [h] at hend
  exact hend

/-- What follows a statement whose error is looked at. -/
theorem late_attempt {s : Stmt} {k : Except Err Nat → Act β} (hs : Late (perform s))
    (hok : ∀ n, Late (k (.ok n))) (herror : ∀ e, e.late → Late (k (.error e))) :
    Late (attempt (perform s) >>= k) := by
  refine Discipline.Flow.seq (Discipline.Flow.attempt hs) fun r => ?_
  cases r with
  | ok n => exact hok n
  | error e =>
    have hlate : Triple machine answering (fun _ => True ∧ e.late) (k (.error e)) (fun _ _ => True)
        fun e _ => e.late := Triple.fact (P := fun _ => True) (herror e)
    exact hlate.weaken (fun _ h => ⟨trivial, h⟩) (fun _ _ h => h) fun _ _ h => h

theorem late_note (actor : Actor) (type : EventType) : Late (note id actor type) :=
  late_seq (late_event _) fun _ => late_pure

theorem late_presentNext (order : Order) (now : Time) : Late (presentNext id order now) := by
  refine late_seq late_fetch fun settings => late_seq late_fetch fun queue => ?_
  split
  · exact late_pure
  split
  · exact late_seq (late_seq (late_counterOffer _) fun _ => late_pure) fun _ => late_pure
  apply late_attempt (late_counterOffer _)
  · intro n
    cases n with
    | zero => exact late_pure
    | succ n => exact late_seq (late_note _ _) fun _ => late_pure
  · intro e he
    cases e with
    | unique => exact late_pure
    | _ => exact Triple.throw fun _ _ => he

theorem late_promote : Late (promote id) := by
  refine late_seq late_fetch fun found => ?_
  split
  · exact late_pure
  next order =>
    refine .ite (fun _ => late_pure) fun _ => late_seq late_fetch fun now => ?_
    refine late_seq late_fetch fun occupied => .ite (fun _ => late_pure) fun _ => ?_
    refine late_seq (late_seq late_fetch fun ever => .ite (fun _ => late_pure) fun _ => ?_) ?_
    · refine late_seq late_fetch fun first => ?_
      split
      · exact late_pure
      · exact late_seq late_fetch fun _ => late_pure
    · exact fun held => .ite (fun _ => late_pure) fun _ => late_presentNext order now

theorem late_queuePositionOf (counterId : CounterOfferId) : Late (queuePositionOf counterId) := by
  refine late_seq late_fetch fun found => ?_
  split
  · exact late_pure
  · exact .ite (fun _ => late_pure) fun _ => late_seq late_fetch fun _ => late_pure

theorem late_upsert (terms : CounterOfferTerms) : Late (upsertCounterOffer id user terms) := by
  have hwrite : Late (perform (.upsertCounterOffer id user terms)) := by
    refine late_perform fun w e h => ?_
    simp only [World.exec, reduceCtorEq, if_false, World.write, World.upsertCounterOffer] at h
    split at h <;> cases h
  apply late_attempt hwrite
  · exact fun n => late_pure
  · intro e he
    cases e with
    | unique => exact Triple.throw fun _ _ => trivial
    | _ => exact Triple.throw fun _ _ => he

/-- What is left to do for a price that may be asked. -/
def nameTerms (id : OrderId) (user : UserId) (terms : CounterOfferTerms) :
    Act CreatedCounterOffer := do
  let counterId ← upsertCounterOffer id user terms
  note id (.user user) .counterOfferCreated
  let _ ← promote id
  let current ← fetch .createCounterOffer (·.counterOffers.get counterId)
  let queuePosition ← queuePositionOf counterId
  pure ⟨counterId, terms.inspectorShareCents, terms.priceCents, terms.platformFeeCents,
    (current.map (·.expiresAt)).getD terms.expiresAt, queuePosition,
    current.any (·.presentedAt.isSome)⟩

theorem late_nameTerms (terms : CounterOfferTerms) : Late (nameTerms id user terms) := by
  refine late_seq (late_upsert terms) fun counterId => late_seq (late_note _ _) fun _ => ?_
  refine late_seq late_promote fun _ => late_seq late_fetch fun current => ?_
  exact late_seq (late_queuePositionOf counterId) fun _ => late_pure

/-- A price is refused on account of the ceiling exactly when it is above it. -/
theorem namedTerms_refused {order : Order} {windowMinutes : Nat} {payout price ceiling : Cents}
    (hfair : order.totalCents < ceiling) (hceiling : 0 ≤ ceiling) :
    ((namedTerms order windowMinutes payout price ceiling >>= nameTerms id user).alone machine .ok
      w).1 = .error (aboveCeiling ceiling) ↔ ceiling < price := by
  unfold namedTerms
  cases hprice : counterOfferPriceError price order.totalCents ceiling with
  | some message =>
    have hrefused : ((fail .badRequest "counter_offer_price_invalid" message >>=
        nameTerms id user : Act CreatedCounterOffer).alone machine .ok w).1 =
          .error (.http .badRequest "counter_offer_price_invalid" message) := rfl
    rw [hrefused]
    constructor
    · intro h
      have hmessage : message = "The price is more than the maximum of " ++ toString ceiling ++
          " cents for this order" := by injection h with h; injection h
      rw [hmessage, counterOfferPriceError_ceiling] at hprice
      exact hprice.2.2
    · intro h
      have habove := counterOfferPriceError_ceiling.mpr
        ⟨hceiling.trans_lt h, hfair.trans h, h⟩
      rw [Option.some.inj (hprice.symm.trans habove)]
      rfl
  | none =>
    have hfits : ¬ ceiling < price := not_lt.mpr (counterOfferPriceError_eq_none.mp hprice).2.2
    refine iff_of_false (late_alone ?_) hfits
    refine late_seq (late_seq late_fetch fun now => ?_) fun terms => late_nameTerms terms
    split
    · exact Triple.throw fun _ _ => trivial
    · exact late_pure

/-- The ceiling is no less than the fair price. -/
theorem fair_le_ceiling (fair : Cents) (multiplier : ℚ) :
    fair ≤ counterOfferCeilingCents fair multiplier ∧
    0 ≤ counterOfferCeilingCents fair multiplier := by
  have hone : (1 : ℚ) ≤ if 1 ≤ multiplier then multiplier else 1 := by
    split
    next h => exact h
    next => exact le_rfl
  have hfair : (0 : ℚ) ≤ max 0 (fair : ℚ) := le_max_left _ _
  have hscaled : max 0 (fair : ℚ) ≤ max 0 (fair : ℚ) * if 1 ≤ multiplier then multiplier else 1 :=
    le_mul_of_one_le_right hfair hone
  have hround : max 0 fair ≤ counterOfferCeilingCents fair multiplier := by
    have hmono := mathRound_mono hscaled
    have hcast : max 0 (fair : ℚ) = ((max 0 fair : Int) : ℚ) := by simp
    rw [hcast, mathRound_intCast] at hmono
    exact hmono
  exact ⟨(le_max_right 0 fair).trans hround, (le_max_left 0 fair).trans hround⟩

/-- A program that only reads leaves everything as it was. -/
theorem alone_reads {p : Act α} {c : Fate} (hp : p.Only fun _ => False) :
    (p.alone machine c w).2 = w := by
  induction p with
  | ret a => rfl
  | raise e => rfl
  | ask l f k ih => exact ih _ (hp _)
  | call s k ih => exact hp.1.elim

theorem alone_fetched {l : Site} {f : World → α} :
    (fetch l f : Act α).alone machine .ok w = (.ok (f w), w) := by
  rw [alone_fetch]
  simp only [Machine.answer, machine, fault_ok]

/-- The order, the distance and the settings are still those the tab was read at. -/
structure World.OffersAs (w : World) (user : UserId) (multiplier : ℚ) (item : OpenOrder)
    (order : Order) : Prop where
  row : w.orders.get item.orderId = some order
  total : order.totalCents = item.orderTotalCents
  fair : (w.fairPriceOf w.now item.orderId user item.distanceKm).totalCents = item.fairPriceCents
  multiplier : w.setting.counterOfferMaxMultiplier = multiplier
  percent : w.setting.platformFeePercent = item.platformFeePercent

/-- Past the checks of the inspector and the distance, what decides is the price. -/
theorem create_refused {item : OpenOrder} {order : Order} {multiplier : ℚ} {payout : Cents}
    (hw : w.OffersAs user multiplier item order)
    (hoffer : ((assertInspectorMayOffer item.orderId order user).alone machine .ok w).1 = .ok ())
    (hreach : ((distanceInReach item.orderId user).alone machine .ok w).1 = .ok item.distanceKm)
    (hless : item.orderTotalCents < item.fairPriceCents) :
    ((createCounterOffer item.orderId user payout).alone machine .ok w).1 =
        .error (aboveCeiling (counterOfferCeilingCents item.fairPriceCents multiplier)) ↔
      counterOfferCeilingCents item.fairPriceCents multiplier <
        counterOfferTotalFromPayout payout item.platformFeePercent := by
  have hceiling := fair_le_ceiling item.fairPriceCents multiplier
  have hbelow : order.totalCents < counterOfferCeilingCents item.fairPriceCents multiplier := by
    rw [hw.total]
    exact hless.trans_le hceiling.1
  have hoffer' :
      (assertInspectorMayOffer item.orderId order user).alone machine .ok w = (.ok (), w) :=
    Prod.ext hoffer (alone_reads (only_assertInspectorMayOffer _ _ _))
  have hreach' : (distanceInReach item.orderId user).alone machine .ok w =
      (.ok item.distanceKm, w) := Prod.ext hreach (alone_reads (only_distanceInReach _ _))
  have hterms : (termsOf item.orderId order user item.distanceKm payout).alone machine .ok w =
      (namedTerms order w.setting.counterOfferWindowMinutes payout
        (counterOfferTotalFromPayout payout item.platformFeePercent)
        (counterOfferCeilingCents item.fairPriceCents multiplier)).alone machine .ok w := by
    simp only [termsOf, readSettings, alone_bind, alone_fetched, hw.fair, hw.multiplier, hw.percent]
  have hend : (createCounterOffer item.orderId user payout).alone machine .ok w =
      (namedTerms order w.setting.counterOfferWindowMinutes payout
        (counterOfferTotalFromPayout payout item.platformFeePercent)
        (counterOfferCeilingCents item.fairPriceCents multiplier) >>=
          nameTerms item.orderId user).alone machine .ok w := by
    unfold createCounterOffer
    rw [alone_bind, alone_fetched]
    simp only [hw.row]
    rw [alone_bind, hoffer']
    simp only
    rw [alone_bind, hreach']
    simp only
    rw [alone_bind, hterms, alone_bind]
    rfl
  rw [hend]
  exact namedTerms_refused hbelow hceiling.2

end Refusal

/-- The bound on a payout is exact, found with one correction at most, and it is the bound that
decides: past the other checks a payout is refused on account of the ceiling exactly when it is more
than the tab listed for the order. -/
theorem maxPayout_exact :
    (∀ (ceiling : Cents) (pct : ℚ), 0 ≤ ceiling → 0 ≤ pct →
      counterOfferTotalFromPayout (counterOfferMaxPayoutCents ceiling pct) pct ≤ ceiling ∧
      (∀ payout, counterOfferMaxPayoutCents ceiling pct < payout →
        ceiling < counterOfferTotalFromPayout payout pct) ∧
      (lowerToFit ceiling pct (uncorrectedPayout ceiling pct)).2 ≤ 1) ∧
    ∀ (near : World → UserId → List OrderId → ℚ → List (OrderId × ℚ)) (w w' : World) (user : UserId)
      (items : List OpenOrder) (item : OpenOrder) (order : Order) (payout : Cents),
      ((listOpenForInspector near user).alone machine .ok w).1 = .ok items → item ∈ items →
      0 ≤ item.platformFeePercent →
      w'.OffersAs user w.setting.counterOfferMaxMultiplier item order →
      ((assertInspectorMayOffer item.orderId order user).alone machine .ok w').1 = .ok () →
      ((distanceInReach item.orderId user).alone machine .ok w').1 = .ok item.distanceKm →
      (((createCounterOffer item.orderId user payout).alone machine .ok w').1 =
        .error (aboveCeiling item.maxPriceCents) ↔ item.maxPayoutCents < payout) := by
  constructor
  · intro ceiling pct hc hpct
    obtain ⟨hfits, _, honce⟩ := maxPayout_spec hc hpct
    refine ⟨hfits, fun payout hmore => ?_, honce⟩
    exact not_le.mp fun h => absurd ((total_le_iff hc hpct).mp h) (not_le.mpr hmore)
  · intro near w w' user items item order payout hlist hitem hpct hsame hoffer hreach
    have hlists : Triple machine answering (· = w) (listOpenForInspector near user)
        (fun items _ => ∀ item ∈ items, w.Lists user item) (fun _ _ => True) :=
      listOpenForInspector_lists near
    have hrun := hlists.alone rfl
    rw [hlist] at hrun
    obtain ⟨row, _, hmore, heq⟩ := hrun item hitem
    have htotal : item.orderTotalCents < item.fairPriceCents := by
      rw [heq]
      exact hmore
    have hmax : item.maxPriceCents =
        counterOfferCeilingCents item.fairPriceCents w.setting.counterOfferMaxMultiplier := by
      rw [heq]
      rfl
    have hbound : item.maxPayoutCents =
        counterOfferMaxPayoutCents item.maxPriceCents item.platformFeePercent := by
      rw [heq]
      rfl
    have hceiling : 0 ≤ item.maxPriceCents := by
      rw [hmax]
      exact (fair_le_ceiling _ _).2
    have hfits : counterOfferTotalFromPayout payout item.platformFeePercent ≤ item.maxPriceCents ↔
        payout ≤ item.maxPayoutCents := by
      rw [hbound]
      exact total_le_iff hceiling hpct
    have hrefused :
        ((createCounterOffer item.orderId user payout).alone machine .ok w').1 =
          .error (aboveCeiling
            (counterOfferCeilingCents item.fairPriceCents w.setting.counterOfferMaxMultiplier)) ↔
        counterOfferCeilingCents item.fairPriceCents w.setting.counterOfferMaxMultiplier <
          counterOfferTotalFromPayout payout item.platformFeePercent :=
      create_refused hsame hoffer hreach htotal
    rw [← hmax] at hrefused
    rw [hrefused, ← not_le, hfits, not_le]

/-- An unassigned order that pays 40, which is worth 50 to an inspector 12 km away. -/
def farOrder : World :=
  { World.empty with
    orders := Table.empty.set 1
      ⟨3, none, unassigned, 4000, 667, 3333, none, none, none, none, none, 1⟩
    inspectors := Table.empty.set 7 ⟨true, true, true, some 1, 0, none, none, true, 300⟩
    distanceKmOf := fun _ _ _ => some 12
    fairPriceOf := fun _ _ _ _ => ⟨5000, 833, 4167⟩
    now := 1000 }

/-- What the tab shows of it. -/
def farItem : OpenOrder where
  orderId := 1
  distanceKm := 12
  orderTotalCents := 4000
  orderPayoutCents := 3333
  fairPriceCents := 5000
  fairPayoutCents := 4167
  maxPriceCents := 6000
  maxPayoutCents := 5000
  platformFeePercent := 20
  searchExpiresAt := none
  queuedAhead := 0
  answerDueAt := none
  myCounterOffer := none

theorem farOrder_listed :
    ((listOpenForInspector (fun _ _ ids _ => ids.map (·, 12)) 7).alone machine .ok farOrder).1 =
      .ok [farItem] := by decide +kernel

/-- Three cents are corrected to two, and 50 euros and a cent are refused where 50 were listed. -/
theorem maxPayout_corrected : counterOfferMaxPayoutCents 3 20 = 2 ∧
    (lowerToFit 3 20 (uncorrectedPayout 3 20)).2 = 1 ∧
    (∀ payout, counterOfferMaxPayoutCents 3 20 < payout →
      3 < counterOfferTotalFromPayout payout 20) ∧
    ((createCounterOffer 1 7 5001).alone machine .ok farOrder).1 = .error (aboveCeiling 6000) := by
  have hbound := maxPayout_exact.1 3 20 (by norm_num) (by norm_num)
  have hrefused := maxPayout_exact.2 (fun _ _ ids _ => ids.map (·, 12)) farOrder farOrder 7
    [farItem] farItem ⟨3, none, unassigned, 4000, 667, 3333, none, none, none, none, none, 1⟩ 5001
    farOrder_listed (by simp) (by norm_num [farItem]) ⟨rfl, rfl, rfl, rfl, rfl⟩
    (by decide +kernel) (by decide +kernel)
  refine ⟨by decide +kernel, by decide +kernel, hbound.2.1, ?_⟩
  exact hrefused.mpr (by decide)

/-- Fair prices are computed from the tariff, at the platform's percentage of the moment. -/
def World.PricesFairly (w : World) : Prop :=
  ∀ t id user km, ∃ base baseFeeCents detourFactor,
    base.tariff.platformFeePercent = (w.settings t).platformFeePercent ∧
    w.fairPriceOf t id user km =
      (fairPriceForInspector base baseFeeCents detourFactor km).toPriceBreakdown

section Prices

variable {a : PricingInput}

/-- A price is what its inspector's share converts to. -/
theorem computePrice_total_from (hpct : 0 ≤ a.tariff.platformFeePercent)
    (hfull : a.tariff.platformFeePercent ≤ 100) :
    counterOfferTotalFromPayout (computePrice a).inspectorShareCents a.tariff.platformFeePercent =
      (computePrice a).totalCents := by
  have hread : min 100 (max 0 (safeNonNegative a.tariff.platformFeePercent)) =
      a.tariff.platformFeePercent := by
    rw [safeNonNegative_of_nonneg hpct, max_eq_right hpct, min_eq_right hfull]
  have hfee : (computePrice a).platformFeeCents =
      mathRound ((computePrice a).inspectorShareCents * a.tariff.platformFeePercent / 100) := by
    have hdef : (computePrice a).platformFeeCents =
        mathRound ((computePrice a).inspectorShareCents *
          min 100 (max 0 (safeNonNegative a.tariff.platformFeePercent)) / 100) := rfl
    rw [hdef, hread]
  have hshare := computePrice_share_nonneg a
  rw [← computePrice_total, hfee, counterOfferTotalFromPayout, max_eq_right hshare]
  split
  next hnone =>
    have hzero : a.tariff.platformFeePercent = 0 := le_antisymm hnone hpct
    have hround : mathRound 0 = 0 := by simpa using mathRound_intCast 0
    rw [hzero, mul_zero, zero_div, hround, zero_add]
  next => exact add_comm _ _

theorem computePrice_payout_from (hpct : 0 ≤ a.tariff.platformFeePercent)
    (hfull : a.tariff.platformFeePercent ≤ 100) :
    counterOfferPayoutFromTotal (computePrice a).totalCents a.tariff.platformFeePercent =
      (computePrice a).inspectorShareCents := by
  rw [← computePrice_total_from hpct hfull, payout_total hpct (computePrice_share_nonneg a)]

end Prices

/-- Payout and total convert back and forth without loss, and the fair payout that the tab shows
converts to the fair price it came from. -/
theorem payout_round_trip :
    (∀ (payout : Cents) (pct : ℚ), 0 ≤ payout → 0 ≤ pct →
      counterOfferPayoutFromTotal (counterOfferTotalFromPayout payout pct) pct = payout) ∧
    (∀ a : PricingInput, 0 ≤ a.tariff.platformFeePercent → a.tariff.platformFeePercent ≤ 100 →
      counterOfferTotalFromPayout (computePrice a).inspectorShareCents
        a.tariff.platformFeePercent = (computePrice a).totalCents) ∧
    ∀ (near : World → UserId → List OrderId → ℚ → List (OrderId × ℚ)) (w : World) (user : UserId)
      (items : List OpenOrder) (item : OpenOrder), w.PricesFairly →
      ((listOpenForInspector near user).alone machine .ok w).1 = .ok items → item ∈ items →
      0 ≤ item.platformFeePercent → item.platformFeePercent ≤ 100 →
      counterOfferTotalFromPayout item.fairPayoutCents item.platformFeePercent =
        item.fairPriceCents := by
  refine ⟨fun payout pct hp hpct => payout_total hpct hp, fun a => computePrice_total_from, ?_⟩
  intro near w user items item hfair hlist hitem hpct hfull
  have hlists : Triple machine answering (· = w) (listOpenForInspector near user)
      (fun items _ => ∀ item ∈ items, w.Lists user item) (fun _ _ => True) :=
    listOpenForInspector_lists near
  have hrun := hlists.alone rfl
  rw [hlist] at hrun
  obtain ⟨row, _, _, heq⟩ := hrun item hitem
  obtain ⟨base, baseFeeCents, detourFactor, hpercent, hprice⟩ :=
    hfair w.now item.orderId user item.distanceKm
  have hshown : item.platformFeePercent = base.tariff.platformFeePercent := by
    rw [heq, hpercent]
    rfl
  have hfairPrice : item.fairPriceCents =
      (fairPriceForInspector base baseFeeCents detourFactor item.distanceKm).totalCents := by
    rw [heq]
    exact congrArg PriceBreakdown.totalCents hprice
  have hfairPayout : item.fairPayoutCents =
      counterOfferPayoutFromTotal item.fairPriceCents item.platformFeePercent := by
    rw [heq]
    rfl
  obtain ⟨a, ha, hsame⟩ : ∃ a : PricingInput,
      fairPriceForInspector base baseFeeCents detourFactor item.distanceKm = computePrice a ∧
      a.tariff.platformFeePercent = base.tariff.platformFeePercent := ⟨_, rfl, rfl⟩
  rw [hshown, ← hsame] at hpct hfull
  rw [hfairPayout, hfairPrice, hshown, ← hsame, ha, computePrice_payout_from hpct hfull,
    computePrice_total_from hpct hfull]

/-- The same order, where the fair price is computed. -/
def pricedOrder : World :=
  { farOrder with
    fairPriceOf := fun _ _ _ km => (fairPriceForInspector ⟨10, 20, ⟨2000, 30, 10, 3500, 20, 1, 2⟩⟩
      3500 1 km).toPriceBreakdown }

/-- What the tab shows of it then. -/
def pricedItem : OpenOrder :=
  { farItem with
    fairPriceCents := 5640, fairPayoutCents := 4700, maxPriceCents := 6768, maxPayoutCents := 5640 }

/-- A fair payout of 47 euros stands for a fair price of 56.40. -/
theorem payout_round_trip_priced :
    ((listOpenForInspector (fun _ _ ids _ => ids.map (·, 12)) 7).alone machine .ok pricedOrder).1 =
      .ok [pricedItem] ∧ counterOfferTotalFromPayout 4700 20 = 5640 := by
  have hlist : ((listOpenForInspector (fun _ _ ids _ => ids.map (·, 12)) 7).alone machine .ok
      pricedOrder).1 = .ok [pricedItem] := by decide +kernel
  refine ⟨hlist, ?_⟩
  exact payout_round_trip.2.2 _ pricedOrder 7 _ pricedItem
    (fun _ _ _ _ => ⟨_, _, _, rfl, rfl⟩) hlist
    (by simp) (by norm_num [pricedItem, farItem]) (by norm_num [pricedItem, farItem])

end CarSalePro
