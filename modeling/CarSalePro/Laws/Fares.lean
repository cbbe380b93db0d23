import CarSalePro.Pricing.OrderPricing

namespace CarSalePro.Pricing

section Monotone

variable {a b : PricingInput}

/-- One trip and tariff is no more than another, at the same commission. -/
structure PricingInput.Below (a b : PricingInput) : Prop where
  distance : a.distanceKm ≤ b.distanceKm
  duration : a.durationMin ≤ b.durationMin
  base : a.tariff.baseFeeCents ≤ b.tariff.baseFeeCents
  perKm : a.tariff.ratePerKmCents ≤ b.tariff.ratePerKmCents
  perMinute : a.tariff.ratePerMinuteCents ≤ b.tariff.ratePerMinuteCents
  minimum : a.tariff.minimumFareCents ≤ b.tariff.minimumFareCents
  surge : a.tariff.surgeMultiplier ≤ b.tariff.surgeMultiplier
  factor : a.tariff.returnTripFactor ≤ b.tariff.returnTripFactor
  percent : a.tariff.platformFeePercent = b.tariff.platformFeePercent

theorem factor_mono (h : a.Below b) :
    (computePrice a).returnTripFactor ≤ (computePrice b).returnTripFactor := by
  rw [computePrice_factor, computePrice_factor]
  exact max_le_max_left 1 h.factor

theorem billedDistance_nonneg (a : PricingInput) : 0 ≤ (computePrice a).billedDistanceKm := by
  have hfactor : 0 ≤ (computePrice a).returnTripFactor := zero_le_one.trans (one_le_factor a)
  have hkm : 0 ≤ roundTenth (safeNonNegative a.distanceKm) :=
    roundTenth_nonneg (safeNonNegative_nonneg _)
  exact roundTenth_nonneg (mul_nonneg hkm hfactor)

theorem billedDistance_mono (h : a.Below b) :
    (computePrice a).billedDistanceKm ≤ (computePrice b).billedDistanceKm := by
  have hfactor : 0 ≤ (computePrice a).returnTripFactor := zero_le_one.trans (one_le_factor a)
  have hkm : roundTenth (safeNonNegative a.distanceKm) ≤
      roundTenth (safeNonNegative b.distanceKm) := roundTenth_mono (safeNonNegative_mono h.distance)
  have hkm' : 0 ≤ roundTenth (safeNonNegative b.distanceKm) :=
    roundTenth_nonneg (safeNonNegative_nonneg _)
  exact roundTenth_mono (mul_le_mul hkm (factor_mono h) hfactor hkm')

theorem billedDuration_nonneg (a : PricingInput) : 0 ≤ (computePrice a).billedDurationMin := by
  have hfactor : 0 ≤ (computePrice a).returnTripFactor := zero_le_one.trans (one_le_factor a)
  exact mathRound_nonneg (mul_nonneg (safeNonNegative_nonneg _) hfactor)

theorem billedDuration_mono (h : a.Below b) :
    (computePrice a).billedDurationMin ≤ (computePrice b).billedDurationMin := by
  have hfactor : 0 ≤ (computePrice a).returnTripFactor := zero_le_one.trans (one_le_factor a)
  have hmin := safeNonNegative_mono h.duration
  exact mathRound_mono (mul_le_mul hmin (factor_mono h) hfactor (safeNonNegative_nonneg _))

theorem subtotal_nonneg (a : PricingInput) : 0 ≤ (computePrice a).subtotalCents := by
  have hbase : 0 ≤ (computePrice a).baseFeeCents := le_max_left _ _
  have hkm : 0 ≤ (computePrice a).distanceFeeCents :=
    mathRound_nonneg (mul_nonneg (billedDistance_nonneg a) (safeNonNegative_nonneg _))
  have hmin : 0 ≤ (computePrice a).timeFeeCents :=
    mathRound_nonneg
      (mul_nonneg (Int.cast_nonneg (billedDuration_nonneg a)) (safeNonNegative_nonneg _))
  exact add_nonneg (add_nonneg hbase hkm) hmin

theorem subtotal_mono (h : a.Below b) :
    (computePrice a).subtotalCents ≤ (computePrice b).subtotalCents := by
  have hbase : (computePrice a).baseFeeCents ≤ (computePrice b).baseFeeCents :=
    max_le_max_left 0 (mathRound_mono h.base)
  have hkm : (computePrice a).distanceFeeCents ≤ (computePrice b).distanceFeeCents :=
    mathRound_mono (mul_le_mul (billedDistance_mono h) (safeNonNegative_mono h.perKm)
      (safeNonNegative_nonneg _) (billedDistance_nonneg b))
  have hmin : (computePrice a).timeFeeCents ≤ (computePrice b).timeFeeCents :=
    mathRound_mono (mul_le_mul (Int.cast_le.mpr (billedDuration_mono h))
      (safeNonNegative_mono h.perMinute) (safeNonNegative_nonneg _)
      (Int.cast_nonneg (billedDuration_nonneg b)))
  exact add_le_add (add_le_add hbase hkm) hmin

/-- The surge is the one multiplier that has to make sense. -/
theorem safeMultiplier_mono {x y : ℚ} (hx : 0 < x) (h : x ≤ y) :
    safeMultiplier x ≤ safeMultiplier y := by
  rw [safeMultiplier_of_pos hx, safeMultiplier_of_pos (hx.trans_le h)]
  exact h

theorem share_mono (hsurge : safeMultiplier a.tariff.surgeMultiplier ≤
    safeMultiplier b.tariff.surgeMultiplier) (h : a.Below b) :
    (computePrice a).inspectorShareCents ≤ (computePrice b).inspectorShareCents := by
  have hsubtotal : ((computePrice a).subtotalCents : ℚ) ≤ (computePrice b).subtotalCents :=
    Int.cast_le.mpr (subtotal_mono h)
  have hsurged :
      mathRound ((computePrice a).subtotalCents * safeMultiplier a.tariff.surgeMultiplier) ≤
        mathRound ((computePrice b).subtotalCents * safeMultiplier b.tariff.surgeMultiplier) :=
    mathRound_mono (mul_le_mul hsubtotal hsurge (safeMultiplier_pos _).le
      (Int.cast_nonneg (subtotal_nonneg b)))
  exact max_le_max hsurged (max_le_max_left 0 (mathRound_mono h.minimum))

theorem platformFee_mono (hsurge : safeMultiplier a.tariff.surgeMultiplier ≤
    safeMultiplier b.tariff.surgeMultiplier) (h : a.Below b) :
    (computePrice a).platformFeeCents ≤ (computePrice b).platformFeeCents := by
  have hshare : ((computePrice a).inspectorShareCents : ℚ) ≤ (computePrice b).inspectorShareCents :=
    Int.cast_le.mpr (share_mono hsurge h)
  have hpercent : 0 ≤ min 100 (max 0 (safeNonNegative a.tariff.platformFeePercent)) :=
    le_min (by norm_num) (le_max_left _ _)
  have hfee : (computePrice a).inspectorShareCents *
        min 100 (max 0 (safeNonNegative a.tariff.platformFeePercent)) / 100 ≤
      (computePrice b).inspectorShareCents *
        min 100 (max 0 (safeNonNegative b.tariff.platformFeePercent)) / 100 := by
    rw [← h.percent]
    exact div_le_div_of_nonneg_right (mul_le_mul_of_nonneg_right hshare hpercent) (by norm_num)
  exact mathRound_mono hfee

theorem total_mono (hsurge : safeMultiplier a.tariff.surgeMultiplier ≤
    safeMultiplier b.tariff.surgeMultiplier) (h : a.Below b) :
    (computePrice a).totalCents ≤ (computePrice b).totalCents := by
  rw [← computePrice_total, ← computePrice_total]
  exact add_le_add (platformFee_mono hsurge h) (share_mono hsurge h)

/-- A price splits exactly, pays at least the minimum fare, and grows with everything that may make
a trip dearer. -/
theorem price_monotone (a : PricingInput) :
    (computePrice a).platformFeeCents + (computePrice a).inspectorShareCents =
      (computePrice a).totalCents ∧
    (computePrice a).minimumFareCents ≤ (computePrice a).inspectorShareCents ∧
    (∀ n : Cents, a.tariff.minimumFareCents = n → n ≤ (computePrice a).inspectorShareCents) ∧
    ∀ b, 0 < a.tariff.surgeMultiplier → a.Below b →
      (computePrice a).inspectorShareCents ≤ (computePrice b).inspectorShareCents ∧
      (computePrice a).totalCents ≤ (computePrice b).totalCents := by
  refine ⟨computePrice_total a, computePrice_minimum a, ?_, ?_⟩
  · intro n hn
    have hfloor : (computePrice a).minimumFareCents = max 0 n := by
      simp only [computePrice, hn, mathRound_intCast]
    exact (le_max_right 0 n).trans (hfloor ▸ computePrice_minimum a)
  · intro b hpos hbelow
    have hsurge := safeMultiplier_mono hpos hbelow.surge
    exact ⟨share_mono hsurge hbelow, total_mono hsurge hbelow⟩

/-- A trip of 12.3 km and 20 minutes, there and back. -/
def shortTrip : PricingInput where
  distanceKm := 123 / 10
  durationMin := 20
  tariff := ⟨2000, 30, 10, 3500, 20, 1, 2⟩

/-- The same trip at a higher base fee and in a surge. -/
def surgedTrip : PricingInput :=
  { shortTrip with
    tariff := { shortTrip.tariff with baseFeeCents := 2500, surgeMultiplier := 3 / 2 } }

theorem price_monotone_surged : (computePrice shortTrip).totalCents = 4200 ∧
    (computePrice surgedTrip).totalCents = 6548 ∧
    (computePrice shortTrip).totalCents ≤ (computePrice surgedTrip).totalCents := by
  refine ⟨by decide +kernel, by decide +kernel, ?_⟩
  have hbelow : shortTrip.Below surgedTrip := by
    constructor <;> norm_num [shortTrip, surgedTrip]
  exact ((price_monotone shortTrip).2.2.2 surgedTrip (by norm_num [shortTrip]) hbelow).2

end Monotone

section Repricing

variable {tariff : PricingTariff} {d : ℚ} {m : Int}

/-- The trip the row of a new order tells of. -/
def storedTrip (tariff : PricingTariff) (d : ℚ) (m : Int) : PricingInput :=
  tariffForStoredOrder tariff (insertOrder (computePrice ⟨d, m, tariff⟩))

/-- The factor of a tariff that makes sense is stored, and read back, as it is. -/
theorem insertOrder_factor {n : Int} (hf : 1 ≤ tariff.returnTripFactor)
    (hn : tariff.returnTripFactor * 100 = n) :
    (insertOrder (computePrice ⟨d, m, tariff⟩)).returnTripFactor = tariff.returnTripFactor := by
  have hfactor : (computePrice ⟨d, m, tariff⟩).returnTripFactor = tariff.returnTripFactor := by
    rw [computePrice_factor, max_eq_right hf]
  show toFixed2 (computePrice ⟨d, m, tariff⟩).returnTripFactor = _
  rw [hfactor, toFixed2_eq hn]

/-- What a row gives back is the distance to the tenth it was charged at, also where that is
none. -/
theorem storedTrip_distance {n : Int} (hf : 1 ≤ tariff.returnTripFactor)
    (hn : tariff.returnTripFactor * 100 = n) :
    (storedTrip tariff d m).distanceKm = roundTenth (safeNonNegative d) := by
  have hpos : 0 < tariff.returnTripFactor := by linarith
  have hbilled : (insertOrder (computePrice ⟨d, m, tariff⟩)).billedDistanceKm =
      roundTenth (roundTenth (safeNonNegative d) * tariff.returnTripFactor) := by
    show roundTenth (_ * max 1 (safeMultiplier tariff.returnTripFactor)) = _
    rw [max_one_safeMultiplier, max_eq_right hf]
  have hkm : 0 ≤ roundTenth (safeNonNegative d) := roundTenth_nonneg (safeNonNegative_nonneg d)
  have hback : roundTenth (safeNonNegative
      (roundTenth (roundTenth (safeNonNegative d) * tariff.returnTripFactor)) /
      tariff.returnTripFactor) = roundTenth (safeNonNegative d) := by
    rw [safeNonNegative_of_nonneg (roundTenth_nonneg (mul_nonneg hkm hpos.le))]
    simp only [roundTenth_eq]
    exact Rounding.onGrid_div_onGrid_mul (by norm_num) hf _
  simp only [storedTrip, tariffForStoredOrder, describeStoredFare, insertOrder_factor hf hn,
    hbilled, if_pos hpos, hback]
  have hradius : safeNonNegative (insertOrder (computePrice ⟨d, m, tariff⟩)).freeRadiusKm = 0 := rfl
  rw [hradius, add_zero, roundTenth_roundTenth]
  split
  next => rfl
  next hzero => exact (le_antisymm (not_lt.mp hzero) hkm).symm

theorem storedTrip_duration {n : Int} (hf : 1 ≤ tariff.returnTripFactor)
    (hn : tariff.returnTripFactor * 100 = n) :
    (storedTrip tariff d m).durationMin = (max 0 m : Int) := by
  have hpos : 0 < tariff.returnTripFactor := by linarith
  have hminutes : safeNonNegative (m : ℚ) = ((max 0 m : Int) : ℚ) := by
    rw [safeNonNegative_eq, Int.cast_max, Int.cast_zero]
  have hbilled : (insertOrder (computePrice ⟨d, m, tariff⟩)).billedDurationMin =
      some (round (((max 0 m : Int) : ℚ) * tariff.returnTripFactor)) := by
    show some (mathRound (safeNonNegative (m : ℚ) *
      max 1 (safeMultiplier tariff.returnTripFactor))) = _
    rw [max_one_safeMultiplier, max_eq_right hf, hminutes, mathRound_eq_round]
  simp only [storedTrip, tariffForStoredOrder, describeStoredFare, insertOrder_factor hf hn,
    hbilled, if_pos hpos, Option.map_some, Option.getD_some, mathRound_eq_round]
  rw [Rounding.round_div_round_mul hf]

/-- The recovered trip is billed as the measured one was. -/
theorem storedTrip_billed {n : Int} (hf : 1 ≤ tariff.returnTripFactor)
    (hn : tariff.returnTripFactor * 100 = n) :
    (computePrice (storedTrip tariff d m)).billedDistanceKm =
      (computePrice ⟨d, m, tariff⟩).billedDistanceKm ∧
    (computePrice (storedTrip tariff d m)).billedDurationMin =
      (computePrice ⟨d, m, tariff⟩).billedDurationMin := by
  have hkm : 0 ≤ roundTenth (safeNonNegative d) := roundTenth_nonneg (safeNonNegative_nonneg d)
  constructor
  · show roundTenth (roundTenth (safeNonNegative (storedTrip tariff d m).distanceKm) * _) = _
    rw [storedTrip_distance hf hn, safeNonNegative_of_nonneg hkm, roundTenth_roundTenth]
    rfl
  · show mathRound (safeNonNegative (storedTrip tariff d m).durationMin * _) = _
    have hminutes : safeNonNegative ((max 0 m : Int) : ℚ) = safeNonNegative (m : ℚ) := by
      rw [safeNonNegative_eq, safeNonNegative_eq, Int.cast_max, Int.cast_zero,
        max_eq_right (le_max_left 0 (m : ℚ))]
    rw [storedTrip_duration hf hn, hminutes]
    rfl

/-- An order priced again from its row, at the tariff it was priced at, costs the same to the
cent. -/
theorem repriced (tariff : PricingTariff) (d : ℚ) (m n : Int) (hf : 1 ≤ tariff.returnTripFactor)
    (hn : tariff.returnTripFactor * 100 = n) :
    (computePrice (tariffForStoredOrder tariff
      (insertOrder (computePrice ⟨d, m, tariff⟩)))).toPriceBreakdown =
      (computePrice ⟨d, m, tariff⟩).toPriceBreakdown ∧
    (recomputed tariff (insertOrder (computePrice ⟨d, m, tariff⟩))).toPriceBreakdown =
      (computePrice ⟨d, m, tariff⟩).toPriceBreakdown := by
  obtain ⟨hkm, hmin⟩ := storedTrip_billed (d := d) (m := m) hf hn
  constructor
  · exact computePrice_congr hkm hmin rfl rfl
  · refine computePrice_congr hkm hmin ?_ rfl
    show max 0 (mathRound ((max 0 (mathRound tariff.baseFeeCents) : Int) : ℚ)) = _
    rw [mathRound_intCast, max_eq_right (le_max_left 0 (mathRound tariff.baseFeeCents))]
    rfl

/-- A trip too short to be charged by the kilometre comes back as no distance at all. -/
theorem repriced_near : (tariffForStoredOrder shortTrip.tariff
      (insertOrder (computePrice ⟨1 / 25, 1, shortTrip.tariff⟩))).distanceKm = 0 ∧
    (computePrice (tariffForStoredOrder shortTrip.tariff
      (insertOrder (computePrice ⟨1 / 25, (1 : Int), shortTrip.tariff⟩)))).toPriceBreakdown =
      (computePrice ⟨1 / 25, (1 : Int), shortTrip.tariff⟩).toPriceBreakdown :=
  ⟨by decide +kernel, (repriced shortTrip.tariff (1 / 25) 1 200 (by norm_num [shortTrip])
    (by norm_num [shortTrip])).1⟩

end Repricing

end CarSalePro.Pricing
