import CarSalePro.Orders.World
import CarSalePro.Pricing.Rounding

namespace CarSalePro.Pricing

/-- Tariff inputs: amounts in cents, except the unitless multipliers. -/
structure PricingTariff where
  baseFeeCents : ℚ
  ratePerKmCents : ℚ
  ratePerMinuteCents : ℚ
  minimumFareCents : ℚ
  platformFeePercent : ℚ
  surgeMultiplier : ℚ
  returnTripFactor : ℚ
  deriving DecidableEq, Repr

/-- One-direction distance and minutes, and what they are charged at. -/
structure PricingInput where
  distanceKm : ℚ
  durationMin : ℚ
  tariff : PricingTariff
  deriving DecidableEq, Repr

/-- The whole account of a price, over the three amounts an order keeps. -/
structure PriceBreakdown extends CarSalePro.PriceBreakdown where
  baseFeeCents : Cents
  distanceKm : ℚ
  chargeableDistanceKm : ℚ
  billedDistanceKm : ℚ
  returnTripFactor : ℚ
  distanceFeeCents : Cents
  durationMin : ℚ
  billedDurationMin : Int
  timeFeeCents : Cents
  subtotalCents : Cents
  surgeMultiplier : ℚ
  surgeFeeCents : Cents
  minimumFareCents : Cents
  minimumFareTopUpCents : Cents
  minimumFareApplied : Bool
  deriving DecidableEq, Repr

/-- A multiplier that makes no sense counts as 1. -/
def safeMultiplier (value : ℚ) : ℚ := if value ≤ 0 then 1 else value

def safeNonNegative (value : ℚ) : ℚ := if value < 0 then 0 else value

/-- `Math.round(value * 10) / 10`. -/
def roundTenth (value : ℚ) : ℚ := mathRound (value * 10) / 10

def computePrice (input : PricingInput) : PriceBreakdown :=
  let tariff := input.tariff
  let distanceKm := safeNonNegative input.distanceKm
  let durationMin := safeNonNegative input.durationMin
  let baseFeeCents := max 0 (mathRound tariff.baseFeeCents)
  let minimumFareCents := max 0 (mathRound tariff.minimumFareCents)
  let returnTripFactor := max 1 (safeMultiplier tariff.returnTripFactor)
  let chargeableDistanceKm := roundTenth distanceKm
  let billedDistanceKm := roundTenth (chargeableDistanceKm * returnTripFactor)
  let billedDurationMin := mathRound (durationMin * returnTripFactor)
  let distanceFeeCents := mathRound (billedDistanceKm * safeNonNegative tariff.ratePerKmCents)
  let timeFeeCents := mathRound (billedDurationMin * safeNonNegative tariff.ratePerMinuteCents)
  let subtotalCents := baseFeeCents + distanceFeeCents + timeFeeCents
  let surgeMultiplier := safeMultiplier tariff.surgeMultiplier
  let surgedCents := mathRound (subtotalCents * surgeMultiplier)
  let surgeFeeCents := surgedCents - subtotalCents
  let inspectorShareCents := max surgedCents minimumFareCents
  let minimumFareTopUpCents := inspectorShareCents - surgedCents
  let platformFeePercent := min 100 (max 0 (safeNonNegative tariff.platformFeePercent))
  let platformFeeCents := mathRound (inspectorShareCents * platformFeePercent / 100)
  let totalCents := inspectorShareCents + platformFeeCents
  { totalCents, platformFeeCents, inspectorShareCents, baseFeeCents, distanceKm,
    chargeableDistanceKm, billedDistanceKm, returnTripFactor, distanceFeeCents, durationMin,
    billedDurationMin, timeFeeCents, subtotalCents, surgeMultiplier, surgeFeeCents,
    minimumFareCents, minimumFareTopUpCents
    minimumFareApplied := 0 < minimumFareTopUpCents }

/-- The quantities an order row stores about its trip. -/
structure StoredFareRow where
  billedDistanceKm : ℚ
  returnTripFactor : ℚ
  freeRadiusKm : ℚ
  billedDurationMin : Option Int
  deriving DecidableEq, Repr

/-- What a stored order can say about its trip; no distance where the row cannot answer. -/
structure StoredFare where
  distanceKm : Option ℚ
  chargeableDistanceKm : ℚ
  billedDistanceKm : ℚ
  returnTripFactor : ℚ
  freeRadiusKm : ℚ
  durationMin : Option Int
  billedDurationMin : Option Int
  deriving DecidableEq, Repr

def describeStoredFare (row : StoredFareRow) : StoredFare :=
  let returnTripFactor := if 0 < row.returnTripFactor then row.returnTripFactor else 1
  let freeRadiusKm := safeNonNegative row.freeRadiusKm
  let billedDistanceKm := safeNonNegative row.billedDistanceKm
  let chargeableDistanceKm := roundTenth (billedDistanceKm / returnTripFactor)
  { distanceKm :=
      if 0 < chargeableDistanceKm then some (roundTenth (chargeableDistanceKm + freeRadiusKm))
      else none
    chargeableDistanceKm, billedDistanceKm, returnTripFactor, freeRadiusKm
    durationMin := row.billedDurationMin.map fun (billed : Int) =>
      mathRound (billed / returnTripFactor)
    billedDurationMin := row.billedDurationMin }

/-- `toFixed(2)`, which the factor is stored at. -/
def toFixed2 (value : ℚ) : ℚ := mathRound (value * 100) / 100

/-- The columns of a fare in an order's row. -/
structure OrderFare extends StoredFareRow where
  baseFeeCents : Cents
  distanceFeeCents : Cents
  timeFeeCents : Cents
  minimumFareApplied : Bool
  totalCents : Cents
  platformFeeCents : Cents
  inspectorShareCents : Cents
  deriving DecidableEq, Repr

/-- What `insertOrder` writes of a price. No order carries a free radius any more. -/
def insertOrder (p : PriceBreakdown) : OrderFare where
  billedDistanceKm := p.billedDistanceKm
  returnTripFactor := toFixed2 p.returnTripFactor
  freeRadiusKm := 0
  billedDurationMin := some p.billedDurationMin
  baseFeeCents := p.baseFeeCents
  distanceFeeCents := p.distanceFeeCents
  timeFeeCents := p.timeFeeCents
  minimumFareApplied := p.minimumFareApplied
  totalCents := p.totalCents
  platformFeeCents := p.platformFeeCents
  inspectorShareCents := p.inspectorShareCents

/-- The trip an order was priced on, recovered from its row, at the tariff of its region. -/
def tariffForStoredOrder (resolved : PricingTariff) (order : OrderFare) : PricingInput :=
  let fare := describeStoredFare order.toStoredFareRow
  { distanceKm := fare.distanceKm.getD 0
    durationMin := fare.durationMin.getD 0
    tariff := resolved }

/-- `bestPoolCandidate` prices the order again at the base fee of its row. -/
def recomputed (resolved : PricingTariff) (order : OrderFare) : PriceBreakdown :=
  let base := tariffForStoredOrder resolved order
  computePrice { base with tariff := { base.tariff with baseFeeCents := order.baseFeeCents } }

/-- The order priced on an inspector who is that far away in a straight line, at their own base
fee. The minutes are scaled by how much further they are. -/
def fairPriceForInspector (base : PricingInput) (baseFeeCents detourFactor straightLineKm : ℚ) :
    PriceBreakdown :=
  let distanceKm := max 0 straightLineKm * max 1 detourFactor
  let durationMin : ℚ :=
    if 0 < base.distanceKm then mathRound (base.durationMin * (distanceKm / base.distanceKm))
    else base.durationMin
  computePrice { distanceKm, durationMin, tariff := { base.tariff with baseFeeCents } }

section Rounding

variable {x y : ℚ}

theorem mathRound_eq_round (x : ℚ) : mathRound x = round x := (round_eq x).symm

theorem mathRound_mono (h : x ≤ y) : mathRound x ≤ mathRound y := by
  rw [mathRound_eq_round, mathRound_eq_round]
  exact Rounding.round_mono h

theorem mathRound_nonneg (h : 0 ≤ x) : 0 ≤ mathRound x := by
  rw [mathRound_eq_round]
  exact Rounding.round_nonneg h

@[simp] theorem mathRound_intCast (n : Int) : mathRound n = n := by
  rw [mathRound_eq_round, round_intCast]

theorem roundTenth_eq (x : ℚ) : roundTenth x = Rounding.onGrid 10 x := by
  rw [roundTenth, mathRound_eq_round, Rounding.onGrid]

theorem roundTenth_mono (h : x ≤ y) : roundTenth x ≤ roundTenth y := by
  rw [roundTenth_eq, roundTenth_eq]
  exact Rounding.onGrid_mono (by norm_num) h

theorem roundTenth_nonneg (h : 0 ≤ x) : 0 ≤ roundTenth x := by
  rw [roundTenth_eq]
  exact Rounding.onGrid_nonneg (by norm_num) h

theorem roundTenth_roundTenth (x : ℚ) : roundTenth (roundTenth x) = roundTenth x := by
  rw [roundTenth_eq, roundTenth_eq]
  exact Rounding.onGrid_onGrid (by norm_num)

theorem safeNonNegative_eq (x : ℚ) : safeNonNegative x = max 0 x := by
  unfold safeNonNegative
  split
  next h => exact (max_eq_left h.le).symm
  next h => exact (max_eq_right (not_lt.mp h)).symm

theorem safeNonNegative_nonneg (x : ℚ) : 0 ≤ safeNonNegative x := by
  rw [safeNonNegative_eq]
  exact le_max_left _ _

theorem safeNonNegative_mono (h : x ≤ y) : safeNonNegative x ≤ safeNonNegative y := by
  rw [safeNonNegative_eq, safeNonNegative_eq]
  exact max_le_max_left 0 h

theorem safeNonNegative_of_nonneg (h : 0 ≤ x) : safeNonNegative x = x := by
  rw [safeNonNegative_eq, max_eq_right h]

theorem safeMultiplier_pos (x : ℚ) : 0 < safeMultiplier x := by
  unfold safeMultiplier
  split
  next => norm_num
  next h => exact not_le.mp h

theorem safeMultiplier_of_pos (h : 0 < x) : safeMultiplier x = x := if_neg (not_le.mpr h)

/-- A factor below 1, or none at all, counts as 1. -/
theorem max_one_safeMultiplier (x : ℚ) : max 1 (safeMultiplier x) = max 1 x := by
  unfold safeMultiplier
  split
  next h => rw [max_self, max_eq_left (by linarith)]
  next => rfl

/-- A factor of at most two decimals is stored as it is. -/
theorem toFixed2_eq {n : Int} (h : x * 100 = n) : toFixed2 x = x := by
  rw [toFixed2, h, mathRound_intCast, ← h, mul_div_cancel_right₀ _ (by norm_num)]

end Rounding

section Price

variable {a b : PricingInput}

/-- The commission is charged on top of what the inspector earns. -/
theorem computePrice_total (a : PricingInput) : (computePrice a).platformFeeCents +
    (computePrice a).inspectorShareCents = (computePrice a).totalCents := add_comm _ _

theorem computePrice_minimum (a : PricingInput) :
    (computePrice a).minimumFareCents ≤ (computePrice a).inspectorShareCents := le_max_right _ _

theorem computePrice_share_nonneg (a : PricingInput) : 0 ≤ (computePrice a).inspectorShareCents :=
  (le_max_left 0 _).trans (computePrice_minimum a)

theorem computePrice_factor (a : PricingInput) :
    (computePrice a).returnTripFactor = max 1 a.tariff.returnTripFactor :=
  max_one_safeMultiplier _

theorem one_le_factor (a : PricingInput) : 1 ≤ (computePrice a).returnTripFactor := le_max_left _ _

/-- What the order keeps of a price depends on the trip through what is billed of it. -/
theorem computePrice_congr
    (hkm : (computePrice a).billedDistanceKm = (computePrice b).billedDistanceKm)
    (hmin : (computePrice a).billedDurationMin = (computePrice b).billedDurationMin)
    (hbase : (computePrice a).baseFeeCents = (computePrice b).baseFeeCents)
    (ht : a.tariff = { b.tariff with baseFeeCents := a.tariff.baseFeeCents }) :
    (computePrice a).toPriceBreakdown = (computePrice b).toPriceBreakdown := by
  obtain ⟨km, min, tariff⟩ := a
  simp only at ht
  rw [ht] at hkm hmin hbase ⊢
  simp only [computePrice] at hkm hmin hbase ⊢
  rw [hkm, hmin, hbase]

end Price

end CarSalePro.Pricing
