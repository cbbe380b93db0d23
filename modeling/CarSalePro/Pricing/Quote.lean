import Mathlib.Data.List.MinMax
import CarSalePro.Pricing.OrderPricing

namespace CarSalePro.Pricing

/-- The window an inspector's base fee must stay inside, in cents. -/
def inspectorBaseFeeMinCents : Int := 500

def inspectorBaseFeeMaxCents : Int := 50000

/-- The base to price with: the inspector's own, held inside the bounds, or the platform's. -/
def effectiveBaseFeeCents (inspectorBaseCents : Option ℚ) (platformBaseCents : ℚ) : ℚ :=
  match inspectorBaseCents with
  | none => platformBaseCents
  | some base =>
    (min inspectorBaseFeeMaxCents (max inspectorBaseFeeMinCents (mathRound base)) : Int)

/-- No cap, or one that is not positive, never refuses. -/
def exceedsCap (distanceKm : ℚ) (capKm : Option ℚ) : Bool :=
  match capKm with
  | none => false
  | some cap => if cap ≤ 0 then false else cap < distanceKm

/-- An inspector in reach, and how far they are in a straight line. -/
structure Candidate where
  userId : UserId
  distanceKm : ℚ
  deriving DecidableEq, Repr

/-- One direction of a drive. -/
structure Trip where
  distanceKm : ℚ
  durationMin : ℚ
  deriving DecidableEq, Repr

/-- The measured route to the nearest candidate, and what the other drives are derived by. -/
structure MeasuredTrip extends Trip where
  detourFactor : ℚ
  capKm : Option ℚ
  deriving DecidableEq, Repr

/-- The rows of `inspectorProfile` that a quote reads: who states which base fee. -/
abbrev StatedFees := List (UserId × Option ℚ)

/-- `new Map(...).get(userId)`: of two rows of one inspector the later one counts. -/
def StatedFees.get (profiles : StatedFees) (userId : UserId) : Option ℚ :=
  (profiles.reverse.lookup userId).join

/-- One candidate's drive. Whoever is not further than the nearest keeps the measured route. -/
def tripForCandidate (trip : MeasuredTrip) (straightLineKm nearestStraightLineKm : ℚ) : Trip :=
  if straightLineKm ≤ nearestStraightLineKm then trip.toTrip
  else
    let distanceKm := max 0 straightLineKm * max 1 trip.detourFactor
    { distanceKm
      durationMin :=
        if 0 < trip.distanceKm then mathRound (trip.durationMin * (distanceKm / trip.distanceKm))
        else trip.durationMin }

/-- The regional tariff over the drive of the nearest. -/
def nearestPrice (tariff : PricingTariff) (trip : MeasuredTrip) : PriceBreakdown :=
  computePrice { distanceKm := trip.distanceKm, durationMin := trip.durationMin, tariff }

/-- The body of the loop: the cap is applied to each candidate, and the first of the cheapest
stays. -/
def cheaperCandidate (tariff : PricingTariff) (stated : StatedFees) (trip : MeasuredTrip)
    (nearestKm : ℚ) (best : Option PriceBreakdown) (candidate : Candidate) :
    Option PriceBreakdown :=
  let trip_ := tripForCandidate trip candidate.distanceKm nearestKm
  if exceedsCap trip_.distanceKm trip.capKm then best
  else
    let baseFeeCents := effectiveBaseFeeCents (stated.get candidate.userId) tariff.baseFeeCents
    let price := computePrice
      { distanceKm := trip_.distanceKm
        durationMin := trip_.durationMin
        tariff :=
          if baseFeeCents = tariff.baseFeeCents then tariff else { tariff with baseFeeCents } }
    match best with
    | none => some price
    | some cheapest => if price.totalCents < cheapest.totalCents then some price else some cheapest

/-- The cheapest total among the candidates. One profile query serves the whole set. -/
def cheapestCandidatePrice (tariff : PricingTariff) (inspectorProfile : StatedFees)
    (candidates : List Candidate) (trip : MeasuredTrip) : PriceBreakdown :=
  match candidates with
  | [] => nearestPrice tariff trip
  | nearest :: _ =>
    let profiles := inspectorProfile.filter fun row => candidates.any (·.userId = row.1)
    let best := candidates.foldl (cheaperCandidate tariff profiles trip nearest.distanceKm) none
    best.getD (nearestPrice tariff trip)

/-- Why a quote is refused. -/
inductive Refusal where
  | noCoverage | tooFar
  deriving DecidableEq, Repr

structure PricedQuote where
  refusal : Option Refusal
  price : PriceBreakdown
  deriving DecidableEq, Repr

/-- `priceQuote` from the candidates on: the route is measured for the nearest only, and the cap
refuses before a price exists. -/
def priceQuote (tariff : PricingTariff) (inspectorProfile : StatedFees) (capKm : Option ℚ)
    (detourFactor : ℚ) (candidates : List Candidate) (estimate : Candidate → Trip) : PricedQuote :=
  let empty := computePrice { distanceKm := 0, durationMin := 0, tariff }
  match candidates with
  | [] => { refusal := some .noCoverage, price := empty }
  | nearest :: _ =>
    let route := estimate nearest
    if exceedsCap route.distanceKm capKm then { refusal := some .tooFar, price := empty }
    else
      { refusal := none
        price := cheapestCandidatePrice tariff inspectorProfile candidates
          { route with detourFactor, capKm } }

section Stated

variable {profiles : StatedFees} {user : UserId}

theorem lookup_filter {rows : StatedFees} {p : UserId → Bool} (h : p user = true) :
    (rows.filter fun row => p row.1).lookup user = rows.lookup user := by
  induction rows with
  | nil => rfl
  | cons row rows ih =>
    obtain ⟨owner, fee⟩ := row
    by_cases howner : user = owner
    · subst howner
      simp [h]
    · have hother : (user == owner) = false := by simpa using howner
      by_cases hkept : p owner = true
      · simp [hkept, List.lookup_cons, hother, ih]
      · simp [hkept, List.lookup_cons, hother, ih]

/-- The rows of the other inspectors say nothing about this one. -/
theorem StatedFees.get_filter {p : UserId → Bool} (h : p user = true) :
    StatedFees.get (profiles.filter fun row => p row.1) user = profiles.get user := by
  unfold StatedFees.get
  rw [← List.filter_reverse, lookup_filter h]

end Stated

section Cap

/-- The nearest keeps the measured route. -/
@[simp] theorem tripForCandidate_nearest (trip : MeasuredTrip) (nearestKm : ℚ) :
    tripForCandidate trip nearestKm nearestKm = trip.toTrip := if_pos le_rfl

end Cap

end CarSalePro.Pricing
