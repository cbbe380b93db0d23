import Mathlib.Data.Int.ConditionallyCompleteOrder
import CarSalePro.Pricing.Quote
import CarSalePro.Laws.Fares

namespace CarSalePro.Pricing

/-- The straight line to the first candidate. -/
def nearestKm (candidates : List Candidate) : ℚ :=
  match candidates with
  | [] => 0
  | nearest :: _ => nearest.distanceKm

section Candidates

variable (tariff : PricingTariff) (profiles : StatedFees) (candidates : List Candidate)
  (trip : MeasuredTrip)

/-- A candidate's own drive. -/
def ownTrip (c : Candidate) : Trip := tripForCandidate trip c.distanceKm (nearestKm candidates)

/-- A candidate's own base fee. -/
def ownBaseFee (c : Candidate) : ℚ :=
  effectiveBaseFeeCents (profiles.get c.userId) tariff.baseFeeCents

/-- What a candidate's own drive costs at their own base fee. -/
def ownPrice (c : Candidate) : PriceBreakdown :=
  computePrice
    { distanceKm := (ownTrip candidates trip c).distanceKm
      durationMin := (ownTrip candidates trip c).durationMin
      tariff := { tariff with baseFeeCents := ownBaseFee tariff profiles c } }

/-- The candidates whose own drive is within the cap. -/
def admissible : List Candidate :=
  candidates.filter fun c => !exceedsCap (ownTrip candidates trip c).distanceKm trip.capKm

end Candidates

section Fold

variable {tariff : PricingTariff} {profiles : StatedFees} {candidates : List Candidate}
  {trip : MeasuredTrip}

theorem cheaperCandidate_beyond {stated : StatedFees} {km : ℚ} {best : Option PriceBreakdown}
    {c : Candidate}
    (h : exceedsCap (tripForCandidate trip c.distanceKm km).distanceKm trip.capKm = true) :
    cheaperCandidate tariff stated trip km best c = best := by
  simp only [cheaperCandidate, h, if_true]

/-- Within the cap the body of the loop is a step towards the least total. -/
theorem cheaperCandidate_within {stated : StatedFees} {best : Option PriceBreakdown}
    {c : Candidate} (hstated : stated.get c.userId = profiles.get c.userId)
    (h : exceedsCap (ownTrip candidates trip c).distanceKm trip.capKm = false) :
    cheaperCandidate tariff stated trip (nearestKm candidates) best c =
      List.argAux (fun p q => p.totalCents < q.totalCents) best
        (ownPrice tariff profiles candidates trip c) := by
  have hown : (if ownBaseFee tariff profiles c = tariff.baseFeeCents then tariff
      else { tariff with baseFeeCents := ownBaseFee tariff profiles c }) =
      { tariff with baseFeeCents := ownBaseFee tariff profiles c } := by
    split
    next hsame => rw [hsame]
    next => rfl
  unfold ownTrip at h
  simp only [cheaperCandidate, hstated, h, List.argAux, ownPrice, ownTrip]
  unfold ownBaseFee at hown ⊢
  rw [hown]
  cases best <;> rfl

/-- The loop over any part of the candidates, from any price. -/
theorem foldl_cheaperCandidate (tariff : PricingTariff) (trip : MeasuredTrip)
    (candidates : List Candidate) {stated : StatedFees} {part : List Candidate}
    (best : Option PriceBreakdown)
    (hstated : ∀ c ∈ part, stated.get c.userId = profiles.get c.userId) :
    part.foldl (cheaperCandidate tariff stated trip (nearestKm candidates)) best =
      ((part.filter fun c => !exceedsCap (ownTrip candidates trip c).distanceKm trip.capKm).map
        (ownPrice tariff profiles candidates trip)).foldl
          (List.argAux fun p q => p.totalCents < q.totalCents) best := by
  induction part generalizing best with
  | nil => rfl
  | cons c rest ih =>
    have hrest : ∀ d ∈ rest, stated.get d.userId = profiles.get d.userId :=
      fun d hd => hstated d (List.mem_cons_of_mem c hd)
    cases hcap : exceedsCap (ownTrip candidates trip c).distanceKm trip.capKm with
    | true =>
      rw [List.foldl_cons, cheaperCandidate_beyond hcap, ih _ hrest]
      simp [hcap]
    | false =>
      rw [List.foldl_cons, cheaperCandidate_within (hstated c List.mem_cons_self) hcap, ih _ hrest]
      simp [hcap]

/-- The quote is the first of the least totals. -/
theorem cheapestCandidatePrice_eq (tariff : PricingTariff) (profiles : StatedFees)
    (candidates : List Candidate) (trip : MeasuredTrip) :
    cheapestCandidatePrice tariff profiles candidates trip =
      (((admissible candidates trip).map (ownPrice tariff profiles candidates trip)).argmin
        (·.totalCents)).getD (nearestPrice tariff trip) := by
  cases candidates with
  | nil => rfl
  | cons nearest rest =>
    have hstated : ∀ c ∈ nearest :: rest,
        StatedFees.get (profiles.filter fun row => (nearest :: rest).any (·.userId = row.1))
          c.userId = profiles.get c.userId := by
      intro c hc
      apply StatedFees.get_filter (p := fun user => (nearest :: rest).any (·.userId = user))
      exact List.any_eq_true.mpr ⟨c, hc, decide_eq_true rfl⟩
    have hfold := foldl_cheaperCandidate tariff trip (nearest :: rest) none hstated
    exact congrArg (fun best => Option.getD best (nearestPrice tariff trip)) hfold

end Fold

section Least

variable {candidates : List Candidate} {trip : MeasuredTrip}

theorem argmin_cons_of_le {α : Type} {f : α → Int} {a : α} {l : List α}
    (h : ∀ x ∈ l, f a ≤ f x) : (a :: l).argmin f = some a := by
  rw [List.argmin_cons]
  cases hleast : l.argmin f with
  | none => rfl
  | some x => exact if_neg (not_lt.mpr (h x (List.argmin_mem hleast)))

variable (tariff : PricingTariff) (profiles : StatedFees)

theorem quote_fallback (h : admissible candidates trip = []) :
    cheapestCandidatePrice tariff profiles candidates trip = nearestPrice tariff trip := by
  rw [cheapestCandidatePrice_eq, h]
  rfl

theorem quote_mem (h : admissible candidates trip ≠ []) :
    cheapestCandidatePrice tariff profiles candidates trip ∈
      ((admissible candidates trip).map (ownPrice tariff profiles candidates trip)).argmin
        (·.totalCents) := by
  rw [cheapestCandidatePrice_eq]
  cases hleast : ((admissible candidates trip).map
      (ownPrice tariff profiles candidates trip)).argmin (·.totalCents) with
  | none =>
    have hnone := List.argmin_eq_none.mp hleast
    exact absurd (List.map_eq_nil_iff.mp hnone) h
  | some p => rfl

theorem quote_le {c : Candidate} (hc : c ∈ admissible candidates trip) :
    (cheapestCandidatePrice tariff profiles candidates trip).totalCents ≤
      (ownPrice tariff profiles candidates trip c).totalCents := by
  have hquote := quote_mem tariff profiles (List.ne_nil_of_mem hc)
  have hown := List.mem_map_of_mem (f := ownPrice tariff profiles candidates trip) hc
  exact List.le_of_mem_argmin (f := fun p : PriceBreakdown => p.totalCents) hown hquote

theorem quote_is_own (h : admissible candidates trip ≠ []) :
    ∃ c ∈ admissible candidates trip,
      cheapestCandidatePrice tariff profiles candidates trip =
        ownPrice tariff profiles candidates trip c := by
  have hmem := List.argmin_mem (quote_mem tariff profiles h)
  obtain ⟨c, hc, heq⟩ := List.mem_map.mp hmem
  exact ⟨c, hc, heq.symm⟩

/-- A tie goes to the nearest. -/
theorem quote_nearest {nearest : Candidate} {rest : List Candidate}
    (hin : nearest ∈ admissible (nearest :: rest) trip)
    (h : ∀ c ∈ admissible (nearest :: rest) trip,
      (ownPrice tariff profiles (nearest :: rest) trip nearest).totalCents ≤
        (ownPrice tariff profiles (nearest :: rest) trip c).totalCents) :
    cheapestCandidatePrice tariff profiles (nearest :: rest) trip =
      ownPrice tariff profiles (nearest :: rest) trip nearest := by
  have hcap := (List.mem_filter.mp hin).2
  have hhead : ∃ others, admissible (nearest :: rest) trip = nearest :: others :=
    ⟨_, List.filter_cons_of_pos hcap⟩
  obtain ⟨others, hothers⟩ := hhead
  rw [cheapestCandidatePrice_eq, hothers, List.map_cons, argmin_cons_of_le]
  · rfl
  · intro p hp
    obtain ⟨c, hc, rfl⟩ := List.mem_map.mp hp
    exact h c (hothers ▸ List.mem_cons_of_mem nearest hc)

end Least

section Nearest

variable {tariff : PricingTariff} {profiles : StatedFees} {candidates : List Candidate}
  {trip : MeasuredTrip}

/-- The route of the nearest is no longer than the drive of anybody else, as the straight line
and the detour tell it. -/
def MeasuredTrip.Shortest (trip : MeasuredTrip) (candidates : List Candidate) : Prop :=
  ∀ c ∈ admissible candidates trip, nearestKm candidates < c.distanceKm →
    trip.distanceKm ≤ max 0 c.distanceKm * max 1 trip.detourFactor

/-- The minutes of a longer drive are scaled up, and a whole number of them is kept. -/
theorem scaled_minutes {m : Nat} {km km' : ℚ} (hm : trip.durationMin = m) (hpos : 0 < km)
    (h : km ≤ km') : trip.durationMin ≤ mathRound (trip.durationMin * (km' / km)) := by
  have hratio : 1 ≤ km' / km := (one_le_div hpos).mpr h
  have hscaled : (m : ℚ) ≤ m * (km' / km) := le_mul_of_one_le_right (Nat.cast_nonneg m) hratio
  have hround := mathRound_mono hscaled
  rw [show (m : ℚ) = ((m : Int) : ℚ) from (Int.cast_natCast m).symm, mathRound_intCast] at hround
  rw [hm]
  exact_mod_cast hround

/-- With the measured route the shortest, nobody's drive is below it. -/
theorem ownTrip_ge {m : Nat} (hm : trip.durationMin = m) (h : trip.Shortest candidates)
    {c : Candidate} (hc : c ∈ admissible candidates trip) :
    trip.distanceKm ≤ (ownTrip candidates trip c).distanceKm ∧
      trip.durationMin ≤ (ownTrip candidates trip c).durationMin := by
  unfold ownTrip tripForCandidate
  split
  next => exact ⟨le_rfl, le_rfl⟩
  next hfar =>
    have hkm := h c hc (not_le.mp hfar)
    refine ⟨hkm, ?_⟩
    simp only
    split
    next hpos => exact scaled_minutes hm hpos hkm
    next => exact le_rfl

theorem ownTrip_nearest {nearest : Candidate} {rest : List Candidate} :
    ownTrip (nearest :: rest) trip nearest = trip.toTrip := tripForCandidate_nearest trip _

/-- At equal base fees the shortest route is the least total. -/
theorem ownPrice_nearest_le {nearest : Candidate} {rest : List Candidate} {m : Nat}
    (hm : trip.durationMin = m) (h : trip.Shortest (nearest :: rest)) {c : Candidate}
    (hc : c ∈ admissible (nearest :: rest) trip)
    (hfee : ownBaseFee tariff profiles c = ownBaseFee tariff profiles nearest) :
    (ownPrice tariff profiles (nearest :: rest) trip nearest).totalCents ≤
      (ownPrice tariff profiles (nearest :: rest) trip c).totalCents := by
  obtain ⟨hkm, hmin⟩ := ownTrip_ge hm h hc
  unfold ownPrice
  rw [hfee, ownTrip_nearest]
  apply total_mono
  · exact le_rfl
  · exact ⟨hkm, hmin, le_rfl, le_rfl, le_rfl, le_rfl, le_rfl, le_rfl, rfl⟩

/-- The quote is the least total among the candidates within the cap, each on their own drive and
base fee, and the regional tariff over the nearest drive when nobody is. At equal base fees it is
the nearest's, unless somebody further comes out cheaper; and nobody does when the measured route
is the shortest. -/
theorem quote_cheapest (tariff : PricingTariff) (profiles : StatedFees)
    (candidates : List Candidate) (trip : MeasuredTrip) :
    (admissible candidates trip = [] →
      cheapestCandidatePrice tariff profiles candidates trip = nearestPrice tariff trip) ∧
    (admissible candidates trip ≠ [] →
      ∃ c ∈ admissible candidates trip,
        cheapestCandidatePrice tariff profiles candidates trip =
          ownPrice tariff profiles candidates trip c) ∧
    (∀ c ∈ admissible candidates trip,
      (cheapestCandidatePrice tariff profiles candidates trip).totalCents ≤
        (ownPrice tariff profiles candidates trip c).totalCents) ∧
    ∀ nearest rest, candidates = nearest :: rest → nearest ∈ admissible candidates trip →
      (∀ c ∈ rest, ownBaseFee tariff profiles c = ownBaseFee tariff profiles nearest) →
      (cheapestCandidatePrice tariff profiles candidates trip =
          ownPrice tariff profiles candidates trip nearest ↔
        ∀ c ∈ admissible candidates trip,
          (ownPrice tariff profiles candidates trip nearest).totalCents ≤
            (ownPrice tariff profiles candidates trip c).totalCents) ∧
      ∀ m : Nat, trip.durationMin = m → trip.Shortest candidates →
        cheapestCandidatePrice tariff profiles candidates trip =
          ownPrice tariff profiles candidates trip nearest := by
  refine ⟨quote_fallback tariff profiles, quote_is_own tariff profiles,
    fun c hc => quote_le tariff profiles hc, ?_⟩
  intro nearest rest hcandidates hin hfee
  subst hcandidates
  constructor
  · constructor
    · intro hquote c hc
      rw [← hquote]
      exact quote_le tariff profiles hc
    · exact quote_nearest tariff profiles hin
  · intro m hm hshortest
    apply quote_nearest tariff profiles hin
    intro c hc
    have hsame : ownBaseFee tariff profiles c = ownBaseFee tariff profiles nearest := by
      rcases List.mem_cons.mp (List.mem_filter.mp hc).1 with rfl | hrest
      · rfl
      · exact hfee c hrest
    exact ownPrice_nearest_le hm hshortest hc hsame

/-- The cap has cleared the nearest before a price exists, so a quote never falls back. -/
theorem available_quote {capKm : Option ℚ} {detourFactor : ℚ} {nearest : Candidate}
    {rest : List Candidate} {estimate : Candidate → Trip}
    (h : (priceQuote tariff profiles capKm detourFactor (nearest :: rest) estimate).refusal =
      none) :
    ∃ c ∈ admissible (nearest :: rest) ⟨estimate nearest, detourFactor, capKm⟩,
      (priceQuote tariff profiles capKm detourFactor (nearest :: rest) estimate).price =
        ownPrice tariff profiles (nearest :: rest) ⟨estimate nearest, detourFactor, capKm⟩ c := by
  cases hcap : exceedsCap (estimate nearest).distanceKm capKm with
  | true => simp [priceQuote, hcap] at h
  | false =>
    have hin : nearest ∈ admissible (nearest :: rest) ⟨estimate nearest, detourFactor, capKm⟩ := by
      apply List.mem_filter.mpr
      rw [ownTrip_nearest, hcap]
      exact ⟨List.mem_cons_self, rfl⟩
    obtain ⟨c, hc, hquote⟩ := quote_is_own tariff profiles (List.ne_nil_of_mem hin)
    refine ⟨c, hc, ?_⟩
    rw [← hquote]
    simp [priceQuote, hcap]

/-- Two inspectors who state nothing, ten and eleven kilometres away. -/
def neighbours : List Candidate := [⟨7, 10⟩, ⟨8, 11⟩]

def cityTariff : PricingTariff := ⟨3900, 30, 24, 3500, 20, 1, 2⟩

/-- The road to the first of them is short. -/
def straightRoad : MeasuredTrip := ⟨⟨12, 15⟩, 13 / 10, some 100⟩

theorem quote_cheapest_straight : cheapestCandidatePrice cityTariff [] neighbours straightRoad =
    ownPrice cityTariff [] neighbours straightRoad ⟨7, 10⟩ := by
  have hnearest := (quote_cheapest cityTariff [] neighbours straightRoad).2.2.2 ⟨7, 10⟩ [⟨8, 11⟩]
    rfl (by decide +kernel) (by decide +kernel)
  apply hnearest.2 15 (by norm_num [straightRoad])
  intro c hc hfar
  have hmem : c = ⟨7, 10⟩ ∨ c = ⟨8, 11⟩ := by simpa [neighbours] using (List.mem_filter.mp hc).1
  rcases hmem with rfl | rfl
  · exact absurd hfar (lt_irrefl _)
  · norm_num [straightRoad]

/-- The road to the first of them goes round a lake. -/
def windingRoad : MeasuredTrip := ⟨⟨30, 40⟩, 13 / 10, some 100⟩

/-- Equal base fees, everybody within the cap, and the quote is not the nearest's. -/
theorem nearest_outbid : neighbours.Pairwise (·.distanceKm ≤ ·.distanceKm) ∧
    (∀ c ∈ neighbours, c ∈ admissible neighbours windingRoad ∧
      ownBaseFee cityTariff [] c = ownBaseFee cityTariff [] ⟨7, 10⟩) ∧
    cheapestCandidatePrice cityTariff [] neighbours windingRoad ≠
      ownPrice cityTariff [] neighbours windingRoad ⟨7, 10⟩ := by
  decide +kernel

end Nearest

end CarSalePro.Pricing
