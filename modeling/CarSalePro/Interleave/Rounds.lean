import Mathlib.Data.Nat.Find
import Mathlib.Logic.Function.Iterate
import CarSalePro.Interleave.Pool

namespace Interleave

section Runs

variable {L S : Type} {R : S → Type} {σ ε χ α β : Type} {M : Machine L S R σ ε χ}

/-- A run of a program alone, from its start to its end, every step meeting a fate of its own. -/
inductive Prog.Runs (M : Machine L S R σ ε χ) :
    Prog L S R σ ε α → σ → Except ε α → σ → Prop where
  | ret (a : α) (w : σ) : Runs M (.ret a) w (.ok a) w
  | raise (e : ε) (w : σ) : Runs M (.raise e) w (.error e) w
  | ask {l : L} {ρ : Type} {f : σ → ρ} {k : Except ε ρ → Prog L S R σ ε α} {w w' : σ}
      {r : Except ε α} (c : χ) (h : Runs M (k (M.answer l f c w)) w r w') :
      Runs M (.ask l f k) w r w'
  | call {s : S} {k : Except ε (R s) → Prog L S R σ ε α} {w w' : σ} {r : Except ε α} (c : χ)
      (h : Runs M (k (M.exec s c w).1) (M.exec s c w).2 r w') : Runs M (.call s k) w r w'

namespace Prog.Runs

variable {p : Prog L S R σ ε α} {w w' : σ}

/-- Where a run goes on from another program's end, that program ran to its end first. -/
theorem of_bind {f : α → Prog L S R σ ε β} {r : Except ε β} (h : Runs M (p.bind f) w r w') :
    (∃ a w₁, Runs M p w (.ok a) w₁ ∧ Runs M (f a) w₁ r w') ∨
      ∃ e, Runs M p w (.error e) w' ∧ r = .error e := by
  induction p generalizing w with
  | ret a => exact .inl ⟨a, w, .ret a w, h⟩
  | raise e =>
    cases h
    exact .inr ⟨e, .raise e _, rfl⟩
  | ask l g k ih =>
    cases h with
    | ask c h =>
      rcases ih _ h with ⟨a, w₁, hp, hf⟩ | ⟨e, hp, hr⟩
      · exact .inl ⟨a, w₁, .ask c hp, hf⟩
      · exact .inr ⟨e, .ask c hp, hr⟩
  | call s k ih =>
    cases h with
    | call c h =>
      rcases ih _ h with ⟨a, w₁, hp, hf⟩ | ⟨e, hp, hr⟩
      · exact .inl ⟨a, w₁, .call c hp, hf⟩
      · exact .inr ⟨e, .call c hp, hr⟩

theorem of_bind_ok {f : α → Prog L S R σ ε β} {b : β} (h : Runs M (p.bind f) w (.ok b) w') :
    ∃ a w₁, Runs M p w (.ok a) w₁ ∧ Runs M (f a) w₁ (.ok b) w' := by
  rcases of_bind h with hok | ⟨e, -, he⟩
  · exact hok
  · cases he

/-- What is only done with the answer is no step. -/
theorem of_bind_ret {f : α → β} {r : Except ε β} (h : Runs M (p.bind fun a => .ret (f a)) w r w') :
    ∃ r', Runs M p w r' w' := by
  rcases of_bind h with ⟨a, w₁, hp, hret⟩ | ⟨e, hp, -⟩
  · cases hret
    exact ⟨_, hp⟩
  · exact ⟨_, hp⟩

theorem of_catch {f : ε → Prog L S R σ ε α} {r : Except ε α}
    (h : Runs M (p.tryCatch f) w r w') :
    (∃ a, Runs M p w (.ok a) w' ∧ r = .ok a) ∨
      ∃ e w₁, Runs M p w (.error e) w₁ ∧ Runs M (f e) w₁ r w' := by
  induction p generalizing w with
  | ret a =>
    cases h
    exact .inl ⟨a, .ret a _, rfl⟩
  | raise e => exact .inr ⟨e, w, .raise e w, h⟩
  | ask l g k ih =>
    cases h with
    | ask c h =>
      rcases ih _ h with ⟨a, hp, hr⟩ | ⟨e, w₁, hp, hf⟩
      · exact .inl ⟨a, .ask c hp, hr⟩
      · exact .inr ⟨e, w₁, .ask c hp, hf⟩
  | call s k ih =>
    cases h with
    | call c h =>
      rcases ih _ h with ⟨a, hp, hr⟩ | ⟨e, w₁, hp, hf⟩
      · exact .inl ⟨a, .call c hp, hr⟩
      · exact .inr ⟨e, w₁, .call c hp, hf⟩

theorem of_fetch {l : L} {f : σ → α} {r : Except ε α}
    (h : Runs M (fetch l f : Prog L S R σ ε α) w r w') :
    w' = w ∧ ∃ c, r = M.answer l f c w := by
  cases h with
  | ask c h =>
    cases ha : M.answer l f c w with
    | ok a =>
      rw [ha] at h
      cases h
      exact ⟨rfl, c, ha.symm⟩
    | error e =>
      rw [ha] at h
      cases h
      exact ⟨rfl, c, ha.symm⟩

/-- A read that was answered told the state. -/
theorem of_fetch_ok {l : L} {f : σ → α} {a : α}
    (h : Runs M (fetch l f : Prog L S R σ ε α) w (.ok a) w') : w' = w ∧ a = f w := by
  obtain ⟨hw, c, hr⟩ := of_fetch h
  refine ⟨hw, ?_⟩
  unfold Machine.answer at hr
  split at hr
  · cases hr
  · cases hr
    rfl

end Prog.Runs

/-- One pass of a loop over the rows it selected. A row whose body throws ends the pass where
the loop stops at an error, and is passed over where each row is guarded. -/
inductive Pass (M : Machine L S R σ ε χ) (stops : Bool) (body : β → Prog L S R σ ε α) :
    List β → σ → List (β × Bool) → σ → Prop where
  | nil (w : σ) : Pass M stops body [] w [] w
  | done {b : β} {bs : List β} {a : α} {w w₁ w' : σ} {seen : List (β × Bool)}
      (h : Prog.Runs M (body b) w (.ok a) w₁) (hs : Pass M stops body bs w₁ seen w') :
      Pass M stops body (b :: bs) w ((b, false) :: seen) w'
  | skip {b : β} {bs : List β} {e : ε} {w w₁ w' : σ} {seen : List (β × Bool)}
      (hg : stops = false) (h : Prog.Runs M (body b) w (.error e) w₁)
      (hs : Pass M stops body bs w₁ seen w') :
      Pass M stops body (b :: bs) w ((b, true) :: seen) w'
  | stop {b : β} {bs : List β} {e : ε} {w w' : σ} (hg : stops = true)
      (h : Prog.Runs M (body b) w (.error e) w') :
      Pass M stops body (b :: bs) w [(b, true)] w'

namespace Prog.Runs

variable {rows : List β} {w w' : σ}

/-- A run of the loop that does not guard its rows is a pass that stops. -/
theorem pass_forEach {body : β → Prog L S R σ ε Unit} {r : Except ε Unit}
    (h : Runs M (forEach rows body) w r w') : ∃ seen, Pass M true body rows w seen w' := by
  induction rows generalizing w with
  | nil =>
    cases h
    exact ⟨[], .nil _⟩
  | cons b rows ih =>
    rcases of_bind h with ⟨a, w₁, hb, hrest⟩ | ⟨e, hb, -⟩
    · obtain ⟨seen, hpass⟩ := ih hrest
      exact ⟨(b, false) :: seen, .done hb hpass⟩
    · exact ⟨[(b, true)], .stop rfl hb⟩

/-- A run of the loop that guards each row is a pass that goes on. -/
theorem pass_countEach {body : β → Prog L S R σ ε Bool} {r : Except ε Nat}
    (h : Runs M (countEach rows fun b => (body b).tryCatch fun _ => .ret false) w r w') :
    ∃ seen, Pass M false body rows w seen w' := by
  induction rows generalizing w r with
  | nil =>
    cases h
    exact ⟨[], .nil _⟩
  | cons b rows ih =>
    rcases of_bind h with ⟨hit, w₁, hb, hrest⟩ | ⟨e, hb, -⟩
    · obtain ⟨r', hrows⟩ := of_bind_ret hrest
      obtain ⟨seen, hpass⟩ := ih hrows
      rcases of_catch hb with ⟨a, hok, -⟩ | ⟨e, w₂, herr, hret⟩
      · exact ⟨(b, false) :: seen, .done hok hpass⟩
      · cases hret
        exact ⟨(b, true) :: seen, .skip rfl herr hpass⟩
    · rcases of_catch hb with ⟨a, -, hr⟩ | ⟨e, w₂, -, hret⟩
      · cases hr
      · cases hret

end Prog.Runs

end Runs

section Rows

variable {κ β γ : Type}

/-- The first rows, as many as there is a limit to. -/
def firstOf (limit : Option Nat) (rows : List β) : List β :=
  match limit with
  | none => rows
  | some n => rows.take n

theorem firstOf_map {limit : Option Nat} {f : β → κ} {rows : List β} :
    (firstOf limit rows).map f = firstOf limit (rows.map f) := by
  cases limit with
  | none => rfl
  | some n => exact List.map_take

section Limit

variable {limit : Option Nat} {before behind : List β} {d : β}

theorem firstOf_append (h : ∀ n ∈ limit, before.length < n) :
    ∃ more, firstOf limit (before ++ d :: behind) = before ++ d :: more := by
  cases limit with
  | none => exact ⟨behind, rfl⟩
  | some n =>
    have hlt := h n rfl
    obtain ⟨m, hm⟩ : ∃ m, n = before.length + (m + 1) := ⟨n - before.length - 1, by omega⟩
    refine ⟨behind.take m, ?_⟩
    simp only [firstOf]
    rw [hm, List.take_length_add_append, List.take_succ_cons]

theorem firstOf_short {n : Nat} (h : n ≤ before.length) :
    firstOf (some n) (before ++ d :: behind) = before.take n := List.take_append_of_le_length h

end Limit

/-- The rows a pass comes to, when it is known which of them throw. -/
def rowsReached (stops : Bool) (throws : κ → Bool) : List κ → List κ
  | [] => []
  | d :: ds => if stops && throws d then [d] else d :: rowsReached stops throws ds

theorem rowsReached_map {stops : Bool} {throws : κ → Bool} {f : β → κ} {rows : List β} :
    (rowsReached stops (fun b => throws (f b)) rows).map f =
      rowsReached stops throws (rows.map f) := by
  induction rows with
  | nil => rfl
  | cons b rows ih =>
    simp only [rowsReached, List.map_cons]
    split
    · rfl
    · rw [List.map_cons, ih]

theorem Pass.rows {L S : Type} {R : S → Type} {σ ε χ α : Type} {M : Machine L S R σ ε χ}
    {stops : Bool} {body : β → Prog L S R σ ε α} {rows : List β} {w w' : σ}
    {seen : List (β × Bool)} (h : Pass M stops body rows w seen w') (throws : β → Bool)
    (ht : ∀ x ∈ seen, x.2 = throws x.1) : seen.map Prod.fst = rowsReached stops throws rows := by
  induction h with
  | nil w => rfl
  | done hb hs ih =>
    have hthrows := ht _ List.mem_cons_self
    have hrest := ih fun x hx => ht x (List.mem_cons_of_mem _ hx)
    simp only at hthrows
    simp [rowsReached, ← hthrows, hrest]
  | skip hg hb hs ih =>
    have hrest := ih fun x hx => ht x (List.mem_cons_of_mem _ hx)
    simp [rowsReached, hg, hrest]
  | stop hg hb =>
    have hthrows := ht _ List.mem_cons_self
    simp only at hthrows
    simp [rowsReached, hg, ← hthrows]

variable {stops : Bool} {throws : κ → Bool}

theorem rowsReached_subset {rows : List κ} {d : κ} (h : d ∈ rowsReached stops throws rows) :
    d ∈ rows := by
  induction rows with
  | nil => exact h
  | cons b rows ih =>
    unfold rowsReached at h
    split at h
    · exact List.mem_cons.mpr (.inl (List.mem_singleton.mp h))
    · rcases List.mem_cons.mp h with rfl | h
      · exact List.mem_cons_self
      · exact List.mem_cons_of_mem b (ih h)

/-- With nothing that stops it the pass comes past all of the rows. -/
theorem rowsReached_append {a b : List κ} (h : stops = true → ∀ t ∈ a, throws t = false) :
    rowsReached stops throws (a ++ b) = a ++ rowsReached stops throws b := by
  induction a with
  | nil => rfl
  | cons d a ih =>
    have hd : (stops && throws d) = false := by
      cases hstops : stops with
      | false => rfl
      | true => exact h hstops d List.mem_cons_self
    have hrest := ih fun hs t ht => h hs t (List.mem_cons_of_mem d ht)
    simp [rowsReached, hd, hrest]

theorem rowsReached_all {rows : List κ} (h : stops = true → ∀ t ∈ rows, throws t = false) :
    rowsReached stops throws rows = rows := by
  have happend := rowsReached_append (b := []) h
  simpa [rowsReached] using happend

/-- Behind a row that stops it the pass comes to nothing. -/
theorem rowsReached_stopped {before after : List κ} {t : κ} (hs : stops = true) (ht : t ∈ before)
    (hthrows : throws t = true) :
    rowsReached stops throws (before ++ after) = rowsReached stops throws before := by
  induction before with
  | nil => cases ht
  | cons b before ih =>
    simp only [List.cons_append, rowsReached]
    split
    next => rfl
    next hgo =>
      have hne : t ≠ b := by
        rintro rfl
        exact hgo (by simp [hs, hthrows])
      rw [ih ((List.mem_cons.mp ht).resolve_left hne)]

end Rows

/-- A sweep as its rows see it: how many of the due rows one round selects, whether an error
ends the round, which rows throw each time, and which are due no more once they were processed. -/
structure Sweeping (κ : Type) where
  limit : Option Nat
  stops : Bool
  throws : κ → Bool
  leaves : κ → Bool

namespace Sweeping

variable {κ : Type} (s : Sweeping κ)

def reached (due : List κ) : List κ := rowsReached s.stops s.throws (firstOf s.limit due)

/-- The rows that are due however often they are processed. -/
def stays (d : κ) : Bool := s.throws d || !s.leaves d

/-- What lets a sweep come to a row behind these. -/
def Clear (before : List κ) : Prop :=
  (s.stops = true → ∀ t ∈ before, s.throws t = false) ∧
    ∀ n ∈ s.limit, (before.filter s.stays).length < n

/-- What is still due after a round. -/
def next [DecidableEq κ] (due : List κ) : List κ :=
  due.filter fun d => s.stays d || !decide (d ∈ s.reached due)

variable {s} {before behind : List κ} {d : κ}

/-- A round comes to a row unless the batch is full, or the round over, before it. -/
theorem mem_reached (hd : d ∉ before) : d ∈ s.reached (before ++ d :: behind) ↔
    (s.stops = true → ∀ t ∈ before, s.throws t = false) ∧ ∀ n ∈ s.limit, before.length < n := by
  constructor
  · intro h
    have hlimit : ∀ n ∈ s.limit, before.length < n := by
      intro n hn
      by_contra hle
      have hbatch := rowsReached_subset h
      rw [show s.limit = some n from hn, firstOf_short (Nat.not_lt.mp hle)] at hbatch
      exact hd (List.mem_of_mem_take hbatch)
    refine ⟨fun hstops t ht => ?_, hlimit⟩
    obtain ⟨more, hmore⟩ := firstOf_append (d := d) hlimit
    by_contra hthrows
    unfold reached at h
    rw [hmore, rowsReached_stopped hstops ht (by simpa using hthrows)] at h
    exact hd (rowsReached_subset h)
  · rintro ⟨hgo, hlimit⟩
    obtain ⟨more, hmore⟩ := firstOf_append (d := d) hlimit
    unfold reached
    rw [hmore, rowsReached_append hgo]
    refine List.mem_append_right before ?_
    unfold rowsReached
    split
    · exact List.mem_singleton_self d
    · exact List.mem_cons_self

variable [DecidableEq κ]

/-- A row no round has come to is still due, behind those of the others that are. -/
theorem next_split (hd : d ∉ s.reached (before ++ d :: behind)) :
    ∃ before' behind', s.next (before ++ d :: behind) = before' ++ d :: behind' ∧
      before'.Sublist before ∧ before'.filter s.stays = before.filter s.stays ∧
      ∀ b ∈ before, b ∈ s.reached (before ++ d :: behind) → s.stays b = false →
        before'.length < before.length := by
  let keep (b : κ) : Bool := s.stays b || !decide (b ∈ s.reached (before ++ d :: behind))
  have hkeep : keep d = true := by simp [keep, hd]
  refine ⟨before.filter keep, behind.filter keep, ?_, List.filter_sublist, ?_, ?_⟩
  · show (before ++ d :: behind).filter keep = _
    rw [List.filter_append, List.filter_cons_of_pos hkeep]
  · rw [List.filter_filter]
    apply List.filter_congr
    intro b hb
    cases hstays : s.stays b with
    | true => simp [keep, hstays]
    | false => rfl
  · intro b hb hreached hstays
    apply List.length_filter_lt_length_iff_exists.mpr
    exact ⟨b, hb, by simp [keep, hreached, hstays]⟩

/-- As long as no round came to it. -/
theorem iterate_split (hd : d ∉ before) {n : Nat}
    (h : ∀ i < n, d ∉ s.reached (s.next^[i] (before ++ d :: behind))) :
    ∃ before' behind', s.next^[n] (before ++ d :: behind) = before' ++ d :: behind' ∧
      before'.Sublist before ∧ before'.filter s.stays = before.filter s.stays ∧
      (s.Clear before → before'.length + n ≤ before.length) := by
  induction n with
  | zero => exact ⟨before, behind, rfl, List.Sublist.refl _, rfl, fun _ => Nat.le_refl _⟩
  | succ n ih =>
    obtain ⟨mid, rest, hmid, hsub, hstays, hlength⟩ := ih fun i hi => h i (by omega)
    have hunreached : d ∉ s.reached (mid ++ d :: rest) := hmid ▸ h n (by omega)
    obtain ⟨before', behind', hnext, hsub', hstays', hleft⟩ := next_split hunreached
    refine ⟨before', behind', ?_, hsub'.trans hsub, hstays'.trans hstays, fun hclear => ?_⟩
    · rw [Function.iterate_succ_apply', hmid, hnext]
    -- The batch is full of rows before this one; not all of them stay.
    have hgo : s.stops = true → ∀ t ∈ mid, s.throws t = false :=
      fun hs t ht => hclear.1 hs t (hsub.subset ht)
    have hdmid : d ∉ mid := fun hin => hd (hsub.subset hin)
    have hfull : ∃ m ∈ s.limit, m ≤ mid.length := by
      by_contra hroom
      have hlimit : ∀ m ∈ s.limit, mid.length < m :=
        fun m hm => Nat.lt_of_not_le fun hle => hroom ⟨m, hm, hle⟩
      exact hunreached ((mem_reached hdmid).mpr ⟨hgo, hlimit⟩)
    obtain ⟨m, hm, hle⟩ := hfull
    have hreached : s.reached (mid ++ d :: rest) = mid.take m := by
      unfold reached
      rw [show s.limit = some m from hm, firstOf_short hle]
      exact rowsReached_all fun hs t ht => hgo hs t (List.mem_of_mem_take ht)
    have hleaves : ∃ b ∈ mid.take m, s.stays b = false := by
      by_contra hnone
      have hall : ∀ b ∈ mid.take m, s.stays b = true :=
        fun b hb => by simpa using fun hb' => hnone ⟨b, hb, hb'⟩
      have hfilter : (mid.take m).filter s.stays = mid.take m := List.filter_eq_self.mpr hall
      have hcount := ((List.take_sublist m mid).filter s.stays).length_le
      have hfew := hclear.2 m hm
      rw [hfilter, List.length_take, hstays] at hcount
      omega
    obtain ⟨b, hb, hbstays⟩ := hleaves
    have hshorter := hleft b (List.mem_of_mem_take hb) (hreached ▸ hb) hbstays
    have hlength := hlength hclear
    omega

/-- Repeated often enough a sweep comes to a row exactly if those before it are no obstacle: if
fewer of them than one batch stay due and, where an error ends the round, none of them throws. -/
theorem reached_iff (hd : d ∉ before) {n : Nat} (hn : before.length < n) :
    (∃ i < n, d ∈ s.reached (s.next^[i] (before ++ d :: behind))) ↔ s.Clear before := by
  constructor
  · rintro ⟨i, -, hi⟩
    have hexists : ∃ i, d ∈ s.reached (s.next^[i] (before ++ d :: behind)) := ⟨i, hi⟩
    have hbefore : ∀ j < Nat.find hexists,
        d ∉ s.reached (s.next^[j] (before ++ d :: behind)) := fun j hj => Nat.find_min hexists hj
    obtain ⟨before', behind', hsplit, hsub, hstays, -⟩ := iterate_split hd hbefore
    have hfirst := Nat.find_spec hexists
    rw [hsplit] at hfirst
    have hclear := (mem_reached fun hin => hd (hsub.subset hin)).mp hfirst
    constructor
    · intro hs t ht
      by_contra hthrows
      have hstay : t ∈ before.filter s.stays :=
        List.mem_filter.mpr ⟨ht, by simp [stays, hthrows]⟩
      rw [← hstays] at hstay
      exact hthrows (hclear.1 hs t (List.mem_filter.mp hstay).1)
    · intro m hm
      have hroom := hclear.2 m hm
      have hcount := List.length_filter_le s.stays before'
      rw [hstays] at hcount
      omega
  · intro hclear
    by_contra hnone
    have hnever : ∀ i < n, d ∉ s.reached (s.next^[i] (before ++ d :: behind)) :=
      fun i hi hin => hnone ⟨i, hi, hin⟩
    obtain ⟨before', -, -, -, -, hlength⟩ := iterate_split hd hnever
    have hle := hlength hclear
    omega

end Sweeping

end Interleave
