import CarSalePro.Interleave.Recall
import CarSalePro.Linking.Devices

namespace CarSalePro.Linking

open Store Interleave Prog

/-- A code handed to a device: whether it is the last that was stored under its key, the calls that
have read it, whether one of them has deleted it since, and the devices those calls have linked. -/
structure Handing where
  key : String
  device : String
  expiresAt : Time
  current : Bool
  takers : List Nat
  spent : Bool
  linked : List String
  deriving DecidableEq, Repr

/-- The device still holds the code: it has not run out, and no call has consumed it. -/
def Handing.holds (h : Handing) (key : String) (now : Time) : Bool :=
  h.key = key && now < h.expiresAt && !h.spent

/-- An answer of Redis counts as a reading of the code: it is what is stored, or the device still
holds it. -/
def Handing.counts (h : Handing) (key : String) (now : Time) : Bool :=
  h.key = key && now < h.expiresAt && (h.current || !h.spent)

/-- Redis answers with a device. -/
def World.answers (w : World) (key : String) : Bool := (w.get key).any (· ≠ "")

/-- What a call remembers: the code it has read in its last step, and the state in which it has read
a link. -/
structure CallMemory where
  reading : Option String
  link : Option World

namespace CallMemory

def note (m : CallMemory) (l : Label Site Stmt) (w : World) : CallMemory where
  reading :=
    match l with
    | .ask (.code key) => if w.answers key then some key else none
    | _ => none
  link :=
    match l with
    | .ask (.link _) => some w
    | _ => m.link

/-- A link is written of a device that was read to be no other user's. -/
def may (m : CallMemory) : Stmt → Prop
  | .upsertLink device user _ =>
    ∃ w, m.link = some w ∧ (w.links.get device).all (·.userId = user)
  | _ => True

end CallMemory

/-- The codes that were handed out, and what each call remembers. -/
structure LinkLog where
  handings : List Handing
  calls : Nat → CallMemory

def LinkLog.empty : LinkLog := ⟨[], fun _ => ⟨none, none⟩⟩

/-- Every answer of Redis is counted for the codes it counts for. -/
def recordHandings (t : Nat) (label : Label Site Stmt) (w : World) (log : List Handing) :
    List Handing :=
  match label with
  | .call (.setWithTtl key device ttlSeconds) =>
    ⟨key, device, w.now + ttlSeconds * 1000, true, [], false, []⟩ ::
      log.map fun h => if h.key = key then { h with current := false } else h
  | .ask (.code key) =>
    if w.answers key then
      log.map fun h => if h.counts key w.now then { h with takers := t :: h.takers } else h
    else log
  | .call (.del key) =>
    log.map fun h => if h.key = key ∧ t ∈ h.takers then { h with spent := true } else h
  | .call (.upsertLink device _ _) =>
    log.map fun h => if t ∈ h.takers then { h with linked := device :: h.linked } else h
  | _ => log

def recordLinks : Recorder Site Stmt World LinkLog := fun t label w _ log =>
  { handings := recordHandings t label w log.handings
    calls := Function.update log.calls t ((log.calls t).note label w) }

/-- The code has linked no device but its own, and no two calls have consumed it. -/
def Handing.honest (h : Handing) : Prop :=
  (∀ device ∈ h.linked, device = h.device) ∧ h.takers.length ≤ 1

/-- A linked device and its reports belong to the same user. -/
def Agreed (w : World) : Prop :=
  ∀ device link, w.links.get device = some link →
    ∀ report row, w.reports.get report = some row → row.deviceId = device →
      row.userId = some link.userId

/-- In every interleaving of steps that meet `C`: codes are honest, and once all calls have ended
links and reports agree. -/
def LinkLaw (C : StepGuard LinkLog) : Prop :=
  ∀ (w : World) (calls : List Call) (g : Run LinkLog), w.codes = .empty → Agreed w →
    Pool.Reach machine recordLinks C (launch w .empty calls) g →
    (∀ h ∈ g.hist.handings, h.honest) ∧ (g.AllEnded → Agreed g.state)

/-- No code is drawn that another device holds, and none is read by a call that comes between
another's reading of it and that call's next step. -/
def drawnOnce (x : World × LinkLog) : Label Site Stmt → Bool
  | .call (.setWithTtl key device _) =>
    x.2.handings.all fun h => !h.holds key x.1.now || h.device = device
  | .ask (.code key) => !x.1.answers key || x.2.handings.all fun h =>
      !h.counts key x.1.now || h.takers.all fun u => (x.2.calls u).reading ≠ some key
  | _ => true

/-- Codes are drawn and read apart, and no device becomes another user's between the read of its
link and the write. -/
def drawnApart : StepGuard LinkLog := fun t label _ x =>
  drawnOnce x label &&
    match label with
    | .call (.upsertLink device user _) => (x.1.links.get device).all (·.userId = user) ||
        (x.2.calls t).link.all fun w => (w.links.get device).any (·.userId ≠ user)
    | _ => true

/-- Codes are drawn and read apart, and a link that is written finds the device free or the
user's. -/
def linkedFree : StepGuard LinkLog := fun _ label _ x =>
  drawnOnce x label &&
    match label with
    | .call (.upsertLink device user _) => (x.1.links.get device).all (·.userId = user)
    | _ => true

section Discipline

/-- Where a call is: it has just read a code of the device, it has deleted that code, it has linked
the device and not yet given the user its reports, or it takes no code and no link any more. -/
inductive Stage where
  | idle
  | reading (key device : String)
  | holding (device : String)
  | linking (device : String) (user : UserRef)
  | done

inductive Moves : Stage → Label Site Stmt → Nat → World → Stage → Prop
  | draw {key device : String} {ttlSeconds c : Nat} {w : World} :
      Moves .idle (.call (.setWithTtl key device ttlSeconds)) c w .done
  | take {key device : String} {c : Nat} {w : World} (h : w.get key = some device)
      (hne : device ≠ "") : Moves .idle (.ask (.code key)) c w (.reading key device)
  | miss {key : String} {c : Nat} {w : World} (h : w.answers key = false) :
      Moves .idle (.ask (.code key)) c w .done
  | look {ph : Stage} {site : Site} {c : Nat} {w : World} (h : ∀ key, site ≠ .code key)
      (hph : ∀ key device, ph ≠ .reading key device) : Moves ph (.ask site) c w ph
  | delete {device key : String} {c : Nat} {w : World} :
      Moves (.reading key device) (.call (.del key)) c w (.holding device)
  | link {ph : Stage} {device : String} {user : UserRef} {linkedVia : LinkedVia} {c : Nat}
      {w : World} (h : ph = .idle ∨ ph = .holding device) :
      Moves ph (.call (.upsertLink device user linkedVia)) c w (.linking device user)
  | assign {device : String} {user : UserRef} {c : Nat} {w : World} :
      Moves (.linking device user) (.call (.assignReports device user)) c w .done

/-- A call deletes the code it has read, links its device, and goes on to the reports. -/
def linking : Discipline Site Stmt World Nat Stage where
  view _ _ := True
  moves := Moves

/-- Not between a link and its reports. -/
def Stage.rest (ph : Stage) : Prop := ∀ device user, ph ≠ .linking device user

/-- A call in this stage may have read a code of the device. -/
def Stage.took : Stage → String → Prop
  | .idle, _ => False
  | .reading _ device, device' | .holding device, device' | .linking device _, device' =>
    device = device'
  | .done, _ => True

/-- Of the codes: a code that is held is held by one device, which is the one Redis answers; a call
that has read a code is about its device; and a code that is not spent is about to be deleted by
whoever has read it. -/
structure Handed (Φ : Nat → Stage) (x : World × List Handing) : Prop where
  alike : ∀ h ∈ x.2, ∀ h' ∈ x.2, ∀ key, h.holds key x.1.now → h'.holds key x.1.now →
    h.device = h'.device
  single : ∀ h ∈ x.2, ∀ h' ∈ x.2, h.current → h'.current → h.key = h'.key → h = h'
  live : ∀ key entry, x.1.codes.get key = some entry → ∃ h ∈ x.2, h.key = key ∧
    h.current ∧ h.spent = false ∧ h.device = entry.value ∧ h.expiresAt = entry.expiresAt
  honest : ∀ h ∈ x.2, h.honest
  takers : ∀ h ∈ x.2, ∀ t ∈ h.takers, (Φ t).took h.device
  unread : ∀ h ∈ x.2, h.spent = false → ∀ t ∈ h.takers, ∃ device, Φ t = .reading h.key device

/-- Of the links: a link and the reports agree, unless a call of the user of the link is between
the two. -/
structure Bound (Φ : Nat → Stage) (w : World) : Prop where
  links : ∀ t device user, Φ t = .linking device user →
    ∃ link, w.links.get device = some link ∧ link.userId = user
  reports : ∀ device link, w.links.get device = some link →
    (∀ report row, w.reports.get report = some row → row.deviceId = device →
      row.userId = some link.userId) ∨ ∃ t, Φ t = .linking device link.userId

variable {Φ : Nat → Stage} {x : World × List Handing} {w w' : World} {t : Nat} {ph : Stage}
  {key device : String}

theorem holds_iff {h : Handing} {now : Time} :
    h.holds key now ↔ h.key = key ∧ now < h.expiresAt ∧ h.spent = false := by
  simp [Handing.holds, and_assoc]

theorem counts_iff {h : Handing} {now : Time} : h.counts key now ↔
    h.key = key ∧ now < h.expiresAt ∧ (h.current ∨ h.spent = false) := by
  simp [Handing.counts, and_assoc]

/-- The code that Redis answers is one that is held. -/
theorem Handed.stored (h : Handed Φ x) (hget : x.1.get key = some device) :
    ∃ held ∈ x.2, held.current ∧ held.holds key x.1.now ∧ held.device = device := by
  obtain ⟨entry, hentry, rfl⟩ := Option.map_eq_some_iff.mp hget
  obtain ⟨hentry, hlive⟩ := Option.filter_eq_some_iff.mp hentry
  obtain ⟨held, hheld, hkey, hcurrent, hspent, hvalue, hexpires⟩ := h.live key entry hentry
  refine ⟨held, hheld, hcurrent, holds_iff.mpr ⟨hkey, ?_, hspent⟩, hvalue⟩
  rw [hexpires]
  exact of_decide_eq_true hlive

/-- An answer of Redis counts only for codes that are held, by the device it names. -/
theorem Handed.answer (h : Handed Φ x) (hget : x.1.get key = some device) :
    ∀ held ∈ x.2, held.counts key x.1.now → held.holds key x.1.now ∧ held.device = device := by
  intro held hheld hcounts
  obtain ⟨hkey, hexpires, hvalid⟩ := counts_iff.mp hcounts
  obtain ⟨stored, hstored, hcurrent, hholds, rfl⟩ := h.stored hget
  have hown : held.holds key x.1.now := by
    rcases hvalid with hlast | hspent
    · rw [h.single held hheld stored hstored hlast hcurrent
        (hkey.trans (holds_iff.mp hholds).1.symm)]
      exact hholds
    · exact holds_iff.mpr ⟨hkey, hexpires, hspent⟩
  exact ⟨hown, h.alike held hheld stored hstored key hown hholds⟩

/-- Time that passes takes codes from their devices, and gives none. -/
theorem Handed.elapse (h : Handed Φ x) (elapsed : Nat) :
    Handed Φ ({ x.1 with now := x.1.now + elapsed }, x.2) := by
  have hearlier (held : Handing) (key : String) (hh : held.holds key (x.1.now + elapsed)) :
      held.holds key x.1.now := by
    obtain ⟨hkey, hnow, hspent⟩ := holds_iff.mp hh
    exact holds_iff.mpr ⟨hkey, lt_of_le_of_lt (Nat.le_add_right _ _) hnow, hspent⟩
  refine ⟨fun a ha b hb key hak hbk => ?_, h.single, h.live, h.honest, h.takers, h.unread⟩
  exact h.alike a ha b hb key (hearlier a key hak) (hearlier b key hbk)

theorem took_update {ph : Stage} {held : Handing} (h : Handed Φ x) (hheld : held ∈ x.2)
    (ht : t ∈ held.takers → ph.took held.device) :
    ∀ u ∈ held.takers, (Function.update Φ t ph u).took held.device := by
  intro u hu
  by_cases hut : u = t
  · subst hut
    rw [Function.update_self]
    exact ht hu
  · rw [Function.update_of_ne hut]
    exact h.takers held hheld u hu

/-- Whoever has read an unspent code stays about to delete it, when a call goes on that is not. -/
theorem unread_update {ph : Stage} (h : Handed Φ x) (hΦ : ∀ key device, Φ t ≠ .reading key device) :
    ∀ held ∈ x.2, held.spent = false → ∀ u ∈ held.takers,
      ∃ device, Function.update Φ t ph u = .reading held.key device := by
  intro held hheld hspent u hu
  obtain ⟨device, hreading⟩ := h.unread held hheld hspent u hu
  have hut : u ≠ t := by
    rintro rfl
    exact hΦ _ _ hreading
  exact ⟨device, by rw [Function.update_of_ne hut, hreading]⟩

/-- The code of a handing is the same; it is spent if it was, and was the last if it is. -/
structure Handing.Continues (old new : Handing) : Prop where
  key : new.key = old.key
  device : new.device = old.device
  expiresAt : new.expiresAt = old.expiresAt
  spent : new.spent = false → old.spent = false
  current : new.current → old.current

/-- A step that writes on handings, and hands out no code. -/
theorem Handed.rewrite {f : Handing → Handing} {Ψ : Nat → Stage} (h : Handed Φ x)
    (hf : ∀ held ∈ x.2, held.Continues (f held)) (hnow : w'.now = x.1.now)
    (hlive : ∀ key entry, w'.codes.get key = some entry → x.1.codes.get key = some entry ∧
      ∀ held ∈ x.2, held.key = key → (held.spent = false → (f held).spent = false) ∧
        (held.current → (f held).current))
    (hhonest : ∀ held ∈ x.2, (f held).honest)
    (htakers : ∀ held ∈ x.2, ∀ t ∈ (f held).takers, (Ψ t).took held.device)
    (hunread : ∀ held ∈ x.2, (f held).spent = false → ∀ t ∈ (f held).takers,
      ∃ device, Ψ t = .reading held.key device) :
    Handed Ψ (w', x.2.map f) := by
  have hholds {held : Handing} {key : String} (hheld : held ∈ x.2)
      (hh : (f held).holds key w'.now) : held.holds key x.1.now := by
    obtain ⟨hkey, hexpires, hspent⟩ := holds_iff.mp hh
    have hc := hf held hheld
    exact holds_iff.mpr ⟨hc.key ▸ hkey, by rw [← hnow, ← hc.expiresAt]; exact hexpires,
      hc.spent hspent⟩
  constructor
  · intro a ha b hb key hak hbk
    obtain ⟨a', ha', rfl⟩ := List.mem_map.mp ha
    obtain ⟨b', hb', rfl⟩ := List.mem_map.mp hb
    rw [(hf a' ha').device, (hf b' hb').device]
    exact h.alike a' ha' b' hb' key (hholds ha' hak) (hholds hb' hbk)
  · intro a ha b hb hac hbc hkey
    obtain ⟨a', ha', rfl⟩ := List.mem_map.mp ha
    obtain ⟨b', hb', rfl⟩ := List.mem_map.mp hb
    rw [(hf a' ha').key, (hf b' hb').key] at hkey
    rw [h.single a' ha' b' hb' ((hf a' ha').current hac) ((hf b' hb').current hbc) hkey]
  · intro key entry hentry
    obtain ⟨hold, hspared⟩ := hlive key entry hentry
    obtain ⟨held, hheld, hkey, hcurrent, hspent, hdevice, hexpires⟩ := h.live key entry hold
    have hc := hf held hheld
    obtain ⟨hs, hl⟩ := hspared held hheld hkey
    exact ⟨f held, List.mem_map_of_mem hheld, hc.key.trans hkey, hl hcurrent, hs hspent,
      hc.device.trans hdevice, hc.expiresAt.trans hexpires⟩
  · intro held hheld
    obtain ⟨old, hold, rfl⟩ := List.mem_map.mp hheld
    exact hhonest old hold
  · intro held hheld
    obtain ⟨old, hold, rfl⟩ := List.mem_map.mp hheld
    rw [(hf old hold).device]
    exact htakers old hold
  · intro held hheld
    obtain ⟨old, hold, rfl⟩ := List.mem_map.mp hheld
    rw [(hf old hold).key]
    exact hunread old hold

/-- A code that is stored under a key of which none is the last. -/
theorem Handed.add {expiresAt : Time} (h : Handed Φ x) (hnow : w'.now = x.1.now)
    (hlast : ∀ held ∈ x.2, held.current → held.key ≠ key)
    (hC : ∀ held ∈ x.2, held.holds key x.1.now → held.device = device)
    (hcodes : ∀ key' entry, w'.codes.get key' = some entry →
      key' = key ∧ entry = ⟨device, expiresAt⟩ ∨ x.1.codes.get key' = some entry) :
    Handed Φ (w', ⟨key, device, expiresAt, true, [], false, []⟩ :: x.2) := by
  have hkey {held : Handing} {key' : String} {now : Time} (hh : held.holds key' now) :
      held.key = key' := (holds_iff.mp hh).1
  constructor
  · intro a ha b hb key' hak hbk
    rw [hnow] at hak hbk
    rcases List.mem_cons.mp ha with rfl | ha <;> rcases List.mem_cons.mp hb with rfl | hb
    · rfl
    · have hkk : key = key' := hkey hak
      exact (hC b hb (hkk ▸ hbk)).symm
    · have hkk : key = key' := hkey hbk
      exact hC a ha (hkk ▸ hak)
    · exact h.alike a ha b hb key' hak hbk
  · intro a ha b hb hac hbc hsame
    rcases List.mem_cons.mp ha with rfl | ha <;> rcases List.mem_cons.mp hb with rfl | hb
    · rfl
    · exact absurd hsame.symm (hlast b hb hbc)
    · exact absurd hsame (hlast a ha hac)
    · exact h.single a ha b hb hac hbc hsame
  · intro key' entry hentry
    rcases hcodes key' entry hentry with ⟨rfl, rfl⟩ | hold
    · exact ⟨_, List.mem_cons_self, rfl, rfl, rfl, rfl, rfl⟩
    · obtain ⟨held, hheld, hrest⟩ := h.live key' entry hold
      exact ⟨held, List.mem_cons_of_mem _ hheld, hrest⟩
  · intro held hheld
    rcases List.mem_cons.mp hheld with rfl | hheld
    · exact ⟨by simp, Nat.zero_le _⟩
    · exact h.honest held hheld
  · intro held hheld
    rcases List.mem_cons.mp hheld with rfl | hheld
    · simp
    · exact h.takers held hheld
  · intro held hheld
    rcases List.mem_cons.mp hheld with rfl | hheld
    · simp
    · exact h.unread held hheld

/-- A call that is idle has read no code. -/
theorem Handed.untaken (h : Handed Φ x) (hΦ : Φ t = .idle) : ∀ held ∈ x.2, t ∉ held.takers := by
  intro held hheld hu
  have htook := h.takers held hheld t hu
  rw [hΦ] at htook
  exact htook

/-- A drawn code. -/
theorem Handed.draw {ttlSeconds : Nat} (h : Handed Φ x) (hΦ : Φ t = .idle)
    (hC : ∀ held ∈ x.2, held.holds key x.1.now → held.device = device) :
    Handed (Function.update Φ t ph) (x.1.setWithTtl key device ttlSeconds,
      ⟨key, device, x.1.now + ttlSeconds * 1000, true, [], false, []⟩ :: x.2.map fun held =>
        if held.key = key then { held with current := false } else held) := by
  let f (held : Handing) : Handing :=
    if held.key = key then { held with current := false } else held
  have hf (held : Handing) : held.Continues (f held) ∧ (f held).takers = held.takers ∧
      (f held).linked = held.linked ∧ (f held).spent = held.spent := by
    simp only [f]
    split
    · exact ⟨⟨rfl, rfl, rfl, id, by simp⟩, rfl, rfl, rfl⟩
    · exact ⟨⟨rfl, rfl, rfl, id, id⟩, rfl, rfl, rfl⟩
  have hold : Handed (Function.update Φ t ph) (x.1.del key, x.2.map f) := by
    refine h.rewrite (fun held _ => (hf held).1) rfl (fun key' entry hentry => ?_)
      (fun held hheld => ?_) (fun held hheld => ?_) fun held hheld hspent => ?_
    · obtain ⟨hentry, hne⟩ := Option.filter_eq_some_iff.mp (Table.get_deleteMany _ _ _ ▸ hentry)
      refine ⟨hentry, fun held _ hkey => ⟨fun hs => (hf held).2.2.2.trans hs, fun hcurrent => ?_⟩⟩
      have hne : held.key ≠ key := by simpa [hkey] using hne
      simpa [f, hne] using hcurrent
    · have hhonest := h.honest held hheld
      rwa [Handing.honest, (hf held).2.1, (hf held).2.2.1, (hf held).1.device]
    · rw [(hf held).2.1]
      exact took_update h hheld fun hu => (h.untaken hΦ held hheld hu).elim
    · rw [(hf held).2.1]
      exact unread_update h (by simp [hΦ]) held hheld ((hf held).2.2.2.symm.trans hspent)
  refine hold.add rfl (fun held hheld hcurrent => ?_) (fun held hheld hholds => ?_)
    fun key' entry hentry => ?_
  · obtain ⟨old, -, rfl⟩ := List.mem_map.mp hheld
    rintro hkey
    have hsame : old.key = key := (hf old).1.key.symm.trans hkey
    simp [f, hsame] at hcurrent
  · obtain ⟨old, hmem, rfl⟩ := List.mem_map.mp hheld
    obtain ⟨hkey, hexpires, hspent⟩ := holds_iff.mp hholds
    rw [(hf old).1.device]
    exact hC old hmem (holds_iff.mpr ⟨(hf old).1.key ▸ hkey, (hf old).1.expiresAt ▸ hexpires,
      (hf old).1.spent hspent⟩)
  · simp only [World.setWithTtl, Table.get_set] at hentry
    split at hentry
    next hsame =>
      cases hentry
      exact Or.inl ⟨hsame, rfl⟩
    next hne =>
      refine Or.inr ?_
      show (x.1.codes.deleteMany _).get key' = some entry
      rw [Table.get_deleteMany, hentry]
      simp [hne]

/-- A code that is read. -/
theorem Handed.take (h : Handed Φ x) (hΦ : Φ t = .idle) (hget : x.1.get key = some device)
    (hC : ∀ held ∈ x.2, held.holds key x.1.now → held.takers = []) :
    Handed (Function.update Φ t (.reading key device)) (x.1, x.2.map fun held =>
      if held.counts key x.1.now then { held with takers := t :: held.takers } else held) := by
  refine h.rewrite (fun held _ => ?_) rfl
    (fun key' entry hentry => ⟨hentry, fun held _ _ => ?_⟩) (fun held hheld => ?_)
    (fun held hheld => ?_) fun held hheld => ?_
  · split
    · exact ⟨rfl, rfl, rfl, id, id⟩
    · exact ⟨rfl, rfl, rfl, id, id⟩
  · split
    · exact ⟨id, id⟩
    · exact ⟨id, id⟩
  · split
    next hcounts =>
      refine ⟨(h.honest held hheld).1, ?_⟩
      show (t :: held.takers).length ≤ 1
      rw [hC held hheld (h.answer hget held hheld hcounts).1]
      exact Nat.le_refl 1
    next => exact h.honest held hheld
  · split
    next hcounts =>
      intro u hu
      obtain ⟨hholds, hdevice⟩ := h.answer hget held hheld hcounts
      rw [hdevice]
      rcases List.mem_cons.mp hu with rfl | hu
      · rw [Function.update_self]
        exact rfl
      · rw [hC held hheld hholds] at hu
        cases hu
    next => exact took_update h hheld fun hu => (h.untaken hΦ held hheld hu).elim
  · split
    next hcounts =>
      intro _ u hu
      obtain ⟨hholds, -⟩ := h.answer hget held hheld hcounts
      rcases List.mem_cons.mp hu with rfl | hu
      · exact ⟨device, by rw [Function.update_self, (holds_iff.mp hholds).1]⟩
      · rw [hC held hheld hholds] at hu
        cases hu
    next => exact unread_update h (by simp [hΦ]) held hheld

/-- A code that is deleted by the call that has read it. -/
theorem Handed.delete (h : Handed Φ x) (hΦ : Φ t = .reading key device) :
    Handed (Function.update Φ t (.holding device)) (x.1.del key, x.2.map fun held =>
      if held.key = key ∧ t ∈ held.takers then { held with spent := true } else held) := by
  refine h.rewrite (fun held _ => ?_) rfl (fun key' entry hentry => ?_) (fun held hheld => ?_)
    (fun held hheld => ?_) fun held hheld => ?_
  · split
    · exact ⟨rfl, rfl, rfl, by simp, id⟩
    · exact ⟨rfl, rfl, rfl, id, id⟩
  · obtain ⟨hentry, hne⟩ := Option.filter_eq_some_iff.mp (Table.get_deleteMany _ _ _ ▸ hentry)
    have hne : key' ≠ key := by simpa using hne
    refine ⟨hentry, fun held _ hkey => ?_⟩
    rw [if_neg fun hboth => hne (hkey.symm.trans hboth.1)]
    exact ⟨id, id⟩
  · split
    · exact h.honest held hheld
    · exact h.honest held hheld
  · have hupdate : ∀ u ∈ held.takers,
      (Function.update Φ t (.holding device) u).took held.device := by
      refine took_update h hheld fun hu => ?_
      have htook := h.takers held hheld t hu
      rwa [hΦ] at htook
    split
    · exact hupdate
    · exact hupdate
  · split
    next => simp
    next hother =>
      intro hspent u hu
      obtain ⟨d, hreading⟩ := h.unread held hheld hspent u hu
      have hut : u ≠ t := by
        rintro rfl
        rw [hΦ] at hreading
        cases hreading
        exact hother ⟨rfl, hu⟩
      exact ⟨d, by rw [Function.update_of_ne hut, hreading]⟩

/-- A link is of the device of the code that was read. -/
theorem Handed.link {user : UserRef} (h : Handed Φ x)
    (hΦ : Φ t = .idle ∨ Φ t = .holding device) (hcodes : w'.codes = x.1.codes)
    (hnow : w'.now = x.1.now) :
    Handed (Function.update Φ t (.linking device user)) (w', x.2.map fun held =>
      if t ∈ held.takers then { held with linked := device :: held.linked } else held) := by
  have hown (held : Handing) (hheld : held ∈ x.2) (hu : t ∈ held.takers) :
      device = held.device := by
    have htook := h.takers held hheld t hu
    rcases hΦ with hidle | hholding
    · rw [hidle] at htook
      exact htook.elim
    · rw [hholding] at htook
      exact htook
  refine h.rewrite (fun held _ => ?_) hnow (fun key' entry hentry => ?_) (fun held hheld => ?_)
    (fun held hheld => ?_) fun held hheld => ?_
  · split
    · exact ⟨rfl, rfl, rfl, id, id⟩
    · exact ⟨rfl, rfl, rfl, id, id⟩
  · refine ⟨hcodes ▸ hentry, fun held _ _ => ?_⟩
    split
    · exact ⟨id, id⟩
    · exact ⟨id, id⟩
  · split
    next hu =>
      refine ⟨fun d hd => ?_, (h.honest held hheld).2⟩
      rcases List.mem_cons.mp hd with rfl | hd
      · exact hown held hheld hu
      · exact (h.honest held hheld).1 d hd
    next => exact h.honest held hheld
  · have hupdate : ∀ u ∈ held.takers,
        (Function.update Φ t (.linking device user) u).took held.device :=
      took_update h hheld (hown held hheld)
    split
    · exact hupdate
    · exact hupdate
  · have hreading : ∀ key device, Φ t ≠ .reading key device := by
      rcases hΦ with hΦ | hΦ <;> simp [hΦ]
    have hupdate : held.spent = false → ∀ u ∈ held.takers, ∃ device',
        Function.update Φ t (.linking device user) u = .reading held.key device' :=
      unread_update h hreading held hheld
    split
    · exact hupdate
    · exact hupdate

/-- A call that is done. -/
theorem Handed.finish (h : Handed Φ x) (hΦ : ∀ key device, Φ t ≠ .reading key device)
    (hcodes : w'.codes = x.1.codes) (hnow : w'.now = x.1.now) :
    Handed (Function.update Φ t .done) (w', x.2) := by
  refine ⟨fun a ha b hb key hak hbk => ?_, h.single, fun key entry hentry => ?_, h.honest,
    fun held hheld => took_update h hheld fun _ => trivial,
    fun held hheld => unread_update h hΦ held hheld⟩
  · rw [hnow] at hak hbk
    exact h.alike a ha b hb key hak hbk
  · exact h.live key entry (hcodes ▸ hentry)

theorem linking_update {user : UserRef} {u : Nat} (hph : ph.rest)
    (h : Function.update Φ t ph u = .linking device user) : Φ u = .linking device user := by
  by_cases hut : u = t
  · subst hut
    rw [Function.update_self] at h
    exact (hph _ _ h).elim
  · rwa [Function.update_of_ne hut] at h

theorem Bound.spare (h : Bound Φ w) (hΦ : (Φ t).rest) (hph : ph.rest) (hlinks : w'.links = w.links)
    (hreports : w'.reports = w.reports) : Bound (Function.update Φ t ph) w' := by
  refine ⟨fun u device user hu => ?_, fun device link hlink => ?_⟩
  · rw [hlinks]
    exact h.links u device user (linking_update hph hu)
  · rw [hlinks] at hlink
    rw [hreports]
    refine (h.reports device link hlink).imp_right fun ⟨u, hu⟩ => ⟨u, ?_⟩
    have hut : u ≠ t := by
      rintro rfl
      exact hΦ _ _ hu
    rw [Function.update_of_ne hut]
    exact hu

/-- A link that finds the device free, or the user's, leaves it the user's. -/
theorem upsertLink_own {user : UserRef} (linkedVia : LinkedVia)
    (hC : (w.links.get device).all (·.userId = user)) :
    (∃ link, (w.upsertLink device user linkedVia).2.links.get device = some link ∧
      link.userId = user) ∧
    (∀ d, d ≠ device → (w.upsertLink device user linkedVia).2.links.get d = w.links.get d) ∧
    (w.upsertLink device user linkedVia).2.reports = w.reports := by
  unfold World.upsertLink
  cases hlink : w.links.get device with
  | none => exact ⟨⟨⟨user, linkedVia⟩, by simp, rfl⟩, fun d hd => by simp [hd], rfl⟩
  | some link => exact ⟨⟨link, hlink, by simpa [hlink] using hC⟩, fun _ _ => rfl, rfl⟩

theorem Bound.link {user : UserRef} {linkedVia : LinkedVia} (h : Bound Φ w) (hΦ : (Φ t).rest)
    (hC : (w.links.get device).all (·.userId = user)) :
    Bound (Function.update Φ t (.linking device user)) (w.upsertLink device user linkedVia).2 := by
  obtain ⟨⟨own, hown, huser⟩, hothers, hreports⟩ := upsertLink_own linkedVia hC
  have hself : Function.update Φ t (.linking device user) t = .linking device user :=
    Function.update_self ..
  have hother {u : Nat} {d : String} {v : UserRef} (hu : Φ u = .linking d v) :
      Function.update Φ t (.linking device user) u = .linking d v := by
    have hut : u ≠ t := by
      rintro rfl
      exact hΦ _ _ hu
    rw [Function.update_of_ne hut]
    exact hu
  refine ⟨fun u d v hu => ?_, fun d link hlink => ?_⟩
  · by_cases hut : u = t
    · subst hut
      rw [hself] at hu
      cases hu
      exact ⟨own, hown, huser⟩
    · rw [Function.update_of_ne hut] at hu
      obtain ⟨link, hlink, hv⟩ := h.links u d v hu
      by_cases hd : d = device
      · subst hd
        rw [hlink] at hC
        have hvu : link.userId = user := by simpa using hC
        exact ⟨own, hown, huser.trans (hvu.symm.trans hv)⟩
      · exact ⟨link, (hothers d hd).trans hlink, hv⟩
  · by_cases hd : d = device
    · subst hd
      rw [hown] at hlink
      cases hlink
      exact Or.inr ⟨t, huser ▸ hself⟩
    · rw [hothers d hd] at hlink
      rw [hreports]
      exact (h.reports d link hlink).imp_right fun ⟨u, hu⟩ => ⟨u, hother hu⟩

/-- The reports of a device that is linked to the user. -/
theorem Bound.assign {user : UserRef} (h : Bound Φ w) (hΦ : Φ t = .linking device user) :
    Bound (Function.update Φ t .done) (w.assignReports device user) := by
  have hdone : Stage.rest .done := fun _ _ => nofun
  have hreport {report : ReportRef} {row : Report}
      (hrow : (w.assignReports device user).reports.get report = some row) :
      ∃ old, w.reports.get report = some old ∧ row.deviceId = old.deviceId ∧
        row.userId = if old.deviceId = device then some user else old.userId := by
    obtain ⟨old, hold, rfl⟩ := Option.map_eq_some_iff.mp
      ((Table.get_rewrite _ _ _).symm.trans hrow)
    refine ⟨old, hold, ?_⟩
    by_cases hd : old.deviceId = device
    · simp [hd]
    · simp [hd]
  refine ⟨fun u d v hu => h.links u d v (linking_update hdone hu),
    fun d link (hlink : w.links.get d = some link) => ?_⟩
  by_cases hd : d = device
  · subst hd
    obtain ⟨own, hown, huser⟩ := h.links t d user hΦ
    rw [hlink] at hown
    cases hown
    refine Or.inl fun report row hrow hdevice => ?_
    obtain ⟨old, -, hsame, hassigned⟩ := hreport hrow
    rw [hassigned, if_pos (hsame.symm.trans hdevice), huser]
  · rcases h.reports d link hlink with hagreed | ⟨u, hu⟩
    · refine Or.inl fun report row hrow hdevice => ?_
      obtain ⟨old, hold, hsame, hassigned⟩ := hreport hrow
      have hold' : old.deviceId = d := hsame.symm.trans hdevice
      rw [hassigned, if_neg fun he => hd (hold'.symm.trans he)]
      exact hagreed report old hold hold'
    · have hut : u ≠ t := by
        rintro rfl
        rw [hΦ] at hu
        cases hu
        exact hd rfl
      exact Or.inr ⟨u, by rw [Function.update_of_ne hut]; exact hu⟩

/-- What holds of codes and links in every run under the condition; a call that is about to delete a
code remembers it. -/
structure Sound (Φ : Nat → Stage) (x : World × LinkLog) : Prop where
  codes : Handed Φ (x.1, x.2.handings)
  links : Bound Φ x.1
  reading : ∀ t key device, Φ t = .reading key device → (x.2.calls t).reading = some key

/-- One call goes on, and the others remember what they did. -/
theorem reading_update {x : World × LinkLog} {label : Label Site Stmt} (h : Sound Φ x)
    (hph : ∀ key device, ph = .reading key device →
      ((x.2.calls t).note label x.1).reading = some key) :
    ∀ u key device, Function.update Φ t ph u = .reading key device →
      (Function.update x.2.calls t ((x.2.calls t).note label x.1) u).reading = some key := by
  intro u key device hu
  by_cases hut : u = t
  · subst hut
    rw [Function.update_self] at hu ⊢
    exact hph key device hu
  · rw [Function.update_of_ne hut] at hu ⊢
    exact h.reading u key device hu

/-- Under the condition, a code that is held and read has not been read before. -/
theorem Sound.untaken {x : World × LinkLog} (h : Sound Φ x)
    (hC : drawnOnce x (.ask (.code key))) (hanswers : x.1.answers key) :
    ∀ held ∈ x.2.handings, held.holds key x.1.now → held.takers = [] := by
  intro held hheld hholds
  obtain ⟨hkey, hexpires, hspent⟩ := holds_iff.mp hholds
  have hcounts : held.counts key x.1.now := counts_iff.mpr ⟨hkey, hexpires, Or.inr hspent⟩
  simp only [drawnOnce, hanswers, Bool.not_true, Bool.false_or, List.all_eq_true] at hC
  have hapart := hC held hheld
  rw [hcounts, Bool.not_true, Bool.false_or, List.all_eq_true] at hapart
  rw [List.eq_nil_iff_forall_not_mem]
  intro u hu
  obtain ⟨device, hreading⟩ := h.codes.unread held hheld hspent u hu
  have hpending := h.reading u _ _ hreading
  rw [hkey] at hpending
  simpa [hpending] using hapart u hu

theorem sound_invariant : linking.Invariant machine recordLinks linkedFree Sound where
  view _ _ _ _ := trivial
  env _ _ c h := ⟨h.codes.elapse c, ⟨h.links.links, h.links.reports⟩, h.reading⟩
  move Φ x t label c ph h hC hm := by
    have hm : Moves (Φ t) label c x.1 ph := hm
    have hcodes := h.codes
    have hlinks := h.links
    have hC := (Bool.and_eq_true ..).mp hC
    generalize hΦ : Φ t = old at hm
    cases hm with
    | @draw key device ttlSeconds c w =>
      have hrest : (Φ t).rest := by rw [hΦ]; exact fun _ _ => nofun
      refine ⟨hcodes.draw hΦ fun held hheld hholds => ?_,
        hlinks.spare hrest (fun _ _ => nofun) rfl rfl, reading_update h (by simp)⟩
      have hapart := List.all_eq_true.mp hC.1 held hheld
      simpa [hholds] using hapart
    | @take key device c w hget hne =>
      have hrest : (Φ t).rest := by rw [hΦ]; exact fun _ _ => nofun
      have hanswers : x.1.answers key = true := by simp [World.answers, hget, hne]
      refine ⟨?_, hlinks.spare hrest (fun _ _ => nofun) rfl rfl, reading_update h ?_⟩
      · show Handed _ (x.1, recordHandings t (.ask (.code key)) x.1 x.2.handings)
        rw [recordHandings, if_pos hanswers]
        exact hcodes.take hΦ hget (h.untaken hC.1 hanswers)
      · intro key' device' hph
        cases hph
        simp [CallMemory.note, hanswers]
    | @miss key c w hmiss =>
      have hrest : (Φ t).rest := by rw [hΦ]; exact fun _ _ => nofun
      refine ⟨?_, hlinks.spare hrest (fun _ _ => nofun) rfl rfl, reading_update h (by simp)⟩
      show Handed _ (x.1, recordHandings t (.ask (.code key)) x.1 x.2.handings)
      rw [recordHandings, if_neg (by simp [hmiss])]
      exact hcodes.finish (by simp [hΦ]) rfl rfl
    | @look ph site c w hsite hph =>
      have hrecord : recordHandings t (.ask site) x.1 x.2.handings = x.2.handings := by
        cases site with
        | code key => exact absurd rfl (hsite key)
        | _ => rfl
      refine ⟨?_, ?_, reading_update h fun key device hreading => absurd hreading (hph _ _)⟩
      · show Handed _ (x.1, recordHandings t (.ask site) x.1 x.2.handings)
        rw [hrecord, ← hΦ, Function.update_eq_self]
        exact hcodes
      · rw [← hΦ, Function.update_eq_self]
        exact hlinks
    | @delete device key c w =>
      have hrest : (Φ t).rest := by rw [hΦ]; exact fun _ _ => nofun
      exact ⟨hcodes.delete hΦ, hlinks.spare hrest (fun _ _ => nofun) rfl rfl,
        reading_update h (by simp)⟩
    | @link ph device user linkedVia c w hph =>
      have hrest : (Φ t).rest := by
        rw [hΦ]
        rcases hph with rfl | rfl
        · exact fun _ _ => nofun
        · exact fun _ _ => nofun
      have hcodes' : (x.1.upsertLink device user linkedVia).2.codes = x.1.codes := by
        unfold World.upsertLink
        split <;> rfl
      have hnow : (x.1.upsertLink device user linkedVia).2.now = x.1.now := by
        unfold World.upsertLink
        split <;> rfl
      exact ⟨hcodes.link (hΦ ▸ hph) hcodes' hnow, hlinks.link hrest hC.2,
        reading_update h (by simp)⟩
    | @assign device user c w =>
      exact ⟨hcodes.finish (by simp [hΦ]) rfl rfl, hlinks.assign hΦ, reading_update h (by simp)⟩

end Discipline

section Flows

variable {α β : Type} {A : Stage → Prop} {B : α → Stage → Prop} {E : Err → Stage → Prop}

/-- The program follows the discipline, from the stages of `A` into those of `B` or `E`. -/
abbrev Linked (A : Stage → Prop) (p : Act α) (B : α → Stage → Prop) (E : Err → Stage → Prop) :
    Prop :=
  linking.Flow machine A p B E

theorem Linked.then {p : Act α} {f : α → Act β} {B' : β → Stage → Prop} (h : Linked A p B E)
    (hf : ∀ a, Linked (B a) (f a) B' E) : Linked A (p >>= f) B' E := Discipline.Flow.seq h hf

theorem linked_look {site : Site} {f : World → α} (hs : ∀ key, site ≠ .code key)
    (hA : ∀ ph, A ph → ∀ key device, ph ≠ .reading key device) :
    Linked A (fetch site f) (fun _ => A) E :=
  Discipline.Flow.fetch fun ph _ _ hph _ => ⟨ph, Moves.look hs (hA ph hph), hph⟩

theorem linked_generate {deviceId : String} {drawn : Fin 1000000} :
    Linked (· = .idle) (generate deviceId drawn) (fun _ => Stage.rest) E := by
  have hdraw : Linked (· = .idle) (Prog.perform (Stmt.setWithTtl (codeKey (codeText drawn)) deviceId
      linkCodeTtlSeconds) : Act Unit) (fun _ => (· = .done)) E := by
    refine Discipline.Flow.perform fun ph c w hph _ => ⟨.done, ?_, rfl⟩
    subst hph
    exact Moves.draw
  refine Linked.then hdraw fun _ => Linked.then (linked_look (by simp) (by simp)) fun now => ?_
  refine Discipline.Flow.pure fun ph hph => ?_
  subst hph
  exact fun _ _ => nofun

/-- Where a call is after Redis has answered. -/
def stageOf (key : String) : Option String → Stage
  | none => .done
  | some deviceId => if deviceId = "" then .done else .reading key deviceId

theorem linked_read {key : String} : Linked (· = .idle)
    (fetch (.code key) (·.get key) : Act (Option String)) (fun found ph => ph = stageOf key found)
    E := by
  refine Discipline.Flow.fetch fun ph c w hph _ => ⟨stageOf key (w.get key), ?_, rfl⟩
  subst hph
  show Moves .idle (.ask (.code key)) c w (stageOf key (w.get key))
  cases hget : w.get key with
  | none => exact Moves.miss (by simp [World.answers, hget])
  | some deviceId =>
    by_cases hne : deviceId = ""
    · rw [stageOf, if_pos hne]
      exact Moves.miss (by simp [World.answers, hget, hne])
    · rw [stageOf, if_neg hne]
      exact Moves.take hget hne

theorem linked_consume {code : String} : Linked (· = .idle) (consume code)
    (fun found ph => ph = found.elim .done .holding) E := by
  refine Linked.then linked_read fun found => ?_
  cases found with
  | none => exact Discipline.Flow.pure fun _ h => h
  | some deviceId =>
    by_cases hne : deviceId = ""
    · simp only [stageOf, if_pos hne]
      exact Discipline.Flow.pure fun _ h => h
    · simp only [stageOf, if_neg hne]
      have hdelete : Linked (· = .reading (codeKey code) deviceId)
          (Prog.perform (Stmt.del (codeKey code)) : Act Unit) (fun _ => (· = .holding deviceId))
          E := by
        refine Discipline.Flow.perform fun ph c w hph _ => ⟨.holding deviceId, ?_, rfl⟩
        subst hph
        exact Moves.delete
      exact Linked.then hdelete fun _ => Discipline.Flow.pure fun _ h => h

theorem linked_attach {user : UserRef} {deviceId : String} {linkedVia : LinkedVia} :
    Linked (fun ph => ph = .idle ∨ ph = .holding deviceId) (attachDevice user deviceId linkedVia)
      (fun _ => Stage.rest) fun _ => Stage.rest := by
  have hidle (ph : Stage) (hph : ph = .idle ∨ ph = .holding deviceId) (key device : String) :
      ph ≠ .reading key device := by
    rcases hph with rfl | rfl <;> simp
  refine Linked.then (linked_look (by simp) hidle) fun existing => ?_
  refine Discipline.Flow.ite (fun _ => Discipline.Flow.throw fun ph hph => ?_) fun _ => ?_
  · rcases hph with rfl | rfl
    · exact fun _ _ => nofun
    · exact fun _ _ => nofun
  have hlink : Linked (fun ph => ph = .idle ∨ ph = .holding deviceId)
      (Prog.perform (Stmt.upsertLink deviceId user linkedVia) : Act DeviceLink)
      (fun _ => (· = .linking deviceId user)) fun _ => Stage.rest :=
    Discipline.Flow.perform fun ph c w hph _ => ⟨.linking deviceId user, Moves.link hph, rfl⟩
  refine Linked.then hlink fun link => ?_
  have hassign : Linked (· = .linking deviceId user)
      (Prog.perform (Stmt.assignReports deviceId user) : Act Unit) (fun _ => Stage.rest)
      fun _ => Stage.rest := by
    refine Discipline.Flow.perform fun ph c w hph _ => ⟨.done, ?_, fun _ _ => nofun⟩
    subst hph
    exact Moves.assign
  exact Linked.then hassign fun _ => Discipline.Flow.pure fun _ h => h

theorem linked_call (call : Call) : Linked (· = .idle) call.prog (fun _ => Stage.rest)
    fun _ => Stage.rest := by
  cases call with
  | generate deviceId drawn =>
    exact Linked.then linked_generate fun _ => Discipline.Flow.pure fun _ h => h
  | linkDeviceByCode user linkCode =>
    refine Linked.then (Linked.then linked_consume fun found => ?_) fun _ =>
      Discipline.Flow.pure fun _ h => h
    cases found with
    | none =>
      refine Discipline.Flow.throw fun ph hph => ?_
      subst hph
      exact fun _ _ => nofun
    | some deviceId =>
      exact linked_attach.weaken (fun _ h => Or.inr h) (fun _ _ h => h) fun _ _ h => h
  | attachDevice user deviceId =>
    have hattach : Linked (· = .idle) (Linking.attachDevice user deviceId .admin)
        (fun _ => Stage.rest) fun _ => Stage.rest :=
      linked_attach.weaken (fun _ h => Or.inl h) (fun _ _ h => h) fun _ _ h => h
    exact Linked.then hattach fun _ => Discipline.Flow.pure fun _ h => h

theorem launch_thread {γ : Type} {hist : γ} {w : World} {calls : List Call} {t : Nat}
    {p : Act Unit} (h : (launch w hist calls).threads[t]? = some p) :
    ∃ call, calls[t]? = some call ∧ p = call.prog := by
  simp only [launch, List.getElem?_map] at h
  obtain ⟨call, hcall, rfl⟩ := Option.map_eq_some_iff.mp h
  exact ⟨call, hcall, rfl⟩

end Flows

section Reads

variable {α : Type} {p : Act α} {A : CallMemory → Prop}

/-- From some memories, the program links what it has read to be free. -/
abbrev Reads (A : CallMemory → Prop) (p : Act α) (B : α → CallMemory → Prop) : Prop :=
  Recalls machine CallMemory.note CallMemory.may A p B

/-- A program that writes no link. -/
theorem reads_plain (hp : p.Only fun s => ∀ device user linkedVia,
    s ≠ .upsertLink device user linkedVia) : Reads A p fun _ _ => True := by
  apply Recalls.free hp
  intro m s hs
  cases s with
  | upsertLink device user linkedVia => exact absurd rfl (hs device user linkedVia)
  | _ => trivial

theorem only_generate {deviceId : String} {drawn : Fin 1000000} :
    (generate deviceId drawn).Only fun s => ∀ device user linkedVia,
      s ≠ .upsertLink device user linkedVia := by
  refine .seq ((only_perform _).mpr (by simp)) fun _ => .seq (only_fetch _ _) fun now => ?_
  exact only_pure _

theorem only_consume {code : String} : (consume code).Only fun s => ∀ device user linkedVia,
    s ≠ .upsertLink device user linkedVia := by
  refine .seq (only_fetch _ _) fun found => ?_
  cases found with
  | none => exact only_pure _
  | some deviceId =>
    refine .ite (fun _ => only_pure _) fun _ => ?_
    exact .seq ((only_perform _).mpr (by simp)) fun _ => only_pure _

/-- The check for another account is made on the link that was read. -/
theorem reads_attachDevice {user : UserRef} {deviceId : String} {linkedVia : LinkedVia} :
    Reads A (attachDevice user deviceId linkedVia) fun _ _ => True := by
  have hread : Reads A (fetch (.link deviceId) (·.links.get deviceId)) fun found m =>
      ∃ w, m.link = some w ∧ w.links.get deviceId = found :=
    Recalls.fetch fun m w _ => ⟨w, rfl, rfl⟩
  apply hread.seq
  intro existing
  refine .ite (fun _ => .throw fun _ _ => trivial) fun hfree => ?_
  have hlink : Reads (fun m => ∃ w, m.link = some w ∧ w.links.get deviceId = existing)
      (Prog.perform (Stmt.upsertLink deviceId user linkedVia) : Act DeviceLink)
      fun _ _ => True := by
    apply Recalls.perform
    · rintro m ⟨w, hw, rfl⟩
      exact ⟨w, hw, by simpa [Option.all_eq_true, Option.any_eq_true] using hfree⟩
    · exact fun _ _ _ _ _ _ => trivial
  apply hlink.seq
  intro link
  exact reads_plain (.seq ((only_perform _).mpr (by simp)) fun _ => only_pure _)

theorem reads_call (call : Call) : Reads A call.prog fun _ _ => True := by
  cases call with
  | generate deviceId drawn => exact reads_plain (.seq only_generate fun _ => only_pure _)
  | linkDeviceByCode user linkCode =>
    have hlink : Reads A (linkDeviceByCode user linkCode) fun _ _ => True := by
      apply (reads_plain only_consume).seq
      intro found
      cases found with
      | none => exact .throw fun _ _ => trivial
      | some deviceId => exact reads_attachDevice
    exact hlink.seq fun _ => .pure fun _ _ => trivial
  | attachDevice user deviceId => exact reads_attachDevice.seq fun _ => .pure fun _ _ => trivial

/-- A link that no other came before since the call read it finds the device free or the user's. -/
theorem free_of_apart {t : Nat} {s : Stmt} {c : Nat} {x : World × LinkLog}
    (hmay : (x.2.calls t).may s) (hC : drawnApart t (.call s) c x) :
    linkedFree t (.call s) c x := by
  obtain ⟨honce, hlink⟩ := (Bool.and_eq_true ..).mp hC
  refine (Bool.and_eq_true ..).mpr ⟨honce, ?_⟩
  cases s with
  | upsertLink device user linkedVia =>
    obtain ⟨w, hw, hfree⟩ := hmay
    cases hread : w.links.get device with
    | none => simpa [hw, hread] using hlink
    | some link =>
      have huser : link.userId = user := by simpa [hread] using hfree
      simpa [hw, hread, huser] using hlink
  | _ => rfl

theorem free_reach {w : World} {calls : List Call} {g : Run LinkLog}
    (hg : Pool.Reach machine recordLinks drawnApart (launch w .empty calls) g) :
    Pool.Reach machine recordLinks linkedFree (launch w .empty calls) g := by
  refine recalled_mono (C := drawnApart) (D := linkedFree) (fun _ _ _ _ _ => rfl) ?_
    (fun _ _ _ _ h => h) (fun _ _ _ _ => free_of_apart) hg
  intro t p hp
  obtain ⟨call, -, rfl⟩ := launch_thread hp
  exact reads_call call

end Reads

section Runs

/-- While no code is drawn that another device holds, none is read between another call's reading of
it and that call's next step, and no device becomes another user's between the read of its link and
the write, codes are honest, and links and reports agree in the end. -/
theorem codes_honest (w : World) (calls : List Call) (g : Run LinkLog)
    (hcodes : w.codes = .empty) (hw : Agreed w)
    (hg : Pool.Reach machine recordLinks drawnApart (launch w .empty calls) g) :
    (∀ h ∈ g.hist.handings, h.honest) ∧ (g.AllEnded → Agreed g.state) := by
  have hstart : linking.Kept machine Sound Stage.rest (fun _ => .idle)
      (launch w .empty calls) := by
    refine ⟨⟨⟨by simp [LinkLog.empty, launch], by simp [LinkLog.empty, launch],
      fun key entry hentry => ?_, by simp [LinkLog.empty, launch], by simp [LinkLog.empty, launch],
      by simp [LinkLog.empty, launch]⟩, ⟨by simp, fun device link hlink =>
        Or.inl (hw device link hlink)⟩, by simp⟩, fun t p hp => ?_, fun _ _ _ _ => nofun⟩
    · have hentry : w.codes.get key = some entry := hentry
      rw [hcodes] at hentry
      cases hentry
    · obtain ⟨call, -, rfl⟩ := launch_thread hp
      exact linked_call call .idle rfl
  obtain ⟨Φ, hkept⟩ := Discipline.kept_of_reach sound_invariant hstart (free_reach hg)
  refine ⟨hkept.inv.codes.honest, fun hend device link hlink => ?_⟩
  rcases hkept.inv.links.reports device link hlink with hagreed | ⟨t, ht⟩
  · exact hagreed
  · exact absurd ht (hkept.ended hend t device link.userId)

end Runs

section Race

/-- A device with one report, linked to nobody. -/
def oneDevice : World := ⟨.empty, .empty, Table.empty.set 1 ⟨"device", none⟩, 0⟩

/-- Two users enter the code of the device. -/
def twoUsers : List Call :=
  [.generate "device" 42, .linkDeviceByCode 7 "000042", .linkDeviceByCode 8 "000042"]

theorem agreed_oneDevice : Agreed oneDevice := fun _ _ h => nomatch h

/-- Whether all have ended, how many calls have consumed each code, whose the device is, and whose
its report. -/
structure Outcome where
  ended : Bool
  takers : List Nat
  link : Option UserRef
  report : Option UserRef
  deriving DecidableEq, Repr

def outcome (g : Run LinkLog) : Outcome where
  ended := decide g.AllEnded
  takers := g.hist.handings.map (·.takers.length)
  link := (g.state.links.get "device").map (·.userId)
  report := (g.state.reports.get 1).bind (·.userId)

/-- Both users read the code before it is deleted: it is consumed twice, and the device is one
user's and its report the other's. -/
theorem read_twice : ¬ LinkLaw anyStep := by
  intro hlaw
  have hrun : Pool.observe machine recordLinks anyStep outcome
      [.run 0 0, .run 0 0, .run 1 0, .run 2 0, .run 1 0, .run 2 0, .run 1 0, .run 2 0, .run 1 0,
        .run 2 0, .run 1 0] (.run 2 0) (launch oneDevice .empty twoUsers) =
      some (⟨false, [2], some 7, some 7⟩, ⟨true, [2], some 7, some 8⟩) := by
    decide +kernel
  obtain ⟨g, g', hg, hm, hs, -, hafter⟩ := Pool.observe_eq hrun
  have hhonest := (hlaw _ _ g' rfl agreed_oneDevice (.next hg hm hs)).1
  have htakers : g'.hist.handings.map (·.takers.length) = [2] := congrArg Outcome.takers hafter
  have hmem : 2 ∈ g'.hist.handings.map (·.takers.length) := by simp [htakers]
  obtain ⟨h, hh, htwo⟩ := List.mem_map.mp hmem
  have hone := (hhonest h hh).2
  omega

/-- The second user comes when the code is gone. -/
theorem read_once : ∃ g : Run LinkLog, outcome g = ⟨true, [1], some 7, some 7⟩ ∧
    (∀ h ∈ g.hist.handings, h.honest) ∧ Agreed g.state := by
  have hrun : Pool.observe machine recordLinks drawnApart outcome
      [.run 0 0, .run 0 0, .run 1 0, .run 1 0, .run 1 0, .run 1 0, .run 1 0] (.run 2 0)
      (launch oneDevice .empty twoUsers) =
      some (⟨false, [1], some 7, some 7⟩, ⟨true, [1], some 7, some 7⟩) := by
    decide +kernel
  obtain ⟨g, g', hg, hm, hs, -, hafter⟩ := Pool.observe_eq hrun
  have hend : g'.AllEnded := of_decide_eq_true (congrArg Outcome.ended hafter)
  have hlaw := codes_honest oneDevice twoUsers g' rfl agreed_oneDevice (.next hg hm hs)
  exact ⟨g', hafter, hlaw.1, hlaw.2 hend⟩

end Race

end CarSalePro.Linking
