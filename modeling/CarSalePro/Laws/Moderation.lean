import CarSalePro.Interleave.Recall
import CarSalePro.Listings.Effects

namespace CarSalePro.Listings

open Store Interleave Prog

/-- What a seller and a moderator do with a listing. -/
def Call.moderation : Call → Bool
  | .publish _ _ | .unpublish _ _ | .markSold _ _ | .update _ _ _ | .adminHide _ _
  | .adminUnhide _ => true
  | _ => false

/-- An admin hid this listing, and none has restored it. -/
def World.moderated (w : World) (listing : ListingRef) : Bool :=
  (w.listings.get listing).any (·.adminHiddenAt.isSome)

def World.live (w : World) (listing : ListingRef) : Bool :=
  (w.listings.get listing).any (·.status = .active)

/-- A moderated listing is down. -/
def StaysDown (w : World) : Prop := ∀ listing, w.moderated listing → w.live listing = false

/-- The state in which a thread has first read the listing of its owner. -/
abbrev OwnedMemory := Option World

namespace OwnedMemory

def note (m : OwnedMemory) (l : Label Site Stmt) (w : World) : OwnedMemory :=
  match l with
  | .ask (.ownedListing _) => m.or (some w)
  | _ => m

/-- A listing is published that was read, and was not moderated then. -/
def may (m : OwnedMemory) : Stmt → Prop
  | .activateStandard listing => ∃ w, m = some w ∧ w.moderated listing = false
  | _ => True

theorem note_some {w : World} {l : Label Site Stmt} {w' : World} :
    note (some w) l w' = some w := by
  unfold note
  split <;> rfl

end OwnedMemory

/-- What each thread has read. -/
abbrev OwnedLog := Nat → OwnedMemory

def OwnedLog.empty : OwnedLog := fun _ => none

def recordOwned : Recorder Site Stmt World OwnedLog := fun t l w _ h =>
  Function.update h t ((h t).note l w)

/-- The next step of the pool is an admin's unhide of the listing. -/
def unhides (g : Run OwnedLog) (m : Move Fate) (listing : ListingRef) : Prop :=
  ∃ t c p publishedAt, m = .run t c ∧ g.threads[t]? = some p ∧
    p.label = some (.call (.adminUnhide listing publishedAt))

/-- In every interleaving of steps that meet `C`: what is moderated is down, and is moderated and
down after the step too, unless that is the unhide. -/
def ModerationLaw (C : StepGuard OwnedLog) : Prop :=
  ∀ (w : World) (calls : List Call) (g g' : Run OwnedLog) (m : Move Fate),
    (∀ call ∈ calls, call.moderation) → StaysDown w →
    Pool.Reach machine recordOwned C (launch w .empty calls) g → g.Meets C m →
    Pool.step machine recordOwned m g = some g' →
    StaysDown g'.state ∧ ∀ listing, g.state.moderated listing →
      g'.state.moderated listing ∧ g'.state.live listing = false ∨ unhides g m listing

/-- No admin has hidden the listing since the publish read it. -/
def publishesInTime : StepGuard OwnedLog := fun t label c x =>
  match label with
  | .call (.activateStandard listing) => c = .fails ||
      (x.2 t).all fun w => w.moderated listing || !x.1.moderated listing
  | _ => true

/-- The write of a publish finds the listing not moderated. -/
def publishesUnmoderated : StepGuard OwnedLog := fun _ label c x =>
  match label with
  | .call (.activateStandard listing) => c = .fails || !x.1.moderated listing
  | _ => true

section Steps

/-- The statements of sellers and moderators. -/
def Stmt.moderation : Stmt → Prop
  | .patchListing _ _ | .activateStandard _ | .unpublish _ | .markSold _ | .adminHide _ _
  | .adminUnhide _ _ | .stampMirrored _ | .setBucket _ _ | .publicPut _ _ => True
  | _ => False

variable {w : World} {h : OwnedLog} {s : Stmt} {c : Fate} {t : Nat} {listing : ListingRef}

theorem moderation_of_issues {call : Call} (hcall : call.moderation) (hs : call.Issues s) :
    s.moderation := by
  cases call with
  | update user listing dto => cases s <;> trivial
  | publish user listing => cases s <;> trivial
  | unpublish user listing => cases s <;> trivial
  | markSold user listing => cases s <;> trivial
  | adminHide listing reason => cases s <;> trivial
  | adminUnhide listing => cases s <;> trivial
  | _ => cases hcall

/-- A row that is moderated, and not live. -/
def Listing.down (row : Listing) : Prop := row.adminHiddenAt.isSome ∧ row.status ≠ .active

/-- A row that is live only when it is not moderated. -/
def Listing.proper (row : Listing) : Prop := row.adminHiddenAt.isSome → row.status ≠ .active

theorem staysDown_iff :
    StaysDown w ↔ ∀ listing row, w.listings.get listing = some row → row.proper := by
  constructor
  · intro h listing row hrow hhidden
    have hdown := h listing (by simp [World.moderated, hrow, hhidden])
    simpa [World.live, hrow] using hdown
  · intro h listing hmoderated
    cases hrow : w.listings.get listing with
    | none => simp [World.live, hrow]
    | some row =>
      have hhidden : row.adminHiddenAt.isSome := by
        simpa [World.moderated, hrow] using hmoderated
      simpa [World.live, hrow] using h listing row hrow hhidden

/-- What a statement makes of a row: a moderated row goes down, or is restored. -/
theorem rowAfter_proper {row : Listing} (w : World) (hs : s.moderation) (hrow : row.proper)
    (hpublish : s = .activateStandard listing → row.adminHiddenAt.isSome = false) :
    (s.rowAfter w.now listing row).proper ∧ (row.adminHiddenAt.isSome →
      (s.rowAfter w.now listing row).down ∨
      ∃ publishedAt, s = .adminUnhide listing publishedAt) := by
  have hkept (row' : Listing) (hhidden : row'.adminHiddenAt = row.adminHiddenAt)
      (hstatus : row'.status = row.status ∨ row'.status ≠ .active) :
      row'.proper ∧ (row.adminHiddenAt.isSome →
        row'.down ∨ ∃ publishedAt, s = .adminUnhide listing publishedAt) := by
    have hproper : row'.proper := by
      intro h
      rcases hstatus with hsame | hdown
      · exact hsame ▸ hrow (hhidden ▸ h)
      · exact hdown
    exact ⟨hproper, fun h => Or.inl ⟨hhidden ▸ h, hproper (hhidden ▸ h)⟩⟩
  cases s with
  | patchListing listing' dto =>
    apply hkept <;> (simp only [Stmt.rowAfter, UpdateListing.apply]; split <;> simp)
  | unpublish listing' => apply hkept <;> (simp only [Stmt.rowAfter]; split <;> simp)
  | markSold listing' => apply hkept <;> (simp only [Stmt.rowAfter]; split <;> simp)
  | stampMirrored listing' => apply hkept <;> (simp only [Stmt.rowAfter]; split <;> simp)
  | setBucket photo bucket => exact hkept _ rfl (Or.inl rfl)
  | publicPut writer key => exact hkept _ rfl (Or.inl rfl)
  | activateStandard listing' =>
    simp only [Stmt.rowAfter]
    split
    next hl =>
      subst hl
      have hnone := hpublish rfl
      exact ⟨fun h => by simp [hnone] at h, fun h => by simp [hnone] at h⟩
    next => exact hkept _ rfl (Or.inl rfl)
  | adminHide listing' reason =>
    simp only [Stmt.rowAfter]
    split
    next => exact ⟨fun _ => by simp, fun _ => Or.inl ⟨rfl, by simp⟩⟩
    next => exact hkept _ rfl (Or.inl rfl)
  | adminUnhide listing' publishedAt =>
    simp only [Stmt.rowAfter]
    split
    next hl =>
      subst hl
      exact ⟨fun h => by simp at h, fun _ => Or.inr ⟨publishedAt, rfl⟩⟩
    next => exact hkept _ rfl (Or.inl rfl)
  | _ => exact hs.elim

/-- One statement of a seller or a moderator, under the condition. -/
theorem moderation_exec (hw : StaysDown w) (hs : s.moderation)
    (hC : publishesUnmoderated t (.call s) c (w, h)) :
    StaysDown (World.exec s c w).2 ∧ ∀ listing, w.moderated listing →
      (World.exec s c w).2.moderated listing ∧ (World.exec s c w).2.live listing = false ∨
        ∃ publishedAt, s = .adminUnhide listing publishedAt := by
  cases c with
  | fails =>
    rw [exec_fails]
    exact ⟨hw, fun listing h => Or.inl ⟨h, hw listing h⟩⟩
  | ok =>
    have hrows := staysDown_iff.mp hw
    have hafter (listing : ListingRef) (row : Listing) (hrow : w.listings.get listing = some row) :=
      rowAfter_proper w hs (hrows listing row hrow) fun (he : s = .activateStandard listing) => by
        subst he
        simpa [publishesUnmoderated, World.moderated, hrow] using hC
    constructor
    · refine staysDown_iff.mpr fun listing row' hrow' => ?_
      rcases listing_exec s .ok w listing with
        h | ⟨row, hcreate, -, -⟩ | ⟨row, hrow, h⟩
      · exact hrows listing row' (h ▸ hrow')
      · subst hcreate
        exact hs.elim
      · rw [h] at hrow'
        cases hrow'
        exact (hafter listing row hrow).1
    · intro listing hmoderated
      rcases listing_exec s .ok w listing with
        h | ⟨row, hcreate, -, -⟩ | ⟨row, hrow, h⟩
      · have hlive := hw listing hmoderated
        simp only [World.moderated, World.live] at hmoderated hlive ⊢
        rw [h]
        exact Or.inl ⟨hmoderated, hlive⟩
      · subst hcreate
        exact hs.elim
      · have hhidden : row.adminHiddenAt.isSome := by
          simpa [World.moderated, hrow] using hmoderated
        rcases (hafter listing row hrow).2 hhidden with ⟨hflag, hstatus⟩ | hunhide
        · exact Or.inl ⟨by simpa [World.moderated, h] using hflag,
            by simpa [World.live, h] using hstatus⟩
        · exact Or.inr hunhide

end Steps

section Programs

abbrev Publishes {α : Type} (A : OwnedMemory → Prop) (p : Act α) (B : α → OwnedMemory → Prop) :
    Prop :=
  Recalls machine OwnedMemory.note OwnedMemory.may A p B

variable {α : Type} {A : OwnedMemory → Prop} {user : UserRef} {listing : ListingRef}

/-- A program that publishes nothing. -/
theorem publishes_plain {p : Act α}
    (hp : p.Only fun s => ∀ listing, s ≠ .activateStandard listing) :
    Publishes A p fun _ _ => True := by
  apply Recalls.free hp
  intro m s hs
  cases s with
  | activateStandard listing => exact absurd rfl (hs listing)
  | _ => trivial

/-- The listing as it was read. -/
def ReadAs (listing : ListingRef) (row : Listing) (m : OwnedMemory) : Prop :=
  ∃ w, m = some w ∧ w.listings.get listing = some row

theorem publishes_requireOwnedListing : Publishes (· = none) (requireOwnedListing user listing)
    (ReadAs listing) := by
  have hread : Publishes (· = none) (fetch (.ownedListing listing) (·.listings.get listing))
      fun found m => ∀ row, found = some row → ReadAs listing row m := by
    apply Recalls.fetch
    intro m w hm row hrow
    subst hm
    exact ⟨w, rfl, hrow⟩
  apply hread.seq
  intro found
  cases found with
  | none => exact .throw fun _ _ => trivial
  | some row =>
    exact .ite (fun _ => .throw fun _ _ => trivial) fun _ => .pure fun _ h => h row rfl

/-- The check of the moderation is made on the listing that was read. -/
theorem publishes_publish : Publishes (· = none) (publish user listing) fun _ _ => True := by
  apply publishes_requireOwnedListing.seq
  intro row
  apply Discipline.Flow.ite (fun _ => .throw fun _ _ => trivial)
  intro hshown
  have hchecked : Publishes (ReadAs listing row) (assertPublishable listing row)
      fun _ => ReadAs listing row := by
    refine Recalls.only only_assertPublishable (fun _ _ _ (hs : False) => hs.elim) ?_
    intro m l w hm
    obtain ⟨v, rfl, hrow⟩ := hm
    exact ⟨v, OwnedMemory.note_some, hrow⟩
  apply hchecked.seq
  intro _
  have hactivate : Publishes (ReadAs listing row)
      (Prog.perform (Stmt.activateStandard listing) : Act Unit) fun _ _ => True := by
    apply Recalls.perform
    · intro m hm
      obtain ⟨w, rfl, hrow⟩ := hm
      exact ⟨w, rfl, by simpa [World.moderated, hrow] using hshown⟩
    · exact fun _ _ _ _ _ _ => trivial
  apply hactivate.seq
  intro _
  apply publishes_plain
  refine .seq (only_fetch _ _) fun found => ?_
  cases found with
  | none => exact only_pure _
  | some row =>
    refine ((only_mirrorIssues listing).mono fun s hs listing' he => ?_).quietly
    subst he
    exact hs

theorem publishes_call {call : Call} (hcall : call.moderation) :
    Publishes (· = none) call.prog fun _ _ => True := by
  have hplain (hother : ∀ user listing, call ≠ .publish user listing) :
      Publishes (· = none) call.prog fun _ _ => True := by
    refine publishes_plain (call.only_issues.mono fun s hs listing he => ?_)
    subst he
    cases call with
    | publish user listing' => exact hother user listing' rfl
    | update user listing' dto => exact hs.elim
    | _ => first | exact hs.elim | cases hcall
  cases call with
  | publish user listing => exact publishes_publish
  | _ => exact hplain (by simp)

theorem records_owned : Records recordOwned OwnedMemory.note id := fun _ _ _ _ _ => rfl

/-- A publish that no hide came before since it read the listing finds it not moderated. -/
theorem unmoderated_of_time {t : Nat} {s : Stmt} {c : Fate} {x : World × OwnedLog}
    (hmay : (x.2 t).may s) (hC : publishesInTime t (.call s) c x) :
    publishesUnmoderated t (.call s) c x := by
  cases s with
  | activateStandard listing =>
    obtain ⟨w, hw, hshown⟩ := hmay
    simpa [publishesInTime, publishesUnmoderated, hw, hshown] using hC
  | _ => rfl

theorem publishes_launch {w : World} {calls : List Call} (hcalls : ∀ call ∈ calls, call.moderation)
    (t : Nat) (p : Act Unit) (hp : (launch w OwnedLog.empty calls).threads[t]? = some p) :
    Publishes (· = OwnedLog.empty t) p fun _ _ => True := by
  obtain ⟨call, hcall, rfl⟩ := launch_thread hp
  exact publishes_call (hcalls call (List.mem_of_getElem? hcall))

end Programs

section Runs

variable {w : World} {calls : List Call} {g g' : Run OwnedLog} {m : Move Fate}

theorem staysDown_reach (hcalls : ∀ call ∈ calls, call.moderation) (hw : StaysDown w)
    (hg : Pool.Reach machine recordOwned publishesUnmoderated (launch w .empty calls) g) :
    StaysDown g.state := by
  refine hg.footprint (A := Stmt.moderation) (I := fun x => StaysDown x.1) ?_ hw ?_ ?_ ?_
  · intro p hp
    obtain ⟨call, hcall, rfl⟩ := List.mem_map.mp hp
    exact call.only_issues.mono fun s hs => moderation_of_issues (hcalls call hcall) hs
  · exact fun t site x hx => hx
  · exact fun t s c x hx hs hC => (moderation_exec hx hs hC).1
  · exact fun c x hx => hx

/-- While no admin hides a listing between the read of a publish and its write, a moderated listing
is down until an admin restores it. -/
theorem moderated_down (w : World) (calls : List Call) (g g' : Run OwnedLog) (m : Move Fate)
    (hcalls : ∀ call ∈ calls, call.moderation) (hw : StaysDown w)
    (hg : Pool.Reach machine recordOwned publishesInTime (launch w .empty calls) g)
    (hm : g.Meets publishesInTime m) (hs : Pool.step machine recordOwned m g = some g') :
    StaysDown g'.state ∧ ∀ listing, g.state.moderated listing →
      g'.state.moderated listing ∧ g'.state.live listing = false ∨ unhides g m listing := by
  have hmeets : g.Meets publishesUnmoderated m :=
    recalled_meets records_owned (publishes_launch hcalls) (fun _ _ _ _ _ => rfl)
      (fun _ _ _ _ => unmoderated_of_time) hg hm
  have hreach := recalled_mono (D := publishesUnmoderated) records_owned (publishes_launch hcalls)
    (fun _ _ _ _ _ => rfl) (fun _ _ _ _ => unmoderated_of_time) hg
  have hdown := staysDown_reach hcalls hw hreach
  cases m with
  | env c =>
    cases Option.some.inj hs
    exact ⟨hdown, fun listing h => Or.inl ⟨h, hdown listing h⟩⟩
  | run t c =>
    obtain ⟨p, l, w', p', hp, hst, rfl⟩ := Pool.step_run_eq hs
    have hlabel := Pool.label_of_step hst
    cases p with
    | ret a => cases hst
    | raise e => cases hst
    | ask site f k =>
      cases hst
      exact ⟨hdown, fun listing h => Or.inl ⟨h, hdown listing h⟩⟩
    | call s k =>
      cases hst
      obtain ⟨call, hcall, hissues⟩ := issues_reach hg hp hlabel
      have hmoderation := moderation_of_issues (hcalls call (List.mem_of_getElem? hcall)) hissues
      obtain ⟨hafter, hrows⟩ := moderation_exec hdown hmoderation (Pool.meets_run hmeets hp hlabel)
      refine ⟨hafter, fun listing h => ?_⟩
      rcases hrows listing h with hkept | ⟨publishedAt, rfl⟩
      · exact Or.inl hkept
      · exact Or.inr ⟨t, c, _, publishedAt, rfl, hp, hlabel⟩

end Runs

section Race

def liveListing : Listing where
  sellerId := 1
  reportId := some 1
  source := .report
  status := .active
  priceCents := 100
  city := "Berlin"
  vehicle := ⟨none, none, none⟩
  contactPhone := none
  contactEmail := none
  youtubeVideoId := none
  publishedAt := some 0
  publicPhotosMirroredAt := none
  adminHiddenAt := none
  adminHiddenReason := none

/-- A showroom with no photos. -/
def showroom (rows : Table ListingRef Listing) : World where
  listings := rows
  photos := .empty
  reports := .empty
  reportPhotos := .empty
  objects := ∅
  publicObjects := ∅
  now := 0
  r2Configured := true
  publicBucket := some "public"
  sha256 := fun _ => ""
  sha256Text := id
  localeCompare := compare

def oneListing : World := showroom (Table.empty.set 1 liveListing)

def publishAndHide : List Call := [.publish 1 1, .adminHide 1 "spam"]

/-- Whether the listing is moderated, and whether it is live. -/
def standing (g : Run OwnedLog) : Bool × Bool := (g.state.moderated 1, g.state.live 1)

theorem staysDown_oneListing : StaysDown oneListing := by
  refine staysDown_iff.mpr fun listing row hrow hhidden => ?_
  simp only [oneListing, showroom, Table.get_set, Table.get_empty] at hrow
  split at hrow
  · cases hrow
    cases hhidden
  · cases hrow

/-- A publish that found the listing not moderated undoes the hide. -/
theorem hidden_then_published : ¬ ModerationLaw anyStep := by
  intro hlaw
  have hrun : Pool.observe machine recordOwned anyStep standing
      [.run 0 .ok, .run 1 .ok, .run 1 .ok] (.run 0 .ok) (launch oneListing .empty publishAndHide) =
      some ((true, false), (true, true)) := by decide +kernel
  obtain ⟨g, g', hg, hm, hs, hbefore, hafter⟩ := Pool.observe_eq hrun
  have hdown := (hlaw _ _ g g' _ (by decide) staysDown_oneListing hg hm hs).1
  obtain ⟨hmoderated, hlive⟩ := Prod.mk.inj hafter
  rw [hdown 1 hmoderated] at hlive
  cases hlive

/-- A publish that is done before the hide leaves the listing down. -/
theorem published_then_hidden : ∃ g g' : Run OwnedLog,
    standing g = (false, true) ∧ standing g' = (true, false) ∧ StaysDown g'.state := by
  have hrun : Pool.observe machine recordOwned publishesInTime standing
      [.run 0 .ok, .run 0 .ok, .run 1 .ok] (.run 1 .ok) (launch oneListing .empty publishAndHide) =
      some ((false, true), (true, false)) := by decide +kernel
  obtain ⟨g, g', hg, hm, hs, hbefore, hafter⟩ := Pool.observe_eq hrun
  exact ⟨g, g', hbefore, hafter, (moderated_down _ _ g g' _ (by decide)
    staysDown_oneListing hg hm hs).1⟩

end Race

end CarSalePro.Listings
