import CarSalePro.Interleave.Stepwise
import CarSalePro.Laws.Moderation

namespace CarSalePro.Listings

open Store Interleave Prog

/-- What a seller or an admin does with one listing. -/
def Call.bySellerOrAdmin : Call → Bool
  | .update _ _ _ | .publish _ _ | .unpublish _ _ | .markSold _ _ | .addPhoto _ _ _
  | .reorderPhotos _ _ _ | .adminHide _ _ | .adminUnhide _ | .remove _ _ | .adminDelete _ => true
  | _ => false

def World.gone (w : World) (listing : ListingRef) : Bool :=
  (w.listings.get listing).any (·.status = .deleted)

/-- The key of a photo names the listing of the photo. -/
def KeysOwn (w : World) : Prop :=
  ∀ photo row, w.photos.get photo = some row → row.r2Key.listing = row.listingId

/-- A listing is deleted, and has no photo and no public object that it did not have in `w`. -/
structure StaysGone (w w' : World) (listing : ListingRef) : Prop where
  gone : w'.gone listing
  photos : ∀ photo row, w'.photos.get photo = some row → row.listingId = listing →
    ∃ old, w.photos.get photo = some old ∧ old.listingId = listing
  objects : ∀ key ∈ w'.publicObjects, key.listing = listing → key ∈ w.publicObjects

/-- What was deleted stays deleted. -/
def Buried (w w' : World) : Prop := ∀ listing, w.gone listing → StaysGone w w' listing

/-- No history. -/
def noRecord : Recorder Site Stmt World Unit := fun _ _ _ _ h => h

/-- In every sequence of calls whose steps meet `C`, from every state on, what is deleted stays
deleted. -/
def DeletionLaw (C : StepGuard Unit) : Prop :=
  ∀ (w : World) (calls : List Call) (g g' : Run Unit), (∀ call ∈ calls, call.bySellerOrAdmin) →
    KeysOwn w → Pool.Reach machine noRecord C (sequence w () calls) g →
    Pool.Reach machine noRecord C g g' → Buried g.state g'.state

/-- The four calls that do not look whether the listing is deleted write while it is not. -/
def writesAlive : StepGuard Unit := fun _ label c x =>
  match label with
  | .call (.activateStandard listing) | .call (.unpublish listing) | .call (.markSold listing) =>
    c = .fails || !x.1.gone listing
  | .call (.publicPut .addPhoto key) => c = .fails || !x.1.gone key.listing
  | .call (.createPhoto row) => c = .fails || !x.1.gone row.listingId
  | _ => true

section Steps

variable {u v w : World} {s : Stmt} {c : Fate} {listing : ListingRef}

theorem Buried.refl (w : World) : Buried w w :=
  fun _ h => ⟨h, fun _ row hrow hl => ⟨row, hrow, hl⟩, fun _ hkey _ => hkey⟩

theorem Buried.trans (h : Buried u v) (h' : Buried v w) : Buried u w := by
  intro listing hgone
  have hv := h listing hgone
  have hw := h' listing hv.gone
  refine ⟨hw.gone, fun photo row hrow hl => ?_, fun key hkey hl => ?_⟩
  · obtain ⟨old, hold, hl'⟩ := hw.photos photo row hrow hl
    exact hv.photos photo old hold hl'
  · exact hv.objects key (hw.objects key hkey hl) hl

/-- The statement raises nothing that is deleted in `w`. -/
def Stmt.Harmless (s : Stmt) (w : World) : Prop :=
  match s with
  | .activateStandard listing | .unpublish listing | .markSold listing | .adminHide listing _
  | .adminUnhide listing _ => w.gone listing = false
  | .publicPut _ key => w.gone key.listing = false
  | .createPhoto row => w.gone row.listingId = false
  | _ => True

theorem rowAfter_gone {now : Instant} {row : Listing} (hs : s.Harmless w)
    (hget : w.listings.get listing = some row) (hrow : row.status = .deleted) :
    (s.rowAfter now listing row).status = .deleted := by
  have hother (listing' : ListingRef) (h : w.gone listing' = false) : listing ≠ listing' := by
    rintro rfl
    simp [World.gone, hget, hrow] at h
  cases s with
  | activateStandard listing' => simpa [Stmt.rowAfter, hother listing' hs] using hrow
  | unpublish listing' => simpa [Stmt.rowAfter, hother listing' hs] using hrow
  | markSold listing' => simpa [Stmt.rowAfter, hother listing' hs] using hrow
  | adminHide listing' reason => simpa [Stmt.rowAfter, hother listing' hs] using hrow
  | adminUnhide listing' publishedAt => simpa [Stmt.rowAfter, hother listing' hs] using hrow
  | patchListing listing' dto => simp only [Stmt.rowAfter]; split <;> exact hrow
  | adminRemoveVideo listing' => simp only [Stmt.rowAfter]; split <;> exact hrow
  | stampMirrored listing' => simp only [Stmt.rowAfter]; split <;> exact hrow
  | clearMirrored listings => simp only [Stmt.rowAfter]; split <;> exact hrow
  | invalidateMirror report => simp only [Stmt.rowAfter]; split <;> exact hrow
  | deleteWithPhotos listing' =>
    simp only [Stmt.rowAfter]
    split
    · rfl
    · exact hrow
  | _ => exact hrow

theorem gone_exec (hs : s.Harmless w) (h : w.gone listing) :
    (World.exec s c w).2.gone listing := by
  obtain ⟨row, hrow, hstatus⟩ :
      ∃ row, w.listings.get listing = some row ∧ row.status = .deleted := by
    simpa [World.gone, Option.any_eq_true] using h
  rcases listing_exec s c w listing with
    hsame | ⟨_, -, hnone, -⟩ | ⟨old, hold, hafter⟩
  · simpa [World.gone, hsame] using h
  · rw [hrow] at hnone
    cases hnone
  · rw [hrow] at hold
    cases hold
    simp [World.gone, hafter, rowAfter_gone hs hrow hstatus]

/-- One harmless statement. -/
theorem buried_exec (hs : s.Harmless w) : Buried w (World.exec s c w).2 := by
  intro listing hgone
  refine ⟨gone_exec hs hgone, fun photo row hrow hl => ?_, fun key hkey hl => ?_⟩
  · rcases photo_exec hrow with ⟨old, hold, hcontinues⟩ | ⟨hcreate, -⟩
    · exact ⟨old, hold, hcontinues.listingId ▸ hl⟩
    · subst hcreate
      have halive : w.gone row.listingId = false := hs
      rw [hl, hgone] at halive
      cases halive
  · rcases publicObjects_exec (w := w) (s := s) (c := c) with h | ⟨writer, key', hput, h⟩ |
      ⟨remover, key', -, h⟩
    · exact h ▸ hkey
    · subst hput
      rcases Finset.mem_insert.mp (h ▸ hkey) with rfl | hold
      · have halive : w.gone key.listing = false := hs
        rw [hl, hgone] at halive
        cases halive
      · exact hold
    · exact Finset.mem_of_mem_erase (h ▸ hkey)

theorem keysOwn_exec (hw : KeysOwn w)
    (hcreate : ∀ row, s = .createPhoto row → row.r2Key.listing = row.listingId) :
    KeysOwn (World.exec s c w).2 := by
  intro photo row hrow
  rcases photo_exec hrow with ⟨old, hold, hcontinues⟩ | ⟨hs, -⟩
  · rw [hcontinues.listingId, hcontinues.r2Key]
    exact hw photo old hold
  · exact hcreate row hs

end Steps

section Calls

variable {α β : Type} {P : World → Prop} {listing : ListingRef}

/-- The world but for its clock. -/
def World.still (w : World) : World := { w with now := 0 }

/-- The steps that meet the condition. -/
def admitted (l : Label Site Stmt) (c : Fate) (w : World) : Prop := writesAlive 0 l c (w, ()) = true

/-- From `P` to `Q` or `X`, and nothing that is deleted comes back. -/
abbrev Burying (P : World → Prop) (p : Act α) (Q : α → World → Prop) (X : Err → World → Prop) :
    Prop :=
  Stepwise machine World.still admitted Buried P p Q X

theorem Burying.then {p : Act α} {f : α → Act β} {Q : α → World → Prop} {Q' : β → World → Prop}
    {X : Err → World → Prop} (h : Burying P p Q X) (hf : ∀ a, Burying (Q a) (f a) Q' X) :
    Burying P (p >>= f) Q' X := Discipline.Flow.seq h hf

/-- Statements that are harmless once they are admitted. -/
theorem Burying.only {p : Act α} {F : Stmt → Prop} (hp : p.Only F)
    (hcall : ∀ s c w, F s → admitted (.call s) c w → P w.still →
      Buried w (World.exec s c w).2 ∧ P (World.exec s c w).2.still) :
    Burying P p (fun _ => P) fun _ => P := Stepwise.only hp Buried.refl hcall

/-- A read leaves an assertion, and is answered from a state where it holds. -/
theorem Burying.read {site : Site} {f : World → α} (Q : α → World → Prop)
    (hQ : ∀ w, P w.still → Q (f w) w.still) : Burying P (fetch site f) Q fun _ => P :=
  Stepwise.ask Buried.refl hQ fun _ _ h => h

/-- A statement that fails, or is harmless, changes nothing that is deleted. -/
theorem buried_admitted {s : Stmt} {c : Fate} {w : World} (h : c = .fails ∨ s.Harmless w) :
    Buried w (World.exec s c w).2 := by
  rcases h with rfl | hs
  · rw [exec_fails]
    exact .refl w
  · exact buried_exec hs

/-- The statements of a mirror of the listing, once its rows are known to be its own. -/
def MirrorOwns (listing : ListingRef) : Stmt → Prop
  | .publicPut _ key => key.listing = listing
  | .setBucket _ _ => True
  | .stampMirrored _ => True
  | _ => False

/-- The listing is not deleted. -/
def Alive (listing : ListingRef) (w : World) : Prop := KeysOwn w ∧ w.gone listing = false

theorem alive_mirror {s : Stmt} {c : Fate} {w : World} (hs : MirrorOwns listing s)
    (h : Alive listing w.still) :
    Buried w (World.exec s c w).2 ∧ Alive listing (World.exec s c w).2.still := by
  have hharmless : s.Harmless w := by
    cases s with
    | publicPut writer key =>
      have howner : key.listing = listing := hs
      show w.gone key.listing = false
      rw [howner]
      exact h.2
    | setBucket photo bucket => trivial
    | stampMirrored listing' => trivial
    | _ => exact hs.elim
  refine ⟨buried_exec hharmless, keysOwn_exec h.1 fun row hcreate => ?_, ?_⟩
  · subst hcreate
    exact hs.elim
  · have halive : (w.listings.get listing).any (·.status = .deleted) = false := h.2
    show ((World.exec s c w).2.listings.get listing).any (·.status = .deleted) = false
    rcases listing_exec s c w listing with
      hsame | ⟨row, hcreate, -, -⟩ | ⟨row, hrow, hafter⟩
    · rwa [hsame]
    · subst hcreate
      exact hs.elim
    · have hstatus : (s.rowAfter w.now listing row).status = row.status := by
        cases s with
        | publicPut writer key => rfl
        | setBucket photo bucket => rfl
        | stampMirrored listing' => simp only [Stmt.rowAfter]; split <;> rfl
        | _ => exact hs.elim
      rw [hrow] at halive
      simpa [hafter, hstatus] using halive

theorem burying_failed {body : Act Unit} (h : body.Only (MirrorOwns listing)) :
    Burying (Alive listing) (failed body) (fun _ => Alive listing) fun _ => Alive listing :=
  .only (only_failed h) fun _ _ _ hs _ hw => alive_mirror hs hw

theorem burying_stamp : Burying (Alive listing) (stampMirrored listing) (fun _ => Alive listing)
    fun _ => Alive listing := by
  refine .only (F := MirrorOwns listing) ((only_perform _).mpr trivial) fun _ _ _ hs _ hw => ?_
  exact alive_mirror hs hw

theorem burying_mirror : Burying (Alive listing) (mirrorShowroomPhotos listing)
    (fun _ => Alive listing) fun _ => Alive listing := by
  refine Burying.then (Burying.read (fun _ => Alive listing) fun _ h => h) fun configured => ?_
  refine Discipline.Flow.ite (fun _ => Stepwise.pure fun _ h => h) fun _ => ?_
  refine Burying.then (Burying.read (fun found x => Alive listing x ∧ ∀ refs, found = some refs →
    ∀ ref ∈ refs, ref.1.listing = listing) fun w h => ⟨h, ?_⟩) fun found =>
    Stepwise.fact fun hrefs => ?_
  · intro refs hfound ref href
    obtain ⟨row, -, rfl⟩ := Option.map_eq_some_iff.mp hfound
    obtain ⟨entry, -, rfl⟩ := List.mem_map.mp href
    rfl
  cases found with
  | none => exact Stepwise.pure fun _ h => h
  | some refs =>
    refine Burying.then (Burying.read (fun rows x => Alive listing x ∧
      ∀ row ∈ rows, row.2.r2Key.listing = listing) fun w h => ⟨h, ?_⟩) fun rows =>
        Stepwise.fact fun hrows => ?_
    · intro row hrow
      obtain ⟨hget, hmatch⟩ := Table.mem_findSorted hrow
      have howner : row.2.listingId = listing := (of_decide_eq_true hmatch).1
      rw [← howner]
      exact h.1 row.1 row.2 hget
    refine Burying.then (Discipline.Flow.countEach fun row hrow => burying_failed ?_) fun n => ?_
    · refine .seq (only_fetch _ _) fun found => .when fun _ => ?_
      refine .seq (only_publicPutObject fun k hk => ?_) fun bucket => (only_perform _).mpr trivial
      exact (copies_listing hk).trans (hrows row hrow)
    refine Burying.then (Discipline.Flow.countEach fun ref href => burying_failed ?_) fun k => ?_
    · refine .seq (only_fetch _ _) fun found => .when fun _ => ?_
      refine .seq (only_publicPutObject fun k hk => ?_) fun bucket => only_pure _
      exact (copies_listing hk).trans (hrefs refs rfl ref href)
    refine Burying.then (Discipline.Flow.when (fun _ => burying_stamp) fun _ _ h => h) fun _ => ?_
    exact Stepwise.pure fun _ h => h

/-- A call whose statements are harmless wherever they are admitted. -/
theorem burying_only {p : Act α} {F : Stmt → Prop} (hp : p.Only F)
    (hharmless : ∀ s c w, F s → admitted (.call s) c w → c = .fails ∨ s.Harmless w)
    (hcreate : ∀ row, F (.createPhoto row) → row.r2Key.listing = row.listingId) :
    Burying KeysOwn p (fun _ => KeysOwn) fun _ => KeysOwn := by
  refine .only hp fun s c w hs hok hw => ⟨buried_admitted (hharmless s c w hs hok), ?_⟩
  exact keysOwn_exec hw fun row he => hcreate row (he ▸ hs)

/-- The answer of a lookup is the row of the listing. -/
theorem burying_requireListing : Burying KeysOwn (requireListing listing)
    (fun row x => KeysOwn x ∧ x.listings.get listing = some row) fun _ => KeysOwn := by
  refine Burying.then (Burying.read (fun found x => KeysOwn x ∧ x.listings.get listing = found)
    fun w h => ⟨h, rfl⟩) fun found => ?_
  cases found with
  | none => exact Stepwise.throw fun _ h => h.1
  | some row => exact Stepwise.pure fun _ h => h

/-- A statement of an admin, on a listing that is found not deleted. -/
theorem burying_moderate {s : Stmt} {row : Listing}
    (hs : ∀ w : World, w.gone listing = false → s.Harmless w)
    (hcreate : ∀ photo, s ≠ .createPhoto photo) (hrow : row.status ≠ .deleted) :
    Burying (fun x => KeysOwn x ∧ x.listings.get listing = some row)
      (Prog.perform s : Act s.Resp) (fun _ => KeysOwn) fun _ => KeysOwn := by
  refine Stepwise.perform fun c w hw _ => ?_
  have hget : w.listings.get listing = some row := hw.2
  have halive : w.gone listing = false := by simpa [World.gone, hget] using hrow
  have hkeys : KeysOwn (World.exec s c w).2 :=
    keysOwn_exec hw.1 fun photo he => absurd he (hcreate photo)
  refine ⟨buried_exec (hs w halive), ?_⟩
  show Discipline.onAnswer _ _ (World.exec s c w).1 _
  cases (World.exec s c w).1 with
  | ok answer => exact hkeys
  | error e => exact hkeys

theorem burying_publish {user : UserRef} : Burying KeysOwn (publish user listing)
    (fun _ => KeysOwn) fun _ => KeysOwn := by
  have hquiet {α : Type} {p : Act α} (hp : p.Only fun _ => False) :
      Burying KeysOwn p (fun _ => KeysOwn) fun _ => KeysOwn :=
    burying_only hp (fun _ _ _ hs => hs.elim) fun _ hs => hs.elim
  refine Burying.then (hquiet only_requireOwnedListing) fun row => ?_
  refine Discipline.Flow.ite (fun _ => Stepwise.throw fun _ h => h) fun _ => ?_
  refine Burying.then (hquiet only_assertPublishable) fun _ => ?_
  have hactivate : Burying KeysOwn (Prog.perform (Stmt.activateStandard listing) : Act Unit)
      (fun _ => Alive listing) fun _ => KeysOwn := by
    refine Stepwise.perform fun c w hw hok => ?_
    have hharmless : c = .fails ∨ (Stmt.activateStandard listing).Harmless w := by
      simpa [admitted, writesAlive, Stmt.Harmless] using hok
    refine ⟨buried_admitted hharmless, ?_⟩
    cases c with
    | fails => exact hw
    | ok =>
      show Discipline.onAnswer _ _ (w.updateListing listing _).1 (w.updateListing listing _).2.still
      unfold World.updateListing
      cases hrow : w.listings.get listing with
      | none => exact hw
      | some row => exact ⟨hw, by simp [World.gone, World.still]⟩
  refine Burying.then hactivate fun _ => ?_
  have hfetch : Burying (Alive listing)
      (fetch (.listing listing) (·.listings.get listing) : Act (Option Listing))
      (fun _ => Alive listing) fun _ => KeysOwn :=
    Stepwise.ask Buried.refl (fun _ h => h) fun _ _ h => h.1
  refine Burying.then hfetch fun found => ?_
  cases found with
  | none => exact Stepwise.pure fun _ h => h.1
  | some row =>
    have hmirror : Burying (Alive listing) (quietly (mirrorShowroomPhotos listing))
      (fun _ => Alive listing) fun _ => KeysOwn := Discipline.Flow.quietly burying_mirror
    exact hmirror.weaken (fun _ h => h) (fun _ _ h => h.1) fun _ _ h => h

/-- Every call keeps the keys, and what is deleted deleted. -/
theorem burying_call {call : Call} (hcall : call.bySellerOrAdmin) :
    Burying KeysOwn call.prog (fun _ => KeysOwn) fun _ => KeysOwn := by
  cases call with
  | publish user listing => exact burying_publish
  | adminHide listing reason =>
    refine Burying.then burying_requireListing fun row => ?_
    refine Discipline.Flow.ite (fun _ => Stepwise.throw fun _ h => h.1) fun hstatus => ?_
    refine burying_moderate (fun _ h => h) (fun _ => Stmt.noConfusion) ?_
    simp [not_not.mp hstatus]
  | adminUnhide listing =>
    refine Burying.then burying_requireListing fun row => ?_
    refine Discipline.Flow.ite (fun _ => Stepwise.throw fun _ h => h.1) fun hstatus => ?_
    refine burying_moderate (fun _ h => h) (fun _ => Stmt.noConfusion) ?_
    have hhidden : row.status = .hidden := not_not.mp (not_or.mp hstatus).1
    simp [hhidden]
  | update user listing dto =>
    refine burying_only (Call.only_issues _) (fun s c w hs _ => Or.inr ?_) fun _ hs => hs.elim
    cases s <;> trivial
  | remove user listing =>
    refine burying_only (Call.only_issues _) (fun s c w hs _ => Or.inr ?_) fun _ hs => hs.elim
    cases s <;> trivial
  | adminDelete listing =>
    refine burying_only (Call.only_issues _) (fun s c w hs _ => Or.inr ?_) fun _ hs => hs.elim
    cases s <;> trivial
  | reorderPhotos user listing ids =>
    refine burying_only (Call.only_issues _) (fun s c w hs _ => Or.inr ?_) fun _ hs => hs.elim
    cases s <;> trivial
  | unpublish user listing =>
    refine burying_only (Call.only_issues _) (fun s c w hs hok => ?_) fun _ hs => hs.elim
    cases s with
    | unpublish listing' => simpa [admitted, writesAlive, Stmt.Harmless] using hok
    | _ => exact hs.elim
  | markSold user listing =>
    refine burying_only (Call.only_issues _) (fun s c w hs hok => ?_) fun _ hs => hs.elim
    cases s with
    | markSold listing' => simpa [admitted, writesAlive, Stmt.Harmless] using hok
    | _ => exact hs.elim
  | addPhoto user listing dto =>
    refine burying_only (Call.only_issues _) (fun s c w hs hok => ?_) fun row hs => ?_
    · cases s with
      | putObject key => exact Or.inr trivial
      | publicPut writer key =>
        obtain ⟨rfl, -⟩ := hs
        simpa [admitted, writesAlive, Stmt.Harmless] using hok
      | createPhoto row => simpa [admitted, writesAlive, Stmt.Harmless] using hok
      | _ => exact hs.elim
    · rw [hs.1, hs.2]
      rfl
  | _ => cases hcall

end Calls

section Runs

variable {w : World} {calls : List Call} {g g' : Run Unit}

/-- While the four calls that do not look write on listings that are not deleted, a deleted listing
stays deleted, and gains no photo and no public object. -/
theorem deleted_final (w : World) (calls : List Call) (g g' : Run Unit)
    (hcalls : ∀ call ∈ calls, call.bySellerOrAdmin) (hw : KeysOwn w)
    (hg : Pool.Reach machine noRecord writesAlive (sequence w () calls) g)
    (hg' : Pool.Reach machine noRecord writesAlive g g') : Buried g.state g'.state := by
  have hprog :
      Burying KeysOwn (series (calls.map Call.prog)) (fun _ => KeysOwn) fun _ => KeysOwn := by
    refine Stepwise.series fun p hp => ?_
    obtain ⟨call, hcall, rfl⟩ := List.mem_map.mp hp
    exact burying_call (hcalls call hcall)
  have hstart := hprog.stands_start (w := w) () hw
  have hobs (c : Fate) (w : World) : (machine.env c w).still = w.still := rfl
  have henv (c : Fate) (w : World) : Buried w (machine.env c w) := fun _ h =>
    ⟨h, fun _ row hrow hl => ⟨row, hrow, hl⟩, fun _ hkey _ => hkey⟩
  have hok (t : Nat) (l : Label Site Stmt) (c : Fate) (x : World × Unit)
      (h : writesAlive t l c x = true) : admitted l c x.1 := h
  have hstands := (Stepwise.stands_reach hobs henv (fun _ _ h => h) Buried.refl
    (fun _ _ _ h h' => h.trans h') hok hstart hg).2
  exact (Stepwise.stands_reach hobs henv (fun _ _ h => h) Buried.refl
    (fun _ _ _ h h' => h.trans h') hok hstands hg').1

end Runs

section Revival

/-- A deleted listing that a seller publishes again. -/
def deletedListing : Listing := { liveListing with status := .deleted, reportId := none }

def onlyDeleted : World := showroom (Table.empty.set 1 deletedListing)

theorem keysOwn_showroom (rows : Table ListingRef Listing) : KeysOwn (showroom rows) :=
  fun _ _ h => nomatch h

/-- Whether the listing is deleted. -/
def isGone (g : Run Unit) : Bool := g.state.gone 1

/-- A publish of a deleted listing makes it live. -/
theorem deleted_then_published : ¬ DeletionLaw anyStep := by
  intro hlaw
  have hrun : Pool.observe machine noRecord anyStep isGone [.run 0 .ok] (.run 0 .ok)
      (sequence onlyDeleted () [.publish 1 1]) = some (true, false) := by decide +kernel
  obtain ⟨g, g', hg, hm, hs, hbefore, hafter⟩ := Pool.observe_eq hrun
  have hburied := hlaw _ _ g g' (by decide) (keysOwn_showroom _) hg (.next .start hm hs)
  have hgone := (hburied 1 hbefore).gone
  rw [show g'.state.gone 1 = false from hafter] at hgone
  cases hgone

def newPrice : UpdateListing := ⟨some 90, none, none, none, none, none⟩

/-- A listing that is taken down and removed is not edited any more. -/
theorem deleted_final_removed : ∃ g g' : Run Unit, isGone g = true ∧
    StaysGone g.state g'.state 1 := by
  have hrun : Pool.observe machine noRecord writesAlive isGone
      (List.replicate 7 (.run 0 .ok)) (.run 0 .ok)
      (sequence (showroom (Table.empty.set 1 liveListing)) ()
        [.unpublish 1 1, .remove 1 1, .update 1 1 newPrice]) = some (true, true) := by
    decide +kernel
  obtain ⟨g, g', hg, hm, hs, hbefore, -⟩ := Pool.observe_eq hrun
  exact ⟨g, g', hbefore, deleted_final _ _ g g' (by decide) (keysOwn_showroom _) hg
    (.next .start hm hs) 1 hbefore⟩

end Revival

end CarSalePro.Listings
