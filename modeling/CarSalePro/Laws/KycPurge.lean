import CarSalePro.Interleave.Serial
import CarSalePro.Kyc.Effects

namespace CarSalePro.Kyc

open Store Interleave Prog

/-- The document a key is of: the key names its application and its kind. -/
def KeyOf (key : ApplicationRef × KycDocumentKind) (s3Key : String) : Prop :=
  ∃ upload extension, upload.application = key.1 ∧ upload.kind = key.2 ∧
    s3Key = objectKey upload extension

/-- Every document is stored under a key of its own. -/
def World.Keyed (w : World) : Prop :=
  ∀ key row, w.documents.get key = some row → KeyOf key row.s3Key

/-- A document that is not purged names the object. -/
def World.names (w : World) (s3Key : String) (bucket : Option String) : Prop :=
  ∃ key row, w.documents.get key = some row ∧ row.purgedAt = none ∧ row.s3Key = s3Key ∧
    row.bucket = bucket

/-- No object of a purged document is left, and a later purge can find every object there is. -/
structure World.Truthful (w : World) : Prop where
  purged : ∀ key row, w.documents.get key = some row → row.purgedAt.isSome →
    w.objects.get row.s3Key ≠ some row.bucket
  named : ∀ s3Key bucket, w.objects.get s3Key = some bucket → w.names s3Key bucket

def noRecord : Recorder Site Stmt World Unit := fun _ _ _ _ h => h

/-- The calls one after another, each running to its end before the next begins. -/
def sequence (w : World) (calls : List Call) : Run Unit :=
  ⟨w, (), [Prog.series (calls.map Call.prog)]⟩

/-- Deletes succeed, a row is written once its object is, and a purge finds the bucket
configured. -/
def storageServes : StepGuard Unit := fun _ l c x =>
  match l with
  | .call (.deleteObject _ _) | .call (.upsertDocument _ _ _) => c = .ok
  | .call (.stampPurged _ _) => x.1.kycConfigured
  | _ => true

/-- After every sequence of calls whose steps meet `C`, the purges have told the truth. -/
def PurgeLaw (C : StepGuard Unit) : Prop :=
  ∀ (w : World) (calls : List Call) (g : Run Unit), w.Keyed → w.Truthful →
    Pool.Reach machine noRecord C (sequence w calls) g → g.AllEnded → g.state.Truthful

section Keys

theorem split_mark {c : Char} {a b x y : List Char} (ha : c ∉ a) (hb : c ∉ b)
    (h : a ++ c :: x = b ++ c :: y) : a = b ∧ x = y := by
  induction a generalizing b with
  | nil =>
    cases b with
    | nil => exact ⟨rfl, (List.cons.inj h).2⟩
    | cons d b => exact absurd ((List.cons.inj h).1 ▸ List.mem_cons_self) hb
  | cons d a ih =>
    cases b with
    | nil => exact absurd ((List.cons.inj h).1 ▸ List.mem_cons_self) ha
    | cons e b =>
      obtain ⟨hhead, htail⟩ := List.cons.inj h
      obtain ⟨hab, hxy⟩ := ih (fun hc => ha (List.mem_cons_of_mem d hc))
        (fun hc => hb (List.mem_cons_of_mem e hc)) htail
      exact ⟨by rw [hhead, hab], hxy⟩

theorem toList_digits (n : Nat) : (toString n).toList = Nat.toDigits 10 n := by
  rw [Nat.toString_eq_repr, Nat.toList_repr]

theorem slash_digits (n : Nat) : '/' ∉ (toString n).toList := by
  intro h
  rw [toList_digits] at h
  have hdigit := Nat.isDigit_of_mem_toDigits (by decide) (by decide) h
  exact absurd hdigit (by decide)

theorem digits_injective {n m : Nat} (h : (toString n).toList = (toString m).toList) : n = m := by
  rw [toList_digits, toList_digits] at h
  have hvalue := congrArg (fun digits => Nat.ofDigitChars 10 digits 0) h
  simpa only [Nat.ofDigitChars_ten_toDigits] using hvalue

theorem dash_kind (kind : KycDocumentKind) : '-' ∉ kind.name.toList := by
  cases kind <;> decide

theorem kind_injective {kind kind' : KycDocumentKind} (h : kind.name = kind'.name) :
    kind = kind' := by
  cases kind <;> cases kind' <;> first | rfl | exact absurd h (by decide)

theorem toList_objectKey (upload : Upload) (extension : String) :
    (objectKey upload extension).toList = "kyc/".toList ++
      ((toString upload.user).toList ++ '/' :: ((toString upload.application).toList ++
        '/' :: (upload.kind.name.toList ++
          '-' :: (upload.uuid.toList ++ '.' :: extension.toList)))) := by
  simp [objectKey, String.toList_append]

/-- A key is of one document only. -/
theorem KeyOf.unique {key key' : ApplicationRef × KycDocumentKind} {s3Key : String}
    (h : KeyOf key s3Key) (h' : KeyOf key' s3Key) : key = key' := by
  obtain ⟨upload, extension, happlication, hkind, hkey⟩ := h
  obtain ⟨upload', extension', happlication', hkind', hkey'⟩ := h'
  have hlist := congrArg String.toList (hkey.symm.trans hkey')
  rw [toList_objectKey, toList_objectKey] at hlist
  obtain ⟨-, hrest⟩ := split_mark (slash_digits _) (slash_digits _) (List.append_cancel_left hlist)
  obtain ⟨hdigits, hrest⟩ := split_mark (slash_digits _) (slash_digits _) hrest
  obtain ⟨hname, -⟩ := split_mark (dash_kind _) (dash_kind _) hrest
  apply Prod.ext
  · rw [← happlication, ← happlication']
    exact digits_injective hdigits
  · rw [← hkind, ← hkind']
    exact kind_injective (String.toList_injective hname)

end Keys

section Moves

variable {w w' : World} {key : ApplicationRef × KycDocumentKind} {s3Key : String}

/-- Purges have told the truth, and every document has a key of its own. -/
structure World.Sound (w : World) : Prop where
  keyed : w.Keyed
  truthful : w.Truthful

theorem World.Sound.congr (h : w.Sound) (hdocuments : w'.documents = w.documents)
    (hobjects : w'.objects = w.objects) : w'.Sound := by
  refine ⟨?_, ?_, ?_⟩
  · rw [World.Keyed, hdocuments]
    exact h.keyed
  · rw [hdocuments, hobjects]
    exact h.truthful.purged
  · unfold World.names
    rw [hdocuments, hobjects]
    exact h.truthful.named

/-- An object less is nothing to name. -/
theorem World.Sound.delete (h : w.Sound) (bucket : Option String) :
    ({ w with objects := w.objects.deleteMany fun key' bucket' =>
      key' = s3Key && bucket' = bucket } : World).Sound := by
  refine ⟨h.keyed, fun key row hrow hpurged heq => ?_, fun k b hobject => ?_⟩
  · rw [Table.get_deleteMany] at heq
    exact h.truthful.purged key row hrow hpurged (Option.mem_filter_iff.mp heq).1
  · rw [Table.get_deleteMany] at hobject
    exact h.truthful.named k b (Option.mem_filter_iff.mp hobject).1

/-- A stamp is true when the object is gone. -/
theorem World.Sound.stamp {row : KycDocument} {stamped : Instant} (h : w.Sound)
    (hrow : w.documents.get key = some row) (hgone : w.objects.get row.s3Key ≠ some row.bucket) :
    ({ w with documents :=
      w.documents.set key { row with purgedAt := some stamped } } : World).Sound := by
  refine ⟨fun key' row' hrow' => ?_, fun key' row' hrow' hpurged => ?_, fun k b hobject => ?_⟩
  · rw [Table.get_set] at hrow'
    split at hrow'
    next heq =>
      cases hrow'
      rw [heq]
      exact h.keyed key row hrow
    next => exact h.keyed key' row' hrow'
  · rw [Table.get_set] at hrow'
    split at hrow'
    next =>
      cases hrow'
      exact hgone
    next => exact h.truthful.purged key' row' hrow' hpurged
  · obtain ⟨key', row', hrow', hpurged, hkey, hbucket⟩ := h.truthful.named k b hobject
    refine ⟨key', row', ?_, hpurged, hkey, hbucket⟩
    rw [Table.get_set, if_neg]
    · exact hrow'
    · rintro rfl
      rw [hrow] at hrow'
      cases hrow'
      rw [hkey, hbucket] at hgone
      exact hgone hobject

/-- An upload has stored its object and its row, and the object it displaced is still there. -/
structure World.Replaced (w : World) (previous : Option KycDocument) (s3Key : String) : Prop where
  keyed : w.Keyed
  purged : ∀ key row, w.documents.get key = some row → row.purgedAt.isSome →
    w.objects.get row.s3Key ≠ some row.bucket
  named : ∀ k b, w.objects.get k = some b → w.names k b ∨
    ∃ row, previous = some row ∧ row.s3Key ≠ s3Key ∧ k = row.s3Key ∧ b = row.bucket

theorem World.Sound.replace (stored : KycDocument) (h : w.Sound) (hkey : KeyOf key s3Key)
    (hstored : stored.s3Key = s3Key) (hfresh : stored.purgedAt = none)
    (hobjects : w'.objects = w.objects.set s3Key stored.bucket)
    (hdocuments : w'.documents = w.documents.set key stored) :
    w'.Replaced (w.documents.get key) s3Key := by
  refine ⟨fun key' row hrow => ?_, fun key' row hrow hpurged heq => ?_, fun k b hobject => ?_⟩
  · rw [hdocuments, Table.get_set] at hrow
    split at hrow
    next heq =>
      cases hrow
      rw [heq, hstored]
      exact hkey
    next => exact h.keyed key' row hrow
  · rw [hdocuments, Table.get_set] at hrow
    rw [hobjects, Table.get_set] at heq
    split at hrow
    next =>
      cases hrow
      rw [hfresh] at hpurged
      cases hpurged
    next hne =>
      split at heq
      next hsame =>
        have hother := h.keyed key' row hrow
        rw [hsame] at hother
        exact hne (hother.unique hkey)
      next => exact h.truthful.purged key' row hrow hpurged heq
  · rw [hobjects, Table.get_set] at hobject
    split at hobject
    next hsame =>
      cases hobject
      refine .inl ⟨key, stored, ?_, hfresh, hstored.trans hsame.symm, rfl⟩
      rw [hdocuments, Table.get_set, if_pos rfl]
    next hne =>
      obtain ⟨key', row, hrow, hpurged, hk, hb⟩ := h.truthful.named k b hobject
      by_cases hsame : key' = key
      · subst hsame
        exact .inr ⟨row, hrow, by rw [hk]; exact hne, hk.symm, hb.symm⟩
      · refine .inl ⟨key', row, ?_, hpurged, hk, hb⟩
        rw [hdocuments, Table.get_set, if_neg hsame]
        exact hrow

/-- Nothing was displaced. -/
theorem World.Replaced.done {previous : Option KycDocument} (h : w.Replaced previous s3Key)
    (hsame : ∀ row ∈ previous, row.s3Key = s3Key) : w.Sound := by
  refine ⟨h.keyed, h.purged, fun k b hobject => ?_⟩
  rcases h.named k b hobject with hnamed | ⟨row, hrow, hne, -⟩
  · exact hnamed
  · exact absurd (hsame row hrow) hne

/-- What was displaced is deleted. -/
theorem World.Replaced.delete {row : KycDocument} (h : w.Replaced (some row) s3Key) :
    ({ w with objects := w.objects.deleteMany fun key' bucket' =>
      key' = row.s3Key && bucket' = row.bucket } : World).Sound := by
  refine ⟨h.keyed, fun key row' hrow hpurged heq => ?_, fun k b hobject => ?_⟩
  · rw [Table.get_deleteMany] at heq
    exact h.purged key row' hrow hpurged (Option.mem_filter_iff.mp heq).1
  · rw [Table.get_deleteMany] at hobject
    obtain ⟨hobject, hkept⟩ := Option.mem_filter_iff.mp hobject
    rcases h.named k b hobject with hnamed | ⟨row', hrow, -, hk, hb⟩
    · exact hnamed
    · cases hrow
      simp [hk, hb] at hkept

end Moves

section Programs

/-- What of a world only its statements change. -/
def World.still (w : World) : World := { w with now := 0 }

theorem World.still_tick (c : Fate) (w : World) : (machine.env c w).still = w.still := rfl

/-- The steps of a run whose storage serves. -/
def serves (l : Label Site Stmt) (c : Fate) (w : World) : Prop := storageServes 0 l c (w, ()) = true

/-- From `P`, the program ends with an answer in `Q` or an error in `X`, while the storage
serves. -/
abbrev Telling {α : Type} (P : World → Prop) (p : Act α) (Q : α → World → Prop)
    (X : Err → World → Prop) : Prop :=
  Serial machine World.still serves (fun _ => True) P p Q X

variable {α : Type} {w : World}

theorem World.Sound.still (h : w.Sound) : w.still.Sound := h.congr rfl rfl

/-- Statements that touch neither documents nor objects. -/
def Stmt.clerical : Stmt → Prop
  | .putObject _ | .upsertDocument _ _ _ | .deleteObject _ _ | .stampPurged _ _ => False
  | _ => True

theorem clerical_exec {s : Stmt} (hs : s.clerical) (c : Fate) (w : World) :
    (World.exec s c w).2.documents = w.documents ∧ (World.exec s c w).2.objects = w.objects := by
  cases c with
  | fails =>
    rw [exec_fails]
    exact ⟨rfl, rfl⟩
  | ok =>
    have hdecide (application : ApplicationRef) (f : KycApplication → KycApplication)
        (user : UserRef) (verified : Bool) :
        (w.decide application f user verified).2.documents = w.documents ∧
          (w.decide application f user verified).2.objects = w.objects := by
      rcases decide_cases w application f user verified with h | ⟨row, -, h⟩ <;>
        rw [h] <;> exact ⟨rfl, rfl⟩
    have hupdate (application : ApplicationRef) (f : KycApplication → KycApplication) :
        (w.updateApplication application f).2.documents = w.documents ∧
          (w.updateApplication application f).2.objects = w.objects := by
      rcases updateApplication_cases w application f with h | ⟨row, -, h⟩ <;>
        rw [h] <;> exact ⟨rfl, rfl⟩
    cases s with
    | createApplication user => exact ⟨rfl, rfl⟩
    | hold application submittedAt => exact hupdate application _
    | autoApprove application user submittedAt => exact hdecide application _ user true
    | beginReview application => exact hupdate application _
    | approve application user admin reviewedAt => exact hdecide application _ user true
    | reject application user admin reason reviewedAt => exact hdecide application _ user false
    | putObject key | upsertDocument application kind stored | deleteObject key bucket
    | stampPurged application kind => exact hs.elim

theorem telling_clerical {p : Act α} (hp : p.Only Stmt.clerical) :
    Telling World.Sound p (fun _ => World.Sound) fun _ => World.Sound := by
  refine Serial.only hp (fun _ _ => trivial) fun s c w hs _ hw => ?_
  obtain ⟨hdocuments, hobjects⟩ := clerical_exec hs c w
  exact hw.congr hdocuments hobjects

/-- The application of an upload is on file, and its documents are as they were. -/
structure Filing (application : ApplicationRef) (w : World) : Prop where
  sound : w.Sound
  filed : (w.applications.get application).isSome

theorem telling_owned {site : Site} {user : UserRef} {application : ApplicationRef} :
    Telling World.Sound (requireOwnedApplication site user application)
      (fun _ => Filing application) fun _ => World.Sound := by
  have hread : Telling World.Sound (fetch site fun w =>
      (w.applications.get application).map fun row => (row, w.documentsOf application) :
        Act (Option (KycApplication × DocumentList)))
      (fun found w => w.Sound ∧ (found.isSome → (w.applications.get application).isSome))
      fun _ => World.Sound := by
    refine Serial.ask (fun _ _ => trivial) (fun w hw => ⟨hw, fun hfound => ?_⟩) fun _ _ h => h
    rw [Option.isSome_map] at hfound
    exact hfound
  refine Discipline.Flow.seq hread fun found => ?_
  cases found with
  | none => exact Serial.throw fun _ h => h.1
  | some found =>
    exact Discipline.Flow.ite (fun _ => Serial.throw fun _ h => h.1)
      fun _ => Serial.pure fun _ h => ⟨h.1, h.2 rfl⟩

/-- An upload, from its object to the end. -/
theorem telling_storeDocument {upload : Upload} {plan : KycObjectPlan} {body : List UInt8} :
    Telling (Filing upload.application) (storeDocument upload plan body) (fun _ => World.Sound)
      fun _ => World.Sound := by
  have hhash : Telling (Filing upload.application)
      (fetch .configured fun w => w.sha256 upload.file.buffer : Act String)
      (fun _ => Filing upload.application) fun _ => World.Sound :=
    Serial.ask (fun _ _ => trivial) (fun _ h => h) fun _ _ h => h.sound
  refine Discipline.Flow.seq hhash fun hash => ?_
  have hprevious : Telling (Filing upload.application)
      (fetch (.uploadDocument upload.application)
        (·.documents.get (upload.application, upload.kind)) : Act (Option KycDocument))
      (fun previous w => Filing upload.application w ∧
        w.documents.get (upload.application, upload.kind) = previous) fun _ => World.Sound :=
    Serial.ask (fun _ _ => trivial) (fun _ h => ⟨h, rfl⟩) fun _ _ h => h.sound
  refine Discipline.Flow.seq hprevious fun previous => ?_
  have hput : Telling (fun w => Filing upload.application w ∧
        w.documents.get (upload.application, upload.kind) = previous)
      (putObject (objectKey upload plan.extension))
      (fun bucket w => ∃ w₀ : World, Filing upload.application w₀ ∧
        w₀.documents.get (upload.application, upload.kind) = previous ∧
        w = { w₀ with objects := w₀.objects.set (objectKey upload plan.extension) bucket })
      fun _ => World.Sound := by
    refine Serial.perform fun c w hw _ => ⟨trivial, ?_⟩
    cases c with
    | fails => exact hw.1.sound
    | ok => exact ⟨w.still, hw.1, hw.2, rfl⟩
  refine Discipline.Flow.seq hput fun bucket => ?_
  have hupsert : Telling (fun w => ∃ w₀ : World, Filing upload.application w₀ ∧
        w₀.documents.get (upload.application, upload.kind) = previous ∧
        w = { w₀ with objects := w₀.objects.set (objectKey upload plan.extension) bucket })
      (upsertDocument upload.application upload.kind
        ⟨objectKey upload plan.extension, bucket, some hash, idNumberHashOf upload⟩)
      (fun _ w => w.Replaced previous (objectKey upload plan.extension))
      fun _ => World.Sound := by
    refine Serial.perform fun c w hw hok => ⟨trivial, ?_⟩
    obtain ⟨w₀, hfiling, hprevious, hw⟩ := hw
    have hc : c = .ok := by simpa [serves, storageServes] using hok
    subst hc
    have happlications : w.applications = w₀.applications := congrArg (·.applications) hw
    have hdocuments : w.documents = w₀.documents := congrArg (·.documents) hw
    have hobjects : w.objects = w₀.objects.set (objectKey upload plan.extension) bucket :=
      congrArg (·.objects) hw
    have hfiled : (w.applications.get upload.application).isNone = false := by
      rw [happlications, Option.isNone_eq_false_iff]
      exact hfiling.filed
    have hkey : KeyOf (upload.application, upload.kind) (objectKey upload plan.extension) :=
      ⟨upload, plan.extension, rfl, rfl, rfl⟩
    simp only [machine, World.exec, World.write, World.upsertDocument, hfiled, Bool.false_eq_true,
      if_false]
    rw [← hprevious]
    let stored : KycDocument := ⟨objectKey upload plan.extension, bucket, some hash,
      idNumberHashOf upload, w.now, none⟩
    exact World.Sound.replace stored hfiling.sound hkey rfl rfl hobjects (by rw [← hdocuments]; rfl)
  refine Discipline.Flow.seq hupsert fun row => ?_
  have hdisplaced : Telling (fun w => w.Replaced previous (objectKey upload plan.extension))
      (deleteDisplaced previous (objectKey upload plan.extension)) (fun _ => World.Sound)
      fun _ => World.Sound := by
    cases previous with
    | none => exact Serial.pure fun _ h => h.done (by simp)
    | some row =>
      refine Discipline.Flow.when (fun _ => Discipline.Flow.quietly ?_) fun hsame => ?_
      · refine Serial.perform fun c w hw hok => ⟨trivial, ?_⟩
        have hc : c = .ok := by simpa [serves, storageServes] using hok
        subst hc
        exact hw.delete
      · rw [not_not] at hsame
        refine fun P hP w hw => (hP w hw).done fun other hother => ?_
        cases hother
        exact hsame
  exact Discipline.Flow.seq hdisplaced fun _ => Serial.pure fun _ h => h

theorem telling_upload {upload : Upload} :
    Telling World.Sound (uploadDocument upload) (fun _ => World.Sound) fun _ => World.Sound := by
  refine Discipline.Flow.seq telling_owned fun owned => ?_
  refine Discipline.Flow.ite (fun _ => Serial.throw fun _ h => h.sound) fun _ => ?_
  refine Discipline.Flow.ite (fun _ => Serial.throw fun _ h => h.sound) fun _ => ?_
  have hconfigured : Telling (Filing upload.application) isKycConfigured
      (fun _ => Filing upload.application) fun _ => World.Sound :=
    Serial.ask (fun _ _ => trivial) (fun _ h => h) fun _ _ h => h.sound
  refine Discipline.Flow.seq hconfigured fun configured => ?_
  refine Discipline.Flow.ite (fun _ => Serial.throw fun _ h => h.sound) fun _ => ?_
  have hplan : Telling (Filing upload.application) (planOf upload.file)
      (fun _ => Filing upload.application) fun _ => World.Sound := by
    unfold planOf
    cases resolveKycObject upload.file with
    | ok plan => exact Serial.pure fun _ h => h
    | error e => exact Serial.throw fun _ h => h.sound
  refine Discipline.Flow.seq hplan fun plan => ?_
  have hbody : Telling (Filing upload.application) (bodyOf upload plan)
      (fun _ => Filing upload.application) fun _ => World.Sound := by
    refine Discipline.Flow.ite (fun _ => ?_) fun _ => Serial.pure fun _ h => h
    cases upload.compressed with
    | none => exact Serial.throw fun _ h => h.sound
    | some data => exact Serial.pure fun _ h => h
  exact Discipline.Flow.seq hbody fun body => telling_storeDocument

/-- The documents a purge has selected are on file under the keys it read. -/
structure Purging (documents : DocumentList) (w : World) : Prop where
  sound : w.Sound
  selected : ∀ d ∈ documents, ∃ row, w.documents.get d.1 = some row ∧ row.s3Key = d.2.s3Key ∧
    row.bucket = d.2.bucket

/-- One document is purged, and the rest is still on file. -/
theorem telling_purgeDocument {document : (ApplicationRef × KycDocumentKind) × KycDocument}
    {rest : DocumentList} :
    Telling (Purging (document :: rest)) (purgeDocument document) (fun _ => Purging rest)
      fun _ => World.Sound := by
  have hconfigured : Telling (Purging (document :: rest)) isKycConfigured
      (fun configured w => Purging (document :: rest) w ∧ w.kycConfigured = configured)
      fun _ => World.Sound :=
    Serial.ask (fun _ _ => trivial) (fun _ h => ⟨h, rfl⟩) fun _ _ h => h.sound
  refine Discipline.Flow.seq hconfigured fun configured => ?_
  have hdelete : Telling
      (fun w => Purging (document :: rest) w ∧ w.kycConfigured = configured)
      (Prog.when configured (quietly
        (Prog.perform (Stmt.deleteObject document.2.s3Key document.2.bucket))))
      (fun _ w => Purging (document :: rest) w ∧ (w.kycConfigured = true →
        w.objects.get document.2.s3Key ≠ some document.2.bucket)) fun _ => World.Sound := by
    refine Discipline.Flow.when (fun _ => Discipline.Flow.quietly ?_) fun hno => ?_
    · refine Serial.perform fun c w hw hok => ⟨trivial, ?_⟩
      have hc : c = .ok := by simpa [serves, storageServes] using hok
      subst hc
      refine ⟨⟨hw.1.sound.delete _, hw.1.selected⟩, fun _ heq => ?_⟩
      have hkept := (Option.mem_filter_iff.mp heq).2
      simp at hkept
    · refine fun P hP w hw => ?_
      obtain ⟨hpurging, hconfig⟩ := hP w hw
      exact ⟨hpurging, fun hyes => absurd (hconfig.symm.trans hyes) hno⟩
  refine Discipline.Flow.seq hdelete fun _ => ?_
  have hstamp : Telling
      (fun w => Purging (document :: rest) w ∧ (w.kycConfigured = true →
        w.objects.get document.2.s3Key ≠ some document.2.bucket))
      (Prog.perform (Stmt.stampPurged document.1.1 document.1.2)) (fun _ => Purging rest)
      fun _ => World.Sound := by
    refine Serial.perform fun c w hw hok => ⟨trivial, ?_⟩
    obtain ⟨hpurging, hgone⟩ := hw
    have hconfig : w.kycConfigured = true := by simpa [serves, storageServes] using hok
    cases c with
    | fails => exact hpurging.sound
    | ok =>
      obtain ⟨row, hrow, hkey, hbucket⟩ := hpurging.selected document List.mem_cons_self
      have hget : w.documents.get (document.1.1, document.1.2) = some row := hrow
      have habsent : w.objects.get row.s3Key ≠ some row.bucket := by
        rw [hkey, hbucket]
        exact hgone hconfig
      simp only [machine, World.exec, World.write, hget]
      refine ⟨World.Sound.stamp hpurging.sound hget habsent, fun d hd => ?_⟩
      obtain ⟨row', hrow', hkey', hbucket'⟩ := hpurging.selected d (List.mem_cons_of_mem _ hd)
      by_cases hsame : d.1 = document.1
      · have hthis : row' = row := by
          have hboth : some row' = some row := hrow'.symm.trans (hsame ▸ hrow)
          exact Option.some.inj hboth
        refine ⟨{ row with purgedAt := some w.now }, ?_, hthis ▸ hkey', hthis ▸ hbucket'⟩
        show (w.documents.set (document.1.1, document.1.2) _).get d.1 = _
        rw [Table.get_set, if_pos hsame]
      · refine ⟨row', ?_, hkey', hbucket'⟩
        show (w.documents.set (document.1.1, document.1.2) _).get d.1 = _
        rw [Table.get_set, if_neg hsame]
        exact hrow'
  exact Discipline.Flow.seq hstamp fun _ => Serial.pure fun _ h => h

theorem telling_purgeAll (documents : DocumentList) :
    Telling (Purging documents) (forEach documents purgeDocument) (fun _ => World.Sound)
      fun _ => World.Sound := by
  induction documents with
  | nil => exact Serial.pure fun _ h => h.sound
  | cons document rest ih => exact Discipline.Flow.bind telling_purgeDocument fun _ => ih

theorem telling_purge : Telling World.Sound purgeOldDocuments (fun _ => World.Sound)
    fun _ => World.Sound := by
  have hclock : Telling World.Sound readClock (fun _ => World.Sound) fun _ => World.Sound :=
    Serial.ask (fun _ _ => trivial) (fun _ h => h) fun _ _ h => h
  refine Discipline.Flow.seq hclock fun now => ?_
  have hread : Telling World.Sound
      (fetch .purgeOldDocuments (·.purgeable (now - (kycRetentionDays : Instant) * 86400000)) :
        Act DocumentList)
      Purging fun _ => World.Sound := by
    refine Serial.ask (fun _ _ => trivial) (fun w hw => ⟨hw, fun d hd => ?_⟩) fun _ _ h => h
    obtain ⟨hrow, -⟩ := Table.mem_findMany.mp hd
    exact ⟨d.2, hrow, rfl, rfl⟩
  refine Discipline.Flow.seq hread fun documents => ?_
  exact Discipline.Flow.seq (telling_purgeAll documents) fun _ => Serial.pure fun _ h => h

/-- Every call leaves a world in which the purges have told the truth. -/
theorem telling_call (call : Call) :
    Telling World.Sound call.prog (fun _ => World.Sound) fun _ => World.Sound := by
  have hclerical (h : ∀ s, call.Issues s → s.clerical) :
      Telling World.Sound call.prog (fun _ => World.Sound) fun _ => World.Sound :=
    telling_clerical (call.only_issues.mono h)
  cases call with
  | upload request => exact Discipline.Flow.seq telling_upload fun _ => Serial.pure fun _ h => h
  | purge => exact Discipline.Flow.seq telling_purge fun _ => Serial.pure fun _ h => h
  | create user => exact hclerical fun s hs => by cases s <;> first | exact hs.elim | trivial
  | submit user application accepted =>
    exact hclerical fun s hs => by cases s <;> first | exact hs.elim | trivial
  | view application =>
    exact hclerical fun s hs => by cases s <;> first | exact hs.elim | trivial
  | approve application admin =>
    exact hclerical fun s hs => by cases s <;> first | exact hs.elim | trivial
  | reject application admin reason =>
    exact hclerical fun s hs => by cases s <;> first | exact hs.elim | trivial

end Programs

/-- While the storage serves, every purge tells the truth. -/
theorem purge_truthful (w : World) (calls : List Call) (g : Run Unit) (hkeyed : w.Keyed)
    (htruthful : w.Truthful)
    (hg : Pool.Reach machine noRecord storageServes (sequence w calls) g) (hend : g.AllEnded) :
    g.state.Truthful := by
  have hcalls : Telling World.Sound (Prog.series (calls.map Call.prog)) (fun _ => World.Sound)
      fun _ _ => False := by
    refine Serial.series fun p hp => ?_
    obtain ⟨call, -, rfl⟩ := List.mem_map.mp hp
    exact telling_call call
  have hstart : w.still.Sound := World.Sound.still ⟨hkeyed, htruthful⟩
  obtain ⟨-, q, hq, hstanding⟩ :=
    Serial.reach hcalls World.still_tick (fun _ _ _ _ h => h) hstart trivial hg
  have hq' : q.Ended := hend q (by rw [hq]; exact List.mem_singleton_self q)
  cases q with
  | ret a =>
    have hstill : g.state.still.Sound := hstanding
    have hsound : g.state.Sound := hstill.congr rfl rfl
    exact hsound.truthful
  | raise e => exact hstanding.elim
  | ask l f k => cases hq'
  | call s k => cases hq'

section FailedDelete

def oldFront : KycDocument := ⟨objectKey
  ⟨1, 1, .idFront, ⟨none, []⟩, "u", none, none⟩ "jpg", none, none, none, 0, none⟩

/-- An application rejected long ago, with the front of an identity document. -/
def rejectedLongAgo : World where
  applications := Table.empty.set 1
    ⟨1, .rejected, some "unreadable", some (.admin 9), some 0, some 0, some 0, none⟩
  documents := Table.empty.set (1, .idFront) oldFront
  users := Table.empty.set 1 false
  objects := Table.empty.set oldFront.s3Key none
  now := 91 * 86400000
  kycConfigured := true
  kycBucket := none
  sha256 := fun _ => "hash"

theorem rejectedLongAgo_sound : rejectedLongAgo.Sound := by
  have honly (key : ApplicationRef × KycDocumentKind) (row : KycDocument)
      (h : rejectedLongAgo.documents.get key = some row) :
      key = (1, .idFront) ∧ row = oldFront := by
    change (if key = (1, .idFront) then some oldFront else none) = some row at h
    split at h
    next hkey =>
      cases h
      exact ⟨hkey, rfl⟩
    next => cases h
  refine ⟨fun key row hrow => ?_, fun key row hrow hpurged => ?_, fun k b hobject => ?_⟩
  · obtain ⟨rfl, rfl⟩ := honly key row hrow
    exact ⟨_, "jpg", rfl, rfl, rfl⟩
  · obtain ⟨rfl, rfl⟩ := honly key row hrow
    cases hpurged
  · change (if k = oldFront.s3Key then some none else none) = some b at hobject
    split at hobject
    next hkey =>
      cases hobject
      exact ⟨(1, .idFront), oldFront, rfl, rfl, hkey.symm, rfl⟩
    next => cases hobject

/-- Whether the document is stamped, and what is left of its object. -/
def frontOf (g : Run Unit) : Bool × Option Bool × Bool :=
  (g.AllEnded, (g.state.documents.get (1, .idFront)).map (·.purgedAt.isSome),
    (g.state.documents.get (1, .idFront)).any fun row =>
      g.state.objects.get row.s3Key = some row.bucket)

/-- A document is stamped purged although its delete has failed. -/
theorem stamped_and_kept : ¬ PurgeLaw anyStep := by
  intro hlaw
  have hrun : Pool.observe machine noRecord anyStep frontOf
      [.run 0 .ok, .run 0 .ok, .run 0 .ok, .run 0 .fails] (.run 0 .ok)
      (sequence rejectedLongAgo [.purge]) =
      some ((false, some false, true), (true, some true, true)) := by decide +kernel
  obtain ⟨g, g', hg, hm, hs, -, hafter⟩ := Pool.observe_eq hrun
  have hreach := Pool.Reach.next hg hm hs
  obtain ⟨hend, hfront⟩ := Prod.mk.inj hafter
  obtain ⟨hstamp, hobject⟩ := Prod.mk.inj hfront
  obtain ⟨row, hrow, hstamped⟩ := Option.map_eq_some_iff.mp hstamp
  rw [hrow] at hobject
  have htruthful := hlaw _ _ g' rejectedLongAgo_sound.keyed rejectedLongAgo_sound.truthful hreach
    (by simpa using hend)
  exact htruthful.purged _ row hrow hstamped (of_decide_eq_true hobject)

/-- The same purge when the delete succeeds. -/
theorem purge_truthful_front : ∃ g : Run Unit, frontOf g = (true, some true, false) ∧
    g.state.Truthful := by
  have hrun : Pool.observe machine noRecord storageServes frontOf
      [.run 0 .ok, .run 0 .ok, .run 0 .ok, .run 0 .ok] (.run 0 .ok)
      (sequence rejectedLongAgo [.purge]) =
      some ((false, some false, false), (true, some true, false)) := by decide +kernel
  obtain ⟨g, g', hg, hm, hs, -, hafter⟩ := Pool.observe_eq hrun
  have hend : g'.AllEnded := by
    have hfirst := congrArg Prod.fst hafter
    simpa [frontOf] using hfirst
  exact ⟨g', hafter, purge_truthful _ _ g' rejectedLongAgo_sound.keyed
    rejectedLongAgo_sound.truthful (Pool.Reach.next hg hm hs) hend⟩

end FailedDelete

end CarSalePro.Kyc
