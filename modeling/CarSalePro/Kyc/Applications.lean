import CarSalePro.Interleave.Pool
import CarSalePro.Kyc.Upload
import CarSalePro.Store.Table

namespace CarSalePro.Kyc

open Store Interleave Prog

abbrev UserRef := Nat
abbrev ApplicationRef := Nat
abbrev Instant := Int

inductive KycStatus where
  | draft | submitted | inReview | approved | rejected
  deriving DecidableEq, Repr

namespace KycStatus

/-- `KYC_TRANSITIONS`. -/
def transitions : KycStatus → List KycStatus
  | draft => [submitted, approved]
  | submitted => [inReview, approved, rejected]
  | inReview => [approved, rejected]
  | approved => [rejected]
  | rejected => []

def name : KycStatus → String
  | draft => "DRAFT"
  | submitted => "SUBMITTED"
  | inReview => "IN_REVIEW"
  | approved => "APPROVED"
  | rejected => "REJECTED"

end KycStatus

/-- `ACTIVE_KYC_STATUSES`. -/
def activeKycStatuses : List KycStatus := [.draft, .submitted, .inReview]

/-- `KYC_MANUAL_REVIEW_AFTER_STATUSES`. -/
def manualReviewAfterStatuses : List KycStatus := [.rejected]

def kycRetentionDays : Nat := 90

def inspectorTermsVersion : String := "2026-09-23"

/-- Who decided: an admin, or nobody. -/
inductive Reviewer where
  | auto
  | admin (id : UserRef)
  deriving DecidableEq, Repr

structure KycApplication where
  userId : UserRef
  status : KycStatus
  rejectReason : Option String
  reviewedBy : Option Reviewer
  reviewedAt : Option Instant
  submittedAt : Option Instant
  termsAcceptedAt : Option Instant
  termsVersion : Option String
  deriving DecidableEq, Repr

/-- A document. The application and the kind are its key. -/
structure KycDocument where
  s3Key : String
  bucket : Option String
  sha256 : Option String
  idNumberHash : Option String
  uploadedAt : Instant
  purgedAt : Option Instant
  deriving DecidableEq, Repr

/-- What a statement stores of an upload. -/
structure StoredDocument where
  s3Key : String
  bucket : Option String
  sha256 : Option String
  idNumberHash : Option String
  deriving DecidableEq, Repr

/-- The state of the verification: its tables, the bucket, the clock and the configuration. -/
structure World where
  applications : Table ApplicationRef KycApplication
  documents : Table (ApplicationRef × KycDocumentKind) KycDocument
  /-- `kycVerified` of each user. -/
  users : Table UserRef Bool
  /-- The buckets of the objects there are. -/
  objects : Table String (Option String)
  now : Instant
  kycConfigured : Bool
  /-- The bucket a new object is recorded in: none unless a dedicated one is configured. -/
  kycBucket : Option String
  /-- `hashKycDocument`, of the bytes as uploaded. -/
  sha256 : List UInt8 → String

abbrev DocumentList := List ((ApplicationRef × KycDocumentKind) × KycDocument)

def World.documentsOf (w : World) (application : ApplicationRef) : DocumentList :=
  w.documents.findMany fun key _ => key.1 = application

section Queries

/-- How many other applications of the user were rejected. -/
def World.priorRejections (w : World) (user : UserRef) (application : ApplicationRef) : Nat :=
  (w.applications.findMany fun key row =>
    row.userId = user && key ≠ application && row.status ∈ manualReviewAfterStatuses).length

/-- How many documents that `matches` picks are on rejected applications of other users. -/
def World.reused (w : World) (user : UserRef) (picks : KycDocument → Bool) : Nat :=
  (w.documents.findMany fun key row => picks row && (w.applications.get key.1).any fun owner =>
    owner.userId ≠ user && owner.status ∈ manualReviewAfterStatuses).length

def fingerprints (documents : DocumentList) : List String := documents.filterMap (·.2.sha256)

def idNumberHashes (documents : DocumentList) : List String :=
  documents.filterMap (·.2.idNumberHash)

def World.reusedDocuments (w : World) (user : UserRef) (hashes : List String) : Nat :=
  w.reused user fun row => row.sha256.any (· ∈ hashes)

def World.reusedIdentity (w : World) (user : UserRef) (hashes : List String) : Nat :=
  w.reused user fun row => row.idNumberHash.any (· ∈ hashes)

end Queries

/-- One atomic statement against the database or the bucket. -/
inductive Stmt where
  | createApplication (user : UserRef)
  | putObject (key : String)
  | upsertDocument (application : ApplicationRef) (kind : KycDocumentKind) (stored : StoredDocument)
  | deleteObject (key : String) (bucket : Option String)
  | hold (application : ApplicationRef) (submittedAt : Instant)
  | autoApprove (application : ApplicationRef) (user : UserRef) (submittedAt : Instant)
  | beginReview (application : ApplicationRef)
  | approve (application : ApplicationRef) (user admin : UserRef) (reviewedAt : Instant)
  | reject (application : ApplicationRef) (user admin : UserRef) (reason : String)
      (reviewedAt : Instant)
  | stampPurged (application : ApplicationRef) (kind : KycDocumentKind)

def Stmt.Resp : Stmt → Type
  | createApplication _ => ApplicationRef
  | putObject _ => Option String
  | upsertDocument _ _ _ => KycDocument
  | hold _ _ | autoApprove _ _ _ | beginReview _ | approve _ _ _ _ | reject _ _ _ _ _ =>
    KycApplication
  | deleteObject _ _ | stampPurged _ _ => Unit

/-- What becomes of a step: it goes through, or the database or the bucket refuses it. -/
inductive Fate where
  | ok | fails
  deriving DecidableEq, Repr

/-- `kycApplication.update`. -/
def World.updateApplication (w : World) (application : ApplicationRef)
    (f : KycApplication → KycApplication) : Except Err KycApplication × World :=
  match w.applications.get application with
  | none => (.error .recordNotFound, w)
  | some row =>
    (.ok (f row), { w with applications := w.applications.set application (f row) })

/-- The transaction of an application's status and its user's flag. -/
def World.decide (w : World) (application : ApplicationRef) (f : KycApplication → KycApplication)
    (user : UserRef) (kycVerified : Bool) : Except Err KycApplication × World :=
  match w.applications.get application, w.users.get user with
  | some row, some _ => (.ok (f row), { w with
      applications := w.applications.set application (f row)
      users := w.users.set user kycVerified })
  | _, _ => (.error .recordNotFound, w)

/-- A new document, or another file in place of the one there was. -/
def World.upsertDocument (w : World) (application : ApplicationRef) (kind : KycDocumentKind)
    (stored : StoredDocument) : Except Err KycDocument × World :=
  if (w.applications.get application).isNone then (.error .foreignKey, w)
  else
    let row : KycDocument :=
      ⟨stored.s3Key, stored.bucket, stored.sha256, stored.idNumberHash, w.now, none⟩
    (.ok row, { w with documents := w.documents.set (application, kind) row })

def World.write (w : World) : (s : Stmt) → Except Err s.Resp × World
  | .createApplication user =>
    let row : KycApplication := ⟨user, .draft, none, none, none, none, none, none⟩
    (.ok w.applications.fresh,
      { w with applications := w.applications.set w.applications.fresh row })
  | .putObject key => (.ok w.kycBucket, { w with objects := w.objects.set key w.kycBucket })
  | .upsertDocument application kind stored => w.upsertDocument application kind stored
  | .deleteObject key bucket => (.ok (), { w with
      objects := w.objects.deleteMany fun key' bucket' => key' = key && bucket' = bucket })
  | .hold application submittedAt => w.updateApplication application fun row => { row with
      status := .submitted
      submittedAt := some submittedAt
      termsAcceptedAt := some submittedAt
      termsVersion := some inspectorTermsVersion }
  | .autoApprove application user submittedAt =>
    let approved (row : KycApplication) : KycApplication := { row with
      status := .approved
      submittedAt := some submittedAt
      termsAcceptedAt := some submittedAt
      termsVersion := some inspectorTermsVersion
      reviewedBy := some .auto
      reviewedAt := some submittedAt }
    w.decide application approved user true
  | .beginReview application =>
    w.updateApplication application fun row => { row with status := .inReview }
  | .approve application user admin reviewedAt =>
    let approved (row : KycApplication) : KycApplication := { row with
      status := .approved, reviewedBy := some (.admin admin), reviewedAt := some reviewedAt }
    w.decide application approved user true
  | .reject application user admin reason reviewedAt =>
    let rejected (row : KycApplication) : KycApplication := { row with
      status := .rejected, rejectReason := some reason, reviewedBy := some (.admin admin),
      reviewedAt := some reviewedAt }
    w.decide application rejected user false
  | .stampPurged application kind =>
    match w.documents.get (application, kind) with
    | none => (.error .recordNotFound, w)
    | some row =>
      let row := { row with purgedAt := some w.now }
      (.ok (), { w with documents := w.documents.set (application, kind) row })

def World.exec (s : Stmt) (c : Fate) (w : World) : Except Err s.Resp × World :=
  match c with
  | .ok => w.write s
  | .fails =>
    match s with
    | .putObject _ | .deleteObject _ _ => (.error .storage, w)
    | _ => (.error .database, w)

/-- Where a program reads: the method the read is made in. -/
inductive Site where
  | createApplication | uploadDocument (application : ApplicationRef)
  | submitApplication (application : ApplicationRef) | priorRejections | reusedDocuments
  | reusedIdentity | approve | reject | getApplicationForAdmin | purgeOldDocuments
  | clock | configured
  deriving DecidableEq, Repr

/-- The clock and the configuration are read without a request. -/
def World.fault (site : Site) : Fate → Option Err
  | .ok => none
  | .fails =>
    match site with
    | .clock | .configured => none
    | _ => some .database

/-- Between the steps, time passes. -/
def machine : Machine Site Stmt Stmt.Resp World Err Fate where
  exec := World.exec
  fault := World.fault
  env _ w := { w with now := w.now + 1 }

abbrev Act (α : Type) := Prog Site Stmt Stmt.Resp World Err α

abbrev Run (γ : Type) := Pool Site Stmt Stmt.Resp World Err γ

def readClock : Act Instant := fetch .clock (·.now)

def isKycConfigured : Act Bool := fetch .configured (·.kycConfigured)

def notFound : Err := .http 404 "not_found" "KYC application not found"

/-- Load an application the caller owns, with its documents. -/
def requireOwnedApplication (site : Site) (user : UserRef) (application : ApplicationRef) :
    Act (KycApplication × DocumentList) := do
  let found ← fetch site fun w =>
    (w.applications.get application).map fun row => (row, w.documentsOf application)
  match found with
  | none => throw notFound
  | some (row, documents) =>
    if row.userId ≠ user then
      throw (.http 403 "not_kyc_owner" "You do not own this KYC application")
    else pure (row, documents)

def requireApplication (site : Site) (application : ApplicationRef) : Act KycApplication := do
  match ← fetch site (·.applications.get application) with
  | none => throw notFound
  | some row => pure row

/-- Enforce the state machine. -/
def assertTransition (source target : KycStatus) : Act Unit :=
  Prog.when (target ∉ source.transitions) (throw (.http 409 "illegal_transition"
    ("Cannot move a KYC application from " ++ source.name ++ " to " ++ target.name)))

/-- The live application of the user, or a new draft. -/
def createApplication (user : UserRef) : Act ApplicationRef := do
  let live ← fetch .createApplication fun w => w.applications.findLast fun _ row =>
    row.userId = user && row.status ∈ activeKycStatuses
  match live with
  | some (application, _) => pure application
  | none => Prog.perform (Stmt.createApplication user)

section Upload

/-- An upload, with what the process makes of it outside the database and the bucket: the random
part of the key, the compressed image unless that fails, and the hash of the number the recogniser
reads, if any. -/
structure Upload where
  user : UserRef
  application : ApplicationRef
  kind : KycDocumentKind
  file : KycUploadPart
  uuid : String
  compressed : Option (List UInt8)
  recognised : Option String
  deriving DecidableEq, Repr

structure KycDocumentUploadResult where
  kind : KycDocumentKind
  uploadedAt : Instant
  contentType : String
  sizeBytes : Nat
  sourceBytes : Nat
  replaced : Bool
  deriving DecidableEq, Repr

def objectKey (upload : Upload) (extension : String) : String :=
  "kyc/" ++ toString upload.user ++ "/" ++ toString upload.application ++ "/" ++
    upload.kind.name ++ "-" ++ upload.uuid ++ "." ++ extension

/-- Images are compressed, PDFs stored as they are. -/
def bodyOf (upload : Upload) (plan : KycObjectPlan) : Act (List UInt8) :=
  if plan.compress then
    match upload.compressed with
    | some data => pure data
    | none => throw .processing
  else pure upload.file.buffer

/-- Only an identity document is read for its number. -/
def idNumberHashOf (upload : Upload) : Option String :=
  if upload.kind = .idFront ∨ upload.kind = .idBack then upload.recognised else none

/-- Delete the object a new one displaced, best effort. -/
def deleteDisplaced (previous : Option KycDocument) (s3Key : String) : Act Unit :=
  match previous with
  | none => pure ()
  | some row =>
    Prog.when (row.s3Key ≠ s3Key) (quietly (Prog.perform (Stmt.deleteObject row.s3Key row.bucket)))

def planOf (file : KycUploadPart) : Act KycObjectPlan :=
  match resolveKycObject file with
  | .ok plan => pure plan
  | .error e => throw e

def putObject (key : String) : Act (Option String) := Prog.perform (Stmt.putObject key)

def upsertDocument (application : ApplicationRef) (kind : KycDocumentKind)
    (stored : StoredDocument) : Act KycDocument :=
  Prog.perform (Stmt.upsertDocument application kind stored)

/-- Store the object, then the row, then delete what the row displaced. -/
def storeDocument (upload : Upload) (plan : KycObjectPlan) (body : List UInt8) :
    Act KycDocumentUploadResult := do
  let hash ← fetch .configured fun w => w.sha256 upload.file.buffer
  let s3Key := objectKey upload plan.extension
  let previous ← fetch (.uploadDocument upload.application)
    (·.documents.get (upload.application, upload.kind))
  let bucket ← putObject s3Key
  let row ← upsertDocument upload.application upload.kind
    ⟨s3Key, bucket, some hash, idNumberHashOf upload⟩
  deleteDisplaced previous s3Key
  pure ⟨upload.kind, row.uploadedAt, plan.storedContentType, body.length,
    upload.file.buffer.length, previous.isSome⟩

/-- Store one document of a draft the caller owns. The row is written last. -/
def uploadDocument (upload : Upload) : Act KycDocumentUploadResult := do
  let owned ← requireOwnedApplication (.uploadDocument upload.application) upload.user
    upload.application
  if owned.1.status ≠ .draft then
    throw (.http 400 "kyc_not_editable"
      "Documents can only be uploaded while the application is a draft")
  else if upload.file.buffer.isEmpty then
    throw (.http 400 "file_required" "Send the document in the `file` multipart field")
  else do
    let configured ← isKycConfigured
    if configured = false then
      throw (.http 503 "storage_unavailable" "Cloud storage is not configured on this server")
    else do
      let plan ← planOf upload.file
      let body ← bodyOf upload plan
      storeDocument upload plan body

end Upload

section Submit

structure SubmitKycResult where
  id : ApplicationRef
  status : KycStatus
  submittedAt : Instant
  deriving DecidableEq, Repr

def missingKinds (documents : DocumentList) : List KycDocumentKind :=
  requiredKycKinds.filter fun kind => kind ∉ documents.map (·.1.2)

/-- What is refused before anything is asked about the past. -/
def assertComplete (documents : DocumentList) : Act Unit :=
  Prog.when (missingKinds documents ≠ []) (throw (.http 400 "incomplete_kyc"
    ("Missing required documents: " ++
      ", ".intercalate ((missingKinds documents).map KycDocumentKind.name))))

def countReusedDocuments (user : UserRef) (hashes : List String) : Act Nat :=
  if hashes = [] then pure 0 else fetch .reusedDocuments (·.reusedDocuments user hashes)

def countReusedIdentity (user : UserRef) (hashes : List String) : Act Nat :=
  if hashes = [] then pure 0 else fetch .reusedIdentity (·.reusedIdentity user hashes)

def hold (application : ApplicationRef) (submittedAt : Instant) : Act KycApplication :=
  Prog.perform (Stmt.hold application submittedAt)

def autoApprove (application : ApplicationRef) (user : UserRef) (submittedAt : Instant) :
    Act KycApplication :=
  Prog.perform (Stmt.autoApprove application user submittedAt)

/-- Submit a draft: it is approved at once, unless its owner or its documents were rejected
before. -/
def submitApplication (user : UserRef) (application : ApplicationRef) (termsAccepted : Bool) :
    Act SubmitKycResult := do
  let owned ← requireOwnedApplication (.submitApplication application) user application
  if termsAccepted = false then
    throw (.http 400 "terms_not_accepted"
      "Confirm the framework terms before you send the application")
  else do
    assertTransition owned.1.status .submitted
    assertComplete owned.2
    let submittedAt ← readClock
    let priorRejections ← fetch .priorRejections (·.priorRejections user application)
    let reusedDocuments ← countReusedDocuments user (fingerprints owned.2)
    let reusedIdentity ← countReusedIdentity user (idNumberHashes owned.2)
    if 0 < priorRejections ∨ 0 < reusedDocuments ∨ 0 < reusedIdentity then do
      let held ← hold application submittedAt
      pure ⟨application, held.status, submittedAt⟩
    else do
      let updated ← autoApprove application user submittedAt
      pure ⟨application, updated.status, submittedAt⟩

end Submit

section Admin

/-- An application for an admin to look at, which takes it into review. -/
def getApplicationForAdmin (application : ApplicationRef) :
    Act (KycApplication × DocumentList) := do
  let found ← fetch .getApplicationForAdmin fun w =>
    (w.applications.get application).map fun row => (row, w.documentsOf application)
  match found with
  | none => throw notFound
  | some (row, documents) =>
    if row.status = .submitted then do
      let reviewed ← (Prog.perform (Stmt.beginReview application) : Act KycApplication)
      pure (reviewed, documents)
    else pure (row, documents)

def approve (application : ApplicationRef) (admin : UserRef) : Act KycApplication := do
  let row ← requireApplication .approve application
  assertTransition row.status .approved
  let reviewedAt ← readClock
  Prog.perform (Stmt.approve application row.userId admin reviewedAt)

/-- Reject an application, or revoke its approval. -/
def reject (application : ApplicationRef) (admin : UserRef) (reason : String) :
    Act KycApplication := do
  let row ← requireApplication .reject application
  assertTransition row.status .rejected
  let reviewedAt ← readClock
  Prog.perform (Stmt.reject application row.userId admin reason reviewedAt)

/-- The documents of applications decided before the cutoff, that are not purged yet. -/
def World.purgeable (w : World) (cutoff : Instant) : DocumentList :=
  w.documents.findMany fun key row => row.purgedAt.isNone &&
    (w.applications.get key.1).any fun owner =>
      (owner.status = .approved || owner.status = .rejected) &&
        owner.reviewedAt.any (· < cutoff)

def purgeDocument (document : (ApplicationRef × KycDocumentKind) × KycDocument) : Act Unit := do
  let configured ← isKycConfigured
  Prog.when configured
    (quietly (Prog.perform (Stmt.deleteObject document.2.s3Key document.2.bucket)))
  let _ ← (Prog.perform (Stmt.stampPurged document.1.1 document.1.2) : Act Unit)
  pure ()

def purgeOldDocuments : Act Nat := do
  let now ← readClock
  let documents ← fetch .purgeOldDocuments
    (·.purgeable (now - (kycRetentionDays : Instant) * 86400000))
  forEach documents purgeDocument
  pure documents.length

end Admin

section Calls

/-- What is asked of the verification. -/
inductive Call where
  | create (user : UserRef)
  | upload (request : Upload)
  | submit (user : UserRef) (application : ApplicationRef) (termsAccepted : Bool)
  | view (application : ApplicationRef)
  | approve (application : ApplicationRef) (admin : UserRef)
  | reject (application : ApplicationRef) (admin : UserRef) (reason : String)
  | purge
  deriving DecidableEq, Repr

def Call.prog : Call → Act Unit
  | create user => do
    let _ ← createApplication user
    pure ()
  | upload request => do
    let _ ← uploadDocument request
    pure ()
  | submit user application termsAccepted => do
    let _ ← submitApplication user application termsAccepted
    pure ()
  | view application => do
    let _ ← getApplicationForAdmin application
    pure ()
  | approve application admin => do
    let _ ← Kyc.approve application admin
    pure ()
  | reject application admin reason => do
    let _ ← Kyc.reject application admin reason
    pure ()
  | purge => do
    let _ ← purgeOldDocuments
    pure ()

/-- The calls, all at their first step. -/
def launch {γ : Type} (w : World) (hist : γ) (calls : List Call) : Run γ :=
  ⟨w, hist, calls.map Call.prog⟩

end Calls

end CarSalePro.Kyc
