import CarSalePro.Quota.Devices

namespace CarSalePro.Quota

open Store Interleave Prog

structure CreateReportResponse where
  reportId : ReportId
  tier : Tier
  reused : Bool
  deriving DecidableEq, Repr

def Tier.name : Tier → String
  | free => "free"
  | pro => "pro"

/-- `r2.buildKey`. -/
def buildKey (tier : Tier) (device : DeviceId) (report : ReportId) : String :=
  tier.name ++ "/" ++ device ++ "/" ++ toString report ++ ".pdf"

/-- A report filed against an order must come from the assigned inspector. -/
def assertOrderSubmitter (device : DeviceId) (order : OrderRef) : Act Unit := do
  match ← fetch .assertOrderSubmitter (·.orders.get order) with
  | none => throw (.http 404 (some "order_not_found") ("Order " ++ toString order ++ " not found"))
  | some none =>
    throw (.http 403 (some "order_not_assigned") "This order has no assigned inspector yet")
  | some (some inspector) => do
    match ← fetch .assertOrderSubmitter (·.deviceLinks.get device) with
    | none => throw (.http 403 (some "device_not_linked")
        ("This device is not linked to an account. Link it in your web cabinet, then retry."))
    | some user => Prog.when (user ≠ inspector) (throw (.http 403 (some "not_order_inspector")
        "This device is not linked to the inspector assigned to this order"))

/-- A refusal that may have been found. -/
def refuseWith : Option Err → Act Unit
  | none => pure ()
  | some e => throw e

def assertReportComplete (dto : CreateReportDto) : Act Unit := do
  let objection ← fetch .assertReportComplete (·.incomplete dto)
  refuseWith objection

def storageUnavailable : Err :=
  .http 503 none "Cloud storage is not configured on this server"

/-- Pick a tier, and count the report on the free one. The row the transaction reads, or would make,
is written at its commit. -/
def consumeQuota (device : DeviceId) : Act Tier := do
  let read ← fetch .consumeQuota fun w => (w.quota device, w.enforceFreeLimit)
  if read.1.isPro then pure .pro
  else if read.2 ∧ read.1.freeReportsLimit ≤ read.1.freeReportsUsed then
    throw (.http 402 (some "PaymentRequired")
      ("FREE-tier limit of " ++ toString read.1.freeReportsLimit ++
      " reports reached. Upgrade to PRO to continue."))
  else do
    let _ ← (Prog.perform (Stmt.incrementFree device) : Act DeviceQuota)
    pure .free

def rollbackQuota (device : DeviceId) (tier : Tier) : Act Unit :=
  match tier with
  | .pro => pure ()
  | .free => quietly (Prog.perform (Stmt.rollbackQuota device) : Act Unit)

/-- A report that is there already: a new upload address, and no charge. -/
def recreate (existing : ReportId) (report : Report) : Act CreateReportResponse := do
  let configured ← fetch .storage (·.r2Configured)
  if configured = false then throw storageUnavailable
  else do
    let _ ← (Prog.perform (Stmt.refreshReport existing) : Act Unit)
    let _ ← fetch .presign fun _ => ()
    pure ⟨existing, report.tier, true⟩

/-- What the caller is told of a report the database refused. -/
def createConflict (dto : CreateReportDto) : Err → Err
  | .db (.unique .orderId) => .http 409 (some "order_report_exists")
      ("Order " ++ (dto.orderId.elim "" toString) ++ " already has a report")
  | .db (.unique _) => .http 409 (some "code_conflict")
      ("Report code " ++ dto.code ++ " is already in use")
  | e => e

/-- The report itself, once a tier is picked. -/
def storeReport (device : DeviceId) (dto : CreateReportDto) (tier : Tier) :
    Act CreateReportResponse := do
  let configured ← fetch .storage (·.r2Configured)
  if configured = false then do
    rollbackQuota device tier
    throw storageUnavailable
  else do
    let row : Report := ⟨device, dto.code, tier, "", dto.orderId, false, none⟩
    match ← attempt (Prog.perform (Stmt.createReport row) : Act ReportId) with
    | .error e => do
      rollbackQuota device tier
      throw (createConflict dto e)
    | .ok report => do
      let _ ← (Prog.perform (Stmt.setS3Key report (buildKey tier device report)) : Act Unit)
      let _ ← fetch .presign fun _ => ()
      pure ⟨report, tier, false⟩

/-- The report the device filed under this code before. -/
def findExisting (device : DeviceId) (code : String) : Act (Option (ReportId × Report)) :=
  if isUuidCode code then
    fetch .findExisting fun w => w.reports.findFirst fun _ r =>
      r.deviceId = device && r.code = code && r.deletedAt.isNone
  else pure none

/-- What is checked before anything is charged. -/
def assertSubmission (device : DeviceId) (dto : CreateReportDto) : Act Unit := do
  refuseWith dto.objection
  match dto.orderId with
  | none => pure ()
  | some order => do
    assertOrderSubmitter device order
    assertReportComplete dto

def create (device : DeviceId) (dto : CreateReportDto) : Act CreateReportResponse := do
  assertSubmission device dto
  match ← findExisting device dto.code with
  | some existing => recreate existing.1 existing.2
  | none => do
    let tier ← consumeQuota device
    storeReport device dto tier

/-- The statements of a report creation. -/
def Stmt.filing : Stmt → Prop
  | grant _ | markPro _ _ => False
  | _ => True

/-- A call of `create`. -/
structure CreateCall where
  device : DeviceId
  dto : CreateReportDto
  deriving DecidableEq, Repr

def CreateCall.prog (call : CreateCall) : Act Unit := do
  let _ ← create call.device call.dto
  pure ()

/-- The calls, all at their first step. -/
def launchCreates {γ : Type} (w : World) (hist : γ) (calls : List CreateCall) : Run γ :=
  ⟨w, hist, calls.map CreateCall.prog⟩

section Footprints

variable (device : DeviceId) (dto : CreateReportDto) {A : Stmt → Prop}

theorem only_refuseWith (objection : Option Err) : (refuseWith objection).Only A := by
  cases objection <;> trivial

theorem only_assertSubmission : (assertSubmission device dto).Only A := by
  refine Only.seq (only_refuseWith _) fun _ => ?_
  split
  · exact only_pure _
  next order _ =>
    refine Only.seq ?_ fun _ => Only.seq (only_fetch _ _) fun _ => only_refuseWith _
    refine Only.seq (only_fetch _ _) fun found => ?_
    split
    · exact only_throw _
    · exact only_throw _
    · refine Only.seq (only_fetch _ _) fun link => ?_
      split
      · exact only_throw _
      · exact Only.when fun _ => only_throw _

theorem only_findExisting (code : String) : (findExisting device code).Only A :=
  Only.ite (fun _ => only_fetch _ _) fun _ => only_pure _

theorem only_recreate (existing : ReportId) (report : Report)
    (hs : A (.refreshReport existing)) : (recreate existing report).Only A := by
  refine Only.seq (only_fetch _ _) fun configured => Only.ite (fun _ => only_throw _) fun _ => ?_
  refine Only.seq ((only_perform _).mpr hs) fun _ => ?_
  exact Only.seq (only_fetch _ _) fun _ => only_pure _

theorem only_rollbackQuota (tier : Tier) (hs : A (.rollbackQuota device)) :
    (rollbackQuota device tier).Only A := by
  cases tier with
  | free => exact Only.quietly ((only_perform _).mpr hs)
  | pro => exact only_pure _

theorem only_storeReport (tier : Tier) (hback : A (.rollbackQuota device))
    (hrow : ∀ row, A (.createReport row)) (hkey : ∀ report key, A (.setS3Key report key)) :
    (storeReport device dto tier).Only A := by
  refine Only.seq (only_fetch _ _) fun configured => Only.ite (fun _ => ?_) fun _ => ?_
  · exact Only.seq (only_rollbackQuota device tier hback) fun _ => only_throw _
  · refine Only.seq (Only.attempt ((only_perform _).mpr (hrow _))) fun r => ?_
    split
    · exact Only.seq (only_rollbackQuota device tier hback) fun _ => only_throw _
    · refine Only.seq ((only_perform _).mpr (hkey _ _)) fun _ => ?_
      exact Only.seq (only_fetch _ _) fun _ => only_pure _

theorem filing_create : (create device dto).Only Stmt.filing := by
  refine Only.seq (only_assertSubmission device dto) fun _ => ?_
  refine Only.seq (only_findExisting device _) fun existing => ?_
  split
  · exact only_recreate _ _ trivial
  · refine Only.seq ?_ fun tier => ?_
    · refine Only.seq (only_fetch _ _) fun read => Only.ite (fun _ => only_pure _) fun _ => ?_
      refine Only.ite (fun _ => only_throw _) fun _ => ?_
      exact Only.seq ((only_perform _).mpr trivial) fun _ => only_pure _
    · exact only_storeReport device dto tier trivial (fun _ => trivial) fun _ _ => trivial

theorem filing_prog (call : CreateCall) : call.prog.Only Stmt.filing :=
  Only.seq (filing_create _ _) fun _ => only_pure _

end Footprints

end CarSalePro.Quota
