import CarSalePro.Reports.World

namespace CarSalePro.Reports

open Store Interleave Prog Quota

/-- The columns pulled out of a validated payload. -/
structure ExtractedReportFields where
  vehicle : Vehicle
  qualityScore : Option Int
  deriving DecidableEq, Repr

/-- What a request says of a report. `payload` is what the validator makes of `reportData` and the
contract version it claims: an objection, or the columns. -/
structure ReportFields where
  vehicle : Vehicle
  qualityScore : Option Int
  reportData : Option Json
  payload : Except Err ExtractedReportFields

structure CreateReportDto extends ReportFields where
  code : String
  orderId : Option OrderId

structure UpdateReportDto extends ReportFields where
  regeneratePdfUploadUrl : Bool

/-- The columns of a request; the VIN is stored in capitals. -/
def ReportFields.columns (dto : ReportFields) (extracted : ExtractedReportFields)
    (stored : Vehicle) : Vehicle where
  vin := dto.vehicle.vin.map String.toUpper <|> extracted.vehicle.vin <|> stored.vin
  make := dto.vehicle.make <|> extracted.vehicle.make <|> stored.make
  model := dto.vehicle.model <|> extracted.vehicle.model <|> stored.model

/-- What an edit by this request writes over a report. -/
def ReportFields.patch (dto : ReportFields) (extracted : ExtractedReportFields) (stored : Report)
    (awaitsUpload : Bool) : ReportPatch where
  vehicle := dto.columns extracted stored.vehicle
  qualityScore := dto.qualityScore <|> extracted.qualityScore <|> stored.qualityScore
  reportData := dto.reportData.map normalizeReportData
  awaitsUpload := awaitsUpload

structure CreateReportResponse where
  reportId : ReportId
  s3Key : String
  tier : Tier
  reused : Bool
  deriving DecidableEq, Repr

def flat (status : Nat) (error message : String) : Err := .http status (some error) message

def storageUnavailable : Err :=
  .http 503 none "Cloud storage is not configured on this server"

section Gate

def qualityUnknown : String :=
  "This report carries no structured inspection data. Update the CarSalePro app and re-sync the " ++
    "report."

def reportIncomplete (count : Nat) : String :=
  "This inspection is missing " ++ toString count ++ " required element(s). Every exterior " ++
    "angle, paint panel, calibration reference and wheel needs its data and its photo. The " ++
    "cabin needs at least one photo, and each damage needs its part, its type and a photo."

/-- An order may only be closed with a report that covers the vehicle; a minimum of zero switches
the gate off. -/
def assertReportComplete (reportData : Option Json) (qualityScore : Option Int) : Act Unit := do
  let minQualityScore ← fetch .assertReportComplete fun w => w.minReportQualityScore w.now
  if minQualityScore ≤ 0 then pure ()
  else
    let result := evaluateCompleteness reportData
    if result.evaluable = false then
      throw (.gate "report_quality_unknown" qualityUnknown none qualityScore minQualityScore)
    else if result.complete = false then
      throw (.gate "report_incomplete" (reportIncomplete (countMissing result.missing))
        (some (result.missing, result.exteriorAngleCount)) qualityScore minQualityScore)
    else pure ()

end Gate

section Create

/-- A report filed against an order must come from the assigned inspector. -/
def assertOrderSubmitter (device : DeviceId) (order : OrderId) : Act Unit := do
  match ← fetch .assertOrderSubmitter (·.market.orders.get order) with
  | none => throw (flat 404 "order_not_found" ("Order " ++ toString order ++ " not found"))
  | some row =>
    match row.inspectorId with
    | none => throw (flat 403 "order_not_assigned" "This order has no assigned inspector yet")
    | some inspector => do
      match ← fetch .submitterLink (·.deviceLinks.get device) with
      | none => throw (flat 403 "device_not_linked"
          "This device is not linked to an account. Link it in your web cabinet, then retry.")
      | some user =>
        Prog.when (user ≠ inspector) (throw (flat 403 "not_order_inspector"
          "This device is not linked to the inspector assigned to this order"))

/-- Pick a tier, and count the report on the free one. -/
def consumeQuota (device : DeviceId) : Act Tier := do
  let read ← fetch .consumeQuota fun w => (w.quota device, w.enforceFreeLimit)
  if read.1.isPro then pure .pro
  else if read.2 ∧ read.1.freeReportsLimit ≤ read.1.freeReportsUsed then
    throw (flat 402 "PaymentRequired" ("FREE-tier limit of " ++
      toString read.1.freeReportsLimit ++ " reports reached. Upgrade to PRO to continue."))
  else do
    let _ ← (Prog.perform (Stmt.incrementFree device) : Act DeviceQuota)
    pure .free

def rollbackQuota (device : DeviceId) (tier : Tier) : Act Unit :=
  match tier with
  | .pro => pure ()
  | .free => quietly (Prog.perform (Stmt.rollbackQuota device) : Act Unit)

/-- A fresh upload address. -/
def createPresignedUploadUrl : Act Unit := fetch .presign fun _ => ()

/-- A report that is there already: its columns are refreshed, and nothing is charged. -/
def recreate (existing : ReportId) (report : Report) (dto : CreateReportDto)
    (extracted : ExtractedReportFields) : Act CreateReportResponse := do
  let configured ← fetch .storage (·.r2Configured)
  if configured = false then throw storageUnavailable
  else do
    let updated ← (Prog.perform (Stmt.patchReport existing
      (dto.patch extracted report true)) : Act Report)
    createPresignedUploadUrl
    pure ⟨existing, updated.s3Key, updated.tier, true⟩

/-- What the caller is told of a report the database refused. -/
def createConflict (dto : CreateReportDto) : Err → Err
  | .unique .orderId => flat 409 "order_report_exists"
      ("Order " ++ dto.orderId.elim "" toString ++ " already has a report")
  | .unique _ => flat 409 "code_conflict" ("Report code " ++ dto.code ++ " is already in use")
  | e => e

/-- Advance the order of a report; a failure of that is no failure of the report. -/
def submitOrderForReport (order : OrderId) : Act Unit :=
  quietly (inMarket (submitReportForOrder order))

/-- The row of a new report. -/
def newReport (device : DeviceId) (dto : CreateReportDto) (extracted : ExtractedReportFields)
    (tier : Tier) : Report where
  deviceId := device
  code := dto.code
  tier := tier
  s3Key := ""
  orderId := dto.orderId
  userId := none
  vehicle := dto.columns extracted ⟨none, none, none⟩
  qualityScore := dto.qualityScore <|> extracted.qualityScore
  reportData := dto.reportData.map normalizeReportData
  uploaded := false
  createdAt := 0
  deletedAt := none

/-- What is left to do once the row is stored. -/
def finishReport (device : DeviceId) (dto : CreateReportDto) (tier : Tier) (report : ReportId) :
    Act CreateReportResponse := do
  let s3Key := buildKey tier device report
  (Prog.perform (Stmt.setS3Key report s3Key) : Act Unit)
  createPresignedUploadUrl
  match dto.orderId with
  | none => pure ()
  | some order => submitOrderForReport order
  pure ⟨report, s3Key, tier, false⟩

/-- The report itself, once a tier is picked. -/
def storeReport (device : DeviceId) (dto : CreateReportDto) (extracted : ExtractedReportFields)
    (tier : Tier) : Act CreateReportResponse := do
  let configured ← fetch .storage (·.r2Configured)
  if configured = false then do
    rollbackQuota device tier
    throw storageUnavailable
  else do
    match ← attempt (Prog.perform (Stmt.createReport (newReport device dto extracted tier)) :
        Act ReportId) with
    | .error e => do
      rollbackQuota device tier
      throw (createConflict dto e)
    | .ok report => finishReport device dto tier report

/-- The report the device filed under this code before. -/
def findExisting (device : DeviceId) (code : String) : Act (Option (ReportId × Report)) :=
  if isUuidCode code then
    fetch .findExisting fun w => w.reports.findFirst fun _ r =>
      r.deviceId = device && r.code = code && r.deletedAt.isNone
  else pure none

/-- What is checked before anything is charged. -/
def assertSubmission (device : DeviceId) (dto : CreateReportDto)
    (extracted : ExtractedReportFields) : Act Unit :=
  match dto.orderId with
  | none => pure ()
  | some order => do
    assertOrderSubmitter device order
    assertReportComplete dto.reportData (dto.qualityScore <|> extracted.qualityScore)

def create (device : DeviceId) (dto : CreateReportDto) : Act CreateReportResponse := do
  let extracted ← Prog.ofExcept dto.payload
  assertSubmission device dto extracted
  match ← findExisting device dto.code with
  | some existing => recreate existing.1 existing.2 dto extracted
  | none => do
    let tier ← consumeQuota device
    storeReport device dto extracted tier

end Create

section Edit

/-- The report, if it is the device's and not deleted. -/
def requireOwned (device : DeviceId) (report : ReportId) : Act Report := do
  match ← fetch .requireOwned (·.reports.get report) with
  | none => throw (.http 404 none ("Report " ++ toString report ++ " not found"))
  | some row =>
    if row.deletedAt.isSome then
      throw (.http 404 none ("Report " ++ toString report ++ " not found"))
    else if row.deviceId ≠ device then throw (.http 403 none "You do not own this report")
    else pure row

/-- Re-sync of an edited report. -/
def update (device : DeviceId) (report : ReportId) (dto : UpdateReportDto) : Act Report := do
  let row ← requireOwned device report
  let extracted ← Prog.ofExcept dto.payload
  let updated ← (Prog.perform (Stmt.patchReport report
    (dto.patch extracted row dto.regeneratePdfUploadUrl)) : Act Report)
  if dto.regeneratePdfUploadUrl then do
    let configured ← fetch .storage (·.r2Configured)
    if configured = false then throw storageUnavailable
    else do
      createPresignedUploadUrl
      pure updated
  else pure updated

/-- Delete a report: its files, its photos, and the row but for its trace. -/
def remove (device : DeviceId) (report : ReportId) : Act ReportId := do
  let _ ← requireOwned device report
  let configured ← fetch .storage (·.r2Configured)
  Prog.when (configured = true) (fetch .deleteStored fun _ => ())
  fetch .deletePhotos fun _ => ()
  (Prog.perform (Stmt.softDelete report) : Act Unit)
  pure report

end Edit

section Attach

/-- `value?.trim().toUpperCase().replace(/\s+/g, ' ')`, where an empty text is none. -/
def normalizeName (upperCase : String → String) (value : Option String) : Option String :=
  let words (text : String) := (text.toList.splitOnP isSpace).filter (· ≠ [])
  (value.map fun text =>
    upperCase (" ".intercalate ((words text).map String.ofList))).filter (· ≠ "")

/-- Two names that both are there differ. -/
def disagree (a b : Option String) : Bool := a.isSome && b.isSome && a ≠ b

def reportVehicleMatchesOrder (upperCase : String → String) (order report : Vehicle) : Bool :=
  let name := normalizeName upperCase
  if (name order.vin).isSome ∧ (name report.vin).isSome then name order.vin = name report.vin
  else !disagree (name order.make) (name report.make) &&
    !disagree (name order.model) (name report.model)

/-- The newest live report with this code. -/
def World.newestReport (w : World) (code : String) : Option (ReportId × Report) :=
  (w.reports.findSorted (fun _ r => r.code = code && r.deletedAt.isNone)
    (fun a b => b.createdAt ≤ a.createdAt) 1).head?

def conflict (code message : String) : Err := .market (.http .conflict code message)

def notReportOwner : Err :=
  .market (.http .forbidden "not_report_owner" "This report belongs to another account")

/-- The order of an inspector, still waiting for a report and without one. -/
def requireAttachable (order : OrderId) (inspector : UserId) : Act Unit := do
  let row ← inMarket (requireOrder order)
  if row.inspectorId ≠ some inspector then
    throw (.market (.http .forbidden "forbidden" "You are not the assigned inspector"))
  else if row.status ∉ attachableReportOrderStatuses then
    throw (conflict "order_not_attachable"
      ("Cannot attach a report while order is " ++ row.status.wire))
  else do
    let existing ← fetch .orderReport fun w =>
      (w.reports.findFirst fun _ r => r.orderId = some order).isSome
    Prog.when (existing = true)
      (throw (conflict "order_report_exists" "This order already has a report"))

/-- The newest report of the code, if the inspector may attach it to the order. -/
def requireReport (order : OrderId) (inspector : UserId) (code : String) :
    Act (ReportId × Report) := do
  match ← fetch .reportByCode fun w => (w.newestReport code).map fun found =>
      (found, reportVehicleMatchesOrder w.upperCase (w.vehicles order) found.2.vehicle) with
  | none => throw (.market (.http .notFound "report_not_found" "Report not found"))
  | some (found, sameVehicle) =>
    if found.2.orderId.any (· ≠ order) then
      throw (conflict "report_already_used" "This report is already linked to another order")
    else if found.2.userId.any (· ≠ inspector) then throw notReportOwner
    else if sameVehicle = false then
      throw (conflict "report_vehicle_mismatch" "This report belongs to a different vehicle")
    else do
      assertReportComplete found.2.reportData found.2.qualityScore
      let link ← fetch .deviceLink (·.deviceLinks.get found.2.deviceId)
      if link.any (· ≠ inspector) then throw notReportOwner else pure found

/-- The assigned inspector closes the inspection with a report filed before. -/
def attachReportByCode (order : OrderId) (inspector : UserId) (code : String) :
    Act (OrderStatus × ReportId) := do
  requireAttachable order inspector
  let found ← requireReport order inspector code
  (Prog.perform (Stmt.linkReport found.1 order (found.2.userId.getD inspector)) : Act Unit)
  let _ ← inMarket (submitReportForOrder order)
  let updatedOrder ← inMarket (requireOrder order)
  pure (updatedOrder.status, found.1)

end Attach

section Calls

/-- The calls of devices and inspectors, and the operations of the order services. -/
inductive Call where
  | create (device : DeviceId) (dto : CreateReportDto)
  | update (device : DeviceId) (report : ReportId) (dto : UpdateReportDto)
  | remove (device : DeviceId) (report : ReportId)
  | attachReportByCode (order : OrderId) (inspector : UserId) (code : String)
  | operation (op : Op)

/-- A method for its effect, its answer dropped. -/
def answered {α : Type} (p : Act α) : Act Unit := do
  let _ ← p
  pure ()

def Call.prog : Call → Act Unit
  | create device dto => answered (Reports.create device dto)
  | update device report dto => answered (Reports.update device report dto)
  | remove device report => answered (Reports.remove device report)
  | attachReportByCode order inspector code =>
    answered (Reports.attachReportByCode order inspector code)
  | operation op => inMarket op.prog

/-- The calls, all at their first step. -/
def launch {γ : Type} (w : World) (hist : γ) (calls : List Call) : Run γ :=
  ⟨w, hist, calls.map Call.prog⟩

end Calls

end CarSalePro.Reports
