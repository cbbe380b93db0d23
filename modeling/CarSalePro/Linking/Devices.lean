import CarSalePro.Linking.World

namespace CarSalePro.Linking

open Store Interleave Prog

section Codes

def linkCodeTtlSeconds : Nat := 600

def linkCodePrefix : String := "linkcode:"

/-- `toString().padStart(6, '0')`. -/
def codeText (drawn : Fin 1000000) : String :=
  let digits := (toString drawn.val).toList
  String.ofList (List.replicate (6 - digits.length) '0' ++ digits)

def codeKey (code : String) : String := linkCodePrefix ++ code

/-- A new code for a device; `drawn` is what the random source answers. -/
def generate (deviceId : String) (drawn : Fin 1000000) : Act (String × Time) := do
  let code := codeText drawn
  Prog.perform (Stmt.setWithTtl (codeKey code) deviceId linkCodeTtlSeconds)
  let now ← fetch .clock (·.now)
  pure (code, now + linkCodeTtlSeconds * 1000)

/-- The device of a code, which is then deleted. -/
def consume (code : String) : Act (Option String) := do
  match ← fetch (.code (codeKey code)) (·.get (codeKey code)) with
  | none => pure none
  | some deviceId =>
    if deviceId = "" then pure none
    else do
      Prog.perform (Stmt.del (codeKey code))
      pure (some deviceId)

end Codes

section Links

/-- Link a device to a user, and give the user the reports of the device. -/
def attachDevice (user : UserRef) (deviceId : String) (linkedVia : LinkedVia) :
    Act DeviceLink := do
  let existing ← fetch (.link deviceId) (·.links.get deviceId)
  if existing.any (·.userId ≠ user) then
    throw (.http 409 "device_already_linked" "This device is already linked to another account")
  else do
    let link ← (Prog.perform (Stmt.upsertLink deviceId user linkedVia) : Act DeviceLink)
    Prog.perform (Stmt.assignReports deviceId user)
    pure link

/-- Link the device that a code was generated on. -/
def linkDeviceByCode (user : UserRef) (linkCode : String) : Act DeviceLink := do
  match ← consume linkCode with
  | none => throw (.http 400 "invalid_code" "Link code is invalid or expired")
  | some deviceId => attachDevice user deviceId .code

end Links

section Calls

/-- What devices, users and admins ask. -/
inductive Call where
  | generate (deviceId : String) (drawn : Fin 1000000)
  | linkDeviceByCode (user : UserRef) (linkCode : String)
  | attachDevice (user : UserRef) (deviceId : String)
  deriving DecidableEq, Repr

/-- A program whose answer nobody waits for. -/
def answered {α : Type} (p : Act α) : Act Unit := do
  let _ ← p
  pure ()

def Call.prog : Call → Act Unit
  | generate deviceId drawn => answered (Linking.generate deviceId drawn)
  | linkDeviceByCode user linkCode => answered (Linking.linkDeviceByCode user linkCode)
  | attachDevice user deviceId => answered (Linking.attachDevice user deviceId .admin)

/-- The calls, all at their first step. -/
def launch {γ : Type} (w : World) (hist : γ) (calls : List Call) : Run γ :=
  ⟨w, hist, calls.map Call.prog⟩

end Calls

end CarSalePro.Linking
