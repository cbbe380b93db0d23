import CarSalePro.Quota.Devices

namespace CarSalePro.Quota

open Store Interleave Prog

/-- Serialisable transactions that lose a race are tried this many times. -/
def grantAttempts : Nat := 3

/-- The transaction lost a race: P2034, or P2002. -/
def Err.lostRace : Err → Bool
  | .db .serialization | .db (.unique _) => true
  | _ => false

/-- The loop of `grantPro`, with the attempts left after the next one. -/
def grantLoop (grant : IapGrant) : Nat → Act DeviceQuota
  | 0 => Prog.perform (Stmt.grant grant)
  | left + 1 => do
    match ← attempt (Prog.perform (Stmt.grant grant) : Act DeviceQuota) with
    | .ok quota => pure quota
    | .error e => if e.lostRace then grantLoop grant left else throw e

/-- Record the purchase and the device, and make the device PRO. Without a purchase id nothing is
recorded. -/
def grantPro (device : DeviceId) (platform : IapPlatform) (purchase : Option String) :
    Act DeviceQuota :=
  match purchase.filter (· ≠ "") with
  | none => Prog.perform (Stmt.markPro device platform)
  | some purchase => grantLoop ⟨platform, purchase, device⟩ (grantAttempts - 1)

/-- What the transaction of `grantPro` does: the device has its row, there is no room, or it gets
one. -/
inductive GrantEffect (grant : IapGrant) (w : World) : Except Err DeviceQuota × World → Prop
  | again (held : (w.grants.get grant).isSome) :
    GrantEffect grant w (.ok (w.markPro grant.deviceId grant.platform).1,
      (w.markPro grant.deviceId grant.platform).2)
  | full (absent : w.grants.get grant = none)
      (full : iapMaxDevicesPerPurchase ≤
        (w.holders grant.platform grant.storeTransactionId).length) :
    GrantEffect grant w (.error iapDeviceLimit, w)
  | first (absent : w.grants.get grant = none)
      (room : (w.holders grant.platform grant.storeTransactionId).length <
        iapMaxDevicesPerPurchase) :
    GrantEffect grant w (.ok (w.markPro grant.deviceId grant.platform).1,
      { (w.markPro grant.deviceId grant.platform).2 with grants := w.grants.set grant () })

theorem grant_effect (grant : IapGrant) (w : World) : GrantEffect grant w (w.grant grant) := by
  have hread {ρ : Type} (f : World → ρ) (w : World) :
      (fetch () f : GrantTx ρ).alone grantMachine () w = (.ok (f w), w) := alone_fetch
  have hmark (w : World) : (markProInside grant.deviceId grant.platform).alone grantMachine () w =
      (.ok (w.markPro grant.deviceId grant.platform).1,
        (w.markPro grant.deviceId grant.platform).2) := alone_perform
  simp only [World.grant, transact, grantTransaction, alone_bind, hread]
  cases hown : w.grants.get grant with
  | some own =>
    have hheld : (w.grants.get grant).isSome := by simp [hown]
    rw [if_neg (by simp), hmark]
    exact .again hheld
  | none =>
    simp only [Option.isNone_none, if_true, alone_bind, hread]
    by_cases hfull : iapMaxDevicesPerPurchase ≤
        (w.holders grant.platform grant.storeTransactionId).length
    · simp only [if_pos hfull]
      exact .full hown hfull
    · have hcreate : (createGrant grant).alone grantMachine () w =
          (.ok (), { w with grants := w.grants.set grant () }) := by
        have hfree : ¬ (w.grants.get grant).isSome := by simp [hown]
        exact alone_perform.trans (if_neg hfree)
      simp only [if_neg hfull, alone_bind, hcreate, hmark]
      exact .first hown (Nat.lt_of_not_le hfull)

end CarSalePro.Quota
