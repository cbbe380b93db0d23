import CarSalePro.Interleave.Within
import CarSalePro.Orders.Operations

namespace CarSalePro.Transfers

open Store Interleave

/-- A transfer at Stripe. The order is what its idempotency key was made of. -/
structure Transfer where
  order : OrderId
  amountCents : Cents
  createdAt : Time
  /-- Stripe has reported it failed or reversed, and the report was taken in. -/
  reported : Bool
  deriving DecidableEq, Repr

/-- The services beside Stripe's transfers. A key brings its transfer back for as long as Stripe
retains it. -/
structure World where
  market : CarSalePro.World
  transfers : Table Nat Transfer
  retention : Time

/-- A statement of the services, or the end of a delivered `transfer.failed` event. -/
inductive Stmt where
  | service (s : CarSalePro.Stmt)
  | report (transfer : Nat)

abbrev Stmt.Resp (_ : Stmt) : Type := Nat

namespace World

/-- The transfer that Stripe still has under the order's key. -/
def keyed (w : World) (order : OrderId) : Option (Nat × Transfer) :=
  w.transfers.findLast fun _ t => t.order = order && w.market.now < t.createdAt + w.retention

/-- What Stripe does with a create call: the key's transfer comes back, or there is a new one. -/
def createTransfer (w : World) (order : OrderId) (amountCents : Cents) : Nat × World :=
  match w.keyed order with
  | some (transfer, _) => (transfer, w)
  | none =>
    (w.transfers.fresh, { w with
      transfers := w.transfers.set w.transfers.fresh ⟨order, amountCents, w.market.now, false⟩ })

def exec (s : Stmt) (c : Fate) (w : World) : Except Err Nat × World :=
  match s with
  | .service (.stripe (.createTransfer order amountCents)) =>
    match c with
    | .down => (.error (.stripe .connection), w)
    | .refused e => (.error (.stripe e), w)
    | .lost e => (.error (.stripe e), (w.createTransfer order amountCents).2)
    | .ok | .replayed | .elapse _ =>
      let r := w.createTransfer order amountCents
      (.ok r.1, r.2)
  | .service s =>
    let r := CarSalePro.World.exec s c w.market
    (r.1, { w with market := r.2 })
  | .report transfer =>
    match w.transfers.get transfer with
    | none => (.error .recordNotFound, w)
    | some t =>
      (.ok 1, { w with transfers := w.transfers.set transfer { t with reported := true } })

def tick (c : Fate) (w : World) : World := { w with market := w.market.tick c }

end World

def machine : Machine Site Stmt Stmt.Resp World Err Fate where
  exec := World.exec
  fault := CarSalePro.World.fault
  env := World.tick

abbrev Act (α : Type) := Prog Site Stmt Stmt.Resp World Err α

abbrev Run (γ : Type) := Pool Site Stmt Stmt.Resp World Err γ

/-- A condition on the steps. -/
abbrev StepGuard (γ : Type) := Guard Site Stmt World Fate γ

/-- No condition. -/
def anyStep {γ : Type} : StepGuard γ := fun _ _ _ _ => true

/-- No history. -/
def noRecord : Recorder Site Stmt World Unit := fun _ _ _ _ h => h

/-- The services beside Stripe's transfers. -/
def market : Place CarSalePro.Site CarSalePro.Stmt CarSalePro.Stmt.Resp CarSalePro.World
    CarSalePro.Err Site Stmt Stmt.Resp World Err where
  view := World.market
  site := id
  stmt := .service
  answer _ n := n
  up := id
  down := id

/-- A method of the services. -/
def inMarket {α : Type} (p : CarSalePro.Act α) : Act α := p.within market

/-- The delivery of a `transfer.failed` or `transfer.reversed` event, which is taken in when its
handler has gone through, and delivered anew otherwise. -/
def transferFailed (transfer : Nat) : Act Unit := do
  inMarket (failTransfer (.stripe transfer))
  let _ ← Prog.perform (.report transfer)
  pure ()

/-- What concerns the payouts of orders. -/
inductive Call where
  | releasePayout (id : OrderId)
  | retryStuckPayouts (limit : Nat)
  | adminRetryPayout (id : OrderId)
  | transferFailed (transfer : Nat)
  deriving DecidableEq, Repr

def Call.prog : Call → Act Unit
  | .releasePayout id => inMarket (discard (CarSalePro.releasePayout id))
  | .retryStuckPayouts limit => inMarket (discard (CarSalePro.retryStuckPayouts limit))
  | .adminRetryPayout id => inMarket (CarSalePro.adminRetryPayout id)
  | .transferFailed transfer => Transfers.transferFailed transfer

/-- The calls one after another. -/
def launch (w : World) (calls : List Call) : Run Unit :=
  ⟨w, (), [Prog.series (calls.map Call.prog)]⟩

section Rewriting

variable {α β : Type}

theorem inMarket_bind (p : CarSalePro.Act α) (f : α → CarSalePro.Act β) :
    inMarket (p >>= f) = inMarket p >>= fun a => inMarket (f a) := Prog.within_bind p f

theorem inMarket_catch (p : CarSalePro.Act α) (h : Err → CarSalePro.Act α) :
    inMarket (p.tryCatch h) = (inMarket p).tryCatch fun e => inMarket (h e) :=
  Prog.within_catch (fun _ => rfl) p h

theorem inMarket_fetch (l : Site) (f : CarSalePro.World → α) :
    inMarket (Prog.fetch l f) = Prog.fetch l fun w => f w.market :=
  Prog.within_fetch (fun _ => rfl) l f

theorem inMarket_perform (s : CarSalePro.Stmt) :
    inMarket (CarSalePro.perform s) = Prog.perform (.service s) >>= fun n => pure n :=
  Prog.within_perform (fun _ => rfl) s

theorem inMarket_ite {c : Prop} [Decidable c] (p q : CarSalePro.Act α) :
    inMarket (if c then p else q) = if c then inMarket p else inMarket q := Prog.within_ite p q

theorem inMarket_attempt (p : CarSalePro.Act α) : inMarket p.attempt = (inMarket p).attempt := by
  let answered : CarSalePro.Act (Except Err α) := p >>= fun a => pure (.ok a)
  have hcatch := inMarket_catch answered fun e => pure (.error e)
  rw [inMarket_bind] at hcatch
  exact hcatch

end Rewriting

end CarSalePro.Transfers
