import CarSalePro.Laws.CancelAccept

namespace CarSalePro

open Store Interleave Prog OrderStatus

namespace World

end World

section Footprints

variable {s : Stmt}

variable {reg : Registry} {os : List OrderId}

end Footprints

section Moves

variable {reg : Registry} {o : OrderId} {k : PaymentId} {n : IntentId} {ph ph' : Stance}
  {l : Label Site Stmt} {c : Fate} {w w' : World} {r r' : Order} {Φ : Nat → Stance} {t u : Nat}
  {h : Nat → Bool} {i : UserId}

end Moves

section Runs

variable {reg : Registry} {o : OrderId}

end Runs

section Orphan

variable {w : World} {α : Type}

/-- Inspector 8 named another price, and the customer is paying it. -/
def acceptedCounter : OrderCounterOffer where
  orderId := 1
  inspectorId := 8
  status := .accepting
  priceCents := 12000
  platformFeeCents := 2400
  inspectorShareCents := 9600
  presentedAt := some 600
  expiresAt := 3600000
  acceptingUntil := some 1800000
  respondedAt := none
  createdAt := 550

def replacementPayment : Payment where
  orderId := some 1
  purpose := .orderCounterOffer
  amountCents := 12000
  status := .pending
  stripePaymentIntentId := some 10
  authorizedAt := none
  capturedAt := none
  canceledAt := none
  supersededAt := none
  createdAt := 700

/-- The paid order, whose customer has just put a second hold in place for a counter-offer. -/
def saleWorld : World := { searchWorld with
  counterOffers := Table.empty.set 3 acceptedCounter
  payments := (Table.empty.set 5 heldPayment).set 6 replacementPayment
  provider := ⟨(Table.empty.set 9 ⟨10000, .requiresCapture⟩).set 10 ⟨12000, .requiresCapture⟩,
    .empty, .empty⟩ }

end Orphan

end CarSalePro
