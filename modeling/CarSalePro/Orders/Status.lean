import Mathlib.Data.List.Basic

namespace CarSalePro

inductive OrderStatus where
  | created | paid | unassigned | assigned | enRoute | inProgress | submitted
  | approved | completed | cancelled | disputed | refunded
  deriving DecidableEq, Repr

open OrderStatus

def OrderStatus.wire : OrderStatus → String
  | created => "CREATED"
  | paid => "PAID"
  | unassigned => "UNASSIGNED"
  | assigned => "ASSIGNED"
  | enRoute => "EN_ROUTE"
  | inProgress => "IN_PROGRESS"
  | submitted => "SUBMITTED"
  | approved => "APPROVED"
  | completed => "COMPLETED"
  | cancelled => "CANCELLED"
  | disputed => "DISPUTED"
  | refunded => "REFUNDED"

/-- The allowed status edges. -/
def orderTransitions : OrderStatus → List OrderStatus
  | created => [paid, cancelled]
  | paid => [assigned, unassigned, cancelled]
  | unassigned => [assigned, cancelled]
  | assigned => [enRoute, cancelled]
  | enRoute => [inProgress, cancelled]
  | inProgress => [submitted, disputed, cancelled]
  | submitted => [approved, disputed]
  | approved => [completed]
  | disputed => [refunded, approved, completed]
  | cancelled => [refunded]
  | completed => []
  | refunded => []

def canTransition (s t : OrderStatus) : Bool := (orderTransitions s).contains t

/-- Statuses where the assigned inspector may attach the completed report. -/
def attachableReportOrderStatuses : List OrderStatus := [assigned, enRoute, inProgress]

/-- Statuses in which a search for an inspector is still open. -/
def preAssignmentStatuses : List OrderStatus := [created, paid, unassigned]

/-- Statuses in which an inspector has committed to the job. -/
def postAssignmentStatuses : List OrderStatus :=
  [assigned, enRoute, inProgress, submitted, approved, disputed]

/-- The order waits for an inspector: these are the statuses a claim is guarded on. -/
def searchStatuses : List OrderStatus := [paid, unassigned]

/-- Statuses in which an inspector is busy with the order. -/
def busyStatuses : List OrderStatus := [assigned, enRoute, inProgress]

/-- Statuses the assigned inspector may hand the job back in. -/
def declinableStatuses : List OrderStatus := [assigned, enRoute, inProgress]

def beforeAssignStatuses : List OrderStatus := [created, paid, unassigned]

def afterAssignStatuses : List OrderStatus := [assigned, enRoute]

theorem canTransition_irrefl (s : OrderStatus) : canTransition s s = false := by
  cases s <;> rfl

/-- A completed order stays completed. -/
theorem canTransition_completed (t : OrderStatus) : canTransition completed t = false := rfl

/-- An order is assigned only out of the search. -/
theorem canTransition_assigned {s : OrderStatus} (h : canTransition s assigned) :
    s ∈ searchStatuses := by
  revert h; cases s <;> decide

theorem canTransition_declinable {s : OrderStatus} (h : s ∈ declinableStatuses) :
    canTransition s cancelled = true := by
  revert h; cases s <;> decide

theorem canTransition_search {s : OrderStatus} (h : s ∈ searchStatuses) :
    canTransition s cancelled = true := by
  revert h; cases s <;> decide

end CarSalePro
