import CarSalePro.Orders.Effects

namespace CarSalePro

open Store Interleave

namespace PaymentStatus

/-- The money is gone from the row: given back, or never taken. -/
def ended (s : PaymentStatus) : Bool := s = refunded || s = cancelled

/-- The money was taken, or is gone. -/
def settled (s : PaymentStatus) : Bool := s = succeeded || s.ended

end PaymentStatus

end CarSalePro
