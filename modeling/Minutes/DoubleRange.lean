/-!
The range of floating-point numbers of double precision.
-/
namespace Minutes.DoubleRange

/-- The least number that rounds to infinity. -/
def bound : Nat := Nat.pow 2 1024 - Nat.pow 2 970

end Minutes.DoubleRange
