/-!
Rounding a quotient of naturals to the nearest integer, ties to the even one.
-/

-- Powers of naturals and of integers are the core library's, whatever algebra is in sight.
attribute [instance (2000), default_instance 20000] instPowNat

namespace RobotRoutine.Number

/-- The integer nearest to `num / den`; of two equally near ones, the even one. -/
def roundDiv (num den : Nat) : Nat :=
  let quotient := num / den
  let twice := 2 * (num % den)
  if twice < den then quotient
  else if den < twice then quotient + 1
  else if quotient % 2 = 0 then quotient
  else quotient + 1

end RobotRoutine.Number
