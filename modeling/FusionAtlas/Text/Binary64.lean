/-!
Binary floating point numbers of 64 bits, as their bits. A decimal number is rounded to the nearest
of them in exact arithmetic, a tie going to the even one.
-/

set_option autoImplicit false
set_option relaxedAutoImplicit false

namespace FusionAtlas

/-- The sign, eleven bits of exponent and fifty-two bits of fraction. -/
structure Binary64 where
  bits : UInt64
  deriving DecidableEq, Repr, Inhabited

namespace Binary64

def magnitude (x : Binary64) : Nat := x.bits.toNat % Nat.pow 2 63

def infinity : Binary64 := ⟨0x7FF0000000000000⟩

def negInfinity : Binary64 := ⟨0xFFF0000000000000⟩

def nan : Binary64 := ⟨0x7FF8000000000000⟩

def isNan (x : Binary64) : Bool := infinity.magnitude < x.magnitude

/-- Equal bits, or both zero, or both no number. -/
def sameNumber (x y : Binary64) : Bool :=
  x == y || (x.magnitude == 0 && y.magnitude == 0) || (x.isNan && y.isNan)

/-- The quotient of two numbers, rounded to a whole number, a tie going to the even one. -/
def roundQuotient (num den : Nat) : Nat :=
  let q := num / den
  let twice := 2 * (num % den)
  if den < twice ∨ (twice = den ∧ q % 2 = 1) then q + 1 else q

/-- Magnitude bits of the number nearest to a positive quotient; `none` if it is not finite. The
last place is chosen so that the fraction has fifty-three bits, or is the last place of the smallest
numbers. -/
def magnitudeOfQuotient? (num den : Nat) : Option Nat :=
  let guess : Int := Int.ofNat num.log2 - Int.ofNat den.log2
  let place : Int := max (guess - 52) (-1074)
  let whole := num * Nat.pow 2 (-place).toNat / (den * Nat.pow 2 place.toNat)
  let place : Int := if whole < Nat.pow 2 52 ∧ -1074 < place then place - 1 else place
  let scaled := roundQuotient (num * Nat.pow 2 (-place).toNat) (den * Nat.pow 2 place.toNat)
  let magnitude := (place + 1074).toNat * Nat.pow 2 52 + scaled
  if magnitude < infinity.magnitude then some magnitude else none

/-- The number nearest to `digits · 10 ^ exponent`, if it is finite. An exponent far outside the
range of numbers decides alone. -/
def ofDecimal? (negative : Bool) (digits : Nat) (exponent : Int) : Option Binary64 :=
  let sign : Nat := if negative then Nat.pow 2 63 else 0
  let finite (magnitude : Nat) : Option Binary64 := some ⟨UInt64.ofNat (sign + magnitude)⟩
  if digits = 0 then finite 0
  else
    let size : Int := Int.ofNat (digits.log2 * 30103 / 100000)
    if 400 < exponent + size then none
    else if exponent + size < -400 then finite 0
    else
      (magnitudeOfQuotient? (digits * Nat.pow 10 exponent.toNat)
        (Nat.pow 10 (-exponent).toNat)).bind finite

end Binary64

end FusionAtlas
