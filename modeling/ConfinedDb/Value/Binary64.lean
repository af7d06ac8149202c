/-!
# Double precision numbers

A double is kept as its 64 bits, so that zeros of either sign and all NaNs stay apart where they are
stored, and equal numbers are equal where they are compared. Integers and single precision numbers
are widened by arithmetic on the fields: sign, eleven bits of exponent with bias 1023, and 52 bits
of fraction.
-/
namespace ConfinedDb

/-- The bits of a double precision number. -/
structure Binary64 where
  bits : UInt64
deriving DecidableEq, Repr

/-- The bits of a single precision number. -/
structure Binary32 where
  bits : UInt32
deriving DecidableEq, Repr

namespace Binary64

/-- One unit of the exponent field, which is one more than the largest fraction. -/
def exponentUnit : Nat := 1 <<< 52

def signBit : Nat := 1 <<< 63

/-- The exponent field of infinities and of what is no number. -/
def topExponent : Nat := 2047

/-- Puts the fields together; a fraction that is too large carries into the exponent. -/
def ofFields (negative : Bool) (exponent fraction : Nat) : Binary64 :=
  ⟨UInt64.ofNat ((if negative then signBit else 0) + exponent * exponentUnit + fraction)⟩

/-- The quotient rounded to the nearest integer, a half to the even one. -/
def roundHalfEven (n d : Nat) : Nat :=
  let q := n / d
  let twice := 2 * (n % d)
  if twice < d then q else if twice > d then q + 1 else q + q % 2

/-- The double nearest to a whole number; of two the one with an even fraction. -/
def ofInt (i : Int) : Binary64 :=
  let m := i.natAbs
  if m = 0 then ofFields false 0 0
  else
    let e := m.log2
    let significand := if e ≤ 52 then m <<< (52 - e) else roundHalfEven m (1 <<< (e - 52))
    ofFields (i < 0) (e + 1023) (significand - exponentUnit)

/-- The double of the same value as a single, whose exponent has eight bits with bias 127 and whose
fraction has 23. A signaling NaN becomes quiet and keeps its payload. -/
def ofBinary32 (x : Binary32) : Binary64 :=
  let negative := (x.bits.toNat >>> 31) = 1
  let exponent := (x.bits.toNat >>> 23) % 256
  let fraction := x.bits.toNat % (1 <<< 23)
  let quiet := 1 <<< 22
  if exponent = 255 then
    if fraction = 0 then ofFields negative topExponent 0
    else
      let payload := if fraction < quiet then fraction + quiet else fraction
      ofFields negative topExponent (payload <<< 29)
  else if exponent ≠ 0 then ofFields negative (exponent + 896) (fraction <<< 29)
  else if fraction = 0 then ofFields negative 0 0
  else
    let e := fraction.log2
    ofFields negative (e + 874) ((fraction <<< (52 - e)) - exponentUnit)

def magnitude (x : Binary64) : Nat := x.bits.toNat % signBit

/-- Whether the bits stand for no number. -/
def isNaN (x : Binary64) : Bool := x.magnitude > topExponent * exponentUnit

/-- Whether the bits stand for zero, of either sign. -/
def isZero (x : Binary64) : Bool := x.magnitude = 0

/-- Equality as numbers: a NaN equals nothing, and the two zeros are equal. -/
def sameNumber (x y : Binary64) : Bool :=
  !x.isNaN && !y.isNaN && (x == y || (x.isZero && y.isZero))

end Binary64

end ConfinedDb
