import ConfinedDb.Text.Utf8
/-!
# Percent coding

Writing keeps ASCII letters, digits and `-_.~` and turns every other byte of the UTF-8 form into `%`
and two upper-case hexadecimal digits. Reading turns `%` and two hexadecimal digits of either case
into their byte and keeps every other byte, a `%` without two digits after it included.
-/
namespace ConfinedDb.Percent

def sign : UInt8 := 0x25

def digit? (b : UInt8) : Option UInt8 :=
  if 0x30 ≤ b ∧ b ≤ 0x39 then some (b - 0x30)
  else if 0x41 ≤ b ∧ b ≤ 0x46 then some (b - 0x37)
  else if 0x61 ≤ b ∧ b ≤ 0x66 then some (b - 0x57)
  else none

/-- The byte written by `%` and the two bytes after it, if they are digits. -/
def escaped? (high low : UInt8) : Option UInt8 := do
  return (← digit? high) * 16 + (← digit? low)

/-- Reads the escapes of a byte string. -/
def decode : Bytes → Bytes
  | b :: high :: low :: rest =>
    if b = sign then
      match escaped? high low with
      | some byte => byte :: decode rest
      | none => b :: decode (high :: low :: rest)
    else b :: decode (high :: low :: rest)
  | bytes => bytes

/-- Bytes that are written as they stand. -/
def isPlain (b : UInt8) : Bool :=
  (0x30 ≤ b && b ≤ 0x39) || (0x41 ≤ b && b ≤ 0x5A) || (0x61 ≤ b && b ≤ 0x7A) ||
    b == 0x2D || b == 0x5F || b == 0x2E || b == 0x7E

/-- The upper-case hexadecimal digit of a number below sixteen. -/
def hexChar (n : Nat) : Char := Char.ofNat (if n < 10 then 0x30 + n else 0x37 + n)

/-- The written form of one byte. -/
def encodeByte (b : UInt8) : List Char :=
  if isPlain b then [Char.ofNat b.toNat] else ['%', hexChar (b.toNat / 16), hexChar (b.toNat % 16)]

/-- The written form of a text. -/
def encode (s : String) : String := String.ofList ((Utf8.encode s).flatMap encodeByte)

end ConfinedDb.Percent
