/-!
# UTF-8

A byte string is cut into pieces: characters, and stretches that belong to no character. A stretch
is the longest start of a character that the bytes still agree with, so that one damaged character
is one stretch and not several. The strict reading fails at the first stretch and tells where it is;
the lossy reading puts U+FFFD in its place.
-/
namespace ConfinedDb

abbrev Bytes := List UInt8

namespace Utf8

/-- The UTF-8 form of a text. -/
def encode (s : String) : Bytes := s.toList.flatMap String.utf8EncodeChar

/-- The ranges that the bytes after lead byte `b` must lie in, one for each; none when no character
starts with `b`. The first range is narrower where it keeps out overlong forms, surrogates and code
points above U+10FFFF. -/
def followers? (b : UInt8) : Option (List (UInt8 × UInt8)) :=
  if b < 0x80 then some []
  else if b < 0xC2 then none
  else if b < 0xE0 then some [(0x80, 0xBF)]
  else if b = 0xE0 then some [(0xA0, 0xBF), (0x80, 0xBF)]
  else if b = 0xED then some [(0x80, 0x9F), (0x80, 0xBF)]
  else if b < 0xF0 then some [(0x80, 0xBF), (0x80, 0xBF)]
  else if b = 0xF0 then some [(0x90, 0xBF), (0x80, 0xBF), (0x80, 0xBF)]
  else if b < 0xF4 then some [(0x80, 0xBF), (0x80, 0xBF), (0x80, 0xBF)]
  else if b = 0xF4 then some [(0x80, 0x8F), (0x80, 0xBF), (0x80, 0xBF)]
  else none

/-- How many bytes at the front lie in their ranges. -/
def agreeing : List (UInt8 × UInt8) → Bytes → Nat
  | (low, high) :: ranges, b :: rest =>
    if low ≤ b ∧ b ≤ high then agreeing ranges rest + 1 else 0
  | _, _ => 0

theorem agreeing_le_length (ranges : List (UInt8 × UInt8)) (bytes : Bytes) :
    agreeing ranges bytes ≤ bytes.length := by
  induction ranges generalizing bytes with
  | nil => simp [agreeing]
  | cons r ranges ih =>
    cases bytes with
    | nil => simp [agreeing]
    | cons b rest =>
      simp only [agreeing, List.length_cons]
      split
      · exact Nat.succ_le_succ (ih rest)
      · exact Nat.zero_le _

/-- The character of a lead byte and its followers: the payload bits of the lead byte, then six bits
of each follower. -/
def assemble (lead : UInt8) (tail : Bytes) : Char :=
  let top := if tail.isEmpty then lead.toNat else lead.toNat % (1 <<< (6 - tail.length))
  Char.ofNat (tail.foldl (fun code b => code * 64 + b.toNat % 64) top)

/-- A character, or bytes that are part of none; `cut` tells that the input ended inside them. -/
inductive Piece where
  | char (c : Char)
  | broken (bytes : Bytes) (cut : Bool)
deriving DecidableEq, Repr

/-- The pieces of a byte string, in order. -/
def pieces : Bytes → List Piece
  | [] => []
  | b :: rest =>
    match followers? b with
    | none => .broken [b] false :: pieces rest
    | some ranges =>
      let n := agreeing ranges rest
      if n = ranges.length then .char (assemble b (rest.take n)) :: pieces (rest.drop n)
      else .broken (b :: rest.take n) (n = rest.length) :: pieces (rest.drop n)
termination_by bytes => bytes.length
decreasing_by all_goals (simp only [List.length_cons, List.length_drop]; omega)

def Piece.bytes : Piece → Bytes
  | .char c => String.utf8EncodeChar c
  | .broken bytes _ => bytes

/-- Why a byte string is no text. -/
inductive Fault where
  /-- `length` bytes from `index` on can be part of no character. -/
  | invalid (length index : Nat)
  /-- The input ends inside the character that starts at `index`. -/
  | incomplete (index : Nat)
deriving DecidableEq, Repr

def Fault.message : Fault → String
  | .invalid length index => s!"invalid utf-8 sequence of {length} bytes from index {index}"
  | .incomplete index => s!"incomplete utf-8 byte sequence from index {index}"

/-- Reads pieces strictly, `index` bytes into the input. -/
def strict (index : Nat) : List Piece → Except Fault (List Char)
  | [] => .ok []
  | .char c :: rest => (strict (index + c.utf8Size) rest).map (c :: ·)
  | .broken bytes cut :: _ =>
    .error (if cut then .incomplete index else .invalid bytes.length index)

/-- The text of a byte string, or the first fault in it. -/
def decode (bytes : Bytes) : Except Fault String :=
  (strict 0 (pieces bytes)).map String.ofList

/-- The text of a byte string, with U+FFFD for each stretch that is part of no character. -/
def lossy (bytes : Bytes) : String :=
  String.ofList <| (pieces bytes).map fun
    | .char c => c
    | .broken .. => '\uFFFD'

end Utf8

end ConfinedDb
