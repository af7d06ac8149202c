import ConfinedDb.Text.Utf8
import ConfinedDb.Text.Unprintable
/-!
# Quoted text

The form in which texts and paths appear in diagnostics: between double quotes, with backslash
escapes for the quote, the backslash, and the characters that have no printed form. A single quote
stands as it is. Bytes that are no text appear as `\xFF`.
-/
namespace ConfinedDb.Text

/-- A number in lower-case hexadecimal. -/
def hex (n : Nat) : String := String.ofList (Nat.toDigits 16 n)

/-- A byte as two upper-case hexadecimal digits. -/
def hexByte (b : UInt8) : String :=
  let digits := Nat.toDigits 16 b.toNat
  String.ofList ((if digits.length < 2 then '0' :: digits else digits).map Char.toUpper)

def escapeChar : Char → String
  | '\x00' => "\\0"
  | '\t' => "\\t"
  | '\r' => "\\r"
  | '\n' => "\\n"
  | '"' => "\\\""
  | '\\' => "\\\\"
  | c => if isPrintable c then c.toString else "\\u\x7b" ++ hex c.toNat ++ "\x7d"

def quote (s : String) : String := "\"" ++ String.join (s.toList.map escapeChar) ++ "\""

/-- A byte string between quotes. -/
def quoteBytes (bytes : Bytes) : String :=
  let escapePiece : Utf8.Piece → String
    | .char c => escapeChar c
    | .broken bytes _ => String.join (bytes.map fun b => "\\x" ++ hexByte b)
  "\"" ++ String.join ((Utf8.pieces bytes).map escapePiece) ++ "\""

/-- A value that may be absent. -/
def optional (write : α → String) : Option α → String
  | none => "None"
  | some a => "Some(" ++ write a ++ ")"

end ConfinedDb.Text
