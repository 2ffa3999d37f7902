import Dataflow.Text.Printable
import Dataflow.Text.Extender

/-!
# Quoted characters and strings

Diagnostics show characters and strings between quotes.  A character that would be lost or would
disturb the quotes is written as an escape: the usual short escapes, and `\u` with the code point
in braces for characters that do not print or that merge with their neighbour.
-/

namespace Dataflow
namespace Text

/-- The escape of a character by its code point, in lower-case hexadecimal digits. -/
def codePointEscape (c : Char) : List Char :=
  ['\\', 'u', '\x7b'] ++ Nat.toDigits 16 c.toNat ++ ['\x7d']

/-- A character as it is written between a pair of the quotes `quote`.  Only this quote is escaped;
the other one stands for itself. -/
def escape (quote c : Char) : List Char :=
  match c with
  | '\x00' => ['\\', '0']
  | '\t' => ['\\', 't']
  | '\r' => ['\\', 'r']
  | '\n' => ['\\', 'n']
  | '\\' => ['\\', '\\']
  | _ =>
    if c = quote then ['\\', c]
    else if isExtender c || !isPrintable c then codePointEscape c
    else [c]

/-- A character between single quotes. -/
def quoteChar (c : Char) : String :=
  String.ofList ('\'' :: (escape '\'' c ++ ['\'']))

/-- A string between double quotes. -/
def quoteString (s : String) : String :=
  String.ofList ('"' :: (s.toList.flatMap (escape '"') ++ ['"']))

end Text
end Dataflow
