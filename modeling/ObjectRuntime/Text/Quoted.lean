import ObjectRuntime.Text.Extending
import ObjectRuntime.Text.Invisible

/-!
# Quoted text

A text between double quotes in which everything that cannot be seen, or that would attach to its
neighbour, is written by its code point. Other characters stand for themselves, the apostrophe
included.
-/

set_option autoImplicit false

namespace ObjectRuntime.Text

def escapeLetter? : Char → Option Char
  | '\t' => some 't'
  | '\r' => some 'r'
  | '\n' => some 'n'
  | '\\' => some '\\'
  | '"' => some '"'
  | '\x00' => some '0'
  | _ => none

/-- The code point in lower-case hexadecimal digits, in braces after a backslash and `u`. -/
def codePointEscape (c : Char) : List Char :=
  '\\' :: 'u' :: '{' :: (Nat.toDigits 16 c.toNat ++ ['}'])

def escape (c : Char) : List Char :=
  match escapeLetter? c with
  | some letter => ['\\', letter]
  | none => if isExtending c || isInvisible c then codePointEscape c else [c]

def quote (text : String) : String :=
  String.ofList ('"' :: (text.toList.flatMap escape ++ ['"']))

end ObjectRuntime.Text
