import Atomistic.Text.Hidden

/-!
# Quoted text

A text between quotes, in which nothing is invisible: quotes and backslashes are marked by a
backslash, the usual control characters have a letter, and every character without a shape of its
own is written as its code.
-/

namespace Atomistic.Text

/-- The letter for a character that is written as a backslash and a letter. -/
def shortEscape? (c : Char) : Option Char :=
  match c with
  | '\x00' => some '0'
  | '\t' => some 't'
  | '\r' => some 'r'
  | '\n' => some 'n'
  | '\\' => some '\\'
  | '"' => some '"'
  | _ => none

/-- A character by its code. -/
def codeEscape (c : Char) : String :=
  "\\u\x7b" ++ String.ofList (Nat.toDigits 16 c.toNat) ++ "\x7d"

/-- A character inside of quotes. -/
def quoteChar (c : Char) : String :=
  match shortEscape? c with
  | some letter => "\\" ++ String.singleton letter
  | none => if isHidden c then codeEscape c else String.singleton c

/-- A text between quotes. -/
def quote (s : String) : String := "\"" ++ String.join (s.toList.map quoteChar) ++ "\""

end Atomistic.Text
