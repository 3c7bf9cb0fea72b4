/-
# Writing JSON

Two layouts of one value. The compact one stands on one line and escapes only what must be
escaped: the quote, the backslash and control characters. The indented one has two spaces a
level, every container that is not empty spread over lines, and every character beyond ASCII
written as one or two `\u` units.
-/

import CodeSurvey.Json

namespace CodeSurvey
namespace Json

/-- The escape of a character that has a letter of its own. -/
def letterEscape? : Char → Option Char
  | '"' => some '"'
  | '\\' => some '\\'
  | '\n' => some 'n'
  | '\r' => some 'r'
  | '\t' => some 't'
  | '\x08' => some 'b'
  | '\x0c' => some 'f'
  | _ => none

/-- The escape of one sixteen-bit unit. -/
def unitEscape (n : Nat) : List Char := '\\' :: 'u' :: Text.hexDigits 4 n

/-- A character in a string of ASCII characters. -/
def asciiChar (c : Char) : List Char :=
  match letterEscape? c with
  | some e => ['\\', e]
  | none =>
    if 32 ≤ c.toNat ∧ c.toNat < 127 then [c]
    else if c.toNat < 0x10000 then unitEscape c.toNat
    else
      unitEscape (0xD800 + (c.toNat - 0x10000) / 1024) ++
        unitEscape (0xDC00 + (c.toNat - 0x10000) % 1024)

/-- A character in a string that keeps every script. -/
def plainChar (c : Char) : List Char :=
  match letterEscape? c with
  | some e => ['\\', e]
  | none => if c.toNat < 32 then unitEscape c.toNat else [c]

/-- A text in double quotes, its characters written by `f`. -/
def quotedWith (f : Char → List Char) (s : String) : String :=
  String.ofList ('"' :: s.toList.flatMap f ++ ['"'])

/-- A number; the words for infinite and undefined ones stand without quotes. -/
def numberText (x : Binary64) : String :=
  match x with
  | .nan => "NaN"
  | .infinite s => if s then "-Infinity" else "Infinity"
  | x => x.shortest

mutual

/-- The value on one line. -/
def compact : Json → String
  | null => "null"
  | bool b => if b then "true" else "false"
  | int n => toString n
  | real x => numberText x
  | text s => quotedWith plainChar s
  | array xs => "[" ++ compactItems xs ++ "]"
  | object ms => "\x7b" ++ compactMembers ms ++ "\x7d"

/-- Items with commas between them. -/
def compactItems : List Json → String
  | [] => ""
  | [x] => compact x
  | x :: y :: rest => compact x ++ "," ++ compactItems (y :: rest)

/-- Members with commas between them. -/
def compactMembers : List (String × Json) → String
  | [] => ""
  | [(k, v)] => quotedWith plainChar k ++ ":" ++ compact v
  | (k, v) :: m :: rest =>
    quotedWith plainChar k ++ ":" ++ compact v ++ "," ++ compactMembers (m :: rest)

end

/-- A line break and the indentation of a level. -/
def newline (level : Nat) : String := String.ofList ('\n' :: List.replicate (2 * level) ' ')

mutual

/-- The value spread over lines, at the given level. -/
def indentedAt (level : Nat) : Json → String
  | null => "null"
  | bool b => if b then "true" else "false"
  | int n => toString n
  | real x => numberText x
  | text s => quotedWith asciiChar s
  | array [] => "[]"
  | array (x :: xs) =>
    "[" ++ newline (level + 1) ++ indentedItems (level + 1) (x :: xs) ++ newline level ++ "]"
  | object [] => "\x7b\x7d"
  | object (m :: ms) =>
    "\x7b" ++ newline (level + 1) ++ indentedMembers (level + 1) (m :: ms) ++
      newline level ++ "\x7d"

/-- Items on lines of their own. -/
def indentedItems (level : Nat) : List Json → String
  | [] => ""
  | [x] => indentedAt level x
  | x :: y :: rest => indentedAt level x ++ "," ++ newline level ++ indentedItems level (y :: rest)

/-- Members on lines of their own. -/
def indentedMembers (level : Nat) : List (String × Json) → String
  | [] => ""
  | [(k, v)] => quotedWith asciiChar k ++ ": " ++ indentedAt level v
  | (k, v) :: m :: rest =>
    quotedWith asciiChar k ++ ": " ++ indentedAt level v ++ "," ++ newline level ++
      indentedMembers level (m :: rest)

end

/-- The value spread over lines. -/
def indented (v : Json) : String := indentedAt 0 v

end Json
end CodeSurvey
