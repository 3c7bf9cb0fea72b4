/-
# Tokens of XML

What the texts of a document and of its declarations are made of: characters, names with at most one
colon, references, literals in quotes, comments and instructions. Each reader takes the text from
its place on and gives what stands there and the text behind it.
-/

import CodeSurvey.Text.Lines
import CodeSurvey.Xml.NameRuns

namespace CodeSurvey
namespace Xml

/-- White space. -/
def isSpace (c : Char) : Bool := c == ' ' || c == '\t' || c == '\n' || c == '\r'

/-- A character that a document may hold. -/
def isAllowed (c : Char) : Bool :=
  isSpace c || (32 ≤ c.toNat && c.toNat != 0xFFFE && c.toNat != 0xFFFF)

/-- A character that starts a name. -/
def startsName (c : Char) : Bool := c.toNat < 0x10000 && Text.inRuns nameStartRuns c.toNat

/-- A character of a name. -/
def isNameChar (c : Char) : Bool := c.toNat < 0x10000 && Text.inRuns nameRuns c.toNat

/-- The text after white space. -/
def afterSpace (cs : List Char) : List Char := cs.dropWhile isSpace

/-- The text after white space, of which there must be some. -/
def afterSomeSpace : List Char → Option (List Char)
  | c :: r => if isSpace c then some (afterSpace r) else none
  | [] => none

/-- The text after a word, if it starts with the word. -/
def afterWord (word : String) (cs : List Char) : Option (List Char) :=
  if word.toList.isPrefixOf cs then some (cs.drop word.length) else none

/-- A name without a colon. -/
def word? (cs : List Char) : Option (String × List Char) :=
  if cs.head?.any startsName then
    some (String.ofList (cs.takeWhile isNameChar), cs.dropWhile isNameChar)
  else none

/-- A name as it is written: the part before its colon, if it has one, and its word. -/
structure Tag where
  family : Option String := none
  word : String
  deriving DecidableEq, Repr

/-- A name with at most one colon. -/
def tag? (cs : List Char) : Option (Tag × List Char) := do
  let (w, r) ← word? cs
  match r with
  | ':' :: t =>
    let (v, t) ← word? t
    return (⟨some w, v⟩, t)
  | _ => return (⟨none, w⟩, r)

/-- The text before the first occurrence of a word and the text after it. -/
def cutAtWord (word : List Char) : List Char → Option (List Char × List Char)
  | [] => none
  | c :: r =>
    if word.isPrefixOf (c :: r) then some ([], (c :: r).drop word.length)
    else (cutAtWord word r).map fun (a, b) => (c :: a, b)

/-- The text after a comment whose opening has been read: no two hyphens stand in it. -/
def afterComment (cs : List Char) : Option (List Char) := do
  let (body, r) ← cutAtWord ['-', '-'] cs
  if body.all isAllowed then
    match r with
    | '>' :: t => return t
    | _ => none
  else none

/-- The text after an instruction whose opening has been read; its target is
not `xml` in any case. -/
def afterInstruction (cs : List Char) : Option (List Char) := do
  let (target, r) ← word? cs
  if ["xml", "xmL", "xMl", "xML", "Xml", "XmL", "XMl", "XML"].contains target then none
  else
    match afterWord "?>" r with
    | some t => return t
    | none =>
      let (body, t) ← cutAtWord ['?', '>'] (← afterSomeSpace r)
      if body.all isAllowed then return t else none

/-- What an ampersand refers to: a character by its number, or an entity by its name. -/
inductive Reference
  | char (c : Char)
  | entity (name : String)

/-- The value of a digit in a base. -/
def digitIn (base : Nat) (c : Char) : Option Nat :=
  let v :=
    if '0' ≤ c ∧ c ≤ '9' then c.toNat - 48
    else if 'a' ≤ c ∧ c ≤ 'f' then c.toNat - 87
    else if 'A' ≤ c ∧ c ≤ 'F' then c.toNat - 55
    else base
  if v < base then some v else none

/-- The character of a number, if a document may hold it. -/
def allowedChar? (n : Nat) : Option Char :=
  if h : n.isValidChar then
    let c := Char.ofNatAux n h
    if isAllowed c then some c else none
  else none

/-- A reference after its ampersand. -/
def reference? (cs : List Char) : Option (Reference × List Char) :=
  match cs with
  | '#' :: r =>
    let (base, r) := match r with
      | 'x' :: t => (16, t)
      | t => (10, t)
    let ds := r.takeWhile fun c => (digitIn base c).isSome
    match r.drop ds.length with
    | ';' :: t =>
      if ds.isEmpty then none
      else (allowedChar? (ds.foldl (fun n d => base * n + (digitIn base d).getD 0) 0)).map fun c =>
        (.char c, t)
    | _ => none
  | cs => do
    let (name, r) ← word? cs
    match r with
    | ';' :: t => return (.entity name, t)
    | _ => none

/-- The character that one of the five names stands for that need no declaration. -/
def predefined? (name : String) : Option Char :=
  [("lt", '<'), ("gt", '>'), ("amp", '&'), ("quot", '"'), ("apos", '\x27')].lookup name

/-- A text in quotes. -/
def quoted? : List Char → Option (List Char × List Char)
  | [] => none
  | q :: r =>
    if q != '"' && q != '\x27' then none
    else
      match r.dropWhile (· != q) with
      | [] => none
      | _ :: t => some (r.takeWhile (· != q), t)

end Xml
end CodeSurvey
