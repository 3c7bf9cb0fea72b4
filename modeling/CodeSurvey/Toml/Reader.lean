/-
# Reading TOML

A document is a sequence of statements, one a line: a key and its value, the header of a table, or
the header of an item of an array of tables. `Toml.read` gives the table that the document
describes. A line may end in carriage return and line feed.

Values nest, so the readers of values take an allowance of steps; every step takes a character away,
and `Toml.read` allows more steps than the text has characters.

They also count the calls that are under way: an item of an array stands two calls deeper than the
array, and a value of an inline table three calls deeper than the table. Whether a value can be read
inside so many calls is given, as `fits`; one that cannot is too deep.
-/

import CodeSurvey.Toml.Scalar

namespace CodeSurvey
namespace Toml

/-- A character of a key without quotes. -/
def isBareKeyChar (c : Char) : Bool := Text.isAlphanumericAscii c || c == '-' || c == '_'

/-- A character with which a key starts. -/
def startsKey (c : Char) : Bool := isBareKeyChar c || c == '"' || c == '\x27'

/-- One part of a key. -/
def keyPart (cs : List Char) : Except Fault (Rest String) :=
  match cs with
  | [] => .error .malformed
  | c :: r =>
    if isBareKeyChar c then
      .ok (String.ofList (cs.takeWhile isBareKeyChar), cs.dropWhile isBareKeyChar)
    else if c == '\x27' then (literalString r).map fun (s, t) => (String.ofList s, t)
    else if c == '"' then (basicString false r).map fun (s, t) => (String.ofList s, t)
    else .error .malformed

/-- A key: its parts stand between dots. -/
def key : (allowed : Nat) → List Char → Except Fault (Rest KeyPath)
  | 0, _ => .error .malformed
  | allowed + 1, cs => do
    let (k, r) ← keyPart cs
    match afterSpace r with
    | '.' :: t =>
      let (ks, t) ← key allowed (afterSpace t)
      return (k :: ks, t)
    | t => return ([k], t)

/-- An item stands so many calls deeper than its array. -/
def callsPerArray : Nat := 2

/-- A value stands so many calls deeper than its inline table. -/
def callsPerTable : Nat := 3

section Nested

variable (fits : (calls : Nat) → List Char → Bool)

mutual

/-- A value inside some calls. -/
def value : (allowed calls : Nat) → List Char → Except Fault (Rest Toml)
  | 0, _, _ => .error .malformed
  | allowed + 1, calls, cs =>
    if !fits calls cs then .error .tooDeep
    else
      match cs with
      | [] => .error .malformed
      | c :: r =>
        if c == '"' || c == '\x27' then (string cs).map fun (s, t) => (.text (String.ofList s), t)
        else if "true".toList.isPrefixOf cs then .ok (.boolean true, cs.drop 4)
        else if "false".toList.isPrefixOf cs then .ok (.boolean false, cs.drop 5)
        else if c == '[' then do
          let r ← afterGap r
          (items allowed (calls + callsPerArray) [] r).map fun (vs, t) => (.array vs, t)
        else if c == '\x7b' then
          match afterSpace r with
          | '\x7d' :: t => .ok (.table [], t)
          | r => (pairs allowed (calls + callsPerTable) {} r).map fun (ms, t) => (.table ms, t)
        else numeral cs

/-- The items of an array that are left, after those read. -/
def items : (allowed calls : Nat) → List Toml → List Char → Except Fault (Rest (List Toml))
  | 0, _, _, _ => .error .malformed
  | allowed + 1, calls, done, cs =>
    match cs with
    | ']' :: r => .ok (done.reverse, r)
    | cs => do
      let (v, r) ← value allowed calls cs
      match ← afterGap r with
      | ']' :: t => return ((v :: done).reverse, t)
      | ',' :: t => items allowed calls (v :: done) (← afterGap t)
      | _ => throw .malformed

/-- The pairs of an inline table that are left, after those read. -/
def pairs : (allowed calls : Nat) → InlineTable → List Char → Except Fault (Rest Members)
  | 0, _, _, _ => .error .malformed
  | allowed + 1, calls, done, cs => do
    let (k, r) ← key allowed cs
    match r with
    | '=' :: r =>
      let (v, r) ← value allowed calls (afterSpace r)
      match done.assign k v with
      | none => throw .malformed
      | some done =>
        match afterSpace r with
        | '\x7d' :: t => return (done.members, t)
        | ',' :: t => pairs allowed calls done (afterSpace t)
        | _ => throw .malformed
    | _ => throw .malformed

end

end Nested

/-- What a statement gives, unless it is refused. -/
def accepted {α : Type} : Option α → Except Fault α
  | some a => .ok a
  | none => .error .malformed

/-- The document after the statement that starts here, and the text behind it. -/
def statement (fits : Nat → List Char → Bool) (allowed : Nat) (d : Document) (cs : List Char) :
    Except Fault (Rest Document) :=
  match cs with
  | '[' :: '[' :: r => do
    let (k, r) ← key allowed (afterSpace r)
    let d ← accepted (d.openItem k)
    match r with
    | ']' :: ']' :: t => return (d, afterSpace t)
    | _ => throw .malformed
  | '[' :: r => do
    let (k, r) ← key allowed (afterSpace r)
    let d ← accepted (d.openTable k)
    match r with
    | ']' :: t => return (d, afterSpace t)
    | _ => throw .malformed
  | '#' :: _ => .ok (d, cs)
  | c :: _ =>
    if !startsKey c then .error .malformed
    else do
      let (k, r) ← key allowed cs
      match r with
      | '=' :: r =>
        let (v, r) ← value fits allowed 0 (afterSpace r)
        return (← accepted (d.assign k v), afterSpace r)
      | _ => throw .malformed
  | [] => .ok (d, [])

/-- The document after the lines that are left; `steps` is the allowance of each statement. -/
def statements (fits : Nat → List Char → Bool) (steps : Nat) :
    (allowed : Nat) → Document → List Char → Except Fault Document
  | 0, _, _ => .error .malformed
  | allowed + 1, d, cs =>
    match afterSpace cs with
    | [] => .ok d
    | '\n' :: r => statements fits steps allowed d r
    | cs => do
      let (d, r) ← statement fits steps d cs
      match ← afterComment r with
      | [] => return d
      | '\n' :: t => statements fits steps allowed d t
      | _ => throw .malformed

/-- Where nothing else is said, a value can be read inside fewer calls than this. -/
def usualCalls : Nat := 960

/-- Whether a value usually can be read inside so many calls, whatever it is. -/
def usuallyFits (calls : Nat) (_ : List Char) : Bool := calls < usualCalls

/-- Reads a whole text as one table. -/
def read (s : String) (fits : Nat → List Char → Bool := usuallyFits) : Except Fault Toml :=
  let cs := Text.unifyLineEnds s.toList
  let allowed := 2 * cs.length + 2
  (statements fits allowed allowed {} cs).map fun d => .table d.members

end Toml
end CodeSurvey
