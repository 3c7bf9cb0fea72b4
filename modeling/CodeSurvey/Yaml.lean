/-
# YAML values

What a reader of YAML gives: a document is a value with all that stands below it, and each value
has a number, so that one that is mentioned several times, even inside itself, stands there
once. Any function from texts to documents can be the reader (`Yaml.Loader`);
`CodeSurvey.Yaml.Reader` has one.
-/

import CodeSurvey.Failure
import CodeSurvey.Number.Decimal

namespace CodeSurvey
namespace Yaml

/-- A value; the children of collections are given by number. `ordered` is a sequence of pairs. -/
inductive Value
  | null
  | boolean (b : Bool)
  | integer (n : Int)
  | real (x : Binary64)
  | text (s : String)
  | moment
  | bytes (bs : List UInt8)
  | sequence (items : List Nat)
  | ordered (pairs : List (Nat × Nat))
  | set (pairs : List (Nat × Nat))
  | mapping (pairs : List (Nat × Nat))
  deriving DecidableEq

/-- A document: the values by number, and the number of the one on top. -/
structure Document where
  value : Nat → Value
  root : Nat

/-- The document of a text without values. -/
def Document.empty : Document := ⟨fun _ => .null, 0⟩

/-- The value of a key in a mapping, the last one given for it. -/
def Document.member? (d : Document) (key : String) (v : Value) : Option Value :=
  match v with
  | .mapping ps => (ps.reverse.find? fun p => d.value p.1 == .text key).map fun p => d.value p.2
  | _ => none

/-- A reader of texts. Of a text that is no YAML it says so (`Failure.notYaml`). -/
abbrev Loader := String → Except Failure Document

end Yaml
end CodeSurvey
