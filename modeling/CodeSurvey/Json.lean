/-
# JSON values

The values of JSON, with integers kept apart from other numbers and objects as lists of members in
the order of first mention.

`Json.shown` writes a value on one line as messages show it: `None`, `True` and `False` for the
three words, quoted texts, brackets around lists and braces around members. Not every value can be
written: an integer may be too long for it, and there is room for so many values inside one another
only (`Json.unwritable?`).
-/

import CodeSurvey.Number.Numeral
import CodeSurvey.Text.Quoted

namespace CodeSurvey

/-- A JSON value. -/
inductive Json
  | null
  | bool (b : Bool)
  | int (n : Int)
  | real (x : Binary64)
  | text (s : String)
  | array (items : List Json)
  | object (members : List (String × Json))
  deriving Inhabited

namespace Json

/-- The value of a member, `none` when the value is no object or has no such member. -/
def member? (name : String) : Json → Option Json
  | object ms => ms.lookup name
  | _ => none

/-- Whether a value counts as present: not null, false, zero, or an empty text or collection. -/
def isTruthy : Json → Bool
  | null => false
  | bool b => b
  | int n => n != 0
  | real x => !x.same Binary64.zero
  | text s => !s.isEmpty
  | array xs => !xs.isEmpty
  | object ms => !ms.isEmpty

mutual

/-- A value on one line, as messages show it. -/
def shown : Json → String
  | null => "None"
  | bool true => "True"
  | bool false => "False"
  | int n => toString n
  | real x => x.shortest
  | text s => Text.quoted s
  | array xs => "[" ++ shownItems xs ++ "]"
  | object ms => "\x7b" ++ shownMembers ms ++ "\x7d"

/-- Values with commas between them. -/
def shownItems : List Json → String
  | [] => ""
  | [x] => shown x
  | x :: y :: rest => shown x ++ ", " ++ shownItems (y :: rest)

/-- Members with commas between them. -/
def shownMembers : List (String × Json) → String
  | [] => ""
  | [(k, v)] => Text.quoted k ++ ": " ++ shown v
  | (k, v) :: m :: rest => Text.quoted k ++ ": " ++ shown v ++ ", " ++ shownMembers (m :: rest)

end

/-- A value as running text shows it: a text as it is, any other value as `shown` writes it. -/
def displayed : Json → String
  | text s => s
  | v => shown v

/-- Why a value cannot be written. -/
inductive Unwritable
  | endlessInteger
  | tooDeep
  deriving DecidableEq, Repr

mutual

/-- Why a value cannot be written where there is room for so many values, each inside the last. -/
def unwritable? : (room : Nat) → Json → Option Unwritable
  | 0, _ => some .tooDeep
  | _ + 1, int n => if Numeral.isEndless n then some .endlessInteger else none
  | room + 1, array xs => unwritableItem? room xs
  | room + 1, object ms => unwritableMember? room ms
  | _ + 1, _ => none

/-- Why the first of some items that cannot be written cannot. -/
def unwritableItem? (room : Nat) : List Json → Option Unwritable
  | [] => none
  | x :: xs => (unwritable? room x).or (unwritableItem? room xs)

/-- Why the first of some members that cannot be written cannot. -/
def unwritableMember? (room : Nat) : List (String × Json) → Option Unwritable
  | [] => none
  | (_, v) :: ms => (unwritable? room v).or (unwritableMember? room ms)

end

/-- Any text can be written, where there is room for one value. -/
theorem unwritable?_text {room : Nat} (hroom : 0 < room) (s : String) :
    unwritable? room (.text s) = none := by
  cases room with
  | zero => cases hroom
  | succ room => simp [unwritable?]

/-- Where nothing else is said, there is room for so many values inside one another. -/
def usualRoom : Nat := 980

/-- A value in running text, if it can be written. -/
def written (room : Nat) : Json → Except Unwritable String
  | text s => .ok s
  | v =>
    match unwritable? room v with
    | some fault => .error fault
    | none => .ok (shown v)

end Json
end CodeSurvey
