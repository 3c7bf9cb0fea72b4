/-
# TOML documents

A document is a table whose values are texts, numbers, booleans, dates, arrays and tables. It grows
statement by statement, and three rules say which statements may follow which:

* a key is given a value once;
* a table is opened by its header once (`[a.b]`), and not at all when a dotted key of an
  earlier section has opened it; the items of an array of tables (`[[a]]`) are opened one
  after the other, each anew;
* nothing is ever added to an array or table that was written in line.

What must not be opened again and what must not be added to is kept as two lists of paths beside the
table: `opened` for single tables, `sealed` for everything below a path.
-/

import CodeSurvey.Keyed
import CodeSurvey.Number.Numeral

namespace CodeSurvey

/-- A TOML value. A date or time is kept as it is written. -/
inductive Toml
  | text (s : String)
  | integer (n : Int)
  | real (x : Binary64)
  | boolean (b : Bool)
  | moment (written : String)
  | array (items : List Toml)
  | table (members : List (String × Toml))
  deriving Inhabited

namespace Toml

mutual

/-- Whether two values are the same. -/
def isSame : Toml → Toml → Bool
  | .text s, .text t => s == t
  | .integer m, .integer n => m == n
  | .real x, .real y => x == y
  | .boolean b, .boolean c => b == c
  | .moment s, .moment t => s == t
  | .array xs, .array ys => areSame xs ys
  | .table ms, .table ns => haveSame ms ns
  | _, _ => false

/-- Whether two lists of values are the same. -/
def areSame : List Toml → List Toml → Bool
  | [], [] => true
  | v :: vs, w :: ws => isSame v w && areSame vs ws
  | _, _ => false

/-- Whether two lists of members are the same. -/
def haveSame : List (String × Toml) → List (String × Toml) → Bool
  | [], [] => true
  | (k, v) :: ms, (l, w) :: ns => k == l && isSame v w && haveSame ms ns
  | _, _ => false

end

mutual

theorem isSame_iff : ∀ {v w : Toml}, isSame v w = true ↔ v = w
  | .array xs, w => by cases w <;> simp [isSame, areSame_iff]
  | .table ms, w => by cases w <;> simp [isSame, haveSame_iff]
  | .text _, w | .integer _, w | .real _, w | .boolean _, w | .moment _, w => by
    cases w <;> simp [isSame]

theorem areSame_iff : ∀ {vs ws : List Toml}, areSame vs ws = true ↔ vs = ws
  | [], ws => by cases ws <;> simp [areSame]
  | v :: vs, ws => by cases ws <;> simp [areSame, isSame_iff, areSame_iff]

theorem haveSame_iff : ∀ {ms ns : List (String × Toml)}, haveSame ms ns = true ↔ ms = ns
  | [], ns => by cases ns <;> simp [haveSame]
  | (k, v) :: ms, ns => by
    cases ns <;> simp [haveSame, isSame_iff, haveSame_iff, Prod.ext_iff, and_assoc]

end

instance : DecidableEq Toml := fun _ _ => decidable_of_iff _ isSame_iff

/-- A path of keys. -/
abbrev KeyPath := List String

/-- Why a text is not TOML, or not one that can be converted. -/
inductive Fault
  | malformed
  | longInteger (digits : Nat)
  | tooDeep
  deriving DecidableEq, Repr

/-- The members of a table. -/
abbrev Members := List (String × Toml)

/-- Changes the table at a path, opening tables that are not there. The last item of an array stands
for the array when `intoArrays`. A value on the path that is no table is a fault. -/
def alter (intoArrays : Bool) (change : Members → Option Members) :
    KeyPath → Members → Option Members
  | [], ms => change ms
  | k :: path, ms =>
    match ms.lookup k with
    | none => (alter intoArrays change path []).map fun t => Keyed.assign k (.table t) ms
    | some (.table t) =>
      (alter intoArrays change path t).map fun t => Keyed.assign k (.table t) ms
    | some (.array items) =>
      match intoArrays, items.getLast? with
      | true, some (.table t) =>
        (alter intoArrays change path t).map fun t =>
          Keyed.assign k (.array (items.dropLast ++ [.table t])) ms
      | _, _ => none
    | some _ => none

/-- Adds an empty table to the array of tables at the last key of a path. -/
def appendTable (path : KeyPath) (ms : Members) : Option Members :=
  match path.getLast? with
  | none => none
  | some k =>
    alter true
      (fun t =>
        match t.lookup k with
        | none => some (t ++ [(k, .array [.table []])])
        | some (.array items) => some (Keyed.assign k (.array (items ++ [.table []])) t)
        | some _ => none)
      path.dropLast ms

/-- Gives a new key a value. -/
def addNew (k : String) (v : Toml) (ms : Members) : Option Members :=
  if (ms.lookup k).isSome then none else some (ms ++ [(k, v)])

/-- Whether a value is an array or a table. -/
def isContainer : Toml → Bool
  | array _ => true
  | table _ => true
  | _ => false

/-- A document while it grows: its members, the tables that must not be opened again, those that
will be once the section ends, what must not be added to, and the table of the current section. -/
structure Document where
  members : Members := []
  opened : List KeyPath := []
  pending : List KeyPath := []
  closed : List KeyPath := []
  header : KeyPath := []

namespace Document

/-- Whether something at a path or above it must not be added to. -/
def isSealed (d : Document) (path : KeyPath) : Bool :=
  !path.isEmpty && d.closed.any fun p => p.isPrefixOf path

/-- Whether the table at a path must not be opened again. -/
def isOpened (d : Document) (path : KeyPath) : Bool := !path.isEmpty && d.opened.contains path

/-- The document when a new section begins. -/
def endSection (d : Document) : Document :=
  { d with opened := d.pending ++ d.opened, pending := [] }

/-- Opens the table of a header. -/
def openTable (d : Document) (path : KeyPath) : Option Document :=
  let d := d.endSection
  if d.isOpened path || d.isSealed path then none
  else
    (alter true some path d.members).map fun ms =>
      { d with members := ms, opened := path :: d.opened, header := path }

/-- Opens the next item of an array of tables. -/
def openItem (d : Document) (path : KeyPath) : Option Document :=
  let d := d.endSection
  if d.isSealed path then none
  else
    let below (p : KeyPath) : Bool := path.isPrefixOf p
    (appendTable path d.members).map fun ms =>
      { d with
        members := ms
        opened := path :: d.opened.filter (!below ·)
        closed := d.closed.filter (!below ·)
        header := path }

/-- The proper heads of a dotted key, below the current section. -/
def dottedTables (d : Document) (key : KeyPath) : List KeyPath :=
  (List.range (key.length - 1)).map fun i => d.header ++ key.take (i + 1)

/-- Gives a key of the current section a value. -/
def assign (d : Document) (key : KeyPath) (v : Toml) : Option Document :=
  let parents := d.dottedTables key
  let parent := d.header ++ key.dropLast
  if parents.any d.isOpened || d.isSealed parent then none
  else
    match key.getLast? with
    | none => none
    | some k =>
      (alter true (addNew k v) parent d.members).map fun ms =>
        { d with
          members := ms
          pending := parents ++ d.pending
          closed := if v.isContainer then (d.header ++ key) :: d.closed else d.closed }

end Document

/-- An inline table while it grows: its members and the keys whose values must not be added to. -/
structure InlineTable where
  members : Members := []
  closed : List KeyPath := []

/-- Gives a key of an inline table a value. -/
def InlineTable.assign (t : InlineTable) (key : KeyPath) (v : Toml) : Option InlineTable :=
  if t.closed.any fun p => p.isPrefixOf key then none
  else
    match key.getLast? with
    | none => none
    | some k =>
      (alter false (addNew k v) key.dropLast t.members).map fun ms =>
        { members := ms, closed := if v.isContainer then key :: t.closed else t.closed }

/-- The members of a table, none for any other value. -/
def members : Toml → Members
  | table ms => ms
  | _ => []

/-- The value of a member. -/
def member? (k : String) (v : Toml) : Option Toml := v.members.lookup k

/-- The table in a member, an empty one where there is none. -/
def tableAt (k : String) (v : Toml) : Toml := .table (((v.member? k).map members).getD [])

end Toml
end CodeSurvey
