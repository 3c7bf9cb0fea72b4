/-
# Patterns

A pattern describes a stretch of text: characters of a class, one pattern after another, one or else
the other, a pattern many times. What makes a pattern more than a set of texts is its order of
preference: `a.orElse b` prefers `a`, `many` prefers more repetitions and `fewest` fewer, and the
match of a pattern is the most preferred way to go on from a place. A repetition that takes no
character away is not repeated.

`run` tries the ways in order of preference: it hands each place where the pattern can end to a
continuation and answers with the first success. `search` takes the leftmost place from which a
match exists, `findAll` goes on where the last match ended.

A place knows the character before it, for patterns that look back, the text from there on, and what
was captured on the way.
-/

import CodeSurvey.Text.Case
import CodeSurvey.Text.Lines

namespace CodeSurvey

open Text

/-- A place in a text, with the number of characters that are left, and what was captured on the way
to it, the latest first. -/
structure Cursor where
  before : Option Char
  rest : List Char
  left : Nat
  offset : Nat
  captured : List (Nat × List Char) := []
  left_eq : left = rest.length

namespace Cursor

/-- The start of a text. -/
def start (cs : List Char) : Cursor := ⟨none, cs, cs.length, 0, [], rfl⟩

/-- The place after the next character. -/
def next? (s : Cursor) : Option (Char × Cursor) :=
  match h : s.rest with
  | [] => none
  | c :: r =>
    some (c, ⟨some c, r, s.left - 1, s.offset + 1, s.captured,
      by rw [s.left_eq, h, List.length_cons, Nat.add_sub_cancel]⟩)

theorem left_lt_of_next? {s t : Cursor} {c : Char} (h : s.next? = some (c, t)) :
    t.left < s.left := by
  unfold next? at h
  split at h
  · cases h
  · rename_i c r hr
    cases h
    have := s.left_eq
    rw [hr, List.length_cons] at this
    simp only
    omega

/-- The text captured last under a number. -/
def group? (s : Cursor) (n : Nat) : Option (List Char) := s.captured.lookup n

end Cursor

/-- A description of a stretch of text. -/
inductive Pattern
  | char (test : Char → Bool)
  | nothing
  | seq (a b : Pattern)
  | orElse (a b : Pattern)
  | many (a : Pattern)
  | fewest (a : Pattern)
  | capture (n : Nat) (a : Pattern)
  | place (test : Option Char → List Char → Bool)

namespace Pattern

/-- Repeats a step as often as possible, trying to go on only where no more repetition succeeds. -/
def repeatMany {α : Type} (step : Cursor → (Cursor → Option α) → Option α) (s : Cursor)
    (go : Cursor → Option α) : Option α :=
  match step s fun t => if t.left < s.left then repeatMany step t go else none with
  | some a => some a
  | none => go s
termination_by s.left

/-- Repeats a step only where going on without it fails. -/
def repeatFewest {α : Type} (step : Cursor → (Cursor → Option α) → Option α) (s : Cursor)
    (go : Cursor → Option α) : Option α :=
  match go s with
  | some a => some a
  | none => step s fun t => if t.left < s.left then repeatFewest step t go else none
termination_by s.left

/-- Tries the ways in which a pattern can go on from a place, in order of preference. -/
def run {α : Type} : Pattern → Cursor → (Cursor → Option α) → Option α
  | char test, s, go =>
    match s.next? with
    | some (c, t) => if test c then go t else none
    | none => none
  | nothing, s, go => go s
  | seq a b, s, go => run a s fun t => run b t go
  | orElse a b, s, go =>
    match run a s go with
    | some x => some x
    | none => run b s go
  | many a, s, go => repeatMany (fun t k => run a t k) s go
  | fewest a, s, go => repeatFewest (fun t k => run a t k) s go
  | capture n a, s, go =>
    run a s fun t => go { t with captured := (n, s.rest.take (t.offset - s.offset)) :: t.captured }
  | place test, s, go => if test s.before s.rest then go s else none

/-- The end of the match that starts at a place. -/
def matchAt? (p : Pattern) (s : Cursor) : Option Cursor := p.run { s with captured := [] } some

/-- A match: where it starts, and its end with what it captured. -/
structure Found where
  start : Nat
  stop : Cursor

set_option linter.unusedVariables false in
/-- The leftmost match from a place on. -/
def searchFrom (p : Pattern) (s : Cursor) : Option Found :=
  match p.matchAt? s with
  | some t => some ⟨s.offset, t⟩
  | none =>
    match h : s.next? with
    | none => none
    | some (_, t) => searchFrom p t
termination_by s.left
decreasing_by exact Cursor.left_lt_of_next? h

/-- The leftmost match in a text. -/
def search (p : Pattern) (cs : List Char) : Option Found := p.searchFrom (.start cs)

/-- Whether a match occurs in a text. -/
def occursIn (p : Pattern) (cs : List Char) : Bool := (p.search cs).isSome

set_option linter.unusedVariables false in
/-- All matches from a place on, each searched for where the one before it ended. After an empty
match the search goes on one character later. -/
def findFrom (p : Pattern) (s : Cursor) : List Found :=
  match p.searchFrom s with
  | none => []
  | some f =>
    if f.stop.left < s.left then f :: findFrom p f.stop
    else
      match h : s.next? with
      | none => [f]
      | some (_, t) => f :: findFrom p t
termination_by s.left
decreasing_by
  · assumption
  · exact Cursor.left_lt_of_next? h

/-- All matches in a text. -/
def findAll (p : Pattern) (cs : List Char) : List Found := p.findFrom (.start cs)

/-- The match of a pattern that starts where a text starts. -/
def matchStart? (p : Pattern) (cs : List Char) : Option Cursor := p.matchAt? (.start cs)

/-- One pattern after another. -/
def all : List Pattern → Pattern
  | [] => nothing
  | [p] => p
  | p :: q :: rest => seq p (all (q :: rest))

/-- One of several patterns, earlier ones preferred. -/
def any : List Pattern → Pattern
  | [] => place fun _ _ => false
  | [p] => p
  | p :: q :: rest => orElse p (any (q :: rest))

/-- One character. -/
def one (c : Char) : Pattern := char (· == c)

/-- A word, letter by letter. -/
def word (w : String) : Pattern := all (w.toList.map one)

/-- A word in any case. -/
def anyCase (w : String) : Pattern :=
  all (w.toList.map fun c => char fun d => (caseVariants c).contains d)

/-- One of several words. -/
def words (ws : List String) : Pattern := any (ws.map word)

/-- A pattern or nothing, preferably the pattern. -/
def optional (p : Pattern) : Pattern := orElse p nothing

/-- A pattern once or more, preferably more. -/
def some1 (p : Pattern) : Pattern := seq p (many p)

/-- A pattern once or more, preferably less. -/
def fewest1 (p : Pattern) : Pattern := seq p (fewest p)

/-- A blank character. -/
def blank : Pattern := char isBlank

/-- Blanks, or none. -/
def blanks : Pattern := many blank

/-- One blank or more. -/
def blanks1 : Pattern := some1 blank

/-- A place between a word character and none. -/
def wordEdge : Pattern := place fun before rest => (before.any isWord) != (rest.head?.any isWord)

/-- The start of the text or of a line after a line feed. -/
def lineStart : Pattern := place fun before _ => before.all (· == '\n')

/-- The start of the text. -/
def textStart : Pattern := place fun before _ => before.isNone

/-- The end of the text, or the place before a line feed that ends it. -/
def textEnd : Pattern := place fun _ rest => rest.isEmpty || rest == ['\n']

/-- A place after a character that passes the test. -/
def after (test : Char → Bool) : Pattern := place fun before _ => before.any test

/-- A quote of one of three kinds. -/
def isQuote (c : Char) : Bool := c == '\x22' || c == '\x27' || c == '\x60'

/-- A quote of one of the two plain kinds. -/
def isPlainQuote (c : Char) : Bool := c == '\x22' || c == '\x27'

/-- An opening quote, a text without quotes that is captured, and a closing quote. -/
def quotedText (n : Nat) : Pattern :=
  all [char isQuote, capture n (some1 (char fun c => !isQuote c)), char isQuote]

end Pattern
end CodeSurvey
