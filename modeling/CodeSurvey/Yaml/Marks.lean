/-
# Tokens of YAML

What a YAML text is made of once its indentation has been understood: the marks that open, separate
and close collections, the names of nodes, tags and scalars. `block` marks belong to collections
shown by indentation, `flow` marks to those in brackets.

Names, tags and directives start with a sign of their own: `&` and `*` name a node, `!` gives it a
tag, and `%` on a line before a document says how tags are written in it.
-/

import CodeSurvey.Text.Utf8
import CodeSurvey.Yaml.ScalarText

namespace CodeSurvey
namespace Yaml

/-- A directive before a document. -/
inductive Directive
  | version (major : Nat)
  | tagHandle (handle start : String)
  | reserved
  deriving DecidableEq, Repr

/-- A token. -/
inductive Token
  | directive (d : Directive)
  | documentStart
  | documentEnd
  | blockSequenceStart
  | blockMappingStart
  | blockEnd
  | flowSequenceStart
  | flowSequenceEnd
  | flowMappingStart
  | flowMappingEnd
  | blockEntry
  | flowEntry
  | key
  | value
  | alias (name : String)
  | anchor (name : String)
  | tag (handle : Option String) (suffix : String)
  | scalar (text : String) (isPlain : Bool)
  deriving DecidableEq, Repr

/-- A name after the sign of an anchor or alias. -/
def nodeName (p : Place) : Except Fault (String × Place) :=
  let (name, p) := p.next.takeRun isNameChar
  if name.isEmpty then .error .malformed
  else if p.char?.all fun c => isGap c || "?:,]\x7d%@\x60".toList.contains c then
    .ok (String.ofList name, p)
  else .error .malformed

/-- A character of a tag. -/
def isTagChar (c : Char) : Bool := isNameChar c || ";/?:@&=+$,.!~*'()[]".toList.contains c

/-- The bytes written after percent signs, and the place behind them. -/
def escapedBytes : (allowed : Nat) → Place → Except Fault (List UInt8 × Place)
  | 0, _ => .error .malformed
  | allowed + 1, p =>
    if !p.at? '%' then .ok ([], p)
    else
      match hexNumber? 2 (p.rest.drop 1) with
      | none => .error .malformed
      | some n => do
        let (more, p) ← escapedBytes allowed (p.forward 3)
        return (n.toUInt8 :: more, p)

/-- The characters of a tag from a place on. -/
def tagChars : (allowed : Nat) → Place → Except Fault (List Char × Place)
  | 0, _ => .error .malformed
  | allowed + 1, p => do
    let (run, p) := p.takeRun isTagChar
    if !p.at? '%' then return (run, p)
    else
      let (bytes, p) ← escapedBytes (p.rest.length + 1) p
      match Utf8.decode bytes with
      | .error _ => throw .malformed
      | .ok s =>
        let (more, p) ← tagChars allowed p
        return (run ++ s.toList ++ more, p)

/-- A tag or the start of one; not empty. -/
def tagText (p : Place) : Except Fault (String × Place) := do
  let (cs, q) ← tagChars (p.rest.length + 1) p
  if q.index = p.index then throw .malformed else return (String.ofList cs, q)

/-- The handle of a tag: an exclamation mark, or a name between two. -/
def tagHandle (p : Place) : Except Fault (String × Place) :=
  if !p.at? '!' then .error .malformed
  else if p.peek? 1 == some ' ' then .ok ("!", p.next)
  else
    let (name, q) := p.next.takeRun isNameChar
    if q.at? '!' then .ok (String.ofList ('!' :: name ++ ['!']), q.next) else .error .malformed

/-- A tag: written out in angle brackets, or a handle and the rest, or a lone exclamation mark. -/
def tagMark (p : Place) : Except Fault (Token × Place) := do
  let (t, q) ←
    if p.peek? 1 == some '<' then do
      let (s, q) ← tagText (p.forward 2)
      if q.at? '>' then pure (Token.tag none s, q.next) else throw .malformed
    else if p.gapAt 1 then pure (Token.tag none "!", p.next)
    else do
      let word := (p.rest.drop 1).takeWhile fun c => c != ' ' && !isBreak c
      let (handle, q) ← if word.contains '!' then tagHandle p else pure ("!", p.next)
      let (s, q) ← tagText q
      pure (Token.tag (some handle) s, q)
  if q.atSpaceOrEnd then return (t, q) else throw .malformed

/-- A number of a version. -/
def versionNumber (p : Place) : Except Fault (Nat × Place) :=
  let (ds, q) := p.takeRun fun c => '0' ≤ c && c ≤ '9'
  if ds.isEmpty then .error .malformed
  else if Numeral.maxDigits < ds.length then .error (.scalar (.longInteger ds.length))
  else .ok (Numeral.ofDigits (ds.map fun c => c.toNat - 48), q)

/-- A directive. -/
def directiveMark (p : Place) : Except Fault (Token × Place) := do
  let (name, p) := p.next.takeRun isNameChar
  if name.isEmpty || !p.atSpaceOrEnd then throw .malformed
  let (d, p) ←
    if name == "YAML".toList then do
      let (major, p) ← versionNumber p.skipSpaces
      if !p.at? '.' then throw .malformed
      let (_, p) ← versionNumber p.next
      if p.atSpaceOrEnd then pure (Directive.version major, p) else throw .malformed
    else if name == "TAG".toList then do
      let (handle, p) ← tagHandle p.skipSpaces
      if !p.at? ' ' then throw .malformed
      let (start, p) ← tagText p.skipSpaces
      if p.atSpaceOrEnd then pure (Directive.tagHandle handle start, p) else throw .malformed
    else pure (Directive.reserved, p.skipRun (!isBreak ·))
  return (.directive d, ← p.skipLine)

end Yaml
end CodeSurvey
