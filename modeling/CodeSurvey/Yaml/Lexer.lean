/-
# From a YAML text to its tokens

In a block, columns take the place of brackets: a column deeper than those before opens a
collection and one less deep closes collections. A key is only known by the colon behind it, so
the lexer remembers, for each level of brackets, where the last thing started that could be a key.
Such a key stands on one line and is no longer than 1024 characters; where the indentation asks
for one, its colon must come.
-/

import CodeSurvey.Yaml.Marks

namespace CodeSurvey
namespace Yaml

/-- Something that a colon may turn into a key: the level of brackets, the number of tokens before
it, whether it must be one, and where it starts. -/
structure KeyStart where
  level : Nat
  tokens : Nat
  required : Bool
  index : Nat
  line : Nat
  column : Nat

/-- The lexer: where it is, what it has read, the level of brackets, the columns of the open blocks,
the innermost first, and what can be a key. -/
structure Lexer where
  place : Place
  tokens : Array Token := #[]
  level : Nat := 0
  indents : List Nat := []
  allowsKey : Bool := true
  keys : List KeyStart := []

namespace Lexer

/-- The column of the innermost block, one less than the first without any. -/
def indent (l : Lexer) : Int := match l.indents with | [] => -1 | n :: _ => n

/-- The lexer after a token. -/
def push (t : Token) (l : Lexer) : Lexer := { l with tokens := l.tokens.push t }

/-- The lexer at another place. -/
def moveTo (p : Place) (l : Lexer) : Lexer := { l with place := p }

/-- Closes the blocks deeper than a column. -/
def closeBlocks (column : Int) (l : Lexer) : Lexer :=
  if l.level ≠ 0 then l
  else
    let deeper := l.indents.takeWhile fun (n : Nat) => decide (column < (n : Int))
    { l with
      indents := l.indents.drop deeper.length
      tokens := l.tokens ++ Array.replicate deeper.length Token.blockEnd }

/-- Opens a block at a column if it is deeper than the innermost; a token at the
given number opens it. -/
def openBlock (column number : Nat) (t : Token) (l : Lexer) : Lexer :=
  if l.indent < column then
    { l with indents := column :: l.indents, tokens := l.tokens.insertIdxIfInBounds number t }
  else l

/-- Forgets what can be a key on the current level; it must not be one that has to. -/
def dropKey (l : Lexer) : Except Fault Lexer :=
  if l.keys.any fun k => k.level == l.level && k.required then .error .malformed
  else .ok { l with keys := l.keys.filter (·.level != l.level) }

/-- Remembers that a key may start here. -/
def saveKey (l : Lexer) : Except Fault Lexer := do
  if !l.allowsKey then return l
  else
    let required := l.level == 0 && l.indent == l.place.column
    let l ← l.dropKey
    return { l with keys := ⟨l.level, l.tokens.size, required, l.place.index, l.place.line,
      l.place.column⟩ :: l.keys }

/-- Forgets what can no longer be a key: it started on another line or too long ago. -/
def dropStaleKeys (l : Lexer) : Except Fault Lexer :=
  let isStale (k : KeyStart) : Bool := k.line != l.place.line || 1024 < l.place.index - k.index
  if l.keys.any fun k => isStale k && k.required then .error .malformed
  else .ok { l with keys := l.keys.filter (!isStale ·) }

/-- Goes to the next token, over spaces, comments and line breaks. -/
def skipGap : (allowed : Nat) → Lexer → Lexer
  | 0, l => l
  | allowed + 1, l =>
    let p := if l.place.index = 0 && l.place.at? '\ufeff' then l.place.next else l.place
    let p := p.skipSpaces.skipComment
    if p.atBreak then
      skipGap allowed { l with place := p.takeBreak.2, allowsKey := l.allowsKey || l.level == 0 }
    else { l with place := p }

/-- Reads a mark of three characters that begins or ends a document. -/
def documentMark (t : Token) (l : Lexer) : Except Fault Lexer := do
  let l ← (l.closeBlocks (-1)).dropKey
  return ({ l with allowsKey := false }.moveTo (l.place.forward 3)).push t

/-- Reads a directive. -/
def directive (l : Lexer) : Except Fault Lexer := do
  let l ← (l.closeBlocks (-1)).dropKey
  let (t, p) ← directiveMark l.place
  return ({ l with allowsKey := false }.moveTo p).push t

/-- Reads an opening bracket. -/
def openBracket (t : Token) (l : Lexer) : Except Fault Lexer := do
  let l ← l.saveKey
  return ({ l with level := l.level + 1, allowsKey := true }.moveTo l.place.next).push t

/-- Reads a closing bracket. -/
def closeBracket (t : Token) (l : Lexer) : Except Fault Lexer := do
  let l ← l.dropKey
  if l.level = 0 then throw .malformed
  return ({ l with level := l.level - 1, allowsKey := false }.moveTo l.place.next).push t

/-- Reads a comma between the items in brackets. -/
def comma (l : Lexer) : Except Fault Lexer := do
  let l ← { l with allowsKey := true }.dropKey
  return (l.moveTo l.place.next).push .flowEntry

/-- Opens a block of the given kind at this place, where one may start. -/
def startBlock (t : Token) (l : Lexer) : Except Fault Lexer :=
  if l.level ≠ 0 then .ok l
  else if !l.allowsKey then .error .malformed
  else .ok (l.openBlock l.place.column l.tokens.size t)

/-- Reads the hyphen of a sequence entry. -/
def entry (l : Lexer) : Except Fault Lexer := do
  let l ← l.startBlock .blockSequenceStart
  let l ← { l with allowsKey := true }.dropKey
  return (l.moveTo l.place.next).push .blockEntry

/-- Reads the question mark of a key. -/
def questionMark (l : Lexer) : Except Fault Lexer := do
  let l ← l.startBlock .blockMappingStart
  let l ← { l with allowsKey := l.level == 0 }.dropKey
  return (l.moveTo l.place.next).push .key

/-- Reads the colon of a value; what could be a key now is one. -/
def colon (l : Lexer) : Except Fault Lexer := do
  let l ← match l.keys.find? fun k => k.level == l.level with
    | some k =>
      let l := { l with
        keys := l.keys.filter (·.level != l.level)
        tokens := l.tokens.insertIdxIfInBounds k.tokens .key
        allowsKey := false }
      pure (if l.level = 0 then l.openBlock k.column k.tokens .blockMappingStart else l)
    | none => do
      let l ← l.startBlock .blockMappingStart
      { l with allowsKey := l.level == 0 }.dropKey
  return (l.moveTo l.place.next).push .value

/-- Reads a mark that may start a key. -/
def mark (read : Place → Except Fault (Token × Place)) (l : Lexer) : Except Fault Lexer := do
  let l ← l.saveKey
  let (t, p) ← read l.place
  return ({ l with allowsKey := false }.moveTo p).push t

/-- Reads a block scalar. -/
def block (fold : Bool) (l : Lexer) : Except Fault Lexer := do
  let l ← { l with allowsKey := true }.dropKey
  let (s, p) ← blockScalar fold l.indent l.place
  return (l.moveTo p).push (.scalar (String.ofList s) false)

/-- Reads a plain scalar. -/
def plain (l : Lexer) : Except Fault Lexer := do
  let l ← l.saveKey
  let (s, lineEnded, p) :=
    plainScalar (l.level != 0) l.indent (l.place.rest.length + 1) [] false l.place
  return ({ l with allowsKey := lineEnded }.moveTo p).push (.scalar (String.ofList s) true)

/-- Whether a plain scalar may start with a character that the given one follows. -/
def startsPlain (inFlow : Bool) (c : Char) (gapAfter : Bool) : Bool :=
  (!isGap c && !"-?:,[]\x7b\x7d#&*!|>'\"%@\x60".toList.contains c) ||
    (!gapAfter && (c == '-' || (!inFlow && (c == '?' || c == ':'))))

/-- Reads the token that starts with the given character. -/
def token (c : Char) (l : Lexer) : Except Fault Lexer :=
  let p := l.place
  let inFlow := l.level != 0
  let atMarkerOf (d : Char) : Bool := p.column == 0 && c == d && p.atMarker
  if p.column == 0 && c == '%' then l.directive
  else if atMarkerOf '-' then l.documentMark .documentStart
  else if atMarkerOf '.' then l.documentMark .documentEnd
  else if c == '[' then l.openBracket .flowSequenceStart
  else if c == '\x7b' then l.openBracket .flowMappingStart
  else if c == ']' then l.closeBracket .flowSequenceEnd
  else if c == '\x7d' then l.closeBracket .flowMappingEnd
  else if c == ',' then l.comma
  else if c == '-' && p.gapAt 1 then l.entry
  else if c == '?' && (inFlow || p.gapAt 1) then l.questionMark
  else if c == ':' && (inFlow || p.gapAt 1) then l.colon
  else if c == '*' then l.mark fun p => (nodeName p).map fun (s, q) => (.alias s, q)
  else if c == '&' then l.mark fun p => (nodeName p).map fun (s, q) => (.anchor s, q)
  else if c == '!' then l.mark tagMark
  else if c == '|' && !inFlow then l.block false
  else if c == '>' && !inFlow then l.block true
  else if c == '\x27' || c == '"' then
    l.mark fun p => (quotedScalar c p).map fun (s, q) => (.scalar (String.ofList s) false, q)
  else if startsPlain inFlow c (p.gapAt 1) then l.plain
  else .error .malformed

/-- Reads all tokens that are left. -/
def run : (allowed : Nat) → Lexer → Except Fault (List Token)
  | 0, _ => .error .malformed
  | allowed + 1, l => do
    let l ← (skipGap (l.place.rest.length + 1) l).dropStaleKeys
    let l := l.closeBlocks l.place.column
    match l.place.char? with
    | none => return (← (l.closeBlocks (-1)).dropKey).tokens.toList
    | some c => run allowed (← l.token c)

end Lexer

/-- A character that a text may hold. -/
def isAllowed (c : Char) : Bool :=
  let n := c.toNat
  n == 9 || n == 10 || n == 13 || (32 ≤ n && n ≤ 126) || n == 0x85 ||
    (0xA0 ≤ n && n != 0xFFFE && n != 0xFFFF)

/-- The tokens of a text. -/
def tokens (cs : List Char) : Except Fault (List Token) :=
  if cs.all isAllowed then Lexer.run (cs.length + 2) { place := ⟨Text.lineFeeds cs, 0, 0, 0⟩ }
  else .error .malformed

end Yaml
end CodeSurvey
