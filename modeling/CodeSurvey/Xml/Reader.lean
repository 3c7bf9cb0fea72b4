/-
# Reading XML

`Xml.read` gives the root element of a well-formed document whose names keep the rules of
namespaces: every tag is closed in order, no attribute is given twice, every name before a colon is
bound by an attribute of an element around it, and every reference leads to a declared text. A byte
order mark may stand before the document; all line ends count as line feeds.

Elements nest, and so do the texts of entities; no entity stands in its own text. So the
readers of content take an allowance of steps, and `Xml.read` allows more steps than the
document has characters.
-/

import CodeSurvey.Xml
import CodeSurvey.Xml.Doctype

namespace CodeSurvey
namespace Xml

/-- The attribute values of a tag by name. -/
abbrev Attributes := List (Tag × List Char)

/-- The namespaces in scope: what each name before a colon stands for, and, under no name, the one
of elements without a colon. -/
abbrev Scope := List (Option String × Option String)

/-- The namespace of the names that start with `xml:`. -/
def xmlSpace : String := "http://www.w3.org/XML/1998/namespace"

/-- The namespace of the attributes that declare namespaces. -/
def xmlnsSpace : String := "http://www.w3.org/2000/xmlns/"

/-- Whether an attribute may bind a name to a namespace. -/
def mayBind (family : Option String) (space : String) : Bool :=
  !space.toList.contains '\x7d' && space != xmlnsSpace &&
    match family with
    | some "xmlns" => false
    | some "xml" => space == xmlSpace
    | some _ => !space.isEmpty && space != xmlSpace
    | none => space != xmlSpace

/-- The name that an attribute binds, if it declares a namespace. -/
def boundName? (t : Tag) : Option (Option String) :=
  if t.family == some "xmlns" then some (some t.word)
  else if t.family.isNone && t.word == "xmlns" then some none
  else none

/-- The scope of an element with the given attributes. -/
def scopeWith (scope : Scope) (attributes : Attributes) : Option Scope :=
  attributes.foldlM
    (fun scope (t, v) =>
      match boundName? t with
      | none => some scope
      | some family =>
        let space := String.ofList v
        if mayBind family space then
          some ((family, if space.isEmpty then none else some space) :: scope)
        else none)
    scope

/-- The namespace and word of a name that is written with a colon. -/
def expand (scope : Scope) (t : Tag) : Option Name :=
  match scope.lookup t.family with
  | some space => some ⟨space, t.word⟩
  | none => if t.family.isNone then some ⟨none, t.word⟩ else none

/-- Whether no attribute is given twice, by name or by namespace and word. -/
def areDistinct (scope : Scope) (attributes : Attributes) : Bool :=
  let tags := attributes.map Prod.fst
  let plain := tags.filter fun t => t.family.isSome && (boundName? t).isNone
  match plain.mapM (expand scope) with
  | none => false
  | some names => tags.eraseDups.length == tags.length && names.eraseDups.length == names.length

/-- The attributes with the standard values of those that are not given. -/
def withStandard (d : Doctype) (owner : Tag) (given : Attributes) : Attributes :=
  (d.standard.filter (·.1 == owner)).foldl
    (fun attributes (_, (t, v)) =>
      if (attributes.map Prod.fst).contains t then attributes else attributes ++ [(t, v)])
    given

/-- The attributes of a tag, whether the tag is that of an empty element, and the text behind it. -/
def attributes (d : Doctype) : (allowed : Nat) → List Char → Option (Attributes × Bool × List Char)
  | 0, _ => none
  | allowed + 1, cs =>
    match afterSpace cs with
    | '>' :: r => some ([], false, r)
    | '/' :: '>' :: r => some ([], true, r)
    | _ => do
      let (t, r) ← tag? (← afterSomeSpace cs)
      let (s, r) ← quoted? (afterSpace (← afterWord "=" (afterSpace r)))
      let v ← d.attributeValue allowed [] s
      let (rest, isEmpty, r) ← attributes d allowed r
      return ((t, v) :: rest, isEmpty, r)

/-- A piece of the content of an element. -/
inductive Piece
  | text (cs : List Char)
  | element (e : Element)

/-- The text before the first element. -/
def leadingText : List Piece → List Char
  | .text cs :: rest => cs ++ leadingText rest
  | _ => []

/-- The elements among the pieces. -/
def elementsOf (ps : List Piece) : List Element :=
  ps.filterMap fun p => match p with | .element e => some e | .text _ => none

/-- A character that stands for itself in content. -/
def isPlain (c : Char) : Bool := c != '<' && c != '&' && c != ']' && c != '\r'

mutual

/-- The content from a place on, up to an end tag or the end of the text. `opened` are the entities
in whose texts it stands. -/
def content (d : Doctype) (scope : Scope) : (allowed : Nat) → (opened : List String) → List Char →
    Option (List Piece × List Char)
  | 0, _, _ => none
  | allowed + 1, opened, cs =>
    let textThen (s : List Char) (r : List Char) : Option (List Piece × List Char) := do
      let (more, t) ← content d scope allowed opened r
      return (.text s :: more, t)
    match cs with
    | [] => some ([], [])
    | '<' :: '/' :: r => some ([], '<' :: '/' :: r)
    | '<' :: '?' :: r => do content d scope allowed opened (← afterInstruction r)
    | '<' :: '!' :: '-' :: '-' :: r => do content d scope allowed opened (← afterComment r)
    | '<' :: '!' :: r => do
      let (s, t) ← cutAtWord "]]>".toList (← afterWord "[CDATA[" r)
      if s.all isAllowed then textThen (Text.lineFeeds s) t else none
    | '<' :: r => do
      let (e, t) ← elementAt d scope allowed opened r
      let (more, t) ← content d scope allowed opened t
      return (.element e :: more, t)
    | '&' :: r => do
      let (ref, t) ← reference? r
      match ref with
      | .char c => textThen [c] t
      | .entity name =>
        match predefined? name with
        | some c => textThen [c] t
        | none =>
          if opened.contains name then none
          else
            let (inner, left) ← content d scope allowed (name :: opened)
                (← (← d.entities.lookup name).text)
            let (more, t) ← content d scope allowed opened t
            if left.isEmpty then return (inner ++ more, t) else none
    | ']' :: r =>
      if ['\x5d', '>'].isPrefixOf r then none else textThen [']'] r
    | '\r' :: '\n' :: r => textThen ['\n'] r
    | '\r' :: r => textThen ['\n'] r
    | cs =>
      let s := cs.takeWhile isPlain
      if s.all isAllowed then textThen s (cs.dropWhile isPlain) else none

/-- An element after the bracket that opens its start tag. -/
def elementAt (d : Doctype) (scope : Scope) : (allowed : Nat) → (opened : List String) → List Char →
    Option (Element × List Char)
  | 0, _, _ => none
  | allowed + 1, opened, cs => do
    let (t, r) ← tag? cs
    let (given, isEmpty, r) ← attributes d allowed r
    let all := withStandard d t given
    let scope ← scopeWith scope all
    let name ← expand scope t
    if !areDistinct scope all || (given.map Prod.fst).eraseDups.length != given.length then none
    else if isEmpty then return (.node name "" [], r)
    else
      let (pieces, r) ← content d scope allowed opened r
      let (u, r) ← tag? (← afterWord "</" r)
      match afterSpace r with
      | '>' :: r =>
        if u == t then
          return (.node name (String.ofList (leadingText pieces)) (elementsOf pieces), r)
        else none
      | _ => none

end

/-- The value of an entry of the XML declaration and the text behind it. -/
def entry? (name : String) (cs : List Char) : Option (List Char × List Char) := do
  let r ← afterWord name (← afterSomeSpace cs)
  let (s, r) ← quoted? (afterSpace (← afterWord "=" (afterSpace r)))
  if s.all fun c => Text.isAlphanumericAscii c || c == '.' || c == '-' || c == '_' then
    return (s, r) else none

/-- The XML declaration after its opening: whether the document stands alone,
and the text behind it. -/
def xmlDeclaration (cs : List Char) : Option (Bool × List Char) := do
  let (_, r) ← entry? "version" cs
  let r ← match entry? "encoding" r with
    | none => pure r
    | some (s, t) =>
      if s.head?.any fun c => Text.isLowerAscii c || Text.isUpperAscii c then pure t else none
  let (alone, r) ← match entry? "standalone" r with
    | none => pure (false, r)
    | some (s, t) =>
      if s == "yes".toList then pure (true, t) else if s == "no".toList then
        pure (false, t) else none
  return (alone, ← afterWord "?>" (afterSpace r))

/-- The text after white space, comments and instructions. -/
def afterAsides : (allowed : Nat) → List Char → Option (List Char)
  | 0, _ => none
  | allowed + 1, cs =>
    match afterSpace cs with
    | '<' :: '?' :: r => do afterAsides allowed (← afterInstruction r)
    | '<' :: '!' :: '-' :: '-' :: r => do afterAsides allowed (← afterComment r)
    | r => some r

/-- A text without a byte order mark. -/
def afterMark : List Char → List Char
  | '\ufeff' :: r => r
  | cs => cs

/-- The root element of a document. -/
def read (s : String) : Option Element := do
  let cs := afterMark s.toList
  let allowed := 2 * cs.length + 2
  let (standalone, r) ← match afterWord "<?xml" cs with
    | none => pure (false, cs)
    | some t => if t.head?.any isSpace then xmlDeclaration t else pure (false, cs)
  let r ← afterAsides allowed r
  let (d, r) ← match afterWord "<!DOCTYPE" r with
    | none => pure ({ standalone }, r)
    | some t => Doctype.read { standalone } t
  let r ← afterAsides allowed r
  let (e, r) ← elementAt d [(some "xml", some xmlSpace)] allowed [] (← afterWord "<" r)
  match ← afterAsides allowed r with
  | [] => return e
  | _ => none

end Xml
end CodeSurvey
