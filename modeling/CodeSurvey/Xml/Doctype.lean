/-
# Document types

The declarations before the root of a document: elements, attributes, notations and entities. Of
them only entities and the standard values of attributes matter later, but all must be well formed.

The first declaration of an entity counts. Its text has character references replaced; other
references stay until the entity is used. A reference to a parameter entity, or a second file of
declarations, is not followed: from the former on declarations are read and not kept, unless the
document says that it stands alone, and with either a reference to an unknown entity in an
attribute is passed over.
-/

import CodeSurvey.Xml.Token

namespace CodeSurvey
namespace Xml

/-- A declared entity: its text if it has one, and whether it is a text at all. -/
structure Entity where
  text : Option (List Char)
  parsed : Bool := true

/-- What the declarations of a document say. -/
structure Doctype where
  entities : List (String × Entity) := []
  standard : List (Tag × (Tag × List Char)) := []
  standalone : Bool := false
  incomplete : Bool := false
  keeps : Bool := true

namespace Doctype

/-- Whether a reference must be to a declared entity. -/
def mustKnow (d : Doctype) : Bool := !d.incomplete || d.standalone

/-- The value of an attribute: references replaced, and white space turned into spaces. `opened` are
the entities in whose texts the value stands. -/
def attributeValue (d : Doctype) :
    (allowed : Nat) → (opened : List String) → List Char → Option (List Char)
  | 0, _, _ => none
  | _ + 1, _, [] => some []
  | allowed + 1, opened, c :: r =>
    if c == '<' then none
    else if c == '&' then do
      let (ref, r) ← reference? r
      let rest ← attributeValue d allowed opened r
      match ref with
      | .char c => return c :: rest
      | .entity name =>
        match predefined? name with
        | some c => return c :: rest
        | none =>
          match d.entities.lookup name with
          | none => if d.mustKnow then none else return rest
          | some e =>
            if opened.contains name || !e.parsed then none
            else return (← attributeValue d allowed (name :: opened) (← e.text)) ++ rest
    else if c == '\r' && r.head? == some '\n' then attributeValue d allowed opened r
    else if isSpace c then (attributeValue d allowed opened r).map (' ' :: ·)
    else if isAllowed c then (attributeValue d allowed opened r).map (c :: ·)
    else none

/-- The text of an entity from its literal. -/
def entityText : (allowed : Nat) → List Char → Option (List Char)
  | 0, _ => none
  | _ + 1, [] => some []
  | allowed + 1, c :: r =>
    if c == '%' then none
    else if c == '&' then do
      match ← reference? r with
      | (.char c, r) => return c :: (← entityText allowed r)
      | (.entity name, r) => return '&' :: name.toList ++ ';' :: (← entityText allowed r)
    else (entityText allowed r).map (c :: ·)

/-- A name without a colon in a declaration, and the text after it and white space. -/
def nameIn (cs : List Char) : Option (String × List Char) := do
  let (w, r) ← word? cs
  if r.head?.any (fun c => isSpace c || [ '>', ')', ',', '|', '[' ].contains c) then
    return (w, afterSpace r)
  else none

/-- A name in a declaration. -/
def tagIn (cs : List Char) : Option (Tag × List Char) := do
  let (t, r) ← tag? cs
  if r.head?.any (fun c => isSpace c || [ '>', ')', ',', '|', '[' ].contains c) then
    return (t, afterSpace r)
  else none

/-- A literal in a declaration. -/
def literalIn (cs : List Char) : Option (List Char × List Char) := do
  let (s, r) ← quoted? cs
  if s.all isAllowed && r.head?.any (fun c => isSpace c || c == '>' || c == '[') then
    return (s, afterSpace r)
  else none

/-- A character that a public identifier may hold. -/
def isPublicChar (c : Char) : Bool :=
  Text.isAlphanumericAscii c || c == ' ' || c == '\r' || c == '\n' ||
    "-'()+,./:=?;!*#@$_%".toList.contains c

/-- The text after the place of an external text; the second literal of a public one may
be wanting if `short`. -/
def afterExternal (short : Bool) (keyword : String) (cs : List Char) : Option (List Char) := do
  if keyword == "SYSTEM" then return (← literalIn cs).2
  else if keyword == "PUBLIC" then
    let (s, r) ← literalIn cs
    if s.all isPublicChar then
      match literalIn r with
      | some (_, t) => return t
      | none => if short then return r else none
    else none
  else none

/-- The text after the end of a declaration. -/
def afterClose : List Char → Option (List Char)
  | '>' :: r => some r
  | _ => none

/-- The declarations with one more entity, unless one of its name is there. -/
def keepEntity (d : Doctype) (name : String) (e : Entity) : Doctype :=
  if !d.keeps || (d.entities.lookup name).isSome then d
  else { d with entities := d.entities ++ [(name, e)] }

/-- The declaration of a parameter entity after its percent sign; it is not kept. -/
def parameterEntity (d : Doctype) (cs : List Char) : Option (Doctype × List Char) := do
  let (_, r) ← nameIn cs
  match nameIn r with
  | some (keyword, t) => return (d, ← afterClose (← afterExternal false keyword t))
  | none =>
    let (s, t) ← literalIn r
    if d.keeps && (entityText (s.length + 1) s).isNone then none
    else return (d, ← afterClose t)

/-- The declaration of an entity after its keyword. -/
def entity (d : Doctype) (cs : List Char) : Option (Doctype × List Char) :=
  match cs with
  | '%' :: r => do parameterEntity d (← afterSomeSpace r)
  | cs => do
    let (name, r) ← nameIn cs
    match nameIn r with
    | none =>
      let (s, t) ← literalIn r
      match entityText (s.length + 1) (Text.lineFeeds s) with
      | some text => return (d.keepEntity name ⟨some text, true⟩, ← afterClose t)
      | none => if d.keeps then none else return (d, ← afterClose t)
    | some (keyword, t) =>
      let t ← afterExternal false keyword t
      match nameIn t with
      | some ("NDATA", t) =>
        let (_, t) ← nameIn t
        return (d.keepEntity name ⟨none, false⟩, ← afterClose t)
      | some _ => none
      | none => return (d.keepEntity name ⟨none, true⟩, ← afterClose t)

/-- The declaration of a format after its keyword. -/
def namedFormat (d : Doctype) (cs : List Char) : Option (Doctype × List Char) := do
  let (_, r) ← nameIn cs
  let (keyword, r) ← nameIn r
  return (d, ← afterClose (← afterExternal true keyword r))

/-- A mark that says how often a part occurs may follow it. -/
def afterOccurrence : List Char → List Char
  | c :: r => if c == '?' || c == '*' || c == '+' then r else c :: r
  | [] => []

/-- The text after the names of a mixed content, of which `first` says that none has been read. -/
def afterMixed : (allowed : Nat) → (first : Bool) → List Char → Option (List Char)
  | 0, _, _ => none
  | allowed + 1, first, cs =>
    match afterSpace cs with
    | ')' :: '*' :: r => some r
    | ')' :: r => if first then some r else none
    | '|' :: r => do
      let (_, t) ← tag? (afterSpace r)
      afterMixed allowed false t
    | _ => none

mutual

/-- The text after one part of a content model. -/
def afterPart : (allowed : Nat) → List Char → Option (List Char)
  | 0, _ => none
  | allowed + 1, cs =>
    match cs with
    | '(' :: r => afterParts allowed none (afterSpace r)
    | cs => (tag? cs).map fun (_, r) => afterOccurrence r

/-- The text after the parts of a group that are left and its end; one kind of separator
stands between the parts. -/
def afterParts : (allowed : Nat) → (separator : Option Char) → List Char → Option (List Char)
  | 0, _, _ => none
  | allowed + 1, separator, cs => do
    let r ← afterPart allowed cs
    match afterSpace r with
    | ')' :: t => return afterOccurrence t
    | c :: t =>
      if (c == ',' || c == '|') && separator.all (· == c) then
        afterParts allowed (some c) (afterSpace t)
      else none
    | [] => none

end

/-- The text after a content model. -/
def afterModel (cs : List Char) : Option (List Char) :=
  match cs with
  | '(' :: r =>
    match afterWord "#PCDATA" (afterSpace r) with
    | some t => afterMixed (t.length + 1) true t
    | none => afterPart (2 * cs.length + 2) cs
  | cs => do
    let (keyword, r) ← nameIn cs
    if keyword == "EMPTY" || keyword == "ANY" then return r else none

/-- The declaration of an element after its keyword. -/
def element (d : Doctype) (cs : List Char) : Option (Doctype × List Char) := do
  let (_, r) ← tagIn cs
  return (d, ← afterClose (afterSpace (← afterModel r)))

/-- The text after the choices of an attribute, each read by `choice`. -/
def afterChoices (choice : List Char → Option (List Char)) :
    (allowed : Nat) → List Char → Option (List Char)
  | 0, _ => none
  | allowed + 1, cs => do
    match afterSpace (← choice (afterSpace cs)) with
    | ')' :: r => afterSomeSpace r
    | '|' :: r => afterChoices choice allowed r
    | _ => none

/-- The text after a word of name characters. -/
def afterNameChars (cs : List Char) : Option (List Char) :=
  let isChoiceChar (c : Char) : Bool := isNameChar c || c == ':'
  if cs.head?.any isChoiceChar then some (cs.dropWhile isChoiceChar) else none

/-- The text after the type of an attribute. -/
def afterType (cs : List Char) : Option (List Char) :=
  match cs with
  | '(' :: r => afterChoices afterNameChars cs.length r
  | cs => do
    let (keyword, r) ← nameIn cs
    if keyword == "NOTATION" then
      match r with
      | '(' :: t => afterChoices (fun s => (word? s).map Prod.snd) t.length t
      | _ => none
    else if ["CDATA", "ID", "IDREF", "IDREFS", "ENTITY", "ENTITIES", "NMTOKEN",
      "NMTOKENS"].contains keyword
    then return r
    else none

/-- The standard value of an attribute, if it has one. -/
def standardValue (d : Doctype) (cs : List Char) : Option (Option (List Char) × List Char) :=
  let given (cs : List Char) : Option (Option (List Char) × List Char) := do
    let (s, r) ← literalIn cs
    if d.keeps then return (some (← d.attributeValue (2 * cs.length + 1) [] s), r)
    else return (none, r)
  match cs with
  | '#' :: r => do
    let (keyword, t) ← nameIn r
    if keyword == "IMPLIED" || keyword == "REQUIRED" then return (none, t)
    else if keyword == "FIXED" then given t
    else none
  | cs => given cs

/-- The declarations of the attributes of an element that are left. -/
def attributes (owner : Tag) : (allowed : Nat) → Doctype → List Char → Option (Doctype × List Char)
  | 0, _, _ => none
  | allowed + 1, d, cs =>
    match cs with
    | '>' :: r => some (d, r)
    | cs => do
      let (name, r) ← tagIn cs
      let (value, r) ← d.standardValue (← afterType r)
      let d := match value with
        | some v => { d with standard := d.standard ++ [(owner, (name, v))] }
        | none => d
      attributes owner allowed d r

/-- A declaration after its opening. -/
def declaration (d : Doctype) (cs : List Char) : Option (Doctype × List Char) := do
  let (keyword, r) ← word? cs
  let r ← afterSomeSpace r
  match keyword with
  | "ENTITY" => d.entity r
  | "NOTATION" => d.namedFormat r
  | "ELEMENT" => d.element r
  | "ATTLIST" =>
    let (owner, t) ← tagIn r
    attributes owner (t.length + 1) d t
  | _ => none

/-- The declarations that are left, up to their closing bracket. -/
def declarations : (allowed : Nat) → Doctype → List Char → Option (Doctype × List Char)
  | 0, _, _ => none
  | allowed + 1, d, cs =>
    match afterSpace cs with
    | ']' :: r => some (d, r)
    | '%' :: r => do
      let (_, t) ← word? r
      declarations allowed { d with incomplete := true, keeps := d.keeps && d.standalone }
        (← afterWord ";" t)
    | '<' :: '!' :: '-' :: '-' :: r => do declarations allowed d (← afterComment r)
    | '<' :: '?' :: r => do declarations allowed d (← afterInstruction r)
    | '<' :: '!' :: r => do
      let (d, t) ← d.declaration r
      declarations allowed d t
    | _ => none

/-- A document type after its keyword. -/
def read (d : Doctype) (cs : List Char) : Option (Doctype × List Char) := do
  let (_, r) ← tagIn (← afterSomeSpace cs)
  let (d, r) ← match nameIn r with
    | some (keyword, t) => do pure ({ d with incomplete := true }, ← afterExternal false keyword t)
    | none => pure (d, r)
  match r with
  | '[' :: t =>
    let (d, t) ← declarations (t.length + 1) d t
    return (d, ← afterClose (afterSpace t))
  | r => return (d, ← afterClose r)

end Doctype
end Xml
end CodeSurvey
