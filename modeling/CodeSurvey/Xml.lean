/-
# XML elements

A document is a tree of elements. An element has a name, which may belong to a namespace, the text
that stands in it before its first child, and its children. Text that stands after a child,
attributes, comments and instructions say nothing here and are not kept.
-/

namespace CodeSurvey
namespace Xml

/-- The name of an element: its namespace, if it has one, and its word. -/
structure Name where
  space : Option String := none
  word : String
  deriving DecidableEq, Repr

/-- Whether a name asks for another one, as the name of a child: the namespace `*` stands for
every one and for none. -/
def Name.asksFor (n m : Name) : Bool :=
  n.word == m.word && (n.space == some "*" || n.space == m.space)

/-- An element. -/
inductive Element
  | node (name : Name) (text : String) (children : List Element)

namespace Element

/-- The name of an element. -/
def name : Element → Name
  | node n _ _ => n

/-- The text of an element before its first child. -/
def text : Element → String
  | node _ t _ => t

/-- The children of an element. -/
def children : Element → List Element
  | node _ _ cs => cs

mutual

/-- An element and all elements in it, in the order of their start tags. -/
def all : Element → List Element
  | node n t cs => node n t cs :: allOf cs

/-- The elements of some trees, in order. -/
def allOf : List Element → List Element
  | [] => []
  | e :: rest => all e ++ allOf rest

end

/-- The elements of a name in a tree, in order. -/
def named (n : Name) (e : Element) : List Element := e.all.filter fun d => d.name == n

/-- The text of the first child that a name asks for, empty when there is none. -/
def childText (n : Name) (e : Element) : String :=
  match e.children.find? fun c => n.asksFor c.name with
  | some c => c.text
  | none => ""

end Element
end Xml
end CodeSurvey
