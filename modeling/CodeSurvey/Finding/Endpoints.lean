/-
# Endpoints

The routes that files declare with common web frameworks, then the conventional actions of
controllers. Where a route stands before its handler, the handler is the next definition within five
lines; where the handler is an argument, it is the last plain name of the call.
-/

import CodeSurvey.Finding
import CodeSurvey.Finding.LinePattern
import CodeSurvey.Slice
import CodeSurvey.Text.Case

namespace CodeSurvey
namespace Endpoints

open Text Pattern

/-- A way to declare a route. Its pattern captures the method as number one, where it is written,
and the route as number two. -/
structure RoutePattern where
  line : LinePattern
  standsBefore : Bool

/-- The method of a route that names none. -/
def defaultMethod : List Char := "GET".toList

/-- The methods that a pattern knows, captured as number one. -/
def method (names : List String) : Pattern := capture 1 (words names)

/-- A text in double quotes, captured as number two. -/
def doubleQuotedRoute : Pattern :=
  all [one '\x22', capture 2 (some1 (char (· != '\x22'))), one '\x22']

/-- The start of the arguments of a call. -/
def arguments : Pattern := all [blanks, one '(', blanks]

/-- Any characters of a line, as few as possible. -/
def anything : Pattern := fewest (char (· != '\n'))

/-- The list of methods of a route, of which the first is captured. -/
def methodList : Pattern :=
  all [anything, word "methods", blanks, one '=', blanks, one '[', blanks, char isPlainQuote,
    capture 1 (some1 (char isWord)), char isPlainQuote]

/-- A name that starts with an ASCII letter or an underscore. -/
def identifier : Pattern :=
  seq (char fun c => isLowerAscii c || isUpperAscii c || c == '_') (many (char isWord))

/-- The ways to declare a route. -/
def routePatterns : List RoutePattern :=
  [⟨{ pattern := all [wordEdge, words ["app", "router"], one '.',
        method ["get", "post", "put", "delete", "patch", "use"], arguments, quotedText 2]
      kind := "Express.js", extensions := some ecmascriptExtensions }, false⟩,
    ⟨{ pattern := all [one '@', words ["app", "router"], one '.',
        method ["get", "post", "put", "delete", "patch"], arguments, quotedText 2]
       kind := "FastAPI", extensions := some [".py"] }, true⟩,
    ⟨{ pattern := all [one '@', some1 (char isWord), word ".route", arguments, quotedText 2,
        optional methodList]
       kind := "Flask", extensions := some [".py"] }, true⟩,
    ⟨{ pattern := all [word "[Http", method ["Get", "Post", "Put", "Delete", "Patch"], arguments,
        doubleQuotedRoute, blanks, one ')', one ']']
       kind := "ASP.NET", extensions := some [".cs"] }, true⟩,
    ⟨{ pattern := all [one '@', method ["Get", "Post", "Put", "Delete", "Patch"], word "Mapping",
        arguments, optional (all [words ["value", "path"], blanks, one '=', blanks]),
        doubleQuotedRoute]
       kind := "Spring Boot", extensions := some [".java", ".kt"] }, true⟩,
    ⟨{ pattern := all [wordEdge, identifier, one '.',
        method ["GET", "POST", "PUT", "DELETE", "PATCH"], arguments, quotedText 2]
       kind := "Gin", extensions := some [".go"] }, false⟩]

/-- A plain name as an argument of a call. -/
def argumentName : Pattern :=
  seq (char fun c => isLowerAscii c || isUpperAscii c || c == '_' || c == '$')
    (many (char fun c => isWord c || c == '$' || c == '.'))

/-- Plain names as the arguments up to the end of a call, of which the last is captured. -/
def lastArgument : Pattern :=
  all [textStart, blanks, many (all [one ',', blanks, argumentName, blanks]), one ',', blanks,
    capture 1 argumentName, blanks, one ')']

/-- The handler in the rest of a call. -/
def handlerInCall (rest : List Char) : List Char :=
  ((lastArgument.matchStart? rest).bind (·.group? 1)).getD "anonymous".toList

/-- A definition: its name after a keyword, or before the arguments of a member. -/
def definition : Pattern :=
  orElse (all [wordEdge, words ["def", "function", "func"], blanks1, capture 1 identifier])
    (all [wordEdge, words ["public", "private", "protected", "internal"], wordEdge,
      fewest (char fun c => c != '=' && c != ';' && c != '('), wordEdge,
      capture 1 identifier, blanks, one '('])

/-- The number of lines after a route in which its handler is looked for. -/
def lookahead : Nat := 5

/-- Whether a trimmed line is passed over on the way to a definition. -/
def isPassedOver (l : List Char) : Bool :=
  l.isEmpty || ["@", "[", "#", "//"].any fun m => m.toList.isPrefixOf l

/-- The name that the first line defines that is not passed over. -/
def definedName (ls : List (List Char)) : List Char :=
  match (ls.map trim).find? (!isPassedOver ·) with
  | none => "anonymous".toList
  | some l => ((definition.search l).bind (·.stop.group? 1)).getD "anonymous".toList

/-- The handler that is defined after a line. -/
def handlerAfter (content : String) (number : Nat) : List Char :=
  definedName (((lines content.toList).drop number).take lookahead)

/-- The endpoint that a match on a line declares. -/
def endpointOf (f : LineFind RoutePattern) (m : Found) : Endpoint where
  method := String.ofList (upper ((m.stop.group? 1).getD defaultMethod))
  route := String.ofList ((m.stop.group? 2).getD [])
  path := f.file.path
  line := f.number
  handler :=
    String.ofList
      (if f.pattern.standsBefore then handlerAfter f.file.text f.number
        else handlerInCall m.stop.rest)
  framework := f.pattern.line.kind

/-- The routes that files declare. -/
def routes (files : List SourceFile) : List Endpoint :=
  (scanLines RoutePattern.line routePatterns files).flatMap fun f =>
    (f.pattern.line.pattern.findAll f.line).map (endpointOf f)

/-- The conventional actions of controllers, with their methods and routes. -/
def actions : List (String × String × String) :=
  [("index", "GET", "/"), ("show", "GET", "/:id"), ("store", "POST", "/"), ("create", "POST", "/"),
    ("update", "PUT", "/:id"), ("destroy", "DELETE", "/:id")]

/-- The ways to define a conventional action, of which the name is captured. -/
def actionPatterns : List LinePattern :=
  [{ pattern := all [wordEdge, word "public", blanks1, word "function", blanks1,
       capture 1 (words ["index", "show", "store", "update", "destroy"]), blanks, one '(']
     kind := "Laravel", extensions := some [".php"] },
    { pattern := all [textStart, blanks, word "def", blanks1,
        capture 1 (words ["index", "show", "create", "update", "destroy"]), wordEdge]
      kind := "Rails", extensions := some [".rb"] }]

/-- The endpoint that a conventional action is. -/
def actionEndpoint? (f : LineFind LinePattern) : Option Endpoint := do
  let found ← f.pattern.pattern.search f.line
  let action := String.ofList ((found.stop.group? 1).getD [])
  let (method, route) ← actions.lookup action
  return ⟨method, route, f.file.path, f.number, action, f.pattern.kind ++ " RESTful"⟩

/-- Whether a path is one of a controller. -/
def isController (path : String) : Bool := contains "controller".toList (lower path.toList)

/-- The endpoints of some files. -/
def endpoints (limit : Int) (files : List SourceFile) : List Endpoint :=
  upTo limit
    (routes files ++
      (scanLines id actionPatterns (files.filter fun f => isController f.path)).filterMap
        actionEndpoint?)

end Endpoints
end CodeSurvey
