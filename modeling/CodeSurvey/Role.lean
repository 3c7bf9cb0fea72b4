/-
# Roles and layers

What a source file is for, as far as its path tells: its role (a page, a service, a test, …) and the
architectural layer it most likely belongs to.
-/

namespace CodeSurvey

/-- The coarse role of a source file. -/
inductive Role
  | component
  | service
  | controller
  | page
  | hook
  | utility
  | config
  | test
  | module
  deriving DecidableEq, Repr

/-- The architectural layer of a source file. -/
inductive Layer
  | presentation
  | business
  | data
  | utility
  | infrastructure
  | test
  deriving DecidableEq, Repr

namespace Role

/-- All roles. -/
def all : List Role :=
  [.component, .service, .controller, .page, .hook, .utility, .config, .test, .module]

/-- The word for a role. -/
def word : Role → String
  | component => "component"
  | service => "service"
  | controller => "controller"
  | page => "page"
  | hook => "hook"
  | utility => "utility"
  | config => "config"
  | test => "test"
  | module => "module"

/-- The role that a word stands for. -/
def ofWord? (w : String) : Option Role := all.find? (·.word == w)

theorem ofWord?_word (r : Role) : ofWord? r.word = some r := by
  cases r <;> decide +kernel

end Role

/-- The word for a layer. -/
def Layer.word : Layer → String
  | presentation => "presentation"
  | business => "business"
  | data => "data"
  | utility => "utility"
  | infrastructure => "infrastructure"
  | test => "test"

/-- The layer that a role suggests; a plain module counts as business logic. -/
def Role.layer : Role → Layer
  | controller => .presentation
  | page => .presentation
  | component => .presentation
  | service => .business
  | hook => .business
  | utility => .utility
  | config => .infrastructure
  | test => .test
  | module => .business

end CodeSurvey
