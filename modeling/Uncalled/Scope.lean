import Uncalled.Source.Syntax
/-! Which type a variable is known to have. The variables of the package are seen from everywhere;
local ones come before them and are forgotten between functions. -/
namespace Uncalled
open Source (TypeExpr Expr VarSpec)

abbrev Bindings := List (String × String)

structure Scope where
  package : Bindings
  locals : Bindings
  deriving DecidableEq, Repr

namespace Scope

def ofPackage (package : Bindings) : Scope := ⟨package, []⟩

def lookup (s : Scope) (name : String) : Option String :=
  (s.locals.lookup name).or (s.package.lookup name)

def bind (s : Scope) (name type : String) : Scope :=
  if name = "_" then s else ⟨s.package, (name, type) :: s.locals⟩

def bindKnown (s : Scope) : Option String → Option String → Scope
  | some name, some type => s.bind name type
  | _, _ => s

def resetLocals (s : Scope) : Scope := ⟨s.package, []⟩

end Scope

def bindingName : TypeExpr → Option String
  | .name id => some id
  | .qualified _ id => some id
  | .pointer _ target => bindingName target
  | .generic _ => none
  | .compound => none

def literalName : Expr → Option String
  | .composite (some type) _ => bindingName type
  | .unary (.composite (some type) _) => bindingName type
  | _ => none

def specName (spec : VarSpec) : Option String :=
  (spec.type.bind bindingName).or (spec.values.head?.bind literalName)

def Scope.bindSpec (s : Scope) (spec : VarSpec) : Scope :=
  s.bindKnown spec.names.head? (specName spec)

def packageBindings (files : List Source.File) : Bindings :=
  ((files.flatMap Source.packageVars).foldl Scope.bindSpec (.ofPackage [])).locals

end Uncalled
