import Uncalled.Catalogue
import Uncalled.Source.Syntax
/-! Helpers of tests: functions of test files that give something back and are not tests themselves.
What they give back tells the types of the variables that take it. -/
namespace Uncalled
open Source (TypeExpr Parameter Function Result)

structure Helper where
  name : String
  signature : List (Option String)
  deriving DecidableEq, Repr

abbrev Helpers := Catalogue Helper.name

namespace Helper

def typeName : TypeExpr → Option String
  | .name id => some id
  | .qualified package id => some (package ++ "." ++ id)
  | .pointer _ (.name id) => some id
  | .pointer _ (.qualified package id) => some (package ++ "." ++ id)
  | _ => none

def resultTypes : Result → List TypeExpr
  | .single type => [type]
  | .list parameters => parameters.filterMap fun
    | .plain _ type => some type
    | .variadic _ => none

def signature? (f : Function) : Option (List (Option String)) :=
  match f.result.map resultTypes with
  | none => none
  | some [] => none
  | some types => some (types.map typeName)

def ofFunction? (testPrefix : String) (f : Function) : Option Helper :=
  if testPrefix.toList.isPrefixOf f.name.toList then none
  else (signature? f).map fun s => ⟨f.name, s⟩

def collect (testPrefix : String) (files : List Source.File) : Helpers :=
  Catalogue.ofList name ((files.flatMap Source.functions).filterMap (ofFunction? testPrefix))

end Helper

namespace Helpers

def get? (hs : Helpers) (name : String) : Option (List (Option String)) :=
  (Catalogue.get? hs name).map Helper.signature

def contains (hs : Helpers) (name : String) : Bool := (hs.get? name).isSome

end Helpers
end Uncalled
