import Uncalled.Source.Token
/-! The syntax tree of a Go file, as deep as calls, bindings and declarations are read from it. A
form that none of them looks into is `other`; the headers of statements are not kept. -/
namespace Uncalled.Source

/-- A type as written. Slices, maps, channels, functions, structs, interfaces and types in
parentheses name nothing and are all `compound`. -/
inductive TypeExpr
  | name (id : String)
  | qualified (package name : String)
  -- `hidden` says that a comment stands right after the star.
  | pointer (hidden : Bool) (target : TypeExpr)
  | generic (base : TypeExpr)  -- a type with type arguments
  | compound
  deriving DecidableEq, Repr

mutual

inductive Expr
  | ident (name : String)
  | selector (operand : Expr) (field : String)
  | call (callee : Expr) (arguments : List Expr)
  | funcLit (body : List Stmt)
  | unary (operand : Expr)
  -- A literal with elements in braces; one inside another may leave its type out.
  | composite (type : Option TypeExpr) (elements : List Element)
  -- Other literals, operators between operands, parentheses, indexing, slicing, assertions,
  -- conversions, types and arguments spread by dots.
  | other

inductive Element
  | plain (value : Expr)
  | keyed (value : Expr)

inductive VarSpec
  | mk (names : List String) (type : Option TypeExpr) (values : List Expr)

inductive Stmt
  | assign (left right : List Expr)  -- an assignment of any kind, also one that declares
  | vars (specs : List VarSpec)
  | eval (value : Expr)
  | detached (value : Expr)  -- `go` and `defer`
  | returns (values : List Expr)
  | send (value : Expr)
  | loop (body : List Stmt)
  | branch (consequence alternative : List Stmt)
  | cases (clauses : List (List Stmt))  -- the clauses of a `switch` or a `select`
  | other  -- Blocks, labels, jumps, steps, declarations of constants and types, and nothing.

end

namespace VarSpec

def names : VarSpec → List String
  | .mk names _ _ => names

def type : VarSpec → Option TypeExpr
  | .mk _ type _ => type

def values : VarSpec → List Expr
  | .mk _ _ values => values

end VarSpec

inductive Parameter
  | plain (names : List String) (type : TypeExpr)
  | variadic (type : TypeExpr)
  deriving DecidableEq, Repr

inductive Result
  | single (type : TypeExpr)
  | list (parameters : List Parameter)
  deriving DecidableEq, Repr

structure Body where
  start : Point
  stop : Point
  statements : List Stmt

structure Function where
  start : Point
  name : String
  receiver : Option (List Parameter)
  result : Option Result
  body : Option Body

inductive Item
  | function (f : Function)
  | vars (specs : List VarSpec)
  | other

abbrev File := List Item

def Item.function? : Item → Option Function
  | .function f => some f
  | _ => none

def functions (file : File) : List Function := file.filterMap Item.function?

def Item.specs : Item → List VarSpec
  | .vars specs => specs
  | _ => []

def packageVars (file : File) : List VarSpec := file.flatMap Item.specs

end Uncalled.Source
