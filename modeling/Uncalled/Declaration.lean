import Uncalled.Source.Syntax
/-! Declared functions: the name each goes by and where it stands in its file. -/
namespace Uncalled
open Source (Point TypeExpr Parameter Function)

structure Position where
  file : String
  offset : Nat
  line : Nat
  column : Nat
  deriving DecidableEq, Repr

namespace Position

def text (p : Position) : String :=
  p.file ++ ":" ++ Nat.repr p.line ++ ":" ++ Nat.repr p.column

def startOf (file : String) (start : Point) : Position :=
  ⟨file, start.offset, start.row + 1, start.column + 1⟩

/-- The last byte of what stops at `stop`, which is the point behind that byte. -/
def lastOf (file : String) (stop : Point) : Position :=
  ⟨file, stop.offset - 1, stop.row + 1, max stop.column 1⟩

end Position

structure Declaration where
  name : String
  file : String
  start : Position
  opening : Option Position
  closing : Option Position
  deriving DecidableEq, Repr

namespace Declaration

def bodyContains (d : Declaration) (offset : Nat) : Bool :=
  match d.opening, d.closing with
  | some o, some c => o.offset ≤ offset && offset ≤ c.offset
  | _, _ => false

def baseName : TypeExpr → Option String
  | .name id => some id
  | .generic (.name id) => some id
  | _ => none

/-- The name of a receiver's type. A pointer is stripped, unless a comment stands after its star. -/
def receiverName : TypeExpr → Option String
  | .pointer true _ => none
  | .pointer false target => baseName target
  | type => baseName type

def receiverType? (receiver : List Parameter) : Option TypeExpr :=
  receiver.findSome? fun
    | .plain _ type => some type
    | .variadic _ => none

def qualifiedName (f : Function) : String :=
  match f.receiver.bind fun r => (receiverType? r).bind receiverName with
  | some type => type ++ "." ++ f.name
  | none => f.name

def ofFunction (file : String) (f : Function) : Declaration :=
  ⟨qualifiedName f, file, .startOf file f.start,
    f.body.map fun b => .startOf file b.start,
    f.body.map fun b => .lastOf file b.stop⟩

def collect (file : String) (tree : Source.File) : List Declaration :=
  (Source.functions tree).map (ofFunction file)

end Declaration
end Uncalled
