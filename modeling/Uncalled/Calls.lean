import Uncalled.Helper
import Uncalled.Scope
/-! The calls that tests make. A walk goes through the body of each test function in order, follows
the types of its variables as far as the syntax shows them, and records the name of every function
it sees called: a plain name as it stands, a method by the type of the variable before the dot. -/
namespace Uncalled
open Source (Expr Element VarSpec Stmt Function)

structure Walk where
  scope : Scope
  called : List String
  deriving DecidableEq, Repr

namespace Walk

def record (w : Walk) (name : String) : Walk := { w with called := name :: w.called }

def callName (hs : Helpers) (w : Walk) (name : String) : Walk :=
  if hs.contains name then w else w.record name

def callMethod (w : Walk) (receiver method : String) : Walk :=
  match w.scope.lookup receiver with
  | some type => w.record (type ++ "." ++ method)
  | none => w

def bindKnown (w : Walk) (name type : Option String) : Walk :=
  { w with scope := w.scope.bindKnown name type }

end Walk

def target? : Expr → Option String
  | .ident name => some name
  | _ => none

def calledSignature (hs : Helpers) : Expr → Option (List (Option String))
  | .call (.ident name) _ => hs.get? name
  | .call (.selector _ field) _ => hs.get? field
  | _ => none

def bindResults (hs : Helpers) (targets : List (Option String))
    (right : List Expr) (w : Walk) : Walk :=
  match right with
  | [value] =>
    match calledSignature hs value with
    | some signature => (targets.zip signature).foldl (fun w b => w.bindKnown b.1 b.2) w
    | none => w
  | _ => w

mutual

def call (hs : Helpers) : Expr → Walk → Walk
  | .call f args, w => callee hs f (arguments hs args w)
  | _, w => w

def callOnly (hs : Helpers) : Expr → Walk → Walk
  | .call f _, w => callee hs f w
  | _, w => w

def callee (hs : Helpers) : Expr → Walk → Walk
  | .ident name, w => w.callName hs name
  | .selector (.ident receiver) method, w => w.callMethod receiver method
  | .funcLit body, w => block hs body w
  | _, w => w

def argument (hs : Helpers) : Expr → Walk → Walk
  | .call f args, w => callee hs f (arguments hs args w)
  | .funcLit body, w => block hs body w
  | _, w => w

def arguments (hs : Helpers) : List Expr → Walk → Walk
  | [], w => w
  | e :: es, w => arguments hs es (argument hs e w)

def keyed (hs : Helpers) : Expr → Walk → Walk
  | .call f args, w => callee hs f (arguments hs args w)
  | .funcLit body, w => block hs body w
  | .composite _ es, w => elements hs es w
  | .unary (.composite _ es), w => elements hs es w
  | _, w => w

def plain (hs : Helpers) : Expr → Walk → Walk
  | .call f _, w => callee hs f w
  | .funcLit body, w => block hs body w
  | .composite _ es, w => elements hs es w
  | .unary (.composite _ es), w => elements hs es w
  | _, w => w

def element (hs : Helpers) : Element → Walk → Walk
  | .plain value, w => plain hs value w
  | .keyed value, w => keyed hs value w

def elements (hs : Helpers) : List Element → Walk → Walk
  | [], w => w
  | e :: es, w => elements hs es (element hs e w)

def assigned (hs : Helpers) (target : Option String) : Expr → Walk → Walk
  | .call f args, w => callee hs f (arguments hs args w)
  | .funcLit body, w => block hs body w
  | .composite type es, w => (elements hs es w).bindKnown target (type.bind bindingName)
  | .unary (.composite type es), w => (elements hs es w).bindKnown target (type.bind bindingName)
  | _, w => w

def assignEach (hs : Helpers) (targets : List (Option String)) : List Expr → Walk → Walk
  | [], w => w
  | e :: es, w => assignEach hs targets.tail es (assigned hs targets.head?.join e w)

def callsOnly (hs : Helpers) : List Expr → Walk → Walk
  | [], w => w
  | e :: es, w => callsOnly hs es (callOnly hs e w)

/-- A declaration of variables, of which only the first line counts. -/
def firstSpec (hs : Helpers) : List VarSpec → Walk → Walk
  | [], w => w
  | .mk names type values :: _, w =>
    let targets := names.map some
    assignEach hs targets values
      (bindResults hs targets values { w with scope := w.scope.bindSpec (.mk names type values) })

def statement (hs : Helpers) : Stmt → Walk → Walk
  | .assign left right, w =>
    let targets := left.map target?
    assignEach hs targets right (bindResults hs targets right w)
  | .vars specs, w => firstSpec hs specs w
  | .eval value, w => call hs value w
  | .detached value, w => callOnly hs value w
  | .returns values, w => callsOnly hs values w
  | .send value, w => call hs value w
  | .loop body, w => block hs body w
  | .branch consequence _, w => block hs consequence w
  | .cases clauses, w => blocks hs clauses w
  | .other, w => w

def block (hs : Helpers) : List Stmt → Walk → Walk
  | [], w => w
  | s :: ss, w => block hs ss (statement hs s w)

def blocks (hs : Helpers) : List (List Stmt) → Walk → Walk
  | [], w => w
  | b :: bs, w => blocks hs bs (block hs b w)

end

def walkFunction (hs : Helpers) (w : Walk) (f : Function) : Walk :=
  match f.body with
  | none => w
  | some body =>
    if hs.contains f.name then w
    else block hs body.statements { w with scope := w.scope.resetLocals }

def walkFile (hs : Helpers) (w : Walk) (file : Source.File) : Walk :=
  (Source.functions file).foldl (walkFunction hs) w

def Walk.start (scope : Scope) : Walk := ⟨scope, ["init"]⟩

def walkFiles (hs : Helpers) (scope : Scope) (files : List Source.File) : Walk :=
  files.foldl (walkFile hs) (.start scope)

end Uncalled
