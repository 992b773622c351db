import Uncalled.Source.Grammar.Statements
import Uncalled.Source.Lexer
/-! Whole files. A file is declarations and statements, each ended by a terminator; it needs no
package clause. `grammar` closes the circle of types, expressions and statements: what is nested is
read by the grammar one level down, and a source has fewer levels than tokens. -/
namespace Uncalled.Source
open Text (Bytes)

def grammar : Nat → Grammar
  | 0 => ⟨0, fun _ _ => none, fun _ _ => none, fun _ => none⟩
  | n + 1 =>
    ⟨n + 1, fun breaks ts => typeStep (grammar n) breaks ts,
      fun p ts => exprStep (grammar n) p ts, fun ts => stmtStep (grammar n) ts⟩

def importSpec : Parser Unit := do
  if ← skip false .dot then pure () else let _ ← optional name
  let _ ← text

def importDecl (g : Grammar) : Parser Unit := do
  let _ ← word .import_
  if ← skip false .lparen then
    let _ ← lineList importSpec .rparen g.bound
  else importSpec

def signature (g : Grammar) : Parser (Option Result × Option Body) := do
  let _ ← parameters g
  let given ← result g true
  if (← peekHere true) = some (.mark .lbrace) then return (given, some (← block g))
  else return (given, none)

def function (g : Grammar) : Parser Function := do
  let keyword ← word .func
  if ← nextIs .lparen then
    let receiver ← parameters g
    let id ← name
    let (given, body) ← signature g
    return ⟨keyword.start, id, some receiver, given, body⟩
  else
    let id ← name
    if ← nextIs .lbrack then typeParameters g
    let (given, body) ← signature g
    return ⟨keyword.start, id, none, given, body⟩

def item (g : Grammar) : Parser Item := do
  match ← peek with
  | some (.word .package) =>
    let _ ← word .package
    let _ ← name
    return .other
  | some (.word .import_) =>
    importDecl g
    return .other
  | some (.word .func) => (do return .function (← function g)) <|>
      (do let _ ← g.stmt; return .other)
  | _ =>
    match ← g.stmt with
    | .vars specs => return .vars specs
    | _ => return .other

def items (g : Grammar) : Nat → Parser File
  | 0 => failure
  | n + 1 => do
    if (← peek).isNone then return []
    else
      let first ← item g
      if (← peek).isNone then return [first]
      else
        terminator
        return first :: (← items g n)

def parse? (src : Bytes) : Option File := do
  let ts ← tokens? src
  let (file, _) ← items (grammar (3 * ts.length + 3)) (ts.length + 1) ts
  return file

end Uncalled.Source
