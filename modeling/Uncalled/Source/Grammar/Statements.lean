import Uncalled.Source.Grammar.Expressions
/-! Statements. Of a header only the shape is checked: what stands before a block is not kept. -/
namespace Uncalled.Source

def expressions (g : Grammar) (p : Place) : Parser (List Expr) :=
  commaList (g.expr p) p.breaks none g.bound

def single : List Expr → Parser Expr
  | [e] => pure e
  | _ => failure

/-- A statement made of expressions: an assignment, a step, a send or a single expression. What is
assigned stands at `right`. A line break ends it only after a single expression. -/
def simple (g : Grammar) (p right : Place) : Parser Stmt := do
  let left ← expressions g p
  match ← peekHere (p.breaks && left.length == 1) with
  | some (.mark .define) | some (.mark .assign) | some (.mark .update) =>
    let _ ← anyToken
    return .assign left (← expressions g right)
  | some (.mark .step) =>
    let _ ← single left
    let _ ← anyToken
    return .other
  | some (.mark .arrow) =>
    let _ ← single left
    let _ ← anyToken
    return .send (← g.expr p)
  | _ => return .eval (← single left)

def declared (g : Grammar) (spec : Parser α) : Parser (List α) := do
  if ← skip false .lparen then group spec .rparen g.bound else return [← spec]

def constSpec (g : Grammar) : Parser Unit := do
  let _ ← commaList name true none g.bound
  match ← peekHere true with
  | some (.mark .assign) => values
  | some (.mark .semicolon) | some (.mark .rparen) | some (.mark .rbrace) | none => return ()
  | _ =>
    let _ ← g.type true
    values
where
  values : Parser Unit := do
    let _ ← mark .assign
    let _ ← expressions g .line

def varSpec (g : Grammar) : Parser VarSpec := do
  let names ← commaList name false none g.bound
  if ← skip false .assign then return .mk names none (← expressions g .line)
  else
    let type ← g.type true
    if ← skip true .assign then return .mk names (some type) (← expressions g .line)
    else return .mk names (some type) []

def typeSpec (g : Grammar) : Parser Unit := do
  let _ ← name
  (do typeParameters g; meaning) <|> meaning
where
  meaning : Parser Unit := do
    let _ ← skip false .assign
    let _ ← g.type true

def ifStmt (g : Grammar) : Parser Stmt := do
  let _ ← word .if_
  match ← simple g .header .inside with
  | .eval _ => if ← skip false .semicolon then let _ ← g.expr .header
  | _ =>
    let _ ← mark .semicolon
    let _ ← g.expr .header
  let consequence ← block g
  if (← peekHere true) = some (.word .else_) then
    let _ ← word .else_
    if (← peek) = some (.word .if_) then return .branch consequence.statements [← g.stmt]
    else return .branch consequence.statements (← block g).statements
  else return .branch consequence.statements []

def forRest (g : Grammar) : Parser Unit := do
  let _ ← mark .semicolon
  if ← nextIs .semicolon then pure ()
  else
    let _ ← g.expr .header
  let _ ← mark .semicolon
  if ← nextIs .lbrace then return ()
  else
    let _ ← simple g .header .header

def rangeClause (g : Grammar) : Parser Unit := do
  let _ ← word .range
  let _ ← g.expr .header

def forHeader (g : Grammar) : Parser Unit := do
  let left ← expressions g .header
  match ← peek with
  | some (.mark .define) | some (.mark .assign) =>
    let _ ← anyToken
    if (← peek) = some (.word .range) then rangeClause g
    else
      let _ ← expressions g .inside
      forRest g
  | some (.mark .update) =>
    let _ ← anyToken
    let _ ← expressions g .inside
    forRest g
  | some (.mark .step) =>
    let _ ← single left
    let _ ← anyToken
    forRest g
  | some (.mark .arrow) =>
    let _ ← single left
    let _ ← anyToken
    let _ ← g.expr .inside
    forRest g
  | some (.mark .semicolon) =>
    let _ ← single left
    forRest g
  | _ =>
    let _ ← single left

def forStmt (g : Grammar) : Parser Stmt := do
  let _ ← word .for_
  match ← peek with
  | some (.mark .lbrace) => pure ()
  | some (.word .range) => rangeClause g
  | some (.mark .semicolon) => forRest g
  | _ => forHeader g
  return .loop (← block g).statements

inductive SwitchPart
  | statement
  | value
  | guard  -- the guard of a type switch
  deriving DecidableEq, Repr

def typeGuard : Parser SwitchPart := do
  let _ ← mark .dot
  let _ ← mark .lparen
  let _ ← word .type
  let _ ← mark .rparen
  return .guard

def switchPart (g : Grammar) : Parser SwitchPart := do
  let left ← expressions g .header
  if ← guardNext then
    let _ ← single left
    typeGuard
  else
    match ← peek with
    | some (.mark .define) =>
      let _ ← anyToken
      let right ← expressions g .inside
      if ← guardNext then
        let _ ← single right
        typeGuard
      else return .statement
    | some (.mark .assign) | some (.mark .update) =>
      let _ ← anyToken
      let _ ← expressions g .inside
      return .statement
    | some (.mark .step) =>
      let _ ← single left
      let _ ← anyToken
      return .statement
    | some (.mark .arrow) =>
      let _ ← single left
      let _ ← anyToken
      let _ ← g.expr .inside
      return .statement
    | _ =>
      let _ ← single left
      return .value

def switchHeader (g : Grammar) : Parser Bool := do
  if ← nextIs .lbrace then return false
  else
    let first ← switchPart g
    if first = .guard then return true
    else if ← skip false .semicolon then
      if ← nextIs .lbrace then return false
      else
        match ← switchPart g with
        | .guard => return true
        | .value => return false
        | .statement => failure
    else if first = .value then return false
    else failure

def clauses (g : Grammar) (head : Parser Unit) : Nat → Parser (List (List Stmt))
  | 0 => failure
  | n + 1 => do
    if ← skip false .rbrace then return []
    else
      if (← peek) = some (.word .default) then
        let _ ← word .default
      else
        let _ ← word .case_
        head
      let _ ← mark .colon
      let body ← statements g g.bound
      return body :: (← clauses g head n)

def communication (g : Grammar) : Parser Unit := do
  let left ← expressions g .inside
  match ← peek with
  | some (.mark .arrow) =>
    let _ ← single left
    let _ ← anyToken
    let _ ← g.expr .inside
  | some (.mark .define) | some (.mark .assign) =>
    let _ ← anyToken
    let _ ← g.expr .inside
  | _ =>
    let _ ← single left

def switchStmt (g : Grammar) : Parser Stmt := do
  let _ ← word .switch
  let onType ← switchHeader g
  let _ ← mark .lbrace
  let head : Parser Unit :=
    if onType then do let _ ← commaList (g.type false) false none g.bound
    else do let _ ← expressions g .inside
  return .cases (← clauses g head g.bound)

def selectStmt (g : Grammar) : Parser Stmt := do
  let _ ← word .select
  let _ ← mark .lbrace
  return .cases (← clauses g (communication g) g.bound)

def returnStmt (g : Grammar) : Parser Stmt := do
  let _ ← word .return_
  if (← peekHere true).isNone then return .returns []
  else return .returns ((← optional (expressions g .line)).getD [])

def jump (k : Keyword) : Parser Stmt := do
  let _ ← word k
  match ← peekHere true with
  | some (.name _) =>
    let _ ← name
    return .other
  | _ => return .other

def labelled (g : Grammar) : Parser Stmt := do
  let _ ← name
  let _ ← mark .colon
  let _ ← g.stmt
  return .other

def stmtStep (g : Grammar) : Parser Stmt := do
  match ← peek with
  | some (.word .const) =>
    let _ ← word .const
    let _ ← declared g (constSpec g)
    return .other
  | some (.word .type) =>
    let _ ← word .type
    let _ ← declared g (typeSpec g)
    return .other
  | some (.word .var) =>
    let _ ← word .var
    return .vars (← declared g (varSpec g))
  | some (.word .return_) => returnStmt g
  | some (.word .go) =>
    let _ ← word .go
    return .detached (← g.expr .line)
  | some (.word .defer) =>
    let _ ← word .defer
    return .detached (← g.expr .line)
  | some (.word .if_) => ifStmt g
  | some (.word .for_) => forStmt g
  | some (.word .switch) => switchStmt g
  | some (.word .select) => selectStmt g
  | some (.word .fallthrough) =>
    let _ ← word .fallthrough
    return .other
  | some (.word .break_) => jump .break_
  | some (.word .continue_) => jump .continue_
  | some (.word .goto) =>
    let _ ← word .goto
    let _ ← name
    return .other
  | some (.mark .lbrace) =>
    let _ ← block g
    return .other
  | some (.mark .semicolon) =>
    let _ ← mark .semicolon
    return .other
  | some (.name _) =>
    if (← peekSecond) = some (.mark .colon) then labelled g else simple g .line .line
  | _ => simple g .line .line

end Uncalled.Source
