import Uncalled.Source.Grammar.Types
/-! Expressions. Operators between operands are read as one flat chain: how strongly they bind makes
no difference to what is called. While the parts after an operand are read, the type that the
operand may name is kept beside it, since only what follows tells a literal, a conversion and a call
apart. -/
namespace Uncalled.Source

structure Operand where
  expr : Expr
  type : Option TypeExpr

def Operand.of (e : Expr) : Operand := ⟨e, none⟩

def listEnds : Parser Bool := do
  match ← peek with
  | none => return true
  | some (.mark .rbrace) => return true
  | some (.word .case_) => return true
  | some (.word .default) => return true
  | _ => return false

def lastLabel : Parser Stmt := do
  let _ ← name
  let _ ← mark .colon
  if ← listEnds then return .other else failure

def statements (g : Grammar) : Nat → Parser (List Stmt)
  | 0 => failure
  | n + 1 => do
    if ← listEnds then return []
    else
      let first ← lastLabel <|> g.stmt
      if ← listEnds then return [first]
      else
        terminator
        return first :: (← statements g n)

def block (g : Grammar) : Parser Body := do
  let opening ← mark .lbrace
  let list ← statements g g.bound
  let closing ← mark .rbrace
  return ⟨opening.start, closing.stop, list⟩

def elementValue (g : Grammar) (literal : Parser (List Element)) : Parser Expr := do
  if ← nextIs .lbrace then return .composite none (← literal)
  else g.expr .inside

def element (g : Grammar) (literal : Parser (List Element)) : Parser Element := do
  let first ← elementValue g literal
  if ← skip false .colon then return .keyed (← elementValue g literal)
  else return .plain first

def literalValue (g : Grammar) : Nat → Parser (List Element)
  | 0 => failure
  | n + 1 => do
    let _ ← mark .lbrace
    if ← skip false .rbrace then return []
    else if ← skip false .comma then
      let _ ← mark .rbrace
      return []
    else
      let list ← commaList (element g (literalValue g n)) false (some .rbrace) g.bound
      let _ ← mark .rbrace
      return list

def argument (g : Grammar) : Parser (Expr × Bool) := do
  let value ← g.expr .inside
  return (value, ← skip false .ellipsis)

def arguments (g : Grammar) : Parser (List (Expr × Bool)) := do
  let _ ← mark .lparen
  if ← skip false .rparen then return []
  else
    let list ← commaList (argument g) false (some .rparen) g.bound
    let _ ← mark .rparen
    return list

def argumentExpr : Expr × Bool → Expr
  | (value, false) => value
  | (_, true) => .other

def converts : List (Expr × Bool) → Bool
  | [(_, false)] => true
  | _ => false

def typedArguments (g : Grammar) : Parser (List Expr) := do
  let _ ← mark .lparen
  if ← skip false .rparen then return []
  else
    let _ ← g.type false
    let rest ←
      if ← skip false .comma then
        if ← nextIs .rparen then pure []
        else commaList (g.expr .inside) false (some .rparen) g.bound
      else pure []
    let _ ← mark .rparen
    return .other :: rest

def subscript (g : Grammar) : Parser Unit := do
  let _ ← if ← nextIs .colon then pure Expr.other else g.expr .inside
  if ← skip false .colon then
    if ← skip false .rbrack then return ()
    else
      let _ ← g.expr .inside
      if ← skip false .colon then
        let _ ← g.expr .inside
        let _ ← mark .rbrack
      else
        let _ ← mark .rbrack
  else
    let _ ← mark .rbrack

def typedOperand (g : Grammar) (elements : Bool) : Parser Operand := do
  let type ← g.type false
  if ← nextIs .lparen then
    if converts (← arguments g) then return .of .other else failure
  else if elements then return .of (.composite (some type) (← literalValue g g.bound))
  else failure

def countedLiteral (g : Grammar) : Parser Operand := do
  let _ ← mark .lbrack
  let _ ← mark .ellipsis
  let _ ← mark .rbrack
  let _ ← g.type false
  return .of (.composite (some .compound) (← literalValue g g.bound))

def parenthesized (g : Grammar) : Parser Operand :=
  (do
    let _ ← mark .lparen
    let _ ← g.expr .inside
    let _ ← mark .rparen
    return .of .other) <|>
  (do
    let _ ← mark .lparen
    let _ ← g.type false
    let _ ← mark .rparen
    if converts (← arguments g) then return .of .other else failure)

def functionLiteral (g : Grammar) : Parser Operand := do
  let _ ← word .func
  let _ ← parameters g
  let _ ← result g false
  return .of (.funcLit (← block g).statements)

def constants : List String := ["nil", "true", "false", "iota"]

def allocators : List String := ["new", "make"]

def operandStart (g : Grammar) (p : Place) : Parser Operand := do
  match ← peek with
  | some (.name n) =>
    let _ ← name
    if n ∈ constants then return .of .other
    else if n ∈ allocators then
      if (← peekHere p.breaks) = some (.mark .lparen) then
        return .of (.call (.ident n) (← typedArguments g))
      else return .of (.ident n)
    else return ⟨.ident n, some (.name n)⟩
  | some .text =>
    let _ ← text
    return .of .other
  | some .value =>
    let _ ← take .value
    return .of .other
  | some (.mark .lparen) => parenthesized g
  | some (.word .func) => functionLiteral g
  | some (.mark .lbrack) => countedLiteral g <|> typedOperand g true
  | some (.word .map) => typedOperand g true
  | some (.word .struct) => typedOperand g true
  | some (.word .interface) => typedOperand g false
  | some (.word .chan) => typedOperand g false
  | _ => failure

def selected (o : Operand) (field : String) : Operand :=
  match o.type with
  | some (.name package) => ⟨.selector o.expr field, some (.qualified package field)⟩
  | _ => .of (.selector o.expr field)

def instantiated (g : Grammar) (p : Place) (o : Operand) : Parser Operand := do
  match ← peekHere p.breaks with
  | some (.mark .lparen) =>
    let list ← arguments g
    if o.type.isSome && converts list then return .of .other
    else return .of (.call o.expr (list.map argumentExpr))
  | some (.mark .lbrace) =>
    match o.type, p.literals with
    | some type, true =>
      return .of (.composite (some (.generic type)) (← literalValue g g.bound))
    | _, _ => return .of .other
  | _ => return .of .other

def valueNext : Parser Bool := do
  match ← peekSecond with
  | some (.name n) => return n ∈ constants ++ allocators
  | _ => return false

def bracketed (g : Grammar) (p : Place) (o : Operand) : Parser Operand := do
  let types ← if ← valueNext then pure none else optional (typeArguments g)
  if types.isSome then instantiated g p o
  else
    let _ ← mark .lbrack
    subscript g
    return .of .other

def guardNext : Parser Bool := fun ts =>
  match ts with
  | ⟨.mark .dot, _, _, _, _⟩ :: ⟨.mark .lparen, _, _, _, _⟩ :: ⟨.word .type, _, _, _, _⟩ :: _ =>
    some (true, ts)
  | _ => some (false, ts)

def dotted (g : Grammar) (o : Operand) : Parser Operand := do
  let _ ← mark .dot
  if ← skip false .lparen then
    let _ ← g.type false
    let _ ← mark .rparen
    return .of .other
  else return selected o (← name)

def operandRest (g : Grammar) (p : Place) : Nat → Operand → Parser Expr
  | 0, _ => failure
  | n + 1, o => do
    match ← peekHere p.breaks with
    | some (.mark .dot) =>
      if ← guardNext then return o.expr
      else operandRest g p n (← dotted g o)
    | some (.mark .lparen) =>
      let list ← arguments g
      operandRest g p n (.of (.call o.expr (list.map argumentExpr)))
    | some (.mark .lbrack) => operandRest g p n (← bracketed g p o)
    | some (.mark .lbrace) =>
      match o.type, p.literals with
      | some type, true =>
        operandRest g p n (.of (.composite (some type) (← literalValue g g.bound)))
      | _, _ => return o.expr
    | _ => return o.expr

def isPrefixMark : Lexeme → Bool
  | .mark .sign => true
  | .mark .bang => true
  | .mark .star => true
  | .mark .amp => true
  | .mark .arrow => true
  | _ => false

def isJoiningMark : Lexeme → Bool
  | .mark .binary => true
  | .mark .sign => true
  | .mark .star => true
  | .mark .amp => true
  | .mark .pipe => true
  | _ => false

def anyToken : Parser Token
  | [] => none
  | t :: ts => some (t, ts)

def unaryExpr (g : Grammar) (p : Place) : Nat → Parser Expr
  | 0 => failure
  | n + 1 => do
    if (← peek).any isPrefixMark then
      let _ ← anyToken
      return .unary (← unaryExpr g p n)
    else operandRest g p g.bound (← operandStart g p)

def joined (g : Grammar) (p : Place) : Nat → Parser Bool
  | 0 => failure
  | n + 1 => do
    if (← peekHere p.breaks).any isJoiningMark then
      let _ ← anyToken
      let _ ← unaryExpr g p g.bound
      let _ ← joined g p n
      return true
    else return false

def exprStep (g : Grammar) (p : Place) : Parser Expr := do
  let first ← unaryExpr g p g.bound
  if ← joined g p g.bound then return .other else return first

end Uncalled.Source
