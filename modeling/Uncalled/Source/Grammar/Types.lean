import Uncalled.Source.Grammar.Basic
/-! Types, parameter lists and what they are made of. Members of structs and interfaces are read and
dropped. -/
namespace Uncalled.Source

def union (g : Grammar) : Nat → Parser Unit
  | 0 => failure
  | n + 1 => do
    let _ ← g.type false
    if ← skip false .pipe then union g n else return ()

def typeArguments (g : Grammar) : Parser Unit := do
  let _ ← mark .lbrack
  let _ ← commaList (union g g.bound) false (some .rbrack) g.bound
  let _ ← mark .rbrack

def typeParameters (g : Grammar) : Parser Unit := do
  let _ ← mark .lbrack
  let _ ← commaList (do let _ ← commaList name false none g.bound; union g g.bound) false
    (some .rbrack) g.bound
  let _ ← mark .rbrack

def namedType (g : Grammar) (breaks : Bool) : Parser TypeExpr := do
  let first ← name
  let base ←
    if ← skip breaks .dot then pure (TypeExpr.qualified first (← name))
    else pure (TypeExpr.name first)
  if (← peekHere breaks) = some (.mark .lbrack) then
    (do typeArguments g; return .generic base) <|> pure base
  else return base

def nameOrWord : Parser String
  | ⟨.name n, _, _, _, _⟩ :: ts => some (n, ts)
  | ⟨.word k, _, _, _, _⟩ :: ts => some (k.spelling, ts)
  | _ => none

/-- The names of parameters that share a type. From the second on a keyword counts as a name too, so
`T, chan int` is two names and a type. -/
def sharedNames (g : Grammar) : Parser (List String) := do
  let first ← name
  if ← skip false .comma then return first :: (← commaList nameOrWord false none g.bound)
  else return [first]

def parameter (g : Grammar) : Parser Parameter :=
  (do
    let names ← sharedNames g
    let type ← g.type false
    let next ← peek
    if next = some (.mark .comma) ∨ next = some (.mark .rparen) then return .plain names type
    else failure) <|>
  (do
    let _ ← optional name
    let _ ← mark .ellipsis
    return .variadic (← g.type false)) <|>
  (do return .plain [] (← g.type false))

def parameters (g : Grammar) : Parser (List Parameter) := do
  let _ ← mark .lparen
  if ← skip false .rparen then return []
  else
    let list ← commaList (parameter g) false (some .rparen) g.bound
    let _ ← mark .rparen
    return list

def result (g : Grammar) (breaks : Bool) : Parser (Option Result) := do
  match ← peekHere breaks with
  | none => return none
  | some (.mark .lparen) => return some (.list (← parameters g))
  | some _ => optional (do return .single (← g.type breaks))

def field (g : Grammar) : Parser Unit :=
  (do
    let _ ← commaList name true none g.bound
    if (← peekHere true).isSome then
      let _ ← g.type true
      let _ ← optional text
      fieldEnd
    else failure) <|>
  (do
    let _ ← skip false .star
    let _ ← namedType g true
    let _ ← optional text
    fieldEnd)
where
  fieldEnd : Parser Unit := fun ts =>
    match terminator ts with
    | some _ => some ((), ts)
    | none => if ts.head?.map Token.kind = some (.mark .rbrace) then some ((), ts) else none

def interfaceElement (g : Grammar) : Parser Unit := do
  if (← peekSecond) = some (.mark .lparen) then
    (do
      let _ ← name
      let _ ← parameters g
      let _ ← result g true) <|> union g g.bound
  else union g g.bound

def arrayLength (g : Grammar) : Parser Unit := do
  if ← skip false .rbrack then return ()
  else
    let _ ← g.expr .inside
    let _ ← mark .rbrack

def typeStep (g : Grammar) (breaks : Bool) : Parser TypeExpr := do
  match ← peek with
  | some (.name _) => namedType g breaks
  | some (.mark .star) =>
    let _ ← mark .star
    let hidden ← commentNext
    return .pointer hidden (← g.type breaks)
  | some (.mark .lparen) =>
    let _ ← mark .lparen
    let _ ← g.type false
    let _ ← mark .rparen
    return .compound
  | some (.mark .lbrack) =>
    let _ ← mark .lbrack
    arrayLength g
    let _ ← g.type breaks
    return .compound
  | some (.mark .tilde) =>
    let _ ← mark .tilde
    let _ ← g.type breaks
    return .compound
  | some (.mark .arrow) =>
    let _ ← mark .arrow
    let _ ← word .chan
    let _ ← g.type breaks
    return .compound
  | some (.word .chan) =>
    let _ ← word .chan
    let _ ← skip false .arrow
    let _ ← g.type breaks
    return .compound
  | some (.word .map) =>
    let _ ← word .map
    let _ ← mark .lbrack
    let _ ← g.type false
    let _ ← mark .rbrack
    let _ ← g.type breaks
    return .compound
  | some (.word .struct) =>
    let _ ← word .struct
    let _ ← mark .lbrace
    let _ ← lineList (field g) .rbrace g.bound
    return .compound
  | some (.word .interface) =>
    let _ ← word .interface
    let _ ← mark .lbrace
    let _ ← lineList (interfaceElement g) .rbrace g.bound
    return .compound
  | some (.word .func) =>
    let _ ← word .func
    let _ ← parameters g
    let _ ← result g breaks
    return .compound
  | _ => failure

end Uncalled.Source
