import Uncalled.Source.Syntax
/-! Reading tokens. A parser takes a prefix of the remaining tokens or fails; `<|>` starts again
from the same tokens. The three parts of the grammar that contain each other are handed around in a
`Grammar`, whose members read what is nested one level deeper. -/
namespace Uncalled.Source

abbrev Parser (α : Type) := StateT (List Token) Option α

/-- Where an expression stands. With `literals`, a brace after a type name opens a literal; with
`breaks`, a line break may end the expression. -/
structure Place where
  literals : Bool
  breaks : Bool
  deriving DecidableEq, Repr

namespace Place

def line : Place := ⟨true, true⟩

def inside : Place := ⟨true, false⟩

def header : Place := ⟨false, false⟩

end Place

/-- Parsers for what is nested. `bound` is at least the number of tokens that are left. -/
structure Grammar where
  bound : Nat
  type : Bool → Parser TypeExpr  -- a type; the flag says that a line break may end it
  expr : Place → Parser Expr
  stmt : Parser Stmt

def peek : Parser (Option Lexeme) := fun ts => some (ts.head?.map Token.kind, ts)

def peekHere (breaks : Bool) : Parser (Option Lexeme)
  | [] => some (none, [])
  | t :: ts => some (if breaks && t.newline then none else some t.kind, t :: ts)

def peekSecond : Parser (Option Lexeme) := fun ts => some (ts.tail.head?.map Token.kind, ts)

def commentNext : Parser Bool := fun ts => some (ts.head?.any Token.comment, ts)

def take (kind : Lexeme) : Parser Token
  | [] => none
  | t :: ts => if t.kind = kind then some (t, ts) else none

def mark (m : Mark) : Parser Token := take (.mark m)

def word (k : Keyword) : Parser Token := take (.word k)

def text : Parser Token := take .text

def name : Parser String
  | ⟨.name n, _, _, _, _⟩ :: ts => some (n, ts)
  | _ => none

def nextIs (m : Mark) : Parser Bool := do
  return (← peek) = some (.mark m)

def skip (breaks : Bool) (m : Mark) : Parser Bool := do
  if (← peekHere breaks) = some (.mark m) then
    let _ ← mark m
    return true
  else return false

def optional (p : Parser α) : Parser (Option α) := (some <$> p) <|> pure none

def terminator : Parser Unit
  | [] => some ((), [])
  | t :: ts =>
    if t.kind = .mark .semicolon then some ((), ts)
    else if t.newline then some ((), t :: ts)
    else none

def commaList (p : Parser α) (breaks : Bool) (close : Option Mark) : Nat → Parser (List α)
  | 0 => failure
  | n + 1 => do
    let first ← p
    if ← skip breaks .comma then
      if close.isSome && (← peek) = close.map Lexeme.mark then return [first]
      else return first :: (← commaList p breaks close n)
    else return [first]

def lineList (p : Parser α) (close : Mark) : Nat → Parser (List α)
  | 0 => failure
  | n + 1 => do
    if ← skip false close then return []
    else
      let first ← p
      if ← skip false close then return [first]
      else
        terminator
        return first :: (← lineList p close n)

def group (p : Parser α) (close : Mark) : Nat → Parser (List α)
  | 0 => failure
  | n + 1 => do
    if ← skip false close then return []
    else
      let first ← p
      terminator
      return first :: (← group p close n)

end Uncalled.Source
