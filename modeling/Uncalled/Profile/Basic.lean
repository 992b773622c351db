import Uncalled.FileTree
import Uncalled.Text.Quoted
/-! Coverage profiles: for each file of a package the blocks of its statements and how often each of
them ran. -/
namespace Uncalled

inductive Mode
  | set | count | atomic
  deriving DecidableEq, Repr

namespace Mode

def word : Mode → String
  | .set => "set"
  | .count => "count"
  | .atomic => "atomic"

def ofWord? (s : String) : Option Mode :=
  if s = "set" then some .set
  else if s = "count" then some .count
  else if s = "atomic" then some .atomic
  else none

end Mode

structure Span where
  startLine : Nat
  startColumn : Nat
  endLine : Nat
  endColumn : Nat
  deriving DecidableEq, Repr

def Span.upTo (a b : Span) : Bool :=
  a.startLine < b.startLine ||
    (a.startLine = b.startLine && (a.startColumn < b.startColumn ||
      (a.startColumn = b.startColumn && (a.endLine < b.endLine ||
        (a.endLine = b.endLine && a.endColumn ≤ b.endColumn)))))

structure Block where
  span : Span
  statements : Nat
  count : Nat
  deriving DecidableEq, Repr

structure Profile where
  file : String
  mode : Mode
  blocks : List Block
  deriving DecidableEq, Repr

def numberLimit : Nat := Nat.pow 2 64

inductive ProfileError
  | unreadable (path : String) (cause : FileError)
  | malformed (line : Nat) (text : String)
  | missingMode
  | empty
  | inconsistent (file : String) (line : Nat)  -- one span with two numbers of statements
  | sourceNotFound (name : String) (dir : String)
  | overflow  -- a sum that reaches the limit
  deriving DecidableEq, Repr

def ProfileError.message : ProfileError → String
  | .unreadable path cause => "reading " ++ path ++ ": " ++ cause.message
  | .malformed line text =>
    "line " ++ Nat.repr line ++ ": malformed profile block " ++ Text.quoted text
  | .missingMode => "bad or missing mode line"
  | .empty => "profile is empty"
  | .inconsistent file line =>
    file ++ ": inconsistent statement count for block at line " ++ Nat.repr line
  | .sourceNotFound name dir => "can't find source for " ++ name ++ " in " ++ dir
  | .overflow => "attempt to add with overflow"

def checkedAdd (a b : Nat) : Except ProfileError Nat :=
  if a + b < numberLimit then .ok (a + b) else .error .overflow

namespace Profile

def statementsIn (blocks : List Block) : Except ProfileError Nat :=
  blocks.foldlM (fun total b => checkedAdd total b.statements) 0

def percent (p : Profile) : Except ProfileError Float := do
  let total ← statementsIn p.blocks
  let covered ← statementsIn (p.blocks.filter fun b => 0 < b.count)
  if total = 0 then return 0
  else return covered.toUInt64.toFloat / total.toUInt64.toFloat * 100

end Profile
end Uncalled
