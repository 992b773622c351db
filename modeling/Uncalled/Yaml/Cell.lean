/-! Text of a YAML document, each character with the place where it stands. A mark after the last
character stands for the end. -/
namespace Uncalled.Yaml

def isBreak (c : Char) : Bool := c = '\n' || c = '\u2028' || c = '\u2029'

def isBlank (c : Char) : Bool := c = ' ' || c = '\t'

def endMark : Char := '\x00'

def isBreakOrEnd (c : Char) : Bool := isBreak c || c = endMark

def isSpacing (c : Char) : Bool := isBlank c || isBreakOrEnd c

def isAllowed (c : Char) : Bool :=
  let n := c.toNat
  n = 0x09 || n = 0x0a || n = 0x0d || (0x20 ≤ n && n ≤ 0x7e) || n = 0x85 ||
    (0xa0 ≤ n && n ≤ 0xfffd) || 0x10000 ≤ n

def unifyBreaks : List Char → List Char
  | [] => []
  | '\r' :: '\n' :: cs => '\n' :: unifyBreaks cs
  | c :: cs => (if c = '\r' ∨ c = '\u0085' then '\n' else c) :: unifyBreaks cs

structure Cell where
  char : Char
  line : Nat
  column : Nat
  index : Nat
  deriving DecidableEq, Repr

def cellsFrom (line column index : Nat) : List Char → List Cell
  | [] => [⟨endMark, line, column, index⟩]
  | c :: cs =>
    ⟨c, line, column, index⟩ ::
      if isBreak c then cellsFrom (line + 1) 0 (index + 1) cs
      else cellsFrom line (column + 1) (index + 1) cs

def byteOrderMark : Char := '\ufeff'

def cells? (text : String) : Option (List Cell) :=
  let cs :=
    match text.toList with
    | [] => []
    | c :: cs => if c = byteOrderMark then cs else c :: cs
  if cs.all isAllowed then some (cellsFrom 0 0 0 (unifyBreaks cs)) else none

def here : List Cell → Cell
  | [] => ⟨endMark, 0, 0, 0⟩
  | c :: _ => c

def peek (cs : List Cell) : Char := (here cs).char

def column (cs : List Cell) : Nat := (here cs).column

def chars (cs : List Cell) : List Char := cs.map Cell.char

def isIndicatorLine (mark : Char) (cs : List Cell) : Bool :=
  column cs = 0 && chars (cs.take 3) = [mark, mark, mark] && isSpacing (peek (cs.drop 3))

def isDocumentEdge (cs : List Cell) : Bool := isIndicatorLine '-' cs || isIndicatorLine '.' cs

def spanChars (p : Char → Bool) (cs : List Cell) : List Char × List Cell :=
  (chars (cs.takeWhile fun c => p c.char), cs.dropWhile fun c => p c.char)

def skipWhile (p : Char → Bool) (cs : List Cell) : List Cell := cs.dropWhile fun c => p c.char

def lineEnd? (cs : List Cell) : Option (List Cell) :=
  let cs := skipWhile isBlank cs
  let cs := if peek cs = '#' then skipWhile (fun c => !isBreakOrEnd c) cs else cs
  if isBreak (peek cs) then some (cs.drop 1)
  else if peek cs = endMark then some cs
  else none

end Uncalled.Yaml
