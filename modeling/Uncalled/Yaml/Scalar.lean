import Uncalled.Yaml.Cell
/-! Scalars of a YAML document: plain ones, those in single or double quotes, and blocks. A line
break within a scalar is folded to a blank, more of them to as many less one; only a literal block
keeps its lines. -/
namespace Uncalled.Yaml

inductive Style
  | plain | single | double | literal | folded
  deriving DecidableEq, Repr

inductive Pause
  | blanks (cs : List Char)
  | breaks (first : Char) (more : List Char)
  | escaped (more : List Char)  -- breaks after one that was escaped
  deriving DecidableEq, Repr

namespace Pause

def none : Pause := .blanks []

def onLine : Pause → Bool
  | .blanks _ => true
  | _ => false

def addBlank (c : Char) : Pause → Pause
  | .blanks cs => .blanks (cs ++ [c])
  | p => p

def addBreak (c : Char) : Pause → Pause
  | .blanks _ => .breaks c []
  | .breaks first more => .breaks first (more ++ [c])
  | .escaped more => .escaped (more ++ [c])

def text : Pause → List Char
  | .blanks cs => cs
  | .breaks first more =>
    if first = '\n' then if more.isEmpty then [' '] else more else first :: more
  | .escaped more => more

end Pause

def isFlowMark (c : Char) : Bool := c = ',' || c = '[' || c = ']' || c = '\x7b' || c = '\x7d'

def plainFrom (flow : Bool) (indent : Nat) (text : List Char) (pause : Pause) :
    List Cell → Option (List Char × Bool × List Cell)
  | [] => some (text, !pause.onLine, [])
  | c :: rest =>
    if isBlank c.char then
      if !pause.onLine && c.char = '\t' && c.column < indent then none
      else plainFrom flow indent text (pause.addBlank c.char) rest
    else if isBreak c.char then plainFrom flow indent text (pause.addBreak c.char) rest
    else
      let stop := some (text, !pause.onLine, c :: rest)
      if !flow && pause ≠ .none && c.column < indent then stop
      else if isDocumentEdge (c :: rest) then stop
      else if c.char = '#' && (text.isEmpty || pause ≠ .none) then stop
      else if c.char = endMark then stop
      else if c.char = ':' && flow && (isFlowMark (peek rest) || peek rest = '?') then none
      else if c.char = ':' && isSpacing (peek rest) then stop
      else if flow && isFlowMark c.char then stop
      else plainFrom flow indent (text ++ pause.text ++ [c.char]) .none rest

def hexDigit? (c : Char) : Option Nat :=
  if '0' ≤ c ∧ c ≤ '9' then some (c.toNat - '0'.toNat)
  else if 'a' ≤ c ∧ c ≤ 'f' then some (c.toNat - 'a'.toNat + 10)
  else if 'A' ≤ c ∧ c ≤ 'F' then some (c.toNat - 'A'.toNat + 10)
  else none

def codeLength? (c : Char) : Option Nat :=
  if c = 'x' then some 2 else if c = 'u' then some 4 else if c = 'U' then some 8 else none

def escapes : List (Char × Char) :=
  [('0', '\x00'), ('a', '\x07'), ('b', '\x08'), ('t', '\t'), ('\t', '\t'), ('n', '\n'),
   ('v', '\x0b'), ('f', '\x0c'), ('r', '\r'), ('e', '\x1b'), (' ', ' '), ('"', '"'), ('/', '/'),
   ('\\', '\\'), ('N', '\u0085'), ('_', '\u00a0'), ('L', '\u2028'), ('P', '\u2029')]

def codeChar? (code : Nat) : Option Char :=
  if code < 0xd800 ∨ (0xdfff < code ∧ code ≤ 0x10ffff) then some (Char.ofNat code) else none

structure Code where
  left : Nat
  value : Nat
  deriving DecidableEq, Repr

def singleFrom (text : List Char) (pause : Pause) : List Cell → Option (List Char × List Cell)
  | [] => none
  | c :: rest =>
    if isBlank c.char then singleFrom text (pause.addBlank c.char) rest
    else if isBreak c.char then singleFrom text (pause.addBreak c.char) rest
    else if isDocumentEdge (c :: rest) || c.char = endMark then none
    else if c.char = '\'' then
      match rest with
      | d :: rest' =>
        if d.char = '\'' then singleFrom (text ++ pause.text ++ ['\'']) .none rest'
        else some (text ++ pause.text, rest)
      | [] => none
    else singleFrom (text ++ pause.text ++ [c.char]) .none rest

def doubleFrom (code : Option Code) (text : List Char) (pause : Pause) :
    List Cell → Option (List Char × List Cell)
  | [] => none
  | c :: rest =>
    match code with
    | some k => do
      let value := k.value * 16 + (← hexDigit? c.char)
      if k.left = 1 then doubleFrom none (text ++ [← codeChar? value]) .none rest
      else doubleFrom (some ⟨k.left - 1, value⟩) text .none rest
    | none =>
      if isBlank c.char then doubleFrom none text (pause.addBlank c.char) rest
      else if isBreak c.char then doubleFrom none text (pause.addBreak c.char) rest
      else if isDocumentEdge (c :: rest) || c.char = endMark then none
      else if c.char = '"' then some (text ++ pause.text, rest)
      else if c.char = '\\' then
        match rest with
        | [] => none
        | d :: rest' =>
          if isBreak d.char then doubleFrom none (text ++ pause.text) (.escaped []) rest'
          else
            match escapes.lookup d.char, codeLength? d.char with
            | some e, _ => doubleFrom none (text ++ pause.text ++ [e]) .none rest'
            | none, some n => doubleFrom (some ⟨n, 0⟩) (text ++ pause.text) .none rest'
            | none, none => none
      else doubleFrom none (text ++ pause.text ++ [c.char]) .none rest

inductive Chomp
  | strip | clip | keep
  deriving DecidableEq, Repr

def chomp? (c : Char) : Option Chomp :=
  if c = '+' then some .keep else if c = '-' then some .strip else none

def indentDigit? (c : Char) : Option Nat :=
  if '0' ≤ c ∧ c ≤ '9' then some (c.toNat - '0'.toNat) else none

/-- The chomping and the indentation that a block's first line asks for, in either order. Zero
stands for an indentation that is not given. -/
def blockHeader (cs : List Cell) : Option (Chomp × Nat × List Cell) := do
  let (chomp, cs) := ((chomp? (peek cs)).map fun k => (some k, cs.drop 1)).getD (none, cs)
  let digit := indentDigit? (peek cs)
  if digit = some 0 then failure
  let cs := if digit.isSome then cs.drop 1 else cs
  let (chomp, cs) :=
    match chomp, digit, chomp? (peek cs) with
    | none, some _, some k => (some k, cs.drop 1)
    | _, _, _ => (chomp, cs)
  return (chomp.getD .clip, digit.getD 0, ← lineEnd? cs)

def blockBreaks (indent deepest : Nat) (breaks : List Char) :
    List Cell → Option (Nat × List Char × List Cell)
  | [] => some (deepest, breaks, [])
  | c :: rest =>
    let inside := indent = 0 || c.column < indent
    if c.char = ' ' && inside then blockBreaks indent deepest breaks rest
    else if c.char = '\t' && inside then none
    else if isBreak c.char then
      blockBreaks indent (max deepest c.column) (breaks ++ [c.char]) rest
    else some (max deepest c.column, breaks, c :: rest)

structure BlockState where
  text : List Char
  last : List Char
  empties : List Char
  indented : Bool
  deriving DecidableEq, Repr

def BlockState.join (s : BlockState) (literal blank : Bool) : List Char :=
  if !literal && s.last = ['\n'] && !s.indented && !blank then
    (if s.empties.isEmpty then [' '] else []) ++ s.empties
  else s.last ++ s.empties

def blockLines (literal : Bool) (indent : Nat) :
    Nat → BlockState → List Cell → Option (BlockState × List Cell)
  | 0, s, cs => some (s, cs)
  | n + 1, s, cs =>
    if column cs = indent && peek cs ≠ endMark then do
      let blank := isBlank (peek cs)
      let (line, rest) := spanChars (fun c => !isBreakOrEnd c) cs
      let (last, rest) := if isBreak (peek rest) then ([peek rest], rest.drop 1) else ([], rest)
      let (_, empties, rest) ← blockBreaks indent 0 [] rest
      blockLines literal indent n ⟨s.text ++ s.join literal blank ++ line, last, empties, blank⟩ rest
    else some (s, cs)

def blockScalar (literal : Bool) (least : Nat) (cs : List Cell) :
    Option (List Char × List Cell) := do
  let (chomp, extra, cs) ← blockHeader cs
  let given := if extra = 0 then 0 else least - 1 + extra
  let (deepest, empties, cs) ← blockBreaks given 0 [] cs
  let indent := if given = 0 then max (max deepest least) 1 else given
  let (s, cs) ← blockLines literal indent cs.length ⟨[], [], empties, false⟩ cs
  match chomp with
  | .strip => return (s.text, cs)
  | .clip => return (s.text ++ s.last, cs)
  | .keep => return (s.text ++ s.last ++ s.empties, cs)

end Uncalled.Yaml
