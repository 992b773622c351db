import Uncalled.Yaml.Scalar
/-! The tokens of a YAML document. Indentation becomes tokens that open and close blocks. A text is
known to be a key only once its colon comes, so the token that announces a key is put before the
text then. -/
namespace Uncalled.Yaml

inductive Token
  | version (major minor : Nat)
  | handle (name meaning : String)
  | documentStart
  | documentEnd
  | blockSequence
  | blockMapping
  | blockEnd
  | flowSequence
  | flowSequenceEnd
  | flowMapping
  | flowMappingEnd
  | entry
  | comma
  | key
  | value
  | reference (name : String)
  | anchor (name : String)
  | tag (handle rest : String)
  | scalar (style : Style) (text : String)
  deriving DecidableEq, Repr

def isWord (c : Char) : Bool := c.isAlphanum || c = '_' || c = '-'

def isUri (c : Char) : Bool := isWord c || ";/?:@&=+$.%!~*'()".toList.contains c

def isVerbatimUri (c : Char) : Bool := isUri c || c = ',' || c = '[' || c = ']'

def unescapeUri : List Char → Option (List Char)
  | [] => some []
  | '%' :: a :: b :: cs => do
    let c := Char.ofNat ((← hexDigit? a) * 16 + (← hexDigit? b))
    return c :: (← unescapeUri cs)
  | c :: cs => if c = '%' then none else do return c :: (← unescapeUri cs)

def anchorName? (cs : List Cell) : Option (String × List Cell) :=
  let (name, rest) := spanChars isWord cs
  if name.isEmpty ∨ !(isSpacing (peek rest) ||
      "?:,]\x7d%@\x60".toList.contains (peek rest)) then none
  else some (String.ofList name, rest)

def tagParts? (cs : List Cell) : Option (String × String × List Cell) :=
  if peek cs = '<' then do
    let (uri, rest) := spanChars isVerbatimUri (cs.drop 1)
    if uri.isEmpty ∨ peek rest ≠ '>' then none
    else return ("", String.ofList (← unescapeUri uri), rest.drop 1)
  else
    let (word, rest) := spanChars isWord cs
    if peek rest = '!' then do
      let (uri, rest) := spanChars isUri (rest.drop 1)
      if uri.isEmpty then none
      else return ("!" ++ String.ofList word ++ "!", String.ofList (← unescapeUri uri), rest)
    else do
      let (uri, rest) := spanChars isUri cs
      if uri.isEmpty then return ("", "!", rest)
      else return ("!", String.ofList (← unescapeUri uri), rest)

def versionNumber? (cs : List Cell) : Option (Nat × List Cell) :=
  let (digits, rest) := spanChars Char.isDigit cs
  if digits.isEmpty ∨ 9 < digits.length then none
  else some (digits.foldl (fun n c => n * 10 + (c.toNat - '0'.toNat)) 0, rest)

def versionDirective? (cs : List Cell) : Option (Token × List Cell) := do
  let (major, cs) ← versionNumber? (skipWhile isBlank cs)
  if peek cs ≠ '.' then none
  else
    let (minor, cs) ← versionNumber? (cs.drop 1)
    return (.version major minor, cs)

def handleDirective? (cs : List Cell) : Option (Token × List Cell) := do
  let cs := skipWhile isBlank cs
  let (word, rest) := spanChars isWord (cs.drop 1)
  let (name, rest) :=
    if peek rest = '!' then ('!' :: word ++ ['!'], rest.drop 1) else ('!' :: word, rest)
  if peek cs ≠ '!' ∨ (name ≠ ['!'] ∧ name.getLast? ≠ some '!') ∨ !isBlank (peek rest) then none
  else
    let (uri, rest) := spanChars isVerbatimUri (skipWhile isBlank rest)
    if uri.isEmpty ∨ !isSpacing (peek rest) then none
    else return (.handle (String.ofList name) (String.ofList (← unescapeUri uri)), rest)

def directive? (cs : List Cell) : Option (Token × List Cell) := do
  let (name, rest) := spanChars isWord cs
  let (token, rest) ←
    if !isSpacing (peek rest) then none
    else if name = "YAML".toList then versionDirective? rest
    else if name = "TAG".toList then handleDirective? rest
    else none
  return (token, ← lineEnd? rest)

structure Key where
  number : Nat  -- how many tokens stand before it
  cell : Cell
  required : Bool  -- nothing else can begin there
  deriving DecidableEq, Repr

structure Scan where
  cells : List Cell
  tokens : List Token  -- newest first
  indents : List Nat  -- the columns of the blocks that are open, innermost first
  -- a possible key for each open flow collection, innermost first, and one for the block
  keys : List (Option Key)
  keyAllowed : Bool
  deriving DecidableEq, Repr

namespace Scan

def start (cells : List Cell) : Scan := ⟨cells, [], [], [none], true⟩

def inFlow (s : Scan) : Bool := 1 < s.keys.length

def push (t : Token) (s : Scan) : Scan := { s with tokens := t :: s.tokens }

def skip (n : Nat) (s : Scan) : Scan := { s with cells := s.cells.drop n }

def allowKey (b : Bool) (s : Scan) : Scan := { s with keyAllowed := b }

def least (s : Scan) : Nat :=
  match s.indents with
  | [] => 0
  | i :: _ => i + 1

/-- Skips blanks, breaks and comments. Tabs are skipped only where no key may begin; after a break
one may. -/
def skipSpaceFrom (flow comment allowed : Bool) : List Cell → List Cell × Bool
  | [] => ([], allowed)
  | c :: rest =>
    if isBreak c.char then skipSpaceFrom flow false (allowed || !flow) rest
    else if comment && c.char ≠ endMark then skipSpaceFrom flow true allowed rest
    else if c.char = ' ' || (c.char = '\t' && (flow || !allowed)) ||
        (c.char = byteOrderMark && c.index = 0) then skipSpaceFrom flow false allowed rest
    else if c.char = '#' then skipSpaceFrom flow true allowed rest
    else (c :: rest, allowed)

def skipSpace (s : Scan) : Scan :=
  let (cells, allowed) := skipSpaceFrom s.inFlow false s.keyAllowed s.cells
  { s with cells := cells, keyAllowed := allowed }

def forgetKey : Option Key → Option (Option Key)
  | some k => if k.required then none else some none
  | none => some none

def dropStale (s : Scan) : Option Scan := do
  let cell := here s.cells
  let stale (k : Key) := k.cell.line < cell.line || k.cell.index + 1024 < cell.index
  let keys ← s.keys.mapM fun k => if k.any stale then forgetKey k else some k
  return { s with keys := keys }

def removeKey (s : Scan) : Option Scan :=
  match s.keys with
  | [] => some s
  | k :: ks => do return { s with keys := (← forgetKey k) :: ks }

def saveKey (s : Scan) : Option Scan :=
  if s.keyAllowed then do
    let s ← s.removeKey
    let cell := here s.cells
    let required := !s.inFlow && s.indents.head? = some cell.column
    return { s with keys := some ⟨s.tokens.length, cell, required⟩ :: s.keys.drop 1 }
  else some s

def closeWhile (p : Nat → Bool) (s : Scan) : Scan :=
  if s.inFlow then s
  else
    { s with
      tokens := (s.indents.takeWhile p).map (fun _ => .blockEnd) ++ s.tokens
      indents := s.indents.dropWhile p }

def insertAt (number : Nat) (t : Token) (s : Scan) : Scan :=
  { s with tokens := s.tokens.insertIdx (s.tokens.length - number) t }

def openBlock (column number : Nat) (t : Token) (s : Scan) : Scan :=
  if s.inFlow || s.indents.head?.any fun i => column ≤ i then s
  else { s.insertAt number t with indents := column :: s.indents }

def directive (s : Scan) : Option Scan := do
  let s ← (s.closeWhile fun _ => true).removeKey
  let (token, cells) ← directive? (s.cells.drop 1)
  return { (s.allowKey false).push token with cells := cells }

def documentEdge (t : Token) (s : Scan) : Option Scan := do
  let s ← (s.closeWhile fun _ => true).removeKey
  return ((s.allowKey false).skip 3).push t

def openFlow (t : Token) (s : Scan) : Option Scan := do
  let s ← s.saveKey
  return { ((s.allowKey true).skip 1).push t with keys := none :: s.keys }

def closeFlow (t : Token) (s : Scan) : Option Scan := do
  let s ← s.removeKey
  let keys := if s.inFlow then s.keys.drop 1 else s.keys
  return { ((s.allowKey false).skip 1).push t with keys := keys }

def comma (s : Scan) : Option Scan := do
  let s ← s.removeKey
  return ((s.allowKey true).skip 1).push .comma

def blockMark (block mark : Token) (keyAfter : Bool) (s : Scan) : Option Scan := do
  if !s.inFlow && !s.keyAllowed then failure
  let s ← (s.openBlock (column s.cells) s.tokens.length block).removeKey
  return ((s.allowKey keyAfter).skip 1).push mark

def colon (s : Scan) : Option Scan :=
  match s.keys with
  | some k :: ks =>
    let s := (s.insertAt k.number .key).openBlock k.cell.column k.number .blockMapping
    some (({ s with keys := none :: ks, keyAllowed := false }.skip 1).push .value)
  | _ =>
    if !s.inFlow && !s.keyAllowed then none
    else
      let s := s.openBlock (column s.cells) s.tokens.length .blockMapping
      some (((s.allowKey !s.inFlow).skip 1).push .value)

def anchor (make : String → Token) (s : Scan) : Option Scan := do
  let s ← s.saveKey
  let (name, cells) ← anchorName? (s.cells.drop 1)
  return { (s.allowKey false).push (make name) with cells := cells }

def tag (s : Scan) : Option Scan := do
  let s ← s.saveKey
  let (handle, rest, cells) ← tagParts? (s.cells.drop 1)
  if isSpacing (peek cells) || (s.inFlow && peek cells = ',') then
    return { (s.allowKey false).push (.tag handle rest) with cells := cells }
  else none

def block (literal : Bool) (s : Scan) : Option Scan := do
  let s ← s.removeKey
  let (text, cells) ← blockScalar literal s.least (s.cells.drop 1)
  let style := if literal then Style.literal else .folded
  return { (s.allowKey true).push (.scalar style (String.ofList text)) with cells := cells }

def quoted (double : Bool) (s : Scan) : Option Scan := do
  let s ← s.saveKey
  let inner := s.cells.drop 1
  let (text, cells) ← if double then doubleFrom none [] .none inner else singleFrom [] .none inner
  let style := if double then Style.double else .single
  return { (s.allowKey false).push (.scalar style (String.ofList text)) with cells := cells }

def plain (s : Scan) : Option Scan := do
  let s ← s.saveKey
  let (text, broken, cells) ← plainFrom s.inFlow s.least [] .none s.cells
  return { (s.allowKey broken).push (.scalar .plain (String.ofList text)) with cells := cells }

def marks : List Char := "-?:,[]\x7b\x7d#&*!|>'\"%@\x60".toList

def startsPlain (flow : Bool) (c next : Char) : Bool :=
  (!isSpacing c && !marks.contains c) || (c = '-' && !isBlank next) ||
    (!flow && (c = '?' || c = ':') && !isSpacing next)

def fetch (s : Scan) : Option Scan :=
  let c := peek s.cells
  let next := peek (s.cells.drop 1)
  if column s.cells = 0 && c = '%' then s.directive
  else if isIndicatorLine '-' s.cells then s.documentEdge .documentStart
  else if isIndicatorLine '.' s.cells then s.documentEdge .documentEnd
  else if c = '[' then s.openFlow .flowSequence
  else if c = '\x7b' then s.openFlow .flowMapping
  else if c = ']' then s.closeFlow .flowSequenceEnd
  else if c = '\x7d' then s.closeFlow .flowMappingEnd
  else if c = ',' then s.comma
  else if c = '-' && isSpacing next then s.blockMark .blockSequence .entry true
  else if c = '?' && (s.inFlow || isSpacing next) then s.blockMark .blockMapping .key !s.inFlow
  else if c = ':' && (s.inFlow || isSpacing next) then s.colon
  else if c = '*' then s.anchor .reference
  else if c = '&' then s.anchor .anchor
  else if c = '!' then s.tag
  else if c = '|' && !s.inFlow then s.block true
  else if c = '>' && !s.inFlow then s.block false
  else if c = '\'' then s.quoted false
  else if c = '"' then s.quoted true
  else if startsPlain s.inFlow c next then s.plain
  else none

def run : Nat → Scan → Option (List Token)
  | 0, _ => none
  | n + 1, s => do
    let s ← s.skipSpace.dropStale
    let s := s.closeWhile fun i => column s.cells < i
    if peek s.cells = endMark then
      let s ← (s.closeWhile fun _ => true).removeKey
      return s.tokens.reverse
    else run n (← s.fetch)

end Scan

def tokens? (text : String) : Option (List Token) := do
  let cells ← cells? text
  Scan.run (cells.length + 1) (.start cells)

end Uncalled.Yaml
