import Uncalled.Profile.Basic
/-! Reading a coverage profile. The first line gives the mode, each other line that is not empty a
block; blocks of one span are merged. -/
namespace Uncalled.Profile

def lines : List Char → List (List Char)
  | [] => []
  | '\n' :: cs => [] :: lines cs
  | '\r' :: '\n' :: cs => [] :: lines cs
  | c :: cs =>
    match lines cs with
    | [] => [[c]]
    | l :: ls => (c :: l) :: ls

def splitLast (c : Char) : List Char → Option (List Char × List Char)
  | [] => none
  | x :: xs =>
    match splitLast c xs with
    | some (before, after) => some (x :: before, after)
    | none => if x = c then some ([], xs) else none

def isDigit (c : Char) : Bool := '0' ≤ c && c ≤ '9'

def digitsValue (cs : List Char) : Nat := cs.foldl (fun n c => n * 10 + (c.toNat - '0'.toNat)) 0

def number? (cs : List Char) : Option (Nat × List Char) :=
  let digits := cs.takeWhile isDigit
  if digits.isEmpty ∨ numberLimit ≤ digitsValue digits then none
  else some (digitsValue digits, cs.dropWhile isDigit)

def numberUntil? (mark : Char) (cs : List Char) : Option (Nat × List Char) := do
  let (n, rest) ← number? cs
  match rest with
  | c :: rest => if c = mark then some (n, rest) else none
  | [] => none

def block? (cs : List Char) : Option Block := do
  let (startLine, cs) ← numberUntil? '.' cs
  let (startColumn, cs) ← numberUntil? ',' cs
  let (endLine, cs) ← numberUntil? '.' cs
  let (endColumn, cs) ← numberUntil? ' ' cs
  let (statements, cs) ← numberUntil? ' ' cs
  match ← number? cs with
  | (count, []) => some ⟨⟨startLine, startColumn, endLine, endColumn⟩, statements, count⟩
  | _ => none

def entry? (line : List Char) : Option (String × Block) := do
  let (name, rest) ← splitLast ':' line
  if name.isEmpty then none
  else return (String.ofList name, ← block? rest)

def entries (n : Nat) : List (List Char) → Except ProfileError (List (String × Block))
  | [] => .ok []
  | line :: rest =>
    if line.isEmpty then entries (n + 1) rest
    else
      match entry? line with
      | none => .error (.malformed n (String.ofList line))
      | some e => do return e :: (← entries (n + 1) rest)

def mode? (line : List Char) : Option Mode :=
  if "mode: ".toList.isPrefixOf line then Mode.ofWord? (String.ofList (line.drop 6)) else none

def addEntry : List (String × List Block) → String × Block → List (String × List Block)
  | [], e => [(e.1, [e.2])]
  | g :: gs, e => if g.1 = e.1 then (g.1, g.2 ++ [e.2]) :: gs else g :: addEntry gs e

def groups (es : List (String × Block)) : List (String × List Block) := es.foldl addEntry []

/-- Two blocks of one span as one. In set mode the greater count stays, else they add up. -/
def mergeTwo (file : String) (mode : Mode) (a b : Block) : Except ProfileError Block :=
  if a.statements ≠ b.statements then .error (.inconsistent file b.span.startLine)
  else if mode = .set then .ok { a with count := max a.count b.count }
  else do return { a with count := ← checkedAdd a.count b.count }

def mergeFrom (file : String) (mode : Mode) (last : Block) :
    List Block → Except ProfileError (List Block)
  | [] => .ok [last]
  | b :: bs =>
    if last.span = b.span then do mergeFrom file mode (← mergeTwo file mode last b) bs
    else do return last :: (← mergeFrom file mode b bs)

def merge (file : String) (mode : Mode) (blocks : List Block) : Except ProfileError (List Block) :=
  match blocks.mergeSort fun a b => a.span.upTo b.span with
  | [] => .ok []
  | b :: bs => mergeFrom file mode b bs

def ofGroup (mode : Mode) (g : String × List Block) : Except ProfileError Profile := do
  return ⟨g.1, mode, ← merge g.1 mode g.2⟩

def parse (text : String) : Except ProfileError (List Profile) :=
  match lines text.toList with
  | [] => .error .empty
  | first :: rest =>
    match mode? first with
    | none => .error .missingMode
    | some mode => do
      let profiles ← (groups (← entries 2 rest)).mapM (ofGroup mode)
      return profiles.mergeSort fun a b => a.file ≤ b.file

end Uncalled.Profile
