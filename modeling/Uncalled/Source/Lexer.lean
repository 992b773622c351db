import Uncalled.Source.Token
import Uncalled.Text.Identifier
import Uncalled.Text.Utf8
/-! From the bytes of a source to its tokens. Each step looks at the head of the remaining bytes and
says how many of them it takes; blanks and comments only leave their trace in the token after
them. Bytes that begin no token make the whole source unreadable. -/
namespace Uncalled.Source
open Text (Bytes Head head startsName continuesName)

def byte (c : Char) : UInt8 := c.val.toUInt8

def isBlank (b : UInt8) : Bool := b = 0x20 || (0x09 ≤ b && b ≤ 0x0d)

def blockComment : Bytes → Option Nat
  | [] => none
  | [_] => none
  | a :: b :: rest =>
    if a = byte '*' ∧ b = byte '/' then some 2 else (blockComment (b :: rest)).map (· + 1)

def comment? : Bytes → Option Nat
  | a :: b :: rest =>
    if a ≠ byte '/' then none
    else if b = byte '/' then some (2 + (rest.takeWhile (· ≠ byte '\n')).length)
    else if b = byte '*' then (blockComment rest).map (2 + ·)
    else none
  | _ => none

def isDigit (b : UInt8) : Bool := byte '0' ≤ b && b ≤ byte '9'
def isOctal (b : UInt8) : Bool := byte '0' ≤ b && b ≤ byte '7'
def isBinary (b : UInt8) : Bool := b = byte '0' || b = byte '1'
def isHex (b : UInt8) : Bool :=
  isDigit b || (byte 'a' ≤ b && b ≤ byte 'f') || (byte 'A' ≤ b && b ≤ byte 'F')

def moreDigits (ok : UInt8 → Bool) : Bytes → Nat
  | [] => 0
  | [b] => if ok b then 1 else 0
  | b :: c :: rest =>
    if ok b then 1 + moreDigits ok (c :: rest)
    else if b = byte '_' ∧ ok c then 2 + moreDigits ok rest
    else 0

def digits (ok : UInt8 → Bool) : Bytes → Nat
  | [] => 0
  | b :: rest => if ok b then 1 + moreDigits ok rest else 0

def startsWith (cs : List Char) (bs : Bytes) : Bool := (cs.map byte).isPrefixOf bs

def radix (ok : UInt8 → Bool) (skip : Nat) (bs : Bytes) : List Nat :=
  let body := bs.drop skip
  let gap := if startsWith ['_'] body then 1 else 0
  match digits ok (body.drop gap) with
  | 0 => []
  | n => [skip + gap + n]

def exponent (low high : Char) (start : Nat) (bs : Bytes) : List Nat :=
  match bs.drop start with
  | [] => []
  | b :: rest =>
    if b = byte low ∨ b = byte high then
      let sign := if startsWith ['+'] rest || startsWith ['-'] rest then 1 else 0
      match digits isDigit (rest.drop sign) with
      | 0 => []
      | n => [start + 1 + sign + n]
    else []

def fraction (ok : UInt8 → Bool) (start : Nat) (bs : Bytes) : List Nat :=
  if startsWith ['.'] (bs.drop start) then [start + 1 + digits ok (bs.drop (start + 1))] else []

def decimalFloats (bs : Bytes) : List Nat :=
  match digits isDigit bs with
  | 0 =>
    if digits isDigit (bs.drop 1) = 0 then []
    else (fraction isDigit 0 bs).flatMap fun n => n :: exponent 'e' 'E' n bs
  | n => exponent 'e' 'E' n bs ++ (fraction isDigit n bs).flatMap fun k => k :: exponent 'e' 'E' k bs

def hexFloats (bs : Bytes) : List Nat :=
  let whole := radix isHex 2 bs
  let mantissas := whole ++ whole.flatMap (fraction isHex · bs) ++
    (if digits isHex (bs.drop 3) = 0 then [] else fraction isHex 2 bs)
  mantissas.flatMap (exponent 'p' 'P' · bs)

def numbers (bs : Bytes) : List Nat :=
  let plain := digits isDigit bs
  let ints :=
    if startsWith ['0'] bs then
      1 :: radix isOctal 1 bs ++
        (if startsWith ['0', 'x'] bs || startsWith ['0', 'X'] bs then
          radix isHex 2 bs ++ hexFloats bs else []) ++
        (if startsWith ['0', 'b'] bs || startsWith ['0', 'B'] bs then radix isBinary 2 bs else []) ++
        (if startsWith ['0', 'o'] bs || startsWith ['0', 'O'] bs then radix isOctal 2 bs else [])
    else if plain = 0 then [] else [plain]
  let reals := ints ++ decimalFloats bs
  let imaginary := (plain :: reals).filter fun n => 0 < n && startsWith ['i'] (bs.drop n)
  reals ++ imaginary.map (· + 1)

def number? (bs : Bytes) : Option Nat :=
  match (numbers bs).foldl max 0 with
  | 0 => none
  | n => some n

def hexRun (n : Nat) (bs : Bytes) : Bool := (bs.take n).length = n && (bs.take n).all isHex

def stringEscape (e : UInt8) (rest : Bytes) : Bool :=
  if e = byte 'x' then hexRun 2 rest
  else if e = byte 'u' then hexRun 4 rest
  else if e = byte 'U' then hexRun 8 rest
  else true

def stringTail : Bytes → Option Nat
  | [] => none
  | [b] => if b = byte '"' then some 1 else none
  | b :: c :: rest =>
    if b = byte '"' then some 1
    else if b = byte '\n' then none
    else if b = byte '\\' then
      if stringEscape c rest then (stringTail rest).map (· + 2) else none
    else (stringTail (c :: rest)).map (· + 1)

def rawTail (bs : Bytes) : Option Nat :=
  let inside := (bs.takeWhile (· ≠ 0x60)).length
  if (bs.drop inside).isEmpty then none else some (inside + 1)

def runeBody : Bytes → Option Nat
  | [] => none
  | b :: rest =>
    if b = 0x27 then none
    else if b = byte '\\' then
      match rest with
      | [] => none
      | e :: more =>
        if e = byte 'x' then if hexRun 2 more then some 4 else none
        else if e = byte 'u' then if hexRun 4 more then some 6 else none
        else if e = byte 'U' then if hexRun 8 more then some 10 else none
        else if isOctal e then
          if (more.take 2).length = 2 ∧ (more.take 2).all isOctal then some 4 else none
        else if ("abfnrtv\\\"".toList.map byte).contains e || e = 0x27 then some 2
        else none
    else some (1 + (head b rest).more)

def runeTail (bs : Bytes) : Option Nat := do
  let n ← runeBody bs
  if (bs.drop n).head? = some 0x27 then some (n + 1) else none

def nameRun : Nat → Bytes → List Char × Nat
  | 0, _ => ([], 0)
  | _ + 1, [] => ([], 0)
  | n + 1, b :: bs =>
    match head b bs with
    | .broken _ => ([], 0)
    | .char c more =>
      if continuesName c then
        let tail := nameRun n (bs.drop more)
        (c :: tail.1, more + 1 + tail.2)
      else ([], 0)

def nameLexeme (text : String) : Lexeme :=
  match keyword? text with
  | some k => .word k
  | none => .name text

def name? (n : Nat) (b : UInt8) (bs : Bytes) : Option (Lexeme × Nat) :=
  match head b bs with
  | .broken _ => none
  | .char c _ =>
    if startsName c then
      let run := nameRun n (b :: bs)
      some (nameLexeme (String.ofList run.1), run.2)
    else none

def mark? (bs : Bytes) : Option (Lexeme × Nat) :=
  (marks.find? fun m => startsWith m.1 bs).map fun m => (.mark m.2, m.1.length)

def lexeme? (n : Nat) (b : UInt8) (bs : Bytes) : Option (Lexeme × Nat) :=
  if b = byte '"' then (stringTail bs).map fun w => (.text, w + 1)
  else if b = 0x60 then (rawTail bs).map fun w => (.text, w + 1)
  else if b = 0x27 then (runeTail bs).map fun w => (.value, w + 1)
  else
    match name? n b bs with
    | some found => some found
    | none =>
      match number? (b :: bs) with
      | some w => some (.value, w)
      | none => mark? (b :: bs)

/-- The tokens of the remaining bytes, which begin at `p`; `n` bounds the number of steps. -/
def tokensFrom : Nat → Point → Bool → Bool → Bytes → Option (List Token)
  | _, _, _, _, [] => some []
  | 0, _, _, _, _ :: _ => none
  | n + 1, p, newline, comment, b :: bs =>
    if isBlank b then tokensFrom n (p.next b) (newline || b = byte '\n') comment bs
    else
      match comment? (b :: bs) with
      | some w => tokensFrom n (p.after ((b :: bs).take w)) newline true ((b :: bs).drop w)
      | none =>
        match lexeme? (n + 1) b bs with
        | none => none
        | some (kind, w) =>
          (tokensFrom n (p.after ((b :: bs).take w)) false false ((b :: bs).drop w)).map
            (⟨kind, p, p.after ((b :: bs).take w), newline, comment⟩ :: ·)

/-- A byte-order mark at the start of a source is no token, but its bytes count as columns. -/
def markWidth (src : Bytes) : Nat :=
  if [0xef, 0xbb, 0xbf].isPrefixOf src then 3 else 0

def tokens? (src : Bytes) : Option (List Token) :=
  let mark := markWidth src
  tokensFrom src.length (Point.origin.after (src.take mark)) false false (src.drop mark)

end Uncalled.Source
