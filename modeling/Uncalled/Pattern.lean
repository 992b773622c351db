import Uncalled.Text.Utf8
/-! Patterns for file names. `?` stands for any byte and `*` for any bytes; brackets hold a class of
bytes and braces alternatives; a backslash takes the next character as it is. Two stars with slashes
around them stand for any number of folders. A name has to match as a whole. -/
namespace Uncalled
open Text (Bytes)

inductive Piece
  | literal (bytes : Bytes)
  | anyByte
  | anyRun
  | leading  -- two stars and a slash at the start: nothing, or folders
  | trailing  -- a slash and two stars at the end
  | between  -- two stars between slashes
  -- one byte in or, with `negated`, outside the ranges
  | oneOf (negated : Bool) (ranges : List (UInt8 × UInt8))
  deriving DecidableEq, Repr

inductive Part
  | piece (p : Piece)
  | alternatives (branches : List (List Part))

namespace Pattern

structure Draft where
  done : List (List Part)
  current : List Part

def Draft.add (d : Draft) (p : Part) : Draft := ⟨d.done, p :: d.current⟩

def Draft.branches (d : Draft) : List (List Part) :=
  (d.done.reverse.map List.reverse) ++ [d.current.reverse]

/-- The bytes of a range of characters. What its ends have beyond one byte stands for itself. -/
def charRange (low high : Char) : List (UInt8 × UInt8) :=
  let lows := String.utf8EncodeChar low
  let highs := String.utf8EncodeChar high
  if low = high then lows.map fun b => (b, b)
  else
    (lows.dropLast.map fun b => (b, b)) ++ (lows.getLast?.toList.zip highs) ++
      (highs.tail.map fun b => (b, b))

def classMembers : Bool → Bool → List (Char × Char) → List Char →
    Option (List (Char × Char) × List Char)
  | _, _, _, [] => none
  | first, open_, members, c :: cs =>
    if c = ']' && !first then some (if open_ then ('-', '-') :: members else members, cs)
    else if c = '-' && !first && !open_ then classMembers false true members cs
    else
      -- after a dash this character ends the range that the last member began
      match open_, members with
      | true, (low, _) :: rest =>
        if c < low then none else classMembers false false ((low, c) :: rest) cs
      | _, _ => classMembers false false ((c, c) :: members) cs

def isNegation (c : Char) : Bool := c = '!' || c = '^'

def class? (cs : List Char) : Option (Piece × List Char) := do
  let negated := cs.head?.any isNegation
  let (members, rest) ← classMembers true false [] (if negated then cs.tail else cs)
  return (.oneOf negated (members.reverse.flatMap fun m => charRange m.1 m.2), rest)

def anyRuns (d : Draft) : Draft := (d.add (.piece .anyRun)).add (.piece .anyRun)

def twoStars (nested : Bool) (before : Option Char) (d : Draft) (cs : List Char) :
    Draft × List Char :=
  if d.current.isEmpty then
    match cs with
    | [] => (d.add (.piece .leading), [])
    | c :: rest => if c = '/' then (d.add (.piece .leading), rest) else (anyRuns d, c :: rest)
  else if before ≠ some '/' then (anyRuns d, cs)
  else
    match cs with
    | [] => (replaceLast d .trailing, [])
    | c :: rest =>
      if nested && (c = ',' || c = '\x7d') then (replaceLast d .trailing, c :: rest)
      else if c = '/' then (replaceLast d .between, rest)
      else (anyRuns d, c :: rest)
where
  replaceLast (d : Draft) (p : Piece) : Draft :=
    match d.current with
    | .piece .leading :: _ => d
    | .piece .trailing :: _ => d
    | _ :: rest => ⟨d.done, .piece p :: rest⟩
    | [] => d.add (.piece p)

/-- Reads a pattern: `before` is the character just read, `outer` holds the alternatives around the
present one, and `n` bounds the number of steps. -/
def parts? : Nat → Option Char → Draft → List Draft → List Char → Option (List Part)
  | _, _, d, [], [] => some d.current.reverse
  | _, _, _, _ :: _, [] => none
  | 0, _, _, _, _ :: _ => none
  | n + 1, before, d, outer, c :: cs =>
    if c = '?' then parts? n (some c) (d.add (.piece .anyByte)) outer cs
    else if c = '*' then
      match cs with
      | '*' :: rest =>
        let (d', left) := twoStars (!outer.isEmpty) before d rest
        let last := if left.length < rest.length then '/' else '*'
        parts? n (some last) d' outer left
      | _ => parts? n (some c) (d.add (.piece .anyRun)) outer cs
    else if c = '[' then
      match class? cs with
      | none => none
      | some (p, rest) => parts? n (some ']') (d.add (.piece p)) outer rest
    else if c = '\x7b' then parts? n (some c) ⟨[], []⟩ (d :: outer) cs
    else if c = '\x7d' then
      match outer with
      | [] => none
      | o :: os => parts? n (some c) (o.add (.alternatives d.branches)) os cs
    else if c = ',' && !outer.isEmpty then
      parts? n (some c) ⟨d.current :: d.done, []⟩ outer cs
    else if c = '\\' then
      match cs with
      | [] => none
      | e :: rest =>
        parts? n (some e) (d.add (.piece (.literal (String.utf8EncodeChar e)))) outer rest
    else parts? n (some c) (d.add (.piece (.literal (String.utf8EncodeChar c)))) outer cs

mutual

def isVoid : Part → Bool
  | .piece _ => false
  | .alternatives branches => allVoid branches

def areVoid : List Part → Bool
  | [] => true
  | p :: ps => isVoid p && areVoid ps

def allVoid : List (List Part) → Bool
  | [] => true
  | b :: bs => areVoid b && allVoid bs

end

mutual

def choices : Part → List (List Piece)
  | .piece p => [[p]]
  | .alternatives branches => if allVoid branches then [[]] else branchChoices branches

def sequences : List Part → List (List Piece)
  | [] => [[]]
  | p :: ps => (choices p).flatMap fun head => (sequences ps).map (head ++ ·)

def branchChoices : List (List Part) → List (List Piece)
  | [] => []
  | b :: bs => (if areVoid b then [] else sequences b) ++ branchChoices bs

end

def ends : Bytes → List Bytes
  | [] => [[]]
  | b :: bs => (b :: bs) :: ends bs

def afterSlashes : Bytes → List Bytes
  | [] => []
  | b :: bs => if b = 0x2f then bs :: afterSlashes bs else afterSlashes bs

def inClass (negated : Bool) (ranges : List (UInt8 × UInt8)) (b : UInt8) : Bool :=
  (ranges.any fun r => r.1 ≤ b && b ≤ r.2) != negated

def Piece.rests : Piece → Bytes → List Bytes
  | .literal bytes, text => if bytes.isPrefixOf text then [text.drop bytes.length] else []
  | .anyByte, text => text.tail?.toList
  | .anyRun, text => ends text
  | .leading, text => text :: afterSlashes text
  | .trailing, text =>
    match text with
    | 0x2f :: _ :: rest => ends rest
    | _ => []
  | .between, text =>
    match text with
    | 0x2f :: rest => rest :: afterSlashes rest
    | _ => []
  | .oneOf negated ranges, text =>
    match text with
    | [] => []
    | b :: rest => if inClass negated ranges b then [rest] else []

def matchesPieces : List Piece → Bytes → Bool
  | [], text => text.isEmpty
  | p :: ps, text => (Piece.rests p text).any (matchesPieces ps)

end Pattern

structure Pattern where
  readings : List (List Piece)
  deriving DecidableEq, Repr

namespace Pattern

def ofString? (s : String) : Option Pattern := do
  let parts ← parts? s.toList.length none ⟨[], []⟩ [] s.toList
  match parts with
  | [.piece .leading] => return ⟨[[.anyRun]]⟩
  | _ => return ⟨Pattern.sequences parts⟩

def matchesName (p : Pattern) (name : String) : Bool :=
  p.readings.any fun pieces => matchesPieces pieces (Text.encode name)

end Pattern
end Uncalled
