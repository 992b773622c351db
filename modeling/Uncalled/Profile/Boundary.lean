import Uncalled.Profile.Basic
/-! The edges of the blocks of a profile within a source, as byte offsets. -/
namespace Uncalled
open Text (Bytes)

structure Boundary where
  offset : Nat
  start : Bool
  count : Nat
  norm : Float

namespace Profile

def maxCount (p : Profile) : Nat := (p.blocks.map Block.count).foldl max 0

/-- The count of a block against the highest of its file, by their logarithms. Where no count is
above one all that ran stands at 0.8. -/
def norm (highest count : Nat) : Float :=
  if count = 0 then 0
  else if highest ≤ 1 then 0.8
  else count.toUInt64.toFloat.log / highest.toUInt64.toFloat.log

def startBoundary (highest offset : Nat) (b : Block) : Boundary :=
  ⟨offset, true, b.count, norm highest b.count⟩

def endBoundary (offset : Nat) : Boundary := ⟨offset, false, 0, 0⟩

structure Place where
  line : Nat
  column : Nat
  offset : Nat
  deriving DecidableEq, Repr

namespace Place

-- only the first line is counted from two
def first : Place := ⟨1, 2, 0⟩

def next (p : Place) (byte : UInt8) : Place :=
  if byte = 0x0a then ⟨p.line + 1, 1, p.offset + 1⟩ else ⟨p.line, p.column + 1, p.offset + 1⟩

def starts (p : Place) (s : Span) : Bool := s.startLine = p.line && s.startColumn = p.column

def ends (p : Place) (s : Span) : Bool :=
  (s.endLine = p.line && s.endColumn = p.column) || s.endLine < p.line

end Place

/-- The boundaries at a place, and the blocks that have not ended there. Only the first block that
has not ended is looked at. -/
def boundariesAt (highest : Nat) (p : Place) : List Block → List Boundary × List Block
  | [] => ([], [])
  | b :: bs =>
    let starts := if p.starts b.span then [startBoundary highest p.offset b] else []
    if p.ends b.span then
      let (more, rest) := boundariesAt highest p bs
      (starts ++ endBoundary p.offset :: more, rest)
    else (starts, b :: bs)

def sweep (highest : Nat) (p : Place) : Bytes → List Block → List Boundary
  | [], _ => []
  | byte :: src, blocks =>
    let (found, rest) := boundariesAt highest p blocks
    found ++ sweep highest (p.next byte) src rest

def boundaries (p : Profile) (src : Bytes) : List Boundary :=
  (sweep p.maxCount .first src p.blocks).mergeSort fun a b => a.offset ≤ b.offset

end Profile
end Uncalled
