import Uncalled.Profile.Boundary
import Uncalled.Report
/-! A source with the blocks of a profile laid over it, as markup. What ran is coloured by how often
it ran; what ran in a function that no test calls has a class of its own. -/
namespace Uncalled
open Text (Bytes)

namespace Overlay

def uncalledClass : String := "blanket-uncovered"

inductive Piece
  | byte (b : UInt8)
  | tag (b : Boundary)

/-- A source from offset `i` on, with its boundaries. A boundary at another offset than the byte it
comes to keeps back all that follow. -/
def pieces (i : Nat) : Bytes → List Boundary → List Piece
  | [], _ => []
  | b :: src, bs =>
    (bs.takeWhile fun x => x.offset = i).map .tag ++
      .byte b :: pieces (i + 1) src (bs.dropWhile fun x => x.offset = i)

def uncalledIn (r : Report) (path : String) : List Declaration :=
  -- files are told apart by their last names, for a profile has other paths than a report
  r.details.entries.filter fun d =>
    !r.called.entries.contains d.name && fileName? d.file = fileName? path

def heat (b : Boundary) : Nat :=
  if b.count = 0 then 0 else (b.norm * 9).toUInt32.toNat + 1

def isUncalled (uncalled : List Declaration) (b : Boundary) : Bool :=
  0 < b.count && uncalled.any fun d => d.bodyContains b.offset

def className (uncalled : List Declaration) (b : Boundary) : String :=
  if isUncalled uncalled b then uncalledClass else "cov" ++ Nat.repr (heat b)

def tagText (uncalled : List Declaration) (b : Boundary) : String :=
  if b.start then
    "<span class=\"" ++ className uncalled b ++ "\" title=\"" ++ Nat.repr b.count ++ "\">"
  else "</span>"

def byteText (b : UInt8) : Bytes :=
  if b = 0x3e then Text.encode "&gt;"
  else if b = 0x3c then Text.encode "&lt;"
  else if b = 0x26 then Text.encode "&amp;"
  else if b = 0x09 then List.replicate 8 0x20
  else [b]

def Piece.text (uncalled : List Declaration) : Piece → Bytes
  | .byte b => byteText b
  | .tag b => Text.encode (tagText uncalled b)

def Piece.overheats (uncalled : List Declaration) : Piece → Bool
  | .byte _ => false
  | .tag b => b.start && !isUncalled uncalled b && Nat.pow 2 32 ≤ heat b

def markup (uncalled : List Declaration) (src : Bytes) (bs : List Boundary) : String :=
  Text.decodeLossy ((pieces 0 src bs).flatMap (Piece.text uncalled))

end Overlay

def annotate (r : Report) (path : String) (src : Bytes) (bs : List Boundary) :
    Except ProfileError String :=
  let uncalled := Overlay.uncalledIn r path
  if (Overlay.pieces 0 src bs).any (Overlay.Piece.overheats uncalled) then .error .overflow
  else .ok (Overlay.markup uncalled src bs)

end Uncalled
