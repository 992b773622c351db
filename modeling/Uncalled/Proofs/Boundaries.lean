import Mathlib.Data.List.TakeWhile
import Uncalled.Overlay
import Uncalled.Proofs.Lists
/-! Boundaries laid over a source. The boundaries of a profile lie within the source and come in the
order of their offsets, so none of them is kept back: each stands right before the byte at its
offset, and the bytes between them are those of the source. -/
namespace Uncalled
open Text (Bytes)

namespace Profile

theorem boundariesAtOffset {highest : Nat} {p : Place} {bs : List Block} :
    ∀ b ∈ (boundariesAt highest p bs).1, b.offset = p.offset := by
  intro b inside
  induction bs with
  | nil => cases inside
  | cons block bs ih =>
    have started : ∀ b ∈ (if p.starts block.span then [startBoundary highest p.offset block]
        else []), b.offset = p.offset := by
      intro b inside
      split at inside
      · rw [List.mem_singleton.mp inside]
        rfl
      · cases inside
    unfold boundariesAt at inside
    dsimp only at inside
    split at inside
    · rcases List.mem_append.mp inside with first | rest
      · exact started b first
      · rcases List.mem_cons.mp rest with rfl | later
        · rfl
        · exact ih later
    · exact started b inside

@[simp] theorem nextOffset (p : Place) (byte : UInt8) : (p.next byte).offset = p.offset + 1 := by
  unfold Place.next
  split <;> rfl

theorem sweepWithin {highest : Nat} {p : Place} {src : Bytes} {blocks : List Block} :
    ∀ b ∈ sweep highest p src blocks, p.offset ≤ b.offset ∧ b.offset < p.offset + src.length := by
  intro b inside
  induction src generalizing p blocks with
  | nil => cases inside
  | cons byte src ih =>
    rw [sweep, List.mem_append] at inside
    rw [List.length_cons]
    rcases inside with here | later
    · have offset := boundariesAtOffset b here
      omega
    · have within := ih later
      rw [nextOffset] at within
      omega

theorem sweepSorted (highest : Nat) (p : Place) (src : Bytes) (blocks : List Block) :
    (sweep highest p src blocks).Pairwise fun a b => a.offset ≤ b.offset := by
  induction src generalizing p blocks with
  | nil => exact .nil
  | cons byte src ih =>
    rw [sweep, List.pairwise_append]
    refine ⟨?_, ih .., ?_⟩
    · refine List.pairwise_of_forall_mem_list fun a left b right => ?_
      rw [boundariesAtOffset a left, boundariesAtOffset b right]
    · intro a left b right
      have here := boundariesAtOffset a left
      have later := (sweepWithin b right).1
      rw [nextOffset] at later
      omega

/- The boundaries are found in the order of their offsets, and sorting leaves them there. -/
theorem boundariesSwept (p : Profile) (src : Bytes) :
    p.boundaries src = sweep p.maxCount .first src p.blocks :=
  List.mergeSort_of_pairwise (by simpa using sweepSorted ..)

theorem boundariesSorted (p : Profile) (src : Bytes) :
    (p.boundaries src).Pairwise fun a b => a.offset ≤ b.offset := by
  rw [boundariesSwept]
  exact sweepSorted ..

theorem boundariesWithin (p : Profile) (src : Bytes) :
    ∀ b ∈ p.boundaries src, b.offset < src.length := by
  intro b inside
  rw [boundariesSwept] at inside
  have within := sweepWithin b inside
  have start : Place.first.offset = 0 := rfl
  omega

end Profile

namespace Overlay

structure Ahead (i : Nat) (bs : List Boundary) : Prop where
  sorted : bs.Pairwise fun a b => a.offset ≤ b.offset
  least : ∀ b ∈ bs, i ≤ b.offset

theorem aheadSplit {i : Nat} {bs : List Boundary} (ahead : Ahead i bs) :
    (bs.takeWhile fun b => b.offset = i) = (bs.filter fun b => b.offset = i) ∧
      (bs.dropWhile fun b => b.offset = i) = bs.filter fun b => b.offset ≠ i := by
  induction bs with
  | nil => exact ⟨rfl, rfl⟩
  | cons b bs ih =>
    obtain ⟨first, rest⟩ := List.pairwise_cons.mp ahead.sorted
    obtain ⟨least, others⟩ := List.forall_mem_cons.mp ahead.least
    by_cases here : b.offset = i
    · simpa [here] using ih ⟨rest, others⟩
    · have beyond : ∀ c ∈ bs, c.offset ≠ i := by
        intro c inside
        have after := first c inside
        omega
      simpa [here] using ⟨beyond, (List.filter_eq_self.mpr (by simpa using beyond)).symm⟩

theorem aheadRest {i : Nat} {bs : List Boundary} (ahead : Ahead i bs) :
    Ahead (i + 1) (bs.filter fun b => b.offset ≠ i) := by
  refine ⟨ahead.sorted.filter _, ?_⟩
  intro b inside
  obtain ⟨among, beyond⟩ := List.mem_filter.mp inside
  have least := ahead.least b among
  rw [decide_eq_true_eq] at beyond
  omega

/- Byte after byte of a source that begins at offset `i`, and before each the boundaries at its
offset. -/
def laid (i : Nat) (src : Bytes) (bs : List Boundary) : List Piece :=
  (src.zipIdx i).flatMap fun place =>
    (bs.filter fun b => b.offset = place.2).map .tag ++ [.byte place.1]

theorem laidBeyond {i j : Nat} (less : i < j) (src : Bytes) (bs : List Boundary) :
    laid j src (bs.filter fun b => b.offset ≠ i) = laid j src bs := by
  unfold laid
  refine List.flatMap_congr fun place inside => ?_
  have after := List.le_snd_of_mem_zipIdx inside
  have same : ((bs.filter fun b => b.offset ≠ i).filter fun b => b.offset = place.2) =
      bs.filter fun b => b.offset = place.2 := by
    rw [List.filter_filter]
    refine List.filter_congr fun b _ => ?_
    by_cases here : b.offset = place.2
    · have other : place.2 ≠ i := by omega
      simp [here, other]
    · simp [here]
  rw [same]

theorem piecesLaid {i : Nat} {bs : List Boundary} (ahead : Ahead i bs) (src : Bytes) :
    pieces i src bs = laid i src bs := by
  induction src generalizing i bs with
  | nil => rfl
  | cons byte src ih =>
    obtain ⟨taken, dropped⟩ := aheadSplit ahead
    rw [pieces, taken, dropped, ih (aheadRest ahead), laidBeyond (Nat.lt_succ_self i)]
    simp [laid, List.zipIdx_cons]

def Piece.tag? : Piece → Option Boundary
  | .byte _ => none
  | .tag b => some b

theorem piecesTags {i : Nat} {src : Bytes} {bs : List Boundary} (ahead : Ahead i bs)
    (within : ∀ b ∈ bs, b.offset < i + src.length) :
    (pieces i src bs).filterMap Piece.tag? = bs := by
  induction src generalizing i bs with
  | nil =>
    cases bs with
    | nil => rfl
    | cons b bs =>
      have least := ahead.least b List.mem_cons_self
      have before := within b List.mem_cons_self
      simp at before
      omega
  | cons byte src ih =>
    obtain ⟨_, dropped⟩ := aheadSplit ahead
    have rest := ih (aheadRest ahead) fun b inside => by
      have before := within b (List.mem_filter.mp inside).1
      rw [List.length_cons] at before
      omega
    have tags (taken : List Boundary) : (taken.map Piece.tag).filterMap Piece.tag? = taken := by
      simp [List.filterMap_map, Function.comp_def, Piece.tag?]
    rw [pieces, List.filterMap_append, tags, List.filterMap_cons, dropped, rest, ← dropped]
    exact List.takeWhile_append_dropWhile

theorem boundariesAhead (p : Profile) (src : Bytes) : Ahead 0 (p.boundaries src) :=
  ⟨p.boundariesSorted src, fun _ _ => Nat.zero_le _⟩

theorem boundaryTags (p : Profile) (src : Bytes) :
    (pieces 0 src (p.boundaries src)).filterMap Piece.tag? = p.boundaries src :=
  piecesTags (boundariesAhead p src) (by simpa using p.boundariesWithin src)

end Overlay
end Uncalled
