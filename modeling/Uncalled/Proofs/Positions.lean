import Mathlib.Data.List.Chain
import Mathlib.Data.List.Induction
import Mathlib.Data.Prod.Lex
import Uncalled.Declaration
import Uncalled.Proofs.Boundaries
/-! Where the blocks of a profile meet a source. A sweep goes through the lines and columns of a
source in their order, so blocks in the same order are met one after the other: each edge at the one
byte that has its line and column, if there is one. -/
namespace Uncalled
open Text (Bytes)

/-- A line and a column, in the order of reading. -/
abbrev Spot := ℕ ×ₗ ℕ

namespace Span

def opening (s : Span) : Spot := toLex (s.startLine, s.startColumn)

def closing (s : Span) : Spot := toLex (s.endLine, s.endColumn)

end Span

/- The line and the column of a byte, both counted from one. -/
def spotAt (src : Bytes) (offset : Nat) : Spot :=
  let before := src.take offset
  toLex (before.count 0x0a + 1, (before.reverse.takeWhile (· ≠ 0x0a)).length + 1)

namespace Profile

namespace Place

def spot (p : Place) : Spot := toLex (p.line, p.column)

theorem startsIff (p : Place) (s : Span) : p.starts s = true ↔ p.spot = s.opening := by
  rw [starts, Bool.and_eq_true, decide_eq_true_eq, decide_eq_true_eq, spot, Span.opening, toLex_inj,
    Prod.mk.injEq]
  exact and_congr eq_comm eq_comm

theorem endsIff (p : Place) (s : Span) :
    p.ends s = true ↔ p.spot = s.closing ∨ s.endLine < p.line := by
  rw [ends, Bool.or_eq_true, Bool.and_eq_true, decide_eq_true_eq, decide_eq_true_eq,
    decide_eq_true_eq, spot, Span.closing, toLex_inj, Prod.mk.injEq]
  exact or_congr_left (and_congr eq_comm eq_comm)

theorem nextSpot (p : Place) (byte : UInt8) : p.spot < (p.next byte).spot := by
  unfold next spot
  rw [Prod.Lex.toLex_lt_toLex]
  split <;> simp

def after (p : Place) (bs : Bytes) : Place := bs.foldl next p

theorem afterSpot (p : Place) (bs : Bytes) : p.spot ≤ (p.after bs).spot := by
  induction bs generalizing p with
  | nil => exact le_refl _
  | cons byte bs ih => exact (nextSpot p byte).le.trans (ih (p.next byte))

theorem afterCons (p : Place) (byte : UInt8) (bs : Bytes) :
    p.spot < (p.after (byte :: bs)).spot :=
  (nextSpot p byte).trans_le (afterSpot (p.next byte) bs)

end Place

def landing (spot : Spot) (p : Place) : Bytes → Option Nat
  | [] => none
  | byte :: src => if p.spot = spot then some p.offset else landing spot (p.next byte) src

/- A sweep comes upon this line and column, or ends before them: it does not step over them. -/
def Upcoming (spot : Spot) (p : Place) : Bytes → Prop
  | [] => True
  | byte :: src => p.spot = spot ∨ p.spot < spot ∧ Upcoming spot (p.next byte) src

theorem landingHere (p : Place) (byte : UInt8) (src : Bytes) :
    landing p.spot p (byte :: src) = some p.offset := by
  rw [landing, if_pos rfl]

theorem landingLater {spot : Spot} {p : Place} (other : p.spot ≠ spot) (byte : UInt8)
    (src : Bytes) : landing spot p (byte :: src) = landing spot (p.next byte) src := by
  rw [landing, if_neg other]

theorem landingPassed {spot : Spot} {p : Place} (passed : spot < p.spot) (src : Bytes) :
    landing spot p src = none := by
  induction src generalizing p with
  | nil => rfl
  | cons byte src ih =>
    rw [landingLater passed.ne', ih (passed.trans (p.nextSpot byte))]

theorem landingAt (p : Place) {src : Bytes} {n : Nat} (within : n < src.length) :
    landing (p.after (src.take n)).spot p src = some (p.offset + n) := by
  induction src generalizing p n with
  | nil => cases within
  | cons byte src ih =>
    cases n with
    | zero => exact landingHere p byte src
    | succ n =>
      have later := ih (p.next byte) (Nat.lt_of_succ_lt_succ within)
      rw [nextOffset] at later
      rw [List.take_succ_cons, landingLater (p.afterCons byte _).ne]
      exact later.trans (congrArg some (by omega))

theorem landingEnd (p : Place) (src : Bytes) : landing (p.after src).spot p src = none := by
  induction src generalizing p with
  | nil => rfl
  | cons byte src ih =>
    rw [landingLater (p.afterCons byte src).ne]
    exact ih (p.next byte)

theorem upcomingAt (p : Place) (src : Bytes) (n : Nat) :
    Upcoming (p.after (src.take n)).spot p src := by
  induction src generalizing p n with
  | nil => trivial
  | cons byte src ih =>
    cases n with
    | zero => exact .inl rfl
    | succ n => exact .inr ⟨p.afterCons byte _, ih (p.next byte) n⟩

def edges (highest : Nat) (p : Place) (src : Bytes) (b : Block) : List Boundary :=
  ((landing b.span.opening p src).map fun o => startBoundary highest o b).toList ++
    ((landing b.span.closing p src).map endBoundary).toList

/- Blocks in the order of their edges, none of which a sweep from here steps over. -/
structure Ordered (p : Place) (src : Bytes) (blocks : List Block) : Prop where
  proper : ∀ b ∈ blocks, b.span.opening ≤ b.span.closing
  sorted : blocks.Pairwise fun a b => a.span.closing ≤ b.span.opening
  upcoming : ∀ b ∈ blocks, Upcoming b.span.closing p src

theorem orderedTail {p : Place} {src : Bytes} {b : Block} {bs : List Block}
    (ordered : Ordered p src (b :: bs)) : Ordered p src bs :=
  ⟨fun c inside => ordered.proper c (List.mem_cons_of_mem b inside),
    (List.pairwise_cons.mp ordered.sorted).2,
    fun c inside => ordered.upcoming c (List.mem_cons_of_mem b inside)⟩

theorem endsHere {p : Place} {byte : UInt8} {src : Bytes} {s : Span}
    (upcoming : Upcoming s.closing p (byte :: src)) :
    p.ends s = true ↔ p.spot = s.closing := by
  rw [Place.endsIff]
  refine ⟨fun ends => ?_, .inl⟩
  rcases upcoming with here | ⟨ahead, _⟩
  · exact here
  · rcases ends with here | passed
    · exact here
    · rw [Place.spot, Span.closing, Prod.Lex.toLex_lt_toLex] at ahead
      dsimp only at ahead
      omega

/- The first block that has not ended keeps all later ones back: they start where it ends or beyond,
so nothing of them lies here. -/
theorem orderedLater (highest : Nat) {p : Place} {byte : UInt8} {src : Bytes} {b : Block}
    {bs : List Block} (ordered : Ordered p (byte :: src) (b :: bs))
    (unended : p.spot ≠ b.span.closing) : Ordered (p.next byte) src (b :: bs) ∧
      ∀ c ∈ bs, edges highest p (byte :: src) c = edges highest (p.next byte) src c := by
  have ahead : p.spot < b.span.closing :=
    (ordered.upcoming b List.mem_cons_self).elim (fun here => absurd here unended) And.left
  have beyond : ∀ c ∈ bs, p.spot < c.span.opening := fun c inside =>
    ahead.trans_le ((List.pairwise_cons.mp ordered.sorted).1 c inside)
  have closings : ∀ c ∈ b :: bs, p.spot < c.span.closing := by
    intro c inside
    rcases List.mem_cons.mp inside with rfl | inside
    · exact ahead
    · exact (beyond c inside).trans_le (ordered.proper c (List.mem_cons_of_mem b inside))
  refine ⟨⟨ordered.proper, ordered.sorted, fun c inside => ?_⟩, fun c inside => ?_⟩
  · exact (ordered.upcoming c inside).elim (fun here => absurd here (closings c inside).ne)
      And.right
  · rw [edges, edges, landingLater (beyond c inside).ne,
      landingLater (closings c (List.mem_cons_of_mem b inside)).ne]

theorem placeEdges (highest : Nat) {p : Place} {byte : UInt8} {src : Bytes}
    {blocks : List Block} (ordered : Ordered p (byte :: src) blocks) :
    Ordered (p.next byte) src (boundariesAt highest p blocks).2 ∧
      blocks.flatMap (edges highest p (byte :: src)) = (boundariesAt highest p blocks).1 ++
        (boundariesAt highest p blocks).2.flatMap (edges highest (p.next byte) src) := by
  induction blocks with
  | nil => exact ⟨⟨List.forall_mem_nil _, .nil, List.forall_mem_nil _⟩, rfl⟩
  | cons b bs ih =>
    have ends := endsHere (ordered.upcoming b List.mem_cons_self)
    rw [boundariesAt]
    by_cases closes : p.spot = b.span.closing
    · obtain ⟨rest, same⟩ := ih (orderedTail ordered)
      have starts : ((landing b.span.opening p (byte :: src)).map fun o =>
          startBoundary highest o b).toList =
            if p.starts b.span then [startBoundary highest p.offset b] else [] := by
        split
        · rename_i here
          rw [← (Place.startsIff ..).mp here, landingHere]
          rfl
        · rename_i before
          -- a block that ends here and does not start here has started before
          have passed : b.span.opening < p.spot := by
            refine lt_of_le_of_ne ?_ fun same => before ((Place.startsIff ..).mpr same.symm)
            rw [closes]
            exact ordered.proper b List.mem_cons_self
          rw [landingPassed passed]
          rfl
      rw [if_pos (ends.mpr closes)]
      refine ⟨rest, ?_⟩
      rw [List.flatMap_cons, same, edges, starts, ← closes, landingHere]
      simp
    · obtain ⟨later, others⟩ := orderedLater highest ordered closes
      rw [if_neg (fun here => closes (ends.mp here))]
      refine ⟨later, ?_⟩
      rw [List.flatMap_cons, List.flatMap_cons, List.flatMap_congr others, ← List.append_assoc]
      refine congrArg (· ++ _) ?_
      rw [edges, edges, landingLater closes]
      split
      · rename_i here
        rw [← (Place.startsIff ..).mp here, landingHere, landingPassed (p.nextSpot byte)]
        rfl
      · rename_i other
        rw [landingLater fun same => other ((Place.startsIff ..).mpr same)]
        rfl

theorem sweepEdges {highest : Nat} {p : Place} {src : Bytes} {blocks : List Block}
    (ordered : Ordered p src blocks) :
    sweep highest p src blocks = blocks.flatMap (edges highest p src) := by
  induction src generalizing p blocks with
  | nil =>
    have silent : ∀ b ∈ blocks, edges highest p [] b = [] := fun _ _ => rfl
    rw [sweep, List.flatMap_congr silent]
    simp
  | cons byte src ih =>
    obtain ⟨later, same⟩ := placeEdges highest ordered
    rw [sweep, same, ← ih later]

@[simp] theorem afterOffset (p : Place) (bs : Bytes) :
    (p.after bs).offset = p.offset + bs.length := by
  induction bs generalizing p with
  | nil => rfl
  | cons byte bs ih =>
    have later := ih (p.next byte)
    rw [nextOffset] at later
    rw [List.length_cons]
    exact later.trans (by omega)

/- A sweep counts lines as they are, and columns too, but for those of the first line. -/
theorem afterSpotAt (src : Bytes) (offset : Nat) :
    (Place.first.after (src.take offset)).spot =
      if (src.take offset).count 0x0a = 0 then
        toLex (1, (ofLex (spotAt src offset)).2 + 1) else spotAt src offset := by
  unfold spotAt
  generalize src.take offset = before
  induction before using List.reverseRecOn with
  | nil => rfl
  | append_singleton before byte ih =>
    have next : Place.first.after (before ++ [byte]) =
        (Place.first.after before).next byte := by simp [Place.after]
    rw [next]
    unfold Place.spot Place.next at *
    by_cases feed : byte = 0x0a
    · split at ih <;> simp_all
    · split at ih <;> simp_all

/- The offset of the first byte behind `n` line breaks, or the end of a source with fewer. -/
def lineStart : Bytes → Nat → Nat
  | _, 0 => 0
  | [], _ + 1 => 0
  | byte :: src, n + 1 => lineStart src (if byte = 0x0a then n else n + 1) + 1

def offsetOf (src : Bytes) (s : Spot) : Nat :=
  lineStart src ((ofLex s).1 - 1) + (ofLex s).2 - 1

/- A byte of the second or a later line, the line break at its end included. -/
structure IsPosition (src : Bytes) (s : Spot) : Prop where
  line : 2 ≤ (ofLex s).1
  column : 1 ≤ (ofLex s).2
  within : offsetOf src s < src.length
  own : (src.take (offsetOf src s)).count 0x0a + 1 = (ofLex s).1

instance (src : Bytes) (s : Spot) : Decidable (IsPosition src s) :=
  decidable_of_iff (2 ≤ (ofLex s).1 ∧ 1 ≤ (ofLex s).2 ∧ offsetOf src s < src.length ∧
      (src.take (offsetOf src s)).count 0x0a + 1 = (ofLex s).1)
    ⟨fun h => ⟨h.1, h.2.1, h.2.2.1, h.2.2.2⟩, fun h => ⟨h.line, h.column, h.within, h.own⟩⟩

theorem unbrokenLine {bs : Bytes} (unbroken : 0x0a ∉ bs) :
    bs.reverse.takeWhile (· ≠ 0x0a) = bs.reverse :=
  List.takeWhile_eq_self_iff.mpr fun _ inside => decide_eq_true fun same =>
    unbroken (same ▸ List.mem_reverse.mp inside)

theorem lineStartColumn (before rest : Bytes) :
    lineStart (before ++ rest) (before.count 0x0a) +
      (before.reverse.takeWhile (· ≠ 0x0a)).length = before.length := by
  induction before with
  | nil => simp [lineStart]
  | cons byte before ih =>
    rw [List.cons_append, List.count_cons, List.reverse_cons,
      List.length_cons, List.takeWhile_append]
    by_cases breaks : 0x0a ∈ before
    · -- the last line break lies behind the first byte
      have shorter : (before.reverse.takeWhile (· ≠ 0x0a)).length ≠ before.reverse.length := by
        intro whole
        have same := List.takeWhile_eq_self_iff.mp ((List.takeWhile_prefix _).eq_of_length whole)
        simpa using same 0x0a (List.mem_reverse.mpr breaks)
      obtain ⟨n, count⟩ : ∃ n, before.count 0x0a = n + 1 :=
        Nat.exists_eq_succ_of_ne_zero (List.count_pos_iff.mpr breaks).ne'
      have later : lineStart (byte :: (before ++ rest)) (n + 1 + if byte == 0x0a then 1 else 0) =
          lineStart (before ++ rest) (n + 1) + 1 := by
        by_cases feed : byte = 0x0a <;> simp [feed, lineStart]
      rw [count] at ih
      rw [if_neg shorter, count, later]
      omega
    · have unbroken : before.count 0x0a = 0 := List.count_eq_zero.mpr breaks
      rw [unbrokenLine breaks, if_pos rfl, unbroken]
      by_cases feed : byte = 0x0a <;> simp [feed, lineStart, Nat.add_comm]

theorem spotAtPosition {src : Bytes} {s : Spot} (position : IsPosition src s) :
    spotAt src (offsetOf src s) = s := by
  have split := lineStartColumn (src.take (offsetOf src s)) (src.drop (offsetOf src s))
  rw [List.take_append_drop, List.length_take_of_le position.within.le] at split
  obtain ⟨line, column, _, own⟩ := position
  have start : (src.take (offsetOf src s)).count 0x0a = (ofLex s).1 - 1 := by omega
  have offset : offsetOf src s = lineStart src ((ofLex s).1 - 1) + (ofLex s).2 - 1 := rfl
  rw [start] at split
  have same : (ofLex s).2 =
      ((src.take (offsetOf src s)).reverse.takeWhile (· ≠ 0x0a)).length + 1 := by omega
  rw [spotAt]
  exact congrArg toLex (Prod.ext own same.symm)

/- Behind the first line a sweep lands on the byte that has the line and column. -/
theorem landsAtPosition {src : Bytes} {s : Spot} (position : IsPosition src s) :
    landing s .first src = some (offsetOf src s) ∧ Upcoming s .first src := by
  have spot : (Place.first.after (src.take (offsetOf src s))).spot = s := by
    have later : (src.take (offsetOf src s)).count 0x0a ≠ 0 := by
      have := position.line
      have := position.own
      omega
    rw [afterSpotAt, if_neg later, spotAtPosition position]
  have lands := landingAt .first position.within
  have upcoming := upcomingAt .first src (offsetOf src s)
  rw [spot] at lands upcoming
  exact ⟨lands.trans (by simp [Place.first]), upcoming⟩

theorem chainSorted {blocks : List Block} (proper : ∀ b ∈ blocks, b.span.opening ≤ b.span.closing)
    (chain : blocks.IsChain fun a b => a.span.closing ≤ b.span.opening) :
    blocks.Pairwise fun a b => a.span.closing ≤ b.span.opening := by
  induction blocks with
  | nil => exact .nil
  | cons a blocks ih =>
    have rest := ih (fun b inside => proper b (List.mem_cons_of_mem a inside)) chain.tail
    refine List.pairwise_cons.mpr ⟨fun c inside => ?_, rest⟩
    cases blocks with
    | nil => cases inside
    | cons b blocks =>
      have first := (List.isChain_cons_cons.mp chain).1
      rcases List.mem_cons.mp inside with rfl | inside
      · exact first
      · exact first.trans ((proper b (by simp)).trans ((List.pairwise_cons.mp rest).1 c inside))

/- Blocks that lie behind the first line, each where the one before ends or further on, have their
boundaries at the bytes that their lines and columns name. They may be empty and may touch. -/
theorem boundariesExact {p : Profile} {src : Bytes}
    (positions : ∀ b ∈ p.blocks, IsPosition src b.span.opening ∧ IsPosition src b.span.closing)
    (proper : ∀ b ∈ p.blocks, b.span.opening ≤ b.span.closing)
    (chain : p.blocks.IsChain fun a b => a.span.closing ≤ b.span.opening) :
    p.boundaries src = p.blocks.flatMap fun b =>
      [startBoundary p.maxCount (offsetOf src b.span.opening) b,
        endBoundary (offsetOf src b.span.closing)] := by
  have ordered : Ordered .first src p.blocks :=
    ⟨proper, chainSorted proper chain, fun b inside =>
      (landsAtPosition (positions b inside).2).2⟩
  rw [boundariesSwept, sweepEdges ordered]
  refine List.flatMap_congr fun b inside => ?_
  obtain ⟨opens, closes⟩ := positions b inside
  rw [edges, (landsAtPosition opens).1, (landsAtPosition closes).1]
  rfl

/- Two blocks that touch and an empty one, which lies at a line break. -/
def touchingBlocks : Profile :=
  ⟨"milk.go", .count, [⟨⟨2, 1, 2, 3⟩, 1, 4⟩, ⟨⟨2, 3, 4, 1⟩, 2, 0⟩, ⟨⟨4, 1, 4, 1⟩, 1, 7⟩]⟩

def touchingSource : Bytes := Text.encode "a\nbcd\n\n\n"

theorem touchingBlocksExact :
    (∀ b ∈ touchingBlocks.blocks, IsPosition touchingSource b.span.opening ∧
      IsPosition touchingSource b.span.closing) ∧
    (∀ b ∈ touchingBlocks.blocks, b.span.opening ≤ b.span.closing) ∧
    (touchingBlocks.blocks.IsChain fun a b => a.span.closing ≤ b.span.opening) ∧
    (touchingBlocks.boundaries touchingSource).map (fun b => (b.offset, b.start, b.count)) =
      [(2, true, 4), (4, false, 0), (4, true, 0), (7, false, 0), (7, true, 7), (7, false, 0)] := by
  have positions : ∀ b ∈ touchingBlocks.blocks, IsPosition touchingSource b.span.opening ∧
      IsPosition touchingSource b.span.closing := by decide
  have proper : ∀ b ∈ touchingBlocks.blocks, b.span.opening ≤ b.span.closing := by decide
  have chain : touchingBlocks.blocks.IsChain fun a b => a.span.closing ≤ b.span.opening := by
    decide
  refine ⟨positions, proper, chain, ?_⟩
  rw [boundariesExact positions proper chain]
  decide

end Profile
end Uncalled
