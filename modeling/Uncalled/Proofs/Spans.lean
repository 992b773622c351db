import Uncalled.Proofs.Positions
import Uncalled.Proofs.Tags
/-! The spans of a source. Whatever the blocks of a profile are, their spans never lie within each
other, and only the last one can stay open. Blocks that lie within the source have all their tags,
but for two kinds: a sweep starts behind the first column of the first line, and it stops before the
end of the source. -/
namespace Uncalled
open Text (Bytes)

namespace Profile

/- What a sweep finds of some blocks, one after the other: the end of each block, maybe with its
start right before, and at last maybe a start alone. `started` says that the start of the first
block is already found. -/
inductive Pattern (highest : Nat) (src : Bytes) : Bool → List Block → List Boundary → Prop
  | done (started : Bool) (blocks : List Block) : Pattern highest src started blocks []
  | start {o : Nat} {b : Block} {bs : List Block} {found : List Boundary}
      (lies : (Place.first.after (src.take o)).starts b.span = true)
      (rest : Pattern highest src true (b :: bs) found) :
      Pattern highest src false (b :: bs) (startBoundary highest o b :: found)
  | stop {started : Bool} {o : Nat} {b : Block} {bs : List Block} {found : List Boundary}
      (lies : (Place.first.after (src.take o)).ends b.span = true)
      (rest : Pattern highest src false bs found) :
      Pattern highest src started (b :: bs) (endBoundary o :: found)

def Behind (p : Place) (started : Bool) (blocks : List Block) : Prop :=
  started = true → ∀ b ∈ blocks.head?, b.span.opening < p.spot

theorem behindNext {p : Place} {started : Bool} {blocks : List Block}
    (behind : Behind p started blocks) (byte : UInt8) : Behind (p.next byte) started blocks :=
  fun found b inside => (behind found b inside).trans (p.nextSpot byte)

theorem placePattern {highest : Nat} {src : Bytes} {p : Place} (byte : UInt8)
    {later : List Block → List Boundary} (place : Place.first.after (src.take p.offset) = p)
    (rest : ∀ started blocks, Behind (p.next byte) started blocks →
      Pattern highest src started blocks (later blocks))
    {started : Bool} {blocks : List Block} (behind : Behind p started blocks) :
    Pattern highest src started blocks
      ((boundariesAt highest p blocks).1 ++ later (boundariesAt highest p blocks).2) := by
  induction blocks generalizing started with
  | nil => exact rest started [] (behindNext behind byte)
  | cons b bs ih =>
    have ended : p.ends b.span = true → ∀ started, Pattern highest src started (b :: bs)
        (endBoundary p.offset :: ((boundariesAt highest p bs).1 ++
          later (boundariesAt highest p bs).2)) := fun ends _ =>
      .stop (by rwa [place]) (ih fun found => by cases found)
    rw [boundariesAt]
    by_cases starts : p.starts b.span = true
    · have fresh : started = false := by
        by_contra found
        have before := behind (Bool.eq_true_of_not_eq_false found) b rfl
        exact before.ne ((Place.startsIff ..).mp starts).symm
      have own : b.span.opening < (p.next byte).spot := by
        rw [← (Place.startsIff ..).mp starts]
        exact p.nextSpot byte
      subst fresh
      simp only [starts, if_true]
      split
      · rename_i ends
        exact .start (by rwa [place]) (ended ends true)
      · refine .start (by rwa [place]) (rest true (b :: bs) fun _ c inside => ?_)
        cases inside
        exact own
    · simp only [starts]
      split
      · rename_i ends
        exact ended ends started
      · exact rest started (b :: bs) (behindNext behind byte)

theorem sweepPattern (highest : Nat) (before src : Bytes) {started : Bool} {blocks : List Block}
    (behind : Behind (Place.first.after before) started blocks) :
    Pattern highest (before ++ src) started blocks
      (sweep highest (Place.first.after before) src blocks) := by
  induction src generalizing before started blocks with
  | nil => exact .done started blocks
  | cons byte src ih =>
    have place : Place.first.after ((before ++ byte :: src).take
        (Place.first.after before).offset) = Place.first.after before := by
      rw [afterOffset, Place.first, Nat.zero_add, List.take_left]
    refine placePattern byte place (fun started blocks behind => ?_) behind
    have next : (Place.first.after before).next byte = Place.first.after (before ++ [byte]) := by
      simp [Place.after]
    rw [next] at behind ⊢
    have later := ih (before ++ [byte]) behind
    rwa [List.append_assoc] at later

theorem patternAlternates {highest : Nat} {src : Bytes} {started : Bool} {blocks : List Block}
    {found : List Boundary} (pattern : Pattern highest src started blocks found) :
    (found.IsChain fun a b => a.start = true → b.start = false) ∧
      (started = true → ∀ b ∈ found.head?, b.start = false) := by
  induction pattern with
  | done => simp
  | start lies rest ih =>
    refine ⟨ih.1.cons fun c inside _ => ih.2 rfl c inside, fun impossible => ?_⟩
    cases impossible
  | stop lies rest ih =>
    refine ⟨ih.1.cons fun c inside impossible => ?_, fun _ c inside => ?_⟩
    · cases impossible
    · cases inside
      rfl

theorem boundariesPattern (p : Profile) (src : Bytes) :
    Pattern p.maxCount src false p.blocks (p.boundaries src) := by
  rw [boundariesSwept]
  exact sweepPattern p.maxCount [] src fun impossible => by cases impossible

theorem patternStarts {highest : Nat} {src : Bytes} {started : Bool} {blocks : List Block}
    {found : List Boundary} (pattern : Pattern highest src started blocks found) :
    ∀ x ∈ found, x.start = true → ∃ o, ∃ b ∈ blocks, x = startBoundary highest o b := by
  induction pattern with
  | done => simp
  | @start o b bs found lies rest ih =>
    intro x inside
    rcases List.mem_cons.mp inside with rfl | inside
    · exact fun _ => ⟨o, b, List.mem_cons_self, rfl⟩
    · exact ih x inside
  | stop lies rest ih =>
    intro x inside starts
    rcases List.mem_cons.mp inside with rfl | inside
    · cases starts
    · obtain ⟨o, b, among, same⟩ := ih x inside starts
      exact ⟨o, b, List.mem_cons_of_mem _ among, same⟩

/- All that is assumed of floating-point logarithms: those of numbers that fit into 64 bits grow
with the numbers, so that nine times the share of a count in the highest does not come to ten. -/
def SharesBounded : Prop :=
  ∀ highest count : Nat, 0 < count → count ≤ highest → 1 < highest → highest < numberLimit →
    (norm highest count * 9).toUInt32.toNat < 10

end Profile

namespace Overlay

/- The heat of each block that ran fits into 32 bits. -/
def Cool (bs : List Boundary) : Prop :=
  ∀ b ∈ bs, b.start = true → 0 < b.count → heat b < Nat.pow 2 32

theorem flatHeat {highest : Nat} (flat : highest ≤ 1) (o : Nat) (b : Block) :
    heat (Profile.startBoundary highest o b) < Nat.pow 2 32 := by
  have level : ((0.8 : Float) * 9).toUInt32.toNat + 1 < Nat.pow 2 32 := by decide +kernel
  unfold heat Profile.startBoundary Profile.norm
  by_cases never : b.count = 0
  · simp only [never, if_true]
    decide
  · simpa only [never, flat, if_true, if_false] using level

theorem boundariesCool (shares : Profile.SharesBounded) {p : Profile}
    (fits : p.maxCount < numberLimit) (src : Bytes) : Cool (p.boundaries src) := by
  intro x inside starts ran
  obtain ⟨o, b, among, rfl⟩ := Profile.patternStarts (p.boundariesPattern src) x inside starts
  by_cases flat : p.maxCount ≤ 1
  · exact flatHeat flat o b
  · have highest : b.count ≤ p.maxCount :=
      (foldMax (p.blocks.map Block.count) 0).2.2 _ (List.mem_map_of_mem among)
    have share := shares p.maxCount b.count ran highest (Nat.lt_of_not_le flat) fits
    have heated : heat (Profile.startBoundary p.maxCount o b) =
        (Profile.norm p.maxCount b.count * 9).toUInt32.toNat + 1 := if_neg ran.ne'
    have small : 11 < Nat.pow 2 32 := by decide
    omega

theorem overheated {uncalled : List Declaration} {ps : List Piece}
    (beyond : ps.any (Piece.overheats uncalled) = true) :
    ∃ b ∈ ps.filterMap Piece.tag?, b.start = true ∧ 0 < b.count ∧ Nat.pow 2 32 ≤ heat b := by
  obtain ⟨piece, inside, beyond⟩ := List.any_eq_true.mp beyond
  cases piece with
  | byte b => cases beyond
  | tag b =>
    simp only [Piece.overheats, Bool.and_eq_true, decide_eq_true_eq] at beyond
    refine ⟨b, List.mem_filterMap.mpr ⟨.tag b, inside, rfl⟩, beyond.1.1, ?_, beyond.2⟩
    by_contra never
    have heat : heat b = 0 := if_pos (by omega)
    have limit := beyond.2
    rw [heat] at limit
    revert limit
    decide

/- Nothing but the heat of a boundary keeps a text back. -/
theorem annotateEnds (r : Report) (path : String) (src : Bytes) (bs : List Boundary) :
    annotate r path src bs = .ok (markup (uncalledIn r path) src bs) ∨
      (annotate r path src bs = .error .overflow ∧
        ∃ b ∈ (pieces 0 src bs).filterMap Piece.tag?,
          b.start = true ∧ 0 < b.count ∧ Nat.pow 2 32 ≤ heat b) := by
  unfold annotate
  dsimp only
  split
  · rename_i beyond
    exact .inr ⟨rfl, overheated beyond⟩
  · exact .inl rfl

structure Marks (r : Report) (path : String) (src : Bytes) (bs : List Boundary) (text : String) :
    Prop where
  shown : annotate r path src bs = .ok text
  tags : Page.openings text.toList = bs.map (tagBody (uncalledIn r path))

theorem annotateMarks {src : Bytes} {bs : List Boundary}
    (sorted : bs.Pairwise fun a b => a.offset ≤ b.offset)
    (within : ∀ b ∈ bs, b.offset < src.length) (r : Report) (path : String) :
    Marks r path src bs (markup (uncalledIn r path) src bs) ∨
      (annotate r path src bs = .error .overflow ∧
        ∃ b ∈ bs, b.start = true ∧ 0 < b.count ∧ Nat.pow 2 32 ≤ heat b) := by
  have ahead : Ahead 0 bs := ⟨sorted, fun _ _ => Nat.zero_le _⟩
  have ends := annotateEnds r path src bs
  rw [piecesTags ahead (by simpa using within)] at ends
  refine ends.imp_left fun shown => ⟨shown, ?_⟩
  have tagged := markupTagged (uncalledIn r path) ahead within []
  rwa [List.append_nil, Page.openings, List.append_nil] at tagged

theorem marksCool {src : Bytes} {bs : List Boundary}
    (sorted : bs.Pairwise fun a b => a.offset ≤ b.offset)
    (within : ∀ b ∈ bs, b.offset < src.length) (cool : Cool bs) (r : Report) (path : String) :
    Marks r path src bs (markup (uncalledIn r path) src bs) := by
  rcases annotateMarks sorted within r path with marks | ⟨_, b, inside, starts, ran, beyond⟩
  · exact marks
  · exact absurd (cool b inside starts ran) (Nat.not_lt.mpr beyond)

end Overlay

/- Whatever the blocks are, their boundaries lie within the source and in its order, so sorting does
not move them; block by block there is an end, maybe with its start right before, so no span lies
within another and only the last can stay open; and each boundary gives one tag. Nothing but the
heat of a block can keep the text back, and only where counts are compared by their logarithms. -/
theorem noBoundaryLost (p : Profile) (src : Bytes) :
    p.boundaries src = Profile.sweep p.maxCount .first src p.blocks ∧
    ((p.boundaries src).Pairwise fun a b => a.offset ≤ b.offset) ∧
    (∀ b ∈ p.boundaries src, b.offset < src.length) ∧
    Profile.Pattern p.maxCount src false p.blocks (p.boundaries src) ∧
    ((p.boundaries src).IsChain fun a b => a.start = true → b.start = false) ∧
    (Overlay.pieces 0 src (p.boundaries src)).filterMap Overlay.Piece.tag? = p.boundaries src ∧
    (∀ r path, (∃ text, Overlay.Marks r path src (p.boundaries src) text) ∨
      (annotate r path src (p.boundaries src) = .error .overflow ∧ 1 < p.maxCount ∧
        ∃ b ∈ p.boundaries src, b.start = true ∧ 0 < b.count ∧ Nat.pow 2 32 ≤ Overlay.heat b)) ∧
    (Profile.SharesBounded → p.maxCount < numberLimit →
      ∀ r path, ∃ text, Overlay.Marks r path src (p.boundaries src) text) := by
  have sorted := p.boundariesSorted src
  have within := p.boundariesWithin src
  refine ⟨p.boundariesSwept src, sorted, within, p.boundariesPattern src,
    (Profile.patternAlternates (p.boundariesPattern src)).1, Overlay.boundaryTags p src, ?_, ?_⟩
  · intro r path
    refine (Overlay.annotateMarks sorted within r path).imp (fun marks => ⟨_, marks⟩) ?_
    rintro ⟨failed, b, inside, starts, ran, beyond⟩
    refine ⟨failed, ?_, b, inside, starts, ran, beyond⟩
    by_contra flat
    obtain ⟨o, block, _, rfl⟩ := Profile.patternStarts (p.boundariesPattern src) b inside starts
    have cool := Overlay.flatHeat (Nat.le_of_not_lt flat) o block
    omega
  · intro shares fits r path
    exact ⟨_, Overlay.marksCool sorted within (Overlay.boundariesCool shares fits src) r path⟩

namespace Profile

theorem spotAtStart (src : Bytes) : spotAt src 0 < Place.first.spot := by
  rw [spotAt, Place.spot, Place.first, Prod.Lex.toLex_lt_toLex]
  simp

/- The byte at which a sweep has the line and column of another: on the first line it is the one
before it. -/
def sweptAt (src : Bytes) (o : Nat) : Nat := if (src.take o).count 0x0a = 0 then o - 1 else o

theorem spotAtFirstLine {src : Bytes} {o : Nat} (within : o ≤ src.length)
    (first : (src.take o).count 0x0a = 0) : spotAt src o = toLex (1, o + 1) := by
  rw [spotAt, first, unbrokenLine (List.count_eq_zero.mp first), List.length_reverse,
    List.length_take_of_le within]

theorem sweptSpot {src : Bytes} {o : Nat} (within : o ≤ src.length) (behind : o ≠ 0) :
    (Place.first.after (src.take (sweptAt src o))).spot = spotAt src o := by
  unfold sweptAt
  split
  · rename_i first
    have earlier : (src.take (o - 1)).count 0x0a = 0 :=
      Nat.le_zero.mp (first ▸ (List.take_sublist_take_left (by omega)).count_le 0x0a)
    rw [afterSpotAt, if_pos earlier, spotAtFirstLine (by omega) earlier,
      spotAtFirstLine within first]
    exact congrArg (fun n => toLex (1, n)) (by simp; omega)
  · rename_i later
    rw [afterSpotAt, if_neg later]

theorem sweptLe (src : Bytes) (o : Nat) : sweptAt src o ≤ o := by
  unfold sweptAt
  split <;> omega

/- A block has its start where it does not begin with the source. -/
def Opens (src : Bytes) (b : Block) : Prop := b.span.opening ≠ spotAt src 0

/- A block has its end where it does not end with the source, or the source is a single line. -/
def Closes (src : Bytes) (b : Block) : Prop :=
  b.span.closing = spotAt src src.length → 0x0a ∉ src

instance (src : Bytes) (b : Block) : Decidable (Opens src b) := by unfold Opens; infer_instance
instance (src : Bytes) (b : Block) : Decidable (Closes src b) := by unfold Closes; infer_instance

/- Blocks at bytes of the source, each behind the one before it. The last one may end behind the
last byte. -/
structure Genuine (src : Bytes) (blocks : List Block) : Prop where
  starts : ∀ b ∈ blocks, ∃ o < src.length, b.span.opening = spotAt src o
  ends : ∀ b ∈ blocks, ∃ o ≤ src.length, b.span.closing = spotAt src o
  proper : ∀ b ∈ blocks, b.span.opening < b.span.closing
  chain : blocks.IsChain fun a b => a.span.closing ≤ b.span.opening

instance (src : Bytes) (blocks : List Block) : Decidable (Genuine src blocks) :=
  decidable_of_iff ((∀ b ∈ blocks, ∃ o < src.length, b.span.opening = spotAt src o) ∧
      (∀ b ∈ blocks, ∃ o ≤ src.length, b.span.closing = spotAt src o) ∧
      (∀ b ∈ blocks, b.span.opening < b.span.closing) ∧
      blocks.IsChain fun a b => a.span.closing ≤ b.span.opening)
    ⟨fun h => ⟨h.1, h.2.1, h.2.2.1, h.2.2.2⟩, fun h => ⟨h.starts, h.ends, h.proper, h.chain⟩⟩

theorem startLe (src : Bytes) {o : Nat} (within : o ≤ src.length) :
    spotAt src 0 ≤ spotAt src o := by
  by_cases start : o = 0
  · rw [start]
  · rw [← sweptSpot within start]
    exact (spotAtStart src).le.trans (Place.afterSpot ..)

theorem openingLands {src : Bytes} {b : Block} {o : Nat} (within : o < src.length)
    (spot : b.span.opening = spotAt src o) :
    (landing b.span.opening .first src).isSome = true ↔ Opens src b := by
  unfold Opens
  rw [spot]
  by_cases start : o = 0
  · rw [start, landingPassed (spotAtStart src)]
    simp
  · have ahead : spotAt src 0 < spotAt src o := by
      rw [← sweptSpot within.le start]
      exact (spotAtStart src).trans_le (Place.afterSpot ..)
    have lands := landingAt .first ((sweptLe src o).trans_lt within)
    rw [sweptSpot within.le start] at lands
    simp [lands, ahead.ne']

theorem endLands {src : Bytes} (breaks : 0x0a ∈ src) :
    landing (spotAt src src.length) .first src = none := by
  have filled : src.length ≠ 0 := fun empty => by
    rw [List.eq_nil_of_length_eq_zero empty] at breaks
    cases breaks
  have swept : sweptAt src src.length = src.length := by
    rw [sweptAt, List.take_length, if_neg (List.count_pos_iff.mpr breaks).ne']
  rw [← sweptSpot le_rfl filled, swept, List.take_length, landingEnd]

theorem closingLands {src : Bytes} {b : Block} {o : Nat} (within : o ≤ src.length) (behind : o ≠ 0)
    (spot : b.span.closing = spotAt src o) :
    (landing b.span.closing .first src).isSome = true ↔ Closes src b := by
  by_cases inside : sweptAt src o < src.length
  · have lands := landingAt .first inside
    rw [sweptSpot within behind, ← spot] at lands
    rw [lands]
    refine ⟨fun _ last breaks => ?_, fun _ => rfl⟩
    rw [last, endLands breaks] at lands
    cases lands
  · have least := sweptLe src o
    obtain rfl : o = src.length := by omega
    have breaks : 0x0a ∈ src := by
      by_contra unbroken
      rw [sweptAt, List.take_length, if_pos (List.count_eq_zero.mpr unbroken)] at inside
      omega
    rw [spot, endLands breaks]
    refine ⟨fun impossible => ?_, fun closes => absurd breaks (closes spot)⟩
    cases impossible

theorem genuineBoundaries {p : Profile} {src : Bytes} (genuine : Genuine src p.blocks) :
    ∃ starts ends : Block → Nat, p.boundaries src = p.blocks.flatMap fun b =>
      (if Opens src b then [startBoundary p.maxCount (starts b) b] else []) ++
        if Closes src b then [endBoundary (ends b)] else [] := by
  have proper : ∀ b ∈ p.blocks, b.span.opening ≤ b.span.closing := fun b inside =>
    (genuine.proper b inside).le
  -- no block ends where the source begins
  have behind : ∀ b ∈ p.blocks, ∃ o ≤ src.length, o ≠ 0 ∧ b.span.closing = spotAt src o := by
    intro b inside
    obtain ⟨o, within, spot⟩ := genuine.ends b inside
    refine ⟨o, within, ?_, spot⟩
    rintro rfl
    obtain ⟨start, started, opening⟩ := genuine.starts b inside
    have ahead := genuine.proper b inside
    rw [spot, opening] at ahead
    exact ahead.not_ge (startLe src started.le)
  have ordered : Ordered .first src p.blocks := by
    refine ⟨proper, chainSorted proper genuine.chain, fun b inside => ?_⟩
    obtain ⟨o, within, positive, spot⟩ := behind b inside
    rw [spot, ← sweptSpot within positive]
    exact upcomingAt ..
  refine ⟨fun b => (landing b.span.opening .first src).getD 0,
    fun b => (landing b.span.closing .first src).getD 0, ?_⟩
  rw [boundariesSwept, sweepEdges ordered]
  refine List.flatMap_congr fun b inside => ?_
  obtain ⟨start, started, opening⟩ := genuine.starts b inside
  obtain ⟨o, within, positive, closing⟩ := behind b inside
  have opens := openingLands started opening
  have closes := closingLands within positive closing
  unfold edges
  congr 1
  · cases lands : landing b.span.opening .first src <;> simp_all
  · cases lands : landing b.span.closing .first src <;> simp_all

end Profile

/- As many opening tags as closing ones, and never more closed than opened. -/
structure Balanced (n : Nat) (tags : List String) : Prop where
  opened : tags.countP (· ≠ "/span") = n
  ended : tags.count "/span" = n
  inOrder : ∀ before, before <+: tags → before.count "/span" ≤ before.countP (· ≠ "/span")

theorem balancedLength {n : Nat} {tags : List String} (balanced : Balanced n tags) :
    tags.length = 2 * n := by
  have closing : tags.countP (fun t => ¬ decide (t ≠ "/span") = true) = tags.count "/span" :=
    List.countP_congr fun t _ => by simp
  rw [List.length_eq_countP_add_countP (fun t => t ≠ "/span"), balanced.opened, closing,
    balanced.ended]
  omega

theorem pairsBalanced {opened : List String} (opening : ∀ t ∈ opened, t ≠ "/span") :
    Balanced opened.length (opened.flatMap fun t => [t, "/span"]) := by
  induction opened with
  | nil => exact ⟨rfl, rfl, fun before start => by simp [List.prefix_nil.mp start]⟩
  | cons t opened ih =>
    obtain ⟨other, others⟩ := List.forall_mem_cons.mp opening
    obtain ⟨opens, ends, inOrder⟩ := ih others
    refine ⟨?_, ?_, fun before start => ?_⟩
    · simpa [other] using opens
    · simpa [other] using ends
    · rw [List.flatMap_cons, List.cons_append, List.cons_append, List.nil_append] at start
      rcases List.prefix_cons_iff.mp start with rfl | ⟨first, rfl, second⟩
      · rfl
      · rcases List.prefix_cons_iff.mp second with rfl | ⟨rest, rfl, third⟩
        · simp [other]
        · simpa [other] using inOrder rest third

theorem pairsComplete {α : Type} {f : α → List String} {xs : List α}
    (two : ∀ x, (f x).length ≤ 2) (full : 2 * xs.length ≤ (xs.flatMap f).length) :
    ∀ x ∈ xs, (f x).length = 2 := by
  have bound (xs : List α) : (xs.flatMap f).length ≤ 2 * xs.length := by
    induction xs with
    | nil => exact Nat.le_refl _
    | cons x xs ih =>
      have first := two x
      rw [List.flatMap_cons, List.length_append, List.length_cons]
      omega
  induction xs with
  | nil => simp
  | cons x xs ih =>
    have first := two x
    have rest := bound xs
    rw [List.flatMap_cons, List.length_append, List.length_cons] at full
    exact List.forall_mem_cons.mpr ⟨by omega, ih (by omega)⟩

/- The tags of blocks that lie within the source: all of them, where no block begins with the source
and none ends with a source of several lines. Else a span is closed without being opened, or left
open. -/
theorem spansBalanced {r : Report} {s : Sheet} {v : View} (shown : s.view r = .ok v)
    (genuine : Profile.Genuine s.src s.profile.blocks) :
    (∃ tag : Block → String, (∀ b, ∃ name, tag b =
        "span class=\"" ++ name ++ "\" title=\"" ++ Nat.repr b.count ++ "\"") ∧
      Page.openings v.body.toList = s.profile.blocks.flatMap fun b =>
        (if Profile.Opens s.src b then [tag b] else []) ++
          if Profile.Closes s.src b then ["/span"] else []) ∧
    (Balanced s.profile.blocks.length (Page.openings v.body.toList) ↔
      ∀ b ∈ s.profile.blocks, Profile.Opens s.src b ∧ Profile.Closes s.src b) := by
  obtain ⟨starts, ends, boundaries⟩ := Profile.genuineBoundaries genuine
  have tagged := Sheet.viewTagged shown []
  rw [List.append_nil, Page.openings, List.append_nil, Sheet.spans, Sheet.boundaries, boundaries,
    List.map_flatMap] at tagged
  let tag (b : Block) : String := Overlay.tagBody (Overlay.uncalledIn r s.path)
    (Profile.startBoundary s.profile.maxCount (starts b) b)
  have named (b : Block) : ∃ name, tag b =
      "span class=\"" ++ name ++ "\" title=\"" ++ Nat.repr b.count ++ "\"" := ⟨_, rfl⟩
  have tags : Page.openings v.body.toList = s.profile.blocks.flatMap fun b =>
      (if Profile.Opens s.src b then [tag b] else []) ++
        if Profile.Closes s.src b then ["/span"] else [] := by
    rw [tagged]
    refine List.flatMap_congr fun b _ => ?_
    rw [List.map_append]
    congr 1
    · split <;> rfl
    · split <;> rfl
  refine ⟨⟨tag, named, tags⟩, fun balanced => ?_, fun all => ?_⟩
  · have length := balancedLength balanced
    rw [tags] at length
    intro b inside
    have two := pairsComplete (fun b => by split <;> split <;> simp) length.ge b inside
    by_cases opens : Profile.Opens s.src b <;> by_cases closes : Profile.Closes s.src b <;>
      simp_all
  · have pairs : Page.openings v.body.toList =
        (s.profile.blocks.map tag).flatMap fun t => [t, "/span"] := by
      rw [tags, List.flatMap_map]
      exact List.flatMap_congr fun b inside => by simp [all b inside]
    rw [pairs, ← List.length_map tag]
    refine pairsBalanced fun t inside => ?_
    obtain ⟨b, _, rfl⟩ := List.mem_map.mp inside
    obtain ⟨name, text⟩ := named b
    rw [text, Ne, ← String.toList_inj]
    simp

/- A function and the block that its body is, after a block on the first line. -/
def milkSheet (text : String) (first last : Span) : Sheet :=
  ⟨⟨"dairy/milk.go", .set, [⟨first, 1, 1⟩, ⟨last, 1, 0⟩]⟩, "milk.go", Text.encode text⟩

def coveredMilk : Sheet := milkSheet "var a = b()\nfunc c() \x7b\n\x7d\n" ⟨1, 9, 2, 1⟩ ⟨2, 10, 3, 2⟩

theorem innerBlockBalanced : Profile.Genuine coveredMilk.src coveredMilk.profile.blocks ∧
    (∀ b ∈ coveredMilk.profile.blocks,
      Profile.Opens coveredMilk.src b ∧ Profile.Closes coveredMilk.src b) ∧
    ∃ v, coveredMilk.view .empty = .ok v ∧ Balanced 2 (Page.openings v.body.toList) := by
  have genuine : Profile.Genuine coveredMilk.src coveredMilk.profile.blocks := by decide +kernel
  have complete : ∀ b ∈ coveredMilk.profile.blocks,
      Profile.Opens coveredMilk.src b ∧ Profile.Closes coveredMilk.src b := by decide +kernel
  have succeeds : (coveredMilk.view .empty).toOption.isSome = true := by
    simp only [Sheet.view, View.ofProfile, Profile.boundariesSwept]
    decide +kernel
  obtain ⟨v, shown⟩ := toOptionIsSome.mp succeeds
  exact ⟨genuine, complete, v, shown, (spansBalanced shown genuine).2.mpr complete⟩

/- Without a line break at the end of the source its last span stays open, and a block that begins
with the source is closed without being opened. -/
def borderMilk : Sheet := milkSheet "var a = b()\nfunc c() \x7b\n\x7d" ⟨1, 1, 2, 1⟩ ⟨2, 10, 3, 2⟩

theorem borderBlockUnbalanced : Profile.Genuine borderMilk.src borderMilk.profile.blocks ∧
    ∃ v, borderMilk.view .empty = .ok v ∧
      Page.openings v.body.toList = ["/span", "span class=\"cov0\" title=\"0\""] ∧
      ¬ Balanced 2 (Page.openings v.body.toList) := by
  have read : (borderMilk.view .empty).toOption.map (fun v => Page.openings v.body.toList) =
      some ["/span", "span class=\"cov0\" title=\"0\""] := by
    simp only [Sheet.view, View.ofProfile, Profile.boundariesSwept]
    decide +kernel
  obtain ⟨v, shown, tags⟩ := toOptionMap.mp read
  refine ⟨by decide +kernel, v, shown, tags, fun balanced => ?_⟩
  have length := balancedLength balanced
  rw [tags] at length
  cases length

end Uncalled
