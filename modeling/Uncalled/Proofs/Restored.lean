import Uncalled.Proofs.Entities
import Uncalled.Proofs.Spans
/-! A source read back from its markup. Where boundaries stand between the characters of a source,
the markup is the source character by character, each behind the tags of the boundaries at its
offset. So the tags can be taken out and the entities put back, and what is left is the source with
its tabs widened. -/
namespace Uncalled
open Text (Bytes)

namespace Text

def isContinuation (b : UInt8) : Bool := 0x80 ≤ b && b < 0xc0

/- No character of the source is cut at this offset. -/
def BetweenChars (src : Bytes) (o : Nat) : Prop := ∀ b ∈ src[o]?, isContinuation b = false

instance (src : Bytes) (o : Nat) : Decidable (BetweenChars src o) :=
  decidable_of_iff (src[o]?.all (fun b => !isContinuation b) = true) (by
    cases byte : src[o]? <;> simp [BetweenChars, byte])

theorem continuationOf {n : Nat} (range : 128 ≤ n ∧ n < 192) :
    isContinuation (UInt8.ofNat n) = true := by
  have value := byteValue (show n < 256 by omega)
  simp only [isContinuation, UInt8.le_iff_toNat_le, UInt8.lt_iff_toNat_lt, value,
    UInt8.reduceToNat, Bool.and_eq_true, decide_eq_true_eq]
  omega

theorem highOf {n : Nat} (range : 128 ≤ n ∧ n < 256) : 0x80 ≤ UInt8.ofNat n := by
  rw [UInt8.le_iff_toNat_le, byteValue range.2]
  exact range.1

theorem encodedChar (c : Char) :
    (c.toNat < 128 ∧ String.utf8EncodeChar c = [UInt8.ofNat c.toNat]) ∨
      (128 ≤ c.toNat ∧ ∃ first more, String.utf8EncodeChar c = first :: more ∧ 0x80 ≤ first ∧
        ∀ b ∈ more, isContinuation b = true) := by
  have bound := codeBound c
  change (c.val.toNat < 128 ∧ _ = [UInt8.ofNat c.val.toNat]) ∨ (128 ≤ c.val.toNat ∧ _)
  unfold String.utf8EncodeChar
  generalize c.val.toNat = v at bound
  dsimp only
  split_ifs with one two three
  · exact .inl ⟨by omega, rfl⟩
  · refine .inr ⟨by omega, _, _, rfl, highOf (by omega), fun b inside => ?_⟩
    obtain rfl := List.mem_singleton.mp inside
    exact continuationOf (by omega)
  · refine .inr ⟨by omega, _, _, rfl, highOf (by omega), ?_⟩
    simp only [List.forall_mem_cons, List.not_mem_nil, false_implies, implies_true, and_true]
    exact ⟨continuationOf (by omega), continuationOf (by omega)⟩
  · refine .inr ⟨by omega, _, _, rfl, highOf (by omega), ?_⟩
    simp only [List.forall_mem_cons, List.not_mem_nil, false_implies, implies_true, and_true]
    exact ⟨continuationOf (by omega), continuationOf (by omega), continuationOf (by omega)⟩

end Text

namespace Overlay
open Page (Bare Tagged)
open Text (isContinuation BetweenChars encodedChar)

def charText (c : Char) : List Char :=
  if c = '>' then "&gt;".toList
  else if c = '<' then "&lt;".toList
  else if c = '&' then "&amp;".toList
  else if c = '\t' then List.replicate 8 ' '
  else [c]

def tagsAt (uncalled : List Declaration) (bs : List Boundary) (o : Nat) : List Char :=
  (bs.filter fun b => b.offset = o).flatMap fun b => (tagText uncalled b).toList

/- Characters from an offset on, each behind the tags of the boundaries at its own offset, which
come in the order of the list. -/
def overlaid (uncalled : List Declaration) (bs : List Boundary) : Nat → List Char → List Char
  | _, [] => []
  | o, c :: cs =>
    tagsAt uncalled bs o ++ charText c ++ overlaid uncalled bs (o + c.utf8Size) cs

theorem byteTextHigh {b : UInt8} (high : 0x80 ≤ b) : byteText b = [b] := by
  have other {d : UInt8} (low : d < 0x80) : b ≠ d := by
    rintro rfl
    exact absurd high (UInt8.not_le.mpr low)
  rw [byteText, if_neg (other (by decide)), if_neg (other (by decide)), if_neg (other (by decide)),
    if_neg (other (by decide))]

theorem byteTextChar {c : Char} (ascii : c.toNat < 128) :
    byteText (UInt8.ofNat c.toNat) = (charText c).flatMap String.utf8EncodeChar := by
  have same {d : Char} (small : d.toNat < 128) :
      UInt8.ofNat c.toNat = UInt8.ofNat d.toNat ↔ c = d := by
    rw [Text.byteEq (by omega) (by omega), Char.toNat_inj]
  have single : String.utf8EncodeChar c = [UInt8.ofNat c.toNat] := by
    rcases encodedChar c with ⟨_, bytes⟩ | ⟨large, _⟩
    · exact bytes
    · omega
  unfold byteText charText
  rw [show (0x3e : UInt8) = UInt8.ofNat '>'.toNat from rfl,
    show (0x3c : UInt8) = UInt8.ofNat '<'.toNat from rfl,
    show (0x26 : UInt8) = UInt8.ofNat '&'.toNat from rfl,
    show (0x09 : UInt8) = UInt8.ofNat '\t'.toNat from rfl]
  simp only [same (show '>'.toNat < 128 by decide), same (show '<'.toNat < 128 by decide),
    same (show '&'.toNat < 128 by decide), same (show '\t'.toNat < 128 by decide)]
  split_ifs
  · rfl
  · rfl
  · rfl
  · rfl
  · rw [List.flatMap_singleton, single]

theorem charBytes (c : Char) :
    (String.utf8EncodeChar c).flatMap byteText = (charText c).flatMap String.utf8EncodeChar := by
  rcases encodedChar c with ⟨ascii, bytes⟩ | ⟨large, first, more, bytes, high, rest⟩
  · rw [bytes, List.flatMap_singleton, byteTextChar ascii]
  · have plain : charText c = [c] := by
      have other {d : Char} (small : d.toNat < 128) : c ≠ d := by
        rintro rfl
        omega
      rw [charText, if_neg (other (by decide)), if_neg (other (by decide)),
        if_neg (other (by decide)), if_neg (other (by decide))]
    have whole : ∀ b ∈ first :: more, byteText b = [b] := by
      intro b inside
      rcases List.mem_cons.mp inside with rfl | later
      · exact byteTextHigh high
      · have range := rest b later
        simp only [isContinuation, Bool.and_eq_true, decide_eq_true_eq] at range
        exact byteTextHigh range.1
    rw [plain, List.flatMap_singleton, bytes, List.flatMap_congr whole,
      List.flatMap_singleton']

theorem laidAppend (i : Nat) (xs ys : Bytes) (bs : List Boundary) :
    laid i (xs ++ ys) bs = laid i xs bs ++ laid (i + xs.length) ys bs := by
  rw [laid, List.zipIdx_append, List.flatMap_append]
  rfl

theorem laidPlain {i : Nat} {xs : Bytes} {bs : List Boundary}
    (elsewhere : ∀ b ∈ bs, b.offset < i ∨ i + xs.length ≤ b.offset) :
    laid i xs bs = xs.map .byte := by
  induction xs generalizing i with
  | nil => rfl
  | cons x xs ih =>
    have here : bs.filter (fun b => b.offset = i) = [] := by
      rw [List.filter_eq_nil_iff]
      intro b inside same
      have beyond := elsewhere b inside
      rw [decide_eq_true_eq] at same
      rw [List.length_cons] at beyond
      omega
    have later := @ih (i + 1) fun b inside => by
      have beyond := elsewhere b inside
      rw [List.length_cons] at beyond
      omega
    rw [← List.singleton_append, laidAppend, List.length_singleton, later]
    simp [laid, here]

/- The bytes behind the first of a character go on with it, so no boundary is there. -/
theorem charLaid {before after : Bytes} {c : Char} {bs : List Boundary}
    (apart : ∀ b ∈ bs, BetweenChars (before ++ (String.utf8EncodeChar c ++ after)) b.offset) :
    laid before.length (String.utf8EncodeChar c) bs =
      (bs.filter fun b => b.offset = before.length).map .tag ++
        (String.utf8EncodeChar c).map .byte := by
  obtain ⟨first, more, bytes, rest⟩ : ∃ first more, String.utf8EncodeChar c = first :: more ∧
      ∀ b ∈ more, isContinuation b = true := by
    rcases encodedChar c with ⟨_, bytes⟩ | ⟨_, first, more, bytes, _, rest⟩
    · exact ⟨_, [], bytes, by simp⟩
    · exact ⟨first, more, bytes, rest⟩
  rw [bytes] at apart ⊢
  have elsewhere : ∀ b ∈ bs, b.offset < before.length + 1 ∨
      before.length + 1 + more.length ≤ b.offset := by
    intro b inside
    by_contra within
    obtain ⟨j, place⟩ : ∃ j, b.offset = before.length + (j + 1) :=
      ⟨b.offset - before.length - 1, by omega⟩
    have short : j < more.length := by omega
    have byte : (before ++ (first :: more ++ after))[b.offset]? = some more[j] := by
      rw [place, List.getElem?_append_right (by omega), Nat.add_sub_cancel_left, List.cons_append,
        List.getElem?_cons_succ, List.getElem?_append_left short, List.getElem?_eq_getElem short]
    have whole := apart b inside more[j] byte
    rw [rest _ (List.getElem_mem short)] at whole
    cases whole
  rw [← List.singleton_append, laidAppend, List.length_singleton, laidPlain elsewhere]
  simp [laid]

theorem piecesOverlaid (uncalled : List Declaration) {bs : List Boundary} {before : Bytes}
    {cs : List Char} (apart : ∀ b ∈ bs,
      BetweenChars (before ++ cs.flatMap String.utf8EncodeChar) b.offset) :
    (laid before.length (cs.flatMap String.utf8EncodeChar) bs).flatMap (Piece.text uncalled) =
      (overlaid uncalled bs before.length cs).flatMap String.utf8EncodeChar := by
  induction cs generalizing before with
  | nil => rfl
  | cons c cs ih =>
    rw [List.flatMap_cons] at apart
    have first := charLaid apart
    have rest := @ih (before ++ String.utf8EncodeChar c) (by rwa [List.append_assoc])
    have tags : ((bs.filter fun b => b.offset = before.length).map Piece.tag).flatMap
        (Piece.text uncalled) =
          (tagsAt uncalled bs before.length).flatMap String.utf8EncodeChar := by
      rw [List.flatMap_map, tagsAt, List.flatMap_assoc]
      rfl
    have bytes : ((String.utf8EncodeChar c).map Piece.byte).flatMap (Piece.text uncalled) =
        (charText c).flatMap String.utf8EncodeChar := by
      rw [List.flatMap_map, ← charBytes]
      rfl
    rw [List.length_append, String.length_utf8EncodeChar] at rest
    rw [List.flatMap_cons, laidAppend, String.length_utf8EncodeChar, first, overlaid,
      List.flatMap_append, List.flatMap_append, rest, tags, bytes, List.flatMap_append,
      List.flatMap_append]

theorem markupOverlaid (uncalled : List Declaration) {s : String} {bs : List Boundary}
    (ahead : Ahead 0 bs) (apart : ∀ b ∈ bs, BetweenChars (Text.encode s) b.offset) :
    (markup uncalled (Text.encode s) bs).toList = overlaid uncalled bs 0 s.toList := by
  have bytes : (laid 0 (Text.encode s) bs).flatMap (Piece.text uncalled) =
      (overlaid uncalled bs 0 s.toList).flatMap String.utf8EncodeChar :=
    @piecesOverlaid uncalled bs [] s.toList apart
  have read := Text.lossyEncode (String.ofList (overlaid uncalled bs 0 s.toList)) []
  rw [Text.encode, String.toList_ofList, ← bytes, List.append_nil] at read
  rw [markup, Text.decodeLossy, String.toList_ofList, piecesLaid ahead]
  exact read.trans (List.append_nil _)

def untagged (text : List Char) : List Char := outside '<' '>' false text

def entities : List (Char × String) := [('>', "&gt;"), ('<', "&lt;"), ('&', "&amp;")]

def widened (cs : List Char) : List Char :=
  cs.flatMap fun c => if c = '\t' then List.replicate 8 ' ' else [c]

theorem untaggedTags (uncalled : List Declaration) (bs : List Boundary) (o : Nat)
    (rest : List Char) : untagged (tagsAt uncalled bs o ++ rest) = untagged rest := by
  have single (body : String) (bare : Bare body) (later : List Char) :
      untagged ((Page.tag body).toList ++ later) = untagged later := by
    have text : (Page.tag body).toList ++ later = '<' :: (body.toList ++ '>' :: later) := by
      simp [Page.tag]
    rw [text]
    exact outsideClosed bare.2 later
  unfold tagsAt
  induction bs.filter fun b => b.offset = o with
  | nil => rfl
  | cons b bs ih =>
    rw [List.flatMap_cons, List.append_assoc, tagTextBody, single _ (tagBodyBare uncalled b), ih]

theorem charTextPlain (c : Char) : '<' ∉ charText c := by
  unfold charText
  split_ifs with greater less
  · decide
  · decide
  · decide
  · decide
  · exact fun inside => less (List.mem_singleton.mp inside).symm

theorem overlaidUntagged (uncalled : List Declaration) (bs : List Boundary) (o : Nat)
    (cs : List Char) : untagged (overlaid uncalled bs o cs) = cs.flatMap charText := by
  induction cs generalizing o with
  | nil => rfl
  | cons c cs ih =>
    rw [overlaid, List.append_assoc, untaggedTags, List.flatMap_cons, ← ih (o + c.utf8Size)]
    exact outsidePlain (charTextPlain c) _

theorem entitiesReadable : Page.Readable entities := by
  constructor <;> decide

theorem charEntry (c : Char) : charText c = (widened [c]).flatMap (Page.entry entities) := by
  by_cases tab : c = '\t'
  · subst tab
    decide
  · simp [charText, widened, tab, Page.entry, entities]

theorem unescapeWidened (cs : List Char) :
    Page.unescape entities (cs.flatMap charText) = widened cs := by
  have shown : cs.flatMap charText = (widened cs).flatMap (Page.entry entities) := by
    rw [widened, List.flatMap_assoc]
    refine List.flatMap_congr fun c _ => ?_
    rw [charEntry, widened, List.flatMap_singleton]
  rw [shown, Page.unescapeText entitiesReadable]

/- A text from which the source is read back: without its tags and entities it is the source with
its tabs widened, and the tags of the boundaries at an offset stand right before the character
there. -/
structure ReadsBack (r : Report) (path s : String) (bs : List Boundary) (text : String) : Prop
    extends Marks r path (Text.encode s) bs text where
  read : Page.unescape entities (untagged text.toList) = widened s.toList
  layout : text.toList = overlaid (uncalledIn r path) bs 0 s.toList

theorem readsBack {r : Report} {path s : String} {bs : List Boundary}
    (sorted : bs.Pairwise fun a b => a.offset ≤ b.offset)
    (apart : ∀ b ∈ bs, BetweenChars (Text.encode s) b.offset)
    (marks : Marks r path (Text.encode s) bs (markup (uncalledIn r path) (Text.encode s) bs)) :
    ∃ text, ReadsBack r path s bs text := by
  have layout := markupOverlaid (uncalledIn r path) ⟨sorted, fun _ _ => Nat.zero_le _⟩ apart
  refine ⟨_, marks, ?_, layout⟩
  rw [layout, overlaidUntagged, unescapeWidened]

end Overlay

/- Boundaries in their order, each at the first byte of a character: the source is read back from
what is shown of it, and every `<` opens the tag of a boundary, in their order. Only a heat out of
range keeps the text back. -/
theorem sourceReadBack {s : String} {bs : List Boundary}
    (sorted : bs.Pairwise fun a b => a.offset ≤ b.offset)
    (within : ∀ b ∈ bs, b.offset < (Text.encode s).length)
    (apart : ∀ b ∈ bs, Text.BetweenChars (Text.encode s) b.offset) (r : Report) (path : String) :
    ((∃ text, Overlay.ReadsBack r path s bs text) ∨
      (annotate r path (Text.encode s) bs = .error .overflow ∧
        ∃ b ∈ bs, b.start = true ∧ 0 < b.count ∧ Nat.pow 2 32 ≤ Overlay.heat b)) ∧
    (Overlay.Cool bs → ∃ text, Overlay.ReadsBack r path s bs text) := by
  constructor
  · exact (Overlay.annotateMarks sorted within r path).imp_left (Overlay.readsBack sorted apart)
  · intro cool
    exact Overlay.readsBack sorted apart (Overlay.marksCool sorted within cool r path)

/- A tag, a tab and an entity of the source's own, with an end and a start before its longest
character, at a count that is half of the way to the highest. -/
def trickyText : String := "<b>\té&lt;"

def trickyBoundaries : List Boundary :=
  [⟨0, true, 0, 0⟩, ⟨4, false, 0, 0⟩, ⟨4, true, 3, 0.5⟩, ⟨6, false, 0, 0⟩]

theorem trickyReadBack : ∃ text,
    annotate .empty "b.go" (Text.encode trickyText) trickyBoundaries = .ok text ∧
    text.toList = ("<span class=\"cov0\" title=\"0\">&lt;b&gt;        </span>" ++
      "<span class=\"cov5\" title=\"3\">é</span>&amp;lt;").toList ∧
    Page.unescape Overlay.entities (Overlay.untagged text.toList) = "<b>        é&lt;".toList := by
  have cool : ∀ b ∈ trickyBoundaries, Overlay.heat b < Nat.pow 2 32 := by decide +kernel
  obtain ⟨text, back⟩ := (@sourceReadBack trickyText trickyBoundaries (by decide)
    (by decide +kernel) (by decide +kernel) .empty "b.go").2 fun b inside _ _ => cool b inside
  exact ⟨text, back.shown, back.layout.trans (by decide +kernel),
    back.read.trans (by decide +kernel)⟩

end Uncalled
