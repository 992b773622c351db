import Mathlib.Data.List.Forall2
import Mathlib.Data.List.Induction
import Uncalled.Declaration
import Uncalled.Proofs.AlikeFiles
import Uncalled.Proofs.Decoding
import Uncalled.Proofs.TokenEnds
/-! Where declared functions stand. The scanner counts rows and columns as it goes, so the points of
a token are those of its bytes. Tokens come in the order of the bytes they begin at, each begins
with the bytes that its kind is written with, and a parser leaves the end of the tokens it was
given. So a function begins at its keyword, the braces of its body follow in order, and the next
function begins after them. The last byte of a body is a brace and no line break, so it stands in
the row of the point behind it and one column before. -/
namespace Uncalled.Source
open Text (Bytes Head head headOf leadOne headShown)

variable {src : Bytes} {ts rest : List Token}

def Point.Of (src : Bytes) (p : Point) : Prop := p = Point.origin.after (src.take p.offset)

theorem Point.Of.further {p : Point} (counted : p.Of src) (w : Nat) :
    (p.after ((src.drop p.offset).take w)).Of src ∧
      src.drop (p.after ((src.drop p.offset).take w)).offset = (src.drop p.offset).drop w := by
  rw [Of, afterOffset, List.length_take, ← List.drop_drop, ← List.drop_eq_drop_min, List.take_add,
    afterAppend, ← counted, ← List.take_eq_take_min]
  exact ⟨rfl, rfl⟩

/- What the scanner reads where a token starts is this token, up to where it stops. -/
structure Token.Stands (src : Bytes) (t : Token) : Prop where
  start : t.start.Of src
  stop : t.stop.Of src
  read : ∃ n b bs w, src.drop t.start.offset = b :: bs ∧ lexeme? (n + 1) b bs = some (t.kind, w) ∧
    t.stop.offset = t.start.offset + w

structure Laid (src : Bytes) (ts : List Token) : Prop where
  stands : ∀ t ∈ ts, t.Stands src
  ordered : ts.Pairwise fun t u => t.stop.offset ≤ u.start.offset

theorem Laid.suffix (laid : Laid src ts) (left : rest <:+ ts) : Laid src rest :=
  ⟨fun t member => laid.stands t (left.subset member), laid.ordered.sublist left.sublist⟩

theorem Laid.nil : Laid src [] := ⟨by simp, .nil⟩

theorem Laid.cons {t : Token} (stands : t.Stands src)
    (first : ∀ u ∈ ts, t.stop.offset ≤ u.start.offset) (laid : Laid src ts) : Laid src (t :: ts) :=
  ⟨List.forall_mem_cons.mpr ⟨stands, laid.stands⟩,
    List.pairwise_cons.mpr ⟨first, laid.ordered⟩⟩

theorem Token.Stands.wide {t : Token} (stands : t.Stands src) : t.start.offset < t.stop.offset := by
  obtain ⟨n, b, bs, w, -, lexed, stop⟩ := stands.read
  have wide : 0 < w := (lexemeWidth lexed).1
  omega

theorem laidFrom {n : Nat} {p : Point} {newline comment : Bool} {bs : Bytes} (counted : p.Of src)
    (left : src.drop p.offset = bs) (read : tokensFrom n p newline comment bs = some ts) :
    Laid src ts ∧ ∀ t ∈ ts, p.offset ≤ t.start.offset := by
  fun_induction tokensFrom n p newline comment bs generalizing ts with
  | case1 =>
    cases read
    exact ⟨.nil, by simp⟩
  | case2 => cases read
  | case3 n p newline comment b bs blank ih =>
    have next := counted.further 1
    rw [left] at next
    obtain ⟨laid, after⟩ := ih next.1 next.2 read
    rw [Point.nextOffset] at after
    exact ⟨laid, fun t member => Nat.le_of_add_right_le (after t member)⟩
  | case4 n p newline comment b bs dark w remark ih =>
    have next := counted.further w
    rw [left] at next
    obtain ⟨laid, after⟩ := ih next.1 next.2 read
    rw [Point.afterOffset] at after
    exact ⟨laid, fun t member => Nat.le_of_add_right_le (after t member)⟩
  | case5 => cases read
  | case6 n p newline comment b bs dark plain kind w lexed ih =>
    have next := counted.further w
    rw [left] at next
    obtain ⟨us, more, rfl⟩ := Option.map_eq_some_iff.mp read
    obtain ⟨laid, after⟩ := ih next.1 next.2 more
    have place : (p.after ((b :: bs).take w)).offset = p.offset + w :=
      Point.afterTake p (lexemeWidth lexed).2
    refine ⟨laid.cons ⟨counted, next.1, n, b, bs, w, left, lexed, place⟩ after,
      List.forall_mem_cons.mpr ⟨Nat.le_refl _, fun t member => ?_⟩⟩
    exact Nat.le_of_add_right_le (place ▸ after t member)

theorem tokensLaid (read : tokens? src = some ts) : Laid src ts := by
  have begun := @Point.Of.further src .origin rfl (markWidth src)
  exact (laidFrom begun.1 begun.2 read).1

theorem keywordSpelled {text : String} {k : Keyword} (found : keyword? text = some k) :
    text = k.spelling := by
  have spelled : ∀ entry ∈ keywords, entry.1 = entry.2.spelling := by decide
  obtain ⟨before, after, split, -⟩ := List.lookup_eq_some_iff.mp found
  exact spelled (text, k) (by rw [split]; simp)

theorem keywordPlain (k : Keyword) : ∀ c ∈ k.spelling.toList, 0 < c.toNat ∧ c.toNat < 128 := by
  have plain : k.spelling.toList.all (fun c => 0 < c.toNat ∧ c.toNat < 128) = true := by
    cases k <;> decide
  exact fun c member => of_decide_eq_true (List.all_eq_true.mp plain c member)

theorem runWritten (n : Nat) (bs : Bytes)
    (plain : ∀ c ∈ (nameRun n bs).1, 0 < c.toNat ∧ c.toNat < 128) :
    (nameRun n bs).1.map byte <+: bs := by
  fun_induction nameRun n bs with
  | case1 => exact List.nil_prefix
  | case2 => exact List.nil_prefix
  | case3 => exact List.nil_prefix
  | case4 n b bs c more read inside tail ih =>
    obtain ⟨positive, ascii⟩ := plain c List.mem_cons_self
    have first : b = UInt8.ofNat c.toNat := headShown positive ascii (by rw [read]; rfl)
    have single : more = 0 := by
      have short : head (UInt8.ofNat c.toNat) bs = .char (Char.ofNat c.toNat) 0 :=
        headOf (leadOne ascii) rfl
      rw [← first, read] at short
      exact (Head.char.inj short).2
    subst single
    rw [List.map_cons, List.cons_prefix_cons]
    exact ⟨first.symm, ih fun c member => plain c (List.mem_cons_of_mem _ member)⟩
  | case5 => exact List.nil_prefix

theorem nameFound {n : Nat} {b : UInt8} {bs : Bytes} {kind : Lexeme} {w : Nat}
    (read : name? n b bs = some (kind, w)) :
    nameLexeme (String.ofList (nameRun n (b :: bs)).1) = kind := by
  unfold name? at read
  split at read
  · cases read
  · split at read
    · exact (Prod.mk.inj (Option.some.inj read)).1
    · cases read

theorem wordWritten {t : Token} {k : Keyword} (stands : t.Stands src) (kind : t.kind = .word k) :
    k.spelling.toList.map byte <+: src.drop t.start.offset := by
  obtain ⟨n, b, bs, w, left, lexed, -⟩ := stands.read
  rw [kind] at lexed
  rw [left]
  cases lexemeFound lexed with
  | name read =>
    have same := nameFound read
    unfold nameLexeme at same
    split at same
    · next found =>
      cases same
      have spelled := congrArg String.toList (keywordSpelled found)
      rw [String.toList_ofList] at spelled
      rw [← spelled]
      exact runWritten (n + 1) (b :: bs) (spelled ▸ keywordPlain k)
    · cases same
  | mark read =>
    obtain ⟨m, -, same⟩ := Option.map_eq_some_iff.mp read
    cases same

theorem markWritten {t : Token} {m : Mark} (stands : t.Stands src) (kind : t.kind = .mark m) :
    ∃ cs, (cs, m) ∈ marks ∧ cs.map byte <+: src.drop t.start.offset ∧
      t.stop.offset = t.start.offset + cs.length := by
  obtain ⟨n, b, bs, w, left, lexed, stop⟩ := stands.read
  rw [kind] at lexed
  rw [left]
  cases lexemeFound lexed with
  | name read =>
    have same := nameFound read
    unfold nameLexeme at same
    split at same <;> cases same
  | mark read =>
    obtain ⟨entry, found, same⟩ := Option.map_eq_some_iff.mp read
    cases same
    have starts := List.find?_some found
    exact ⟨entry.1, List.mem_of_find?_eq_some found, (startsIff _ _).mp starts, stop⟩

theorem markByte {t : Token} {m : Mark} {c : Char}
    (single : ∀ entry ∈ marks, entry.2 = m → entry.1 = [c]) (stands : t.Stands src)
    (kind : t.kind = .mark m) :
    src[t.start.offset]? = some (byte c) ∧ t.stop.offset = t.start.offset + 1 := by
  obtain ⟨cs, member, ⟨more, written⟩, stop⟩ := markWritten stands kind
  obtain rfl : cs = [c] := single _ member rfl
  rw [← List.head?_drop, ← written]
  exact ⟨rfl, stop⟩

theorem bound {α β : Type} {p : Parser α} {next : α → Parser β} {y : β}
    (ran : (p >>= next) ts = some (y, rest)) :
    ∃ x mid, p ts = some (x, mid) ∧ next x mid = some (y, rest) := by
  obtain ⟨⟨x, mid⟩, first, second⟩ := Option.bind_eq_some_iff.mp ran
  exact ⟨x, mid, first, second⟩

theorem tried {α : Type} {p q : Parser α} {x : α} (ran : (p <|> q) ts = some (x, rest)) :
    p ts = some (x, rest) ∨ q ts = some (x, rest) := by
  change (p ts).orElse (fun _ => q ts) = some (x, rest) at ran
  cases first : p ts with
  | none =>
    rw [first] at ran
    exact .inr ran
  | some found =>
    rw [first] at ran
    exact .inl ran

theorem taken {kind : Lexeme} {t : Token} (ran : take kind ts = some (t, rest)) :
    t.kind = kind ∧ ts = t :: rest := by
  cases ts with
  | nil => cases ran
  | cons u us =>
    rw [take] at ran
    split at ran
    · next same =>
      cases ran
      exact ⟨same, rfl⟩
    · cases ran

theorem peeked {next : Option Lexeme} (ran : peek ts = some (next, rest)) : rest = ts :=
  (Prod.mk.inj (Option.some.inj ran)).2.symm

/- The braces of a body stand among the tokens, and the second is the last before `rest`. -/
def Braced (ts : List Token) (b : Body) (rest : List Token) : Prop :=
  ∃ before o inside c, ts = before ++ o :: (inside ++ c :: rest) ∧
    o.kind = .mark .lbrace ∧ o.start = b.start ∧ c.kind = .mark .rbrace ∧ c.stop = b.stop

/- A parser that ends where the body ends that its value shows, if it shows one. -/
def Closes {α : Type} (shown : α → Option Body → Prop) (p : Parser α) : Prop :=
  ∀ ts x rest, p ts = some (x, rest) →
    rest <:+ ts ∧ ∃ body, shown x body ∧ ∀ b ∈ body, Braced ts b rest

namespace Closes

variable {α β : Type} {shown : α → Option Body → Prop}

theorem pure {x : α} (silent : shown x none) : Closes shown (Pure.pure x : Parser α) := by
  intro ts y rest ran
  cases ran
  exact ⟨List.suffix_rfl, none, silent, by simp⟩

theorem ite {c : Prop} [Decidable c] {p q : Parser α} (yes : Closes shown p)
    (no : Closes shown q) : Closes shown (if c then p else q) := by
  split
  · exact yes
  · exact no

theorem after [Fade β] {p : Parser β} {next : β → Parser α} (first : Fair false p)
    (last : ∀ x, Closes shown (next x)) : Closes shown (p >>= next) := by
  intro ts y rest ran
  obtain ⟨x, mid, begun, ended⟩ := bound ran
  obtain ⟨left, body, whole, braced⟩ := last x mid y rest ended
  obtain ⟨front, rfl⟩ := first.suffix begun
  refine ⟨left.trans (List.suffix_append ..), body, whole, fun b member => ?_⟩
  obtain ⟨before, o, inside, c, rfl, kinds⟩ := braced b member
  exact ⟨front ++ before, o, inside, c, by rw [List.append_assoc], kinds⟩

theorem map {shown' : β → Option Body → Prop} {p : Parser α} {f : α → β} (last : Closes shown p)
    (same : ∀ x body, shown x body → shown' (f x) body) : Closes shown' (do return f (← p)) := by
  intro ts y rest ran
  obtain ⟨x, mid, begun, ended⟩ := bound ran
  cases ended
  obtain ⟨left, body, whole, braced⟩ := last ts x rest begun
  exact ⟨left, body, same x body whole, braced⟩

end Closes

section
variable {g : Grammar} (fair : g.Fair false)
include fair

theorem blockCloses : Closes (fun b body => body = some b) (block g) := by
  intro ts x rest ran
  obtain ⟨o, mid, opened, more⟩ := bound ran
  obtain ⟨list, mid', inner, more⟩ := bound more
  obtain ⟨c, mid'', closed, more⟩ := bound more
  cases more
  obtain ⟨opening, rfl⟩ := taken opened
  obtain ⟨closing, rfl⟩ := taken closed
  obtain ⟨inside, rfl⟩ := (statementsFair fair _).suffix inner
  refine ⟨(blockFair fair).suffix ran, _, rfl, fun b same => ?_⟩
  cases same
  exact ⟨[], o, inside, c, rfl, opening, rfl, closing, rfl⟩

theorem signatureCloses : Closes (fun s body => body = s.2) (signature g) := by
  refine .after (parametersFair fair) fun _ => .after (resultFair fair _) fun given => ?_
  exact .after (peekHereFair _) fun _ => .ite (.map (blockCloses fair) fun _ _ => id) (.pure rfl)

theorem functionCloses : ∃ more : Token → Parser Function, function g = (word .func >>= more) ∧
    ∀ t, Closes (fun f body => t.start = f.start ∧ body = f.body) (more t) := by
  refine ⟨_, rfl, fun t => .after (nextIsFair _) fun _ => ?_⟩
  have declared (id : String) (receiver : Option (List Parameter)) :
      Closes (fun f body => t.start = f.start ∧ body = f.body) (do
        let s ← signature g
        return Function.mk t.start id receiver s.1 s.2) :=
    .map (signatureCloses fair) fun _ _ same => ⟨rfl, same⟩
  refine .ite (.after (parametersFair fair) fun receiver => .after nameFair fun id => ?_) ?_
  · exact declared id (some receiver)
  · refine .after nameFair fun id => .after (nextIsFair _) fun _ => .ite ?_ (declared id none)
    exact .after (typeParametersFair fair) fun _ => declared id none

theorem functionBegins {f : Function} (ran : function g ts = some (f, rest)) :
    ∃ t after, ts = t :: after ∧ t.kind = .word .func ∧ t.start = f.start ∧ rest <:+ after ∧
      ∀ b ∈ f.body, Braced after b rest := by
  obtain ⟨next, same, closes⟩ := functionCloses fair
  rw [same] at ran
  obtain ⟨t, after, started, ended⟩ := bound ran
  obtain ⟨kind, rfl⟩ := taken started
  obtain ⟨left, body, ⟨place, rfl⟩, braced⟩ := closes t after f rest ended
  exact ⟨t, after, rfl, kind, place, left, braced⟩

end

/- The braces of a body are its first and its last byte. -/
structure Body.Placed (src : Bytes) (b : Body) : Prop where
  start : b.start.Of src
  stop : b.stop.Of src
  wide : b.start.offset + 1 < b.stop.offset
  opening : src[b.start.offset]? = some 0x7b
  closing : src[b.stop.offset - 1]? = some 0x7d

/- A function stands where it says: at its keyword, with its braces after it. -/
structure Function.Placed (src : Bytes) (f : Function) : Prop where
  start : f.start.Of src
  keyword : Text.encode "func" <+: src.drop f.start.offset
  body : ∀ b ∈ f.body, f.start.offset < b.start.offset ∧ b.Placed src

def Function.Before (f : Function) (offset : Nat) : Prop :=
  f.start.offset < offset ∧ ∀ b ∈ f.body, b.stop.offset ≤ offset

theorem bracesPlaced {b : Body} (laid : Laid src ts) (braced : Braced ts b rest) :
    b.Placed src ∧ (∃ o ∈ ts, o.start = b.start) ∧ ∀ u ∈ rest, b.stop.offset ≤ u.start.offset := by
  obtain ⟨before, o, inside, c, rfl, opens, opening, closes, closing⟩ := braced
  have first := laid.stands o (by simp)
  have last := laid.stands c (by simp)
  obtain ⟨-, ordered, -⟩ := List.pairwise_append.mp laid.ordered
  obtain ⟨later, ordered⟩ := List.pairwise_cons.mp ordered
  obtain ⟨-, ordered, -⟩ := List.pairwise_append.mp ordered
  obtain ⟨left, wide⟩ := markByte (c := '\x7b') (by decide) first opens
  obtain ⟨right, ends⟩ := markByte (c := '\x7d') (by decide) last closes
  have apart := later c (by simp)
  rw [← opening, ← closing]
  refine ⟨⟨opening ▸ first.start, closing ▸ last.stop, ?_, ?_, ?_⟩, ⟨o, by simp, rfl⟩,
    (List.pairwise_cons.mp ordered).1⟩
  · rw [← opening, ← closing]
    omega
  · rw [← opening]
    exact left
  · rw [← closing, ends, Nat.add_sub_cancel]
    exact right

theorem functionPlaced {g : Grammar} (fair : g.Fair false) {f : Function} (laid : Laid src ts)
    (ran : function g ts = some (f, rest)) :
    f.Placed src ∧ (∃ t ∈ ts, t.start = f.start) ∧ ∀ u ∈ rest, f.Before u.start.offset := by
  obtain ⟨t, after, rfl, kind, place, left, braced⟩ := functionBegins fair ran
  obtain ⟨first, -⟩ := List.pairwise_cons.mp laid.ordered
  have stands := laid.stands t List.mem_cons_self
  have wide := stands.wide
  have written := wordWritten stands kind
  rw [place] at wide written
  rw [show Keyword.func.spelling.toList.map byte = Text.encode "func" by decide] at written
  have behind {u : Token} (member : u ∈ after) : f.start.offset < u.start.offset :=
    Nat.lt_of_lt_of_le wide (first u member)
  have body {b : Body} (inside : b ∈ f.body) :=
    bracesPlaced (laid.suffix (List.suffix_cons t after)) (braced b inside)
  refine ⟨⟨place ▸ stands.start, written, fun b inside => ?_⟩, ⟨t, List.mem_cons_self, place⟩,
    fun u member => ⟨behind (left.subset member), fun b inside => (body inside).2.2 u member⟩⟩
  obtain ⟨placed, ⟨o, member, opening⟩, -⟩ := body inside
  exact ⟨opening ▸ behind member, placed⟩

/- The functions that a list of tokens holds, each read after the one before it. -/
inductive Holds (g : Grammar) : List Token → List Function → Prop
  | nil (ts : List Token) : Holds g ts []
  | function {ts mid rest : List Token} {f : Function} {fs : List Function}
      (read : function g ts = some (f, mid)) (left : rest <:+ mid) (more : Holds g rest fs) :
      Holds g ts (f :: fs)
  | other {ts rest : List Token} {fs : List Function} (left : rest <:+ ts)
      (more : Holds g rest fs) : Holds g ts fs

theorem itemCases {g : Grammar} {i : Item} (ran : item g ts = some (i, rest)) :
    (∃ f, i = .function f ∧ function g ts = some (f, rest)) ∨ i.function? = none := by
  obtain ⟨next, mid, looked, more⟩ := bound ran
  rw [peeked looked] at more
  split at more
  · obtain ⟨_, mid, _, more⟩ := bound more
    obtain ⟨_, mid, _, more⟩ := bound more
    cases more
    exact .inr rfl
  · obtain ⟨_, mid, _, more⟩ := bound more
    cases more
    exact .inr rfl
  · rcases tried more with declared | stated
    · obtain ⟨f, mid, read, more⟩ := bound declared
      cases more
      exact .inl ⟨f, rfl, read⟩
    · obtain ⟨_, mid, _, more⟩ := bound stated
      cases more
      exact .inr rfl
  · obtain ⟨s, mid, _, more⟩ := bound more
    split at more <;> cases more <;> exact .inr rfl

theorem itemsHold {g : Grammar} (fair : g.Fair false) {n : Nat} {file : File}
    (ran : items g n ts = some (file, rest)) : Holds g ts (functions file) := by
  induction n generalizing ts file rest with
  | zero => cases ran
  | succ n ih =>
    obtain ⟨next, mid, looked, more⟩ := bound ran
    rw [peeked looked] at more
    split at more
    · cases more
      exact .nil ts
    · obtain ⟨first, mid, read, more⟩ := bound more
      obtain ⟨next, mid', looked, more⟩ := bound more
      rw [peeked looked] at more
      have joined {us : List Token} {file : File} (left : us <:+ mid)
          (others : Holds g us (functions file)) : Holds g ts (functions (first :: file)) := by
        rcases itemCases read with ⟨f, rfl, declared⟩ | other
        · exact .function declared left others
        · rw [functions, List.filterMap_cons_none other]
          exact .other (left.trans ((itemFair fair).suffix read)) others
      split at more
      · cases more
        exact joined List.suffix_rfl (.nil _)
      · have terminates : Fair false terminator := terminatorFair
        obtain ⟨_, mid', ended, more⟩ := bound more
        obtain ⟨file, mid'', others, more⟩ := bound more
        cases more
        exact joined (terminates.suffix ended) (ih others)

theorem holdsPlaced {g : Grammar} (fair : g.Fair false) {fs : List Function}
    (holds : Holds g ts fs) (laid : Laid src ts) :
    (∀ f ∈ fs, f.Placed src ∧ ∃ t ∈ ts, t.start = f.start) ∧
      fs.Pairwise fun f f' => f.Before f'.start.offset := by
  induction holds with
  | nil => exact ⟨by simp, .nil⟩
  | @function ts mid rest f fs read left more ih =>
    obtain ⟨placed, start, before⟩ := functionPlaced fair laid read
    have fewer : rest <:+ ts := left.trans ((functionFair fair).suffix read)
    obtain ⟨others, ordered⟩ := ih (laid.suffix fewer)
    refine ⟨List.forall_mem_cons.mpr ⟨⟨placed, start⟩, fun f' member => ?_⟩,
      List.pairwise_cons.mpr ⟨fun f' member => ?_, ordered⟩⟩
    · obtain ⟨placed, t, inside, place⟩ := others f' member
      exact ⟨placed, t, fewer.subset inside, place⟩
    · obtain ⟨-, t, inside, place⟩ := others f' member
      exact place ▸ before t (left.subset inside)
  | other left more ih =>
    obtain ⟨others, ordered⟩ := ih (laid.suffix left)
    refine ⟨fun f member => ?_, ordered⟩
    obtain ⟨placed, t, inside, place⟩ := others f member
    exact ⟨placed, t, left.subset inside, place⟩

theorem functionsPlaced {tree : File} (parsed : parse? src = some tree) :
    (∀ f ∈ functions tree, f.Placed src) ∧
      (functions tree).Pairwise fun f f' => f.Before f'.start.offset := by
  obtain ⟨ts, lexed, more⟩ := Option.bind_eq_some_iff.mp parsed
  obtain ⟨⟨file, rest⟩, read, more⟩ := Option.bind_eq_some_iff.mp more
  cases more
  have fair : (grammar (3 * ts.length + 3)).Fair false := grammarFair _
  obtain ⟨placed, ordered⟩ := holdsPlaced fair (itemsHold fair read) (tokensLaid lexed)
  exact ⟨fun f member => (placed f member).1, ordered⟩

end Uncalled.Source

namespace Uncalled
open Source (Point)
open Text (Bytes)

/- The line of a byte is one more than the line breaks before it, its column one more than the bytes
since the last of them. -/
structure Position.Counted (path : String) (src : Bytes) (p : Position) : Prop where
  file : p.file = path
  line : p.line = 1 + (src.take p.offset).count 0x0a
  column : ∃ earlier line, src.take p.offset = earlier ++ line ∧ 0x0a ∉ line ∧
    (earlier = [] ∨ earlier.getLast? = some 0x0a) ∧ p.column = 1 + line.length

theorem pointCounted (bs : Bytes) : (Point.origin.after bs).row = bs.count 0x0a ∧
    ∃ earlier line, bs = earlier ++ line ∧ 0x0a ∉ line ∧
      (earlier = [] ∨ earlier.getLast? = some 0x0a) ∧
      (Point.origin.after bs).column = line.length := by
  induction bs using List.reverseRecOn with
  | nil => exact ⟨rfl, [], [], rfl, by simp, .inl rfl, rfl⟩
  | append_singleton bs b ih =>
    obtain ⟨row, earlier, line, split, unbroken, begins, column⟩ := ih
    rw [Point.afterAppend, List.count_append, ← row]
    change ((Point.origin.after bs).next b).row = _ ∧
      ∃ earlier line, _ ∧ _ ∧ _ ∧ ((Point.origin.after bs).next b).column = _
    unfold Point.next
    by_cases feed : b = 0x0a
    · rw [if_pos feed, feed]
      exact ⟨rfl, bs ++ [0x0a], [], by simp, by simp, .inr List.getLast?_concat, rfl⟩
    · rw [if_neg feed]
      refine ⟨by simp [feed], earlier, line ++ [b], ?_, ?_, begins, ?_⟩
      · rw [split, List.append_assoc]
      · simp [unbroken, Ne.symm feed]
      · rw [column, List.length_append]
        rfl

theorem startCounted (path : String) {src : Bytes} {p : Point} (counted : p.Of src) :
    (Position.startOf path p).Counted path src := by
  obtain ⟨row, earlier, line, split, unbroken, begins, column⟩ := pointCounted (src.take p.offset)
  rw [← counted] at row column
  refine ⟨rfl, ?_, earlier, line, split, unbroken, begins, ?_⟩
  · exact (congrArg (· + 1) row).trans (Nat.add_comm ..)
  · exact (congrArg (· + 1) column).trans (Nat.add_comm ..)

theorem lastOfNext (path : String) (p : Point) {b : UInt8} (unbroken : b ≠ 0x0a) :
    Position.lastOf path (p.next b) = Position.startOf path p := by
  rw [Position.lastOf, Position.startOf, Point.next, if_neg unbroken]
  simp

theorem lastCounted (path : String) {src : Bytes} {p : Point} {b : UInt8} (counted : p.Of src)
    (behind : 0 < p.offset) (last : src[p.offset - 1]? = some b) (unbroken : b ≠ 0x0a) :
    (Position.lastOf path p).Counted path src := by
  let q := Point.origin.after (src.take (p.offset - 1))
  obtain ⟨within, -⟩ := List.getElem?_eq_some_iff.mp last
  have place : q.offset = p.offset - 1 :=
    (Point.afterTake .origin within.le).trans (Nat.zero_add _)
  have own : q.Of src := by rw [Point.Of, place]
  have next : p = q.next b := by
    rw [counted, ← Nat.sub_add_cancel behind, List.take_add_one, last, Point.afterAppend]
    rfl
  rw [next, lastOfNext path q unbroken]
  exact startCounted path own

namespace Declaration

def positions (d : Declaration) : List Position := d.start :: (d.opening.toList ++ d.closing.toList)

structure Placed (path : String) (src : Bytes) (f : Source.Function) (d : Declaration) : Prop where
  file : d.file = path
  keyword : Text.encode "func" <+: src.drop d.start.offset
  body : (f.body = none ∧ d.opening = none ∧ d.closing = none) ∨
    ∃ b o c, f.body = some b ∧ d.opening = some o ∧ d.closing = some c ∧
      d.start.offset < o.offset ∧ o.offset < c.offset ∧ c.offset < src.length ∧
      src[o.offset]? = some 0x7b ∧ src[c.offset]? = some 0x7d
  counted : ∀ p ∈ d.positions, p.Counted path src

theorem ofFunctionPlaced (path : String) {src : Bytes} {f : Source.Function}
    (placed : f.Placed src) : Placed path src f (ofFunction path f) := by
  refine ⟨rfl, placed.keyword, ?_, ?_⟩
  · cases body : f.body with
    | none => exact .inl ⟨rfl, by simp [ofFunction, body], by simp [ofFunction, body]⟩
    | some b =>
      obtain ⟨after, braces⟩ := placed.body b body
      refine .inr ⟨b, .startOf path b.start, .lastOf path b.stop, rfl, by simp [ofFunction, body],
        by simp [ofFunction, body], after, Nat.lt_sub_of_add_lt braces.wide, ?_, braces.opening,
        braces.closing⟩
      exact (List.getElem?_eq_some_iff.mp braces.closing).1
  · intro p member
    have start := startCounted path placed.start
    cases body : f.body with
    | none =>
      simp only [positions, ofFunction, body, Option.map_none, Option.toList_none, List.append_nil,
        List.mem_singleton] at member
      exact member ▸ start
    | some b =>
      have braces := (placed.body b body).2
      simp only [positions, ofFunction, body, Option.map_some, Option.toList_some, List.mem_cons,
        List.cons_append, List.nil_append, List.not_mem_nil, or_false] at member
      rcases member with rfl | rfl | rfl
      · exact start
      · exact startCounted path braces.start
      · have wide := braces.wide
        exact lastCounted path braces.stop (by omega) braces.closing (by decide)

end Declaration

/- Every function of a source is declared once and in order, from its keyword to the brace that
closes its body, and the lines and columns of these places are counted in the source itself. -/
theorem declarationsPlaced {path : String} {src : Bytes} {tree : Source.File}
    (parsed : Source.parse? src = some tree) :
    List.Forall₂ (Declaration.Placed path src) (Source.functions tree)
        (Declaration.collect path tree) ∧
      (Declaration.collect path tree).Pairwise fun d e =>
        d.start.offset < e.start.offset ∧ ∀ c ∈ d.closing, c.offset < e.start.offset := by
  obtain ⟨placed, ordered⟩ := Source.functionsPlaced parsed
  constructor
  · rw [Declaration.collect, List.forall₂_map_right_iff, List.forall₂_same]
    exact fun f member => Declaration.ofFunctionPlaced path (placed f member)
  · refine List.pairwise_map.mpr (ordered.imp_of_mem fun {f f'} member _ before =>
      ⟨before.1, fun c closing => ?_⟩)
    obtain ⟨b, body, rfl⟩ := Option.map_eq_some_iff.mp closing
    have wide := ((placed f member).body b body).2.wide
    have ends := before.2 b body
    change b.stop.offset - 1 < f'.start.offset
    omega

/- A byte-order mark, a method with braces inside its body, a function without a body, and two on
one line. -/
def jugFile : Bytes := Text.encode
  ("\uFEFFfunc (j *Jug) Pour() \x7b\n\t\x7b spill() \x7d\n\x7d\n" ++
    "func sip()\nfunc gulp() \x7b\x7d; func pour() \x7b\x7d")

theorem fourDeclarationsPlaced : ∃ tree, Source.parse? jugFile = some tree ∧
    (Declaration.collect "jug.go" tree).map (fun d => (d.start, d.closing)) =
      [(⟨"jug.go", 3, 1, 4⟩, some ⟨"jug.go", 39, 3, 1⟩), (⟨"jug.go", 41, 4, 1⟩, none),
        (⟨"jug.go", 52, 5, 1⟩, some ⟨"jug.go", 65, 5, 14⟩),
        (⟨"jug.go", 68, 5, 17⟩, some ⟨"jug.go", 81, 5, 30⟩)] ∧
    List.Forall₂ (Declaration.Placed "jug.go" jugFile) (Source.functions tree)
        (Declaration.collect "jug.go" tree) ∧
      (Declaration.collect "jug.go" tree).Pairwise fun d e =>
        d.start.offset < e.start.offset ∧ ∀ c ∈ d.closing, c.offset < e.start.offset := by
  have shown : (Source.parse? jugFile).map (fun tree => (Declaration.collect "jug.go" tree).map
      fun d => (d.start, d.closing)) =
      some [(⟨"jug.go", 3, 1, 4⟩, some ⟨"jug.go", 39, 3, 1⟩), (⟨"jug.go", 41, 4, 1⟩, none),
        (⟨"jug.go", 52, 5, 1⟩, some ⟨"jug.go", 65, 5, 14⟩),
        (⟨"jug.go", 68, 5, 17⟩, some ⟨"jug.go", 81, 5, 30⟩)] := by decide +kernel
  obtain ⟨tree, parsed, places⟩ := Option.map_eq_some_iff.mp shown
  exact ⟨tree, parsed, places, declarationsPlaced parsed⟩

end Uncalled
