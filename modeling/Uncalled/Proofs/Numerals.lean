import Uncalled.Proofs.Lists
import Uncalled.Source.Lexer
/-! How far a number reaches. The scanner collects every way to read a number and takes the longest;
here the ways are put together from small readings, and each reading is shown to be local. What it
reads inside a text it also reads in the text cut short behind it, text that comes after it can only
make it longer, and a blank ends it. So a number stays what it is when a blank is put anywhere
behind it. -/
namespace Uncalled.Source
open Text (Bytes)

/- What a run of digits may leave behind itself and still go on if more bytes come. -/
def Pending (bs : Bytes) : Prop := bs = [] ∨ bs = [byte '_']

section
variable {ok : UInt8 → Bool}

theorem moreCons (b : UInt8) (bs : Bytes) : moreDigits ok (b :: bs) =
    if ok b then 1 + moreDigits ok bs
    else if b = byte '_' ∧ bs.head?.any ok then 2 + moreDigits ok bs.tail else 0 := by
  cases bs with
  | nil => simp [moreDigits]
  | cons c bs => rw [moreDigits]; rfl

theorem moreGrows (u v : Bytes) : moreDigits ok (u ++ v) = moreDigits ok u ∨
    Pending (u.drop (moreDigits ok u)) ∧ moreDigits ok u ≤ moreDigits ok (u ++ v) := by
  fun_induction moreDigits ok u with
  | case1 => exact .inr ⟨.inl rfl, Nat.zero_le _⟩
  | case2 b digit =>
    rw [List.singleton_append, moreCons, if_pos digit]
    exact .inr ⟨.inl rfl, Nat.le_add_right 1 _⟩
  | case3 b other =>
    rw [List.singleton_append, moreCons, if_neg other]
    split
    · next joint => exact .inr ⟨.inr (congrArg (fun b => [b]) joint.1), Nat.zero_le _⟩
    · exact .inl rfl
  | case4 b c rest digit ih =>
    rw [List.cons_append, moreCons, if_pos digit,
      Nat.add_comm 1, Nat.add_comm 1, List.drop_succ_cons]
    exact ih.imp (congrArg (· + 1)) (And.imp_right (Nat.add_le_add_right · 1))
  | case5 b c rest other joint ih =>
    rw [List.cons_append, List.cons_append, moreDigits, if_neg other, if_pos joint, Nat.add_comm 2,
      Nat.add_comm 2, List.drop_succ_cons, List.drop_succ_cons]
    exact ih.imp (congrArg (· + 2)) (And.imp_right (Nat.add_le_add_right · 2))
  | case6 b c rest other apart =>
    rw [List.cons_append, List.cons_append, moreDigits, if_neg other, if_neg apart]
    exact .inl rfl

theorem moreFits {u v : Bytes} (fits : moreDigits ok (u ++ v) ≤ u.length) :
    moreDigits ok u = moreDigits ok (u ++ v) := by
  fun_induction moreDigits ok u with
  | case1 => exact (Nat.le_zero.mp fits).symm
  | case2 b digit =>
    rw [List.singleton_append, moreCons, if_pos digit] at fits ⊢
    exact (Nat.le_antisymm fits (Nat.le_add_right 1 _)).symm
  | case3 b other =>
    rw [List.singleton_append, moreCons, if_neg other] at fits ⊢
    split at fits
    · exact absurd fits (by simp; omega)
    · next apart => rw [if_neg apart]
  | case4 b c rest digit ih =>
    rw [List.cons_append, moreCons b, if_pos digit] at fits ⊢
    rw [ih (by simp only [List.length_cons] at fits ⊢; omega)]
  | case5 b c rest other joint ih =>
    rw [List.cons_append, List.cons_append, moreDigits, if_neg other, if_pos joint] at fits ⊢
    rw [ih (by simp only [List.length_cons] at fits; omega)]
  | case6 b c rest other apart =>
    rw [List.cons_append, List.cons_append, moreDigits, if_neg other, if_neg apart]

theorem moreStops (blank : ok 0x20 = false) (u v : Bytes) :
    moreDigits ok (u ++ 0x20 :: v) ≤ u.length := by
  have stopped (v : Bytes) : moreDigits ok (0x20 :: v) = 0 := by
    rw [moreCons, if_neg (by simp [blank]), if_neg fun joint => absurd joint.1 (by decide)]
  fun_induction moreDigits ok u with
  | case1 => exact Nat.le_of_eq (stopped v)
  | case2 b digit =>
    rw [List.singleton_append, moreCons, if_pos digit, stopped v]
    exact Nat.le_refl 1
  | case3 b other => simp [moreDigits, other, blank]
  | case4 b c rest digit ih =>
    rw [List.cons_append, moreCons, if_pos digit, List.length_cons, Nat.add_comm]
    exact Nat.succ_le_succ ih
  | case5 b c rest other joint ih =>
    rw [List.cons_append, List.cons_append, moreDigits, if_neg other, if_pos joint, Nat.add_comm]
    exact Nat.add_le_add_right ih 2
  | case6 b c rest other apart =>
    rw [List.cons_append, List.cons_append, moreDigits, if_neg other, if_neg apart]
    exact Nat.zero_le _

theorem digitsGrow (u v : Bytes) : digits ok (u ++ v) = digits ok u ∨
    Pending (u.drop (digits ok u)) ∧ digits ok u ≤ digits ok (u ++ v) := by
  cases u with
  | nil => exact .inr ⟨.inl rfl, Nat.zero_le _⟩
  | cons b u =>
    rw [List.cons_append, digits, digits]
    split
    · rw [Nat.add_comm 1, Nat.add_comm 1, List.drop_succ_cons]
      exact (moreGrows u v).imp (congrArg (· + 1)) (And.imp_right (Nat.add_le_add_right · 1))
    · exact .inl rfl

theorem digitsFit {u v : Bytes} (fits : digits ok (u ++ v) ≤ u.length) :
    digits ok u = digits ok (u ++ v) := by
  cases u with
  | nil => exact (Nat.le_zero.mp fits).symm
  | cons b u =>
    rw [List.cons_append, digits, digits] at *
    split
    · next digit =>
      rw [if_pos digit, List.length_cons, Nat.add_comm] at fits
      rw [moreFits (Nat.le_of_succ_le_succ fits)]
    · rfl

theorem digitsStop (blank : ok 0x20 = false) (u v : Bytes) :
    digits ok (u ++ 0x20 :: v) ≤ u.length := by
  cases u with
  | nil => simp [digits, blank]
  | cons b u =>
    have rest := moreStops blank u v
    rw [List.cons_append, digits, List.length_cons]
    split <;> omega

end

/- `s bs w` says that `s` can read the first `w` bytes of `bs`. -/
abbrev Reading := Bytes → Nat → Prop

namespace Reading

def char (c : Char) : Reading := fun bs w => startsWith [c] bs = true ∧ w = 1

def run (ok : UInt8 → Bool) : Reading := fun bs w => digits ok bs = w ∧ 0 < w

def rest (ok : UInt8 → Bool) : Reading := fun bs w => digits ok bs = w

def or (s t : Reading) : Reading := fun bs w => s bs w ∨ t bs w

def seq (s t : Reading) : Reading := fun bs w => ∃ k j, s bs k ∧ t (bs.drop k) j ∧ w = k + j

def after (skip : Nat) (s : Reading) : Reading := fun bs w => ∃ j, s (bs.drop skip) j ∧ w = skip + j

def without (c : Char) (s : Reading) : Reading := fun bs w => startsWith [c] bs = false ∧ s bs w

structure Local (s : Reading) : Prop where
  fits : ∀ {u v : Bytes} {w : Nat}, s (u ++ v) w → w ≤ u.length → s u w
  grows : ∀ {u : Bytes} {w : Nat} (v : Bytes), s u w →
    s (u ++ v) w ∨ Pending (u.drop w) ∧ ∃ w', w ≤ w' ∧ s (u ++ v) w'
  stops : ∀ {u v : Bytes} {w : Nat}, s (u ++ 0x20 :: v) w → w ≤ u.length

theorem Local.within {s : Reading} (scanned : Local s) {bs : Bytes} {w : Nat} (read : s bs w) :
    w ≤ bs.length := by
  rcases scanned.grows [0x20] read with same | ⟨_, w', le, longer⟩
  · exact scanned.stops same
  · exact Nat.le_trans le (scanned.stops longer)

/- Nothing that follows changes the reading. -/
def Settled (s : Reading) : Prop :=
  ∀ {u : Bytes} {w : Nat} (v : Bytes), s u w → s (u ++ v) w ∧ w ≤ u.length

/- The reading takes a byte that ends a run of digits. -/
def Closed (s : Reading) : Prop := ∀ {bs : Bytes} {w : Nat}, Pending bs → ¬ s bs w

theorem startsCons (c : Char) (b : UInt8) (bs : Bytes) :
    startsWith [c] (b :: bs) = (byte c == b) := by
  simp [startsWith, List.isPrefixOf]

theorem charSettled (c : Char) : Settled (char c) := by
  rintro (_ | ⟨b, u⟩) w v ⟨starts, rfl⟩
  · cases starts
  · rw [startsCons] at starts
    exact ⟨⟨by rw [List.cons_append, startsCons, starts], rfl⟩, Nat.le_add_left 1 _⟩

theorem charLocal {c : Char} (dark : byte c ≠ 0x20) : Local (char c) where
  fits := by
    rintro (_ | ⟨b, u⟩) v w ⟨starts, rfl⟩ fits
    · cases fits
    · rw [List.cons_append, startsCons] at starts
      exact ⟨by rw [startsCons, starts], rfl⟩
  grows v read := .inl (charSettled c v read).1
  stops := by
    rintro (_ | ⟨b, u⟩) v w ⟨starts, rfl⟩
    · rw [List.nil_append, startsCons] at starts
      exact absurd (beq_iff_eq.mp starts) dark
    · exact Nat.le_add_left 1 _

theorem charClosed {c : Char} (other : byte c ≠ byte '_') : Closed (char c) := by
  rintro bs w (rfl | rfl) ⟨starts, rfl⟩
  · cases starts
  · rw [startsCons] at starts
    exact other (beq_iff_eq.mp starts)

section
variable {ok : UInt8 → Bool}

theorem restLocal (blank : ok 0x20 = false) : Local (rest ok) where
  fits := by
    rintro u v w rfl fits
    exact digitsFit fits
  grows := by
    rintro u w v rfl
    exact (digitsGrow u v).imp id fun more => ⟨more.1, _, more.2, rfl⟩
  stops := by
    rintro u v w rfl
    exact digitsStop blank u v

theorem runLocal (blank : ok 0x20 = false) : Local (run ok) where
  fits read fits := ⟨(restLocal blank).fits read.1 fits, read.2⟩
  grows := by
    rintro u w v ⟨read, positive⟩
    refine ((restLocal blank).grows v read).imp (⟨·, positive⟩) fun ⟨pending, w', le, more⟩ => ?_
    exact ⟨pending, w', le, more, Nat.lt_of_lt_of_le positive le⟩
  stops read := (restLocal blank).stops read.1

end

variable {s t : Reading}

theorem orLocal (left : Local s) (right : Local t) : Local (s.or t) where
  fits read fits := read.imp (left.fits · fits) (right.fits · fits)
  grows := by
    rintro u w v (read | read)
    · exact (left.grows v read).imp .inl fun ⟨pending, w', le, more⟩ => ⟨pending, w', le, .inl more⟩
    · exact (right.grows v read).imp .inr
        fun ⟨pending, w', le, more⟩ => ⟨pending, w', le, .inr more⟩
  stops read := read.elim left.stops right.stops

theorem orSettled (left : Settled s) (right : Settled t) : Settled (s.or t) := by
  rintro u w v (read | read)
  · exact (left v read).imp_left .inl
  · exact (right v read).imp_left .inr

/- The second part is read from the same bytes in both texts as soon as the first part ends at the
same place. -/
theorem seqLocal (first : Local s) (second : Local t)
    (joint : ∀ {u : Bytes} {k j : Nat} (v : Bytes), s u k → t (u.drop k) j →
      s (u ++ v) k ∧ k ≤ u.length) :
    Local (s.seq t) where
  fits := by
    rintro u v w ⟨k, j, read, more, rfl⟩ fits
    have inside : k ≤ u.length := Nat.le_trans (Nat.le_add_right k j) fits
    rw [List.drop_append_of_le_length inside] at more
    exact ⟨k, j, first.fits read inside, second.fits more (by rw [List.length_drop]; omega), rfl⟩
  grows := by
    rintro u w v ⟨k, j, read, more, rfl⟩
    obtain ⟨kept, inside⟩ := joint v read more
    rcases second.grows v more with same | ⟨pending, j', le, longer⟩
    · exact .inl ⟨k, j, kept, by rwa [List.drop_append_of_le_length inside], rfl⟩
    · rw [List.drop_drop] at pending
      refine .inr ⟨pending, k + j', Nat.add_le_add_left le k, k, j', kept, ?_, rfl⟩
      rwa [List.drop_append_of_le_length inside]
  stops := by
    rintro u v w ⟨k, j, read, more, rfl⟩
    have inside := first.stops read
    rw [List.drop_append_of_le_length inside] at more
    have reach := second.stops more
    rw [List.length_drop] at reach
    omega

theorem settledSeq (first : Local s) (settled : Settled s) (second : Local t) : Local (s.seq t) :=
  seqLocal first second fun v read _ => settled v read

theorem closedSeq (first : Local s) (second : Local t) (closed : Closed t) : Local (s.seq t) := by
  refine seqLocal first second fun {u k j} v read more => ?_
  rcases Nat.lt_or_ge u.length k with beyond | inside
  · rw [List.drop_eq_nil_of_le (Nat.le_of_lt beyond)] at more
    exact absurd more (closed (.inl rfl))
  · refine ⟨((first.grows v read).resolve_right fun pending => ?_), inside⟩
    exact closed pending.1 more

theorem seqClosed (closed : Closed s) : Closed (s.seq t) :=
  fun pending ⟨_, _, read, _⟩ => closed pending read

theorem orClosed (left : Closed s) (right : Closed t) : Closed (s.or t) :=
  fun pending read => read.elim (left pending) (right pending)

theorem withoutLocal (c : Char) (inner : Local s) (begins : ∀ w, ¬ s [] w) :
    Local (s.without c) where
  fits := by
    rintro (_ | ⟨b, u⟩) v w ⟨other, read⟩ fits
    · exact absurd (inner.fits read fits) (begins w)
    · rw [List.cons_append, startsCons] at other
      exact ⟨by rw [startsCons, other], inner.fits read fits⟩
  grows := by
    rintro (_ | ⟨b, u⟩) w v ⟨other, read⟩
    · exact absurd read (begins w)
    · have still : startsWith [c] (b :: u ++ v) = false := by
        rwa [List.cons_append, startsCons, ← startsCons c b u]
      exact (inner.grows v read).imp (⟨still, ·⟩) fun ⟨pending, w', le, more⟩ =>
        ⟨pending, w', le, still, more⟩
  stops read := inner.stops read.2

def radix (ok : UInt8 → Bool) : Reading := (run ok).or ((char '_').seq (run ok))

def sign : Reading := (char '+').or (char '-')

def exponent (low high : Char) : Reading :=
  ((char low).or (char high)).seq ((run isDigit).or (sign.seq (run isDigit)))

def fraction (ok : UInt8 → Bool) : Reading := (char '.').seq (rest ok)

def point (ok : UInt8 → Bool) : Reading := (char '.').seq (run ok)

def broken : Reading := ((run isDigit).seq (fraction isDigit)).or (point isDigit)

def decimal : Reading := broken.or (((run isDigit).or broken).seq (exponent 'e' 'E'))

def hexFloat : Reading :=
  ((radix isHex).or (((radix isHex).seq (fraction isHex)).or (point isHex))).seq (exponent 'p' 'P')

def based (low high : Char) (s : Reading) : Reading := ((char low).or (char high)).seq s

def integer : Reading :=
  ((char '0').or ((char '0').seq ((radix isOctal).or ((based 'x' 'X' ((radix isHex).or hexFloat)).or
    ((based 'b' 'B' (radix isBinary)).or (based 'o' 'O' (radix isOctal))))))).or
    ((run isDigit).without '0')

def number : Reading :=
  (integer.or decimal).or (((run isDigit).or (integer.or decimal)).seq (char 'i'))

section
variable {ok : UInt8 → Bool} (blank : ok 0x20 = false)
include blank

theorem radixLocal : Local (radix ok) :=
  orLocal (runLocal blank) (settledSeq (charLocal (by decide)) (charSettled _) (runLocal blank))

theorem fractionLocal : Local (fraction ok) :=
  settledSeq (charLocal (by decide)) (charSettled _) (restLocal blank)

theorem pointLocal : Local (point ok) :=
  settledSeq (charLocal (by decide)) (charSettled _) (runLocal blank)

end

theorem fractionClosed (ok : UInt8 → Bool) : Closed (fraction ok) :=
  seqClosed (charClosed (by decide))

theorem basedLocal {low high : Char} (left : byte low ≠ 0x20) (right : byte high ≠ 0x20)
    (inner : Local s) : Local (based low high s) :=
  settledSeq (orLocal (charLocal left) (charLocal right))
    (orSettled (charSettled _) (charSettled _)) inner

theorem digitsLocal : Local (run isDigit) := runLocal (by decide)

theorem exponentLocal {low high : Char} (left : byte low ≠ 0x20) (right : byte high ≠ 0x20) :
    Local (exponent low high) := by
  have signed : Local (sign.seq (run isDigit)) := basedLocal (by decide) (by decide) digitsLocal
  exact basedLocal left right (orLocal digitsLocal signed)

theorem exponentClosed {low high : Char} (left : byte low ≠ byte '_')
    (right : byte high ≠ byte '_') :
    Closed (exponent low high) :=
  seqClosed (orClosed (charClosed left) (charClosed right))

theorem decimalLocal : Local decimal := by
  have fractional : Local broken :=
    orLocal (closedSeq digitsLocal (fractionLocal (by decide)) (fractionClosed _))
      (pointLocal (by decide))
  exact orLocal fractional (closedSeq (orLocal digitsLocal fractional)
    (exponentLocal (by decide) (by decide)) (exponentClosed (by decide) (by decide)))

theorem hexFloatLocal : Local hexFloat := by
  have whole : Local (radix isHex) := radixLocal (by decide)
  have fractional : Local ((radix isHex).seq (fraction isHex)) :=
    closedSeq whole (fractionLocal (by decide)) (fractionClosed _)
  exact closedSeq (orLocal whole (orLocal fractional (pointLocal (by decide))))
    (exponentLocal (by decide) (by decide)) (exponentClosed (by decide) (by decide))

theorem integerLocal : Local integer := by
  have octal : Local (radix isOctal) := radixLocal (by decide)
  have zero : Local (char '0') := charLocal (by decide)
  refine orLocal (orLocal zero (settledSeq zero (charSettled _) (orLocal octal (orLocal ?_ ?_)))) ?_
  · exact basedLocal (by decide) (by decide) (orLocal (radixLocal (by decide)) hexFloatLocal)
  · exact orLocal (basedLocal (by decide) (by decide) (radixLocal (by decide)))
      (basedLocal (by decide) (by decide) octal)
  · refine withoutLocal '0' digitsLocal ?_
    rintro w ⟨rfl, positive⟩
    cases positive

theorem numberLocal : Local number := by
  have real : Local (integer.or decimal) := orLocal integerLocal decimalLocal
  exact orLocal real
    (closedSeq (orLocal digitsLocal real) (charLocal (by decide)) (charClosed (by decide)))

theorem integerSome {bs : Bytes} {w : Nat} (read : integer bs w) : 0 < w := by
  rcases read with (⟨_, rfl⟩ | ⟨_, _, ⟨_, rfl⟩, _, rfl⟩) | ⟨_, _, positive⟩ <;> omega

theorem decimalSome {bs : Bytes} {w : Nat} (read : decimal bs w) : 0 < w := by
  have fractional {w : Nat} (read : broken bs w) : 0 < w := by
    rcases read with ⟨_, _, ⟨_, positive⟩, _, rfl⟩ | ⟨_, _, ⟨_, rfl⟩, _, rfl⟩ <;> omega
  rcases read with read | ⟨_, _, ⟨_, positive⟩ | read, _, rfl⟩
  · exact fractional read
  · omega
  · exact Nat.add_pos_left (fractional read) _

theorem numberSome {bs : Bytes} {w : Nat} (read : number bs w) : 0 < w := by
  rcases read with (read | read) | ⟨_, _, _, ⟨_, rfl⟩, rfl⟩
  · exact integerSome read
  · exact decimalSome read
  · exact Nat.succ_pos _

end Reading

section
variable {ok : UInt8 → Bool} {bs : Bytes} {w : Nat}

theorem digitsNone {c : Char} (other : ok (byte c) = false) (starts : startsWith [c] bs = true) :
    digits ok bs = 0 := by
  cases bs with
  | nil => rfl
  | cons b bs =>
    rw [Reading.startsCons, beq_iff_eq] at starts
    rw [digits, ← starts, other, if_neg Bool.false_ne_true]

theorem gapIff {s : Reading} {p : Bool} (mark : ∀ k, s bs k ↔ p = true ∧ k = 1)
    (headless : p = true → digits ok bs = 0) (n : Nat) :
    (w ∈ match digits ok (bs.drop (if p then 1 else 0)) with
      | 0 => []
      | m => [n + (if p then 1 else 0) + m]) ↔
      ∃ j, ((Reading.run ok).or (s.seq (Reading.run ok))) bs j ∧ w = n + j := by
  have read : (w ∈ match digits ok (bs.drop (if p then 1 else 0)) with
      | 0 => []
      | m => [n + (if p then 1 else 0) + m]) ↔
      0 < digits ok (bs.drop (if p then 1 else 0)) ∧
        w = n + ((if p then 1 else 0) + digits ok (bs.drop (if p then 1 else 0))) := by
    cases digits ok (bs.drop (if p then 1 else 0)) <;> simp [Nat.add_assoc]
  rw [read]
  constructor
  · rintro ⟨positive, rfl⟩
    refine ⟨_, ?_, rfl⟩
    cases p with
    | true => exact .inr ⟨1, _, (mark 1).mpr ⟨rfl, rfl⟩, ⟨rfl, positive⟩, rfl⟩
    | false => exact .inl ⟨(Nat.zero_add _).symm, by simpa using positive⟩
  · rintro ⟨_, ⟨rfl, positive⟩ | ⟨k, _, first, ⟨rfl, positive⟩, rfl⟩, rfl⟩
    · cases p with
      | true => exact absurd (headless rfl) (Nat.ne_of_gt positive)
      | false => exact ⟨positive, by simp⟩
    · obtain ⟨rfl, rfl⟩ := (mark k).mp first
      exact ⟨positive, rfl⟩

theorem radixIff (plain : ok (byte '_') = false) (skip : Nat) :
    w ∈ radix ok skip bs ↔ (Reading.radix ok).after skip bs w :=
  gapIff (fun _ => Iff.rfl) (digitsNone plain) skip

theorem exponentIff (low high : Char) (start : Nat) :
    w ∈ exponent low high start bs ↔ (Reading.exponent low high).after start bs w := by
  unfold exponent Reading.exponent Reading.after
  cases bs.drop start with
  | nil =>
    refine iff_of_false List.not_mem_nil ?_
    rintro ⟨_, ⟨_, _, ⟨starts, _⟩ | ⟨starts, _⟩, _⟩, _⟩ <;> cases starts
  | cons b rest =>
    have letter (k : Nat) : ((Reading.char low).or (Reading.char high)) (b :: rest) k ↔
        (b = byte low ∨ b = byte high) ∧ k = 1 := by
      simp only [Reading.or, Reading.char, Reading.startsCons, beq_iff_eq, or_and_right,
        @eq_comm _ b]
    have signed := @gapIff isDigit rest w Reading.sign
      (startsWith ['+'] rest || startsWith ['-'] rest)
      (fun k => by rw [Bool.or_eq_true, or_and_right]; rfl)
      (fun starts => (Bool.or_eq_true_iff.mp starts).elim
        (digitsNone (by decide)) (digitsNone (by decide))) (start + 1)
    dsimp only
    split
    · next found =>
      refine signed.trans ⟨?_, ?_⟩
      · rintro ⟨j, read, rfl⟩
        exact ⟨1 + j, ⟨1, j, (letter 1).mpr ⟨found, rfl⟩, read, rfl⟩, Nat.add_assoc ..⟩
      · rintro ⟨_, ⟨k, j, first, read, rfl⟩, rfl⟩
        obtain ⟨-, rfl⟩ := (letter k).mp first
        exact ⟨j, read, (Nat.add_assoc ..).symm⟩
    · next other =>
      refine iff_of_false List.not_mem_nil ?_
      rintro ⟨_, ⟨k, _, first, _⟩, _⟩
      exact other ((letter k).mp first).1

theorem fractionIff (start : Nat) :
    w ∈ fraction ok start bs ↔ (Reading.fraction ok).after start bs w := by
  have first (j : Nat) : Reading.fraction ok (bs.drop start) j ↔
     startsWith ['.'] (bs.drop start) = true ∧ j = 1 + digits ok (bs.drop (start + 1)) := by
    constructor
    · rintro ⟨_, _, ⟨starts, rfl⟩, rfl, rfl⟩
      exact ⟨starts, by rw [List.drop_drop]⟩
    · rintro ⟨starts, rfl⟩
      exact ⟨1, _, ⟨starts, rfl⟩, congrArg (digits ok) List.drop_drop, rfl⟩
  unfold fraction Reading.after
  simp only [first]
  split
  · next starts => simp [starts, Nat.add_assoc]
  · next other => simp [other]

theorem pointIff (ok : UInt8 → Bool) (skip : Nat) :
    (w ∈ if digits ok (bs.drop (skip + 1)) = 0 then [] else fraction ok skip bs) ↔
      (Reading.point ok).after skip bs w := by
  have shifted : (bs.drop skip).drop 1 = bs.drop (skip + 1) := List.drop_drop
  split
  · next empty =>
    refine iff_of_false List.not_mem_nil ?_
    rintro ⟨_, ⟨_, _, ⟨_, rfl⟩, ⟨rfl, positive⟩, rfl⟩, rfl⟩
    rw [shifted, empty] at positive
    cases positive
  · next digit =>
    refine (fractionIff skip).trans (exists_congr fun j => and_congr_left fun _ => ?_)
    constructor
    · rintro ⟨_, _, ⟨starts, rfl⟩, read, rfl⟩
      refine ⟨1, _, ⟨starts, rfl⟩, ⟨read, ?_⟩, rfl⟩
      rw [Reading.rest, shifted] at read
      omega
    · rintro ⟨_, _, first, ⟨read, _⟩, rfl⟩
      exact ⟨_, _, first, read, rfl⟩

theorem seqIff {s t : Reading} : s.seq t bs w ↔ ∃ k, s bs k ∧ t.after k bs w := by
  constructor
  · rintro ⟨k, j, first, read, rfl⟩
    exact ⟨k, first, j, read, rfl⟩
  · rintro ⟨k, first, j, read, rfl⟩
    exact ⟨k, j, first, read, rfl⟩

theorem afterSeq {s t : Reading} (skip : Nat) :
    (s.seq t).after skip bs w ↔ ∃ k, s.after skip bs k ∧ t.after k bs w := by
  constructor
  · rintro ⟨_, ⟨k, j, first, read, rfl⟩, rfl⟩
    rw [List.drop_drop] at read
    exact ⟨skip + k, ⟨k, first, rfl⟩, j, read, (Nat.add_assoc ..).symm⟩
  · rintro ⟨_, ⟨k, first, rfl⟩, j, read, rfl⟩
    rw [← List.drop_drop] at read
    exact ⟨k + j, ⟨k, j, first, read, rfl⟩, Nat.add_assoc ..⟩

theorem afterOr {s t : Reading} (skip : Nat) :
    (s.or t).after skip bs w ↔ s.after skip bs w ∨ t.after skip bs w := by
  simp only [Reading.after, Reading.or, or_and_right, exists_or]

theorem charSeq (c : Char) (t : Reading) :
    (Reading.char c).seq t bs w ↔ startsWith [c] bs = true ∧ t.after 1 bs w := by
  simp [seqIff, Reading.char, and_assoc]

theorem charAfter (c : Char) (skip : Nat) :
    (Reading.char c).after skip bs w ↔ startsWith [c] (bs.drop skip) = true ∧ w = skip + 1 := by
  simp [Reading.after, Reading.char, and_assoc]

theorem runIff : Reading.run ok bs w ↔ digits ok bs ≠ 0 ∧ w = digits ok bs := by
  constructor
  · rintro ⟨rfl, positive⟩
    exact ⟨Nat.ne_of_gt positive, rfl⟩
  · rintro ⟨counted, rfl⟩
    exact ⟨rfl, Nat.pos_of_ne_zero counted⟩

theorem brokenIff : Reading.broken bs w ↔
    w ∈ match digits isDigit bs with
      | 0 => if digits isDigit (bs.drop 1) = 0 then [] else fraction isDigit 0 bs
      | n => fraction isDigit n bs := by
  rw [Reading.broken, Reading.or, seqIff]
  simp only [runIff, ← fractionIff]
  split
  · next empty =>
    rw [pointIff isDigit 0]
    simp [empty, Reading.after]
  · next digit =>
    have headed : ¬ Reading.point isDigit bs w := fun ⟨_, _, first, _⟩ =>
      digit (digitsNone (by decide) first.1)
    simp [headed, show digits isDigit bs ≠ 0 from digit]

theorem decimalIff : w ∈ decimalFloats bs ↔ Reading.decimal bs w := by
  have scaled (l : List Nat) : w ∈ l.flatMap (fun k => k :: exponent 'e' 'E' k bs) ↔
      w ∈ l ∨ ∃ k, k ∈ l ∧ w ∈ exponent 'e' 'E' k bs := by
    simp [and_or_left, exists_or]
  rw [Reading.decimal, Reading.or, seqIff]
  simp only [Reading.or, brokenIff, runIff, ← exponentIff]
  unfold decimalFloats
  split
  · next empty =>
    split
    · simp [empty]
    · simp [empty, scaled]
  · next digit =>
    have counted : digits isDigit bs ≠ 0 := digit
    simp [counted, scaled, or_and_right, exists_or, or_left_comm]

theorem hexFloatIff : w ∈ hexFloats bs ↔ Reading.hexFloat.after 2 bs w := by
  have whole (k : Nat) := @radixIff isHex bs k (by decide) 2
  unfold hexFloats Reading.hexFloat
  simp only [List.mem_flatMap, List.mem_append, afterSeq, afterOr, ← exponentIff, ← fractionIff,
    ← whole, ← pointIff, or_assoc]

theorem startsTwo (c d : Char) (bs : Bytes) :
    startsWith [c, d] bs = (startsWith [c] bs && startsWith [d] (bs.drop 1)) := by
  cases bs <;> simp [startsWith, List.isPrefixOf]

theorem basedIff (low high : Char) (s : Reading) :
    startsWith ['0'] bs = true ∧ (Reading.based low high s).after 1 bs w ↔
      (startsWith ['0', low] bs || startsWith ['0', high] bs) = true ∧ s.after 2 bs w := by
  simp only [Reading.based, afterSeq, afterOr, charAfter, startsTwo, ← or_and_right, and_assoc,
    exists_and_left, exists_eq_left, Bool.or_eq_true, Bool.and_eq_true, ← and_or_left]

theorem integerIff : (w ∈ if startsWith ['0'] bs then
      1 :: radix isOctal 1 bs ++
        (if startsWith ['0', 'x'] bs || startsWith ['0', 'X'] bs then
          radix isHex 2 bs ++ hexFloats bs else []) ++
        (if startsWith ['0', 'b'] bs || startsWith ['0', 'B'] bs then radix isBinary 2 bs else []) ++
        (if startsWith ['0', 'o'] bs || startsWith ['0', 'O'] bs then radix isOctal 2 bs else [])
    else if digits isDigit bs = 0 then [] else [digits isDigit bs]) ↔ Reading.integer bs w := by
  have octal (k : Nat) := @radixIff isOctal bs w (by decide) k
  have hex := @radixIff isHex bs w (by decide) 2
  have binary := @radixIff isBinary bs w (by decide) 2
  have member (c : Prop) [Decidable c] (l : List Nat) : (w ∈ if c then l else []) ↔ c ∧ w ∈ l := by
    split <;> simp [*]
  rw [Reading.integer]
  simp only [Reading.or, charSeq, afterOr, and_or_left, basedIff, Reading.without, runIff,
    Reading.char, ← octal, ← hex, ← binary, ← hexFloatIff]
  split
  · next zero => simp [member, zero, or_assoc, and_or_left]
  · next other => simp [other, startsTwo]

theorem numbersIff : w ∈ numbers bs ↔ Reading.number bs w := by
  unfold numbers
  simp only [List.mem_append, List.mem_map, List.mem_filter, List.mem_cons, integerIff, decimalIff]
  rw [Reading.number]
  simp only [Reading.or, seqIff, charAfter, runIff]
  refine or_congr Iff.rfl ⟨?_, ?_⟩
  · rintro ⟨k, ⟨read, imaginary⟩, rfl⟩
    simp only [Bool.and_eq_true, decide_eq_true_eq] at imaginary
    refine ⟨k, read.imp_left fun same => ⟨?_, same⟩, imaginary.2, rfl⟩
    exact same ▸ Nat.ne_of_gt imaginary.1
  · rintro ⟨k, read, imaginary, rfl⟩
    have positive : 0 < k := by
      rcases read with ⟨positive, rfl⟩ | read | read
      · exact Nat.pos_of_ne_zero positive
      · exact Reading.integerSome read
      · exact Reading.decimalSome read
    exact ⟨k, ⟨read.imp_left And.right, by simp [positive, imaginary]⟩, rfl⟩

end

theorem numberIff {bs : Bytes} {n : Nat} : number? bs = some n ↔
    Reading.number bs n ∧ ∀ w, Reading.number bs w → w ≤ n := by
  obtain ⟨reached, -, bound⟩ := foldMax (numbers bs) 0
  simp only [numbersIff] at reached bound
  unfold number?
  constructor
  · intro longest
    split at longest
    · cases longest
    · next found =>
      cases longest
      exact ⟨reached.resolve_left found, bound⟩
  · rintro ⟨read, longest⟩
    have positive := Reading.numberSome read
    have same : (numbers bs).foldl max 0 = n := by
      refine Nat.le_antisymm ?_ (bound n read)
      rcases reached with nothing | read
      · omega
      · exact longest _ read
    rw [same]
    split
    · omega
    · rfl

theorem numberNone {bs : Bytes} : number? bs = none ↔ ∀ w, ¬ Reading.number bs w := by
  constructor
  · intro empty w read
    obtain ⟨-, -, bound⟩ := foldMax (numbers bs) 0
    have below := bound w (numbersIff.mpr read)
    have positive := Reading.numberSome read
    unfold number? at empty
    split at empty
    · omega
    · cases empty
  · intro empty
    cases longest : number? bs with
    | none => rfl
    | some w => exact absurd (numberIff.mp longest).1 (empty w)

/- A blank behind a number, or behind what is none, makes no other number of it. -/
theorem numberKept {u v : Bytes} (more : Bytes) (fits : ∀ w ∈ number? (u ++ v), w ≤ u.length) :
    number? (u ++ 0x20 :: more) = number? (u ++ v) := by
  have scanned := Reading.numberLocal
  have inside {w : Nat} (read : Reading.number (u ++ 0x20 :: more) w) :
      ∃ w', w ≤ w' ∧ Reading.number (u ++ v) w' :=
    (scanned.grows v (scanned.fits read (scanned.stops read))).elim
      (⟨w, Nat.le_refl w, ·⟩) And.right
  cases longest : number? (u ++ v) with
  | none =>
    refine numberNone.mpr fun w read => ?_
    obtain ⟨w', _, other⟩ := inside read
    exact numberNone.mp longest w' other
  | some n =>
    obtain ⟨read, bound⟩ := numberIff.mp longest
    have cut {w : Nat} (read : Reading.number (u ++ 0x20 :: more) w) : w ≤ n := by
      obtain ⟨w', le, other⟩ := inside read
      exact Nat.le_trans le (bound w' other)
    refine numberIff.mpr ⟨?_, fun w => cut⟩
    have short := scanned.fits read (fits n longest)
    rcases scanned.grows (0x20 :: more) short with kept | ⟨_, w, le, kept⟩
    · exact kept
    · rwa [Nat.le_antisymm le (cut kept)]

end Uncalled.Source
