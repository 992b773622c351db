import Uncalled.Proofs.Decoding
import Uncalled.Proofs.Numerals
/-! Where tokens end. A token that ends inside a text is still the token at the head of the text if
a blank is put behind it, right where it ends or further on, whatever comes after the blank. -/
namespace Uncalled.Source
open Text (Bytes Head head follow lead? headStops headTakes startsName continuesName)

namespace Point

theorem afterAppend (p : Point) (xs ys : Bytes) : p.after (xs ++ ys) = (p.after xs).after ys :=
  List.foldl_append

@[simp] theorem nextOffset (p : Point) (b : UInt8) : (p.next b).offset = p.offset + 1 := by
  unfold next
  split <;> rfl

@[simp] theorem afterOffset (p : Point) (bs : Bytes) :
    (p.after bs).offset = p.offset + bs.length := by
  induction bs generalizing p with
  | nil => rfl
  | cons b bs ih => rw [after, List.foldl_cons, ← after, ih, nextOffset, List.length_cons]; omega

theorem afterTake (p : Point) {bs : Bytes} {w : Nat} (within : w ≤ bs.length) :
    (p.after (bs.take w)).offset = p.offset + w := by
  rw [afterOffset, List.length_take_of_le within]

end Point

theorem followLeft (low high : UInt8) (n bits : Nat) (bs : Bytes) :
    (follow low high n bits bs).2 ≤ n := by
  fun_induction follow low high n bits bs <;> omega

theorem followFits {low high : UInt8} {n bits : Nat} {u v : Bytes}
    (fits : n ≤ u.length ∨ n - (follow low high n bits (u ++ v)).2 < u.length) :
    follow low high n bits u = follow low high n bits (u ++ v) := by
  induction u generalizing low high n bits with
  | nil =>
    obtain rfl : n = 0 := by simpa using fits
    rfl
  | cons b u ih =>
    cases n with
    | zero => rfl
    | succ n =>
      rw [List.cons_append, follow, follow] at *
      split
      · next inside =>
        rw [if_pos inside, List.length_cons] at fits
        have left := followLeft 0x80 0xbf n (bits * 64 + (b.toNat - 0x80)) (u ++ v)
        exact ih (by omega)
      · rfl

theorem followWhole {low high : UInt8} {n bits : Nat} {u : Bytes} (v : Bytes)
    (whole : (follow low high n bits u).2 = 0) :
    follow low high n bits (u ++ v) = follow low high n bits u := by
  refine (followFits (.inl ?_)).symm
  have takes := Text.followTakes low high n bits u
  omega

theorem headFits {b : UInt8} {u v : Bytes} (fits : (head b (u ++ v)).more < u.length ∨
    ∃ c more, head b (u ++ v) = .char c more ∧ more ≤ u.length) : head b u = head b (u ++ v) := by
  revert fits
  unfold head
  cases lead? b with
  | none => exact fun _ => rfl
  | some l =>
    dsimp only
    intro fits
    suffices same : l.follow ≤ u.length ∨
        l.follow - (follow l.low l.high l.follow l.bits (u ++ v)).2 < u.length by
      rw [followFits same]
    revert fits
    obtain ⟨code, missing⟩ := follow l.low l.high l.follow l.bits (u ++ v)
    cases missing with
    | zero =>
      rintro (inside | ⟨_, _, same, inside⟩)
      · exact .inl (Nat.le_of_lt inside)
      · cases same
        exact .inl inside
    | succ missing =>
      rintro (inside | ⟨_, _, same, _⟩)
      · exact .inr inside
      · cases same

theorem headWhole {b : UInt8} {u : Bytes} {c : Char} {more : Nat} (v : Bytes)
    (whole : head b u = .char c more) : head b (u ++ v) = .char c more := by
  revert whole
  unfold head
  cases lead? b with
  | none => nofun
  | some l =>
    dsimp only
    intro whole
    suffices complete : (follow l.low l.high l.follow l.bits u).2 = 0 by
      rw [followWhole v complete, whole]
    revert whole
    obtain ⟨code, missing⟩ := follow l.low l.high l.follow l.bits u
    cases missing with
    | zero => exact fun _ => rfl
    | succ missing => nofun

theorem nameRunEnough {m n : Nat} {bs : Bytes} (left : bs.length ≤ m) (right : bs.length ≤ n) :
    nameRun m bs = nameRun n bs := by
  induction m generalizing n bs with
  | zero =>
    obtain rfl := List.eq_nil_of_length_eq_zero (Nat.le_zero.mp left)
    cases n <;> rfl
  | succ m ih =>
    cases bs with
    | nil => cases n <;> rfl
    | cons b bs =>
      cases n with
      | zero => cases right
      | succ n =>
        rw [List.length_cons] at left right
        rw [nameRun, nameRun]
        cases head b bs with
        | broken more => rfl
        | char c more =>
          have shorter : (bs.drop more).length ≤ bs.length := by simp
          dsimp only
          rw [@ih n (bs.drop more) (by omega) (by omega)]

theorem nameRunNone {n : Nat} {b : UInt8} {bs : Bytes}
    (other : ∀ c more, head b bs = .char c more → continuesName c = false) :
    nameRun n (b :: bs) = ([], 0) := by
  cases n with
  | zero => rfl
  | succ n =>
    rw [nameRun]
    cases read : head b bs with
    | broken more => rfl
    | char c more => simp [other c more read]

theorem nameRunSome {n : Nat} {b : UInt8} {bs : Bytes} {c : Char} {more : Nat}
    (read : head b bs = .char c more) (inside : continuesName c = true) :
    nameRun (n + 1) (b :: bs) =
      (c :: (nameRun n (bs.drop more)).1, more + 1 + (nameRun n (bs.drop more)).2) := by
  rw [nameRun, read]
  simp [inside]

theorem nameRunBlank (n : Nat) (bs : Bytes) : nameRun n (0x20 :: bs) = ([], 0) := by
  refine nameRunNone fun c more read => ?_
  cases read
  decide

/- By the characters of the name. Each of them ends where the name ends or before, so it is the same
with the blank behind it; the character after the last one can be broken by the blank, but does not
become a part of the name. -/
theorem nameRunKept {n : Nat} {u v : Bytes} (more : Bytes)
    (fits : (nameRun n (u ++ v)).2 ≤ u.length) :
    nameRun n (u ++ 0x20 :: more) = nameRun n (u ++ v) := by
  induction n generalizing u with
  | zero => rfl
  | succ n ih =>
    cases u with
    | nil =>
      rw [List.nil_append, List.nil_append, nameRunBlank]
      cases v with
      | nil => rfl
      | cons b v =>
        refine (nameRunNone fun c more read => Bool.eq_false_iff.mpr fun inside => ?_).symm
        rw [List.nil_append, nameRunSome read inside, List.length_nil] at fits
        omega
    | cons b u =>
      rw [List.cons_append, List.cons_append] at *
      by_cases starts : ∃ c k, head b (u ++ v) = .char c k ∧ continuesName c = true
      · obtain ⟨c, k, read, inside⟩ := starts
        rw [nameRunSome read inside, List.length_cons] at fits
        dsimp only at fits
        have within : k ≤ u.length := by omega
        have cut : head b (u ++ 0x20 :: more) = .char c k := by
          rw [headStops (by decide), headFits (.inr ⟨c, k, read, within⟩), read]
        rw [List.drop_append_of_le_length within] at fits
        rw [nameRunSome read inside, nameRunSome cut inside, List.drop_append_of_le_length within,
          List.drop_append_of_le_length within, ih (by rw [List.length_drop]; omega)]
      · have other (c : Char) (k : Nat) (read : head b (u ++ v) = .char c k) :
            continuesName c = false :=
          Bool.eq_false_iff.mpr fun inside => starts ⟨c, k, read, inside⟩
        rw [nameRunNone other, nameRunNone fun c k cut => ?_]
        rw [headStops (by decide)] at cut
        exact other c k (headWhole v cut)

theorem nameKept {n : Nat} {b : UInt8} {u v : Bytes} (more : Bytes)
    (fits : ∀ found ∈ name? (n + 1) b (u ++ v), found.2 ≤ u.length + 1) :
    name? (n + 1) b (u ++ 0x20 :: more) = name? (n + 1) b (u ++ v) := by
  by_cases starts : ∃ c k, head b (u ++ v) = .char c k ∧ startsName c = true
  · obtain ⟨c, k, read, starter⟩ := starts
    have found : name? (n + 1) b (u ++ v) =
        some (nameLexeme (.ofList (nameRun (n + 1) (b :: (u ++ v))).1),
          (nameRun (n + 1) (b :: (u ++ v))).2) := by
      simp [name?, read, starter]
    have within : (nameRun (n + 1) (b :: (u ++ v))).2 ≤ u.length + 1 := fits _ found
    have kept := @nameRunKept (n + 1) (b :: u) v more within
    rw [nameRunSome read (Text.continuesOfStarts starter)] at within
    dsimp only at within
    have cut : head b (u ++ 0x20 :: more) = .char c k := by
      rw [headStops (by decide), headFits (.inr ⟨c, k, read, by omega⟩), read]
    rw [found, name?, cut]
    rw [List.cons_append, List.cons_append] at kept
    simp [starter, kept]
  · have unnamed {bs : Bytes} (other : ∀ c k, head b bs = .char c k → ¬ startsName c = true) :
        name? (n + 1) b bs = none := by
      unfold name?
      cases read : head b bs with
      | broken k => rfl
      | char c k => exact if_neg (other c k read)
    have other (c : Char) (k : Nat) (read : head b (u ++ v) = .char c k) : ¬ startsName c = true :=
      fun starter => starts ⟨c, k, read, starter⟩
    rw [unnamed other, unnamed fun c k cut => ?_]
    rw [headStops (by decide)] at cut
    exact other c k (headWhole v cut)

theorem nameRunWithin (n : Nat) (bs : Bytes) : (nameRun n bs).2 ≤ bs.length := by
  fun_induction nameRun n bs with
  | case1 => exact Nat.zero_le _
  | case2 => exact Nat.le_refl 0
  | case3 => exact Nat.zero_le _
  | case4 n b bs c more read inside tail ih =>
    have takes := headTakes b bs
    rw [read] at takes
    simp only [Head.more, List.length_drop] at takes ih
    simp only [List.length_cons, tail]
    omega
  | case5 => exact Nat.zero_le _

theorem hexRunKept {n : Nat} {u : Bytes} (v more : Bytes) (within : n ≤ u.length) :
    hexRun n (u ++ more) = hexRun n (u ++ v) := by
  rw [hexRun, hexRun, List.take_append_of_le_length within, List.take_append_of_le_length within]

theorem stringQuoted (bs : Bytes) : stringTail (byte '"' :: bs) = some 1 := by
  cases bs <;> rfl

theorem stringBroken (bs : Bytes) : stringTail (byte '\n' :: bs) = none := by
  cases bs <;> rfl

theorem stringPlain {b : UInt8} (quote : b ≠ byte '"') (line : b ≠ byte '\n')
    (slash : b ≠ byte '\\')
    (bs : Bytes) : stringTail (b :: bs) = (stringTail bs).map (· + 1) := by
  cases bs <;> simp [stringTail, quote, line, slash]

theorem stringEscaped (c : UInt8) (bs : Bytes) : stringTail (byte '\\' :: c :: bs) =
    if stringEscape c bs then (stringTail bs).map (· + 2) else none := by
  rw [stringTail, if_neg (by decide), if_neg (by decide), if_pos rfl]

theorem stringSome {bs : Bytes} {w : Nat} (read : stringTail bs = some w) : 0 < w := by
  fun_induction stringTail bs generalizing w with
  | case1 => cases read
  | case2 => exact Option.some.inj read ▸ Nat.one_pos
  | case3 b other => cases read
  | case4 c rest => exact Option.some.inj read ▸ Nat.one_pos
  | case5 c rest => cases read
  | case6 c rest quote line escape ih =>
    obtain ⟨w, -, rfl⟩ := Option.map_eq_some_iff.mp read
    exact Nat.succ_pos _
  | case7 c rest quote line escape => cases read
  | case8 b c rest quote line slash ih =>
    obtain ⟨w, -, rfl⟩ := Option.map_eq_some_iff.mp read
    exact Nat.succ_pos _

theorem stringWithin {bs : Bytes} {w : Nat} (read : stringTail bs = some w) : w ≤ bs.length := by
  fun_induction stringTail bs generalizing w with
  | case1 => cases read
  | case2 => exact Nat.le_of_eq (Option.some.inj read).symm
  | case3 b other => cases read
  | case4 c rest =>
    cases read
    exact Nat.le_add_left 1 _
  | case5 c rest => cases read
  | case6 c rest quote line escape ih =>
    obtain ⟨w, inner, rfl⟩ := Option.map_eq_some_iff.mp read
    exact Nat.add_le_add_right (ih inner) 2
  | case7 c rest quote line escape => cases read
  | case8 b c rest quote line slash ih =>
    obtain ⟨w, inner, rfl⟩ := Option.map_eq_some_iff.mp read
    exact Nat.add_le_add_right (ih inner) 1

theorem hexBefore {n w : Nat} {bs : Bytes} (run : hexRun n bs = true)
    (read : stringTail bs = some w) : n < w := by
  induction n generalizing bs w with
  | zero => exact stringSome read
  | succ n ih =>
    cases bs with
    | nil => cases read
    | cons b bs =>
      have digit : isHex b = true ∧ hexRun n bs = true := by
        simpa [hexRun, and_left_comm] using run
      have plain {c : Char} (other : isHex (byte c) = false) : b ≠ byte c := by
        rintro rfl
        rw [other] at digit
        cases digit.1
      rw [stringPlain (plain (by decide)) (plain (by decide)) (plain (by decide))] at read
      obtain ⟨w, inner, rfl⟩ := Option.map_eq_some_iff.mp read
      exact Nat.succ_lt_succ (ih digit.2 inner)

theorem escapeKept {c : UInt8} {u v : Bytes} {w : Nat} (more : Bytes)
    (read : stringTail (u ++ v) = some w) (fits : w ≤ u.length)
    (escape : stringEscape c (u ++ v) = true) : stringEscape c (u ++ more) = true := by
  have kept {n : Nat} (run : hexRun n (u ++ v) = true) : hexRun n (u ++ more) = true := by
    have before := hexBefore run read
    rwa [hexRunKept v more (by omega)]
  revert escape
  unfold stringEscape
  split_ifs
  · exact kept
  · exact kept
  · exact kept
  · exact id

theorem stringKept {u v : Bytes} {w : Nat} (more : Bytes) (read : stringTail (u ++ v) = some w)
    (fits : w ≤ u.length) : stringTail (u ++ more) = some w := by
  match u with
  | [] => exact absurd (stringSome read) (Nat.not_lt.mpr fits)
  | b :: u =>
    rw [List.cons_append] at read ⊢
    by_cases quote : b = byte '"'
    · rw [quote, stringQuoted] at read ⊢
      exact read
    · by_cases line : b = byte '\n'
      · rw [line, stringBroken] at read
        cases read
      · by_cases slash : b = byte '\\'
        · match u with
          | [] =>
            cases v with
            | nil => cases slash ▸ read
            | cons c v =>
              rw [slash, List.nil_append, stringEscaped] at read
              split at read
              · obtain ⟨w, -, rfl⟩ := Option.map_eq_some_iff.mp read
                exact absurd fits (by simp)
              · cases read
          | c :: u =>
            rw [slash, List.cons_append, stringEscaped] at read ⊢
            split at read
            · next escape =>
              obtain ⟨w, inner, rfl⟩ := Option.map_eq_some_iff.mp read
              rw [List.length_cons, List.length_cons] at fits
              have within : w ≤ u.length := by omega
              rw [if_pos (escapeKept more inner within escape), stringKept more inner within]
              rfl
            · cases read
        · rw [stringPlain quote line slash] at read ⊢
          obtain ⟨w, inner, rfl⟩ := Option.map_eq_some_iff.mp read
          rw [List.length_cons] at fits
          rw [stringKept more inner (by omega)]
          rfl
termination_by structural u

theorem rawCons (b : UInt8) (bs : Bytes) :
    rawTail (b :: bs) = if b = 0x60 then some 1 else (rawTail bs).map (· + 1) := by
  unfold rawTail
  rw [List.takeWhile_cons]
  by_cases quote : b = 0x60
  · simp [quote]
  · simp only [quote, ne_eq, not_false_eq_true, decide_true, if_true, if_false, List.length_cons,
      List.drop_succ_cons]
    split <;> rfl

theorem rawSome {bs : Bytes} {w : Nat} (read : rawTail bs = some w) : 0 < w := by
  unfold rawTail at read
  dsimp only at read
  split at read
  · cases read
  · exact Option.some.inj read ▸ Nat.succ_pos _

theorem rawWithin {bs : Bytes} {w : Nat} (read : rawTail bs = some w) : w ≤ bs.length := by
  induction bs generalizing w with
  | nil => cases read
  | cons b bs ih =>
    rw [rawCons] at read
    split at read
    · cases read
      exact Nat.le_add_left 1 _
    · obtain ⟨w, inner, rfl⟩ := Option.map_eq_some_iff.mp read
      exact Nat.succ_le_succ (ih inner)

theorem rawKept {u v : Bytes} {w : Nat} (more : Bytes) (read : rawTail (u ++ v) = some w)
    (fits : w ≤ u.length) : rawTail (u ++ more) = some w := by
  induction u generalizing w with
  | nil => exact absurd (rawSome read) (Nat.not_lt.mpr fits)
  | cons b u ih =>
    rw [List.cons_append, rawCons] at *
    split
    · next quote => rwa [if_pos quote] at read
    · next other =>
      rw [if_neg other] at read
      obtain ⟨w, inner, rfl⟩ := Option.map_eq_some_iff.mp read
      rw [ih inner (Nat.le_of_succ_le_succ fits)]
      rfl

section
variable {α : Type} {p q : Prop} [Decidable p] [Decidable q]

theorem iteKept {x y x' y' : Option α} {a : α} (yes : x = some a → x' = some a)
    (no : y = some a → y' = some a) :
    (if p then x else y) = some a → (if p then x' else y') = some a := by
  split
  · exact yes
  · exact no

theorem foundKept {a b : α} (kept : a = b → p → q) :
    (if p then some a else none) = some b → (if q then some a else none) = some b := by
  split
  · next found =>
    intro same
    rwa [if_pos (kept (Option.some.inj same) found)]
  · nofun

end

theorem runePlain {b : UInt8} (quote : b ≠ 0x27) (slash : b ≠ byte '\\') (bs : Bytes) :
    runeBody (b :: bs) = some (1 + (head b bs).more) := by
  cases bs <;> simp [runeBody, quote, slash]

theorem runeQuoted (bs : Bytes) : runeBody (0x27 :: bs) = none := by
  cases bs <;> rfl

theorem runeEscaped (e : UInt8) (bs : Bytes) : runeBody (byte '\\' :: e :: bs) =
    if e = byte 'x' then if hexRun 2 bs then some 4 else none
    else if e = byte 'u' then if hexRun 4 bs then some 6 else none
    else if e = byte 'U' then if hexRun 8 bs then some 10 else none
    else if isOctal e then
      if (bs.take 2).length = 2 ∧ (bs.take 2).all isOctal then some 4 else none
    else if ("abfnrtv\\\"".toList.map byte).contains e || e = 0x27 then some 2
    else none := by
  rw [runeBody, if_neg (by decide), if_pos rfl]

theorem runeEscapeLong {e : UInt8} {bs : Bytes} {n : Nat}
    (read : runeBody (byte '\\' :: e :: bs) = some n) : 2 ≤ n := by
  rw [runeEscaped] at read
  split_ifs at read <;> cases read <;> decide

theorem runeEscapeKept {e : UInt8} {u v : Bytes} {n : Nat} (more : Bytes)
    (read : runeBody (byte '\\' :: e :: (u ++ v)) = some n) (fits : n < u.length + 2) :
    runeBody (byte '\\' :: e :: (u ++ more)) = some n := by
  have hex {k : Nat} : (if hexRun k (u ++ v) then some (k + 2) else none) = some n →
      (if hexRun k (u ++ more) then some (k + 2) else none) = some n :=
    foundKept fun width run => by rwa [hexRunKept v more (by omega)]
  have octal : (if ((u ++ v).take 2).length = 2 ∧ ((u ++ v).take 2).all isOctal then some 4
      else none) = some n → (if ((u ++ more).take 2).length = 2 ∧ ((u ++ more).take 2).all isOctal
        then some 4 else none) = some n :=
    foundKept fun width run => by
      rwa [List.take_append_of_le_length (by omega)] at run ⊢
  rw [runeEscaped] at *
  exact iteKept hex (iteKept hex (iteKept hex (iteKept octal id))) read

theorem runeBodyKept {u v : Bytes} {n : Nat} (more : Bytes) (read : runeBody (u ++ v) = some n)
    (fits : n < u.length) : runeBody (u ++ 0x20 :: more) = some n := by
  cases u with
  | nil => cases fits
  | cons b u =>
    rw [List.cons_append] at *
    by_cases slash : b = byte '\\'
    · subst slash
      cases u with
      | nil =>
        cases v with
        | nil => cases read
        | cons e v =>
          have long := runeEscapeLong read
          exact absurd fits (by simp; omega)
      | cons e u => exact runeEscapeKept _ read fits
    · by_cases quote : b = 0x27
      · rw [quote, runeQuoted] at read
        cases read
      · rw [runePlain quote slash] at *
        cases read
        rw [headStops (by decide), @headFits b u v (.inl (by rw [List.length_cons] at fits; omega))]

theorem runeWithin {bs : Bytes} {w : Nat} (read : runeTail bs = some w) : w ≤ bs.length := by
  obtain ⟨n, body, closed⟩ := Option.bind_eq_some_iff.mp read
  split at closed
  · next quote =>
    cases closed
    rw [List.head?_drop] at quote
    exact (List.getElem?_eq_some_iff.mp quote).1
  · cases closed

theorem runeKept {u v : Bytes} {w : Nat} (more : Bytes) (read : runeTail (u ++ v) = some w)
    (fits : w ≤ u.length) : runeTail (u ++ 0x20 :: more) = some w := by
  obtain ⟨n, body, closed⟩ := Option.bind_eq_some_iff.mp read
  split at closed
  · next quote =>
    cases closed
    have within : n < u.length := fits
    refine Option.bind_eq_some_iff.mpr ⟨n, runeBodyKept more body within, if_pos ?_⟩
    have last : (u.drop n).head? = some u[n] := by rw [List.head?_drop, List.getElem?_eq_getElem]
    rw [List.drop_append_of_le_length (Nat.le_of_lt within), List.head?_append, last] at quote ⊢
    exact quote
  · cases closed

theorem startsIff (cs : List Char) (bs : Bytes) : startsWith cs bs = true ↔ cs.map byte <+: bs :=
  List.isPrefixOf_iff_prefix

theorem startsFits {cs : List Char} {u v : Bytes} (starts : startsWith cs (u ++ v) = true)
    (fits : cs.length ≤ u.length) : startsWith cs u = true := by
  rw [startsIff] at *
  exact List.prefix_of_prefix_length_le starts (List.prefix_append u v) (by rwa [List.length_map])

theorem startsGrows {cs : List Char} {u : Bytes} (v : Bytes) (starts : startsWith cs u = true) :
    startsWith cs (u ++ v) = true := by
  rw [startsIff] at *
  exact starts.trans (List.prefix_append u v)

theorem prefixStops {p u v : Bytes} (dark : 0x20 ∉ p) (ahead : p <+: u ++ 0x20 :: v) : p <+: u := by
  refine List.prefix_of_prefix_length_le ahead (List.prefix_append u _) ?_
  refine Nat.not_lt.mp fun longer => ?_
  have covered : u ++ [0x20] <+: p :=
    List.prefix_of_prefix_length_le ⟨v, by simp⟩ ahead (by simp; omega)
  exact dark (covered.subset (by simp))

theorem startsStops {cs : List Char} {u v : Bytes} (dark : 0x20 ∉ cs.map byte)
    (starts : startsWith cs (u ++ 0x20 :: v) = true) : startsWith cs u = true := by
  rw [startsIff] at *
  exact prefixStops dark starts

theorem marksDark : ∀ m ∈ marks, 0x20 ∉ m.1.map byte := by
  decide

theorem marksSome : ∀ m ∈ marks, 0 < m.1.length := by
  decide

theorem markKept {u v : Bytes} {found : Lexeme × Nat} (more : Bytes)
    (read : mark? (u ++ v) = some found) (fits : found.2 ≤ u.length) :
    mark? (u ++ 0x20 :: more) = some found := by
  obtain ⟨m, first, rfl⟩ := Option.map_eq_some_iff.mp read
  refine Option.map_eq_some_iff.mpr ⟨m, ?_, rfl⟩
  rw [List.find?_eq_some_iff_append] at first ⊢
  obtain ⟨starts, before, after, split, earlier⟩ := first
  refine ⟨startsGrows _ (startsFits starts fits), before, after, split, fun a member => ?_⟩
  have other := earlier a member
  rw [Bool.not_eq_true', ← Bool.not_eq_true] at other ⊢
  intro cut
  have dark := marksDark a (split ▸ List.mem_append_left _ member)
  exact other (startsGrows v (startsStops dark cut))

/- The token at the head is a quote, a name, a number or a mark, the first of them that is there. -/
inductive Found (n : Nat) (b : UInt8) (bs : Bytes) : Lexeme × Nat → Prop
  | string {w : Nat} (tail : stringTail bs = some w) : Found n b bs (.text, w + 1)
  | raw {w : Nat} (tail : rawTail bs = some w) : Found n b bs (.text, w + 1)
  | rune {w : Nat} (tail : runeTail bs = some w) : Found n b bs (.value, w + 1)
  | name {found : Lexeme × Nat} (read : name? n b bs = some found) : Found n b bs found
  | number {w : Nat} (read : number? (b :: bs) = some w) : Found n b bs (.value, w)
  | mark {found : Lexeme × Nat} (read : mark? (b :: bs) = some found) : Found n b bs found

theorem lexemeFound {n : Nat} {b : UInt8} {bs : Bytes} {found : Lexeme × Nat}
    (read : lexeme? n b bs = some found) : Found n b bs found := by
  unfold lexeme? at read
  split_ifs at read
  · obtain ⟨w, tail, rfl⟩ := Option.map_eq_some_iff.mp read
    exact .string tail
  · obtain ⟨w, tail, rfl⟩ := Option.map_eq_some_iff.mp read
    exact .raw tail
  · obtain ⟨w, tail, rfl⟩ := Option.map_eq_some_iff.mp read
    exact .rune tail
  · split at read
    · next named =>
      cases read
      exact .name named
    · split at read
      · next counted =>
        cases read
        exact .number counted
      · exact .mark read

theorem nameWidth {n : Nat} {b : UInt8} {bs : Bytes} {found : Lexeme × Nat}
    (read : name? (n + 1) b bs = some found) : 0 < found.2 ∧ found.2 ≤ bs.length + 1 := by
  unfold name? at read
  split at read
  · cases read
  · next c k char =>
    split at read
    · next starter =>
      cases read
      refine ⟨?_, nameRunWithin (n + 1) (b :: bs)⟩
      rw [nameRunSome char (Text.continuesOfStarts starter)]
      exact Nat.lt_of_lt_of_le (Nat.succ_pos k) (Nat.le_add_right _ _)
    · cases read

theorem lexemeWidth {n : Nat} {b : UInt8} {bs : Bytes} {found : Lexeme × Nat}
    (read : lexeme? (n + 1) b bs = some found) : 0 < found.2 ∧ found.2 ≤ bs.length + 1 := by
  cases lexemeFound read with
  | string tail => exact ⟨Nat.succ_pos _, Nat.succ_le_succ (stringWithin tail)⟩
  | raw tail => exact ⟨Nat.succ_pos _, Nat.succ_le_succ (rawWithin tail)⟩
  | rune tail => exact ⟨Nat.succ_pos _, Nat.succ_le_succ (runeWithin tail)⟩
  | name named => exact nameWidth named
  | number counted =>
    have number := (numberIff.mp counted).1
    exact ⟨Reading.numberSome number, Reading.numberLocal.within number⟩
  | mark marked =>
    obtain ⟨m, first, rfl⟩ := Option.map_eq_some_iff.mp marked
    have starts := List.find?_some first
    rw [startsIff] at starts
    exact ⟨marksSome m (List.mem_of_find?_eq_some first), by simpa using starts.length_le⟩

theorem lexemeKept {n : Nat} {b : UInt8} {u v : Bytes} {found : Lexeme × Nat} (more : Bytes)
    (read : lexeme? (n + 1) b (u ++ v) = some found) (fits : found.2 ≤ u.length + 1) :
    lexeme? (n + 1) b (u ++ 0x20 :: more) = some found := by
  unfold lexeme? at *
  split_ifs at read ⊢
  · obtain ⟨w, tail, rfl⟩ := Option.map_eq_some_iff.mp read
    rw [stringKept _ tail (Nat.le_of_succ_le_succ fits)]
    rfl
  · obtain ⟨w, tail, rfl⟩ := Option.map_eq_some_iff.mp read
    rw [rawKept _ tail (Nat.le_of_succ_le_succ fits)]
    rfl
  · obtain ⟨w, tail, rfl⟩ := Option.map_eq_some_iff.mp read
    rw [runeKept _ tail (Nat.le_of_succ_le_succ fits)]
    rfl
  · have named : name? (n + 1) b (u ++ 0x20 :: more) = name? (n + 1) b (u ++ v) := by
      refine nameKept more fun name member => ?_
      rw [Option.mem_def.mp member] at read
      cases read
      exact fits
    rw [named]
    cases name : name? (n + 1) b (u ++ v) with
    | some name => rwa [name] at read
    | none =>
      rw [name] at read
      dsimp only at read ⊢
      have counted : number? (b :: (u ++ 0x20 :: more)) = number? (b :: (u ++ v)) := by
        refine @numberKept (b :: u) v more fun w member => ?_
        rw [List.cons_append] at member
        rw [Option.mem_def.mp member] at read
        cases read
        exact fits
      rw [counted]
      cases number : number? (b :: (u ++ v)) with
      | some w => rwa [number] at read
      | none =>
        rw [number] at read
        exact @markKept (b :: u) v found more read fits

theorem lexemeEnough {m n : Nat} {b : UInt8} {bs : Bytes} (left : bs.length < m)
    (right : bs.length < n) : lexeme? m b bs = lexeme? n b bs := by
  unfold lexeme? name?
  rw [@nameRunEnough m n (b :: bs) left right]

end Uncalled.Source
