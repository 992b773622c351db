import Mathlib.Data.List.Perm.Basic
import Mathlib.Data.List.TakeWhile
import Uncalled.Profile.Reader
import Uncalled.Proofs.Lists
/-! What the text of a coverage profile says, apart from how it is read: numerals, blocks, lines and
the whole text are described as forms of text, and each reader accepts exactly the texts of its form
and gives back what they say. A block has no colon, so a line has one reading, whatever stands in
the name of its file. -/
namespace Uncalled.Profile

structure Numeral (digits : List Char) (n : Nat) : Prop where
  filled : digits ≠ []
  all : ∀ c ∈ digits, isDigit c = true
  value : digitsValue digits = n
  below : n < numberLimit

def BlockText (text : List Char) (b : Block) : Prop :=
  ∃ startLine startColumn endLine endColumn statements count,
    Numeral startLine b.span.startLine ∧ Numeral startColumn b.span.startColumn ∧
    Numeral endLine b.span.endLine ∧ Numeral endColumn b.span.endColumn ∧
    Numeral statements b.statements ∧ Numeral count b.count ∧
    text = startLine ++ '.' :: (startColumn ++ ',' :: (endLine ++ '.' :: (endColumn ++ ' ' ::
      (statements ++ ' ' :: count))))

def EntryText (line : List Char) (e : String × Block) : Prop :=
  e.1 ≠ "" ∧ ∃ text, BlockText text e.2 ∧ line = e.1.toList ++ ':' :: text

def filled (ls : List (List Char)) : List (List Char) := ls.filter fun line => !line.isEmpty

def Written (text : String) (mode : Mode) (es : List (String × Block)) : Prop :=
  ∃ rest, lines text.toList = ("mode: " ++ mode.word).toList :: rest ∧
    List.Forall₂ EntryText (filled rest) es

/- A text with the same first line and the same other lines, in any order. -/
def Reordered (text other : String) : Prop :=
  ∃ first before after, lines text.toList = first :: before ∧ lines other.toList = first :: after ∧
    (filled after).Perm (filled before)

theorem digitsTaken {digits rest : List Char} (all : ∀ c ∈ digits, isDigit c = true)
    (ends : ∀ c ∈ rest.head?, isDigit c = false) :
    (digits ++ rest).takeWhile isDigit = digits ∧ (digits ++ rest).dropWhile isDigit = rest := by
  rw [List.takeWhile_append_of_pos all, List.dropWhile_append_of_pos all]
  cases rest with
  | nil => simp
  | cons c rest => simp [ends c rfl]

theorem numeralAppend {digits : List Char} {n : Nat} (numeral : Numeral digits n) (rest : List Char)
    (ends : ∀ c ∈ rest.head?, isDigit c = false) : number? (digits ++ rest) = some (n, rest) := by
  obtain ⟨taken, dropped⟩ := digitsTaken numeral.all ends
  have below := numeral.below
  simp [number?, taken, dropped, numeral.filled, numeral.value, below]

theorem numberNumeral {cs rest : List Char} {n : Nat} (read : number? cs = some (n, rest)) :
    ∃ digits, Numeral digits n ∧ cs = digits ++ rest := by
  unfold number? at read
  dsimp only at read
  split at read
  · cases read
  · rename_i fits
    obtain ⟨filled, below⟩ := not_or.mp fits
    cases Option.some.inj read
    refine ⟨cs.takeWhile isDigit, ⟨by simpa using filled, ?_, rfl, Nat.not_le.mp below⟩,
      List.takeWhile_append_dropWhile.symm⟩
    intro c inside
    exact List.mem_takeWhile_imp inside

theorem numberUntilIff {mark : Char} (noDigit : isDigit mark = false) {cs rest : List Char}
    {n : Nat} : numberUntil? mark cs = some (n, rest) ↔
      ∃ digits, Numeral digits n ∧ cs = digits ++ mark :: rest := by
  constructor
  · intro read
    simp only [numberUntil?, bind, Option.bind_eq_some_iff] at read
    obtain ⟨⟨m, after⟩, number, matched⟩ := read
    obtain ⟨digits, numeral, rfl⟩ := numberNumeral number
    cases after with
    | nil => cases matched
    | cons c after =>
      dsimp only at matched
      split at matched
      · rename_i same
        cases Option.some.inj matched
        exact ⟨digits, numeral, by rw [same]⟩
      · cases matched
  · intro ⟨digits, numeral, text⟩
    have number := numeralAppend numeral (mark :: rest) (by simpa using noDigit)
    simp [numberUntil?, text, number]

theorem numberEnds {cs : List Char} {n : Nat} : number? cs = some (n, []) ↔ Numeral cs n := by
  constructor
  · intro read
    obtain ⟨digits, numeral, rfl⟩ := numberNumeral read
    simpa using numeral
  · intro numeral
    simpa using numeralAppend numeral [] (by simp)

theorem blockIff {cs : List Char} {b : Block} : block? cs = some b ↔ BlockText cs b := by
  have dot : isDigit '.' = false := by decide
  have comma : isDigit ',' = false := by decide
  have space : isDigit ' ' = false := by decide
  constructor
  · intro read
    simp only [block?, bind, Option.bind_eq_some_iff, Prod.exists, numberUntilIff dot,
      numberUntilIff comma, numberUntilIff space] at read
    obtain ⟨m, _, ⟨startLine, first, rfl⟩, n, _, ⟨startColumn, second, rfl⟩, k, _,
      ⟨endLine, third, rfl⟩, l, _, ⟨endColumn, fourth, rfl⟩, i, _, ⟨statements, fifth, rfl⟩, j,
      rest, last, matched⟩ := read
    cases rest with
    | nil =>
      cases Option.some.inj matched
      exact ⟨startLine, startColumn, endLine, endColumn, statements, _, first, second, third,
        fourth, fifth, numberEnds.mp last, rfl⟩
    | cons c rest => cases matched
  · intro ⟨startLine, startColumn, endLine, endColumn, statements, count, first, second, third,
      fourth, fifth, last, text⟩
    simp only [block?, bind, Option.bind_eq_some_iff, Prod.exists, numberUntilIff dot,
      numberUntilIff comma, numberUntilIff space]
    exact ⟨_, _, ⟨startLine, first, text⟩, _, _, ⟨startColumn, second, rfl⟩, _, _,
      ⟨endLine, third, rfl⟩, _, _, ⟨endColumn, fourth, rfl⟩, _, _, ⟨statements, fifth, rfl⟩, _, _,
      numberEnds.mpr last, rfl⟩

theorem splitLastNone {c : Char} {text : List Char} : splitLast c text = none ↔ c ∉ text := by
  induction text with
  | nil => simp [splitLast]
  | cons x xs ih =>
    rw [List.mem_cons, not_or, ← ih, splitLast]
    cases splitLast c xs with
    | none => simp [eq_comm]
    | some parts => simp

theorem splitLastIff {c : Char} {text before after : List Char} :
    splitLast c text = some (before, after) ↔ text = before ++ c :: after ∧ c ∉ after := by
  constructor
  · intro split
    induction text generalizing before with
    | nil => cases split
    | cons x xs ih =>
      cases found : splitLast c xs with
      | none =>
        simp only [splitLast, found, Option.ite_none_right_eq_some, Option.some.injEq,
          Prod.mk.injEq] at split
        obtain ⟨rfl, rfl, rfl⟩ := split
        exact ⟨rfl, splitLastNone.mp found⟩
      | some parts =>
        simp only [splitLast, found, Option.some.injEq, Prod.mk.injEq] at split
        obtain ⟨rfl, rfl⟩ := split
        obtain ⟨rest, absent⟩ := ih found
        exact ⟨by rw [rest]; rfl, absent⟩
  · intro ⟨text, absent⟩
    subst text
    induction before with
    | nil => simp [splitLast, splitLastNone.mpr absent]
    | cons x before ih => simp [splitLast, ih]

theorem noColon {text : List Char} {b : Block} (block : BlockText text b) : ':' ∉ text := by
  have digit : ∀ {digits n}, Numeral digits n → ':' ∉ digits := fun numeral inside =>
    absurd (numeral.all ':' inside) (by decide)
  obtain ⟨_, _, _, _, _, _, first, second, third, fourth, fifth, last, rfl⟩ := block
  simp [digit first, digit second, digit third, digit fourth, digit fifth, digit last]

theorem entryIff {line : List Char} {e : String × Block} :
    entry? line = some e ↔ EntryText line e := by
  constructor
  · intro read
    simp only [ entry?, bind, Option.bind_eq_some_iff, Prod.exists] at read
    obtain ⟨name, rest, split, named⟩ := read
    split at named
    · cases named
    · rename_i filled
      simp only [Option.bind_eq_some_iff] at named
      obtain ⟨b, block, same⟩ := named
      cases Option.some.inj same
      obtain ⟨rfl, _⟩ := splitLastIff.mp split
      refine ⟨by simpa using filled, rest, blockIff.mp block, ?_⟩
      rw [String.toList_ofList]
  · intro ⟨named, text, block, line⟩
    have split := splitLastIff.mpr ⟨line, noColon block⟩
    simpa [ entry?, split, blockIff.mpr block] using named

theorem entriesIff {n : Nat} {ls : List (List Char)} {es : List (String × Block)} :
    entries n ls = .ok es ↔ List.Forall₂ EntryText (filled ls) es := by
  unfold filled at *
  induction ls generalizing n es with
  | nil => simp [entries, eq_comm]
  | cons line ls ih =>
    unfold entries
    split
    · rename_i blank
      rw [ih, List.filter_cons_of_neg (by simp [blank])]
    · rename_i full
      rw [List.filter_cons_of_pos (by simpa using full)]
      cases read : entry? line with
      | none => cases es <;> simp [← entryIff, read]
      | some e =>
        cases later : entries (n + 1) ls with
        | error cause => cases es <;> simp [← ih (n := n + 1), later]
        | ok rest =>
          cases es <;> simp [← entryIff, ← ih (n := n + 1), read, later]

theorem entriesBelow {ls : List (List Char)} {es : List (String × Block)}
    (texts : List.Forall₂ EntryText ls es) : ∀ e ∈ es, e.2.count < numberLimit := by
  intro e inside
  induction texts with
  | nil => cases inside
  | cons first rest ih =>
    rcases List.mem_cons.mp inside with rfl | behind
    · obtain ⟨_, _, ⟨_, _, _, _, _, _, _, _, _, _, _, count, _⟩, _⟩ := first
      exact count.below
    · exact ih behind

theorem wordIff {s : String} {m : Mode} : Mode.ofWord? s = some m ↔ s = m.word := by
  constructor
  · intro found
    unfold Mode.ofWord? at found
    split at found
    · cases found; assumption
    · split at found
      · cases found; assumption
      · split at found
        · cases found; assumption
        · cases found
  · rintro rfl
    cases m <;> rfl

theorem modeIff {line : List Char} {m : Mode} :
    mode? line = some m ↔ line = ("mode: " ++ m.word).toList := by
  unfold mode?
  constructor
  · intro found
    split at found
    · rename_i front
      obtain ⟨word, rfl⟩ := List.isPrefixOf_iff_prefix.mp front
      have same := wordIff.mp found
      rw [String.toList_append, ← same]
      simp
    · cases found
  · rintro rfl
    have front : "mode: ".toList.isPrefixOf ("mode: " ++ m.word).toList = true := by
      rw [List.isPrefixOf_iff_prefix, String.toList_append]
      exact List.prefix_append _ _
    rw [if_pos front, wordIff]
    simp

theorem reorderedWritten {text other : String} {mode : Mode} {es : List (String × Block)}
    (written : Written text mode es) (reordered : Reordered text other) :
    ∃ fs, Written other mode fs ∧ fs.Perm es := by
  obtain ⟨rest, header, texts⟩ := written
  obtain ⟨first, before, after, left, right, perm⟩ := reordered
  obtain ⟨rfl, rfl⟩ := List.cons.inj (header.symm.trans left)
  obtain ⟨fs, otherTexts, same⟩ := List.perm_comp_forall₂ perm texts
  exact ⟨fs, ⟨after, right, otherTexts⟩, same⟩

def assemble (mode : Mode) (es : List (String × Block)) : Except ProfileError (List Profile) := do
  let profiles ← (groups es).mapM (ofGroup mode)
  return profiles.mergeSort fun a b => a.file ≤ b.file

theorem parseIff {text : String} {ps : List Profile} :
    parse text = .ok ps ↔ ∃ mode es, Written text mode es ∧ assemble mode es = .ok ps := by
  unfold parse
  constructor
  · intro ok
    split at ok
    · cases ok
    · rename_i first rest lines
      split at ok
      · cases ok
      · rename_i mode named
        cases read : entries 2 rest with
        | error e => simp [read] at ok
        | ok es =>
          refine ⟨mode, es, ⟨rest, ?_, entriesIff.mp read⟩, ?_⟩
          · rw [lines, modeIff.mp named]
          · rw [read] at ok
            exact ok
  · intro ⟨mode, es, ⟨rest, lines, texts⟩, assembled⟩
    rw [lines]
    simp only [modeIff.mpr rfl, entriesIff.mpr texts]
    exact assembled

end Uncalled.Profile
