import Uncalled.Proofs.ProfileConflicts
import Uncalled.Proofs.ProfileRoundTrip
/-! What is wrong with the text of a coverage profile. It may have no line, its first line may name
no mode, a later line may be no block, and two lines may disagree on one block. The reader names the
first of these that holds, and which one that is can be told from the text alone. -/
namespace Uncalled.Profile

/- The lines of a text. Only the last may lack its end, and then it is not empty. -/
inductive Lined : List Char → List (List Char) → Prop
  | nothing : Lined [] []
  | last {line : List Char} (filled : line ≠ []) (plain : '\n' ∉ line) : Lined line [line]
  | feed {line rest : List Char} {ls : List (List Char)} (unbroken : Unbroken line)
      (more : Lined rest ls) : Lined (line ++ '\n' :: rest) (line :: ls)
  | returned {line rest : List Char} {ls : List (List Char)} (plain : '\n' ∉ line)
      (more : Lined rest ls) : Lined (line ++ '\r' :: '\n' :: rest) (line :: ls)

/- A line cut into the name of a file and six numbers, as they are written. -/
structure Parts where
  file : List Char
  startLine : List Char
  startColumn : List Char
  endLine : List Char
  endColumn : List Char
  statements : List Char
  count : List Char

namespace Parts

def numbers (p : Parts) : List (List Char) :=
  [p.startLine, p.startColumn, p.endLine, p.endColumn, p.statements, p.count]

def blockText (p : Parts) : List Char :=
  p.startLine ++ '.' :: (p.startColumn ++ ',' :: (p.endLine ++ '.' :: (p.endColumn ++ ' ' ::
    (p.statements ++ ' ' :: p.count))))

def block (p : Parts) : Block where
  span := ⟨digitsValue p.startLine, digitsValue p.startColumn, digitsValue p.endLine,
    digitsValue p.endColumn⟩
  statements := digitsValue p.statements
  count := digitsValue p.count

end Parts

structure Cut (line : List Char) (p : Parts) : Prop where
  named : p.file ≠ []
  digits : ∀ ds ∈ p.numbers, ds ≠ [] ∧ ∀ c ∈ ds, isDigit c = true
  text : line = p.file ++ ':' :: p.blockText

def Malformed (line : List Char) : Prop :=
  (∀ p, ¬ Cut line p) ∨ ∃ p, Cut line p ∧ ∃ ds ∈ p.numbers, numberLimit ≤ digitsValue ds

structure FirstMalformed (ls before : List (List Char)) (line : List Char)
    (after : List (List Char)) : Prop where
  split : ls = before ++ line :: after
  filled : line ≠ []
  bad : Malformed line
  good : ∀ other ∈ before, other ≠ [] → ¬ Malformed other

theorem linesPlain {c : Char} {cs line : List Char} {ls : List (List Char)} (noFeed : c ≠ '\n')
    (noReturn : c = '\r' → cs.head? ≠ some '\n') (more : lines cs = line :: ls) :
    lines (c :: cs) = (c :: line) :: ls := by
  rw [lines, more]
  · exact noFeed
  · intro rest returns same
    exact noReturn returns (by rw [same]; rfl)

theorem linesLast {line : List Char} (filled : line ≠ []) (plain : '\n' ∉ line) :
    lines line = [line] := by
  induction line with
  | nil => exact absurd rfl filled
  | cons c line ih =>
    obtain ⟨here, later⟩ := List.ne_and_not_mem_of_not_mem_cons plain
    cases line with
    | nil => simp [lines, here.symm]
    | cons d line =>
      exact linesPlain here.symm (fun _ next => later (List.mem_of_head? next)) (ih (by simp) later)

theorem linesReturned {line : List Char} (plain : '\n' ∉ line) (rest : List Char) :
    lines (line ++ '\r' :: '\n' :: rest) = line :: lines rest := by
  induction line with
  | nil => rw [List.nil_append, lines]
  | cons c line ih =>
    obtain ⟨here, later⟩ := List.ne_and_not_mem_of_not_mem_cons plain
    refine linesPlain here.symm (fun _ => ?_) (ih later)
    cases line with
    | nil => simp
    | cons d line => simpa [eq_comm] using (List.ne_and_not_mem_of_not_mem_cons later).1

theorem linesLined (cs : List Char) : Lined cs (lines cs) := by
  fun_induction lines cs with
  | case1 => exact .nothing
  | case2 cs ih => exact @Lined.feed [] _ _ ⟨by simp, by simp⟩ ih
  | case3 cs ih => exact @Lined.returned [] _ _ (by simp) ih
  | case4 c cs noFeed noReturn none ih =>
    rw [none] at ih
    cases ih
    exact .last (by simp) (by simpa [eq_comm] using noFeed)
  | case5 c cs noFeed noReturn line ls more ih =>
    have longer : '\n' ∉ line → '\n' ∉ c :: line :=
      List.not_mem_cons_of_ne_of_not_mem fun same => noFeed same.symm
    rw [more] at ih
    cases ih with
    | last some plain => exact .last (by simp) (longer plain)
    | feed unbroken rest =>
      refine @Lined.feed (c :: line) _ _ ⟨longer unbroken.1, ?_⟩ rest
      cases line with
      | nil => simpa using fun returns => noReturn _ returns rfl
      | cons d line => simpa using unbroken.2
    | returned plain rest => exact @Lined.returned (c :: line) _ _ (longer plain) rest

theorem linedIff {cs : List Char} {ls : List (List Char)} : Lined cs ls ↔ lines cs = ls := by
  constructor
  · intro lined
    induction lined with
    | nothing => rfl
    | last some plain => exact linesLast some plain
    | feed unbroken more ih => rw [linesCons unbroken, ih]
    | returned plain more ih => rw [linesReturned plain, ih]
  · rintro rfl
    exact linesLined cs

theorem digitsEnd {mark : Char} (noDigit : isDigit mark = false) {ds es rest more : List Char}
    (left : ∀ c ∈ ds, isDigit c = true) (right : ∀ c ∈ es, isDigit c = true)
    (same : ds ++ mark :: rest = es ++ mark :: more) : ds = es ∧ rest = more := by
  have first := @digitsTaken ds (mark :: rest) left (by simpa using noDigit)
  have second := @digitsTaken es (mark :: more) right (by simpa using noDigit)
  rw [same] at first
  exact ⟨first.1.symm.trans second.1, (List.cons.inj (first.2.symm.trans second.2)).2⟩

theorem cutColon {line : List Char} {p : Parts} (cut : Cut line p) : ':' ∉ p.blockText := by
  have plain : ∀ ds ∈ p.numbers, ':' ∉ ds := fun ds inside colon =>
    absurd ((cut.digits ds inside).2 ':' colon) (by decide)
  simp only [Parts.numbers, List.forall_mem_cons] at plain
  obtain ⟨first, second, third, fourth, fifth, last, -⟩ := plain
  simp [Parts.blockText, first, second, third, fourth, fifth, last]

theorem cutUnique {line : List Char} {p q : Parts} (left : Cut line p) (right : Cut line q) :
    p = q := by
  have dot : isDigit '.' = false := by decide
  have comma : isDigit ',' = false := by decide
  have space : isDigit ' ' = false := by decide
  have halves := (splitLastIff.mpr ⟨left.text, cutColon left⟩).symm.trans
    (splitLastIff.mpr ⟨right.text, cutColon right⟩)
  obtain ⟨file, text⟩ := Prod.mk.inj (Option.some.inj halves)
  have mine := left.digits
  have others := right.digits
  simp only [Parts.numbers, List.forall_mem_cons] at mine others
  obtain ⟨⟨_, l₁⟩, ⟨_, l₂⟩, ⟨_, l₃⟩, ⟨_, l₄⟩, ⟨_, l₅⟩, -⟩ := mine
  obtain ⟨⟨_, r₁⟩, ⟨_, r₂⟩, ⟨_, r₃⟩, ⟨_, r₄⟩, ⟨_, r₅⟩, -⟩ := others
  obtain ⟨startLine, text⟩ := digitsEnd dot l₁ r₁ text
  obtain ⟨startColumn, text⟩ := digitsEnd comma l₂ r₂ text
  obtain ⟨endLine, text⟩ := digitsEnd dot l₃ r₃ text
  obtain ⟨endColumn, text⟩ := digitsEnd space l₄ r₄ text
  obtain ⟨statements, count⟩ := digitsEnd space l₅ r₅ text
  cases p
  cases q
  simp_all

theorem entryCut {line : List Char} : (∃ e, EntryText line e) ↔
    ∃ p, Cut line p ∧ ∀ ds ∈ p.numbers, digitsValue ds < numberLimit := by
  constructor
  · intro ⟨e, named, _, ⟨a, b, c, d, s, n, first, second, third, fourth, fifth, last, rfl⟩, text⟩
    refine ⟨⟨e.1.toList, a, b, c, d, s, n⟩, ⟨by simpa using named, ?_, text⟩, ?_⟩
    · simp only [Parts.numbers, List.forall_mem_cons]
      exact ⟨⟨first.filled, first.all⟩, ⟨second.filled, second.all⟩, ⟨third.filled, third.all⟩,
        ⟨fourth.filled, fourth.all⟩, ⟨fifth.filled, fifth.all⟩, ⟨last.filled, last.all⟩, by simp⟩
    · simp only [Parts.numbers, List.forall_mem_cons, first.value, second.value, third.value,
        fourth.value, fifth.value, last.value]
      exact ⟨first.below, second.below, third.below, fourth.below, fifth.below, last.below, by simp⟩
  · intro ⟨p, cut, below⟩
    have numeral : ∀ ds ∈ p.numbers, Numeral ds (digitsValue ds) := fun ds inside =>
      ⟨(cut.digits ds inside).1, (cut.digits ds inside).2, rfl, below ds inside⟩
    simp only [Parts.numbers, List.forall_mem_cons] at numeral
    obtain ⟨first, second, third, fourth, fifth, last, -⟩ := numeral
    refine ⟨(String.ofList p.file, p.block), by simpa using cut.named, p.blockText,
      ⟨_, _, _, _, _, _, first, second, third, fourth, fifth, last, rfl⟩, ?_⟩
    rw [String.toList_ofList, cut.text]

theorem malformedIff {line : List Char} : Malformed line ↔ entry? line = none := by
  have read : entry? line = none ↔
      ¬ ∃ p, Cut line p ∧ ∀ ds ∈ p.numbers, digitsValue ds < numberLimit := by
    rw [← entryCut]
    simp only [← entryIff, Option.eq_none_iff_forall_ne_some, not_exists]
  rw [read]
  constructor
  · intro bad ⟨p, cut, below⟩
    rcases bad with unshaped | ⟨q, own, ds, inside, reached⟩
    · exact unshaped p cut
    · cases cutUnique cut own
      exact absurd (below ds inside) (Nat.not_lt.mpr reached)
  · intro unread
    by_cases shaped : ∃ p, Cut line p
    · obtain ⟨p, cut⟩ := shaped
      refine .inr ⟨p, cut, ?_⟩
      by_contra fits
      exact unread ⟨p, cut, by simpa using fits⟩
    · exact .inl (by simpa using shaped)

theorem entriesGood {line : List Char} (good : line ≠ [] → ¬ Malformed line) {n : Nat}
    {ls : List (List Char)} {e : ProfileError} :
    entries n (line :: ls) = .error e ↔ entries (n + 1) ls = .error e := by
  rw [entries]
  split
  · rfl
  · next full =>
    have filled : line ≠ [] := by simpa using full
    cases read : entry? line with
    | none => exact absurd (malformedIff.mpr read) (good filled)
    | some entry => exact pureFails

theorem entriesBad {line : List Char} (filled : line ≠ []) (bad : Malformed line) (n : Nat)
    (ls : List (List Char)) :
    entries n (line :: ls) = .error (.malformed n (String.ofList line)) := by
  rw [entries, if_neg (by simpa using filled), malformedIff.mp bad]

section
variable {line bad : List Char} {ls before after : List (List Char)}

theorem firstLater (good : line ≠ [] → ¬ Malformed line) :
    FirstMalformed (line :: ls) before bad after ↔
      ∃ tail, before = line :: tail ∧ FirstMalformed ls tail bad after := by
  constructor
  · intro first
    cases before with
    | nil =>
      cases first.split
      exact absurd first.bad (good first.filled)
    | cons other tail =>
      cases first.split
      exact ⟨tail, rfl, rfl, first.filled, first.bad, (List.forall_mem_cons.mp first.good).2⟩
  · intro ⟨tail, same, first⟩
    rw [same]
    exact ⟨congrArg (line :: ·) first.split, first.filled, first.bad,
      List.forall_mem_cons.mpr ⟨good, first.good⟩⟩

theorem firstHere (filled : line ≠ []) (wrong : Malformed line) :
    FirstMalformed (line :: ls) before bad after ↔ before = [] ∧ bad = line ∧ after = ls := by
  constructor
  · intro first
    cases before with
    | nil =>
      cases first.split
      exact ⟨rfl, rfl, rfl⟩
    | cons other tail =>
      cases first.split
      exact absurd wrong (first.good _ List.mem_cons_self filled)
  · rintro ⟨rfl, rfl, rfl⟩
    exact ⟨rfl, filled, wrong, by simp⟩

end

theorem entriesFail {n : Nat} {ls : List (List Char)} {e : ProfileError} :
    entries n ls = .error e ↔ ∃ before line after, FirstMalformed ls before line after ∧
      e = .malformed (n + before.length) (String.ofList line) := by
  induction ls generalizing n with
  | nil =>
    constructor
    · intro failed
      cases failed
    · intro ⟨_, _, _, first, _⟩
      simpa using first.split
  | cons line ls ih =>
    by_cases good : line ≠ [] → ¬ Malformed line
    · rw [entriesGood good, ih]
      constructor
      · intro ⟨tail, bad, after, first, cause⟩
        refine ⟨line :: tail, bad, after, (firstLater good).mpr ⟨tail, rfl, first⟩, ?_⟩
        rw [cause, List.length_cons, Nat.add_assoc, Nat.add_comm 1]
      · intro ⟨before, bad, after, first, cause⟩
        obtain ⟨tail, rfl, later⟩ := (firstLater good).mp first
        refine ⟨tail, bad, after, later, ?_⟩
        rw [cause, List.length_cons, Nat.add_assoc, Nat.add_comm 1]
    · obtain ⟨filled, notGood⟩ := Classical.not_imp.mp good
      have bad : Malformed line := not_not.mp notGood
      rw [entriesBad filled bad]
      constructor
      · intro same
        cases same
        exact ⟨[], line, ls, (firstHere filled bad).mpr ⟨rfl, rfl, rfl⟩, rfl⟩
      · intro ⟨before, other, after, first, cause⟩
        obtain ⟨rfl, rfl, -⟩ := (firstHere filled bad).mp first
        rw [cause]
        rfl

def Headed (text : String) (mode : Mode) (rest : List (List Char)) : Prop :=
  lines text.toList = ("mode: " ++ mode.word).toList :: rest

inductive Early (text : String) : ProfileError → Prop
  | empty (nothing : lines text.toList = []) : Early text .empty
  | missingMode (begun : lines text.toList ≠ [])
      (other : ∀ mode rest, ¬ Headed text mode rest) : Early text .missingMode
  | malformed {mode : Mode} {rest before after : List (List Char)} {line : List Char}
      (headed : Headed text mode rest) (first : FirstMalformed rest before line after) :
      Early text (.malformed (before.length + 2) (String.ofList line))

section
variable {text : String} {mode : Mode} {rest : List (List Char)}

theorem parseHeaded (headed : Headed text mode rest) :
    parse text = entries 2 rest >>= assemble mode := by
  have lined : lines text.toList = ("mode: " ++ mode.word).toList :: rest := headed
  simp only [parse, lined, modeIff.mpr rfl]
  rfl

theorem earlyFails {e : ProfileError} (early : Early text e) : parse text = .error e := by
  cases early with
  | empty none => rw [parse, none]
  | missingMode some other =>
    obtain ⟨first, rest, lined⟩ := List.exists_cons_of_ne_nil some
    have unknown : mode? first = none := Option.eq_none_iff_forall_ne_some.mpr fun mode found =>
      other mode rest (lined.trans (congrArg (· :: rest) (modeIff.mp found)))
    simp only [parse, lined, unknown]
  | malformed headed first =>
    rw [parseHeaded headed, entriesFail.mpr ⟨_, _, _, first, rfl⟩, Nat.add_comm]
    rfl

theorem writtenParse {es : List (String × Block)} (written : Written text mode es) :
    parse text = assemble mode es := by
  obtain ⟨rest, headed, texts⟩ := written
  rw [parseHeaded headed, entriesIff.mpr texts]
  rfl

theorem headedReads (headed : Headed text mode rest) :
    (∃ before line after, FirstMalformed rest before line after) ∨ ∃ es, Written text mode es := by
  cases read : entries 2 rest with
  | error e =>
    obtain ⟨before, line, after, first, -⟩ := entriesFail.mp read
    exact .inl ⟨before, line, after, first⟩
  | ok es => exact .inr ⟨es, rest, headed, entriesIff.mp read⟩

theorem writtenGood {es : List (String × Block)} (texts : List.Forall₂ EntryText (filled rest) es) :
    ∀ line ∈ rest, line ≠ [] → ¬ Malformed line := by
  intro line inside full bad
  have shown : line ∈ filled rest := List.mem_filter.mpr ⟨inside, by simpa using full⟩
  obtain ⟨i, bound, same⟩ := List.getElem_of_mem shown
  have entry := entryIff.mpr (texts.get bound (texts.length_eq ▸ bound))
  rw [List.get_eq_getElem, same, malformedIff.mp bad] at entry
  cases entry

theorem earlyIff {e : ProfileError} (early : ¬ Late e) : parse text = .error e ↔ Early text e := by
  -- A text that goes wrong early has one cause, so it is enough to find one.
  suffices found : (∃ cause, Early text cause) ∨ ∃ mode es, Written text mode es by
    refine ⟨fun failed => ?_, earlyFails⟩
    rcases found with ⟨cause, own⟩ | ⟨mode, es, written⟩
    · cases failed.symm.trans (earlyFails own)
      exact own
    · exact absurd (assembleLate ((writtenParse written).symm.trans failed)) early
  by_cases headed : ∃ mode rest, Headed text mode rest
  · obtain ⟨mode, rest, headed⟩ := headed
    rcases headedReads headed with ⟨_, _, _, first⟩ | written
    · exact .inl ⟨_, .malformed headed first⟩
    · exact .inr ⟨mode, written⟩
  · by_cases nothing : lines text.toList = []
    · exact .inl ⟨_, .empty nothing⟩
    · exact .inl ⟨_, .missingMode nothing (by simpa using headed)⟩

theorem emptyIff : parse text = .error .empty ↔ lines text.toList = [] := by
  rw [earlyIff (by simp [Late])]
  constructor
  · intro early
    cases early with
    | empty none => exact none
  · exact .empty

theorem missingModeIff : parse text = .error .missingMode ↔
    lines text.toList ≠ [] ∧ ∀ mode rest, ¬ Headed text mode rest := by
  rw [earlyIff (by simp [Late])]
  constructor
  · intro early
    cases early with
    | missingMode lined other => exact ⟨lined, other⟩
  · intro ⟨lined, other⟩
    exact .missingMode lined other

theorem malformedLineIff {n : Nat} {line : String} : parse text = .error (.malformed n line) ↔
    ∃ mode rest before bad after, Headed text mode rest ∧ FirstMalformed rest before bad after ∧
      n = before.length + 2 ∧ line = String.ofList bad := by
  rw [earlyIff (by simp [Late])]
  constructor
  · intro early
    cases early with
    | malformed headed first => exact ⟨_, _, _, _, _, headed, first, rfl, rfl⟩
  · intro ⟨_, _, _, _, _, headed, first, number, shown⟩
    rw [number, shown]
    exact .malformed headed first

theorem writtenIff (headed : Headed text mode rest) :
    (∃ es, Written text mode es) ↔ ∀ line ∈ rest, line ≠ [] → ¬ Malformed line := by
  constructor
  · intro ⟨es, other, lined, texts⟩
    cases headed.symm.trans lined
    exact writtenGood texts
  · intro good
    rcases headedReads headed with ⟨before, line, after, first⟩ | written
    · exact absurd first.bad (good line (by simp [first.split]) first.filled)
    · exact written

end

/- Each error is returned for exactly the texts it is meant for, and a text without any is read. -/
theorem faultsExact (text : String) :
    (∀ ls, Lined text.toList ls ↔ lines text.toList = ls) ∧
    (∀ line p q, Cut line p → Cut line q → p = q) ∧
    (parse text = .error .empty ↔ lines text.toList = []) ∧
    (parse text = .error .missingMode ↔
      lines text.toList ≠ [] ∧ ∀ mode rest, ¬ Headed text mode rest) ∧
    (∀ n line, parse text = .error (.malformed n line) ↔ ∃ mode rest before bad after,
      Headed text mode rest ∧ FirstMalformed rest before bad after ∧ n = before.length + 2 ∧
        line = String.ofList bad) ∧
    (∀ mode rest, Headed text mode rest →
      ((∃ es, Written text mode es) ↔ ∀ line ∈ rest, line ≠ [] → ¬ Malformed line)) ∧
    ∀ mode es, Written text mode es → (∀ file, Bounded mode (blocksOf file es)) →
      (∀ e, parse text = .error e ↔
        ∃ file span, FirstConflict es file span ∧ e = .inconsistent file span.startLine) ∧
      ((∃ ps, parse text = .ok ps) ↔ ∀ file span, ¬ Clash (blocksOf file es) span) := by
  refine ⟨fun _ => linedIff, fun _ _ _ => cutUnique, emptyIff, missingModeIff,
    fun _ _ => malformedLineIff, fun _ _ => writtenIff, ?_⟩
  intro mode es written bounded
  rw [writtenParse written]
  exact ⟨fun e => assembleFails (writtenBelow written) bounded,
    assembleOk (writtenBelow written) bounded⟩

/- The lines of both files disagree. The file that is later by name appears first, and of its two
blocks the later one does. -/
def tornText : String :=
  "mode: count\nb.go:5.1,6.2 1 1\na.go:1.1,2.2 1 1\n\na.go:1.1,2.2 2 1\r\n" ++
    "b.go:3.1,4.2 1 1\nb.go:3.1,4.2 2 1\nb.go:5.1,6.2 2 0"

def tornEntries : List (String × Block) :=
  [("b.go", ⟨⟨5, 1, 6, 2⟩, 1, 1⟩), ("a.go", ⟨⟨1, 1, 2, 2⟩, 1, 1⟩), ("a.go", ⟨⟨1, 1, 2, 2⟩, 2, 1⟩),
    ("b.go", ⟨⟨3, 1, 4, 2⟩, 1, 1⟩), ("b.go", ⟨⟨3, 1, 4, 2⟩, 2, 1⟩), ("b.go", ⟨⟨5, 1, 6, 2⟩, 2, 0⟩)]

theorem tornConflict : FirstConflict tornEntries "b.go" ⟨3, 1, 4, 2⟩ := by
  have own : blocksOf "b.go" tornEntries = [⟨⟨5, 1, 6, 2⟩, 1, 1⟩, ⟨⟨3, 1, 4, 2⟩, 1, 1⟩,
      ⟨⟨3, 1, 4, 2⟩, 2, 1⟩, ⟨⟨5, 1, 6, 2⟩, 2, 0⟩] := by decide +kernel
  refine ⟨⟨[], _, _, rfl, rfl, by simp⟩, ?_, fun other clash => ?_⟩
  · rw [own]
    exact ⟨⟨⟨3, 1, 4, 2⟩, 1, 1⟩, by simp, ⟨⟨3, 1, 4, 2⟩, 2, 1⟩, by simp, by simp⟩
  · rw [own] at clash
    refine clashAbove (fun b inside => ?_) clash
    rw [← Span.upToKey]
    revert b
    decide

theorem tornBounded (file : String) : Bounded .count (blocksOf file tornEntries) := by
  intro adds span
  have part : (countsAt span (blocksOf file tornEntries)).Sublist
      ((tornEntries.map Prod.snd).map Block.count) :=
    (List.filter_sublist.trans (List.filter_sublist.map _)).map _
  exact lt_of_le_of_lt (totalSublist part) (by decide)

theorem tornProfileRefused : Written tornText .count tornEntries ∧
    parse tornText = .error (.inconsistent "b.go" 3) ∧ ¬ ∃ ps, parse tornText = .ok ps := by
  have header : lines tornText.toList =
      ("mode: " ++ Mode.count.word).toList :: (lines tornText.toList).tail := by decide +kernel
  have read : entries 2 (lines tornText.toList).tail = .ok tornEntries := by decide +kernel
  have written : Written tornText .count tornEntries := ⟨_, header, entriesIff.mp read⟩
  obtain ⟨-, -, -, -, -, -, clashes⟩ := faultsExact tornText
  obtain ⟨fails, succeeds⟩ := clashes .count tornEntries written tornBounded
  refine ⟨written, (fails _).mpr ⟨_, _, tornConflict, rfl⟩, fun ok => ?_⟩
  exact succeeds.mp ok _ _ tornConflict.first.clash

end Uncalled.Profile
