import Uncalled.Proofs.ProfileMeaning
/-! Writing a coverage profile and reading it back. Every block gets a line of its own, and the
lines may come in any order. The name of a file is written as it is, also where it looks like a
block itself. -/
namespace Uncalled.Profile
open Text (encode)

def lineText (e : String × Block) : String :=
  e.1 ++ ":" ++ Nat.repr e.2.span.startLine ++ "." ++ Nat.repr e.2.span.startColumn ++ "," ++
    Nat.repr e.2.span.endLine ++ "." ++ Nat.repr e.2.span.endColumn ++ " " ++
    Nat.repr e.2.statements ++ " " ++ Nat.repr e.2.count

def profileText (mode : Mode) (es : List (String × Block)) : String :=
  "mode: " ++ mode.word ++ "\n" ++ String.join (es.map fun e => lineText e ++ "\n")

def entriesOf (ps : List Profile) : List (String × Block) :=
  ps.flatMap fun p => p.blocks.map fun b => (p.file, b)

abbrev Fits (b : Block) : Prop :=
  b.span.startLine < numberLimit ∧ b.span.startColumn < numberLimit ∧
    b.span.endLine < numberLimit ∧ b.span.endColumn < numberLimit ∧
    b.statements < numberLimit ∧ b.count < numberLimit

structure Printable (mode : Mode) (ps : List Profile) : Prop where
  sorted : ps.Pairwise fun p q => encode p.file < encode q.file
  modes : ∀ p ∈ ps, p.mode = mode
  named : ∀ p ∈ ps, p.file ≠ "" ∧ '\n' ∉ p.file.toList
  filled : ∀ p ∈ ps, p.blocks ≠ []
  ordered : ∀ p ∈ ps, p.blocks.Pairwise fun a b => a.span.key < b.span.key
  fits : ∀ p ∈ ps, ∀ b ∈ p.blocks, Fits b

theorem digitIff (c : Char) : isDigit c = true ↔ c.isDigit = true := by
  simp only [isDigit, Char.isDigit, Bool.and_eq_true, decide_eq_true_eq]
  rfl

theorem digitsValueEq (cs : List Char) : digitsValue cs = Nat.ofDigitChars 10 cs 0 := by
  unfold digitsValue Nat.ofDigitChars
  simp only [Nat.mul_comm]

theorem reprNumeral {n : Nat} (below : n < numberLimit) : Numeral (Nat.repr n).toList n := by
  rw [Nat.repr_eq_ofList_toDigits, String.toList_ofList]
  refine ⟨Nat.toDigits_ne_nil, ?_, ?_, below⟩
  · intro c inside
    exact (digitIff c).mpr (Nat.isDigit_of_mem_toDigits (by decide) (by decide) inside)
  · rw [digitsValueEq, Nat.ofDigitChars_toDigits (by decide) (by decide)]

theorem lineEntry {e : String × Block} (named : e.1 ≠ "") (fits : Fits e.2) :
    EntryText (lineText e).toList e := by
  obtain ⟨first, second, third, fourth, fifth, last⟩ := fits
  refine ⟨named, _, ⟨_, _, _, _, _, _, reprNumeral first, reprNumeral second, reprNumeral third,
    reprNumeral fourth, reprNumeral fifth, reprNumeral last, rfl⟩, ?_⟩
  simp [lineText, String.toList_append]

/- Neither a line feed nor anything that goes with one. -/
abbrev Unbroken (line : List Char) : Prop := '\n' ∉ line ∧ line.getLast? ≠ some '\r'

theorem linesCons {line : List Char} (unbroken : Unbroken line) (rest : List Char) :
    lines (line ++ '\n' :: rest) = line :: lines rest := by
  induction line with
  | nil => simp [lines]
  | cons c line ih =>
    obtain ⟨noFeed, noReturn⟩ := unbroken
    obtain ⟨notHere, notLater⟩ := List.ne_and_not_mem_of_not_mem_cons noFeed
    cases line with
    | nil =>
      have plain : c ≠ '\r' := by simpa using noReturn
      simp [lines, plain, notHere.symm]
    | cons d line =>
      have next : d ≠ '\n' := fun same => notLater (by simp [same])
      have later := ih ⟨notLater, by simpa using noReturn⟩
      rw [List.cons_append, List.cons_append] at *
      rw [lines, later]
      · exact fun same => notHere same.symm
      · intro _ _ same
        exact next (List.cons.inj same).1

theorem linesJoined {ls : List (List Char)} (unbroken : ∀ line ∈ ls, Unbroken line) :
    lines (ls.flatMap (· ++ ['\n'])) = ls := by
  induction ls with
  | nil => rfl
  | cons line ls ih =>
    obtain ⟨first, others⟩ := List.forall_mem_cons.mp unbroken
    rw [List.flatMap_cons, List.append_assoc, List.singleton_append, linesCons first, ih others]

theorem numeralUnbroken {digits : List Char} {n : Nat} (numeral : Numeral digits n) :
    Unbroken digits := by
  constructor
  · intro inside
    exact absurd (numeral.all _ inside) (by decide)
  · intro last
    exact absurd (numeral.all _ (List.mem_of_getLast? last)) (by decide)

theorem entryUnbroken {line : List Char} {e : String × Block} (entry : EntryText line e)
    (named : '\n' ∉ e.1.toList) : Unbroken line := by
  obtain ⟨_, _, ⟨a, b, c, d, s, n, first, second, third, fourth, fifth, last, rfl⟩, rfl⟩ := entry
  constructor
  · simp [named, (numeralUnbroken first).1, (numeralUnbroken second).1, (numeralUnbroken third).1,
      (numeralUnbroken fourth).1, (numeralUnbroken fifth).1, (numeralUnbroken last).1]
  · -- a line ends as its last number does
    have ending : e.1.toList ++ ':' :: (a ++ '.' :: (b ++ ',' :: (c ++ '.' :: (d ++ ' ' ::
        (s ++ ' ' :: n))))) = (e.1.toList ++ ':' :: (a ++ '.' :: (b ++ ',' :: (c ++ '.' ::
          (d ++ ' ' :: (s ++ [' '])))))) ++ n := by simp
    rw [ending, List.getLast?_append_of_ne_nil _ last.filled]
    exact (numeralUnbroken last).2

theorem profileTextWritten {mode : Mode} {es : List (String × Block)}
    (named : ∀ e ∈ es, e.1 ≠ "" ∧ '\n' ∉ e.1.toList) (fits : ∀ e ∈ es, Fits e.2) :
    Written (profileText mode es) mode es := by
  have texts : ∀ e ∈ es, EntryText (lineText e).toList e :=
    fun e inside => lineEntry (named e inside).1 (fits e inside)
  have whole : (profileText mode es).toList = (("mode: " ++ mode.word).toList ::
      es.map fun e => (lineText e).toList).flatMap (· ++ ['\n']) := by
    simp [profileText, String.toList_append, String.toList_join, List.flatMap_map]
  have header : Unbroken ("mode: " ++ mode.word).toList := by
    cases mode <;> decide
  have unbroken : ∀ line ∈ ("mode: " ++ mode.word).toList :: es.map fun e => (lineText e).toList,
      Unbroken line := by
    refine List.forall_mem_cons.mpr ⟨header, ?_⟩
    intro line inside
    obtain ⟨e, among, rfl⟩ := List.mem_map.mp inside
    exact entryUnbroken (texts e among) (named e among).2
  refine ⟨es.map fun e => (lineText e).toList, ?_, ?_⟩
  · rw [whole, linesJoined unbroken]
  · have full : filled (es.map fun e => (lineText e).toList) =
        es.map fun e => (lineText e).toList := by
      refine List.filter_eq_self.mpr fun line inside => ?_
      obtain ⟨e, among, rfl⟩ := List.mem_map.mp inside
      obtain ⟨_, _, _, text⟩ := texts e among
      simp [text]
    rw [full, List.forall₂_map_left_iff, List.forall₂_same]
    exact texts

theorem mergedItself {mode : Mode} {bs : List Block}
    (ordered : bs.Pairwise fun a b => a.span.key < b.span.key)
    (below : ∀ b ∈ bs, b.count < numberLimit) : Merged mode bs bs := by
  induction bs with
  | nil => exact mergedNil.mpr rfl
  | cons b bs ih =>
    obtain ⟨first, rest⟩ := List.pairwise_cons.mp ordered
    obtain ⟨bound, others⟩ := List.forall_mem_cons.mp below
    exact (mergedCons first first bound).mpr (ih rest others)

theorem blocksOfEntries {ps : List Profile} {p : Profile}
    (sorted : ps.Pairwise fun p q => encode p.file < encode q.file) (inside : p ∈ ps) :
    blocksOf p.file (entriesOf ps) = p.blocks := by
  have own : ∀ q : Profile, blocksOf p.file (q.blocks.map fun b => (q.file, b)) =
      if q.file = p.file then q.blocks else [] := by
    intro q
    by_cases same : q.file = p.file <;> simp [blocksOf, same, Function.comp_def, List.filter_map]
  have split : blocksOf p.file (entriesOf ps) =
      ps.flatMap fun q => if q.file = p.file then q.blocks else [] := by
    rw [funext fun q => (own q).symm]
    simp only [blocksOf, entriesOf, List.filter_flatMap, List.map_flatMap]
  -- only one of the profiles has the file, so the others add nothing to it
  have alone : ps.flatMap (fun q => if q.file = p.file then q.blocks else []) =
      [p].flatMap fun q => if q.file = p.file then q.blocks else [] := by
    refine flatMapMatched (fun s t : Text.Bytes => s < t) (fun q => encode q.file)
      (List.pairwise_singleton ..) sorted ?_ ?_
    · intro q among
      rw [List.mem_singleton.mp among]
      exact ⟨p, inside, rfl, rfl⟩
    · intro q _
      by_cases same : q.file = p.file
      · exact .inl ⟨p, List.mem_singleton_self p, by rw [same]⟩
      · exact .inr (if_neg same)
  rw [split, alone]
  simp

theorem printableMeaning {mode : Mode} {ps : List Profile} (ok : Printable mode ps) :
    Meaning mode (entriesOf ps) ps where
  sorted := ok.sorted
  files name := by
    simp only [entriesOf, List.mem_flatMap, List.mem_map]
    constructor
    · rintro ⟨p, inside, rfl⟩
      obtain ⟨b, block⟩ := List.exists_mem_of_ne_nil _ (ok.filled p inside)
      exact ⟨(p.file, b), ⟨p, inside, b, block, rfl⟩, rfl⟩
    · rintro ⟨_, ⟨p, inside, b, _, rfl⟩, rfl⟩
      exact ⟨p, inside, rfl⟩
  modes := ok.modes
  filled := ok.filled
  blocks p inside := by
    rw [blocksOfEntries ok.sorted inside]
    exact mergedItself (ok.ordered p inside) fun b among => (ok.fits p inside b among).2.2.2.2.2

/- Profiles that are written, with their lines in any order, are read back as they were. -/
theorem profilesReadBack {mode : Mode} {ps : List Profile} {es : List (String × Block)}
    (ok : Printable mode ps) (reordered : es.Perm (entriesOf ps)) :
    parse (profileText mode es) = .ok ps := by
  have source : ∀ e ∈ es, ∃ p ∈ ps, ∃ b ∈ p.blocks, (p.file, b) = e := by
    intro e inside
    simpa [entriesOf] using reordered.mem_iff.mp inside
  have named : ∀ e ∈ es, e.1 ≠ "" ∧ '\n' ∉ e.1.toList := by
    intro e inside
    obtain ⟨p, among, b, _, rfl⟩ := source e inside
    exact ok.named p among
  have fits : ∀ e ∈ es, Fits e.2 := by
    intro e inside
    obtain ⟨p, among, b, block, rfl⟩ := source e inside
    exact ok.fits p among b block
  have meaning := meaningPerm reordered.symm (printableMeaning ok)
  exact parsedIff.mpr ⟨mode, es, profileTextWritten named fits, meaning⟩

/- Names that end like a line, in a carriage return, or above the first characters. -/
def oddProfiles : List Profile :=
  [⟨"a.go", .atomic, [⟨⟨1, 2, 3, 4⟩, 5, 6⟩, ⟨⟨1, 2, 3, 5⟩, 0, 18446744073709551615⟩]⟩,
    ⟨"a.go:1.2,3.4 5 6", .atomic, [⟨⟨1, 2, 3, 4⟩, 5, 6⟩]⟩,
    ⟨"b:\r", .atomic, [⟨⟨0, 0, 0, 0⟩, 18446744073709551615, 0⟩]⟩,
    ⟨"ö, 1", .atomic, [⟨⟨10, 2, 10, 2⟩, 1, 1⟩]⟩]

theorem oddProfilesReadBack : Printable .atomic oddProfiles ∧
    (entriesOf oddProfiles).reverse.Perm (entriesOf oddProfiles) ∧
    parse (profileText .atomic (entriesOf oddProfiles).reverse) = .ok oddProfiles := by
  have ok : Printable .atomic oddProfiles :=
    ⟨by decide +kernel, by decide +kernel, by decide +kernel, by decide +kernel, by decide +kernel,
      by decide +kernel⟩
  have reordered := List.reverse_perm (entriesOf oddProfiles)
  exact ⟨ok, reordered, profilesReadBack ok reordered⟩

end Uncalled.Profile
