import Uncalled.Proofs.ExitStatus
import Uncalled.Proofs.Listing
import Uncalled.Summary
/-! The text of a gap and its JSON report say the same. Line by line the text is what the report
makes of it, and as the width comes from the longest name that is listed, no name is too long for
its column. -/
namespace Uncalled

/- A name at the right end of its column. What follows it begins in the same place in every line. -/
structure EntryLine (width : Nat) (e : Entry) (line : List Char) : Prop where
  name : ∃ blanks, blanks + e.name.length = width ∧
    line.take (width + 1) = '\t' :: (List.replicate blanks ' ' ++ e.name.toList)
  number : line.drop (width + 1) = (" on line " ++ Nat.repr e.line).toList

def FileLines (width : Nat) (entry : String × List Entry) (lines : List (List Char)) : Prop :=
  ∃ rest, lines = ("in " ++ entry.1 ++ ":").toList :: rest ∧
    List.Forall₂ (EntryLine width) entry.2 rest

def JsonReport.gradeLine (j : JsonReport) : String :=
  "Grade: " ++ (Nat.repr j.score ++ "% " ++ j.grade) ++ " (" ++ Nat.repr j.called ++ "/" ++
    Nat.repr j.declared ++ " functions)"

def listHeader : String := "Functions without direct unit tests:"

structure JsonReport.Lines (width : Nat) (j : JsonReport) (lines : List (List Char)) : Prop where
  complete : j.details = [] → lines = [j.gradeLine.toList]
  missing : j.details ≠ [] → ∃ groups, List.Forall₂ (FileLines width) j.details groups ∧
    lines = listHeader.toList :: (groups.flatten ++ [[], j.gradeLine.toList, []])

def JsonReport.Unbroken (j : JsonReport) : Prop :=
  ∀ entry ∈ j.details, '\n' ∉ entry.1.toList ∧ ∀ e ∈ entry.2, '\n' ∉ e.name.toList

def rowText (width : Nat) (d : Declaration) : List Char :=
  '\t' :: (alignRight width d.name ++ " on line " ++ Nat.repr d.start.line).toList

def groupText (width : Nat) (entry : String × List Declaration) : List (List Char) :=
  ("in " ++ entry.1 ++ ":").toList :: entry.2.map (rowText width)

theorem intercalateCons (line : List Char) (lines : List (List Char)) :
    ['\n'].intercalate (line :: lines) = line ++ lines.flatMap ('\n' :: ·) := by
  induction lines generalizing line with
  | nil => simp
  | cons next lines ih => rw [List.intercalate_cons_cons, ih]; simp

theorem functionLineText (width : Nat) (d : Declaration) :
    (functionLine width d).toList = '\n' :: rowText width d := by
  simp [functionLine, rowText]

theorem fileLinesText (width : Nat) (entry : String × List Declaration) :
    (fileLines false width entry).toList = (groupText width entry).flatMap ('\n' :: ·) := by
  simp [fileLines, groupText, paint, String.toList_join, List.flatMap_map, functionLineText]

theorem rowShown {width : Nat} {d : Declaration} (fits : d.name.length ≤ width) :
    EntryLine width ⟨d.name, d.start.line⟩ (rowText width d) := by
  have aligned : (alignRight width d.name).toList =
      List.replicate (width - d.name.length) ' ' ++ d.name.toList := by
    rw [alignRight, String.toList_append, String.toList_ofList]
  have front : ('\t' :: (alignRight width d.name).toList).length = width + 1 := by
    rw [List.length_cons, aligned, List.length_append, List.length_replicate, String.length_toList]
    omega
  have whole : rowText width d = ('\t' :: (alignRight width d.name).toList) ++
      (" on line " ++ Nat.repr d.start.line).toList := by simp [rowText]
  constructor
  · refine ⟨width - d.name.length, Nat.sub_add_cancel fits, ?_⟩
    rw [whole, List.take_left' front, aligned]
  · rw [whole, List.drop_left' front]

theorem groupShown {width : Nat} {entry : String × List Declaration}
    (fits : ∀ d ∈ entry.2, d.name.length ≤ width) :
    FileLines width (entry.1, entry.2.map fun d => ⟨d.name, d.start.line⟩)
      (groupText width entry) := by
  refine ⟨_, rfl, ?_⟩
  rw [List.forall₂_map_left_iff, List.forall₂_map_right_iff, List.forall₂_same]
  exact fun d inside => rowShown (fits d inside)

theorem gradeLineSame (g : Gap) : gradeLine false g = g.report.gradeLine := rfl

theorem headerNoGrade (j : JsonReport) : listHeader.toList ≠ j.gradeLine.toList := by
  intro same
  have front : j.gradeLine.toList.head? = some 'G' := by
    simp only [JsonReport.gradeLine, String.toList_append]
    rfl
  rw [← same] at front
  exact absurd front (by decide)

def Gap.lines (g : Gap) : List (List Char) :=
  if g.isComplete then [g.report.gradeLine.toList]
  else listHeader.toList ::
    (g.details.flatMap (groupText g.longestName) ++ [[], g.report.gradeLine.toList, []])

theorem textLines (g : Gap) : (g.text false).toList = ['\n'].intercalate g.lines := by
  unfold Gap.text Gap.lines
  split
  · rw [gradeLineSame, intercalateCons, List.flatMap_nil, List.append_nil]
  · rw [gradeLineSame, intercalateCons]
    change (listHeader ++ String.join _ ++ "\n\n" ++ _ ++ "\n").toList = _
    simp [String.toList_join, List.flatMap_map, List.flatMap_assoc, fileLinesText]

theorem rowUnbroken {width : Nat} {d : Declaration} (plain : '\n' ∉ d.name.toList) :
    '\n' ∉ rowText width d := by
  have digits : '\n' ∉ Nat.toDigits 10 d.start.line := Text.digitsPlain (by decide) _
  simp [rowText, alignRight, plain, digits]

theorem detailsNone (g : Gap) : g.report.details = [] ↔ g.isComplete = true := by
  rw [Gap.isComplete, List.isEmpty_iff, Gap.report, List.map_eq_nil_iff]

theorem linesUnbroken {g : Gap} (unbroken : g.report.Unbroken) : ∀ line ∈ g.lines, '\n' ∉ line := by
  have grade : '\n' ∉ g.report.gradeLine.toList := gradeLineSame g ▸ (gradeUnbroken false g).1
  have group : ∀ entry ∈ g.details, ∀ line ∈ groupText g.longestName entry, '\n' ∉ line := by
    intro entry inside
    obtain ⟨file, names⟩ := unbroken _ (List.mem_map_of_mem inside)
    refine List.forall_mem_cons.mpr ⟨by simp [file], ?_⟩
    intro line row
    obtain ⟨d, among, rfl⟩ := List.mem_map.mp row
    exact rowUnbroken (names _ (List.mem_map_of_mem among))
  intro line inside
  unfold Gap.lines at inside
  split at inside
  · rw [List.mem_singleton.mp inside]
    exact grade
  · simp only [List.mem_cons, List.mem_append, List.mem_flatMap,
      List.not_mem_nil, or_false] at inside
    rcases inside with header | ⟨entry, among, row⟩ | blank | own | blank
    · rw [header]
      decide
    · exact group entry among line row
    · simp [blank]
    · exact own ▸ grade
    · simp [blank]

/- The lines of the text are those that the JSON report gives, for every gap of a report. -/
theorem textAgrees {r : Report} {g : Gap} (found : Gap.ofReport? r = some g) :
    ∃ lines, g.report.Lines g.longestName lines ∧
      (g.text false).toList = ['\n'].intercalate lines ∧
      (g.report.Unbroken → (g.text false).toList.splitOn '\n' = lines) ∧
      (listHeader.toList ∈ lines ↔ g.report.details ≠ []) := by
  refine ⟨g.lines, ⟨?_, ?_⟩, textLines g, ?_, ?_⟩
  · intro complete
    exact if_pos ((detailsNone g).mp complete)
  · intro missing
    refine ⟨g.details.map (groupText g.longestName), ?_, ?_⟩
    · change List.Forall₂ _ (g.details.map _) _
      rw [List.forall₂_map_left_iff, List.forall₂_map_right_iff, List.forall₂_same]
      intro entry inside
      exact groupShown fun d among => (Gap.longestListed found).2 d
        (List.mem_flatMap.mpr ⟨entry, inside, among⟩)
    · rw [Gap.lines, if_neg (mt (detailsNone g).mpr missing), List.flatMap_def]
  · intro unbroken
    rw [textLines]
    refine List.splitOn_intercalate '\n' (linesUnbroken unbroken) ?_
    unfold Gap.lines
    split <;> simp
  · rw [ne_eq, detailsNone, Gap.lines]
    split
    · next complete => simp only [complete, List.mem_singleton, headerNoGrade, not_true]
    · next missing => simp [missing]

theorem looseReportAgrees : Gap.ofReport? looseReport = some looseGap ∧
    looseGap.report.details = [("a.go", [⟨"zag", 9⟩]), ("b.go", [⟨"ab", 2⟩, ⟨"größe", 2⟩])] ∧
    looseGap.report.Unbroken ∧
    looseGap.report.Lines 5 ((looseGap.text false).toList.splitOn '\n') ∧
    looseGap.text false = "Functions without direct unit tests:\nin a.go:\n\t  zag on line 9\nin " ++
      "b.go:\n\t   ab on line 2\n\tgröße on line 2\n\nGrade: 40% F (2/5 functions)\n" := by
  have unbroken : looseGap.report.Unbroken := by
    unfold JsonReport.Unbroken
    decide
  obtain ⟨lines, shown, -, split, -⟩ := textAgrees looseReportGap
  exact ⟨looseReportGap, by decide, unbroken, split unbroken ▸ shown, by decide +kernel⟩

end Uncalled
