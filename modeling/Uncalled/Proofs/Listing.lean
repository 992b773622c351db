import Mathlib.Data.Prod.Lex
import Mathlib.Data.String.Basic
import Uncalled.Proofs.ByteOrder
import Uncalled.Proofs.Conservation
import Uncalled.Proofs.Lists
/-! The listing of missing functions. Names, entries and calls need not fit together; what is
declared, has an entry and is not called is listed once, under its own file. The listing is sorted
first and cut into files afterwards, so the order of the files and that of their functions are one
order, in which the names decide last. -/
namespace Uncalled
open Text (encode encodeLt)

def Gap.listed (g : Gap) : List Declaration := g.details.flatMap Prod.snd

def Ahead (a b : Declaration) : Prop :=
  encode a.file < encode b.file ∨ a.file = b.file ∧
    (a.start.line < b.start.line ∨ a.start.line = b.start.line ∧
      (a.start.offset < b.start.offset ∨ a.start.offset = b.start.offset ∧
        encode a.name < encode b.name))

structure Gap.Lists (r : Report) (g : Gap) : Prop where
  listed : ∀ file d, (∃ ds, (file, ds) ∈ g.details ∧ d ∈ ds) ↔
    file = d.file ∧ d.name ∈ r.declared ∧ r.find? d.name = some d ∧ d.name ∉ r.called
  once : g.listed.Nodup
  files : (g.details.map Prod.fst).Pairwise fun a b => encode a < encode b
  filled : ∀ e ∈ g.details, e.2 ≠ []
  ordered : g.listed.Pairwise Ahead
  longest : ∀ d ∈ g.listed, d.name.length ≤ g.longestName
  reached : g.longestName = 0 ∨ ∃ d ∈ g.listed, d.name.length = g.longestName

namespace Report

theorem missingMember (r : Report) (d : Declaration) : d ∈ r.missing ↔
    d.name ∈ r.declared ∧ r.find? d.name = some d ∧ d.name ∉ r.called := by
  simp only [missing, List.mem_filterMap, List.mem_filter, Bool.not_eq_true', List.contains_iff_mem,
    ← Bool.not_eq_true]
  constructor
  · rintro ⟨name, ⟨declared, uncalled⟩, found⟩
    cases findName found
    exact ⟨declared, found, uncalled⟩
  · rintro ⟨declared, found, uncalled⟩
    exact ⟨d.name, ⟨declared, uncalled⟩, found⟩

theorem missingSorted (r : Report) : r.missing.Pairwise fun a b => a.name < b.name := by
  refine (r.declared.sorted.filter _).filterMap _ fun name other less a found b next => ?_
  cases findName found
  cases findName next
  exact less

end Report

def Declaration.place (d : Declaration) : String ×ₗ ℕ ×ₗ ℕ :=
  toLex (d.file, toLex (d.start.line, d.start.offset))

theorem listedBeforePlace (a b : Declaration) : listedBefore a b = true ↔ a.place ≤ b.place := by
  simp only [listedBefore, Declaration.place, Prod.Lex.toLex_le_toLex, Bool.or_eq_true,
    Bool.and_eq_true, decide_eq_true_eq]

theorem placeAhead {a b : Declaration}
    (less : a.place < b.place ∨ a.place = b.place ∧ a.name < b.name) : Ahead a b := by
  simp only [Declaration.place, Prod.Lex.toLex_lt_toLex, toLex_inj, Prod.mk.injEq] at less
  simp only [Ahead, encodeLt]
  tauto

theorem placeFile {a b : Declaration} (upTo : a.place ≤ b.place) : a.file ≤ b.file := by
  simp only [Declaration.place, Prod.Lex.toLex_le_toLex] at upTo
  rcases upTo with less | ⟨same, _⟩
  · exact less.le
  · exact same.le

theorem listingOrdered {ds : List Declaration} (sorted : ds.Pairwise fun a b => a.name < b.name) :
    (ds.mergeSort listedBefore).Pairwise Ahead :=
  (mergeSortStable listedBeforePlace sorted).imp placeAhead

theorem byFileOwn (ds : List Declaration) :
    ∀ e ∈ byFile ds, e.2 ≠ [] ∧ ∀ d ∈ e.2, d.file = e.1 := by
  induction ds with
  | nil => simp [byFile]
  | cons d ds ih =>
    unfold byFile
    split
    · simp
    · rename_i file group rest grouped
      rw [grouped] at ih
      obtain ⟨⟨_, own⟩, others⟩ := List.forall_mem_cons.mp ih
      split
      · rename_i same
        refine List.forall_mem_cons.mpr ⟨⟨by simp, ?_⟩, others⟩
        exact List.forall_mem_cons.mpr ⟨same.symm, own⟩
      · exact List.forall_mem_cons.mpr ⟨by simp, ih⟩

theorem byFileMember (ds : List Declaration) (file : String) (d : Declaration) :
    (∃ group, (file, group) ∈ byFile ds ∧ d ∈ group) ↔ file = d.file ∧ d ∈ ds := by
  have flat : d ∈ ds ↔ ∃ e ∈ byFile ds, d ∈ e.2 := by
    rw [← List.mem_flatMap, byFileFlat]
  constructor
  · rintro ⟨group, inside, among⟩
    exact ⟨((byFileOwn ds _ inside).2 d among).symm, flat.mpr ⟨_, inside, among⟩⟩
  · rintro ⟨rfl, inside⟩
    obtain ⟨⟨file, group⟩, entry, among⟩ := flat.mp inside
    obtain rfl : d.file = file := (byFileOwn ds _ entry).2 d among
    exact ⟨group, entry, among⟩

theorem byFileSorted {ds : List Declaration} (sorted : ds.Pairwise fun a b => a.file ≤ b.file) :
    ((byFile ds).map Prod.fst).Pairwise (· < ·) := by
  induction ds with
  | nil => exact .nil
  | cons d ds ih =>
    obtain ⟨least, rest⟩ := List.pairwise_cons.mp sorted
    have later := ih rest
    have upTo : ∀ e ∈ byFile ds, d.file ≤ e.1 := by
      intro e inside
      obtain ⟨filled, own⟩ := byFileOwn ds e inside
      obtain ⟨other, among⟩ := List.exists_mem_of_ne_nil _ filled
      rw [← own other among]
      exact least other ((byFileMember ds e.1 other).mp ⟨e.2, inside, among⟩).2
    unfold byFile
    split
    · exact List.pairwise_singleton ..
    · rename_i file group others grouped
      rw [grouped] at later upTo
      split
      · exact later
      · rename_i different
        refine List.pairwise_cons.mpr ⟨?_, later⟩
        have first : d.file < file :=
          lt_of_le_of_ne (upTo _ List.mem_cons_self) (Ne.symm different)
        intro name inside
        rcases List.mem_cons.mp inside with rfl | behind
        · exact first
        · exact first.trans ((List.pairwise_cons.mp later).1 name behind)

theorem Gap.longestListed {r : Report} {g : Gap} (found : ofReport? r = some g) :
    (g.longestName = 0 ∨ ∃ d ∈ g.listed, d.name.length = g.longestName) ∧
      ∀ d ∈ g.listed, d.name.length ≤ g.longestName := by
  have longest : g.longestName = (g.listed.map fun d => d.name.length).foldl max 0 := by
    unfold ofReport? at found
    split at found
    · cases found
    · cases found
      rw [listed, byFileFlat]
  obtain ⟨reached, -, bound⟩ := foldMax (g.listed.map fun d => d.name.length) 0
  rw [← longest] at reached bound
  exact ⟨reached.imp_right List.mem_map.mp, fun d inside => bound _ (List.mem_map_of_mem inside)⟩

/- Every missing function is listed once, and the listing is in one order. -/
theorem missingListed {r : Report} (declares : r.declared.entries ≠ []) :
    ∃ g, Gap.ofReport? r = some g ∧ g.Lists r := by
  obtain ⟨g, found, source⟩ := Gap.ofReportSome declares
  have flat : g.listed = r.missing.mergeSort listedBefore := by
    rw [Gap.listed, source.details, byFileFlat]
  have ordered : g.listed.Pairwise Ahead := flat ▸ listingOrdered r.missingSorted
  have files : (r.missing.mergeSort listedBefore).Pairwise fun a b => a.file ≤ b.file :=
    (mergeSortByKey listedBeforePlace r.missing).imp placeFile
  obtain ⟨reached, longest⟩ := Gap.longestListed found
  refine ⟨g, found, ?_, ?_, ?_, ?_, ordered, longest, reached⟩
  · intro file d
    rw [source.details, byFileMember, (List.mergeSort_perm ..).mem_iff, Report.missingMember]
  · refine ordered.imp fun ahead => ?_
    rintro rfl
    simp [Ahead] at ahead
  · rw [source.details]
    simpa only [encodeLt] using byFileSorted files
  · rw [source.details]
    exact fun e inside => (byFileOwn _ e inside).1

def looseEntry (name file : String) (line : Nat) : Declaration :=
  ⟨name, file, ⟨file, 10 * line, line, 1⟩, none, none⟩

/- A name without an entry, an entry that is not declared, a call of neither, and two functions at
one place. -/
def looseReport : Report where
  details := .ofList Declaration.name [looseEntry "zag" "a.go" 9, looseEntry "tested" "a.go" 3,
    looseEntry "spare" "a.go" 1, looseEntry "größe" "b.go" 2, looseEntry "ab" "b.go" 2]
  declared := .names ["zag", "tested", "größe", "ghost", "ab"]
  called := .names ["tested", "other"]

def looseGap : Gap where
  declaredCount := 5
  calledCount := 2
  score := 40
  details := [("a.go", [looseEntry "zag" "a.go" 9]),
    ("b.go", [looseEntry "ab" "b.go" 2, looseEntry "größe" "b.go" 2])]
  longestName := 5

theorem looseReportGap : Gap.ofReport? looseReport = some looseGap := by
  have missing : looseReport.missing =
      [looseEntry "ab" "b.go" 2, looseEntry "größe" "b.go" 2, looseEntry "zag" "a.go" 9] := by
    decide +kernel
  have files : ¬ "b.go" < "a.go" := by decide
  have sorted : looseReport.missing.mergeSort listedBefore =
      [looseEntry "zag" "a.go" 9, looseEntry "ab" "b.go" 2, looseEntry "größe" "b.go" 2] := by
    rw [missing]
    simp [List.mergeSort, List.MergeSort.Internal.splitInTwo, listedBefore, looseEntry, files]
  simp only [Gap.ofReport?, sorted]
  decide +kernel

theorem looseReportListed : looseReport.declared.entries ≠ [] ∧
    Gap.ofReport? looseReport = some looseGap ∧ looseGap.Lists looseReport := by
  have declares : looseReport.declared.entries ≠ [] := by decide +kernel
  obtain ⟨g, found, lists⟩ := missingListed declares
  cases looseReportGap.symm.trans found
  exact ⟨declares, found, lists⟩

end Uncalled
