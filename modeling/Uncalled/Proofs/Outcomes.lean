import Uncalled.Proofs.ByteOrder
import Uncalled.Proofs.Conservation
import Uncalled.Proofs.Dependence
import Uncalled.Proofs.Loading
/-! How an analysis ends. There is no directory, or no file in it is selected, or one of the
selected files is not Go and the one with the least name is reported, or all of them are read and
each is a source or a test. The order in which the directory lists its files does not matter. -/
namespace Uncalled
open Package (Chosen chosenIff)
open Text (Bytes encode encodeLt)

structure Refused (t : FileTree) (o : Options) (dir name : String) (bytes : Bytes) : Prop where
  chosen : Chosen t o dir name bytes
  fails : Source.parse? bytes = none

structure FirstRefused (t : FileTree) (o : Options) (dir name : String) (bytes : Bytes) : Prop where
  refused : Refused t o dir name bytes
  least : ∀ other more, Refused t o dir other more → ¬ encode other < encode name

inductive Failure (t : FileTree) (o : Options) (dir : String) : AnalysisError → Prop
  | nowhere (missing : t.isDirectoryPath dir = false) : Failure t o dir (.packageNotFound dir)
  | nothing (directory : t.isDirectoryPath dir = true)
      (unchosen : ∀ name bytes, ¬ Chosen t o dir name bytes) : Failure t o dir (.noSourceFiles dir)
  | notGo {name : String} {bytes : Bytes} (directory : t.isDirectoryPath dir = true)
      (first : FirstRefused t o dir name bytes) : Failure t o dir (.notGo (joinPath dir name) bytes)

/- The chosen files of a directory, each with its syntax tree in the list it belongs to. -/
structure Divided (t : FileTree) (o : Options) (dir : String) (p : Package) : Prop where
  each : ∀ name bytes, Chosen t o dir name bytes →
    Xor (name ∈ p.sources.map SourceFile.name) (name ∈ p.tests.map SourceFile.name)
  whole : ∀ f, f ∈ p.sources ∨ f ∈ p.tests → Package.IsRead t o dir f
  sources : ∀ f ∈ p.sources, o.isTestFile f.name = false
  tests : ∀ f ∈ p.tests, o.isTestFile f.name = true
  sourcesSorted : p.sources.Pairwise fun f g => encode f.path < encode g.path
  testsSorted : p.tests.Pairwise fun f g => encode f.path < encode g.path

namespace Package

section
variable {t : FileTree} {dir : String} {r : Route} (route : t.route dir = .ok r)
  (directory : t.isDirectory r = true) (o : Options)
include route directory

theorem noneChosen : (selected o (t.filesIn r)).entries = [] ↔
    ∀ name bytes, ¬ Chosen t o dir name bytes := by
  rw [List.eq_nil_iff_forall_not_mem, Prod.forall]
  exact forall₂_congr fun name bytes => not_congr (chosenIff route directory o name bytes)

end

theorem parseFileFails {dir : String} {file : String × Bytes} {e : AnalysisError} :
    parseFile dir file = .error e ↔
      Source.parse? file.2 = none ∧ e = .notGo (joinPath dir file.1) file.2 := by
  unfold parseFile
  cases Source.parse? file.2 with
  | none => simp [eq_comm]
  | some tree => simp

theorem parseFileSome {dir : String} {file : String × Bytes} :
    (∃ f, parseFile dir file = .ok f) ↔ Source.parse? file.2 ≠ none := by
  unfold parseFile
  cases Source.parse? file.2 <;> simp

theorem ofFilesFails {o : Options} {dir : String} {files : List (String × Bytes)}
    {e : AnalysisError} : ofFiles o dir files = .error e ↔
      (selected o files).entries = [] ∧ e = .noSourceFiles dir ∨
        (selected o files).entries.mapM (parseFile dir) = .error e := by
  unfold ofFiles
  cases outcome : (selected o files).entries.mapM (parseFile dir) with
  | error cause =>
    have chosen : (selected o files).entries ≠ [] := by
      intro nothing
      rw [nothing] at outcome
      cases outcome
    simp [outcome, chosen]
  | ok parsed =>
    by_cases nothing : (selected o files).entries = []
    · simp [nothing, eq_comm]
    · simp [outcome, nothing]

section
variable {t : FileTree} {dir : String} {r : Route} (route : t.route dir = .ok r)
  (directory : t.isDirectory r = true) (o : Options)
include route directory

theorem someRefused : (∃ e, (selected o (t.filesIn r)).entries.mapM (parseFile dir) = .error e) ↔
    ∃ name bytes, Refused t o dir name bytes := by
  have parsed : (∃ fs, (selected o (t.filesIn r)).entries.mapM (parseFile dir) = .ok fs) ↔
      ∀ name bytes, ¬ Refused t o dir name bytes := by
    rw [mapMOk, Prod.forall]
    refine forall_congr' fun name => forall_congr' fun bytes => ?_
    rw [chosenIff route directory, parseFileSome]
    exact ⟨fun reads refused => reads refused.chosen refused.fails,
      fun whole chosen fails => whole ⟨chosen, fails⟩⟩
  cases outcome : (selected o (t.filesIn r)).entries.mapM (parseFile dir) <;> simp_all

theorem firstRefused {e : AnalysisError}
    (failed : (selected o (t.filesIn r)).entries.mapM (parseFile dir) = .error e) :
    ∃ name bytes, FirstRefused t o dir name bytes ∧ e = .notGo (joinPath dir name) bytes := by
  obtain ⟨before, ⟨name, bytes⟩, after, split, fails, parsed⟩ := mapMFails.mp failed
  obtain ⟨broken, cause⟩ := parseFileFails.mp fails
  have sorted := (selected o (t.filesIn r)).sorted
  have member := chosenIff route directory o
  rw [split] at sorted
  simp only [split] at member
  refine ⟨name, bytes, ⟨⟨(member name bytes).mp (by simp), broken⟩, ?_⟩, cause⟩
  intro other more refused
  rw [encodeLt]
  rcases List.mem_append.mp ((member other more).mpr refused.chosen) with early | late
  · exact absurd refused.fails (parseFileSome.mp (parsed _ early))
  · rcases List.mem_cons.mp late with same | later
    · cases same
      exact String.lt_irrefl _
    · exact String.lt_asymm ((List.pairwise_cons.mp (List.pairwise_append.mp sorted).2.1).1 _ later)

theorem refusedIff {e : AnalysisError} :
    (selected o (t.filesIn r)).entries.mapM (parseFile dir) = .error e ↔
      ∃ name bytes, FirstRefused t o dir name bytes ∧ e = .notGo (joinPath dir name) bytes := by
  constructor
  · exact firstRefused route directory o
  · intro ⟨name, bytes, own, cause⟩
    obtain ⟨_, failed⟩ := (someRefused route directory o).mpr ⟨name, bytes, own.refused⟩
    obtain ⟨first, more, found, rfl⟩ := firstRefused route directory o failed
    have upTo := own.least _ _ found.refused
    have above := found.least _ _ own.refused
    rw [encodeLt] at upTo above
    obtain rfl : name = first :=
      String.le_antisymm (String.not_lt.mp upTo) (String.not_lt.mp above)
    have read := own.refused.chosen.read
    rw [found.refused.chosen.read] at read
    cases read
    rw [failed, cause]

end

theorem loadFails {t : FileTree} {o : Options} {dir : String} {e : AnalysisError} :
    load t o dir = .error e ↔ Failure t o dir e := by
  cases path : t.isDirectoryPath dir with
  | false =>
    rw [loadNowhere path o]
    constructor
    · intro same
      cases same
      exact .nowhere path
    · intro failure
      cases failure with
      | nowhere => rfl
      | nothing found => cases path.symm.trans found
      | notGo found => cases path.symm.trans found
  | true =>
    obtain ⟨r, route, directory⟩ := (directoryPathIff t dir).mp path
    rw [loadDirectory route directory, ofFilesFails, noneChosen route directory,
      refusedIff route directory]
    constructor
    · intro outcome
      rcases outcome with ⟨unchosen, rfl⟩ | ⟨name, bytes, first, rfl⟩
      · exact .nothing path unchosen
      · exact .notGo path first
    · intro failure
      cases failure with
      | nowhere missing => cases path.symm.trans missing
      | nothing _ unchosen => exact .inl ⟨unchosen, rfl⟩
      | notGo _ first => exact .inr ⟨_, _, first, rfl⟩

theorem namesFiltered (q : String → Bool) (fs : List SourceFile) (name : String) :
    name ∈ (fs.filter fun f => q f.name).map SourceFile.name ↔
      name ∈ fs.map SourceFile.name ∧ q name = true := by
  rw [← List.mem_filter, List.filter_map]
  rfl

theorem loadDivided {t : FileTree} {o : Options} {dir : String} {p : Package}
    (ok : load t o dir = .ok p) : Divided t o dir p := by
  obtain ⟨r, parsed, loaded⟩ := loadedPackage ok
  have paths : parsed.Pairwise fun f g => encode f.path < encode g.path := by
    refine (loadedSorted loaded).imp_of_mem fun {f g} left right less => ?_
    rw [encodeLt, ((readIff loaded f).mp left).path, ((readIff loaded g).mp right).path]
    exact joinLess dir less
  refine ⟨?_, ?_, ?_, ?_, ?_, ?_⟩
  · intro name bytes chosen
    have among : name ∈ parsed.map SourceFile.name := by
      rw [parsedNames loaded.files]
      exact List.mem_map_of_mem ((chosenIff loaded.route loaded.directory o name bytes).mpr chosen)
    rw [loaded.sources, loaded.tests, namesFiltered (fun name => !o.isTestFile name),
      namesFiltered o.isTestFile]
    cases test : o.isTestFile name <;> simp [Xor, among]
  · intro f member
    have inside : f ∈ parsed := by
      rw [loaded.sources, loaded.tests, List.mem_filter, List.mem_filter] at member
      exact member.elim And.left And.left
    exact (readIff loaded f).mp inside
  · intro f inside
    rw [loaded.sources, List.mem_filter] at inside
    simpa using inside.2
  · intro f inside
    rw [loaded.tests, List.mem_filter] at inside
    exact inside.2
  · rw [loaded.sources]
    exact paths.filter _
  · rw [loaded.tests]
    exact paths.filter _

end Package

theorem analyzeFails {t : FileTree} {o : Options} {dir : String} {e : AnalysisError} :
    analyze t o dir = .error e ↔ Failure t o dir e := by
  rw [← Package.loadFails]
  exact pureFails

theorem analyzeOk {t : FileTree} {o : Options} {dir : String} :
    (∃ r, analyze t o dir = .ok r) ↔ t.isDirectoryPath dir = true ∧
      (∃ name bytes, Chosen t o dir name bytes) ∧ ∀ name bytes, ¬ Refused t o dir name bytes := by
  constructor
  · intro ⟨r, ok⟩
    obtain ⟨p, loads, -⟩ := analyzedPackage ok
    obtain ⟨r, parsed, loaded⟩ := Package.loadedPackage loads
    have never : ∀ e, ¬ Failure t o dir e := fun e failure => by
      cases ok.symm.trans (analyzeFails.mpr failure)
    have path := (directoryPathIff t dir).mpr ⟨r, loaded.route, loaded.directory⟩
    refine ⟨path, ?_, fun name bytes refused => ?_⟩
    · by_contra unchosen
      exact never _ (.nothing path (by simpa using unchosen))
    · have fails := (Package.someRefused loaded.route loaded.directory o).mpr ⟨name, bytes, refused⟩
      rw [loaded.files] at fails
      obtain ⟨_, impossible⟩ := fails
      cases impossible
  · intro ⟨path, ⟨name, bytes, chosen⟩, parsed⟩
    cases outcome : analyze t o dir with
    | ok r => exact ⟨r, rfl⟩
    | error e =>
      cases analyzeFails.mp outcome with
      | nowhere missing => cases path.symm.trans missing
      | nothing _ unchosen => exact absurd chosen (unchosen name bytes)
      | notGo _ first => exact absurd first.refused (parsed _ _)

/- Every analysis fails in one way or gives a report, and what is in the directory tells which. -/
theorem analysisEnds (t : FileTree) (o : Options) (dir : String) :
    (∀ e, analyze t o dir = .error e ↔ Failure t o dir e) ∧
    ((∃ r, analyze t o dir = .ok r) ↔ t.isDirectoryPath dir = true ∧
      (∃ name bytes, Chosen t o dir name bytes) ∧ ∀ name bytes, ¬ Refused t o dir name bytes) ∧
    ∀ r, analyze t o dir = .ok r →
      ∃ p, Package.load t o dir = .ok p ∧ r = p.report o ∧ Divided t o dir p := by
  refine ⟨fun e => analyzeFails, analyzeOk, fun r ok => ?_⟩
  obtain ⟨p, loads, same⟩ := analyzedPackage ok
  exact ⟨p, loads, same, Package.loadDivided loads⟩

/- Two files are not Go, besides one that is excluded, and the directory lists them in no order. -/
def brokenDirectory : FileTree :=
  ⟨[], [(["pkg", "z.go"], Text.encode "func ("), (["pkg", "gen.go"], Text.encode "func ("),
    (["pkg", "b.go"], Text.encode "func F() \x7b\x7d"),
    (["pkg", "m_test.go"], Text.encode "func (")]⟩

theorem brokenTestReported :
    Failure brokenDirectory withoutGenerated "pkg"
      (.notGo "pkg/m_test.go" (Text.encode "func (")) ∧
    Failure brokenDirectory withoutGenerated "pkg/b.go" (.packageNotFound "pkg/b.go") ∧
    ∃ r p, analyze clutteredDirectory withoutGenerated "pkg" = .ok r ∧
      Package.load clutteredDirectory withoutGenerated "pkg" = .ok p ∧
      r = p.report withoutGenerated ∧
      Divided clutteredDirectory withoutGenerated "pkg" p ∧
      p.sources.map SourceFile.name = ["a.go", "b.go"] ∧
      p.tests.map SourceFile.name = ["b_test.go"] := by
  have refused : analyze brokenDirectory withoutGenerated "pkg" =
      .error (.notGo "pkg/m_test.go" (Text.encode "func (")) := by decide +kernel
  have nowhere : analyze brokenDirectory withoutGenerated "pkg/b.go" =
      .error (.packageNotFound "pkg/b.go") := by decide +kernel
  have files : (Package.load clutteredDirectory withoutGenerated "pkg").toOption.map (fun p =>
      (p.sources.map SourceFile.name, p.tests.map SourceFile.name)) =
      some (["a.go", "b.go"], ["b_test.go"]) := by decide +kernel
  have reported : (analyze clutteredDirectory withoutGenerated "pkg").toOption.isSome = true := by
    decide +kernel
  refine ⟨((analysisEnds ..).1 _).mp refused, ((analysisEnds ..).1 _).mp nowhere, ?_⟩
  obtain ⟨r, ok⟩ := toOptionIsSome.mp reported
  obtain ⟨p, loads, same, divided⟩ := (analysisEnds ..).2.2 r ok
  simp only [loads, okToOption, Option.map_some, Option.some.injEq, Prod.mk.injEq] at files
  exact ⟨r, p, ok, loads, same, divided, files⟩

end Uncalled
