import Uncalled.Proofs.Loading
/-! What an analysis depends on: the path of the directory, and the names and contents of the files
there that are selected. The order in which a directory lists its files, what else is in it and what
is below it make no difference, neither to a report nor to a failure. -/
namespace Uncalled
open Text (Bytes)

def FileTree.Holds (t : FileTree) (dir name : String) (bytes : Bytes) : Prop :=
  isName name = true ∧ t.read (joinPath dir name) = .ok bytes

/- Two directories under one path, with the same files as far as they are selected. -/
structure SameSelection (o : Options) (dir : String) (t u : FileTree) : Prop where
  directory : t.isDirectoryPath dir = u.isDirectoryPath dir
  files : ∀ name, o.selects name = true → ∀ bytes, t.Holds dir name bytes ↔ u.Holds dir name bytes

theorem selectedHolds {t : FileTree} {dir : String} {r : Route} (route : t.route dir = .ok r)
    (directory : t.isDirectory r = true) (o : Options) (name : String) (bytes : Bytes) :
    (name, bytes) ∈ Package.selected o (t.filesIn r) ↔
      t.Holds dir name bytes ∧ o.selects name = true := by
  rw [Package.selectedMember, FileTree.readName route directory]
  rfl

theorem loadSame {o : Options} {dir : String} {t u : FileTree} (same : SameSelection o dir t u) :
    Package.load t o dir = Package.load u o dir := by
  cases here : t.isDirectoryPath dir with
  | false => rw [Package.loadNowhere here, Package.loadNowhere (same.directory.symm.trans here)]
  | true =>
    obtain ⟨r, left, leftDirectory⟩ := (directoryPathIff t dir).mp here
    obtain ⟨s, right, rightDirectory⟩ :=
      (directoryPathIff u dir).mp (same.directory.symm.trans here)
    -- both selections are in the order of the names, so their members decide
    have chosen : Package.selected o (t.filesIn r) = Package.selected o (u.filesIn s) := by
      refine Catalogue.sameMembers fun (name, bytes) => ?_
      rw [selectedHolds left leftDirectory, selectedHolds right rightDirectory]
      exact and_congr_left fun selects => same.files name selects bytes
    rw [Package.loadDirectory left leftDirectory, Package.loadDirectory right rightDirectory,
      Package.ofFiles, Package.ofFiles, chosen]

/- Where the selected files of two directories are the same, so is all that an analysis gives. -/
theorem onlySelectedFilesMatter {o : Options} {dir : String} {t u : FileTree}
    (same : SameSelection o dir t u) : analyze t o dir = analyze u o dir := by
  rw [analyze, analyze, loadSame same]

def sameSelection (o : Options) (dir : String) (t u : FileTree) : Bool :=
  match t.route dir, u.route dir with
  | .ok r, .ok s =>
    t.isDirectory r && u.isDirectory s &&
      decide (((t.filesIn r).filter fun f => o.selects f.1).Perm
        ((u.filesIn s).filter fun f => o.selects f.1))
  | _, _ => false

theorem sameSelectionHolds {o : Options} {dir : String} {t u : FileTree}
    (checked : sameSelection o dir t u = true) : SameSelection o dir t u := by
  unfold sameSelection at checked
  split at checked
  · rename_i r s left right
    rw [Bool.and_eq_true, Bool.and_eq_true, decide_eq_true_eq] at checked
    obtain ⟨⟨leftDirectory, rightDirectory⟩, perm⟩ := checked
    refine ⟨?_, fun name selects bytes => ?_⟩
    · rw [(directoryPathIff t dir).mpr ⟨r, left, leftDirectory⟩,
        (directoryPathIff u dir).mpr ⟨s, right, rightDirectory⟩]
    · have members := perm.mem_iff (a := (name, bytes))
      rw [List.mem_filter, List.mem_filter, and_iff_left selects, and_iff_left selects,
        FileTree.readName left leftDirectory, FileTree.readName right rightDirectory] at members
      exact members
  · cases checked

def withoutGenerated : Options := ⟨"_test.go", "Test", (Pattern.ofString? "gen*.go").toList⟩

/- The second directory lists its files the other way round. A generated file in it is not Go, and
there are directories with Go files, one of them named like a Go file. -/
def tidyDirectory : FileTree :=
  ⟨[], [(["pkg", "a.go"], Text.encode "func F() \x7b\x7d"),
    (["pkg", "b.go"], Text.encode "func F() \x7b\x7d\nfunc G() \x7b\x7d"),
    (["pkg", "b_test.go"], Text.encode "func TestG() \x7b G() \x7d")]⟩

def clutteredDirectory : FileTree :=
  ⟨[["pkg", "empty.go"]],
    [(["pkg", "gen_test.go"], Text.encode "func ("),
      (["pkg", "b_test.go"], Text.encode "func TestG() \x7b G() \x7d"),
      (["pkg", "notes.txt"], Text.encode "F()"),
      (["pkg", "b.go"], Text.encode "func F() \x7b\x7d\nfunc G() \x7b\x7d"),
      (["pkg", "c.go", "c.go"], Text.encode "func H() \x7b\x7d"),
      (["other", "a.go"], Text.encode "func ("),
      (["pkg", "a.go"], Text.encode "func F() \x7b\x7d")]⟩

theorem clutterMakesNoDifference :
    SameSelection withoutGenerated "pkg" tidyDirectory clutteredDirectory ∧
    analyze tidyDirectory withoutGenerated "pkg" =
      analyze clutteredDirectory withoutGenerated "pkg" ∧
    (analyze clutteredDirectory withoutGenerated "pkg").toOption.map
      (fun r => (r.details.entries.map fun d => (d.name, d.file), r.called.entries)) =
        some ([("F", "pkg/b.go"), ("G", "pkg/b.go")], ["G"]) := by
  have same : SameSelection withoutGenerated "pkg" tidyDirectory clutteredDirectory :=
    sameSelectionHolds (by decide +kernel)
  exact ⟨same, onlySelectedFilesMatter same, by decide +kernel⟩

end Uncalled
