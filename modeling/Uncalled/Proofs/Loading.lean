import Uncalled.Package
import Uncalled.Proofs.Catalogue
import Uncalled.Proofs.Paths
/-! What is loaded of a directory. A name stands there once, so the selected files in the order of
their names are known from which files there are, and each of them is what can be read under its
path. -/
namespace Uncalled
open Text (Bytes)

theorem directoryPathIff (t : FileTree) (dir : String) :
    t.isDirectoryPath dir = true ↔ ∃ r, t.route dir = .ok r ∧ t.isDirectory r = true := by
  unfold FileTree.isDirectoryPath
  cases t.route dir with
  | error e => simp
  | ok r => simp

namespace Package

theorem loadNowhere {t : FileTree} {dir : String} (nowhere : t.isDirectoryPath dir = false)
    (o : Options) : load t o dir = .error (.packageNotFound dir) := by
  unfold FileTree.isDirectoryPath at nowhere
  unfold load
  cases route : t.route dir with
  | error e => rfl
  | ok r =>
    rw [route] at nowhere
    exact if_neg (by simp [nowhere])

theorem loadDirectory {t : FileTree} {dir : String} {r : Route} (route : t.route dir = .ok r)
    (directory : t.isDirectory r = true) (o : Options) :
    load t o dir = ofFiles o dir (t.filesIn r) := by
  rw [load, route]
  exact if_pos directory

theorem selectedMember (t : FileTree) (r : Route) (o : Options) (file : String × Bytes) :
    file ∈ selected o (t.filesIn r) ↔ file ∈ t.filesIn r ∧ o.selects file.1 = true := by
  rw [selected, Catalogue.ofListMember ?single, List.mem_filter]
  intro (name, left) first (other, right) second same
  obtain rfl : name = other := same
  obtain ⟨_, here⟩ := (t.filesInIff ..).mp (List.mem_filter.mp first).1
  obtain ⟨_, there⟩ := (t.filesInIff ..).mp (List.mem_filter.mp second).1
  rw [Option.some.inj (here.symm.trans there)]

structure Parsed (dir : String) (file : String × Bytes) (f : SourceFile) : Prop where
  name : f.name = file.1
  path : f.path = joinPath dir file.1
  src : f.src = file.2
  tree : Source.parse? file.2 = some f.tree

theorem parsedFile {dir : String} {file : String × Bytes} {f : SourceFile}
    (ok : parseFile dir file = .ok f) : Parsed dir file f := by
  unfold parseFile at ok
  split at ok
  · rename_i tree parsed
    cases ok
    exact ⟨rfl, rfl, rfl, parsed⟩
  · cases ok

theorem parsedNames {dir : String} {files : List (String × Bytes)} {parsed : List SourceFile}
    (ok : files.mapM (parseFile dir) = .ok parsed) :
    parsed.map SourceFile.name = files.map Prod.fst := by
  have each := mapMEach.mp ok
  induction each with
  | nil => rfl
  | @cons file f files parsed first rest ih =>
    rw [List.map_cons, List.map_cons, (parsedFile first).name, ih (mapMEach.mpr rest)]

/- Where a package comes from: the directory, and its selected files with their syntax trees. -/
structure Loaded (t : FileTree) (o : Options) (dir : String) (r : Route) (parsed : List SourceFile)
    (p : Package) : Prop where
  route : t.route dir = .ok r
  directory : t.isDirectory r = true
  files : (selected o (t.filesIn r)).entries.mapM (parseFile dir) = .ok parsed
  sources : p.sources = parsed.filter fun f => !o.isTestFile f.name
  tests : p.tests = parsed.filter fun f => o.isTestFile f.name

theorem loadedPackage {t : FileTree} {o : Options} {dir : String} {p : Package}
    (ok : load t o dir = .ok p) : ∃ r parsed, Loaded t o dir r parsed p := by
  unfold load at ok
  split at ok
  · split at ok
    · rename_i r route directory
      unfold ofFiles at ok
      cases files : (selected o (t.filesIn r)).entries.mapM (parseFile dir) with
      | error e =>
        simp only [files, errorBind] at ok
        split at ok <;> cases ok
      | ok parsed =>
        simp only [files, okBind, pureOk] at ok
        split at ok
        · cases ok
        · cases ok
          exact ⟨r, parsed, route, directory, files, rfl, rfl⟩
    · cases ok
  · cases ok

theorem loadedSorted {t : FileTree} {o : Options} {dir : String} {r : Route}
    {parsed : List SourceFile} {p : Package} (loaded : Loaded t o dir r parsed p) :
    parsed.Pairwise fun f g => f.name < g.name := by
  have sorted : (parsed.map SourceFile.name).Pairwise (· < ·) := by
    rw [parsedNames loaded.files]
    exact (selected o (t.filesIn r)).keys.sorted
  exact List.pairwise_map.mp sorted

structure Chosen (t : FileTree) (o : Options) (dir name : String) (bytes : Bytes) : Prop where
  named : isName name = true
  read : t.read (joinPath dir name) = .ok bytes
  go : ".go".toList <:+ name.toList
  kept : ∀ p ∈ o.excluded, p.matchesName name = false

theorem selectsIff (o : Options) (name : String) : o.selects name = true ↔
    ".go".toList <:+ name.toList ∧ ∀ p ∈ o.excluded, p.matchesName name = false := by
  simp [Options.selects, Options.isExcluded, List.isSuffixOf_iff_suffix]

theorem Chosen.selected {t : FileTree} {o : Options} {dir name : String} {bytes : Bytes}
    (chosen : Chosen t o dir name bytes) : o.selects name = true :=
  (selectsIff o name).mpr ⟨chosen.go, chosen.kept⟩

theorem chosenIff {t : FileTree} {dir : String} {r : Route} (route : t.route dir = .ok r)
    (directory : t.isDirectory r = true) (o : Options) (name : String) (bytes : Bytes) :
    (name, bytes) ∈ (selected o (t.filesIn r)).entries ↔ Chosen t o dir name bytes := by
  rw [← Catalogue.memberIff, selectedMember, FileTree.readName route directory, selectsIff]
  constructor
  · intro ⟨⟨named, read⟩, go, kept⟩
    exact ⟨named, read, go, kept⟩
  · intro ⟨named, read, go, kept⟩
    exact ⟨⟨named, read⟩, go, kept⟩

structure IsRead (t : FileTree) (o : Options) (dir : String) (g : SourceFile) : Prop
    extends Chosen t o dir g.name g.src where
  path : g.path = joinPath dir g.name
  tree : Source.parse? g.src = some g.tree

theorem readIff {t : FileTree} {o : Options} {dir : String} {r : Route}
    {parsed : List SourceFile} {p : Package} (loaded : Loaded t o dir r parsed p) (g : SourceFile) :
    g ∈ parsed ↔ IsRead t o dir g := by
  have chosen := chosenIff loaded.route loaded.directory o
  rw [mapMMember loaded.files]
  constructor
  · intro ⟨⟨name, bytes⟩, among, ok⟩
    obtain ⟨(rfl : g.name = name), path, (rfl : g.src = bytes), tree⟩ := parsedFile ok
    exact ⟨(chosen _ _).mp among, path, tree⟩
  · intro whole
    refine ⟨(g.name, g.src), (chosen _ _).mpr whole.toChosen, ?_⟩
    rw [parseFile, whole.tree, ← whole.path]

/- A file of a directory that is analyzed for what it declares. -/
structure IsSource (t : FileTree) (o : Options) (dir : String) (g : SourceFile) : Prop
    extends IsRead t o dir g where
  noTest : o.isTestFile g.name = false

theorem sourceIff {t : FileTree} {o : Options} {dir : String} {r : Route}
    {parsed : List SourceFile} {p : Package} (loaded : Loaded t o dir r parsed p) (g : SourceFile) :
    g ∈ p.sources ↔ IsSource t o dir g := by
  rw [loaded.sources, List.mem_filter, readIff loaded, Bool.not_eq_true']
  exact ⟨fun ⟨whole, noTest⟩ => ⟨whole, noTest⟩, fun ⟨whole, noTest⟩ => ⟨whole, noTest⟩⟩

end Package
end Uncalled
