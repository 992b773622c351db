import Uncalled.Proofs.Directness
import Uncalled.Proofs.Lists
import Uncalled.Proofs.Loading
/-! More tests never lower the score. A test is no helper and declares no variable of the package,
so tests that are added to a package change neither the helpers nor the bindings that the other
bodies are walked with, and those bodies call what they called before. -/
namespace Uncalled
open Source (Function Item)

abbrev IsTest (testPrefix : String) (f : Function) : Prop :=
  testPrefix.toList.isPrefixOf f.name.toList = true

/- A file after tests were put in, anywhere between its items. What was there is the same up to its
place in the file. With the tests may come items that declare neither a function nor a variable,
such as imports; a new file comes from the empty one. -/
inductive Grown (testPrefix : String) : Source.File → Source.File → Prop
  | done : Grown testPrefix [] []
  | kept {a b : Item} {before after : Source.File}
      (same : outlineItem (fun _ => false) a = outlineItem (fun _ => false) b)
      (rest : Grown testPrefix before after) : Grown testPrefix (a :: before) (b :: after)
  | test {f : Function} {before after : Source.File} (named : IsTest testPrefix f)
      (rest : Grown testPrefix before after) : Grown testPrefix before (.function f :: after)
  | other {before after : Source.File}
      (rest : Grown testPrefix before after) : Grown testPrefix before (.other :: after)

/- A package with more tests: in files it had, and in files of their own. -/
structure Package.MoreTests (o : Options) (p q : Package) : Prop where
  sources : q.sources = p.sources
  kept : ∀ f ∈ p.tests, ∃ g ∈ q.tests, g.name = f.name ∧ Grown o.testPrefix f.tree g.tree
  fresh : ∀ g ∈ q.tests, (∃ f ∈ p.tests, f.name = g.name) ∨ Grown o.testPrefix [] g.tree

def addable (testPrefix : String) : Item → Bool
  | .function f => testPrefix.toList.isPrefixOf f.name.toList
  | .vars _ => false
  | .other => true

def grows (testPrefix : String) : Source.File → Source.File → Bool
  | before, [] => before.isEmpty
  | before, b :: after =>
    (addable testPrefix b && grows testPrefix before after) ||
      (before.head?.map (outlineItem fun _ => false) == some (outlineItem (fun _ => false) b) &&
        grows testPrefix before.tail after)

theorem growsSound {testPrefix : String} {before after : Source.File}
    (checked : grows testPrefix before after = true) : Grown testPrefix before after := by
  induction after generalizing before with
  | nil =>
    obtain rfl : before = [] := by simpa [grows] using checked
    exact .done
  | cons b after ih =>
    rw [grows, Bool.or_eq_true, Bool.and_eq_true, Bool.and_eq_true] at checked
    rcases checked with ⟨added, rest⟩ | ⟨same, rest⟩
    · cases b with
      | function f => exact .test added (ih rest)
      | vars specs => cases added
      | other => exact .other (ih rest)
    · cases before with
      | nil => simp at same
      | cons a before => exact .kept (by simpa using same) (ih rest)

theorem growsComplete {testPrefix : String} {before after : Source.File}
    (grown : Grown testPrefix before after) : grows testPrefix before after = true := by
  induction grown with
  | done => rfl
  | kept same rest ih => simp [grows, same, ih]
  | test named rest ih => simp [grows, addable, named, ih]
  | other rest ih => simp [grows, addable, ih]

instance (testPrefix : String) (before after : Source.File) :
    Decidable (Grown testPrefix before after) := decidable_of_iff _ ⟨growsSound, growsComplete⟩

instance : DecidableEq SourceFile := fun a b =>
  decidable_of_iff (a.name = b.name ∧ a.path = b.path ∧ a.src = b.src ∧ a.tree = b.tree)
    (by cases a; cases b; simp)

instance (o : Options) (p q : Package) : Decidable (p.MoreTests o q) :=
  decidable_of_iff (q.sources = p.sources ∧
    (∀ f ∈ p.tests, ∃ g ∈ q.tests, g.name = f.name ∧ Grown o.testPrefix f.tree g.tree) ∧
    ∀ g ∈ q.tests, (∃ f ∈ p.tests, f.name = g.name) ∨ Grown o.testPrefix [] g.tree)
    ⟨fun ⟨sources, kept, fresh⟩ => ⟨sources, kept, fresh⟩,
      fun more => ⟨more.sources, more.kept, more.fresh⟩⟩

theorem testNoHelper {testPrefix : String} {f : Function} (test : IsTest testPrefix f) :
    Helper.ofFunction? testPrefix f = none := by
  unfold IsTest at test
  simp [Helper.ofFunction?, test]

theorem outlinedAlike {a b : Item}
    (same : outlineItem (fun _ => false) a = outlineItem (fun _ => false) b) :
    (∃ f g, a = .function f ∧ b = .function g ∧
      outlineFunction (fun _ => false) f = outlineFunction (fun _ => false) g) ∨
      (a = b ∧ b.function? = none) := by
  cases a with
  | function f =>
    cases b with
    | function g => exact .inl ⟨f, g, rfl, rfl, Item.function.inj same⟩
    | _ => cases same
  | vars specs =>
    cases b with
    | vars others => exact .inr ⟨congrArg _ (Item.vars.inj same), rfl⟩
    | _ => cases same
  | other =>
    cases b with
    | other => exact .inr ⟨rfl, rfl⟩
    | _ => cases same

def fileHelpers (testPrefix : String) (file : Source.File) : List Helper :=
  (Source.functions file).filterMap (Helper.ofFunction? testPrefix)

theorem grownVars {testPrefix : String} {before after : Source.File}
    (grown : Grown testPrefix before after) :
    Source.packageVars after = Source.packageVars before := by
  induction grown with
  | done => rfl
  | @kept a b before after same rest ih =>
    have specs : b.specs = a.specs := by
      rcases outlinedAlike same with ⟨f, g, rfl, rfl, _⟩ | ⟨rfl, _⟩ <;> rfl
    simp only [Source.packageVars, List.flatMap_cons, specs] at ih ⊢
    rw [ih]
  | test named rest ih => exact ih
  | other rest ih => exact ih

theorem grownHelpers {testPrefix : String} {before after : Source.File}
    (grown : Grown testPrefix before after) :
    fileHelpers testPrefix after = fileHelpers testPrefix before := by
  unfold fileHelpers Source.functions at *
  induction grown with
  | done => rfl
  | @kept a b before after same rest ih =>
    rcases outlinedAlike same with ⟨f, g, rfl, rfl, outlined⟩ | ⟨rfl, noFunction⟩
    · -- an outline has all that a helper is read from
      have helper : Helper.ofFunction? testPrefix g = Helper.ofFunction? testPrefix f :=
        (congrArg (Helper.ofFunction? testPrefix) outlined).symm
      simp [Item.function?, List.filterMap_cons, helper, ih]
    · simp [noFunction, ih]
  | test named rest ih => simp [Item.function?, testNoHelper named, ih]
  | other rest ih => exact ih

theorem grownBodies {testPrefix : String} {before after : Source.File}
    (grown : Grown testPrefix before after) {f : Function} (inside : f ∈ Source.functions before) :
    ∃ g ∈ Source.functions after, g.name = f.name ∧
      g.body.map Source.Body.statements = f.body.map Source.Body.statements := by
  unfold Source.functions at *
  induction grown with
  | done => cases inside
  | @kept a b before after same rest ih =>
    rcases outlinedAlike same with ⟨f', g, rfl, rfl, outlined⟩ | ⟨rfl, noFunction⟩
    · rcases List.mem_cons.mp inside with rfl | later
      · have name := congrArg Function.name outlined
        have body := congrArg (fun f : Function => f.body.map Source.Body.statements) outlined
        refine ⟨g, List.mem_cons_self, name.symm, ?_⟩
        simpa [outlineFunction, Function.comp_def] using body.symm
      · obtain ⟨h, found, kept⟩ := ih later
        exact ⟨h, List.mem_cons_of_mem _ found, kept⟩
    · simpa [noFunction] using ih (by simpa [noFunction] using inside)
  | test named rest ih =>
    obtain ⟨h, found, kept⟩ := ih inside
    exact ⟨h, List.mem_cons_of_mem _ found, kept⟩
  | other rest ih => exact ih inside

theorem testsSorted {t : FileTree} {o : Options} {dir : String} {p : Package}
    (ok : Package.load t o dir = .ok p) : p.tests.Pairwise fun f g => f.name < g.name := by
  obtain ⟨r, parsed, loaded⟩ := Package.loadedPackage ok
  rw [loaded.tests]
  exact (Package.loadedSorted loaded).filter _

theorem walkedKept {o : Options} {p q : Package} (more : p.MoreTests o q) {hs : Helpers}
    {body : List Source.Stmt} (walked : Walked hs p.trees body) : Walked hs q.trees body := by
  obtain ⟨tree, inTrees, f, inFile, noHelper, own⟩ := walked
  obtain ⟨file, inside, rfl⟩ := List.mem_map.mp inTrees
  obtain ⟨other, among, _, grown⟩ := more.kept file inside
  obtain ⟨g, found, name, body⟩ := grownBodies grown inFile
  exact ⟨other.tree, List.mem_map_of_mem among, g, found, name ▸ noHelper, body.trans own⟩

section MoreTests

variable {o : Options} {p q : Package} (left : p.tests.Pairwise fun f g => f.name < g.name)
  (right : q.tests.Pairwise fun f g => f.name < g.name) (more : p.MoreTests o q)

include left right more

theorem readAlike {β : Type} {g : Source.File → List β} (empty : g [] = [])
    (alike : ∀ before after, Grown o.testPrefix before after → g after = g before) :
    q.trees.flatMap g = p.trees.flatMap g := by
  unfold Package.trees
  rw [List.flatMap_map, List.flatMap_map]
  refine flatMapMatched (fun s t : String => s < t) SourceFile.name left right ?_ ?_
  · intro f inside
    obtain ⟨f', among, name, grown⟩ := more.kept f inside
    exact ⟨f', among, name, alike _ _ grown⟩
  · intro f inside
    rcases more.fresh f inside with known | grown
    · exact .inl known
    · exact .inr ((alike _ _ grown).trans empty)

theorem helpersKept : q.helpers o = p.helpers o := by
  have alike := readAlike left right more (g := fileHelpers o.testPrefix) rfl
    fun _ _ grown => grownHelpers grown
  simp only [Package.helpers, Helper.collect, List.filterMap_flatMap]
  exact congrArg _ alike

theorem bindingsKept : packageBindings q.trees = packageBindings p.trees := by
  have alike := readAlike left right more (g := Source.packageVars) rfl
    fun _ _ grown => grownVars grown
  rw [packageBindings, alike]
  rfl

theorem calledKept {name : String} (called : name ∈ (p.walk o).called) :
    name ∈ (q.walk o).called := by
  change name ∈ (walkFiles (p.helpers o) (.ofPackage (packageBindings p.trees)) p.trees).called
    at called
  change name ∈ (walkFiles (q.helpers o) (.ofPackage (packageBindings q.trees)) q.trees).called
  rw [walkFilesCalled] at called ⊢
  rw [helpersKept left right more, bindingsKept left right more]
  rcases called with start | ⟨body, walked, records⟩
  · exact .inl start
  · exact .inr ⟨body, walkedKept more walked, records⟩

theorem reportsGrow : (q.report o).details = (p.report o).details ∧
    (q.report o).declared = (p.report o).declared ∧
    ∀ name ∈ (p.report o).called, name ∈ (q.report o).called := by
  have details : q.details = p.details := by rw [Package.details, more.sources, Package.details]
  have declared : (q.report o).declared = (p.report o).declared :=
    congrArg Catalogue.keys details
  refine ⟨details, declared, ?_⟩
  intro name counted
  obtain ⟨called, inside⟩ := List.mem_filter.mp counted
  refine List.mem_filter.mpr ⟨?_, by rw [details]; exact inside⟩
  rw [Catalogue.namesMember] at called ⊢
  exact calledKept left right more called

end MoreTests

theorem gapsGrow {r s : Report} {g h : Gap} (first : r.Consistent) (second : s.Consistent)
    (declared : s.declared = r.declared) (called : ∀ name ∈ r.called, name ∈ s.called)
    (left : Gap.Source r g) (right : Gap.Source s h) :
    g.score ≤ h.score ∧ ∀ name ∈ h.missingNames, name ∈ g.missingNames := by
  have counts : r.called.entries.length ≤ s.called.entries.length :=
    (List.subperm_of_subset r.called.sorted.nodup called).length_le
  constructor
  · rw [left.score, right.score, declared]
    exact Nat.div_le_div_right (Nat.mul_le_mul_left 100 counts)
  · intro name missing
    rw [(gapMissingNames second right).mem_iff, Report.missingNames, List.mem_filter] at missing
    rw [(gapMissingNames first left).mem_iff, Report.missingNames, List.mem_filter]
    refine ⟨declared ▸ missing.1, ?_⟩
    have uncalled : name ∉ s.called := by simpa using missing.2
    simpa using fun counted => uncalled (called name counted)

/- Tests that are added leave what is declared as it is, and whatever counted as called still
does. -/
theorem moreTestsNeverLowerScore {t u : FileTree} {o : Options} {dir : String} {p q : Package}
    {r : Report} (first : Package.load t o dir = .ok p) (second : Package.load u o dir = .ok q)
    (more : p.MoreTests o q) (analyzes : analyze t o dir = .ok r)
    (declares : r.declared.entries ≠ []) :
    ∃ s g h, analyze u o dir = .ok s ∧ Gap.ofReport? r = some g ∧ Gap.ofReport? s = some h ∧
      s.declared = r.declared ∧ s.details = r.details ∧
      (∀ name ∈ r.called, name ∈ s.called) ∧ g.score ≤ h.score ∧
      ∀ name ∈ h.missingNames, name ∈ g.missingNames := by
  have whole : r = p.report o := Except.ok.inj (analyzes.symm.trans (analyzed first))
  subst whole
  obtain ⟨details, declared, called⟩ := reportsGrow (testsSorted first) (testsSorted second) more
  obtain ⟨g, found, left⟩ := Gap.ofReportSome declares
  obtain ⟨h, found', right⟩ := Gap.ofReportSome (r := q.report o) (declared ▸ declares)
  obtain ⟨score, missing⟩ := gapsGrow (packageConsistent o p) (packageConsistent o q) declared
    called left right
  exact ⟨q.report o, g, h, analyzed second, found, found', declared, details, called, score,
    missing⟩

def growsInto (t u : FileTree) (o : Options) (dir : String) : Bool :=
  match Package.load t o dir, Package.load u o dir with
  | .ok p, .ok q => decide (p.MoreTests o q)
  | _, _ => false

theorem growsIntoLoads {t u : FileTree} {o : Options} {dir : String}
    (checked : growsInto t u o dir = true) : ∃ p q, Package.load t o dir = .ok p ∧
      Package.load u o dir = .ok q ∧ p.MoreTests o q := by
  unfold growsInto at checked
  split at checked
  · rename_i p q first second
    exact ⟨p, q, first, second, of_decide_eq_true checked⟩
  · cases checked

/- A test goes in front of the one that is there, and a method that is a test into a new file. -/
def fewTests : FileTree :=
  ⟨[], [(["pkg", "a.go"],
      Text.encode "func F() \x7b\x7d\nfunc (m *M) G() \x7b\x7d\nfunc H() \x7b\x7d"),
    (["pkg", "b_test.go"], Text.encode "var m M\nfunc TestF() \x7b F() \x7d")]⟩

def manyTests : FileTree :=
  ⟨[], [(["pkg", "a.go"],
      Text.encode "func F() \x7b\x7d\nfunc (m *M) G() \x7b\x7d\nfunc H() \x7b\x7d"),
    (["pkg", "a_test.go"],
      Text.encode "package p\nfunc (s S) TestH() T \x7b m := N\x7b\x7d\nm.G()\nH() \x7d"),
    (["pkg", "b_test.go"],
      Text.encode "var m M\nfunc TestG() \x7b m.G() \x7d\nfunc TestF() \x7b F() \x7d")]⟩

theorem manyTestsScoreMore : ∃ p q r s g h,
    Package.load fewTests .standard "pkg" = .ok p ∧ Package.load manyTests .standard "pkg" = .ok q ∧
    p.MoreTests .standard q ∧ analyze fewTests .standard "pkg" = .ok r ∧
    r.declared.entries ≠ [] ∧ analyze manyTests .standard "pkg" = .ok s ∧
    r.called.entries = ["F"] ∧ s.called.entries = ["F", "H", "M.G"] ∧
    Gap.ofReport? r = some g ∧ Gap.ofReport? s = some h ∧ g.score = 33 ∧ h.score = 100 ∧
    ∀ name ∈ h.missingNames, name ∈ g.missingNames := by
  have grown : growsInto fewTests manyTests .standard "pkg" = true := by decide +kernel
  have before : (analyze fewTests .standard "pkg").toOption.map (fun r =>
      (r.declared.entries, r.called.entries, (Gap.ofReport? r).map Gap.score)) =
        some (["F", "H", "M.G"], ["F"], some 33) := by decide +kernel
  have after : (analyze manyTests .standard "pkg").toOption.map (fun r =>
      (r.called.entries, (Gap.ofReport? r).map Gap.score)) =
        some (["F", "H", "M.G"], some 100) := by decide +kernel
  obtain ⟨p, q, first, second, more⟩ := growsIntoLoads grown
  have analyzes := analyzed first
  simp only [analyzes, okToOption, Option.map_some, Option.some.injEq, Prod.mk.injEq] at before
  have declares : (p.report .standard).declared.entries ≠ [] := by simp [before.1]
  obtain ⟨s, g, h, right, found, found', _, _, _, _, missing⟩ :=
    moreTestsNeverLowerScore first second more analyzes declares
  simp only [right, okToOption, Option.map_some, Option.some.injEq, Prod.mk.injEq,
    found'] at after
  simp only [found, Option.map_some, Option.some.injEq] at before
  exact ⟨p, q, _, s, g, h, first, second, more, analyzes, declares, right, before.2.1, after.1,
    found, found', before.2.2, after.2, missing⟩

end Uncalled
