import Uncalled.Proofs.Conservation
import Uncalled.Proofs.Soundness
import Uncalled.Proofs.SyntaxEquality
/-! Only direct calls count. The outline of a package is what is left of its syntax trees without
the places of its functions and without what some bodies say: all bodies outside the tests, and
those of helpers. Every stage of an analysis is shown to give the same on a package and on its
outline, so two packages with one outline have the same names declared, called and missing. -/
namespace Uncalled
open Source (Function Item)

-- all places go as well: a longer body moves what comes after it
def outlineFunction (hidden : String → Bool) (f : Function) : Function :=
  ⟨.origin, f.name, f.receiver, f.result,
    f.body.map fun b => ⟨.origin, .origin, if hidden f.name then [] else b.statements⟩⟩

def outlineItem (hidden : String → Bool) : Item → Item
  | .function f => .function (outlineFunction hidden f)
  | .vars specs => .vars specs
  | .other => .other

def outline (hidden : String → Bool) (file : Source.File) : Source.File :=
  file.map (outlineItem hidden)

def Package.trees (p : Package) : List Source.File := p.tests.map SourceFile.tree

def Package.helpers (o : Options) (p : Package) : Helpers := Helper.collect o.testPrefix p.trees

structure Outline where
  sources : List (String × Source.File)
  tests : List (String × Source.File)

instance : DecidableEq Outline := fun a b =>
  decidable_of_iff (a.sources = b.sources ∧ a.tests = b.tests) (by cases a; cases b; simp)

def Package.outline (o : Options) (p : Package) : Outline where
  sources := p.sources.map fun f => (f.name, Uncalled.outline (fun _ => true) f.tree)
  tests := p.tests.map fun f => (f.name, Uncalled.outline (p.helpers o).contains f.tree)

theorem functionsOutline (hidden : String → Bool) (file : Source.File) :
    Source.functions (outline hidden file) =
      (Source.functions file).map (outlineFunction hidden) := by
  unfold Source.functions outline
  rw [List.filterMap_map, List.map_filterMap]
  refine List.filterMap_congr fun item _ => ?_
  cases item <;> rfl

theorem packageVarsOutline (hidden : String → Bool) (file : Source.File) :
    Source.packageVars (outline hidden file) = Source.packageVars file := by
  unfold Source.packageVars outline
  rw [List.flatMap_map]
  refine List.flatMap_congr fun item _ => ?_
  cases item <;> rfl

theorem helpersOutline (testPrefix : String) (hidden : String → Bool) (files : List Source.File) :
    Helper.collect testPrefix (files.map (outline hidden)) = Helper.collect testPrefix files := by
  have same : ∀ f, Helper.ofFunction? testPrefix (outlineFunction hidden f) =
      Helper.ofFunction? testPrefix f := fun _ => rfl
  simp only [Helper.collect, List.flatMap_map, functionsOutline, List.filterMap_flatMap,
    List.filterMap_map, Function.comp_def, same]

theorem packageBindingsOutline (hidden : String → Bool) (files : List Source.File) :
    packageBindings (files.map (outline hidden)) = packageBindings files := by
  simp only [packageBindings, List.flatMap_map, packageVarsOutline]

theorem walkFunctionOutline (hs : Helpers) (w : Walk) (f : Function) :
    walkFunction hs w (outlineFunction hs.contains f) = walkFunction hs w f := by
  cases hasBody : f.body with
  | none => simp [walkFunction, outlineFunction, hasBody]
  | some body =>
    cases helper : hs.contains f.name with
    | true => simp [walkFunction, outlineFunction, hasBody, helper]
    | false => simp [walkFunction, outlineFunction, hasBody, helper]

theorem walkFilesOutline (hs : Helpers) (scope : Scope) (files : List Source.File) :
    walkFiles hs scope (files.map (outline hs.contains)) = walkFiles hs scope files := by
  rw [walkFilesFunctions, walkFilesFunctions, List.flatMap_map]
  simp only [functionsOutline, List.foldl_flatMap, List.foldl_map, walkFunctionOutline]

theorem qualifiedNamesOutline (hidden : String → Bool) (file : Source.File) :
    (Source.functions (outline hidden file)).map Declaration.qualifiedName =
      (Source.functions file).map Declaration.qualifiedName := by
  rw [functionsOutline, List.map_map]
  rfl

theorem walkOfOutline (o : Options) (p : Package) :
    p.walk o =
      walkFiles (Helper.collect o.testPrefix ((p.outline o).tests.map Prod.snd))
        (.ofPackage (packageBindings ((p.outline o).tests.map Prod.snd)))
        ((p.outline o).tests.map Prod.snd) := by
  have trees : (p.outline o).tests.map Prod.snd =
      p.trees.map (outline (p.helpers o).contains) := by
    simp [Package.outline, Package.trees]
  rw [trees, helpersOutline, packageBindingsOutline]
  exact (walkFilesOutline (p.helpers o) _ p.trees).symm

theorem declaredOfOutline (o : Options) (p : Package) :
    (p.report o).declared = Catalogue.names ((p.outline o).sources.flatMap fun f =>
      (Source.functions f.2).map Declaration.qualifiedName) := by
  change p.details.keys = _
  rw [Package.details, Catalogue.ofListKeys]
  simp only [Package.outline, List.flatMap_map, qualifiedNamesOutline, List.map_flatMap,
    Declaration.collect, List.map_map]
  rfl

theorem reportsAgree {o : Options} {p q : Package} (same : p.outline o = q.outline o) :
    (p.report o).declared = (q.report o).declared ∧ (p.report o).called = (q.report o).called := by
  have declared : (p.report o).declared = (q.report o).declared := by
    rw [declaredOfOutline, declaredOfOutline, same]
  have walks : p.walk o = q.walk o := by rw [walkOfOutline, walkOfOutline, same]
  refine ⟨declared, ?_⟩
  change (Catalogue.names (p.walk o).called).filter (p.report o).declared.entries.contains =
    (Catalogue.names (q.walk o).called).filter (q.report o).declared.entries.contains
  rw [declared, walks]

def Gap.missingNames (g : Gap) : List String := (g.details.flatMap (·.2)).map Declaration.name

theorem gapMissingNames {r : Report} {g : Gap} (ok : r.Consistent) (source : Gap.Source r g) :
    g.missingNames.Perm r.missingNames := by
  rw [Gap.missingNames, source.details, byFileFlat, ← Report.missingByName ok]
  exact (List.mergeSort_perm ..).map _

structure Gap.Agrees (g h : Gap) : Prop where
  declared : g.declaredCount = h.declaredCount
  called : g.calledCount = h.calledCount
  score : g.score = h.score
  missing : ∀ name, name ∈ g.missingNames ↔ name ∈ h.missingNames

theorem gapsAgree {r s : Report} {g h : Gap} (left : r.Consistent) (right : s.Consistent)
    (declared : r.declared = s.declared) (called : r.called = s.called)
    (first : Gap.Source r g) (second : Gap.Source s h) : g.Agrees h := by
  refine ⟨?_, ?_, ?_, ?_⟩
  · rw [first.declaredCount, second.declaredCount, declared]
  · rw [first.calledCount, second.calledCount, called]
  · rw [first.score, second.score, declared, called]
  · intro name
    rw [(gapMissingNames left first).mem_iff, (gapMissingNames right second).mem_iff,
      Report.missingNames, Report.missingNames, declared, called]

theorem gapsOfReports {r s : Report} (left : r.Consistent) (right : s.Consistent)
    (declared : r.declared = s.declared) (called : r.called = s.called) :
    (Gap.ofReport? r = none ∧ Gap.ofReport? s = none) ∨
      ∃ g h, Gap.ofReport? r = some g ∧ Gap.ofReport? s = some h ∧ g.Agrees h := by
  by_cases nothing : r.declared.entries = []
  · exact .inl ⟨Gap.ofReportNone nothing, Gap.ofReportNone (declared ▸ nothing)⟩
  · obtain ⟨g, foundLeft, first⟩ := Gap.ofReportSome nothing
    obtain ⟨h, foundRight, second⟩ := Gap.ofReportSome (declared ▸ nothing)
    exact .inr ⟨g, h, foundLeft, foundRight, gapsAgree left right declared called first second⟩

theorem countedDirectly {o : Options} {p : Package} {name : String}
    (counted : name ∈ (p.report o).called) :
    name = "init" ∨ ∃ body, Walked (p.helpers o) p.trees body ∧
      (CallsPlainly body name ∨ CallsMethod (p.helpers o) p.trees body name) := by
  have recorded : name ∈ (p.walk o).called :=
    (Catalogue.namesMember ..).mp (List.mem_filter.mp counted).1
  rcases (walkFilesCalled ..).mp recorded with start | ⟨body, walked, records⟩
  · exact .inl start
  · refine .inr ⟨body, walked, ?_⟩
    rcases bodyNamesSound records with ⟨_, plainly⟩ | method
    · exact .inl plainly
    · exact .inr method

/- Bodies outside the tests and bodies of helpers make no difference, and whatever counts as called,
other than `init`, is called by a test itself. -/
theorem onlyDirectCallsCount {t u : FileTree} {o : Options} {dir other : String} {p q : Package}
    (first : Package.load t o dir = .ok p) (second : Package.load u o other = .ok q)
    (same : p.outline o = q.outline o) :
    ∃ r s, analyze t o dir = .ok r ∧ analyze u o other = .ok s ∧
      r.declared = s.declared ∧ r.called = s.called ∧
      ((Gap.ofReport? r = none ∧ Gap.ofReport? s = none) ∨
        ∃ g h, Gap.ofReport? r = some g ∧ Gap.ofReport? s = some h ∧ g.Agrees h) ∧
      ∀ name ∈ r.called, name = "init" ∨ ∃ body, Walked (p.helpers o) p.trees body ∧
        (CallsPlainly body name ∨ CallsMethod (p.helpers o) p.trees body name) := by
  obtain ⟨declared, called⟩ := reportsAgree same
  refine ⟨p.report o, q.report o, analyzed first, analyzed second, declared, called, ?_, ?_⟩
  · exact gapsOfReports (packageConsistent o p) (packageConsistent o q) declared called
  · intro name counted
    exact countedDirectly counted

def sameOutline (t u : FileTree) (o : Options) (dir : String) : Bool :=
  match Package.load t o dir, Package.load u o dir with
  | .ok p, .ok q => decide (p.outline o = q.outline o)
  | _, _ => false

theorem sameOutlineLoads {t u : FileTree} {o : Options} {dir : String}
    (checked : sameOutline t u o dir = true) : ∃ p q, Package.load t o dir = .ok p ∧
      Package.load u o dir = .ok q ∧ p.outline o = q.outline o := by
  unfold sameOutline at checked
  split at checked
  · rename_i p q first second
    exact ⟨p, q, first, second, of_decide_eq_true checked⟩
  · cases checked

def sparePackage : FileTree :=
  ⟨[], [(["pkg", "a.go"], Text.encode "func F() \x7b\x7d\nfunc G() \x7b\x7d"),
    (["pkg", "a_test.go"], Text.encode "func h() T \x7b\x7d\nfunc TestF() \x7b F() \x7d")]⟩

def fullPackage : FileTree :=
  ⟨[], [(["pkg", "a.go"], Text.encode "func F() \x7b G() \x7d\nfunc G() \x7b\x7d"),
    (["pkg", "a_test.go"], Text.encode "func h() T \x7b G() \x7d\nfunc TestF() \x7b F() \x7d")]⟩

theorem sparePackageCountsAsFull : ∃ p q r s,
    Package.load sparePackage .standard "pkg" = .ok p ∧
    Package.load fullPackage .standard "pkg" = .ok q ∧
    p.outline .standard = q.outline .standard ∧
    analyze sparePackage .standard "pkg" = .ok r ∧ analyze fullPackage .standard "pkg" = .ok s ∧
    r.declared.entries = ["F", "G"] ∧ s.declared.entries = ["F", "G"] ∧
    r.called.entries = ["F"] ∧ s.called.entries = ["F"] := by
  have outlined : sameOutline sparePackage fullPackage .standard "pkg" = true := by decide +kernel
  have reported : (analyze sparePackage .standard "pkg").toOption.map
      (fun r => (r.declared.entries, r.called.entries)) = some (["F", "G"], ["F"]) := by
    decide +kernel
  obtain ⟨p, q, first, second, same⟩ := sameOutlineLoads outlined
  obtain ⟨r, s, left, right, declared, called, _⟩ := onlyDirectCallsCount first second same
  simp only [left, okToOption, Option.map_some, Option.some.injEq, Prod.mk.injEq] at reported
  exact ⟨p, q, r, s, first, second, same, left, right, reported.1, declared ▸ reported.1,
    reported.2, called ▸ reported.2⟩

end Uncalled
