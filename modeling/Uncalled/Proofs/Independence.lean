import Uncalled.Proofs.Catalogue
import Uncalled.Proofs.Events
/-! Each body adds its own names, whatever was walked before it. A walk only puts names in front of
those it finds, binds only local variables, and every function starts without any, so the names that
a body adds are those of a walk of that body by itself, and the order of files and functions does
not matter. -/
namespace Uncalled
open Source (Stmt Function)

def walkAlone (hs : Helpers) (package : Bindings) (body : List Stmt) : Walk :=
  block hs body ⟨.ofPackage package, []⟩

theorem aloneCalled (hs : Helpers) (package : Bindings) (body : List Stmt) (name : String) :
    name ∈ (walkAlone hs package body).called ↔ name ∈ bodyNames hs package body := by
  rw [walkAlone, blockReplay, replayCalled]
  simp [bodyNames]

theorem replayInFront (hs : Helpers) (scope : Scope) (called : List String) (events : List Event) :
    (Walk.replay hs ⟨scope, called⟩ events).called =
      (Walk.replay hs ⟨scope, []⟩ events).called ++ called := by
  have general : ∀ w : Walk, (w.replay hs events).called =
      (recorded hs w.scope events).reverse ++ w.called := by
    induction events with
    | nil => intro w; rfl
    | cons e es ih =>
      intro w
      change ((w.step hs e).replay hs es).called = _
      rw [ih, stepScope, stepCalled, recorded, List.reverse_append]
      cases e.name? hs w.scope <;> simp
  rw [general, general]
  simp

theorem walkFunctionAlone {hs : Helpers} {f : Function} {body : Source.Body} (w : Walk)
    (own : f.body = some body) (walked : hs.contains f.name = false) :
    walkFunction hs w f = ⟨(walkAlone hs w.scope.package body.statements).scope,
      (walkAlone hs w.scope.package body.statements).called ++ w.called⟩ := by
  have begins : walkFunction hs w f =
      Walk.replay hs ⟨.ofPackage w.scope.package, w.called⟩ (blockEvents hs body.statements) := by
    simp only [walkFunction, own, walked, blockReplay]
    rfl
  have scope : (walkFunction hs w f).scope =
      (walkAlone hs w.scope.package body.statements).scope := by
    rw [begins, walkAlone, blockReplay, replayScope, replayScope]
  have called : (walkFunction hs w f).called =
      (walkAlone hs w.scope.package body.statements).called ++ w.called := by
    rw [begins, walkAlone, blockReplay, replayInFront]
  rw [← scope, ← called]

theorem walkFunctionsPackage (hs : Helpers) (w : Walk) (fs : List Function) :
    (fs.foldl (walkFunction hs) w).scope.package = w.scope.package := by
  induction fs generalizing w with
  | nil => rfl
  | cons f fs ih => exact (ih (walkFunction hs w f)).trans (walkFunctionPackage hs w f)

theorem walkFilesAlone (hs : Helpers) (scope : Scope) (files : List Source.File) (name : String) :
    name ∈ (walkFiles hs scope files).called ↔
      name = "init" ∨ ∃ f ∈ files.flatMap Source.functions, ∃ body, f.body = some body ∧
        hs.contains f.name = false ∧
        name ∈ (walkAlone hs scope.package body.statements).called := by
  rw [walkFilesFunctions, walkFunctionsCalled]
  refine or_congr (by simp [Walk.start]) (exists_congr fun f => and_congr_right fun _ => ?_)
  constructor
  · rintro ⟨statements, walked, own, records⟩
    obtain ⟨body, hasBody, rfl⟩ := Option.map_eq_some_iff.mp own
    exact ⟨body, hasBody, walked, (aloneCalled ..).mpr records⟩
  · rintro ⟨body, hasBody, walked, records⟩
    refine ⟨body.statements, walked, ?_, (aloneCalled ..).mp records⟩
    rw [hasBody, Option.map_some]

theorem walkFilesReordered {hs : Helpers} {scope other : Scope} {files others : List Source.File}
    (package : other.package = scope.package)
    (reordered : (others.flatMap Source.functions).Perm (files.flatMap Source.functions)) :
    Catalogue.names (walkFiles hs other others).called =
      Catalogue.names (walkFiles hs scope files).called := by
  refine Catalogue.namesSame fun name => ?_
  rw [walkFilesAlone, walkFilesAlone, package]
  simp only [reordered.mem_iff]

/- What is called in test files is `init` and what each body calls by itself. The order of the files
and of their functions and the local variables known at the start do not matter, a function leaves
only its own local variables behind, and the variables of the package stay. -/
theorem bodiesContributeAlone (hs : Helpers) (scope : Scope) (files : List Source.File) :
    (∀ name, name ∈ (walkFiles hs scope files).called ↔
      name = "init" ∨ ∃ f ∈ files.flatMap Source.functions, ∃ body, f.body = some body ∧
        hs.contains f.name = false ∧
        name ∈ (walkAlone hs scope.package body.statements).called) ∧
    (∀ locals others, (others.flatMap Source.functions).Perm (files.flatMap Source.functions) →
      Catalogue.names (walkFiles hs ⟨scope.package, locals⟩ others).called =
        Catalogue.names (walkFiles hs scope files).called) ∧
    (∀ w f body, f.body = some body → hs.contains f.name = false →
      walkFunction hs w f = ⟨(walkAlone hs w.scope.package body.statements).scope,
        (walkAlone hs w.scope.package body.statements).called ++ w.called⟩) ∧
    (walkFiles hs scope files).scope.package = scope.package := by
  refine ⟨walkFilesAlone hs scope files, ?_, ?_, ?_⟩
  · intro locals others reordered
    exact walkFilesReordered rfl reordered
  · intro w f body own walked
    exact walkFunctionAlone w own walked
  · rw [walkFilesFunctions, walkFunctionsPackage]
    rfl

/- The first test takes `m` for its own, the second means the variable of the package. -/
def milkTests : List Source.File :=
  [[.function ⟨.origin, "TestPour", none, none, some ⟨.origin, .origin,
      [.assign [.ident "m"] [.composite (some (.name "Milk")) []],
       .eval (.call (.selector (.ident "m") "Pour") [])]⟩⟩],
    [.function ⟨.origin, "TestMoo", none, none, some ⟨.origin, .origin,
      [.eval (.call (.selector (.ident "m") "Moo") [])]⟩⟩]]

theorem testsReordered :
    (milkTests.reverse.flatMap Source.functions).Perm (milkTests.flatMap Source.functions) ∧
    (Catalogue.names
        (walkFiles .empty ⟨[("m", "Cow")], [("m", "Goat")]⟩ milkTests.reverse).called).entries =
      ["Cow.Moo", "Milk.Pour", "init"] := by
  have reordered : (milkTests.reverse.flatMap Source.functions).Perm
      (milkTests.flatMap Source.functions) := milkTests.reverse_perm.flatMap_right _
  have same := (bodiesContributeAlone .empty ⟨[("m", "Cow")], []⟩ milkTests).2.1 [("m", "Goat")]
    milkTests.reverse reordered
  exact ⟨reordered, (congrArg Catalogue.entries same).trans (by decide +kernel)⟩

end Uncalled
