import Uncalled.Proofs.Binding
/-! Nothing is recorded that a test does not call. `Within` is plain containment in a body, whatever
a walk looks at: every part of every statement, expression and literal that the syntax tree keeps. A
recorded name is always a call inside some walked body, by its own name or through a variable whose
type is written down. -/
namespace Uncalled
open Source (Expr Element VarSpec Stmt)

inductive Fragment
  | expr (e : Expr)
  | element (e : Element)
  | spec (s : VarSpec)
  | stmt (s : Stmt)

inductive Child : Fragment → Fragment → Prop
  | operand {e field} : Child (.expr (.selector e field)) (.expr e)
  | callee {f args} : Child (.expr (.call f args)) (.expr f)
  | argument {f args e} : e ∈ args → Child (.expr (.call f args)) (.expr e)
  | function {body s} : s ∈ body → Child (.expr (.funcLit body)) (.stmt s)
  | unary {e} : Child (.expr (.unary e)) (.expr e)
  | element {type es e} : e ∈ es → Child (.expr (.composite type es)) (.element e)
  | plain {e} : Child (.element (.plain e)) (.expr e)
  | keyed {e} : Child (.element (.keyed e)) (.expr e)
  | value {names type values e} : e ∈ values → Child (.spec (.mk names type values)) (.expr e)
  | left {left right e} : e ∈ left → Child (.stmt (.assign left right)) (.expr e)
  | right {left right e} : e ∈ right → Child (.stmt (.assign left right)) (.expr e)
  | spec {specs spec} : spec ∈ specs → Child (.stmt (.vars specs)) (.spec spec)
  | eval {e} : Child (.stmt (.eval e)) (.expr e)
  | detached {e} : Child (.stmt (.detached e)) (.expr e)
  | returned {es e} : e ∈ es → Child (.stmt (.returns es)) (.expr e)
  | sent {e} : Child (.stmt (.send e)) (.expr e)
  | loop {body s} : s ∈ body → Child (.stmt (.loop body)) (.stmt s)
  | consequence {body other s} : s ∈ body → Child (.stmt (.branch body other)) (.stmt s)
  | alternative {body other s} : s ∈ other → Child (.stmt (.branch body other)) (.stmt s)
  | clause {clauses body s} : body ∈ clauses → s ∈ body → Child (.stmt (.cases clauses)) (.stmt s)

inductive Within (body : List Stmt) : Fragment → Prop
  | own {s} : s ∈ body → Within body (.stmt s)
  | part {whole part} : Within body whole → Child whole part → Within body part

theorem assignedWithin {body : List Stmt} {s : Stmt} {e : Expr} (within : Within body (.stmt s))
    (inside : e ∈ assignedValues s) : Within body (.expr e) := by
  cases s with
  | assign left right => exact within.part (.right inside)
  | vars specs =>
    match specs with
    | [] => cases inside
    | .mk names type values :: rest =>
      exact (within.part (.spec List.mem_cons_self)).part (.value inside)
  | _ => cases inside

theorem elementWithin {body : List Stmt} {e : Element} (within : Within body (.element e)) :
    Within body (.expr (elementValue e)) := by
  cases e with
  | plain value => exact within.part .plain
  | keyed value => exact within.part .keyed

theorem literalWithin {body : List Stmt} {value : Expr} {es : List Element}
    (within : Within body (.expr value)) (own : literalElements? value = some es) :
    ∀ e ∈ es, Within body (.element e) := by
  intro e inside
  cases value with
  | composite type inner =>
    cases own
    exact within.part (.element inside)
  | unary operand =>
    cases operand with
    | composite type inner =>
      cases own
      exact (within.part .unary).part (.element inside)
    | _ => cases own
  | _ => cases own

def Visit.Within (body : List Stmt) : Visit → Prop
  | .stmt s => Uncalled.Within body (.stmt s)
  | .call _ f args => Uncalled.Within body (.expr (.call f args))
  | .literal es => ∀ e ∈ es, Uncalled.Within body (.element e)

theorem visitedWithin {body : List Stmt} {visit : Visit} (visited : Visited body visit) :
    visit.Within body := by
  induction visited with
  | own inside => exact .own inside
  | looped _ inside ih => exact ih.part (.loop inside)
  | consequence _ inside ih => exact ih.part (.consequence inside)
  | clause _ among inside ih => exact ih.part (.clause among inside)
  | evaluated _ ih => exact ih.part .eval
  | sent _ ih => exact ih.part .sent
  | assigned _ inside ih => exact assignedWithin ih inside
  | keyed _ inside ih => exact (ih _ inside).part .keyed
  | argument _ inside ih => exact ih.part (.argument inside)
  | detached _ ih => exact ih.part .detached
  | returned _ inside ih => exact ih.part (.returned inside)
  | plain _ inside ih => exact (ih _ inside).part .plain
  | calledFunction _ inside ih => exact (ih.part .callee).part (.function inside)
  | argumentFunction _ among inside ih => exact (ih.part (.argument among)).part (.function inside)
  | assignedFunction _ among inside ih => exact (assignedWithin ih among).part (.function inside)
  | elementFunction _ among own inside ih =>
    have value := elementWithin (ih _ among)
    rw [own] at value
    exact value.part (.function inside)
  | assignedLiteral _ among own ih => exact literalWithin (assignedWithin ih among) own
  | elementLiteral _ among own ih => exact literalWithin (elementWithin (ih _ among)) own

def CallsPlainly (body : List Stmt) (name : String) : Prop :=
  ∃ args, Within body (.expr (.call (.ident name) args))

/- A body calls a method of a variable by the name of its type, a dot and its own. The type of the
variable is written at the top level of a file, or somewhere in the same body. -/
def CallsMethod (hs : Helpers) (files : List Source.File) (body : List Stmt) (name : String) :
    Prop :=
  ∃ receiver type method args, name = type ++ "." ++ method ∧ receiver ≠ "_" ∧
    Within body (.expr (.call (.selector (.ident receiver) method) args)) ∧
    ((∃ file ∈ files, ∃ spec ∈ Source.packageVars file, SpecBinds spec receiver type) ∨
      ∃ s, Within body (.stmt s) ∧ Binds hs s receiver type)

theorem boundWithin {hs : Helpers} {body : List Stmt} {x t : String}
    (event : .bound x t ∈ blockEvents hs body) : ∃ s, Within body (.stmt s) ∧ Binds hs s x t := by
  rcases eventOrigin event with ⟨_, _, _, same, _⟩ | ⟨_, _, _, _, same, _⟩ |
    ⟨y, u, s, same, visited, binds⟩
  · cases same
  · cases same
  · cases same
    exact ⟨s, visitedWithin visited, binds⟩

theorem bodyNamesSound {hs : Helpers} {files : List Source.File} {body : List Stmt} {name : String}
    (records : name ∈ bodyNames hs (packageBindings files) body) :
    (hs.contains name = false ∧ CallsPlainly body name) ∨ CallsMethod hs files body name := by
  obtain ⟨before, e, rest, split, named⟩ := (recordedAt ..).mp records
  have member : e ∈ blockEvents hs body := by simp [split]
  rcases eventOrigin member with ⟨other, depth, args, rfl, visited⟩ |
    ⟨receiver, method, depth, args, rfl, visited⟩ | ⟨x, t, s, rfl, _⟩
  · obtain ⟨helper, rfl⟩ := (namedName ..).mp named
    exact .inl ⟨helper, args, visitedWithin visited⟩
  · obtain ⟨type, known, rfl⟩ := Option.map_eq_some_iff.mp named
    have within := visitedWithin visited
    -- the receiver got its type from an event before the call, or from the top level of a file
    rcases lookupAfter known with ⟨bound, notBlank⟩ | package
    · have earlier : .bound receiver type ∈ blockEvents hs body := by simp [split, bound]
      exact .inr ⟨receiver, type, method, args, rfl, notBlank, within, .inr (boundWithin earlier)⟩
    · obtain ⟨file, inFiles, spec, inFile, binds, notBlank⟩ := packageBindingsOrigin package
      exact .inr ⟨receiver, type, method, args, rfl, notBlank, within,
        .inl ⟨file, inFiles, spec, inFile, binds⟩⟩
  · cases named

/- Whatever a walk of test files records, other than `init`, is called directly in the body of a
function of those files that is no helper. -/
theorem calledOnlyIfWritten (testPrefix : String) (files : List Source.File) :
    ∀ name ∈ (walkFiles (Helper.collect testPrefix files) (.ofPackage (packageBindings files))
        files).called,
      name = "init" ∨ ∃ body, Walked (Helper.collect testPrefix files) files body ∧
        (((Helper.collect testPrefix files).contains name = false ∧ CallsPlainly body name) ∨
          CallsMethod (Helper.collect testPrefix files) files body name) := by
  intro name called
  rcases (walkFilesCalled ..).mp called with start | ⟨body, walked, records⟩
  · exact .inl start
  · exact .inr ⟨body, walked, bodyNamesSound records⟩

/- A helper gives `m` its type and a variable of the package has its own. -/
def dairyTests : List Source.File :=
  [[.vars [.mk ["cow"] (some (.pointer false (.name "Cow"))) []],
    .function ⟨.origin, "newMilk", none,
      some (.list [.plain [] (.pointer false (.name "Milk")), .plain [] (.name "error")]),
      some ⟨.origin, .origin, [.returns [.call (.ident "Brew") []]]⟩⟩,
    .function ⟨.origin, "TestMilk", none, none, some ⟨.origin, .origin,
      [.assign [.ident "m", .ident "err"] [.call (.ident "newMilk") []],
       .eval (.call (.selector (.ident "t") "Run") [.other, .funcLit
         [.eval (.call (.selector (.ident "m") "Pour") [.call (.ident "Open") []])]]),
       .detached (.call (.selector (.ident "cow") "Moo") [])]⟩⟩]]

theorem writtenCallsCounted :
    (walkFiles (Helper.collect "Test" dairyTests) (.ofPackage (packageBindings dairyTests))
      dairyTests).called = ["Cow.Moo", "Milk.Pour", "Open", "init"] ∧
    ("Milk.Pour" = "init" ∨ ∃ body, Walked (Helper.collect "Test" dairyTests) dairyTests body ∧
      (((Helper.collect "Test" dairyTests).contains "Milk.Pour" = false ∧
          CallsPlainly body "Milk.Pour") ∨
        CallsMethod (Helper.collect "Test" dairyTests) dairyTests body "Milk.Pour")) := by
  have called : (walkFiles (Helper.collect "Test" dairyTests)
      (.ofPackage (packageBindings dairyTests)) dairyTests).called =
        ["Cow.Moo", "Milk.Pour", "Open", "init"] := by decide +kernel
  exact ⟨called, calledOnlyIfWritten "Test" dairyTests "Milk.Pour" (by rw [called]; decide)⟩

end Uncalled
