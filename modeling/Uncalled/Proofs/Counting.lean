import Uncalled.Proofs.Growth
import Uncalled.Proofs.Independence
import Uncalled.Proofs.PlainNames
import Uncalled.Proofs.Signatures
/-! When the calls of a test count for what the package declares. A method goes by its receiver's
type without type arguments, but a variable of a type with arguments has no known type, so calls
through declared variables reach the methods of the other types only. A function is reached by its
plain name, unless a method of the test files is a helper of that name. -/
namespace Uncalled
open Source (TypeExpr Parameter Expr VarSpec Stmt Function)

theorem declaredMember (o : Options) (p : Package) (name : String) :
    name ∈ (p.report o).declared ↔ ∃ file ∈ p.sources, ∃ f ∈ Source.functions file.tree,
      Declaration.qualifiedName f = name := by
  change name ∈ p.details.keys.entries ↔ _
  rw [Package.details, Catalogue.ofListKeys, Catalogue.namesMember]
  simp [Declaration.collect, Declaration.ofFunction, and_assoc]

theorem calledMember (o : Options) (p : Package) (name : String) :
    name ∈ (p.report o).called ↔ name ∈ (p.walk o).called ∧ name ∈ (p.report o).declared := by
  change name ∈ (Catalogue.names (p.walk o).called).entries.filter
    (p.report o).declared.entries.contains ↔ _
  rw [List.mem_filter, Catalogue.namesMember, List.contains_iff_mem, Catalogue.memberIff]

theorem Helper.collectContains (testPrefix : String) (files : List Source.File) (name : String) :
    (collect testPrefix files).contains name = true ↔ ∃ file ∈ files,
      ∃ f ∈ Source.functions file, f.name = name ∧ (ofFunction? testPrefix f).isSome = true := by
  rw [Helpers.contains, Helpers.get?, Option.isSome_map, Option.isSome_iff_exists,
    ← Catalogue.getIsSome, collect, Catalogue.ofListKeys, Catalogue.namesMember]
  constructor
  · intro member
    obtain ⟨h, inside, rfl⟩ := List.mem_map.mp member
    obtain ⟨f, among, own⟩ := List.mem_filterMap.mp inside
    obtain ⟨file, inFiles, inFile⟩ := List.mem_flatMap.mp among
    exact ⟨file, inFiles, f, inFile, (ofFunctionName own).symm, by rw [own]; rfl⟩
  · rintro ⟨file, inFiles, f, inFile, named, helper⟩
    obtain ⟨h, own⟩ := Option.isSome_iff_exists.mp helper
    refine List.mem_map.mpr ⟨h, ?_, (ofFunctionName own).trans named⟩
    exact List.mem_filterMap.mpr ⟨f, List.mem_flatMap.mpr ⟨file, inFiles, inFile⟩, own⟩

def Package.HasTest (o : Options) (p : Package) (body : List Stmt) : Prop :=
  ∃ tree ∈ p.trees, ∃ test ∈ Source.functions tree, IsTest o.testPrefix test ∧
    test.body.map Source.Body.statements = some body

theorem testWalked {o : Options} {p : Package} {body : List Stmt} (has : p.HasTest o body) :
    Walked (p.helpers o) p.trees body := by
  obtain ⟨tree, among, test, inside, named, own⟩ := has
  refine ⟨tree, among, test, inside, Bool.eq_false_iff.mpr fun helper => ?_, own⟩
  -- whether a function is a helper depends on more than its name, but no test's name is a helper's
  obtain ⟨_, _, f, _, same, isHelper⟩ := (Helper.collectContains ..).mp helper
  have test : IsTest o.testPrefix f := by rwa [IsTest, same]
  rw [testNoHelper test] at isHelper
  cases isHelper

theorem testCounts {o : Options} {p : Package} {body : List Stmt} {name : String}
    (has : p.HasTest o body) (declared : name ∈ (p.report o).declared)
    (records : name ∈ bodyNames (p.helpers o) (packageBindings p.trees) body) :
    name ∈ (p.report o).called :=
  (calledMember ..).mpr ⟨(walkFilesCalled ..).mpr (.inr ⟨body, testWalked has, records⟩), declared⟩

structure Source.Brief where
  name : String
  receiver : Option (List Parameter)
  statements : Option (List Stmt)
  deriving DecidableEq

def Source.Function.brief (f : Function) : Source.Brief :=
  ⟨f.name, f.receiver, f.body.map Source.Body.statements⟩

structure Package.Brief where
  sources : List Source.Brief
  tests : List Source.Brief
  deriving DecidableEq

def Package.brief (p : Package) : Package.Brief where
  sources := p.sources.flatMap fun file => (Source.functions file.tree).map Function.brief
  tests := p.trees.flatMap fun tree => (Source.functions tree).map Function.brief

theorem briefLoaded {t : FileTree} {o : Options} {dir : String} {brief : Package.Brief}
    (read : (Package.load t o dir).toOption.map Package.brief = some brief) :
    ∃ p, Package.load t o dir = .ok p ∧
      (∀ b ∈ brief.sources, ∃ file ∈ p.sources, ∃ f ∈ Source.functions file.tree, f.brief = b) ∧
      ∀ b, b ∈ brief.tests ↔ ∃ tree ∈ p.trees, ∃ f ∈ Source.functions tree, f.brief = b := by
  obtain ⟨p, loaded, rfl⟩ := toOptionMap.mp read
  refine ⟨p, loaded, fun b listed => ?_, fun b => ?_⟩
  · simpa [Package.brief] using listed
  · simp [Package.brief]

theorem briefTest {o : Options} {p : Package} {name : String} {receiver : Option (List Parameter)}
    {body : List Stmt} (named : o.testPrefix.toList.isPrefixOf name.toList = true)
    (listed : ∃ tree ∈ p.trees, ∃ f ∈ Source.functions tree,
      f.brief = ⟨name, receiver, some body⟩) : p.HasTest o body := by
  obtain ⟨tree, among, test, inside, own⟩ := listed
  obtain ⟨rfl, _, statements⟩ := Source.Brief.mk.inj own
  exact ⟨tree, among, test, inside, named, statements⟩

def Source.TypeExpr.hasArguments : TypeExpr → Bool
  | .generic _ => true
  | .pointer _ target => target.hasArguments
  | _ => false

theorem receiverShape {type : TypeExpr} {name : String}
    (named : Declaration.receiverName type = some name) :
    ∃ base, (type = base ∨ type = .pointer false base) ∧
      (base = .name name ∨ base = .generic (.name name)) := by
  have shape : ∀ base, Declaration.baseName base = some name →
      base = .name name ∨ base = .generic (.name name) := by
    intro base own
    unfold Declaration.baseName at own
    split at own <;> simp_all
  unfold Declaration.receiverName at named
  split at named
  · cases named
  · exact ⟨_, .inr rfl, shape _ named⟩
  · exact ⟨type, .inl rfl, shape type named⟩

theorem receiverBinding {type : TypeExpr} {name : String}
    (named : Declaration.receiverName type = some name) :
    bindingName type = if type.hasArguments then none else some name := by
  obtain ⟨base, rfl | rfl, rfl | rfl⟩ := receiverShape named <;> rfl

theorem lookupUnbound {x : String} {events : List Event} (kept : ∀ t, .bound x t ∉ events)
    (s : Scope) : (s.after events).lookup x = s.lookup x := by
  induction events generalizing s with
  | nil => rfl
  | cons e es ih =>
    have rest : ∀ t, .bound x t ∉ es := fun t later => kept t (List.mem_cons_of_mem _ later)
    refine (ih rest (s.step e)).trans ?_
    cases e with
    | bound name type =>
      have other : ¬ (some name = some x ∧ x ≠ "_") := by
        rintro ⟨same, _⟩
        cases same
        exact kept type List.mem_cons_self
      exact (bindKnownLookup s (some name) (some type) x).trans (if_neg other)
    | _ => rfl

theorem blockAppend (hs : Helpers) (first second : List Stmt) (w : Walk) :
    block hs (first ++ second) w = block hs second (block hs first w) := by
  induction first generalizing w with
  | nil => rfl
  | cons s ss ih => exact ih (statement hs s w)

theorem blockCalled {hs : Helpers} {w : Walk} {name : String} (called : name ∈ w.called)
    (body : List Stmt) : name ∈ (block hs body w).called := by
  rw [blockReplay, replayCalled]
  exact .inl called

theorem declaredVariable (hs : Helpers) (x : String) (names : List String) (type : TypeExpr)
    (specs : List VarSpec) (w : Walk) :
    statement hs (.vars (.mk (x :: names) (some type) [] :: specs)) w =
      w.bindKnown (some x) (bindingName type) := by
  have known : specName (.mk (x :: names) (some type) []) = bindingName type := Option.or_none ..
  simp only [statement, firstSpec, bindResults, assignEach, Scope.bindSpec, known]
  rfl

def Keeps (hs : Helpers) (x : String) (between : List Stmt) (args : List Expr) : Prop :=
  ∀ t, .bound x t ∉ blockEvents hs between ∧ .bound x t ∉ argumentEvents hs args

theorem methodRecorded {hs : Helpers} {x type : String} {between : List Stmt} {args : List Expr}
    {w : Walk} (known : w.scope.lookup x = some type) (kept : Keeps hs x between args)
    (method : String) :
    block hs (between ++ [.eval (.call (.selector (.ident x) method) args)]) w =
      (arguments hs args (block hs between w)).record (type ++ "." ++ method) := by
  have stays : (arguments hs args (block hs between w)).scope.lookup x = some type := by
    rw [argumentReplay, replayScope, lookupUnbound fun t => (kept t).2, blockReplay, replayScope,
      lookupUnbound fun t => (kept t).1, known]
  rw [blockAppend]
  simp only [block, statement, call, callee, Walk.callMethod, stays]

/- A body declares a variable of a type and then calls a method of it. -/
inductive CallsDeclared (hs : Helpers) (type : TypeExpr) (method : String) : List Stmt → Prop
  | calls (before between rest : List Stmt) {x : String} {names : List String}
      {specs : List VarSpec} {args : List Expr} (named : x ≠ "_") (kept : Keeps hs x between args) :
      CallsDeclared hs type method (before ++ .vars (.mk (x :: names) (some type) [] :: specs) ::
        (between ++ [.eval (.call (.selector (.ident x) method) args)]) ++ rest)

theorem declaredRecorded {hs : Helpers} {x name : String} {names : List String}
    {specs : List VarSpec} {type : TypeExpr} {between : List Stmt} {args : List Expr}
    (binds : bindingName type = some name) (named : x ≠ "_") (kept : Keeps hs x between args)
    (method : String) (w : Walk) :
    block hs (.vars (.mk (x :: names) (some type) [] :: specs) ::
        (between ++ [.eval (.call (.selector (.ident x) method) args)])) w =
      (arguments hs args (block hs between (w.bindKnown (some x) (some name)))).record
        (name ++ "." ++ method) := by
  have known : (w.bindKnown (some x) (some name)).scope.lookup x = some name :=
    (bindKnownLookup ..).trans (if_pos ⟨rfl, named⟩)
  rw [block, declaredVariable, binds, methodRecorded known kept]

theorem declaredNames {hs : Helpers} {type : TypeExpr} {name method : String} {body : List Stmt}
    (binds : bindingName type = some name) (calls : CallsDeclared hs type method body)
    (package : Bindings) : name ++ "." ++ method ∈ bodyNames hs package body := by
  rw [← aloneCalled, walkAlone]
  obtain ⟨before, between, rest, named, kept⟩ := calls
  rw [blockAppend, blockAppend, declaredRecorded binds named kept]
  exact blockCalled List.mem_cons_self _

/- Where the receiver's type has no arguments, a variable of that type has the name of the receiver,
and a call of the method through it records the name of the method and counts. With arguments the
variable gets no type. -/
theorem receiversNameVariables {f : Function} {receiver : List Parameter} {type : TypeExpr}
    {name : String} (method : f.receiver = some receiver)
    (declares : Declaration.receiverType? receiver = some type)
    (named : Declaration.receiverName type = some name) :
    (bindingName type = some name ↔ type.hasArguments = false) ∧
    (type.hasArguments = true → ∀ hs x names specs w,
      statement hs (.vars (.mk (x :: names) (some type) [] :: specs)) w = w) ∧
    (type.hasArguments = false →
      (∀ hs x names specs between args w, x ≠ "_" → Keeps hs x between args →
        block hs (.vars (.mk (x :: names) (some type) [] :: specs) ::
            (between ++ [.eval (.call (.selector (.ident x) f.name) args)])) w =
          (arguments hs args (block hs between (w.bindKnown (some x) (some name)))).record
            (Declaration.qualifiedName f)) ∧
      ∀ (o : Options) (p : Package) body,
        (∃ file ∈ p.sources, f ∈ Source.functions file.tree) → p.HasTest o body →
        CallsDeclared (p.helpers o) type f.name body →
        Declaration.qualifiedName f ∈ (p.report o).called) := by
  have binding := receiverBinding named
  have qualified : Declaration.qualifiedName f = name ++ "." ++ f.name := by
    simp [Declaration.qualifiedName, method, declares, named]
  refine ⟨?_, ?_, ?_⟩
  · cases arguments : type.hasArguments <;> simp [binding, arguments]
  · intro arguments hs x names specs w
    rw [declaredVariable, binding, if_pos arguments, bindKnownNone]
  · intro plain
    have binds : bindingName type = some name := by rw [binding, plain]; rfl
    refine ⟨?_, ?_⟩
    · intro hs x names specs between args w notBlank kept
      rw [qualified, declaredRecorded binds notBlank kept]
    · rintro o p body ⟨file, among, inside⟩ has calls
      refine testCounts has ((declaredMember ..).mpr ⟨file, among, f, inside, rfl⟩) ?_
      rw [qualified]
      exact declaredNames binds calls _

def listPackage (arguments : String) : FileTree :=
  ⟨[], [(["pkg", "list.go"],
      Text.encode ("func (l *List" ++ arguments ++ ") Push(v int) \x7b\x7d")),
    (["pkg", "list_test.go"],
      Text.encode ("func TestPush() \x7b var x *List" ++ arguments ++ "\nx.Push(1) \x7d"))]⟩

theorem listCalls {arguments : String} {type : TypeExpr}
    (read : (Package.load (listPackage arguments) .standard "pkg").toOption.map Package.brief =
      some ⟨[⟨"Push", some [.plain ["l"] type], some []⟩],
        [⟨"TestPush", none, some [.vars [.mk ["x"] (some type) []],
          .eval (.call (.selector (.ident "x") "Push") [.other])]⟩]⟩) :
    ∃ p f body, Package.load (listPackage arguments) .standard "pkg" = .ok p ∧
      (∃ file ∈ p.sources, f ∈ Source.functions file.tree) ∧ f.name = "Push" ∧
      f.receiver = some [.plain ["l"] type] ∧ p.HasTest .standard body ∧
      CallsDeclared (p.helpers .standard) type f.name body := by
  obtain ⟨p, loaded, sources, tests⟩ := briefLoaded read
  obtain ⟨file, source, f, declared, own⟩ := sources _ List.mem_cons_self
  obtain ⟨name, receiver, _⟩ := Source.Brief.mk.inj own
  have has := @briefTest .standard _ _ _ _ (by decide) ((tests _).mp List.mem_cons_self)
  refine ⟨p, f, _, loaded, ⟨file, source, declared⟩, name, receiver, has, ?_⟩
  rw [name]
  refine .calls [] [] [] (by decide) fun t => ?_
  simp [blockEvents, argumentEvents, valueEvents]

theorem plainListCounted : ∃ p f body,
    Package.load (listPackage "") .standard "pkg" = .ok p ∧
    (∃ file ∈ p.sources, f ∈ Source.functions file.tree) ∧
    f.receiver = some [.plain ["l"] (.pointer false (.name "List"))] ∧
    Declaration.receiverName (.pointer false (.name "List")) = some "List" ∧
    p.HasTest .standard body ∧
    CallsDeclared (p.helpers .standard) (.pointer false (.name "List")) f.name body ∧
    Declaration.qualifiedName f = "List.Push" ∧
    Declaration.qualifiedName f ∈ (p.report .standard).called := by
  obtain ⟨p, f, body, loaded, declared, name, receiver, has, calls⟩ :=
    @listCalls "" (.pointer false (.name "List")) (by decide +kernel)
  obtain ⟨_, _, plain⟩ := receiversNameVariables receiver rfl rfl
  have qualified : Declaration.qualifiedName f = "List.Push" := by
    rw [Declaration.qualifiedName, receiver, name]
    decide
  exact ⟨p, f, body, loaded, declared, receiver, rfl, has, calls, qualified,
    (plain rfl).2 .standard p body declared has calls⟩

/- The method is declared by the name of its type, which the variable does not have. -/
theorem genericListMissed : ∃ p f body type,
    Package.load (listPackage "[int]") .standard "pkg" = .ok p ∧
    (∃ file ∈ p.sources, f ∈ Source.functions file.tree) ∧
    f.receiver = some [.plain ["l"] type] ∧ p.HasTest .standard body ∧
    CallsDeclared (p.helpers .standard) type f.name body ∧
    Declaration.receiverName type = some "List" ∧ bindingName type = none ∧
    (p.report .standard).declared.entries = ["List.Push"] ∧
    (p.report .standard).called.entries = [] := by
  obtain ⟨p, f, body, loaded, declared, _, receiver, has, calls⟩ :=
    @listCalls "[int]" (.pointer false (.generic (.name "List"))) (by decide +kernel)
  have reported : (Package.load (listPackage "[int]") .standard "pkg").toOption.map
      (fun p => ((p.report .standard).declared.entries, (p.report .standard).called.entries)) =
        some (["List.Push"], []) := by decide +kernel
  simp only [loaded, okToOption, Option.map_some, Option.some.injEq, Prod.mk.injEq]
    at reported
  exact ⟨p, f, body, _, loaded, declared, receiver, has, calls, rfl, rfl, reported⟩

/- A method in a test file that is a helper, under this name. -/
def Package.Hides (o : Options) (p : Package) (name : String) : Prop :=
  ∃ tree ∈ p.trees, ∃ m ∈ Source.functions tree, m.name = name ∧ m.receiver ≠ none ∧
    (Helper.ofFunction? o.testPrefix m).isSome = true

instance (o : Options) (p : Package) (name : String) : Decidable (p.Hides o name) := by
  unfold Package.Hides; infer_instance

theorem hidesIff {o : Options} {p : Package} {name : String}
    (methods : ∀ tree ∈ p.trees, ∀ g ∈ Source.functions tree, g.name = name → g.receiver ≠ none) :
    (p.helpers o).contains name = true ↔ p.Hides o name := by
  rw [Package.helpers, Helper.collectContains]
  constructor
  · rintro ⟨tree, among, m, inside, named, helper⟩
    exact ⟨tree, among, m, inside, named, methods tree among m inside named, helper⟩
  · rintro ⟨tree, among, m, inside, named, _, helper⟩
    exact ⟨tree, among, m, inside, named, helper⟩

/- A function of the package that no test file declares again is called by its name alone, in a
statement of its own at the top level of a test. -/
structure Package.CallsBare (o : Options) (p : Package) (name : String) : Prop where
  declared : ∃ file ∈ p.sources, ∃ f ∈ Source.functions file.tree,
    f.name = name ∧ f.receiver = none
  methods : ∀ tree ∈ p.trees, ∀ g ∈ Source.functions tree, g.name = name → g.receiver ≠ none
  called : ∃ body args, p.HasTest o body ∧ .eval (.call (.ident name) args) ∈ body

theorem bareDeclared {o : Options} {p : Package} {name : String} (bare : p.CallsBare o name) :
    name ∈ (p.report o).declared := by
  obtain ⟨file, source, f, inside, rfl, free⟩ := bare.declared
  refine (declaredMember ..).mpr ⟨file, source, f, inside, ?_⟩
  simp [Declaration.qualifiedName, free]

theorem bareCounted {o : Options} {p : Package} {name : String} (bare : p.CallsBare o name)
    (unhidden : ¬ p.Hides o name) : name ∈ (p.report o).called := by
  obtain ⟨body, args, has, inside⟩ := bare.called
  refine testCounts has (bareDeclared bare) ((recordedAt ..).mpr ?_)
  have visited : Visited body (.call .full (.ident name) args) := .evaluated (.own inside)
  obtain ⟨before, rest, split⟩ :=
    List.append_of_mem ((namedVisited (p.helpers o) ..).mpr ⟨_, _, visited⟩)
  refine ⟨before, _, rest, split, (namedName ..).mpr ⟨?_, rfl⟩⟩
  exact Bool.eq_false_iff.mpr fun helper => unhidden ((hidesIff bare.methods).mp helper)

/- Such a function counts as called exactly where no method of the test files hides it. The runtime
calls `init` by itself. -/
theorem bareCallsCount {t : FileTree} {o : Options} {dir : String} {p : Package} {name : String}
    (loaded : Package.load t o dir = .ok p) (bare : p.CallsBare o name) :
    ∃ r, analyze t o dir = .ok r ∧ (¬ p.Hides o name → name ∈ r.called) ∧
      (DotFree name → (name ∈ r.called ↔ name = "init" ∨ ¬ p.Hides o name)) := by
  refine ⟨p.report o, analyzed loaded, bareCounted bare, fun plain => ⟨?_, ?_⟩⟩
  · intro called
    rcases (walkFilesCalled ..).mp ((calledMember ..).mp called).1 with start | ⟨_, _, records⟩
    · exact .inl start
    · obtain ⟨helper, _⟩ := (recordedNamed _ _ _ plain).mp records
      exact .inr fun hides => Bool.eq_false_iff.mp helper ((hidesIff bare.methods).mpr hides)
  · rintro (start | unhidden)
    · exact (calledMember ..).mpr ⟨(walkFilesCalled ..).mpr (.inl start), bareDeclared bare⟩
    · exact bareCounted bare unhidden

def jugPackage (result : String) : FileTree :=
  ⟨[], [(["pkg", "milk.go"], Text.encode "func Pour() error \x7b\x7d"),
    (["pkg", "milk_test.go"],
      Text.encode ("func (j jug) Pour() " ++ result ++ "\x7b\x7d\n" ++
        "func TestPour() \x7b Pour() \x7d"))]⟩

theorem jugCalls {result : String}
    (read : (Package.load (jugPackage result) .standard "pkg").toOption.map Package.brief =
      some ⟨[⟨"Pour", none, some []⟩], [⟨"Pour", some [.plain ["j"] (.name "jug")], some []⟩,
        ⟨"TestPour", none, some [.eval (.call (.ident "Pour") [])]⟩]⟩) :
    ∃ p, Package.load (jugPackage result) .standard "pkg" = .ok p ∧
      p.CallsBare .standard "Pour" := by
  obtain ⟨p, loaded, sources, tests⟩ := briefLoaded read
  refine ⟨p, loaded, ?_, ?_, ?_⟩
  · obtain ⟨file, source, f, declared, own⟩ := sources _ List.mem_cons_self
    obtain ⟨name, receiver, _⟩ := Source.Brief.mk.inj own
    exact ⟨file, source, f, declared, name, receiver⟩
  · intro tree inTests g inFile named unbound
    have listed := (tests _).mpr ⟨tree, inTests, g, inFile, rfl⟩
    simp [Function.brief, named, unbound] at listed
  · have last := (tests ⟨"TestPour", none, some [.eval (.call (.ident "Pour") [])]⟩).mp (by simp)
    exact ⟨_, [], briefTest (by decide) last, List.mem_singleton.mpr rfl⟩

theorem resultlessMethodHidesNothing : ∃ p r,
    Package.load (jugPackage "") .standard "pkg" = .ok p ∧ p.CallsBare .standard "Pour" ∧
    ¬ p.Hides .standard "Pour" ∧ analyze (jugPackage "") .standard "pkg" = .ok r ∧
    "Pour" ∈ r.called := by
  obtain ⟨p, loaded, bare⟩ := @jugCalls "" (by decide +kernel)
  have hidden : (Package.load (jugPackage "") .standard "pkg").toOption.map
      (fun p => decide (p.Hides .standard "Pour")) = some false := by decide +kernel
  rw [loaded, okToOption, Option.map_some, Option.some.injEq, decide_eq_false_iff_not]
    at hidden
  obtain ⟨r, reported, counts, _⟩ := bareCallsCount loaded bare
  exact ⟨p, r, loaded, bare, hidden, reported, counts hidden⟩

/- With a result the method is a helper by its bare name, and the call of the function is taken for
one of the helper. -/
theorem helperMethodHidesFunction : ∃ p r,
    Package.load (jugPackage "error ") .standard "pkg" = .ok p ∧ p.CallsBare .standard "Pour" ∧
    analyze (jugPackage "error ") .standard "pkg" = .ok r ∧
    r.declared.entries = ["Pour"] ∧ r.called.entries = [] := by
  obtain ⟨p, loaded, bare⟩ := @jugCalls "error " (by decide +kernel)
  have reported : (Package.load (jugPackage "error ") .standard "pkg").toOption.map
      (fun p => ((p.report .standard).declared.entries, (p.report .standard).called.entries)) =
        some (["Pour"], []) := by decide +kernel
  simp only [loaded, okToOption, Option.map_some, Option.some.injEq, Prod.mk.injEq]
    at reported
  exact ⟨p, _, loaded, bare, analyzed loaded, reported⟩

end Uncalled
