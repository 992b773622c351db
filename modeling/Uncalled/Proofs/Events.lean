import Mathlib.Tactic.Tauto
import Uncalled.Calls
/-! What a walk does, apart from where it stands. The events of a body (names called, methods
called, variables bound) are read off its syntax alone and in the order of the walk. The state is
folded over them, so neither the scope nor the names recorded so far steer a walk. -/
namespace Uncalled
open Source (Expr Element VarSpec Stmt Function)

inductive Event
  | named (name : String)
  | method (receiver name : String)
  | bound (name type : String)
  deriving DecidableEq, Repr

def Walk.step (hs : Helpers) (w : Walk) : Event → Walk
  | .named name => w.callName hs name
  | .method receiver name => w.callMethod receiver name
  | .bound name type => { w with scope := w.scope.bind name type }

def Walk.replay (hs : Helpers) (w : Walk) (events : List Event) : Walk :=
  events.foldl (Walk.step hs) w

/- Where a value stands decides what is looked into: the arguments of a call, the body of a function
literal, the elements of a literal in braces. -/
structure Site where
  arguments : Bool
  functions : Bool
  elements : Bool
  deriving DecidableEq, Repr

namespace Site

def alone : Site := ⟨true, false, false⟩
def detached : Site := ⟨false, false, false⟩
def argument : Site := ⟨true, true, false⟩
def value : Site := ⟨true, true, true⟩
def plain : Site := ⟨false, true, true⟩

end Site

def bindEvents : Option String → Option String → List Event
  | some name, some type => [.bound name type]
  | _, _ => []

def resultEvents (hs : Helpers) (targets : List (Option String)) (right : List Expr) : List Event :=
  match right with
  | [value] =>
    match calledSignature hs value with
    | some signature => (targets.zip signature).flatMap fun b => bindEvents b.1 b.2
    | none => []
  | _ => []

mutual

def valueEvents (hs : Helpers) (site : Site) : Expr → List Event
  | .call f args =>
    (if site.arguments then argumentEvents hs args else []) ++ calleeEvents hs f
  | .funcLit body => if site.functions then blockEvents hs body else []
  | .composite _ es => if site.elements then elementEvents hs es else []
  | .unary (.composite _ es) => if site.elements then elementEvents hs es else []
  | _ => []

def calleeEvents (hs : Helpers) : Expr → List Event
  | .ident name => [.named name]
  | .selector (.ident receiver) name => [.method receiver name]
  | .funcLit body => blockEvents hs body
  | _ => []

def argumentEvents (hs : Helpers) : List Expr → List Event
  | [] => []
  | e :: es => valueEvents hs .argument e ++ argumentEvents hs es

def elementEvents (hs : Helpers) : List Element → List Event
  | [] => []
  | .plain value :: es => valueEvents hs .plain value ++ elementEvents hs es
  | .keyed value :: es => valueEvents hs .value value ++ elementEvents hs es

def assignEvents (hs : Helpers) (targets : List (Option String)) : List Expr → List Event
  | [] => []
  | e :: es =>
    valueEvents hs .value e ++ bindEvents targets.head?.join (literalName e) ++
      assignEvents hs targets.tail es

def detachedEvents (hs : Helpers) : List Expr → List Event
  | [] => []
  | e :: es => valueEvents hs .detached e ++ detachedEvents hs es

def specEvents (hs : Helpers) : List VarSpec → List Event
  | [] => []
  | .mk names type values :: _ =>
    bindEvents names.head? (specName (.mk names type values)) ++
      resultEvents hs (names.map some) values ++ assignEvents hs (names.map some) values

def stmtEvents (hs : Helpers) : Stmt → List Event
  | .assign left right =>
    resultEvents hs (left.map target?) right ++ assignEvents hs (left.map target?) right
  | .vars specs => specEvents hs specs
  | .eval value => valueEvents hs .alone value
  | .detached value => valueEvents hs .detached value
  | .returns values => detachedEvents hs values
  | .send value => valueEvents hs .alone value
  | .loop body => blockEvents hs body
  | .branch consequence _ => blockEvents hs consequence
  | .cases clauses => clauseEvents hs clauses
  | .other => []

def blockEvents (hs : Helpers) : List Stmt → List Event
  | [] => []
  | s :: ss => stmtEvents hs s ++ blockEvents hs ss

def clauseEvents (hs : Helpers) : List (List Stmt) → List Event
  | [] => []
  | b :: bs => blockEvents hs b ++ clauseEvents hs bs

end

namespace Walk

@[simp] theorem replayNil (hs : Helpers) (w : Walk) : w.replay hs [] = w := rfl

@[simp] theorem replayAppend (hs : Helpers) (w : Walk) (first second : List Event) :
    w.replay hs (first ++ second) = (w.replay hs first).replay hs second :=
  List.foldl_append

@[simp] theorem replayBind (hs : Helpers) (w : Walk) (name type : Option String) :
    w.replay hs (bindEvents name type) = w.bindKnown name type := by
  cases name <;> cases type <;> rfl

theorem replayPairs (hs : Helpers) (w : Walk) (pairs : List (Option String × Option String)) :
    w.replay hs (pairs.flatMap fun b => bindEvents b.1 b.2) =
      pairs.foldl (fun w b => w.bindKnown b.1 b.2) w := by
  induction pairs generalizing w with
  | nil => rfl
  | cons pair rest ih =>
    rw [List.flatMap_cons, replayAppend, replayBind, ih]
    rfl

@[simp] theorem replayResults (hs : Helpers) (targets : List (Option String)) (right : List Expr)
    (w : Walk) : w.replay hs (resultEvents hs targets right) = bindResults hs targets right w := by
  match right with
  | [] => rfl
  | [value] =>
    cases found : calledSignature hs value with
    | none => simp only [resultEvents, bindResults, found, replayNil]
    | some signature => simp only [resultEvents, bindResults, found, replayPairs]
  | _ :: _ :: _ => rfl

end Walk

open Walk (replayNil replayAppend replayBind replayResults)

@[simp] theorem bindKnownNone (w : Walk) (target : Option String) :
    w.bindKnown target none = w := by
  cases target <;> rfl

theorem assignedKeyed (hs : Helpers) (target : Option String) (e : Expr) (w : Walk) :
    assigned hs target e w = (keyed hs e w).bindKnown target (literalName e) := by
  cases e with
  | composite type es => cases type <;> rfl
  | unary operand =>
    cases operand with
    | composite type es => cases type <;> rfl
    | _ => exact (bindKnownNone w target).symm
  | _ => exact (bindKnownNone _ target).symm

mutual

theorem valueReplay (hs : Helpers) (e : Expr) (w : Walk) :
    call hs e w = w.replay hs (valueEvents hs .alone e) ∧
    callOnly hs e w = w.replay hs (valueEvents hs .detached e) ∧
    argument hs e w = w.replay hs (valueEvents hs .argument e) ∧
    keyed hs e w = w.replay hs (valueEvents hs .value e) ∧
    plain hs e w = w.replay hs (valueEvents hs .plain e) := by
  -- the ways to read a value share their parts, so they are replayed together
  cases e with
  | call f args =>
    have full : callee hs f (arguments hs args w) =
        w.replay hs (argumentEvents hs args ++ calleeEvents hs f) := by
      rw [replayAppend, ← argumentReplay, ← calleeReplay]
    have only : callee hs f w = w.replay hs (calleeEvents hs f) := calleeReplay hs f w
    exact ⟨full, only, full, full, only⟩
  | funcLit body =>
    have inner := blockReplay hs body w
    exact ⟨rfl, rfl, inner, inner, inner⟩
  | composite type es =>
    have inner := elementReplay hs es w
    exact ⟨rfl, rfl, rfl, inner, inner⟩
  | unary operand =>
    cases operand with
    | composite type es =>
      have inner := elementReplay hs es w
      exact ⟨rfl, rfl, rfl, inner, inner⟩
    | _ => exact ⟨rfl, rfl, rfl, rfl, rfl⟩
  | _ => exact ⟨rfl, rfl, rfl, rfl, rfl⟩

theorem calleeReplay (hs : Helpers) (f : Expr) (w : Walk) :
    callee hs f w = w.replay hs (calleeEvents hs f) := by
  cases f with
  | ident name => rfl
  | selector operand field => cases operand <;> rfl
  | funcLit body => exact blockReplay hs body w
  | _ => rfl

theorem argumentReplay (hs : Helpers) (es : List Expr) (w : Walk) :
    arguments hs es w = w.replay hs (argumentEvents hs es) := by
  cases es with
  | nil => rfl
  | cons e es =>
    simp only [arguments, argumentEvents, replayAppend]
    rw [(valueReplay hs e w).2.2.1, argumentReplay hs es]

theorem elementReplay (hs : Helpers) (es : List Element) (w : Walk) :
    elements hs es w = w.replay hs (elementEvents hs es) := by
  cases es with
  | nil => rfl
  | cons e es =>
    cases e with
    | plain value =>
      simp only [elements, element, elementEvents, replayAppend]
      rw [(valueReplay hs value w).2.2.2.2, elementReplay hs es]
    | keyed value =>
      simp only [elements, element, elementEvents, replayAppend]
      rw [(valueReplay hs value w).2.2.2.1, elementReplay hs es]

theorem assignReplay (hs : Helpers) (targets : List (Option String)) (es : List Expr) (w : Walk) :
    assignEach hs targets es w = w.replay hs (assignEvents hs targets es) := by
  cases es with
  | nil => rfl
  | cons e es =>
    simp only [assignEach, assignEvents, replayAppend, replayBind]
    rw [assignedKeyed, (valueReplay hs e w).2.2.2.1, assignReplay hs targets.tail es]

theorem detachedReplay (hs : Helpers) (es : List Expr) (w : Walk) :
    callsOnly hs es w = w.replay hs (detachedEvents hs es) := by
  cases es with
  | nil => rfl
  | cons e es =>
    simp only [callsOnly, detachedEvents, replayAppend]
    rw [(valueReplay hs e w).2.1, detachedReplay hs es]

theorem specReplay (hs : Helpers) (specs : List VarSpec) (w : Walk) :
    firstSpec hs specs w = w.replay hs (specEvents hs specs) := by
  cases specs with
  | nil => rfl
  | cons spec specs =>
    cases spec with
    | mk names type values =>
      simp only [firstSpec, specEvents, replayAppend, replayBind, replayResults]
      exact assignReplay hs (names.map some) values _

theorem stmtReplay (hs : Helpers) (s : Stmt) (w : Walk) :
    statement hs s w = w.replay hs (stmtEvents hs s) := by
  cases s with
  | assign left right =>
    simp only [statement, stmtEvents, replayAppend, replayResults]
    exact assignReplay hs (left.map target?) right _
  | vars specs => exact specReplay hs specs w
  | eval value => exact (valueReplay hs value w).1
  | detached value => exact (valueReplay hs value w).2.1
  | returns values => exact detachedReplay hs values w
  | send value => exact (valueReplay hs value w).1
  | loop body => exact blockReplay hs body w
  | branch consequence alternative => exact blockReplay hs consequence w
  | cases clauses => exact clauseReplay hs clauses w
  | other => rfl

theorem blockReplay (hs : Helpers) (body : List Stmt) (w : Walk) :
    block hs body w = w.replay hs (blockEvents hs body) := by
  cases body with
  | nil => rfl
  | cons s ss =>
    simp only [block, blockEvents, replayAppend]
    rw [stmtReplay hs s w, blockReplay hs ss]

theorem clauseReplay (hs : Helpers) (clauses : List (List Stmt)) (w : Walk) :
    blocks hs clauses w = w.replay hs (clauseEvents hs clauses) := by
  cases clauses with
  | nil => rfl
  | cons b bs =>
    simp only [blocks, clauseEvents, replayAppend]
    rw [blockReplay hs b w, clauseReplay hs bs]

end

def Scope.step (s : Scope) : Event → Scope
  | .bound name type => s.bind name type
  | _ => s

def Scope.after (s : Scope) (events : List Event) : Scope := events.foldl Scope.step s

def Event.name? (hs : Helpers) (s : Scope) : Event → Option String
  | .named name => if hs.contains name then none else some name
  | .method receiver name => (s.lookup receiver).map (· ++ "." ++ name)
  | .bound .. => none

theorem namedName (hs : Helpers) (s : Scope) (other name : String) :
    (Event.named other).name? hs s = some name ↔ hs.contains other = false ∧ other = name := by
  cases helper : hs.contains other <;> simp [Event.name?, helper]

def recorded (hs : Helpers) : Scope → List Event → List String
  | _, [] => []
  | s, e :: es => (e.name? hs s).toList ++ recorded hs (s.step e) es

theorem stepScope (hs : Helpers) (w : Walk) (e : Event) : (w.step hs e).scope = w.scope.step e := by
  cases e with
  | named name => simp only [Walk.step, Walk.callName]; split <;> rfl
  | method receiver name => simp only [Walk.step, Walk.callMethod]; split <;> rfl
  | bound name type => rfl

theorem stepCalled (hs : Helpers) (w : Walk) (e : Event) :
    (w.step hs e).called = (e.name? hs w.scope).toList ++ w.called := by
  cases e with
  | named name => simp only [Walk.step, Walk.callName, Event.name?]; split <;> rfl
  | method receiver name =>
    simp only [Walk.step, Walk.callMethod, Event.name?]
    cases w.scope.lookup receiver <;> rfl
  | bound name type => rfl

theorem replayScope (hs : Helpers) (w : Walk) (events : List Event) :
    (w.replay hs events).scope = w.scope.after events := by
  induction events generalizing w with
  | nil => rfl
  | cons e es ih =>
    change ((w.step hs e).replay hs es).scope = (w.scope.step e).after es
    rw [ih, stepScope]

theorem replayCalled (hs : Helpers) (w : Walk) (events : List Event) (name : String) :
    name ∈ (w.replay hs events).called ↔
      name ∈ w.called ∨ name ∈ recorded hs w.scope events := by
  induction events generalizing w with
  | nil => simp [recorded, Walk.replay]
  | cons e es ih =>
    change name ∈ ((w.step hs e).replay hs es).called ↔ _
    rw [ih, stepCalled, stepScope, recorded, List.mem_append, List.mem_append]
    tauto

theorem recordedAt (hs : Helpers) (s : Scope) (events : List Event) (name : String) :
    name ∈ recorded hs s events ↔ ∃ before e rest, events = before ++ e :: rest ∧
      e.name? hs (s.after before) = some name := by
  induction events generalizing s with
  | nil => simp [recorded]
  | cons e es ih =>
    rw [recorded, List.mem_append, Option.mem_toList, ih]
    constructor
    · intro found
      rcases found with now | ⟨before, later, rest, rfl, named⟩
      · exact ⟨[], e, es, rfl, now⟩
      · exact ⟨e :: before, later, rest, rfl, named⟩
    · intro ⟨before, event, rest, split, named⟩
      cases before with
      | nil =>
        obtain ⟨rfl, rfl⟩ := List.cons.inj split
        exact .inl named
      | cons first before =>
        obtain ⟨rfl, rfl⟩ := List.cons.inj split
        exact .inr ⟨before, event, rest, rfl, named⟩

theorem bindPackage (s : Scope) (name type : String) : (s.bind name type).package = s.package := by
  unfold Scope.bind
  split <;> rfl

theorem stepPackage (s : Scope) (e : Event) : (s.step e).package = s.package := by
  cases e with
  | bound name type => exact bindPackage s name type
  | _ => rfl

theorem afterPackage (s : Scope) (events : List Event) :
    (s.after events).package = s.package := by
  induction events generalizing s with
  | nil => rfl
  | cons e es ih => exact (ih (s.step e)).trans (stepPackage s e)

def Walked (hs : Helpers) (files : List Source.File) (body : List Stmt) : Prop :=
  ∃ file ∈ files, ∃ f ∈ Source.functions file,
    hs.contains f.name = false ∧ f.body.map Source.Body.statements = some body

def bodyNames (hs : Helpers) (package : Bindings) (body : List Stmt) : List String :=
  recorded hs (.ofPackage package) (blockEvents hs body)

theorem walkFunctionPackage (hs : Helpers) (w : Walk) (f : Function) :
    (walkFunction hs w f).scope.package = w.scope.package := by
  unfold walkFunction
  split
  · rfl
  · split
    · rfl
    · rw [blockReplay, replayScope, afterPackage]
      rfl

theorem walkFunctionCalled (hs : Helpers) (w : Walk) (f : Function) (name : String) :
    name ∈ (walkFunction hs w f).called ↔ name ∈ w.called ∨
      ∃ body, hs.contains f.name = false ∧ f.body.map Source.Body.statements = some body ∧
        name ∈ bodyNames hs w.scope.package body := by
  cases hasBody : f.body with
  | none => simp [walkFunction, hasBody]
  | some body =>
    cases helper : hs.contains f.name with
    | true => simp [walkFunction, hasBody, helper]
    | false => simp [walkFunction, hasBody, helper, blockReplay, replayCalled, bodyNames,
        Scope.resetLocals, Scope.ofPackage]

theorem walkFunctionsCalled (hs : Helpers) (w : Walk) (fs : List Function) (name : String) :
    name ∈ (fs.foldl (walkFunction hs) w).called ↔ name ∈ w.called ∨
      ∃ f ∈ fs, ∃ body, hs.contains f.name = false ∧
        f.body.map Source.Body.statements = some body ∧
        name ∈ bodyNames hs w.scope.package body := by
  induction fs generalizing w with
  | nil => simp
  | cons f fs ih =>
    rw [List.foldl_cons, ih, walkFunctionPackage, walkFunctionCalled, or_assoc]
    simp only [List.mem_cons, exists_eq_or_imp]

theorem walkFilesFunctions (hs : Helpers) (scope : Scope) (files : List Source.File) :
    walkFiles hs scope files =
      (files.flatMap Source.functions).foldl (walkFunction hs) (.start scope) := by
  rw [List.foldl_flatMap]
  rfl

theorem walkFilesCalled (hs : Helpers) (scope : Scope) (files : List Source.File) (name : String) :
    name ∈ (walkFiles hs scope files).called ↔
      name = "init" ∨ ∃ body, Walked hs files body ∧ name ∈ bodyNames hs scope.package body := by
  rw [walkFilesFunctions, walkFunctionsCalled]
  refine or_congr (by simp [Walk.start]) ⟨?_, ?_⟩
  · intro ⟨f, member, body, helper, own, records⟩
    obtain ⟨file, inFiles, inFile⟩ := List.mem_flatMap.mp member
    exact ⟨body, ⟨file, inFiles, f, inFile, helper, own⟩, records⟩
  · intro ⟨body, ⟨file, inFiles, f, inFile, helper, own⟩, records⟩
    exact ⟨f, List.mem_flatMap.mpr ⟨file, inFiles, inFile⟩, body, helper, own, records⟩

end Uncalled
