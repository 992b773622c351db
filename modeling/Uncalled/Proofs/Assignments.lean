import Uncalled.Proofs.Signatures
/-! What an assignment does to a scope. Values are looked through for calls, and those bind nothing
unless a function literal is among them. So all that an assignment binds it binds by its own two
rules, place by place: the results of a single helper call, or else the types of literals. -/
namespace Uncalled
open Source (Expr Element Stmt)

mutual

def holdsFunction : Expr → Bool
  | .ident _ => false
  | .selector e _ => holdsFunction e
  | .call f args => holdsFunction f || anyHolds args
  | .funcLit _ => true
  | .unary e => holdsFunction e
  | .composite _ es => elementsHold es
  | .other => false

def anyHolds : List Expr → Bool
  | [] => false
  | e :: es => holdsFunction e || anyHolds es

def elementsHold : List Element → Bool
  | [] => false
  | .plain e :: es => holdsFunction e || elementsHold es
  | .keyed e :: es => holdsFunction e || elementsHold es

end

theorem afterAppend (s : Scope) (first second : List Event) :
    s.after (first ++ second) = (s.after first).after second :=
  List.foldl_append

theorem afterBind (s : Scope) (name type : Option String) :
    s.after (bindEvents name type) = s.bindKnown name type := by
  cases name <;> cases type <;> rfl

theorem afterPairs (s : Scope) (pairs : List (Option String × Option String)) :
    s.after (pairs.flatMap fun b => bindEvents b.1 b.2) = bindPairs s pairs := by
  induction pairs generalizing s with
  | nil => rfl
  | cons pair pairs ih =>
    rw [List.flatMap_cons, afterAppend, afterBind, ih]
    rfl

mutual

theorem valueQuiet (hs : Helpers) (site : Site) {e : Expr} (plain : holdsFunction e = false)
    (s : Scope) : s.after (valueEvents hs site e) = s := by
  cases e with
  | call f args =>
    obtain ⟨callee, others⟩ := Bool.or_eq_false_iff.mp plain
    have looked : s.after (if site.arguments then argumentEvents hs args else []) = s := by
      split
      · exact argumentsQuiet hs others s
      · rfl
    rw [valueEvents, afterAppend, looked, calleeQuiet hs callee]
  | funcLit body => cases plain
  | composite type es =>
    rw [valueEvents]
    split
    · exact elementsQuiet hs plain s
    · rfl
  | unary operand =>
    cases operand with
    | composite type es =>
      rw [valueEvents]
      split
      · exact elementsQuiet hs plain s
      · rfl
    | _ => rfl
  | _ => rfl

theorem calleeQuiet (hs : Helpers) {f : Expr} (plain : holdsFunction f = false) (s : Scope) :
    s.after (calleeEvents hs f) = s := by
  cases f with
  | selector operand field => cases operand <;> rfl
  | funcLit body => cases plain
  | _ => rfl

theorem argumentsQuiet (hs : Helpers) {es : List Expr} (plain : anyHolds es = false) (s : Scope) :
    s.after (argumentEvents hs es) = s := by
  cases es with
  | nil => rfl
  | cons e es =>
    obtain ⟨first, rest⟩ := Bool.or_eq_false_iff.mp plain
    rw [argumentEvents, afterAppend, valueQuiet hs .argument first, argumentsQuiet hs rest]

theorem elementsQuiet (hs : Helpers) {es : List Element} (plain : elementsHold es = false)
    (s : Scope) : s.after (elementEvents hs es) = s := by
  cases es with
  | nil => rfl
  | cons e es =>
    cases e with
    | plain value =>
      obtain ⟨first, rest⟩ := Bool.or_eq_false_iff.mp plain
      rw [elementEvents, afterAppend, valueQuiet hs .plain first, elementsQuiet hs rest]
    | keyed value =>
      obtain ⟨first, rest⟩ := Bool.or_eq_false_iff.mp plain
      rw [elementEvents, afterAppend, valueQuiet hs .value first, elementsQuiet hs rest]

end

theorem valuesBind (hs : Helpers) {values : List Expr} (plain : anyHolds values = false)
    (targets : List (Option String)) (s : Scope) :
    s.after (assignEvents hs targets values) =
      bindPairs s (targets.zip (values.map literalName)) := by
  induction values generalizing targets s with
  | nil =>
    rw [List.map_nil, List.zip_nil_right]
    rfl
  | cons e values ih =>
    obtain ⟨first, rest⟩ := Bool.or_eq_false_iff.mp plain
    rw [assignEvents, afterAppend, afterAppend, valueQuiet hs .value first, afterBind, ih rest]
    cases targets with
    | nil => rfl
    | cons target targets => rfl

/- All there is on the right is one call of a helper, by its name or as a field. -/
inductive CallsHelper (hs : Helpers) : List Expr → List (Option String) → Prop
  | named {name : String} {args : List Expr} {signature : List (Option String)}
      (helper : hs.get? name = some signature) :
      CallsHelper hs [.call (.ident name) args] signature
  | selected {e : Expr} {field : String} {args : List Expr} {signature : List (Option String)}
      (helper : hs.get? field = some signature) :
      CallsHelper hs [.call (.selector e field) args] signature

theorem callsHelperIff {hs : Helpers} {value : Expr} {signature : List (Option String)} :
    CallsHelper hs [value] signature ↔ calledSignature hs value = some signature := by
  constructor
  · intro calls
    cases calls with
    | named helper => exact helper
    | selected helper => exact helper
  · intro called
    unfold calledSignature at called
    split at called
    · exact .named called
    · exact .selected called
    · cases called

theorem callBindsNothing {hs : Helpers} {right : List Expr} {signature : List (Option String)}
    (calls : CallsHelper hs right signature) (targets : List (Option String)) (s : Scope) :
    bindPairs s (targets.zip (right.map literalName)) = s := by
  have unnamed : right.map literalName = [none] := by cases calls <;> rfl
  rw [unnamed]
  cases targets with
  | nil => rfl
  | cons target targets =>
    rw [List.zip_cons_cons, List.zip_nil_right]
    cases target <;> rfl

/- The scope after variables took values of the given types. Of several places of one variable the
last counts that has a type; a place that is no variable is passed over. -/
structure Rebound (before after : Scope) (left : List Expr) (types : List (Option String)) :
    Prop where
  last : ∀ (i : Nat) (x t : String), left[i]? = some (.ident x) → types[i]? = some (some t) →
    x ≠ "_" →
    (∀ (j : Nat) (u : String), i < j → left[j]? = some (.ident x) → types[j]? ≠ some (some u)) →
    after.lookup x = some t
  others : ∀ x : String,
    (∀ (i : Nat) (t : String), left[i]? = some (.ident x) → types[i]? = some (some t) → x = "_") →
    after.lookup x = before.lookup x

theorem pairsRebound (s : Scope) (left : List Expr) (types : List (Option String)) :
    Rebound s (bindPairs s ((left.map target?).zip types)) left types where
  last := by
    intro i x t place type named later
    refine pairsLast ((targetIff ..).mpr place) type named (fun j u after again => ?_) s
    exact later j u after ((targetIff ..).mp again)
  others := by
    intro x unmoved
    exact pairsUnmoved (fun i t place type => unmoved i t ((targetIff ..).mp place) type) s

/- After an assignment whose values hold no function, the variables on the left have the types of a
helper's results where its call is all there is on the right, and otherwise those of the literals in
their places. -/
theorem assignmentRebinds {hs : Helpers} {right : List Expr} (plain : anyHolds right = false)
    (left : List Expr) (w : Walk) :
    (∀ signature, CallsHelper hs right signature →
      Rebound w.scope (statement hs (.assign left right) w).scope left signature) ∧
    ((∀ signature, ¬ CallsHelper hs right signature) →
      Rebound w.scope (statement hs (.assign left right) w).scope left
        (right.map literalName)) := by
  have scope : (statement hs (.assign left right) w).scope =
      bindPairs (w.scope.after (resultEvents hs (left.map target?) right))
        ((left.map target?).zip (right.map literalName)) := by
    rw [stmtReplay, replayScope, stmtEvents, afterAppend, valuesBind hs plain]
  constructor
  · intro signature calls
    have results : resultEvents hs (left.map target?) right =
        ((left.map target?).zip signature).flatMap fun b => bindEvents b.1 b.2 := by
      cases calls with
      | named helper => simp only [resultEvents, calledSignature, helper]
      | selected helper => simp only [resultEvents, calledSignature, helper]
    rw [scope, callBindsNothing calls, results, afterPairs]
    exact pairsRebound ..
  · intro unhelped
    have results : resultEvents hs (left.map target?) right = [] := by
      cases right with
      | nil => rfl
      | cons value others =>
        cases others with
        | nil =>
          have unknown : calledSignature hs value = none :=
            Option.eq_none_iff_forall_ne_some.mpr fun signature called =>
              unhelped signature (callsHelperIff.mpr called)
          simp only [resultEvents, unknown]
        | cons second others => rfl
    rw [scope, results]
    exact pairsRebound ..

def milkBuilders : Helpers :=
  .ofList Helper.name [⟨"build", [some "Jug", none, some "Milk", some "Cow"]⟩]

def builtMilk : List Expr := [.call (.selector (.ident "d") "build") []]
def mixedMilk : List Expr :=
  [.composite (some (.name "Jug")) [], .unary (.composite (some (.name "Cow")) []),
    .call (.ident "build") []]

def teaScope : Scope := .ofPackage [("m", "Tea"), ("b", "Tea")]

/- A variable that is on the left twice takes the last result that has a type. Among other values
the call gives nothing. -/
theorem repeatedTargetTakesLast :
    anyHolds builtMilk = false ∧ anyHolds mixedMilk = false ∧
    CallsHelper milkBuilders builtMilk [some "Jug", none, some "Milk", some "Cow"] ∧
    (∀ signature, ¬ CallsHelper milkBuilders mixedMilk signature) ∧
    (statement milkBuilders (.assign [.ident "m", .other, .ident "m"] builtMilk)
      (.start teaScope)).scope.lookup "m" = some "Milk" ∧
    (statement milkBuilders (.assign [.ident "m", .ident "m", .ident "b"] mixedMilk)
      (.start teaScope)).scope.lookup "m" = some "Cow" ∧
    (statement milkBuilders (.assign [.ident "m", .ident "m", .ident "b"] mixedMilk)
      (.start teaScope)).scope.lookup "b" = some "Tea" := by
  have calls : CallsHelper milkBuilders builtMilk [some "Jug", none, some "Milk", some "Cow"] :=
    .selected (by decide)
  have unhelped : ∀ signature, ¬ CallsHelper milkBuilders mixedMilk signature := nofun
  have built : anyHolds builtMilk = false := by decide
  have mixed : anyHolds mixedMilk = false := by decide
  have results := (assignmentRebinds built [.ident "m", .other, .ident "m"]
    (.start teaScope)).1 _ calls
  have literals := (assignmentRebinds mixed [.ident "m", .ident "m", .ident "b"]
    (.start teaScope)).2 unhelped
  refine ⟨built, mixed, calls, unhelped, ?_, ?_, ?_⟩
  · refine results.last 2 "m" "Milk" rfl rfl (by decide) fun j u later again => ?_
    match j, later with
    | j + 3, _ => cases again
  · refine literals.last 1 "m" "Cow" rfl rfl (by decide) fun j u later again => ?_
    match j, later with
    | 2, _ => simp at again
    | j + 3, _ => cases again
  · refine literals.others "b" fun i t place type => ?_
    match i with
    | 0 => simp at place
    | 1 => simp at place
    | 2 => cases type
    | i + 3 => cases place

end Uncalled
