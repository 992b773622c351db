import Uncalled.Proofs.Binding
import Uncalled.Proofs.Catalogue
import Uncalled.Source.Grammar.Files
/-! Whether the signature of a helper has a place for each value it gives back. It has one for each
entry of the result list, so the places are those of the values exactly where no entry stands for
several of them. Then the variables that take the results of a call get the types of their own
places. -/
namespace Uncalled
open Source (TypeExpr Parameter Function Result Expr)

namespace Source

/- The types of the values an entry stands for: one for each name, or one without a name. A spread
type is a slice. -/
def Parameter.values : Parameter → List TypeExpr
  | .plain names type => List.replicate (max 1 names.length) type
  | .variadic _ => [.compound]

def Result.values : Result → List TypeExpr
  | .single type => [type]
  | .list parameters => parameters.flatMap Parameter.values

def Parameter.isSeparate : Parameter → Bool
  | .plain names _ => names.length ≤ 1
  | .variadic _ => false

def Result.Separate : Result → Prop
  | .single _ => True
  | .list parameters => ∀ p ∈ parameters, p.isSeparate = true

instance (result : Result) : Decidable result.Separate := by
  cases result <;> unfold Result.Separate <;> infer_instance

end Source

namespace Helper

def entryTypes : Parameter → List TypeExpr
  | .plain _ type => [type]
  | .variadic _ => []

theorem resultTypesList (parameters : List Parameter) :
    resultTypes (.list parameters) = parameters.flatMap entryTypes := by
  unfold resultTypes
  induction parameters with
  | nil => rfl
  | cons p parameters ih => cases p <;> simp [entryTypes, ih]

theorem entryPlaces (p : Parameter) : (entryTypes p).length ≤ p.values.length ∧
    ((entryTypes p).length = p.values.length ↔ p.isSeparate = true) := by
  cases p with
  | plain names type =>
    simp only [entryTypes, Parameter.values, Parameter.isSeparate, List.length_replicate,
      List.length_singleton, decide_eq_true_eq]
    omega
  | variadic type => simp [entryTypes, Parameter.values, Parameter.isSeparate]

theorem entrySeparate {p : Parameter} (separate : p.isSeparate = true) :
    entryTypes p = p.values := by
  cases p with
  | plain names type =>
    have single : max 1 names.length = 1 := by simpa [Parameter.isSeparate] using separate
    rw [Parameter.values, single]
    rfl
  | variadic type => cases separate

theorem placesOfValues (result : Result) : (resultTypes result).length ≤ result.values.length ∧
    ((resultTypes result).length = result.values.length ↔ result.Separate) := by
  cases result with
  | single type => simp [resultTypes, Result.values, Result.Separate]
  | list parameters =>
    rw [resultTypesList, Result.values, Result.Separate]
    induction parameters with
    | nil => simp
    | cons p parameters ih =>
      obtain ⟨below, all⟩ := ih
      obtain ⟨entryBelow, entryAll⟩ := entryPlaces p
      rw [List.flatMap_cons, List.flatMap_cons, List.length_append, List.length_append,
        List.forall_mem_cons, ← all, ← entryAll]
      omega

theorem separateValues {result : Result} (separate : result.Separate) :
    resultTypes result = result.values := by
  cases result with
  | single type => rfl
  | list parameters =>
    rw [resultTypesList]
    exact List.flatMap_congr fun p inside => entrySeparate (separate p inside)

theorem ofFunctionIff (testPrefix : String) (f : Function) (h : Helper) :
    ofFunction? testPrefix f = some h ↔
      testPrefix.toList.isPrefixOf f.name.toList = false ∧ ∃ result, f.result = some result ∧
        resultTypes result ≠ [] ∧ h = ⟨f.name, (resultTypes result).map typeName⟩ := by
  unfold ofFunction? signature?
  cases testPrefix.toList.isPrefixOf f.name.toList with
  | true => simp
  | false =>
    cases f.result with
    | none => simp
    | some result =>
      cases types : resultTypes result with
      | nil => simp [types]
      | cons type rest =>
        simp only [Option.map_some, types, Bool.false_eq_true, if_false, true_and,
          Option.some.injEq, exists_eq_left', ne_eq, reduceCtorEq, not_false_iff]
        exact eq_comm

theorem ofFunctionName {testPrefix : String} {f : Function} {h : Helper}
    (helper : ofFunction? testPrefix f = some h) : h.name = f.name := by
  obtain ⟨_, _, _, _, rfl⟩ := (ofFunctionIff ..).mp helper
  rfl

theorem collectLast {testPrefix : String} {files : List Source.File} {f : Function}
    {before after : List Function} {h : Helper}
    (split : files.flatMap Source.functions = before ++ f :: after)
    (helper : ofFunction? testPrefix f = some h)
    (last : ∀ g ∈ after, g.name = f.name → ofFunction? testPrefix g = none) :
    (collect testPrefix files).get? f.name = some h.signature := by
  have later : (after.filterMap (ofFunction? testPrefix)).reverse.find?
      (fun other => other.name = f.name) = none := by
    rw [List.find?_eq_none]
    intro other inside same
    obtain ⟨g, among, own⟩ := List.mem_filterMap.mp (List.mem_reverse.mp inside)
    rw [decide_eq_true_eq, ofFunctionName own] at same
    rw [last g among same] at own
    cases own
  rw [Helpers.get?, collect, Catalogue.getOfList, split, List.filterMap_append,
    List.filterMap_cons_some helper, List.reverse_append, List.reverse_cons, List.append_assoc,
    List.find?_append, later]
  simp [ofFunctionName helper]

end Helper

/- The scope after variables took values of the given types: each has the type of its own place, if
that has a name. -/
structure Taken (before after : Scope) (left : List Expr) (types : List (Option String)) :
    Prop where
  own : ∀ (i : Nat) (x : String), left[i]? = some (.ident x) → x ≠ "_" →
    (∀ j : Nat, left[j]? = some (.ident x) → j = i) →
    after.lookup x = (types[i]?.join).or (before.lookup x)
  others : ∀ x, .ident x ∉ left → after.lookup x = before.lookup x

def bindPairs (s : Scope) (pairs : List (Option String × Option String)) : Scope :=
  pairs.foldl (fun s b => s.bindKnown b.1 b.2) s

theorem pairsBound (w : Walk) (pairs : List (Option String × Option String)) :
    pairs.foldl (fun w b => w.bindKnown b.1 b.2) w = ⟨bindPairs w.scope pairs, w.called⟩ := by
  induction pairs generalizing w with
  | nil => rfl
  | cons pair pairs ih => exact ih (w.bindKnown pair.1 pair.2)

def given (x : String) (b : Option String × Option String) : Option String :=
  if b.1 = some x ∧ x ≠ "_" then b.2 else none

theorem givenIff {x t : String} {b : Option String × Option String} :
    given x b = some t ↔ b = (some x, some t) ∧ x ≠ "_" := by
  unfold given
  split
  · rename_i own
    rw [and_iff_left own.2, Prod.ext_iff, and_iff_right own.1]
  · rename_i other
    simp only [reduceCtorEq, false_iff]
    rintro ⟨rfl, named⟩
    exact other ⟨rfl, named⟩

theorem pairsLookup (x : String) (pairs : List (Option String × Option String)) (s : Scope) :
    (bindPairs s pairs).lookup x = (pairs.reverse.findSome? (given x)).or (s.lookup x) := by
  induction pairs generalizing s with
  | nil => rfl
  | cons b pairs ih =>
    have first : (s.bindKnown b.1 b.2).lookup x = (given x b).or (s.lookup x) := by
      rw [bindKnownLookup, given]
      split <;> rfl
    change (bindPairs (s.bindKnown b.1 b.2) pairs).lookup x = _
    rw [ih, first, List.reverse_cons, List.findSome?_append, Option.or_assoc]
    cases own : given x b <;> simp [own]

section
variable {targets types : List (Option String)} {x : String}

theorem pairsLast {i : Nat} {t : String} (place : targets[i]? = some (some x))
    (type : types[i]? = some (some t)) (named : x ≠ "_")
    (last : ∀ (j : Nat) (u : String), i < j → targets[j]? = some (some x) →
      types[j]? ≠ some (some u)) (s : Scope) :
    (bindPairs s (targets.zip types)).lookup x = some t := by
  have pair : (targets.zip types)[i]? = some (some x, some t) :=
    List.getElem?_zip_eq_some.mpr ⟨place, type⟩
  obtain ⟨short, own⟩ := List.getElem?_eq_some_iff.mp pair
  have split : targets.zip types =
      (targets.zip types).take i ++ (some x, some t) :: (targets.zip types).drop (i + 1) := by
    rw [← own, List.getElem_cons_drop, List.take_append_drop]
  have found : (targets.zip types).reverse.findSome? (given x) = some t := by
    rw [List.findSome?_eq_some_iff]
    refine ⟨((targets.zip types).drop (i + 1)).reverse, (some x, some t),
      ((targets.zip types).take i).reverse, ?_, givenIff.mpr ⟨rfl, named⟩, ?_⟩
    · exact (congrArg List.reverse split).trans (by simp)
    · intro b inside
      obtain ⟨k, later⟩ := List.mem_iff_getElem?.mp (List.mem_reverse.mp inside)
      rw [List.getElem?_drop] at later
      cases told : given x b with
      | none => rfl
      | some u =>
        obtain ⟨rfl, _⟩ := givenIff.mp told
        obtain ⟨again, other⟩ := List.getElem?_zip_eq_some.mp later
        exact absurd other (last _ u (by omega) again)
  rw [pairsLookup, found]
  rfl

theorem pairsUnmoved (unmoved : ∀ (i : Nat) (t : String), targets[i]? = some (some x) →
    types[i]? = some (some t) → x = "_") (s : Scope) :
    (bindPairs s (targets.zip types)).lookup x = s.lookup x := by
  have untold : (targets.zip types).reverse.findSome? (given x) = none := by
    rw [List.findSome?_eq_none_iff]
    intro b inside
    obtain ⟨i, pair⟩ := List.mem_iff_getElem?.mp (List.mem_reverse.mp inside)
    cases told : given x b with
    | none => rfl
    | some t =>
      obtain ⟨rfl, named⟩ := givenIff.mp told
      obtain ⟨place, type⟩ := List.getElem?_zip_eq_some.mp pair
      exact absurd (unmoved i t place type) named
  rw [pairsLookup, untold]
  rfl

theorem pairsOthers (other : some x ∉ targets) (s : Scope) :
    (bindPairs s (targets.zip types)).lookup x = s.lookup x :=
  pairsUnmoved (fun _ _ place _ => absurd (List.mem_of_getElem? place) other) s

theorem pairsOwn {i : Nat} (place : targets[i]? = some (some x)) (named : x ≠ "_")
    (single : ∀ j : Nat, targets[j]? = some (some x) → j = i) (s : Scope) :
    (bindPairs s (targets.zip types)).lookup x = (types[i]?.join).or (s.lookup x) := by
  cases type : types[i]?.join with
  | some t =>
    refine pairsLast place (Option.join_eq_some_iff.mp type) named (fun j u later again => ?_) s
    exact absurd (single j again) (Nat.ne_of_gt later)
  | none =>
    refine pairsUnmoved (fun j t again other => ?_) s
    rw [single j again] at other
    rw [other] at type
    cases type

end

theorem targetIff (left : List Expr) (i : Nat) (x : String) :
    (left.map target?)[i]? = some (some x) ↔ left[i]? = some (.ident x) := by
  refine ⟨targetAt, fun found => ?_⟩
  rw [List.getElem?_map, found]
  rfl

theorem resultsTaken {hs : Helpers} {callee : Expr} {args : List Expr}
    {signature : List (Option String)}
    (called : calledSignature hs (.call callee args) = some signature) (left : List Expr)
    (w : Walk) : ∃ s, Taken w.scope s left signature ∧
      statement hs (.assign left [.call callee args]) w =
        call hs (.call callee args) ⟨s, w.called⟩ := by
  refine ⟨bindPairs w.scope ((left.map target?).zip signature), ⟨?_, ?_⟩, ?_⟩
  · intro i x place named single
    refine pairsOwn ((targetIff ..).mpr place) named (fun j found => ?_) w.scope
    exact single j ((targetIff ..).mp found)
  · intro x absent
    refine pairsOthers (fun inside => absent ?_) w.scope
    obtain ⟨i, found⟩ := List.mem_iff_getElem?.mp inside
    exact List.mem_iff_getElem?.mpr ⟨i, (targetIff ..).mp found⟩
  · simp only [statement, bindResults, called, pairsBound, assignEach, assigned, call]

/- The signature of a helper has at most one place for each value, and one for each in their order
where every value has an entry of its own. It is the signature under its name unless a later helper
has that name too, and then a call gives each variable on the left the type in its place. -/
theorem resultsLineUp {testPrefix : String} {f : Function} {h : Helper}
    (helper : Helper.ofFunction? testPrefix f = some h) :
    ∃ result, f.result = some result ∧
      h.signature.length ≤ result.values.length ∧
      (h.signature.length = result.values.length ↔ result.Separate) ∧
      (result.Separate → h.signature = result.values.map Helper.typeName) ∧
      ∀ files before after, files.flatMap Source.functions = before ++ f :: after →
        (∀ g ∈ after, g.name = f.name → Helper.ofFunction? testPrefix g = none) →
        (Helper.collect testPrefix files).get? f.name = some h.signature ∧
        ∀ left callee args w, (callee = .ident f.name ∨ ∃ e, callee = .selector e f.name) →
          ∃ s, Taken w.scope s left h.signature ∧
            statement (Helper.collect testPrefix files) (.assign left [.call callee args]) w =
              call (Helper.collect testPrefix files) (.call callee args) ⟨s, w.called⟩ := by
  obtain ⟨_, result, gives, _, rfl⟩ := (Helper.ofFunctionIff ..).mp helper
  obtain ⟨below, exact⟩ := Helper.placesOfValues result
  refine ⟨result, gives, by simpa using below, by simpa using exact, ?_, ?_⟩
  · intro separate
    rw [Helper.separateValues separate]
  · intro files before after split last
    have collected := Helper.collectLast split helper last
    refine ⟨collected, fun left callee args w names => resultsTaken ?_ left w⟩
    rcases names with rfl | ⟨e, rfl⟩ <;> exact collected

/- The first value has a type without a name, and the second is named in the list. -/
def milkBuilder : Function :=
  ⟨.origin, "build", none, some (.list [.plain [] .compound,
    .plain ["m"] (.pointer false (.qualified "dairy" "Milk"))]), none⟩

theorem separateResultsLineUp : ∃ result s,
    Helper.ofFunction? "Test" milkBuilder = some ⟨"build", [none, some "dairy.Milk"]⟩ ∧
    milkBuilder.result = some result ∧ result.Separate ∧ result.values.length = 2 ∧
    (Helper.collect "Test" [[.function milkBuilder]]).get? "build" =
      some [none, some "dairy.Milk"] ∧
    statement (Helper.collect "Test" [[.function milkBuilder]])
        (.assign [.ident "b", .ident "m"] [.call (.ident "build") []])
        (.start (.ofPackage [("b", "Jug"), ("m", "Jug")])) =
      call (Helper.collect "Test" [[.function milkBuilder]]) (.call (.ident "build") [])
        ⟨s, ["init"]⟩ ∧
    s.lookup "b" = some "Jug" ∧ s.lookup "m" = some "dairy.Milk" := by
  have split : [[.function milkBuilder]].flatMap Source.functions = [] ++ milkBuilder :: [] := rfl
  have helper : Helper.ofFunction? "Test" milkBuilder =
      some ⟨"build", [none, some "dairy.Milk"]⟩ := by decide
  obtain ⟨result, gives, _, separate, _, lined⟩ := resultsLineUp helper
  obtain ⟨collected, takes⟩ := lined _ _ _ split (by simp)
  obtain ⟨s, taken, runs⟩ := takes [.ident "b", .ident "m"] (.ident "build") []
    (.start (.ofPackage [("b", "Jug"), ("m", "Jug")])) (.inl rfl)
  have first := taken.own 0 "b" rfl (by decide) fun j found => by
    match j, found with
    | 0, _ => rfl
    | 1, found => simp at found
  have second := taken.own 1 "m" rfl (by decide) fun j found => by
    match j, found with
    | 0, found => simp at found
    | 1, _ => rfl
  have values : result.values.length = 2 := by
    cases gives
    rfl
  exact ⟨result, s, helper, gives, separate.mp values.symm, values, collected, runs, first, second⟩

def herdText : String :=
  "func build() (a, b *Cow, c *Goat) \x7b\x7d\n" ++
  "func TestHerd() \x7b x, y, z := build()\ny.Moo() \x7d"

/- Two names share an entry of the results, so the second variable gets the type of the third
value. -/
theorem groupedResultsShift : ∃ file f result, Source.parse? (Text.encode herdText) = some file ∧
    f ∈ Source.functions file ∧ f.result = some result ∧
    result.values.map Helper.typeName = [some "Cow", some "Cow", some "Goat"] ∧
    (Helper.collect "Test" [file]).get? f.name = some [some "Cow", some "Goat"] ∧
    (walkFiles (Helper.collect "Test" [file]) (.ofPackage []) [file]).called =
      ["Goat.Moo", "init"] := by
  have declared : (Source.parse? (Text.encode herdText)).map (fun file =>
      (Source.functions file).map fun f =>
        (f.name, f.result.map fun result => result.values.map Helper.typeName)) =
      some [("build", some [some "Cow", some "Cow", some "Goat"]), ("TestHerd", none)] := by
    decide +kernel
  have walked : (Source.parse? (Text.encode herdText)).map (fun file =>
      ((Helper.collect "Test" [file]).get? "build",
        (walkFiles (Helper.collect "Test" [file]) (.ofPackage []) [file]).called)) =
      some (some [some "Cow", some "Goat"], ["Goat.Moo", "init"]) := by decide +kernel
  obtain ⟨file, parsed, functions⟩ := Option.map_eq_some_iff.mp declared
  rw [parsed, Option.map_some, Option.some.injEq, Prod.mk.injEq] at walked
  obtain ⟨collected, called⟩ := walked
  obtain ⟨f, rest, listed, build, _⟩ := List.map_eq_cons_iff.mp functions
  obtain ⟨name, given⟩ := Prod.mk.inj build
  obtain ⟨result, gives, values⟩ := Option.map_eq_some_iff.mp given
  exact ⟨file, f, result, parsed, by simp [listed], gives, values, name ▸ collected, called⟩

end Uncalled
