import Uncalled.Proofs.Visited
/-! Where the type of a variable comes from. A statement binds variables in a few ways, listed by
`Binds`; a type that is found in a scope was put there by one of them, or by a declaration at the
top level of a file. -/
namespace Uncalled
open Source (Expr VarSpec Stmt)

/- A statement that gives a variable a type that can be named: by declaring it, by a literal in its
place on the right, or by a helper's result in its place where that call is all there is on the
right. -/
inductive Binds (hs : Helpers) : Stmt → String → String → Prop
  | declared {names type values specs x t} : names.head? = some x → bindingName type = some t →
      Binds hs (.vars (.mk names (some type) values :: specs)) x t
  | initialised {names type values specs x t} {value : Expr} {i : Nat} : names[i]? = some x →
      values[i]? = some value → literalName value = some t →
      Binds hs (.vars (.mk names type values :: specs)) x t
  | initialResult {names type value specs signature x t} {i : Nat} :
      calledSignature hs value = some signature → names[i]? = some x →
      signature[i]? = some (some t) → Binds hs (.vars (.mk names type [value] :: specs)) x t
  | literal {left right x t} {value : Expr} {i : Nat} : left[i]? = some (.ident x) →
      right[i]? = some value → literalName value = some t → Binds hs (.assign left right) x t
  | result {left value signature x t} {i : Nat} : calledSignature hs value = some signature →
      left[i]? = some (.ident x) → signature[i]? = some (some t) →
      Binds hs (.assign left [value]) x t

theorem bindEventsMember (name type : Option String) (event : Event) :
    event ∈ bindEvents name type ↔
      ∃ x t, name = some x ∧ type = some t ∧ event = .bound x t := by
  cases name <;> cases type <;> simp [bindEvents]

theorem pairEventsMember (targets types : List (Option String)) (event : Event) :
    event ∈ (targets.zip types).flatMap (fun b => bindEvents b.1 b.2) ↔
      ∃ (i : Nat) (x t : String), targets[i]? = some (some x) ∧ types[i]? = some (some t) ∧
        event = .bound x t := by
  constructor
  · intro member
    obtain ⟨pair, inside, binds⟩ := List.mem_flatMap.mp member
    obtain ⟨x, t, target, type, rfl⟩ := (bindEventsMember ..).mp binds
    obtain ⟨i, atPair⟩ := List.mem_iff_getElem?.mp inside
    obtain ⟨atTarget, atType⟩ := List.getElem?_zip_eq_some.mp atPair
    exact ⟨i, x, t, target ▸ atTarget, type ▸ atType, rfl⟩
  · intro ⟨i, x, t, atTarget, atType, same⟩
    subst same
    refine List.mem_flatMap.mpr ⟨(some x, some t), ?_, List.mem_singleton.mpr rfl⟩
    exact List.mem_iff_getElem?.mpr ⟨i, List.getElem?_zip_eq_some.mpr ⟨atTarget, atType⟩⟩

theorem resultEventsMember {hs : Helpers} {targets : List (Option String)} {right : List Expr}
    {event : Event} (member : event ∈ resultEvents hs targets right) :
    ∃ value signature, right = [value] ∧ calledSignature hs value = some signature ∧
      ∃ (i : Nat) (x t : String), targets[i]? = some (some x) ∧ signature[i]? = some (some t) ∧
        event = .bound x t := by
  match right with
  | [] => cases member
  | [value] =>
    cases found : calledSignature hs value with
    | none => simp [resultEvents, found] at member
    | some signature =>
      simp only [resultEvents, found] at member
      exact ⟨value, signature, rfl, found, (pairEventsMember ..).mp member⟩
  | _ :: _ :: _ => cases member

theorem literalEventsMember {targets : List (Option String)} {values : List Expr} {event : Event}
    (member : event ∈ literalEvents targets values) :
    ∃ (i : Nat) (x t : String) (value : Expr), targets[i]? = some (some x) ∧
      values[i]? = some value ∧ literalName value = some t ∧ event = .bound x t := by
  obtain ⟨i, x, t, atTarget, atType, same⟩ := (pairEventsMember ..).mp member
  rw [List.getElem?_map] at atType
  obtain ⟨value, atValue, named⟩ := Option.map_eq_some_iff.mp atType
  exact ⟨i, x, t, value, atTarget, atValue, named, same⟩

theorem targetAt {left : List Expr} {i : Nat} {x : String}
    (found : (left.map target?)[i]? = some (some x)) : left[i]? = some (.ident x) := by
  rw [List.getElem?_map] at found
  obtain ⟨e, atLeft, named⟩ := Option.map_eq_some_iff.mp found
  cases e with
  | ident name =>
    cases named
    exact atLeft
  | _ => cases named

theorem nameAt {names : List String} {i : Nat} {x : String}
    (found : (names.map some)[i]? = some (some x)) : names[i]? = some x := by
  rw [List.getElem?_map] at found
  obtain ⟨name, atNames, same⟩ := Option.map_eq_some_iff.mp found
  cases same
  exact atNames

theorem specBinds {hs : Helpers} {names : List String} {type : Option Source.TypeExpr}
    {values : List Expr} {specs : List VarSpec} {x t : String} (first : names.head? = some x)
    (known : specName (.mk names type values) = some t) :
    Binds hs (.vars (.mk names type values :: specs)) x t := by
  rcases Option.or_eq_some_iff.mp known with declared | ⟨_, initial⟩
  · obtain ⟨written, rfl, named⟩ := Option.bind_eq_some_iff.mp declared
    exact .declared first named
  · obtain ⟨value, atFirst, named⟩ := Option.bind_eq_some_iff.mp initial
    rw [List.head?_eq_getElem?] at first atFirst
    exact .initialised first atFirst named

theorem stmtEmits {hs : Helpers} {s : Stmt} {event : Event}
    (member : event ∈ (Visit.stmt s).emits hs) : ∃ x t, event = .bound x t ∧ Binds hs s x t := by
  cases s with
  | assign left right =>
    rcases List.mem_append.mp member with result | literal
    · obtain ⟨value, signature, rfl, called, i, x, t, target, type, rfl⟩ :=
        resultEventsMember result
      exact ⟨x, t, rfl, .result called (targetAt target) type⟩
    · obtain ⟨i, x, t, value, target, atRight, named, rfl⟩ := literalEventsMember literal
      exact ⟨x, t, rfl, .literal (targetAt target) atRight named⟩
  | vars specs =>
    match specs with
    | [] => cases member
    | .mk names type values :: rest =>
      simp only [Visit.emits, List.mem_append] at member
      rcases member with (known | result) | literal
      · obtain ⟨x, t, first, named, rfl⟩ := (bindEventsMember ..).mp known
        exact ⟨x, t, rfl, specBinds first named⟩
      · obtain ⟨value, signature, rfl, called, i, x, t, target, type, rfl⟩ :=
          resultEventsMember result
        exact ⟨x, t, rfl, .initialResult called (nameAt target) type⟩
      · obtain ⟨i, x, t, value, target, atRight, named, rfl⟩ := literalEventsMember literal
        exact ⟨x, t, rfl, .initialised (nameAt target) atRight named⟩
  | _ => cases member

theorem callEmits {hs : Helpers} {depth : Depth} {f : Expr} {args : List Expr} {event : Event}
    (member : event ∈ (Visit.call depth f args).emits hs) :
    (∃ name, f = .ident name ∧ event = .named name) ∨
      ∃ receiver name, f = .selector (.ident receiver) name ∧ event = .method receiver name := by
  cases f with
  | ident name => exact .inl ⟨name, rfl, List.mem_singleton.mp member⟩
  | selector operand field =>
    cases operand with
    | ident receiver => exact .inr ⟨receiver, field, rfl, List.mem_singleton.mp member⟩
    | _ => cases member
  | _ => cases member

theorem eventOrigin {hs : Helpers} {body : List Stmt} {event : Event}
    (member : event ∈ blockEvents hs body) :
    (∃ name depth args, event = .named name ∧ Visited body (.call depth (.ident name) args)) ∨
    (∃ receiver method depth args, event = .method receiver method ∧
      Visited body (.call depth (.selector (.ident receiver) method) args)) ∨
    ∃ x t s, event = .bound x t ∧ Visited body (.stmt s) ∧ Binds hs s x t := by
  obtain ⟨visit, visited, emitted⟩ := (blockEventsTraced ..).mp member
  cases visit with
  | stmt s =>
    obtain ⟨x, t, same, binds⟩ := stmtEmits emitted
    exact .inr (.inr ⟨x, t, s, same, visited, binds⟩)
  | call depth f args =>
    rcases callEmits emitted with ⟨name, rfl, same⟩ | ⟨receiver, method, rfl, same⟩
    · exact .inl ⟨name, depth, args, same, visited⟩
    · exact .inr (.inl ⟨receiver, method, depth, args, same, visited⟩)
  | literal es => cases emitted

theorem lookupBind {s : Scope} {name type x t : String}
    (found : (s.bind name type).lookup x = some t) :
    (x = name ∧ t = type ∧ x ≠ "_") ∨ s.lookup x = some t := by
  unfold Scope.bind at found
  split at found
  · exact .inr found
  · rename_i notBlank
    simp only [Scope.lookup, List.lookup_cons] at found
    by_cases same : x = name
    · subst x
      simp only [BEq.rfl, Option.some_or, Option.some.injEq] at found
      exact .inl ⟨rfl, found.symm, notBlank⟩
    · simp only [beq_eq_false_iff_ne.mpr same] at found
      exact .inr found

theorem lookupBindKnown {s : Scope} {name type : Option String} {x t : String}
    (found : (s.bindKnown name type).lookup x = some t) :
    (name = some x ∧ type = some t ∧ x ≠ "_") ∨ s.lookup x = some t := by
  match name, type with
  | some name, some type =>
    rcases lookupBind found with ⟨rfl, rfl, notBlank⟩ | before
    · exact .inl ⟨rfl, rfl, notBlank⟩
    · exact .inr before
  | none, _ => exact .inr found
  | some _, none => exact .inr found

theorem bindKnownLookup (s : Scope) (name type : Option String) (x : String) :
    (s.bindKnown name type).lookup x =
      if name = some x ∧ x ≠ "_" then type.or (s.lookup x) else s.lookup x := by
  match name, type with
  | none, _ => simp [Scope.bindKnown]
  | some name, none => simp [Scope.bindKnown]
  | some name, some type =>
    by_cases blank : name = "_"
    · subst blank
      have unbound : ¬ (some "_" = some x ∧ x ≠ "_") := by
        rintro ⟨same, other⟩
        exact other (Option.some.inj same).symm
      rw [if_neg unbound]
      rfl
    · simp only [Scope.bindKnown, Scope.bind, if_neg blank, Scope.lookup, List.lookup_cons]
      by_cases own : x = name
      · subst own
        simp [blank]
      · simp [beq_eq_false_iff_ne.mpr own, Ne.symm own]

theorem lookupAfter {s : Scope} {events : List Event} {x t : String}
    (found : (s.after events).lookup x = some t) :
    (.bound x t ∈ events ∧ x ≠ "_") ∨ s.lookup x = some t := by
  induction events generalizing s with
  | nil => exact .inr found
  | cons e es ih =>
    rcases ih found with ⟨later, notBlank⟩ | before
    · exact .inl ⟨List.mem_cons_of_mem _ later, notBlank⟩
    · cases e with
      | bound name type =>
        rcases lookupBind before with ⟨rfl, rfl, notBlank⟩ | earlier
        · exact .inl ⟨List.mem_cons_self, notBlank⟩
        · exact .inr earlier
      | _ => exact .inr before

def SpecBinds (spec : VarSpec) (x t : String) : Prop :=
  spec.names.head? = some x ∧ specName spec = some t

theorem lookupSpecs {s : Scope} {specs : List VarSpec} {x t : String}
    (found : (specs.foldl Scope.bindSpec s).lookup x = some t) :
    (∃ spec ∈ specs, SpecBinds spec x t ∧ x ≠ "_") ∨ s.lookup x = some t := by
  induction specs generalizing s with
  | nil => exact .inr found
  | cons spec specs ih =>
    rcases ih found with ⟨later, inside, binds⟩ | before
    · exact .inl ⟨later, List.mem_cons_of_mem _ inside, binds⟩
    · rcases lookupBindKnown before with ⟨first, known, notBlank⟩ | earlier
      · exact .inl ⟨spec, List.mem_cons_self, ⟨first, known⟩, notBlank⟩
      · exact .inr earlier

theorem packageBindingsOrigin {files : List Source.File} {x t : String}
    (found : (packageBindings files).lookup x = some t) :
    ∃ file ∈ files, ∃ spec ∈ Source.packageVars file, SpecBinds spec x t ∧ x ≠ "_" := by
  have inScope : ((files.flatMap Source.packageVars).foldl Scope.bindSpec
      (.ofPackage [])).lookup x = some t := by
    unfold packageBindings at found
    simp only [Scope.lookup, found, Option.some_or]
  rcases lookupSpecs inScope with ⟨spec, member, binds⟩ | outer
  · obtain ⟨file, inFiles, inFile⟩ := List.mem_flatMap.mp member
    exact ⟨file, inFiles, spec, inFile, binds⟩
  · cases outer

end Uncalled
