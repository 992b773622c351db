import Uncalled.Proofs.Events
/-! What a walk comes to. `Visited` says it without a state and without an order: which statements,
calls and literals of a body are looked at, each because of the one around it. The events of a body
are exactly those of what is visited in it. -/
namespace Uncalled
open Source (Expr Element VarSpec Stmt Function)

inductive Depth
  | full
  | calleeOnly
  deriving DecidableEq, Repr

inductive Visit
  | stmt (s : Stmt)
  | call (depth : Depth) (f : Expr) (args : List Expr)
  | literal (elements : List Element)

def assignedValues : Stmt → List Expr
  | .assign _ right => right
  | .vars (.mk _ _ values :: _) => values
  | _ => []

def elementValue : Element → Expr
  | .plain value => value
  | .keyed value => value

def literalElements? : Expr → Option (List Element)
  | .composite _ es => some es
  | .unary (.composite _ es) => some es
  | _ => none

/- What is looked at in a body. The other branch of an `if`, what stands behind a label, headers,
the later lines of a declaration and the arguments of a call that is only looked at for its callee
are not. -/
inductive Visited (body : List Stmt) : Visit → Prop
  | own {s} : s ∈ body → Visited body (.stmt s)
  | looped {inner s} : Visited body (.stmt (.loop inner)) → s ∈ inner → Visited body (.stmt s)
  | consequence {inner alternative s} : Visited body (.stmt (.branch inner alternative)) →
      s ∈ inner → Visited body (.stmt s)
  | clause {clauses inner s} : Visited body (.stmt (.cases clauses)) → inner ∈ clauses →
      s ∈ inner → Visited body (.stmt s)
  | evaluated {f args} : Visited body (.stmt (.eval (.call f args))) →
      Visited body (.call .full f args)
  | sent {f args} : Visited body (.stmt (.send (.call f args))) → Visited body (.call .full f args)
  | assigned {s f args} : Visited body (.stmt s) → .call f args ∈ assignedValues s →
      Visited body (.call .full f args)
  | keyed {es f args} : Visited body (.literal es) → .keyed (.call f args) ∈ es →
      Visited body (.call .full f args)
  | argument {g outer f args} : Visited body (.call .full g outer) → .call f args ∈ outer →
      Visited body (.call .full f args)
  | detached {f args} : Visited body (.stmt (.detached (.call f args))) →
      Visited body (.call .calleeOnly f args)
  | returned {values f args} : Visited body (.stmt (.returns values)) → .call f args ∈ values →
      Visited body (.call .calleeOnly f args)
  | plain {es f args} : Visited body (.literal es) → .plain (.call f args) ∈ es →
      Visited body (.call .calleeOnly f args)
  | calledFunction {depth inner args s} : Visited body (.call depth (.funcLit inner) args) →
      s ∈ inner → Visited body (.stmt s)
  | argumentFunction {f args inner s} : Visited body (.call .full f args) →
      .funcLit inner ∈ args → s ∈ inner → Visited body (.stmt s)
  | assignedFunction {t inner s} : Visited body (.stmt t) → .funcLit inner ∈ assignedValues t →
      s ∈ inner → Visited body (.stmt s)
  | elementFunction {es e inner s} : Visited body (.literal es) → e ∈ es →
      elementValue e = .funcLit inner → s ∈ inner → Visited body (.stmt s)
  | assignedLiteral {s value es} : Visited body (.stmt s) → value ∈ assignedValues s →
      literalElements? value = some es → Visited body (.literal es)
  | elementLiteral {outer e es} : Visited body (.literal outer) → e ∈ outer →
      literalElements? (elementValue e) = some es → Visited body (.literal es)

def elementSite : Element → Site
  | .plain _ => .plain
  | .keyed _ => .value

def literalEvents (targets : List (Option String)) (values : List Expr) : List Event :=
  (targets.zip (values.map literalName)).flatMap fun b => bindEvents b.1 b.2

theorem flatOfCons {α β : Type} {f : List α → List β} {g : α → List β} (nil : f [] = [])
    (cons : ∀ x xs, f (x :: xs) = g x ++ f xs) (xs : List α) : f xs = xs.flatMap g := by
  induction xs with
  | nil => exact nil
  | cons x xs ih => rw [cons, ih, List.flatMap_cons]

theorem blockEventsFlat (hs : Helpers) (body : List Stmt) :
    blockEvents hs body = body.flatMap (stmtEvents hs) :=
  flatOfCons rfl (fun _ _ => rfl) body

theorem clauseEventsFlat (hs : Helpers) (clauses : List (List Stmt)) :
    clauseEvents hs clauses = clauses.flatMap (blockEvents hs) :=
  flatOfCons rfl (fun _ _ => rfl) clauses

theorem argumentEventsFlat (hs : Helpers) (es : List Expr) :
    argumentEvents hs es = es.flatMap (valueEvents hs .argument) :=
  flatOfCons rfl (fun _ _ => rfl) es

theorem detachedEventsFlat (hs : Helpers) (es : List Expr) :
    detachedEvents hs es = es.flatMap (valueEvents hs .detached) :=
  flatOfCons rfl (fun _ _ => rfl) es

theorem elementEventsFlat (hs : Helpers) (es : List Element) :
    elementEvents hs es = es.flatMap fun e => valueEvents hs (elementSite e) (elementValue e) :=
  flatOfCons rfl (fun e _ => by cases e <;> rfl) es

theorem assignEventsMember (hs : Helpers) (targets : List (Option String)) (values : List Expr)
    (event : Event) : event ∈ assignEvents hs targets values ↔
      (∃ value ∈ values, event ∈ valueEvents hs .value value) ∨
        event ∈ literalEvents targets values := by
  induction values generalizing targets with
  | nil => simp [assignEvents, literalEvents]
  | cons value values ih =>
    cases targets with
    | nil => simp [assignEvents, ih, literalEvents, bindEvents]
    | cons target targets =>
      have rest : literalEvents (target :: targets) (value :: values) =
          bindEvents target (literalName value) ++ literalEvents targets values := rfl
      simp only [assignEvents, List.head?_cons, Option.join_some, List.tail_cons, rest,
        List.mem_append, ih, List.mem_cons, exists_eq_or_imp]
      exact or_or_or_comm

def Visit.emits (hs : Helpers) : Visit → List Event
  | .call _ (.ident name) _ => [.named name]
  | .call _ (.selector (.ident receiver) name) _ => [.method receiver name]
  | .stmt (.assign left right) =>
    resultEvents hs (left.map target?) right ++ literalEvents (left.map target?) right
  | .stmt (.vars (.mk names type values :: _)) =>
    bindEvents names.head? (specName (.mk names type values)) ++
      resultEvents hs (names.map some) values ++ literalEvents (names.map some) values
  | _ => []

def Traced (hs : Helpers) (body : List Stmt) (event : Event) : Prop :=
  ∃ visit, Visited body visit ∧ event ∈ visit.emits hs

def Site.depth (site : Site) : Depth := if site.arguments then .full else .calleeOnly

structure Admitted (body : List Stmt) (site : Site) (e : Expr) : Prop where
  call : ∀ f args, e = .call f args → Visited body (.call site.depth f args)
  function : ∀ inner, site.functions = true → e = .funcLit inner →
    ∀ s ∈ inner, Visited body (.stmt s)
  literal : ∀ es, site.elements = true → literalElements? e = some es → Visited body (.literal es)

namespace Admitted

theorem argument {body : List Stmt} {f : Expr} {args : List Expr}
    (visited : Visited body (.call .full f args)) : ∀ e ∈ args, Admitted body .argument e := by
  intro e member
  refine ⟨?_, ?_, nofun⟩
  · intro g inner own
    subst own
    exact .argument visited member
  · intro inner _ own s inside
    subst own
    exact .argumentFunction visited member inside

theorem assigned {body : List Stmt} {s : Stmt} (visited : Visited body (.stmt s)) :
    ∀ e ∈ assignedValues s, Admitted body .value e := by
  intro e member
  refine ⟨?_, ?_, ?_⟩
  · intro g inner own
    subst own
    exact .assigned visited member
  · intro inner _ own t inside
    subst own
    exact .assignedFunction visited member inside
  · intro es _ own
    exact .assignedLiteral visited member own

theorem element {body : List Stmt} {es : List Element} (visited : Visited body (.literal es)) :
    ∀ e ∈ es, Admitted body (elementSite e) (elementValue e) := by
  intro e member
  refine ⟨?_, ?_, ?_⟩
  · intro f args own
    cases e with
    | plain value =>
      cases own
      exact .plain visited member
    | keyed value =>
      cases own
      exact .keyed visited member
  · intro inner _ own s inside
    exact .elementFunction visited member own inside
  · intro inner _ own
    exact .elementLiteral visited member own

theorem alone {body : List Stmt} {e : Expr}
    (visited : ∀ f args, e = .call f args → Visited body (.call .full f args)) :
    Admitted body .alone e := ⟨visited, nofun, nofun⟩

theorem detached {body : List Stmt} {e : Expr}
    (visited : ∀ f args, e = .call f args → Visited body (.call .calleeOnly f args)) :
    Admitted body .detached e := ⟨visited, nofun, nofun⟩

end Admitted

mutual

theorem valueTraced {hs : Helpers} {body : List Stmt} {site : Site} {e : Expr}
    (admitted : Admitted body site e) :
    ∀ event ∈ valueEvents hs site e, Traced hs body event := by
  intro event member
  cases e with
  | call f args =>
    have visited := admitted.call f args rfl
    simp only [valueEvents, List.mem_append] at member
    rcases member with inArguments | inCallee
    · cases full : site.arguments with
      | false => simp [full] at inArguments
      | true =>
        simp only [full, if_true, argumentEventsFlat] at inArguments
        simp only [Site.depth, full, if_true] at visited
        exact valuesTraced (Admitted.argument visited) event inArguments
    · exact calleeTraced visited event inCallee
  | funcLit inner =>
    cases looked : site.functions with
    | false => simp [valueEvents, looked] at member
    | true =>
      simp only [valueEvents, looked, if_true] at member
      exact blockTraced (admitted.function inner looked rfl) event member
  | composite type es =>
    cases looked : site.elements with
    | false => simp [valueEvents, looked] at member
    | true =>
      simp only [valueEvents, looked, if_true] at member
      exact elementTraced (Admitted.element (admitted.literal es looked rfl)) event member
  | unary operand =>
    cases operand with
    | composite type es =>
      cases looked : site.elements with
      | false => simp [valueEvents, looked] at member
      | true =>
        simp only [valueEvents, looked, if_true] at member
        exact elementTraced (Admitted.element (admitted.literal es looked rfl)) event member
    | _ => simp [valueEvents] at member
  | _ => simp [valueEvents] at member

theorem calleeTraced {hs : Helpers} {body : List Stmt} {depth : Depth} {f : Expr}
    {args : List Expr} (visited : Visited body (.call depth f args)) :
    ∀ event ∈ calleeEvents hs f, Traced hs body event := by
  intro event member
  cases f with
  | ident name => exact ⟨_, visited, member⟩
  | selector operand field =>
    cases operand with
    | ident receiver => exact ⟨_, visited, member⟩
    | _ => simp [calleeEvents] at member
  | funcLit inner =>
    exact blockTraced (fun s inside => .calledFunction visited inside) event member
  | _ => simp [calleeEvents] at member

theorem elementTraced {hs : Helpers} {body : List Stmt} {es : List Element}
    (admitted : ∀ e ∈ es, Admitted body (elementSite e) (elementValue e)) :
    ∀ event ∈ elementEvents hs es, Traced hs body event := by
  intro event member
  cases es with
  | nil => simp [elementEvents] at member
  | cons e es =>
    obtain ⟨first, rest⟩ := List.forall_mem_cons.mp admitted
    cases e with
    | plain value =>
      rcases List.mem_append.mp member with here | later
      · exact valueTraced first event here
      · exact elementTraced rest event later
    | keyed value =>
      rcases List.mem_append.mp member with here | later
      · exact valueTraced first event here
      · exact elementTraced rest event later

theorem valuesTraced {hs : Helpers} {body : List Stmt} {site : Site} {es : List Expr}
    (admitted : ∀ e ∈ es, Admitted body site e) :
    ∀ event ∈ es.flatMap (valueEvents hs site), Traced hs body event := by
  -- over the joined events, not for each member of the list, so the recursion is on the list itself
  intro event member
  cases es with
  | nil => cases member
  | cons e es =>
    obtain ⟨first, rest⟩ := List.forall_mem_cons.mp admitted
    rcases List.mem_append.mp member with here | later
    · exact valueTraced first event here
    · exact valuesTraced rest event later

theorem stmtTraced {hs : Helpers} {body : List Stmt} {s : Stmt}
    (visited : Visited body (.stmt s)) : ∀ event ∈ stmtEvents hs s, Traced hs body event := by
  intro event member
  cases s with
  | assign left right =>
    simp only [stmtEvents, List.mem_append, assignEventsMember] at member
    rcases member with result | values | literal
    · exact ⟨_, visited, List.mem_append_left _ result⟩
    · exact valuesTraced (Admitted.assigned visited) event (List.mem_flatMap.mpr values)
    · exact ⟨_, visited, List.mem_append_right _ literal⟩
  | vars specs =>
    cases specs with
    | nil => simp [stmtEvents, specEvents] at member
    | cons spec specs =>
      cases spec with
      | mk names type values =>
        simp only [stmtEvents, specEvents, List.mem_append, assignEventsMember] at member
        rcases member with known | here | literal
        · exact ⟨_, visited, List.mem_append_left _ (List.mem_append.mpr known)⟩
        · exact valuesTraced (Admitted.assigned visited) event (List.mem_flatMap.mpr here)
        · exact ⟨_, visited, List.mem_append_right _ literal⟩
  | eval value =>
    refine valueTraced (.alone ?_) event member
    intro f args own
    subst own
    exact .evaluated visited
  | detached value =>
    refine valueTraced (.detached ?_) event member
    intro f args own
    subst own
    exact .detached visited
  | returns values =>
    simp only [stmtEvents, detachedEventsFlat] at member
    refine valuesTraced (fun e inside => .detached ?_) event member
    intro f args own
    subst own
    exact .returned visited inside
  | send value =>
    refine valueTraced (.alone ?_) event member
    intro f args own
    subst own
    exact .sent visited
  | loop inner => exact blockTraced (fun s inside => .looped visited inside) event member
  | branch inner alternative =>
    exact blockTraced (fun s inside => .consequence visited inside) event member
  | cases clauses =>
    exact clauseTraced (fun inner among s inside => .clause visited among inside) event member
  | other => simp [stmtEvents] at member

theorem blockTraced {hs : Helpers} {body inner : List Stmt}
    (visited : ∀ s ∈ inner, Visited body (.stmt s)) :
    ∀ event ∈ blockEvents hs inner, Traced hs body event := by
  intro event member
  cases inner with
  | nil => simp [blockEvents] at member
  | cons s ss =>
    obtain ⟨first, rest⟩ := List.forall_mem_cons.mp visited
    rcases List.mem_append.mp member with here | later
    · exact stmtTraced first event here
    · exact blockTraced rest event later

theorem clauseTraced {hs : Helpers} {body : List Stmt} {clauses : List (List Stmt)}
    (visited : ∀ inner ∈ clauses, ∀ s ∈ inner, Visited body (.stmt s)) :
    ∀ event ∈ clauseEvents hs clauses, Traced hs body event := by
  intro event member
  cases clauses with
  | nil => simp [clauseEvents] at member
  | cons inner clauses =>
    obtain ⟨first, rest⟩ := List.forall_mem_cons.mp visited
    rcases List.mem_append.mp member with here | later
    · exact blockTraced first event here
    · exact clauseTraced rest event later

end

def Visit.events (hs : Helpers) : Visit → List Event
  | .stmt s => stmtEvents hs s
  | .call .full f args => argumentEvents hs args ++ calleeEvents hs f
  | .call .calleeOnly f _ => calleeEvents hs f
  | .literal es => elementEvents hs es

theorem emitsEvents (hs : Helpers) (visit : Visit) : visit.emits hs ⊆ visit.events hs := by
  intro event member
  cases visit with
  | stmt s =>
    cases s with
    | assign left right =>
      simp only [Visit.emits, List.mem_append] at member
      simp only [Visit.events, stmtEvents, List.mem_append, assignEventsMember]
      tauto
    | vars specs =>
      match specs with
      | [] => cases member
      | .mk names type values :: rest =>
        simp only [Visit.emits, List.mem_append] at member
        simp only [Visit.events, stmtEvents, specEvents, List.mem_append, assignEventsMember]
        tauto
    | _ => cases member
  | call depth f args =>
    have inCallee : event ∈ calleeEvents hs f := by
      cases f with
      | ident name => exact member
      | selector operand field =>
        cases operand with
        | ident receiver => exact member
        | _ => cases member
      | _ => cases member
    cases depth with
    | full => exact List.mem_append_right _ inCallee
    | calleeOnly => exact inCallee
  | literal es => cases member

theorem stmtInBlock (hs : Helpers) {s : Stmt} {inner : List Stmt} (inside : s ∈ inner) :
    stmtEvents hs s ⊆ blockEvents hs inner := by
  intro event member
  rw [blockEventsFlat]
  exact List.mem_flatMap.mpr ⟨s, inside, member⟩

theorem argumentInCall (hs : Helpers) {e f : Expr} {args : List Expr} (inside : e ∈ args) :
    valueEvents hs .argument e ⊆ (Visit.call .full f args).events hs := by
  intro event member
  refine List.mem_append_left _ ?_
  rw [argumentEventsFlat]
  exact List.mem_flatMap.mpr ⟨e, inside, member⟩

theorem valueInElements (hs : Helpers) {e : Element} {es : List Element} (inside : e ∈ es) :
    valueEvents hs (elementSite e) (elementValue e) ⊆ elementEvents hs es := by
  intro event member
  rw [elementEventsFlat]
  exact List.mem_flatMap.mpr ⟨e, inside, member⟩

theorem assignedInStmt (hs : Helpers) {e : Expr} {s : Stmt} (inside : e ∈ assignedValues s) :
    valueEvents hs .value e ⊆ stmtEvents hs s := by
  intro event member
  cases s with
  | assign left right =>
    refine List.mem_append_right _ ((assignEventsMember ..).mpr (.inl ?_))
    exact ⟨e, inside, member⟩
  | vars specs =>
    match specs with
    | [] => cases inside
    | .mk names type values :: rest =>
      refine List.mem_append_right _ ((assignEventsMember ..).mpr (.inl ?_))
      exact ⟨e, inside, member⟩
  | _ => cases inside

theorem literalValueEvents (hs : Helpers) {site : Site} {e : Expr} {es : List Element}
    (looked : site.elements = true) (own : literalElements? e = some es) :
    valueEvents hs site e = elementEvents hs es := by
  cases e with
  | composite type inner =>
    cases own
    simp only [valueEvents, looked, if_true]
  | unary operand =>
    cases operand with
    | composite type inner =>
      cases own
      simp only [valueEvents, looked, if_true]
    | _ => cases own
  | _ => cases own

theorem elementSiteLooks (e : Element) :
    (elementSite e).functions = true ∧ (elementSite e).elements = true := by
  cases e <;> exact ⟨rfl, rfl⟩

theorem visitedEvents (hs : Helpers) {body : List Stmt} {visit : Visit}
    (visited : Visited body visit) : visit.events hs ⊆ blockEvents hs body := by
  induction visited with
  | own inside => exact stmtInBlock hs inside
  | looped _ inside ih => exact List.Subset.trans (stmtInBlock hs inside) ih
  | consequence _ inside ih => exact List.Subset.trans (stmtInBlock hs inside) ih
  | clause _ among inside ih =>
    refine List.Subset.trans (List.Subset.trans (stmtInBlock hs inside) ?_) ih
    intro event member
    change event ∈ clauseEvents hs _
    rw [clauseEventsFlat]
    exact List.mem_flatMap.mpr ⟨_, among, member⟩
  | evaluated _ ih => exact ih
  | sent _ ih => exact ih
  | assigned _ inside ih => exact List.Subset.trans (assignedInStmt hs inside) ih
  | keyed _ inside ih => exact List.Subset.trans (valueInElements hs inside) ih
  | argument _ inside ih => exact List.Subset.trans (argumentInCall hs inside) ih
  | detached _ ih => exact ih
  | returned _ inside ih =>
    refine List.Subset.trans ?_ ih
    intro event member
    change event ∈ detachedEvents hs _
    rw [detachedEventsFlat]
    exact List.mem_flatMap.mpr ⟨_, inside, member⟩
  | plain _ inside ih => exact List.Subset.trans (valueInElements hs inside) ih
  | @calledFunction depth inner args s _ inside ih =>
    refine List.Subset.trans (stmtInBlock hs inside) (List.Subset.trans ?_ ih)
    cases depth with
    | full => exact List.subset_append_right ..
    | calleeOnly => exact List.Subset.refl _
  | argumentFunction _ among inside ih =>
    exact List.Subset.trans (stmtInBlock hs inside) (List.Subset.trans (argumentInCall hs among) ih)
  | assignedFunction _ among inside ih =>
    exact List.Subset.trans (stmtInBlock hs inside) (List.Subset.trans (assignedInStmt hs among) ih)
  | @elementFunction es e inner s _ among own inside ih =>
    refine List.Subset.trans (stmtInBlock hs inside) (List.Subset.trans ?_
      (List.Subset.trans (valueInElements hs among) ih))
    simp only [own, valueEvents, (elementSiteLooks e).1, if_true]
    exact List.Subset.refl _
  | assignedLiteral _ among own ih =>
    refine List.Subset.trans ?_ (List.Subset.trans (assignedInStmt hs among) ih)
    rw [literalValueEvents hs rfl own]
    exact List.Subset.refl _
  | @elementLiteral outer e es _ among own ih =>
    refine List.Subset.trans ?_ (List.Subset.trans (valueInElements hs among) ih)
    rw [literalValueEvents hs (elementSiteLooks e).2 own]
    exact List.Subset.refl _

theorem blockEventsTraced (hs : Helpers) (body : List Stmt) (event : Event) :
    event ∈ blockEvents hs body ↔ Traced hs body event := by
  constructor
  · exact blockTraced (fun s inside => .own inside) event
  · intro ⟨visit, visited, member⟩
    exact visitedEvents hs visited (emitsEvents hs visit member)

end Uncalled
