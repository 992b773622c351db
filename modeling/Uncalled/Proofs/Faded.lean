import Uncalled.Declaration
import Uncalled.Proofs.Events
/-! Syntax trees without the traces that comments leave in them. A comment moves what comes after
it, and one right after a star is noted in the type. Only the name of a method ever looks at such a
note; helpers, bindings and calls are the same in a tree that has faded. With `keep` the notes stay,
and only the places go. -/
namespace Uncalled
open Source (TypeExpr Expr Element VarSpec Stmt Parameter Result Function Item)

def fadeType (keep : Bool) : TypeExpr → TypeExpr
  | .name id => .name id
  | .qualified package id => .qualified package id
  | .pointer hidden target => .pointer (keep && hidden) (fadeType keep target)
  | .generic base => .generic (fadeType keep base)
  | .compound => .compound

mutual

def fadeExpr (keep : Bool) : Expr → Expr
  | .ident name => .ident name
  | .selector operand field => .selector (fadeExpr keep operand) field
  | .call callee args => .call (fadeExpr keep callee) (fadeExprs keep args)
  | .funcLit body => .funcLit (fadeStmts keep body)
  | .unary operand => .unary (fadeExpr keep operand)
  | .composite type es => .composite (type.map (fadeType keep)) (fadeElements keep es)
  | .other => .other

def fadeExprs (keep : Bool) : List Expr → List Expr
  | [] => []
  | e :: es => fadeExpr keep e :: fadeExprs keep es

def fadeElement (keep : Bool) : Element → Element
  | .plain value => .plain (fadeExpr keep value)
  | .keyed value => .keyed (fadeExpr keep value)

def fadeElements (keep : Bool) : List Element → List Element
  | [] => []
  | e :: es => fadeElement keep e :: fadeElements keep es

def fadeSpec (keep : Bool) : VarSpec → VarSpec
  | .mk names type values => .mk names (type.map (fadeType keep)) (fadeExprs keep values)

def fadeSpecs (keep : Bool) : List VarSpec → List VarSpec
  | [] => []
  | s :: ss => fadeSpec keep s :: fadeSpecs keep ss

def fadeStmt (keep : Bool) : Stmt → Stmt
  | .assign left right => .assign (fadeExprs keep left) (fadeExprs keep right)
  | .vars specs => .vars (fadeSpecs keep specs)
  | .eval value => .eval (fadeExpr keep value)
  | .detached value => .detached (fadeExpr keep value)
  | .returns values => .returns (fadeExprs keep values)
  | .send value => .send (fadeExpr keep value)
  | .loop body => .loop (fadeStmts keep body)
  | .branch consequence alternative =>
    .branch (fadeStmts keep consequence) (fadeStmts keep alternative)
  | .cases clauses => .cases (fadeBlocks keep clauses)
  | .other => .other

def fadeStmts (keep : Bool) : List Stmt → List Stmt
  | [] => []
  | s :: ss => fadeStmt keep s :: fadeStmts keep ss

def fadeBlocks (keep : Bool) : List (List Stmt) → List (List Stmt)
  | [] => []
  | b :: bs => fadeStmts keep b :: fadeBlocks keep bs

end

def fadeParameter (keep : Bool) : Parameter → Parameter
  | .plain names type => .plain names (fadeType keep type)
  | .variadic type => .variadic (fadeType keep type)

def fadeResult (keep : Bool) : Result → Result
  | .single type => .single (fadeType keep type)
  | .list parameters => .list (parameters.map (fadeParameter keep))

def fadeBody (keep : Bool) (b : Source.Body) : Source.Body :=
  ⟨.origin, .origin, fadeStmts keep b.statements⟩

def fadeFunction (keep : Bool) (f : Function) : Function :=
  ⟨.origin, f.name, f.receiver.map (List.map (fadeParameter keep)), f.result.map (fadeResult keep),
    f.body.map (fadeBody keep)⟩

def fadeItem (keep : Bool) : Item → Item
  | .function f => .function (fadeFunction keep f)
  | .vars specs => .vars (fadeSpecs keep specs)
  | .other => .other

def fadeFile (keep : Bool) (file : Source.File) : Source.File := file.map (fadeItem keep)

theorem fadeExprsMap (keep : Bool) (es : List Expr) :
    fadeExprs keep es = es.map (fadeExpr keep) := by
  induction es with
  | nil => rfl
  | cons e es ih => rw [fadeExprs, ih, List.map_cons]

theorem fadeElementsMap (keep : Bool) (es : List Element) :
    fadeElements keep es = es.map (fadeElement keep) := by
  induction es with
  | nil => rfl
  | cons e es ih => rw [fadeElements, ih, List.map_cons]

theorem fadeSpecsMap (keep : Bool) (ss : List VarSpec) :
    fadeSpecs keep ss = ss.map (fadeSpec keep) := by
  induction ss with
  | nil => rfl
  | cons s ss ih => rw [fadeSpecs, ih, List.map_cons]

theorem fadeStmtsMap (keep : Bool) (ss : List Stmt) :
    fadeStmts keep ss = ss.map (fadeStmt keep) := by
  induction ss with
  | nil => rfl
  | cons s ss ih => rw [fadeStmts, ih, List.map_cons]

theorem fadeBlocksMap (keep : Bool) (bs : List (List Stmt)) :
    fadeBlocks keep bs = bs.map (fadeStmts keep) := by
  induction bs with
  | nil => rfl
  | cons b bs ih => rw [fadeBlocks, ih, List.map_cons]

@[simp] theorem bindingFade (keep : Bool) (type : TypeExpr) :
    bindingName (fadeType keep type) = bindingName type := by
  induction type with
  | pointer hidden target ih => exact ih
  | _ => rfl

@[simp] theorem typeBindingFade (keep : Bool) (type : Option TypeExpr) :
    (type.map (fadeType keep)).bind bindingName = type.bind bindingName := by
  cases type with
  | none => rfl
  | some type => exact bindingFade keep type

@[simp] theorem literalFade (keep : Bool) (e : Expr) :
    literalName (fadeExpr keep e) = literalName e := by
  cases e with
  | composite type es => cases type <;> simp [fadeExpr, literalName]
  | unary operand =>
    cases operand with
    | composite type es => cases type <;> simp [fadeExpr, literalName]
    | _ => simp [fadeExpr, literalName]
  | _ => simp [fadeExpr, literalName]

@[simp] theorem specFade (keep : Bool) (spec : VarSpec) :
    specName (fadeSpec keep spec) = specName spec := by
  obtain ⟨names, type, values⟩ := spec
  cases values <;>
    simp [fadeSpec, specName, VarSpec.type, VarSpec.values, fadeExprs]

@[simp] theorem targetFade (keep : Bool) (e : Expr) : target? (fadeExpr keep e) = target? e := by
  cases e <;> simp [fadeExpr, target?]

@[simp] theorem signatureFade (keep : Bool) (hs : Helpers) (e : Expr) :
    calledSignature hs (fadeExpr keep e) = calledSignature hs e := by
  cases e with
  | call callee args => cases callee <;> simp [fadeExpr, calledSignature]
  | _ => simp [fadeExpr, calledSignature]

@[simp] theorem resultFade (keep : Bool) (hs : Helpers) (targets : List (Option String))
    (values : List Expr) :
    resultEvents hs targets (fadeExprs keep values) = resultEvents hs targets values := by
  match values with
  | [] => rfl
  | [value] => simp [fadeExprs, resultEvents]
  | _ :: _ :: _ => rfl

mutual

theorem valueEventsFade (keep : Bool) (hs : Helpers) (site : Site) (e : Expr) :
    valueEvents hs site (fadeExpr keep e) = valueEvents hs site e := by
  cases e with
  | call callee args =>
    simp [fadeExpr, valueEvents, calleeEventsFade keep hs callee, argumentEventsFade keep hs args]
  | funcLit body => simp [fadeExpr, valueEvents, blockEventsFade keep hs body]
  | composite type es => simp [fadeExpr, valueEvents, elementEventsFade keep hs es]
  | unary operand =>
    cases operand with
    | composite type es => simp [fadeExpr, valueEvents, elementEventsFade keep hs es]
    | _ => simp [fadeExpr, valueEvents]
  | _ => simp [fadeExpr, valueEvents]
termination_by structural e

theorem calleeEventsFade (keep : Bool) (hs : Helpers) (e : Expr) :
    calleeEvents hs (fadeExpr keep e) = calleeEvents hs e := by
  cases e with
  | selector operand field => cases operand <;> simp [fadeExpr, calleeEvents]
  | funcLit body => simp [fadeExpr, calleeEvents, blockEventsFade keep hs body]
  | _ => simp [fadeExpr, calleeEvents]
termination_by structural e

theorem argumentEventsFade (keep : Bool) (hs : Helpers) (es : List Expr) :
    argumentEvents hs (fadeExprs keep es) = argumentEvents hs es := by
  cases es with
  | nil => rfl
  | cons e es =>
    simp [fadeExprs, argumentEvents, valueEventsFade keep hs _ e, argumentEventsFade keep hs es]
termination_by structural es

theorem elementEventsFade (keep : Bool) (hs : Helpers) (es : List Element) :
    elementEvents hs (fadeElements keep es) = elementEvents hs es := by
  cases es with
  | nil => rfl
  | cons e es =>
    cases e with
    | plain value =>
      simp [fadeElements, fadeElement, elementEvents, valueEventsFade keep hs _ value,
        elementEventsFade keep hs es]
    | keyed value =>
      simp [fadeElements, fadeElement, elementEvents, valueEventsFade keep hs _ value,
        elementEventsFade keep hs es]
termination_by structural es

theorem assignEventsFade (keep : Bool) (hs : Helpers) (targets : List (Option String))
    (es : List Expr) :
    assignEvents hs targets (fadeExprs keep es) = assignEvents hs targets es := by
  cases es with
  | nil => rfl
  | cons e es =>
    simp [fadeExprs, assignEvents, valueEventsFade keep hs _ e, assignEventsFade keep hs _ es]
termination_by structural es

theorem detachedEventsFade (keep : Bool) (hs : Helpers) (es : List Expr) :
    detachedEvents hs (fadeExprs keep es) = detachedEvents hs es := by
  cases es with
  | nil => rfl
  | cons e es =>
    simp [fadeExprs, detachedEvents, valueEventsFade keep hs _ e, detachedEventsFade keep hs es]
termination_by structural es

theorem specEventsFade (keep : Bool) (hs : Helpers) (specs : List VarSpec) :
    specEvents hs (fadeSpecs keep specs) = specEvents hs specs := by
  cases specs with
  | nil => rfl
  | cons spec specs =>
    cases spec with
    | mk names type values =>
      have named := specFade keep (.mk names type values)
      simp only [fadeSpec] at named
      simp [fadeSpecs, fadeSpec, specEvents, named, assignEventsFade keep hs _ values]
termination_by structural specs

theorem stmtEventsFade (keep : Bool) (hs : Helpers) (s : Stmt) :
    stmtEvents hs (fadeStmt keep s) = stmtEvents hs s := by
  cases s with
  | assign left right =>
    have targets : (fadeExprs keep left).map target? = left.map target? := by
      rw [fadeExprsMap, List.map_map]
      exact List.map_congr_left fun e _ => targetFade keep e
    simp [fadeStmt, stmtEvents, targets, assignEventsFade keep hs _ right]
  | vars specs => simp [fadeStmt, stmtEvents, specEventsFade keep hs specs]
  | eval value => simp [fadeStmt, stmtEvents, valueEventsFade keep hs _ value]
  | detached value => simp [fadeStmt, stmtEvents, valueEventsFade keep hs _ value]
  | returns values => simp [fadeStmt, stmtEvents, detachedEventsFade keep hs values]
  | send value => simp [fadeStmt, stmtEvents, valueEventsFade keep hs _ value]
  | loop body => simp [fadeStmt, stmtEvents, blockEventsFade keep hs body]
  | branch consequence alternative =>
    simp [fadeStmt, stmtEvents, blockEventsFade keep hs consequence]
  | cases clauses => simp [fadeStmt, stmtEvents, clauseEventsFade keep hs clauses]
  | other => rfl
termination_by structural s

theorem blockEventsFade (keep : Bool) (hs : Helpers) (ss : List Stmt) :
    blockEvents hs (fadeStmts keep ss) = blockEvents hs ss := by
  cases ss with
  | nil => rfl
  | cons s ss =>
    simp [fadeStmts, blockEvents, stmtEventsFade keep hs s, blockEventsFade keep hs ss]
termination_by structural ss

theorem clauseEventsFade (keep : Bool) (hs : Helpers) (bs : List (List Stmt)) :
    clauseEvents hs (fadeBlocks keep bs) = clauseEvents hs bs := by
  cases bs with
  | nil => rfl
  | cons b bs =>
    simp [fadeBlocks, clauseEvents, blockEventsFade keep hs b, clauseEventsFade keep hs bs]
termination_by structural bs

end

@[simp] theorem walkFunctionFade (keep : Bool) (hs : Helpers) (w : Walk) (f : Function) :
    walkFunction hs w (fadeFunction keep f) = walkFunction hs w f := by
  cases body : f.body with
  | none => simp [walkFunction, fadeFunction, body]
  | some b =>
    simp only [walkFunction, fadeFunction, fadeBody, body, Option.map_some, blockReplay,
      blockEventsFade]

@[simp] theorem typeNameFade (keep : Bool) (type : TypeExpr) :
    Helper.typeName (fadeType keep type) = Helper.typeName type := by
  cases type with
  | pointer hidden target => cases target <;> rfl
  | _ => rfl

@[simp] theorem resultTypesFade (keep : Bool) (r : Result) :
    Helper.resultTypes (fadeResult keep r) = (Helper.resultTypes r).map (fadeType keep) := by
  cases r with
  | single type => rfl
  | list parameters =>
    simp only [fadeResult, Helper.resultTypes, List.filterMap_map, List.map_filterMap]
    congr 1
    funext parameter
    cases parameter <;> rfl

@[simp] theorem helperFade (keep : Bool) (testPrefix : String) (f : Function) :
    Helper.ofFunction? testPrefix (fadeFunction keep f) = Helper.ofFunction? testPrefix f := by
  have signature : Helper.signature? (fadeFunction keep f) = Helper.signature? f := by
    unfold Helper.signature? fadeFunction
    cases f.result with
    | none => rfl
    | some r =>
      simp only [Option.map_some, resultTypesFade]
      cases Helper.resultTypes r with
      | nil => rfl
      | cons type types => simp
  unfold Helper.ofFunction?
  rw [signature]
  rfl

@[simp] theorem bindSpecFade (keep : Bool) (s : Scope) (spec : VarSpec) :
    s.bindSpec (fadeSpec keep spec) = s.bindSpec spec := by
  rw [Scope.bindSpec, Scope.bindSpec, specFade]
  cases spec
  rfl

@[simp] theorem functionsFade (keep : Bool) (file : Source.File) :
    Source.functions (fadeFile keep file) = (Source.functions file).map (fadeFunction keep) := by
  unfold Source.functions fadeFile
  rw [List.filterMap_map, List.map_filterMap]
  congr 1
  funext item
  cases item <;> rfl

@[simp] theorem packageVarsFade (keep : Bool) (file : Source.File) :
    Source.packageVars (fadeFile keep file) = (Source.packageVars file).map (fadeSpec keep) := by
  unfold Source.packageVars fadeFile
  rw [List.flatMap_map, List.map_flatMap]
  congr 1
  funext item
  cases item with
  | vars specs => exact fadeSpecsMap keep specs
  | _ => rfl

theorem helpersFade (keep : Bool) (testPrefix : String) (files : List Source.File) :
    Helper.collect testPrefix (files.map (fadeFile keep)) = Helper.collect testPrefix files := by
  simp only [Helper.collect, List.flatMap_map, functionsFade, List.filterMap_flatMap,
    List.filterMap_map, Function.comp_def, helperFade]

theorem packageBindingsFade (keep : Bool) (files : List Source.File) :
    packageBindings (files.map (fadeFile keep)) = packageBindings files := by
  simp only [packageBindings, List.flatMap_map, packageVarsFade, List.foldl_flatMap,
    List.foldl_map, bindSpecFade]

theorem walkFilesFade (keep : Bool) (hs : Helpers) (scope : Scope) (files : List Source.File) :
    walkFiles hs scope (files.map (fadeFile keep)) = walkFiles hs scope files := by
  rw [walkFilesFunctions, walkFilesFunctions, List.flatMap_map]
  simp only [functionsFade, List.foldl_flatMap, List.foldl_map, walkFunctionFade]

@[simp] theorem typeKept (type : TypeExpr) : fadeType true type = type := by
  induction type with
  | pointer hidden target ih => rw [fadeType, ih, Bool.true_and]
  | generic base ih => rw [fadeType, ih]
  | _ => rfl

theorem qualifiedNameKept (f : Function) :
    Declaration.qualifiedName (fadeFunction true f) = Declaration.qualifiedName f := by
  have parameters : fadeParameter true = id := by
    funext parameter
    cases parameter <;> simp [fadeParameter]
  simp [Declaration.qualifiedName, fadeFunction, parameters]

namespace Declaration

def receiverRemarked (f : Function) : Bool :=
  match f.receiver.bind receiverType? with
  | some (.pointer hidden _) => hidden
  | _ => false

theorem qualifiedNameOf (f : Function) : qualifiedName f =
    ((f.receiver.bind receiverType?).bind receiverName).elim f.name (· ++ "." ++ f.name) := by
  rw [Option.bind_assoc, qualifiedName]
  cases f.receiver.bind fun r => (receiverType? r).bind receiverName with
  | none => rfl
  | some type => rfl

theorem receiverTypeFade (keep : Bool) (f : Function) :
    (fadeFunction keep f).receiver.bind receiverType? =
      (f.receiver.bind receiverType?).map (fadeType keep) := by
  have list (ps : List Parameter) :
      receiverType? (ps.map (fadeParameter keep)) = (receiverType? ps).map (fadeType keep) := by
    induction ps with
    | nil => rfl
    | cons p ps ih =>
      cases p with
      | plain names type => rfl
      | variadic type => exact ih
  unfold fadeFunction
  cases f.receiver with
  | none => rfl
  | some ps => exact list ps

@[simp] theorem baseNameFade (keep : Bool) (type : TypeExpr) :
    baseName (fadeType keep type) = baseName type := by
  cases type with
  | generic base => cases base <;> rfl
  | _ => rfl

theorem qualifiedNameFade {f : Function} (plain : receiverRemarked f = false) (keep : Bool) :
    qualifiedName (fadeFunction keep f) = qualifiedName f := by
  have names : ((f.receiver.bind receiverType?).map (fadeType keep)).bind receiverName =
      (f.receiver.bind receiverType?).bind receiverName := by
    unfold receiverRemarked at plain
    cases received : f.receiver.bind receiverType? with
    | none => rfl
    | some type =>
      rw [received] at plain
      cases type with
      | pointer hidden target =>
        obtain rfl : hidden = false := plain
        simp only [Option.map_some, Option.bind_some, fadeType, Bool.and_false, receiverName,
          baseNameFade]
      | generic base => exact baseNameFade keep (.generic base)
      | _ => rfl
  rw [qualifiedNameOf, receiverTypeFade, names, qualifiedNameOf]
  rfl

theorem qualifiedNameRemarked {f : Function} (remarked : receiverRemarked f = true) :
    qualifiedName f = f.name := by
  rw [qualifiedNameOf]
  unfold receiverRemarked at remarked
  split at remarked
  · rename_i hidden target received
    obtain rfl : hidden = true := remarked
    rw [received]
    rfl
  · cases remarked

/- Up to what has faded two functions are the same. The note after the star of the receiver's
pointer is all that their names can still differ by. -/
theorem fadedNames {f g : Function} (same : fadeFunction false f = fadeFunction false g)
    (noted : receiverRemarked f = receiverRemarked g) : qualifiedName f = qualifiedName g := by
  cases remarked : receiverRemarked g with
  | true =>
    have named := congrArg Function.name same
    rw [qualifiedNameRemarked (noted.trans remarked), qualifiedNameRemarked remarked]
    exact named
  | false =>
    rw [← qualifiedNameFade (noted.trans remarked) false, same, qualifiedNameFade remarked false]

end Declaration
end Uncalled
