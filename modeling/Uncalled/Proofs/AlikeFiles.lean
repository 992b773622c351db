import Uncalled.Source.Grammar.Files
import Uncalled.Proofs.AlikeExpressions
/-! Statements and files of lists of tokens that are alike, up to whole trees. -/
namespace Uncalled.Source

variable {keep : Bool}

instance : Fade SwitchPart := ⟨fun _ => id⟩
instance : Plain SwitchPart := ⟨fun _ _ => rfl⟩

def Item.ofStmt : Stmt → Item
  | .vars specs => .vars specs
  | _ => .other

section
variable {xs ys : List Expr} {ss rs : List Stmt}

theorem fadeVarSpec (names : List String) {t t' : Option TypeExpr}
    (type : fade keep t = fade keep t')
    (values : fade keep xs = fade keep ys) :
    fade keep (VarSpec.mk names t xs) = fade keep (.mk names t' ys) := by
  simp_all only [fade, fadeSpec, fadeExprsMap]

theorem fadeAssign {xs' ys' : List Expr} (left : fade keep xs = fade keep xs')
    (right : fade keep ys = fade keep ys') :
    fade keep (Stmt.assign xs ys) = fade keep (.assign xs' ys') := by
  simp_all only [fade, fadeStmt, fadeExprsMap]

theorem fadeVars {specs specs' : List VarSpec} (same : fade keep specs = fade keep specs') :
    fade keep (Stmt.vars specs) = fade keep (.vars specs') := by
  simp_all only [fade, fadeStmt, fadeSpecsMap]

theorem fadeReturns (values : fade keep xs = fade keep ys) :
    fade keep (Stmt.returns xs) = fade keep (.returns ys) := by
  simp_all only [fade, fadeStmt, fadeExprsMap]

theorem bodyStatements {b b' : Body} (same : fade keep b = fade keep b') :
    fade keep b.statements = fade keep b'.statements := by
  have statements : fadeStmts keep b.statements = fadeStmts keep b'.statements :=
    congrArg Body.statements same
  rwa [fadeStmtsMap, fadeStmtsMap] at statements

theorem fadeLoop (body : fade keep ss = fade keep rs) :
    fade keep (Stmt.loop ss) = fade keep (.loop rs) := by
  simp_all only [fade, fadeStmt, fadeStmtsMap]

theorem fadeBranch {ss' rs' : List Stmt} (consequence : fade keep ss = fade keep rs)
    (alternative : fade keep ss' = fade keep rs') :
    fade keep (Stmt.branch ss ss') = fade keep (.branch rs rs') := by
  simp_all only [fade, fadeStmt, fadeStmtsMap]

theorem fadeCases {bs bs' : List (List Stmt)} (same : fade keep bs = fade keep bs') :
    fade keep (Stmt.cases bs) = fade keep (.cases bs') := by
  have statements : fadeStmts keep = fade keep := funext (fadeStmtsMap keep)
  exact congrArg Stmt.cases (by rw [fadeBlocksMap, fadeBlocksMap, statements]; exact same)

end

theorem singleAlike {xs ys : List Expr} (same : fade keep xs = fade keep ys) :
    Alike keep (single xs) (single ys) := by
  match xs, ys with
  | [], [] => exact .failure
  | [x], [y] => exact .pure (List.cons.inj same).1
  | _ :: _ :: _, _ :: _ :: _ => exact .failure
  | [], _ :: _ => cases same
  | _ :: _, [] => cases same
  | [_], _ :: _ :: _ => cases (List.cons.inj same).2
  | _ :: _ :: _, [_] => cases (List.cons.inj same).2

section
variable {g : Grammar} (fair : g.Fair keep)
include fair

theorem expressionsFair (p : Place) : Fair keep (expressions g p) :=
  commaListAlike (fair.expr p) _ _ _

theorem simpleFair (p right : Place) : Fair keep (simple g p right) := by
  refine .bind (expressionsFair fair p) fun left left' same => ?_
  have length : left.length = left'.length := by simpa [fade] using congrArg List.length same
  rw [length]
  have assigned : Alike keep
      (do let _ ← anyToken; return Stmt.assign left (← expressions g right))
      (do let _ ← anyToken; return Stmt.assign left' (← expressions g right)) :=
    .seq anyTokenFair (.bind (expressionsFair fair right) fun _ _ more =>
      .pure (fadeAssign same more))
  refine .read (peekHereFair _) fun next => ?_
  split
  · exact assigned
  · exact assigned
  · exact assigned
  · exact .seq (singleAlike same) (.seq anyTokenFair (.pure rfl))
  · refine .seq (singleAlike same) (.seq anyTokenFair ?_)
    exact .bind (fair.expr p) fun _ _ value => .pure (congrArg Stmt.send value)
  · exact .bind (singleAlike same) fun _ _ value => .pure (congrArg Stmt.eval value)

omit fair in
theorem declaredFair {α : Type} [Fade α] {spec : Parser α} (each : Fair keep spec) :
    Fair keep (declared g spec) := by
  refine .read (skipFair _ _) fun _ => .ite (groupAlike each _ _) ?_
  exact .bind each fun _ _ same => .pure (congrArg (fun s => [s]) same)

theorem constSpecFair : Fair keep (constSpec g) := by
  have values : Fair keep (constSpec.values g) :=
    .seq (anyMark _) (.seq (expressionsFair fair _) (.pure rfl))
  refine .seq (commaListAlike nameFair _ _ _) (.read (peekHereFair _) fun next => ?_)
  split
  · exact values
  · exact .pure rfl
  · exact .pure rfl
  · exact .pure rfl
  · exact .pure rfl
  · exact .seq (fair.type _) values

theorem varSpecFair : Fair keep (varSpec g) := by
  refine .read (commaListAlike nameFair _ _ _) fun names => .read (skipFair _ _) fun _ => .ite ?_ ?_
  · exact .bind (expressionsFair fair _) fun _ _ values => .pure (fadeVarSpec names rfl values)
  · refine .bind (fair.type _) fun _ _ type => .read (skipFair _ _) fun _ => .ite ?_ ?_
    · refine .bind (expressionsFair fair _) fun _ _ values => .pure ?_
      exact fadeVarSpec names (congrArg some type) values
    · exact .pure (fadeVarSpec names (congrArg some type) rfl)

theorem typeSpecFair : Fair keep (typeSpec g) := by
  have meaning : Fair keep (typeSpec.meaning g) :=
    .seq (skipFair _ _) (.seq (fair.type _) (.pure rfl))
  exact .seq nameFair (.orElse (.seq (typeParametersFair fair) meaning) meaning)

theorem branchesFair : Fair keep (do
    let consequence ← block g
    if (← peekHere true) = some (.word .else_) then
      let _ ← word .else_
      if (← peek) = some (.word .if_) then return Stmt.branch consequence.statements [← g.stmt]
      else return .branch consequence.statements (← block g).statements
    else return .branch consequence.statements []) := by
  refine .bind (blockFair fair) fun _ _ same => .read (peekHereFair _) fun _ => ?_
  have consequence := bodyStatements same
  refine .ite (.seq (anyWord _) ?_) (.pure (fadeBranch consequence rfl))
  refine .read peekFair fun _ => .ite ?_ ?_
  · refine .bind fair.stmt fun _ _ other => .pure (fadeBranch consequence ?_)
    exact congrArg (fun s => [s]) other
  · exact .bind (blockFair fair) fun _ _ other =>
      .pure (fadeBranch consequence (bodyStatements other))

omit fair in
theorem headerAlike {α : Type} [Fade α] {s s' : Stmt} {p q : Parser α} (value : Fair keep p)
    (statement : Fair keep q) : fade keep s = fade keep s' → Alike keep
      (match s with
        | .eval _ => p
        | _ => q)
      (match s' with
        | .eval _ => p
        | _ => q) := by
  have decided (s : Stmt) : (match s with
      | .eval _ => p
      | _ => q) = if s matches .eval _ then p else q := by cases s <;> rfl
  have shape (s : Stmt) : (s matches .eval _) = (fade keep s matches .eval _) := by cases s <;> rfl
  intro same
  rw [decided, decided, shape s, same, ← shape s']
  exact .ite value statement

/- Which header it is, the parser tells from the statement it has read. -/
theorem ifStmtFair : Fair keep (ifStmt g) := by
  have rest := branchesFair fair
  refine .seq (anyWord _) (.bind (simpleFair fair _ _) fun header header' same => ?_)
  refine headerAlike ?_ (.seq (anyMark _) (.seq (fair.expr _) rest)) same
  exact .read (skipFair _ _) fun _ => .ite (.seq (fair.expr _) rest) rest

theorem forRestFair : Fair keep (forRest g) := by
  have rest : Fair keep (do
      let _ ← mark .semicolon
      if ← nextIs .lbrace then return ()
      else
        let _ ← simple g .header .header) := by
    refine .seq (anyMark _) (.read (nextIsFair _) fun _ => .ite (.pure rfl) ?_)
    exact .seq (simpleFair fair _ _) (.pure rfl)
  refine .seq (anyMark _) (.read (nextIsFair _) fun _ => .ite rest ?_)
  exact .seq (fair.expr _) rest

theorem rangeClauseFair : Fair keep (rangeClause g) :=
  .seq (anyWord _) (.seq (fair.expr _) (.pure rfl))

theorem forHeaderFair : Fair keep (forHeader g) := by
  have rest := forRestFair fair
  refine .bind (expressionsFair fair _) fun left left' same => .read peekFair fun next => ?_
  have assigned : Fair keep (do
      let _ ← anyToken
      if (← peek) = some (.word .range) then rangeClause g
      else
        let _ ← expressions g .inside
        forRest g) := by
    refine .seq anyTokenFair (.read peekFair fun _ => .ite (rangeClauseFair fair) ?_)
    exact .seq (expressionsFair fair _) rest
  split
  · exact assigned
  · exact assigned
  · exact .seq anyTokenFair (.seq (expressionsFair fair _) rest)
  · exact .seq (singleAlike same) (.seq anyTokenFair rest)
  · exact .seq (singleAlike same) (.seq anyTokenFair (.seq (fair.expr _) rest))
  · exact .seq (singleAlike same) rest
  · exact .seq (singleAlike same) (.pure rfl)

theorem forStmtFair : Fair keep (forStmt g) := by
  have body : Fair keep (do return Stmt.loop (← block g).statements) :=
    .bind (blockFair fair) fun _ _ same => .pure (fadeLoop (bodyStatements same))
  refine .seq (anyWord _) (.read peekFair fun next => ?_)
  split
  · exact body
  · exact .seq (rangeClauseFair fair) body
  · exact .seq (forRestFair fair) body
  · exact .seq (forHeaderFair fair) body

omit fair in
theorem typeGuardFair : Fair keep typeGuard :=
  .seq (anyMark _) (.seq (anyMark _) (.seq (anyWord _) (.seq (anyMark _) (.pure rfl))))

theorem switchPartFair : Fair keep (switchPart g) := by
  refine .bind (expressionsFair fair _) fun left left' same => .read guardNextFair fun _ => ?_
  have alone := singleAlike same
  refine .ite (.seq alone typeGuardFair) (.read peekFair fun next => ?_)
  split
  · refine .seq anyTokenFair (.bind (expressionsFair fair _) fun _ _ right => ?_)
    refine .read guardNextFair fun _ => .ite (.seq (singleAlike right) typeGuardFair) (.pure rfl)
  · exact .seq anyTokenFair (.seq (expressionsFair fair _) (.pure rfl))
  · exact .seq anyTokenFair (.seq (expressionsFair fair _) (.pure rfl))
  · exact .seq alone (.seq anyTokenFair (.pure rfl))
  · exact .seq alone (.seq anyTokenFair (.seq (fair.expr _) (.pure rfl)))
  · exact .seq alone (.pure rfl)

theorem switchHeaderFair : Fair keep (switchHeader g) := by
  refine .read (nextIsFair _) fun _ => .ite (.pure rfl)
    (.read (switchPartFair fair) fun first => ?_)
  refine .ite (.pure rfl) (.read (skipFair _ _) fun _ => .ite ?_ (.ite (.pure rfl) .failure))
  refine .read (nextIsFair _) fun _ => .ite (.pure rfl)
    (.read (switchPartFair fair) fun second => ?_)
  cases second with
  | guard => exact .pure rfl
  | value => exact .pure rfl
  | statement => exact .failure

theorem clausesFair {head : Parser Unit} (each : Fair keep head) (n : Nat) :
    Fair keep (clauses g head n) := by
  induction n with
  | zero => exact .failure
  | succ n ih =>
    have rest : Fair keep (do
        let _ ← mark .colon
        let body ← statements g g.bound
        return body :: (← clauses g head n)) := by
      refine .seq (anyMark _) (.bind (statementsFair fair _) fun _ _ body => ?_)
      exact .bind ih fun _ _ more => .pure (congrArg₂ List.cons body more)
    refine .read (skipFair _ _) fun _ => .ite (.pure rfl) (.read peekFair fun _ => .ite ?_ ?_)
    · exact .seq (anyWord _) rest
    · exact .seq (anyWord _) (.seq each rest)

theorem communicationFair : Fair keep (communication g) := by
  refine .bind (expressionsFair fair _) fun left left' same => .read peekFair fun next => ?_
  split
  · exact .seq (singleAlike same) (.seq anyTokenFair (.seq (fair.expr _) (.pure rfl)))
  · exact .seq anyTokenFair (.seq (fair.expr _) (.pure rfl))
  · exact .seq anyTokenFair (.seq (fair.expr _) (.pure rfl))
  · exact .seq (singleAlike same) (.pure rfl)

theorem switchStmtFair : Fair keep (switchStmt g) := by
  refine .seq (anyWord _) (.read (switchHeaderFair fair) fun onType => .seq (anyMark _) ?_)
  refine .bind (clausesFair fair (.ite ?_ ?_) _) fun _ _ same => .pure (fadeCases same)
  · exact .seq (commaListAlike (fair.type _) _ _ _) (.pure rfl)
  · exact .seq (expressionsFair fair _) (.pure rfl)

theorem selectStmtFair : Fair keep (selectStmt g) := by
  refine .seq (anyWord _) (.seq (anyMark _) ?_)
  exact .bind (clausesFair fair (communicationFair fair) _) fun _ _ same => .pure (fadeCases same)

theorem returnStmtFair : Fair keep (returnStmt g) := by
  refine .seq (anyWord _) (.read (peekHereFair _) fun _ => .ite (.pure rfl) ?_)
  refine .bind (optionalAlike (expressionsFair fair _)) fun values values' same => .pure ?_
  match values, values' with
  | some _, some _ => exact fadeReturns (Option.some.inj same)
  | none, none => rfl

omit fair in
theorem jumpFair (k : Keyword) : Fair keep (jump k) := by
  refine .seq (anyWord _) (.read (peekHereFair _) fun next => ?_)
  split
  · exact .seq nameFair (.pure rfl)
  · exact .pure rfl

theorem labelledFair : Fair keep (labelled g) :=
  .seq nameFair (.seq (anyMark _) (.seq fair.stmt (.pure rfl)))

theorem stmtStepFair : Fair keep (stmtStep g) := by
  have detached (k : Keyword) :
      Fair keep (do let _ ← word k; return Stmt.detached (← g.expr .line)) :=
    .seq (anyWord _) (.bind (fair.expr _) fun _ _ same => .pure (congrArg Stmt.detached same))
  refine .read peekFair fun next => ?_
  split
  · exact .seq (anyWord _) (.seq (declaredFair (constSpecFair fair)) (.pure rfl))
  · exact .seq (anyWord _) (.seq (declaredFair (typeSpecFair fair)) (.pure rfl))
  · refine .seq (anyWord _) ?_
    exact .bind (declaredFair (varSpecFair fair)) fun _ _ same => .pure (fadeVars same)
  · exact returnStmtFair fair
  · exact detached .go
  · exact detached .defer
  · exact ifStmtFair fair
  · exact forStmtFair fair
  · exact switchStmtFair fair
  · exact selectStmtFair fair
  · exact .seq (anyWord _) (.pure rfl)
  · exact jumpFair _
  · exact jumpFair _
  · exact .seq (anyWord _) (.seq nameFair (.pure rfl))
  · exact .seq (blockFair fair) (.pure rfl)
  · exact .seq (anyMark _) (.pure rfl)
  · exact .read peekSecondFair fun _ => .ite (labelledFair fair) (simpleFair fair _ _)
  · exact simpleFair fair _ _

omit fair in
theorem importSpecFair : Fair keep importSpec := by
  have path : Fair keep (do let _ ← text) := .seq (takeFair _) (.pure rfl)
  exact .read (skipFair _ _) fun _ => .ite path (.seq (optionalAlike nameFair) path)

omit fair in
theorem importDeclFair : Fair keep (importDecl g) := by
  refine .seq (anyWord _) (.read (skipFair _ _) fun _ => .ite ?_ importSpecFair)
  exact .seq (lineListAlike importSpecFair _ _) (.pure rfl)

theorem signatureFair : Fair keep (signature g) := by
  refine .seq (parametersFair fair) (.bind (resultFair fair _) fun _ _ given => ?_)
  refine .read (peekHereFair _) fun _ => .ite ?_ (.pure (congrArg₂ Prod.mk given rfl))
  exact .bind (blockFair fair) fun _ _ body => .pure (congrArg₂ Prod.mk given (congrArg some body))

omit fair in
theorem fadeDeclared (start start' : Point) (id : String)
    {receiver receiver' : Option (List Parameter)} {s s' : Option Result × Option Body}
    (first : fade keep receiver = fade keep receiver') (rest : fade keep s = fade keep s') :
    fade keep (Function.mk start id receiver s.1 s.2) =
      fade keep (Function.mk start' id receiver' s'.1 s'.2) := by
  simp_all [fade, fadeFunction, Prod.map]

theorem functionFair : Fair keep (function g) := by
  refine .bind (anyWord _) fun keyword keyword' _ => .read (nextIsFair _) fun _ => .ite ?_ ?_
  · refine .bind (parametersFair fair) fun _ _ receiver => .read nameFair fun id => ?_
    refine .bind (signatureFair fair) fun _ _ rest => .pure ?_
    exact fadeDeclared _ _ id (congrArg some receiver) rest
  · have rest (id : String) : Alike keep
        (do let s ← signature g; return Function.mk keyword.start id none s.1 s.2)
        (do let s ← signature g; return Function.mk keyword'.start id none s.1 s.2) :=
      .bind (signatureFair fair) fun _ _ rest => .pure (fadeDeclared _ _ id rfl rest)
    refine .read nameFair fun id => .read (nextIsFair _) fun _ => .ite ?_ (rest id)
    exact .seq (typeParametersFair fair) (rest id)

omit fair in
theorem itemAlike {s s' : Stmt} : fade keep s = fade keep s' → Alike keep
    (match s with
      | .vars specs => pure (Item.vars specs)
      | _ => pure .other : Parser Item)
    (match s' with
      | .vars specs => pure (Item.vars specs)
      | _ => pure .other) := by
  have decided (s : Stmt) : (match s with
      | .vars specs => pure (Item.vars specs)
      | _ => pure .other : Parser Item) = pure (Item.ofStmt s) := by cases s <;> rfl
  have shape (s : Stmt) : fade keep (Item.ofStmt s) = .ofStmt (fade keep s) := by cases s <;> rfl
  intro same
  rw [decided, decided]
  exact .pure (by rw [shape, shape, same])

theorem itemFair : Fair keep (item g) := by
  refine .read peekFair fun next => ?_
  split
  · exact .seq (anyWord _) (.seq nameFair (.pure rfl))
  · exact .seq importDeclFair (.pure rfl)
  · refine .orElse ?_ (.seq fair.stmt (.pure rfl))
    exact .bind (functionFair fair) fun _ _ same => .pure (congrArg Item.function same)
  · exact .bind fair.stmt fun _ _ same => itemAlike same

theorem itemsFair (n : Nat) : Fair keep (items g n) := by
  induction n with
  | zero => exact .failure
  | succ n ih =>
    refine .read peekFair fun _ => .ite (.pure rfl) (.bind (itemFair fair) fun _ _ first => ?_)
    refine .read peekFair fun _ => .ite (.pure (congrArg (fun i => [i]) first)) ?_
    exact .seq terminatorFair (.bind ih fun _ _ more => .pure (congrArg₂ List.cons first more))

end

theorem grammarFair (n : Nat) : (grammar n).Fair keep := by
  induction n with
  | zero => exact ⟨fun _ => .failure, fun _ => .failure, .failure⟩
  | succ n ih => exact ⟨typeStepFair ih, exprStepFair ih, stmtStepFair ih⟩

theorem likeLength {ts us : List Token} (like : Like keep ts us) : ts.length = us.length := by
  induction like with
  | nil => rfl
  | cons kind newline noted rest ih => rw [List.length_cons, List.length_cons, ih]

theorem parseAlike {src src' : Text.Bytes}
    (like : Option.Rel (Like keep) (tokens? src) (tokens? src')) :
    Option.Rel (fun file file' => fadeFile keep file = fadeFile keep file') (parse? src)
      (parse? src') := by
  unfold parse?
  revert like
  generalize tokens? src = ts
  generalize tokens? src' = us
  rintro (@⟨ts, us, like⟩ | _)
  · have read := itemsFair (grammarFair (3 * ts.length + 3)) (ts.length + 1) ts us like
    dsimp only [bind, Option.bind]
    rw [← likeLength like]
    revert read
    generalize items (grammar (3 * ts.length + 3)) (ts.length + 1) ts = x
    generalize items (grammar (3 * ts.length + 3)) (ts.length + 1) us = y
    rintro (⟨same, -⟩ | _)
    · exact .some same
    · exact .none
  · exact .none

end Uncalled.Source
