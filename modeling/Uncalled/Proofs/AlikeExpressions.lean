import Uncalled.Source.Grammar.Expressions
import Uncalled.Proofs.Alike
/-! Expressions and blocks of lists of tokens that are alike. What a parser decides from the tree it
has read so far it decides from the shape, which does not fade. -/
namespace Uncalled.Source

variable {keep : Bool}

instance : Fade Operand := ⟨fun keep o => ⟨fade keep o.expr, fade keep o.type⟩⟩

section
variable {xs ys : List Expr} {ss rs : List Stmt}

theorem fadeCall {e e' : Expr} (callee : fade keep e = fade keep e')
    (arguments : fade keep xs = fade keep ys) :
    fade keep (Expr.call e xs) = fade keep (.call e' ys) := by
  simp_all only [fade, fadeExpr, fadeExprsMap]

theorem fadeComposite {t t' : Option TypeExpr} {es es' : List Element}
    (type : fade keep t = fade keep t') (elements : fade keep es = fade keep es') :
    fade keep (Expr.composite t es) = fade keep (.composite t' es') := by
  simp_all only [fade, fadeExpr, fadeElementsMap]

end

theorem convertsSame {list list' : List (Expr × Bool)} (same : fade keep list = fade keep list') :
    converts list = converts list' := by
  have faded (list : List (Expr × Bool)) : converts list = converts (fade keep list) := by
    match list with
    | [] => rfl
    | [(_, spread)] => cases spread <;> rfl
    | (_, spread) :: _ :: _ => cases spread <;> rfl
  rw [faded list, same, faded list']

theorem argumentsFade (list : List (Expr × Bool)) :
    fade keep (list.map argumentExpr) = (fade keep list).map argumentExpr := by
  induction list with
  | nil => rfl
  | cons a list ih =>
    obtain ⟨value, spread⟩ := a
    cases spread <;> exact congrArg (List.cons _) ih

theorem selectedFade (o : Operand) (field : String) :
    fade keep (selected o field) = selected (fade keep o) field := by
  obtain ⟨expr, type⟩ := o
  cases type with
  | none => rfl
  | some type => cases type <;> rfl

theorem anyTokenFair : Fair keep anyToken := by
  intro ts us like
  cases like with
  | nil => exact .none
  | cons same newline noted rest =>
    refine .some ⟨?_, 1, rfl, rfl⟩
    simp [fade, same, newline]

theorem listEndsFair : Fair keep listEnds := by
  refine .read peekFair fun next => ?_
  split <;> exact .pure rfl

theorem lastLabelFair : Fair keep lastLabel := by
  refine .seq nameFair (.seq (anyMark _) (.read listEndsFair fun _ => ?_))
  exact .ite (.pure rfl) .failure

theorem valueNextFair : Fair keep valueNext := by
  refine .read peekSecondFair fun next => ?_
  split <;> exact .pure rfl

theorem guardNextFair : Fair keep guardNext := by
  have shown (ts : List Token) : guardNext ts =
      some (decide ((ts.map Token.kind).take 3 =
        [.mark .dot, .mark .lparen, .word .type]), ts) := by
    unfold guardNext
    split
    · rfl
    · rename_i other
      rw [decide_eq_false]
      match ts with
      | ⟨_, _, _, _, _⟩ :: ⟨_, _, _, _, _⟩ :: ⟨_, _, _, _, _⟩ :: rest =>
        intro kinds
        simp only [List.map_cons, List.take_succ_cons, List.take_zero, List.cons.injEq] at kinds
        obtain ⟨rfl, rfl, rfl, -⟩ := kinds
        exact other _ _ _ _ _ _ _ _ _ _ _ _ _ rfl
      | [] => simp
      | [_] => simp
      | [_, _] => simp
  have kinds {ts us : List Token} (like : Like keep ts us) :
      ts.map Token.kind = us.map Token.kind := by
    induction like with
    | nil => rfl
    | cons kind newline noted rest ih => exact congrArg₂ List.cons kind ih
  intro ts us like
  rw [shown, shown, kinds like]
  exact .some ⟨rfl, 0, rfl, rfl⟩

section
variable {g : Grammar} (fair : g.Fair keep)
include fair

theorem statementsFair (n : Nat) : Fair keep (statements g n) := by
  induction n with
  | zero => exact .failure
  | succ n ih =>
    refine .read listEndsFair fun _ => .ite (.pure rfl) ?_
    refine .bind (.orElse lastLabelFair fair.stmt) fun _ _ first => .read listEndsFair fun _ => ?_
    refine .ite (.pure (congrArg (fun s => [s]) first)) (.seq terminatorFair ?_)
    exact .bind ih fun _ _ more => .pure (congrArg₂ List.cons first more)

theorem blockFair : Fair keep (block g) := by
  refine .bind (anyMark _) fun opening opening' _ =>
    .bind (statementsFair fair _) fun _ _ same => ?_
  refine .bind (anyMark _) fun closing closing' _ => .pure ?_
  simp_all [fade, fadeBody, fadeStmtsMap]

theorem elementValueFair {p : Parser (List Element)} (literal : Fair keep p) :
    Fair keep (elementValue g p) := by
  refine .read (nextIsFair _) fun _ => .ite ?_ (fair.expr _)
  exact .bind literal fun _ _ same => .pure (fadeComposite rfl same)

theorem elementFair {p : Parser (List Element)} (literal : Fair keep p) :
    Fair keep (element g p) := by
  have value := elementValueFair fair literal
  refine .bind value fun _ _ first => .read (skipFair _ _) fun _ => .ite ?_ ?_
  · exact .bind value fun _ _ same => .pure (congrArg Element.keyed same)
  · exact .pure (congrArg Element.plain first)

theorem literalValueFair (n : Nat) : Fair keep (literalValue g n) := by
  induction n with
  | zero => exact .failure
  | succ n ih =>
    refine .seq (anyMark _) (.read (skipFair _ _) fun _ => .ite (.pure rfl) ?_)
    refine .read (skipFair _ _) fun _ => .ite (.seq (anyMark _) (.pure rfl)) ?_
    refine .bind (commaListAlike (elementFair fair ih) _ _ _) fun _ _ same => ?_
    exact .seq (anyMark _) (.pure same)

theorem argumentFair : Fair keep (argument g) := by
  refine .bind (fair.expr _) fun _ _ value => .read (skipFair _ _) fun _ => .pure ?_
  exact congrArg₂ Prod.mk value rfl

theorem argumentsFair : Fair keep (arguments g) := by
  refine .seq (anyMark _) (.read (skipFair _ _) fun _ => .ite (.pure rfl) ?_)
  refine .bind (commaListAlike (argumentFair fair) _ _ _) fun _ _ same => ?_
  exact .seq (anyMark _) (.pure same)

theorem typedArgumentsFair : Fair keep (typedArguments g) := by
  have rest (more more' : List Expr) (same : fade keep more = fade keep more') :
      Alike keep (do let _ ← mark .rparen; return Expr.other :: more)
        (do let _ ← mark .rparen; return Expr.other :: more') :=
    .seq (anyMark _) (.pure (congrArg (List.cons Expr.other) same))
  refine .seq (anyMark _) (.read (skipFair _ _) fun _ => .ite (.pure rfl) (.seq (fair.type _) ?_))
  refine .read (skipFair _ _) fun _ => .ite (.read (nextIsFair _) fun _ => .ite ?_ ?_) ?_
  · exact rest [] [] rfl
  · exact .bind (commaListAlike (fair.expr _) _ _ _) rest
  · exact rest [] [] rfl

theorem subscriptFair : Fair keep (subscript g) := by
  have rest : Fair keep (do
      if ← skip false .colon then
        if ← skip false .rbrack then return ()
        else
          let _ ← g.expr .inside
          if ← skip false .colon then
            let _ ← g.expr .inside
            let _ ← mark .rbrack
          else
            let _ ← mark .rbrack
      else
        let _ ← mark .rbrack) := by
    have closed : Fair keep (do let _ ← mark .rbrack) := .seq (anyMark _) (.pure rfl)
    refine .read (skipFair _ _) fun _ => .ite (.read (skipFair _ _) fun _ => ?_) closed
    refine .ite (.pure rfl) (.seq (fair.expr _) (.read (skipFair _ _) fun _ => ?_))
    exact .ite (.seq (fair.expr _) closed) closed
  exact .read (nextIsFair _) fun _ => .ite rest (.seq (fair.expr _) rest)

theorem convertedFair : Fair keep (do
    if converts (← arguments g) then return Operand.of .other else failure) := by
  refine .bind (argumentsFair fair) fun list list' same => ?_
  rw [convertsSame same]
  exact .ite (.pure rfl) .failure

theorem typedOperandFair (elements : Bool) : Fair keep (typedOperand g elements) := by
  refine .bind (fair.type _) fun _ _ type => .read (nextIsFair _) fun _ => ?_
  refine .ite (convertedFair fair) ?_
  refine .ite (.bind (literalValueFair fair _) fun _ _ same => .pure ?_) .failure
  exact congrArg (Operand.mk · none) (fadeComposite (congrArg some type) same)

theorem countedLiteralFair : Fair keep (countedLiteral g) := by
  refine .seq (anyMark _) (.seq (anyMark _) (.seq (anyMark _) (.seq (fair.type _) ?_)))
  refine .bind (literalValueFair fair _) fun _ _ same => .pure ?_
  exact congrArg (Operand.mk · none) (fadeComposite rfl same)

theorem parenthesizedFair : Fair keep (parenthesized g) := by
  refine .orElse ?_ ?_
  · exact .seq (anyMark _) (.seq (fair.expr _) (.seq (anyMark _) (.pure rfl)))
  · exact .seq (anyMark _) (.seq (fair.type _) (.seq (anyMark _) (convertedFair fair)))

theorem functionLiteralFair : Fair keep (functionLiteral g) := by
  refine .seq (anyWord _) (.seq (parametersFair fair) (.seq (resultFair fair _) ?_))
  refine .bind (blockFair fair) fun _ _ same => .pure ?_
  exact congrArg (fun b : Body => Operand.mk (.funcLit b.statements) none) same

theorem operandStartFair (p : Place) : Fair keep (operandStart g p) := by
  refine .read peekFair fun next => ?_
  split
  · refine .seq nameFair (.ite (.pure rfl) (.ite ?_ (.pure rfl)))
    refine .read (peekHereFair _) fun _ => .ite ?_ (.pure rfl)
    refine .bind (typedArgumentsFair fair) fun _ _ same => .pure ?_
    exact congrArg (Operand.mk · none) (fadeCall rfl same)
  · exact .seq (takeFair _) (.pure rfl)
  · exact .seq (takeFair _) (.pure rfl)
  · exact parenthesizedFair fair
  · exact functionLiteralFair fair
  · exact .orElse (countedLiteralFair fair) (typedOperandFair fair _)
  · exact typedOperandFair fair _
  · exact typedOperandFair fair _
  · exact typedOperandFair fair _
  · exact typedOperandFair fair _
  · exact .failure

section
variable {o o' : Operand} (same : fade keep o = fade keep o')
include same

omit fair in
theorem operandExpr : fade keep o.expr = fade keep o'.expr := congrArg Operand.expr same

omit fair in
theorem operandType : fade keep o.type = fade keep o'.type := congrArg Operand.type same

omit fair in
theorem calledSame {list list' : List (Expr × Bool)} (more : fade keep list = fade keep list') :
    fade keep (Operand.of (.call o.expr (list.map argumentExpr))) =
      fade keep (Operand.of (.call o'.expr (list'.map argumentExpr))) := by
  refine congrArg (Operand.mk · none) (fadeCall (operandExpr same) ?_)
  rw [argumentsFade, argumentsFade, more]

theorem instantiatedAlike (p : Place) : Alike keep (instantiated g p o) (instantiated g p o') := by
  have types := operandType same
  refine .read (peekHereFair _) fun next => ?_
  split
  · refine .bind (argumentsFair fair) fun list list' more => ?_
    have typed : o.type.isSome = o'.type.isSome := by
      simpa [fade] using congrArg Option.isSome types
    rw [convertsSame more, typed]
    exact .ite (.pure rfl) (.pure (calledSame same more))
  · revert types
    generalize o.type = type
    generalize o'.type = type'
    intro types
    match type, type', p.literals with
    | some _, some _, true =>
      refine .bind (literalValueFair fair _) fun _ _ more => .pure ?_
      have generic := congrArg (some ∘ TypeExpr.generic) (Option.some.inj types)
      exact congrArg (Operand.mk · none) (fadeComposite generic more)
    | some _, some _, false => exact .pure rfl
    | none, none, _ => exact .pure rfl
  · exact .pure rfl

theorem bracketedAlike (p : Place) : Alike keep (bracketed g p o) (bracketed g p o') := by
  have rest (types : Option Unit) : Alike keep
      (if types.isSome then instantiated g p o
        else do let _ ← mark .lbrack; subscript g; return .of .other)
      (if types.isSome then instantiated g p o'
        else do let _ ← mark .lbrack; subscript g; return .of .other) := by
    refine .ite (instantiatedAlike fair same p) ?_
    exact .seq (anyMark _) (.seq (subscriptFair fair) (.pure rfl))
  refine .read valueNextFair fun _ => .ite (rest none) ?_
  exact .read (optionalAlike (typeArgumentsFair fair)) rest

theorem dottedAlike : Alike keep (dotted g o) (dotted g o') := by
  refine .seq (anyMark _) (.read (skipFair _ _) fun _ => .ite ?_ (.read nameFair fun field => ?_))
  · exact .seq (fair.type _) (.seq (anyMark _) (.pure rfl))
  · refine .pure ?_
    rw [selectedFade, selectedFade, same]

end

theorem operandRestAlike (p : Place) (n : Nat) {o o' : Operand}
    (same : fade keep o = fade keep o') :
    Alike keep (operandRest g p n o) (operandRest g p n o') := by
  induction n generalizing o o' with
  | zero => exact .failure
  | succ n ih =>
    have ended : Alike keep (pure o.expr : Parser Expr) (pure o'.expr) := .pure (operandExpr same)
    refine .read (peekHereFair _) fun next => ?_
    split
    · refine .read guardNextFair fun _ => .ite ended ?_
      exact .bind (dottedAlike fair same) fun _ _ more => ih more
    · exact .bind (argumentsFair fair) fun _ _ more => ih (calledSame same more)
    · exact .bind (bracketedAlike fair same p) fun _ _ more => ih more
    · have types := operandType same
      revert types
      generalize o.type = type
      generalize o'.type = type'
      intro types
      match type, type', p.literals with
      | some _, some _, true =>
        refine .bind (literalValueFair fair _) fun _ _ more => ih ?_
        exact congrArg (Operand.mk · none) (fadeComposite types more)
      | some _, some _, false => exact ended
      | none, none, _ => exact ended
    · exact ended

theorem unaryExprFair (p : Place) (n : Nat) : Fair keep (unaryExpr g p n) := by
  induction n with
  | zero => exact .failure
  | succ n ih =>
    refine .read peekFair fun _ => .ite (.seq anyTokenFair ?_) ?_
    · exact .bind ih fun _ _ same => .pure (congrArg Expr.unary same)
    · exact .bind (operandStartFair fair p) fun _ _ same => operandRestAlike fair p _ same

theorem joinedFair (p : Place) (n : Nat) : Fair keep (joined g p n) := by
  induction n with
  | zero => exact .failure
  | succ n ih =>
    refine .read (peekHereFair _) fun _ => .ite (.seq anyTokenFair ?_) (.pure rfl)
    exact .seq (unaryExprFair fair p _) (.seq ih (.pure rfl))

theorem exprStepFair (p : Place) : Fair keep (exprStep g p) := by
  refine .bind (unaryExprFair fair p _) fun _ _ first => .read (joinedFair fair p _) fun _ => ?_
  exact .ite (.pure rfl) (.pure first)

end

end Uncalled.Source
