import Uncalled.Source.Grammar.Types
import Uncalled.Proofs.Faded
/-! Parsers that look at comments in one place only. Two lists of tokens are alike if they have the
same kinds and the same line breaks; with `keep`, they also have comments after the same stars. On
such lists a parser fails twice or gives twice the same, up to what has faded, after as many tokens
of the one as of the other, so that the lists it leaves are alike again. The rules for the pieces of
a parser come first, then one statement for each parser, shaped as the parser is. -/
namespace Uncalled.Source

variable {keep : Bool} {α β : Type}

class Fade (α : Type) where
  fade : Bool → α → α

export Fade (fade)

instance : Fade Unit := ⟨fun _ => id⟩
instance : Fade Bool := ⟨fun _ => id⟩
instance : Fade String := ⟨fun _ => id⟩
instance : Fade Lexeme := ⟨fun _ => id⟩
instance : Fade Token := ⟨fun _ t => ⟨t.kind, .origin, .origin, t.newline, false⟩⟩
instance : Fade TypeExpr := ⟨fadeType⟩
instance : Fade Expr := ⟨fadeExpr⟩
instance : Fade Element := ⟨fadeElement⟩
instance : Fade VarSpec := ⟨fadeSpec⟩
instance : Fade Stmt := ⟨fadeStmt⟩
instance : Fade Parameter := ⟨fadeParameter⟩
instance : Fade Result := ⟨fadeResult⟩
instance : Fade Body := ⟨fadeBody⟩
instance : Fade Function := ⟨fadeFunction⟩
instance : Fade Item := ⟨fadeItem⟩
instance [Fade α] : Fade (List α) := ⟨fun keep => List.map (fade keep)⟩
instance [Fade α] : Fade (Option α) := ⟨fun keep => Option.map (fade keep)⟩
instance [Fade α] [Fade β] : Fade (α × β) := ⟨fun keep => Prod.map (fade keep) (fade keep)⟩

class Plain (α : Type) [Fade α] : Prop where
  whole : ∀ keep (x : α), fade keep x = x

instance : Plain Unit := ⟨fun _ _ => rfl⟩
instance : Plain Bool := ⟨fun _ _ => rfl⟩
instance : Plain String := ⟨fun _ _ => rfl⟩
instance : Plain Lexeme := ⟨fun _ _ => rfl⟩

instance [Fade α] [Plain α] : Plain (List α) :=
  ⟨fun keep xs => (List.map_congr_left fun x _ => Plain.whole keep x).trans (List.map_id xs)⟩

instance [Fade α] [Plain α] : Plain (Option α) :=
  ⟨fun keep x => (Option.map_congr fun x _ => Plain.whole keep x).trans (congrFun Option.map_id x)⟩

theorem Plain.same [Fade α] [Plain α] {x y : α} (same : fade keep x = fade keep y) : x = y := by
  rw [← Plain.whole keep x, same, Plain.whole keep y]

inductive Like (keep : Bool) : List Token → List Token → Prop
  | nil : Like keep [] []
  | cons {t u : Token} {ts us : List Token} (kind : t.kind = u.kind)
      (newline : t.newline = u.newline)
      (noted : keep = true → t.kind = .mark .star →
        ts.head?.any Token.comment = us.head?.any Token.comment)
      (rest : Like keep ts us) : Like keep (t :: ts) (u :: us)

theorem Like.drop {ts us : List Token} (like : Like keep ts us) (n : Nat) :
    Like keep (ts.drop n) (us.drop n) := by
  induction like generalizing n with
  | nil => rw [List.drop_nil]; exact .nil
  | cons kind newline noted rest ih =>
    cases n with
    | zero => exact .cons kind newline noted rest
    | succ n => exact ih n

/- Two values read from tokens: the same up to what has faded, and read from as many of them. -/
def Even (keep : Bool) [Fade α] (ts us : List Token) (x y : α × List Token) : Prop :=
  fade keep x.1 = fade keep y.1 ∧ ∃ n, x.2 = ts.drop n ∧ y.2 = us.drop n

def Alike (keep : Bool) [Fade α] (p q : Parser α) : Prop :=
  ∀ ts us, Like keep ts us → Option.Rel (Even keep ts us) (p ts) (q us)

abbrev Fair (keep : Bool) [Fade α] (p : Parser α) : Prop := Alike keep p p

structure Grammar.Fair (keep : Bool) (g : Grammar) : Prop where
  type : ∀ breaks, Source.Fair keep (g.type breaks)
  expr : ∀ p, Source.Fair keep (g.expr p)
  stmt : Source.Fair keep g.stmt

namespace Alike

section
variable [Fade α] [Fade β] {p q : Parser α}

theorem pure {x y : α} (same : fade keep x = fade keep y) :
    Alike keep (Pure.pure x : Parser α) (Pure.pure y) :=
  fun _ _ _ => .some ⟨same, 0, rfl, rfl⟩

theorem failure : Alike keep (failure : Parser α) failure := fun _ _ _ => .none

theorem bind {next next' : α → Parser β} (first : Alike keep p q)
    (rest : ∀ x y, fade keep x = fade keep y → Alike keep (next x) (next' y)) :
    Alike keep (p >>= next) (q >>= next') := by
  intro ts us like
  have ended := first ts us like
  change Option.Rel _ ((p ts).bind fun x => next x.1 x.2) ((q us).bind fun x => next' x.1 x.2)
  revert ended
  generalize p ts = x
  generalize q us = y
  rintro (@⟨⟨x, _⟩, ⟨y, _⟩, same, n, rfl, rfl⟩ | _)
  · have further := rest x y same _ _ (like.drop n)
    revert further
    dsimp only [Option.bind]
    generalize next x (ts.drop n) = z
    generalize next' y (us.drop n) = z'
    rintro (⟨same, m, left, left'⟩ | _)
    · exact .some ⟨same, n + m, by rw [left, List.drop_drop], by rw [left', List.drop_drop]⟩
    · exact .none
  · exact .none

theorem seq {next next' : Parser β} (first : Alike keep p q) (rest : Alike keep next next') :
    Alike keep (p >>= fun _ => next) (q >>= fun _ => next') :=
  bind first fun _ _ _ => rest

theorem read [Plain α] {next next' : α → Parser β} (first : Alike keep p q)
    (rest : ∀ x, Alike keep (next x) (next' x)) : Alike keep (p >>= next) (q >>= next') :=
  bind first fun x _ same => Plain.same same ▸ rest x

theorem orElse {r s : Parser α} (first : Alike keep p q) (second : Alike keep r s) :
    Alike keep (p <|> r) (q <|> s) := by
  intro ts us like
  have ended := first ts us like
  change Option.Rel _ ((p ts).orElse fun _ => r ts) ((q us).orElse fun _ => s us)
  revert ended
  generalize p ts = x
  generalize q us = y
  rintro (ended | _)
  · exact .some ended
  · exact second ts us like

theorem ite {c : Prop} [Decidable c] {r s : Parser α} (yes : Alike keep p q) (no : Alike keep r s) :
    Alike keep (if c then p else r) (if c then q else s) := by
  split
  · exact yes
  · exact no

theorem map {f f' : α → β} (first : Alike keep p q)
    (same : ∀ x y, fade keep x = fade keep y → fade keep (f x) = fade keep (f' y)) :
    Alike keep (f <$> p) (f' <$> q) := by
  intro ts us like
  have ended := first ts us like
  change Option.Rel _ ((p ts).bind fun x => some (f x.1, x.2))
    ((q us).bind fun x => some (f' x.1, x.2))
  revert ended
  generalize p ts = x
  generalize q us = y
  rintro (⟨values, left⟩ | _)
  · exact .some ⟨same _ _ values, left⟩
  · exact .none

end

end Alike

theorem Like.refl (ts : List Token) : Like keep ts ts := by
  induction ts with
  | nil => exact .nil
  | cons t ts ih => exact .cons rfl rfl (fun _ _ => rfl) ih

theorem Fair.suffix [Fade α] {p : Parser α} (fair : Fair keep p) {ts rest : List Token} {x : α}
    (ran : p ts = some (x, rest)) : rest <:+ ts := by
  have ended := fair ts ts (.refl ts)
  rw [ran] at ended
  cases ended with
  | some even =>
    obtain ⟨-, n, rfl, -⟩ := even
    exact List.drop_suffix n ts

theorem likeHead {ts us : List Token} (like : Like keep ts us) :
    ts.head?.map Token.kind = us.head?.map Token.kind := by
  cases like with
  | nil => rfl
  | cons kind => exact congrArg some kind

theorem peekFair : Fair keep peek :=
  fun _ _ like => .some ⟨congrArg _ (likeHead like), 0, rfl, rfl⟩

theorem peekHereFair (breaks : Bool) : Fair keep (peekHere breaks) := by
  intro ts us like
  cases like with
  | nil => exact .some ⟨rfl, 0, rfl, rfl⟩
  | cons kind newline noted rest =>
    refine .some ⟨?_, 0, rfl, rfl⟩
    rw [kind, newline]

theorem peekSecondFair : Fair keep peekSecond := by
  intro ts us like
  refine .some ⟨?_, 0, rfl, rfl⟩
  cases like with
  | nil => rfl
  | cons kind newline noted rest => exact congrArg _ (likeHead rest)

theorem takeFair (kind : Lexeme) : Fair keep (take kind) := by
  intro ts us like
  cases like with
  | nil => exact .none
  | @cons t u ts us same newline noted rest =>
    simp only [take, same]
    split
    · refine .some ⟨?_, 1, rfl, rfl⟩
      simp [fade, same, newline]
    · exact .none

theorem anyMark (m : Mark) : Fair keep (mark m) := takeFair _

theorem anyWord (k : Keyword) : Fair keep (word k) := takeFair _

theorem nameFair : Fair keep name := by
  intro ts us like
  cases like with
  | nil => exact .none
  | @cons t u ts us same newline noted rest =>
    obtain ⟨kind, start, stop, breaks, comment⟩ := t
    obtain ⟨kind', start', stop', breaks', comment'⟩ := u
    obtain rfl : kind = kind' := same
    cases kind with
    | name n => exact .some ⟨rfl, 1, rfl, rfl⟩
    | _ => exact .none

theorem nameOrWordFair : Fair keep nameOrWord := by
  intro ts us like
  cases like with
  | nil => exact .none
  | @cons t u ts us same newline noted rest =>
    obtain ⟨kind, start, stop, breaks, comment⟩ := t
    obtain ⟨kind', start', stop', breaks', comment'⟩ := u
    obtain rfl : kind = kind' := same
    cases kind with
    | name n => exact .some ⟨rfl, 1, rfl, rfl⟩
    | word k => exact .some ⟨rfl, 1, rfl, rfl⟩
    | _ => exact .none

theorem terminatorFair : Fair keep terminator := by
  intro ts us like
  cases like with
  | nil => exact .some ⟨rfl, 0, rfl, rfl⟩
  | @cons t u ts us same newline noted rest =>
    simp only [terminator, same, newline]
    split
    · exact .some ⟨rfl, 1, rfl, rfl⟩
    · split
      · exact .some ⟨rfl, 0, rfl, rfl⟩
      · exact .none

/- The one place where a comment is looked for. Without `keep` what is found there fades, and with
it the two lists have the comment or lack it together. -/
theorem starFair {p : Parser TypeExpr} (target : Fair keep p) : Fair keep (do
    let _ ← mark .star
    let hidden ← commentNext
    return TypeExpr.pointer hidden (← p)) := by
  intro ts us like
  cases like with
  | nil => exact .none
  | @cons t u ts us same newline noted rest =>
    by_cases star : t.kind = .mark .star
    · have pointed : Alike keep
          (do let _ ← mark .star; return TypeExpr.pointer (ts.head?.any Token.comment) (← p))
          (do let _ ← mark .star; return TypeExpr.pointer (us.head?.any Token.comment) (← p)) := by
        refine .seq (anyMark _) (.bind target fun type type' faded => .pure ?_)
        cases keep with
        | false => exact congrArg (TypeExpr.pointer false) faded
        | true =>
          rw [noted rfl star]
          exact congrArg (TypeExpr.pointer _) faded
      have ended := pointed _ _ (.cons same newline noted rest)
      have taken : take (.mark .star) (t :: ts) = some (t, ts) := if_pos star
      have taken' : take (.mark .star) (u :: us) = some (u, us) := if_pos (same ▸ star)
      change Option.Rel _ ((take (.mark .star) (t :: ts)).bind _)
        ((take (.mark .star) (u :: us)).bind _) at ended ⊢
      rw [taken, taken'] at ended ⊢
      exact ended
    · have refused : take (.mark .star) (t :: ts) = none := if_neg star
      have refused' : take (.mark .star) (u :: us) = none := if_neg (same ▸ star)
      change Option.Rel _ ((take (.mark .star) (t :: ts)).bind _)
        ((take (.mark .star) (u :: us)).bind _)
      rw [refused, refused']
      exact .none

theorem nextIsFair (m : Mark) : Fair keep (nextIs m) := .read peekFair fun _ => .pure rfl

theorem skipFair (breaks : Bool) (m : Mark) : Fair keep (skip breaks m) :=
  .read (peekHereFair breaks) fun _ => .ite (.seq (anyMark m) (.pure rfl)) (.pure rfl)

section
variable [Fade α] {p q : Parser α}

theorem optionalAlike (each : Alike keep p q) : Alike keep (optional p) (optional q) :=
  .orElse (.map each fun _ _ same => congrArg some same) (.pure rfl)

theorem commaListAlike (each : Alike keep p q) (breaks : Bool) (close : Option Mark) (n : Nat) :
    Alike keep (commaList p breaks close n) (commaList q breaks close n) := by
  induction n with
  | zero => exact .failure
  | succ n ih =>
    refine .bind each fun x y same => .read (skipFair breaks .comma) fun _ => .ite ?_ ?_
    · refine .read peekFair fun _ => .ite ?_ (.bind ih fun xs ys more => ?_)
      · exact .pure (congrArg (fun z => [z]) same)
      · exact .pure (congrArg₂ List.cons same more)
    · exact .pure (congrArg (fun z => [z]) same)

theorem lineListAlike (each : Alike keep p q) (close : Mark) (n : Nat) :
    Alike keep (lineList p close n) (lineList q close n) := by
  induction n with
  | zero => exact .failure
  | succ n ih =>
    refine .read (skipFair false close) fun _ => .ite (.pure rfl) (.bind each fun x y same => ?_)
    refine .read (skipFair false close) fun _ => .ite (.pure (congrArg (fun z => [z]) same)) ?_
    exact .seq terminatorFair (.bind ih fun xs ys more => .pure (congrArg₂ List.cons same more))

theorem groupAlike (each : Alike keep p q) (close : Mark) (n : Nat) :
    Alike keep (group p close n) (group q close n) := by
  induction n with
  | zero => exact .failure
  | succ n ih =>
    refine .read (skipFair false close) fun _ => .ite (.pure rfl) (.bind each fun x y same => ?_)
    exact .seq terminatorFair (.bind ih fun xs ys more => .pure (congrArg₂ List.cons same more))

end

section
variable {g : Grammar} (fair : g.Fair keep)
include fair

theorem unionFair (n : Nat) : Fair keep (union g n) := by
  induction n with
  | zero => exact .failure
  | succ n ih =>
    exact .seq (fair.type false) (.read (skipFair _ _) fun _ => .ite ih (.pure rfl))

theorem typeArgumentsFair : Fair keep (typeArguments g) :=
  .seq (anyMark _) (.seq (commaListAlike (unionFair fair _) _ _ _) (.seq (anyMark _) (.pure rfl)))

theorem typeParametersFair : Fair keep (typeParameters g) := by
  have entry : Fair keep (do let _ ← commaList name false none g.bound; union g g.bound) :=
    .seq (commaListAlike nameFair _ _ _) (unionFair fair _)
  exact .seq (anyMark _) (.seq (commaListAlike entry _ _ _) (.seq (anyMark _) (.pure rfl)))

theorem namedTypeFair (breaks : Bool) : Fair keep (namedType g breaks) := by
  have rest (base : TypeExpr) : Fair keep (do
      if (← peekHere breaks) = some (.mark .lbrack) then
        (do typeArguments g; return .generic base) <|> pure base
      else return base) := by
    refine .read (peekHereFair _) fun _ => .ite (.orElse ?_ (.pure rfl)) (.pure rfl)
    exact .seq (typeArgumentsFair fair) (.pure rfl)
  refine .read nameFair fun first => .read (skipFair _ _) fun _ => .ite ?_ ?_
  · exact .read nameFair fun second => rest (.qualified first second)
  · exact rest (.name first)

omit fair in
theorem sharedNamesFair : Fair keep (sharedNames g) := by
  refine .read nameFair fun first => .read (skipFair _ _) fun _ => .ite ?_ (.pure rfl)
  exact .read (commaListAlike nameOrWordFair _ _ _) fun _ => .pure rfl

theorem parameterFair : Fair keep (parameter g) := by
  refine .orElse ?_ (.orElse ?_ ?_)
  · refine .read (sharedNamesFair) fun names => .bind (fair.type _) fun _ _ same => ?_
    exact .read peekFair fun _ => .ite (.pure (congrArg (Parameter.plain names) same)) .failure
  · refine .seq (optionalAlike nameFair) (.seq (anyMark _) (.bind (fair.type _) fun _ _ same => ?_))
    exact .pure (congrArg Parameter.variadic same)
  · exact .bind (fair.type _) fun _ _ same => .pure (congrArg (Parameter.plain []) same)

theorem parametersFair : Fair keep (parameters g) := by
  refine .seq (anyMark _) (.read (skipFair _ _) fun _ => .ite (.pure rfl) ?_)
  exact .bind (commaListAlike (parameterFair fair) _ _ _) fun _ _ same =>
    .seq (anyMark _) (.pure same)

theorem resultFair (breaks : Bool) : Fair keep (result g breaks) := by
  refine .read (peekHereFair _) fun next => ?_
  split
  · exact .pure rfl
  · refine .bind (parametersFair fair) fun _ _ same => .pure ?_
    exact congrArg (some ∘ Result.list) same
  · exact optionalAlike (.bind (fair.type _) fun _ _ same => .pure (congrArg Result.single same))

omit fair in
theorem fieldEndFair : Fair keep field.fieldEnd := by
  intro ts us like
  have ended := terminatorFair ts us like
  rw [field.fieldEnd, field.fieldEnd, likeHead like]
  revert ended
  generalize terminator ts = x
  generalize terminator us = y
  rintro (ended | _)
  · exact .some ⟨rfl, 0, rfl, rfl⟩
  · dsimp only
    split
    · exact .some ⟨rfl, 0, rfl, rfl⟩
    · exact .none

theorem fieldFair : Fair keep (field g) := by
  refine .orElse ?_ ?_
  · refine .seq (commaListAlike nameFair _ _ _) (.read (peekHereFair _) fun _ => .ite ?_ .failure)
    exact .seq (fair.type _) (.seq (optionalAlike (takeFair _)) fieldEndFair)
  · refine .seq (skipFair _ _) (.seq (namedTypeFair fair _) ?_)
    exact .seq (optionalAlike (takeFair _)) fieldEndFair

theorem interfaceElementFair : Fair keep (interfaceElement g) := by
  refine .read peekSecondFair fun _ => .ite (.orElse ?_ (unionFair fair _)) (unionFair fair _)
  exact .seq nameFair (.seq (parametersFair fair) (.seq (resultFair fair _) (.pure rfl)))

theorem arrayLengthFair : Fair keep (arrayLength g) := by
  refine .read (skipFair _ _) fun _ => .ite (.pure rfl) ?_
  exact .seq (fair.expr _) (.seq (anyMark _) (.pure rfl))

theorem typeStepFair (breaks : Bool) : Fair keep (typeStep g breaks) := by
  refine .read peekFair fun next => ?_
  have type := fair.type
  split
  · exact namedTypeFair fair breaks
  · exact starFair (type breaks)
  · exact .seq (anyMark _) (.seq (type _) (.seq (anyMark _) (.pure rfl)))
  · exact .seq (anyMark _) (.seq (arrayLengthFair fair) (.seq (type _) (.pure rfl)))
  · exact .seq (anyMark _) (.seq (type _) (.pure rfl))
  · exact .seq (anyMark _) (.seq (anyWord _) (.seq (type _) (.pure rfl)))
  · exact .seq (anyWord _) (.seq (skipFair _ _) (.seq (type _) (.pure rfl)))
  · refine .seq (anyWord _) (.seq (anyMark _) (.seq (type _) (.seq (anyMark _) ?_)))
    exact .seq (type _) (.pure rfl)
  · refine .seq (anyWord _) (.seq (anyMark _) ?_)
    exact .seq (lineListAlike (fieldFair fair) _ _) (.pure rfl)
  · refine .seq (anyWord _) (.seq (anyMark _) ?_)
    exact .seq (lineListAlike (interfaceElementFair fair) _ _) (.pure rfl)
  · exact .seq (anyWord _) (.seq (parametersFair fair) (.seq (resultFair fair _) (.pure rfl)))
  · exact .failure

end

end Uncalled.Source
