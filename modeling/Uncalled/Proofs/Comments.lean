import Uncalled.Proofs.AlikeFiles
import Uncalled.Proofs.TokenEnds
/-! Comments between tokens. A comment put into a gap of a source leaves the tokens before it as
they are and moves those after it; the one right after the comment also remembers it. So the new
source is read as the old one, up to what fades. Only the name of a method can tell the difference,
where the comment comes right after a star. -/
namespace Uncalled.Source
open Text (Bytes)

theorem blockGrows {u : Bytes} {w : Nat} (v : Bytes) (read : blockComment u = some w) :
    blockComment (u ++ v) = some w := by
  fun_induction blockComment u generalizing w with
  | case1 => cases read
  | case2 => cases read
  | case3 a b rest closed =>
    rw [List.cons_append, List.cons_append, blockComment, if_pos closed]
    exact read
  | case4 a b rest unclosed ih =>
    obtain ⟨n, inner, rfl⟩ := Option.map_eq_some_iff.mp read
    rw [List.cons_append, List.cons_append, blockComment, if_neg unclosed, ← List.cons_append,
      ih inner]
    rfl

theorem blockSplit {bs : Bytes} {w : Nat} (read : blockComment bs = some w) :
    ∃ body more, bs = body ++ more ∧ w = body.length ∧ blockComment body = some body.length := by
  fun_induction blockComment bs generalizing w with
  | case1 => cases read
  | case2 => cases read
  | case3 a b rest closed =>
    cases read
    exact ⟨[a, b], rest, rfl, rfl, by rw [blockComment, if_pos closed]; rfl⟩
  | case4 a b rest unclosed ih =>
    obtain ⟨n, inner, rfl⟩ := Option.map_eq_some_iff.mp read
    obtain ⟨body, more, whole, rfl, alone⟩ := ih inner
    cases body with
    | nil => cases alone
    | cons c body =>
      obtain ⟨rfl, rfl⟩ := List.cons.inj whole
      exact ⟨a :: b :: body, more, rfl, rfl, by rw [blockComment, if_neg unclosed, alone]; rfl⟩

theorem blockWritten {inner : Bytes} (unclosed : ¬ [byte '*', byte '/'] <:+: inner) :
    blockComment (inner ++ [byte '*', byte '/']) = some (inner.length + 2) := by
  induction inner with
  | nil => rfl
  | cons a inner ih =>
    have rest := ih fun inside => unclosed (inside.trans (List.suffix_cons a inner).isInfix)
    cases inner with
    | nil =>
      rw [List.singleton_append, blockComment, if_neg fun closed => absurd closed.2 (by decide)]
      rfl
    | cons b inner =>
      have goesOn : ¬ (a = byte '*' ∧ b = byte '/') := by
        rintro ⟨rfl, rfl⟩
        exact unclosed ⟨[], inner, rfl⟩
      rw [List.cons_append] at rest
      rw [List.cons_append, List.cons_append, blockComment, if_neg goesOn, rest]
      rfl

theorem lineRead {body more : Bytes} (unbroken : byte '\n' ∉ body)
    (ended : more = [] ∨ more.head? = some (byte '\n')) :
    comment? (byte '/' :: byte '/' :: (body ++ more)) = some (2 + body.length) := by
  have line : (body ++ more).takeWhile (· ≠ byte '\n') = body := by
    have inside : ∀ b ∈ body, decide (b ≠ byte '\n') = true := fun b member =>
      decide_eq_true fun same => unbroken (same ▸ member)
    rw [List.takeWhile_append_of_pos inside]
    cases more with
    | nil => simp
    | cons b more =>
      obtain rfl : b = byte '\n' := by simpa using ended
      simp
  rw [comment?, if_neg (by decide), if_pos rfl, line]

theorem blockRead {body : Bytes} (closed : blockComment body = some body.length) (more : Bytes) :
    comment? (byte '/' :: byte '*' :: (body ++ more)) = some (2 + body.length) := by
  rw [comment?, if_neg (by decide), if_neg (by decide), if_pos rfl, blockGrows more closed]
  rfl

theorem commentCases {bs : Bytes} {w : Nat} (read : comment? bs = some w) :
    ∃ body more, w = 2 + body.length ∧
      ((bs = byte '/' :: byte '/' :: (body ++ more) ∧ byte '\n' ∉ body ∧
          (more = [] ∨ more.head? = some (byte '\n'))) ∨
        (bs = byte '/' :: byte '*' :: (body ++ more) ∧ blockComment body = some body.length)) := by
  unfold comment? at read
  split at read
  · next a b rest =>
    split_ifs at read with first line block
    · cases read
      refine ⟨rest.takeWhile (· ≠ byte '\n'), rest.dropWhile (· ≠ byte '\n'), rfl, .inl ?_⟩
      refine ⟨?_, ?_, ?_⟩
      · rw [not_ne_iff.mp first, line, List.takeWhile_append_dropWhile]
      · intro member
        have inside := List.all_eq_true.mp List.all_takeWhile _ member
        simp at inside
      · have stopped := List.head?_dropWhile_not (· ≠ byte '\n') rest
        revert stopped
        cases rest.dropWhile (· ≠ byte '\n') with
        | nil => exact fun _ => .inl rfl
        | cons b more => exact fun stopped => .inr (by simpa using stopped)
    · obtain ⟨n, closed, rfl⟩ := Option.map_eq_some_iff.mp read
      obtain ⟨body, more, rfl, rfl, alone⟩ := blockSplit closed
      refine ⟨body, more, rfl, .inr ⟨?_, alone⟩⟩
      rw [not_ne_iff.mp first, block]
  · cases read

def lexed (p : Point) (newline comment : Bool) (bs : Bytes) : Option (List Token) :=
  tokensFrom bs.length p newline comment bs

theorem commentWidth {bs : Bytes} {w : Nat} (read : comment? bs = some w) :
    0 < w ∧ w ≤ bs.length := by
  obtain ⟨body, more, rfl, ⟨rfl, -⟩ | ⟨rfl, -⟩⟩ := commentCases read
  all_goals
    simp only [List.length_cons, List.length_append]
    omega

theorem dropShorter {b : UInt8} {bs : Bytes} {w : Nat} (positive : 0 < w) :
    ((b :: bs).drop w).length ≤ bs.length := by
  rw [List.length_drop, List.length_cons]
  omega

theorem tokensEnough {m n : Nat} {p : Point} {newline comment : Bool} {bs : Bytes}
    (left : bs.length ≤ m) (right : bs.length ≤ n) :
    tokensFrom m p newline comment bs = tokensFrom n p newline comment bs := by
  induction m generalizing n p newline comment bs with
  | zero =>
    obtain rfl := List.eq_nil_of_length_eq_zero (Nat.le_zero.mp left)
    cases n <;> rfl
  | succ m ih =>
    cases bs with
    | nil => cases n <;> rfl
    | cons b bs =>
      cases n with
      | zero => cases right
      | succ n =>
        rw [List.length_cons] at left right
        rw [tokensFrom, tokensFrom]
        split
        · exact ih (by omega) (by omega)
        · cases remark : comment? (b :: bs) with
          | some w =>
            have rest := @dropShorter b bs w (commentWidth remark).1
            exact ih (by omega) (by omega)
          | none =>
            rw [@lexemeEnough (m + 1) (n + 1) b bs (by omega) (by omega)]
            cases read : lexeme? (n + 1) b bs with
            | none => rfl
            | some found =>
              have rest := @dropShorter b bs found.2 (lexemeWidth read).1
              dsimp only
              rw [@ih n _ _ _ _ (by omega) (by omega)]

theorem lexedBlank {b : UInt8} (blank : isBlank b = true) (p : Point) (newline comment : Bool)
    (bs : Bytes) : lexed p newline comment (b :: bs) =
      lexed (p.next b) (newline || b = byte '\n') comment bs := by
  rw [lexed, List.length_cons, tokensFrom, if_pos blank, lexed]

theorem lexedComment {bs : Bytes} {w : Nat} (remark : comment? bs = some w) (p : Point)
    (newline comment : Bool) :
    lexed p newline comment bs = lexed (p.after (bs.take w)) newline true (bs.drop w) := by
  cases bs with
  | nil => cases remark
  | cons b bs =>
    have dark : ¬ isBlank b = true := by
      obtain ⟨_, _, _, ⟨same, _⟩ | ⟨same, _⟩⟩ := commentCases remark
      all_goals
        rw [(List.cons.inj same).1]
        decide
    rw [lexed, List.length_cons, tokensFrom, if_neg dark, remark]
    exact tokensEnough (dropShorter (commentWidth remark).1) (Nat.le_refl _)

theorem lexedLine {body more : Bytes} (unbroken : byte '\n' ∉ body)
    (ended : more = [] ∨ more.head? = some (byte '\n')) (p : Point) (newline comment : Bool) :
    lexed p newline comment (byte '/' :: byte '/' :: (body ++ more)) =
      lexed (p.after (byte '/' :: byte '/' :: body)) newline true more := by
  rw [lexedComment (lineRead unbroken ended), Nat.add_comm 2, List.drop_succ_cons,
    List.drop_succ_cons, List.drop_left, List.take_succ_cons, List.take_succ_cons, List.take_left]

theorem lexedBlock {body : Bytes} (closed : blockComment body = some body.length) (more : Bytes)
    (p : Point) (newline comment : Bool) :
    lexed p newline comment (byte '/' :: byte '*' :: (body ++ more)) =
      lexed (p.after (byte '/' :: byte '*' :: body)) newline true more := by
  rw [lexedComment (blockRead closed more), Nat.add_comm 2, List.drop_succ_cons,
    List.drop_succ_cons, List.drop_left, List.take_succ_cons, List.take_succ_cons, List.take_left]

theorem lexedToken {b : UInt8} {bs : Bytes} {k : Lexeme} {w : Nat} (dark : isBlank b = false)
    (plain : comment? (b :: bs) = none) (read : lexeme? (bs.length + 1) b bs = some (k, w))
    (p : Point) (newline comment : Bool) : lexed p newline comment (b :: bs) =
      (lexed (p.after ((b :: bs).take w)) false false ((b :: bs).drop w)).map
        (⟨k, p, p.after ((b :: bs).take w), newline, comment⟩ :: ·) := by
  rw [lexed, List.length_cons, tokensFrom, if_neg (by simp [dark]), plain, read]
  dsimp only
  rw [lexed, tokensEnough (dropShorter (lexemeWidth read).1) (Nat.le_refl _)]

/- Alike, and where `same` holds also in the comment before the first token. -/
def Kept (keep : Bool) (same : Prop) (ts us : List Token) : Prop :=
  Like keep ts us ∧ (same → ts.head?.any Token.comment = us.head?.any Token.comment)

theorem keptLess {keep : Bool} {p q : Prop} {x y : Option (List Token)} (less : q → p)
    (kept : Option.Rel (Kept keep p) x y) : Option.Rel (Kept keep q) x y := by
  cases kept with
  | none => exact .none
  | some both => exact .some ⟨both.1, fun same => both.2 (less same)⟩

theorem keptLike {keep : Bool} {p : Prop} {x y : Option (List Token)}
    (kept : Option.Rel (Kept keep p) x y) : Option.Rel (Like keep) x y := by
  cases kept with
  | none => exact .none
  | some both => exact .some both.1

theorem keptCons {keep : Bool} {p q : Prop} {x y : Option (List Token)} {t u : Token}
    (kind : t.kind = u.kind) (newline : t.newline = u.newline) (same : q → t.comment = u.comment)
    (noted : keep = true → t.kind = .mark .star → p) (kept : Option.Rel (Kept keep p) x y) :
    Option.Rel (Kept keep q) (x.map (t :: ·)) (y.map (u :: ·)) := by
  cases kept with
  | none => exact .none
  | some both =>
    exact .some ⟨.cons kind newline (fun kept star => both.2 (noted kept star)) both.1, same⟩

/- Where a text begins and what stands before it leave a trace only in the first token. -/
theorem tokensShift (keep : Bool) (n : Nat) (p p' : Point) (newline comment comment' : Bool)
    (bs : Bytes) : Option.Rel (Kept keep (comment = comment'))
      (tokensFrom n p newline comment bs) (tokensFrom n p' newline comment' bs) := by
  induction n generalizing p p' newline comment comment' bs with
  | zero =>
    cases bs with
    | nil => exact .some ⟨.nil, fun _ => rfl⟩
    | cons b bs => exact .none
  | succ n ih =>
    cases bs with
    | nil => exact .some ⟨.nil, fun _ => rfl⟩
    | cons b bs =>
      rw [tokensFrom, tokensFrom]
      split
      · exact ih ..
      · split
        · exact keptLess (fun _ => rfl) (ih ..)
        · split
          · exact .none
          · exact keptCons rfl rfl id (fun _ _ => rfl) (ih ..)

def beginsComment (bs : Bytes) : Bool := startsWith ['/', '/'] bs || startsWith ['/', '*'] bs

/- Reading from the first text on one comes to the second, over blanks, comments and the tokens in
the list. A `/*` that nothing closes is no token of the language, though the scanner makes two of
it. -/
inductive Reaches : Bytes → List Lexeme → Bytes → Prop
  | here (bs : Bytes) : Reaches bs [] bs
  | blank {b : UInt8} {bs rest : Bytes} {ks : List Lexeme} (blank : isBlank b = true)
      (more : Reaches bs ks rest) : Reaches (b :: bs) ks rest
  | comment {bs rest : Bytes} {ks : List Lexeme} {w : Nat} (remark : comment? bs = some w)
      (more : Reaches (bs.drop w) ks rest) : Reaches bs ks rest
  | token {b : UInt8} {bs rest : Bytes} {k : Lexeme} {ks : List Lexeme} {w : Nat}
      (dark : isBlank b = false) (plain : beginsComment (b :: bs) = false)
      (read : lexeme? (bs.length + 1) b bs = some (k, w))
      (more : Reaches ((b :: bs).drop w) ks rest) : Reaches (b :: bs) (k :: ks) rest

theorem beginsNone {bs : Bytes} (plain : beginsComment bs = false) : comment? bs = none := by
  cases remark : comment? bs with
  | none => rfl
  | some w =>
    obtain ⟨_, _, _, ⟨rfl, _⟩ | ⟨rfl, _⟩⟩ := commentCases remark <;> cases plain

theorem beginsSlash {bs : Bytes} (begun : beginsComment bs = true) : byte '/' ∈ bs := by
  rcases Bool.or_eq_true_iff.mp begun with line | block
  · exact ((startsIff _ _).mp line).subset List.mem_cons_self
  · exact ((startsIff _ _).mp block).subset List.mem_cons_self

theorem beginsKept {u v : Bytes} (more : Bytes) (plain : beginsComment (u ++ v) = false) :
    beginsComment (u ++ 0x20 :: more) = false := by
  have kept {cs : List Char} (dark : 0x20 ∉ cs.map byte) (other : startsWith cs (u ++ v) = false) :
      startsWith cs (u ++ 0x20 :: more) = false := by
    rw [← Bool.not_eq_true] at *
    exact fun cut => other (startsGrows v (startsStops dark cut))
  obtain ⟨line, block⟩ := Bool.or_eq_false_iff.mp plain
  exact Bool.or_eq_false_iff.mpr ⟨kept (by decide) line, kept (by decide) block⟩

theorem reachesSuffix {bs rest : Bytes} {ks : List Lexeme} (reached : Reaches bs ks rest) :
    rest <:+ bs := by
  induction reached with
  | here bs => exact List.suffix_rfl
  | blank _ _ ih => exact ih.trans (List.suffix_cons ..)
  | comment _ _ ih => exact ih.trans (List.drop_suffix ..)
  | token _ _ _ _ ih => exact ih.trans (List.drop_suffix ..)

def CommentsClosed (bs : Bytes) : Prop :=
  ∀ ks rest, Reaches bs ks rest → beginsComment rest = true → comment? rest ≠ none

theorem reachesToken {n : Nat} {p : Point} {newline comment : Bool} {bs : Bytes}
    {ts us : List Token} {t : Token}
    (read : tokensFrom n p newline comment bs = some (ts ++ t :: us))
    (enough : bs.length ≤ n) (closed : CommentsClosed bs) :
    ∃ i, t.start.offset = p.offset + i ∧ Reaches bs (ts.map Token.kind) (bs.drop i) := by
  induction n generalizing p newline comment bs ts with
  | zero =>
    obtain rfl := List.eq_nil_of_length_eq_zero (Nat.le_zero.mp enough)
    cases ts <;> cases read
  | succ n ih =>
    cases bs with
    | nil => cases ts <;> cases read
    | cons b bs =>
      rw [tokensFrom] at read
      rw [List.length_cons] at enough
      split at read
      · next blank =>
        obtain ⟨i, place, reached⟩ := ih read (by omega) fun ks rest more =>
          closed ks rest (.blank blank more)
        rw [Point.nextOffset] at place
        exact ⟨i + 1, by omega, .blank blank reached⟩
      · next dark =>
        split at read
        · next w remark =>
          have shorter := @dropShorter b bs w (commentWidth remark).1
          obtain ⟨i, place, reached⟩ := ih read (by omega) fun ks rest more =>
            closed ks rest (.comment remark more)
          rw [List.drop_drop] at reached
          rw [Point.afterTake p (commentWidth remark).2] at place
          exact ⟨w + i, by omega, .comment remark reached⟩
        · next noComment =>
          have plain : beginsComment (b :: bs) = false :=
            Bool.eq_false_iff.mpr fun begun => closed [] _ (.here _) begun noComment
          split at read
          · cases read
          · next k w found =>
            have shorter := @dropShorter b bs w (lexemeWidth found).1
            rw [lexemeEnough (by omega) (Nat.lt_succ_self _)] at found
            obtain ⟨later, more, same⟩ := Option.map_eq_some_iff.mp read
            cases ts with
            | nil =>
              cases same
              exact ⟨0, rfl, .here _⟩
            | cons t ts =>
              cases same
              obtain ⟨i, place, reached⟩ := ih more (by omega) fun ks rest more =>
                closed (k :: ks) rest (.token (by simpa using dark) plain found more)
              rw [List.drop_drop] at reached
              rw [Point.afterTake p (lexemeWidth found).2] at place
              exact ⟨w + i, by omega, .token (by simpa using dark) plain found reached⟩

/- A token that ends before the gap, or right at it, is read again. -/
theorem tokenKept {b : UInt8} {u v : Bytes} {k : Lexeme} {w : Nat} (more : Bytes)
    (read : lexeme? ((u ++ v).length + 1) b (u ++ v) = some (k, w)) (fits : w ≤ u.length + 1) :
    lexeme? ((u ++ 0x20 :: (more ++ v)).length + 1) b (u ++ 0x20 :: (more ++ v)) = some (k, w) := by
  have enough : (u ++ v).length < (u ++ 0x20 :: (more ++ v)).length + 1 := by
    simp only [List.length_append, List.length_cons]
    omega
  exact lexemeKept _ ((lexemeEnough enough (Nat.lt_succ_self _)).trans read) fits

theorem tokenTaken {b : UInt8} {bs : Bytes} {k : Lexeme} {w : Nat}
    (read : lexeme? (bs.length + 1) b bs = some (k, w)) :
    ∃ taken, bs = taken ++ (b :: bs).drop w ∧ w = taken.length + 1 := by
  obtain ⟨positive, within⟩ := lexemeWidth read
  cases w with
  | zero => cases positive
  | succ w =>
    refine ⟨bs.take w, (List.take_append_drop w bs).symm, ?_⟩
    rw [List.length_take_of_le (Nat.le_of_succ_le_succ within)]

def IsBlockComment (c : Bytes) : Prop :=
  ∃ inner, c = byte '/' :: byte '*' :: (inner ++ [byte '*', byte '/']) ∧
    ¬ [byte '*', byte '/'] <:+: inner ∧ byte '\n' ∉ inner

def spaced (c : Bytes) : Bytes := 0x20 :: (c ++ [0x20])

section
variable {c : Bytes} (remark : IsBlockComment c)
include remark

theorem spacedUnbroken : byte '\n' ∉ spaced c := by
  obtain ⟨inner, rfl, -, unbroken⟩ := remark
  have marks : byte '\n' ∉ [0x20, byte '/', byte '*'] := by decide
  simp_all [spaced]

theorem remarkRead (more : Bytes) : comment? (c ++ more) = some c.length := by
  obtain ⟨inner, rfl, unclosed, -⟩ := remark
  have closed : blockComment (inner ++ [byte '*', byte '/']) =
      some (inner ++ [byte '*', byte '/']).length := by
    rw [blockWritten unclosed, List.length_append]
    rfl
  exact (blockRead closed more).trans (congrArg some (Nat.add_comm ..))

theorem lexedSpaced (p : Point) (newline comment : Bool) (rest : Bytes) :
    lexed p newline comment (spaced c ++ rest) = lexed (p.after (spaced c)) newline true rest := by
  have blank : isBlank 0x20 = true := by decide
  have same : (newline || decide ((0x20 : UInt8) = byte '\n')) = newline := by
    rw [show decide ((0x20 : UInt8) = byte '\n') = false by decide, Bool.or_false]
  have points : p.after (spaced c) = ((p.next 0x20).after c).next 0x20 :=
    Point.afterAppend (p.next 0x20) c [0x20]
  rw [points, spaced, List.cons_append, lexedBlank blank, same, List.append_assoc,
    lexedComment (remarkRead remark _), List.take_left, List.drop_left, List.singleton_append,
    lexedBlank blank, same]

/- By what is read up to the gap. Blanks and tokens before it stay as they are. So does a comment,
unless it runs to the end of a line and the gap is there: then it takes in the new one. -/
theorem insertedLike {keep : Bool} {bs rest : Bytes} {ks : List Lexeme}
    (reached : Reaches bs ks rest)
    (last : keep = true → ks.getLast? ≠ some (.mark .star)) :
    ∃ front, bs = front ++ rest ∧ ∀ p p' newline comment comment',
      Option.Rel (Kept keep (ks ≠ [] ∧ comment = comment')) (lexed p newline comment bs)
        (lexed p' newline comment' (front ++ (spaced c ++ rest))) := by
  induction reached with
  | here bs =>
    refine ⟨[], rfl, fun p p' newline comment comment' => ?_⟩
    rw [List.nil_append, lexedSpaced remark]
    exact keptLess (fun filled => absurd rfl filled.1) (tokensShift ..)
  | @blank b bs rest ks blank more ih =>
    obtain ⟨front, rfl, same⟩ := ih last
    refine ⟨b :: front, rfl, fun p p' newline comment comment' => ?_⟩
    rw [lexedBlank blank, List.cons_append, lexedBlank blank]
    exact same ..
  | @comment bs rest ks w found more ih =>
    obtain ⟨front, split, same⟩ := ih last
    simp only [split] at same
    obtain ⟨body, behind, rfl, ⟨rfl, unbroken, ended⟩ | ⟨rfl, closed⟩⟩ := commentCases found
    · obtain rfl : behind = front ++ rest := by simpa [Nat.add_comm] using split
      refine ⟨byte '/' :: byte '/' :: (body ++ front), by simp, fun _ _ newline _ _ => ?_⟩
      rw [lexedLine unbroken ended, List.cons_append, List.cons_append, List.append_assoc]
      cases front with
      | nil =>
        have longer : byte '\n' ∉ body ++ spaced c := by simp [unbroken, spacedUnbroken remark]
        rw [List.nil_append] at ended ⊢
        rw [List.nil_append, ← List.append_assoc, lexedLine longer ended]
        exact keptLess (fun _ => rfl) (tokensShift ..)
      | cons b front =>
        rw [lexedLine unbroken (by simpa using ended)]
        exact keptLess (fun kept => ⟨kept.1, rfl⟩) (same _ _ _ true true)
    · obtain rfl : behind = front ++ rest := by simpa [Nat.add_comm] using split
      refine ⟨byte '/' :: byte '*' :: (body ++ front), by simp, fun _ _ newline _ _ => ?_⟩
      rw [lexedBlock closed, List.cons_append, List.cons_append, List.append_assoc,
        lexedBlock closed]
      exact keptLess (fun kept => ⟨kept.1, rfl⟩) (same _ _ _ true true)
  | @token b bs rest k ks w dark plain read more ih =>
    have earlier : keep = true → ks.getLast? ≠ some (.mark .star) := by
      intro kept
      cases ks with
      | nil => nofun
      | cons k' ks => simpa using last kept
    obtain ⟨front, split, same⟩ := ih earlier
    obtain ⟨taken, whole, rfl⟩ := tokenTaken read
    simp only [split] at same
    obtain rfl : bs = taken ++ front ++ rest := by rw [List.append_assoc, ← split, ← whole]
    refine ⟨b :: (taken ++ front), rfl, fun p p' newline comment comment' => ?_⟩
    have again : lexeme? ((taken ++ front ++ (spaced c ++ rest)).length + 1) b
        (taken ++ front ++ (spaced c ++ rest)) = some (k, taken.length + 1) :=
      tokenKept (c ++ [0x20]) read (by simp)
    have still : beginsComment (b :: (taken ++ front ++ (spaced c ++ rest))) = false :=
      @beginsKept (b :: (taken ++ front)) rest _ plain
    rw [lexedToken dark (beginsNone plain) read, List.cons_append,
      lexedToken dark (beginsNone still) again, List.drop_succ_cons, List.drop_succ_cons,
      List.append_assoc, List.append_assoc, List.drop_left, List.drop_left]
    refine keptCons rfl rfl And.right (fun kept star => ⟨?_, rfl⟩) (same _ _ _ false false)
    rintro rfl
    exact last kept (congrArg some star)

end

/- A place of a source that lies in no token and in no comment, with the tokens before it. -/
structure IsGap (src : Bytes) (i : Nat) (before : List Lexeme) : Prop where
  begun : markWidth src ≤ i
  reached : Reaches (src.drop (markWidth src)) before (src.drop i)

theorem markWithin (src : Bytes) : markWidth src ≤ src.length := by
  unfold markWidth
  split
  · next marked => exact (List.isPrefixOf_iff_prefix.mp marked).length_le
  · exact Nat.zero_le _

theorem gapAtToken {src : Bytes} {ts us : List Token} {t : Token}
    (read : tokens? src = some (ts ++ t :: us))
    (closed : CommentsClosed (src.drop (markWidth src))) :
    IsGap src t.start.offset (ts.map Token.kind) := by
  obtain ⟨i, place, reached⟩ := reachesToken read (by simp) closed
  rw [Point.afterTake .origin (markWithin src), show Point.origin.offset = 0 from rfl,
    Nat.zero_add] at place
  rw [List.drop_drop, ← place] at reached
  exact ⟨by omega, reached⟩

def insertComment (c : Bytes) (i : Nat) (src : Bytes) : Bytes :=
  src.take i ++ (spaced c ++ src.drop i)

theorem markInserted {src : Bytes} {i : Nat} (c : Bytes) (begun : markWidth src ≤ i) :
    markWidth (insertComment c i src) = markWidth src := by
  have marked : [0xef, 0xbb, 0xbf].isPrefixOf (insertComment c i src) ↔
      [0xef, 0xbb, 0xbf].isPrefixOf src := by
    constructor
    · intro inserted
      rw [List.isPrefixOf_iff_prefix] at inserted ⊢
      have first : [0xef, 0xbb, 0xbf] <+: src.take i := prefixStops (by decide) inserted
      exact first.trans (List.take_prefix i src)
    · intro marked
      rw [markWidth, if_pos marked] at begun
      rw [List.isPrefixOf_iff_prefix] at marked ⊢
      have first : [0xef, 0xbb, 0xbf] <+: src.take i := by
        rw [List.prefix_take_iff]
        exact ⟨marked, begun⟩
      exact first.trans (List.prefix_append _ _)
  simp only [markWidth, marked]

theorem tokensLexed (src : Bytes) :
    tokens? src = lexed (Point.origin.after (src.take (markWidth src))) false false
      (src.drop (markWidth src)) :=
  tokensEnough (by simp) (Nat.le_refl _)

theorem tokensInserted {keep : Bool} {c src : Bytes} {i : Nat} {before : List Lexeme}
    (remark : IsBlockComment c) (gap : IsGap src i before)
    (last : keep = true → before.getLast? ≠ some (.mark .star)) :
    Option.Rel (Like keep) (tokens? src) (tokens? (insertComment c i src)) := by
  obtain ⟨front, split, same⟩ := insertedLike remark gap.reached last
  have taken : src.take i = src.take (markWidth src) ++ front := by
    apply List.append_cancel_right
    rw [List.take_append_drop i, List.append_assoc, ← split, List.take_append_drop]
  have dropped : (insertComment c i src).drop (markWidth src) =
      front ++ (spaced c ++ src.drop i) := by
    rw [insertComment, taken, List.append_assoc]
    exact List.drop_left' (List.length_take_of_le (markWithin src))
  rw [tokensLexed, tokensLexed, markInserted c gap.begun, dropped]
  exact keptLike (same ..)

theorem parseInserted {keep : Bool} {c src : Bytes} {i : Nat} {before : List Lexeme} {file : File}
    (remark : IsBlockComment c) (gap : IsGap src i before)
    (last : keep = true → before.getLast? ≠ some (.mark .star)) (parsed : parse? src = some file) :
    ∃ file', parse? (insertComment c i src) = some file' ∧
      fadeFile keep file = fadeFile keep file' := by
  have alike := parseAlike (tokensInserted remark gap last)
  rw [parsed] at alike
  cases again : parse? (insertComment c i src) with
  | none =>
    rw [again] at alike
    cases alike
  | some file' =>
    rw [again] at alike
    cases alike with
    | some same => exact ⟨file', rfl, same⟩

end Uncalled.Source

namespace Uncalled
open Source (IsBlockComment IsGap insertComment)

def Declaration.plainName (f : Source.Function) : String :=
  qualifiedName (fadeFunction false f)

/- A comment in a gap leaves helpers, bindings and calls as they are, whatever other files there are.
A method can lose its type's name, but only to a comment after the star of its receiver. -/
theorem commentsInvisible {c src : Text.Bytes} {i : Nat} {before : List Source.Lexeme}
    {file : Source.File} (remark : IsBlockComment c) (gap : IsGap src i before)
    (parsed : Source.parse? src = some file) :
    ∃ file', Source.parse? (insertComment c i src) = some file' ∧
      (∀ xs ys : List Source.File,
        (∀ testPrefix, Helper.collect testPrefix (xs ++ file' :: ys) =
          Helper.collect testPrefix (xs ++ file :: ys)) ∧
        packageBindings (xs ++ file' :: ys) = packageBindings (xs ++ file :: ys) ∧
        ∀ hs scope,
          walkFiles hs scope (xs ++ file' :: ys) = walkFiles hs scope (xs ++ file :: ys)) ∧
      (Source.functions file').map Declaration.plainName =
        (Source.functions file).map Declaration.plainName ∧
      (before.getLast? ≠ some (.mark .star) →
        (Source.functions file').map Declaration.qualifiedName =
          (Source.functions file).map Declaration.qualifiedName) ∧
      List.Forall₂ (fun f' f => Declaration.receiverRemarked f' = Declaration.receiverRemarked f →
          Declaration.qualifiedName f' = Declaration.qualifiedName f)
        (Source.functions file') (Source.functions file) := by
  obtain ⟨file', again, same⟩ := @Source.parseInserted false _ _ _ _ _ remark gap nofun parsed
  have files (xs ys : List Source.File) :
      (xs ++ file' :: ys).map (fadeFile false) = (xs ++ file :: ys).map (fadeFile false) := by
    rw [List.map_append, List.map_append, List.map_cons, List.map_cons, same]
  have functions := congrArg Source.functions same
  rw [functionsFade, functionsFade] at functions
  refine ⟨file', again, fun xs ys => ⟨fun testPrefix => ?_, ?_, fun hs scope => ?_⟩, ?_,
    fun last => ?_, ?_⟩
  · rw [← helpersFade false, files, helpersFade]
  · rw [← packageBindingsFade false, files, packageBindingsFade]
  · rw [← walkFilesFade false, files, walkFilesFade]
  · have named := congrArg (List.map Declaration.qualifiedName) functions
    rw [List.map_map, List.map_map] at named
    exact named.symm
  · obtain ⟨_, parsedAgain, kept⟩ :=
      @Source.parseInserted true _ _ _ _ _ remark gap (fun _ => last) parsed
    cases again.symm.trans parsedAgain
    have functions := congrArg Source.functions kept
    rw [functionsFade, functionsFade] at functions
    simpa [Function.comp_def, qualifiedNameKept] using
      (congrArg (List.map Declaration.qualifiedName) functions).symm
  · have pairs : List.Forall₂ (fun f' f => fadeFunction false f' = fadeFunction false f)
        (Source.functions file') (Source.functions file) := by
      rw [← List.forall₂_eq_eq_eq, List.forall₂_map_left_iff,
        List.forall₂_map_right_iff] at functions
      exact functions.flip.imp fun _ _ => Eq.symm
    exact pairs.imp fun _ _ => Declaration.fadedNames

def jugSource : Text.Bytes := Text.encode "func (j *Jug) Pour(c *Cup) \x7b\x7d"

def jugRemark : Text.Bytes := Text.encode "/* half full */"

theorem jugRemarked : IsBlockComment jugRemark :=
  ⟨Text.encode " half full ", by decide +kernel, by decide +kernel, by decide +kernel⟩

def lineTokens (shown : List (Source.Lexeme × Nat × Nat)) : List Source.Token :=
  shown.map fun (kind, start, stop) => ⟨kind, ⟨start, 0, start⟩, ⟨stop, 0, stop⟩, false, false⟩

def receiverLexemes : List Source.Lexeme := [.word .func, .mark .lparen, .name "j", .mark .star]

def parameterLexemes : List Source.Lexeme :=
  receiverLexemes ++ [.name "Jug", .mark .rparen, .name "Pour", .mark .lparen,
    .name "c", .mark .star]

theorem jugGaps : IsGap jugSource 9 receiverLexemes ∧ IsGap jugSource 22 parameterLexemes := by
  have closed : Source.CommentsClosed (jugSource.drop (Source.markWidth jugSource)) := by
    intro ks rest reached begun
    have inside := (Source.reachesSuffix reached).subset (Source.beginsSlash begun)
    exact absurd inside (by decide +kernel)
  have tokens : Source.tokens? jugSource = some
      (lineTokens [(.word .func, 0, 4), (.mark .lparen, 5, 6), (.name "j", 6, 7),
        (.mark .star, 8, 9), (.name "Jug", 9, 12), (.mark .rparen, 12, 13), (.name "Pour", 14, 18),
        (.mark .lparen, 18, 19), (.name "c", 19, 20), (.mark .star, 21, 22), (.name "Cup", 22, 25),
        (.mark .rparen, 25, 26), (.mark .lbrace, 27, 28), (.mark .rbrace, 28, 29)]) := by
    decide +kernel
  exact ⟨@Source.gapAtToken _ [_, _, _, _] _ _ tokens closed,
    @Source.gapAtToken _ [_, _, _, _, _, _, _, _, _, _] _ _ tokens closed⟩

/- After the star of a parameter the comment changes nothing. -/
theorem parameterRemarkInvisible : IsBlockComment jugRemark ∧ IsGap jugSource 22 parameterLexemes ∧
    ∃ file', Source.parse? (insertComment jugRemark 22 jugSource) = some file' ∧
      (Source.functions file').map Declaration.qualifiedName = ["Jug.Pour"] := by
  have shown : (Source.parse? jugSource).map (fun file => (Source.functions file).map fun f =>
      (Declaration.qualifiedName f, Declaration.receiverRemarked f)) =
        some [("Jug.Pour", false)] := by decide +kernel
  have noted : (Source.parse? (insertComment jugRemark 22 jugSource)).map (fun file =>
      (Source.functions file).map Declaration.receiverRemarked) = some [false] := by decide +kernel
  obtain ⟨file, parsed, shown⟩ := Option.map_eq_some_iff.mp shown
  obtain ⟨file', again, -, -, -, pairs⟩ := commentsInvisible jugRemarked jugGaps.2 parsed
  rw [again, Option.map_some, Option.some.injEq] at noted
  obtain ⟨f, functions, same⟩ := List.map_eq_singleton_iff.mp shown
  obtain ⟨f', functions', plain'⟩ := List.map_eq_singleton_iff.mp noted
  obtain ⟨name, plain⟩ := Prod.mk.inj same
  rw [functions, functions', List.forall₂_cons] at pairs
  refine ⟨jugRemarked, jugGaps.2, file', again, ?_⟩
  rw [functions', List.map_singleton, pairs.1 (plain'.trans plain.symm), name]

/- After the star of the receiver the same comment takes the type from the name of the method. -/
theorem receiverRemarkHidesType : IsGap jugSource 9 receiverLexemes ∧
    (Source.parse? jugSource).map (fun file =>
      (Source.functions file).map Declaration.qualifiedName) = some ["Jug.Pour"] ∧
    (Source.parse? (insertComment jugRemark 9 jugSource)).map (fun file =>
      (Source.functions file).map Declaration.qualifiedName) = some ["Pour"] :=
  ⟨jugGaps.1, by decide +kernel, by decide +kernel⟩

end Uncalled
