import Uncalled.Source.Syntax
/-! Syntax trees can be compared, so statements about them can be evaluated. The trees nest through
lists, so each kind of list is compared along with what it holds. -/
namespace Uncalled.Source

mutual

def sameExpr : Expr → Expr → Bool
  | .ident a, .ident b => a == b
  | .selector e a, .selector f b => sameExpr e f && a == b
  | .call e as, .call f bs => sameExpr e f && sameExprs as bs
  | .funcLit ss, .funcLit ts => sameStmts ss ts
  | .unary e, .unary f => sameExpr e f
  | .composite t es, .composite u fs => t == u && sameElements es fs
  | .other, .other => true
  | _, _ => false

def sameExprs : List Expr → List Expr → Bool
  | [], [] => true
  | e :: es, f :: fs => sameExpr e f && sameExprs es fs
  | _, _ => false

def sameElement : Element → Element → Bool
  | .plain e, .plain f => sameExpr e f
  | .keyed e, .keyed f => sameExpr e f
  | _, _ => false

def sameElements : List Element → List Element → Bool
  | [], [] => true
  | e :: es, f :: fs => sameElement e f && sameElements es fs
  | _, _ => false

def sameSpec : VarSpec → VarSpec → Bool
  | .mk ns t es, .mk ms u fs => ns == ms && t == u && sameExprs es fs

def sameSpecs : List VarSpec → List VarSpec → Bool
  | [], [] => true
  | e :: es, f :: fs => sameSpec e f && sameSpecs es fs
  | _, _ => false

def sameStmt : Stmt → Stmt → Bool
  | .assign ls rs, .assign ms ts => sameExprs ls ms && sameExprs rs ts
  | .vars ss, .vars ts => sameSpecs ss ts
  | .eval e, .eval f => sameExpr e f
  | .detached e, .detached f => sameExpr e f
  | .returns es, .returns fs => sameExprs es fs
  | .send e, .send f => sameExpr e f
  | .loop ss, .loop ts => sameStmts ss ts
  | .branch ss rs, .branch ts us => sameStmts ss ts && sameStmts rs us
  | .cases bs, .cases cs => sameBlocks bs cs
  | .other, .other => true
  | _, _ => false

def sameStmts : List Stmt → List Stmt → Bool
  | [], [] => true
  | s :: ss, t :: ts => sameStmt s t && sameStmts ss ts
  | _, _ => false

def sameBlocks : List (List Stmt) → List (List Stmt) → Bool
  | [], [] => true
  | b :: bs, c :: cs => sameStmts b c && sameBlocks bs cs
  | _, _ => false

end

mutual

theorem sameExprIff (a b : Expr) : sameExpr a b = true ↔ a = b := by
  cases a <;> cases b <;> simp [sameExpr, sameExprIff, sameExprsIff, sameStmtsIff, sameElementsIff]
termination_by structural a

theorem sameExprsIff (as bs : List Expr) : sameExprs as bs = true ↔ as = bs := by
  cases as <;> cases bs <;> simp [sameExprs, sameExprIff, sameExprsIff]
termination_by structural as

theorem sameElementIff (a b : Element) : sameElement a b = true ↔ a = b := by
  cases a <;> cases b <;> simp [sameElement, sameExprIff]
termination_by structural a

theorem sameElementsIff (as bs : List Element) : sameElements as bs = true ↔ as = bs := by
  cases as <;> cases bs <;> simp [sameElements, sameElementIff, sameElementsIff]
termination_by structural as

theorem sameSpecIff (a b : VarSpec) : sameSpec a b = true ↔ a = b := by
  cases a
  cases b
  simp [sameSpec, sameExprsIff, and_assoc]
termination_by structural a

theorem sameSpecsIff (as bs : List VarSpec) : sameSpecs as bs = true ↔ as = bs := by
  cases as <;> cases bs <;> simp [sameSpecs, sameSpecIff, sameSpecsIff]
termination_by structural as

theorem sameStmtIff (a b : Stmt) : sameStmt a b = true ↔ a = b := by
  cases a <;> cases b <;>
    simp [sameStmt, sameExprIff, sameExprsIff, sameSpecsIff, sameStmtsIff, sameBlocksIff]
termination_by structural a

theorem sameStmtsIff (as bs : List Stmt) : sameStmts as bs = true ↔ as = bs := by
  cases as <;> cases bs <;> simp [sameStmts, sameStmtIff, sameStmtsIff]
termination_by structural as

theorem sameBlocksIff (as bs : List (List Stmt)) : sameBlocks as bs = true ↔ as = bs := by
  cases as <;> cases bs <;> simp [sameBlocks, sameStmtsIff, sameBlocksIff]
termination_by structural as

end

instance : DecidableEq Stmt := fun a b => decidable_of_iff _ (sameStmtIff a b)

instance : DecidableEq VarSpec := fun a b => decidable_of_iff _ (sameSpecIff a b)

instance : DecidableEq Body := fun a b =>
  decidable_of_iff (a.start = b.start ∧ a.stop = b.stop ∧ a.statements = b.statements)
    (by cases a; cases b; simp)

instance : DecidableEq Function := fun a b =>
  decidable_of_iff (a.start = b.start ∧ a.name = b.name ∧ a.receiver = b.receiver ∧
    a.result = b.result ∧ a.body = b.body) (by cases a; cases b; simp)

def sameItem : Item → Item → Bool
  | .function f, .function g => decide (f = g)
  | .vars ss, .vars ts => decide (ss = ts)
  | .other, .other => true
  | _, _ => false

theorem sameItemIff (a b : Item) : sameItem a b = true ↔ a = b := by
  cases a <;> cases b <;> simp [sameItem]

instance : DecidableEq Item := fun a b => decidable_of_iff _ (sameItemIff a b)

end Uncalled.Source
