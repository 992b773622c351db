import Uncalled.Catalogue
import Uncalled.Declaration
/-! What an analysis finds, and the gap it leaves: the declared functions that no test calls, file
by file, with a score in percent. -/
namespace Uncalled

structure Report where
  details : Catalogue Declaration.name
  declared : Names
  called : Names
  deriving DecidableEq

namespace Report

def empty : Report := ⟨.empty, .empty, .empty⟩

def find? (r : Report) (name : String) : Option Declaration :=
  r.details.get? name

def missing (r : Report) : List Declaration :=
  (r.declared.entries.filter fun name => !r.called.entries.contains name).filterMap r.find?

end Report

def listedBefore (a b : Declaration) : Bool :=
  a.file < b.file ||
    (a.file = b.file &&
      (a.start.line < b.start.line ||
        (a.start.line = b.start.line && a.start.offset ≤ b.start.offset)))

def byFile : List Declaration → List (String × List Declaration)
  | [] => []
  | d :: ds =>
    match byFile ds with
    | [] => [(d.file, [d])]
    | (file, group) :: rest =>
      if file = d.file then (file, d :: group) :: rest
      else (d.file, [d]) :: (file, group) :: rest

structure Gap where
  declaredCount : Nat
  calledCount : Nat
  score : Nat
  details : List (String × List Declaration)
  longestName : Nat
  deriving DecidableEq, Repr

namespace Gap

def ofReport? (r : Report) : Option Gap :=
  if r.declared.entries.isEmpty then none
  else
    let missing := r.missing.mergeSort listedBefore
    some
      { declaredCount := r.declared.entries.length
        calledCount := r.called.entries.length
        score := 100 * r.called.entries.length / r.declared.entries.length
        details := byFile missing
        longestName := (missing.map fun d => d.name.length).foldl max 0 }

def isComplete (g : Gap) : Bool := g.details.isEmpty

def missingCount (g : Gap) : Nat := (g.details.flatMap (·.2)).length

end Gap
end Uncalled
