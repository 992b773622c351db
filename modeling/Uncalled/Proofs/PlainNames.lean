import Uncalled.Proofs.Binding
/-! Calls by a plain name. Of the names that a walk records, those without a dot are known exactly
from the syntax: they are the callees of the calls that are visited. -/
namespace Uncalled
open Source (Expr Stmt)

theorem namedVisited (hs : Helpers) (body : List Stmt) (name : String) :
    .named name ∈ blockEvents hs body ↔
      ∃ depth args, Visited body (.call depth (.ident name) args) := by
  constructor
  · intro member
    rcases eventOrigin member with ⟨other, depth, args, same, visited⟩ | method | bound
    · cases same
      exact ⟨depth, args, visited⟩
    · obtain ⟨receiver, method, _, _, same, _⟩ := method
      cases same
    · obtain ⟨x, t, s, same, _⟩ := bound
      cases same
  · intro ⟨depth, args, visited⟩
    exact (blockEventsTraced ..).mpr ⟨_, visited, List.mem_singleton.mpr rfl⟩

def DotFree (name : String) : Prop := '.' ∉ name.toList

instance (name : String) : Decidable (DotFree name) := by unfold DotFree; infer_instance

theorem methodDotted (type method : String) : ¬ DotFree (type ++ "." ++ method) := by
  simp [DotFree, String.toList_append]

theorem recordedNamed (hs : Helpers) (s : Scope) (events : List Event) {name : String}
    (free : DotFree name) : name ∈ recorded hs s events ↔
      hs.contains name = false ∧ .named name ∈ events := by
  rw [recordedAt]
  constructor
  · intro ⟨before, e, rest, split, records⟩
    subst split
    cases e with
    | named other =>
      obtain ⟨helper, rfl⟩ := (namedName ..).mp records
      exact ⟨helper, by simp⟩
    | method receiver method =>
      obtain ⟨type, _, rfl⟩ := Option.map_eq_some_iff.mp records
      exact absurd free (methodDotted type method)
    | bound x t => cases records
  · intro ⟨helper, member⟩
    obtain ⟨before, rest, rfl⟩ := List.append_of_mem member
    exact ⟨before, _, rest, rfl, (namedName ..).mpr ⟨helper, rfl⟩⟩

theorem bareNamesExact (hs : Helpers) (scope : Scope) (files : List Source.File) (name : String) :
    (name ∈ (walkFiles hs scope files).called ∧ DotFree name) ↔
      DotFree name ∧ (name = "init" ∨ hs.contains name = false ∧ ∃ body depth args,
        Walked hs files body ∧ Visited body (.call depth (.ident name) args)) := by
  rw [and_comm]
  refine and_congr_right fun free => ?_
  rw [walkFilesCalled]
  refine or_congr Iff.rfl ?_
  constructor
  · intro ⟨body, walked, records⟩
    obtain ⟨helper, member⟩ := (recordedNamed hs _ _ free).mp records
    obtain ⟨depth, args, visited⟩ := (namedVisited ..).mp member
    exact ⟨helper, body, depth, args, walked, visited⟩
  · intro ⟨helper, body, depth, args, walked, visited⟩
    refine ⟨body, walked, (recordedNamed hs _ _ free).mpr ⟨helper, ?_⟩⟩
    exact (namedVisited ..).mpr ⟨depth, args, visited⟩

/- The other branch and the argument of a call set apart are not visited. -/
example : (walkFiles .empty (.ofPackage [])
    [[.function ⟨.origin, "TestPour", none, none, some ⟨.origin, .origin,
    [.branch [.eval (.call (.ident "Pour") [.call (.ident "Open") []])]
        [.eval (.call (.ident "Spill") [])],
      .detached (.call (.ident "Close") [.call (.ident "Wait") []])]⟩⟩]]).called.filter
      (fun name => DotFree name) = ["Close", "Pour", "Open", "init"] := by decide

end Uncalled
