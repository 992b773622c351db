/-! Entries in the order of their keys, one for each key. A later entry takes the place of an
earlier one with its key. -/
namespace Uncalled

@[ext] structure Catalogue {α : Type} (key : α → String) where
  entries : List α
  sorted : entries.Pairwise fun x y => key x < key y
  deriving DecidableEq

abbrev Names := Catalogue fun name : String => name

namespace Catalogue

variable {α : Type} {key : α → String}

instance : Membership α (Catalogue key) := ⟨fun c x => x ∈ c.entries⟩

instance [DecidableEq α] (x : α) (c : Catalogue key) : Decidable (x ∈ c) :=
  inferInstanceAs (Decidable (x ∈ c.entries))

def empty : Catalogue key := ⟨[], .nil⟩

def place (key : α → String) (x : α) : List α → List α
  | [] => [x]
  | y :: ys =>
    if key x < key y then x :: y :: ys
    else if key x = key y then x :: ys
    else y :: place key x ys

theorem placeMember {x z : α} {ys : List α} (member : z ∈ place key x ys) : z = x ∨ z ∈ ys := by
  fun_induction place key x ys with
  | case1 => exact .inl (List.mem_singleton.mp member)
  | case2 y ys smaller => exact List.mem_cons.mp member
  | case3 y ys notSmaller same => exact (List.mem_cons.mp member).imp_right (List.mem_cons_of_mem y)
  | case4 y ys notSmaller different ih =>
    rcases List.mem_cons.mp member with rfl | later
    · exact .inr List.mem_cons_self
    · exact (ih later).imp_right (List.mem_cons_of_mem y)

theorem placeSorted (x : α) {ys : List α} (sorted : ys.Pairwise fun x y => key x < key y) :
    (place key x ys).Pairwise fun x y => key x < key y := by
  fun_induction place key x ys with
  | case1 => exact List.pairwise_singleton ..
  | case2 y ys smaller =>
    have least := (List.pairwise_cons.mp sorted).1
    refine List.pairwise_cons.mpr ⟨fun z inside => ?_, sorted⟩
    rcases List.mem_cons.mp inside with rfl | later
    · exact smaller
    · exact String.lt_trans smaller (least z later)
  | case3 y ys notSmaller same =>
    obtain ⟨least, rest⟩ := List.pairwise_cons.mp sorted
    exact List.pairwise_cons.mpr ⟨fun z inside => same ▸ least z inside, rest⟩
  | case4 y ys notSmaller different ih =>
    obtain ⟨least, rest⟩ := List.pairwise_cons.mp sorted
    have above : key y < key x := String.not_le.mp fun below =>
      different (String.le_antisymm below (String.not_lt.mp notSmaller))
    refine List.pairwise_cons.mpr ⟨fun z inside => ?_, ih rest⟩
    rcases placeMember inside with rfl | later
    · exact above
    · exact least z later

def insert (c : Catalogue key) (x : α) : Catalogue key :=
  ⟨place key x c.entries, placeSorted x c.sorted⟩

def ofList (key : α → String) (xs : List α) : Catalogue key := xs.foldl insert empty

def get? (c : Catalogue key) (k : String) : Option α := c.entries.find? fun x => key x = k

def filter (p : α → Bool) (c : Catalogue key) : Catalogue key :=
  ⟨c.entries.filter p, c.sorted.filter p⟩

def keys (c : Catalogue key) : Names := ⟨c.entries.map key, List.pairwise_map.mpr c.sorted⟩

def names (xs : List String) : Names := ofList (fun name => name) xs

end Catalogue
end Uncalled
