import Uncalled.Catalogue
import Uncalled.Proofs.Lists
/-! A catalogue holds exactly the keys that were put in, and of several entries with one key the
last. Which keys there are does not depend on the rest of the entries. -/
namespace Uncalled.Catalogue

variable {α : Type} {key : α → String}

@[simp] theorem memberIff {x : α} {c : Catalogue key} : x ∈ c ↔ x ∈ c.entries := Iff.rfl

@[simp] theorem keysEntries (c : Catalogue key) : c.keys.entries = c.entries.map key := rfl

@[simp] theorem filterEntries (p : α → Bool) (c : Catalogue key) :
    (c.filter p).entries = c.entries.filter p := rfl

theorem sameMembers {c d : Catalogue key} (members : ∀ x, x ∈ c ↔ x ∈ d) : c = d :=
  Catalogue.ext (sortedSame c.sorted d.sorted members)

theorem placeKeys (x : α) (ys : List α) :
    (place key x ys).map key = place (fun name => name) (key x) (ys.map key) := by
  fun_induction place key x ys with
  | case1 => rfl
  | case2 y ys smaller => simp [place, smaller]
  | case3 y ys notSmaller same => simp [place, same]
  | case4 y ys notSmaller different ih => simp [place, notSmaller, different, ih]

theorem ofListKeys (key : α → String) (xs : List α) :
    (ofList key xs).keys = names (xs.map key) := by
  have general : ∀ c : Catalogue key,
      (xs.foldl insert c).keys = (xs.map key).foldl insert c.keys := by
    induction xs with
    | nil => exact fun c => rfl
    | cons x xs ih =>
      intro c
      have placed : (c.insert x).keys = c.keys.insert (key x) :=
        Catalogue.ext (placeKeys x c.entries)
      rw [List.foldl_cons, ih, List.map_cons, List.foldl_cons, placed]
  exact general empty

theorem placeKept {x : α} {ys : List α} (single : ∀ y ∈ ys, key x = key y → x = y) (z : α) :
    z ∈ place key x ys ↔ z = x ∨ z ∈ ys := by
  fun_induction place key x ys with
  | case1 => simp
  | case2 y ys smaller => exact List.mem_cons
  | case3 y ys notSmaller same =>
    rw [List.mem_cons, List.mem_cons, ← single y List.mem_cons_self same, or_self_left]
  | case4 y ys notSmaller different ih =>
    rw [List.mem_cons, List.mem_cons, ih fun y later => single y (List.mem_cons_of_mem _ later)]
    tauto

theorem ofListMember {xs : List α} (single : ∀ x ∈ xs, ∀ y ∈ xs, key x = key y → x = y) (z : α) :
    z ∈ ofList key xs ↔ z ∈ xs := by
  have general : ∀ (ys : List α) (c : Catalogue key), (∀ y ∈ ys, y ∈ xs) → (∀ y ∈ c, y ∈ xs) →
      (z ∈ ys.foldl insert c ↔ z ∈ ys ∨ z ∈ c) := by
    intro ys
    induction ys with
    | nil => simp
    | cons y ys ih =>
      intro c new old
      obtain ⟨first, rest⟩ := List.forall_mem_cons.mp new
      have kept (w : α) : w ∈ c.insert y ↔ w = y ∨ w ∈ c :=
        placeKept (fun other inside => single y first other (old other inside)) w
      have grown : ∀ other ∈ c.insert y, other ∈ xs := by
        intro other inside
        rcases (kept other).mp inside with rfl | before
        · exact first
        · exact old other before
      rw [List.foldl_cons, ih _ rest grown, kept, List.mem_cons]
      tauto
  exact (general xs empty (fun _ inside => inside) (by simp [empty])).trans (by simp [empty])

@[simp] theorem namesMember (xs : List String) (k : String) : k ∈ (names xs).entries ↔ k ∈ xs :=
  ofListMember (fun _ _ _ _ same => same) k

theorem namesSame {xs ys : List String} (members : ∀ k, k ∈ xs ↔ k ∈ ys) : names xs = names ys := by
  refine sameMembers fun k => ?_
  rw [memberIff, memberIff, namesMember, namesMember, members]

theorem getFound {c : Catalogue key} {k : String} {x : α} (found : c.get? k = some x) :
    x ∈ c ∧ key x = k := by
  unfold get? at found
  exact ⟨List.mem_of_find?_eq_some found, by simpa using List.find?_some found⟩

theorem getMember {c : Catalogue key} {x : α} (member : x ∈ c) : c.get? (key x) = some x := by
  obtain ⟨entries, sorted⟩ := c
  rw [memberIff] at member
  induction entries with
  | nil => cases member
  | cons y ys ih =>
    obtain ⟨least, rest⟩ := List.pairwise_cons.mp sorted
    rcases List.mem_cons.mp member with rfl | later
    · simp [get?]
    · have different : key y ≠ key x := String.ne_of_lt (least x later)
      simpa [get?, different] using ih rest later

theorem getPlaced (x : α) (ys : List α) (k : String) :
    (place key x ys).find? (fun y => key y = k) =
      if key x = k then some x else ys.find? fun y => key y = k := by
  fun_induction place key x ys with
  | case1 => by_cases own : key x = k <;> simp [own]
  | case2 y ys smaller => by_cases own : key x = k <;> simp [own]
  | case3 y ys notSmaller same => by_cases own : key x = k <;> simp [own, ← same]
  | case4 y ys notSmaller different ih =>
    rw [List.find?_cons, ih, List.find?_cons]
    by_cases own : key y = k
    · have other : key x ≠ k := own ▸ different
      simp [own, other]
    · simp [own]

theorem getOfList (key : α → String) (xs : List α) (k : String) :
    (ofList key xs).get? k = xs.reverse.find? fun x => key x = k := by
  have general : ∀ c : Catalogue key, (xs.foldl insert c).get? k =
      (xs.reverse.find? fun x => key x = k).or (c.get? k) := by
    induction xs with
    | nil => exact fun c => rfl
    | cons x xs ih =>
      intro c
      have placed : (c.insert x).get? k = if key x = k then some x else c.get? k :=
        getPlaced x c.entries k
      rw [List.foldl_cons, ih, placed, List.reverse_cons, List.find?_append]
      by_cases own : key x = k <;> simp [own]
  exact (general empty).trans (Option.or_none ..)

theorem getIsSome (c : Catalogue key) (k : String) :
    k ∈ c.keys.entries ↔ ∃ x, c.get? k = some x := by
  constructor
  · intro member
    obtain ⟨x, inside, rfl⟩ := List.mem_map.mp member
    exact ⟨x, getMember inside⟩
  · intro ⟨x, found⟩
    obtain ⟨inside, same⟩ := getFound found
    exact List.mem_map.mpr ⟨x, inside, same⟩

end Uncalled.Catalogue
