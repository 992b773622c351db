import Mathlib.Data.List.Forall2
import Mathlib.Data.List.Sort
import Mathlib.Tactic.Tauto
/-! Lists that are read entry by entry until one fails, lists that are put in the order of a key,
and lists that are in it: such a list is known from its members, and entries that contribute nothing
can be put in anywhere. At the end, lists without what they have in brackets. -/
namespace Uncalled

section
variable {α β ε δ : Type}

@[simp] theorem okBind (a : α) (f : α → Except ε β) : (Except.ok a >>= f) = f a := rfl

@[simp] theorem errorBind (e : ε) (f : α → Except ε β) : (Except.error e >>= f) = .error e := rfl

@[simp] theorem pureOk (a : α) : (pure a : Except ε α) = .ok a := rfl

@[simp] theorem throwIsError (e : ε) : (throw e : Except ε α) = .error e := rfl

@[simp] theorem okMapError (a : α) (f : ε → δ) : (Except.ok a).mapError f = .ok a := rfl

@[simp] theorem errorMapError (e : ε) (f : ε → δ) :
    (Except.error e : Except ε α).mapError f = .error (f e) := rfl

@[simp] theorem okMap (a : α) (f : α → β) : (Except.ok a : Except ε α).map f = .ok (f a) := rfl

@[simp] theorem errorMap (e : ε) (f : α → β) : (Except.error e).map f = .error e := rfl

@[simp] theorem okToOption (a : α) : (Except.ok a : Except ε α).toOption = some a := rfl

@[simp] theorem errorToOption (e : ε) : (Except.error e : Except ε α).toOption = none := rfl

theorem toOptionIff {x : Except ε α} {a : α} : x.toOption = some a ↔ x = .ok a := by
  cases x with
  | error e => simp
  | ok b => simp

theorem toOptionMap {x : Except ε α} {f : α → β} {b : β} :
    x.toOption.map f = some b ↔ ∃ a, x = .ok a ∧ f a = b := by
  simp only [Option.map_eq_some_iff, toOptionIff]

theorem toOptionIsSome {x : Except ε α} : x.toOption.isSome = true ↔ ∃ a, x = .ok a := by
  simp only [Option.isSome_iff_exists, toOptionIff]

end

theorem bindOk {α β ε : Type} {x : Except ε α} {f : α → Except ε β} {r : β} :
    x >>= f = .ok r ↔ ∃ a, x = .ok a ∧ f a = .ok r := by
  cases x with
  | error e => simp
  | ok a => simp

theorem bindFails {α β ε : Type} {x : Except ε α} {f : α → Except ε β} {e : ε} :
    x >>= f = .error e ↔ x = .error e ∨ ∃ a, x = .ok a ∧ f a = .error e := by
  cases x with
  | error cause => simp
  | ok a => simp

theorem pureFails {α β ε : Type} {x : Except ε α} {f : α → β} {e : ε} :
    (x >>= fun a => pure (f a)) = .error e ↔ x = .error e := by
  simp [bindFails]

theorem mapMEach {α β ε : Type} {f : α → Except ε β} {xs : List α} {ys : List β} :
    xs.mapM f = .ok ys ↔ List.Forall₂ (fun x y => f x = .ok y) xs ys := by
  induction xs generalizing ys with
  | nil => cases ys <;> simp
  | cons x xs ih =>
    rw [List.mapM_cons]
    cases first : f x with
    | error e => cases ys <;> simp [first]
    | ok y =>
      cases rest : xs.mapM f with
      | error e => cases ys <;> simp [← ih, first, rest]
      | ok zs => cases ys <;> simp [← ih, first, rest]

theorem mapMMember {α β ε : Type} {f : α → Except ε β} {xs : List α} {ys : List β}
    (ok : xs.mapM f = .ok ys) (y : β) : y ∈ ys ↔ ∃ x ∈ xs, f x = .ok y := by
  have each := mapMEach.mp ok
  clear ok
  induction each with
  | nil => simp
  | @cons x z xs ys first rest ih => simp [ih, first, eq_comm]

theorem mapMFails {α β ε : Type} {f : α → Except ε β} {xs : List α} {e : ε} :
    xs.mapM f = .error e ↔ ∃ before x after, xs = before ++ x :: after ∧ f x = .error e ∧
      ∀ y ∈ before, ∃ z, f y = .ok z := by
  induction xs with
  | nil => simp
  | cons x xs ih =>
    rw [List.mapM_cons]
    cases first : f x with
    | error cause =>
      simp only [errorBind, Except.error.injEq]
      constructor
      · rintro rfl
        exact ⟨[], x, xs, rfl, first, by simp⟩
      · rintro ⟨before, y, after, split, fails, succeeds⟩
        cases before with
        | nil =>
          cases split
          exact Except.error.inj (first.symm.trans fails)
        | cons z before =>
          cases split
          obtain ⟨value, ok⟩ := succeeds x (by simp)
          cases first.symm.trans ok
    | ok value =>
      have later : (Except.ok value >>= fun y => xs.mapM f >>= fun ys => pure (y :: ys)) =
          Except.error e ↔ xs.mapM f = .error e := pureFails
      rw [later, ih]
      constructor
      · rintro ⟨before, y, after, rfl, fails, succeeds⟩
        exact ⟨x :: before, y, after, rfl, fails,
          List.forall_mem_cons.mpr ⟨⟨value, first⟩, succeeds⟩⟩
      · rintro ⟨before, y, after, split, fails, succeeds⟩
        cases before with
        | nil =>
          cases split
          cases first.symm.trans fails
        | cons z before =>
          cases split
          exact ⟨before, y, after, rfl, fails, (List.forall_mem_cons.mp succeeds).2⟩

theorem pairedByKey {α β : Type} {key : β → α} {Q : β → Prop} {xs : List α} {ys : List β} :
    List.Forall₂ (fun x y => key y = x ∧ Q y) xs ys ↔ ys.map key = xs ∧ ∀ y ∈ ys, Q y := by
  induction ys generalizing xs with
  | nil => cases xs <;> simp
  | cons y ys ih =>
    cases xs with
    | nil => simp
    | cons x xs =>
      rw [List.forall₂_cons, ih, List.map_cons, List.cons.injEq, List.forall_mem_cons]
      tauto

theorem chosenEach {α β : Type} {R : α → β → Prop} {xs : List α} (each : ∀ x ∈ xs, ∃ y, R x y) :
    ∃ ys, List.Forall₂ R xs ys := by
  induction xs with
  | nil => exact ⟨[], .nil⟩
  | cons x xs ih =>
    obtain ⟨first, rest⟩ := List.forall_mem_cons.mp each
    obtain ⟨y, related⟩ := first
    obtain ⟨ys, others⟩ := ih rest
    exact ⟨y :: ys, .cons related others⟩

theorem mapMOk {α β ε : Type} {f : α → Except ε β} {xs : List α} :
    (∃ ys, xs.mapM f = .ok ys) ↔ ∀ x ∈ xs, ∃ y, f x = .ok y := by
  simp only [mapMEach]
  constructor
  · intro ⟨ys, each⟩
    induction each with
    | nil => simp
    | cons first rest ih => exact List.forall_mem_cons.mpr ⟨⟨_, first⟩, ih⟩
  · exact chosenEach

theorem foldMax (l : List Nat) (a : Nat) :
    (l.foldl max a = a ∨ l.foldl max a ∈ l) ∧ a ≤ l.foldl max a ∧ ∀ w ∈ l, w ≤ l.foldl max a := by
  induction l generalizing a with
  | nil => exact ⟨.inl rfl, Nat.le_refl a, nofun⟩
  | cons x l ih =>
    obtain ⟨found, above, bound⟩ := ih (max a x)
    rw [List.foldl_cons]
    refine ⟨?_, by omega, ?_⟩
    · rcases found with same | inside
      · rw [same]
        rcases Nat.le_total a x with le | le
        · exact .inr (by simp [Nat.max_eq_right le])
        · exact .inl (Nat.max_eq_left le)
      · exact .inr (List.mem_cons_of_mem x inside)
    · rintro w (_ | ⟨_, inside⟩)
      · omega
      · exact bound w inside

section Sorting

variable {α κ : Type} [LinearOrder κ] {key : α → κ} {le : α → α → Bool}
  (compares : ∀ a b, le a b = true ↔ key a ≤ key b)
include compares

theorem comparesTrans (a b c : α) (first : le a b = true) (second : le b c = true) :
    le a c = true := by
  rw [compares] at *
  exact first.trans second

theorem comparesTotal (a b : α) : (le a b || le b a) = true := by
  rw [Bool.or_eq_true, compares, compares]
  exact le_total (key a) (key b)

theorem mergeSortByKey (xs : List α) :
    (xs.mergeSort le).Pairwise fun a b => key a ≤ key b := by
  have pairs := List.pairwise_mergeSort (comparesTrans compares) (comparesTotal compares) xs
  simpa only [compares] using pairs

theorem mergeSortAt (xs : List α) (k : κ) :
    (xs.mergeSort le).filter (fun x => key x = k) = xs.filter fun x => key x = k := by
  have level : (xs.filter fun x => key x = k).Pairwise fun a b => le a b = true := by
    refine List.pairwise_of_forall_mem_list fun a left b right => ?_
    have first : key a = k := by simpa using (List.mem_filter.mp left).2
    have second : key b = k := by simpa using (List.mem_filter.mp right).2
    exact (compares a b).mpr (first.trans second.symm).le
  have kept : (xs.filter fun x => key x = k).Sublist (xs.mergeSort le) :=
    List.sublist_mergeSort (comparesTrans compares) (comparesTotal compares) level
      List.filter_sublist
  have within := kept.filter fun x => key x = k
  rw [List.filter_filter] at within
  simp only [Bool.and_self] at within
  exact (within.eq_of_length ((List.mergeSort_perm xs le).filter _).length_eq.symm).symm

theorem mergeSortStable {R : α → α → Prop} {xs : List α} (ordered : xs.Pairwise R) :
    (xs.mergeSort le).Pairwise fun a b => key a < key b ∨ key a = key b ∧ R a b := by
  have sorted := mergeSortByKey compares xs
  rw [List.pairwise_iff_forall_sublist] at *
  intro a b pair
  rcases (sorted pair).lt_or_eq with less | same
  · exact .inl less
  · have both := pair.filter fun x => key x = key b
    have whole : [a, b].filter (fun x => key x = key b) = [a, b] := by simp [same]
    rw [mergeSortAt compares, whole] at both
    exact .inr ⟨same, ordered (both.trans List.filter_sublist)⟩

end Sorting
section Keys

variable {α β κ : Type} {lt : κ → κ → Prop}

def weighed (key : α → κ) (g : α → List β) (xs : List α) : List (κ × List β) :=
  (xs.map fun x => (key x, g x)).filter fun e => !e.2.isEmpty

theorem weighedSorted {key : α → κ} {xs : List α} (g : α → List β)
    (sorted : xs.Pairwise fun a b => lt (key a) (key b)) :
    (weighed key g xs).Pairwise fun a b => lt a.1 b.1 := by
  have mapped : (xs.map fun x => (key x, g x)).Pairwise fun a b => lt a.1 b.1 :=
    List.pairwise_map.mpr sorted
  exact mapped.filter _

theorem weighedFlat (key : α → κ) (g : α → List β) (xs : List α) :
    (weighed key g xs).flatMap Prod.snd = xs.flatMap g := by
  unfold weighed
  induction xs with
  | nil => rfl
  | cons x xs ih => cases value : g x <;> simp_all

variable [Std.Asymm lt]

theorem sortedSame {key : α → κ} {xs ys : List α}
    (left : xs.Pairwise fun a b => lt (key a) (key b))
    (right : ys.Pairwise fun a b => lt (key a) (key b)) (same : ∀ a, a ∈ xs ↔ a ∈ ys) :
    xs = ys := by
  have never : ∀ a b, lt (key a) (key b) → ¬ lt (key b) (key a) := fun _ _ => Std.Asymm.asymm _ _
  have irreflexive : Std.Irrefl fun a b => lt (key a) (key b) := ⟨fun a own => never a a own own⟩
  have antisymmetric : Std.Antisymm fun a b => lt (key a) (key b) :=
    ⟨fun a b first second => absurd second (never a b first)⟩
  exact left.eq_of_mem_iff right same

theorem sortedUnique {key : α → κ} {xs : List α}
    (sorted : xs.Pairwise fun a b => lt (key a) (key b))
    {x y : α} (left : x ∈ xs) (right : y ∈ xs) (same : key x = key y) : x = y := by
  have irreflexive : Std.Irrefl lt := ⟨fun k own => Std.Asymm.asymm k k own own⟩
  have distinct : (xs.map key).Nodup := (List.pairwise_map.mpr sorted).nodup
  exact List.inj_on_of_nodup_map distinct left right same

theorem flatMapMatched (lt : κ → κ → Prop) [Std.Asymm lt] (key : α → κ) {g : α → List β}
    {xs ys : List α}
    (left : xs.Pairwise fun a b => lt (key a) (key b))
    (right : ys.Pairwise fun a b => lt (key a) (key b))
    (kept : ∀ x ∈ xs, ∃ y ∈ ys, key y = key x ∧ g y = g x)
    (fresh : ∀ y ∈ ys, (∃ x ∈ xs, key x = key y) ∨ g y = []) : ys.flatMap g = xs.flatMap g := by
  have same : weighed key g ys = weighed key g xs := by
    refine sortedSame (weighedSorted g right) (weighedSorted g left) fun e => ?_
    simp only [weighed, List.mem_filter, List.mem_map]
    refine and_congr_left fun filled => ⟨?_, ?_⟩
    · intro ⟨y, inside, entry⟩
      have value : g y ≠ [] := by simpa [← entry] using filled
      obtain ⟨x, among, keys⟩ := (fresh y inside).resolve_right value
      obtain ⟨z, matching, sameKey, values⟩ := kept x among
      have itself : z = y := sortedUnique right matching inside (sameKey.trans keys)
      exact ⟨x, among, by rw [← entry, keys, ← values, itself]⟩
    · intro ⟨x, inside, entry⟩
      obtain ⟨y, among, keys, values⟩ := kept x inside
      exact ⟨y, among, by rw [← entry, keys, values]⟩
  rw [← weighedFlat key g ys, same, weighedFlat]

end Keys
section
variable {α : Type} [DecidableEq α] {opening closing : α}

/- What stands outside of brackets; the flag tells that one is open. -/
def outside (opening closing : α) : Bool → List α → List α
  | _, [] => []
  | true, x :: xs => outside opening closing (x ≠ closing) xs
  | false, x :: xs =>
    if x = opening then outside opening closing true xs else x :: outside opening closing false xs

theorem outsidePlain {xs : List α} (plain : opening ∉ xs) (rest : List α) :
    outside opening closing false (xs ++ rest) = xs ++ outside opening closing false rest := by
  induction xs with
  | nil => rfl
  | cons x xs ih =>
    obtain ⟨other, others⟩ := List.ne_and_not_mem_of_not_mem_cons plain
    rw [List.cons_append, outside, if_neg other.symm, ih others, List.cons_append]

theorem outsideClosed {xs : List α} (unclosed : closing ∉ xs) (rest : List α) :
    outside opening closing false (opening :: (xs ++ closing :: rest)) =
      outside opening closing false rest := by
  have closes : outside opening closing true (xs ++ closing :: rest) =
      outside opening closing false rest := by
    induction xs with
    | nil => simp [outside]
    | cons x xs ih =>
      obtain ⟨other, others⟩ := List.ne_and_not_mem_of_not_mem_cons unclosed
      rw [List.cons_append, outside, decide_eq_true other.symm, ih others]
  rw [outside, if_pos rfl, closes]

end

end Uncalled
