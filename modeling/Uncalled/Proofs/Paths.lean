import Mathlib.Data.List.Basic
import Uncalled.FileTree
import Uncalled.Proofs.Lists
/-! Names and paths. A name put behind a directory's path is the last name of the whole, whatever
the directory is called, and the whole leads to that name in the directory. So what a directory
lists is what can be read there. -/
namespace Uncalled
open Text (Bytes)

theorem splitSlashSome (cs : List Char) : splitSlash cs ≠ [] := by
  cases cs with
  | nil => simp [splitSlash]
  | cons c cs =>
    unfold splitSlash
    split
    · simp
    · split <;> simp

theorem splitSlashAppend (xs ys : List Char) :
    splitSlash (xs ++ '/' :: ys) = splitSlash xs ++ splitSlash ys := by
  induction xs with
  | nil => simp [splitSlash]
  | cons x xs ih =>
    rw [List.cons_append, splitSlash, splitSlash, ih]
    split
    · rfl
    · cases parts : splitSlash xs with
      | nil => exact absurd parts (splitSlashSome xs)
      | cons part parts => rfl

theorem splitSlashWhole {cs : List Char} (plain : '/' ∉ cs) : splitSlash cs = [cs] := by
  induction cs with
  | nil => rfl
  | cons c cs ih =>
    obtain ⟨first, rest⟩ := List.ne_and_not_mem_of_not_mem_cons plain
    rw [splitSlash, if_neg first.symm, ih rest]

theorem splitSlashPlain (cs : List Char) : ∀ part ∈ splitSlash cs, '/' ∉ part := by
  induction cs with
  | nil => simp [splitSlash]
  | cons c cs ih =>
    rw [splitSlash]
    split
    · exact List.forall_mem_cons.mpr ⟨by simp, ih⟩
    · rename_i other
      cases parts : splitSlash cs with
      | nil => exact absurd parts (splitSlashSome cs)
      | cons part parts =>
        rw [parts] at ih
        obtain ⟨first, rest⟩ := List.forall_mem_cons.mp ih
        exact List.forall_mem_cons.mpr ⟨by simpa [eq_comm, other] using first, rest⟩

theorem isNameIff (s : String) :
    isName s = true ↔ s ≠ "" ∧ s ≠ "." ∧ s ≠ ".." ∧ '/' ∉ s.toList := by
  simp [isName, and_assoc]

theorem namePlain {name : String} (named : isName name = true) : pathParts name = [name] := by
  obtain ⟨_, _, _, plain⟩ := (isNameIff name).mp named
  rw [pathParts, splitSlashWhole plain, List.map_singleton, String.ofList_toList]

theorem pathPartsSlash (dir rest : String) :
    pathParts (dir ++ "/" ++ rest) = pathParts dir ++ pathParts rest := by
  have text : (dir ++ "/" ++ rest).toList = dir.toList ++ '/' :: rest.toList := by simp
  rw [pathParts, text, splitSlashAppend, List.map_append]
  rfl

/- The parts of a directory's path, but for the nothing behind a slash at its end. -/
theorem pathPartsJoin {dir name : String} (filled : dir ≠ "") (named : isName name = true) :
    ∃ parts, pathParts (joinPath dir name) = parts ++ [name] ∧
      (pathParts dir = parts ∨ pathParts dir = parts ++ [""]) := by
  have notEmpty : dir.isEmpty = false := by simpa using filled
  by_cases slash : dir.toList.getLast? = some '/'
  · obtain ⟨front, whole⟩ := List.getLast?_eq_some_iff.mp slash
    have split : dir = String.ofList front ++ "/" := by
      rw [← String.toList_inj, whole, String.toList_append, String.toList_ofList]
      rfl
    refine ⟨pathParts (String.ofList front), ?_, .inr ?_⟩
    · rw [joinPath, if_pos (by simp [slash]), split, pathPartsSlash, namePlain named]
    · have behind := pathPartsSlash (String.ofList front) ""
      rw [String.append_empty, ← split] at behind
      exact behind
  · refine ⟨pathParts dir, ?_, .inl rfl⟩
    rw [joinPath, if_neg (by simp [notEmpty, slash]), pathPartsSlash, namePlain named]

theorem fileNameJoin (dir : String) {name : String} (named : isName name = true) :
    fileName? (joinPath dir name) = some name := by
  obtain ⟨filled, dot, dots, _⟩ := (isNameIff name).mp named
  have last : ∃ parts, pathParts (joinPath dir name) = parts ++ [name] := by
    by_cases empty : dir = ""
    · exact ⟨[], by simp [empty, joinPath, namePlain named]⟩
    · obtain ⟨parts, joined, _⟩ := pathPartsJoin empty named
      exact ⟨parts, joined⟩
  obtain ⟨parts, joined⟩ := last
  rw [fileName?, joined, List.reverse_append, List.reverse_singleton, List.singleton_append,
    List.filter_cons_of_pos (by simp [filled, dot])]
  exact if_neg dots

theorem joinSome (dir : String) {name : String} (named : isName name = true) :
    joinPath dir name ≠ "" := by
  intro empty
  have last := fileNameJoin dir named
  have nothing : fileName? "" = none := by decide
  rw [empty, nothing] at last
  cases last

theorem joinStart {dir : String} (filled : dir ≠ "") (name : String) :
    (joinPath dir name).toList.head? = dir.toList.head? := by
  obtain ⟨c, cs, chars⟩ := List.exists_cons_of_ne_nil fun empty =>
    filled (String.toList_eq_nil_iff.mp empty)
  unfold joinPath
  split <;> simp [chars]

theorem joinLess (dir : String) {a b : String} (less : a < b) :
    joinPath dir a < joinPath dir b := by
  have behind (front : String) : front ++ a < front ++ b := by
    rw [String.lt_iff, String.toList_append, String.toList_append]
    exact List.append_left_lt (String.lt_iff.mp less)
  unfold joinPath
  split
  · exact behind dir
  · exact behind (dir ++ "/")

theorem fileNameNamed {path name : String} (found : fileName? path = some name) :
    isName name = true := by
  unfold fileName? at found
  split at found
  · cases found
  · rename_i last rest filtered
    split at found
    · cases found
    · rename_i dots
      cases Option.some.inj found
      have inside : name ∈ (pathParts path).reverse.filter fun part => part ≠ "" ∧ part ≠ "." := by
        rw [filtered]
        exact List.mem_cons_self
      obtain ⟨among, counted⟩ := List.mem_filter.mp inside
      obtain ⟨part, split, rfl⟩ := List.mem_map.mp (List.mem_reverse.mp among)
      rw [decide_eq_true_eq] at counted
      refine (isNameIff _).mpr ⟨counted.1, counted.2, dots, ?_⟩
      rw [String.toList_ofList]
      exact splitSlashPlain _ part split

namespace FileTree

theorem stepNowhere {t : FileTree} {here there : Route} (ok : t.step here "" = .ok there) :
    there = here := by
  unfold step at ok
  split at ok
  · exact (Except.ok.inj ok).symm
  · split at ok <;> cases ok

theorem stepName {t : FileTree} {here : Route} (directory : t.isDirectory here = true)
    {name : String} (named : isName name = true) : t.step here name = .ok (here ++ [name]) := by
  obtain ⟨filled, dot, dots, _⟩ := (isNameIff name).mp named
  rw [step, if_pos directory, if_neg (by simp [filled, dot]), if_neg dots]

theorem routeSome {t : FileTree} {path : String} {r : Route} (ok : t.route path = .ok r) :
    path ≠ "" := by
  rintro rfl
  cases ok

theorem routeParts (t : FileTree) {path : String} (filled : path ≠ "") :
    t.route path =
      (pathParts path).foldlM t.step
        (if path.toList.head? = some '/' then ["/"] else []) := by
  rw [route, if_neg (by simpa using filled)]

theorem routeJoin {t : FileTree} {dir name : String} {r : Route} (ok : t.route dir = .ok r)
    (directory : t.isDirectory r = true) (named : isName name = true) :
    t.route (joinPath dir name) = .ok (r ++ [name]) := by
  have filled := routeSome ok
  obtain ⟨parts, joined, given⟩ := pathPartsJoin filled named
  rw [routeParts t filled] at ok
  rw [routeParts t (joinSome dir named), joinStart filled, joined]
  generalize (if dir.toList.head? = some '/' then ["/"] else []) = origin at ok ⊢
  have reached : parts.foldlM t.step origin = .ok r := by
    rcases given with whole | slashed
    · rw [whole] at ok
      exact ok
    · rw [slashed, List.foldlM_append, bindOk] at ok
      obtain ⟨here, front, last⟩ := ok
      rw [List.foldlM_cons, bindOk] at last
      obtain ⟨there, stayed, same⟩ := last
      cases same
      rw [front, stepNowhere stayed]
  rw [List.foldlM_append, reached]
  simp [stepName directory named]

theorem filesInIff (t : FileTree) (r : Route) (name : String) (bytes : Bytes) :
    (name, bytes) ∈ t.filesIn r ↔ isName name = true ∧ t.file? (r ++ [name]) = some bytes := by
  unfold filesIn
  rw [List.mem_filterMap]
  constructor
  · intro ⟨f, inside, listed⟩
    split at listed
    · rename_i last up reversed
      split at listed
      · rename_i fits
        obtain ⟨rfl, named, read⟩ := fits
        cases Option.some.inj listed
        have whole : f.1 = up.reverse ++ [name] := by
          rw [← List.reverse_reverse f.1, reversed, List.reverse_cons]
        exact ⟨named, whole ▸ read⟩
      · cases listed
    · cases listed
  · intro ⟨named, read⟩
    obtain ⟨before, after, files, _⟩ := List.lookup_eq_some_iff.mp read
    refine ⟨(r ++ [name], bytes), by simp [files], ?_⟩
    simp [named, read]

theorem readName {t : FileTree} {dir name : String} {r : Route} (ok : t.route dir = .ok r)
    (directory : t.isDirectory r = true) {bytes : Bytes} :
    (name, bytes) ∈ t.filesIn r ↔
      isName name = true ∧ t.read (joinPath dir name) = .ok bytes := by
  rw [filesInIff]
  refine and_congr_right fun named => ?_
  rw [read, routeJoin ok directory named]
  cases found : t.file? (r ++ [name]) with
  | some bytes => simp [found]
  | none =>
    simp only [okBind, found]
    split <;> simp

end FileTree
end Uncalled
