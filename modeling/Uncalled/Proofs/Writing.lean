import Uncalled.Proofs.Paths
/-! What writing does to the files. It succeeds exactly where a path leads to a name in a directory
and no directory has that name, and then the file there is all that changes: no other file is
touched, no directory comes or goes, and every path leads where it led. -/
namespace Uncalled
open Text (Bytes)

/- Two dots stand only at the start of a route: a way up is taken back before it is written down. -/
abbrev Route.Direct (r : Route) : Prop :=
  r.Pairwise fun first second => second = ".." → first = ".."

theorem Route.allDots {front : Route} {name : String} (direct : Route.Direct (front ++ [name]))
    (dots : name = "..") : ∀ part ∈ front ++ [name], part = ".." := by
  intro part inside
  rcases List.mem_append.mp inside with before | own
  · exact (List.pairwise_append.mp direct).2.2 part before name List.mem_cons_self dots
  · exact (List.mem_singleton.mp own).trans dots

theorem Route.upDirect {r : Route} (direct : r.Direct) : r.up.Direct := by
  unfold Route.up
  cases last : r.getLast? with
  | none => exact List.pairwise_singleton ..
  | some name =>
    obtain ⟨front, rfl⟩ := List.getLast?_eq_some_iff.mp last
    dsimp only
    split_ifs with dots root
    · refine List.pairwise_append.mpr ⟨direct, List.pairwise_singleton .., ?_⟩
      exact fun first inside _ _ _ => Route.allDots direct dots first inside
    · exact direct
    · exact direct.sublist (List.dropLast_sublist _)

theorem foldlMKept {α β ε : Type} {f : β → α → Except ε β} {P : β → Prop}
    (kept : ∀ b a c, P b → f b a = .ok c → P c) {b c : β} {xs : List α} (start : P b)
    (ok : xs.foldlM f b = .ok c) : P c := by
  induction xs generalizing b with
  | nil =>
    cases ok
    exact start
  | cons x xs ih =>
    rw [List.foldlM_cons, bindOk] at ok
    obtain ⟨next, first, rest⟩ := ok
    exact ih (kept b x next start first) rest

theorem foldlMSame {α β ε : Type} {f g : β → α → Except ε β}
    (same : ∀ b a c, f b a = .ok c ↔ g b a = .ok c) (xs : List α) (b c : β) :
    xs.foldlM f b = .ok c ↔ xs.foldlM g b = .ok c := by
  induction xs generalizing b with
  | nil => rfl
  | cons x xs ih => simp only [List.foldlM_cons, bindOk, same, ih]

namespace FileTree

theorem isDirectoryIff (t : FileTree) (r : Route) : t.isDirectory r = true ↔
    (∀ part ∈ r, part = "..") ∨ r = ["/"] ∨ (∃ folder ∈ t.folders, r <+: folder) ∨
      ∃ f ∈ t.files, r <+: f.1 ∧ r.length < f.1.length := by
  simp [isDirectory, or_assoc]

theorem directoryAbove {t : FileTree} {r s : Route} (above : r <+: s)
    (directory : t.isDirectory s = true) : t.isDirectory r = true := by
  rw [isDirectoryIff] at directory ⊢
  rcases directory with dots | rfl | ⟨folder, inside, below⟩ | ⟨f, inside, below, shorter⟩
  · exact .inl fun part within => dots part (above.subset within)
  · rcases List.prefix_cons_iff.mp above with rfl | ⟨rest, rfl, nothing⟩
    · exact .inl (by simp)
    · exact .inr (.inl (by rw [List.prefix_nil.mp nothing]))
  · exact .inr (.inr (.inl ⟨folder, inside, above.trans below⟩))
  · refine .inr (.inr (.inr ⟨f, inside, above.trans below, ?_⟩))
    exact Nat.lt_of_le_of_lt above.length_le shorter

theorem stepCases {t : FileTree} {here there : Route} {part : String}
    (ok : t.step here part = .ok there) : t.isDirectory here = true ∧
      ((part = "" ∨ part = ".") ∧ there = here ∨ part = ".." ∧ there = here.up ∨
        (part ≠ "" ∧ part ≠ "." ∧ part ≠ "..") ∧ there = here ++ [part]) := by
  unfold step at ok
  split_ifs at ok with directory stays up
  · exact ⟨directory, .inl ⟨stays, (Except.ok.inj ok).symm⟩⟩
  · exact ⟨directory, .inr (.inl ⟨up, (Except.ok.inj ok).symm⟩)⟩
  · obtain ⟨filled, dot⟩ := not_or.mp stays
    exact ⟨directory, .inr (.inr ⟨⟨filled, dot, up⟩, (Except.ok.inj ok).symm⟩)⟩

theorem stepDirect {t : FileTree} {here there : Route} {part : String} (direct : here.Direct)
    (ok : t.step here part = .ok there) : there.Direct := by
  obtain ⟨_, ⟨_, rfl⟩ | ⟨_, rfl⟩ | ⟨⟨_, _, dots⟩, rfl⟩⟩ := stepCases ok
  · exact direct
  · exact Route.upDirect direct
  · refine List.pairwise_append.mpr ⟨direct, List.pairwise_singleton .., ?_⟩
    intro first _ second own climbs
    exact absurd ((List.mem_singleton.mp own).symm.trans climbs) dots

theorem upDirectory {t : FileTree} {here : Route} (direct : here.Direct)
    (directory : t.isDirectory here = true) : t.isDirectory here.up = true := by
  unfold Route.up
  cases last : here.getLast? with
  | none => exact (isDirectoryIff ..).mpr (.inl (by simp))
  | some name =>
    obtain ⟨front, rfl⟩ := List.getLast?_eq_some_iff.mp last
    dsimp only
    split_ifs with dots root
    · refine (isDirectoryIff ..).mpr (.inl fun part inside => ?_)
      rcases List.mem_append.mp inside with own | new
      · exact Route.allDots direct dots part own
      · exact List.mem_singleton.mp new
    · exact directory
    · exact directoryAbove (List.dropLast_prefix _) directory

theorem routeParent {t : FileTree} {path : String} {r : Route} (ok : t.route path = .ok r)
    (file : t.isDirectory r = false) :
    ∃ here name, r = here ++ [name] ∧ t.isDirectory here = true ∧ isName name = true := by
  rw [routeParts t (routeSome ok)] at ok
  have start : Route.Direct (if path.toList.head? = some '/' then ["/"] else []) := by
    split
    · exact List.pairwise_singleton ..
    · exact List.Pairwise.nil
  have someParts : pathParts path ≠ [] := by simp [pathParts, splitSlashSome]
  obtain ⟨front, last, parts⟩ := (List.eq_nil_or_concat _).resolve_left someParts
  rw [List.concat_eq_append] at parts
  rw [parts, List.foldlM_append, bindOk] at ok
  obtain ⟨here, reached, ending⟩ := ok
  rw [List.foldlM_cons, bindOk] at ending
  obtain ⟨there, stepped, same⟩ := ending
  cases same
  have direct : here.Direct := foldlMKept (fun _ _ _ => stepDirect) start reached
  obtain ⟨directory, ⟨_, rfl⟩ | ⟨_, rfl⟩ | ⟨⟨filled, dot, dots⟩, rfl⟩⟩ := stepCases stepped
  · rw [directory] at file
    cases file
  · rw [upDirectory direct directory] at file
    cases file
  · refine ⟨here, last, rfl, directory, (isNameIff last).mpr ⟨filled, dot, dots, ?_⟩⟩
    have inside : last ∈ pathParts path := by simp [parts]
    obtain ⟨part, split, rfl⟩ := List.mem_map.mp inside
    rw [String.toList_ofList]
    exact splitSlashPlain _ part split

structure Rewritten (t u : FileTree) (r : Route) (bytes : Bytes) : Prop where
  file : u.file? r = some bytes
  others : ∀ s, s ≠ r → u.file? s = t.file? s
  directories : ∀ s, u.isDirectory s = t.isDirectory s

theorem lookupWithout (files : List (Route × Bytes)) {r s : Route} (other : s ≠ r) :
    (files.filter fun f => f.1 ≠ r).lookup s = files.lookup s := by
  induction files with
  | nil => rfl
  | cons f files ih =>
    by_cases own : f.1 = r
    · have differs : (s == f.1) = false := by simpa [own] using other
      rw [List.filter_cons_of_neg (by simpa using own), ih, List.lookup_cons, differs]
    · rw [List.filter_cons_of_pos (by simpa using own), List.lookup_cons, List.lookup_cons, ih]

theorem putDirectories {t : FileTree} {here : Route} (directory : t.isDirectory here = true)
    (name : String) (bytes : Bytes) (s : Route) :
    (t.put (here ++ [name]) bytes).isDirectory s = t.isDirectory s := by
  rw [Bool.eq_iff_iff]
  constructor
  · intro after
    rcases (isDirectoryIff ..).mp after with dots | root | folder | ⟨f, inside, below, shorter⟩
    · exact (isDirectoryIff ..).mpr (.inl dots)
    · exact (isDirectoryIff ..).mpr (.inr (.inl root))
    · exact (isDirectoryIff ..).mpr (.inr (.inr (.inl folder)))
    · rcases List.mem_cons.mp inside with rfl | kept
      · -- what the new file makes a directory holds the directory it is in
        rcases List.prefix_concat_iff.mp below with whole | above
        · simp [whole] at shorter
        · exact directoryAbove above directory
      · have before := (List.mem_filter.mp kept).1
        exact (isDirectoryIff ..).mpr (.inr (.inr (.inr ⟨f, before, below, shorter⟩)))
  · intro before
    rcases (isDirectoryIff ..).mp before with dots | root | folder | ⟨f, inside, below, shorter⟩
    · exact (isDirectoryIff ..).mpr (.inl dots)
    · exact (isDirectoryIff ..).mpr (.inr (.inl root))
    · exact (isDirectoryIff ..).mpr (.inr (.inr (.inl folder)))
    · refine (isDirectoryIff ..).mpr (.inr (.inr (.inr ?_)))
      by_cases own : f.1 = here ++ [name]
      · exact ⟨_, List.mem_cons_self, own ▸ below, own ▸ shorter⟩
      · refine ⟨f, List.mem_cons_of_mem _ (List.mem_filter.mpr ⟨inside, ?_⟩), below, shorter⟩
        simpa using own

theorem putRewritten {t : FileTree} {here : Route} (directory : t.isDirectory here = true)
    (name : String) (bytes : Bytes) :
    t.Rewritten (t.put (here ++ [name]) bytes) (here ++ [name]) bytes where
  file := by simp [file?, put]
  others := by
    intro s other
    have differs : (s == here ++ [name]) = false := by simpa using other
    rw [file?, put, List.lookup_cons, differs]
    exact lookupWithout t.files other
  directories := putDirectories directory name bytes

theorem rewrittenRoute {t u : FileTree} {r : Route} {bytes : Bytes} (same : t.Rewritten u r bytes)
    (path : String) (s : Route) : u.route path = .ok s ↔ t.route path = .ok s := by
  have step : ∀ here part there, u.step here part = .ok there ↔ t.step here part = .ok there := by
    intro here part there
    unfold FileTree.step
    rw [same.directories here]
    split_ifs <;> simp
  unfold route
  split
  · simp
  · exact foldlMSame step _ _ _

theorem readIff (t : FileTree) (path : String) (bytes : Bytes) :
    t.read path = .ok bytes ↔ ∃ r, t.route path = .ok r ∧ t.file? r = some bytes := by
  rw [read, bindOk]
  refine exists_congr fun r => and_congr_right fun _ => ?_
  cases t.file? r with
  | some own => simp
  | none =>
    dsimp only
    split <;> simp

theorem rewrittenRead {t u : FileTree} {r : Route} {bytes : Bytes} (same : t.Rewritten u r bytes)
    {path : String} (other : t.route path ≠ .ok r) (content : Bytes) :
    u.read path = .ok content ↔ t.read path = .ok content := by
  rw [readIff, readIff]
  refine exists_congr fun s => ?_
  rw [rewrittenRoute same]
  refine and_congr_right fun leads => ?_
  rw [same.others s fun own => other (own ▸ leads)]

/- Where a file can be written: at a name in a directory, if it is no directory's and no slash comes
after it. -/
structure Writable (t : FileTree) (path : String) (r : Route) : Prop where
  unslashed : path.toList.getLast? ≠ some '/'
  route : t.route path = .ok r
  free : t.isDirectory r = false
  parent : ∃ here name, r = here ++ [name] ∧ t.isDirectory here = true ∧ isName name = true

theorem unslashedIff (path : String) :
    String.ofList (path.toList.reverse.dropWhile (· = '/')).reverse = path ↔
      path.toList.getLast? ≠ some '/' := by
  rw [← String.toList_inj, String.toList_ofList, ← List.head?_reverse, List.reverse_eq_iff]
  cases path.toList.reverse with
  | nil => simp
  | cons c cs =>
    by_cases slash : c = '/'
    · have shorter := (List.dropWhile_suffix (l := cs) fun c => decide (c = '/')).length_le
      have differs : cs.dropWhile (fun c => decide (c = '/')) ≠ '/' :: cs := by
        intro same
        rw [same, List.length_cons] at shorter
        omega
      simpa [slash] using differs
    · simp [slash]

theorem writeIff (t : FileTree) (path : String) (bytes : Bytes) (u : FileTree) :
    t.write path bytes = .ok u ↔ ∃ r, t.Writable path r ∧ u = t.put r bytes := by
  have unslashed := unslashedIff path
  unfold write
  dsimp only
  generalize String.ofList (path.toList.reverse.dropWhile (· = '/')).reverse = named at unslashed ⊢
  rw [bindOk]
  constructor
  · intro ⟨r, leads, ok⟩
    split_ifs at ok with taken
    rw [Bool.or_eq_true, not_or, decide_eq_true_eq, not_not] at taken
    obtain ⟨occupied, rfl⟩ := taken
    rw [ite_self] at leads
    have free : t.isDirectory r = false := by simpa using occupied
    refine ⟨r, ⟨unslashed.mp rfl, leads, free, ?_⟩, (Except.ok.inj ok).symm⟩
    exact routeParent leads free
  · intro ⟨r, writable, made⟩
    obtain rfl := unslashed.mpr writable.unslashed
    refine ⟨r, by rw [ite_self, writable.route], ?_⟩
    rw [if_neg (by simp [writable.free]), made]
    rfl

theorem writeRewritten {t u : FileTree} {path : String} {bytes : Bytes}
    (ok : t.write path bytes = .ok u) :
    ∃ r, t.Writable path r ∧ t.Rewritten u r bytes ∧ u.read path = .ok bytes := by
  obtain ⟨r, writable, rfl⟩ := (writeIff ..).mp ok
  obtain ⟨here, name, rfl, directory, _⟩ := writable.parent
  have same := putRewritten directory name bytes
  refine ⟨_, writable, same, (readIff ..).mpr ⟨_, ?_, same.file⟩⟩
  exact (rewrittenRoute same ..).mpr writable.route

end FileTree
end Uncalled
