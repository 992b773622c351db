import Uncalled.Proofs.IndirectCoverage
import Uncalled.Proofs.Writing
/-! Where the sources of a page come from. A profile names its files by any text at all, but only
the last name of it counts, and that is looked up in one directory. So nothing is read that does not
lie directly in the directory, however a name climbs or starts at the root. -/
namespace Uncalled
open Text (Bytes)

/- What does not count behind the last name of a path: slashes, and slashes with a single dot. -/
inductive Trailer : List Char → Prop
  | done : Trailer []
  | slash {cs : List Char} (rest : Trailer cs) : Trailer ('/' :: cs)
  | dot {cs : List Char} (rest : Trailer cs) : Trailer ('/' :: '.' :: cs)

/- A path ends in a name, at its start or behind a slash, but for a trailer. -/
structure EndsIn (path name : String) : Prop where
  named : isName name = true
  split : ∃ front trailer, path.toList = front ++ name.toList ++ trailer ∧
    (front = [] ∨ front.getLast? = some '/') ∧ Trailer trailer

theorem splitSlashJoined {cs part : List Char} {parts : List (List Char)}
    (split : splitSlash cs = part :: parts) : cs = part ++ parts.flatMap ('/' :: ·) := by
  induction cs generalizing part parts with
  | nil =>
    cases split
    rfl
  | cons c cs ih =>
    rw [splitSlash] at split
    cases rest : splitSlash cs with
    | nil => exact absurd rest (splitSlashSome cs)
    | cons first others =>
      rw [rest] at split
      split at split
      · rename_i slash
        cases split
        rw [slash, List.flatMap_cons, List.nil_append, List.cons_append, ← ih rest]
      · cases split
        rw [List.cons_append, ← ih rest]

theorem trailerSplit {trailer : List Char} (given : Trailer trailer) :
    ∃ parts, (∀ part ∈ parts, part = [] ∨ part = ['.']) ∧
      ∀ cs, splitSlash (cs ++ trailer) = splitSlash cs ++ parts := by
  induction given with
  | done => exact ⟨[], by simp, by simp⟩
  | slash rest ih =>
    obtain ⟨parts, plain, split⟩ := ih
    refine ⟨[] :: parts, List.forall_mem_cons.mpr ⟨.inl rfl, plain⟩, fun cs => ?_⟩
    rw [← List.singleton_append, ← List.append_assoc, split, splitSlashAppend, List.append_assoc]
    rfl
  | dot rest ih =>
    obtain ⟨parts, plain, split⟩ := ih
    refine ⟨['.'] :: parts, List.forall_mem_cons.mpr ⟨.inr rfl, plain⟩, fun cs => ?_⟩
    have text (cs later : List Char) : cs ++ '/' :: '.' :: later = cs ++ '/' :: ['.'] ++ later := by
      simp
    rw [text, split, splitSlashAppend, List.append_assoc]
    rfl

theorem partsTrailer {parts : List (List Char)} (plain : ∀ part ∈ parts, part = [] ∨ part = ['.']) :
    Trailer (parts.flatMap ('/' :: ·)) := by
  induction parts with
  | nil => exact .done
  | cons part parts ih =>
    obtain ⟨first, rest⟩ := List.forall_mem_cons.mp plain
    rcases first with rfl | rfl
    · exact .slash (ih rest)
    · exact .dot (ih rest)

theorem countless (part : List Char) :
    ¬ decide (String.ofList part ≠ "" ∧ String.ofList part ≠ ".") = true ↔
      part = [] ∨ part = ['.'] := by
  rw [decide_eq_true_eq, not_and_or, not_not, not_not, ← String.toList_inj, ← String.toList_inj,
    String.toList_ofList]
  rfl

theorem fileNameParts (path name : String) :
    fileName? path = some name ↔ isName name = true ∧ ∃ front behind,
      splitSlash path.toList = front ++ name.toList :: behind ∧
        ∀ part ∈ behind, part = [] ∨ part = ['.'] := by
  constructor
  · intro found
    refine ⟨fileNameNamed found, ?_⟩
    unfold fileName? at found
    split at found
    · cases found
    · rename_i last rest counted
      split at found
      · cases found
      · cases found
        obtain ⟨after, before, parts, plain, _⟩ := List.filter_eq_cons_iff.mp counted
        rw [pathParts, ← List.map_reverse] at parts
        obtain ⟨behind, others, reversed, rfl, first⟩ := List.map_eq_append_iff.mp parts
        obtain ⟨part, front, rfl, rfl, rfl⟩ := List.map_eq_cons_iff.mp first
        refine ⟨front.reverse, behind.reverse, ?_, fun part inside => ?_⟩
        · rw [← List.reverse_reverse (splitSlash path.toList), reversed]
          simp
        · exact (countless part).mp (plain _ (List.mem_map_of_mem (List.mem_reverse.mp inside)))
  · rintro ⟨named, front, behind, split, plain⟩
    obtain ⟨filled, dot, dots, _⟩ := (isNameIff name).mp named
    have parts : (pathParts path).reverse =
        (behind.map String.ofList).reverse ++ name :: (front.map String.ofList).reverse := by
      simp [pathParts, split]
    have uncounted : (behind.map String.ofList).reverse.filter
        (fun part => part ≠ "" ∧ part ≠ ".") = [] := by
      rw [List.filter_eq_nil_iff]
      intro text inside
      obtain ⟨part, among, rfl⟩ := List.mem_map.mp (List.mem_reverse.mp inside)
      exact (countless part).mpr (plain part among)
    rw [fileName?, parts, List.filter_append, uncounted, List.nil_append,
      List.filter_cons_of_pos (by simp [filled, dot])]
    exact if_neg dots

theorem fileNameIff (path name : String) : fileName? path = some name ↔ EndsIn path name := by
  rw [fileNameParts]
  constructor
  · rintro ⟨named, front, behind, split, plain⟩
    refine ⟨named, ?_⟩
    cases front with
    | nil => exact ⟨[], _, splitSlashJoined split, .inl rfl, partsTrailer plain⟩
    | cons part front =>
      refine ⟨part ++ front.flatMap ('/' :: ·) ++ ['/'], _, ?_, .inr (by simp), partsTrailer plain⟩
      rw [splitSlashJoined split]
      simp
  · rintro ⟨named, front, trailer, text, start, given⟩
    obtain ⟨behind, plain, split⟩ := trailerSplit given
    obtain ⟨_, _, _, slashless⟩ := (isNameIff name).mp named
    rw [text, split]
    rcases start with rfl | slash
    · refine ⟨named, [], behind, ?_, plain⟩
      rw [List.nil_append, splitSlashWhole slashless]
      rfl
    · obtain ⟨before, rfl⟩ := List.getLast?_eq_some_iff.mp slash
      refine ⟨named, splitSlash before, behind, ?_, plain⟩
      rw [List.append_assoc before, List.singleton_append, splitSlashAppend,
        splitSlashWhole slashless, List.append_assoc]
      rfl

namespace FileTree

/- The files directly in the directory that a path leads to. Nothing before a name means the working
directory, which has a dot for its path. -/
def children (t : FileTree) (dir : String) : List (String × Bytes) :=
  match t.route (if dir = "" then "." else dir) with
  | .ok r => if t.isDirectory r then t.filesIn r else []
  | .error _ => []

theorem childrenIff (t : FileTree) (dir : String) (file : String × Bytes) :
    file ∈ t.children dir ↔ ∃ r, t.route (if dir = "" then "." else dir) = .ok r ∧
      t.isDirectory r = true ∧ file ∈ t.filesIn r := by
  unfold children
  cases t.route (if dir = "" then "." else dir) with
  | error e => simp
  | ok r =>
    by_cases directory : t.isDirectory r = true
    · simp [directory]
    · simp [directory]

theorem stepNamed {t : FileTree} {here there : Route} {name : String} (named : isName name = true) :
    t.step here name = .ok there ↔ t.isDirectory here = true ∧ there = here ++ [name] := by
  constructor
  · intro ok
    obtain ⟨filled, dot, dots, _⟩ := (isNameIff name).mp named
    obtain ⟨directory, ⟨stays, _⟩ | ⟨up, _⟩ | ⟨_, rfl⟩⟩ := stepCases ok
    · exact absurd stays (not_or.mpr ⟨filled, dot⟩)
    · exact absurd up dots
    · exact ⟨directory, rfl⟩
  · rintro ⟨directory, rfl⟩
    exact stepName directory named

theorem routeAlone (t : FileTree) {name : String} (named : isName name = true) :
    t.route name = .ok [name] := by
  obtain ⟨filled, _, _, plain⟩ := (isNameIff name).mp named
  have start : name.toList.head? ≠ some '/' := fun first =>
    plain (List.mem_of_mem_head? first)
  have here : t.isDirectory [] = true := rfl
  rw [routeParts t filled, if_neg start, namePlain named]
  simp [stepName here named]

theorem routeOver {t : FileTree} {dir name : String} {q : Route} (filled : dir ≠ "")
    (named : isName name = true) (ok : t.route (joinPath dir name) = .ok q) :
    ∃ r, t.route dir = .ok r ∧ t.isDirectory r = true ∧ q = r ++ [name] := by
  obtain ⟨parts, joined, given⟩ := pathPartsJoin filled named
  rw [routeParts t (joinSome dir named), joinStart filled, joined, List.foldlM_append, bindOk] at ok
  obtain ⟨r, reached, last⟩ := ok
  rw [List.foldlM_cons, bindOk] at last
  obtain ⟨there, stepped, same⟩ := last
  cases same
  obtain ⟨directory, rfl⟩ := (stepNamed named).mp stepped
  refine ⟨r, ?_, directory, rfl⟩
  rw [routeParts t filled]
  rcases given with whole | slashed
  · rw [whole, reached]
  · rw [slashed, List.foldlM_append, reached]
    simp [step, directory]

theorem routeChild (t : FileTree) (dir : String) {name : String} (named : isName name = true)
    (q : Route) : t.route (joinPath dir name) = .ok q ↔
      ∃ r, t.route (if dir = "" then "." else dir) = .ok r ∧ t.isDirectory r = true ∧
        q = r ++ [name] := by
  by_cases empty : dir = ""
  · have alone : joinPath dir name = name := by simp [empty, joinPath]
    have dot : t.route "." = .ok [] := rfl
    rw [alone, routeAlone t named, if_pos empty, dot]
    constructor
    · intro same
      cases same
      exact ⟨[], rfl, rfl, rfl⟩
    · rintro ⟨r, same, _, rfl⟩
      cases same
      rfl
  · rw [if_neg empty]
    constructor
    · exact routeOver empty named
    · rintro ⟨r, route, directory, rfl⟩
      exact routeJoin route directory named

theorem childRead (t : FileTree) (dir name : String) (bytes : Bytes) :
    (name, bytes) ∈ t.children dir ↔
      isName name = true ∧ t.read (joinPath dir name) = .ok bytes := by
  rw [childrenIff]
  constructor
  · rintro ⟨r, route, directory, inside⟩
    obtain ⟨named, file⟩ := (filesInIff ..).mp inside
    refine ⟨named, (readIff ..).mpr ⟨r ++ [name], ?_, file⟩⟩
    exact (routeChild t dir named _).mpr ⟨r, route, directory, rfl⟩
  · rintro ⟨named, read⟩
    obtain ⟨q, leads, file⟩ := (readIff ..).mp read
    obtain ⟨r, route, directory, rfl⟩ := (routeChild t dir named q).mp leads
    exact ⟨r, route, directory, (filesInIff ..).mpr ⟨named, file⟩⟩

theorem isFileIff (t : FileTree) (path : String) :
    t.isFilePath path = true ↔ ∃ bytes, t.read path = .ok bytes := by
  simp only [readIff]
  unfold isFilePath
  cases t.route path with
  | error e => simp
  | ok r => simp [Option.isSome_iff_exists]

end FileTree

/- The source of a name: the file in the directory that has its last name. -/
structure SourceOf (t : FileTree) (dir name base : String) (src : Bytes) : Prop where
  last : EndsIn name base
  child : (base, src) ∈ t.children dir

theorem sourceRead {t : FileTree} {dir name base : String} {src : Bytes} :
    SourceOf t dir name base src ↔
      fileName? name = some base ∧ t.read (joinPath dir base) = .ok src := by
  constructor
  · intro source
    exact ⟨(fileNameIff ..).mpr source.last, ((t.childRead ..).mp source.child).2⟩
  · intro ⟨last, read⟩
    exact ⟨(fileNameIff ..).mp last, (t.childRead ..).mpr ⟨fileNameNamed last, read⟩⟩

theorem sourceOrNone (t : FileTree) (dir name : String) :
    (∃ base src, SourceOf t dir name base src) ∨ ∀ base src, ¬ SourceOf t dir name base src := by
  simpa only [not_exists] using Classical.em (∃ base src, SourceOf t dir name base src)

namespace Cover

theorem findSourceSome {t : FileTree} {dir name base : String} {src : Bytes}
    (source : SourceOf t dir name base src) :
    findSource t dir name = .ok (joinPath dir base) := by
  obtain ⟨last, read⟩ := sourceRead.mp source
  rw [findSource, last]
  exact if_pos ((t.isFileIff _).mpr ⟨src, read⟩)

theorem findSourceNone {t : FileTree} {dir name : String}
    (absent : ∀ base src, ¬ SourceOf t dir name base src) :
    findSource t dir name = .error (.sourceNotFound name dir) := by
  unfold findSource
  split
  · rfl
  · rename_i base last
    refine if_neg fun file => ?_
    obtain ⟨src, read⟩ := (t.isFileIff _).mp file
    exact absent base src (sourceRead.mpr ⟨last, read⟩)

theorem findSourceIff (t : FileTree) (dir name path : String) :
    findSource t dir name = .ok path ↔ ∃ base src,
      SourceOf t dir name base src ∧ path = joinPath dir base ∧ t.read path = .ok src := by
  constructor
  · intro found
    rcases sourceOrNone t dir name with ⟨base, src, source⟩ | absent
    · rw [findSourceSome source] at found
      cases found
      exact ⟨base, src, source, rfl, (sourceRead.mp source).2⟩
    · rw [findSourceNone absent] at found
      cases found
  · rintro ⟨base, src, source, rfl, _⟩
    exact findSourceSome source

theorem findSourceFails (t : FileTree) (dir name : String) (e : ProfileError) :
    findSource t dir name = .error e ↔
      e = .sourceNotFound name dir ∧ ∀ base src, ¬ SourceOf t dir name base src := by
  constructor
  · intro failed
    rcases sourceOrNone t dir name with ⟨base, src, source⟩ | absent
    · rw [findSourceSome source] at failed
      cases failed
    · rw [findSourceNone absent] at failed
      cases failed
      exact ⟨rfl, absent⟩
  · rintro ⟨rfl, absent⟩
    exact findSourceNone absent

theorem viewSome {t : FileTree} {dir base : String} {p : Profile} {src : Bytes}
    (source : SourceOf t dir p.file base src) (r : Report) :
    view t dir r p = View.ofProfile p r (joinPath dir base) src := by
  have read : readSource t (joinPath dir base) = .ok src := by
    rw [readSource, (sourceRead.mp source).2]
  simp only [view, findSourceSome source, read, okBind]

theorem viewNone {t : FileTree} {dir : String} {p : Profile}
    (absent : ∀ base src, ¬ SourceOf t dir p.file base src) (r : Report) :
    view t dir r p = .error (.sourceNotFound p.file dir) := by
  simp only [view, findSourceNone absent, errorBind]

theorem viewSame {t u : FileTree} {dir : String}
    (same : ∀ file, file ∈ t.children dir ↔ file ∈ u.children dir) (r : Report) (p : Profile) :
    view t dir r p = view u dir r p := by
  have sources (base : String) (src : Bytes) :
      SourceOf t dir p.file base src ↔ SourceOf u dir p.file base src :=
    ⟨fun source => ⟨source.last, (same _).mp source.child⟩,
      fun source => ⟨source.last, (same _).mpr source.child⟩⟩
  rcases sourceOrNone t dir p.file with ⟨base, src, source⟩ | absent
  · rw [viewSome source, viewSome ((sources base src).mp source)]
  · have others : ∀ base src, ¬ SourceOf u dir p.file base src := fun base src source =>
      absent base src ((sources base src).mpr source)
    rw [viewNone absent, viewNone others]

theorem renderSame {t u : FileTree} {dir : String}
    (same : ∀ file, file ∈ t.children dir ↔ file ∈ u.children dir) (r : Report)
    (ps : List Profile) : render t dir r ps = render u dir r ps := by
  have views : view t dir r = view u dir r := funext (viewSame same r)
  unfold render
  rw [views]

theorem renderViews {t : FileTree} {dir html : String} {r : Report} {ps : List Profile}
    (rendered : render t dir r ps = .ok html) :
    ∃ mode views, html = page mode views ∧
      List.Forall₂ (fun p v => view t dir r p = .ok v) ps views := by
  cases ps with
  | nil => cases rendered
  | cons first rest =>
    obtain ⟨views, shown, made⟩ := bindOk.mp rendered
    cases made
    exact ⟨first.mode, views, rfl, mapMEach.mp shown⟩

theorem viewSourced {t : FileTree} {dir : String} {r : Report} {p : Profile} {v : View}
    (shown : view t dir r p = .ok v) : ∃ base src, SourceOf t dir p.file base src ∧
      View.ofProfile p r (joinPath dir base) src = .ok v := by
  obtain ⟨base, src, last, read, made⟩ := viewSource shown
  exact ⟨base, src, sourceRead.mpr ⟨last, read⟩, made⟩

end Cover

/- A source is found exactly where the last name of what is asked for is that of a file directly in
the directory, and what is found is that file; else the failure says that none is found. So a page
is made of such files alone. With the same files in the directory, whatever else there is, it is the
same page or the same failure. -/
theorem sourcesStayInside (t : FileTree) (dir : String) :
    (∀ name path, Cover.findSource t dir name = .ok path ↔ ∃ base src,
      SourceOf t dir name base src ∧ path = joinPath dir base ∧ t.read path = .ok src) ∧
    (∀ name e, Cover.findSource t dir name = .error e ↔
      e = .sourceNotFound name dir ∧ ∀ base src, ¬ SourceOf t dir name base src) ∧
    (∀ r ps html, Cover.render t dir r ps = .ok html → ∃ mode views, html = page mode views ∧
      List.Forall₂ (fun p v => ∃ base src, SourceOf t dir p.file base src ∧
        View.ofProfile p r (joinPath dir base) src = .ok v) ps views) ∧
    ∀ u : FileTree, (∀ file, file ∈ t.children dir ↔ file ∈ u.children dir) →
      ∀ r ps, Cover.render t dir r ps = Cover.render u dir r ps := by
  refine ⟨Cover.findSourceIff t dir, Cover.findSourceFails t dir, fun r ps html rendered => ?_,
    fun u same => Cover.renderSame same⟩
  obtain ⟨mode, views, made, shown⟩ := Cover.renderViews rendered
  exact ⟨mode, views, made, shown.imp fun _ _ => Cover.viewSourced⟩

/- Files with one name above a directory, below it and at the root; the directory holds another. -/
def strayTree : FileTree :=
  ⟨[], [(["cow.go"], Text.encode "package above"),
    (["/", "etc", "cow.go"], Text.encode "package root"),
    (["pkg", "milk.go"], Text.encode "package milk"),
    (["pkg", "barn", "cow.go"], Text.encode "package below")]⟩

def loneTree : FileTree := ⟨[], [(["pkg", "milk.go"], Text.encode "package milk")]⟩

def strayProfile : Profile := ⟨"/../dairy//milk.go/./", .set, []⟩

theorem strayChildren : strayTree.children "pkg" = [("milk.go", Text.encode "package milk")] ∧
    loneTree.children "pkg" = [("milk.go", Text.encode "package milk")] := by
  decide +kernel

theorem straySource : SourceOf strayTree "pkg" strayProfile.file "milk.go"
    (Text.encode "package milk") := by
  refine ⟨⟨by decide, "/../dairy//".toList, "/./".toList, by decide, .inr (by decide), ?_⟩, ?_⟩
  · exact .dot (.slash .done)
  · rw [strayChildren.1]
    exact List.mem_singleton_self _

theorem strayRendered : ∃ html,
    Cover.render strayTree "pkg" .empty [strayProfile] = .ok html := by
  have shown : (Cover.view strayTree "pkg" .empty strayProfile).toOption.isSome = true := by
    simp only [Cover.view, View.ofProfile, Profile.boundariesSwept]
    decide +kernel
  obtain ⟨v, view⟩ := toOptionIsSome.mp shown
  refine ⟨page strayProfile.mode [v], ?_⟩
  simp [Cover.render, view]

theorem strayNamesStayInside :
    Cover.findSource strayTree "pkg" strayProfile.file = .ok "pkg/milk.go" ∧
    (∀ name ∈ ["../cow.go", "/etc/cow.go", "barn/cow.go", "milk.go/..", "/.", ""],
      Cover.findSource strayTree "pkg" name = .error (.sourceNotFound name "pkg")) ∧
    (∃ html mode v, Cover.render strayTree "pkg" .empty [strayProfile] = .ok html ∧
      html = page mode [v] ∧ View.ofProfile strayProfile .empty "pkg/milk.go"
        (Text.encode "package milk") = .ok v) ∧
    (∀ file, file ∈ strayTree.children "pkg" ↔ file ∈ loneTree.children "pkg") ∧
    ∀ r ps, Cover.render strayTree "pkg" r ps = Cover.render loneTree "pkg" r ps := by
  have same : ∀ file, file ∈ strayTree.children "pkg" ↔ file ∈ loneTree.children "pkg" := by
    rw [strayChildren.1, strayChildren.2]
    exact fun _ => Iff.rfl
  have only {name base : String} {src : Bytes} (source : SourceOf strayTree "pkg" name base src) :
      base = "milk.go" ∧ src = Text.encode "package milk" := by
    simpa [strayChildren.1] using source.child
  have others : ∀ name ∈ ["../cow.go", "/etc/cow.go", "barn/cow.go", "milk.go/..", "/.", ""],
      fileName? name ≠ some "milk.go" := by decide +kernel
  obtain ⟨found, failed, made, independent⟩ := sourcesStayInside strayTree "pkg"
  refine ⟨?_, fun name among => ?_, ?_, same, independent loneTree same⟩
  · exact (found _ _).mpr ⟨_, _, straySource, by decide, (sourceRead.mp straySource).2⟩
  · refine (failed _ _).mpr ⟨rfl, fun base src source => ?_⟩
    obtain ⟨rfl, _⟩ := only source
    exact others name among ((fileNameIff ..).mpr source.last)
  · obtain ⟨html, rendered⟩ := strayRendered
    obtain ⟨mode, views, whole, each⟩ := made _ _ _ rendered
    cases each with
    | cons first rest =>
      cases rest
      obtain ⟨base, src, source, shown⟩ := first
      obtain ⟨rfl, rfl⟩ := only source
      exact ⟨html, mode, _, rendered, whole, shown⟩

end Uncalled
