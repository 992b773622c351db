import Mathlib.Data.String.Basic
import Uncalled.Proofs.Conservation
import Uncalled.Proofs.Loading
import Uncalled.Proofs.Placement
/-! What a report declares. The files outside the tests come in the order of their paths and the
functions of a file in the order of their offsets, and of all functions that go by one name the last
is the entry. -/
namespace Uncalled
open Source (TypeExpr Function)

namespace Declaration

/- The name in a receiver's type: a star may stand before it, and type arguments after it. -/
inductive Typed : TypeExpr → String → Prop
  | plain (id : String) : Typed (.name id) id
  | generic (id : String) : Typed (.generic (.name id)) id
  | pointer (hidden : Bool) (id : String) : Typed (.pointer hidden (.name id)) id
  | pointerGeneric (hidden : Bool) (id : String) :
      Typed (.pointer hidden (.generic (.name id))) id

def Remarked (type : TypeExpr) : Prop := ∃ target, type = .pointer true target

theorem receiverNameIff (type : TypeExpr) (id : String) :
    receiverName type = some id ↔ Typed type id ∧ ¬ Remarked type := by
  constructor
  · intro named
    unfold receiverName at named
    split at named
    · cases named
    · next target =>
      refine ⟨?_, fun ⟨_, remarked⟩ => by cases remarked⟩
      unfold baseName at named
      split at named <;> cases named
      · exact .pointer false id
      · exact .pointerGeneric false id
    · next remarked pointer =>
      refine ⟨?_, fun ⟨target, same⟩ => remarked target same⟩
      unfold baseName at named
      split at named <;> cases named
      · exact .plain id
      · exact .generic id
  · intro ⟨typed, plain⟩
    cases typed with
    | plain => rfl
    | generic => rfl
    | pointer hidden =>
      cases hidden with
      | false => rfl
      | true => exact absurd ⟨_, rfl⟩ plain
    | pointerGeneric hidden =>
      cases hidden with
      | false => rfl
      | true => exact absurd ⟨_, rfl⟩ plain

def ReceivedAs (f : Function) (type : TypeExpr) : Prop :=
  ∃ receiver, f.receiver = some receiver ∧ receiverType? receiver = some type

/- A method goes by its type's name, a dot and its own name, unless a comment hides the type. What
has no such type goes by its own name. -/
inductive GoesBy (f : Function) : String → Prop
  | method {type : TypeExpr} {id : String} (received : ReceivedAs f type) (typed : Typed type id)
      (plain : ¬ Remarked type) : GoesBy f (id ++ "." ++ f.name)
  | bare (hidden : ∀ type id, ReceivedAs f type → Typed type id → Remarked type) :
      GoesBy f f.name

theorem goesByIff (f : Function) (name : String) : GoesBy f name ↔ qualifiedName f = name := by
  have typeIff (id : String) :
      (f.receiver.bind fun r => (receiverType? r).bind receiverName) = some id ↔
        ∃ type, ReceivedAs f type ∧ Typed type id ∧ ¬ Remarked type := by
    simp only [Option.bind_eq_some_iff, receiverNameIff, ReceivedAs]
    tauto
  unfold qualifiedName
  constructor
  · intro goes
    cases goes with
    | method received typed plain => rw [(typeIff _).mpr ⟨_, received, typed, plain⟩]
    | bare hidden =>
      split
      · next id found =>
        obtain ⟨type, received, typed, plain⟩ := (typeIff id).mp found
        exact absurd (hidden type id received typed) plain
      · rfl
  · rintro rfl
    split
    · next id found =>
      obtain ⟨type, received, typed, plain⟩ := (typeIff id).mp found
      exact .method received typed plain
    · next unknown =>
      refine .bare fun type id received typed => ?_
      by_contra plain
      rw [(typeIff id).mpr ⟨type, received, typed, plain⟩] at unknown
      cases unknown

end Declaration

/- A function of a directory, in a file that is no test, under the name it goes by. -/
structure DeclaredIn (t : FileTree) (o : Options) (dir name : String) (g : SourceFile)
    (f : Function) : Prop where
  source : Package.IsSource t o dir g
  inside : f ∈ Source.functions g.tree
  goesBy : Declaration.GoesBy f name

/- Files in the order of their paths, functions of a file in the order of their offsets. -/
def Precedes (a b : SourceFile × Function) : Prop :=
  a.1.path < b.1.path ∨ a.1.path = b.1.path ∧ a.2.start.offset < b.2.start.offset

theorem notPrecedes (a b : SourceFile × Function) : ¬ Precedes a b ↔
    b.1.path < a.1.path ∨ b.1.path = a.1.path ∧ b.2.start.offset ≤ a.2.start.offset := by
  unfold Precedes
  rcases lt_trichotomy a.1.path b.1.path with less | same | more
  · simp [less, less.ne', less.not_gt]
  · simp [same]
  · simp [more, more.ne', more.not_gt]

theorem precedesAsymm {a b : SourceFile × Function} (first : Precedes a b) : ¬ Precedes b a := by
  rw [notPrecedes]
  rcases first with less | ⟨same, less⟩
  · exact .inl less
  · exact .inr ⟨same, less.le⟩

theorem findLast {α : Type} {R : α → α → Prop} (asymm : ∀ {x y}, R x y → ¬ R y x) {xs : List α}
    (ordered : xs.Pairwise R) (p : α → Bool) (x : α) :
    xs.reverse.find? p = some x ↔ x ∈ xs ∧ p x = true ∧ ∀ y ∈ xs, p y = true → ¬ R x y := by
  rw [List.find?_eq_some_iff_append]
  constructor
  · intro ⟨holds, after, before, split, others⟩
    obtain rfl : xs = before.reverse ++ x :: after.reverse := by
      rw [← List.reverse_reverse xs, split]
      simp
    refine ⟨by simp, holds, fun y member same => ?_⟩
    rcases List.mem_append.mp member with early | late
    · exact asymm ((List.pairwise_append.mp ordered).2.2 y early x List.mem_cons_self)
    · rcases List.mem_cons.mp late with rfl | late
      · exact fun itself => asymm itself itself
      · have other := others y (List.mem_reverse.mp late)
        simp [same] at other
  · intro ⟨member, holds, last⟩
    obtain ⟨before, after, rfl⟩ := List.append_of_mem member
    refine ⟨holds, after.reverse, before.reverse, by simp, fun y late => ?_⟩
    have inside : y ∈ after := List.mem_reverse.mp late
    have follows := (List.pairwise_cons.mp (List.pairwise_append.mp ordered).2.1).1 y inside
    rw [Bool.not_eq_true']
    exact Bool.eq_false_iff.mpr fun same => last y (by simp [inside]) same follows

namespace Package

def declared (p : Package) : List (SourceFile × Function) :=
  p.sources.flatMap fun g => (Source.functions g.tree).map (g, ·)

theorem declaredMember (p : Package) (g : SourceFile) (f : Function) :
    (g, f) ∈ p.declared ↔ g ∈ p.sources ∧ f ∈ Source.functions g.tree := by
  simp only [declared, List.mem_flatMap, List.mem_map, Prod.mk.injEq]
  constructor
  · rintro ⟨g, source, f, inside, rfl, rfl⟩
    exact ⟨source, inside⟩
  · rintro ⟨source, inside⟩
    exact ⟨g, source, f, inside, rfl, rfl⟩

theorem declaredOrdered {t : FileTree} {o : Options} {dir : String} {r : Route}
    {parsed : List SourceFile} {p : Package} (loaded : Loaded t o dir r parsed p) :
    p.declared.Pairwise Precedes := by
  have source {g : SourceFile} (member : g ∈ p.sources) := (sourceIff loaded g).mp member
  have sorted : p.sources.Pairwise fun g g' => g.name < g'.name := by
    rw [loaded.sources]
    exact (loadedSorted loaded).filter _
  refine List.pairwise_flatMap.mpr ⟨fun g member => ?_, ?_⟩
  · refine List.pairwise_map.mpr ((Source.functionsPlaced (source member).tree).2.imp ?_)
    exact fun before => .inr ⟨rfl, before.1⟩
  · refine sorted.imp_of_mem fun {g g'} member member' less => ?_
    intro a inside b inside'
    obtain ⟨f, -, rfl⟩ := List.mem_map.mp inside
    obtain ⟨f', -, rfl⟩ := List.mem_map.mp inside'
    left
    rw [(source member).path, (source member').path]
    exact joinLess dir less

theorem detailsDeclared (p : Package) : p.details = Catalogue.ofList Declaration.name
    (p.declared.map fun (g, f) => Declaration.ofFunction g.path f) := by
  simp [details, declared, List.map_flatMap, Declaration.collect, Function.comp_def]

section
variable {t : FileTree} {o : Options} {dir : String} {r : Route} {parsed : List SourceFile}
  {p : Package} (loaded : Loaded t o dir r parsed p)
include loaded

theorem declaredInIff (name : String) (g : SourceFile) (f : Function) :
    DeclaredIn t o dir name g f ↔ (g, f) ∈ p.declared ∧ Declaration.qualifiedName f = name := by
  rw [declaredMember, sourceIff loaded, ← Declaration.goesByIff]
  exact ⟨fun ⟨source, inside, goesBy⟩ => ⟨⟨source, inside⟩, goesBy⟩,
    fun ⟨⟨source, inside⟩, goesBy⟩ => ⟨source, inside, goesBy⟩⟩

theorem nameDeclared (name : String) :
    name ∈ (p.report o).details.entries.map Declaration.name ↔
      ∃ g f, DeclaredIn t o dir name g f := by
  change name ∈ p.details.keys.entries ↔ _
  rw [detailsDeclared, Catalogue.ofListKeys, Catalogue.namesMember, List.map_map, List.mem_map]
  constructor
  · rintro ⟨⟨g, f⟩, member, same⟩
    exact ⟨g, f, (declaredInIff loaded name g f).mpr ⟨member, same⟩⟩
  · rintro ⟨g, f, declared⟩
    obtain ⟨member, same⟩ := (declaredInIff loaded name g f).mp declared
    exact ⟨(g, f), member, same⟩

theorem findDeclared (name : String) (d : Declaration) :
    (p.report o).find? name = some d ↔ ∃ g f, DeclaredIn t o dir name g f ∧
      d = Declaration.ofFunction g.path f ∧ ∀ g' f', DeclaredIn t o dir name g' f' →
        g'.path < g.path ∨ g'.path = g.path ∧ f'.start.offset ≤ f.start.offset := by
  change p.details.get? name = some d ↔ _
  rw [detailsDeclared, Catalogue.getOfList, ← List.map_reverse, List.find?_map,
    Option.map_eq_some_iff]
  have last := findLast precedesAsymm (declaredOrdered loaded)
    fun a => decide (Declaration.qualifiedName a.2 = name)
  constructor
  · rintro ⟨⟨g, f⟩, found, rfl⟩
    obtain ⟨member, same, latest⟩ := (last (g, f)).mp found
    refine ⟨g, f, ?_, rfl, fun g' f' declared => ?_⟩
    · exact (declaredInIff loaded name g f).mpr ⟨member, of_decide_eq_true same⟩
    · obtain ⟨member', same'⟩ := (declaredInIff loaded name g' f').mp declared
      exact (notPrecedes _ _).mp (latest (g', f') member' (decide_eq_true same'))
  · rintro ⟨g, f, declared, rfl, latest⟩
    obtain ⟨member, same⟩ := (declaredInIff loaded name g f).mp declared
    refine ⟨(g, f), (last (g, f)).mpr ⟨member, decide_eq_true same, ?_⟩, rfl⟩
    intro (g', f') member' same'
    refine (notPrecedes _ _).mpr (latest g' f' ?_)
    exact (declaredInIff loaded name g' f').mpr ⟨member', of_decide_eq_true same'⟩

end

end Package

theorem latestDeclared {t : FileTree} {o : Options} {dir : String} {r : Report}
    (ok : analyze t o dir = .ok r) :
    (r.details.entries.map Declaration.name).Nodup ∧
    (∀ name, name ∈ r.details.entries.map Declaration.name ↔
      ∃ g f, DeclaredIn t o dir name g f) ∧
    (∀ name d, r.find? name = some d ↔ ∃ g f, DeclaredIn t o dir name g f ∧
      d = Declaration.ofFunction g.path f ∧ ∀ g' f', DeclaredIn t o dir name g' f' →
        g'.path < g.path ∨ g'.path = g.path ∧ f'.start.offset ≤ f.start.offset) ∧
    ∀ d ∈ r.details, ∀ base, isName base = true → d.file = joinPath dir base →
      o.selects base = true ∧ o.isTestFile base = false := by
  obtain ⟨p, loads, rfl⟩ := analyzedPackage ok
  obtain ⟨route, parsed, loaded⟩ := Package.loadedPackage loads
  refine ⟨p.details.keys.sorted.imp String.ne_of_lt, Package.nameDeclared loaded,
    Package.findDeclared loaded, fun d member base named file => ?_⟩
  have found : (p.report o).find? d.name = some d := Catalogue.getMember member
  obtain ⟨g, f, declared, rfl, -⟩ := (Package.findDeclared loaded _ _).mp found
  have source := declared.source
  have last := fileNameJoin dir named
  have own := fileNameJoin dir source.named
  rw [← source.path, show g.path = _ from file, last] at own
  cases own
  exact ⟨source.selected, source.noTest⟩

/- One name in two files and twice in the second, and again in a test. -/
def jugDirectory : FileTree :=
  ⟨[], [(["pkg", "b.go"], Text.encode "func Pour() \x7b\x7d\nfunc Pour() \x7b\x7d"),
    (["pkg", "c_test.go"], Text.encode "func Pour() \x7b\x7d\nfunc Spill() \x7b\x7d"),
    (["pkg", "a.go"], Text.encode "func Pour() \x7b\x7d\nfunc (j *Jug) Pour() \x7b\x7d")]⟩

theorem latestOfThree : ∃ r, analyze jugDirectory .standard "pkg" = .ok r ∧
    r.details.entries.map Declaration.name = ["Jug.Pour", "Pour"] ∧
    (∃ d, r.find? "Pour" = some d ∧ d.file = "pkg/b.go" ∧ d.start.offset = 15) ∧
    ∀ g f, DeclaredIn jugDirectory .standard "pkg" "Pour" g f →
      g.path < "pkg/b.go" ∨ g.path = "pkg/b.go" ∧ f.start.offset ≤ 15 := by
  have reported : (analyze jugDirectory .standard "pkg").toOption.map (fun r =>
      (r.details.entries.map Declaration.name,
        (r.find? "Pour").map fun d => (d.file, d.start.offset))) =
      some (["Jug.Pour", "Pour"], some ("pkg/b.go", 15)) := by decide +kernel
  obtain ⟨r, ok, reported⟩ := toOptionMap.mp reported
  simp only [Prod.mk.injEq, Option.map_eq_some_iff] at reported
  obtain ⟨names, d, found, file, offset⟩ := reported
  obtain ⟨g, f, -, rfl, latest⟩ := ((latestDeclared ok).2.2.1 "Pour" d).mp found
  refine ⟨r, ok, names, ⟨_, found, file, offset⟩, fun g' f' declared => ?_⟩
  rw [← file, ← offset]
  exact latest g' f' declared

/- A comment after the star hides the type, and the method takes the place of the function. -/
def remarkedSource : Text.Bytes :=
  Text.encode "func Pour() \x7b\x7d\nfunc (j * /* half full */ Jug) Pour() \x7b\x7d"

def remarkedDirectory : FileTree := ⟨[], [(["pkg", "a.go"], remarkedSource)]⟩

theorem remarkedMethodLost : ∃ g f type,
    Package.IsSource remarkedDirectory .standard "pkg" g ∧ f ∈ Source.functions g.tree ∧
    Declaration.ReceivedAs f type ∧ Declaration.Typed type "Jug" ∧ f.name = "Pour" ∧
    (analyze remarkedDirectory .standard "pkg").toOption.map (fun r =>
      r.details.entries.map fun d => (d.name, d.start.offset)) = some [("Pour", 15)] := by
  have shown : (Source.parse? remarkedSource).map (fun tree =>
      (Source.functions tree).map fun f => (f.name, f.receiver)) =
      some [("Pour", none), ("Pour", some [.plain ["j"] (.pointer true (.name "Jug"))])] := by
    decide +kernel
  obtain ⟨tree, parsed, shown⟩ := Option.map_eq_some_iff.mp shown
  obtain ⟨f, inside, same⟩ : ∃ f ∈ Source.functions tree,
      (f.name, f.receiver) = ("Pour", some [.plain ["j"] (.pointer true (.name "Jug"))]) := by
    rw [← List.mem_map, shown]
    simp
  obtain ⟨name, receiver⟩ := Prod.mk.inj same
  obtain ⟨named, selected, noTest, path⟩ : isName "a.go" = true ∧
      Options.standard.selects "a.go" = true ∧ Options.standard.isTestFile "a.go" = false ∧
      "pkg/a.go" = joinPath "pkg" "a.go" := by decide
  obtain ⟨go, kept⟩ := (Package.selectsIff _ _).mp selected
  have read : remarkedDirectory.read (joinPath "pkg" "a.go") = .ok remarkedSource := by
    decide +kernel
  exact ⟨⟨"a.go", "pkg/a.go", remarkedSource, tree⟩, f, .pointer true (.name "Jug"),
    ⟨⟨⟨named, read, go, kept⟩, path, parsed⟩, noTest⟩, inside, ⟨_, receiver, rfl⟩,
    .pointer true "Jug", name, by decide +kernel⟩

end Uncalled
