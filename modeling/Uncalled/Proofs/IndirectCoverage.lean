import Uncalled.Page
import Uncalled.Proofs.Conservation
import Uncalled.Proofs.Loading
import Uncalled.Proofs.Placement
import Uncalled.Proofs.Tags
/-! What a page marks as covered without being called. The functions come from the files that were
analyzed, the blocks from a profile that names its files by other paths; they meet in the last name
of a file and in the offsets of its bytes. -/
namespace Uncalled
open Text (Bytes)

namespace Package

def functionNames (p : Package) : List String :=
  p.sources.flatMap fun g => (Source.functions g.tree).map Declaration.qualifiedName

theorem detailsMember {p : Package} (distinct : p.functionNames.Nodup) (d : Declaration) :
    d ∈ p.details ↔ ∃ g ∈ p.sources, ∃ f ∈ Source.functions g.tree,
      Declaration.ofFunction g.path f = d := by
  have names : (p.sources.flatMap fun g => Declaration.collect g.path g.tree).map
      Declaration.name = p.functionNames := by
    simp [functionNames, List.map_flatMap, Declaration.collect, Declaration.ofFunction,
      Function.comp_def]
  rw [← names] at distinct
  have single := List.inj_on_of_nodup_map distinct
  rw [details, Catalogue.ofListMember fun x left y right => single left right]
  simp [Declaration.collect]

end Package

theorem Declaration.bodyContainsIff (file : String) {src : Bytes} {f : Source.Function}
    (placed : f.Placed src) (offset : Nat) : (ofFunction file f).bodyContains offset = true ↔
      ∃ body ∈ f.body, body.start.offset ≤ offset ∧ offset < body.stop.offset := by
  cases body : f.body with
  | none => simp [ofFunction, bodyContains, body]
  | some b =>
    have wide := (placed.body b body).2.wide
    simp only [ofFunction, bodyContains, body, Option.map_some, Position.startOf, Position.lastOf,
      Bool.and_eq_true, decide_eq_true_eq, Option.mem_some_iff, exists_eq_left']
    omega

/- Whether a byte lies in a function of a source that no test calls, braces included. Sources that
are not analyzed have no such functions. -/
def Indirect (o : Options) (called : Names) (base : String) (src : Bytes) (offset : Nat) :
    Prop :=
  o.selects base = true ∧ o.isTestFile base = false ∧ ∃ tree ∈ Source.parse? src,
    ∃ f ∈ Source.functions tree, Declaration.qualifiedName f ∉ called ∧
      ∃ body ∈ f.body, body.start.offset ≤ offset ∧ offset < body.stop.offset

instance (o called base src offset) : Decidable (Indirect o called base src offset) := by
  unfold Indirect; infer_instance

theorem uncalledMember {t : FileTree} {o : Options} {dir : String} {route : Route}
    {parsed : List SourceFile} {p : Package} (loaded : Package.Loaded t o dir route parsed p)
    (distinct : p.functionNames.Nodup) {base : String} (named : isName base = true)
    (d : Declaration) : d ∈ Overlay.uncalledIn (p.report o) (joinPath dir base) ↔
      ∃ g, Package.IsSource t o dir g ∧ g.name = base ∧ ∃ f ∈ Source.functions g.tree,
        Declaration.ofFunction g.path f = d ∧
          Declaration.qualifiedName f ∉ (p.report o).called := by
  have details : (p.report o).details = p.details := rfl
  rw [Overlay.uncalledIn, List.mem_filter, details, ← Catalogue.memberIff,
    Package.detailsMember distinct]
  constructor
  · rintro ⟨⟨g, source, f, declared, rfl⟩, missing⟩
    have isSource := (Package.sourceIff loaded g).mp source
    have last : fileName? g.path = some g.name := isSource.path ▸ fileNameJoin dir isSource.named
    rw [Bool.and_eq_true, decide_eq_true_eq, fileNameJoin dir named] at missing
    obtain ⟨uncalled, file⟩ := missing
    refine ⟨g, isSource, Option.some.inj (last.symm.trans file), f, declared, rfl, ?_⟩
    simpa [Declaration.ofFunction] using uncalled
  · rintro ⟨g, isSource, rfl, f, declared, rfl, uncalled⟩
    refine ⟨⟨g, (Package.sourceIff loaded g).mpr isSource, f, declared, rfl⟩, ?_⟩
    rw [Bool.and_eq_true, decide_eq_true_eq, ← isSource.path]
    exact ⟨by simpa [Declaration.ofFunction] using uncalled, rfl⟩

theorem uncalledAtOffset {t : FileTree} {o : Options} {dir : String} {route : Route}
    {parsed : List SourceFile} {p : Package} (loaded : Package.Loaded t o dir route parsed p)
    (distinct : p.functionNames.Nodup) {base : String} (named : isName base = true) {src : Bytes}
    (read : t.read (joinPath dir base) = .ok src) (offset : Nat) :
    (∃ d ∈ Overlay.uncalledIn (p.report o) (joinPath dir base), d.bodyContains offset = true) ↔
      Indirect o (p.report o).called base src offset := by
  simp only [uncalledMember loaded distinct named]
  constructor
  · rintro ⟨_, ⟨g, source, rfl, f, declared, rfl, uncalled⟩, contains⟩
    -- the file that was analyzed and the one that is shown are read from one path
    rw [source.read] at read
    cases read
    have placed := (Source.functionsPlaced source.tree).1 f declared
    exact ⟨source.selected, source.noTest, g.tree, source.tree, f, declared, uncalled,
      (Declaration.bodyContainsIff _ placed offset).mp contains⟩
  · rintro ⟨selected, noTest, tree, parses, f, declared, uncalled, contains⟩
    have placed := (Source.functionsPlaced parses).1 f declared
    refine ⟨_, ⟨⟨base, joinPath dir base, src, tree⟩, ?_, rfl, f, declared, rfl, uncalled⟩,
      (Declaration.bodyContainsIff _ placed offset).mpr contains⟩
    obtain ⟨go, kept⟩ := (Package.selectsIff o base).mp selected
    exact ⟨⟨⟨named, read, go, kept⟩, rfl, parses⟩, noTest⟩

namespace Overlay

/- The tag for a boundary, where `indirect` says which bytes are not called. -/
structure TagOf (indirect : Nat → Prop) (b : Boundary) (body : String) : Prop where
  ends : b.start = false → body = "/span"
  uncalled : b.start = true → (body = spanBody uncalledClass b ↔ 0 < b.count ∧ indirect b.offset)
  covered : b.start = true → ¬ (0 < b.count ∧ indirect b.offset) →
    ∃ n, body = spanBody ("cov" ++ Nat.repr n) b

theorem spanBodyCov (n : Nat) (b : Boundary) :
    spanBody ("cov" ++ Nat.repr n) b ≠ spanBody uncalledClass b := by
  unfold spanBody uncalledClass
  rw [Ne, ← String.toList_inj]
  simp

theorem isUncalledIff (uncalled : List Declaration) (b : Boundary) :
    isUncalled uncalled b = true ↔
      0 < b.count ∧ ∃ d ∈ uncalled, d.bodyContains b.offset = true := by
  simp [isUncalled]

theorem tagOfBody {uncalled : List Declaration} {indirect : Nat → Prop}
    (same : ∀ offset, (∃ d ∈ uncalled, d.bodyContains offset = true) ↔ indirect offset)
    (b : Boundary) : TagOf indirect b (tagBody uncalled b) := by
  have decided : isUncalled uncalled b = true ↔ 0 < b.count ∧ indirect b.offset := by
    rw [isUncalledIff, same]
  refine ⟨fun ends => by simp [tagBody, ends], fun starts => ?_, fun starts other => ?_⟩
  · rw [tagBody, if_pos starts, className, ← decided]
    by_cases here : isUncalled uncalled b = true
    · simp [here]
    · simp [here, spanBodyCov]
  · have here : ¬ isUncalled uncalled b = true := fun here => other (decided.mp here)
    exact ⟨heat b, by rw [tagBody, if_pos starts, className, if_neg here]⟩

def layer (body : Boundary → String) : Piece → Bytes
  | .byte b => byteText b
  | .tag b => Text.encode (Page.tag (body b))

theorem layerText (uncalled : List Declaration) :
    layer (tagBody uncalled) = Piece.text uncalled := by
  funext piece
  cases piece with
  | byte b => rfl
  | tag b => rw [layer, Piece.text, tagTextBody]

end Overlay

/- How a page shows the file of a profile: where its source is read from, where its tags stand, and
what they are. -/
structure Shown (t : FileTree) (o : Options) (dir : String) (called : Names) (q : Profile)
    (v : View) (base : String) (src : Bytes) (body : Boundary → String) : Prop where
  name : fileName? q.file = some base
  read : t.read (joinPath dir base) = .ok src
  laid : v.body =
    Text.decodeLossy ((Overlay.laid 0 src (q.boundaries src)).flatMap (Overlay.layer body))
  emitted : Page.openings v.body.toList = (q.boundaries src).map body
  tags : ∀ b ∈ q.boundaries src, Overlay.TagOf (Indirect o called base src) b (body b)

theorem viewSource {t : FileTree} {dir : String} {r : Report} {q : Profile} {v : View}
    (ok : Cover.view t dir r q = .ok v) : ∃ base src, fileName? q.file = some base ∧
      t.read (joinPath dir base) = .ok src ∧ Sheet.view r ⟨q, joinPath dir base, src⟩ = .ok v := by
  obtain ⟨path, found, ok⟩ := bindOk.mp ok
  obtain ⟨src, got, ok⟩ := bindOk.mp ok
  unfold Cover.findSource at found
  split at found
  · cases found
  · rename_i base last
    dsimp only at found
    split at found
    · cases found
      unfold Cover.readSource at got
      split at got
      · rename_i src read
        cases got
        exact ⟨base, src, last, read, ok⟩
      · cases got
    · cases found

theorem viewShown {t : FileTree} {o : Options} {dir : String} {p : Package}
    (loaded : Package.load t o dir = .ok p) (distinct : p.functionNames.Nodup) {q : Profile}
    {v : View} (ok : Cover.view t dir (p.report o) q = .ok v) :
    ∃ base src body, Shown t o dir (p.report o).called q v base src body := by
  obtain ⟨route, parsed, source⟩ := Package.loadedPackage loaded
  obtain ⟨base, src, last, read, shown⟩ := viewSource ok
  have named := fileNameNamed last
  have tagged := Sheet.viewTagged shown []
  refine ⟨base, src, Overlay.tagBody (Overlay.uncalledIn (p.report o) (joinPath dir base)),
    last, read, ?_, ?_, ?_⟩
  · rw [Sheet.viewBody shown, Overlay.layerText,
      ← Overlay.piecesLaid (Overlay.boundariesAhead q src)]
    rfl
  · rwa [List.append_nil, Page.openings, List.append_nil] at tagged
  · intro b _
    exact Overlay.tagOfBody (uncalledAtOffset source distinct named read) b

/- Where no two functions of a package go by one name, the spans of a page are of the class of
indirect coverage exactly where something ran in a function that no test calls. -/
theorem indirectCoverageMarked {t : FileTree} {o : Options} {dir text html : String} {p : Package}
    {r : Report} {profiles : List Profile} (parsed : Profile.parse text = .ok profiles)
    (loaded : Package.load t o dir = .ok p) (analyzes : analyze t o dir = .ok r)
    (rendered : Cover.render t dir r profiles = .ok html) (distinct : p.functionNames.Nodup) :
    ∃ mode views, html = page mode views ∧ List.Forall₂ (fun q v =>
      ∃ base src body, Shown t o dir r.called q v base src body) profiles views := by
  obtain rfl : p.report o = r := Except.ok.inj ((analyzed loaded).symm.trans analyzes)
  unfold Cover.render at rendered
  split at rendered
  · cases rendered
  · rename_i first rest
    obtain ⟨views, shown, made⟩ := bindOk.mp rendered
    cases made
    refine ⟨first.mode, views, rfl, ?_⟩
    exact (mapMEach.mp shown).imp fun _ _ => viewShown loaded distinct

def countText : String := "mode: count\ndairy/milk.go:3.23,3.25 1 3\n"

def countProfile : Profile := ⟨"dairy/milk.go", .count, [⟨⟨3, 23, 3, 25⟩, 1, 3⟩]⟩

theorem countParsed : Profile.parse countText = .ok [countProfile] :=
  toOptionIff.mp (by decide +kernel)

theorem countViewed : ∃ p v, Package.load halfCalled .standard "pkg" = .ok p ∧
    p.functionNames.Nodup ∧ (p.report .standard).called = .names ["Pour"] ∧
    Cover.view halfCalled "pkg" (p.report .standard) countProfile = .ok v := by
  have evaluated : (Package.load halfCalled .standard "pkg").toOption.map (fun p =>
      (decide p.functionNames.Nodup, (p.report .standard).called,
        (Cover.view halfCalled "pkg" (p.report .standard) countProfile).toOption.isSome)) =
      some (true, .names ["Pour"], true) := by
    simp only [Cover.view, View.ofProfile, Profile.boundariesSwept]
    decide +kernel
  obtain ⟨p, loaded, evaluated⟩ := toOptionMap.mp evaluated
  simp only [Prod.mk.injEq, decide_eq_true_eq, toOptionIsSome] at evaluated
  obtain ⟨distinct, called, v, viewed⟩ := evaluated
  exact ⟨p, v, loaded, distinct, called, viewed⟩

theorem countBoundaries {src : Bytes} (read : halfCalled.read "pkg/milk.go" = .ok src) :
    ∃ b c, countProfile.boundaries src = [b, c] ∧ (b.offset, b.start, b.count) = (50, true, 3) ∧
      c.start = false ∧ Indirect .standard (.names ["Pour"]) "milk.go" src 50 := by
  have evaluated : (halfCalled.read "pkg/milk.go").toOption.map (fun src =>
      ((countProfile.boundaries src).map fun b => (b.offset, b.start, b.count),
        decide (Indirect .standard (.names ["Pour"]) "milk.go" src 50))) =
      some ([(50, true, 3), (52, false, 0)], true) := by
    simp only [Profile.boundariesSwept]
    decide +kernel
  simp only [read, okToOption, Option.map_some, Option.some.injEq, Prod.mk.injEq,
    decide_eq_true_eq] at evaluated
  obtain ⟨boundaries, indirect⟩ := evaluated
  obtain ⟨b, rest, same, starts, boundaries⟩ := List.map_eq_cons_iff.mp boundaries
  obtain ⟨c, rest, rfl, ends, boundaries⟩ := List.map_eq_cons_iff.mp boundaries
  obtain rfl := List.map_eq_nil_iff.mp boundaries
  exact ⟨b, c, same, starts, congrArg (·.2.1) ends, indirect⟩

theorem uncalledBlockMarked : Profile.parse countText = .ok [countProfile] ∧ ∃ p r html,
    Package.load halfCalled .standard "pkg" = .ok p ∧
    analyze halfCalled .standard "pkg" = .ok r ∧
    Cover.render halfCalled "pkg" r [countProfile] = .ok html ∧ p.functionNames.Nodup ∧
    ∃ v src body, Shown halfCalled .standard "pkg" r.called countProfile v "milk.go" src body ∧
      Page.openings v.body.toList = ["span class=\"blanket-uncovered\" title=\"3\"", "/span"] := by
  obtain ⟨p, v, loaded, distinct, called, viewed⟩ := countViewed
  have rendered : Cover.render halfCalled "pkg" (p.report .standard) [countProfile] =
      .ok (page countProfile.mode [v]) := by
    simp [Cover.render, viewed]
  refine ⟨countParsed, p, p.report .standard, _, loaded, analyzed loaded, rendered, distinct, ?_⟩
  obtain ⟨mode, views, _, all⟩ :=
    indirectCoverageMarked countParsed loaded (analyzed loaded) rendered distinct
  cases all with
  | cons first _ =>
    obtain ⟨base, src, body, shown⟩ := first
    have last : fileName? countProfile.file = some "milk.go" := by decide +kernel
    obtain rfl : base = "milk.go" := Option.some.inj (shown.name.symm.trans last)
    obtain ⟨b, c, boundaries, starts, ends, indirect⟩ := countBoundaries shown.read
    simp only [Prod.mk.injEq] at starts
    obtain ⟨offset, starts, count⟩ := starts
    have emitted := shown.emitted
    have tags := shown.tags
    rw [boundaries] at emitted tags
    have opening := ((tags b (by simp)).uncalled starts).mpr
      ⟨by omega, by rwa [called, offset]⟩
    have closing := (tags c (by simp)).ends ends
    refine ⟨_, src, body, shown, ?_⟩
    rw [emitted, List.map_cons, List.map_singleton, opening, closing, Overlay.spanBody, count]
    rfl

end Uncalled
