import Uncalled.Command
import Uncalled.Proofs.Catalogue
/-! The counts of a report agree. Called and missing functions together are the declared ones, the
score is full exactly when nothing is missing, and there is a score exactly when something is
declared. -/
namespace Uncalled

/- What every analysis keeps: the details are found under their own names, and only declared names
count as called. -/
structure Report.Consistent (r : Report) : Prop where
  keys : r.declared = r.details.keys
  calledDeclared : ∀ name ∈ r.called, name ∈ r.declared

theorem packageConsistent (o : Options) (p : Package) : (p.report o).Consistent where
  keys := rfl
  calledDeclared := by
    intro name member
    exact List.contains_iff_mem.mp (List.mem_filter.mp member).2

theorem analyzed {t : FileTree} {o : Options} {dir : String} {p : Package}
    (loaded : Package.load t o dir = .ok p) : analyze t o dir = .ok (p.report o) := by
  simp [analyze, loaded]

theorem analyzedPackage {t : FileTree} {o : Options} {dir : String} {r : Report}
    (ok : analyze t o dir = .ok r) : ∃ p, Package.load t o dir = .ok p ∧ r = p.report o := by
  cases loaded : Package.load t o dir with
  | error e => simp [analyze, loaded] at ok
  | ok p =>
    rw [analyzed loaded] at ok
    exact ⟨p, rfl, (Except.ok.inj ok).symm⟩

theorem analyzedConsistent {t : FileTree} {o : Options} {dir : String} {r : Report}
    (ok : analyze t o dir = .ok r) : r.Consistent := by
  obtain ⟨p, _, rfl⟩ := analyzedPackage ok
  exact packageConsistent o p

@[simp] theorem byFileFlat (ds : List Declaration) : (byFile ds).flatMap (·.2) = ds := by
  induction ds with
  | nil => rfl
  | cons d ds ih =>
    unfold byFile
    split
    · rename_i empty
      rw [empty] at ih
      simp [← ih]
    · rename_i file group rest grouped
      rw [grouped] at ih
      split <;> simp [← ih]

theorem byFileEmpty (ds : List Declaration) : (byFile ds).isEmpty = ds.isEmpty := by
  cases ds with
  | nil => rfl
  | cons d ds =>
    unfold byFile
    split
    · rfl
    · split <;> rfl

namespace Report

def missingNames (r : Report) : List String :=
  r.declared.entries.filter fun name => !r.called.entries.contains name

theorem findName {r : Report} {name : String} {d : Declaration} (found : r.find? name = some d) :
    d.name = name := (Catalogue.getFound found).2

theorem findDeclared {r : Report} (ok : r.Consistent) (name : String) :
    name ∈ r.declared ↔ ∃ d, r.find? name = some d := by
  rw [ok.keys]
  exact Catalogue.getIsSome r.details name

theorem missingByName {r : Report} (ok : r.Consistent) :
    r.missing.map Declaration.name = r.missingNames := by
  have general : ∀ names : List String, (∀ name ∈ names, name ∈ r.declared) →
      (names.filterMap r.find?).map Declaration.name = names := by
    intro names
    induction names with
    | nil => intro _; rfl
    | cons name names ih =>
      intro declared
      obtain ⟨first, rest⟩ := List.forall_mem_cons.mp declared
      -- a declared name is always found, so the look-up drops nothing
      obtain ⟨d, found⟩ := (findDeclared ok name).mp first
      rw [List.filterMap_cons_some found, List.map_cons, findName found, ih rest]
  exact general r.missingNames fun name member => (List.mem_filter.mp member).1

theorem calledFilter {r : Report} (ok : r.Consistent) :
    r.called = r.declared.filter r.called.entries.contains := by
  refine Catalogue.sameMembers fun name => ?_
  rw [Catalogue.memberIff, Catalogue.memberIff, Catalogue.filterEntries, List.mem_filter,
    List.contains_iff_mem]
  exact ⟨fun member => ⟨ok.calledDeclared name member, member⟩, fun member => member.2⟩

theorem calledPlusMissing {r : Report} (ok : r.Consistent) :
    r.called.entries.length + r.missing.length = r.declared.entries.length := by
  have called := congrArg (fun names => names.entries.length) (calledFilter ok)
  have missing := congrArg List.length (missingByName ok)
  rw [List.length_map] at missing
  rw [Catalogue.filterEntries] at called
  have split : (r.declared.entries.filter r.called.entries.contains).length +
      r.missingNames.length = r.declared.entries.length := by
    simpa [missingNames, List.countP_eq_length_filter] using
      (List.length_eq_countP_add_countP r.called.entries.contains).symm
  omega

theorem missingNone {r : Report} (ok : r.Consistent) : r.missing = [] ↔ r.called = r.declared := by
  constructor
  · intro complete
    have nothing : r.missingNames = [] := by rw [← missingByName ok, complete]; rfl
    refine Catalogue.sameMembers fun name => ?_
    refine ⟨ok.calledDeclared name, fun declared => ?_⟩
    have covered := List.filter_eq_nil_iff.mp nothing name declared
    simpa using covered
  · intro same
    have counts := calledPlusMissing ok
    rw [same] at counts
    exact List.eq_nil_of_length_eq_zero (by omega)

end Report

theorem scoreBound {called declared : Nat} (below : called ≤ declared) :
    100 * called / declared ≤ 100 :=
  Nat.div_le_of_le_mul (by rw [Nat.mul_comm declared]; exact Nat.mul_le_mul_left 100 below)

theorem scoreFull {called declared : Nat} (positive : 0 < declared) (below : called ≤ declared) :
    100 * called / declared = 100 ↔ called = declared := by
  constructor
  · intro full
    have enough : 100 * declared ≤ 100 * called := (Nat.le_div_iff_mul_le positive).mp full.ge
    omega
  · intro same
    rw [same, Nat.mul_div_cancel _ positive]

namespace Gap

structure Source (r : Report) (g : Gap) : Prop where
  declaredCount : g.declaredCount = r.declared.entries.length
  calledCount : g.calledCount = r.called.entries.length
  score : g.score = 100 * r.called.entries.length / r.declared.entries.length
  details : g.details = byFile (r.missing.mergeSort listedBefore)

theorem ofReportNone {r : Report} (nothing : r.declared.entries = []) : ofReport? r = none := by
  simp [ofReport?, nothing]

theorem ofReportSome {r : Report} (declares : r.declared.entries ≠ []) :
    ∃ g, ofReport? r = some g ∧ Source r g := by
  have notEmpty : r.declared.entries.isEmpty = false := by simpa using declares
  simp only [ofReport?, notEmpty]
  exact ⟨_, rfl, rfl, rfl, rfl, rfl⟩

theorem missingCountSource {r : Report} {g : Gap} (source : Source r g) :
    g.missingCount = r.missing.length := by
  rw [missingCount, source.details, byFileFlat, List.length_mergeSort]

theorem completeSource {r : Report} {g : Gap} (source : Source r g) :
    g.isComplete = true ↔ r.missing = [] := by
  rw [isComplete, source.details, byFileEmpty, List.isEmpty_iff]
  rw [← List.length_eq_zero_iff, List.length_mergeSort, List.length_eq_zero_iff]

structure Conserved (r : Report) (g : Gap) : Prop where
  declared : g.declaredCount = r.declared.entries.length
  called : g.calledCount = r.called.entries.length
  counts : g.calledCount + g.missingCount = g.declaredCount
  score : g.score = 100 * g.calledCount / g.declaredCount
  bound : g.score ≤ 100
  complete : g.isComplete = true ↔ g.score = 100
  full : g.score = 100 ↔ r.called = r.declared

theorem conserved {r : Report} {g : Gap} (ok : r.Consistent)
    (declares : r.declared.entries ≠ []) (source : Source r g) : Conserved r g := by
  have counts := Report.calledPlusMissing ok
  have below : r.called.entries.length ≤ r.declared.entries.length := by omega
  have full : g.score = 100 ↔ r.called = r.declared := by
    rw [source.score, scoreFull (List.length_pos_iff.mpr declares) below, ← Report.missingNone ok,
      ← List.length_eq_zero_iff]
    omega
  refine ⟨source.declaredCount, source.calledCount, ?_, ?_, ?_, ?_, full⟩
  · rw [source.calledCount, source.declaredCount, missingCountSource source, counts]
  · rw [source.score, source.calledCount, source.declaredCount]
  · rw [source.score]
    exact scoreBound below
  · rw [completeSource source, Report.missingNone ok, full]

end Gap

theorem nothingDeclaredFails {t : FileTree} {config : Option String} {dir : String}
    {settings : Settings} {r : Report}
    (reported : Command.analyzeWith t config dir = .ok (settings, r))
    (nothing : r.declared.entries = []) (colors failOnFound json : Bool) :
    Command.runAnalyze colors t config dir failOnFound json =
      .error (.analysis .nothingDeclared) := by
  simp [Command.runAnalyze, reported, Gap.ofReportNone nothing]

/- The report of an analysis, the gap taken from it and the score agree. -/
theorem analysisConserved {t : FileTree} {o : Options} {dir : String} {r : Report}
    (ok : analyze t o dir = .ok r) :
    (∀ name, name ∈ r.declared ↔ ∃ d, r.find? name = some d) ∧
    (∀ name d, r.find? name = some d → d.name = name) ∧
    (∀ d ∈ r.details, r.find? d.name = some d) ∧
    r.declared.entries.Pairwise (· < ·) ∧ r.called.entries.Pairwise (· < ·) ∧
    (∀ name ∈ r.called, name ∈ r.declared) ∧
    (r.declared.entries ≠ [] → ∃ g, Gap.ofReport? r = some g ∧ g.Conserved r) ∧
    (r.declared.entries = [] → Gap.ofReport? r = none ∧
      ∀ config settings colors failOnFound json,
        Command.analyzeWith t config dir = .ok (settings, r) →
          Command.runAnalyze colors t config dir failOnFound json =
            .error (.analysis .nothingDeclared)) := by
  have consistent := analyzedConsistent ok
  refine ⟨Report.findDeclared consistent, fun _ _ found => Report.findName found,
    fun _ member => Catalogue.getMember member, r.declared.sorted, r.called.sorted,
    consistent.calledDeclared, ?_, ?_⟩
  · intro declares
    obtain ⟨g, found, source⟩ := Gap.ofReportSome declares
    exact ⟨g, found, Gap.conserved consistent declares source⟩
  · intro nothing
    refine ⟨Gap.ofReportNone nothing, ?_⟩
    intro config settings colors failOnFound json reported
    exact nothingDeclaredFails reported nothing colors failOnFound json

def halfCalled : FileTree :=
  ⟨[], [(["pkg", "milk.go"],
      Text.encode "package milk\nfunc Pour() \x7b\x7d\nfunc (m *Milk) Sour() \x7b\x7d\n"),
    (["pkg", "milk_test.go"], Text.encode "package milk\nfunc TestPour(t *T) \x7b Pour() \x7d\n")]⟩

def terminal : Host := ⟨true, fun src => Source.Point.origin.after src⟩

theorem halfCalledConserved : ∃ r g, analyze halfCalled .standard "pkg" = .ok r ∧
    r.declared.entries = ["Milk.Sour", "Pour"] ∧ r.called.entries = ["Pour"] ∧
    Gap.ofReport? r = some g ∧ g.score = 50 ∧ g.Conserved r := by
  have reported : (analyze halfCalled .standard "pkg").toOption.map
      (fun r => (r.declared.entries, r.called.entries)) =
        some (["Milk.Sour", "Pour"], ["Pour"]) := by
    decide +kernel
  obtain ⟨r, ok, reported⟩ := toOptionMap.mp reported
  obtain ⟨declared, called⟩ := Prod.mk.inj reported
  obtain ⟨g, found, conserved⟩ := (analysisConserved ok).2.2.2.2.2.2.1 (by simp [declared])
  refine ⟨r, g, ok, declared, called, found, ?_, conserved⟩
  rw [conserved.score, conserved.called, conserved.declared, declared, called]
  rfl

end Uncalled
