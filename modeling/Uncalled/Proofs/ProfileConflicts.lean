import Uncalled.Proofs.ProfileMeaning
/-! Lines of a coverage profile that disagree on one block. Files are merged in the order in which
they appear and the blocks of a file in the order of their spans, so it is the first span of the
first such file at which reading stops, as long as no count passes its limit. -/
namespace Uncalled.Profile

def Clash (bs : List Block) (span : Span) : Prop :=
  ∃ a ∈ bs, ∃ b ∈ bs, a.span = span ∧ b.span = span ∧ a.statements ≠ b.statements

structure FirstClash (bs : List Block) (span : Span) : Prop where
  clash : Clash bs span
  least : ∀ other, Clash bs other → span.key ≤ other.key

def Bounded (mode : Mode) (bs : List Block) : Prop :=
  mode ≠ .set → ∀ span, mode.total (countsAt span bs) < numberLimit

/- The first file of which two lines disagree, in the order in which files appear, and its first
span of that kind. -/
structure FirstConflict (es : List (String × Block)) (file : String) (span : Span) : Prop where
  appears : ∃ before e after, es = before ++ e :: after ∧ e.1 = file ∧
    ∀ other ∈ before, ∀ s, ¬ Clash (blocksOf other.1 es) s
  first : FirstClash (blocksOf file es) span

theorem clashPerm {bs cs : List Block} (same : bs.Perm cs) (span : Span) :
    Clash bs span ↔ Clash cs span := by
  simp only [Clash, same.mem_iff]

theorem clashAbove {bs : List Block} {start : ℕ ×ₗ ℕ ×ₗ ℕ ×ₗ ℕ}
    (above : ∀ b ∈ bs, start ≤ b.span.key) {span : Span} (clash : Clash bs span) :
    start ≤ span.key := by
  obtain ⟨a, inside, _, _, rfl, _⟩ := clash
  exact above a inside

theorem clashJoined {mode : Mode} {a b : Block} (same : a.span = b.span)
    (agree : a.statements = b.statements) (bs : List Block) (span : Span) :
    Clash (joined mode a b :: bs) span ↔ Clash (a :: b :: bs) span := by
  simp [Clash, joined, same, agree]

theorem clashApart {a : Block} {bs : List Block} (first : ∀ b ∈ bs, a.span.key < b.span.key)
    (span : Span) : Clash (a :: bs) span ↔ Clash bs span := by
  constructor
  · intro ⟨b, left, c, right, here, there, differ⟩
    rcases List.mem_cons.mp left with rfl | inside
    · rcases List.mem_cons.mp right with rfl | behind
      · exact absurd rfl differ
      · exact absurd (there.trans here.symm) (apart (first c behind))
    · rcases List.mem_cons.mp right with rfl | behind
      · exact absurd (here.trans there.symm) (apart (first b inside))
      · exact ⟨b, inside, c, behind, here, there, differ⟩
  · intro ⟨b, left, c, right, rest⟩
    exact ⟨b, List.mem_cons_of_mem _ left, c, List.mem_cons_of_mem _ right, rest⟩

theorem totalSublist {mode : Mode} {ms ns : List Nat} (part : ms.Sublist ns) :
    mode.total ms ≤ mode.total ns := by
  induction part with
  | slnil => exact le_rfl
  | cons n part ih =>
    refine ih.trans ?_
    cases mode <;> simp [Mode.total, Mode.combine]
  | cons_cons n part ih =>
    cases mode <;> simp only [Mode.total, Mode.combine, List.foldr_cons] at ih ⊢ <;> omega

theorem boundedSublist {mode : Mode} {bs cs : List Block} (part : bs.Sublist cs)
    (bounded : Bounded mode cs) : Bounded mode bs := fun adds span =>
  lt_of_le_of_lt (totalSublist ((part.filter _).map _)) (bounded adds span)

theorem boundedFits {mode : Mode} {a b : Block} {bs : List Block} (same : a.span = b.span)
    (bounded : Bounded mode (a :: b :: bs)) : mode ≠ .set → a.count + b.count < numberLimit := by
  intro adds
  have total := bounded adds b.span
  rw [countsAtCons, countsAtCons, if_pos same, if_pos rfl] at total
  cases mode <;> simp [Mode.total, Mode.combine] at adds total <;> omega

theorem mergeTwoFails {file : String} {mode : Mode} {a b : Block} {e : ProfileError}
    (failed : mergeTwo file mode a b = .error e) :
    (a.statements ≠ b.statements ∧ e = .inconsistent file b.span.startLine) ∨
      (mode ≠ .set ∧ numberLimit ≤ a.count + b.count ∧ e = .overflow) := by
  unfold mergeTwo at failed
  split at failed
  · next differ =>
    cases failed
    exact .inl ⟨differ, rfl⟩
  · split at failed
    · cases failed
    · next adds =>
      have fails : checkedAdd a.count b.count = .error e := pureFails.mp failed
      unfold checkedAdd at fails
      split at fails
      · cases fails
      · next exceeds =>
        cases fails
        exact .inr ⟨adds, Nat.not_lt.mp exceeds, rfl⟩

theorem mergeFromStops {file : String} {mode : Mode} {last b : Block} {bs : List Block}
    {e : ProfileError} (failed : mergeFrom file mode last (b :: bs) = .error e) :
    (last.span = b.span ∧ (mergeTwo file mode last b = .error e ∨
      ∃ one, mergeTwo file mode last b = .ok one ∧ mergeFrom file mode one bs = .error e)) ∨
    (last.span ≠ b.span ∧ mergeFrom file mode b bs = .error e) := by
  rw [mergeFrom] at failed
  split at failed
  · next same => exact .inl ⟨same, bindFails.mp failed⟩
  · next different => exact .inr ⟨different, pureFails.mp failed⟩

theorem mergeFromFails {file : String} {mode : Mode} {last : Block} {bs : List Block}
    {e : ProfileError} (sorted : (last :: bs).Pairwise fun a b => a.span.key ≤ b.span.key)
    (bounded : Bounded mode (last :: bs)) (failed : mergeFrom file mode last bs = .error e) :
    ∃ span, FirstClash (last :: bs) span ∧ e = .inconsistent file span.startLine := by
  induction bs generalizing last with
  | nil => cases failed
  | cons b bs ih =>
    obtain ⟨least, rest⟩ := List.pairwise_cons.mp sorted
    rcases mergeFromStops failed with ⟨same, here | ⟨one, two, later⟩⟩ | ⟨different, later⟩
    · rcases mergeTwoFails here with ⟨differ, cause⟩ | ⟨adds, exceeds, -⟩
      · have clash : Clash (last :: b :: bs) b.span :=
          ⟨last, by simp, b, by simp, same, rfl, differ⟩
        refine ⟨b.span, ⟨clash, fun other found => ?_⟩, cause⟩
        rw [← same]
        exact clashAbove (List.forall_mem_cons.mpr ⟨le_rfl, least⟩) found
      · exact absurd (boundedFits same bounded adds) (Nat.not_lt.mpr exceeds)
    · obtain ⟨⟨agree, -⟩, rfl⟩ := mergeTwoIff.mp two
      have kept : Bounded mode (joined mode last b :: bs) := by
        intro adds span
        rw [totalJoined mode same]
        exact bounded adds span
      have ordered : (joined mode last b :: bs).Pairwise fun c d => c.span.key ≤ d.span.key :=
        List.pairwise_cons.mpr ⟨fun c inside => least c (List.mem_cons_of_mem _ inside),
          (List.pairwise_cons.mp rest).2⟩
      obtain ⟨span, ⟨clash, first⟩, cause⟩ := ih ordered kept later
      simp only [clashJoined same agree] at clash first
      exact ⟨span, ⟨clash, first⟩, cause⟩
    · obtain ⟨span, ⟨clash, first⟩, cause⟩ :=
        ih rest (boundedSublist (List.sublist_cons_self ..) bounded) later
      simp only [← clashApart (laterSpans different sorted)] at clash first
      exact ⟨span, ⟨clash, first⟩, cause⟩

theorem mergedAgrees {mode : Mode} {bs out : List Block} (merged : Merged mode bs out)
    (span : Span) : ¬ Clash bs span := by
  intro ⟨a, left, b, right, here, there, differ⟩
  obtain ⟨o, inside, own⟩ := (merged.spans span).mpr ⟨a, left, here⟩
  have first := merged.statements o inside a left (here.trans own.symm)
  have second := merged.statements o inside b right (there.trans own.symm)
  exact differ (first.trans second.symm)

theorem firstUnique {bs : List Block} {s t : Span} (left : FirstClash bs s)
    (right : FirstClash bs t) : s = t :=
  Span.keyInj.mp (le_antisymm (left.least t right.clash) (right.least s left.clash))

theorem mergeStops {file : String} {mode : Mode} {bs : List Block} {e : ProfileError}
    (bounded : Bounded mode bs) (failed : merge file mode bs = .error e) :
    ∃ span, FirstClash bs span ∧ e = .inconsistent file span.startLine := by
  have perm : (bs.mergeSort fun a b => a.span.upTo b.span).Perm bs := List.mergeSort_perm ..
  have sorted : (bs.mergeSort fun a b => a.span.upTo b.span).Pairwise
      fun a b => a.span.key ≤ b.span.key :=
    mergeSortByKey (fun a b => Span.upToKey a.span b.span) bs
  unfold merge at failed
  split at failed
  · cases failed
  · next b cs list =>
    rw [list] at sorted perm
    have kept : Bounded mode (b :: cs) := by
      intro adds span
      have same : mode.total (countsAt span (b :: cs)) = mode.total (countsAt span bs) :=
        totalPerm mode ((perm.filter _).map _)
      rw [same]
      exact bounded adds span
    obtain ⟨span, ⟨clash, first⟩, cause⟩ := mergeFromFails sorted kept failed
    simp only [clashPerm perm] at clash first
    exact ⟨span, ⟨clash, first⟩, cause⟩

theorem mergeFails {file : String} {mode : Mode} {bs : List Block} {e : ProfileError}
    (below : ∀ b ∈ bs, b.count < numberLimit) (bounded : Bounded mode bs) :
    merge file mode bs = .error e ↔
      ∃ span, FirstClash bs span ∧ e = .inconsistent file span.startLine := by
  constructor
  · exact mergeStops bounded
  · intro ⟨span, first, cause⟩
    cases outcome : merge file mode bs with
    | ok out => exact absurd first.clash (mergedAgrees ((mergeIff below).mp outcome) span)
    | error other =>
      obtain ⟨own, found, same⟩ := mergeStops bounded outcome
      rw [same, cause, firstUnique found first]

theorem addEntryFiles (gs : List (String × List Block)) (e : String × Block) :
    (addEntry gs e).map Prod.fst =
      if e.1 ∈ gs.map Prod.fst then gs.map Prod.fst else gs.map Prod.fst ++ [e.1] := by
  induction gs with
  | nil => simp [addEntry]
  | cons g gs ih =>
    rw [addEntry]
    split
    · next here => simp [here]
    · next other =>
      rw [List.map_cons, ih]
      split <;> simp_all [eq_comm]

theorem groupsOwn (es : List (String × Block)) : ∀ g ∈ groups es, g.2 = blocksOf g.1 es := by
  obtain ⟨names, -, -, grouped⟩ := groupsNames es
  intro g inside
  rw [grouped] at inside
  obtain ⟨name, -, rfl⟩ := List.mem_map.mp inside
  rfl

theorem groupsKnown {es : List (String × Block)} {e : String × Block} (inside : e ∈ es) :
    e.1 ∈ (groups es).map Prod.fst := by
  obtain ⟨names, -, known, grouped⟩ := groupsNames es
  rw [grouped, List.map_map]
  exact List.mem_map.mpr ⟨e.1, (known e.1).mpr ⟨e, inside, rfl⟩, rfl⟩

theorem groupsAppear {es : List (String × Block)} {before after : List String} {name : String}
    (files : (groups es).map Prod.fst = before ++ name :: after) :
    ∃ left e right, es = left ++ e :: right ∧ e.1 = name ∧ ∀ other ∈ left, other.1 ∈ before := by
  induction es using List.reverseRecOn generalizing after with
  | nil => simp [groups] at files
  | append_singleton es e ih =>
    have step : groups (es ++ [e]) = addEntry (groups es) e := by simp [groups]
    have longer {more : List String} (old : (groups es).map Prod.fst = before ++ name :: more) :
        ∃ left f right, es ++ [e] = left ++ f :: right ∧ f.1 = name ∧
          ∀ other ∈ left, other.1 ∈ before := by
      obtain ⟨left, f, right, split, rest⟩ := ih old
      exact ⟨left, f, right ++ [e], by simp [split], rest⟩
    rw [step, addEntryFiles] at files
    split at files
    · exact longer files
    · rcases List.eq_nil_or_concat after with rfl | ⟨more, last, rfl⟩
      · obtain ⟨old, new⟩ := List.append_inj' files rfl
        refine ⟨es, e, [], rfl, (List.cons.inj new).1, fun other inside => ?_⟩
        exact old ▸ groupsKnown inside
      · rw [List.concat_eq_append, ← List.cons_append, ← List.append_assoc] at files
        exact longer (List.append_inj' files rfl).1

section
variable {mode : Mode} {es : List (String × Block)}

theorem ofGroupFails {name : String} {bs : List Block} {e : ProfileError} :
    ofGroup mode (name, bs) = .error e ↔ merge name mode bs = .error e :=
  pureFails

theorem assembleError {e : ProfileError} :
    assemble mode es = .error e ↔ (groups es).mapM (ofGroup mode) = .error e :=
  pureFails

theorem conflictUnique {file other : String} {s t : Span} (left : FirstConflict es file s)
    (right : FirstConflict es other t) : file = other ∧ s = t := by
  classical
  have found {name : String} {span : Span} (first : FirstConflict es name span) :
      ∃ e, es.find? (fun e => decide (∃ s, Clash (blocksOf e.1 es) s)) = some e ∧ e.1 = name := by
    obtain ⟨before, e, after, split, rfl, earlier⟩ := first.appears
    refine ⟨e, List.find?_eq_some_iff_append.mpr ⟨?_, before, after, split, ?_⟩, rfl⟩
    · exact decide_eq_true ⟨span, first.first.clash⟩
    · intro f inside
      simpa using earlier f inside
  obtain ⟨e, first, rfl⟩ := found left
  obtain ⟨f, second, rfl⟩ := found right
  cases first.symm.trans second
  exact ⟨rfl, firstUnique left.first right.first⟩

theorem meaningAgrees {ps : List Profile} (meaning : Meaning mode es ps) (file : String)
    (span : Span) : ¬ Clash (blocksOf file es) span := by
  intro clash
  have ⟨a, inside, _⟩ := clash
  obtain ⟨e, among, -⟩ := List.mem_map.mp inside
  obtain ⟨entry, own⟩ := List.mem_filter.mp among
  obtain ⟨p, found, rfl⟩ := (meaning.files file).mpr ⟨e, entry, of_decide_eq_true own⟩
  exact mergedAgrees (meaning.blocks p found) span clash

variable (below : ∀ e ∈ es, e.2.count < numberLimit)
  (bounded : ∀ file, Bounded mode (blocksOf file es))
include below bounded

theorem assembleStops {e : ProfileError} (failed : assemble mode es = .error e) :
    ∃ file span, FirstConflict es file span ∧ e = .inconsistent file span.startLine := by
  obtain ⟨before, ⟨name, bs⟩, after, split, fails, others⟩ := mapMFails.mp (assembleError.mp failed)
  have own : ∀ g ∈ groups es, g.2 = blocksOf g.1 es := groupsOwn es
  obtain rfl : bs = blocksOf name es := own (name, bs) (by simp [split])
  obtain ⟨span, first, cause⟩ :=
    (mergeFails (blocksBelow below name) (bounded name)).mp (ofGroupFails.mp fails)
  have files : (groups es).map Prod.fst = before.map Prod.fst ++ name :: after.map Prod.fst := by
    simp [split]
  obtain ⟨left, entry, right, whole, named, early⟩ := groupsAppear files
  refine ⟨name, span, ⟨⟨left, entry, right, whole, named, fun other inside s => ?_⟩, first⟩, cause⟩
  obtain ⟨⟨file, cs⟩, among, same⟩ := List.mem_map.mp (early other inside)
  obtain rfl : cs = blocksOf file es := own (file, cs) (by simp [split, among])
  obtain ⟨p, ok⟩ := others _ among
  rw [← same]
  exact mergedAgrees ((ofGroupIff (blocksBelow below file)).mp ok).2.2 s

theorem assembleFails {e : ProfileError} : assemble mode es = .error e ↔
    ∃ file span, FirstConflict es file span ∧ e = .inconsistent file span.startLine := by
  constructor
  · exact assembleStops below bounded
  · intro ⟨file, span, conflict, cause⟩
    cases outcome : assemble mode es with
    | error other =>
      obtain ⟨name, start, found, same⟩ := assembleStops below bounded outcome
      obtain ⟨rfl, rfl⟩ := conflictUnique found conflict
      rw [same, cause]
    | ok ps =>
      exact absurd conflict.first.clash (meaningAgrees ((assembleIff below).mp outcome) file span)

theorem assembleOk : (∃ ps, assemble mode es = .ok ps) ↔
    ∀ file span, ¬ Clash (blocksOf file es) span := by
  constructor
  · intro ⟨ps, ok⟩
    exact meaningAgrees ((assembleIff below).mp ok)
  · intro agrees
    cases outcome : assemble mode es with
    | ok ps => exact ⟨ps, rfl⟩
    | error e =>
      obtain ⟨file, span, conflict, -⟩ := assembleStops below bounded outcome
      exact absurd conflict.first.clash (agrees file span)

end

def Late (e : ProfileError) : Prop := e = .overflow ∨ ∃ file line, e = .inconsistent file line

theorem mergeFromLate {file : String} {mode : Mode} {last : Block} {bs : List Block}
    {e : ProfileError} (failed : mergeFrom file mode last bs = .error e) : Late e := by
  induction bs generalizing last with
  | nil => cases failed
  | cons b bs ih =>
    rcases mergeFromStops failed with ⟨-, here | ⟨one, -, later⟩⟩ | ⟨-, later⟩
    · rcases mergeTwoFails here with ⟨-, cause⟩ | ⟨-, -, cause⟩
      · exact .inr ⟨_, _, cause⟩
      · exact .inl cause
    · exact ih later
    · exact ih later

theorem assembleLate {mode : Mode} {es : List (String × Block)} {e : ProfileError}
    (failed : assemble mode es = .error e) : Late e := by
  obtain ⟨_, ⟨name, bs⟩, _, _, fails, _⟩ := mapMFails.mp (assembleError.mp failed)
  have merges := ofGroupFails.mp fails
  unfold merge at merges
  split at merges
  · cases merges
  · exact mergeFromLate merges

end Uncalled.Profile
