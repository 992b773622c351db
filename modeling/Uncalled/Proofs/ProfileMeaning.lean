import Mathlib.Data.List.Induction
import Mathlib.Data.Prod.Lex
import Mathlib.Data.String.Basic
import Uncalled.Proofs.ByteOrder
import Uncalled.Proofs.Lists
import Uncalled.Proofs.ProfileText
/-! What a coverage profile means. The blocks of a file are known by their spans: each span that a
line of the file has stands there once, with the counts of all those lines taken together. The
readers only compare neighbours; that this is enough rests on the order of the spans. -/
namespace Uncalled
open Text (encode encodeLt)

def Span.key (s : Span) : ℕ ×ₗ ℕ ×ₗ ℕ ×ₗ ℕ :=
  toLex (s.startLine, toLex (s.startColumn, toLex (s.endLine, s.endColumn)))

theorem Span.keyInj {a b : Span} : a.key = b.key ↔ a = b := by
  cases a
  cases b
  simp [Span.key]

theorem Span.upToKey (a b : Span) : a.upTo b = true ↔ a.key ≤ b.key := by
  simp only [Span.upTo, Span.key, Prod.Lex.toLex_le_toLex, Bool.or_eq_true, Bool.and_eq_true,
    decide_eq_true_eq]

/- In set mode a block counts as often as it does in the line where it counts most, else all its
lines add up. -/
def Mode.combine : Mode → Nat → Nat → Nat
  | .set, m, n => max m n
  | _, m, n => m + n

def Mode.total (mode : Mode) (counts : List Nat) : Nat := counts.foldr mode.combine 0

namespace Profile

def countsAt (span : Span) (bs : List Block) : List Nat :=
  (bs.filter fun b => b.span = span).map Block.count

structure Merged (mode : Mode) (bs out : List Block) : Prop where
  sorted : out.Pairwise fun a b => a.span.key < b.span.key
  spans : ∀ span, (∃ b ∈ out, b.span = span) ↔ ∃ b ∈ bs, b.span = span
  statements : ∀ b ∈ out, ∀ line ∈ bs, line.span = b.span → line.statements = b.statements
  count : ∀ b ∈ out, b.count = mode.total (countsAt b.span bs)
  below : ∀ b ∈ out, b.count < numberLimit

def joined (mode : Mode) (a b : Block) : Block := { a with count := mode.combine a.count b.count }

theorem mergeTwoIff {file : String} {mode : Mode} {a b c : Block} :
    mergeTwo file mode a b = .ok c ↔ (a.statements = b.statements ∧
      (mode ≠ .set → a.count + b.count < numberLimit)) ∧ joined mode a b = c := by
  unfold mergeTwo
  by_cases agree : a.statements = b.statements
  · rw [if_neg (by simpa using agree)]
    cases mode with
    | set => simp [agree, joined, Mode.combine]
    | _ =>
      by_cases fits : a.count + b.count < numberLimit <;>
        simp [agree, fits, joined, Mode.combine, checkedAdd]
  · simp [agree]

theorem countsAtCons (span : Span) (b : Block) (bs : List Block) :
    countsAt span (b :: bs) = if b.span = span then b.count :: countsAt span bs
      else countsAt span bs := by
  by_cases same : b.span = span <;> simp [countsAt, same]

theorem countsAtNone {span : Span} {bs : List Block} (absent : ∀ b ∈ bs, b.span ≠ span) :
    countsAt span bs = [] := by
  simpa [countsAt] using absent

theorem totalJoined (mode : Mode) {a b : Block} (same : a.span = b.span) (bs : List Block)
    (span : Span) : mode.total (countsAt span (joined mode a b :: bs)) =
      mode.total (countsAt span (a :: b :: bs)) := by
  rw [countsAtCons, countsAtCons, countsAtCons, ← same]
  by_cases here : a.span = span
  · rw [if_pos here, if_pos here, if_pos (show (joined mode a b).span = span from here)]
    cases mode <;> simp [Mode.total, Mode.combine, joined, max_assoc, Nat.add_assoc]
  · rw [if_neg here, if_neg here, if_neg (show (joined mode a b).span ≠ span from here)]

theorem mergedNil {mode : Mode} {out : List Block} : Merged mode [] out ↔ out = [] := by
  constructor
  · intro merged
    cases out with
    | nil => rfl
    | cons b out =>
      obtain ⟨_, inside, _⟩ := (merged.spans b.span).mp ⟨b, List.mem_cons_self, rfl⟩
      cases inside
  · rintro rfl
    exact ⟨.nil, by simp, by simp, by simp, by simp⟩

theorem spansJoined {mode : Mode} {a b : Block} (same : a.span = b.span) (bs : List Block)
    (span : Span) : (∃ c ∈ joined mode a b :: bs, c.span = span) ↔
      ∃ c ∈ a :: b :: bs, c.span = span := by
  simp [joined, same]

theorem mergedSame {mode : Mode} {a b : Block} {bs out : List Block} (same : a.span = b.span) :
    Merged mode (a :: b :: bs) out ↔ (a.statements = b.statements ∧
      (mode ≠ .set → a.count + b.count < numberLimit)) ∧
      Merged mode (joined mode a b :: bs) out := by
  constructor
  · intro merged
    obtain ⟨o, inside, span⟩ := (merged.spans a.span).mpr ⟨a, List.mem_cons_self, rfl⟩
    have first : a.statements = o.statements := merged.statements o inside a (by simp) span.symm
    have second : b.statements = o.statements :=
      merged.statements o inside b (by simp) (same.symm.trans span.symm)
    refine ⟨⟨first.trans second.symm, ?_⟩, merged.sorted, ?_, ?_, ?_, merged.below⟩
    · intro adds
      have total := merged.count o inside
      have below := merged.below o inside
      rw [span, countsAtCons, countsAtCons, if_pos rfl, if_pos same.symm] at total
      cases mode <;> simp [Mode.total, Mode.combine] at adds total <;> omega
    · intro span
      rw [merged.spans, spansJoined same]
    · intro c among line inLines here
      rcases List.mem_cons.mp inLines with rfl | behind
      · exact merged.statements c among a (by simp) here
      · exact merged.statements c among line (by simp [behind]) here
    · intro c among
      rw [merged.count c among, totalJoined mode same]
  · intro ⟨⟨agree, _⟩, merged⟩
    refine ⟨merged.sorted, ?_, ?_, ?_, merged.below⟩
    · intro span
      rw [merged.spans, spansJoined same]
    · intro c among line inLines here
      have lead := merged.statements c among (joined mode a b) (by simp)
      rcases List.mem_cons.mp inLines with rfl | behind
      · exact lead here
      · rcases List.mem_cons.mp behind with rfl | deeper
        · exact agree ▸ lead (same.trans here)
        · exact merged.statements c among line (by simp [deeper]) here
    · intro c among
      rw [merged.count c among, totalJoined mode same]

theorem totalAlone (mode : Mode) {a : Block} {bs : List Block}
    (absent : ∀ b ∈ bs, b.span ≠ a.span) :
    mode.total (countsAt a.span (a :: bs)) = a.count := by
  rw [countsAtCons, if_pos rfl, countsAtNone absent]
  cases mode <;> simp [Mode.total, Mode.combine]

theorem apart {a b : Block} (less : a.span.key < b.span.key) : b.span ≠ a.span := by
  intro same
  rw [same] at less
  exact lt_irrefl _ less

theorem mergedCons {mode : Mode} {a : Block} {bs rest : List Block}
    (first : ∀ b ∈ bs, a.span.key < b.span.key) (later : ∀ b ∈ rest, a.span.key < b.span.key)
    (below : a.count < numberLimit) :
    Merged mode (a :: bs) (a :: rest) ↔ Merged mode bs rest := by
  constructor
  · intro merged
    refine ⟨(List.pairwise_cons.mp merged.sorted).2, ?_, ?_, ?_, ?_⟩
    · intro span
      have both := merged.spans span
      by_cases here : a.span = span
      · subst here
        constructor
        · intro ⟨b, inside, same⟩
          exact absurd same (apart (later b inside))
        · intro ⟨b, inside, same⟩
          exact absurd same (apart (first b inside))
      · simpa [here] using both
    · intro b inside line inLines
      exact merged.statements b (by simp [inside]) line (by simp [inLines])
    · intro b inside
      rw [merged.count b (by simp [inside]), countsAtCons, if_neg (apart (later b inside)).symm]
    · intro b inside
      exact merged.below b (by simp [inside])
  · intro merged
    refine ⟨List.pairwise_cons.mpr ⟨later, merged.sorted⟩, ?_, ?_, ?_, ?_⟩
    · intro span
      simpa using or_congr_right (merged.spans span)
    · intro b inside line inLines same
      rcases List.mem_cons.mp inside with rfl | behind
      · rcases List.mem_cons.mp inLines with rfl | deeper
        · rfl
        · exact absurd same (apart (first line deeper))
      · rcases List.mem_cons.mp inLines with rfl | deeper
        · exact absurd same.symm (apart (later b behind))
        · exact merged.statements b behind line deeper same
    · intro b inside
      rcases List.mem_cons.mp inside with rfl | behind
      · rw [totalAlone mode fun c among => apart (first c among)]
      · rw [countsAtCons, if_neg (apart (later b behind)).symm, merged.count b behind]
    · exact List.forall_mem_cons.mpr ⟨below, merged.below⟩

theorem mergedApart {mode : Mode} {a : Block} {bs out : List Block}
    (first : ∀ b ∈ bs, a.span.key < b.span.key) (below : a.count < numberLimit) :
    Merged mode (a :: bs) out ↔ ∃ rest, out = a :: rest ∧ Merged mode bs rest := by
  constructor
  · intro merged
    cases out with
    | nil => simpa using merged.spans a.span
    | cons front rest =>
      obtain ⟨later, _⟩ := List.pairwise_cons.mp merged.sorted
      have span : front.span = a.span := by
        obtain ⟨line, among, own⟩ := (merged.spans front.span).mp ⟨front, by simp, rfl⟩
        rcases List.mem_cons.mp among with rfl | behind
        · exact own.symm
        · have less : a.span.key < front.span.key := own ▸ first line behind
          obtain ⟨o, inside, same⟩ := (merged.spans a.span).mpr ⟨a, by simp, rfl⟩
          rcases List.mem_cons.mp inside with rfl | deeper
          · exact same
          · exact absurd (later o deeper) (by rw [same]; exact less.asymm)
      have statements := merged.statements front (by simp) a (by simp) span.symm
      have count := merged.count front (by simp)
      rw [span, totalAlone mode fun b inside => apart (first b inside)] at count
      obtain rfl : front = a := by
        cases front
        cases a
        simp_all
      exact ⟨rest, rfl, (mergedCons first later below).mp merged⟩
  · rintro ⟨rest, rfl, merged⟩
    refine (mergedCons first ?_ below).mpr merged
    intro c among
    obtain ⟨b, inside, span⟩ := (merged.spans c.span).mp ⟨c, among, rfl⟩
    exact span ▸ first b inside

theorem joinedBelow {mode : Mode} {a b : Block} (left : a.count < numberLimit)
    (right : b.count < numberLimit) (adds : mode ≠ .set → a.count + b.count < numberLimit) :
    (joined mode a b).count < numberLimit := by
  cases mode with
  | set => exact max_lt left right
  | _ => exact adds (by simp)

theorem laterSpans {a b : Block} {bs : List Block} (different : a.span ≠ b.span)
    (sorted : (a :: b :: bs).Pairwise fun a b => a.span.key ≤ b.span.key) :
    ∀ c ∈ b :: bs, a.span.key < c.span.key := by
  obtain ⟨least, rest⟩ := List.pairwise_cons.mp sorted
  have next : a.span.key < b.span.key :=
    lt_of_le_of_ne (least b List.mem_cons_self) fun same => different (Span.keyInj.mp same)
  intro c inside
  rcases List.mem_cons.mp inside with rfl | behind
  · exact next
  · exact lt_of_lt_of_le next ((List.pairwise_cons.mp rest).1 c behind)

theorem mergeFromIff {file : String} {mode : Mode} {last : Block} {bs out : List Block}
    (sorted : (last :: bs).Pairwise fun a b => a.span.key ≤ b.span.key)
    (below : ∀ b ∈ last :: bs, b.count < numberLimit) :
    mergeFrom file mode last bs = .ok out ↔ Merged mode (last :: bs) out := by
  induction bs generalizing last out with
  | nil =>
    rw [mergedApart (by simp) (below last List.mem_cons_self), mergeFrom]
    simp [mergedNil, eq_comm]
  | cons b bs ih =>
    obtain ⟨least, rest⟩ := List.pairwise_cons.mp sorted
    obtain ⟨lastBelow, restBelow⟩ := List.forall_mem_cons.mp below
    rw [mergeFrom]
    split
    · rename_i same
      have ih' : ∀ fits : mode ≠ .set → last.count + b.count < numberLimit,
          mergeFrom file mode (joined mode last b) bs = .ok out ↔
            Merged mode (joined mode last b :: bs) out := by
        intro fits
        refine ih (List.pairwise_cons.mpr ⟨?_, (List.pairwise_cons.mp rest).2⟩)
          (List.forall_mem_cons.mpr ⟨?_, ?_⟩)
        · exact fun c inside => least c (by simp [inside])
        · exact joinedBelow lastBelow (restBelow b (by simp)) fits
        · exact fun c inside => restBelow c (by simp [inside])
      rw [mergedSame same, bindOk]
      simp only [mergeTwoIff]
      constructor
      · rintro ⟨_, ⟨agree, rfl⟩, ok⟩
        exact ⟨agree, (ih' agree.2).mp ok⟩
      · intro ⟨agree, merged⟩
        exact ⟨_, ⟨agree, rfl⟩, (ih' agree.2).mpr merged⟩
    · rename_i different
      rw [mergedApart (laterSpans different sorted) lastBelow, bindOk]
      simp only [ih rest restBelow, pureOk, Except.ok.injEq]
      exact ⟨fun ⟨tail, merged, same⟩ => ⟨tail, same.symm, merged⟩,
        fun ⟨tail, same, merged⟩ => ⟨tail, merged, same.symm⟩⟩

theorem totalPerm (mode : Mode) {ms ns : List Nat} (same : ms.Perm ns) :
    mode.total ms = mode.total ns := by
  refine same.foldr_eq' ?_ 0
  intro i _ j _ k
  cases mode <;> simp only [Mode.combine] <;> omega

theorem mergedPerm {mode : Mode} {bs cs out : List Block} (same : bs.Perm cs)
    (merged : Merged mode bs out) : Merged mode cs out where
  sorted := merged.sorted
  spans := by simpa only [same.mem_iff] using merged.spans
  statements := by simpa only [same.mem_iff] using merged.statements
  count b inside := by
    rw [merged.count b inside]
    exact totalPerm mode ((same.filter _).map _)
  below := merged.below

theorem mergeIff {file : String} {mode : Mode} {bs out : List Block}
    (below : ∀ b ∈ bs, b.count < numberLimit) :
    merge file mode bs = .ok out ↔ Merged mode bs out := by
  have perm : (bs.mergeSort fun a b => a.span.upTo b.span).Perm bs := List.mergeSort_perm ..
  have sorted : (bs.mergeSort fun a b => a.span.upTo b.span).Pairwise
      fun a b => a.span.key ≤ b.span.key :=
    mergeSortByKey (fun a b => Span.upToKey a.span b.span) bs
  have whole : Merged mode bs out ↔
      Merged mode (bs.mergeSort fun a b => a.span.upTo b.span) out :=
    ⟨mergedPerm perm.symm, mergedPerm perm⟩
  rw [whole]
  unfold merge
  split
  · rename_i empty
    rw [empty, mergedNil]
    simp [eq_comm]
  · rename_i b bs' list
    rw [list] at sorted perm ⊢
    exact mergeFromIff sorted fun c inside => below c (perm.mem_iff.mp inside)

def blocksOf (name : String) (es : List (String × Block)) : List Block :=
  (es.filter fun e => e.1 = name).map Prod.snd

theorem blocksOfSnoc (name : String) (es : List (String × Block)) (e : String × Block) :
    blocksOf name (es ++ [e]) = blocksOf name es ++ if e.1 = name then [e.2] else [] := by
  by_cases here : e.1 = name <;> simp [blocksOf, here]

theorem blocksOfNone {name : String} {es : List (String × Block)} :
    blocksOf name es = [] ↔ ¬ ∃ e ∈ es, e.1 = name := by
  rw [blocksOf, List.map_eq_nil_iff, List.filter_eq_nil_iff]
  simp only [decide_eq_true_eq, not_exists, not_and]

theorem blocksBelow {es : List (String × Block)} (below : ∀ e ∈ es, e.2.count < numberLimit)
    (name : String) : ∀ b ∈ blocksOf name es, b.count < numberLimit := by
  intro b inside
  obtain ⟨e, among, rfl⟩ := List.mem_map.mp inside
  exact below e (List.mem_filter.mp among).1

theorem addEntryNames {es : List (String × Block)} {e : String × Block} {names : List String}
    (distinct : names.Nodup) (fresh : e.1 ∉ names → blocksOf e.1 es = []) :
    addEntry (names.map fun name => (name, blocksOf name es)) e =
      (if e.1 ∈ names then names else names ++ [e.1]).map
        fun name => (name, blocksOf name (es ++ [e])) := by
  induction names with
  | nil => simp [addEntry, blocksOfSnoc, fresh]
  | cons name names ih =>
    obtain ⟨absent, rest⟩ := List.nodup_cons.mp distinct
    rw [List.map_cons, addEntry]
    split
    · rename_i here
      change name = e.1 at here
      have others : ∀ other ∈ names, blocksOf other (es ++ [e]) = blocksOf other es := by
        intro other inside
        have different : e.1 ≠ other := by
          rintro rfl
          exact absent (here ▸ inside)
        simp [blocksOfSnoc, different]
      have kept := List.map_congr_left (f := fun other => (other, blocksOf other (es ++ [e])))
        (g := fun other => (other, blocksOf other es)) fun other inside => by
          rw [others other inside]
      rw [if_pos (List.mem_cons.mpr (.inl here.symm)), List.map_cons, kept, blocksOfSnoc,
        if_pos here.symm]
    · rename_i different
      have elsewhere : e.1 ≠ name := fun same => different same.symm
      rw [ih rest fun unknown => fresh (by simp [elsewhere, unknown])]
      by_cases known : e.1 ∈ names <;> simp [known, elsewhere, blocksOfSnoc]

theorem groupsNames (es : List (String × Block)) : ∃ names : List String, names.Nodup ∧
    (∀ name, name ∈ names ↔ ∃ e ∈ es, e.1 = name) ∧
    groups es = names.map fun name => (name, blocksOf name es) := by
  induction es using List.reverseRecOn with
  | nil => exact ⟨[], by simp, by simp, rfl⟩
  | append_singleton es e ih =>
    obtain ⟨names, distinct, known, grouped⟩ := ih
    have step : groups (es ++ [e]) = addEntry (groups es) e := by simp [groups]
    refine ⟨if e.1 ∈ names then names else names ++ [e.1], ?_, ?_, ?_⟩
    · split
      · exact distinct
      · rename_i new
        exact List.nodup_append.mpr ⟨distinct, by simp, by grind⟩
    · intro name
      have grown : (∃ f ∈ es ++ [e], f.1 = name) ↔ name ∈ names ∨ e.1 = name := by
        rw [known]
        simp only [List.mem_append, List.mem_singleton, or_and_right, exists_or, exists_eq_left]
      rw [grown]
      split <;> grind
    · rw [step, grouped, addEntryNames distinct]
      intro unknown
      rw [blocksOfNone, ← known]
      exact unknown

/- What profiles say of the entries they are made from. -/
structure Meaning (mode : Mode) (es : List (String × Block)) (ps : List Profile) : Prop where
  sorted : ps.Pairwise fun p q => encode p.file < encode q.file
  files : ∀ name, (∃ p ∈ ps, p.file = name) ↔ ∃ e ∈ es, e.1 = name
  modes : ∀ p ∈ ps, p.mode = mode
  filled : ∀ p ∈ ps, p.blocks ≠ []
  blocks : ∀ p ∈ ps, Merged mode (blocksOf p.file es) p.blocks

theorem meaningPerm {mode : Mode} {es fs : List (String × Block)} {ps : List Profile}
    (same : es.Perm fs) (meaning : Meaning mode es ps) : Meaning mode fs ps where
  sorted := meaning.sorted
  files := by simpa only [same.mem_iff] using meaning.files
  modes := meaning.modes
  filled := meaning.filled
  blocks p inside := mergedPerm ((same.filter _).map _) (meaning.blocks p inside)

theorem ofGroupIff {mode : Mode} {name : String} {bs : List Block} {p : Profile}
    (below : ∀ b ∈ bs, b.count < numberLimit) : ofGroup mode (name, bs) = .ok p ↔
      p.file = name ∧ p.mode = mode ∧ Merged mode bs p.blocks := by
  unfold ofGroup
  simp only [bindOk, mergeIff below, pureOk, Except.ok.injEq]
  constructor
  · rintro ⟨blocks, merged, rfl⟩
    exact ⟨rfl, rfl, merged⟩
  · rintro ⟨rfl, rfl, merged⟩
    exact ⟨p.blocks, merged, rfl⟩

theorem unsortedIff {mode : Mode} {es : List (String × Block)} {names : List String}
    {ps : List Profile} (below : ∀ e ∈ es, e.2.count < numberLimit)
    (grouped : groups es = names.map fun name => (name, blocksOf name es)) :
    (groups es).mapM (ofGroup mode) = .ok ps ↔ ps.map Profile.file = names ∧
      ∀ p ∈ ps, p.mode = mode ∧ Merged mode (blocksOf p.file es) p.blocks := by
  have each : ∀ name p, ofGroup mode (name, blocksOf name es) = .ok p ↔
      p.file = name ∧ p.mode = mode ∧ Merged mode (blocksOf p.file es) p.blocks := by
    intro name p
    rw [ofGroupIff (blocksBelow below name)]
    constructor <;> rintro ⟨rfl, rest⟩ <;> exact ⟨rfl, rest⟩
  rw [mapMEach, grouped, List.forall₂_map_left_iff]
  simp only [each]
  exact pairedByKey

theorem sortedByFile {qs : List Profile} (distinct : (qs.map Profile.file).Nodup) :
    (qs.mergeSort fun a b => a.file ≤ b.file).Pairwise
      fun p q => encode p.file < encode q.file := by
  have ordered : (qs.mergeSort fun a b => a.file ≤ b.file).Pairwise fun p q => p.file ≤ q.file :=
    mergeSortByKey (fun a b => decide_eq_true_iff) qs
  have different : (qs.mergeSort fun a b => a.file ≤ b.file).Pairwise fun p q => p.file ≠ q.file :=
    List.pairwise_map.mp (distinct.perm ((List.mergeSort_perm ..).map _).symm)
  refine (ordered.and different).imp ?_
  intro p q ⟨upTo, apart⟩
  rw [encodeLt]
  exact lt_of_le_of_ne upTo apart

theorem assembleIff {mode : Mode} {es : List (String × Block)} {ps : List Profile}
    (below : ∀ e ∈ es, e.2.count < numberLimit) :
    assemble mode es = .ok ps ↔ Meaning mode es ps := by
  obtain ⟨names, distinct, known, grouped⟩ := groupsNames es
  unfold assemble
  simp only [bindOk, unsortedIff below grouped, pureOk, Except.ok.injEq]
  constructor
  · rintro ⟨qs, ⟨files, each⟩, rfl⟩
    have perm := List.mergeSort_perm qs fun a b => a.file ≤ b.file
    have members : ∀ name, (∃ p ∈ qs, p.file = name) ↔ ∃ e ∈ es, e.1 = name := by
      intro name
      rw [← known, ← files, List.mem_map]
    refine ⟨sortedByFile (files ▸ distinct), ?_, ?_, ?_, ?_⟩
    · simpa only [perm.mem_iff] using members
    · exact fun p inside => (each p (perm.mem_iff.mp inside)).1
    · intro p inside empty
      have merged := (each p (perm.mem_iff.mp inside)).2
      obtain ⟨e, among, name⟩ := (members p.file).mp ⟨p, perm.mem_iff.mp inside, rfl⟩
      have line : e.2 ∈ blocksOf p.file es :=
        List.mem_map_of_mem (List.mem_filter.mpr ⟨among, by simpa using name⟩)
      obtain ⟨b, block, _⟩ := (merged.spans e.2.span).mpr ⟨e.2, line, rfl⟩
      rw [empty] at block
      cases block
    · exact fun p inside => (each p (perm.mem_iff.mp inside)).2
  · intro meaning
    -- each name has its profile already, so they are only put in the order of the names
    have found : ∀ name ∈ names, ∃ p, p.file = name ∧ p ∈ ps := by
      intro name inside
      obtain ⟨p, among, file⟩ := (meaning.files name).mpr ((known name).mp inside)
      exact ⟨p, file, among⟩
    obtain ⟨qs, paired⟩ := chosenEach found
    obtain ⟨files, among⟩ := pairedByKey.mp paired
    have perm := List.mergeSort_perm qs fun a b => a.file ≤ b.file
    refine ⟨qs, ⟨files, fun p inside => ?_⟩, ?_⟩
    · exact ⟨meaning.modes p (among p inside), meaning.blocks p (among p inside)⟩
    · refine sortedSame (sortedByFile (files ▸ distinct)) meaning.sorted fun p => ?_
      rw [perm.mem_iff]
      refine ⟨among p, fun inside => ?_⟩
      have name : p.file ∈ qs.map Profile.file := by
        rw [files, known, ← meaning.files]
        exact ⟨p, inside, rfl⟩
      obtain ⟨q, own, file⟩ := List.mem_map.mp name
      have itself : q = p := sortedUnique meaning.sorted (among q own) inside (by rw [file])
      exact itself ▸ own

theorem writtenBelow {text : String} {mode : Mode} {es : List (String × Block)}
    (written : Written text mode es) : ∀ e ∈ es, e.2.count < numberLimit := by
  obtain ⟨_, _, texts⟩ := written
  exact entriesBelow texts

theorem parsedIff {text : String} {ps : List Profile} :
    parse text = .ok ps ↔ ∃ mode es, Written text mode es ∧ Meaning mode es ps := by
  rw [parseIff]
  refine exists_congr fun mode => exists_congr fun es => and_congr_right fun written => ?_
  exact assembleIff (writtenBelow written)

/- The profiles of a text are those that say what its lines say together, and the order of the lines
does not matter. -/
theorem parsedMeaning (text : String) (ps : List Profile) :
    (parse text = .ok ps ↔ ∃ mode es, Written text mode es ∧ Meaning mode es ps) ∧
      ∀ other, Reordered text other → parse text = .ok ps → parse other = .ok ps := by
  refine ⟨parsedIff, ?_⟩
  intro other reordered ok
  obtain ⟨mode, es, written, meaning⟩ := parsedIff.mp ok
  obtain ⟨fs, otherWritten, perm⟩ := reorderedWritten written reordered
  exact parsedIff.mpr ⟨mode, fs, otherWritten, meaningPerm perm.symm meaning⟩

def mixedText : String :=
  "mode: count\nb.go:1.1,2.2 1 1\na.go:3.1,4.2 2 1\n\na.go:1.1,2.2 1 0\r\na.go:3.1,4.2 2 4"

def mixedEntries : List (String × Block) :=
  [("b.go", ⟨⟨1, 1, 2, 2⟩, 1, 1⟩), ("a.go", ⟨⟨3, 1, 4, 2⟩, 2, 1⟩), ("a.go", ⟨⟨1, 1, 2, 2⟩, 1, 0⟩),
    ("a.go", ⟨⟨3, 1, 4, 2⟩, 2, 4⟩)]

def mixedProfiles : List Profile :=
  [⟨"a.go", .count, [⟨⟨1, 1, 2, 2⟩, 1, 0⟩, ⟨⟨3, 1, 4, 2⟩, 2, 5⟩]⟩,
    ⟨"b.go", .count, [⟨⟨1, 1, 2, 2⟩, 1, 1⟩]⟩]

def shuffledText : String :=
  "mode: count\na.go:3.1,4.2 2 4\na.go:1.1,2.2 1 0\na.go:3.1,4.2 2 1\nb.go:1.1,2.2 1 1\n"

theorem mixedParsed : parse mixedText = .ok mixedProfiles ∧
    (∃ mode es, Written mixedText mode es ∧ Meaning mode es mixedProfiles) ∧
    Reordered mixedText shuffledText ∧ parse shuffledText = .ok mixedProfiles := by
  have header : lines mixedText.toList =
      ("mode: " ++ Mode.count.word).toList :: (lines mixedText.toList).tail := by decide +kernel
  have read : entries 2 (lines mixedText.toList).tail = .ok mixedEntries := by decide +kernel
  have written : Written mixedText .count mixedEntries := ⟨_, header, entriesIff.mp read⟩
  have grouped : groups mixedEntries = [("b.go", [⟨⟨1, 1, 2, 2⟩, 1, 1⟩]), ("a.go",
      [⟨⟨3, 1, 4, 2⟩, 2, 1⟩, ⟨⟨1, 1, 2, 2⟩, 1, 0⟩, ⟨⟨3, 1, 4, 2⟩, 2, 4⟩])] := by decide +kernel
  have assembled : assemble .count mixedEntries = .ok mixedProfiles := by
    simp [assemble, grouped, mixedProfiles, ofGroup, merge, mergeFrom, mergeTwo, checkedAdd,
      numberLimit, Span.upTo, List.mergeSort, List.MergeSort.Internal.splitInTwo]
  have ok : parse mixedText = .ok mixedProfiles :=
    parseIff.mpr ⟨.count, mixedEntries, written, assembled⟩
  have reordered : Reordered mixedText shuffledText :=
    ⟨_, _, (lines shuffledText.toList).tail, header, by decide +kernel, by decide +kernel⟩
  obtain ⟨meaning, anyOrder⟩ := parsedMeaning mixedText mixedProfiles
  exact ⟨ok, meaning.mp ok, reordered, anyOrder shuffledText reordered ok⟩

end Profile
end Uncalled
