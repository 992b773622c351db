import Mathlib.Data.List.Infix
import Uncalled.Page
/-! Names in a page. The characters that mean something in markup are replaced one after the other,
each in what the replacements before it have left. None of them finds anything in a text that was
put in before, so nothing is replaced twice, and the name can be read back. -/
namespace Uncalled.Page

def entities : List (Char × String) :=
  [('&', "&amp;"), ('<', "&lt;"), ('>', "&gt;"), ('"', "&#34;")]

def entry : List (Char × String) → Char → List Char
  | [], c => [c]
  | e :: table, c => if c = e.1 then e.2.toList else entry table c

theorem entryCases (table : List (Char × String)) (c : Char) :
    (∃ e ∈ table, e.1 = c ∧ entry table c = e.2.toList) ∨
      (c ∉ table.map Prod.fst ∧ entry table c = [c]) := by
  induction table with
  | nil => exact .inr ⟨List.not_mem_nil, rfl⟩
  | cons e table ih =>
    rw [entry]
    split
    · rename_i own
      exact .inl ⟨e, List.mem_cons_self, own.symm, rfl⟩
    · rename_i other
      rcases ih with ⟨later, inside, found⟩ | ⟨others, text⟩
      · exact .inl ⟨later, List.mem_cons_of_mem e inside, found⟩
      · exact .inr ⟨List.not_mem_cons_of_ne_of_not_mem other others, text⟩

theorem entryOther {table : List (Char × String)} {c : Char} (other : c ∉ table.map Prod.fst) :
    entry table c = [c] := by
  rcases entryCases table c with ⟨e, inside, own, _⟩ | ⟨_, text⟩
  · exact absurd (List.mem_map.mpr ⟨e, inside, own⟩) other
  · exact text

/- A table worked through entry by entry. Where no entry's character is in the texts before it, this
comes to looking up each character once. -/
theorem replacedInTurn {table : List (Char × String)}
    (apart : table.Pairwise fun before e => e.1 ∉ before.2.toList) (cs : List Char) :
    table.foldl (fun cs e => replaceChar e.1 e.2 cs) cs = cs.flatMap (entry table) := by
  induction table generalizing cs with
  | nil => exact (List.flatMap_singleton' cs).symm
  | cons e table ih =>
    obtain ⟨first, rest⟩ := List.pairwise_cons.mp apart
    have untouched : e.2.toList.flatMap (entry table) = e.2.toList := by
      have each : ∀ c ∈ e.2.toList, entry table c = [c] := by
        intro c inside
        refine entryOther fun listed => ?_
        obtain ⟨later, among, rfl⟩ := List.mem_map.mp listed
        exact first later among inside
      rw [List.flatMap_congr each, List.flatMap_singleton']
    rw [List.foldl_cons, ih rest, replaceChar, List.flatMap_assoc]
    refine List.flatMap_congr fun c _ => ?_
    rw [entry]
    split
    · exact untouched
    · exact List.flatMap_singleton ..

theorem escapeEach (s : String) : (escape s).toList = s.toList.flatMap (entry entities) := by
  have apart : entities.Pairwise fun before e => e.1 ∉ before.2.toList := by decide
  rw [← replacedInTurn apart, escape, String.toList_ofList]
  simp only [entities, List.foldl_cons, List.foldl_nil]

/- No bracket or quote is in a text, and at each ampersand an entity begins. -/
structure Escaped (text : List Char) : Prop where
  less : '<' ∉ text
  greater : '>' ∉ text
  quote : '"' ∉ text
  entity : ∀ rest, '&' :: rest <:+ text → ∃ e ∈ entities, e.2.toList <+: '&' :: rest

theorem escapedSuffix {text later : List Char} (escaped : Escaped text) (ends : later <:+ text) :
    Escaped later where
  less := fun inside => escaped.less (ends.subset inside)
  greater := fun inside => escaped.greater (ends.subset inside)
  quote := fun inside => escaped.quote (ends.subset inside)
  entity := fun rest within => escaped.entity rest (within.trans ends)

theorem entityBody {e : Char × String} (inside : e ∈ entities) :
    e.2.toList = '&' :: e.2.toList.tail ∧ ∀ other ∈ entities, other.1 ∉ e.2.toList.tail := by
  revert e
  decide

theorem entryEntity {e : Char × String} (inside : e ∈ entities) :
    entry entities e.1 = e.2.toList := by
  revert e
  decide

theorem entityFree (e : Char × String) (inside : e ∈ entities) (other : e.1 ≠ '&')
    (cs : List Char) : e.1 ∉ cs.flatMap (entry entities) := by
  intro shown
  obtain ⟨c, _, shown⟩ := List.mem_flatMap.mp shown
  rcases entryCases entities c with ⟨own, among, _, text⟩ | ⟨plain, text⟩
  · obtain ⟨begins, free⟩ := entityBody among
    rw [text, begins] at shown
    exact free e inside ((List.mem_cons.mp shown).resolve_left other)
  · rw [text, List.mem_singleton] at shown
    exact plain (List.mem_map.mpr ⟨e, inside, shown⟩)

theorem suffixBehind {c : Char} {body later rest : List Char} (free : c ∉ body)
    (ends : c :: rest <:+ body ++ later) : c :: rest <:+ later := by
  induction body with
  | nil => exact ends
  | cons b body ih =>
    obtain ⟨other, others⟩ := List.ne_and_not_mem_of_not_mem_cons free
    rcases List.suffix_cons_iff.mp ends with whole | ends
    · exact absurd (List.cons.inj whole).1 other
    · exact ih others ends

theorem entityBegins (cs rest : List Char) (ends : '&' :: rest <:+ cs.flatMap (entry entities)) :
    ∃ e ∈ entities, e.2.toList <+: '&' :: rest := by
  induction cs with
  | nil => cases List.suffix_nil.mp ends
  | cons c cs ih =>
    rw [List.flatMap_cons] at ends
    rcases entryCases entities c with ⟨e, inside, _, text⟩ | ⟨plain, text⟩
    · obtain ⟨begins, free⟩ := entityBody inside
      rw [text, begins, List.cons_append] at ends
      rcases List.suffix_cons_iff.mp ends with whole | ends
      · refine ⟨e, inside, ?_⟩
        rw [whole, ← List.cons_append, ← begins]
        exact List.prefix_append ..
      · exact ih (suffixBehind (free ('&', "&amp;") (by decide)) ends)
    · rw [text] at ends
      refine ih (suffixBehind (fun same => plain ?_) ends)
      rw [← List.mem_singleton.mp same]
      decide

theorem escapedText (cs : List Char) : Escaped (cs.flatMap (entry entities)) where
  less := entityFree ('<', "&lt;") (by decide) (by decide) cs
  greater := entityFree ('>', "&gt;") (by decide) (by decide) cs
  quote := entityFree ('"', "&#34;") (by decide) (by decide) cs
  entity := entityBegins cs

theorem escapedName (s : String) : Escaped (escape s).toList :=
  escapeEach s ▸ escapedText s.toList

/- A text with the entities of a table replaced by what they stand for, from the first character on.
The number counts the characters that still belong to the entity before them. -/
def unescapeFrom (table : List (Char × String)) : Nat → List Char → List Char
  | _, [] => []
  | more + 1, _ :: cs => unescapeFrom table more cs
  | 0, c :: cs =>
    match table.find? fun e => e.2.toList.isPrefixOf (c :: cs) with
    | some e => e.1 :: unescapeFrom table (e.2.length - 1) cs
    | none => c :: unescapeFrom table 0 cs

def unescape (table : List (Char × String)) (text : List Char) : List Char :=
  unescapeFrom table 0 text

/- All entities of a table begin with an ampersand, the ampersand has one, and none begins with
another. -/
structure Readable (table : List (Char × String)) : Prop where
  ampersand : ∀ e ∈ table, e.2.toList.head? = some '&'
  own : '&' ∈ table.map Prod.fst
  apart : ∀ e ∈ table, ∀ other ∈ table, e.2.toList <+: other.2.toList → e = other

theorem unescapeBehind (table : List (Char × String)) (body rest : List Char) :
    unescapeFrom table body.length (body ++ rest) = unescape table rest := by
  induction body with
  | nil => rfl
  | cons c body ih => exact ih

section
variable {table : List (Char × String)} (readable : Readable table)
include readable

theorem unescapeEntity {e : Char × String} (inside : e ∈ table) (rest : List Char) :
    unescape table (e.2.toList ++ rest) = e.1 :: unescape table rest := by
  obtain ⟨body, begins⟩ := List.head?_eq_some_iff.mp (readable.ampersand e inside)
  have found : table.find? (fun other => other.2.toList.isPrefixOf (e.2.toList ++ rest)) =
      some e := by
    have here := List.prefix_append e.2.toList rest
    cases found : table.find? fun other => other.2.toList.isPrefixOf (e.2.toList ++ rest) with
    | none =>
      have missed := List.find?_eq_none.mp found e inside
      exact absurd (List.isPrefixOf_iff_prefix.mpr here) missed
    | some other =>
      -- two entities that begin one text begin each other
      have among := List.mem_of_find?_eq_some found
      have begun := List.find?_some found
      rw [List.isPrefixOf_iff_prefix] at begun
      rcases List.prefix_or_prefix_of_prefix begun here with before | behind
      · rw [readable.apart other among e inside before]
      · rw [readable.apart e inside other among behind]
  have length : e.2.length - 1 = body.length := by
    rw [← String.length_toList, begins, List.length_cons, Nat.add_sub_cancel]
  rw [begins, List.cons_append] at found ⊢
  rw [unescape, unescapeFrom, found, ← unescapeBehind table body rest, ← length]

theorem unescapePlain {c : Char} (plain : c ≠ '&') (rest : List Char) :
    unescape table (c :: rest) = c :: unescape table rest := by
  have found : table.find? (fun e => e.2.toList.isPrefixOf (c :: rest)) = none := by
    refine List.find?_eq_none.mpr fun e inside begun => plain ?_
    obtain ⟨body, begins⟩ := List.head?_eq_some_iff.mp (readable.ampersand e inside)
    rw [begins, List.isPrefixOf_iff_prefix, List.cons_prefix_cons] at begun
    exact begun.1.symm
  rw [unescape, unescapeFrom, found, unescape]

theorem unescapeText (cs : List Char) : unescape table (cs.flatMap (entry table)) = cs := by
  induction cs with
  | nil => rfl
  | cons c cs ih =>
    rw [List.flatMap_cons]
    rcases entryCases table c with ⟨e, inside, rfl, text⟩ | ⟨plain, text⟩
    · rw [text, unescapeEntity readable inside, ih]
    · have other : c ≠ '&' := by
        rintro rfl
        exact plain readable.own
      rw [text, List.singleton_append, unescapePlain readable other, ih]

end

theorem entitiesReadable : Readable entities := by
  constructor <;> decide

/- An escaped text is what comes of the text that it is read as. The induction is on its length, for
an entity takes several characters. -/
theorem escapedReread {text : List Char} (escaped : Escaped text) :
    (unescape entities text).flatMap (entry entities) = text := by
  induction size : text.length using Nat.strong_induction_on generalizing text with
  | _ n ih =>
    cases text with
    | nil => rfl
    | cons c cs =>
      by_cases amp : c = '&'
      · subst amp
        obtain ⟨e, inside, later, whole⟩ := escaped.entity cs List.suffix_rfl
        have shorter : later.length < n := by
          have length := congrArg List.length whole
          rw [(entityBody inside).1] at length
          simp only [List.length_append, List.length_cons] at length size
          omega
        have rest := ih _ shorter (escapedSuffix escaped (whole ▸ List.suffix_append ..)) rfl
        rw [← whole, unescapeEntity entitiesReadable inside, List.flatMap_cons,
          entryEntity inside, rest]
      · have plain : c ∉ entities.map Prod.fst := by
          have less := List.ne_of_not_mem_cons escaped.less
          have greater := List.ne_of_not_mem_cons escaped.greater
          have quote := List.ne_of_not_mem_cons escaped.quote
          simp [entities, amp, less.symm, greater.symm, quote.symm]
        have rest := ih _ (by simp [← size]) (escapedSuffix escaped (List.suffix_cons ..)) rfl
        rw [unescapePlain entitiesReadable amp, List.flatMap_cons,
          entryOther plain, rest, List.singleton_append]

/- Escaping a name comes to looking up each of its characters once. The result has no brackets or
quotes and no ampersand but at the start of an entity; every such text is the result for one name,
and reading its entities gives that name. -/
theorem namesReadBack (s : String) :
    (escape s).toList = s.toList.flatMap (entry entities) ∧
    Escaped (escape s).toList ∧
    unescape entities (escape s).toList = s.toList ∧
    (∀ other, escape other = escape s ↔ other = s) ∧
    (Escaped s.toList ↔ ∃ name, escape name = s) := by
  have back (t : String) : unescape entities (escape t).toList = t.toList := by
    rw [escapeEach, unescapeText entitiesReadable]
  refine ⟨escapeEach s, escapedName s, back s, fun other => ⟨fun same => ?_, ?_⟩, ?_, ?_⟩
  · rw [← String.toList_inj, ← back other, same, back]
  · rintro rfl
    rfl
  · intro escaped
    refine ⟨String.ofList (unescape entities s.toList), ?_⟩
    rw [← String.toList_inj, escapeEach, String.toList_ofList, escapedReread escaped]
  · rintro ⟨name, rfl⟩
    exact escapedName name

example : (escape "<a> &lt;a&gt;").toList = "&lt;a&gt; &amp;lt;a&amp;gt;".toList := by decide

end Uncalled.Page
