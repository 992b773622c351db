import Uncalled.Proofs.Conservation
import Uncalled.Proofs.Decoding
import Uncalled.Proofs.ProfileRoundTrip
/-! How the analysis command ends. If a stage fails nothing is printed and the status is two.
Otherwise one report is printed, and the status follows from the score that stands in it: the
decision is made on what is missing, the score is a rounded share, and yet they never disagree. No
file is changed. -/
namespace Uncalled

/- The stages of the command in their order: what the first that fails says, or the gap. -/
inductive Measured (t : FileTree) (config : Option String) (dir : String) :
    Except CommandError (Settings × Gap) → Prop where
  | unsettled {e : SettingsError} (failed : Settings.load t config dir = .error e) :
      Measured t config dir (.error (.settings e))
  | badOptions {s : Settings} {e : SettingsError} (settled : Settings.load t config dir = .ok s)
      (failed : s.options = .error e) : Measured t config dir (.error (.settings e))
  | unanalyzed {s : Settings} {o : Options} {e : AnalysisError}
      (settled : Settings.load t config dir = .ok s) (options : s.options = .ok o)
      (failed : analyze t o dir = .error e) : Measured t config dir (.error (.analysis e))
  | nothing {s : Settings} {o : Options} {r : Report}
      (settled : Settings.load t config dir = .ok s) (options : s.options = .ok o)
      (analyzes : analyze t o dir = .ok r) (failed : Gap.ofReport? r = none) :
      Measured t config dir (.error (.analysis .nothingDeclared))
  | gap {s : Settings} {o : Options} {r : Report} {g : Gap}
      (settled : Settings.load t config dir = .ok s) (options : s.options = .ok o)
      (analyzes : analyze t o dir = .ok r) (found : Gap.ofReport? r = some g) :
      Measured t config dir (.ok (s, g))

theorem measuredSome (t : FileTree) (config : Option String) (dir : String) :
    ∃ outcome, Measured t config dir outcome := by
  cases settled : Settings.load t config dir with
  | error e => exact ⟨_, .unsettled settled⟩
  | ok s =>
    cases options : s.options with
    | error e => exact ⟨_, .badOptions settled options⟩
    | ok o =>
      cases analyzes : analyze t o dir with
      | error e => exact ⟨_, .unanalyzed settled options analyzes⟩
      | ok r =>
        cases found : Gap.ofReport? r with
        | none => exact ⟨_, .nothing settled options analyzes found⟩
        | some g => exact ⟨_, .gap settled options analyzes found⟩

/- A text without a terminal's codes, which go from an escape character to the next letter m. -/
def uncoloured (text : List Char) : List Char := outside '\x1b' 'm' false text

theorem uncolouredPlain {text : List Char} (plain : '\x1b' ∉ text) (rest : List Char) :
    uncoloured (text ++ rest) = text ++ uncoloured rest :=
  outsidePlain plain rest

theorem uncolouredPaint {code text : String} (colors : Bool) (unclosed : 'm' ∉ code.toList)
    (plain : '\x1b' ∉ text.toList) (rest : List Char) :
    uncoloured ((paint colors code text).toList ++ rest) = text.toList ++ uncoloured rest := by
  cases colors with
  | false => exact uncolouredPlain plain rest
  | true =>
    have whole : (paint true code text).toList ++ rest = '\x1b' :: ('[' :: code.toList ++ 'm' ::
        (text.toList ++ '\x1b' :: ("[0".toList ++ 'm' :: rest))) := by
      simp [paint]
    have start : 'm' ∉ '[' :: code.toList := by simpa using unclosed
    rw [whole, uncoloured, outsideClosed start, outsidePlain plain, outsideClosed (by decide),
      uncoloured]

/- Where the score stands: in the last line of a text, in the fourth of a JSON document. -/
def scoreLine? (json : Bool) (output : String) : Option (List Char) :=
  let ls := Profile.filled (Profile.lines output.toList)
  if json then ls[3]? else ls.getLast?.map uncoloured

def scoreMark (json : Bool) : List Char := if json then "  \"score\": ".toList else "Grade: ".toList

def printedScore? (json : Bool) (output : String) : Option Nat := do
  let line ← scoreLine? json output
  if (scoreMark json).isPrefixOf line then
    (Profile.number? (line.drop (scoreMark json).length)).map Prod.fst
  else none

theorem scoreRead {json : Bool} {output : String} {score : Nat} (below : score < numberLimit)
    (rest : List Char) (ends : ∀ c ∈ rest.head?, Profile.isDigit c = false)
    (line : scoreLine? json output = some (scoreMark json ++ ((Nat.repr score).toList ++ rest))) :
    printedScore? json output = some score := by
  have front : (scoreMark json).isPrefixOf (scoreMark json ++ ((Nat.repr score).toList ++ rest)) :=
    List.isPrefixOf_iff_prefix.mpr (List.prefix_append ..)
  have number := Profile.numeralAppend (Profile.reprNumeral below) rest ends
  rw [printedScore?, line, Option.bind_eq_bind, Option.bind_some, if_pos front, List.drop_left,
    number, Option.map_some]

theorem linesLonger (c : Char) {cs line : List Char} {more : List (List Char)}
    (lines : Profile.lines cs = line :: more) :
    ∃ first rest, Profile.lines (c :: cs) = first :: rest ++ more := by
  unfold Profile.lines
  split
  · rename_i empty
    cases empty
  · rename_i feed
    cases feed
    exact ⟨[], [line], by simp [lines]⟩
  · rename_i returns
    cases returns
    rw [Profile.lines] at lines
    exact ⟨[], [], by rw [(List.cons.inj lines).2]; rfl⟩
  · rename_i same
    cases same
    exact ⟨c :: line, [], by simp [lines]⟩

theorem linesBehind (cs rest : List Char) :
    ∃ line more, Profile.lines (cs ++ '\n' :: rest) = line :: more ++ Profile.lines rest := by
  induction cs with
  | nil => exact ⟨[], [], by simp [Profile.lines]⟩
  | cons c cs ih =>
    obtain ⟨line, more, behind⟩ := ih
    obtain ⟨first, others, longer⟩ := linesLonger c behind
    exact ⟨first, others ++ more, by simpa using longer⟩

theorem gradePlain {c : Char} (control : c.toNat < 32) (score : Nat) :
    c ∉ (grade score).toList := by
  unfold grade
  split_ifs <;>
  · intro inside
    obtain rfl := List.mem_singleton.mp inside
    exact absurd control (by decide)

theorem gradeUnbroken (colors : Bool) (g : Gap) : Profile.Unbroken (gradeLine colors g).toList := by
  have letter := gradePlain (show '\n'.toNat < 32 by decide) g.score
  have digits : ∀ n, '\n' ∉ Nat.toDigits 10 n := Text.digitsPlain (by decide)
  have code : '\n' ∉ (Band.ofScore g.score).code.toList := by
    cases Band.ofScore g.score <;> decide
  constructor
  · cases colors <;> simp [gradeLine, paint, letter, digits, code]
  · have last : (gradeLine colors g).toList.getLast? = some ')' := by
      rw [gradeLine, String.toList_append, List.getLast?_append_of_ne_nil _ (by simp)]
      rfl
    simp [last]

theorem gradeShown (colors : Bool) (g : Gap) :
    uncoloured (gradeLine colors g).toList = (gradeLine false g).toList := by
  have letter := gradePlain (show '\x1b'.toNat < 32 by decide) g.score
  have digits : ∀ n, '\x1b' ∉ Nat.toDigits 10 n := Text.digitsPlain (by decide)
  have code : 'm' ∉ (Band.ofScore g.score).code.toList := by
    cases Band.ofScore g.score <;> decide
  have score : '\x1b' ∉ (Nat.repr g.score ++ "% " ++ grade g.score).toList := by
    simp [letter, digits]
  have counts : '\x1b' ∉ (" (" ++ Nat.repr g.calledCount ++ "/" ++ Nat.repr g.declaredCount ++
      " functions)").toList := by
    simp [digits]
  have parts (colors : Bool) : (gradeLine colors g).toList = "Grade: ".toList ++
      ((paint colors (Band.ofScore g.score).code (Nat.repr g.score ++ "% " ++ grade g.score)).toList
        ++ ((" (" ++ Nat.repr g.calledCount ++ "/" ++ Nat.repr g.declaredCount ++
          " functions)").toList ++ [])) := by
    simp [gradeLine]
  rw [parts colors, uncolouredPlain (by decide), uncolouredPaint colors code score,
    uncolouredPlain counts, parts false]
  rfl

theorem gradeScore (g : Gap) : ∃ rest, (gradeLine false g).toList =
    scoreMark false ++ ((Nat.repr g.score).toList ++ '%' :: rest) := by
  refine ⟨" ".toList ++ ((grade g.score).toList ++ (" (" ++ Nat.repr g.calledCount ++ "/" ++
    Nat.repr g.declaredCount ++ " functions)").toList), ?_⟩
  simp [gradeLine, paint, scoreMark]

theorem lastLine {line blanks : List Char} (unbroken : Profile.Unbroken line) (filled : line ≠ [])
    (blank : Profile.filled (Profile.lines blanks) = []) {before : List Char}
    (starts : before = [] ∨ ∃ front, before = front ++ ['\n']) :
    (Profile.filled (Profile.lines (before ++ (line ++ '\n' :: blanks)))).getLast? =
      some line := by
  have own : Profile.filled (Profile.lines (line ++ '\n' :: blanks)) = [line] := by
    rw [Profile.linesCons unbroken, Profile.filled, List.filter_cons_of_pos (by simpa using filled)]
    exact congrArg (line :: ·) blank
  rcases starts with rfl | ⟨front, rfl⟩
  · rw [List.nil_append, own, List.getLast?_singleton]
  · obtain ⟨first, more, behind⟩ := linesBehind front (line ++ '\n' :: blanks)
    rw [List.append_assoc, List.singleton_append, behind, Profile.filled, List.filter_append]
    change (Profile.filled _ ++ Profile.filled _).getLast? = _
    rw [own, List.getLast?_concat]

theorem gradeLast (colors : Bool) (g : Gap) : scoreLine? false (g.text colors ++ "\n") =
    some (gradeLine false g).toList := by
  have filled : (gradeLine colors g).toList ≠ [] := by simp [gradeLine]
  have last {before blanks : List Char} (blank : Profile.filled (Profile.lines blanks) = [])
      (starts : before = [] ∨ ∃ front, before = front ++ ['\n']) :
      (Profile.filled (Profile.lines (before ++ ((gradeLine colors g).toList ++ '\n' ::
        blanks)))).getLast?.map uncoloured = some (gradeLine false g).toList := by
    rw [lastLine (gradeUnbroken colors g) filled blank starts, Option.map_some, gradeShown]
  unfold Gap.text scoreLine?
  rw [if_neg (by decide)]
  split
  · have whole : (gradeLine colors g ++ "\n").toList =
        [] ++ ((gradeLine colors g).toList ++ '\n' :: []) := by simp
    rw [whole, last rfl (.inl rfl)]
  · generalize "Functions without direct unit tests:" ++
      String.join (g.details.map (fileLines colors g.longestName)) = front
    have whole : (front ++ "\n\n" ++ gradeLine colors g ++ "\n" ++ "\n").toList =
        ((front.toList ++ ['\n']) ++ ['\n']) ++
          ((gradeLine colors g).toList ++ '\n' :: ['\n']) := by
      simp
    rw [whole, last rfl (.inr ⟨_, rfl⟩)]

theorem textScore {g : Gap} (below : g.score < numberLimit) (colors : Bool) :
    printedScore? false (g.text colors ++ "\n") = some g.score := by
  obtain ⟨rest, graded⟩ := gradeScore g
  refine scoreRead below ('%' :: rest) (by simp [Profile.isDigit]) ?_
  rw [gradeLast, graded]

theorem renderFront (r : JsonReport) : ∃ rest, (r.render ++ "\n").toList = ['\x7b'] ++ '\n' ::
    (("  \"declared\": ".toList ++ ((Nat.repr r.declared).toList ++ [','])) ++ '\n' ::
    (("  \"called\": ".toList ++ ((Nat.repr r.called).toList ++ [','])) ++ '\n' ::
    ((scoreMark true ++ ((Nat.repr r.score).toList ++ [','])) ++ '\n' :: rest))) := by
  refine ⟨("  " ++ jsonField "grade" (jsonString r.grade) ++ ",\n" ++
    ("  " ++ jsonField "details" r.detailsText) ++ "\n" ++ "\x7d" ++ "\n").toList, ?_⟩
  have declared : jsonString "declared" = "\"declared\"" := by decide
  have called : jsonString "called" = "\"called\"" := by decide
  have score : jsonString "score" = "\"score\"" := by decide
  simp [JsonReport.render, jsonObject, jsonItems, String.intercalate_cons_cons, jsonField, declared,
    called, score, scoreMark]

theorem countUnbroken {mark : List Char} (plain : '\n' ∉ mark) (n : Nat) :
    Profile.Unbroken (mark ++ ((Nat.repr n).toList ++ [','])) := by
  have digits : '\n' ∉ Nat.toDigits 10 n := Text.digitsPlain (by decide) n
  constructor
  · simp [plain, digits]
  · simp [← List.append_assoc]

theorem documentScore {r : JsonReport} (below : r.score < numberLimit) :
    printedScore? true (r.render ++ "\n") = some r.score := by
  obtain ⟨rest, front⟩ := renderFront r
  refine scoreRead below [','] (by simp [Profile.isDigit]) ?_
  rw [scoreLine?, front, Profile.linesCons (by decide),
    Profile.linesCons (countUnbroken (by decide) _),
    Profile.linesCons (countUnbroken (by decide) _),
    Profile.linesCons (countUnbroken (by decide) _)]
  simp [Profile.filled, scoreMark]

theorem measuredFails {t : FileTree} {config : Option String} {dir : String} {e : CommandError}
    (measured : Measured t config dir (.error e)) (colors failOnFound json : Bool) :
    Command.runAnalyze colors t config dir failOnFound json = .error e := by
  cases measured with
  | unsettled failed =>
    simp [Command.runAnalyze, Command.analyzeWith, failed]
  | badOptions settled failed =>
    simp [Command.runAnalyze, Command.analyzeWith, settled, failed]
  | unanalyzed settled options failed =>
    simp [Command.runAnalyze, Command.analyzeWith, settled, options, failed]
  | nothing settled options analyzes failed =>
    simp [Command.runAnalyze, Command.analyzeWith, settled, options, analyzes, failed]

theorem measuredMessage {t : FileTree} {config : Option String} {dir : String} {e : CommandError}
    (measured : Measured t config dir (.error e)) (host : Host) :
    RunResult.ofError host t e = ⟨2, "", some (e.message host.firstError), t, none⟩ := by
  cases measured <;> rfl

theorem gapIncomplete {t : FileTree} {o : Options} {dir : String} {r : Report} {g : Gap}
    (analyzes : analyze t o dir = .ok r) (found : Gap.ofReport? r = some g) :
    g.score ≤ 100 ∧ (g.isComplete = false ↔ g.score < 100) := by
  have declares : r.declared.entries ≠ [] := by
    intro nothing
    rw [Gap.ofReportNone nothing] at found
    cases found
  obtain ⟨own, same, source⟩ := Gap.ofReportSome declares
  obtain rfl : own = g := Option.some.inj (same.symm.trans found)
  have conserved := Gap.conserved (analyzedConsistent analyzes) declares source
  refine ⟨conserved.bound, ?_⟩
  rw [← Bool.not_eq_true, conserved.complete]
  have bound := conserved.bound
  omega

theorem measuredPrints {t : FileTree} {config : Option String} {dir : String} {s : Settings}
    {g : Gap} (measured : Measured t config dir (.ok (s, g))) (colors failOnFound json : Bool) :
    g.score ≤ 100 ∧ Command.runAnalyze colors t config dir failOnFound json =
      .ok ⟨if (failOnFound = true ∨ s.failOnFound = true) ∧ g.score < 100 then 1 else 0,
        (if json then g.report.render else g.text colors) ++ "\n", t, none⟩ := by
  cases measured with
  | gap settled options analyzes found =>
    obtain ⟨bound, incomplete⟩ := gapIncomplete analyzes found
    refine ⟨bound, ?_⟩
    simp [Command.runAnalyze, Command.analyzeWith, settled, options, analyzes, found, incomplete]

theorem reportScore {g : Gap} (bound : g.score ≤ 100) (colors json : Bool) :
    printedScore? json ((if json then g.report.render else g.text colors) ++ "\n") =
      some g.score := by
  have below : g.score < numberLimit := Nat.lt_of_le_of_lt bound (by decide)
  cases json with
  | true => exact documentScore (r := g.report) below
  | false => exact textScore below colors

/- A failed stage leaves nothing on the output and ends with two. Without a failure the output is
one report, and the status is one exactly if gaps count as failures and the score that is printed is
not full. -/
theorem analysisExits {host : Host} {t : FileTree} {words : List String}
    {debug failOnFound json : Bool} {config : Option String} {dir : String}
    (accepted : CommandLine.parse words = .ok ⟨debug, config, .analyze dir failOnFound json⟩) :
    (∃ outcome, Measured t config dir outcome) ∧
    (∀ e, Measured t config dir (.error e) →
      run host t words = ⟨2, "", some (e.message host.firstError), t, none⟩) ∧
    ∀ s g, Measured t config dir (.ok (s, g)) → ∃ status score,
      run host t words =
        ⟨status, (if json then g.report.render else g.text host.colors) ++ "\n", none, t, none⟩ ∧
      printedScore? json (run host t words).output = some score ∧
      status = if (failOnFound = true ∨ s.failOnFound = true) ∧ score < 100 then 1 else 0 := by
  refine ⟨measuredSome t config dir, ?_, ?_⟩
  · intro e measured
    have fails := measuredFails measured host.colors failOnFound json
    simp only [run, accepted, Invocation.run, fails, measuredMessage measured]
  · intro s g measured
    obtain ⟨bound, prints⟩ := measuredPrints measured host.colors failOnFound json
    refine ⟨_, g.score, ?_, ?_, rfl⟩
    · simp only [run, accepted, Invocation.run, prints]
    · simp only [run, accepted, Invocation.run, prints]
      exact reportScore bound host.colors json

def strictWords : List String := ["analyze", "-Fp", "pkg"]

theorem halfCalledExits :
    CommandLine.parse strictWords = .ok ⟨false, none, .analyze "pkg" true false⟩ ∧
    (∃ s g, Measured halfCalled none "pkg" (.ok (s, g)) ∧
      printedScore? false (run terminal halfCalled strictWords).output = some 50 ∧
      run terminal halfCalled strictWords = ⟨1, g.text true ++ "\n", none, halfCalled, none⟩) ∧
    ∃ e, Measured .empty none "pkg" (.error e) ∧ run terminal .empty strictWords =
      ⟨2, "", some (e.message terminal.firstError), .empty, none⟩ := by
  have accepted : CommandLine.parse strictWords =
      .ok ⟨false, none, .analyze "pkg" true false⟩ := rfl
  refine ⟨accepted, ?_, ?_⟩
  · obtain ⟨⟨outcome, measured⟩, fails, prints⟩ :=
      @analysisExits terminal halfCalled _ _ _ _ _ _ accepted
    have ended : (run terminal halfCalled strictWords).status = 1 ∧
        printedScore? false (run terminal halfCalled strictWords).output = some 50 := by
      decide +kernel
    cases outcome with
    | error e =>
      rw [fails e measured] at ended
      cases ended.1
    | ok found =>
      obtain ⟨status, score, ran, _⟩ := prints found.1 found.2 measured
      obtain rfl : status = 1 := by simpa [ran] using ended.1
      exact ⟨found.1, found.2, measured, ended.2, ran⟩
  · have nowhere : Measured .empty none "pkg" (.error (.analysis (.packageNotFound "pkg"))) :=
      .unanalyzed (s := .standard) (o := .standard) rfl rfl rfl
    exact ⟨_, nowhere, (analysisExits accepted).2.1 _ nowhere⟩

end Uncalled
