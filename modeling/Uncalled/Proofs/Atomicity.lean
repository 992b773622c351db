import Uncalled.Proofs.IndirectCoverage
import Uncalled.Proofs.Writing
/-! The cover command does all or nothing. Its stages read the files that it finally writes to, but
the page is made of the files as they were, and only the last stage changes one of them, whatever
else that file is for. A failure is that of the first stage that fails. -/
namespace Uncalled
open Text (Bytes)

/- The stages of the command in their order: what the first that fails says, or the page and the
files after it was written. -/
inductive Covered (t : FileTree) (config : Option String) (profile dir path : String) :
    Except CommandError (String × FileTree) → Prop where
  | unread {e : ProfileError} (failed : Command.readProfile t profile = .error e) :
      Covered t config profile dir path (.error (.profile e))
  | unsettled {ps : List Profile} {e : SettingsError}
      (read : Command.readProfile t profile = .ok ps)
      (failed : Settings.load t config dir = .error e) :
      Covered t config profile dir path (.error (.settings e))
  | badOptions {ps : List Profile} {s : Settings} {e : SettingsError}
      (read : Command.readProfile t profile = .ok ps) (settled : Settings.load t config dir = .ok s)
      (failed : s.options = .error e) : Covered t config profile dir path (.error (.settings e))
  | unanalyzed {ps : List Profile} {s : Settings} {o : Options} {e : AnalysisError}
      (read : Command.readProfile t profile = .ok ps) (settled : Settings.load t config dir = .ok s)
      (options : s.options = .ok o) (failed : analyze t o dir = .error e) :
      Covered t config profile dir path (.error (.analysis e))
  | unrendered {ps : List Profile} {s : Settings} {o : Options} {r : Report} {e : ProfileError}
      (read : Command.readProfile t profile = .ok ps) (settled : Settings.load t config dir = .ok s)
      (options : s.options = .ok o) (analyzes : analyze t o dir = .ok r)
      (failed : Cover.render t dir r ps = .error e) :
      Covered t config profile dir path (.error (.profile e))
  | unwritten {ps : List Profile} {s : Settings} {o : Options} {r : Report} {html : String}
      {e : FileError}
      (read : Command.readProfile t profile = .ok ps) (settled : Settings.load t config dir = .ok s)
      (options : s.options = .ok o) (analyzes : analyze t o dir = .ok r)
      (rendered : Cover.render t dir r ps = .ok html)
      (failed : t.write path (Text.encode html) = .error e) :
      Covered t config profile dir path (.error (.output e))
  | written {ps : List Profile} {s : Settings} {o : Options} {r : Report} {html : String}
      {u : FileTree}
      (read : Command.readProfile t profile = .ok ps) (settled : Settings.load t config dir = .ok s)
      (options : s.options = .ok o) (analyzes : analyze t o dir = .ok r)
      (rendered : Cover.render t dir r ps = .ok html)
      (writes : t.write path (Text.encode html) = .ok u) :
      Covered t config profile dir path (.ok (html, u))

theorem coveredSome (t : FileTree) (config : Option String) (profile dir path : String) :
    ∃ outcome, Covered t config profile dir path outcome := by
  cases read : Command.readProfile t profile with
  | error e => exact ⟨_, .unread read⟩
  | ok ps =>
    cases settled : Settings.load t config dir with
    | error e => exact ⟨_, .unsettled read settled⟩
    | ok s =>
      cases options : s.options with
      | error e => exact ⟨_, .badOptions read settled options⟩
      | ok o =>
        cases analyzes : analyze t o dir with
        | error e => exact ⟨_, .unanalyzed read settled options analyzes⟩
        | ok r =>
          cases rendered : Cover.render t dir r ps with
          | error e => exact ⟨_, .unrendered read settled options analyzes rendered⟩
          | ok html =>
            cases writes : t.write path (Text.encode html) with
            | error e => exact ⟨_, .unwritten read settled options analyzes rendered writes⟩
            | ok u => exact ⟨_, .written read settled options analyzes rendered writes⟩

theorem coveredRuns {t : FileTree} {config : Option String} {profile dir path : String}
    {outcome : Except CommandError (String × FileTree)}
    (covered : Covered t config profile dir path outcome) :
    Command.runCover t config profile dir (some path) =
      outcome.map fun done => ⟨0, "", done.2, none⟩ := by
  cases covered with
  | unread failed =>
    simp [Command.runCover, failed]
  | unsettled read failed =>
    simp [Command.runCover, Command.analyzeWith, read, failed]
  | badOptions read settled failed =>
    simp [Command.runCover, Command.analyzeWith, read, settled, failed]
  | unanalyzed read settled options failed =>
    simp [Command.runCover, Command.analyzeWith, read, settled, options, failed]
  | unrendered read settled options analyzes failed =>
    simp [Command.runCover, Command.analyzeWith, read, settled, options, analyzes, failed]
  | unwritten read settled options analyzes rendered failed =>
    simp [Command.runCover, Command.analyzeWith, read, settled, options, analyzes, rendered, failed]
  | written read settled options analyzes rendered writes =>
    simp [Command.runCover, Command.analyzeWith, read, settled, options, analyzes, rendered, writes]

@[simp] theorem RunResult.errorFiles (host : Host) (t : FileTree) (e : CommandError) :
    (ofError host t e).files = t := by
  unfold ofError
  split <;> rfl

theorem writeFailsIff (t : FileTree) (path : String) (bytes : Bytes) :
    (∃ e, t.write path bytes = .error e) ↔ ∀ r, ¬ t.Writable path r := by
  constructor
  · rintro ⟨e, failed⟩ r writable
    rw [(t.writeIff ..).mpr ⟨r, writable, rfl⟩] at failed
    cases failed
  · intro nowhere
    cases writes : t.write path bytes with
    | error e => exact ⟨e, rfl⟩
    | ok u =>
      obtain ⟨r, writable, _⟩ := (t.writeIff ..).mp writes
      exact absurd writable (nowhere r)

/- A run that fails leaves all files as they are, and says what the first stage that fails says. A
run that succeeds puts the page at its path, made of the files as they were, and changes nothing
else. -/
theorem coverAllOrNothing {host : Host} {t : FileTree} {words : List String} {debug : Bool}
    {config : Option String} {profile dir path : String}
    (accepted : CommandLine.parse words = .ok ⟨debug, config, .cover profile dir (some path)⟩) :
    (∃ outcome, Covered t config profile dir path outcome) ∧
    (∀ e, Covered t config profile dir path (.error e) →
      run host t words = .ofError host t e ∧ (run host t words).files = t) ∧
    (∀ html u, Covered t config profile dir path (.ok (html, u)) →
      run host t words = ⟨0, "", none, u, none⟩ ∧
      ∃ r, t.Writable path r ∧ t.Rewritten u r (Text.encode html) ∧
        u.read path = .ok (Text.encode html) ∧
        ∀ other, t.route other ≠ .ok r → ∀ bytes, u.read other = .ok bytes ↔
          t.read other = .ok bytes) ∧
    ∀ bytes, (∃ e, t.write path bytes = .error e) ↔ ∀ r, ¬ t.Writable path r := by
  refine ⟨coveredSome t config profile dir path, ?_, ?_, writeFailsIff t path⟩
  · intro e covered
    have failed : run host t words = .ofError host t e := by
      simp only [run, accepted, Invocation.run, coveredRuns covered, errorMap]
    exact ⟨failed, by rw [failed, RunResult.errorFiles]⟩
  · intro html u covered
    refine ⟨by simp only [run, accepted, Invocation.run, coveredRuns covered, okMap], ?_⟩
    cases covered with
    | written _ _ _ _ _ writes =>
      obtain ⟨r, writable, same, read⟩ := FileTree.writeRewritten writes
      exact ⟨r, writable, same, read, fun other elsewhere => FileTree.rewrittenRead same elsewhere⟩

def profiledTree : FileTree := ⟨[], (["cover.out"], Text.encode countText) :: halfCalled.files⟩

def coverWords (output : String) : List String :=
  ["cover", "-c", "cover.out", "-p", "pkg", "-o", output]

theorem profiledStages : ∃ s o r html,
    Command.readProfile profiledTree "cover.out" = .ok [countProfile] ∧
    Settings.load profiledTree none "pkg" = .ok s ∧ s.options = .ok o ∧
    analyze profiledTree o "pkg" = .ok r ∧
    Cover.render profiledTree "pkg" r [countProfile] = .ok html := by
  have settled : Settings.load profiledTree none "pkg" = .ok .standard := rfl
  have options : Settings.standard.options = .ok .standard := rfl
  have text : profiledTree.readText "cover.out" = .ok countText :=
    toOptionIff.mp (by decide +kernel)
  have read : Command.readProfile profiledTree "cover.out" = .ok [countProfile] := by
    simp only [Command.readProfile, text, countParsed]
  have evaluated : (analyze profiledTree .standard "pkg").toOption.map (fun r =>
      (Cover.view profiledTree "pkg" r countProfile).toOption.isSome) = some true := by
    simp only [Cover.view, View.ofProfile, Profile.boundariesSwept]
    decide +kernel
  obtain ⟨r, analyzes, succeeds⟩ := toOptionMap.mp evaluated
  obtain ⟨v, viewed⟩ := toOptionIsSome.mp succeeds
  refine ⟨.standard, .standard, r, page countProfile.mode [v], read, settled, options, analyzes, ?_⟩
  simp [Cover.render, viewed]

/- The page goes over the profile it is made of, over a source of the package, and not over the
package itself. -/
theorem pageOverwritesInputs :
    (∀ path ∈ ["cover.out", "pkg/milk.go"],
      CommandLine.parse (coverWords path) =
        .ok ⟨false, none, .cover "cover.out" "pkg" (some path)⟩ ∧
      ∃ html u, Covered profiledTree none "cover.out" "pkg" path (.ok (html, u)) ∧
        run terminal profiledTree (coverWords path) = ⟨0, "", none, u, none⟩ ∧
        u.read path = .ok (Text.encode html)) ∧
    ∃ e, Covered profiledTree none "cover.out" "pkg" "pkg" (.error (.output e)) ∧
      (run terminal profiledTree (coverWords "pkg")).files = profiledTree := by
  obtain ⟨s, o, r, html, read, settled, options, analyzes, rendered⟩ := profiledStages
  constructor
  · intro path among
    have accepted : CommandLine.parse (coverWords path) =
        .ok ⟨false, none, .cover "cover.out" "pkg" (some path)⟩ := by
      rcases List.mem_pair.mp among with rfl | rfl <;> rfl
    have writable : ∃ r, profiledTree.Writable path r := by
      rcases List.mem_pair.mp among with rfl | rfl
      · exact ⟨["cover.out"], by decide, rfl, by decide, [], "cover.out", rfl, by decide, by decide⟩
      · exact ⟨["pkg", "milk.go"], by decide, rfl, by decide, ["pkg"], "milk.go", rfl, by decide,
          by decide⟩
    obtain ⟨route, writable⟩ := writable
    have covered := Covered.written read settled options analyzes rendered
      ((profiledTree.writeIff ..).mpr ⟨route, writable, rfl⟩)
    obtain ⟨ran, _, _, _, holds, _⟩ := (coverAllOrNothing accepted).2.2.1 _ _ covered
    exact ⟨accepted, _, _, covered, ran, holds⟩
  · have accepted : CommandLine.parse (coverWords "pkg") =
        .ok ⟨false, none, .cover "cover.out" "pkg" (some "pkg")⟩ := rfl
    have failed : profiledTree.write "pkg" (Text.encode html) = .error .isDirectory := rfl
    have covered := Covered.unwritten read settled options analyzes rendered failed
    exact ⟨_, covered, ((coverAllOrNothing accepted).2.1 _ covered).2⟩

end Uncalled
