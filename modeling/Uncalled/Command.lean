import Uncalled.CommandLine
import Uncalled.Page
import Uncalled.Settings
import Uncalled.Summary
/-! The two commands, as functions from the files there are to what is printed, the exit status and
the files there are afterwards. -/
namespace Uncalled

inductive CommandError
  | settings (e : SettingsError)
  | analysis (e : AnalysisError)
  | profile (e : ProfileError)
  | output (e : FileError)
  deriving DecidableEq, Repr

def CommandError.message (firstError : Text.Bytes → Source.Point) : CommandError → String
  | .settings e => e.message
  | .analysis e => e.message firstError
  | .profile e => e.message
  | .output e => e.message

structure Outcome where
  status : Nat
  output : String
  files : FileTree
  shown : Option String  -- a page that goes to no file
  deriving DecidableEq, Repr

namespace Command

def analyzeWith (t : FileTree) (config : Option String) (dir : String) :
    Except CommandError (Settings × Report) := do
  let settings ← (Settings.load t config dir).mapError .settings
  let options ← settings.options.mapError .settings
  let report ← (Uncalled.analyze t options dir).mapError .analysis
  return (settings, report)

def runAnalyze (colors : Bool) (t : FileTree) (config : Option String) (dir : String)
    (failOnFound json : Bool) : Except CommandError Outcome := do
  let (settings, report) ← analyzeWith t config dir
  match Gap.ofReport? report with
  | none => throw (.analysis .nothingDeclared)
  | some gap =>
    let text := if json then gap.report.render else gap.text colors
    let status := if (failOnFound || settings.failOnFound) && !gap.isComplete then 1 else 0
    return ⟨status, text ++ "\n", t, none⟩

def readProfile (t : FileTree) (path : String) : Except ProfileError (List Profile) :=
  match t.readText path with
  | .error e => .error (.unreadable path e)
  | .ok text => Profile.parse text

def runCover (t : FileTree) (config : Option String) (profile dir : String)
    (output : Option String) : Except CommandError Outcome := do
  let profiles ← (readProfile t profile).mapError .profile
  let (_, report) ← analyzeWith t config dir
  let page ← (Cover.render t dir report profiles).mapError .profile
  match output with
  | none => return ⟨0, "", t, some page⟩
  | some path => return ⟨0, "", ← (t.write path (Text.encode page)).mapError .output, none⟩

end Command

def Invocation.run (colors : Bool) (t : FileTree) (i : Invocation) : Except CommandError Outcome :=
  match i.command with
  | .analyze dir failOnFound json => Command.runAnalyze colors t i.config dir failOnFound json
  | .cover profile dir output => Command.runCover t i.config profile dir output

/-- What a run takes from around it: whether its output is coloured, and where a Go parser finds the
first error of a source that it refuses. -/
structure Host where
  colors : Bool
  firstError : Text.Bytes → Source.Point

structure RunResult where
  status : Nat
  output : String
  failure : Option String
  files : FileTree
  shown : Option String
  deriving DecidableEq, Repr

def versionLine : String := "blanket 0.1.0\n"

/-- A failure says why and ends with status two. A number over its limit ends the run at once, with
a status of its own and no message. -/
def RunResult.ofError (host : Host) (t : FileTree) (e : CommandError) : RunResult :=
  if e = .profile .overflow then ⟨101, "", none, t, none⟩
  else ⟨2, "", some (e.message host.firstError), t, none⟩

def run (host : Host) (t : FileTree) (words : List String) : RunResult :=
  match CommandLine.parse words with
  | .error .version => ⟨0, versionLine, none, t, none⟩
  | .error .help => ⟨0, "", none, t, none⟩
  | .error _ => ⟨2, "", none, t, none⟩
  | .ok i =>
    match i.run host.colors t with
    | .error e => .ofError host t e
    | .ok o => ⟨o.status, o.output, none, o.files, o.shown⟩

end Uncalled
