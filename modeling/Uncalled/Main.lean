import Uncalled.Command
/-! The program. It takes the files that its words name into a tree, runs on the tree, prints, and
writes the page. -/
namespace Uncalled

def usage : String :=
  "Usage: blanket [OPTIONS] <COMMAND>\n\n" ++
  "Commands:\n" ++
  "  analyze  Report functions without direct unit tests\n" ++
  "  cover    Render a coverage profile as HTML, marking indirectly covered functions\n" ++
  "  help     Print this message\n\n" ++
  "Options:\n" ++
  "  -d, --debug            Log debug information to stderr\n" ++
  "      --config <CONFIG>  Path to a config YAML file\n" ++
  "  -h, --help             Print help\n" ++
  "  -V, --version          Print version\n\n" ++
  "analyze: [-p, --package <PACKAGE>] [-F, --fail-on-found] [-j, --json]\n" ++
  "cover:   -c, --html <PROFILE> [-p, --package <PACKAGE>] [-o, --output <OUTPUT>]\n"

def steps (path : String) : List (String × Route) :=
  let start : Route := if path.toList.head? = some '/' then ["/"] else []
  let walk (done : List (String × Route)) (part : String) : List (String × Route) :=
    let (text, here) := done.head?.getD ("", start)
    let next := if part = "" ∨ part = "." then here
      else if part = ".." then here.up else here ++ [part]
    (text ++ part ++ "/", next) :: done
  (pathParts path).foldl walk []

def addPath (t : FileTree) (path : String) : IO FileTree := do
  let cwd ← IO.currentDir
  let mut t := t
  for (text, route) in steps path do
    if ← (cwd / text).isDir then t := { t with folders := route :: t.folders }
  match (steps path).head? with
  | some (_, route) =>
    let place := cwd / path
    if (← place.pathExists) && !(← place.isDir) then
      t := t.put route (← IO.FS.readBinFile place).toList
  | none => pure ()
  return t

def addDirectory (t : FileTree) (dir : String) : IO FileTree := do
  let mut t ← addPath t dir
  let place := (← IO.currentDir) / dir
  if ← place.isDir then
    for entry in ← place.readDir do
      t ← addPath t (joinPath dir entry.fileName)
  return t

def gather (i : Invocation) : IO FileTree := do
  let t ← i.config.toList.foldlM addPath FileTree.empty
  match i.command with
  | .analyze dir _ _ => addDirectory t dir
  | .cover profile dir output => (profile :: output.toList).foldlM addPath (← addDirectory t dir)

/-- Colours are for terminals. The parser of this program does not recover from an error, so it puts
each at the start of its file. -/
def host : IO Host := do
  let plain := (← IO.getEnv "NO_COLOR").isSome
  return ⟨!plain && (← (← IO.getStdout).isTty), fun _ => .origin⟩

def deliver (i : Invocation) (r : RunResult) : IO Unit := do
  match i.command, r.shown with
  | .cover _ _ (some path), _ =>
    match r.files.read path with
    | .ok bytes =>
      if r.status = 0 then IO.FS.writeBinFile ((← IO.currentDir) / path) ⟨bytes.toArray⟩
    | .error _ => pure ()
  | _, some page =>
    let place := (← IO.FS.createTempDir) / "coverage.html"
    IO.FS.writeFile place page
    IO.eprintln ("HTML output written to " ++ place.toString)
  | _, none => pure ()

end Uncalled

open Uncalled

def main (words : List String) : IO UInt32 := do
  match CommandLine.parse words with
  | .error .help => IO.print usage
  | .error .version => pure ()
  | .error _ => IO.eprint usage
  | .ok _ => pure ()
  let invocation := (CommandLine.parse words).toOption
  let files ← match invocation with
    | some i => gather i
    | none => pure FileTree.empty
  let r := run (← host) files words
  IO.print r.output
  for message in r.failure do IO.eprintln ("Error: " ++ message)
  for i in invocation do deliver i r
  return r.status.toUInt32
