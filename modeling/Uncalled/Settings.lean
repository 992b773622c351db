import Uncalled.Package
import Uncalled.Text.Quoted
import Uncalled.Yaml.Node
/-! The settings of a package: what marks tests, which files are left out, and whether a gap is a
failure. They stand in a YAML document in the package's directory, in which keys that are no
settings are left alone. -/
namespace Uncalled
open Yaml (Node)

structure Settings where
  testSuffix : Option String
  testPrefix : Option String
  excluded : List String
  failOnFound : Bool
  deriving DecidableEq, Repr

inductive SettingsError
  | unreadable (path : String)
  | malformed (path : String)
  | badPattern (pattern : String)
  deriving DecidableEq, Repr

def SettingsError.message : SettingsError → String
  | .unreadable path => "reading config " ++ path
  | .malformed path => "parsing config " ++ path
  | .badPattern pattern => "invalid excluded_files pattern " ++ Text.quoted pattern

namespace Settings

def standard : Settings := ⟨none, none, [], false⟩

def pattern (s : String) : Except SettingsError Pattern :=
  match Pattern.ofString? s with
  | some p => .ok p
  | none => .error (.badPattern s)

def options (s : Settings) : Except SettingsError Options := do
  let excluded ← s.excluded.mapM pattern
  return ⟨s.testSuffix.getD Options.standard.testSuffix,
    s.testPrefix.getD Options.standard.testPrefix, excluded⟩

def isNull (text : String) : Bool := ["null", "Null", "NULL", "~"].contains text

def nullTag : String := "tag:yaml.org,2002:null"

def boolTag : String := "tag:yaml.org,2002:bool"

def text? : Node → Option String
  | .scalar _ _ text => some text
  | _ => none

/-- A text, or nothing. Only a plain scalar can stand for nothing. -/
def optionalText? : Node → Option (Option String)
  | .scalar tag style text =>
    if style ≠ .plain then some (some text)
    else
      match tag with
      | none => some (if text.isEmpty || isNull text then none else some text)
      | some t =>
        if t ≠ nullTag then some (some text) else if isNull text then some none else none
  | _ => none

def bool? : Node → Option Bool
  | .scalar tag style text =>
    if style ≠ .plain ∧ ¬ (style = .literal ∧ tag = some boolTag) then none
    else if ["true", "True", "TRUE"].contains text then some true
    else if ["false", "False", "FALSE"].contains text then some false
    else none
  | _ => none

def texts? : Node → Option (List String)
  | .sequence items => items.mapM text?
  | .scalar _ .plain "" => some []
  | _ => none

def setting? (entries : List (String × Node)) (key : String)
    (read : Node → Option α) (standard : α) :
    Option α :=
  match entries.filter fun e => e.1 = key with
  | [] => some standard
  | [e] => read e.2
  | _ => none

def ofEntries? (entries : List (String × Node)) : Option Settings := do
  return {
    testSuffix := ← setting? entries "test_file_suffix" optionalText? none
    testPrefix := ← setting? entries "test_func_prefix" optionalText? none
    excluded := ← setting? entries "excluded_files" texts? []
    failOnFound := ← setting? entries "fail_on_found" bool? false }

def ofNode? : Node → Option Settings
  | .mapping entries => do
    ofEntries? (← entries.mapM fun e => do return (← text? e.1, e.2))
  | .scalar _ .plain "" => some standard
  | _ => none

def parse? (text : String) : Option Settings := do
  match ← Node.parse? text with
  | none => return standard
  | some node => ofNode? node

def fileNames : List String := ["blanket.yaml", ".blanket.yaml"]

def read (t : FileTree) (path : String) : Except SettingsError Settings :=
  match t.readText path with
  | .error _ => .error (.unreadable path)
  | .ok text =>
    match parse? text with
    | none => .error (.malformed path)
    | some s => .ok s

def path? (t : FileTree) (explicit : Option String) (dir : String) : Option String :=
  explicit.orElse fun _ => (fileNames.map (joinPath dir)).find? t.isFilePath

def load (t : FileTree) (explicit : Option String) (dir : String) : Except SettingsError Settings :=
  match path? t explicit dir with
  | some path => read t path
  | none => .ok standard

end Settings
end Uncalled
