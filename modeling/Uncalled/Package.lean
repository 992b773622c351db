import Uncalled.Calls
import Uncalled.FileTree
import Uncalled.Pattern
import Uncalled.Report
import Uncalled.Source.Grammar.Files
/-! A package: the Go files directly in a directory, split into tests and the rest, and its
analysis. What is declared comes from the files that are no tests, what is called from the tests. -/
namespace Uncalled
open Text (Bytes)

structure Options where
  testSuffix : String
  testPrefix : String
  excluded : List Pattern
  deriving DecidableEq, Repr

namespace Options

def standard : Options := ⟨"_test.go", "Test", []⟩

def isTestFile (o : Options) (name : String) : Bool := o.testSuffix.toList.isSuffixOf name.toList

def isExcluded (o : Options) (name : String) : Bool := o.excluded.any fun p => p.matchesName name

def selects (o : Options) (name : String) : Bool :=
  ".go".toList.isSuffixOf name.toList && !o.isExcluded name

end Options

inductive AnalysisError
  | packageNotFound (dir : String)
  | noSourceFiles (dir : String)
  | notGo (path : String) (src : Bytes)
  | unreadable (path : String) (cause : FileError)
  | nothingDeclared
  deriving DecidableEq, Repr

/-- Where a source that is not Go has its first error is for the recovery of a Go parser to say. -/
def AnalysisError.message (firstError : Bytes → Source.Point) : AnalysisError → String
  | .packageNotFound dir => "package directory doesn't exist: " ++ dir
  | .noSourceFiles dir => "no Go files found in " ++ dir
  | .notGo path src =>
    "syntax error in " ++ path ++ " at line " ++ Nat.repr ((firstError src).row + 1) ++
      ", column " ++ Nat.repr ((firstError src).column + 1)
  | .unreadable path cause => "reading " ++ path ++ ": " ++ cause.message
  | .nothingDeclared => "no declared functions found, nothing to score"

structure SourceFile where
  name : String
  path : String
  src : Bytes
  tree : Source.File

structure Package where
  sources : List SourceFile
  tests : List SourceFile

namespace Package

def parseFile (dir : String) (file : String × Bytes) : Except AnalysisError SourceFile :=
  let path := joinPath dir file.1
  match Source.parse? file.2 with
  | some tree => .ok ⟨file.1, path, file.2, tree⟩
  | none => .error (.notGo path file.2)

def selected (o : Options) (files : List (String × Bytes)) :
    Catalogue (Prod.fst : String × Bytes → String) :=
  Catalogue.ofList Prod.fst (files.filter fun f => o.selects f.1)

def ofFiles (o : Options) (dir : String) (files : List (String × Bytes)) :
    Except AnalysisError Package := do
  let chosen := (selected o files).entries
  if chosen.isEmpty then throw (.noSourceFiles dir)
  let parsed ← chosen.mapM (parseFile dir)
  return ⟨parsed.filter fun f => !o.isTestFile f.name, parsed.filter fun f => o.isTestFile f.name⟩

def load (t : FileTree) (o : Options) (dir : String) : Except AnalysisError Package :=
  match t.route dir with
  | .ok r => if t.isDirectory r then ofFiles o dir (t.filesIn r) else .error (.packageNotFound dir)
  | .error _ => .error (.packageNotFound dir)

def details (p : Package) : Catalogue Declaration.name :=
  Catalogue.ofList Declaration.name
    (p.sources.flatMap fun f => Declaration.collect f.path f.tree)

def walk (o : Options) (p : Package) : Walk :=
  let trees := p.tests.map SourceFile.tree
  walkFiles (Helper.collect o.testPrefix trees) (.ofPackage (packageBindings trees)) trees

def report (o : Options) (p : Package) : Report :=
  { details := p.details
    declared := p.details.keys
    called := (Catalogue.names (p.walk o).called).filter p.details.keys.entries.contains }

end Package

def analyze (t : FileTree) (o : Options) (dir : String) : Except AnalysisError Report := do
  let p ← Package.load t o dir
  return p.report o

end Uncalled
