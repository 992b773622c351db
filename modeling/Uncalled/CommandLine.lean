/-! The command line: two commands with options, and options for all of them that may stand before
or after the command's name. Words are taken from left to right. An option's value is settled once
the next option comes or the words end, so a word that fits nowhere is reported before it. -/
namespace Uncalled

inductive Command
  | analyze (package : String) (failOnFound json : Bool)
  | cover (profile package : String) (output : Option String)
  deriving DecidableEq, Repr

structure Invocation where
  debug : Bool
  config : Option String
  command : Command
  deriving DecidableEq, Repr

inductive UsageError
  | help
  | version
  | nothingGiven  -- no words at all
  | missingCommand
  | unknownCommand
  | unknownArgument
  | repeated  -- an option twice
  | invalidValue
  | unwantedValue  -- a value for an option that takes none
  | missingOption
  deriving DecidableEq, Repr

namespace CommandLine

inductive Opt
  | help | version | debug | config | package | failOnFound | json | html | output
  deriving DecidableEq, Repr

def Opt.takesValue : Opt → Bool
  | .config | .package | .html | .output => true
  | _ => false

inductive CommandName
  | analyze | cover
  deriving DecidableEq, Repr

inductive Level
  | top
  | command (name : CommandName)
  deriving DecidableEq, Repr

def Level.options : Level → List Opt
  | .top => [.help, .version, .debug, .config]
  | .command .analyze => [.help, .debug, .config, .package, .failOnFound, .json]
  | .command .cover => [.help, .debug, .config, .html, .package, .output]

def Opt.long : Opt → String
  | .help => "help"
  | .version => "version"
  | .debug => "debug"
  | .config => "config"
  | .package => "package"
  | .failOnFound => "fail-on-found"
  | .json => "json"
  | .html => "html"
  | .output => "output"

def Opt.short? : Opt → Option Char
  | .help => some 'h'
  | .version => some 'V'
  | .debug => some 'd'
  | .config => none
  | .package => some 'p'
  | .failOnFound => some 'F'
  | .json => some 'j'
  | .html => some 'c'
  | .output => some 'o'

def Level.long? (l : Level) (name : String) : Option Opt := l.options.find? fun o => o.long = name

def Level.short? (l : Level) (c : Char) : Option Opt := l.options.find? fun o => o.short? = some c

structure Given where
  settled : List (Opt × String)
  pending : Option (Opt × Option String)
  deriving DecidableEq, Repr

namespace Given

def none : Given := ⟨[], .none⟩

def has (g : Given) (o : Opt) : Bool := (g.settled.lookup o).isSome

def value? (g : Given) (o : Opt) : Option String := g.settled.lookup o

def isEmpty (g : Given) : Bool := g.settled.isEmpty

def awaits (g : Given) : Bool := g.pending.any fun p => p.2.isNone

def take (g : Given) (word : String) : Given :=
  { g with pending := g.pending.map fun p => (p.1, some word) }

def put (g : Given) (o : Opt) (value : String) : Except UsageError Given :=
  if g.has o then .error .repeated
  else if value.isEmpty then .error .invalidValue
  else .ok { g with settled := (o, value) :: g.settled }

def settle (g : Given) : Except UsageError Given :=
  match g.pending with
  | .none => .ok g
  | some (_, .none) => .error .invalidValue
  | some (o, some value) => { g with pending := .none }.put o value

def flag (g : Given) (o : Opt) : Except UsageError Given := do
  let g ← g.settle
  match o with
  | .help => throw .help
  | .version => throw .version
  | _ => g.put o "true"

def attach (g : Given) (o : Opt) (value : String) : Except UsageError Given := do
  (← g.settle).put o value

def await (g : Given) (o : Opt) : Except UsageError Given := do
  return { ← g.settle with pending := some (o, .none) }

end Given

def longOption (l : Level) (g : Given) (text : List Char) : Except UsageError Given :=
  let value := text.dropWhile (· ≠ '=')
  match l.long? (String.ofList (text.takeWhile (· ≠ '='))) with
  | none => .error .unknownArgument
  | some o =>
    if o.takesValue then
      if value.isEmpty then g.await o else g.attach o (String.ofList (value.drop 1))
    else if value.isEmpty then g.flag o
    else .error .unwantedValue

def shortOptions (l : Level) (g : Given) : List Char → Except UsageError Given
  | [] => .ok g
  | c :: cs =>
    match l.short? c with
    | none => .error .unknownArgument
    | some o =>
      if o.takesValue then
        match cs with
        | [] => g.await o
        | '=' :: value => g.attach o (String.ofList value)
        | value => g.attach o (String.ofList value)
      else do shortOptions l (← g.flag o) cs

def commandName? (word : String) : Option CommandName :=
  if word = "analyze" then some .analyze else if word = "cover" then some .cover else none

def helpOn : List String → UsageError
  | [] => .help
  | [word] => if (commandName? word).isSome || word = "help" then .help else .unknownCommand
  | _ => .unknownCommand

def stray (l : Level) (afterDashes : Bool) (word : String) : UsageError :=
  match l with
  | .command _ => .unknownArgument
  | .top =>
    if afterDashes && ((commandName? word).isSome || word = "help") then .unknownArgument
    else .unknownCommand

def readWords (l : Level) (g : Given) :
    List String → Except UsageError (Given × Option (CommandName × List String))
  | [] => .ok (g, none)
  | word :: rest =>
    match if l = .top ∧ !g.awaits then commandName? word else none with
    | some name => .ok (g, some (name, rest))
    | none =>
      if l = .top ∧ !g.awaits ∧ word = "help" then .error (helpOn rest)
      else
        match word.toList with
        | ['-', '-'] =>
          match rest with
          | [] => .ok (g, none)
          | next :: _ => .error (stray l true next)
        | '-' :: '-' :: text => do readWords l (← longOption l g text) rest
        | '-' :: c :: cs => do readWords l (← shortOptions l g (c :: cs)) rest
        | _ => if g.awaits then readWords l (g.take word) rest else .error (stray l false word)

def readCommand (name : CommandName) (words : List String) :
    Except UsageError (Given × Command) := do
  let (g, _) ← readWords (.command name) .none words
  let g ← g.settle
  let package := (g.value? .package).getD "."
  match name with
  | .analyze => return (g, .analyze package (g.has .failOnFound) (g.has .json))
  | .cover =>
    match g.value? .html with
    | none => throw .missingOption
    | some profile => return (g, .cover profile package (g.value? .output))

/-- The invocation that the words after the program's name ask for. An option for all commands
counts as given after the command, if it is given twice. -/
def parse (words : List String) : Except UsageError Invocation := do
  let (g, command) ← readWords .top .none words
  match command with
  | none =>
    let g ← g.settle
    if g.isEmpty then throw .nothingGiven else throw .missingCommand
  | some (name, rest) =>
    let (inner, command) ← readCommand name rest
    let g ← g.settle
    return ⟨g.has .debug || inner.has .debug,
      (inner.value? .config).orElse fun _ => g.value? .config,
      command⟩

end CommandLine
end Uncalled
