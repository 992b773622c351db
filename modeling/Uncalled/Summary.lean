import Uncalled.Report
import Uncalled.Text.Quoted
/-! A gap in words, with a letter and a colour for its score: as text for a terminal, with or
without colours, and as JSON. -/
namespace Uncalled

def grade (score : Nat) : String :=
  if 90 ≤ score then "A"
  else if 80 ≤ score then "B"
  else if 70 ≤ score then "C"
  else if 60 ≤ score then "D"
  else "F"

inductive Band
  | green | blue | cyan | yellow | magenta | red
  deriving DecidableEq, Repr

namespace Band

def ofScore (score : Nat) : Band :=
  match score / 10 with
  | 10 => .green
  | 9 => .blue
  | 8 => .cyan
  | 7 => .yellow
  | 6 => .magenta
  | _ => .red

def name : Band → String
  | .green => "green"
  | .blue => "blue"
  | .cyan => "cyan"
  | .yellow => "yellow"
  | .magenta => "magenta"
  | .red => "red"

def code : Band → String
  | .green => "32"
  | .blue => "34"
  | .cyan => "36"
  | .yellow => "33"
  | .magenta => "35"
  | .red => "31"

end Band

def paint (colors : Bool) (code text : String) : String :=
  if colors then "\x1b[" ++ code ++ "m" ++ text ++ "\x1b[0m" else text

def alignRight (width : Nat) (text : String) : String :=
  String.ofList (List.replicate (width - text.length) ' ') ++ text

def functionLine (width : Nat) (d : Declaration) : String :=
  "\n\t" ++ alignRight width d.name ++ " on line " ++ Nat.repr d.start.line

def fileLines (colors : Bool) (width : Nat) (entry : String × List Declaration) : String :=
  "\nin " ++ paint colors "1;37" entry.1 ++ ":" ++
    String.join (entry.2.map (functionLine width))

def gradeLine (colors : Bool) (g : Gap) : String :=
  "Grade: " ++
    paint colors (Band.ofScore g.score).code (Nat.repr g.score ++ "% " ++ grade g.score) ++
    " (" ++ Nat.repr g.calledCount ++ "/" ++ Nat.repr g.declaredCount ++ " functions)"

def Gap.text (colors : Bool) (g : Gap) : String :=
  if g.isComplete then gradeLine colors g
  else
    "Functions without direct unit tests:" ++
      String.join (g.details.map (fileLines colors g.longestName)) ++
      "\n\n" ++ gradeLine colors g ++ "\n"

structure Entry where
  name : String
  line : Nat
  deriving DecidableEq, Repr

structure JsonReport where
  declared : Nat
  called : Nat
  score : Nat
  grade : String
  details : List (String × List Entry)
  deriving DecidableEq, Repr

def Gap.report (g : Gap) : JsonReport where
  declared := g.declaredCount
  called := g.calledCount
  score := g.score
  grade := Uncalled.grade g.score
  details := g.details.map fun d => (d.1, d.2.map fun f => ⟨f.name, f.start.line⟩)

def jsonChar (c : Char) : List Char :=
  if c = '"' then ['\\', '"']
  else if c = '\\' then ['\\', '\\']
  else if c = '\n' then ['\\', 'n']
  else if c = '\r' then ['\\', 'r']
  else if c = '\t' then ['\\', 't']
  else if c.toNat = 8 then ['\\', 'b']
  else if c.toNat = 12 then ['\\', 'f']
  else if c.toNat < 0x20 then
    ['\\', 'u', '0', '0'] ++ (if c.toNat < 16 then ['0'] else []) ++ Text.hexDigits c.toNat
  else [c]

def jsonString (s : String) : String :=
  String.ofList ('"' :: s.toList.flatMap jsonChar ++ ['"'])

def jsonItems (indent opening closing : String) (items : List String) : String :=
  if items.isEmpty then opening ++ closing
  else
    opening ++ "\n" ++ String.intercalate ",\n" (items.map fun i => indent ++ "  " ++ i) ++
      "\n" ++ indent ++ closing

def jsonField (name value : String) : String := jsonString name ++ ": " ++ value

def jsonObject (indent : String) (fields : List String) : String :=
  jsonItems indent "\x7b" "\x7d" fields

def jsonArray (indent : String) (items : List String) : String := jsonItems indent "[" "]" items

def Entry.json (indent : String) (e : Entry) : String :=
  jsonObject indent [jsonField "name" (jsonString e.name), jsonField "line" (Nat.repr e.line)]

def JsonReport.detailsText (r : JsonReport) : String :=
  jsonObject "  " (r.details.map fun d =>
    jsonField d.1 (jsonArray "    " (d.2.map (Entry.json "      "))))

def JsonReport.render (r : JsonReport) : String :=
  jsonObject ""
    [jsonField "declared" (Nat.repr r.declared), jsonField "called" (Nat.repr r.called),
     jsonField "score" (Nat.repr r.score), jsonField "grade" (jsonString r.grade),
     jsonField "details" r.detailsText]

end Uncalled
