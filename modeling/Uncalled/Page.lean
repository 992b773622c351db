import Uncalled.Overlay
import Uncalled.Profile.Reader
import Uncalled.Text.Decimal
/-! The page that shows the sources of a profile: a list to choose a file from, a legend, and the
markup of each file. A file that the profile names is looked up in the package's directory by its
last name. -/
namespace Uncalled

structure View where
  name : String
  coverage : Float
  body : String

def View.ofProfile (p : Profile) (r : Report) (path : String) (src : Text.Bytes) :
    Except ProfileError View := do
  let bs := p.boundaries src
  return ⟨p.file, ← p.percent, ← annotate r path src bs⟩

namespace Page

def replaceChar (c : Char) (text : String) (cs : List Char) : List Char :=
  cs.flatMap fun x => if x = c then text.toList else [x]

def escape (s : String) : String :=
  String.ofList <| replaceChar '"' "&#34;" <| replaceChar '>' "&gt;" <|
    replaceChar '<' "&lt;" <| replaceChar '&' "&amp;" s.toList

structure Style where
  selector : String
  lines : List String
  deriving DecidableEq, Repr

def Style.text (s : Style) : String :=
  "\t\t\t" ++ s.selector ++ " \x7b\n" ++
    String.join (s.lines.map fun l => "\t\t\t\t" ++ l ++ ";\n") ++ "\t\t\t\x7d\n"

def styles : List Style :=
  [⟨"body", ["background: black", "color: rgb(80, 80, 80)"]⟩,
   ⟨"body, pre, #legend span", ["font-family: Menlo, monospace", "font-weight: bold"]⟩,
   ⟨"#topbar", ["background: black", "position: fixed", "top: 0; left: 0; right: 0",
      "height: 42px", "border-bottom: 1px solid rgb(80, 80, 80)"]⟩,
   ⟨"#content", ["margin-top: 50px"]⟩,
   ⟨"#nav, #legend", ["float: left", "margin-left: 10px"]⟩,
   ⟨"#legend", ["margin-top: 12px"]⟩,
   ⟨"#nav", ["margin-top: 10px"]⟩,
   ⟨"#legend span", ["margin: 0 1px"]⟩]

def rgb (red green blue : Nat) : String :=
  "rgb(" ++ Nat.repr red ++ ", " ++ Nat.repr green ++ ", " ++ Nat.repr blue ++ ")"

def heatColor : Nat → String
  | 0 => rgb 192 0 0
  | n + 1 => rgb (128 - 12 * n) (128 + 12 * n) (128 + 3 * n)

def colorStyle (name color : String) : String :=
  "\t\t\t." ++ name ++ " \x7b color: " ++ color ++ " \x7d\n"

def colors : String :=
  String.join ((List.range 11).map fun n => colorStyle ("cov" ++ Nat.repr n) (heatColor n)) ++
    colorStyle Overlay.uncalledClass (rgb 252 242 106)

def head : String :=
  "\n<!DOCTYPE html>\n<html>\n\t<head>\n" ++
  "\t\t<meta http-equiv=\"Content-Type\" content=\"text/html; charset=utf-8\">\n" ++
  "\t\t<style>\n" ++ String.join (styles.map Style.text) ++ colors ++ "\n\t\t</style>\n\t</head>\n"

def option (i : Nat) (v : View) : String :=
  "\n\t\t\t\t<option value=\"file" ++ Nat.repr i ++ "\">" ++ escape v.name ++ " (" ++
    Text.fixed 1 v.coverage ++ "%)</option>\n"

def legendEntry (name text : String) : String :=
  "\t\t\t\t<span class=\"" ++ name ++ "\">" ++ text ++ "</span>\n"

def legend : Mode → String
  | .set => "\n" ++ legendEntry "cov0" "not covered" ++ legendEntry "cov8" "covered"
  | _ =>
    "\n" ++ legendEntry "cov0" "no coverage" ++ legendEntry "cov1" "low coverage" ++
    String.join ((List.range 8).map fun n => legendEntry ("cov" ++ Nat.repr (n + 2)) "*") ++
    legendEntry "cov10" "high coverage"

def file (i : Nat) (v : View) : String :=
  "\n\t\t<pre class=\"file\" id=\"file" ++ Nat.repr i ++ "\" " ++
    (if i = 0 then "" else "style=\"display: none\"") ++ ">" ++ v.body ++ "</pre>\n"

def script : String :=
  "\t<script>\n" ++
  "\t(function() \x7b\n" ++
  "\t\tlet files = document.getElementById('files');\n" ++
  "\t\tlet visible = document.getElementById('file0');\n" ++
  "\t\tfiles.addEventListener('change', onChange, false);\n" ++
  "\t\tfunction onChange() \x7b\n" ++
  "\t\t\tvisible.style.display = 'none';\n" ++
  "\t\t\tvisible = document.getElementById(files.value);\n" ++
  "\t\t\tvisible.style.display = 'block';\n" ++
  "\t\t\twindow.scrollTo(0, 0);\n" ++
  "\t\t\x7d\n" ++
  "\t\x7d)();\n" ++
  "\t</script>\n" ++
  "</html>\n"

def each (part : Nat → View → String) (views : List View) : String :=
  String.join (views.mapIdx part)

end Page

def page (mode : Mode) (views : List View) : String :=
  Page.head ++
  "\t<body>\n\t\t<div id=\"topbar\">\n\t\t\t<div id=\"nav\">\n\t\t\t\t<select id=\"files\">\n" ++
  Page.each Page.option views ++
  "\n\t\t\t\t</select>\n\t\t\t</div>\n" ++
  "\t\t\t<div id=\"legend\">\n\t\t\t\t<span>not tracked</span>\n" ++
  Page.legend mode ++
  "\n" ++ Page.legendEntry Overlay.uncalledClass "indirectly covered" ++
  "\t\t\t</div>\n\t\t</div>\n\t\t<div id=\"content\">\n" ++
  Page.each Page.file views ++
  "\n\t\t</div>\n\t</body>\n" ++
  Page.script

namespace Cover
open Text (Bytes)

def findSource (t : FileTree) (dir name : String) : Except ProfileError String :=
  match fileName? name with
  | none => .error (.sourceNotFound name dir)
  | some base =>
    let path := joinPath dir base
    if t.isFilePath path then .ok path else .error (.sourceNotFound name dir)

def readSource (t : FileTree) (path : String) : Except ProfileError Bytes :=
  match t.read path with
  | .ok src => .ok src
  | .error e => .error (.unreadable path e)

def view (t : FileTree) (dir : String) (r : Report) (p : Profile) : Except ProfileError View := do
  let path ← findSource t dir p.file
  let src ← readSource t path
  View.ofProfile p r path src

def render (t : FileTree) (dir : String) (r : Report) (profiles : List Profile) :
    Except ProfileError String :=
  match profiles with
  | [] => .error .empty
  | first :: _ => do return page first.mode (← profiles.mapM (view t dir r))

end Cover
end Uncalled
