import Uncalled.Yaml.Token
/-! The value of a YAML document: scalars, sequences and mappings. References to an anchor are
replaced by what the anchor names. -/
namespace Uncalled.Yaml

inductive Node
  | scalar (tag : Option String) (style : Style) (text : String)
  | sequence (items : List Node)
  | mapping (entries : List (Node × Node))

namespace Node

def empty : Node := .scalar none .plain ""

structure Builder where
  tokens : List Token
  anchors : List (String × Node)
  handles : List (String × String)

abbrev Build := StateT Builder Option

def peek : Build (Option Token) := do return (← get).tokens.head?

def skip : Build Unit := modify fun b => { b with tokens := b.tokens.drop 1 }

def record (anchor : Option String) (node : Node) : Build Unit :=
  match anchor with
  | some a => modify fun b => { b with anchors := (a, node) :: b.anchors }
  | none => return ()

def deref (name : String) : Build Node := fun b => (b.anchors.lookup name).map fun n => (n, b)

def resolve (handle rest : String) : Build String := fun b =>
  if handle = "" then some (rest, b)
  else (b.handles.lookup handle).map fun meaning => (meaning ++ rest, b)

def properties : Build (Option String × Option String) := do
  match ← peek with
  | some (.anchor a) =>
    skip
    match ← peek with
    | some (.tag h r) =>
      skip
      return (some a, some (← resolve h r))
    | _ => return (some a, none)
  | some (.tag h r) =>
    skip
    match ← peek with
    | some (.anchor a) =>
      skip
      return (some a, some (← resolve h r))
    | _ => return (none, some (← resolve h r))
  | _ => return (none, none)

def orEmpty (stops : List Token) (part : Build Node) : Build Node := do
  match ← peek with
  | some t => if stops.contains t then return empty else part
  | none => part

def valueOrEmpty (stops : List Token) (part : Build Node) : Build Node := do
  if (← peek) = some .value then
    skip
    orEmpty stops part
  else return empty

def separator (first : Bool) : Build Unit := do
  if first then return ()
  else if (← peek) = some .comma then skip
  else failure

/-- A collection under an anchor. Within the collection the anchor names an empty one. -/
def collection (anchor : Option String) (make : List α → Node) (part : Build (List α)) :
    Build Node := do
  record anchor (make [])
  let node := make (← part)
  record anchor node
  return node

mutual

/-- A node, nested at most `n` deep. Blocks stand only where `block` is set; where `flat` is set a
sequence may stand without an indentation of its own. -/
def node : Nat → Bool → Bool → Build Node
  | 0, _, _ => failure
  | n + 1, block, flat => do
    match ← peek with
    | some (.reference name) =>
      skip
      deref name
    | _ =>
      let (anchor, tag) ← properties
      match ← peek with
      | some (.scalar style text) =>
        skip
        record anchor (.scalar tag style text)
        return .scalar tag style text
      | some .flowSequence =>
        skip
        collection anchor .sequence (flowItems n true)
      | some .flowMapping =>
        skip
        collection anchor .mapping (flowEntries n true)
      | t =>
        if t = some .entry ∧ flat then collection anchor .sequence (flatItems n)
        else if t = some .blockSequence ∧ block then
          skip
          collection anchor .sequence (blockItems n)
        else if t = some .blockMapping ∧ block then
          skip
          collection anchor .mapping (blockEntries n)
        else if anchor.isSome ∨ tag.isSome then
          record anchor (.scalar tag .plain "")
          return .scalar tag .plain ""
        else failure

def blockItems : Nat → Build (List Node)
  | 0 => failure
  | n + 1 => do
    match ← peek with
    | some .entry =>
      skip
      let item ← orEmpty [.entry, .blockEnd] (node n true false)
      return item :: (← blockItems n)
    | some .blockEnd =>
      skip
      return []
    | _ => failure

def flatItems : Nat → Build (List Node)
  | 0 => failure
  | n + 1 => do
    if (← peek) = some .entry then
      skip
      let item ← orEmpty [.entry, .key, .value, .blockEnd] (node n true false)
      return item :: (← flatItems n)
    else return []

def blockEntries : Nat → Build (List (Node × Node))
  | 0 => failure
  | n + 1 => do
    match ← peek with
    | some .key =>
      skip
      let key ← orEmpty [.key, .value, .blockEnd] (node n true true)
      let value ← valueOrEmpty [.key, .value, .blockEnd] (node n true true)
      return (key, value) :: (← blockEntries n)
    | some .blockEnd =>
      skip
      return []
    | _ => failure

def flowItems : Nat → Bool → Build (List Node)
  | 0, _ => failure
  | n + 1, first => do
    if (← peek) = some .flowSequenceEnd then
      skip
      return []
    else
      separator first
      match ← peek with
      | some .flowSequenceEnd =>
        skip
        return []
      | some .key =>
        skip
        let key ← pairKey n
        let value ← valueOrEmpty [.comma, .flowSequenceEnd] (node n false false)
        return .mapping [(key, value)] :: (← flowItems n false)
      | _ =>
        let item ← node n false false
        return item :: (← flowItems n false)

def pairKey : Nat → Build Node
  | 0 => failure
  | n + 1 => do
    let t ← peek
    if t = some .value ∨ t = some .comma ∨ t = some .flowSequenceEnd then
      skip
      return empty
    else node n false false

def flowEntries : Nat → Bool → Build (List (Node × Node))
  | 0, _ => failure
  | n + 1, first => do
    if (← peek) = some .flowMappingEnd then
      skip
      return []
    else
      separator first
      match ← peek with
      | some .flowMappingEnd =>
        skip
        return []
      | some .key =>
        skip
        let key ← orEmpty [.value, .comma, .flowMappingEnd] (node n false false)
        let value ← valueOrEmpty [.comma, .flowMappingEnd] (node n false false)
        return (key, value) :: (← flowEntries n false)
      | _ =>
        let key ← node n false false
        return (key, empty) :: (← flowEntries n false)

end

def directives (version : Bool) (handles : List (String × String)) :
    List Token → Option (List (String × String) × List Token)
  | .version major minor :: ts =>
    if version ∨ major ≠ 1 ∨ (minor ≠ 1 ∧ minor ≠ 2) then none else directives true handles ts
  | .handle name meaning :: ts =>
    if (handles.lookup name).isSome then none
    else directives version ((name, meaning) :: handles) ts
  | ts => some (handles, ts)

def standardHandles : List (String × String) := [("!", "!"), ("!!", "tag:yaml.org,2002:")]

def whole (handles : List (String × String)) (ts : List Token) : Option Node := do
  let (root, b) ← (node (3 * ts.length + 3) true false).run ⟨ts, [], handles ++ standardHandles⟩
  if b.tokens.all (· = .documentEnd) then return root else none

def ofTokens? (ts : List Token) : Option (Option Node) :=
  if ts.isEmpty then some none
  else do
    let (handles, rest) ← directives false [] ts
    match rest with
    | .documentStart :: rest =>
      if rest.all (· = .documentEnd) then return some empty else return some (← whole handles rest)
    | _ => if rest = ts then return some (← whole [] ts) else none

def parse? (text : String) : Option (Option Node) := do ofTokens? (← tokens? text)

end Node
end Uncalled.Yaml
