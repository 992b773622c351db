import Uncalled.Page
import Uncalled.Proofs.Boundaries
import Uncalled.Proofs.Decoding
import Uncalled.Proofs.Entities
/-! The tags of a page. What a file is called and what stands in it is escaped, so that a page has
the tags of its frame, four for each of its files, and one for each boundary laid over them. -/
namespace Uncalled
open Text (Bytes)

namespace Page

/- What stands between each `<` of a text and the `>` after it. -/
def openings : List Char → List String
  | [] => []
  | c :: cs =>
    if c = '<' then String.ofList (cs.takeWhile (· ≠ '>')) :: openings cs else openings cs

theorem openingsLength (cs : List Char) : (openings cs).length = cs.count '<' := by
  induction cs with
  | nil => rfl
  | cons c cs ih =>
    rw [openings, List.count_cons]
    split
    · rename_i opening
      rw [List.length_cons, ih, if_pos (by simp [opening])]
    · rename_i other
      rw [ih, if_neg (by simp [other])]
      rfl

/- A text has these tags, whatever comes after it: none of them is left open. -/
def Tagged (text : List Char) (tags : List String) : Prop :=
  ∀ rest, openings (text ++ rest) = tags ++ openings rest

theorem taggedAppend {xs ys : List Char} {as bs : List String} (left : Tagged xs as)
    (right : Tagged ys bs) : Tagged (xs ++ ys) (as ++ bs) := by
  intro rest
  rw [List.append_assoc, left, right, List.append_assoc]

theorem taggedJoined {s t : String} {as bs : List String} (left : Tagged s.toList as)
    (right : Tagged t.toList bs) : Tagged (s ++ t).toList (as ++ bs) := by
  rw [String.toList_append]
  exact taggedAppend left right

theorem taggedPlain {text : List Char} (plain : '<' ∉ text) : Tagged text [] := by
  intro rest
  induction text with
  | nil => rfl
  | cons c cs ih =>
    obtain ⟨other, others⟩ := List.ne_and_not_mem_of_not_mem_cons plain
    rw [List.cons_append, openings, if_neg (Ne.symm other)]
    exact ih others

theorem taggedMore {s t : String} {tags : List String} (left : Tagged s.toList tags)
    (plain : '<' ∉ t.toList) : Tagged (s ++ t).toList tags := by
  have joined := taggedJoined left (taggedPlain plain)
  rwa [List.append_nil] at joined

def closed : List Char → Bool
  | [] => true
  | c :: cs => (c ≠ '<' || cs.contains '>') && closed cs

theorem taggedClosed {text : List Char} (shut : closed text = true) :
    Tagged text (openings text) := by
  intro rest
  induction text with
  | nil => rfl
  | cons c cs ih =>
    rw [closed, Bool.and_eq_true] at shut
    rw [List.cons_append, openings, openings, ih shut.2]
    split
    · rename_i opening
      have ends : '>' ∈ cs := by simpa [opening] using shut.1
      have stops : (cs ++ rest).takeWhile (· ≠ '>') = cs.takeWhile (· ≠ '>') := by
        obtain ⟨body, after, rfl⟩ := List.append_of_mem ends
        rw [List.append_assoc, List.cons_append]
        rw [List.takeWhile_append, List.takeWhile_append]
        simp
      rw [stops, List.cons_append]
    · rfl

theorem taggedText {s : String} {tags : List String}
    (read : closed s.toList = true ∧ openings s.toList = tags) : Tagged s.toList tags := by
  rw [← read.2]
  exact taggedClosed read.1

def Bare (s : String) : Prop := '<' ∉ s.toList ∧ '>' ∉ s.toList
instance (s) : Decidable (Bare s) := by unfold Bare; infer_instance

theorem bareAppend {s t : String} (left : Bare s) (right : Bare t) : Bare (s ++ t) := by
  simp [Bare, left.1, left.2, right.1, right.2]

theorem bareRepr (n : Nat) : Bare (Nat.repr n) := by
  have opening := Text.digitsPlain (show '<'.isDigit = false by decide) n
  have closing := Text.digitsPlain (show '>'.isDigit = false by decide) n
  simp [Bare, opening, closing]

def tag (body : String) : String := "<" ++ body ++ ">"

theorem taggedTag {body : String} (bare : Bare body) : Tagged (tag body).toList [body] := by
  intro rest
  have stops : (body.toList ++ '>' :: rest).takeWhile (· ≠ '>') = body.toList := by
    rw [List.takeWhile_append_of_pos, List.takeWhile_cons_of_neg (by simp), List.append_nil]
    intro c inside
    exact decide_eq_true fun same => bare.2 (by rwa [← same])
  have text : (tag body).toList ++ rest = '<' :: (body.toList ++ '>' :: rest) := by simp [tag]
  have plain : '<' ∉ body.toList ++ ['>'] := by simp [bare.1]
  have inner := taggedPlain plain rest
  rw [List.append_assoc] at inner
  rw [text, openings, if_pos rfl, stops, String.ofList_toList]
  exact congrArg _ inner

def element (indent opening inside closing : String) : String :=
  indent ++ tag opening ++ inside ++ tag closing ++ "\n"

theorem elementTagged {indent opening inside closing : String} {tags : List String}
    (plain : '<' ∉ indent.toList) (opens : Bare opening) (inner : Tagged inside.toList tags)
    (closes : Bare closing) : Tagged (element indent opening inside closing).toList
      (opening :: (tags ++ [closing])) :=
  taggedMore (taggedJoined (taggedJoined (taggedJoined (taggedPlain plain) (taggedTag opens)) inner)
    (taggedTag closes)) (by decide)

end Page

namespace Overlay
open Page (Bare Tagged tag bareAppend bareRepr taggedAppend taggedPlain taggedTag)

def spanBody (name : String) (b : Boundary) : String :=
  "span class=\"" ++ name ++ "\" title=\"" ++ Nat.repr b.count ++ "\""

def tagBody (uncalled : List Declaration) (b : Boundary) : String :=
  if b.start then spanBody (className uncalled b) b else "/span"

theorem tagTextBody (uncalled : List Declaration) (b : Boundary) :
    tagText uncalled b = tag (tagBody uncalled b) := by
  unfold tagText tagBody spanBody tag
  split <;> simp [← String.toList_inj]

theorem classBare (uncalled : List Declaration) (b : Boundary) :
    Bare (className uncalled b) := by
  unfold className
  split
  · decide
  · exact bareAppend (by decide) (bareRepr _)

theorem tagBodyBare (uncalled : List Declaration) (b : Boundary) :
    Bare (tagBody uncalled b) := by
  unfold tagBody spanBody
  split
  · exact bareAppend (bareAppend (bareAppend (bareAppend (by decide) (classBare uncalled b))
      (by decide)) (bareRepr _)) (by decide)
  · decide

theorem spanTagged (uncalled : List Declaration) (b : Boundary) :
    Tagged (tagText uncalled b).toList [tagBody uncalled b] := by
  rw [tagTextBody]
  exact taggedTag (tagBodyBare uncalled b)

theorem byteTextPlain (b : UInt8) : 0x3c ∉ byteText b := by
  unfold byteText
  split_ifs with greater less
  · decide
  · decide
  · decide
  · decide
  · simpa using fun same => less same.symm

theorem lossyPlain {bs : Bytes} (plain : 0x3c ∉ bs) : '<' ∉ Text.lossy bs := fun inside =>
  plain (Text.lossyMember (by decide) (by decide) inside)

/- The bytes before a tag may end within a character: it is broken off there, and the tag is read as
it was written. -/
theorem piecesTagged (uncalled : List Declaration) (ps : List Piece) {before : Bytes}
    (plain : 0x3c ∉ before) :
    Tagged (Text.lossy (before ++ ps.flatMap (Piece.text uncalled)))
      ((ps.filterMap Piece.tag?).map (tagBody uncalled)) := by
  induction ps generalizing before with
  | nil =>
    rw [List.flatMap_nil, List.append_nil]
    exact taggedPlain (lossyPlain plain)
  | cons piece ps ih =>
    cases piece with
    | byte b =>
      rw [List.flatMap_cons, ← List.append_assoc]
      exact ih (List.not_mem_append plain (byteTextPlain b))
    | tag b =>
      have text : (tagText uncalled b).toList = '<' :: ((tagBody uncalled b).toList ++ ['>']) := by
        simp [tagTextBody, tag]
      rw [List.flatMap_cons, Piece.text, Text.lossyBetween text (by decide)]
      have after := taggedAppend (spanTagged uncalled b) (ih List.not_mem_nil)
      exact taggedAppend (taggedPlain (lossyPlain plain)) after

theorem markupTagged (uncalled : List Declaration) {src : Bytes} {bs : List Boundary}
    (ahead : Ahead 0 bs) (within : ∀ b ∈ bs, b.offset < src.length) :
    Tagged (markup uncalled src bs).toList (bs.map (tagBody uncalled)) := by
  have tagged := piecesTagged uncalled (pieces 0 src bs) List.not_mem_nil
  rw [piecesTags ahead (by simpa using within)] at tagged
  simpa [markup, Text.decodeLossy, Text.lossy] using tagged

end Overlay

theorem Text.pointedPlain (places units : Nat) : '<' ∉ pointed places units := by
  have digits : ∀ n, '<' ∉ Nat.toDigits 10 n := digitsPlain (by decide)
  unfold pointed padded
  split <;> simp [digits]

theorem Text.fixedPlain (places : Nat) (x : Float) : '<' ∉ (fixed places x).toList := by
  have signs : ∀ negative, '<' ∉ sign negative := by decide
  unfold fixed
  cases Binary.ofFloat x with
  | notANumber => simp [Binary.fixed]
  | infinite negative => simp [Binary.fixed, signs]
  | finite negative num den =>
    have digits := pointedPlain places (roundDiv (num * Nat.pow 10 places) den)
    rw [String.toList_ofList, Binary.fixed, List.mem_append]
    exact not_or.mpr ⟨signs negative, digits⟩

namespace Page

def optionTags (i : Nat) (_ : List String) : List String :=
  ["option value=\"file" ++ Nat.repr i ++ "\"", "/option"]

def fileTags (i : Nat) (spans : List String) : List String :=
  ["pre class=\"file\" id=\"file" ++ Nat.repr i ++ "\" " ++
    if i = 0 then "" else "style=\"display: none\""] ++ spans ++ ["/pre"]

def entryTags (name : String) : List String := ["span class=\"" ++ name ++ "\"", "/span"]

def legendTags : Mode → List String
  | .set => entryTags "cov0" ++ entryTags "cov8"
  | _ => (List.range 11).flatMap fun n => entryTags ("cov" ++ Nat.repr n)

def tags (mode : Mode) (spans : List (List String)) : List String :=
  ["!DOCTYPE html", "html", "head",
    "meta http-equiv=\"Content-Type\" content=\"text/html; charset=utf-8\"", "style", "/style",
    "/head", "body", "div id=\"topbar\"", "div id=\"nav\"", "select id=\"files\""] ++
  (spans.mapIdx optionTags).flatten ++
  ["/select", "/div", "div id=\"legend\"", "span", "/span"] ++
  legendTags mode ++ entryTags Overlay.uncalledClass ++ ["/div", "/div", "div id=\"content\""] ++
  (spans.mapIdx fileTags).flatten ++
  ["/div", "/body", "script", "/script", "/html"]

theorem joinPlain {c : Char} {texts : List String} (plain : ∀ s ∈ texts, c ∉ s.toList) :
    c ∉ (String.join texts).toList := by
  rw [String.toList_join]
  intro inside
  obtain ⟨s, among, shown⟩ := List.mem_flatMap.mp inside
  exact plain s among shown

theorem stylesPlain : '<' ∉ (String.join (styles.map Style.text)).toList := by
  have parts : ∀ s ∈ styles, '<' ∉ s.selector.toList ∧ ∀ l ∈ s.lines, '<' ∉ l.toList := by decide
  refine joinPlain fun text inside => ?_
  obtain ⟨s, among, rfl⟩ := List.mem_map.mp inside
  obtain ⟨selector, lines⟩ := parts s among
  simpa [Style.text, selector] using lines

theorem colorStylePlain {name color : String} (plain : '<' ∉ name.toList ∧ '<' ∉ color.toList) :
    '<' ∉ (colorStyle name color).toList := by
  simp [colorStyle, plain]

theorem colorsPlain : '<' ∉ colors.toList := by
  have digits : ∀ n, '<' ∉ Nat.toDigits 10 n := Text.digitsPlain (by decide)
  have mixed : ∀ red green blue, '<' ∉ (rgb red green blue).toList := by simp [rgb, digits]
  have heats : ∀ n, '<' ∉ (heatColor n).toList := by
    intro n
    cases n with
    | zero => exact mixed 192 0 0
    | succ n => exact mixed (128 - 12 * n) (128 + 12 * n) (128 + 3 * n)
  have levels : '<' ∉ (String.join ((List.range 11).map fun n =>
      colorStyle ("cov" ++ Nat.repr n) (heatColor n))).toList := by
    refine joinPlain fun text inside => ?_
    obtain ⟨n, _, rfl⟩ := List.mem_map.mp inside
    exact colorStylePlain ⟨by simp [digits], heats n⟩
  rw [colors, String.toList_append, List.mem_append]
  exact not_or.mpr ⟨levels, colorStylePlain ⟨by decide, mixed 252 242 106⟩⟩

theorem headTagged : Tagged head.toList ["!DOCTYPE html", "html", "head",
    "meta http-equiv=\"Content-Type\" content=\"text/html; charset=utf-8\"", "style", "/style",
    "/head"] := by
  have opens : Tagged "\n<!DOCTYPE html>\n<html>\n\t<head>\n".toList
      ["!DOCTYPE html", "html", "head"] := taggedText (by decide)
  have kind : Tagged
      "\t\t<meta http-equiv=\"Content-Type\" content=\"text/html; charset=utf-8\">\n".toList
      ["meta http-equiv=\"Content-Type\" content=\"text/html; charset=utf-8\""] :=
    taggedText (by decide)
  have style : Tagged "\t\t<style>\n".toList ["style"] := taggedText (by decide)
  have closes : Tagged "\n\t\t</style>\n\t</head>\n".toList ["/style", "/head"] :=
    taggedText (by decide)
  exact taggedJoined (taggedMore (taggedMore (taggedJoined (taggedJoined opens kind) style)
    stylesPlain) colorsPlain) closes

theorem optionTagged (i : Nat) (v : View) (spans : List String) :
    Tagged (option i v).toList (optionTags i spans) := by
  have parts : option i v = element "\n\t\t\t\t" ("option value=\"file" ++ Nat.repr i ++ "\"")
      (escape v.name ++ " (" ++ Text.fixed 1 v.coverage ++ "%)") "/option" := by
    unfold option element tag
    rw [← String.toList_inj]
    simp
  have label : '<' ∉ (escape v.name ++ " (" ++ Text.fixed 1 v.coverage ++ "%)").toList := by
    simp [(escapedName v.name).less, Text.fixedPlain]
  rw [parts]
  exact elementTagged (by decide) (bareAppend (bareAppend (by decide) (bareRepr i)) (by decide))
    (taggedPlain label) (by decide)

theorem fileTagged (i : Nat) (v : View) {spans : List String} (body : Tagged v.body.toList spans) :
    Tagged (file i v).toList (fileTags i spans) := by
  have parts : file i v = element "\n\t\t" ("pre class=\"file\" id=\"file" ++ Nat.repr i ++ "\" " ++
      if i = 0 then "" else "style=\"display: none\"") v.body "/pre" := by
    unfold file element tag
    rw [← String.toList_inj]
    simp
  have hidden : Bare (if i = 0 then "" else "style=\"display: none\"") := by
    split <;> decide
  rw [parts]
  exact elementTagged (by decide)
    (bareAppend (bareAppend (bareAppend (by decide) (bareRepr i)) (by decide)) hidden) body
    (by decide)

theorem eachTagged {part : Nat → View → String} {tags : Nat → List String → List String}
    (one : ∀ i v spans, Tagged v.body.toList spans → Tagged (part i v).toList (tags i spans))
    {views : List View} {spans : List (List String)}
    (bodies : List.Forall₂ (fun v spans => Tagged v.body.toList spans) views spans) :
    Tagged (each part views).toList (spans.mapIdx tags).flatten := by
  induction bodies generalizing part tags with
  | nil => exact taggedPlain List.not_mem_nil
  | cons body bodies ih =>
    have rest := ih fun i v spans => one (i + 1) v spans
    have first := one 0 _ _ body
    unfold each at rest ⊢
    rw [List.mapIdx_cons, List.mapIdx_cons, String.join_cons, List.flatten_cons]
    exact taggedJoined first rest

theorem entryTagged {name text : String} (bare : Bare name) (plain : '<' ∉ text.toList) :
    Tagged (legendEntry name text).toList (entryTags name) := by
  have parts : legendEntry name text =
      element "\t\t\t\t" ("span class=\"" ++ name ++ "\"") text "/span" := by
    unfold legendEntry element tag
    rw [← String.toList_inj]
    simp
  rw [parts]
  exact elementTagged (by decide) (bareAppend (bareAppend (by decide) bare) (by decide))
    (taggedPlain plain) (by decide)

theorem levelsTagged (levels : List Nat) :
    Tagged (String.join (levels.map fun n => legendEntry ("cov" ++ Nat.repr (n + 2)) "*")).toList
      (levels.flatMap fun n => entryTags ("cov" ++ Nat.repr (n + 2))) := by
  induction levels with
  | nil => exact taggedPlain List.not_mem_nil
  | cons n levels ih =>
    have first := entryTagged (bareAppend (by decide : Bare "cov") (bareRepr (n + 2)))
      (by decide : '<' ∉ "*".toList)
    rw [List.map_cons, String.join_cons, List.flatMap_cons]
    exact taggedJoined first ih

theorem legendTagged (mode : Mode) : Tagged (legend mode).toList (legendTags mode) := by
  have newline : Tagged "\n".toList [] := taggedPlain (by decide)
  have entry (name text : String) (plain : Bare name ∧ '<' ∉ text.toList) :=
    entryTagged plain.1 plain.2
  have graded : Tagged (legend .count).toList (legendTags .count) := by
    have parts := taggedJoined (taggedJoined (taggedJoined (taggedJoined newline
      (entry "cov0" "no coverage" (by decide))) (entry "cov1" "low coverage" (by decide)))
      (levelsTagged (List.range 8))) (entry "cov10" "high coverage" (by decide))
    have levels : [] ++ entryTags "cov0" ++ entryTags "cov1" ++ ((List.range 8).flatMap fun n =>
        entryTags ("cov" ++ Nat.repr (n + 2))) ++ entryTags "cov10" = legendTags .count := by decide
    rw [levels] at parts
    exact parts
  cases mode with
  | set =>
    exact taggedJoined (taggedJoined newline (entry "cov0" "not covered" (by decide)))
      (entry "cov8" "covered" (by decide))
  | count => exact graded
  | atomic => exact graded

theorem scriptTagged : Tagged script.toList ["script", "/script", "/html"] := by
  have opens : Tagged "\t<script>\n".toList ["script"] := taggedText (by decide)
  have closes : Tagged "\t</script>\n".toList ["/script"] := taggedText (by decide)
  have last : Tagged "</html>\n".toList ["/html"] := taggedText (by decide)
  unfold script
  change Tagged _ (["script"] ++ ["/script"] ++ ["/html"])
  refine taggedJoined (taggedJoined ?_ closes) last
  iterate 11 refine taggedMore ?_ (by decide)
  exact opens

theorem pageTagged (mode : Mode) {views : List View} {spans : List (List String)}
    (bodies : List.Forall₂ (fun v spans => Tagged v.body.toList spans) views spans) :
    Tagged (page mode views).toList (tags mode spans) := by
  have opens : Tagged
      "\t<body>\n\t\t<div id=\"topbar\">\n\t\t\t<div id=\"nav\">\n\t\t\t\t<select id=\"files\">\n".toList
      ["body", "div id=\"topbar\"", "div id=\"nav\"", "select id=\"files\""] :=
    taggedText (by decide)
  have options := eachTagged (fun i v spans _ => optionTagged i v spans) bodies
  have chosen : Tagged "\n\t\t\t\t</select>\n\t\t\t</div>\n".toList ["/select", "/div"] :=
    taggedText (by decide)
  have untracked : Tagged
      "\t\t\t<div id=\"legend\">\n\t\t\t\t<span>not tracked</span>\n".toList
      ["div id=\"legend\"", "span", "/span"] := taggedText (by decide)
  have uncalled := entryTagged (by decide : Bare Overlay.uncalledClass)
    (by decide : '<' ∉ "indirectly covered".toList)
  have content : Tagged "\t\t\t</div>\n\t\t</div>\n\t\t<div id=\"content\">\n".toList
      ["/div", "/div", "div id=\"content\""] := taggedText (by decide)
  have files := eachTagged (fun i v spans body => fileTagged i v body) bodies
  have closes : Tagged "\n\t\t</div>\n\t</body>\n".toList ["/div", "/body"] :=
    taggedText (by decide)
  have top := taggedJoined (taggedJoined headTagged opens) options
  have bar := taggedMore (taggedJoined (taggedJoined (taggedJoined top chosen) untracked)
    (legendTagged mode)) (show '<' ∉ "\n".toList by decide)
  have whole := taggedJoined (taggedJoined (taggedJoined (taggedJoined (taggedJoined bar uncalled)
    content) files) closes) scriptTagged
  unfold page tags
  simpa only [List.append_assoc, List.cons_append, List.nil_append] using whole

def frame : Mode → Nat
  | .set => 30
  | _ => 48

theorem flattenLength {f : Nat → List String → List String} {g : List String → List String}
    (two : ∀ i spans, (f i spans).length = 2 + (g spans).length) (files : List (List String)) :
    (files.mapIdx f).flatten.length = 2 * files.length + (files.flatMap g).length := by
  induction files generalizing f with
  | nil => rfl
  | cons spans files ih =>
    have rest := ih fun i spans => two (i + 1) spans
    rw [List.mapIdx_cons, List.flatten_cons, List.length_append, two, rest, List.flatMap_cons,
      List.length_append, List.length_cons]
    omega

theorem tagsLength (mode : Mode) (files : List (List String)) :
    (tags mode files).length = frame mode + 4 * files.length + files.flatten.length := by
  have options := flattenLength (f := optionTags) (g := fun _ => []) (fun _ _ => rfl) files
  have marked := flattenLength (f := fileTags) (g := id)
    (fun _ _ => by simp [fileTags]; omega) files
  have empty : (files.flatMap fun _ => ([] : List String)).length = 0 := by simp
  have legend : (legendTags mode).length + 26 = frame mode := by cases mode <;> decide
  rw [List.flatMap_id] at marked
  simp only [tags, List.length_append, options, marked, empty, ← legend]
  simp [entryTags]
  omega

end Page

structure Sheet where
  profile : Profile
  path : String
  src : Bytes

namespace Sheet

def view (r : Report) (s : Sheet) : Except ProfileError View :=
  View.ofProfile s.profile r s.path s.src

def boundaries (s : Sheet) : List Boundary := s.profile.boundaries s.src

def spans (r : Report) (s : Sheet) : List String :=
  s.boundaries.map (Overlay.tagBody (Overlay.uncalledIn r s.path))

theorem viewBody {r : Report} {s : Sheet} {v : View} (shown : s.view r = .ok v) :
    v.body = Overlay.markup (Overlay.uncalledIn r s.path) s.src s.boundaries := by
  obtain ⟨share, _, shown⟩ := bindOk.mp shown
  obtain ⟨body, annotated, made⟩ := bindOk.mp shown
  cases made
  unfold annotate at annotated
  dsimp only at annotated
  split at annotated
  · cases annotated
  · cases annotated
    rfl

theorem viewTagged {r : Report} {s : Sheet} {v : View} (shown : s.view r = .ok v) :
    Page.Tagged v.body.toList (s.spans r) := by
  rw [viewBody shown]
  exact Overlay.markupTagged _ (Overlay.boundariesAhead s.profile s.src)
    (s.profile.boundariesWithin s.src)

theorem spansLength (r : Report) (sheets : List Sheet) :
    (sheets.map (spans r)).flatten.length = (sheets.flatMap boundaries).length := by
  induction sheets with
  | nil => rfl
  | cons s sheets ih =>
    rw [List.map_cons, List.flatten_cons, List.flatMap_cons, List.length_append, List.length_append,
      ih, spans, List.length_map]

end Sheet

/- Whatever the files are called and whatever stands in them, the tags of a page are those of its
frame, two for the choice of each file, two around it, and one for each boundary. -/
theorem onlyBoundariesAddTags {r : Report} {sheets : List Sheet} {views : List View}
    (shown : sheets.mapM (Sheet.view r) = .ok views) (mode : Mode) :
    Page.openings (page mode views).toList = Page.tags mode (sheets.map (Sheet.spans r)) ∧
      (page mode views).toList.count '<' =
        Page.frame mode + 4 * sheets.length + (sheets.flatMap Sheet.boundaries).length := by
  have bodies : List.Forall₂ (fun v spans => Page.Tagged v.body.toList spans) views
      (sheets.map (Sheet.spans r)) := by
    rw [List.forall₂_map_right_iff]
    exact ((mapMEach.mp shown).imp fun _ _ => Sheet.viewTagged).flip
  have tagged := Page.pageTagged mode bodies []
  rw [List.append_nil, Page.openings, List.append_nil] at tagged
  refine ⟨tagged, ?_⟩
  rw [← Page.openingsLength, tagged, Page.tagsLength, List.length_map, Sheet.spansLength]

/- A name and a source that try to open tags. The block ends within a character of the source. -/
def hostileSheet : Sheet :=
  ⟨⟨"<script>&\".go", .count, [⟨⟨1, 2, 1, 5⟩, 1, 0⟩]⟩, "dir/<script>&\".go",
    [0x3c, 0x62, 0xe2, 0x82, 0x3c, 0x2f, 0xff, 0x3e]⟩

theorem hostileSheetOpensNothing : ∃ views,
    [hostileSheet].mapM (Sheet.view .empty) = .ok views ∧
      (page .count views).toList.count '<' = 54 := by
  have swept := hostileSheet.profile.boundariesSwept hostileSheet.src
  have succeeds : ([hostileSheet].mapM (Sheet.view .empty)).toOption.isSome = true := by
    simp only [Sheet.view, View.ofProfile, List.mapM_cons, List.mapM_nil, swept]
    decide +kernel
  have boundaries : ([hostileSheet].flatMap Sheet.boundaries).length = 2 := by
    simp only [Sheet.boundaries, List.flatMap_cons, List.flatMap_nil, swept]
    decide +kernel
  obtain ⟨views, shown⟩ := toOptionIsSome.mp succeeds
  refine ⟨views, shown, ?_⟩
  rw [(onlyBoundariesAddTags shown .count).2, boundaries]
  rfl

end Uncalled
