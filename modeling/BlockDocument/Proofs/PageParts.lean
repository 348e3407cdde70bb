import BlockDocument.Proofs.Entries
import BlockDocument.Proofs.PageLines

/-!
# The parts of a page

A page can be taken apart again at its markers. What stands between them is what was put there, and
a text that is put there is written once: it is read back by undoing its entities once. Titles,
author and date are those of the first properties of the document, where they are not blank
(`Document.Shows`).
-/

namespace BlockDocument

open Text (AllBlank)

/-! ## What the properties show -/

/-- What a property is shown as. Nulls, arrays and objects are not shown. -/
inductive Scalar.IsShownAs : Scalar → Text → Prop
  | text (t : Text) : IsShownAs (.text t) t
  | yes : IsShownAs (.bool true) "true".toList
  | no : IsShownAs (.bool false) "false".toList
  | number (x : Binary64) : IsShownAs (.number x) x.positional

/-- Whether a block holds properties of the document. -/
def Block.isMeta : Block → Bool
  | properties _ => true
  | _ => false

namespace Document

/-- That a document shows a text for a property: the first of its blocks that hold properties has
that property, which is shown as the text, and the text is not blank. -/
def Shows (document : Document) (key shown : Text) : Prop :=
  ∃ before first after value, document.blocks = before ++ .properties first :: after
    ∧ before.all (!·.isMeta) = true ∧ (key, value) ∈ first.props.entries
    ∧ value.IsShownAs shown ∧ ¬ AllBlank shown

/-- That a text is what a document shows for a property or, if it shows none, the given one. -/
def ShowsOr (document : Document) (key default shown : Text) : Prop :=
  document.Shows key shown ∨ (∀ other, ¬ document.Shows key other) ∧ shown = default

/-- That a line which may be missing says what a document shows for a property, behind some words,
and is missing if it shows none. -/
def SaysIn (document : Document) (key words : Text) : Option Text → Prop
  | none => ∀ shown, ¬ document.Shows key shown
  | some line => ∃ text shown, line = words ++ text ∧ Html.decode? text = some shown
      ∧ document.Shows key shown

end Document

theorem Scalar.isShownAs_iff {value : Scalar} {shown : Text} (h : shown ≠ []) :
    value.IsShownAs shown ↔ value.display = shown := by
  constructor
  · rintro (_ | _ | _ | _) <;> rfl
  · rintro rfl
    cases value with
    | bool b => cases b <;> constructor
    | number | text => constructor
    | null | other => exact absurd rfl h

theorem Meta.text?_eq_some_iff {m : Meta} {key shown : Text} :
    m.text? key = some shown ↔ ∃ value, (key, value) ∈ m.props.entries
      ∧ value.IsShownAs shown ∧ ¬ AllBlank shown := by
  have htrim : (!shown.trim.isEmpty) = true ↔ ¬ AllBlank shown := by
    rw [Bool.not_eq_true', List.isEmpty_eq_false_iff, ne_eq, Text.trim_eq_nil_iff]
  have hne : ¬ AllBlank shown → shown ≠ [] := by
    rintro hblank rfl
    exact hblank fun _ hc => absurd hc List.not_mem_nil
  rw [text?, Option.filter_eq_some_iff, htrim, Option.map_eq_some_iff]
  simp only [Dictionary.get?_eq_some_iff]
  constructor
  · rintro ⟨⟨value, hm, hd⟩, hblank⟩
    exact ⟨value, hm, (Scalar.isShownAs_iff (hne hblank)).2 hd, hblank⟩
  · rintro ⟨value, hm, hd, hblank⟩
    exact ⟨⟨value, hm, (Scalar.isShownAs_iff (hne hblank)).1 hd⟩, hblank⟩

namespace Document

variable {document : Document} {key : Text}

theorem properties?_eq_some_iff {first : Meta} : document.properties? = some first ↔
    ∃ before after, document.blocks = before ++ .properties first :: after
      ∧ before.all (!·.isMeta) = true := by
  have hsome : ∀ block : Block, block.properties? = some first ↔ block = .properties first := by
    intro block
    cases block <;> simp [Block.properties?]
  have hnone : ∀ block : Block, block.properties? = none ↔ (!block.isMeta) = true := by
    intro block
    cases block <;> simp [Block.properties?, Block.isMeta]
  rw [properties?, List.findSome?_eq_some_iff]
  simp only [hsome, hnone, ← List.all_eq_true]
  constructor
  · rintro ⟨before, _, after, hblocks, rfl, hbefore⟩
    exact ⟨before, after, hblocks, hbefore⟩
  · rintro ⟨before, after, hblocks, hbefore⟩
    exact ⟨before, _, after, hblocks, rfl, hbefore⟩

theorem shows_iff {shown : Text} :
    document.Shows key shown ↔ document.properties?.bind (·.text? key) = some shown := by
  simp only [Option.bind_eq_some_iff, properties?_eq_some_iff, Meta.text?_eq_some_iff]
  constructor
  · rintro ⟨before, first, after, value, hblocks, hbefore, hvalue⟩
    exact ⟨first, ⟨before, after, hblocks, hbefore⟩, value, hvalue⟩
  · rintro ⟨first, ⟨before, after, hblocks, hbefore⟩, value, hvalue⟩
    exact ⟨before, first, after, value, hblocks, hbefore, hvalue⟩

theorem showsOr_getD (document : Document) (key default : Text) :
    document.ShowsOr key default ((document.properties?.bind (·.text? key)).getD default) := by
  rcases h : document.properties?.bind (·.text? key) with _ | shown
  · refine .inr ⟨fun other hs => ?_, rfl⟩
    rw [shows_iff, h] at hs
    cases hs
  · exact .inl (shows_iff.2 h)

theorem saysIn_escape (document : Document) (key : Text) {words : Text}
    (hwords : Html.escape words = words) :
    document.SaysIn key words
      (((document.properties?.bind (·.text? key)).map (words ++ ·)).map Html.escape) := by
  rcases h : document.properties?.bind (·.text? key) with _ | shown
  · intro shown hs
    rw [shows_iff, h] at hs
    cases hs
  · refine ⟨Html.escape shown, shown, ?_, Html.decode?_escape shown, shows_iff.2 h⟩
    rw [Html.escape_append, hwords]

end Document

namespace Html

open Text (IsMarker Clear between?)

/-! ## Parts of a page -/

variable {marker : Text} (document : Document) (theme : Theme) (policy : Option Policy)
  (content : List Markup)

theorem between?_content : between? mainStart mainStop (assemble document theme policy content)
    = some ('\n' :: Markup.writeAll content ++ ['\n']) := by
  have hline : mainStart ∈ lineMarkers := by simp [lineMarkers]
  have hstart : mainStart ∈ pageMarkers := by simp [pageMarkers, tagMarkers, hline]
  have hstop : mainStop ∈ pageMarkers := by simp [pageMarkers, tagMarkers, lineMarkers]
  have hhead := clear_headLines (List.mem_append_right _ hline) (pageTitle document) theme policy
  have hheader := clear_headerLines hstart (headerTitle document) document.properties?
  have htags := clear_markers.2.2.1
  simp only [List.forall_mem_cons] at htags
  have hbefore : ∀ line ∈ headLines (pageTitle document) theme policy ++ headerStart ::
      (headerLines (headerTitle document) document.properties? ++ [headerStop]),
        Clear mainStart line := by
    simp only [List.forall_mem_append, List.forall_mem_cons]
    exact ⟨hhead, htags.1, hheader, htags.2.1, List.forall_mem_nil _⟩
  have hcontent : ∀ line ∈ [Markup.writeAll content], Clear mainStop line := by
    simpa only [List.forall_mem_singleton] using clear_writeAll hstop content
  have hlines : pageLines document theme policy content
      = (headLines (pageTitle document) theme policy ++ headerStart ::
          (headerLines (headerTitle document) document.properties? ++ [headerStop]))
        ++ mainStart :: ([Markup.writeAll content] ++ mainStop :: endLines policy) := by
    simp only [pageLines, List.append_assoc, List.cons_append, List.nil_append]
  have hunlines : Text.unlines [Markup.writeAll content] = Markup.writeAll content ++ ['\n'] := by
    rw [Text.unlines_cons, Text.unlines_nil]
  have hend : endLines policy ≠ [] := List.cons_ne_nil _ _
  rw [assemble_eq, hlines, Text.between?_lines (isMarker_of_mem hstart) (isMarker_of_mem hstop)
    hbefore hcontent hend, hunlines]
  rfl

theorem between?_title : between? titleStart titleStop (assemble document theme policy content)
    = some (escape (pageTitle document)) := by
  have htag : titleStart ∈ tagMarkers := List.mem_cons_self
  have hstart : titleStart ∈ pageMarkers := List.mem_cons_of_mem _ htag
  have hmarker := isMarker_of_mem hstart
  have hstop : IsMarker titleStop :=
    isMarker_of_mem (by simp [pageMarkers, tagMarkers, titleMarkers])
  obtain ⟨htop, hview, -, -⟩ := clear_fixedLines hstart
  have hpolicy := clear_policyLine_of_mem htag policy
  have hbefore : ∀ line ∈ topLines ++ policyLine policy :: viewLines, Clear titleStart line := by
    simpa only [List.forall_mem_append, List.forall_mem_cons] using ⟨htop, hpolicy, hview⟩
  have hblank : Clear titleStart "  ".toList := hmarker.clear_of_not_mem (by decide)
  obtain ⟨rest, hrest, hlines⟩ : ∃ rest ≠ [], pageLines document theme policy content
      = (topLines ++ policyLine policy :: viewLines) ++ titleLine (pageTitle document) :: rest := by
    refine ⟨styleLines theme ++ headerStart ::
      (headerLines (headerTitle document) document.properties? ++ headerStop :: mainStart ::
        ([Markup.writeAll content] ++ mainStop :: endLines policy)), by simp, ?_⟩
    simp only [pageLines, headLines, List.append_assoc, List.cons_append]
  have h := Text.between?_append hmarker hstop
    ((Clear.unlines hmarker hbefore).append hmarker hblank)
    (clear_escape hstop (pageTitle document))
    ('\n' :: Text.join ['\n'] rest)
  rw [assemble_eq, hlines, Text.join_append hrest]
  simpa only [titleLine, List.append_assoc] using h

theorem between?_header : between? headerStart headerStop (assemble document theme policy content)
    = some ('\n' :: Text.unlines (headerLines (headerTitle document) document.properties?)) := by
  have hline : headerStart ∈ lineMarkers := List.mem_cons_self
  have hstart : headerStart ∈ pageMarkers := by simp [pageMarkers, tagMarkers, hline]
  have hstop : headerStop ∈ pageMarkers := by simp [pageMarkers, tagMarkers, lineMarkers]
  have hhead := clear_headLines (List.mem_append_right _ hline) (pageTitle document) theme policy
  have hheader := clear_headerLines hstop (headerTitle document) document.properties?
  have hend : mainStart :: ([Markup.writeAll content] ++ mainStop :: endLines policy) ≠ [] :=
    List.cons_ne_nil _ _
  rw [assemble_eq, pageLines, Text.between?_lines (isMarker_of_mem hstart) (isMarker_of_mem hstop)
    hhead hheader hend]

/-! ### The header -/

section optional

variable {tag : Tag} {attributes : List Attribute} {start stop : Text}
  (hopening : (Markup.opening tag attributes).write = start)
  (hclosing : (Markup.closing tag).write = stop)
include hopening hclosing

/-- An element that may be missing can be told from what is around it. -/
theorem between?_optionalElement {before after : Text} (hstart : IsMarker start)
    (hstop : IsMarker stop) (hb : Clear start before) (ha : Clear start after) (t : Option Text) :
    between? start stop (before ++ (Markup.writeAll (optionalElement tag attributes t) ++ after))
      = t.map escape := by
  cases t with
  | none => exact Text.between?_eq_none hstart (hb.append hstart ha).absent _
  | some t =>
    rw [optionalElement, writeAll_textElement, hopening, hclosing, List.append_assoc,
      List.append_assoc]
    exact Text.between?_append hstart hstop hb (clear_escape hstop t) after

theorem clear_optionalElement (h : IsMarker marker) (hstart : Clear marker start)
    (hstop : Clear marker stop) (t : Option Text) :
    Clear marker (Markup.writeAll (optionalElement tag attributes t)) := by
  cases t with
  | none => exact ⟨rfl, rfl⟩
  | some t =>
    rw [optionalElement, writeAll_textElement, hopening, hclosing]
    exact hstart.append h ((clear_escape h t).append h hstop)

end optional

def headingStart : Text := "<h1>".toList

def headingStop : Text := "</h1>".toList

def authorStart : Text := "<p class=\"osf-author\">".toList

def dateStart : Text := "<p class=\"osf-date\">".toList

/-- The start of the line that names the place of a failure. -/
def locationStart : Text := "<p class=\"osf-error-location\">".toList

/-- The end of the lines of an author, a date and a place. -/
def bylineStop : Text := "</p>".toList

def messageStart : Text := "<pre class=\"osf-error\">".toList

def messageStop : Text := "</pre>".toList

theorem write_tags : (Markup.opening .h1 []).write = headingStart
    ∧ (Markup.closing .h1).write = headingStop
    ∧ (Markup.opening .p [.className "osf-author".toList]).write = authorStart
    ∧ (Markup.opening .p [.className "osf-date".toList]).write = dateStart
    ∧ (Markup.opening .p [.className "osf-error-location".toList]).write = locationStart
    ∧ (Markup.closing .p).write = bylineStop
    ∧ (Markup.opening .pre [.className "osf-error".toList]).write = messageStart
    ∧ (Markup.closing .pre).write = messageStop := by
  decide

/-- The title in the header with the blanks around it. -/
def headingText (title : Text) : Text :=
  '\n' :: "  ".toList ++ (headingStart ++ (escape title ++ (headingStop ++ '\n' :: "  ".toList)))

/-- What stands in the header behind the lines of the author and the date. -/
def buttonText : Text := '\n' :: (buttonLine ++ ['\n'])

theorem unlines_headerLines (title : Text) (properties : Option Meta) :
    '\n' :: Text.unlines (headerLines title properties)
      = headingText title ++ (Markup.writeAll (optionalElement .p [.className "osf-author".toList]
          ((properties.bind Meta.author?).map ("By ".toList ++ ·)))
        ++ (Markup.writeAll (optionalElement .p [.className "osf-date".toList]
          (properties.bind Meta.date?)) ++ buttonText)) := by
  obtain ⟨hstart, hstop, -⟩ := write_tags
  rw [headerLines, Text.unlines_cons, Text.unlines_cons, Text.unlines_cons, Text.unlines_nil,
    bylines, Markup.writeAll_append, writeAll_textElement, hstart, hstop, headingText, buttonText]
  simp only [List.append_assoc, List.cons_append]

def bylineMarkers : List Text := [authorStart, dateStart]

theorem isMarker_headerTags :
    ∀ m ∈ bylineMarkers ++ [headingStart, headingStop, bylineStop], IsMarker m := by
  delta bylineMarkers headingStart headingStop authorStart dateStart bylineStop
  repeat rw [String.toList_ofList]
  decide

theorem clear_headerTags :
    (∀ m ∈ bylineMarkers, ∀ t ∈ [headingStart, headingStop, bylineStop, buttonText], Clear m t)
      ∧ Clear authorStart dateStart ∧ Clear dateStart authorStart := by
  delta bylineMarkers headingStart headingStop authorStart dateStart bylineStop buttonText
    buttonLine
  repeat rw [String.toList_ofList]
  decide

theorem clear_headingText (h : marker ∈ bylineMarkers) (title : Text) :
    Clear marker (headingText title) := by
  have hmarker := isMarker_headerTags marker (List.mem_append_left _ h)
  have hblank : Clear marker ('\n' :: "  ".toList) := hmarker.clear_of_not_mem (by decide)
  have htags := clear_headerTags.1 marker h
  simp only [List.forall_mem_cons] at htags
  exact hblank.append hmarker (htags.1.append hmarker
    ((clear_escape hmarker title).append hmarker (htags.2.1.append hmarker hblank)))

theorem between?_heading (title rest : Text) :
    between? headingStart headingStop (headingText title ++ rest) = some (escape title) := by
  have hstart : IsMarker headingStart := isMarker_headerTags _ (by simp)
  have hstop : IsMarker headingStop := isMarker_headerTags _ (by simp)
  have hblank : Clear headingStart ('\n' :: "  ".toList) := hstart.clear_of_not_mem (by decide)
  have h := Text.between?_append hstart hstop hblank (clear_escape hstop title)
    ('\n' :: "  ".toList ++ rest)
  simpa only [headingText, List.append_assoc] using h

theorem between?_author (title : Text) (properties : Option Meta) :
    between? authorStart bylineStop ('\n' :: Text.unlines (headerLines title properties))
      = ((properties.bind Meta.author?).map ("By ".toList ++ ·)).map escape := by
  obtain ⟨-, -, hauthor, hdate, -, hstop, -⟩ := write_tags
  have h : authorStart ∈ bylineMarkers := List.mem_cons_self
  have hmarker := isMarker_headerTags _ (List.mem_append_left _ h)
  obtain ⟨htags, hcross, -⟩ := clear_headerTags
  replace htags := htags authorStart h
  simp only [List.forall_mem_cons] at htags
  have hafter := (clear_optionalElement hdate hstop hmarker hcross htags.2.2.1
    (properties.bind Meta.date?)).append hmarker htags.2.2.2.1
  rw [unlines_headerLines]
  exact between?_optionalElement hauthor hstop hmarker (isMarker_headerTags bylineStop (by simp))
    (clear_headingText h title) hafter _

theorem between?_date (title : Text) (properties : Option Meta) :
    between? dateStart bylineStop ('\n' :: Text.unlines (headerLines title properties))
      = (properties.bind Meta.date?).map escape := by
  obtain ⟨-, -, hauthor, hdate, -, hstop, -⟩ := write_tags
  have h : dateStart ∈ bylineMarkers := List.mem_cons_of_mem _ List.mem_cons_self
  have hmarker := isMarker_headerTags _ (List.mem_append_left _ h)
  obtain ⟨htags, -, hcross⟩ := clear_headerTags
  replace htags := htags dateStart h
  simp only [List.forall_mem_cons] at htags
  have hbefore := (clear_headingText h title).append hmarker
    (clear_optionalElement hauthor hstop hmarker hcross htags.2.2.1
      ((properties.bind Meta.author?).map ("By ".toList ++ ·)))
  rw [unlines_headerLines, ← List.append_assoc]
  exact between?_optionalElement hdate hstop hmarker (isMarker_headerTags bylineStop (by simp))
    hbefore htags.2.2.2.1 _

/-! ## The page of a failure -/

/-- The lines of the page of a failure between the policy and the message, but for the one that
names the place. -/
def failureLines : List Text :=
  ["  <meta name=\"viewport\" content=\"width=device-width, initial-scale=1.0\">".toList,
    "  <title>OSF Preview Error</title>".toList, "  <style>".toList, joinLines failureStyles,
    "  </style>".toList, "</head>".toList, "<body>".toList, "<h1>Preview unavailable</h1>".toList,
    "<p>The document could not be parsed.</p>".toList]

def locationLine (message : Text) : Text :=
  Markup.writeAll (optionalElement .p [.className "osf-error-location".toList]
    ((lineReference? message).map fun line => "Line ".toList ++ Text.ofNat line))

def messageLine (message : Text) : Text :=
  Markup.writeAll (textElement .pre [.className "osf-error".toList] message)

theorem failurePage_eq (message : Text) (policy : Option Policy) : failurePage message policy
    = Text.join ['\n'] ((topLines ++ policyLine policy :: (failureLines ++ [locationLine message]))
      ++ messageLine message :: footLines) := rfl

set_option maxRecDepth 10000 in
theorem clear_failureLines (h : marker ∈ [scriptStart, policyStart, messageStart]) :
    (∀ line ∈ topLines, Clear marker line) ∧ (∀ line ∈ failureLines, Clear marker line)
      ∧ ∀ line ∈ footLines, Clear marker line := by
  have hall : ∀ m ∈ [scriptStart, policyStart, messageStart],
      ∀ line ∈ topLines ++ (failureLines ++ footLines), Clear m line := by
    delta scriptStart policyStart messageStart topLines failureLines footLines failureStyles
    simp only [List.map_cons, List.map_nil]
    repeat rw [String.toList_ofList]
    decide
  simpa only [List.forall_mem_append] using hall marker h

theorem isMarker_messageTags : IsMarker messageStart ∧ IsMarker messageStop
    ∧ messageStart.clashes "<meta".toList = true
    ∧ Clear messageStart locationStart ∧ Clear messageStart bylineStop := by
  delta messageStart messageStop locationStart bylineStop
  repeat rw [String.toList_ofList]
  decide

/-- The page of a failure has no script, and no policy but the given one. -/
theorem occurrences_failurePage (h : marker ∈ [scriptStart, policyStart]) (message : Text)
    (policy : Option Policy) :
    marker.occurrences (failurePage message policy) = marker.occurrences (policyLine policy) := by
  have hscript : scriptStart ∈ tagMarkers := by simp [tagMarkers, scriptMarkers]
  have hmem : marker ∈ pageMarkers := by
    simp only [List.mem_cons, List.not_mem_nil, or_false] at h
    rcases h with rfl | rfl
    · exact List.mem_cons_of_mem _ hscript
    · exact List.mem_cons_self
  have hmarker := isMarker_of_mem hmem
  have hclosed : (policyLine policy).isClosed = true :=
    (clear_policyLine_of_mem hscript policy).closed
  obtain ⟨htop, hfailure, hfoot⟩ := clear_failureLines (List.mem_append_left [messageStart] h)
  have hafter : ∀ line ∈ failureLines ++ [locationLine message] ++ messageLine message :: footLines,
      Clear marker line := by
    simp only [List.forall_mem_append, List.forall_mem_cons]
    exact ⟨⟨hfailure, clear_writeAll hmem _, List.forall_mem_nil _⟩, clear_writeAll hmem _, hfoot⟩
  rw [failurePage_eq, List.append_assoc, List.cons_append]
  exact hmarker.occurrences_join_of_clear htop hclosed hafter

theorem between?_message (message : Text) (policy : Option Policy) :
    between? messageStart messageStop (failurePage message policy) = some (escape message) := by
  obtain ⟨hmarker, hstop, hmeta, hstart, hend⟩ := isMarker_messageTags
  obtain ⟨-, -, -, -, hplace, hplace', hopening, hclosing⟩ := write_tags
  have hmem : messageStart ∈ [scriptStart, policyStart, messageStart] := by simp
  obtain ⟨htop, hfailure, -⟩ := clear_failureLines hmem
  have hpolicy := clear_policyLine hmarker hmeta policy
  have hlocation : Clear messageStart (locationLine message) :=
    clear_optionalElement hplace hplace' hmarker hstart hend _
  have hbefore : ∀ line ∈ topLines ++ policyLine policy :: (failureLines ++ [locationLine message]),
      Clear messageStart line := by
    simp only [List.forall_mem_append, List.forall_mem_cons]
    exact ⟨htop, hpolicy, hfailure, hlocation, List.forall_mem_nil _⟩
  have hfoot : footLines ≠ [] := List.cons_ne_nil _ _
  have h := Text.between?_append hmarker hstop (Clear.unlines hmarker hbefore)
    (clear_escape hstop message) ('\n' :: Text.join ['\n'] footLines)
  rw [failurePage_eq, Text.join_append hfoot, messageLine, writeAll_textElement, hopening, hclosing]
  simpa only [List.append_assoc] using h

/-! ## Taking pages apart -/

/-- That a page can be taken apart into what a document says: its content, of which the properties
are no part, its title, which stands in two places, and its author and its date if it has one. -/
structure PageParts (limits : SheetLimits) (document : Document) (page : Text) : Prop where
  once : ∀ m ∈ [mainStart, mainStop, scriptStart, scriptStop], m.occurrences page = 1
  content : between? mainStart mainStop page = some ('\n' :: Markup.writeAll
    (blocksRendering limits (document.blocks.filter (!·.isMeta))).markup ++ ['\n'])
  title : ∃ shown, (between? titleStart titleStop page).bind decode? = some shown
    ∧ document.ShowsOr "title".toList "OSF Preview".toList shown
  header : ∃ header, between? headerStart headerStop page = some header
    ∧ (∃ shown, (between? headingStart headingStop header).bind decode? = some shown
      ∧ document.ShowsOr "title".toList "Untitled Document".toList shown)
    ∧ document.SaysIn "author".toList "By ".toList (between? authorStart bylineStop header)
    ∧ document.SaysIn "date".toList [] (between? dateStart bylineStop header)

/-- That the page of a failure can be taken apart. -/
structure FailureParts (message page : Text) : Prop where
  script : scriptStart.occurrences page = 0
  message : (between? messageStart messageStop page).bind decode? = some message

theorem blocksRendering_filter (limits : SheetLimits) : ∀ blocks : List Block,
    blocksRendering limits (blocks.filter (!·.isMeta)) = blocksRendering limits blocks
  | [] => rfl
  | block :: blocks => by
    have ih := blocksRendering_filter limits blocks
    cases block with
    | properties => exact ih
    | doc | slide | sheet | table | chart | diagram | code | unknown => exact congrArg (_ ++ ·) ih

theorem pageParts_renderPage (options : PageOptions) (document : Document) :
    PageParts options.limits document (renderPage options document).html where
  once _ hm := occurrences_assemble_eq_one _ _ _ _ hm
  content := by
    rw [blocksRendering_filter]
    exact between?_content _ _ _ _
  title := by
    refine ⟨pageTitle document, ?_, document.showsOr_getD _ _⟩
    rw [renderPage, between?_title]
    exact decode?_escape _
  header := by
    refine ⟨_, between?_header _ _ _ _, ⟨headerTitle document, ?_, document.showsOr_getD _ _⟩,
      ?_, ?_⟩
    · rw [unlines_headerLines, between?_heading]
      exact decode?_escape _
    · rw [between?_author]
      exact document.saysIn_escape _ rfl
    · have hdate := document.saysIn_escape "date".toList escape_nil
      simp only [List.nil_append, Option.map_id'] at hdate
      rw [between?_date]
      exact hdate

/-- Whatever a document and a host say, the page of the document and that of a failure can be taken
apart into it. -/
theorem pages_taken_apart :
    (∀ (options : PageOptions) (document : Document),
      PageParts options.limits document (renderPage options document).html)
    ∧ ∀ (message : Text) (policy : Option Policy),
      FailureParts message (failurePage message policy) := by
  refine ⟨pageParts_renderPage, fun message policy => ⟨?_, ?_⟩⟩
  · have hscript : scriptStart ∈ tagMarkers := by simp [tagMarkers, scriptMarkers]
    rw [occurrences_failurePage List.mem_cons_self]
    exact (clear_policyLine_of_mem hscript policy).absent
  · rw [between?_message]
    exact decode?_escape message

end Html

end BlockDocument
