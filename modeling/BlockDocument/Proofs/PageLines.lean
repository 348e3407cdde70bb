import BlockDocument.Html.Page
import BlockDocument.Proofs.Lexeme
import BlockDocument.Proofs.Markers

/-!
# The lines of a page

The template of a page holds a few markers, and what a document says cannot add one: it is written
without a `<`, or as content, whose tags are others. So a page holds each marker as often as its
template does.
-/

namespace BlockDocument.Html

open BlockDocument (Text)
open Text (IsMarker Clear)

/-! ## Markers of a page -/

def mainStart : Text := "<main class=\"osf-content\">".toList

def mainStop : Text := "</main>".toList

def headerStart : Text := "<header class=\"osf-header\">".toList

def headerStop : Text := "</header>".toList

def titleStart : Text := "<title>".toList

def titleStop : Text := "</title>".toList

def scriptStart : Text := "<script".toList

def scriptStop : Text := "</script>".toList

/-- The start of a script with a nonce, up to the nonce. -/
def nonceStart : Text := "<script nonce=\"".toList

/-- The start of the tag that carries the policy, up to the policy. -/
def policyStart : Text := "<meta http-equiv=\"Content-Security-Policy\" content=\"".toList

def titleMarkers : List Text := [titleStart, titleStop]

def scriptMarkers : List Text := [scriptStart, nonceStart]

/-- The markers that are lines of their own. -/
def lineMarkers : List Text := [headerStart, headerStop, mainStart, mainStop, scriptStop]

/-- The markers that are whole tags. -/
def wholeMarkers : List Text := titleMarkers ++ lineMarkers

/-- All markers but that of the policy. -/
def tagMarkers : List Text := titleMarkers ++ (scriptMarkers ++ lineMarkers)

/-- The markers at which pages are taken apart. -/
def pageMarkers : List Text := policyStart :: tagMarkers

variable {marker : Text}

theorem isMarker_of_mem (h : marker ∈ pageMarkers) : IsMarker marker := by
  have hall : ∀ m ∈ pageMarkers, IsMarker m := by
    -- Literals are spelled out before anything is decided: to read their characters takes long.
    delta pageMarkers tagMarkers titleMarkers scriptMarkers lineMarkers mainStart mainStop
      headerStart headerStop titleStart titleStop scriptStart scriptStop nonceStart policyStart
    repeat rw [String.toList_ofList]
    decide
  exact hall marker h

/-! ## What holds no marker -/

theorem not_mem_writeAttribute {name : Text} (h : '<' ∉ name) (value : Text) :
    '<' ∉ writeAttribute name value := by
  have he : '<' ∉ escape value := Lexeme.not_mem_escape (by decide) value
  simp [writeAttribute, h, he]

theorem not_mem_attributeName : ∀ a : Attribute, '<' ∉ a.name
  | .className _ => show '<' ∉ "class".toList by decide
  | .colspan _ => show '<' ∉ "colspan".toList by decide
  | .href _ => show '<' ∉ "href".toList by decide
  | .rel _ => show '<' ∉ "rel".toList by decide
  | .style _ => show '<' ∉ "style".toList by decide
  | .target _ => show '<' ∉ "target".toList by decide

theorem not_mem_attributes (attributes : List Attribute) :
    '<' ∉ attributes.flatMap fun a => writeAttribute a.name a.value := by
  rw [List.mem_flatMap]
  rintro ⟨a, -, ha⟩
  exact not_mem_writeAttribute (not_mem_attributeName a) a.value ha

/-- All elements of content. -/
def allTags : List Tag :=
  [.a, .blockquote, .caption, .code, .div, .em, .figcaption, .figure, .h1, .h2, .h3, .li, .ol, .p,
    .pre, .section, .span, .strong, .table, .tbody, .td, .tfoot, .th, .thead, .tr, .ul]

theorem mem_allTags (tag : Tag) : tag ∈ allTags := by
  cases tag <;> decide

/-- The names of the tags that may have attributes of a document. -/
def tagNames : List Text := allTags.map Tag.name ++ ["img".toList, "body".toList]

theorem mem_tagNames (tag : Tag) : tag.name ∈ tagNames :=
  List.mem_append_left _ (List.mem_map_of_mem (mem_allTags tag))

/-- No marker begins like a tag of content, only its own like the tag of the policy, and only those
of scripts like the script. -/
theorem clashes_pageMarkers :
    (∀ tag ∈ tagNames, '<' ∉ tag ∧ ∀ m ∈ pageMarkers,
      m.clashes ('<' :: tag) = true ∧ m.clashes ('<' :: '/' :: tag) = true)
    ∧ (∀ m ∈ tagMarkers, m.clashes "<meta".toList = true)
    ∧ ∀ m ∈ policyStart :: wholeMarkers, m.clashes "<script".toList = true := by
  delta pageMarkers tagMarkers wholeMarkers titleMarkers scriptMarkers lineMarkers mainStart
    mainStop headerStart headerStop titleStart titleStop scriptStart scriptStop nonceStart
    policyStart
  repeat rw [String.toList_ofList]
  decide

theorem clear_tag (h : marker ∈ pageMarkers) {tag inside : Text} (ht : tag ∈ tagNames)
    (hi : '<' ∉ inside) :
    Clear marker ('<' :: tag ++ inside ++ ">".toList)
      ∧ Clear marker ('<' :: '/' :: tag ++ inside ++ ">".toList) := by
  obtain ⟨hname, hclash⟩ := clashes_pageMarkers.1 tag ht
  have hslash : '<' ∉ '/' :: tag := by simpa using hname
  have hmarker := isMarker_of_mem h
  exact ⟨hmarker.clear_tag tag (hclash marker h).1 hname hi,
    hmarker.clear_tag _ (hclash marker h).2 hslash hi⟩

theorem clear_escape (h : IsMarker marker) (t : Text) : Clear marker (escape t) :=
  h.clear_of_not_mem (Lexeme.not_mem_escape (by decide) t)

theorem clear_write (h : marker ∈ pageMarkers) (m : Markup) : Clear marker m.write := by
  have hmarker := isMarker_of_mem h
  cases m with
  | text content => exact clear_escape hmarker content
  | opening tag attributes =>
    exact (clear_tag h (mem_tagNames tag) (not_mem_attributes attributes)).1
  | closing tag =>
    have hclear := (clear_tag h (mem_tagNames tag) List.not_mem_nil).2
    rwa [List.append_nil] at hclear
  | image source alternative =>
    have hs : '<' ∉ writeAttribute "src".toList source := not_mem_writeAttribute (by decide) source
    have ha : '<' ∉ writeAttribute "alt".toList alternative :=
      not_mem_writeAttribute (by decide) alternative
    have hinside : '<' ∉ writeAttribute "src".toList source
        ++ writeAttribute "alt".toList alternative ++ " /".toList := by
      simpa only [List.mem_append, not_or] using ⟨⟨hs, ha⟩, by decide⟩
    have hwrite : (Markup.image source alternative).write = '<' :: "img".toList
        ++ (writeAttribute "src".toList source ++ writeAttribute "alt".toList alternative
          ++ " /".toList) ++ ">".toList := by
      show "<img".toList ++ writeAttribute "src".toList source
        ++ writeAttribute "alt".toList alternative ++ " />".toList = _
      simp only [List.append_assoc]
      rfl
    rw [hwrite]
    exact (clear_tag h (List.mem_append_right _ List.mem_cons_self) hinside).1

/-- Whatever content says, it holds no marker. -/
theorem clear_writeAll (h : marker ∈ pageMarkers) : ∀ ms : List Markup,
    Clear marker (Markup.writeAll ms)
  | [] => ⟨rfl, rfl⟩
  | m :: ms => (clear_write h m).append (isMarker_of_mem h) (clear_writeAll h ms)

/-- The bytes of a literal are at hand, while its characters are decoded from them. -/
theorem mem_bytes_of_mem {s : String} (h : '<' ∈ s.toList) : 60 ∈ s.toByteArray.data.toList := by
  rw [← String.utf8Encode_toList, List.utf8Encode]
  simp only [List.data_toByteArray, List.mem_flatMap]
  exact ⟨'<', h, by decide⟩

set_option maxRecDepth 10000 in
theorem not_mem_stylesheet (theme : Theme) : '<' ∉ theme.stylesheet := by
  have hbytes : ∀ line ∈ baselineLines, 60 ∉ line.toByteArray.data.toList := by decide
  have hbaseline : '<' ∉ baselineStylesheet := by
    simp only [baselineStylesheet, List.mem_flatten, List.mem_map]
    rintro ⟨_, ⟨line, hl, rfl⟩, hc⟩
    rcases List.mem_append.1 hc with hc | hc
    · exact hbytes line hl (mem_bytes_of_mem hc)
    · exact absurd hc (by decide)
  have hmem : theme ∈ Theme.all := by cases theme <;> decide
  have hrule : ∀ theme ∈ Theme.all, '<' ∉ "\n.".toList ++ theme.bodyClass
      ++ " \x7b\n  --osf-accent: ".toList ++ theme.accent ++ ";\n  --osf-font: ".toList
      ++ theme.font.families ++ ";\n\x7d\n".toList := by
    decide
  simpa only [Theme.stylesheet, List.mem_append, not_or, and_assoc, hbaseline, not_false_eq_true,
    true_and] using hrule theme hmem

/-! ## The lines of a page -/

/-- The lines of every page in front of the policy. -/
def topLines : List Text :=
  ["<!DOCTYPE html>", "<html lang=\"en\">", "<head>", "  <meta charset=\"UTF-8\">"].map
    String.toList

def policyLine (policy : Option Policy) : Text := "  ".toList ++ policyTag policy

def viewLines : List Text :=
  ["  <meta name=\"viewport\" content=\"width=device-width, initial-scale=1.0\">",
    "  <meta name=\"generator\" content=\"osf-render\">"].map String.toList

def titleLine (title : Text) : Text := "  ".toList ++ (titleStart ++ (escape title ++ titleStop))

def bodyLine (theme : Theme) : Text :=
  "<body".toList ++ writeAttribute "class".toList theme.bodyClass ++ ">".toList

def styleLines (theme : Theme) : List Text :=
  ["  <style>".toList, theme.stylesheet, "  </style>".toList, "</head>".toList, bodyLine theme]

/-- The lines of a page in front of its header. -/
def headLines (title : Text) (theme : Theme) (policy : Option Policy) : List Text :=
  topLines ++ policyLine policy :: (viewLines ++ titleLine title :: styleLines theme)

def buttonLine : Text :=
  "  <button id=\"osf-refresh\" class=\"osf-refresh\" type=\"button\">Refresh</button>".toList

def headerLines (title : Text) (properties : Option Meta) : List Text :=
  ["  ".toList ++ Markup.writeAll (textElement .h1 [] title),
    "  ".toList ++ Markup.writeAll (bylines properties), buttonLine]

def scriptLine (policy : Option Policy) : Text :=
  "<script".toList ++ (policy.map Policy.nonceAttribute).getD [] ++ ">".toList

def footLines : List Text := ["</body>".toList, "</html>".toList]

/-- The lines of a page behind its content, script included. -/
def endLines (policy : Option Policy) : List Text :=
  scriptLine policy :: joinLines refreshScript :: scriptStop :: footLines

/-- The title of a page. -/
def pageTitle (document : Document) : Text :=
  (document.properties?.bind Meta.title?).getD "OSF Preview".toList

/-- The title in the header of a page. -/
def headerTitle (document : Document) : Text :=
  (document.properties?.bind Meta.title?).getD "Untitled Document".toList

def pageLines (document : Document) (theme : Theme) (policy : Option Policy)
    (content : List Markup) : List Text :=
  headLines (pageTitle document) theme policy ++ headerStart ::
    (headerLines (headerTitle document) document.properties? ++ headerStop :: mainStart ::
      ([Markup.writeAll content] ++ mainStop :: endLines policy))

theorem assemble_eq (document : Document) (theme : Theme) (policy : Option Policy)
    (content : List Markup) : assemble document theme policy content
      = Text.join ['\n'] (pageLines document theme policy content) := rfl

/-! ### Lines without markers -/

/-- What else is the same for every document and is no marker. -/
def plainLines : List Text :=
  ["  <style>".toList, "  </style>".toList, "</head>".toList, buttonLine, joinLines refreshScript]

set_option maxRecDepth 10000 in
theorem clear_fixedLines (h : marker ∈ pageMarkers) :
    (∀ line ∈ topLines, Clear marker line) ∧ (∀ line ∈ viewLines, Clear marker line)
      ∧ (∀ line ∈ footLines, Clear marker line) ∧ ∀ line ∈ plainLines, Clear marker line := by
  have hall : ∀ m ∈ pageMarkers, ∀ line ∈ topLines ++ (viewLines ++ (footLines ++ plainLines)),
      Clear m line := by
    delta pageMarkers tagMarkers titleMarkers scriptMarkers lineMarkers mainStart mainStop
      headerStart headerStop titleStart titleStop scriptStart scriptStop nonceStart policyStart
      topLines viewLines footLines plainLines buttonLine refreshScript
    simp only [List.map_cons, List.map_nil]
    repeat rw [String.toList_ofList]
    decide
  simpa only [List.forall_mem_append] using hall marker h

/-- What is decided about one marker in another. -/
theorem clear_markers : (∀ t ∈ wholeMarkers, t.isClosed = true)
    ∧ (∀ m ∈ scriptMarkers ++ lineMarkers, ∀ t ∈ titleMarkers, Clear m t)
    ∧ (∀ t ∈ [headerStart, headerStop], Clear mainStart t)
    ∧ ∀ t ∈ [headerStart, headerStop, mainStart, mainStop], Clear nonceStart t := by
  delta wholeMarkers titleMarkers scriptMarkers lineMarkers mainStart mainStop headerStart
    headerStop titleStart titleStop scriptStart scriptStop nonceStart
  repeat rw [String.toList_ofList]
  decide

/-- What stands between the markers of the content and the script is in one of the whole tags. -/
theorem total_occurrences_wholeMarkers :
    (∀ m ∈ [mainStart, mainStop, scriptStop], Text.total m.occurrences wholeMarkers = 1)
    ∧ ∀ m ∈ policyStart :: scriptMarkers, Text.total m.occurrences wholeMarkers = 0 := by
  delta wholeMarkers titleMarkers scriptMarkers lineMarkers mainStart mainStop headerStart
    headerStop titleStart titleStop scriptStart scriptStop nonceStart policyStart
  repeat rw [String.toList_ofList]
  decide

theorem clear_policyLine (h : IsMarker marker) (hc : marker.clashes "<meta".toList = true)
    (policy : Option Policy) : Clear marker (policyLine policy) := by
  have hblank : Clear marker "  ".toList := h.clear_of_not_mem (by decide)
  refine hblank.append h ?_
  cases policy with
  | none => exact ⟨rfl, rfl⟩
  | some p =>
    have hequiv : '<' ∉ " http-equiv=\"Content-Security-Policy\"".toList := by
      rw [String.toList_ofList]
      decide
    have hinside : '<' ∉ " http-equiv=\"Content-Security-Policy\"".toList
        ++ writeAttribute "content".toList p.directives := by
      simpa only [List.mem_append, not_or] using
        ⟨hequiv, not_mem_writeAttribute (by decide) p.directives⟩
    exact h.clear_tag "meta".toList hc (by decide) hinside

theorem clear_policyLine_of_mem (h : marker ∈ tagMarkers) (policy : Option Policy) :
    Clear marker (policyLine policy) :=
  clear_policyLine (isMarker_of_mem (List.mem_cons_of_mem _ h))
    (clashes_pageMarkers.2.1 marker h) policy

theorem clear_bodyLine (h : marker ∈ pageMarkers) (theme : Theme) :
    Clear marker (bodyLine theme) := by
  have ht : "body".toList ∈ tagNames :=
    List.mem_append_right _ (List.mem_cons_of_mem _ List.mem_cons_self)
  exact (clear_tag h ht (not_mem_writeAttribute (by decide) theme.bodyClass)).1

theorem clear_styleLines (h : marker ∈ pageMarkers) (theme : Theme) :
    ∀ line ∈ styleLines theme, Clear marker line := by
  have hsheet := (isMarker_of_mem h).clear_of_not_mem (not_mem_stylesheet theme)
  obtain ⟨-, -, -, hplain⟩ := clear_fixedLines h
  simp only [plainLines, List.forall_mem_cons] at hplain
  simp only [styleLines, List.forall_mem_cons]
  exact ⟨hplain.1, hsheet, hplain.2.1, hplain.2.2.1, clear_bodyLine h theme, List.forall_mem_nil _⟩

theorem clear_headerLines (h : marker ∈ pageMarkers) (title : Text) (properties : Option Meta) :
    ∀ line ∈ headerLines title properties, Clear marker line := by
  have hmarker := isMarker_of_mem h
  have hblank : Clear marker "  ".toList := hmarker.clear_of_not_mem (by decide)
  have htitle := clear_writeAll h (textElement .h1 [] title)
  have hbylines := clear_writeAll h (bylines properties)
  obtain ⟨-, -, -, hplain⟩ := clear_fixedLines h
  simp only [plainLines, List.forall_mem_cons] at hplain
  simp only [headerLines, List.forall_mem_cons]
  exact ⟨hblank.append hmarker htitle, hblank.append hmarker hbylines, hplain.2.2.2.1,
    List.forall_mem_nil _⟩

theorem not_mem_nonceAttribute (policy : Option Policy) :
    '<' ∉ (policy.map Policy.nonceAttribute).getD [] := by
  cases policy with
  | none => exact List.not_mem_nil
  | some p => exact not_mem_writeAttribute (by decide) p.nonce

theorem clear_scriptLine (h : marker ∈ policyStart :: wholeMarkers)
    (policy : Option Policy) : Clear marker (scriptLine policy) := by
  have hmem : marker ∈ pageMarkers := by
    simp only [wholeMarkers, List.mem_cons, List.mem_append] at h
    simp only [pageMarkers, tagMarkers, List.mem_cons, List.mem_append]
    exact h.imp_right (Or.imp_right .inr)
  exact (isMarker_of_mem hmem).clear_tag "script".toList (clashes_pageMarkers.2.2 marker h)
    (by decide) (not_mem_nonceAttribute policy)

theorem clear_headLines (h : marker ∈ scriptMarkers ++ lineMarkers) (title : Text) (theme : Theme)
    (policy : Option Policy) : ∀ line ∈ headLines title theme policy, Clear marker line := by
  have htag : marker ∈ tagMarkers := List.mem_append_right _ h
  have hmem : marker ∈ pageMarkers := List.mem_cons_of_mem _ htag
  have hmarker := isMarker_of_mem hmem
  obtain ⟨htop, hview, -, -⟩ := clear_fixedLines hmem
  have htags := clear_markers.2.1 marker h
  simp only [titleMarkers, List.forall_mem_cons] at htags
  have htitle : Clear marker (titleLine title) := by
    have hblank : Clear marker "  ".toList := hmarker.clear_of_not_mem (by decide)
    have htext := (clear_escape hmarker title).append hmarker htags.2.1
    exact hblank.append hmarker (htags.1.append hmarker htext)
  have hpolicy := clear_policyLine_of_mem htag policy
  simp only [headLines, List.forall_mem_append, List.forall_mem_cons]
  exact ⟨htop, hpolicy, hview, htitle, clear_styleLines hmem theme⟩

/-! ### Counting markers -/

variable (document : Document) (theme : Theme) (policy : Option Policy) (content : List Markup)

theorem occurrences_titleLine (h : IsMarker marker) (title : Text) :
    marker.occurrences (titleLine title)
      = marker.occurrences titleStart + marker.occurrences titleStop := by
  have hblank : Clear marker "  ".toList := h.clear_of_not_mem (by decide)
  have htext := clear_escape h title
  rw [titleLine, h.occurrences_append _ hblank.closed, h.occurrences_append _ (by decide),
    h.occurrences_append _ htext.closed, hblank.absent, htext.absent, Nat.zero_add, Nat.zero_add]

theorem isClosed_pageLines : ∀ line ∈ pageLines document theme policy content,
    line.isClosed = true := by
  have h : mainStart ∈ lineMarkers := by simp [lineMarkers]
  have hmem : mainStart ∈ pageMarkers := by simp [pageMarkers, tagMarkers, h]
  have hhead := clear_headLines (List.mem_append_right _ h) (pageTitle document) theme policy
  have hheader := clear_headerLines hmem (headerTitle document) document.properties?
  have hcontent := clear_writeAll hmem content
  have hwhole : mainStart ∈ policyStart :: wholeMarkers := by simp [wholeMarkers, h]
  have hscript := clear_scriptLine hwhole policy
  obtain ⟨-, -, hfoot, hplain⟩ := clear_fixedLines hmem
  have htags := clear_markers.1
  simp only [wholeMarkers, lineMarkers, List.forall_mem_append, List.forall_mem_cons] at htags
  obtain ⟨-, hstart, hstop, hmain, hmain', hscript', -⟩ := htags
  simp only [plainLines, List.forall_mem_cons] at hplain
  simp only [pageLines, endLines, List.forall_mem_append, List.forall_mem_cons]
  exact ⟨fun l hl => (hhead l hl).closed, hstart, fun l hl => (hheader l hl).closed, hstop, hmain,
    ⟨hcontent.closed, List.forall_mem_nil _⟩, hmain', hscript.closed, hplain.2.2.2.2.1.closed,
    hscript', fun l hl => (hfoot l hl).closed⟩

/-- What is counted on the lines of a page is on those of the markers and of the tags that depend on
the policy, if it is on no others. Any count will do: the kernel must not evaluate one. -/
theorem total_pageLines {count : Text → Nat}
    (htitle : count (titleLine (pageTitle document)) = count titleStart + count titleStop)
    (hscript : count (joinLines refreshScript) = 0) (hcontent : count (Markup.writeAll content) = 0)
    (htop : Text.total count topLines = 0) (hview : Text.total count viewLines = 0)
    (hfoot : Text.total count footLines = 0) (hstyle : Text.total count (styleLines theme) = 0)
    (hheader : Text.total count (headerLines (headerTitle document) document.properties?) = 0) :
    Text.total count (pageLines document theme policy content)
      = count (policyLine policy) + count (scriptLine policy) + Text.total count wholeMarkers := by
  simp only [pageLines, headLines, endLines, wholeMarkers, titleMarkers, lineMarkers,
    Text.total_append, Text.total, htop, hview, hfoot, hstyle, hheader, hscript, hcontent, htitle]
  omega

theorem occurrences_assemble (h : marker ∈ pageMarkers) :
    marker.occurrences (assemble document theme policy content)
      = marker.occurrences (policyLine policy) + marker.occurrences (scriptLine policy)
        + Text.total marker.occurrences wholeMarkers := by
  have hmarker := isMarker_of_mem h
  have hheader := clear_headerLines h (headerTitle document) document.properties?
  obtain ⟨htop, hview, hfoot, hplain⟩ := clear_fixedLines h
  simp only [plainLines, List.forall_mem_cons] at hplain
  rw [assemble_eq, hmarker.occurrences_join (isClosed_pageLines _ _ _ _)]
  exact total_pageLines _ _ _ _ (occurrences_titleLine hmarker _) hplain.2.2.2.2.1.absent
    (clear_writeAll h content).absent (Text.total_occurrences_of_clear htop)
    (Text.total_occurrences_of_clear hview) (Text.total_occurrences_of_clear hfoot)
    (Text.total_occurrences_of_clear (clear_styleLines h theme))
    (Text.total_occurrences_of_clear hheader)

theorem occurrences_scriptLine : scriptStart.occurrences (scriptLine policy) = 1 := by
  have hmarker : IsMarker scriptStart :=
    isMarker_of_mem (by simp [pageMarkers, tagMarkers, scriptMarkers])
  have hrest : '<' ∉ (policy.map Policy.nonceAttribute).getD [] ++ ">".toList := by
    simpa only [List.mem_append, not_or] using ⟨not_mem_nonceAttribute policy, by decide⟩
  have hline : scriptLine policy
      = scriptStart ++ ((policy.map Policy.nonceAttribute).getD [] ++ ">".toList) :=
    List.append_assoc ..
  rw [hline, hmarker.occurrences_self_append, hmarker.occurrences_of_not_mem hrest]

/-- The tags around the content and the script are on a page once. -/
theorem occurrences_assemble_eq_one (h : marker ∈ [mainStart, mainStop, scriptStart, scriptStop]) :
    marker.occurrences (assemble document theme policy content) = 1 := by
  have htag : marker ∈ tagMarkers := by
    simp only [List.mem_cons, List.not_mem_nil, or_false] at h
    rcases h with rfl | rfl | rfl | rfl <;> simp [tagMarkers, scriptMarkers, lineMarkers]
  have hpolicy := clear_policyLine_of_mem htag policy
  obtain ⟨hone, hzero⟩ := total_occurrences_wholeMarkers
  have hsum : marker.occurrences (scriptLine policy) + Text.total marker.occurrences wholeMarkers
      = 1 := by
    have hcases : marker = scriptStart ∨ marker ∈ [mainStart, mainStop, scriptStop] := by
      simp only [List.mem_cons, List.not_mem_nil, or_false] at h
      rcases h with rfl | rfl | rfl | rfl <;> simp
    rcases hcases with rfl | hm
    · rw [occurrences_scriptLine, hzero _ (by simp [scriptMarkers])]
    · have hwhole : marker ∈ policyStart :: wholeMarkers := by
        simp only [List.mem_cons, List.not_mem_nil, or_false] at hm
        rcases hm with rfl | rfl | rfl <;> simp [wholeMarkers, lineMarkers]
      rw [(clear_scriptLine hwhole policy).absent, hone _ hm]
  rw [occurrences_assemble _ _ _ _ (List.mem_cons_of_mem _ htag), hpolicy.absent, Nat.zero_add,
    hsum]

end BlockDocument.Html
