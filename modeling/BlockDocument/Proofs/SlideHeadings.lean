import BlockDocument.Html.Slide
import BlockDocument.Proofs.Formatting
import BlockDocument.Proofs.ProseGroups

/-!
# Headings in slides and in prose

A slide reads the whole text of a paragraph as a heading, and prose reads a line at a time. Blank
lines around a heading line write nothing, so both show the same heading if the trimmed text of the
paragraph is one line (`slide_heading_eq_prose_iff`). They differ if a line feed is among the blank
characters behind the signs: then prose has the signs on a line of their own, which is no heading.
-/

namespace BlockDocument.Html

open Source (substance)
open Text (AllBlank)

/-! ## Heading lines -/

/-- The signs that a heading line begins with. -/
def HeadingLevel.signs : HeadingLevel → Text
  | one => "#".toList
  | two => "##".toList
  | three => "###".toList

theorem eq_signs_of_ofNat? {signs : Text} {level : HeadingLevel}
    (hs : ∀ c ∈ signs, c = '#') (h : HeadingLevel.ofNat? signs.length = some level) :
    signs = level.signs := by
  have hrep : signs = List.replicate signs.length '#' := List.eq_replicate_of_mem hs
  generalize signs.length = n at h hrep
  subst hrep
  unfold HeadingLevel.ofNat? at h
  split at h <;> cases h <;> rfl

theorem exists_blanks_of_afterMarker? {afterSign content : Text}
    (h : afterMarker? afterSign = some content) :
    ∃ blanks, AllBlank blanks ∧ afterSign = blanks ++ content ∧ '\n' ∉ content := by
  simp only [afterMarker?, Option.ite_none_right_eq_some, Option.some.injEq] at h
  obtain ⟨hcontent, rfl⟩ := h
  refine ⟨afterSign.takeWhile isBlank, fun c hc => List.mem_takeWhile_imp hc, ?_, ?_⟩
  · rw [List.takeWhile_append_dropWhile]
  · simpa using (Bool.and_eq_true_iff.1 hcontent).2

/-- A heading line is its signs, blank characters, and a text that is on one line. -/
theorem exists_blanks_of_readHeading? {line content : Text} {level : HeadingLevel}
    (h : readHeading? line = some (level, content)) :
    ∃ blanks, AllBlank blanks ∧ line = level.signs ++ (blanks ++ content) ∧ '\n' ∉ content := by
  unfold readHeading? at h
  split at h
  · rename_i found hlevel
    obtain ⟨text, hafter, htext⟩ := Option.map_eq_some_iff.1 h
    cases htext
    have hall : ∀ c ∈ line.takeWhile (· == '#'), c = '#' := by
      intro c hc
      simpa using List.mem_takeWhile_imp hc
    have hsigns := eq_signs_of_ofNat? hall hlevel
    obtain ⟨blanks, hblanks, hrest, hcontent⟩ := exists_blanks_of_afterMarker? hafter
    refine ⟨blanks, hblanks, ?_, hcontent⟩
    rw [← hrest, ← hsigns, List.takeWhile_append_dropWhile]
  · cases h

namespace ProseLine

theorem classify_eq_blank_iff {line : Text} : classify line = blank ↔ line = [] := by
  constructor
  · intro h
    unfold classify at h
    split at h
    · exact List.isEmpty_iff.1 ‹_›
    · split at h
      · cases h
      · split at h
        · cases h
        · split at h <;> cases h
  · rintro rfl
    rfl

theorem classify_of_readHeading? {line content : Text} {level : HeadingLevel}
    (h : readHeading? line = some (level, content)) : classify line = heading level content := by
  have hne : line.isEmpty = false := by
    rcases line with _ | ⟨c, line⟩
    · cases h
    · rfl
  unfold classify
  simp only [hne, h, Bool.false_eq_true, if_false]

/-- Signs without anything behind them are no heading. -/
theorem classify_signs (level : HeadingLevel) : classify level.signs = plain level.signs := by
  cases level <;> rfl

/-! ## Blank lines in prose -/

theorem groupsMarkup_eq_nil : ∀ {lines : List ProseLine}, (∀ line ∈ lines, line = blank) →
    groupsMarkup lines = []
  | [], _ => rfl
  | line :: lines, h => by
    obtain ⟨rfl, hlines⟩ := List.forall_mem_cons.1 h
    rw [groupsMarkup_alone fun _ => rfl, groupsMarkup_eq_nil hlines]
    rfl

/-- A heading among blank lines is all that is written. -/
theorem groupsMarkup_of_heading {level : HeadingLevel} {content : Text} :
    ∀ {lines : List ProseLine}, lines.filter (· ≠ blank) = [heading level content] →
      groupsMarkup lines = headingMarkup level content
  | [], h => by cases h
  | line :: lines, h => by
    by_cases hline : line = blank
    · subst hline
      have hlines : lines.filter (· ≠ blank) = [heading level content] := by simpa using h
      rw [groupsMarkup_alone fun _ => rfl, groupsMarkup_of_heading hlines]
      rfl
    · rw [List.filter_cons_of_pos (by simpa using hline)] at h
      obtain ⟨rfl, hrest⟩ := List.cons.inj h
      have hblank : ∀ line ∈ lines, line = blank := by simpa using hrest
      rw [groupsMarkup_alone fun _ => rfl, groupsMarkup_eq_nil hblank, List.append_nil]
      rfl

/-- Prose whose first line that is not blank is a text line begins with a paragraph. -/
theorem groupsMarkup_of_plain {first : Text} {more : List ProseLine} :
    ∀ {lines : List ProseLine}, lines.filter (· ≠ blank) = plain first :: more →
      ∃ rest, groupsMarkup lines = .opening .p [] :: rest
  | [], h => by cases h
  | line :: lines, h => by
    by_cases hline : line = blank
    · subst hline
      have hlines : lines.filter (· ≠ blank) = plain first :: more := by simpa using h
      obtain ⟨rest, hrest⟩ := groupsMarkup_of_plain hlines
      refine ⟨rest, ?_⟩
      rw [groupsMarkup_alone fun _ => rfl, hrest]
      rfl
    · rw [List.filter_cons_of_pos (by simpa using hline)] at h
      obtain ⟨rfl, -⟩ := List.cons.inj h
      have hcut : IsCut (plain first :: lines) (groups (plain first :: lines)) := isCut_iff.2 rfl
      unfold groupsMarkup
      rcases hgroups : groups (plain first :: lines) with _ | ⟨_ | ⟨line, group⟩, others⟩ <;>
        rw [hgroups] at hcut
      · cases hcut.flatten
      · exact absurd List.mem_cons_self hcut.nonempty
      · obtain ⟨rfl, -⟩ := List.cons.inj hcut.flatten
        exact ⟨_, rfl⟩

end ProseLine

/-- The lines of prose that are not blank are those of the substance. -/
theorem filter_proseLines (source : Text) :
    (proseLines source).filter (· ≠ .blank) = (substance source.lines).map ProseLine.classify := by
  unfold proseLines substance
  simp only [List.filter_map, List.map_map, Function.comp_def, ne_eq,
    ProseLine.classify_eq_blank_iff, decide_not]
  congr 2
  funext line
  cases line.trim <;> rfl

/-! ## The paragraph of a slide -/

/-- That what is written begins with a heading element. -/
def BeginsWithHeading (html : Text) : Prop :=
  ∃ level : HeadingLevel, (Markup.opening level.tag []).write <+: html

theorem not_beginsWithHeading_opening (rest : List Markup) :
    ¬ BeginsWithHeading (Markup.writeAll (.opening .p [] :: rest)) := by
  rintro ⟨level, more, h⟩
  -- the signs after the `<` differ
  have hsecond := congrArg (fun html : Text => html[1]?) h
  cases level <;> cases hsecond

theorem markup_contentsRendering_paragraph (slide : Text) (runs : List Run) :
    (contentsRendering slide [.paragraph runs]).markup = paragraphOrHeading runs :=
  List.append_nil _

/-- A paragraph that begins with a heading element is the heading that its trimmed text reads as. -/
theorem exists_readHeading?_of_begins {runs : List Run}
    (h : BeginsWithHeading (Markup.writeAll (paragraphOrHeading runs))) :
    ∃ level content, readHeading? (plainText runs).trim = some (level, content)
      ∧ paragraphOrHeading runs = headingMarkup level content := by
  unfold paragraphOrHeading at h ⊢
  rcases hread : readHeading? (plainText runs).trim with _ | ⟨level, content⟩
  · rw [hread] at h
    exact absurd h (not_beginsWithHeading_opening _)
  · exact ⟨level, content, rfl, rfl⟩

variable {source content : Text} {level : HeadingLevel}

/-- A heading line with blank characters around it is a heading in prose. -/
theorem proseMarkup_of_readHeading? (h : readHeading? source.trim = some (level, content))
    (hn : '\n' ∉ source.trim) : proseMarkup source = headingMarkup level content := by
  obtain ⟨before, after, hb, ha, hsource⟩ := Text.exists_trim source
  have hne : source.trim.trim ≠ [] := by
    rw [Text.trim_trim]
    intro hnil
    rw [hnil] at h
    cases h
  have hlines : substance source.lines = [source.trim] := by
    have hpad := Source.substance_lines_pad hb ha hn
    rwa [← List.append_assoc, ← hsource, Source.substance_singleton hne, Text.trim_trim] at hpad
  rw [proseMarkup_eq_groupsMarkup]
  refine ProseLine.groupsMarkup_of_heading ?_
  rw [filter_proseLines, hlines, List.map_singleton, ProseLine.classify_of_readHeading? h]

/-- With a line feed behind them, the signs are the first line that is not blank. -/
theorem exists_substance_of_newline (h : readHeading? source.trim = some (level, content))
    (hn : '\n' ∈ source.trim) : ∃ more, substance source.lines = level.signs :: more := by
  obtain ⟨before, after, hb, -, hsource⟩ := Text.exists_trim source
  obtain ⟨blanks, hblanks, hline, hcontent⟩ := exists_blanks_of_readHeading? h
  have hsigns : '\n' ∉ level.signs ∧ level.signs.trim = level.signs ∧ level.signs ≠ [] := by
    cases level <;> decide
  have hfeed : '\n' ∈ blanks := by
    rw [hline] at hn
    simpa [hsigns.1, hcontent] using hn
  obtain ⟨start, rest, rfl, hstart⟩ := List.eq_append_cons_of_mem hfeed
  have htrim : (level.signs ++ start).trim = level.signs := by
    have hafter : AllBlank start := fun c hc => hblanks c (List.mem_append_left _ hc)
    have hpad := Text.trim_pad (List.forall_mem_nil _) hafter level.signs
    simpa [hsigns.2.1] using hpad
  have hcut : source
      = before ++ ((level.signs ++ start) ++ '\n' :: (rest ++ content ++ after)) := by
    rw [hsource, hline]
    simp
  refine ⟨substance (Text.lines (rest ++ content ++ after)), ?_⟩
  rw [hcut, Source.substance_lines_append_of_allBlank _ hb,
    Source.substance_lines_append_newline (by simp [hsigns.1, hstart]),
    Source.substance_singleton (by rw [htrim]; exact hsigns.2.2), htrim, List.singleton_append]

/-- In prose, signs with a line feed behind them begin a paragraph. -/
theorem exists_proseMarkup_of_newline (h : readHeading? source.trim = some (level, content))
    (hn : '\n' ∈ source.trim) : ∃ rest, proseMarkup source = .opening .p [] :: rest := by
  obtain ⟨more, hmore⟩ := exists_substance_of_newline h hn
  have hfilter : (proseLines source).filter (· ≠ .blank)
      = .plain level.signs :: more.map ProseLine.classify := by
    rw [filter_proseLines, hmore, List.map_cons, ProseLine.classify_signs]
  rw [proseMarkup_eq_groupsMarkup]
  exact ProseLine.groupsMarkup_of_plain hfilter

/-- A paragraph that a slide shows as a heading is written as the prose of its text exactly if that
text, trimmed, holds no line feed. -/
theorem slide_heading_eq_prose_iff {slide : Text} {runs : List Run}
    (h : BeginsWithHeading (Markup.writeAll (contentsRendering slide [.paragraph runs]).markup)) :
    Markup.writeAll (contentsRendering slide [.paragraph runs]).markup
        = Markup.writeAll (proseMarkup (plainText runs))
      ↔ '\n' ∉ (plainText runs).trim := by
  rw [markup_contentsRendering_paragraph] at h ⊢
  obtain ⟨level, content, hread, hmarkup⟩ := exists_readHeading?_of_begins h
  constructor
  · intro heq hn
    obtain ⟨rest, hrest⟩ := exists_proseMarkup_of_newline hread hn
    rw [heq, hrest] at h
    exact not_beginsWithHeading_opening rest h
  · intro hn
    rw [hmarkup, proseMarkup_of_readHeading? hread hn]

/-- A paragraph with a line feed behind the sign. -/
def brokenHeading : List Run := [.plain "#\nTitle".toList]

theorem slide_heading_ne_prose_brokenHeading :
    BeginsWithHeading (Markup.writeAll (contentsRendering [] [.paragraph brokenHeading]).markup)
      ∧ Markup.writeAll (contentsRendering [] [.paragraph brokenHeading]).markup
        ≠ Markup.writeAll (proseMarkup (plainText brokenHeading)) := by
  have hbegins : BeginsWithHeading
      (Markup.writeAll (contentsRendering [] [.paragraph brokenHeading]).markup) :=
    ⟨.one, by decide⟩
  have hfeed : '\n' ∈ (plainText brokenHeading).trim := by decide
  exact ⟨hbegins, fun heq => (slide_heading_eq_prose_iff hbegins).1 heq hfeed⟩

end BlockDocument.Html
