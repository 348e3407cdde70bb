import BlockDocument.Proofs.PageParts

/-!
# How a page's policy is read

A policy is a sequence of directives with a `;` behind each, and a directive is a name and the
sources that are allowed, with blanks between them. The nonce and the source that a host gives are
written into that as they are. Every page carries what is written (`policyOf?_assemble`), and what
that allows is what was meant exactly if the host gives nothing that ends a directive, and no blank
in the nonce (`Policy.isStrict_iff`).
-/

namespace BlockDocument.Html

open BlockDocument (Text)
open Text (IsMarker Clear)

/-! ## Reading a policy -/

/-- Whether a character separates the words of a directive. -/
def isSeparator (c : Char) : Bool := c ∈ ['\t', '\n', '\x0c', '\r', ' ']

/-- What stands between the separators of a text. -/
def words (t : Text) : List Text := (t.splitOnP isSeparator).filter fun word => !word.isEmpty

/-- What a policy says about one kind of resources. -/
structure Directive where
  name : Text
  sources : List Text
  deriving DecidableEq, Repr

/-- The directive that a part of a policy is, unless it is blank. -/
def readDirective? (part : Text) : Option Directive :=
  match words part with
  | [] => none
  | name :: sources => some ⟨name, sources⟩

/-- The directives of a policy. -/
def readDirectives (t : Text) : List Directive :=
  (t.splitOnP (· == ';')).filterMap readDirective?

/-- That there is one directive of each of four names and no other, that nothing is allowed that is
not named, and that the only script is the one with the nonce. -/
structure IsStrict (nonce : Text) (directives : List Directive) : Prop where
  names : (directives.map Directive.name).Perm
    (["default-src", "img-src", "style-src", "script-src"].map String.toList)
  default : ∀ d ∈ directives, d.name = "default-src".toList → d.sources = ["'none'".toList]
  script : ∀ d ∈ directives, d.name = "script-src".toList →
    d.sources = ["'nonce-".toList ++ nonce ++ "'".toList]

variable {s t : Text} {c : Char}

theorem exists_mem_splitOnP {p : Char → Bool} (hc : p c = false) : ∀ {t : Text}, c ∈ t →
    ∃ part ∈ t.splitOnP p, c ∈ part
  | d :: t, h => by
    rw [List.splitOnP_cons_eq_if_modifyHead]
    obtain ⟨first, rest, hsplit⟩ := List.exists_cons_of_ne_nil (List.splitOnP_ne_nil p t)
    rcases List.mem_cons.1 h with rfl | h
    · rw [if_neg (by simp [hc]), hsplit]
      exact ⟨c :: first, List.mem_cons_self, List.mem_cons_self⟩
    · obtain ⟨part, hp, hmem⟩ := exists_mem_splitOnP hc h
      split
      · exact ⟨part, List.mem_cons_of_mem _ hp, hmem⟩
      · rw [hsplit, List.mem_cons] at hp
        rw [hsplit]
        rcases hp with rfl | hp
        · exact ⟨d :: part, List.mem_cons_self, List.mem_cons_of_mem _ hmem⟩
        · exact ⟨part, List.mem_cons_of_mem _ hp, hmem⟩

theorem words_append (hc : isSeparator c = true) (s t : Text) :
    words (s ++ c :: t) = words s ++ words t := by
  rw [words, List.splitOnP_append_cons s t hc, List.filter_append]
  rfl

theorem words_of_word (hne : t ≠ []) (ht : ∀ c ∈ t, isSeparator c = false) : words t = [t] := by
  rw [words, List.splitOnP_eq_singleton ht]
  simp [hne]

theorem words_ne_nil (hc : c ∈ t) (hs : isSeparator c = false) : words t ≠ [] := by
  obtain ⟨part, hp, hmem⟩ := exists_mem_splitOnP hs hc
  refine List.ne_nil_of_mem (a := part) (List.mem_filter.2 ⟨hp, ?_⟩)
  simp [List.ne_nil_of_mem hmem]

theorem words_ne_singleton {d e : Char} (hd : d ∈ s) (hds : isSeparator d = false) (he : e ∈ t)
    (hes : isSeparator e = false) {inside : Text} (hc : c ∈ inside) (hcs : isSeparator c = true)
    (word : Text) : words (s ++ inside ++ t) ≠ [word] := by
  obtain ⟨before, after, rfl⟩ := List.append_of_mem hc
  have hshape : s ++ (before ++ c :: after) ++ t = (s ++ before) ++ c :: (after ++ t) := by simp
  have hb := List.length_pos_iff.2 (words_ne_nil (List.mem_append_left before hd) hds)
  have ha := List.length_pos_iff.2 (words_ne_nil (List.mem_append_right after he) hes)
  intro h
  have hlength := congrArg List.length h
  rw [hshape, words_append hcs, List.length_append, List.length_singleton] at hlength
  omega

theorem readDirectives_append (s t : Text) :
    readDirectives (s ++ ';' :: t) = readDirectives s ++ readDirectives t := by
  rw [readDirectives, List.splitOnP_append_cons s t (by decide), List.filterMap_append]
  rfl

/-- Whether a character ends neither a word nor a directive. -/
def isInner (c : Char) : Bool := c != ';' && !isSeparator c

theorem of_isInner (h : isInner c = true) : c ≠ ';' ∧ isSeparator c = false := by
  simpa [isInner] using h

/-- Whether a text is not blank between all of its `;`. -/
def hasWord (t : Text) : Bool := t.any isInner

theorem hasWord_append (s t : Text) : hasWord (s ++ t) = (hasWord s || hasWord t) :=
  List.any_append

theorem length_readDirectives_pos (h : hasWord t = true) : 0 < (readDirectives t).length := by
  obtain ⟨c, hc, hi⟩ := List.any_eq_true.1 h
  obtain ⟨hne, hs⟩ := of_isInner hi
  obtain ⟨part, hp, hmem⟩ := exists_mem_splitOnP (p := (· == ';')) (beq_false_of_ne hne) hc
  obtain ⟨name, sources, hw⟩ := List.exists_cons_of_ne_nil (words_ne_nil hmem hs)
  refine List.length_pos_of_mem (a := ⟨name, sources⟩) (List.mem_filterMap.2 ⟨part, hp, ?_⟩)
  rw [readDirective?, hw]

theorem two_le_length_readDirectives {inside : Text} (hs : hasWord s = true)
    (ht : hasWord t = true) (h : ';' ∈ inside) : 2 ≤ (readDirectives (s ++ inside ++ t)).length := by
  obtain ⟨before, after, rfl⟩ := List.append_of_mem h
  have hshape : s ++ (before ++ ';' :: after) ++ t = (s ++ before) ++ ';' :: (after ++ t) := by
    simp
  have hbefore : hasWord (s ++ before) = true := by simp [hasWord_append, hs]
  have hafter : hasWord (after ++ t) = true := by simp [hasWord_append, ht]
  have hb := length_readDirectives_pos hbefore
  have ha := length_readDirectives_pos hafter
  rw [hshape, readDirectives_append, List.length_append]
  omega

/-- A part of a policy with a free text in it. -/
def part (name before inside after : Text) : Text :=
  ' ' :: name ++ ' ' :: (before ++ inside ++ after)

variable {name after : Text} (before inside : Text)

/-- If no `;` divides it, a part is the directive that it names. -/
theorem readDirectives_part (hne : name ≠ []) (hn : name.all isInner = true)
    (hb : ';' ∉ before) (hi : ';' ∉ inside) (ha : ';' ∉ after) :
    readDirectives (part name before inside after)
      = [⟨name, words (before ++ inside ++ after)⟩] := by
  have hmem : ';' ∉ part name before inside after := by
    have hname : ';' ∉ name := fun h => (of_isInner (List.all_eq_true.1 hn _ h)).1 rfl
    simp [part, hname, hb, hi, ha]
  have hsplit : (part name before inside after).splitOnP (· == ';')
      = [part name before inside after] :=
    List.splitOnP_eq_singleton fun c hc => beq_false_of_ne fun he => hmem (he ▸ hc)
  have hwords : words (part name before inside after)
      = name :: words (before ++ inside ++ after) := by
    have hblank : words (' ' :: name) = words name := words_append (by decide) [] name
    have hname : ∀ c ∈ name, isSeparator c = false :=
      fun c hc => (of_isInner (List.all_eq_true.1 hn c hc)).2
    rw [part, words_append (by decide), hblank, words_of_word hne hname]
    rfl
  rw [readDirectives, hsplit, List.filterMap_cons, readDirective?, hwords]
  rfl

/-- A part is more than one directive if there is a `;` in its free text. -/
theorem length_readDirectives_part (hn : hasWord name = true) (ha : hasWord after = true) :
    0 < (readDirectives (part name before inside after)).length
      ∧ (';' ∈ inside → 2 ≤ (readDirectives (part name before inside after)).length) := by
  have hshape : part name before inside after
      = (' ' :: name ++ ' ' :: before) ++ inside ++ after := by
    simp [part]
  have hname : hasWord (' ' :: name) = true := (hasWord_append [' '] name).trans hn
  have hstart : hasWord (' ' :: name ++ ' ' :: before) = true := by
    rw [hasWord_append, hname, Bool.true_or]
  rw [hshape]
  refine ⟨length_readDirectives_pos ?_, two_le_length_readDirectives hstart ha⟩
  rw [hasWord_append, ha, Bool.or_true]

/-! ## The policy of a host -/

namespace Policy

variable (p : Policy)

/-- What a host gives if it writes nothing that a policy is made of. -/
structure IsPlain : Prop where
  source : ';' ∉ p.source
  nonce : ∀ c ∈ p.nonce, c ≠ ';' ∧ isSeparator c = false

theorem semicolon_mem_hostSource : ';' ∈ p.hostSource ↔ ';' ∈ p.source := by
  obtain ⟨before, after, hb, ha, ht⟩ := Text.exists_trim p.source
  have hblank : isBlank ';' = false := by decide
  have htrim : ';' ∈ p.source ↔ ';' ∈ p.source.trim := by
    conv_lhs => rw [ht]
    simp only [List.mem_append]
    refine ⟨?_, fun h => .inl (.inr h)⟩
    rintro ((h | h) | h)
    · exact absurd (hb _ h) (by simp [hblank])
    · exact h
    · exact absurd (ha _ h) (by simp [hblank])
  rw [htrim, hostSource]
  split
  · rename_i he
    simp [List.isEmpty_iff.1 he]
  · simp

def imagePart : Text := part "img-src".toList [] p.hostSource "https: data:".toList

def stylePart : Text := part "style-src".toList [] p.hostSource "'unsafe-inline'".toList

def scriptPart : Text := part "script-src".toList "'nonce-".toList p.nonce "'".toList

theorem directives_eq : p.directives = "default-src 'none'".toList ++ ';' :: (p.imagePart
    ++ ';' :: (p.stylePart ++ ';' :: (p.scriptPart ++ ';' :: []))) := by
  have hdefault : "default-src 'none'; img-src ".toList
      = "default-src 'none'".toList ++ ';' :: ' ' :: ("img-src".toList ++ [' ']) := by
    repeat rw [String.toList_ofList]
    rfl
  have himage : "https: data:; style-src ".toList
      = "https: data:".toList ++ ';' :: ' ' :: ("style-src".toList ++ [' ']) := by
    repeat rw [String.toList_ofList]
    rfl
  have hstyle : "'unsafe-inline'; script-src 'nonce-".toList = "'unsafe-inline'".toList
      ++ ';' :: ' ' :: ("script-src".toList ++ ' ' :: "'nonce-".toList) := by
    repeat rw [String.toList_ofList]
    rfl
  have hscript : "';".toList = "'".toList ++ [';'] := by decide
  delta directives imagePart stylePart scriptPart part
  simp only [hdefault, himage, hstyle, hscript, List.append_assoc, List.cons_append,
    List.nil_append]

theorem readDirectives_directives : readDirectives p.directives
    = ⟨"default-src".toList, ["'none'".toList]⟩ :: (readDirectives p.imagePart
      ++ (readDirectives p.stylePart ++ readDirectives p.scriptPart)) := by
  have hdefault : readDirectives "default-src 'none'".toList
      = [⟨"default-src".toList, ["'none'".toList]⟩] := by
    repeat rw [String.toList_ofList]
    decide
  have hnil : readDirectives [] = [] := by decide
  rw [directives_eq, readDirectives_append, readDirectives_append, readDirectives_append,
    readDirectives_append, hdefault, hnil, List.append_nil]
  rfl

variable {p}

/-- The names in a policy are words, and what stands behind its free texts is not blank. -/
theorem part_words :
    (∀ name ∈ ["img-src".toList, "style-src".toList, "script-src".toList],
      name ≠ [] ∧ name.all isInner = true ∧ hasWord name = true)
    ∧ ∀ after ∈ ["https: data:".toList, "'unsafe-inline'".toList, "'".toList],
      ';' ∉ after ∧ hasWord after = true := by
  repeat rw [String.toList_ofList]
  decide

theorem IsPlain.readDirectives_eq (h : p.IsPlain) : readDirectives p.directives
    = [⟨"default-src".toList, ["'none'".toList]⟩,
      ⟨"img-src".toList, words (p.hostSource ++ "https: data:".toList)⟩,
      ⟨"style-src".toList, words (p.hostSource ++ "'unsafe-inline'".toList)⟩,
      ⟨"script-src".toList, ["'nonce-".toList ++ p.nonce ++ "'".toList]⟩] := by
  have hsource : ';' ∉ p.hostSource := fun hm => h.source ((semicolon_mem_hostSource p).1 hm)
  have hnonce : ';' ∉ p.nonce := fun hm => (h.nonce _ hm).1 rfl
  obtain ⟨hnames, hafter⟩ := part_words
  simp only [List.forall_mem_cons] at hnames hafter
  obtain ⟨⟨hine, hin, -⟩, ⟨hsne, hsn, -⟩, ⟨hcne, hcn, -⟩, -⟩ := hnames
  obtain ⟨⟨hia, -⟩, ⟨hsa, -⟩, ⟨hca, -⟩, -⟩ := hafter
  have himage := readDirectives_part [] p.hostSource hine hin List.not_mem_nil hsource hia
  have hstyle := readDirectives_part [] p.hostSource hsne hsn List.not_mem_nil hsource hsa
  have hscript := readDirectives_part "'nonce-".toList p.nonce hcne hcn (by decide) hnonce hca
  have hword : words ("'nonce-".toList ++ p.nonce ++ "'".toList)
      = ["'nonce-".toList ++ p.nonce ++ "'".toList] := by
    have hquoted : ("'nonce-".toList.all isInner && "'".toList.all isInner) = true := by decide
    rw [Bool.and_eq_true, List.all_eq_true, List.all_eq_true] at hquoted
    refine words_of_word (by simp) fun c hc => ?_
    simp only [List.mem_append] at hc
    rcases hc with (hc | hc) | hc
    · exact (of_isInner (hquoted.1 c hc)).2
    · exact (h.nonce c hc).2
    · exact (of_isInner (hquoted.2 c hc)).2
  rw [readDirectives_directives, imagePart, stylePart, scriptPart, himage, hstyle, hscript, hword]
  rfl

/-- There are four directives at least, and more if the host gives a `;`. -/
theorem length_readDirectives_directives : 4 ≤ (readDirectives p.directives).length
    ∧ (';' ∈ p.source ∨ ';' ∈ p.nonce → 5 ≤ (readDirectives p.directives).length) := by
  obtain ⟨hnames, hafter⟩ := part_words
  simp only [List.forall_mem_cons] at hnames hafter
  obtain ⟨⟨-, -, hi⟩, ⟨-, -, hs⟩, ⟨-, -, hc⟩, -⟩ := hnames
  obtain ⟨⟨-, hia⟩, ⟨-, hsa⟩, ⟨-, hca⟩, -⟩ := hafter
  obtain ⟨himage, himage'⟩ := length_readDirectives_part [] p.hostSource hi hia
  obtain ⟨hstyle, -⟩ := length_readDirectives_part [] p.hostSource hs hsa
  obtain ⟨hscript, hscript'⟩ := length_readDirectives_part "'nonce-".toList p.nonce hc hca
  rw [readDirectives_directives, List.length_cons, List.length_append, List.length_append,
    imagePart, stylePart, scriptPart]
  refine ⟨by omega, ?_⟩
  rintro (hm | hm)
  · have := himage' ((semicolon_mem_hostSource p).2 hm)
    omega
  · have := hscript' hm
    omega

theorem IsPlain.isStrict (h : p.IsPlain) : IsStrict p.nonce (readDirectives p.directives) := by
  have hnames : "default-src".toList ∉ ["img-src".toList, "style-src".toList, "script-src".toList]
      ∧ "script-src".toList ∉ ["default-src".toList, "img-src".toList, "style-src".toList] := by
    repeat rw [String.toList_ofList]
    decide
  simp only [List.mem_cons, not_or] at hnames
  obtain ⟨⟨hdi, hds, hdc, -⟩, hcd, hci, hcs, -⟩ := hnames
  rw [h.readDirectives_eq]
  refine ⟨List.Perm.refl _, ?_, ?_⟩
  · simp only [List.forall_mem_cons]
    exact ⟨fun _ => trivial, fun he => absurd he.symm hdi, fun he => absurd he.symm hds,
      fun he => absurd he.symm hdc, List.forall_mem_nil _⟩
  · simp only [List.forall_mem_cons]
    exact ⟨fun he => absurd he.symm hcd, fun he => absurd he.symm hci,
      fun he => absurd he.symm hcs, fun _ => trivial, List.forall_mem_nil _⟩

/-- A nonce in which nothing ends a directive is the only source of the directive of scripts only if
nothing in it ends a source. -/
theorem not_isSeparator_of_isStrict (h : IsStrict p.nonce (readDirectives p.directives))
    (hnonce : ';' ∉ p.nonce) : ∀ c ∈ p.nonce, isSeparator c = false := by
  intro c hc
  obtain ⟨hnames, hafter⟩ := part_words
  simp only [List.forall_mem_cons] at hnames hafter
  obtain ⟨-, -, ⟨hne, hn, -⟩, -⟩ := hnames
  have hscript := readDirectives_part "'nonce-".toList p.nonce hne hn (by decide) hnonce
    hafter.2.2.1.1
  have hmem : ⟨"script-src".toList, words ("'nonce-".toList ++ p.nonce ++ "'".toList)⟩
      ∈ readDirectives p.directives := by
    rw [readDirectives_directives, scriptPart, hscript]
    simp
  have hdash : '-' ∈ "'nonce-".toList ∧ isSeparator '-' = false := by decide
  have hquote : '\'' ∈ "'".toList ∧ isSeparator '\'' = false := by decide
  have hword := h.script _ hmem rfl
  exact Bool.eq_false_iff.2 fun hs =>
    words_ne_singleton hdash.1 hdash.2 hquote.1 hquote.2 hc hs _ hword

/-- A policy is read as it was meant exactly if the host is plain. -/
theorem isStrict_iff : IsStrict p.nonce (readDirectives p.directives) ↔ p.IsPlain := by
  refine ⟨fun h => ?_, fun h => h.isStrict⟩
  have hfour : (readDirectives p.directives).length = 4 := by simpa using h.names.length_eq
  have hnone : ¬ (';' ∈ p.source ∨ ';' ∈ p.nonce) := fun hm => by
    have := length_readDirectives_directives.2 hm
    omega
  obtain ⟨hsource, hnonce⟩ := not_or.1 hnone
  refine ⟨hsource, fun c hc => ⟨?_, not_isSeparator_of_isStrict h hnonce c hc⟩⟩
  rintro rfl
  exact hnonce hc

end Policy

/-! ## The policy of a page -/

/-- The value that stands in quotes behind the first `start`. -/
def valueBehind? (start t : Text) : Option Text := do
  let (_, behind) ← t.dropInfix? start
  let (value, _) ← Text.splitFirst '"' behind
  return value

theorem valueBehind?_append {start before value : Text} (h : IsMarker start)
    (hb : Clear start before) (hv : '"' ∉ value) (after : Text) :
    valueBehind? start (before ++ (start ++ (value ++ '"' :: after))) = some value := by
  rw [valueBehind?, h.dropInfix?_append hb]
  show ((Text.splitFirst '"' (value ++ '"' :: after)) >>= fun parts => pure parts.1) = _
  rw [Text.splitFirst_append hv]
  rfl

/-- The policy that a page carries, if there is one. -/
def policyOf? (page : Text) : Option (List Directive) :=
  if policyStart.occurrences page = 1 then
    ((valueBehind? policyStart page).bind decode?).map readDirectives
  else none

/-- The nonce of a page's script, if there is one. -/
def nonceOf? (page : Text) : Option Text :=
  if scriptStart.occurrences page = 1 then (valueBehind? nonceStart page).bind decode? else none

theorem policyLine_eq (p : Policy) : policyLine (some p)
    = "  ".toList ++ (policyStart ++ (escape p.directives ++ '"' :: ">".toList)) := by
  have hstart : "<meta http-equiv=\"Content-Security-Policy\"".toList
      ++ ' ' :: ("content".toList ++ "=\"".toList) = policyStart := by
    delta policyStart
    repeat rw [String.toList_ofList]
    rfl
  have hquote : "\"".toList = ['"'] := by decide
  show "  ".toList ++ ("<meta http-equiv=\"Content-Security-Policy\"".toList
    ++ (' ' :: "content".toList ++ "=\"".toList ++ escape p.directives ++ "\"".toList)
    ++ ">".toList) = _
  simp only [← hstart, hquote, List.append_assoc, List.cons_append, List.nil_append]

theorem scriptLine_eq (p : Policy) : scriptLine (some p)
    = nonceStart ++ (escape p.nonce ++ '"' :: ">".toList) := by
  have hstart : "<script".toList ++ ' ' :: ("nonce".toList ++ "=\"".toList) = nonceStart := by
    delta nonceStart
    repeat rw [String.toList_ofList]
    rfl
  have hquote : "\"".toList = ['"'] := by decide
  show "<script".toList ++ (' ' :: "nonce".toList ++ "=\"".toList ++ escape p.nonce ++ "\"".toList)
    ++ ">".toList = _
  simp only [← hstart, hquote, List.append_assoc, List.cons_append, List.nil_append]

theorem occurrences_policyLine (p : Policy) :
    policyStart.occurrences (policyLine (some p)) = 1 := by
  have h : IsMarker policyStart := isMarker_of_mem (by simp [pageMarkers])
  have hblank : Clear policyStart "  ".toList := h.clear_of_not_mem (by decide)
  have hvalue : '<' ∉ escape p.directives := Lexeme.not_mem_escape (by decide) _
  have hrest : '<' ∉ escape p.directives ++ '"' :: ">".toList := by
    simpa only [List.mem_append, not_or] using ⟨hvalue, by decide⟩
  rw [policyLine_eq, h.occurrences_append _ hblank.closed, hblank.absent, h.occurrences_self_append,
    h.occurrences_of_not_mem hrest]

/-- The tag of the policy stands behind the same lines on every page. -/
theorem policyOf?_join (p : Policy) {rest : List Text} (hr : rest ≠ [])
    (h : policyStart.occurrences (Text.join ['\n'] (topLines ++ policyLine (some p) :: rest)) = 1) :
    policyOf? (Text.join ['\n'] (topLines ++ policyLine (some p) :: rest))
      = some (readDirectives p.directives) := by
  have hmem : policyStart ∈ pageMarkers := by simp [pageMarkers]
  have hmarker := isMarker_of_mem hmem
  have hblank : Clear policyStart "  ".toList := hmarker.clear_of_not_mem (by decide)
  have hbefore := (Clear.unlines hmarker (clear_fixedLines hmem).1).append hmarker hblank
  have hquote : '"' ∉ escape p.directives := Lexeme.not_mem_escape (by decide) _
  have hvalue := valueBehind?_append hmarker hbefore hquote
    (">".toList ++ '\n' :: Text.join ['\n'] rest)
  have hpage : Text.join ['\n'] (topLines ++ policyLine (some p) :: rest)
      = Text.unlines topLines ++ "  ".toList ++ (policyStart ++ (escape p.directives
        ++ '"' :: (">".toList ++ '\n' :: Text.join ['\n'] rest))) := by
    rw [Text.join_append hr, policyLine_eq]
    simp only [List.append_assoc, List.cons_append]
  rw [policyOf?, if_pos h, hpage, hvalue]
  show (decode? (escape p.directives)).map readDirectives = _
  rw [decode?_escape]
  rfl

theorem policyOf?_failurePage (message : Text) (p : Policy) :
    policyOf? (failurePage message (some p)) = some (readDirectives p.directives) := by
  have hone : policyStart.occurrences (failurePage message (some p)) = 1 := by
    rw [occurrences_failurePage (by simp), occurrences_policyLine]
  rw [failurePage_eq, List.append_assoc, List.cons_append] at hone ⊢
  exact policyOf?_join p (by simp) hone

variable (document : Document) (theme : Theme) (content : List Markup)

theorem policyOf?_assemble (p : Policy) :
    policyOf? (assemble document theme (some p) content) = some (readDirectives p.directives) := by
  have hmem : policyStart ∈ pageMarkers := by simp [pageMarkers]
  have hscript := (clear_scriptLine List.mem_cons_self (some p)).absent
  have hfixed := total_occurrences_wholeMarkers.2 policyStart List.mem_cons_self
  have hone : policyStart.occurrences (assemble document theme (some p) content) = 1 := by
    rw [occurrences_assemble _ _ _ _ hmem, occurrences_policyLine, hscript, hfixed]
  rw [assemble_eq, pageLines, headLines, List.append_assoc, List.cons_append] at hone ⊢
  exact policyOf?_join p (by simp) hone

/-- The lines of a page in front of its script. -/
def contentLines (document : Document) (theme : Theme) (policy : Option Policy)
    (content : List Markup) : List Text :=
  headLines (pageTitle document) theme policy ++ headerStart ::
    (headerLines (headerTitle document) document.properties? ++
      [headerStop, mainStart, Markup.writeAll content, mainStop])

theorem pageLines_eq (policy : Option Policy) : pageLines document theme policy content
    = contentLines document theme policy content ++ endLines policy := by
  simp only [pageLines, contentLines, List.append_assoc, List.cons_append, List.nil_append]

theorem clear_contentLines (policy : Option Policy) :
    ∀ line ∈ contentLines document theme policy content, Clear nonceStart line := by
  have hscript : nonceStart ∈ scriptMarkers ++ lineMarkers := by simp [scriptMarkers]
  have h : nonceStart ∈ pageMarkers := List.mem_cons_of_mem _ (List.mem_append_right _ hscript)
  have htags := clear_markers.2.2.2
  simp only [List.forall_mem_cons] at htags
  obtain ⟨hstart, hstop, hmain, hmain', -⟩ := htags
  have hhead := clear_headLines hscript (pageTitle document) theme policy
  have hheader := clear_headerLines h (headerTitle document) document.properties?
  simp only [contentLines, List.forall_mem_append, List.forall_mem_cons]
  exact ⟨hhead, hstart, hheader, hstop, hmain, clear_writeAll h content, hmain',
    List.forall_mem_nil _⟩

theorem nonceOf?_assemble (p : Policy) :
    nonceOf? (assemble document theme (some p) content) = some p.nonce := by
  have hmem : nonceStart ∈ pageMarkers := by simp [pageMarkers, tagMarkers, scriptMarkers]
  have hmarker := isMarker_of_mem hmem
  have hone : scriptStart.occurrences (assemble document theme (some p) content) = 1 :=
    occurrences_assemble_eq_one _ _ _ _ (by simp)
  have hbefore := clear_contentLines document theme content (some p)
  have hquote : '"' ∉ escape p.nonce := Lexeme.not_mem_escape (by decide) _
  obtain ⟨rest, hrest, hend⟩ : ∃ rest ≠ [], endLines (some p) = scriptLine (some p) :: rest :=
    ⟨_, List.cons_ne_nil _ _, rfl⟩
  have hvalue := valueBehind?_append hmarker (Clear.unlines hmarker hbefore) hquote
    (">".toList ++ '\n' :: Text.join ['\n'] rest)
  have hpage : assemble document theme (some p) content
      = Text.unlines (contentLines document theme (some p) content) ++ (nonceStart
        ++ (escape p.nonce ++ '"' :: (">".toList ++ '\n' :: Text.join ['\n'] rest))) := by
    rw [assemble_eq, pageLines_eq, hend, Text.join_append hrest, scriptLine_eq]
    simp only [List.append_assoc, List.cons_append]
  rw [nonceOf?, if_pos hone, hpage, hvalue]
  exact decode?_escape _

/-- Every page carries the policy of its host and its script the nonce; what is allowed is what was
meant exactly for plain hosts. -/
theorem policy_isStrict_iff (p : Policy) :
    (∀ (options : PageOptions) (document : Document),
      let page := (renderPage { options with policy := some p } document).html
      nonceOf? page = some p.nonce
        ∧ ∃ directives, policyOf? page = some directives
          ∧ (IsStrict p.nonce directives ↔ p.IsPlain))
    ∧ ∀ message : Text, ∃ directives, policyOf? (failurePage message (some p)) = some directives
      ∧ (IsStrict p.nonce directives ↔ p.IsPlain) :=
  ⟨fun _ _ => ⟨nonceOf?_assemble _ _ _ p, _, policyOf?_assemble _ _ _ p, p.isStrict_iff⟩,
    fun _ => ⟨_, policyOf?_failurePage _ p, p.isStrict_iff⟩⟩

/-- A source of images that goes on with scripts from anywhere. -/
def wideningHost : Policy := ⟨"n".toList, "*; script-src *".toList⟩

set_option maxRecDepth 10000 in
theorem wideningHost_not_isStrict :
    ∃ directives, policyOf? (failurePage "m".toList (some wideningHost)) = some directives
      ∧ ⟨"script-src".toList, ["*".toList, "https:".toList, "data:".toList]⟩ ∈ directives
      ∧ ¬ IsStrict wideningHost.nonce directives := by
  obtain ⟨directives, hpolicy, hstrict⟩ := (policy_isStrict_iff wideningHost).2 "m".toList
  refine ⟨directives, hpolicy, ?_, fun h => absurd (hstrict.1 h).source (by decide)⟩
  rw [policyOf?_failurePage, Option.some.injEq] at hpolicy
  rw [← hpolicy]
  decide

end BlockDocument.Html
