import BlockDocument.Html.Markup

/-!
# Reading written content

Written content is read back from the left, without knowing how it was made: `<` begins a tag
that ends at the next `>`, `&` begins an entity that ends at the next `;`, and any other character
stands for itself. What is read is a sequence of lexemes that say what was written, letter for
letter (`flatMap_source_of_readAll`).

Content that was written as markup is read as the lexemes of that markup (`readAll_writeAll`).
-/

namespace BlockDocument

namespace Text

theorem splitFirst_eq_some {mark : Char} : ∀ {t before after : Text},
    splitFirst mark t = some (before, after) → t = before ++ mark :: after
  | [], before, after, h => by simp [splitFirst] at h
  | c :: t, before, after, h => by
    simp only [splitFirst] at h
    split at h
    · rename_i hc
      simp only [Option.some.injEq, Prod.mk.injEq] at h
      obtain ⟨rfl, rfl⟩ := h
      rw [hc, List.nil_append]
    · simp only [Option.map_eq_some_iff, Prod.mk.injEq] at h
      obtain ⟨⟨b, a⟩, hs, rfl, rfl⟩ := h
      rw [splitFirst_eq_some hs, List.cons_append]

theorem splitFirst_append {mark : Char} {after : Text} : ∀ {before : Text}, mark ∉ before →
    splitFirst mark (before ++ mark :: after) = some (before, after)
  | [], _ => by simp [splitFirst]
  | c :: before, h => by
    simp only [List.mem_cons, not_or] at h
    rw [List.cons_append, splitFirst, if_neg (Ne.symm h.1), splitFirst_append h.2]
    rfl

theorem length_splitFirst {mark : Char} {t before after : Text}
    (h : splitFirst mark t = some (before, after)) : after.length < t.length := by
  rw [splitFirst_eq_some h, List.length_append, List.length_cons]
  omega

end Text

namespace Html

/-- A piece of written content, with all that is in it as it is written. -/
inductive Lexeme
  | char (c : Char)
  | entity (name : Text)
  | opening (name : Text) (attributes : List (Text × Text))
  | closing (name : Text)
  | void (name : Text) (attributes : List (Text × Text))
  deriving DecidableEq, Repr

namespace Lexeme

/-- The name of the element that a tag belongs to. -/
def name? : Lexeme → Option Text
  | opening name _ | closing name | void name _ => some name
  | char _ | entity _ => none

/-! ## Reading -/

/-- Reads the attributes that a text begins with, and gives what is left of it. -/
def readAttributes (t : Text) : List (Text × Text) × Text :=
  match t with
  | ' ' :: behindBlank =>
    match _name : Text.splitFirst '=' behindBlank with
    | some (name, '"' :: behindQuote) =>
      match _value : Text.splitFirst '"' behindQuote with
      | some (value, rest) =>
        let more := readAttributes rest
        ((name, value) :: more.1, more.2)
      | none => ([], t)
    | _ => ([], t)
  | _ => ([], t)
termination_by t.length
decreasing_by
  have h1 := Text.length_splitFirst _name
  have h2 := Text.length_splitFirst _value
  simp only [List.length_cons] at h1 ⊢
  omega

/-- Reads what stands between `<` and `>`. -/
def readTag? : Text → Option Lexeme
  | '/' :: name => some (.closing name)
  | inside =>
    let name := inside.takeWhile (· != ' ')
    let read := readAttributes (inside.dropWhile (· != ' '))
    if read.2 = [] then some (.opening name read.1)
    else if read.2 = " /".toList then some (.void name read.1)
    else none

/-- Reads written content. -/
def readAll : Text → Option (List Lexeme)
  | [] => some []
  | '<' :: rest =>
    match _tag : Text.splitFirst '>' rest with
    | some (inside, rest) =>
      match readTag? inside with
      | some tag => (readAll rest).map (tag :: ·)
      | none => none
    | none => none
  | '&' :: rest =>
    match _entity : Text.splitFirst ';' rest with
    | some (name, rest) => (readAll rest).map (.entity name :: ·)
    | none => none
  | c :: rest => (readAll rest).map (.char c :: ·)
termination_by t => t.length
decreasing_by
  · exact Nat.lt_succ_of_lt (Text.length_splitFirst _tag)
  · exact Nat.lt_succ_of_lt (Text.length_splitFirst _entity)
  · simp

/-! ## What is read is what was written -/

/-- An attribute as it is written in front of the end of its tag. -/
def attributeSource (a : Text × Text) : Text :=
  ' ' :: a.1 ++ "=\"".toList ++ a.2 ++ "\"".toList

/-- A lexeme as it is written. -/
def source : Lexeme → Text
  | char c => [c]
  | entity name => '&' :: name ++ [';']
  | opening name attributes => '<' :: name ++ attributes.flatMap attributeSource ++ ">".toList
  | closing name => "</".toList ++ name ++ ">".toList
  | void name attributes => '<' :: name ++ attributes.flatMap attributeSource ++ " />".toList

theorem source_of_readAttributes (t : Text) :
    (readAttributes t).1.flatMap attributeSource ++ (readAttributes t).2 = t := by
  fun_induction readAttributes t with
  | case1 behindBlank name behindQuote hn value rest hv more ih =>
    rw [Text.splitFirst_eq_some hn, Text.splitFirst_eq_some hv]
    simp only [List.flatMap_cons, attributeSource, List.append_assoc, List.cons_append]
    rw [show more = readAttributes rest from rfl, ih]
    rfl
  | case2 | case3 | case4 => rfl

theorem source_of_readTag? {inside : Text} {tag : Lexeme} (h : readTag? inside = some tag) :
    tag.source = '<' :: inside ++ ">".toList := by
  unfold readTag? at h
  split at h
  · cases h
    rfl
  · have hs := source_of_readAttributes (inside.dropWhile (· != ' '))
    have hi : inside.takeWhile (· != ' ') ++ inside.dropWhile (· != ' ') = inside :=
      List.takeWhile_append_dropWhile
    simp only at h
    split at h
    · rename_i hr
      cases h
      rw [hr, List.append_nil] at hs
      rw [source, hs, List.cons_append, hi]
    · split at h
      · rename_i hr
        cases h
        rw [hr] at hs
        rw [source, show " />".toList = " /".toList ++ ">".toList from rfl, ← List.append_assoc,
          List.append_assoc ('<' :: _), hs, List.cons_append, hi]
      · cases h

/-- Nothing is passed over: the lexemes that are read say what was written. -/
theorem flatMap_source_of_readAll {t : Text} : ∀ {lexemes : List Lexeme},
    readAll t = some lexemes → lexemes.flatMap source = t := by
  fun_induction readAll t with
  | case1 =>
    intro lexemes h
    cases h
    rfl
  | case2 rest inside behind hs tag ht ih =>
    intro lexemes h
    obtain ⟨more, hm, rfl⟩ := Option.map_eq_some_iff.1 h
    rw [List.flatMap_cons, ih hm, source_of_readTag? ht, Text.splitFirst_eq_some hs]
    simp
  | case3 | case4 =>
    intro lexemes h
    cases h
  | case5 rest name behind hs ih =>
    intro lexemes h
    obtain ⟨more, hm, rfl⟩ := Option.map_eq_some_iff.1 h
    rw [List.flatMap_cons, ih hm, source, Text.splitFirst_eq_some hs]
    simp
  | case6 =>
    intro lexemes h
    cases h
  | case7 c rest _ _ ih =>
    intro lexemes h
    obtain ⟨more, hm, rfl⟩ := Option.map_eq_some_iff.1 h
    rw [List.flatMap_cons, ih hm]
    rfl

/-! ## Reading tags -/

/-- A name that ends where a tag's attributes, an attribute's value or the tag itself goes on. -/
def IsName (name : Text) : Prop := ∀ c ∈ name, c ∉ [' ', '"', '/', '=', '>']

instance (name : Text) : Decidable (IsName name) :=
  List.decidableBAll (fun c => c ∉ [' ', '"', '/', '=', '>']) name

/-- A value that ends at the next quote, inside the tag. -/
def IsValue (value : Text) : Prop := '"' ∉ value ∧ '>' ∉ value

/-- Attributes that can be told from each other and from what follows them. -/
def AreAttributes (attributes : List (Text × Text)) : Prop :=
  ∀ a ∈ attributes, IsName a.1 ∧ IsValue a.2

theorem readAttributes_append {tail : Text} (ht : readAttributes tail = ([], tail)) :
    ∀ {attributes : List (Text × Text)}, AreAttributes attributes →
      readAttributes (attributes.flatMap attributeSource ++ tail) = (attributes, tail)
  | [], _ => ht
  | (name, value) :: attributes, h => by
    obtain ⟨⟨hn, hv⟩, hs⟩ := List.forall_mem_cons.1 h
    have hname : '=' ∉ name := fun hc => hn _ hc (by simp)
    have hsplit : (((name, value) :: attributes).flatMap attributeSource ++ tail)
        = ' ' :: (name ++ '=' :: '"' :: (value ++ '"' ::
          (attributes.flatMap attributeSource ++ tail))) := by
      simp [attributeSource]
    rw [hsplit, readAttributes]
    split
    · rename_i n behind hf
      rw [Text.splitFirst_append hname] at hf
      simp only [Option.some.injEq, Prod.mk.injEq, List.cons.injEq, true_and] at hf
      obtain ⟨rfl, rfl⟩ := hf
      split
      · rename_i v rest hf
        rw [Text.splitFirst_append hv.1] at hf
        simp only [Option.some.injEq, Prod.mk.injEq] at hf
        obtain ⟨rfl, rfl⟩ := hf
        rw [readAttributes_append ht hs]
      · rename_i hf
        rw [Text.splitFirst_append hv.1] at hf
        cases hf
    · rename_i hf
      exact absurd (Text.splitFirst_append hname) (hf _ _)

theorem takeWhile_name {name rest : Text} (hn : IsName name)
    (hr : rest.head? = some ' ' ∨ rest = []) :
    (name ++ rest).takeWhile (· != ' ') = name ∧ (name ++ rest).dropWhile (· != ' ') = rest := by
  have hname : ∀ c ∈ name, (c != ' ') = true := by
    intro c hc
    have := hn c hc
    simp only [List.mem_cons, not_or] at this
    simpa using this.1
  rw [List.takeWhile_append_of_pos hname, List.dropWhile_append_of_pos hname]
  rcases hr with hr | rfl
  · rcases rest with _ | ⟨c, rest⟩
    · simp
    · simp only [List.head?_cons, Option.some.injEq] at hr
      subst hr
      simp
  · simp

theorem head_attributes (attributes : List (Text × Text)) (tail : Text)
    (ht : tail.head? = some ' ' ∨ tail = []) :
    (attributes.flatMap attributeSource ++ tail).head? = some ' '
      ∨ attributes.flatMap attributeSource ++ tail = [] := by
  rcases attributes with _ | ⟨a, attributes⟩
  · exact ht
  · exact .inl rfl

theorem readTag?_of_name {name rest : Text} (hn : IsName name)
    (hr : rest.head? = some ' ' ∨ rest = []) :
    readTag? (name ++ rest) =
      if (readAttributes rest).2 = [] then some (.opening name (readAttributes rest).1)
      else if (readAttributes rest).2 = " /".toList then some (.void name (readAttributes rest).1)
      else none := by
  obtain ⟨h1, h2⟩ := takeWhile_name hn hr
  unfold readTag?
  split
  · rename_i closing hs
    rcases name with _ | ⟨c, name⟩
    · rcases hr with hr | rfl
      · rw [List.nil_append] at hs
        simp [hs] at hr
      · simp at hs
    · simp only [List.cons_append, List.cons.injEq] at hs
      exact absurd hs.1 fun hc => hn c (by simp) (by simp [hc])
  · simp only [h1, h2]

theorem readTag?_opening {name : Text} {attributes : List (Text × Text)} (hn : IsName name)
    (ha : AreAttributes attributes) :
    readTag? (name ++ attributes.flatMap attributeSource) = some (.opening name attributes) := by
  have ht : readAttributes [] = ([], []) := by simp [readAttributes]
  have hr := readAttributes_append ht ha
  have hh := head_attributes attributes [] (.inr rfl)
  rw [List.append_nil] at hr hh
  rw [readTag?_of_name hn hh, hr, if_pos rfl]

theorem readTag?_void {name : Text} {attributes : List (Text × Text)} (hn : IsName name)
    (ha : AreAttributes attributes) :
    readTag? (name ++ (attributes.flatMap attributeSource ++ " /".toList))
      = some (.void name attributes) := by
  have ht : readAttributes " /".toList = ([], " /".toList) := by
    rw [show " /".toList = [' ', '/'] from rfl, readAttributes]
    simp [Text.splitFirst]
  have hh := head_attributes attributes " /".toList (.inl rfl)
  rw [readTag?_of_name hn hh, readAttributes_append ht ha, if_neg (by simp), if_pos rfl]

theorem readAll_tag {inside rest : Text} {tag : Lexeme} (hi : '>' ∉ inside)
    (ht : readTag? inside = some tag) :
    readAll ('<' :: (inside ++ '>' :: rest)) = (readAll rest).map (tag :: ·) := by
  rw [readAll]
  split
  · rename_i i behind hs
    rw [Text.splitFirst_append hi] at hs
    simp only [Option.some.injEq, Prod.mk.injEq] at hs
    obtain ⟨rfl, rfl⟩ := hs
    rw [ht]
  · rename_i hs
    rw [Text.splitFirst_append hi] at hs
    cases hs

theorem not_mem_attributes {attributes : List (Text × Text)} (ha : AreAttributes attributes) :
    '>' ∉ attributes.flatMap attributeSource := by
  intro hc
  obtain ⟨a, hm, hc⟩ := List.mem_flatMap.1 hc
  obtain ⟨hn, hv⟩ := ha a hm
  simp only [attributeSource, List.cons_append, List.mem_cons, List.mem_append] at hc
  rcases hc with hc | ((hc | hc) | hc) | hc
  · simp at hc
  · exact hn _ hc (by simp)
  · simp at hc
  · exact hv.2 hc
  · simp at hc

theorem not_mem_name {name : Text} (hn : IsName name) : '>' ∉ name :=
  fun hc => hn _ hc (by simp)

theorem readAll_opening {name : Text} {attributes : List (Text × Text)} (hn : IsName name)
    (ha : AreAttributes attributes) (rest : Text) :
    readAll ((opening name attributes).source ++ rest)
      = (readAll rest).map (.opening name attributes :: ·) := by
  have hi : '>' ∉ name ++ attributes.flatMap attributeSource := by
    simp only [List.mem_append, not_or]
    exact ⟨not_mem_name hn, not_mem_attributes ha⟩
  rw [← readAll_tag hi (readTag?_opening hn ha)]
  simp [source]

theorem readAll_void {name : Text} {attributes : List (Text × Text)} (hn : IsName name)
    (ha : AreAttributes attributes) (rest : Text) :
    readAll ((void name attributes).source ++ rest)
      = (readAll rest).map (.void name attributes :: ·) := by
  have hi : '>' ∉ name ++ (attributes.flatMap attributeSource ++ " /".toList) := by
    simp only [List.mem_append, not_or]
    exact ⟨not_mem_name hn, not_mem_attributes ha, by simp⟩
  rw [← readAll_tag hi (readTag?_void hn ha)]
  simp [source]

theorem readAll_closing {name : Text} (hn : IsName name) (rest : Text) :
    readAll ((closing name).source ++ rest) = (readAll rest).map (.closing name :: ·) := by
  have hi : '>' ∉ '/' :: name := by
    simp only [List.mem_cons, not_or]
    exact ⟨by simp, not_mem_name hn⟩
  rw [← readAll_tag hi rfl]
  simp [source]

/-! ## Reading markup -/

/-- The characters that mean something to a reader. -/
def reserved : Text := ['&', '<', '>', '"', '\'']

/-- What may stand between `&` and `;`. -/
def entityNames : List Text := ["amp", "lt", "gt", "quot", "#39"].map String.toList

/-- A character of text as it is read back. -/
def ofChar : Char → Lexeme
  | '&' => .entity "amp".toList
  | '<' => .entity "lt".toList
  | '>' => .entity "gt".toList
  | '"' => .entity "quot".toList
  | '\'' => .entity "#39".toList
  | c => .char c

/-- An attribute as it is read back. -/
def ofAttribute (a : Attribute) : Text × Text := (a.name, escape a.value)

/-- A piece of markup as it is read back. -/
def ofMarkup : Markup → List Lexeme
  | .text content => content.map ofChar
  | .opening tag attributes => [.opening tag.name (attributes.map ofAttribute)]
  | .closing tag => [.closing tag.name]
  | .image url alternative =>
    [.void "img".toList [("src".toList, escape url), ("alt".toList, escape alternative)]]

/-- A character is written as one of the entities, or it is not reserved and stands for itself. -/
theorem ofChar_cases (c : Char) :
    (∃ name ∈ entityNames, ofChar c = .entity name ∧ Html.entity c = '&' :: name ++ [';'])
      ∨ c ∉ reserved ∧ ofChar c = .char c ∧ Html.entity c = [c] := by
  by_cases hc : c ∈ reserved
  · refine .inl ?_
    simp only [reserved, List.mem_cons, List.not_mem_nil, or_false] at hc
    rcases hc with rfl | rfl | rfl | rfl | rfl
    · exact ⟨"amp".toList, by decide, rfl, rfl⟩
    · exact ⟨"lt".toList, by decide, rfl, rfl⟩
    · exact ⟨"gt".toList, by decide, rfl, rfl⟩
    · exact ⟨"quot".toList, by decide, rfl, rfl⟩
    · exact ⟨"#39".toList, by decide, rfl, rfl⟩
  · refine .inr ⟨hc, ?_, ?_⟩
    · unfold ofChar
      split <;> first | rfl | exact absurd (by decide) hc
    · unfold Html.entity
      split <;> first | rfl | exact absurd (by decide) hc

theorem ofChar_injective {c d : Char} (h : ofChar c = ofChar d) : c = d := by
  unfold ofChar at h
  split at h <;> split at h <;> simp_all

theorem source_ofChar (c : Char) : (ofChar c).source = Html.entity c := by
  rcases ofChar_cases c with ⟨name, -, ho, he⟩ | ⟨-, ho, he⟩
  · rw [ho, he]
    rfl
  · rw [ho, he]
    rfl

theorem readAll_entity (c : Char) (rest : Text) :
    readAll (Html.entity c ++ rest) = (readAll rest).map (ofChar c :: ·) := by
  rcases ofChar_cases c with ⟨name, hn, ho, he⟩ | ⟨hc, ho, he⟩
  · have hname : ∀ name ∈ entityNames, ';' ∉ name := by decide
    replace hname := hname name hn
    rw [ho, he, List.append_assoc, List.cons_append, readAll]
    split
    · rename_i n behind hs
      rw [List.singleton_append, Text.splitFirst_append hname] at hs
      simp only [Option.some.injEq, Prod.mk.injEq] at hs
      obtain ⟨rfl, rfl⟩ := hs
      rfl
    · rename_i hs
      rw [List.singleton_append, Text.splitFirst_append hname] at hs
      cases hs
  · rw [ho, he, List.singleton_append, readAll]
    · rintro rfl
      exact hc (by decide)
    · rintro rfl
      exact hc (by decide)

theorem readAll_escape (rest : Text) : ∀ t : Text,
    readAll (escape t ++ rest) = (readAll rest).map (t.map ofChar ++ ·)
  | [] => by simp
  | c :: t => by
    rw [escape_cons, List.append_assoc, readAll_entity, readAll_escape rest t, Option.map_map]
    rfl

theorem isName_tag (tag : Tag) : IsName tag.name := by
  cases tag <;> decide

theorem isName_attribute : ∀ a : Attribute, IsName a.name
  | .className _ => show IsName "class".toList by decide
  | .colspan _ => show IsName "colspan".toList by decide
  | .href _ => show IsName "href".toList by decide
  | .rel _ => show IsName "rel".toList by decide
  | .style _ => show IsName "style".toList by decide
  | .target _ => show IsName "target".toList by decide

/-- No reserved character but `&` is left in text as it is written. -/
theorem not_mem_escape {c : Char} (hc : c ∈ ['<', '>', '"', '\'']) (t : Text) : c ∉ escape t := by
  intro hm
  obtain ⟨d, -, hd⟩ := List.mem_flatMap.1 hm
  rcases ofChar_cases d with ⟨name, hn, -, he⟩ | ⟨hr, -, he⟩ <;> rw [he] at hd
  · have hname : ∀ name ∈ entityNames,
        ('&' :: name ++ [';']).filter (· ∈ ['<', '>', '"', '\'']) = [] := by decide
    exact List.filter_eq_nil_iff.1 (hname name hn) c hd (decide_eq_true hc)
  · rw [List.mem_singleton] at hd
    subst hd
    exact hr (List.mem_cons_of_mem _ hc)

theorem isValue_escape (t : Text) : IsValue (escape t) :=
  ⟨not_mem_escape (by decide) t, not_mem_escape (by decide) t⟩

theorem areAttributes_ofAttribute (attributes : List Attribute) :
    AreAttributes (attributes.map ofAttribute) := by
  intro a ha
  obtain ⟨b, -, rfl⟩ := List.mem_map.1 ha
  exact ⟨isName_attribute b, isValue_escape b.value⟩

theorem write_eq_source (m : Markup) : m.write = (ofMarkup m).flatMap source := by
  cases m with
  | text content =>
    show content.flatMap Html.entity = (content.map ofChar).flatMap source
    rw [List.flatMap_map]
    exact congrArg (List.flatMap · content) (funext fun c => (source_ofChar c).symm)
  | opening tag attributes =>
    have hs : (attributes.map ofAttribute).flatMap attributeSource
        = attributes.flatMap fun a => writeAttribute a.name a.value :=
      List.flatMap_map ..
    show _ = (opening tag.name (attributes.map ofAttribute)).source ++ []
    rw [List.append_nil, source, hs]
    rfl
  | closing tag =>
    show _ = (closing tag.name).source ++ []
    rw [List.append_nil]
    rfl
  | image url alternative =>
    show _ = (void _ _).source ++ []
    rw [List.append_nil, source]
    simp only [List.flatMap_cons, List.flatMap_nil, List.append_nil, ← List.append_assoc]
    rfl

theorem readAll_write (m : Markup) (rest : Text) :
    readAll (m.write ++ rest) = (readAll rest).map (ofMarkup m ++ ·) := by
  cases m with
  | text content => exact readAll_escape rest content
  | opening tag attributes =>
    rw [write_eq_source]
    simpa [ofMarkup] using
      readAll_opening (isName_tag tag) (areAttributes_ofAttribute attributes) rest
  | closing tag =>
    rw [write_eq_source]
    simpa [ofMarkup] using readAll_closing (isName_tag tag) rest
  | image url alternative =>
    have hn : ∀ name ∈ ["img".toList, "src".toList, "alt".toList], IsName name := by decide
    have ha : AreAttributes [("src".toList, escape url), ("alt".toList, escape alternative)] := by
      intro a ha
      simp only [List.mem_cons, List.not_mem_nil, or_false] at ha
      rcases ha with rfl | rfl
      · exact ⟨hn _ (by simp), isValue_escape url⟩
      · exact ⟨hn _ (by simp), isValue_escape alternative⟩
    rw [write_eq_source]
    simpa [ofMarkup] using readAll_void (hn _ (by simp)) ha rest

/-- What was written as markup is read as that markup. -/
theorem readAll_writeAll : ∀ ms : List Markup,
    readAll (Markup.writeAll ms) = some (ms.flatMap ofMarkup)
  | [] => by simp [readAll]
  | m :: ms => by
    rw [Markup.writeAll_cons, readAll_write, readAll_writeAll ms]
    rfl

end Lexeme

/-- Text without reserved characters is written as it is. -/
theorem escape_eq_self : ∀ {t : Text}, (∀ c ∈ t, c ∉ Lexeme.reserved) → escape t = t
  | [], _ => rfl
  | c :: t, h => by
    obtain ⟨hc, ht⟩ := List.forall_mem_cons.1 h
    have hentity : entity c = [c] := by
      unfold entity
      split <;> first | rfl | exact absurd (by decide) hc
    rw [escape_cons, hentity, escape_eq_self ht]
    rfl

theorem escape_ofNat (n : Nat) : escape (Text.ofNat n) = Text.ofNat n := by
  have hreserved : Lexeme.reserved.filter Char.isDigit = [] := by decide
  refine escape_eq_self fun c hc hr => ?_
  have hdigit : c.isDigit = true := Nat.isDigit_of_mem_toDigits (by decide) (by decide) hc
  exact List.filter_eq_nil_iff.1 hreserved c hr hdigit

/-- Text can be told from how it is written. -/
theorem escape_injective {s t : Text} (h : escape s = escape t) : s = t := by
  have hs := Lexeme.readAll_escape [] s
  rw [h, Lexeme.readAll_escape [] t] at hs
  simp only [Lexeme.readAll, Option.map_some, List.append_nil, Option.some.injEq] at hs
  exact (List.map_inj_right fun _ _ => Lexeme.ofChar_injective).1 hs.symm

/-! ## Text that is read back -/

namespace Lexeme

/-- The character that a lexeme stands for, if it is no tag. -/
def char? : Lexeme → Option Char
  | char c => some c
  | entity name =>
    [("amp".toList, '&'), ("lt".toList, '<'), ("gt".toList, '>'), ("quot".toList, '"'),
      ("#39".toList, '\'')].lookup name
  | _ => none

theorem char?_ofChar (c : Char) : (ofChar c).char? = some c := by
  unfold ofChar
  split <;> rfl

theorem mapM_char?_ofChar : ∀ t : Text, (t.map ofChar).mapM char? = some t
  | [] => rfl
  | c :: t => by
    rw [List.map_cons, List.mapM_cons, char?_ofChar, mapM_char?_ofChar t]
    rfl

end Lexeme

/-- The text that is written between tags or in an attribute, with its entities read once. -/
def decode? (t : Text) : Option Text := (Lexeme.readAll t).bind (·.mapM Lexeme.char?)

theorem decode?_escape (t : Text) : decode? (escape t) = some t := by
  have hread := Lexeme.readAll_writeAll [.text t]
  have hwrite : Markup.writeAll [.text t] = escape t := List.append_nil _
  have hchars : [Markup.text t].flatMap Lexeme.ofMarkup = t.map Lexeme.ofChar := List.append_nil _
  rw [hwrite, hchars] at hread
  rw [decode?, hread]
  exact Lexeme.mapM_char?_ofChar t

end Html

end BlockDocument
