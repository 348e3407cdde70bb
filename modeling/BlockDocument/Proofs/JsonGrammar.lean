import BlockDocument.Proofs.DocumentValues

/-!
# The grammar of JSON

`IsElement` says which texts are a JSON value with blank characters around it, and how deeply the
arrays and objects in it are nested. It asks only for the form: numbers may be of any size, and a
string may hold one half of a surrogate pair. So some elements cannot be read, but all of them can
be passed over.

What a value without items or members is read as, if it is not refused, depends on its text alone
(`exists_scans_scalar`).
-/

namespace BlockDocument.Json

variable {ε α : Type}

/-! ## The grammar -/

/-- That a text has no other characters than those that may stand between tokens. -/
def IsSpacing (t : Text) : Prop := ∀ c ∈ t, Cursor.isSpace c = true

instance (t : Text) : Decidable (IsSpacing t) :=
  List.decidableBAll (fun c => Cursor.isSpace c = true) t

/-- That a text is one or more digits. -/
def IsDigits (t : Text) : Prop := t ≠ [] ∧ ∀ c ∈ t, Text.isDigit c = true

instance (t : Text) : Decidable (IsDigits t) :=
  @instDecidableAnd _ _ inferInstance (List.decidableBAll (fun c => Text.isDigit c = true) t)

/-- What may stand between the quotes of a string. -/
inductive IsCharacters : Text → Prop
  | nil : IsCharacters []
  | plain {c : Char} {t : Text} (hquote : c ≠ '"') (hbackslash : c ≠ '\\') (hc : 0x20 ≤ c.toNat)
      (ht : IsCharacters t) : IsCharacters (c :: t)
  | escape {c : Char} {t : Text} (hc : c ∈ ['"', '\\', '/', 'b', 'f', 'n', 'r', 't'])
      (ht : IsCharacters t) : IsCharacters ('\\' :: c :: t)
  | unit {digits t : Text} (hlength : digits.length = 4)
      (hdigits : ∀ c ∈ digits, (Text.hexValue? c).isSome = true) (ht : IsCharacters t) :
      IsCharacters ('\\' :: 'u' :: (digits ++ t))

/-- What may stand behind the digits of a number, or behind those of its fraction. -/
inductive IsExponent : Text → Prop
  | none : IsExponent []
  | some {mark : Char} {sign digits : Text} (hmark : mark = 'e' ∨ mark = 'E')
      (hsign : sign = [] ∨ sign = ['+'] ∨ sign = ['-']) (hdigits : IsDigits digits) :
      IsExponent (mark :: (sign ++ digits))

/-- What may stand behind the digits of a number. -/
inductive IsNumberEnd : Text → Prop
  | exponent {t : Text} (ht : IsExponent t) : IsNumberEnd t
  | fraction {digits t : Text} (hdigits : IsDigits digits) (ht : IsExponent t) :
      IsNumberEnd ('.' :: (digits ++ t))

/-- That a text is a number without a sign. Only zero begins with a zero. -/
inductive IsUnsigned : Text → Prop
  | mk {digits t : Text} (hdigits : IsDigits digits)
      (hzero : digits.head? = some '0' → digits = ['0']) (ht : IsNumberEnd t) :
      IsUnsigned (digits ++ t)

/-- That a text is a JSON value other than an array or an object. -/
inductive IsScalar : Text → Prop
  | word {t : Text} (ht : t ∈ ["null".toList, "true".toList, "false".toList]) : IsScalar t
  | positive {t : Text} (ht : IsUnsigned t) : IsScalar t
  | negative {t : Text} (ht : IsUnsigned t) : IsScalar ('-' :: t)
  | text {t : Text} (ht : IsCharacters t) : IsScalar ('"' :: (t ++ ['"']))

/-- A member of an object as it is written: the characters of its key with what stands around the
quotes, and its value behind the colon. -/
structure Member where
  before : Text := []
  key : Text
  behind : Text := []
  value : Text
  deriving DecidableEq, Repr

/-- The text of a member. -/
def Member.source (m : Member) : Text :=
  m.before ++ '"' :: (m.key ++ '"' :: (m.behind ++ ':' :: m.value))

/-- That only blank characters stand around the key of a member, which is such a key. -/
structure Member.HasKey (IsKey : Text → Prop) (m : Member) : Prop where
  before : IsSpacing m.before
  key : IsKey m.key
  behind : IsSpacing m.behind

/-- Parts between two brackets, with a comma between each two of them. The blank characters behind
the first bracket matter only if there are no parts. -/
def enclosed (opener closer : Char) (space : Text) (parts : List Text) : Text :=
  opener :: (space ++ (Text.join [','] parts ++ [closer]))

/-- The text of an array. -/
def arraySource (space : Text) (items : List Text) : Text := enclosed '[' ']' space items

/-- The text of an object. -/
def objectSource (space : Text) (members : List Member) : Text :=
  enclosed '{' '}' space (members.map Member.source)

/-- That a text is a JSON value, nested no deeper than `depth`, with blank characters around. -/
inductive IsElement : (depth : Nat) → Text → Prop
  | scalar {depth : Nat} {t : Text} (ht : IsScalar t) : IsElement depth t
  | array {depth : Nat} {space : Text} {items : List Text} (hspace : IsSpacing space)
      (hitems : ∀ t ∈ items, IsElement depth t) : IsElement (depth + 1) (arraySource space items)
  | object {depth : Nat} {space : Text} {members : List Member} (hspace : IsSpacing space)
      (hkeys : ∀ m ∈ members, m.HasKey IsCharacters)
      (hvalues : ∀ m ∈ members, IsElement depth m.value) :
      IsElement (depth + 1) (objectSource space members)
  | spaced {depth : Nat} {before t after : Text} (hbefore : IsSpacing before)
      (ht : IsElement depth t) (hafter : IsSpacing after) :
      IsElement depth (before ++ (t ++ after))

/-! ## Where a cursor stands -/

/-- That a cursor stands in front of a text, up to blank characters. -/
def Cursor.Stands (c : Cursor) (t : Text) : Prop := c.skipSpace.rest = t.dropWhile Cursor.isSpace

/-- That nothing stands in front of a text that a number could go on with. -/
def Ends (t : Text) : Prop :=
  ∀ d ∈ t.head?, Text.isDigit d = false ∧ d ≠ '.' ∧ d ≠ 'e' ∧ d ≠ 'E'

/-- That what stands in front of a text is closed by a comma or a bracket, or by its end. -/
def Closes (t : Text) : Prop :=
  ∀ d ∈ (t.dropWhile Cursor.isSpace).head?, d = ',' ∨ d = ']' ∨ d = '}'

theorem Closes.ends {t : Text} (h : Closes t) : Ends t := by
  intro d hd
  by_cases hspace : Cursor.isSpace d
  · simp only [Cursor.isSpace, Bool.or_eq_true, beq_iff_eq] at hspace
    obtain ((rfl | rfl) | rfl) | rfl := hspace <;> decide
  · obtain ⟨s, rfl⟩ := List.head?_eq_some_iff.1 hd
    rw [Closes, List.dropWhile_cons_of_neg hspace] at h
    obtain rfl | rfl | rfl := h d rfl <;> decide

theorem dropWhile_spacing {space : Text} (h : IsSpacing space) (t : Text) :
    (space ++ t).dropWhile Cursor.isSpace = t.dropWhile Cursor.isSpace :=
  List.dropWhile_append_of_pos h

theorem dropWhile_cons {c : Char} (h : Cursor.isSpace c = false) (t : Text) :
    (c :: t).dropWhile Cursor.isSpace = c :: t :=
  List.dropWhile_cons_of_neg (Bool.eq_false_iff.1 h)

theorem Closes.spacing {space t : Text} (hspace : IsSpacing space) :
    Closes (space ++ t) ↔ Closes t := by
  rw [Closes, Closes, dropWhile_spacing hspace]

namespace Cursor.Stands

variable {c : Cursor} {t : Text}

theorem of_rest (h : c.rest = t) : c.Stands t := by
  rw [Stands, rest_skipSpace, h]

theorem skipSpace (h : c.Stands t) : c.skipSpace.Stands t := by
  rw [Stands, skipSpace_skipSpace]
  exact h

theorem spacing {space : Text} (hs : IsSpacing space) : c.Stands (space ++ t) ↔ c.Stands t := by
  rw [Stands, Stands, dropWhile_spacing hs]

theorem rest {d : Char} (h : c.Stands (d :: t)) (hd : Cursor.isSpace d = false) :
    c.skipSpace.rest = d :: t := by
  rw [← dropWhile_cons hd]
  exact h

theorem advance {d : Char} (h : c.Stands (d :: t)) (hd : Cursor.isSpace d = false) :
    c.skipSpace.advance.rest = t := by
  rw [rest_advance, h.rest hd, List.tail_cons]

end Cursor.Stands

/-! ## Values without items or members

Such a value is read as `o`, or refused if that is nothing, whatever stands behind it. In both
cases it is passed over.
-/

/-- That a text is passed over, and read as `o`, up to its end. -/
def Scans (skip : Cursor → Outcome ε Unit) (read : Cursor → Outcome ε α) (t : Text)
    (o : Option α) : Prop :=
  ∀ (c : Cursor) (tail : Text), Ends tail → c.rest = t ++ tail →
    ∃ c', c'.rest = tail ∧ skip c = .ok ((), c') ∧ (read c).toOption = o.map (·, c')

/-- The number made of its parts, if it is small enough. -/
def realValue? (negative : Bool) (parts : RealParts) : Option Json :=
  (realOfParts? parts.significand parts.exponent).map fun x => .real (x.withSign negative)

theorem toOption_realOf (negative : Bool) (parts : RealParts) (c : Cursor) :
    (realOf negative parts c : Outcome ε Json).toOption
      = (realValue? negative parts).map (·, c) := by
  unfold realOf realValue?
  split <;> rename_i h <;> rw [h] <;> rfl

/-- The number whose exponent has the given digits. An exponent of more than 31 bits leaves
nothing of a number, or makes it too large. -/
def exponentValue? (negative minus : Bool) (parts : RealParts) (digits : Text) : Option Json :=
  let (n, extra) := absorb (Nat.pow 2 31) 0 digits
  if !extra.isEmpty then
    if parts.significand ≠ 0 && !minus then none else some (.real (.zero negative))
  else
    realValue? negative
      ⟨parts.significand, if minus then parts.exponent - n else parts.exponent + n⟩

theorem digitsAt_append {c : Cursor} {digits tail : Text} (hdigits : IsDigits digits)
    (htail : ∀ d ∈ tail.head?, Text.isDigit d = false) (hc : c.rest = digits ++ tail) :
    digitsAt c = digits ∧ (c.skip digits.length).rest = tail := by
  constructor
  · rw [digitsAt, hc, List.takeWhile_append_of_pos hdigits.2]
    rcases tail with _ | ⟨d, tail⟩
    · rw [List.takeWhile_nil, List.append_nil]
    · rw [List.takeWhile_cons_of_neg (Bool.eq_false_iff.1 (htail d rfl)), List.append_nil]
  · rw [rest_skip, hc, List.drop_left]

theorem IsDigits.head {digits : Text} (h : IsDigits digits) (tail : Text) :
    ∃ d s, digits ++ tail = d :: s ∧ Text.isDigit d = true := by
  obtain ⟨d, s, rfl⟩ := List.exists_cons_of_ne_nil h.1
  exact ⟨d, s ++ tail, rfl, h.2 d (List.mem_cons_self ..)⟩

theorem IsDigits.isEmpty {digits : Text} (h : IsDigits digits) : digits.isEmpty = false :=
  Bool.eq_false_iff.2 (mt List.isEmpty_iff.1 h.1)

theorem rest_signed {c : Cursor} {sign digits tail : Text}
    (hsign : sign = [] ∨ sign = ['+'] ∨ sign = ['-']) (hdigits : IsDigits digits)
    (hc : c.rest = sign ++ (digits ++ tail)) :
    (c.rest.head? = some '-' ↔ sign = ['-']) ∧
      (if (decide (c.rest.head? = some '-') || decide (c.rest.head? = some '+')) = true
        then c.advance else c).rest = digits ++ tail := by
  obtain ⟨d, s, hs, hd⟩ := hdigits.head tail
  obtain rfl | rfl | rfl := hsign
  · have hminus : d ≠ '-' := by rintro rfl; exact absurd hd (by decide)
    have hplus : d ≠ '+' := by rintro rfl; exact absurd hd (by decide)
    rw [hc, hs]
    simp [hminus, hplus, hc, hs]
  · simp [hc, rest_advance]
  · simp [hc, rest_advance]

theorem scans_exponent {sign digits : Text} (hsign : sign = [] ∨ sign = ['+'] ∨ sign = ['-'])
    (hdigits : IsDigits digits) (negative : Bool) (parts : RealParts) :
    Scans (ε := ε) skipExponent (readExponent negative parts) (sign ++ digits)
      (exponentValue? negative (sign = ['-']) parts digits) := by
  intro c tail htail hc
  rw [List.append_assoc] at hc
  obtain ⟨hminus, hsigned⟩ := rest_signed hsign hdigits hc
  unfold skipExponent readExponent exponentValue?
  simp only [hminus] at hsigned ⊢
  generalize (if (decide (sign = ['-']) || decide (c.rest.head? = some '+')) = true
    then c.advance else c) = signed at hsigned ⊢
  obtain ⟨hat, hrest⟩ := digitsAt_append hdigits (fun d hd => (htail d hd).1) hsigned
  obtain ⟨d, s, hs, -⟩ := hdigits.head tail
  refine ⟨signed.skip digits.length, hrest, ?_⟩
  simp only [hat, hsigned, hs, hdigits.isEmpty, List.isEmpty_cons, Bool.false_eq_true, if_false,
    decide_eq_true_eq, true_and]
  rcases absorb (Nat.pow 2 31) 0 digits with ⟨n, extra⟩
  split_ifs
  · rfl
  · rfl
  · exact toOption_realOf _ _ _
  · exact toOption_realOf _ _ _

theorem Ends.ne {c : Cursor} (h : Ends c.rest) (s : Text) :
    c.rest ≠ '.' :: s ∧ c.rest ≠ 'e' :: s ∧ c.rest ≠ 'E' :: s :=
  ⟨fun hc => (h '.' (by rw [hc]; rfl)).2.1 rfl, fun hc => (h 'e' (by rw [hc]; rfl)).2.2.1 rfl,
    fun hc => (h 'E' (by rw [hc]; rfl)).2.2.2 rfl⟩

theorem skipRealEnd_of_ends {c : Cursor} (h : Ends c.rest) :
    (skipRealEnd c : Outcome ε Unit) = .ok ((), c) := by
  unfold skipRealEnd
  split
  · exact absurd ‹_› (h.ne _).2.1
  · exact absurd ‹_› (h.ne _).2.2
  · rfl

theorem readRealEnd_of_ends {c : Cursor} (h : Ends c.rest) (negative : Bool)
    (parts : RealParts) :
    (readRealEnd negative parts c : Outcome ε Json) = realOf negative parts c := by
  unfold readRealEnd
  split
  · exact absurd ‹_› (h.ne _).2.1
  · exact absurd ‹_› (h.ne _).2.2
  · rfl

theorem exists_scans_realEnd {t : Text} (ht : IsExponent t) (negative : Bool)
    (parts : RealParts) : ∃ o : Option Json,
      Scans (ε := ε) skipRealEnd (readRealEnd negative parts) t o := by
  cases ht with
  | none =>
    refine ⟨realValue? negative parts, fun c tail htail hc => ⟨c, hc, ?_⟩⟩
    rw [← (show c.rest = tail from hc)] at htail
    rw [skipRealEnd_of_ends htail, readRealEnd_of_ends htail]
    exact ⟨rfl, toOption_realOf _ _ _⟩
  | @some _ sign digits hmark hsign hdigits =>
    refine ⟨exponentValue? negative (sign = ['-']) parts digits, fun c tail htail hc => ?_⟩
    rw [List.cons_append] at hc
    obtain ⟨c', hrest, hskip, hread⟩ := scans_exponent (ε := ε) hsign hdigits negative parts
      c.advance tail htail ((rest_advance c).trans (congrArg List.tail hc))
    refine ⟨c', hrest, ?_⟩
    obtain rfl | rfl := hmark <;> simp only [skipRealEnd, readRealEnd, hc, hskip, hread, true_and]

theorem IsExponent.ends {t tail : Text} (ht : IsExponent t) (htail : Ends tail) :
    ∀ d ∈ (t ++ tail).head?, Text.isDigit d = false := by
  cases ht with
  | none => exact fun d hd => (htail d hd).1
  | some hmark =>
    rintro d ⟨⟩
    obtain rfl | rfl := hmark <;> decide

theorem exists_scans_fraction {digits t : Text} (hdigits : IsDigits digits) (ht : IsExponent t)
    (negative : Bool) (parts : RealParts) : ∃ o : Option Json,
      Scans (ε := ε) (fun c => skipRealEnd (c.skip (digitsAt c).length))
        (readFraction negative parts) (digits ++ t) o := by
  rcases habsorb : absorb Text.countBound parts.significand digits with ⟨significand, extra⟩
  obtain ⟨o, ho⟩ := exists_scans_realEnd (ε := ε) ht negative
    ⟨significand, parts.exponent - (digits.length - extra.length : Int)⟩
  refine ⟨o, fun c tail htail hc => ?_⟩
  rw [List.append_assoc] at hc
  obtain ⟨hat, hrest⟩ := digitsAt_append hdigits (ht.ends htail) hc
  simpa only [readFraction, hat, hdigits.isEmpty, habsorb, Bool.false_eq_true, if_false]
    using ho _ tail htail hrest

/-- What the readers of numbers ask for in front of digits. -/
theorem number_of_digits {c : Cursor} {digits rest : Text} (hdigits : IsDigits digits)
    (hzero : digits.head? = some '0' → digits = ['0'])
    (hrest : ∀ d ∈ rest.head?, Text.isDigit d = false) (hc : c.rest = digits ++ rest) :
    digitsAt c = digits ∧ (c.skip digits.length).rest = rest ∧ c.rest.isEmpty = false ∧
      (decide (digits.head? = some '0') && decide (digits.length > 1)) = false := by
  obtain ⟨hat, hskip⟩ := digitsAt_append hdigits hrest hc
  refine ⟨hat, hskip, ?_, ?_⟩
  · obtain ⟨d, s, hs, -⟩ := hdigits.head rest
    rw [hc, hs]
    rfl
  · rw [Bool.and_eq_false_imp]
    intro h
    rw [hzero (of_decide_eq_true h)]
    rfl

section Numbers

variable {digits t : Text} {significand : Nat} {extra : Text}

theorem exists_scans_number_fraction {fraction : Text} (hdigits : IsDigits digits)
    (hzero : digits.head? = some '0' → digits = ['0'])
    (habsorb : absorb Text.countBound 0 digits = (significand, extra))
    (hfraction : IsDigits fraction) (ht : IsExponent t) (negative : Bool) :
    ∃ o : Option Json, Scans (ε := ε) skipNumber (readNumber negative)
      (digits ++ '.' :: (fraction ++ t)) o := by
  obtain ⟨o, ho⟩ :=
    exists_scans_fraction (ε := ε) hfraction ht negative ⟨significand, extra.length⟩
  refine ⟨o, fun c tail htail hc => ?_⟩
  rw [List.append_assoc, List.cons_append] at hc
  obtain ⟨hat, hrest, hempty, hzeros⟩ :=
    number_of_digits hdigits hzero (by rintro d ⟨⟩; decide) hc
  have hadvance := (rest_advance _).trans (congrArg List.tail hrest)
  obtain ⟨c', hrest', hskip, hread⟩ := ho _ tail htail hadvance
  obtain ⟨hat', -⟩ := digitsAt_append hfraction (ht.ends htail)
    (hadvance.trans (List.append_assoc _ _ _))
  simp only [hat'] at hskip
  refine ⟨c', hrest', ?_, ?_⟩
  · simpa only [skipNumber, hat, hdigits.isEmpty, hzeros, hrest, hat', hfraction.isEmpty,
      Bool.false_eq_true, if_false] using hskip
  · simpa only [readNumber, hat, hdigits.isEmpty, hempty, hzeros, hrest, habsorb,
      Bool.false_eq_true, if_false] using hread

theorem scans_number_exponent {mark : Char} {sign exponent : Text} (hdigits : IsDigits digits)
    (hzero : digits.head? = some '0' → digits = ['0'])
    (habsorb : absorb Text.countBound 0 digits = (significand, extra))
    (hmark : mark = 'e' ∨ mark = 'E') (hsign : sign = [] ∨ sign = ['+'] ∨ sign = ['-'])
    (hexponent : IsDigits exponent) (negative : Bool) :
    Scans (ε := ε) skipNumber (readNumber negative) (digits ++ mark :: (sign ++ exponent))
      (exponentValue? negative (sign = ['-']) ⟨significand, extra.length⟩ exponent) := by
  intro c tail htail hc
  rw [List.append_assoc, List.cons_append] at hc
  obtain ⟨hat, hrest, hempty, hzeros⟩ := number_of_digits hdigits hzero
    (by rintro d ⟨⟩; obtain rfl | rfl := hmark <;> decide) hc
  obtain ⟨c', hrest', hskip, hread⟩ := scans_exponent (ε := ε) hsign hexponent negative
    ⟨significand, extra.length⟩ (c.skip digits.length).advance tail htail
    ((rest_advance _).trans (congrArg List.tail hrest))
  refine ⟨c', hrest', ?_, ?_⟩
  · simp only [skipNumber, skipRealEnd, hat, hdigits.isEmpty, hzeros, hrest, Bool.false_eq_true,
      if_false]
    obtain rfl | rfl := hmark <;> exact hskip
  · simp only [readNumber, hat, hdigits.isEmpty, hempty, hzeros, hrest, habsorb,
      Bool.false_eq_true, if_false]
    obtain rfl | rfl := hmark <;> exact hread

/-- Digits alone are an integer, or a real number if they are too many. -/
theorem scans_digits (hdigits : IsDigits digits)
    (hzero : digits.head? = some '0' → digits = ['0'])
    (habsorb : absorb Text.countBound 0 digits = (significand, extra)) (negative : Bool) :
    Scans (ε := ε) skipNumber (readNumber negative) digits
      (if extra.isEmpty = true then some (integerOf negative significand)
        else realValue? negative ⟨significand, extra.length⟩) := by
  intro c tail htail hc
  obtain ⟨hat, hrest, hempty, hzeros⟩ :=
    number_of_digits hdigits hzero (fun d hd => (htail d hd).1) hc
  rw [← hrest] at htail
  refine ⟨c.skip digits.length, hrest, ?_, ?_⟩
  · simp only [skipNumber, hat, hdigits.isEmpty, hzeros, Bool.false_eq_true, if_false]
    split
    · exact absurd ‹_› (htail.ne _).1
    · exact skipRealEnd_of_ends htail
  · simp only [readNumber, hat, hdigits.isEmpty, hempty, hzeros, habsorb, Bool.false_eq_true,
      if_false]
    split
    · exact absurd ‹_› (htail.ne _).1
    · exact absurd ‹_› (htail.ne _).2.1
    · exact absurd ‹_› (htail.ne _).2.2
    · split_ifs
      · rfl
      · exact toOption_realOf _ _ _

theorem exists_scans_number (ht : IsUnsigned t) (negative : Bool) :
    ∃ o : Option Json, Scans (ε := ε) skipNumber (readNumber negative) t o := by
  obtain @⟨digits, t, hdigits, hzero, ht⟩ := ht
  rcases habsorb : absorb Text.countBound 0 digits with ⟨significand, extra⟩
  cases ht with
  | fraction hfraction ht =>
    exact exists_scans_number_fraction hdigits hzero habsorb hfraction ht negative
  | exponent ht =>
    cases ht with
    | none =>
      rw [List.append_nil]
      exact ⟨_, scans_digits hdigits hzero habsorb negative⟩
    | some hmark hsign hexponent =>
      exact ⟨_, scans_number_exponent hdigits hzero habsorb hmark hsign hexponent negative⟩

end Numbers

theorem utf8Size_of_hexValue? {c : Char} (h : (Text.hexValue? c).isSome = true) :
    c.utf8Size = 1 := by
  have hc : c.toNat ≤ 127 := by
    have h9 : '9'.toNat = 57 := rfl
    have hf : 'f'.toNat = 102 := rfl
    have hF : 'F'.toNat = 70 := rfl
    by_contra hc
    rw [Text.hexValue?, if_neg, if_neg, if_neg] at h
    · cases h
    all_goals
      simp only [Text.isDigit, Bool.and_eq_true, decide_eq_true_eq]
      omega
  exact Char.utf8Size_eq_one_iff.2 (UInt32.le_iff_toNat_le.2 hc)

/-- What is between the quotes of a string is passed over with the closing quote. -/
theorem skipStringFrom_of_isCharacters {t : Text} (ht : IsCharacters t) (tail : Text) :
    ∀ p : Position, (skipStringFrom .text p (t ++ '"' :: tail) : Outcome ε Unit)
      = .ok ((), Cursor.skip ⟨t ++ '"' :: tail, p⟩ (t.length + 1)) := by
  induction ht with
  | nil => exact fun p => rfl
  | plain hquote hbackslash hc ht ih =>
    intro p
    rw [List.cons_append, skipStringFrom, if_neg hquote, if_neg hbackslash,
      if_neg (Nat.not_lt.2 hc), ih]
    rfl
  | @escape c t hc ht ih =>
    intro p
    have hu : c ≠ 'u' := by rintro rfl; exact absurd hc (by decide)
    have hescaped : (escaped? c).isSome = true := by
      simp only [List.mem_cons, List.not_mem_nil, or_false] at hc
      obtain rfl | rfl | rfl | rfl | rfl | rfl | rfl | rfl := hc <;> rfl
    rw [List.cons_append, List.cons_append, skipStringFrom, if_neg (by decide), if_pos rfl,
      skipStringFrom, if_neg hu, if_pos hescaped, ih]
    rfl
  | unit hlength hdigits ht ih =>
    intro p
    obtain ⟨a, b, c, d, rfl⟩ := List.length_eq_four.1 hlength
    simp only [List.forall_mem_cons] at hdigits
    obtain ⟨ha, hb, hc, hd, -⟩ := hdigits
    simp only [List.cons_append, List.nil_append, skipStringFrom, ha, hb, hc, hd,
      utf8Size_of_hexValue? ha, utf8Size_of_hexValue? hb, utf8Size_of_hexValue? hc,
      utf8Size_of_hexValue? hd, ih]
    rfl

/-- A string that can be passed over is read up to the same place, or refused. -/
theorem exists_readStringFrom : ∀ {t : Text} {state : StringState} {p : Position} {c : Cursor},
    (skipStringFrom state.skipState p (t ++ ['"']) : Outcome ε Unit) = .ok ((), c) → c.rest = [] →
      ∃ o : Option Text, ∀ (p : Position) (tail : Text),
        (readStringFrom state p (t ++ '"' :: tail) : Outcome ε Text).toOption
          = o.map (·, Cursor.skip ⟨t ++ '"' :: tail, p⟩ (t.length + 1))
  | [], state, p, c, h, hc => by
    have hskip := skipStringFrom_cons (ε := ε) state p '"' []
    rcases hstep : stringStep state '"' with _ | state' | d | f <;> rw [hstep] at hskip
    · refine ⟨some [], fun p tail => ?_⟩
      rw [List.nil_append, readStringFrom, hstep]
      rfl
    · cases h.symm.trans hskip
    · cases h.symm.trans hskip
    · refine ⟨none, fun p tail => ?_⟩
      rw [List.nil_append, readStringFrom, hstep]
      rfl
  | d :: t, state, p, c, h, hc => by
    rw [List.cons_append] at h
    have hskip := skipStringFrom_cons (ε := ε) state p d (t ++ ['"'])
    rcases hstep : stringStep state d with _ | state' | e | f <;> rw [hstep] at hskip
    · cases h.symm.trans hskip
      cases t <;> cases hc
    · obtain ⟨o, ho⟩ := exists_readStringFrom (hskip.symm.trans h) hc
      refine ⟨o, fun p tail => ?_⟩
      rw [List.cons_append, readStringFrom, hstep]
      exact ho (p.over d) tail
    · have htext : (skipStringFrom StringState.text.skipState (p.over d) (t ++ ['"'])
          : Outcome ε Unit) = .ok ((), c) := hskip.symm.trans h
      obtain ⟨o, ho⟩ := exists_readStringFrom htext hc
      refine ⟨o.map (e :: ·), fun p tail => ?_⟩
      have hread := ho (p.over d) tail
      rw [List.cons_append, readStringFrom, hstep]
      rcases hr : (readStringFrom .text (p.over d) (t ++ '"' :: tail) : Outcome ε Text)
        with stop | ⟨s, c'⟩ <;> rw [hr] at hread <;> rcases o with _ | s' <;> cases hread
      · rfl
      · rfl
    · refine ⟨none, fun p tail => ?_⟩
      rw [List.cons_append, readStringFrom, hstep]
      rfl

/-- That the characters of a string are passed over, and read as `o`, with the quote behind
them. -/
def ScansString (ε : Type) (t : Text) (o : Option Text) : Prop :=
  ∀ (c : Cursor) (tail : Text), c.rest = t ++ '"' :: tail →
    ∃ c', c'.rest = tail ∧ (skipString c : Outcome ε Unit) = .ok ((), c')
      ∧ (readString c : Outcome ε Text).toOption = o.map (·, c')

theorem exists_scansString {t : Text} (ht : IsCharacters t) :
    ∃ o : Option Text, ScansString ε t o := by
  have hskip : (skipStringFrom StringState.text.skipState {} (t ++ ['"']) : Outcome ε Unit) = _ :=
    skipStringFrom_of_isCharacters ht [] {}
  obtain ⟨o, ho⟩ :=
    exists_readStringFrom hskip (by rw [rest_skip, List.drop_length_add_append]; rfl)
  refine ⟨o, fun c tail hc => ⟨c.skip (t.length + 1), ?_, ?_⟩⟩
  · rw [rest_skip, hc, List.drop_length_add_append]
    rfl
  · obtain ⟨rest, p⟩ := c
    cases hc
    exact ⟨skipStringFrom_of_isCharacters ht tail p, ho p tail⟩

theorem readWord_append {word tail : Text} : ∀ {c : Cursor}, c.rest = word ++ tail →
    ∃ c', c'.rest = tail ∧ (readWord word c : Outcome ε Unit) = .ok ((), c') := by
  induction word with
  | nil => exact fun {c} h => ⟨c, h, rfl⟩
  | cons w word ih =>
    intro c h
    rw [List.cons_append] at h
    obtain ⟨c', hrest, hread⟩ := ih ((rest_advance c).trans (congrArg List.tail h))
    refine ⟨c', hrest, ?_⟩
    simp only [readWord, h, if_true, hread]

theorem IsUnsigned.head {t : Text} (ht : IsUnsigned t) (tail : Text) :
    ∃ d s, t ++ tail = d :: s ∧ Text.isDigit d = true := by
  obtain ⟨hdigits, -, -⟩ := ht
  rw [List.append_assoc]
  exact hdigits.head _

theorem skipScalar_of_digit {c : Cursor} {d : Char} {s : Text} (hc : c.rest = d :: s)
    (hd : Text.isDigit d = true) : (skipScalar c : Outcome ε Unit) = skipNumber c := by
  unfold skipScalar
  split <;> rename_i h <;> rw [h] at hc <;> cases hc
  all_goals first
    | exact absurd hd (by decide)
    | exact if_pos hd

theorem readScalar_of_digit {c : Cursor} {d : Char} {s : Text} (hc : c.rest = d :: s)
    (hd : Text.isDigit d = true) : (readScalar c : Outcome ε Json) = readNumber false c := by
  unfold readScalar
  split <;> rename_i h <;> rw [h] at hc <;> cases hc
  all_goals first
    | exact absurd hd (by decide)
    | exact if_pos hd

theorem scans_word {d : Char} {word : Text} {v : Json}
    (hskip : ∀ (c : Cursor) (s : Text), c.rest = d :: s →
      (skipScalar c : Outcome ε Unit) = readWord word c.advance)
    (hread : ∀ (c : Cursor) (s : Text), c.rest = d :: s →
      (readScalar c : Outcome ε Json) = Outcome.map (fun _ => v) (readWord word c.advance)) :
    Scans (ε := ε) skipScalar readScalar (d :: word) (some v) := by
  intro c tail _ hc
  rw [List.cons_append] at hc
  obtain ⟨c', hrest, hword⟩ :=
    readWord_append (ε := ε) ((rest_advance c).trans (congrArg List.tail hc))
  refine ⟨c', hrest, ?_, ?_⟩
  · rw [hskip c _ hc, hword]
  · rw [hread c _ hc, hword]
    rfl

theorem exists_scans_scalar {t : Text} (ht : IsScalar t) :
    ∃ o : Option Json, Scans (ε := ε) skipScalar readScalar t o := by
  cases ht with
  | word ht =>
    simp only [List.mem_cons, List.not_mem_nil, or_false] at ht
    obtain rfl | rfl | rfl := ht
    · exact ⟨_, show Scans skipScalar readScalar ('n' :: "ull".toList) (some .null) from
        scans_word (fun c s hc => by simp only [skipScalar, hc])
          (fun c s hc => by simp only [readScalar, hc])⟩
    · exact ⟨_, show Scans skipScalar readScalar ('t' :: "rue".toList) (some (.bool true)) from
        scans_word (fun c s hc => by simp only [skipScalar, hc])
          (fun c s hc => by simp only [readScalar, hc])⟩
    · exact ⟨_, show Scans skipScalar readScalar ('f' :: "alse".toList) (some (.bool false)) from
        scans_word (fun c s hc => by simp only [skipScalar, hc])
          (fun c s hc => by simp only [readScalar, hc])⟩
  | positive ht =>
    obtain ⟨o, ho⟩ := exists_scans_number (ε := ε) ht false
    refine ⟨o, fun c tail htail hc => ?_⟩
    obtain ⟨d, s, hs, hd⟩ := ht.head tail
    rw [skipScalar_of_digit (hc.trans hs) hd, readScalar_of_digit (hc.trans hs) hd]
    exact ho c tail htail hc
  | negative ht =>
    obtain ⟨o, ho⟩ := exists_scans_number (ε := ε) ht true
    refine ⟨o, fun c tail htail hc => ?_⟩
    rw [List.cons_append] at hc
    obtain ⟨c', hrest, hskip, hread⟩ :=
      ho c.advance tail htail ((rest_advance c).trans (congrArg List.tail hc))
    exact ⟨c', hrest, by simpa only [skipScalar, hc] using hskip,
      by simpa only [readScalar, hc] using hread⟩
  | text ht =>
    obtain ⟨o, ho⟩ := exists_scansString (ε := ε) ht
    refine ⟨o.map .text, fun c tail _ hc => ?_⟩
    rw [List.cons_append, List.append_assoc] at hc
    obtain ⟨c', hrest, hskip, hread⟩ :=
      ho c.advance tail ((rest_advance c).trans (congrArg List.tail hc))
    refine ⟨c', hrest, by simpa only [skipScalar, hc] using hskip, ?_⟩
    simp only [readScalar, hc, toOption_map, hread, Option.map_map]
    rfl

end BlockDocument.Json
