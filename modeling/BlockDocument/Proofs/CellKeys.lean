import Mathlib.Data.Nat.Digits.Defs
import BlockDocument.Document.Cell
import BlockDocument.Proofs.Lexeme
import BlockDocument.Proofs.LineReferences
import BlockDocument.Proofs.TextLines

/-!
# The grammar of cell keys

A key names a cell exactly if it is two numerals with a comma between them (`ofKey?_grammar`).
Leading zeros and the length of a numeral do not matter, only its value: a row or a column is
counted from one, and a value of `countBound` or more is refused like a text that is no numeral.
-/

namespace BlockDocument

namespace Text

/-- The value of decimal digits, each of which counts by its place from the end. -/
def decimalValue (digits : Text) : Nat := Nat.ofDigits 10 (digits.reverse.map digitValue)

/-- That a text is digits of the given value, perhaps behind a `+` and with blank characters
around. -/
def IsNumeral (t : Text) (n : Nat) : Prop :=
  ∃ before sign digits after, t = before ++ (sign ++ digits) ++ after
    ∧ AllBlank before ∧ AllBlank after ∧ (sign = [] ∨ sign = ['+'])
    ∧ digits ≠ [] ∧ (∀ c ∈ digits, c.isDigit = true) ∧ n = decimalValue digits

theorem not_mem_of_splitFirst {mark : Char} : ∀ {t before after : Text},
    splitFirst mark t = some (before, after) → mark ∉ before
  | [], _, _, h => by cases h
  | c :: t, before, after, h => by
    rw [splitFirst] at h
    split at h
    · cases h
      exact List.not_mem_nil
    · rename_i hc
      obtain ⟨⟨b, a⟩, hsplit, hparts⟩ := Option.map_eq_some_iff.1 h
      cases hparts
      rw [List.mem_cons, not_or]
      exact ⟨Ne.symm hc, not_mem_of_splitFirst hsplit⟩

/-! ## Reading counts -/

theorem decimalValue_concat (digits : Text) (c : Char) :
    decimalValue (digits ++ [c]) = 10 * decimalValue digits + digitValue c := by
  unfold decimalValue
  rw [List.reverse_append, List.reverse_singleton, List.singleton_append, List.map_cons,
    Nat.ofDigits_cons]
  exact Nat.add_comm _ _

/-- Taking in one digit after the other comes to the value of all of them. -/
theorem digitsValue_eq_decimalValue (digits : Text) :
    digitsValue 0 digits = decimalValue digits := by
  induction digits using List.reverseRecOn with
  | nil => rfl
  | append_singleton digits c ih =>
    rw [decimalValue_concat, ← ih, digitsValue, List.foldl_append]
    rfl

theorem readDigits?_eq_some_iff {digits : Text} {n : Nat} :
    readDigits? digits = some n ↔ digits ≠ [] ∧ (∀ c ∈ digits, c.isDigit = true)
      ∧ n = decimalValue digits ∧ n < countBound := by
  have hdigits : ¬(digits.isEmpty || !digits.all isDigit) = true
      ↔ digits ≠ [] ∧ ∀ c ∈ digits, c.isDigit = true := by
    simp [isDigit_eq]
  unfold readDigits?
  rw [digitsValue_eq_decimalValue]
  constructor
  · intro h
    split at h
    · cases h
    · rename_i hd
      split at h
      · cases h
        exact ⟨(hdigits.1 hd).1, (hdigits.1 hd).2, rfl, ‹_›⟩
      · cases h
  · rintro ⟨hne, hall, rfl, hlt⟩
    rw [if_neg (hdigits.2 ⟨hne, hall⟩), if_pos hlt]

theorem readCount?_eq_some_iff {t : Text} {n : Nat} :
    t.readCount? = some n ↔ ∃ sign digits, t = sign ++ digits ∧ (sign = [] ∨ sign = ['+'])
      ∧ readDigits? digits = some n := by
  constructor
  · intro h
    unfold readCount? at h
    split at h
    · exact ⟨['+'], _, rfl, .inr rfl, h⟩
    · exact ⟨[], t, rfl, .inl rfl, h⟩
  · rintro ⟨_, digits, rfl, rfl | rfl, h⟩
    · have hsign : ∀ rest, [] ++ digits ≠ '+' :: rest := by
        rintro rest rfl
        cases (readDigits?_eq_some_iff.1 h).2.1 '+' List.mem_cons_self
      unfold readCount?
      split
      · exact absurd ‹_› (hsign _)
      · exact h
    · exact h

theorem not_isBlank_of_isDigit {c : Char} (h : c.isDigit = true) : isBlank c = false := by
  rw [← isDigit_eq] at h
  have hrange : 48 ≤ c.toNat ∧ c.toNat ≤ 57 := by simpa [isDigit] using h
  simp only [isBlank, Bool.or_eq_false_iff, Bool.and_eq_false_iff, decide_eq_false_iff_not,
    beq_eq_false_iff_ne]
  omega

theorem trim_eq_self {t : Text} (h : ∀ c ∈ t, isBlank c = false) : t.trim = t := by
  have hnil : ∀ {s : Text}, AllBlank s → (∀ c ∈ s, c ∈ t) → s = [] := fun hs hsub =>
    List.eq_nil_iff_forall_not_mem.2 fun c hc =>
      Bool.noConfusion ((h c (hsub c hc)).symm.trans (hs c hc))
  obtain ⟨before, after, hb, ha, ht⟩ := exists_trim t
  have hbefore : before = [] := hnil hb fun c hc => by rw [ht]; simp [hc]
  have hafter : after = [] := hnil ha fun c hc => by rw [ht]; simp [hc]
  rw [hbefore, hafter, List.append_nil] at ht
  exact ht.symm

/-- A numeral without the blank characters around it. -/
theorem isNumeral_iff_trim {t : Text} {n : Nat} :
    t.IsNumeral n ↔ ∃ sign digits, t.trim = sign ++ digits ∧ (sign = [] ∨ sign = ['+'])
      ∧ digits ≠ [] ∧ (∀ c ∈ digits, c.isDigit = true) ∧ n = decimalValue digits := by
  constructor
  · rintro ⟨before, sign, digits, after, rfl, hb, ha, hsign, hne, hall, hn⟩
    have hblank : ∀ c ∈ sign ++ digits, isBlank c = false := by
      intro c hc
      rcases List.mem_append.1 hc with hc | hc
      · rcases hsign with rfl | rfl
        · cases hc
        · rw [List.mem_singleton.1 hc]
          rfl
      · exact not_isBlank_of_isDigit (hall c hc)
    exact ⟨sign, digits, by rw [trim_pad hb ha, trim_eq_self hblank], hsign, hne, hall, hn⟩
  · rintro ⟨sign, digits, htrim, h⟩
    obtain ⟨before, after, hb, ha, ht⟩ := exists_trim t
    exact ⟨before, sign, digits, after, htrim ▸ ht, hb, ha, h⟩

/-- A count is read from a numeral whose value is small enough, and from nothing else. -/
theorem readCount?_trim_eq_some_iff {t : Text} {n : Nat} :
    t.trim.readCount? = some n ↔ t.IsNumeral n ∧ n < countBound := by
  rw [readCount?_eq_some_iff, isNumeral_iff_trim]
  simp only [readDigits?_eq_some_iff]
  constructor
  · rintro ⟨sign, digits, htrim, hsign, hne, hall, hn, hlt⟩
    exact ⟨⟨sign, digits, htrim, hsign, hne, hall, hn⟩, hlt⟩
  · rintro ⟨⟨sign, digits, htrim, hsign, hne, hall, hn⟩, hlt⟩
    exact ⟨sign, digits, htrim, hsign, hne, hall, hn, hlt⟩

/-! ## Numerals -/

namespace IsNumeral

variable {t : Text} {n : Nat}

theorem mem_cases (h : t.IsNumeral n) {c : Char} (hc : c ∈ t) :
    isBlank c = true ∨ c = '+' ∨ c.isDigit = true := by
  obtain ⟨before, sign, digits, after, rfl, hb, ha, hsign, -, hall, -⟩ := h
  simp only [List.mem_append] at hc
  rcases hc with (hc | hc | hc) | hc
  · exact .inl (hb c hc)
  · rcases hsign with rfl | rfl
    · cases hc
    · exact .inr (.inl (List.mem_singleton.1 hc))
  · exact .inr (.inr (hall c hc))
  · exact .inl (ha c hc)

theorem not_allBlank (h : t.IsNumeral n) : ¬ AllBlank t := by
  obtain ⟨sign, digits, htrim, -, hne, -⟩ := isNumeral_iff_trim.1 h
  rw [← trim_eq_nil_iff, htrim, List.append_eq_nil_iff]
  exact fun hnil => hne hnil.2

/-- A text is a numeral of one value only. -/
theorem unique (h : t.IsNumeral n) {m : Nat} (hm : t.IsNumeral m) : n = m := by
  obtain ⟨sign, digits, htrim, hsign, -, hall, rfl⟩ := isNumeral_iff_trim.1 h
  obtain ⟨sign', digits', htrim', hsign', -, hall', rfl⟩ := isNumeral_iff_trim.1 hm
  have heq := htrim.symm.trans htrim'
  have hplus : ∀ rest : Text, ¬ ∀ c ∈ '+' :: rest, c.isDigit = true := fun rest hrest => by
    cases hrest '+' List.mem_cons_self
  rcases hsign with rfl | rfl <;> rcases hsign' with rfl | rfl
  · exact congrArg decimalValue heq
  · rw [List.nil_append] at heq
    exact absurd hall (heq ▸ hplus digits')
  · rw [List.nil_append] at heq
    exact absurd hall' (heq ▸ hplus digits)
  · exact congrArg decimalValue (List.cons.inj heq).2

end IsNumeral

theorem isNumeral_ofNat (n : Nat) : (ofNat n).IsNumeral n := by
  have hvalue : decimalValue (ofNat n) = n := by
    rw [← digitsValue_eq_decimalValue]
    exact Nat.ofDigitChars_toDigits (by decide) (by decide)
  exact ⟨[], [], ofNat n, [], (List.append_nil _).symm, List.forall_mem_nil _,
    List.forall_mem_nil _, .inl rfl, Nat.toDigits_ne_nil, fun c hc => isDigit_of_mem_ofNat hc,
    hvalue.symm⟩

end Text

namespace Cell

open Text (IsNumeral AllBlank countBound)

/-- That a text is a numeral that counts a row or a column. -/
def IsCoordinate (t : Text) (n : Nat) : Prop := t.IsNumeral n ∧ 1 ≤ n ∧ n < countBound

theorem ofKey?_eq_some_iff {key : Text} {cell : Cell} :
    ofKey? key = some cell ↔ ∃ first second : Text, key = first ++ ',' :: second ∧ ',' ∉ first
      ∧ IsCoordinate first cell.row ∧ IsCoordinate second cell.column := by
  have hcoordinate : ∀ {t : Text} {n : Nat},
      IsCoordinate t n ↔ t.trim.readCount? = some n ∧ 1 ≤ n := by
    intro t n
    rw [IsCoordinate, Text.readCount?_trim_eq_some_iff, and_assoc, and_comm (a := n < countBound)]
  simp only [hcoordinate]
  constructor
  · intro h
    unfold ofKey? at h
    split at h
    · cases h
    rename_i first second hsplit
    split at h
    · rename_i row column hrow hcolumn
      split at h
      · rename_i hpos
        cases h
        exact ⟨first, second, Text.splitFirst_eq_some hsplit,
          Text.not_mem_of_splitFirst hsplit, ⟨hrow, hpos.1⟩, hcolumn, hpos.2⟩
      · cases h
    · cases h
  · rintro ⟨first, second, rfl, hfirst, ⟨hrow, hr⟩, hcolumn, hc⟩
    unfold ofKey?
    simp only [Text.splitFirst_append hfirst, hrow, hcolumn]
    exact if_pos ⟨hr, hc⟩

/-- A key names a cell if its parts around the first comma are coordinates, and else it names
none. So numbers in decimal are read back, and a key with another comma or a minus sign, with an
empty part or with a value that is too large is refused. -/
theorem ofKey?_grammar (key : Text) :
    (∀ row column, ofKey? key = some ⟨row, column⟩ ↔ ∃ first second : Text,
      key = first ++ ',' :: second ∧ ',' ∉ first
        ∧ IsCoordinate first row ∧ IsCoordinate second column)
    ∧ (∀ row column, 1 ≤ row → row < countBound → 1 ≤ column → column < countBound →
      ofKey? (Text.ofNat row ++ ',' :: Text.ofNat column) = some ⟨row, column⟩)
    ∧ (2 ≤ key.count ',' → ofKey? key = none)
    ∧ ('-' ∈ key → ofKey? key = none)
    ∧ ∀ first second : Text, key = first ++ ',' :: second → ',' ∉ first →
      (AllBlank first ∨ AllBlank second
        ∨ ∃ n, (first.IsNumeral n ∨ second.IsNumeral n) ∧ countBound ≤ n) →
      ofKey? key = none := by
  refine ⟨fun row column => ofKey?_eq_some_iff, fun row column hr hr' hc hc' => ?_,
    fun hcount => ?_, fun hminus => ?_, fun first second hkey hfirst hbad => ?_⟩
  · refine ofKey?_eq_some_iff.2 ⟨_, _, rfl, ?_, ⟨Text.isNumeral_ofNat row, hr, hr'⟩,
      Text.isNumeral_ofNat column, hc, hc'⟩
    exact mt (Text.isNumeral_ofNat row).mem_cases (by decide)
  all_goals
    refine Option.eq_none_iff_forall_ne_some.2 fun cell h => ?_
    obtain ⟨row, column, hsplit, hcomma, hrow, hcolumn⟩ := ofKey?_eq_some_iff.1 h
  · have hrest : ',' ∉ column := mt hcolumn.1.mem_cases (by decide)
    rw [hsplit, List.count_append, List.count_cons_self, List.count_eq_zero.2 hcomma,
      List.count_eq_zero.2 hrest] at hcount
    omega
  · rw [hsplit, List.mem_append, List.mem_cons] at hminus
    rcases hminus with hm | hm | hm
    · exact mt hrow.1.mem_cases (by decide) hm
    · cases hm
    · exact mt hcolumn.1.mem_cases (by decide) hm
  · have hparts : Text.splitFirst ',' (first ++ ',' :: second) = some (first, second) :=
      Text.splitFirst_append hfirst
    rw [← hkey, hsplit, Text.splitFirst_append hcomma] at hparts
    cases hparts
    rcases hbad with hblank | hblank | ⟨n, hn | hn, hlarge⟩
    · exact hrow.1.not_allBlank hblank
    · exact hcolumn.1.not_allBlank hblank
    · exact absurd hlarge (Nat.not_le.2 (hn.unique hrow.1 ▸ hrow.2.2))
    · exact absurd hlarge (Nat.not_le.2 (hn.unique hcolumn.1 ▸ hcolumn.2.2))

end Cell

end BlockDocument
