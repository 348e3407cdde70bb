import BlockDocument.Proofs.Refusals

/-!
# The line that a failure refers to

The message of a text that is not a document ends with the place where reading stopped. The line of
a failure is the one that its message refers to first, and the words of the message refer to none.
But a message may quote a text of the document in front of the place, and a line reference in that
text comes first. So the line of the failure is that of the place exactly if the quoted text refers
to no other line (`line?_of_malformed`).
-/

namespace BlockDocument

/-! ## References in text that is put together -/

/-- What a line reference begins with. -/
def referenceWord : Text := "line ".toList

/-- Whether no line reference begins in a text, whatever follows it. -/
def unreferring : Text → Bool
  | [] => true
  | c :: s => !(Text.asciiLower ((c :: s).take 5)).isPrefixOf referenceWord && unreferring s

/-- Whether the last character read belongs to a word. -/
def endsInWord : (inWord : Bool) → Text → Bool
  | inWord, [] => inWord
  | _, c :: t => endsInWord (Text.isWord c) t

/-- That no line reference goes on from one text into the next. -/
def Apart (t : Text) : Prop := ∀ s ≠ [], lineDigits? (s ++ t) = lineDigits? s

set_option maxRecDepth 10000 in
theorem isWord_space : Text.isWord ' ' = false := by decide

theorem endsInWord_space : ∀ (s : Text) (inWord : Bool), endsInWord inWord (s ++ [' ']) = false
  | [], _ => isWord_space
  | c :: s, _ => endsInWord_space s (Text.isWord c)

theorem lineDigits?_eq_none {t : Text} (h : Text.asciiLower (t.take 5) ≠ referenceWord) :
    lineDigits? t = none := by
  have hd : decide (Text.asciiLower (t.take 5) = "line ".toList) = false := decide_eq_false h
  simp only [lineDigits?, hd, Bool.false_and, Bool.false_eq_true, if_false]

theorem firstLineDigits?_cons {c : Char} {t : Text} (h : lineDigits? (c :: t) = none)
    (inWord : Bool) : firstLineDigits? inWord (c :: t) = firstLineDigits? (Text.isWord c) t := by
  cases inWord <;> simp [firstLineDigits?, h]

theorem firstLineDigits?_of_lineDigits? {t digits : Text} (h : lineDigits? t = some digits)
    (ht : t ≠ []) : firstLineDigits? false t = some digits := by
  obtain ⟨c, t, rfl⟩ := List.exists_cons_of_ne_nil ht
  simp [firstLineDigits?, h]

theorem isPrefixOf_of_append {s t : Text}
    (h : (Text.asciiLower ((s ++ t).take 5)).isPrefixOf referenceWord = true) :
    (Text.asciiLower (s.take 5)).isPrefixOf referenceWord = true := by
  have hs : Text.asciiLower (s.take 5) <+: Text.asciiLower ((s ++ t).take 5) := by
    rw [List.take_append, Text.asciiLower, Text.asciiLower, List.map_append]
    exact List.prefix_append _ _
  exact List.isPrefixOf_iff_prefix.2 (hs.trans (List.isPrefixOf_iff_prefix.1 h))

theorem unreferring_cons {c : Char} {s : Text} : unreferring (c :: s) = true ↔
    (Text.asciiLower ((c :: s).take 5)).isPrefixOf referenceWord = false
      ∧ unreferring s = true := by
  simp only [unreferring, Bool.and_eq_true, Bool.not_eq_true']

theorem unreferring_append {t : Text} (ht : unreferring t = true) : ∀ {s : Text},
    unreferring s = true → unreferring (s ++ t) = true
  | [], _ => ht
  | c :: s, h => by
    obtain ⟨hc, hs⟩ := unreferring_cons.1 h
    refine unreferring_cons.2 ⟨?_, unreferring_append ht hs⟩
    exact Bool.eq_false_iff.2 fun hp => Bool.eq_false_iff.1 hc (isPrefixOf_of_append hp)

theorem firstLineDigits?_append_of_unreferring (t : Text) : ∀ {s : Text}, unreferring s = true →
    ∀ inWord, firstLineDigits? inWord (s ++ t) = firstLineDigits? (endsInWord inWord s) t
  | [], _, _ => rfl
  | c :: s, h, inWord => by
    obtain ⟨hc, hs⟩ := unreferring_cons.1 h
    have hnone : lineDigits? (c :: (s ++ t)) = none := by
      refine lineDigits?_eq_none fun he => Bool.eq_false_iff.1 hc ?_
      refine isPrefixOf_of_append (t := t) ?_
      rw [List.cons_append, he]
      decide
    rw [List.cons_append, firstLineDigits?_cons hnone]
    exact firstLineDigits?_append_of_unreferring t hs _

theorem firstLineDigits?_of_unreferring {s : Text} (h : unreferring s = true) (inWord : Bool) :
    firstLineDigits? inWord s = none := by
  have happend := firstLineDigits?_append_of_unreferring [] h inWord
  rwa [List.append_nil] at happend

theorem firstLineDigits?_append {t : Text} (ht : Apart t) : ∀ (s : Text) (inWord : Bool),
    firstLineDigits? inWord (s ++ t)
      = (firstLineDigits? inWord s).or (firstLineDigits? (endsInWord inWord s) t)
  | [], _ => rfl
  | c :: s, inWord => by
    have hc : lineDigits? (c :: (s ++ t)) = lineDigits? (c :: s) := ht (c :: s) (by simp)
    have ih := firstLineDigits?_append ht s (Text.isWord c)
    simp only [List.cons_append, firstLineDigits?, hc, endsInWord]
    rcases hd : if inWord = true then none else lineDigits? (c :: s) with _ | digits
    · simpa using ih
    · rfl

/-- Where a character stands that is no digit, none goes on unless the character is in its word. -/
theorem apart_cons {c : Char} {t : Text} (hd : Text.isDecimalDigit c = false)
    (hword : ∀ s : Text, s.length < 5 → lineDigits? (s ++ c :: t) = none) : Apart (c :: t) := by
  intro s _
  rcases Nat.lt_or_ge s.length 5 with hs | hs
  · have hshort : lineDigits? s = none := by
      refine lineDigits?_eq_none fun he => ?_
      have hl : (Text.asciiLower (s.take 5)).length = 5 := by rw [he]; rfl
      simp only [Text.asciiLower, List.length_map, List.length_take] at hl
      omega
    rw [hword s hs, hshort]
  · have htake : (s ++ c :: t).take 5 = s.take 5 := List.take_append_of_le_length hs
    have hdrop : (s ++ c :: t).drop 5 = s.drop 5 ++ c :: t := List.drop_append_of_le_length hs
    have hdigits : (s.drop 5 ++ c :: t).takeWhile Text.isDecimalDigit
        = (s.drop 5).takeWhile Text.isDecimalDigit := by
      rw [List.takeWhile_append, List.takeWhile_cons, hd]
      split
      · rename_i he
        rw [if_neg (by simp), List.append_nil]
        exact (List.takeWhile_prefix _).eq_of_length he |>.symm
      · rfl
    simp only [lineDigits?, htake, hdrop, hdigits]

theorem getElem?_of_reference {s t : Text} {c : Char} (hs : s.length < 5)
    (h : Text.asciiLower ((s ++ c :: t).take 5) = referenceWord) :
    referenceWord[s.length]? = some c.toLower := by
  rw [← h, Text.asciiLower, List.getElem?_map, List.getElem?_take_of_lt hs,
    List.getElem?_append_right (Nat.le_refl _), Nat.sub_self]
  rfl

theorem apart_comma (t : Text) : Apart (',' :: t) := by
  refine apart_cons (by decide) fun s hs => lineDigits?_eq_none fun he => ?_
  have hmem := List.mem_of_getElem? (getElem?_of_reference hs he)
  exact absurd hmem (by decide)

/-- The space belongs to a reference only if a digit follows it. -/
theorem apart_space {c : Char} (hc : Text.isDecimalDigit c = false) (t : Text) :
    Apart (' ' :: c :: t) := by
  refine apart_cons (by decide) fun s hs => ?_
  rcases Nat.lt_or_ge s.length 4 with hl | hl
  · refine lineDigits?_eq_none fun he => ?_
    have hspace : ∀ i < 4, referenceWord[i]? ≠ some (' ').toLower := by decide
    exact hspace _ hl (getElem?_of_reference hs he)
  · have hdrop : (s ++ ' ' :: c :: t).drop 5 = c :: t := by
      have hlen : s.length = 4 := by omega
      rw [List.drop_append, List.drop_eq_nil_of_le (by omega), hlen]
      rfl
    simp [lineDigits?, hdrop, hc]

/-! ## Numbers in messages -/

theorem toLower_of_isDigit {c : Char} (h : c.isDigit = true) : c.toLower = c := by
  unfold Char.toLower
  simp only [Char.isDigit, Bool.and_eq_true, decide_eq_true_eq] at h
  have hA : 'A'.val = 65 := rfl
  have h9 : '9'.val = 57 := rfl
  rw [dif_neg]
  grind

theorem unreferring_of_forall : ∀ {s : Text}, (∀ c ∈ s, c.toLower ≠ 'l') → unreferring s = true
  | [], _ => rfl
  | c :: s, h => by
    have hc : (Text.asciiLower ((c :: s).take 5)).isPrefixOf referenceWord = false := by
      refine Bool.eq_false_iff.2 fun hp => h c List.mem_cons_self ?_
      exact (List.cons_prefix_cons.1 (List.isPrefixOf_iff_prefix.1 hp)).1
    rw [unreferring, hc, unreferring_of_forall fun d hd => h d (.tail _ hd)]
    rfl

/-- A character that numbers are written with. -/
def IsNumeral (c : Char) : Prop := c.isDigit = true ∨ c ∈ ['-', '+', '.', 'e']

instance (c : Char) : Decidable (IsNumeral c) := inferInstanceAs (Decidable (_ ∨ _))

theorem numerals_of_all {s : Text} (h : (s.all fun c => decide (IsNumeral c)) = true) :
    ∀ c ∈ s, IsNumeral c :=
  fun c hc => of_decide_eq_true (List.all_eq_true.1 h c hc)

theorem unreferring_of_numerals {s : Text} (h : ∀ c ∈ s, IsNumeral c) : unreferring s = true := by
  refine unreferring_of_forall fun c hc => ?_
  rcases h c hc with hd | hm
  · rw [toLower_of_isDigit hd]
    rintro rfl
    exact absurd hd (by decide)
  · simp only [List.mem_cons, List.not_mem_nil, or_false] at hm
    rcases hm with rfl | rfl | rfl | rfl <;> decide

theorem isDigit_of_mem_ofNat {n : Nat} {c : Char} (hc : c ∈ Text.ofNat n) : c.isDigit = true :=
  Nat.isDigit_of_mem_toDigits (by decide) (by decide) hc

theorem numerals_ofNat (n : Nat) : ∀ c ∈ Text.ofNat n, IsNumeral c :=
  fun _ hc => .inl (isDigit_of_mem_ofNat hc)

theorem numerals_ofInt : ∀ i : Int, ∀ c ∈ Text.ofInt i, IsNumeral c
  | .ofNat n => numerals_ofNat n
  | .negSucc n => List.forall_mem_cons.2 ⟨.inr (by decide), numerals_ofNat (n + 1)⟩

theorem numerals_zeros (count : Nat) : ∀ c ∈ Decimal.zeros count, IsNumeral c := by
  intro c hc
  rw [List.eq_of_mem_replicate hc]
  exact .inl (by decide)

theorem numerals_placePoint {digits : Text} (h : ∀ c ∈ digits, IsNumeral c) (whole : Int) :
    ∀ c ∈ Decimal.placePoint digits whole, IsNumeral c := by
  unfold Decimal.placePoint
  split
  · have hz : ∀ c ∈ "0.".toList, IsNumeral c := numerals_of_all (by decide)
    exact List.forall_mem_append.2 ⟨List.forall_mem_append.2 ⟨hz, numerals_zeros _⟩, h⟩
  · refine List.forall_mem_append.2 ⟨fun c hc => h c (List.mem_of_mem_take hc), ?_⟩
    exact List.forall_mem_cons.2 ⟨.inr (by decide), fun c hc => h c (List.mem_of_mem_drop hc)⟩

theorem numerals_exponentText (e : Int) : ∀ c ∈ Decimal.exponentText e, IsNumeral c := by
  unfold Decimal.exponentText
  split
  · exact numerals_ofInt e
  · exact List.forall_mem_cons.2 ⟨.inr (by decide), numerals_ofInt e⟩

theorem numerals_decimal (d : Decimal) : ∀ c ∈ d.scientific, IsNumeral c := by
  have hd := numerals_ofNat d.digits
  unfold Decimal.scientific
  simp only
  split
  · have hz : ∀ c ∈ ".0".toList, IsNumeral c := numerals_of_all (by decide)
    exact List.forall_mem_append.2 ⟨List.forall_mem_append.2 ⟨hd, numerals_zeros _⟩, hz⟩
  · split
    · exact numerals_placePoint hd _
    · refine List.forall_mem_append.2
        ⟨?_, List.forall_mem_cons.2 ⟨.inr (by decide), numerals_exponentText _⟩⟩
      split
      · exact hd
      · exact numerals_placePoint hd _

theorem numerals_scientific (x : Binary64) : ∀ c ∈ x.scientific, IsNumeral c := by
  unfold Binary64.scientific Binary64.signText
  refine List.forall_mem_append.2 ⟨?_, ?_⟩
  · split
    · exact List.forall_mem_cons.2 ⟨.inr (by decide), by simp⟩
    · simp
  · split
    · exact numerals_placePoint (numerals_zeros 1) 0
    · exact numerals_decimal _

/-! ## Messages -/

namespace Json

theorem Fault.unreferring_message (f : Fault) : unreferring f.message = true := by
  cases f <;> decide

/-- The text that was found, if one was. -/
def Found.text? : Found → Option Text
  | text t => some t
  | _ => none

theorem Found.unreferring_message : ∀ {found : Found}, found.text? = none →
    unreferring (found.message ++ ", expected ".toList) = true
  | null, _ | bool true, _ | bool false, _ | sequence, _ | map, _ => by decide
  | integer n, _ => by
    refine unreferring_append (by decide) (unreferring_append (by decide) ?_)
    exact unreferring_append (unreferring_of_numerals (numerals_ofInt n)) (by decide)
  | real x, _ => by
    refine unreferring_append (by decide) (unreferring_append (by decide) ?_)
    exact unreferring_append (unreferring_of_numerals (numerals_scientific x)) (by decide)

end Json

namespace Decode

theorem Expected.unreferring_message (e : Expected) : unreferring e.message = true := by
  cases e <;> decide

theorem unreferring_invalidLength (size : Nat) : unreferring (invalidLength size) = true :=
  unreferring_append (by decide)
    (unreferring_append (unreferring_of_numerals (numerals_ofNat size)) (by decide))

set_option maxRecDepth 10000 in
theorem unreferring_of_mem_knownFields : ∀ name ∈ knownFields,
    unreferring (name ++ "`".toList) = true := by
  decide

theorem unreferring_of_mem_blockKinds : ∀ kind ∈ blockKinds, unreferring kind = true := by
  decide

namespace Mismatch

/-- The text of the document that a mismatch quotes. -/
def quoted? : Mismatch → Option Text
  | invalidType found _ => found.text?
  | invalidBlock _ reason => reason.quoted?
  | _ => none

/-- The digits of the line reference that a mismatch quotes. -/
def quotedReference? (m : Mismatch) : Option Text :=
  m.quoted?.bind fun t => firstLineDigits? false t.quote

theorem message_invalidType (found : Json.Found) (expected : Expected) :
    (invalidType found expected).message
      = "invalid type: ".toList
        ++ (found.message ++ (", expected ".toList ++ expected.message)) := by
  rw [← List.append_assoc, ← List.append_assoc]
  rfl

theorem firstLineDigits?_message_of_text (t : Text) (expected : Expected) (inWord : Bool) :
    firstLineDigits? inWord (invalidType (.text t) expected).message
      = firstLineDigits? false t.quote := by
  have hstart : unreferring ("invalid type: ".toList ++ "string ".toList) = true := by decide
  have hword : endsInWord inWord ("invalid type: ".toList ++ "string ".toList) = false := by
    have hsplit : "invalid type: ".toList ++ "string ".toList
        = "invalid type: string".toList ++ [' '] := by
      repeat rw [String.toList_ofList]
      rfl
    rw [hsplit, endsInWord_space]
  have hend : unreferring (", expected ".toList ++ expected.message) = true :=
    unreferring_append expected.unreferring_message (by decide)
  have hcomma : Apart (", expected ".toList ++ expected.message) := apart_comma _
  have hfound : (Json.Found.text t).message = "string ".toList ++ t.quote := rfl
  rw [message_invalidType, hfound, List.append_assoc, ← List.append_assoc,
    firstLineDigits?_append_of_unreferring _ hstart, hword, firstLineDigits?_append hcomma,
    firstLineDigits?_of_unreferring hend, Option.or_none]

theorem unreferring_message_of_text?_eq_none {found : Json.Found} (h : found.text? = none)
    (expected : Expected) : unreferring (invalidType found expected).message = true := by
  rw [message_invalidType, ← List.append_assoc found.message]
  refine unreferring_append ?_ (by decide)
  exact unreferring_append expected.unreferring_message (Json.Found.unreferring_message h)

/-- A message refers to a line only in the text that it quotes. -/
theorem firstLineDigits?_message : ∀ {m : Mismatch}, m.NamesKnown → ∀ inWord,
    firstLineDigits? inWord m.message = m.quotedReference?
  | invalidType found expected, _, inWord => by
    rcases ht : found.text? with _ | t
    · rw [quotedReference?, quoted?, ht]
      exact firstLineDigits?_of_unreferring (unreferring_message_of_text?_eq_none ht expected) _
    · cases found <;> cases ht
      rw [quotedReference?, quoted?, Json.Found.text?, Option.bind_some]
      exact firstLineDigits?_message_of_text t expected inWord
  | rowTooLong size, _, inWord => by
    show firstLineDigits? inWord (invalidLength size ++ "fewer elements in array".toList) = none
    exact firstLineDigits?_of_unreferring
      (unreferring_append (by decide) (unreferring_invalidLength size)) inWord
  | contentTooLong size fields, _, inWord => by
    show firstLineDigits? inWord (invalidLength size ++ Text.ofNat fields
      ++ (if fields = 1 then " element in sequence" else " elements in sequence").toList) = none
    refine firstLineDigits?_of_unreferring (unreferring_append ?_ ?_) inWord
    · split <;> decide
    · exact unreferring_append (unreferring_of_numerals (numerals_ofNat fields))
        (unreferring_invalidLength size)
  | missingType, _, inWord | kindNotText, _, inWord =>
    firstLineDigits?_of_unreferring (by decide) inWord
  | duplicateField name, h, inWord => by
    show firstLineDigits? inWord ("duplicate field `".toList ++ name ++ "`".toList) = none
    rw [List.append_assoc]
    exact firstLineDigits?_of_unreferring
      (unreferring_append (unreferring_of_mem_knownFields name h) (by decide)) inWord
  | noForm flexible, _, inWord =>
    firstLineDigits?_of_unreferring (by cases flexible <;> decide) inWord
  | invalidBlock kind reason, ⟨hk, hr⟩, inWord => by
    have hstart : unreferring ("invalid `".toList ++ kind ++ "` block: ".toList) = true :=
      unreferring_append (by decide)
        (unreferring_append (unreferring_of_mem_blockKinds kind hk) (by decide))
    show firstLineDigits? inWord
      ("invalid `".toList ++ kind ++ "` block: ".toList ++ reason.message)
        = reason.quotedReference?
    rw [firstLineDigits?_append_of_unreferring _ hstart]
    exact firstLineDigits?_message hr _

end Mismatch

end Decode

/-! ## Places -/

/-- The digits of the line reference that is quoted where reading stopped. -/
def quotedReference? : Json.Stop Decode.Mismatch → Option Text
  | .fault _ _ => none
  | .refused m _ | .pending m _ => m.quotedReference?

theorem exists_stopMessage {stop : Json.Stop Decode.Mismatch}
    (h : stop.RefusesFor Decode.Mismatch.NamesKnown) :
    ∃ cause, Failure.stopMessage stop = cause ++ " at line ".toList ++ Text.ofNat stop.place.line
        ++ " column ".toList ++ Text.ofNat stop.place.column
      ∧ firstLineDigits? false cause = quotedReference? stop := by
  cases stop with
  | fault f p => exact ⟨_, rfl, firstLineDigits?_of_unreferring f.unreferring_message false⟩
  | refused m p => exact ⟨_, rfl, Decode.Mismatch.firstLineDigits?_message h false⟩
  | pending m c => exact ⟨_, rfl, Decode.Mismatch.firstLineDigits?_message h false⟩

theorem isDigit_eq (c : Char) : Text.isDigit c = c.isDigit := by
  simp only [Text.isDigit, Char.isDigit, ge_iff_le, UInt32.le_iff_toNat_le]
  rfl

theorem isDecimalDigit_of_isDigit {c : Char} (h : c.isDigit = true) :
    Text.isDecimalDigit c = true := by
  rw [← isDigit_eq] at h
  exact List.any_eq_true.2 ⟨(48, 57), by decide, h⟩

theorem readDigits?_ofNat (n : Nat) :
    Text.readDigits? (Text.ofNat n) = if n < Text.countBound then some n else none := by
  have hne : (Text.ofNat n).isEmpty = false := List.isEmpty_eq_false_iff.2 Nat.toDigits_ne_nil
  have hall : (Text.ofNat n).all Text.isDigit = true := by
    refine List.all_eq_true.2 fun c hc => ?_
    rw [isDigit_eq, isDigit_of_mem_ofNat hc]
  have hvalue : Text.digitsValue 0 (Text.ofNat n) = n :=
    Nat.ofDigitChars_toDigits (by decide) (by decide)
  rw [Text.readDigits?, hne, hall, hvalue]
  rfl

theorem lt_countBound_of_readDigits? {digits : Text} {n : Nat}
    (h : Text.readDigits? digits = some n) : n < Text.countBound := by
  unfold Text.readDigits? at h
  split at h
  · cases h
  · split at h
    · cases h
      assumption
    · cases h

theorem lineDigits?_of_line (n : Nat) {c : Char} (hc : Text.isDecimalDigit c = false) (t : Text) :
    lineDigits? ("line ".toList ++ (Text.ofNat n ++ c :: t)) = some (Text.ofNat n) := by
  have hdigits : (Text.ofNat n ++ c :: t).takeWhile Text.isDecimalDigit = Text.ofNat n := by
    have hall : ∀ d ∈ Text.ofNat n, Text.isDecimalDigit d = true :=
      fun d hd => isDecimalDigit_of_isDigit (isDigit_of_mem_ofNat hd)
    rw [List.takeWhile_append_of_pos hall, List.takeWhile_cons, hc]
    exact List.append_nil _
  have hne : (Text.ofNat n).isEmpty = false := List.isEmpty_eq_false_iff.2 Nat.toDigits_ne_nil
  have htake : ("line ".toList ++ (Text.ofNat n ++ c :: t)).take 5 = "line ".toList := rfl
  have hdrop : ("line ".toList ++ (Text.ofNat n ++ c :: t)).drop 5 = Text.ofNat n ++ c :: t := rfl
  have hlower : decide (Text.asciiLower "line ".toList = "line ".toList) = true := by decide
  rw [lineDigits?, htake, hdrop, hdigits, hne, hlower]
  rfl

/-- Behind a text stands the place, and its line counts if the text refers to none. -/
theorem firstLineDigits?_place (cause : Text) (line : Nat) (column : Text) :
    firstLineDigits? false
        (cause ++ " at line ".toList ++ Text.ofNat line ++ " column ".toList ++ column)
      = (firstLineDigits? false cause).or (some (Text.ofNat line)) := by
  have hat : unreferring " at ".toList = true := by decide
  have hword : ∀ inWord, endsInWord inWord " at ".toList = false := endsInWord_space [' ', 'a', 't']
  have hsplit : " at line ".toList = " at ".toList ++ "line ".toList := rfl
  have hspace : " column ".toList ++ column = ' ' :: ("column ".toList ++ column) := by
    repeat rw [String.toList_ofList]
    rfl
  have hline := lineDigits?_of_line line (c := ' ') (by decide) ("column ".toList ++ column)
  have hplace : firstLineDigits? false
      ("line ".toList ++ (Text.ofNat line ++ (" column ".toList ++ column)))
        = some (Text.ofNat line) := by
    rw [hspace]
    exact firstLineDigits?_of_lineDigits? hline (by simp)
  have hapart : ∀ t : Text, Apart (" at ".toList ++ t) :=
    fun t => apart_space (by decide) ("t ".toList ++ t)
  rw [List.append_assoc, List.append_assoc, List.append_assoc, hsplit, List.append_assoc,
    firstLineDigits?_append (hapart _), firstLineDigits?_append_of_unreferring _ hat, hword, hplace]

/-- The line of a text that is not a document is that of the place where reading stopped, unless
the message quotes a text of the document that refers to another. -/
theorem line?_of_malformed {tree : FileTree} {source : Text} {failure : Failure}
    (h : (parseSource tree .keep source).result = .error failure) :
    ∃ stop cause, readSource source = .error stop ∧ failure = .malformed stop
      ∧ failure.message = cause ++ " at line ".toList ++ Text.ofNat stop.place.line
          ++ " column ".toList ++ Text.ofNat stop.place.column
      ∧ (failure.line? = some stop.place.line ↔ stop.place.line < Text.countBound
          ∧ ∀ digits, quotedReference? stop = some digits →
              Text.readDigits? digits = some stop.place.line) := by
  rcases hs : readSource source with stop | document
  · have hf : failure = .malformed stop := by
      rw [parseSource, hs] at h
      exact (Except.error.inj h).symm
    obtain ⟨cause, hmessage, hcause⟩ := exists_stopMessage (refusesFor_readSource source stop hs)
    refine ⟨stop, cause, rfl, hf, hf ▸ hmessage, ?_⟩
    have hline : failure.line?
        = ((quotedReference? stop).or (some (Text.ofNat stop.place.line))).bind
            Text.readDigits? := by
      have hm : (Failure.malformed stop).message = Failure.stopMessage stop := rfl
      rw [hf, Failure.line?, hm, hmessage, lineReference?, firstLineDigits?_place, hcause]
    rw [hline]
    rcases quotedReference? stop with _ | digits
    · simp [readDigits?_ofNat]
    · simpa using fun hd => lt_countBound_of_readDigits? hd
  · rw [parseSource, hs] at h
    cases h

/-- A sheet whose data is a text that refers to a line that the document does not have. -/
def sheetOfLine : Text := "[\x7b\"type\":\"sheet\",\"data\":\"line 7\"\x7d]".toList

/-- The line of the place where reading stops, and the line reference that is quoted there. -/
def stopLines? : Except (Json.Stop Decode.Mismatch) Document → Option (Nat × Option Text)
  | .error stop => some (stop.place.line, quotedReference? stop)
  | .ok _ => none

theorem stopLines?_sheetOfLine : stopLines? (readSource sheetOfLine) = some (1, some ['7']) := by
  delta sheetOfLine
  rw [String.toList_ofList]
  decide +kernel

/-- The line is not that of the place for a document on one line that quotes another. -/
theorem line?_ne_of_sheetOfLine : ∃ failure stop,
    (parseSource (.within []) .keep sheetOfLine).result = .error failure
      ∧ readSource sheetOfLine = .error stop ∧ stop.place.line = 1 ∧ failure.line? ≠ some 1 := by
  have hstop := stopLines?_sheetOfLine
  rcases hread : readSource sheetOfLine with stop | document <;> rw [hread] at hstop
  · obtain ⟨hline, hquoted⟩ : stop.place.line = 1 ∧ quotedReference? stop = some ['7'] := by
      simpa [stopLines?] using hstop
    have hfail : (parseSource (.within []) .keep sheetOfLine).result = .error (.malformed stop) := by
      rw [parseSource, hread]
      rfl
    obtain ⟨stop', -, hs, -, -, hiff⟩ := line?_of_malformed hfail
    obtain rfl : stop = stop' := Except.error.inj (hread.symm.trans hs)
    refine ⟨_, stop, hfail, rfl, hline, fun h => ?_⟩
    rw [← hline] at h
    exact absurd ((hiff.1 h).2 _ hquoted) (by rw [hline]; decide)
  · cases hstop

end BlockDocument
