import Mathlib.Data.List.Lex
import BlockDocument.Text.Basic

/-!
# The order of texts as bytes

A text is written in UTF-8. Of two characters the one with the smaller number has the smaller bytes
at the first place where their bytes differ, and no character's bytes begin with those of another,
so texts stand in the same order whether their characters are compared or their bytes.
-/

namespace BlockDocument.Text

/-- The bytes of a text. -/
def utf8 (t : Text) : List UInt8 := t.flatMap String.utf8EncodeChar

@[simp]
theorem utf8_cons (c : Char) (t : Text) : utf8 (c :: t) = String.utf8EncodeChar c ++ utf8 t := rfl

/-- The bytes of a smaller character come first, whatever follows. -/
theorem utf8EncodeChar_append_lt {c d : Char} (h : c < d) (s t : List UInt8) :
    String.utf8EncodeChar c ++ s < String.utf8EncodeChar d ++ t := by
  have hv : c.val.toNat < d.val.toNat := h
  have hd : d.val.toNat < 0x110000 := by
    rcases d.valid with hd | hd
    · exact hd.trans (by decide)
    · exact hd.2
  -- the digits of a character's number to the base 64 are the digits of its parts
  have h4096 (k : Nat) : k / 4096 = k / 64 / 64 := (Nat.div_div_eq_div_mul k 64 64).symm
  have h262144 (k : Nat) : k / 262144 = k / 64 / 64 / 64 := by
    rw [Nat.div_div_eq_div_mul, Nat.div_div_eq_div_mul]
  generalize hm : c.val.toNat = m at hv
  generalize hn : d.val.toNat = n at hv hd
  unfold String.utf8EncodeChar
  rw [hm, hn]
  dsimp only
  split_ifs
  all_goals
    simp only [List.cons_append, List.nil_append, List.cons_lt_cons_iff, UInt8.lt_iff_toNat_lt,
      ← UInt8.toNat_inj, UInt8.toNat_ofNat', h4096, h262144]
    omega

theorem utf8EncodeChar_ne_nil (c : Char) : String.utf8EncodeChar c ≠ [] := by
  intro h
  have hlength := String.length_utf8EncodeChar c
  rw [h, List.length_nil] at hlength
  exact absurd c.utf8Size_pos (by omega)

theorem utf8_lt_utf8 : ∀ {s t : Text}, s < t → utf8 s < utf8 t
  | [], d :: t, _ => by
    rw [utf8_cons]
    rcases hd : String.utf8EncodeChar d with _ | ⟨byte, bytes⟩
    · exact absurd hd (utf8EncodeChar_ne_nil d)
    · exact List.nil_lt_cons _ _
  | c :: s, d :: t, h => by
    rw [utf8_cons, utf8_cons]
    rcases List.cons_lt_cons_iff.1 h with hcd | ⟨rfl, hst⟩
    · exact utf8EncodeChar_append_lt hcd _ _
    · exact List.append_left_lt (utf8_lt_utf8 hst)

end BlockDocument.Text
