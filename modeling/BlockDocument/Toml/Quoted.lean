import BlockDocument.Text.Hexadecimal
import BlockDocument.Toml.Spacing

/-!
# Quoted text in TOML

Text stands in double quotes, where a backslash begins an escape, or in single quotes, where it
stands for itself. Three quotes in a row begin a text of several lines, which the next three end;
up to two more in front of those belong to the text. A line end right behind the opening quotes is
left out, and so are all blanks and line ends behind a backslash that ends its line.
-/

namespace BlockDocument.Toml

/-- The character that a one-letter escape stands for. -/
def escaped? : Char → Option Char
  | '"' => some '"'
  | '\\' => some '\\'
  | 'b' => some '\x08'
  | 'f' => some '\x0c'
  | 'n' => some '\n'
  | 'r' => some '\r'
  | 't' => some '\t'
  | _ => none

/-- Reads the digits of a code point. -/
def readCodePoint (digits : Nat) (t : Text) : Option (Char × Text) :=
  if t.length < digits then none
  else
    match Text.valueOf? 16 0 (t.take digits) with
    | none => none
    | some n => if n.isValidChar then some (Char.ofNat n, t.drop digits) else none

/-- Reads an escape whose backslash has been read. -/
def readEscape : Text → Option (Char × Text)
  | [] => none
  | c :: t =>
    if c = 'u' then readCodePoint 4 t
    else if c = 'U' then readCodePoint 8 t
    else (escaped? c).map (·, t)

theorem readEscape_shortens {t rest : Text} {c : Char} (h : readEscape t = some (c, rest)) :
    rest.length < t.length := by
  have hpoint : ∀ {n : Nat} {t : Text}, readCodePoint n t = some (c, rest) →
      rest.length ≤ t.length := by
    intro n t h
    unfold readCodePoint at h
    split at h
    · cases h
    · split at h
      · cases h
      · split at h
        · simp only [Option.some.injEq, Prod.mk.injEq] at h
          simp [← h.2]
        · cases h
  match t with
  | [] => cases h
  | d :: t =>
    simp only [readEscape] at h
    rw [List.length_cons]
    split at h
    · exact Nat.lt_succ_of_le (hpoint h)
    · split at h
      · exact Nat.lt_succ_of_le (hpoint h)
      · simp only [Option.map_eq_some_iff, Prod.mk.injEq] at h
        obtain ⟨_, _, _, rfl⟩ := h
        exact Nat.lt_succ_self _

/-- How a text is quoted. -/
structure QuoteStyle where
  quote : Char
  escapes : Bool
  lines : Bool
  deriving DecidableEq, Repr

/-- Puts a character in front of the text that was read. -/
def prepend (c : Char) (read : Option (Text × Text)) : Option (Text × Text) :=
  read.map fun r => (c :: r.1, r.2)

/-- The quotes that belong to a text of several lines which ends where the given quotes stand, or
nothing if they do not end it. -/
def closing? (quote : Char) (t : Text) : Option Nat :=
  let quotes := (t.takeWhile (· = quote)).length
  if quotes < 3 then none else some (min quotes 5)

/-- Whether a backslash that is followed by the given text ends its line. -/
def endsLine (t : Text) : Bool := (afterNewline? (skipBlanks t)).isSome

/-- What follows the blanks and line ends that a text begins with. -/
def skipLines : Text → Text
  | '\r' :: '\n' :: t => skipLines t
  | c :: t => if isBlank c || c = '\n' then skipLines t else c :: t
  | [] => []

theorem skipLines_length_le (t : Text) : (skipLines t).length ≤ t.length := by
  fun_induction skipLines t <;> simp_all <;> omega

/-- Reads quoted text whose opening quotes have been read. -/
def readQuoted (style : QuoteStyle) : Text → Option (Text × Text)
  | [] => none
  | c :: t =>
    if c = style.quote then
      if style.lines then
        match closing? style.quote (c :: t) with
        | some quotes => some (List.replicate (quotes - 3) c, (c :: t).drop quotes)
        | none => prepend c (readQuoted style t)
      else some ([], t)
    else if c = '\\' && style.escapes then
      if style.lines && endsLine t then readQuoted style (skipLines t)
      else
        match _h : readEscape t with
        | none => none
        | some (d, rest) => prepend d (readQuoted style rest)
    else if style.lines && c = '\n' then prepend c (readQuoted style t)
    else if style.lines && c = '\r' then
      match t with
      | '\n' :: rest => prepend '\n' (readQuoted style rest)
      | _ => none
    else if isPrintable c then prepend c (readQuoted style t)
    else none
termination_by t => t.length
decreasing_by
  · simp
  · exact Nat.lt_succ_of_le (skipLines_length_le t)
  · exact Nat.lt_succ_of_lt (readEscape_shortens _h)
  · simp
  · simp only [List.length_cons]
    omega
  · simp

/-- What follows a line end, or the text itself if it begins with none. -/
def skipNewline (t : Text) : Text := (afterNewline? t).getD t

/-- Reads a quoted text of one line. -/
def readLineQuoted : Text → Option (Text × Text)
  | '"' :: t => readQuoted ⟨'"', true, false⟩ t
  | '\'' :: t => readQuoted ⟨'\'', false, false⟩ t
  | _ => none

/-- Reads a quoted text of one or several lines. -/
def readText : Text → Option (Text × Text)
  | '"' :: '"' :: '"' :: t => readQuoted ⟨'"', true, true⟩ (skipNewline t)
  | '\'' :: '\'' :: '\'' :: t => readQuoted ⟨'\'', false, true⟩ (skipNewline t)
  | t => readLineQuoted t

end BlockDocument.Toml
