import BlockDocument.Html.Markup

/-!
# Inline marks

Text may hold `**strong**`, `*emphasised*` and backtick-quoted parts. The three kinds are read
one after the other over the same sequence, each seeing the tags that the earlier ones put in.
A marked part is at least one token long, ends at the first sign that can end it, and does not
run over a line feed. Marks of different kinds may overlap.

Reading a kind looks at a token at a time: either a marked part begins there, and reading goes
on behind its closing sign (`marked?_shortens` says that this comes to an end), or the token
stands for itself.
-/

namespace BlockDocument.Html

/-- The kinds of inline marks. -/
inductive Mark
  | strong | em | code
  deriving DecidableEq, Repr

/-- What stands on both sides of a marked part. -/
def Mark.sign : Mark → Text
  | .strong => ['*', '*']
  | .em => ['*']
  | .code => ['\x60']

/-- The element that a marked part becomes. -/
def Mark.tag : Mark → Tag
  | .strong => .strong
  | .em => .em
  | .code => .code

namespace Inline

/-- A character of the text, or a tag that a mark has become. -/
inductive Token
  | char (c : Char)
  | opening (mark : Mark)
  | closing (mark : Mark)
  deriving DecidableEq, Repr

/-- What follows a sign that the tokens begin with. -/
def afterSign? : Text → List Token → Option (List Token)
  | [], ts => some ts
  | c :: sign, .char d :: ts => if c = d then afterSign? sign ts else none
  | _ :: _, _ => none

/-- What stands before and after the first sign on the line. -/
def untilSign? (sign : Text) : List Token → Option (List Token × List Token)
  | [] => none
  | t :: ts =>
    match afterSign? sign (t :: ts) with
    | some rest => some ([], rest)
    | none =>
      if t = .char '\n' then none
      else (untilSign? sign ts).map fun parts => (t :: parts.1, parts.2)

/-- A marked part at the front: what is marked, and what follows its closing sign. -/
def marked? (mark : Mark) (ts : List Token) : Option (List Token × List Token) :=
  match afterSign? mark.sign ts with
  | some (t :: more) =>
    if t = .char '\n' then none
    else (untilSign? mark.sign more).map fun parts => (t :: parts.1, parts.2)
  | _ => none

theorem length_afterSign? : ∀ {sign : Text} {ts rest : List Token},
    afterSign? sign ts = some rest → rest.length ≤ ts.length
  | [], ts, rest, h => by simp_all [afterSign?]
  | c :: sign, [], rest, h => by simp [afterSign?] at h
  | c :: sign, .char d :: ts, rest, h => by
    simp only [afterSign?] at h
    split at h
    · exact Nat.le_succ_of_le (length_afterSign? h)
    · simp at h
  | c :: sign, .opening m :: ts, rest, h => by simp [afterSign?] at h
  | c :: sign, .closing m :: ts, rest, h => by simp [afterSign?] at h

theorem length_untilSign? {sign : Text} : ∀ {ts body rest : List Token},
    untilSign? sign ts = some (body, rest) → rest.length ≤ ts.length
  | [], body, rest, h => by simp [untilSign?] at h
  | t :: ts, body, rest, h => by
    simp only [untilSign?] at h
    split at h
    · rename_i r hr
      simp only [Option.some.injEq, Prod.mk.injEq] at h
      exact h.2 ▸ length_afterSign? hr
    · split at h
      · simp at h
      · simp only [Option.map_eq_some_iff, Prod.mk.injEq] at h
        obtain ⟨⟨b, r⟩, hr, -, rfl⟩ := h
        exact Nat.le_succ_of_le (length_untilSign? hr)

theorem marked?_shortens {mark : Mark} {ts body rest : List Token}
    (h : marked? mark ts = some (body, rest)) : rest.length < ts.length := by
  simp only [marked?] at h
  split at h
  · rename_i t more hs
    split at h
    · simp at h
    · simp only [Option.map_eq_some_iff, Prod.mk.injEq] at h
      obtain ⟨⟨b, r⟩, hr, -, rfl⟩ := h
      have h1 := length_afterSign? hs
      have h2 : r.length ≤ more.length := length_untilSign? hr
      simp only [List.length_cons] at h1
      show r.length < ts.length
      omega
  · simp at h

/-- Replaces the signs of every marked part of one kind by tags. -/
def place (mark : Mark) : List Token → List Token
  | [] => []
  | t :: ts =>
    match _found : marked? mark (t :: ts) with
    | some (body, rest) => .opening mark :: body ++ .closing mark :: place mark rest
    | none => t :: place mark ts
termination_by ts => ts.length
decreasing_by
  · exact marked?_shortens _found
  · simp

/-- The tokens of a text, with its marks placed: strong parts first, code last. -/
def read (t : Text) : List Token :=
  place .code (place .em (place .strong (t.map .char)))

/-- One token as markup. -/
def Token.markup : Token → Markup
  | .char c => .text [c]
  | .opening mark => .opening mark.tag []
  | .closing mark => .closing mark.tag

end Inline

/-- Text with inline marks as markup. -/
def inlineMarkup (t : Text) : List Markup := (Inline.read t).map Inline.Token.markup

end BlockDocument.Html
