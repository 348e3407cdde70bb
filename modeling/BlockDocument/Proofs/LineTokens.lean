import BlockDocument.Proofs.DiagnosticPlaces

/-!
# The tokens of a line

A line can be cut into tokens in one way only: a string is one token with all that is in it, and so
is every character outside the strings. A string that nothing closes takes the rest of the line.

The structural braces of a line are the braces that are tokens of their own (`braces_by_tokens`).
Of what stands in a string only its length matters, to the columns of the braces behind it.
-/

namespace BlockDocument.Source

open Text (AllBlank)

/-! ## The grammar -/

/-- What may stand between the quotes of a string. -/
inductive IsBody : Text → Prop
  | nil : IsBody []
  | plain {c : Char} {t : Text} (hquote : c ≠ '"') (hbackslash : c ≠ '\\') (ht : IsBody t) :
      IsBody (c :: t)
  | escaped {c : Char} {t : Text} (ht : IsBody t) : IsBody ('\\' :: c :: t)

/-- That no quote in a text closes a string that begins in front of it. -/
def IsUnclosed (rest : Text) : Prop := ∀ body t, IsBody body → rest ≠ body ++ '"' :: t

/-- A piece of a line: a character that is not in a string, or a string. -/
inductive Token
  | char (c : Char)
  | literal (body : Text)
  | unclosed (rest : Text)
  deriving DecidableEq, Repr

/-- A token as it stands in its line. -/
def Token.source : Token → Text
  | char c => [c]
  | literal body => '"' :: (body ++ ['"'])
  | unclosed rest => '"' :: rest

/-- That these are tokens, in an order in which a line can have them. -/
def AreTokens : List Token → Prop
  | [] => True
  | .char c :: later => c ≠ '"' ∧ AreTokens later
  | .literal body :: later => IsBody body ∧ AreTokens later
  | .unclosed rest :: later => IsUnclosed rest ∧ later = []

/-- A line cut into tokens. -/
structure IsCut (line : Text) (tokens : List Token) : Prop where
  source : tokens.flatMap Token.source = line
  tokens : AreTokens tokens

/-- That the first characters of a line that are not blank are two slashes. -/
def BeginsWithSlashes (line : Text) : Prop :=
  ∃ before after, AllBlank before ∧ line = before ++ '/' :: '/' :: after

/-! ## One way to cut a line -/

theorem IsBody.unique {body other t u : Text} (h : IsBody body) (h' : IsBody other)
    (heq : body ++ '"' :: t = other ++ '"' :: u) : body = other ∧ t = u := by
  -- a body that has ended is followed by a quote, and the other one cannot go on with a quote
  induction h generalizing other with
  | nil =>
    cases h' with
    | nil => exact ⟨rfl, (List.cons.inj heq).2⟩
    | plain hquote => exact absurd (List.cons.inj heq).1.symm hquote
    | escaped => exact absurd (List.cons.inj heq).1 (by decide)
  | plain hquote hbackslash _ ih =>
    cases h' with
    | nil => exact absurd (List.cons.inj heq).1 hquote
    | plain _ _ ht =>
      obtain ⟨rfl, hrest⟩ := List.cons.inj heq
      obtain ⟨rfl, rfl⟩ := ih ht hrest
      exact ⟨rfl, rfl⟩
    | escaped => exact absurd (List.cons.inj heq).1 hbackslash
  | escaped _ ih =>
    cases h' with
    | nil => exact absurd (List.cons.inj heq).1 (by decide)
    | plain _ hbackslash => exact absurd (List.cons.inj heq).1.symm hbackslash
    | escaped ht =>
      obtain ⟨rfl, hrest⟩ := List.cons.inj (List.cons.inj heq).2
      obtain ⟨rfl, rfl⟩ := ih ht hrest
      exact ⟨rfl, rfl⟩

theorem Token.source_ne_nil (token : Token) : token.source ≠ [] := by
  cases token <;> exact List.cons_ne_nil _ _

theorem flatMap_source_literal (body : Text) (later : List Token) :
    (Token.literal body :: later).flatMap Token.source
      = '"' :: (body ++ '"' :: later.flatMap Token.source) := by
  rw [List.flatMap_cons, Token.source, List.cons_append, List.append_assoc, List.singleton_append]

theorem AreTokens.tail {token : Token} {later : List Token} (h : AreTokens (token :: later)) :
    AreTokens later := by
  cases token with
  | char c => exact h.2
  | literal body => exact h.2
  | unclosed rest => exact h.2 ▸ trivial

theorem AreTokens.first_unique {token other : Token} {later more : List Token}
    (h : AreTokens (token :: later)) (h' : AreTokens (other :: more))
    (heq : (token :: later).flatMap Token.source = (other :: more).flatMap Token.source) :
    token = other ∧ later.flatMap Token.source = more.flatMap Token.source := by
  cases token with
  | char c =>
    cases other with
    | char d =>
      obtain ⟨rfl, hrest⟩ := List.cons.inj heq
      exact ⟨rfl, hrest⟩
    | literal body => exact absurd (List.cons.inj heq).1 h.1
    | unclosed rest => exact absurd (List.cons.inj heq).1 h.1
  | literal body =>
    rw [flatMap_source_literal] at heq
    cases other with
    | char d => exact absurd (List.cons.inj heq).1.symm h'.1
    | literal body' =>
      rw [flatMap_source_literal] at heq
      obtain ⟨rfl, hrest⟩ := h.1.unique h'.1 (List.cons.inj heq).2
      exact ⟨rfl, hrest⟩
    | unclosed rest =>
      -- the literal ends at a quote that closes the other string
      obtain ⟨hrest, rfl⟩ := h'
      rw [List.flatMap_singleton] at heq
      exact absurd (List.cons.inj heq).2.symm (hrest _ _ h.1)
  | unclosed rest =>
    obtain ⟨hrest, rfl⟩ := h
    rw [List.flatMap_singleton] at heq
    cases other with
    | char d => exact absurd (List.cons.inj heq).1.symm h'.1
    | literal body =>
      rw [flatMap_source_literal] at heq
      exact absurd (List.cons.inj heq).2 (hrest _ _ h'.1)
    | unclosed rest' =>
      obtain ⟨-, rfl⟩ := h'
      rw [List.flatMap_singleton] at heq
      exact ⟨congrArg Token.unclosed (List.cons.inj heq).2, rfl⟩

theorem AreTokens.unique : ∀ {tokens others : List Token}, AreTokens tokens → AreTokens others →
    tokens.flatMap Token.source = others.flatMap Token.source → tokens = others
  | [], [], _, _, _ => rfl
  | [], other :: _, _, _, heq =>
    absurd (List.append_eq_nil_iff.1 heq.symm).1 other.source_ne_nil
  | token :: _, [], _, _, heq =>
    absurd (List.append_eq_nil_iff.1 heq).1 token.source_ne_nil
  | token :: later, other :: more, h, h', heq => by
    obtain ⟨rfl, hrest⟩ := h.first_unique h' heq
    rw [AreTokens.unique h.tail h'.tail hrest]

theorem exists_isCut : ∀ line : Text, ∃ tokens, IsCut line tokens
  | [] => ⟨[], rfl, trivial⟩
  | c :: rest => by
    by_cases hc : c = '"'
    · subst hc
      by_cases hclosed : ∃ body t, IsBody body ∧ rest = body ++ '"' :: t
      · obtain ⟨body, t, hbody, hrest⟩ := hclosed
        have hshorter : t.length < rest.length + 1 := by
          rw [hrest, List.length_append, List.length_cons]
          omega
        obtain ⟨later, rfl, hlater⟩ := exists_isCut t
        exact ⟨.literal body :: later, by rw [flatMap_source_literal, hrest], hbody, hlater⟩
      · refine ⟨[.unclosed rest], List.append_nil _, ?_, rfl⟩
        exact fun body t hbody hrest => hclosed ⟨body, t, hbody, hrest⟩
    · obtain ⟨later, rfl, hlater⟩ := exists_isCut rest
      exact ⟨.char c :: later, rfl, hc, hlater⟩
termination_by line => line.length

theorem IsCut.unique {line : Text} {tokens others : List Token} (h : IsCut line tokens)
    (h' : IsCut line others) : others = tokens :=
  AreTokens.unique h'.tokens h.tokens (h'.source.trans h.source.symm)

/-! ## Scanning tokens -/

/-- The brace that a token is, if it is one. -/
def Token.brace? : Token → Option Brace
  | char c => Brace.ofChar? c
  | literal _ | unclosed _ => none

/-- The braces among tokens, the first of which begins in the given column. -/
def tokenBraces : (column : Nat) → List Token → List (Nat × Brace)
  | _, [] => []
  | column, token :: later =>
    (token.brace?.map (column, ·)).toList ++ tokenBraces (column + token.source.length) later

theorem scanBraces_string (column : Nat) (c : Char) (t : Text) :
    scanBraces .string column (c :: t) = scanBraces (ScanState.next .string c) (column + 1) t := rfl

theorem next_string {c : Char} (hquote : c ≠ '"') (hbackslash : c ≠ '\\') :
    ScanState.next .string c = .string := by
  rw [ScanState.next, if_neg hbackslash, if_neg hquote]

theorem scanBraces_body {body : Text} (h : IsBody body) (t : Text) (column : Nat) :
    scanBraces .string column (body ++ '"' :: t) = scanBraces .code (column + body.length + 1) t := by
  induction h generalizing column with
  | nil => rfl
  | plain hquote hbackslash _ ih =>
    rw [List.cons_append, scanBraces_string, next_string hquote hbackslash, ih, List.length_cons,
      Nat.add_right_comm column 1, Nat.add_assoc column]
  | escaped _ ih =>
    -- a backslash takes the next character with it, whatever that is
    refine (ih (column + 1 + 1)).trans ?_
    rw [List.length_cons, List.length_cons]
    congr 1
    omega

theorem scanBraces_unclosed : ∀ {rest : Text} (column : Nat), IsUnclosed rest →
    scanBraces .string column rest = []
  | [], _, _ => rfl
  | c :: t, column, h => by
    by_cases hquote : c = '"'
    · exact absurd (congrArg (· :: t) hquote) (h [] t .nil)
    by_cases hbackslash : c = '\\'
    · subst hbackslash
      cases t with
      | nil => rfl
      | cons d t =>
        exact scanBraces_unclosed (column + 1 + 1) fun body u hbody ht =>
          h _ u (.escaped hbody) (congrArg ('\\' :: d :: ·) ht)
    · rw [scanBraces_string, next_string hquote hbackslash]
      exact scanBraces_unclosed (column + 1) fun body u hbody ht =>
        h _ u (.plain hquote hbackslash hbody) (congrArg (c :: ·) ht)

/-- Scanning finds the braces that are tokens of their own. -/
theorem scanBraces_tokens : ∀ {tokens : List Token} (column : Nat), AreTokens tokens →
    scanBraces .code column (tokens.flatMap Token.source) = tokenBraces column tokens
  | [], _, _ => rfl
  | .char c :: later, column, h => by
    have hnext : ScanState.next .code c = .code := if_neg h.1
    have ih := scanBraces_tokens (column + 1) h.2
    rw [List.flatMap_cons, Token.source, List.singleton_append, tokenBraces, Token.brace?]
    unfold scanBraces
    rw [hnext, ih]
    cases Brace.ofChar? c <;> rfl
  | .literal body :: later, column, h => by
    have hlength : column + (Token.literal body).source.length = column + 1 + body.length + 1 := by
      rw [Token.source, List.length_cons, List.length_append, List.length_singleton]
      omega
    rw [flatMap_source_literal, tokenBraces, hlength, ← scanBraces_tokens _ h.2]
    exact scanBraces_body h.1 _ (column + 1)
  | .unclosed rest :: later, column, h => by
    obtain ⟨hrest, rfl⟩ := h
    rw [List.flatMap_singleton]
    exact scanBraces_unclosed (column + 1) hrest

theorem Token.brace?_eq_some_iff {token : Token} {b : Brace} :
    token.brace? = some b ↔ token = .char b.sign := by
  constructor
  · intro h
    cases token with
    | char c => exact congrArg Token.char (eq_sign_of_ofChar? h)
    | literal body => cases h
    | unclosed rest => cases h
  · rintro rfl
    cases b <;> rfl

theorem mem_tokenBraces {column : Nat} {b : Brace} : ∀ {tokens : List Token} {start : Nat},
    (column, b) ∈ tokenBraces start tokens ↔ ∃ before after, tokens = before ++ .char b.sign :: after
      ∧ column = start + (before.flatMap Token.source).length
  | [], _ => by simp [tokenBraces]
  | token :: later, start => by
    rw [tokenBraces, List.mem_append, Option.mem_toList, Option.map_eq_some_iff, mem_tokenBraces]
    constructor
    · rintro (⟨_, hbrace, hplace⟩ | ⟨before, after, rfl, rfl⟩)
      · cases hplace
        exact ⟨[], later, by rw [Token.brace?_eq_some_iff.1 hbrace]; rfl, rfl⟩
      · refine ⟨token :: before, after, rfl, ?_⟩
        rw [List.flatMap_cons, List.length_append, Nat.add_assoc]
    · rintro ⟨_ | ⟨first, before⟩, after, htokens, rfl⟩
      · obtain ⟨rfl, -⟩ := List.cons.inj htokens
        exact .inl ⟨b, Token.brace?_eq_some_iff.2 rfl, rfl⟩
      · obtain ⟨rfl, rfl⟩ := List.cons.inj htokens
        refine .inr ⟨before, after, rfl, ?_⟩
        rw [List.flatMap_cons, List.length_append, Nat.add_assoc]

/-! ## Another string in a line -/

theorem AreTokens.exchange {body other : Text} {after : List Token} (hother : IsBody other) :
    ∀ {before : List Token}, AreTokens (before ++ .literal body :: after) →
      AreTokens (before ++ .literal other :: after)
  | [], h => ⟨hother, h.2⟩
  | .char _ :: _, h => ⟨h.1, exchange hother h.2⟩
  | .literal _ :: _, h => ⟨h.1, exchange hother h.2⟩
  | .unclosed _ :: _, h => absurd h.2 (by simp)

theorem tokenBraces_append (more : List Token) : ∀ (tokens : List Token) (column : Nat),
    tokenBraces column (tokens ++ more) = tokenBraces column tokens
      ++ tokenBraces (column + (tokens.flatMap Token.source).length) more
  | [], _ => rfl
  | token :: tokens, column => by
    rw [List.cons_append, tokenBraces, tokenBraces, tokenBraces_append more tokens,
      List.append_assoc, List.flatMap_cons, List.length_append, Nat.add_assoc]

theorem tokenBraces_exchange {body other : Text} (hlength : other.length = body.length)
    (before after : List Token) (column : Nat) :
    tokenBraces column (before ++ .literal other :: after)
      = tokenBraces column (before ++ .literal body :: after) := by
  have hsource : (Token.literal other).source.length = (Token.literal body).source.length := by
    simp [Token.source, hlength]
  rw [tokenBraces_append, tokenBraces_append, tokenBraces, tokenBraces, hsource]
  rfl

/-! ## Comments -/

theorem isComment_iff {line : Text} : isComment line = true ↔ BeginsWithSlashes line := by
  constructor
  · intro h
    obtain ⟨after, hafter⟩ := Option.isSome_iff_exists.1 h
    refine ⟨line.takeWhile isBlank, after, fun _ hc => List.mem_takeWhile_imp hc, ?_⟩
    rw [Text.afterStart?_eq_some_iff] at hafter
    exact (List.takeWhile_append_dropWhile (p := isBlank)).symm.trans (congrArg _ hafter)
  · rintro ⟨before, after, hbefore, rfl⟩
    unfold isComment Text.trimStart
    rw [List.dropWhile_append_of_pos hbefore]
    rfl

/-- Whether a line is a comment is settled in front of its first quote. -/
theorem beginsWithSlashes_append_quote {before t : Text} :
    BeginsWithSlashes (before ++ '"' :: t) ↔ BeginsWithSlashes before := by
  constructor
  · rintro ⟨blank, after, hblank, heq⟩
    -- a quote is neither blank nor a slash, so both slashes stand in front of it
    rcases List.append_eq_append_iff.1 heq with ⟨more, rfl, hmore⟩ | ⟨more, rfl, hmore⟩
    · rcases more with _ | ⟨c, more⟩
      · cases hmore
      · obtain ⟨rfl, -⟩ := List.cons.inj hmore
        cases hblank '"' (by simp)
    · rcases more with _ | ⟨c, _ | ⟨d, more⟩⟩
      · cases hmore
      · cases hmore
      · cases hmore
        exact ⟨blank, more, hblank, rfl⟩
  · rintro ⟨blank, after, hblank, rfl⟩
    exact ⟨blank, after ++ '"' :: t, hblank, by simp⟩

theorem isComment_exchange (before after : List Token) (body other : Text) :
    isComment ((before ++ .literal other :: after).flatMap Token.source)
      = isComment ((before ++ .literal body :: after).flatMap Token.source) := by
  rw [Bool.eq_iff_iff, isComment_iff, isComment_iff, List.flatMap_append, List.flatMap_append,
    flatMap_source_literal, flatMap_source_literal, beginsWithSlashes_append_quote,
    beginsWithSlashes_append_quote]

/-! ## All braces of a line -/

theorem IsCut.braces_eq {line : Text} {tokens : List Token} (h : IsCut line tokens) :
    braces line = if isComment line then [] else tokenBraces 0 tokens := by
  rw [← scanBraces_tokens 0 h.tokens, h.source]
  rfl

/-- A line can be cut into tokens in one way only. Unless it is a comment, its structural braces
are the braces among its tokens, from the left to the right; and they stay where they are when what
stands in a string is replaced by as many other characters. -/
theorem braces_by_tokens (line : Text) :
    (∃! tokens, IsCut line tokens)
      ∧ (BeginsWithSlashes line → braces line = [])
      ∧ (braces line).Pairwise (fun a b => a.1 < b.1)
      ∧ ∀ tokens, IsCut line tokens →
        (¬BeginsWithSlashes line → ∀ column b, (column, b) ∈ braces line ↔
          ∃ before after, tokens = before ++ .char b.sign :: after
            ∧ column = (before.flatMap Token.source).length)
        ∧ ∀ before body after other, tokens = before ++ .literal body :: after →
          IsBody other → other.length = body.length →
            braces ((before ++ .literal other :: after).flatMap Token.source) = braces line := by
  refine ⟨?_, fun hcomment => ?_, pairwise_braces line, fun tokens hcut => ⟨fun hcode column b => ?_,
    fun before body after other htokens hother hlength => ?_⟩⟩
  · obtain ⟨tokens, hcut⟩ := exists_isCut line
    exact ⟨tokens, hcut, fun others => hcut.unique⟩
  · exact if_pos (isComment_iff.2 hcomment)
  · rw [hcut.braces_eq, if_neg (mt isComment_iff.1 hcode), mem_tokenBraces]
    simp only [Nat.zero_add]
  · subst htokens
    have hexchanged : IsCut _ (before ++ .literal other :: after) :=
      ⟨rfl, hcut.tokens.exchange hother⟩
    rw [hexchanged.braces_eq, hcut.braces_eq, ← hcut.source, isComment_exchange,
      tokenBraces_exchange hlength]

end BlockDocument.Source
