import BlockDocument.Command.Invocation
import BlockDocument.Proofs.Lexeme
import Mathlib.Tactic.SplitIfs

/-!
# Reading options

What arguments give is read one argument at a time (`Grammar.take`), and an option that lacks its
value takes the next one: `Grammar.Reads` says this as a relation, which is what reading computes
(`read_eq_ok_iff`). Reading goes the same way if the option for the output has been given before
or not (`Reads.withoutOutput`). So the words that give it can be taken out of a command line, and
what is left asks for the same without the output (`ofArguments_withoutOutput`).
-/

namespace BlockDocument.Command

/-- What one argument adds to what is given, and the option that still lacks its value. -/
def Grammar.take (grammar : Grammar) (g : Given) (argument : Text) :
    Except Refusal (Given × Option Parameter) :=
  match Shape.of argument with
  | .separator => .error .usage
  | .named body => g.addNamed grammar.known body
  | .letters letters => g.addLetters grammar.known letters
  | .operand => (g.addOperands grammar.operands [argument]).map (·, none)

/-- How arguments are read, up to the one that divides them. -/
inductive Grammar.Reads (grammar : Grammar) : Given → List Text → Given × List Text → Prop
  | nil {g} : Reads grammar g [] (g, [])
  | divided {g argument rest} : grammar.divides argument = true →
      Reads grammar g (argument :: rest) (g, argument :: rest)
  | separated {g g' argument rest} : grammar.divides argument = false →
      Shape.of argument = .separator → g.addOperands grammar.operands rest = .ok g' →
      Reads grammar g (argument :: rest) (g', [])
  | taken {g g' argument rest r} : grammar.divides argument = false →
      grammar.take g argument = .ok (g', none) → Reads grammar g' rest r →
      Reads grammar g (argument :: rest) r
  | valued {g g' g'' p argument value behind r} : grammar.divides argument = false →
      grammar.take g argument = .ok (g', some p) → isValue value = true →
      g'.add p value = .ok g'' → Reads grammar g'' behind r →
      Reads grammar g (argument :: value :: behind) r

/-- Reads what follows an argument: the value of an option that lacks it, and the arguments
behind that. -/
def Grammar.goOn (grammar : Grammar) (rest : List Text) :
    Except Refusal (Given × Option Parameter) → Except Refusal (Given × List Text)
  | .error e => .error e
  | .ok (g, none) => grammar.read g rest
  | .ok (g, some p) =>
    match rest with
    | [] => .error .usage
    | value :: behind =>
      if isValue value then
        match g.add p value with
        | .error e => .error e
        | .ok g => grammar.read g behind
      else .error .usage

namespace Grammar

variable {grammar : Grammar} {g g' : Given} {p : Parameter} {argument value : Text}
  {rest : List Text} {r : Given × List Text}

theorem read_divided (h : grammar.divides argument = true) :
    grammar.read g (argument :: rest) = .ok (g, argument :: rest) := by
  rw [read, if_pos h]

theorem read_separated (h : grammar.divides argument = false)
    (hs : Shape.of argument = .separator) :
    grammar.read g (argument :: rest) = (g.addOperands grammar.operands rest).map (·, []) := by
  rw [read, if_neg (by simp [h])]
  simp only [hs]

theorem read_cons (h : grammar.divides argument = false) (hs : Shape.of argument ≠ .separator) :
    grammar.read g (argument :: rest) = grammar.goOn rest (grammar.take g argument) := by
  rw [read, if_neg (by simp [h])]
  unfold take
  cases hshape : Shape.of argument with
  | separator => exact absurd hshape hs
  | named body => rfl
  | letters letters => rfl
  | operand =>
    show _ = grammar.goOn rest ((g.addOperands grammar.operands [argument]).map (·, none))
    rcases g.addOperands grammar.operands [argument] with e | g' <;> rfl

theorem shape_of_take {t : Given × Option Parameter} (h : grammar.take g argument = .ok t) :
    Shape.of argument ≠ .separator := by
  intro hs
  unfold take at h
  simp only [hs] at h
  cases h

theorem goOn_pending_eq_ok (h : grammar.goOn rest (.ok (g, some p)) = .ok r) :
    ∃ value behind g', rest = value :: behind ∧ isValue value = true ∧ g.add p value = .ok g'
      ∧ grammar.read g' behind = .ok r := by
  cases rest with
  | nil => cases h
  | cons value behind =>
    simp only [goOn] at h
    split at h
    · rename_i hvalue
      rcases ha : g.add p value with e | g' <;> rw [ha] at h
      · cases h
      · exact ⟨value, behind, g', rfl, hvalue, ha, h⟩
    · cases h

theorem goOn_pending (hvalue : isValue value = true) (ha : g.add p value = .ok g') :
    grammar.goOn (value :: rest) (.ok (g, some p)) = grammar.read g' rest := by
  simp only [goOn, hvalue, ha, ↓reduceIte]

theorem Reads.read_eq {arguments : List Text} (h : grammar.Reads g arguments r) :
    grammar.read g arguments = .ok r := by
  induction h with
  | nil => rfl
  | divided hd => exact read_divided hd
  | separated hd hs ha => rw [read_separated hd hs, ha]; rfl
  | taken hd ht _ ih => rw [read_cons hd (shape_of_take ht), ht]; exact ih
  | valued hd ht hvalue ha _ ih =>
    rw [read_cons hd (shape_of_take ht), ht, goOn_pending hvalue ha]
    exact ih

theorem reads_of_read : ∀ {arguments : List Text} {g : Given},
    grammar.read g arguments = .ok r → grammar.Reads g arguments r
  | [], _, h => by cases h; exact .nil
  | argument :: rest, g, h => by
    cases hd : grammar.divides argument with
    | true => rw [read_divided hd] at h; cases h; exact .divided hd
    | false =>
      by_cases hs : Shape.of argument = .separator
      · rw [read_separated hd hs] at h
        rcases ha : g.addOperands grammar.operands rest with e | g' <;> rw [ha] at h <;> cases h
        exact .separated hd hs ha
      · rw [read_cons hd hs] at h
        rcases ht : grammar.take g argument with e | ⟨g', _ | p⟩ <;> rw [ht] at h
        · cases h
        · exact .taken hd ht (reads_of_read h)
        · obtain ⟨value, behind, g'', rfl, hvalue, ha, hr⟩ := goOn_pending_eq_ok h
          exact .valued hd ht hvalue ha (reads_of_read hr)

theorem read_eq_ok_iff {arguments : List Text} :
    grammar.read g arguments = .ok r ↔ grammar.Reads g arguments r :=
  ⟨reads_of_read, Reads.read_eq⟩

theorem reads_pending {p : Parameter} (hd : grammar.divides argument = false)
    (hs : Shape.of argument ≠ .separator) (ht : grammar.take g argument = .ok (g, some p))
    (h : grammar.Reads g (argument :: value :: rest) r) :
    ∃ g', g.add p value = .ok g' ∧ grammar.Reads g' rest r := by
  rw [← read_eq_ok_iff, read_cons hd hs, ht] at h
  obtain ⟨_, _, g', heq, -, ha, hr⟩ := goOn_pending_eq_ok h
  cases heq
  exact ⟨g', ha, reads_of_read hr⟩

theorem reads_complete {p : Parameter} (hd : grammar.divides argument = false)
    (hs : Shape.of argument ≠ .separator)
    (ht : grammar.take g argument = (g.add p value).map (·, none))
    (h : grammar.Reads g (argument :: rest) r) :
    ∃ g', g.add p value = .ok g' ∧ grammar.Reads g' rest r := by
  rw [← read_eq_ok_iff, read_cons hd hs, ht] at h
  rcases ha : g.add p value with e | g' <;> rw [ha] at h
  · cases h
  · exact ⟨g', rfl, reads_of_read h⟩

end Grammar

/-! ## Without the output -/

/-- What is given, but no output. -/
def Given.withoutOutput (g : Given) : Given :=
  { g with options := g.options.filter fun o => o.1 ≠ .output }

/-- The task, but no output. -/
def Task.withoutOutput : Task → Task
  | .preview input _ theme nonce policySource => .preview input none theme nonce policySource
  | task => task

/-- What is asked for, but no output. -/
def Invocation.withoutOutput (i : Invocation) : Invocation :=
  { i with task := i.task.map Task.withoutOutput }

namespace Given

variable {g g' : Given} {p : Parameter} {value : Text} {known : List Parameter}
  {pending : Option Parameter}

theorem add_eq_ok (h : g.add p value = .ok g') :
    p ≠ .help ∧ p ≠ .version ∧ g.has p = false
      ∧ g' = { g with options := (p, value) :: g.options } := by
  unfold add at h
  split_ifs at h with h1 h2 h3
  exact ⟨h1, h2, by simpa using h3, (Except.ok.inj h).symm⟩

theorem has_withoutOutput (hp : p ≠ .output) : g.withoutOutput.has p = g.has p := by
  unfold has withoutOutput
  rw [List.any_filter]
  congr 1
  funext o
  by_cases ho : o.1 = p
  · simp [ho, hp]
  · simp [ho]

theorem value?_withoutOutput (hp : p ≠ .output) : g.withoutOutput.value? p = g.value? p := by
  unfold value? withoutOutput
  rw [List.find?_filter]
  congr 2
  funext o
  by_cases ho : o.1 = p
  · simp [ho, hp]
  · simp [ho]

theorem value?_withoutOutput_self : g.withoutOutput.value? .output = none := by
  unfold value? withoutOutput
  rw [List.find?_filter, List.find?_eq_none.2 (by simp)]
  rfl

@[simp] theorem withoutOutput_operands : g.withoutOutput.operands = g.operands := rfl

theorem withoutOutput_add : withoutOutput { g with options := (.output, value) :: g.options }
    = g.withoutOutput := by
  unfold withoutOutput
  rw [List.filter_cons_of_neg (by simp)]

theorem withoutOutput_of_has (h : g.has .output = false) : g.withoutOutput = g := by
  unfold withoutOutput
  rw [List.filter_eq_self.2]
  intro o ho
  simpa using (List.any_eq_false.1 h) o ho

theorem add_withoutOutput (hg : g.has .output = true) (h : g.add p value = .ok g') :
    g'.has .output = true ∧ g.withoutOutput.add p value = .ok g'.withoutOutput := by
  obtain ⟨hhelp, hversion, hno, rfl⟩ := add_eq_ok h
  have hp : p ≠ .output := fun hp => by rw [hp, hg] at hno; cases hno
  refine ⟨?_, ?_⟩
  · show ((p, value) :: g.options).any _ = true
    rw [List.any_cons, show g.options.any _ = true from hg, Bool.or_true]
  · rw [add, if_neg hhelp, if_neg hversion, has_withoutOutput hp, hno, if_neg (by simp)]
    unfold withoutOutput
    rw [List.filter_cons_of_pos (by simpa using hp)]

theorem addOperands_withoutOutput {limit : Nat} {operands : List Text}
    (h : g.addOperands limit operands = .ok g') :
    g'.has .output = g.has .output
      ∧ g.withoutOutput.addOperands limit operands = .ok g'.withoutOutput := by
  unfold addOperands at h
  split_ifs at h with hlimit
  cases h
  exact ⟨rfl, if_pos hlimit⟩

theorem map_add_withoutOutput {lacking : Option Parameter} (hg : g.has .output = true)
    (h : (g.add p value).map (·, lacking) = .ok (g', pending)) :
    g'.has .output = true
      ∧ (g.withoutOutput.add p value).map (·, lacking) = .ok (g'.withoutOutput, pending) := by
  rcases ha : g.add p value with e | g₁ <;> rw [ha] at h <;> cases h
  obtain ⟨hg', ha'⟩ := add_withoutOutput hg ha
  rw [ha']
  exact ⟨hg', rfl⟩

theorem addNamed_withoutOutput {body : Text} (hg : g.has .output = true)
    (h : g.addNamed known body = .ok (g', pending)) :
    g'.has .output = true
      ∧ g.withoutOutput.addNamed known body = .ok (g'.withoutOutput, pending) := by
  unfold addNamed at h ⊢
  rcases hs : Text.splitFirst '=' body with _ | ⟨name, value⟩ <;> simp only [hs] at h ⊢
  · rcases hk : known.find? fun p => p.name = body with _ | p <;> simp only [hk] at h ⊢
    · cases h
    · split_ifs at h ⊢
      · cases h
        exact ⟨hg, rfl⟩
      · exact map_add_withoutOutput hg h
  · rcases hk : known.find? fun p => p.name = name with _ | p <;> simp only [hk] at h ⊢
    · cases h
    · split_ifs at h ⊢
      exact map_add_withoutOutput hg h

theorem addLetters_withoutOutput : ∀ {letters : Text} {g : Given}, g.has .output = true →
    addLetters known g letters = .ok (g', pending) →
      g'.has .output = true
        ∧ addLetters known g.withoutOutput letters = .ok (g'.withoutOutput, pending)
  | [], g, hg, h => by
    cases h
    exact ⟨hg, rfl⟩
  | c :: rest, g, hg, h => by
    simp only [addLetters] at h ⊢
    rcases hk : known.find? fun p => p.letter? = some c with _ | p <;> simp only [hk] at h ⊢
    · cases h
    · split_ifs at h ⊢
      · rcases hv : attachedValue? rest with _ | value <;> simp only [hv] at h ⊢
        · cases h
          exact ⟨hg, rfl⟩
        · exact map_add_withoutOutput hg h
      · rcases ha : g.add p [] with e | g₁ <;> simp only [ha] at h
        · cases h
        · obtain ⟨hg', ha'⟩ := add_withoutOutput hg ha
          simp only [ha']
          exact addLetters_withoutOutput hg' h

end Given

namespace Grammar

variable {grammar : Grammar} {g g' : Given} {pending : Option Parameter} {argument : Text}

theorem take_withoutOutput (hg : g.has .output = true)
    (h : grammar.take g argument = .ok (g', pending)) :
    g'.has .output = true
      ∧ grammar.take g.withoutOutput argument = .ok (g'.withoutOutput, pending) := by
  unfold take at h ⊢
  cases hs : Shape.of argument with
  | separator => rw [hs] at h; cases h
  | named body => rw [hs] at h; exact Given.addNamed_withoutOutput hg h
  | letters letters => rw [hs] at h; exact Given.addLetters_withoutOutput hg h
  | operand =>
    simp only [hs] at h ⊢
    rcases ha : g.addOperands grammar.operands [argument] with e | g₁ <;> rw [ha] at h <;> cases h
    obtain ⟨hg', ha'⟩ := Given.addOperands_withoutOutput ha
    rw [ha']
    exact ⟨hg' ▸ hg, rfl⟩

/-- If the output has been given, what follows is read as if it had not. -/
theorem Reads.withoutOutput {arguments : List Text} {r : Given × List Text}
    (h : grammar.Reads g arguments r) :
    g.has .output = true → grammar.Reads g.withoutOutput arguments (r.1.withoutOutput, r.2) := by
  induction h with
  | nil => exact fun _ => .nil
  | divided hd => exact fun _ => .divided hd
  | separated hd hs ha => exact fun _ => .separated hd hs (Given.addOperands_withoutOutput ha).2
  | taken hd ht _ ih =>
    intro hg
    obtain ⟨hg', ht'⟩ := take_withoutOutput hg ht
    exact .taken hd ht' (ih hg')
  | valued hd ht hvalue ha _ ih =>
    intro hg
    obtain ⟨hg', ht'⟩ := take_withoutOutput hg ht
    obtain ⟨hg'', ha'⟩ := Given.add_withoutOutput hg' ha
    exact .valued hd ht' hvalue ha' (ih hg'')

end Grammar

/-! ## Command lines without the output -/

/-- The ways of writing the option for the output. -/
inductive WritesOutput : List Text → Prop
  | letter (value : Text) : WritesOutput [['-', 'o'], value]
  | name (value : Text) : WritesOutput ['-' :: '-' :: Parameter.output.name, value]
  | atLetter (c : Char) (rest : Text) : WritesOutput ['-' :: 'o' :: c :: rest]
  | atName (value : Text) : WritesOutput ['-' :: '-' :: (Parameter.output.name ++ '=' :: value)]

theorem find_output_name :
    (Verb.preview.grammar.known.find? fun p => p.name = Parameter.output.name) = some .output := by
  decide

theorem find_output_letter :
    (Verb.preview.grammar.known.find? fun p => p.letter? = some 'o') = some .output := by
  decide

theorem find_outer_output_name :
    (Invocation.outerGrammar.known.find? fun p => p.name = Parameter.output.name) = none := by
  decide

theorem find_outer_output_letter :
    (Invocation.outerGrammar.known.find? fun p => p.letter? = some 'o') = none := by
  decide

theorem splitFirst_output_name : Text.splitFirst '=' Parameter.output.name = none := by
  decide

theorem splitFirst_output_name_append (value : Text) :
    Text.splitFirst '=' (Parameter.output.name ++ '=' :: value)
      = some (Parameter.output.name, value) :=
  Text.splitFirst_append (by decide)

theorem take_output_letter (g : Given) :
    Verb.preview.grammar.take g ['-', 'o'] = .ok (g, some .output) := by
  show g.addLetters Verb.preview.grammar.known ['o'] = _
  simp only [Given.addLetters, find_output_letter]
  rfl

theorem take_output_name (g : Given) :
    Verb.preview.grammar.take g ('-' :: '-' :: Parameter.output.name) = .ok (g, some .output) := by
  show g.addNamed Verb.preview.grammar.known Parameter.output.name = _
  simp only [Given.addNamed, splitFirst_output_name, find_output_name]
  rfl

theorem take_output_atName (g : Given) (value : Text) :
    Verb.preview.grammar.take g ('-' :: '-' :: (Parameter.output.name ++ '=' :: value))
      = (g.add .output value).map (·, none) := by
  show g.addNamed Verb.preview.grammar.known (Parameter.output.name ++ '=' :: value) = _
  simp only [Given.addNamed, splitFirst_output_name_append, find_output_name]
  rfl

theorem attachedValue?_cons (c : Char) (rest : Text) :
    ∃ value, Given.attachedValue? (c :: rest) = some value := by
  unfold Given.attachedValue?
  split
  · contradiction
  · exact ⟨_, rfl⟩
  · exact ⟨_, rfl⟩

theorem take_output_atLetter (g : Given) (c : Char) (rest : Text) :
    ∃ value, Verb.preview.grammar.take g ('-' :: 'o' :: c :: rest)
      = (g.add .output value).map (·, none) := by
  obtain ⟨value, hvalue⟩ := attachedValue?_cons c rest
  refine ⟨value, ?_⟩
  show g.addLetters Verb.preview.grammar.known ('o' :: c :: rest) = _
  simp only [Given.addLetters, find_output_letter, hvalue]
  rfl

theorem divides_dashed (t : Text) : Invocation.outerGrammar.divides ('-' :: t) = false := by
  have hname : ∀ v ∈ Verb.all, v.name.head? ≠ some '-' := by decide
  have hnone : Verb.ofName? ('-' :: t) = none := by
    refine List.find?_eq_none.2 fun v hv hdash => hname v hv ?_
    rw [of_decide_eq_true hdash]
    rfl
  have hhelp : '-' :: t ≠ Invocation.helpWord := fun h =>
    absurd (congrArg List.head? h).symm (show Invocation.helpWord.head? ≠ some '-' by decide)
  show ((Verb.ofName? ('-' :: t)).isSome || decide ('-' :: t = Invocation.helpWord)) = false
  rw [hnone, decide_eq_false hhelp]
  rfl

namespace WritesOutput

variable {words : List Text}

/-- The words that write the output begin with one that is no value and that only a task knows. -/
theorem eq_cons (h : WritesOutput words) : ∃ word behind, words = word :: behind
    ∧ isValue word = false ∧ Invocation.outerGrammar.divides word = false
    ∧ Shape.of word ≠ .separator
    ∧ ∀ g, Invocation.outerGrammar.take g word = .error .usage := by
  cases h with
  | letter value =>
    refine ⟨_, _, rfl, rfl, divides_dashed _, by decide, fun g => ?_⟩
    show g.addLetters Invocation.outerGrammar.known ['o'] = _
    simp only [Given.addLetters, find_outer_output_letter]
  | name value =>
    refine ⟨_, _, rfl, rfl, divides_dashed _, by decide, fun g => ?_⟩
    show g.addNamed Invocation.outerGrammar.known Parameter.output.name = _
    simp only [Given.addNamed, splitFirst_output_name, find_outer_output_name]
  | atLetter c rest =>
    refine ⟨_, _, rfl, rfl, divides_dashed _, nofun, fun g => ?_⟩
    show g.addLetters Invocation.outerGrammar.known ('o' :: c :: rest) = _
    simp only [Given.addLetters, find_outer_output_letter]
  | atName value =>
    refine ⟨_, _, rfl, rfl, divides_dashed _, nofun, fun g => ?_⟩
    show g.addNamed Invocation.outerGrammar.known (Parameter.output.name ++ '=' :: value) = _
    simp only [Given.addNamed, splitFirst_output_name_append, find_outer_output_name]

/-- A task that reads them is given an output. -/
theorem reads_preview (h : WritesOutput words) {g : Given} {after : List Text}
    {r : Given × List Text} (hr : Verb.preview.grammar.Reads g (words ++ after) r) :
    ∃ value g', g.add .output value = .ok g' ∧ Verb.preview.grammar.Reads g' after r := by
  cases h with
  | letter value =>
    exact ⟨value, Grammar.reads_pending rfl (by decide) (take_output_letter g) hr⟩
  | name value =>
    exact ⟨value, Grammar.reads_pending rfl (by decide) (take_output_name g) hr⟩
  | atLetter c rest =>
    obtain ⟨value, htake⟩ := take_output_atLetter g c rest
    exact ⟨value, Grammar.reads_complete rfl (by nofun) htake hr⟩
  | atName value =>
    exact ⟨value, Grammar.reads_complete rfl (by nofun) (take_output_atName g value) hr⟩

end WritesOutput

theorem eq_of_shape_separator {argument : Text} (h : Shape.of argument = .separator) :
    argument = ['-', '-'] := by
  unfold Shape.of at h
  split at h
  · rfl
  all_goals cases h

/-- Reading a task without the words that give its output. -/
theorem Grammar.Reads.drop {words after : List Text} (hw : WritesOutput words) :
    ∀ {before : List Text} {g : Given} {r : Given × List Text}, ['-', '-'] ∉ before →
      Verb.preview.grammar.Reads g (before ++ (words ++ after)) r →
        Verb.preview.grammar.Reads g (before ++ after) (r.1.withoutOutput, r.2)
  | [], g, _, _, h => by
    -- the output cannot be given twice, so without it what is given is what was given before
    obtain ⟨value, g', ha, hr⟩ := hw.reads_preview h
    obtain ⟨-, -, hno, rfl⟩ := Given.add_eq_ok ha
    have hr := hr.withoutOutput (by simp [Given.has])
    rwa [Given.withoutOutput_add, Given.withoutOutput_of_has hno] at hr
  | a :: before, g, _, hno, h => by
    have hno' : ['-', '-'] ∉ before := fun hm => hno (List.mem_cons_of_mem _ hm)
    rw [List.cons_append] at h ⊢
    generalize hl : before ++ (words ++ after) = l at h
    cases h with
    | divided hd => cases hd
    | separated _ hs _ => exact absurd (List.mem_cons.2 (.inl (eq_of_shape_separator hs).symm)) hno
    | taken hd ht hr =>
      subst hl
      exact .taken hd ht (drop hw hno' hr)
    | valued hd ht hvalue ha hr =>
      -- the word taken as a value is not the first one that gives the output
      cases before with
      | nil =>
        obtain ⟨word, behind, rfl, hword, -⟩ := hw.eq_cons
        cases hl
        rw [hword] at hvalue
        cases hvalue
      | cons b before =>
        cases hl
        exact .valued hd ht hvalue ha (drop hw (fun hm => hno' (List.mem_cons_of_mem _ hm)) hr)

/-- Reading what stands in front of a task that is given its output. -/
theorem Grammar.Reads.drop_outer {words after : List Text} (hw : WritesOutput words)
    {outer : Given} {task : Text} {rest : List Text} : ∀ {before : List Text} {g : Given},
      Invocation.outerGrammar.Reads g (before ++ (words ++ after)) (outer, task :: rest) →
        ∃ behind, (∀ a ∈ behind, a ∈ before) ∧ rest = behind ++ (words ++ after)
          ∧ Invocation.outerGrammar.Reads g (before ++ after) (outer, task :: (behind ++ after))
  | [], g, h => by
    obtain ⟨word, behind, rfl, -, hdivides, hshape, htake⟩ := hw.eq_cons
    rw [List.nil_append, List.cons_append] at h
    generalize behind ++ after = l at h
    cases h with
    | divided hd => rw [hdivides] at hd; cases hd
    | taken _ ht _ => rw [htake] at ht; cases ht
    | valued _ ht _ _ _ => rw [htake] at ht; cases ht
  | a :: before, g, h => by
    rw [List.cons_append] at h ⊢
    generalize hl : before ++ (words ++ after) = l at h
    cases h with
    | divided hd => exact ⟨before, fun _ => List.mem_cons_of_mem _, hl.symm, .divided hd⟩
    | taken hd ht hr =>
      subst hl
      obtain ⟨behind, hmem, hrest, hr'⟩ := drop_outer hw hr
      exact ⟨behind, fun b hb => List.mem_cons_of_mem _ (hmem b hb), hrest, .taken hd ht hr'⟩
    | valued hd ht hvalue ha hr =>
      -- the word taken as a value is not the first one that gives the output
      cases before with
      | nil =>
        obtain ⟨word, behind, rfl, hword, -⟩ := hw.eq_cons
        cases hl
        rw [hword] at hvalue
        cases hvalue
      | cons b before =>
        cases hl
        obtain ⟨behind, hmem, hrest, hr'⟩ := drop_outer hw hr
        exact ⟨behind, fun b hb => List.mem_cons_of_mem _ (List.mem_cons_of_mem _ (hmem b hb)),
          hrest, .valued hd ht hvalue ha hr'⟩

theorem Verb.preview_of_task {v : Verb} {g : Given} {input : Text}
    {output theme nonce policySource : Option Text}
    (h : v.task g = .ok (.preview input output theme nonce policySource)) : v = .preview := by
  unfold Verb.task at h
  split at h
  all_goals cases h
  rfl

theorem Verb.task_withoutOutput {g : Given} {task : Task} (h : Verb.preview.task g = .ok task) :
    Verb.preview.task g.withoutOutput = .ok task.withoutOutput := by
  unfold Verb.task at h ⊢
  rcases ho : g.operands with _ | ⟨input, operands⟩ <;> simp only [ho] at h
  · cases h
  · cases h
    simp only [Given.withoutOutput_operands, ho]
    rw [Given.value?_withoutOutput_self, Given.value?_withoutOutput (by decide),
      Given.value?_withoutOutput (by decide), Given.value?_withoutOutput (by decide)]
    rfl

theorem Invocation.ofGiven_withoutOutput (outer inner : Given) (task : Task) :
    ofGiven outer inner.withoutOutput (some task.withoutOutput)
      = (ofGiven outer inner (some task)).withoutOutput := by
  unfold ofGiven
  rw [Given.has_withoutOutput (by decide), Given.has_withoutOutput (by decide),
    Given.value?_withoutOutput (by decide)]
  rfl

/-- A command line that gives a preview its output asks for the same without the words for it,
but for the output. -/
theorem Invocation.ofArguments_withoutOutput {before words after : List Text}
    (hw : WritesOutput words) (hno : ['-', '-'] ∉ before) {i : Invocation} {input : Text}
    {output theme nonce policySource : Option Text}
    (h : Invocation.ofArguments (before ++ (words ++ after)) = .ok i)
    (ht : i.task = some (.preview input output theme nonce policySource)) :
    Invocation.ofArguments (before ++ after) = .ok i.withoutOutput := by
  unfold Invocation.ofArguments at h ⊢
  rcases ho : Invocation.outerGrammar.read {} (before ++ (words ++ after)) with
    e | ⟨outer, _ | ⟨word, rest⟩⟩ <;> simp only [ho] at h
  · cases h
  · split_ifs at h
    cases h
    cases ht
  · rcases hv : Verb.ofName? word with _ | v <;> simp only [hv] at h
    · cases h
    · rcases hr : v.grammar.read {} rest with e | ⟨inner, left⟩ <;> simp only [hr] at h
      · cases h
      · rcases hk : v.task inner with e | task <;> rw [hk] at h <;> cases h
        cases ht
        obtain rfl := Verb.preview_of_task hk
        obtain ⟨behind, hmem, rfl, hout⟩ := (Grammar.reads_of_read ho).drop_outer hw
        have hin := (Grammar.reads_of_read hr).drop hw (fun hm => hno (hmem _ hm))
        simp only [hout.read_eq, hv, hin.read_eq, Verb.task_withoutOutput hk]
        exact congrArg Except.ok (ofGiven_withoutOutput outer inner _)

end BlockDocument.Command
