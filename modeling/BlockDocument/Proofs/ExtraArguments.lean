import BlockDocument.Proofs.ExtraValues

/-!
# Extras by the place they stand at

Arguments are split from the front, and the value of an extra is passed over with it. What becomes
of an argument can still be said from its neighbours (`ofArguments_by_place`): an extra begins with
a dash and a value does not, so no extra is passed over as the value of another one.
-/

namespace BlockDocument.Command

/-- That an argument is an extra of the given name. -/
def IsExtraFor (name argument : Text) : Prop :=
  argument = "--extra-".toList ++ name ∨ argument = "--extras-".toList ++ name

/-- Whether an argument is an extra. -/
def isExtra (argument : Text) : Bool :=
  "--extra-".toList.isPrefixOf argument || "--extras-".toList.isPrefixOf argument

/-- Whether an argument is the value of the one in front of it. -/
def isValueOf (previous : Option Text) (argument : Text) : Bool :=
  previous.any isExtra && !isDashed argument

/-- Whether an argument behind another one is neither an extra nor the value of one. -/
def isPlain : Option Text × Text → Bool
  | (previous, argument) => !isExtra argument && !isValueOf previous argument

/-- Arguments, each with the one in front of it. The one in front of the first is given. -/
def withPrevious (previous : Option Text) (arguments : List Text) : List (Option Text × Text) :=
  (previous :: arguments.map some).zip arguments

/-- The value of an extra, from the argument behind it. -/
def givenValue (next : Option Text) : Text :=
  (next.filter fun argument => !isDashed argument).getD "true".toList

/-- That the last extra of a name among arguments has the given value. -/
def HasLastExtra (arguments : List Text) (name value : Text) : Prop :=
  ∃ before argument after, arguments = before ++ argument :: after ∧ IsExtraFor name argument
    ∧ (∀ later ∈ after, ¬ IsExtraFor name later) ∧ value = givenValue after.head?

namespace Split

variable (s : Split) (argument name value : Text)

theorem plain_addPlain : (s.addPlain argument).plain = argument :: s.plain := rfl

theorem plain_addExtra : (s.addExtra name value).plain = s.plain := rfl

end Split

theorem givenValue_some (next : Text) :
    givenValue (some next) = if isDashed next then defaultExtra else next := by
  unfold givenValue
  rcases h : isDashed next with _ | _ <;> simp [Option.filter, h, defaultExtra]

/-! ## Extras among arguments -/

theorem extraName?_eq_some_iff {name argument : Text} :
    extraName? argument = some name ↔ IsExtraFor name argument := by
  constructor
  · intro h
    obtain ⟨mark, hmark, hafter⟩ := List.exists_of_findSome?_eq_some h
    rw [Text.afterStart?_eq_some_iff] at hafter
    simp only [extraMarks, List.map_cons, List.map_nil, List.mem_cons, List.not_mem_nil,
      or_false] at hmark
    rcases hmark with rfl | rfl
    · exact .inl hafter
    · exact .inr hafter
  · rintro (rfl | rfl) <;> rfl

theorem isExtra_iff {argument : Text} :
    isExtra argument = true ↔ ∃ name, IsExtraFor name argument := by
  unfold isExtra IsExtraFor
  rw [Bool.or_eq_true, List.isPrefixOf_iff_prefix, List.isPrefixOf_iff_prefix, exists_or]
  simp only [List.IsPrefix, eq_comm]

theorem isExtra_of_extraName? {name argument : Text} (h : extraName? argument = some name) :
    isExtra argument = true :=
  isExtra_iff.2 ⟨name, extraName?_eq_some_iff.1 h⟩

theorem extraName?_eq_none_iff {argument : Text} :
    extraName? argument = none ↔ isExtra argument = false := by
  rw [← Bool.not_eq_true, isExtra_iff, Option.eq_none_iff_forall_ne_some, not_exists]
  simp only [ne_eq, extraName?_eq_some_iff]

theorem isDashed_of_isExtra {argument : Text} (h : isExtra argument = true) :
    isDashed argument = true := by
  obtain ⟨name, rfl | rfl⟩ := isExtra_iff.1 h <;> rfl

theorem not_isExtra_of_not_isDashed {argument : Text} (h : ¬ isDashed argument = true) :
    isExtra argument = false :=
  Bool.eq_false_iff.2 (mt isDashed_of_isExtra h)

/-! ## Plain arguments -/

theorem isValueOf_of_not_isExtra {previous : Text} (h : isExtra previous = false)
    (argument : Text) : isValueOf (some previous) argument = false := by
  simp [isValueOf, h]

theorem not_isPlain_of_isExtra {argument : Text} (h : isExtra argument = true)
    (previous : Option Text) : ¬ isPlain (previous, argument) = true := by
  simp [isPlain, h]

theorem withPrevious_cons (previous : Option Text) (argument : Text) (rest : List Text) :
    withPrevious previous (argument :: rest)
      = (previous, argument) :: withPrevious (some argument) rest := rfl

/-- The plain arguments behind one that the first of them is not the value of. -/
theorem plain_ofArguments_of_previous {previous : Option Text} {arguments : List Text}
    (h : ∀ first ∈ arguments.head?, isValueOf previous first = false) :
    (Split.ofArguments arguments).plain
      = ((withPrevious previous arguments).filter isPlain).map Prod.snd := by
  fun_induction Split.ofArguments arguments generalizing previous with
  | case1 => rfl
  | case2 argument rest hname ih =>
    have hextra : isExtra argument = false := extraName?_eq_none_iff.1 hname
    have hplain : isPlain (previous, argument) = true := by simp [isPlain, hextra, h argument rfl]
    rw [withPrevious_cons, List.filter_cons_of_pos hplain, List.map_cons, Split.plain_addPlain,
      ih fun first _ => isValueOf_of_not_isExtra hextra first]
  | case3 argument name hname =>
    have hextra := isExtra_of_extraName? hname
    rw [withPrevious_cons, List.filter_cons_of_neg (not_isPlain_of_isExtra hextra previous)]
    rfl
  | case4 argument name hname next behind hdash ih =>
    have hextra := isExtra_of_extraName? hname
    have hvalue : ∀ first ∈ (next :: behind).head?, isValueOf (some argument) first = false := by
      rintro _ ⟨⟩
      simp [isValueOf, hdash]
    rw [withPrevious_cons, List.filter_cons_of_neg (not_isPlain_of_isExtra hextra previous),
      Split.plain_addExtra, ih hvalue]
  | case5 argument name hname next behind hdash ih =>
    -- the argument that is passed over is no extra, so nothing is the value of it
    have hextra := isExtra_of_extraName? hname
    have hnext := not_isExtra_of_not_isDashed hdash
    have hvalue : ¬ isPlain (some argument, next) = true := by
      simp [isPlain, isValueOf, hextra, hdash]
    rw [withPrevious_cons, List.filter_cons_of_neg (not_isPlain_of_isExtra hextra previous),
      withPrevious_cons, List.filter_cons_of_neg hvalue, Split.plain_addExtra,
      ih fun first _ => isValueOf_of_not_isExtra hnext first]

/-! ## The extras and their values -/

/-- The extra that arguments begin with, and its value. -/
def firstExtra? : List Text → Option (Text × Text)
  | [] => none
  | argument :: rest => (extraName? argument).map fun name => (name, givenValue rest.head?)

theorem extras_ofArguments (arguments : List Text) :
    (Split.ofArguments arguments).extras = arguments.tails.filterMap firstExtra? := by
  fun_induction Split.ofArguments arguments with
  | case1 => rfl
  | case2 argument rest hname ih =>
    simp [Split.addPlain, firstExtra?, hname, ih]
  | case3 argument name hname =>
    simp [Split.addExtra, firstExtra?, hname, givenValue, defaultExtra]
  | case4 argument name hname next behind hdash ih =>
    rw [List.tails, List.filterMap_cons, ← ih]
    simp [Split.addExtra, firstExtra?, hname, givenValue_some, hdash]
  | case5 argument name hname next behind hdash ih =>
    have hnone := extraName?_eq_none_iff.2 (not_isExtra_of_not_isDashed hdash)
    simp [Split.addExtra, firstExtra?, hname, givenValue_some, hdash, hnone, ih]

/-- The value of the last extra of a name, from that among the arguments behind the first. -/
theorem lastExtra?_cons (argument : Text) (rest : List Text) (name : Text) :
    lastExtra? (argument :: rest) name = (lastExtra? rest name).or
      (if extraName? argument = some name then some (givenValue rest.head?) else none) := by
  unfold lastExtra?
  rw [extras_ofArguments, extras_ofArguments, List.tails, List.filterMap_cons, firstExtra?]
  rcases extraName? argument with _ | found
  · simp
  · simp only [Option.map_some, List.reverse_cons, List.find?_append, Option.map_or]
    by_cases hfound : found = name <;> simp [hfound]

theorem lastExtra?_eq_none_iff (name : Text) : ∀ arguments : List Text,
    lastExtra? arguments name = none ↔ ∀ argument ∈ arguments, ¬ IsExtraFor name argument
  | [] => by simp [lastExtra?, Split.ofArguments]
  | argument :: rest => by
    rw [lastExtra?_cons, Option.or_eq_none_iff, lastExtra?_eq_none_iff name rest,
      List.forall_mem_cons, and_comm]
    simp [extraName?_eq_some_iff]

theorem hasLastExtra_cons {argument : Text} {rest : List Text} {name value : Text} :
    HasLastExtra (argument :: rest) name value ↔ HasLastExtra rest name value
      ∨ IsExtraFor name argument ∧ (∀ later ∈ rest, ¬ IsExtraFor name later)
        ∧ value = givenValue rest.head? := by
  constructor
  · rintro ⟨_ | ⟨first, before⟩, last, after, hsplit, h⟩
    · obtain ⟨rfl, rfl⟩ := List.cons.inj hsplit
      exact .inr h
    · exact .inl ⟨before, last, after, (List.cons.inj hsplit).2, h⟩
  · rintro (⟨before, last, after, rfl, h⟩ | h)
    · exact ⟨argument :: before, last, after, rfl, h⟩
    · exact ⟨[], argument, rest, rfl, h⟩

theorem lastExtra?_eq_some_iff (name value : Text) : ∀ arguments : List Text,
    lastExtra? arguments name = some value ↔ HasLastExtra arguments name value
  | [] => by simp [lastExtra?, Split.ofArguments, HasLastExtra]
  | argument :: rest => by
    rw [lastExtra?_cons, Option.or_eq_some_iff, lastExtra?_eq_none_iff,
      lastExtra?_eq_some_iff name value rest, hasLastExtra_cons]
    simp only [extraName?_eq_some_iff, Option.ite_none_right_eq_some, Option.some.injEq]
    tauto

/-- The plain arguments are those that are neither extras nor the values of extras in front of
them. The keys of the dictionary are the names of the extras, and each has the value that comes
behind its last one. -/
theorem ofArguments_by_place (arguments : List Text) :
    (Split.ofArguments arguments).plain
        = ((withPrevious none arguments).filter isPlain).map Prod.snd
      ∧ (∀ name, name ∈ (Split.ofArguments arguments).dictionary.keys
          ↔ ∃ argument ∈ arguments, IsExtraFor name argument)
      ∧ ∀ name value, (Split.ofArguments arguments).dictionary.get? name = some value
          ↔ HasLastExtra arguments name value := by
  have hget : (Split.ofArguments arguments).dictionary.get? = lastExtra? arguments :=
    get?_extrasOf arguments
  refine ⟨plain_ofArguments_of_previous fun _ _ => rfl, fun name => ?_, fun name value => ?_⟩
  · rw [Dictionary.mem_keys_iff, hget, Option.isSome_iff_ne_none, ne_eq, lastExtra?_eq_none_iff]
    simp only [not_forall, Classical.not_not, exists_prop]
  · rw [hget, lastExtra?_eq_some_iff]

end BlockDocument.Command
