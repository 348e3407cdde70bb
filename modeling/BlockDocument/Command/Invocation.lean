import BlockDocument.Command.Extra

/-!
# Invocations

A command line names a task and gives options and an operand for it. Options are written as
`--name`, as `--name value` or `--name=value` if they take a value, or by a letter behind a single
dash, where several letters may share the dash and a value may follow its letter at once. A value
that is an argument of its own does not begin with a dash, unless it is one. Behind `--` there are
operands only. No option is given twice, except that those which every task has may be given once
in front of the task and once behind it: then the one behind it counts.
-/

namespace BlockDocument.Command

/-- The options. -/
inductive Parameter
  | listThemes | config | verbose | help | version | output | theme | nonce | policySource | write
  deriving DecidableEq, Repr

namespace Parameter

/-- The name of an option. -/
def name : Parameter → Text
  | listThemes => "list-themes".toList
  | config => "config".toList
  | verbose => "verbose".toList
  | help => "help".toList
  | version => "version".toList
  | output => "output".toList
  | theme => "theme".toList
  | nonce => "nonce".toList
  | policySource => "csp-source".toList
  | write => "write".toList

/-- The letter of an option. -/
def letter? : Parameter → Option Char
  | verbose => some 'v'
  | help => some 'h'
  | version => some 'V'
  | output => some 'o'
  | write => some 'w'
  | _ => none

/-- Whether an option takes a value. -/
def takesValue : Parameter → Bool
  | config | output | theme | nonce | policySource => true
  | _ => false

/-- The options that every task has. -/
def shared : List Parameter := [listThemes, config, verbose, help]

end Parameter

/-- The tasks. -/
inductive Verb
  | preview | check | format | stylesheet
  deriving DecidableEq, Repr

namespace Verb

/-- Every task. -/
def all : List Verb := [preview, check, format, stylesheet]

/-- The name of a task. -/
def name : Verb → Text
  | preview => "preview".toList
  | check => "check".toList
  | format => "format".toList
  | stylesheet => "generate-css".toList

/-- The task of a name. -/
def ofName? (name : Text) : Option Verb := all.find? fun v => v.name = name

/-- The options of a task beside the shared ones. -/
def parameters : Verb → List Parameter
  | preview => [.output, .theme, .nonce, .policySource]
  | format => [.write]
  | check | stylesheet => []

/-- How many operands a task has. -/
def operands : Verb → Nat
  | stylesheet => 0
  | _ => 1

end Verb

/-- Why a command line leads to no task. -/
inductive Refusal
  /-- It is not well-formed. -/
  | usage
  /-- It asks for help. -/
  | help
  /-- It asks for the version. -/
  | version
  deriving DecidableEq, Repr

/-- What some arguments give: values under options, and operands. -/
structure Given where
  options : List (Parameter × Text) := []
  operands : List Text := []
  deriving DecidableEq, Repr

namespace Given

/-- Whether an option is given. -/
def has (g : Given) (p : Parameter) : Bool := g.options.any fun o => o.1 = p

/-- The value of an option. -/
def value? (g : Given) (p : Parameter) : Option Text :=
  (g.options.find? fun o => o.1 = p).map (·.2)

/-- Adds an option, unless it is given already or makes the rest unnecessary. -/
def add (g : Given) (p : Parameter) (value : Text) : Except Refusal Given :=
  if p = .help then .error .help
  else if p = .version then .error .version
  else if g.has p then .error .usage
  else .ok { g with options := (p, value) :: g.options }

/-- Adds operands, if there may be so many. -/
def addOperands (g : Given) (limit : Nat) (operands : List Text) : Except Refusal Given :=
  if g.operands.length + operands.length ≤ limit then
    .ok { g with operands := g.operands ++ operands }
  else .error .usage

/-- Adds an option that is written by its name, what follows it being its value if it takes one
and none has been given with it. Gives the option that still lacks its value. -/
def addNamed (known : List Parameter) (g : Given) (body : Text) :
    Except Refusal (Given × Option Parameter) :=
  let (name, value?) :=
    match Text.splitFirst '=' body with
    | some (name, value) => (name, some value)
    | none => (body, none)
  match known.find? fun p => p.name = name, value? with
  | none, _ => .error .usage
  | some p, some value =>
    if p.takesValue then (g.add p value).map (·, none) else .error .usage
  | some p, none =>
    if p.takesValue then .ok (g, some p) else (g.add p []).map (·, none)

/-- The value that follows the letter of an option at once. -/
def attachedValue? : Text → Option Text
  | [] => none
  | '=' :: value => some value
  | value => some value

/-- Adds options that are written by their letters. Gives the option that still lacks its
value. -/
def addLetters (known : List Parameter) : Given → Text → Except Refusal (Given × Option Parameter)
  | g, [] => .ok (g, none)
  | g, c :: rest =>
    match known.find? fun p => p.letter? = some c with
    | none => .error .usage
    | some p =>
      if p.takesValue then
        match attachedValue? rest with
        | some value => (g.add p value).map (·, none)
        | none => .ok (g, some p)
      else
        match g.add p [] with
        | .error e => .error e
        | .ok g => addLetters known g rest

end Given

/-- Whether an argument can be the value of the option in front of it. -/
def isValue (argument : Text) : Bool := !isDashed argument || argument = ['-']

/-- What an argument is. -/
inductive Shape
  | separator
  | named (body : Text)
  | letters (letters : Text)
  | operand
  deriving DecidableEq, Repr

/-- What an argument is. -/
def Shape.of : Text → Shape
  | ['-', '-'] => .separator
  | '-' :: '-' :: body => .named body
  | '-' :: c :: rest => .letters (c :: rest)
  | _ => .operand

/-- The options and operands that arguments may give. -/
structure Grammar where
  known : List Parameter
  operands : Nat
  /-- Whether an argument ends the options, and begins a part with its own. -/
  divides : Text → Bool

/-- Reads arguments, up to the one that divides them. -/
def Grammar.read (grammar : Grammar) : Given → List Text → Except Refusal (Given × List Text)
  | g, [] => .ok (g, [])
  | g, argument :: rest =>
    if grammar.divides argument then .ok (g, argument :: rest)
    else
      let options (given : Except Refusal (Given × Option Parameter)) :
          Except Refusal (Given × List Text) :=
        match given with
        | .error e => .error e
        | .ok (g, none) => read grammar g rest
        | .ok (g, some p) =>
          match rest with
          | [] => .error .usage
          | value :: behind =>
            if isValue value then
              match g.add p value with
              | .error e => .error e
              | .ok g => read grammar g behind
            else .error .usage
      match Shape.of argument with
      | .separator => (g.addOperands grammar.operands rest).map (·, [])
      | .named body => options (g.addNamed grammar.known body)
      | .letters letters => options (g.addLetters grammar.known letters)
      | .operand =>
        match g.addOperands grammar.operands [argument] with
        | .error e => .error e
        | .ok g => read grammar g rest

/-- What is to be done, with what the task is given. -/
inductive Task
  | preview (input : Text) (output theme nonce policySource : Option Text)
  | check (input : Text)
  | format (input : Text) (write : Bool)
  | stylesheet
  deriving DecidableEq, Repr

/-- What a command line asks for. -/
structure Invocation where
  listThemes : Bool := false
  verbose : Bool := false
  config : Option Text := none
  task : Option Task := none
  deriving DecidableEq, Repr

namespace Verb

/-- The task with what it is given. Its operand has to be there. -/
def task (v : Verb) (g : Given) : Except Refusal Task :=
  match v, g.operands with
  | stylesheet, _ => .ok .stylesheet
  | _, [] => .error .usage
  | preview, input :: _ =>
    .ok (.preview input (g.value? .output) (g.value? .theme) (g.value? .nonce)
      (g.value? .policySource))
  | check, input :: _ => .ok (.check input)
  | format, input :: _ => .ok (.format input (g.has .write))

/-- What the arguments of a task may give. -/
def grammar (v : Verb) : Grammar where
  known := Parameter.shared ++ v.parameters
  operands := v.operands
  divides _ := false

end Verb

namespace Invocation

/-- The word that asks for help on a task. -/
def helpWord : Text := "help".toList

/-- What the arguments in front of a task may give. -/
def outerGrammar : Grammar where
  known := Parameter.shared ++ [.version]
  operands := 0
  divides argument := (Verb.ofName? argument).isSome || argument = helpWord

/-- The invocation with the options in front of a task, and those behind it. -/
def ofGiven (outer inner : Given) (task : Option Task) : Invocation where
  listThemes := inner.has .listThemes || outer.has .listThemes
  verbose := inner.has .verbose || outer.has .verbose
  config := (inner.value? .config).or (outer.value? .config)
  task := task

/-- Reads the words behind the one that asks for help. -/
def readHelp : List Text → Refusal
  | [] => .help
  | [topic] => if outerGrammar.divides topic then .help else .usage
  | _ => .usage

/-- Reads a command line without extras. One that gives nothing is refused. -/
def ofArguments (arguments : List Text) : Except Refusal Invocation :=
  match outerGrammar.read {} arguments with
  | .error e => .error e
  | .ok (outer, []) =>
    if outer.options.isEmpty then .error .usage else .ok (ofGiven outer {} none)
  | .ok (outer, word :: rest) =>
    match Verb.ofName? word with
    | none => .error (readHelp rest)
    | some v =>
      match v.grammar.read {} rest with
      | .error e => .error e
      | .ok (inner, _) => (v.task inner).map fun task => ofGiven outer inner (some task)

end Invocation

end BlockDocument.Command
