import BlockDocument.Command.Invocation
import BlockDocument.Command.Override
import BlockDocument.Config.Layers
import BlockDocument.Publish

/-!
# Running the command

A run depends on the arguments and the files, and ends in a status, the text on standard output,
messages, and the files as they are then. Settings come from the files of settings, then from the
extras, and the options of a task come last. Whatever goes wrong ends the run at once with a
message and the status 1, except that a document which cannot be read still gives a page.
-/

namespace BlockDocument.Command

/-- How much a logged message matters. -/
inductive Level
  | error | warn | info | debug
  deriving DecidableEq, Repr

/-- The name of a level. -/
def Level.name : Level → Text
  | error => "ERROR".toList
  | warn => "WARN".toList
  | info => "INFO".toList
  | debug => "DEBUG".toList

/-- Whether messages of a level are shown. -/
def Level.shown (verbose : Bool) : Level → Bool
  | error | warn => true
  | info | debug => verbose

/-- What a run says beside its output: why it ended, or what it noticed on the way. -/
inductive Message
  | plain (text : Text)
  | log (level : Level) (text : Text)
  deriving DecidableEq, Repr

namespace Message

/-- Puts four spaces behind every line feed. -/
def indentLines (t : Text) : Text := t.flatMap fun c => if c = '\n' then "\n    ".toList else [c]

/-- A message as it is shown. The lines of a logged one are indented from the second on. -/
def display : Message → Text
  | plain t => t
  | log level t => level.name ++ ' ' :: indentLines t

/-- Whether a message is shown. -/
def shown (verbose : Bool) : Message → Bool
  | plain _ => true
  | log level _ => level.shown verbose

end Message

/-- What a run ends in. -/
structure Outcome where
  status : Nat := 0
  output : Text := []
  messages : List Message := []
  tree : FileTree
  deriving DecidableEq, Repr

namespace Outcome

/-- A run that ends because of something that went wrong, and leaves the files alone. -/
def fail (tree : FileTree) (message : Text) : Outcome :=
  { status := 1, messages := [.plain message], tree }

/-- A run that only has output. -/
def print (tree : FileTree) (output : Text) : Outcome := { output, tree }

/-- Puts messages in front of those of a run. -/
def precede (messages : List Message) (o : Outcome) : Outcome :=
  { o with messages := messages ++ o.messages }

/-- Leaves out the messages that are not shown. -/
def select (verbose : Bool) (o : Outcome) : Outcome :=
  { o with messages := o.messages.filter fun m => m.shown verbose }

end Outcome

/-- The file of settings that is read if it is there. -/
def defaultConfig : Text := "osf.toml".toList

/-- The layers of settings for a run. -/
def layers (config : Option Text) : Layers :=
  let l := ({} : Layers).addOptionalFile defaultConfig
  match config with
  | some path => l.addFile path
  | none => l

/-- Why there are no settings, in words. -/
def configMessage (fault : ConfigFault) : Text :=
  "Failed to load configuration: ".toList ++
    match fault with
    | .invalidPath path => "invalid key '".toList ++ path ++ "'".toList
    | .missingFile path => "configuration file '".toList ++ path ++ "' not found".toList
    | .malformedFile path => "'".toList ++ path ++ "' is not valid TOML".toList
    | .unusable name => "'".toList ++ name ++ "' has a value that it cannot have".toList
    | .incomplete [] => "the settings are not complete".toList
    | .incomplete name => "section '".toList ++ name ++ "' is not complete".toList

/-- The list of themes. -/
def themeList : Text :=
  "Available themes:\n\n".toList ++
    Theme.all.flatMap fun theme => "  ".toList ++ theme.name ++ ['\n']

/-- Warnings about the extras that no setting has used. -/
def unusedWarnings (unused : Dictionary Text) : List Message :=
  unused.keys.map fun name => .log .warn ("ignoring unknown parameter --extra-".toList ++ name)

/-- A notice as it is logged. -/
def noticeMessage (n : Notice) : Message := .log (if n.lossy then .warn else .debug) n.message

/-- What goes wrong when a file cannot be read. -/
def readFailure (path : Text) (e : FileError) : Text :=
  "Error reading file '".toList ++ path ++ "': ".toList ++ e.message

/-- What is logged about reading a document. -/
def parseMessages (input : Text) (r : Resolution Document) : List Message :=
  let including := r.included.map fun file => Message.log .debug ("including ".toList ++ file)
  let result : Message :=
    match r.result with
    | .ok d =>
      .log .debug ("parsed '".toList ++ input ++ "': ".toList ++ Text.ofNat d.blocks.length
        ++ " blocks".toList)
    | .error e =>
      .log .error ("failed to parse '".toList ++ input ++ "': ".toList ++ e.message)
  including ++ [result]

/-- Publishes the preview of a document. -/
def runPreview (tree : FileTree) (settings : Settings) (nonce : Option Text) (input : Text)
    (output : Option Text) : Outcome :=
  match tree.find input with
  | .error e => .fail tree (readFailure input e)
  | .ok _ =>
    let r := parseFile tree settings.preview.resolveIncludes input
    let status :=
      match r.result with
      | .ok _ => 0
      | .error _ => 1
    let p := publish tree (settings.pageOptions nonce) output r.result
    let delivered : Outcome :=
      match p.delivery with
      | .ok (.inMemory html) => { status, output := html, tree := p.tree }
      | .ok (.file path) =>
        { status, messages := [.log .info ("wrote ".toList ++ path)], tree := p.tree }
      | .error e => .fail p.tree ("Error: ".toList ++ e.message)
    delivered.precede (parseMessages input r ++ p.notices.map noticeMessage)

/-- Checks source text. -/
def runCheck (tree : FileTree) (settings : Settings) (input : Text) : Outcome :=
  match tree.readText input with
  | .error e => .fail tree (readFailure input e)
  | .ok source =>
    let found := Source.check settings.check source
    { status := if Source.hasErrors found then 1 else 0
      output := found.flatMap fun d => input ++ ':' :: d.display ++ ['\n']
      tree }

/-- Formats source text. The file is written only if that changes it. -/
def runFormat (tree : FileTree) (settings : Settings) (input : Text) (write : Bool) : Outcome :=
  match tree.readText input with
  | .error e => .fail tree (readFailure input e)
  | .ok source =>
    let formatted := Source.format settings.layout source
    if !write then .print tree formatted
    else if formatted = source then
      { messages := [.log .debug ("'".toList ++ input ++ "' is already formatted".toList)], tree }
    else
      match tree.write input formatted with
      | .error e =>
        .fail tree ("Error writing file '".toList ++ input ++ "': ".toList ++ e.message)
      | .ok written => { tree := written }

/-- The settings of a preview with the options of the task. -/
def previewSettings (settings : Settings) (theme policySource : Option Text) : Settings :=
  { settings with
    preview := { settings.preview with
      theme := theme.getD settings.preview.theme
      policySource := policySource.getD settings.preview.policySource } }

/-- The name of the extra that gives a nonce. -/
def nonceName : Text := "nonce".toList

/-- The nonce of a preview, from its option or else from an extra, with the extras left over. -/
def chooseNonce (option : Option Text) (extras : Dictionary Text) :
    Option Text × Dictionary Text :=
  match option with
  | some nonce => (some nonce, extras)
  | none => (extras.get? nonceName, extras.erase nonceName)

/-- Performs a task. -/
def runTask (tree : FileTree) (adjusted : Adjusted) : Task → Outcome
  | .preview input output theme nonce policySource =>
    let (nonce, unused) := chooseNonce nonce adjusted.unused
    (runPreview tree (previewSettings adjusted.settings theme policySource) nonce input
      output).precede (unusedWarnings unused)
  | .check input =>
    (runCheck tree adjusted.settings input).precede (unusedWarnings adjusted.unused)
  | .format input write =>
    (runFormat tree adjusted.settings input write).precede (unusedWarnings adjusted.unused)
  | .stylesheet => .print tree baselineStylesheet

/-- Does what a command line asks for. -/
def runInvocation (tree : FileTree) (extras : Dictionary Text) (i : Invocation) : Outcome :=
  if i.listThemes then .print tree themeList
  else
    match (layers i.config).settings tree with
    | .error fault => .fail tree (configMessage fault)
    | .ok settings =>
      match applyExtras settings extras with
      | .error fault => .fail tree fault.message
      | .ok adjusted =>
        match i.task with
        | some task => runTask tree adjusted task
        | none => .fail tree "Unknown subcommand. Use --help for usage information.".toList

/-- How the command is used. -/
def usageText : Text := (String.join [
  "Usage: osf [OPTIONS] [COMMAND]\n\n",
  "Commands:\n",
  "  preview <INPUT>      Render a parsed document to HTML\n",
  "  check <INPUT>        Report structural problems in source text\n",
  "  format <INPUT>       Re-indent source text\n",
  "  generate-css         Print the baseline stylesheet\n\n",
  "Options:\n",
  "      --list-themes    List the themes\n",
  "      --config <PATH>  Read settings from a file\n",
  "  -v, --verbose        Log more\n",
  "  -h, --help           Print help\n",
  "  -V, --version        Print the version\n"]).toList

/-- The name and version of the command. -/
def versionText : Text := "osf 0.1.0\n".toList

/-- What a command line that leads to no task ends in. -/
def refuse (tree : FileTree) : Refusal → Outcome
  | .help => .print tree usageText
  | .version => .print tree versionText
  | .usage => { status := 2, messages := [.plain usageText], tree }

/-- Runs the command with arguments. -/
def run (tree : FileTree) (arguments : List Text) : Outcome :=
  let split := Split.ofArguments arguments
  match Invocation.ofArguments split.plain with
  | .error refusal => refuse tree refusal
  | .ok i => (runInvocation tree split.dictionary i).select i.verbose

end BlockDocument.Command
