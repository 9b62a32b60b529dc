/-!
# Requests of a command line

The arguments name a command, before and after which options may stand. An option is written long or
short, short ones may be run together, and a value follows in the same argument or in the next one. An
option may come once before the command and once after it, where the later one counts. After two
hyphens there are no more options.

A value in an argument of its own is only read when the next option or the end is reached, so a request
for help that comes in between is still answered.
-/

namespace TemplatedSql.CommandLine

/-- What to do with a project. -/
inductive Command
  | compile
  | showModel (name : String)
  | list
deriving DecidableEq

/-- What can be asked help for. -/
inductive Topic
  | program
  | compile
  | showModel
  | list
  | help
deriving DecidableEq

/-- The options of a command. -/
structure Options where
  config : Option String := none
  verbose : Bool := false
  threads : Option Nat := none
deriving DecidableEq

/-- What a command line asks for. -/
inductive Request
  | help (topic : Topic)
  | version
  | run (options : Options) (command : Command)
deriving DecidableEq

/-- A step of reading arguments: it goes on, or it ends with a request or, for a mistake, without. -/
abbrev Step := Except (Option Request)

/-- An option that has a value. -/
inductive ValueOption
  | config
  | threads

/-- An unsigned number of 64 bits, perhaps after a plus sign. -/
def count? (text : String) : Option Nat :=
  let ds :=
    match text.toList with
    | '+' :: ds => ds
    | ds => ds
  let n := ds.foldl (fun n c => 10 * n + (c.toNat - 48)) 0
  if !ds.isEmpty && ds.all Char.isDigit && n < UInt64.size then some n else none

namespace Options

/-- The options with a value for one of them, which must not have one. -/
def set? (o : Options) (option : ValueOption) (value : String) : Option Options :=
  match option with
  | .config => if o.config.isSome || value.isEmpty then none else some { o with config := value }
  | .threads => if o.threads.isSome then none else (count? value).map fun n => { o with threads := n }

/-- The options after a command on top of those before it. -/
def orElse (later earlier : Options) : Options where
  config := later.config <|> earlier.config
  verbose := later.verbose || earlier.verbose
  threads := later.threads <|> earlier.threads

end Options

/-- What has been read of the arguments before a command or after it. -/
structure Reading where
  topic : Topic := .program
  options : Options := {}
  /-- The option that was named last, with its value once it is there, if it is still to be read. -/
  pending : Option (ValueOption × Option String) := none
  /-- The name of the model to show. -/
  model : Option String := none

namespace Reading

/-- Gives an option a value. -/
def assign (r : Reading) (option : ValueOption) (value : String) : Step Reading :=
  match r.options.set? option value with
  | some options => .ok { r with options }
  | none => .error none

/-- Reads the pending option. -/
def settle (r : Reading) : Step Reading :=
  match r.pending with
  | none => .ok r
  | some (option, some value) => { r with pending := none }.assign option value
  | some (_, none) => .error none

/-- An option with a value in the same argument, or one whose value is to follow. -/
def option (r : Reading) (option : ValueOption) (value : Option String) : Step Reading := do
  let r ← r.settle
  match value with
  | some value => r.assign option value
  | none => .ok { r with pending := some (option, none) }

/-- The option to say more. -/
def verbose (r : Reading) : Step Reading := do
  let r ← r.settle
  if r.options.verbose then .error none else .ok { r with options := { r.options with verbose := true } }

/-- The option to show help, which ends the reading. -/
def help (r : Reading) : Step Reading := do
  let r ← r.settle
  .error (some (.help r.topic))

/-- The option to show the version, which ends the reading. It stands before the command. -/
def version (r : Reading) : Step Reading := do
  let r ← r.settle
  .error (if r.topic = .program then some .version else none)

/-- An option with a long name. -/
def long (r : Reading) (name : String) (value : Option String) : Step Reading :=
  match name, value with
  | "config", value => r.option .config value
  | "threads", value => r.option .threads value
  | "verbose", none => r.verbose
  | "help", none => r.help
  | "version", none => r.version
  | _, _ => .error none

/-- The value after a short option in the same argument. -/
def attached : List Char → Option String
  | [] => none
  | '=' :: cs => some (.ofList cs)
  | cs => some (.ofList cs)

/-- Short options that are run together. -/
def short (r : Reading) : List Char → Step Reading
  | [] => .ok r
  | 'v' :: cs => do (← r.verbose).short cs
  | 'h' :: _ => r.help
  | 'V' :: _ => r.version
  | 'c' :: cs => r.option .config (attached cs)
  | 'j' :: cs => r.option .threads (attached cs)
  | _ => .error none

/-- An argument that is not an option. -/
def positional (r : Reading) (text : String) : Step Reading := do
  let r ← r.settle
  if r.topic = .showModel && r.model.isNone then .ok { r with model := text } else .error none

/-- Whether the next argument may be the value of an option. -/
def awaitsValue (r : Reading) : Bool :=
  match r.pending with
  | some (_, none) => true
  | _ => false

/-- Reads an argument. -/
def argument (r : Reading) (text : String) : Step Reading :=
  match text.toList with
  | '-' :: '-' :: cs =>
    let name := cs.takeWhile (· != '=')
    r.long (.ofList name) (((cs.drop name.length).tail?).map .ofList)
  | '-' :: c :: cs => r.short (c :: cs)
  | _ =>
    if r.awaitsValue then .ok { r with pending := r.pending.map fun o => (o.1, some text) }
    else r.positional text

/-- Reads the arguments after a command. -/
def arguments (r : Reading) : List String → Step Reading
  | [] => r.settle
  | "--" :: texts => do (← texts.foldlM positional r).settle
  | text :: texts => do (← r.argument text).arguments texts

/-- The command that was read. -/
def command? (r : Reading) : Option Command :=
  match r.topic with
  | .compile => some .compile
  | .showModel => r.model.map .showModel
  | .list => some .list
  | .program | .help => none

end Reading

/-- The topic that is a command. -/
def Topic.ofCommand? : String → Option Topic
  | "compile" => some .compile
  | "show" => some .showModel
  | "list" => some .list
  | _ => none

/-- The help that is asked for by naming topics one inside the other. -/
def Request.helpFor? : List String → Option Request
  | [] => some (.help .program)
  | ["help"] => some (.help .help)
  | [name] => (Topic.ofCommand? name).map .help
  | _ => none

/-- Reads the arguments up to the command, and then those after it. -/
def Request.read (r : Reading) : List String → Step Request
  | [] => .error none
  | text :: texts =>
    if r.awaitsValue then do
      if text = "--" then .error none else Request.read (← r.argument text) texts
    else if text = "help" then .error (Request.helpFor? texts)
    else
      match Topic.ofCommand? text with
      | some topic => do
        let after ← Reading.arguments { topic } texts
        let before ← r.settle
        match after.command? with
        | some command => .ok (.run (after.options.orElse before.options) command)
        | none => .error none
      | none => do
        if text = "--" then .error none else Request.read (← r.argument text) texts

/-- The request of a command line, if it makes sense. -/
def Request.ofArguments? (texts : List String) : Option Request :=
  match Request.read {} texts with
  | .ok r => some r
  | .error r => r

end TemplatedSql.CommandLine
