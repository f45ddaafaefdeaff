import ModuleLoader.Host

/-!
# Command line arguments

What a command line asks for, read from left to right: the first mistake or the first request for
help or for the version decides.  Options may stand before and after what they belong to, and after
two hyphens nothing is an option.
-/

set_option autoImplicit false

namespace ModuleLoader.Command

/-- The commands that have a help page and a version of their own. -/
inductive Topic where
  | program
  | run
  | roots
  | help
deriving DecidableEq, Repr

/-- What the command that loads a manifest is given. -/
structure RunArguments where
  manifest : String
  host? : Option Host
  base? : Option String
  forceAsync : Bool
  watch : Bool
  verbose : Bool
deriving DecidableEq, Repr

/-- What a command line asks for. -/
inductive Request where
  | help (topic : Topic)
  | version (topic : Topic)
  | run (arguments : RunArguments)
  | roots (manifest : String)
deriving DecidableEq, Repr

/-- Why a command line asks for nothing. -/
inductive UsageError where
  | noCommand
  | unknownCommand (name : String)
  | unexpected (argument : String)
  | repeated (option : String)
  | valueMissing (option : String)
  | valueRefused (option value : String)
  | noManifest
deriving DecidableEq, Repr

/-- The message of a command line that asks for nothing. -/
def UsageError.message : UsageError → String
  | noCommand => "a command is needed"
  | unknownCommand name => "there is no command '" ++ name ++ "'"
  | unexpected argument => "unexpected argument '" ++ argument ++ "'"
  | repeated option => "'" ++ option ++ "' is given more than once"
  | valueMissing option => "'" ++ option ++ "' needs a value"
  | valueRefused option value => "'" ++ option ++ "' does not take the value '" ++ value ++ "'"
  | noManifest => "a manifest is needed"

/-- The form of one argument. -/
inductive Form where
  /-- Two hyphens alone. -/
  | escape
  /-- An option by its long name, with the value attached to it by an equals sign. -/
  | long (name : String) (value : Option String)
  /-- Options by single letters. -/
  | short (letters : List Char)
  | plain (text : String)
deriving DecidableEq, Repr

/-- The form of an argument. -/
def formOf (argument : String) : Form :=
  match argument.toList with
  | ['-', '-'] => .escape
  | '-' :: '-' :: r =>
    match r.dropWhile (· != '=') with
    | [] => .long (String.ofList r) none
    | _ :: value => .long (String.ofList (r.takeWhile (· != '='))) (some (String.ofList value))
  | '-' :: c :: r => .short (c :: r)
  | _ => .plain argument

/-- What is known of a command's arguments so far. -/
structure Known where
  manifest? : Option String
  host? : Option Host
  base? : Option String
  forceAsync : Bool
  watch : Bool
  verbose : Bool

/-- Nothing is known before the first argument. -/
def Known.nothing : Known := ⟨none, none, none, false, false, false⟩

/-- The result of one argument: more is known, or the command line is decided. -/
abbrev Step := Except (Except UsageError Request) Known

/-- Stop at arguments that ask for nothing. -/
def refuse (e : UsageError) : Step := .error (.error e)

/-- Stop at an argument that decides what is asked for. -/
def answerWith (r : Request) : Step := .error (.ok r)

/-- Take the option to be verbose, once. -/
def Known.beVerbose (k : Known) : Step :=
  if k.verbose then refuse (.repeated "--verbose") else .ok { k with verbose := true }

/-- Take a positional argument: the manifest, on the commands that take one. -/
def Known.addPlain (k : Known) (topic : Topic) (text : String) : Step :=
  if topic = .program then refuse (.unknownCommand text)
  else if k.manifest?.isSome then refuse (.unexpected text)
  else if text = "" then refuse (.valueRefused "<MANIFEST>" text)
  else .ok { k with manifest? := some text }

/-- Take options by single letters, in turn. -/
def Known.addShort (k : Known) (topic : Topic) : List Char → Step
  | [] => .ok k
  | c :: letters =>
    if c = 'v' then
      match k.beVerbose with
      | .ok k => k.addShort topic letters
      | stop => stop
    else if c = 'h' then answerWith (.help topic)
    else if c = 'V' then answerWith (.version topic)
    else refuse (.unexpected (String.ofList ['-', c]))

/-- Take an option without a value by its long name. -/
def Known.addFlag (k : Known) (topic : Topic) (name : String) : Step :=
  match topic, name with
  | _, "verbose" => k.beVerbose
  | _, "help" => answerWith (.help topic)
  | _, "version" => answerWith (.version topic)
  | .run, "force-async" =>
    if k.forceAsync then refuse (.repeated "--force-async") else .ok { k with forceAsync := true }
  | .run, "watch" =>
    if k.watch then refuse (.repeated "--watch") else .ok { k with watch := true }
  | _, _ => refuse (.unexpected ("--" ++ name))

/-- Whether an option by a long name has a value. -/
def takesValue (topic : Topic) (name : String) : Bool :=
  topic = .run && (name == "host" || name == "base")

/-- Take the value of an option, once. -/
def Known.addValue (k : Known) (name value : String) : Step :=
  if name = "host" then
    match Host.ofName? value with
    | none => refuse (.valueRefused "--host" value)
    | some host =>
      if k.host?.isSome then refuse (.repeated "--host") else .ok { k with host? := some host }
  else if k.base?.isSome then refuse (.repeated "--base")
  else .ok { k with base? := some value }

/-- Take arguments behind two hyphens, none of which is an option. -/
def Known.addAllPlain (k : Known) (topic : Topic) : List String → Step
  | [] => .ok k
  | text :: rest =>
    match k.addPlain topic text with
    | .ok k => k.addAllPlain topic rest
    | stop => stop

/-- Take one argument that is not two hyphens, and tell whether the next one was its value. -/
def Known.addOne (k : Known) (topic : Topic) (argument : String) (next : Option String) :
    Step × Bool :=
  match formOf argument with
  | .escape => (.ok k, false)
  | .plain text => (k.addPlain topic text, false)
  | .short letters => (k.addShort topic letters, false)
  | .long name (some value) =>
    if takesValue topic name then (k.addValue name value, false)
    else (refuse (.unexpected argument), false)
  | .long name none =>
    if takesValue topic name then
      match next.map formOf with
      | some (.plain value) => (k.addValue name value, true)
      | _ => (refuse (.valueMissing ("--" ++ name)), false)
    else (k.addFlag topic name, false)

/-- Take arguments in turn; an option may take the one behind it as its value. -/
def Known.addAll (k : Known) (topic : Topic) : List String → Step
  | [] => .ok k
  | argument :: rest =>
    if argument = "--" then k.addAllPlain topic rest
    else
      match k.addOne topic argument rest.head? with
      | (.error decided, _) => .error decided
      | (.ok k, false) => k.addAll topic rest
      | (.ok k, true) => k.addAll topic rest.tail
termination_by arguments => arguments.length
decreasing_by
  · simp
  · simp only [List.length_cons, List.length_tail]
    omega

/-- What the command that loads a manifest is asked for; the program may be verbose already. -/
def readRun (verbose : Bool) (arguments : List String) : Except UsageError Request :=
  match Known.nothing.addAll .run arguments with
  | .error decided => decided
  | .ok k =>
    match k.manifest? with
    | none => .error .noManifest
    | some manifest =>
      .ok (.run ⟨manifest, k.host?, k.base?, k.forceAsync, k.watch, verbose || k.verbose⟩)

/-- What the command that lists roots is asked for. -/
def readRoots (arguments : List String) : Except UsageError Request :=
  match Known.nothing.addAll .roots arguments with
  | .error decided => decided
  | .ok k =>
    match k.manifest? with
    | none => .error .noManifest
    | some manifest => .ok (.roots manifest)

/-- The command of a name, if there is one. -/
def topicNamed? : String → Option Topic
  | "run" => some .run
  | "roots" => some .roots
  | "help" => some .help
  | _ => none

/-- The page that the command for help is asked for. -/
def readHelp : List String → Except UsageError Request
  | [] => .ok (.help .program)
  | [name] =>
    match topicNamed? name with
    | some topic => .ok (.help topic)
    | none => .error (.unknownCommand name)
  | _ :: name :: _ => .error (.unknownCommand name)

/-- What a command line asks for, given what is known from before the command.  After two hyphens
no command can follow. -/
def readFrom (k : Known) : List String → Except UsageError Request
  | [] => .error .noCommand
  | argument :: rest =>
    if argument = "--" then
      match rest with
      | [] => .error .noCommand
      | text :: _ => .error (.unknownCommand text)
    else
      match topicNamed? argument with
      | some .run => readRun k.verbose rest
      | some .roots => readRoots rest
      | some .help => readHelp rest
      | _ =>
        match (k.addOne .program argument none).1 with
        | .error decided => decided
        | .ok k => readFrom k rest

/-- What the arguments of a command line ask for. -/
def Request.read (arguments : List String) : Except UsageError Request :=
  readFrom .nothing arguments

end ModuleLoader.Command
