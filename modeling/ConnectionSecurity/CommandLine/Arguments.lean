import ConnectionSecurity.Credential.Basic
import ConnectionSecurity.Path

/-!
# The command line

The arguments are read from left to right, and the first thing wrong with them ends the reading. A
command, and for the table of waivers a command of its own below it, is followed by operands.
Options may stand anywhere behind their command; two of them are known to every command, and one
that is given to several commands counts as the innermost says.
-/

namespace ConnectionSecurity.CommandLine

/-- What the program is asked to do. -/
inductive Task where
  | validate (profile : Path) (save isNew : Bool)
  | material (path : Path) (purpose : Credential.Purpose)
  | showWaivers (uuid : String)
  | setWaiver (uuid : String) (waived : Bool) (phase : Phase)
  | schema
deriving DecidableEq, Repr

/-- A task, and what was said about the settings and the log. -/
structure Request where
  settingsFile : Option Path
  logToFile : Bool
  task : Task
deriving DecidableEq, Repr

/-- What the arguments come to. -/
inductive Reading where
  | run (request : Request)
  | help
  /-- The arguments make no sense. -/
  | wrong
deriving DecidableEq, Repr

/-! ## Commands -/

/-- Where in the tree of commands the reading is. -/
inductive Command where
  | program
  | validate
  | material
  | waivers
  | waiversGet
  | waiversSet
  | schema
deriving DecidableEq, Repr

namespace Command

/-- The commands below a command. -/
def below : Command → List (String × Command)
  | program => [("validate", validate), ("material", material), ("ca-ignore", waivers),
      ("schema", schema)]
  | waivers => [("get", waiversGet), ("set", waiversSet)]
  | _ => []

/-- The options of a command that take no value, those of every command apart. -/
def switches : Command → List String
  | validate => ["save", "new"]
  | waiversSet => ["phase2"]
  | _ => []

end Command

def purpose? : String → Option Credential.Purpose
  | "ca" => some .ca
  | "client-cert" => some .clientCert
  | "private-key" => some .privateKey
  | _ => none

def truth? : String → Option Bool
  | "true" => some true
  | "false" => some false
  | _ => none

/-! ## Reading -/

/-- What has been read so far. -/
structure State where
  command : Command := .program
  /-- The settings file that an outer command was given. -/
  outerFile : Option Path := none
  /-- The settings file that this command was given. -/
  file : Option Path := none
  /-- An outer command was told to log to a file. -/
  outerLog : Bool := false
  /-- The switches that this command was given. -/
  given : List String := []
  purpose : Option Credential.Purpose := none
  /-- The operands, the last one first. -/
  operands : List String := []
  /-- Everything from here on is an operand. -/
  operandsOnly : Bool := false

namespace State

def enter (s : State) (command : Command) : State where
  command
  outerFile := s.file.or s.outerFile
  outerLog := s.outerLog || s.given.contains "log-file"

def operand (s : State) (word : String) : Option State :=
  let fits := match s.command, s.operands.length with
    | .validate, 0 => !word.isEmpty
    | .material, 0 => !word.isEmpty
    | .waiversGet, 0 => true
    | .waiversSet, 0 => true
    | .waiversSet, 1 => (truth? word).isSome
    | _, _ => false
  if fits then some { s with operands := word :: s.operands } else none

def switch (s : State) (name : String) : Option State :=
  if (name == "log-file" || s.command.switches.contains name) && !s.given.contains name then
    some { s with given := name :: s.given }
  else none

/-- Whether an option takes a value here. -/
def takesValue (s : State) (name : String) : Bool :=
  name == "config" || (name == "purpose" && s.command == .material)

def value (s : State) (name word : String) : Option State :=
  if name == "config" then
    if s.file.isSome || word.isEmpty then none else some { s with file := some word }
  else if name == "purpose" then
    match s.purpose, purpose? word with
    | none, some p => some { s with purpose := some p }
    | _, _ => none
  else none

def task? (s : State) : Option Task :=
  match s.command, s.operands with
  | .validate, [path] => some (.validate path (s.given.contains "save") (s.given.contains "new"))
  | .material, [path] => s.purpose.map (.material path)
  | .waiversGet, [uuid] => some (.showWaivers uuid)
  | .waiversSet, [word, uuid] =>
    (truth? word).map fun waived =>
      .setWaiver uuid waived (if s.given.contains "phase2" then .inner else .outer)
  | .schema, [] => some .schema
  | _, _ => none

/-- What the arguments come to when all of them are read. -/
def finish (s : State) : Reading :=
  match s.task? with
  | some task =>
    .run ⟨s.file.or s.outerFile, s.outerLog || s.given.contains "log-file", task⟩
  | none => .wrong

end State

/-- Whether words name a command step by step, from a command downward. Where there are commands to
name, the last one may be the command for help. -/
def namesCommand (command : Command) : List String → Bool
  | [] => true
  | word :: words =>
    match command.below.lookup word with
    | some command => namesCommand command words
    | none => word == "help" && !command.below.isEmpty && words.isEmpty

/-- What an argument is. -/
inductive Argument where
  | word (w : String)
  | endOfOptions
  /-- An option, with its value if that is part of the argument. -/
  | option (name : String) (value : Option String)
  | unknown
deriving DecidableEq, Repr

def letter? : Char → Option String
  | 'c' => some "config"
  | 'p' => some "purpose"
  | 'h' => some "help"
  | _ => none

/-- Take an argument apart. A value follows an option behind an equals sign, and a letter also
directly. -/
def Argument.of (arg : String) : Argument :=
  match arg.toList with
  | ['-', '-'] => .endOfOptions
  | '-' :: '-' :: cs =>
    let value := match cs.dropWhile (· != '=') with
      | _ :: v => some (String.ofList v)
      | [] => none
    .option (String.ofList (cs.takeWhile (· != '='))) value
  | '-' :: c :: cs =>
    match letter? c with
    | none => .unknown
    | some "help" => .option "help" none
    | some name =>
      let value := match cs with
        | [] => none
        | '=' :: v => some (String.ofList v)
        | v => some (String.ofList v)
      .option name value
  | _ => .word arg

def read (s : State) : List String → Reading
  | [] => s.finish
  | arg :: args =>
    let argument := if s.operandsOnly then .word arg else Argument.of arg
    match argument with
    | .unknown => .wrong
    | .endOfOptions => read { s with operandsOnly := true } args
    | .word w =>
      if s.command.below.isEmpty || s.operandsOnly then
        match s.operand w with
        | some s => read s args
        | none => .wrong
      else if w == "help" then if namesCommand s.command args then .help else .wrong
      else
        match s.command.below.lookup w with
        | some command => read (s.enter command) args
        | none => .wrong
    | .option "help" value => if value.isNone then .help else .wrong
    | .option name (some v) =>
      if s.takesValue name then
        match s.value name v with
        | some s => read s args
        | none => .wrong
      else .wrong
    | .option name none =>
      if s.takesValue name then
        match args with
        | [] => .wrong
        | v :: args =>
          match Argument.of v with
          | .word v =>
            match s.value name v with
            | some s => read s args
            | none => .wrong
          | _ => .wrong
      else
        match s.switch name with
        | some s => read s args
        | none => .wrong

/-- Read the arguments of the program. -/
def Reading.of (args : List String) : Reading := read {} args

end ConnectionSecurity.CommandLine
