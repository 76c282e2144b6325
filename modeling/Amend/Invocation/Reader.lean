import Amend.Invocation.Argument
import Amend.Invocation.Basic
import Amend.Invocation.Usage

/-!
# Reading command lines

The arguments of the program, then the name of a task and its arguments. The options for the whole
program can also stand among those of a task and then win. An option is judged when the next one
is met, or at the end; so of two mistakes it can be the later one that is reported.
-/

set_option autoImplicit false

namespace Amend

/-- The options of the program. -/
inductive CommandOption
  | base | verbose | help | version
  | dryRun | noVerify | parallel | checkCommand | catalog | format
  | force
  deriving DecidableEq, Repr

namespace CommandOption

/-- The name after two dashes. -/
def long : CommandOption → String
  | base => "base"
  | verbose => "verbose"
  | help => "help"
  | version => "version"
  | dryRun => "dry-run"
  | noVerify => "no-verify"
  | parallel => "parallel"
  | checkCommand => "check-cmd"
  | catalog => "catalog"
  | format => "format"
  | force => "force"

/-- The letter after one dash. -/
def short? : CommandOption → Option Char
  | verbose => some 'v'
  | help => some 'h'
  | version => some 'V'
  | _ => none

/-- Whether a value follows. -/
def takesValue : CommandOption → Bool
  | base | checkCommand | catalog | format => true
  | _ => false

/-- Whether a value is allowed: paths are not empty, and formats are known. -/
def allows (o : CommandOption) (value : String) : Bool :=
  match o with
  | base | catalog => !value.isEmpty
  | format => value == "text" || value == "json"
  | _ => true

end CommandOption

/-- The names of tasks. -/
inductive TaskName
  | run | rules | doctor | init | help
  deriving DecidableEq, Repr

/-- The task of a name. -/
def TaskName.ofString? : String → Option TaskName
  | "run" => some run
  | "rules" => some rules
  | "doctor" => some doctor
  | "init" => some init
  | "help" => some help
  | _ => none

namespace Invocation

/-- What can be given in a part of a command line. -/
structure Grammar where
  options : List CommandOption
  takesTargets : Bool
  takesTask : Bool

namespace Grammar

/-- Before the name of a task. -/
def program : Grammar :=
  ⟨[.base, .verbose, .help, .version], false, true⟩

/-- After the name of a task. -/
def task : TaskName → Grammar
  | .run =>
    ⟨[.dryRun, .noVerify, .parallel, .checkCommand, .catalog, .format, .base, .verbose, .help],
      true, false⟩
  | .rules => ⟨[.catalog, .base, .verbose, .help], false, false⟩
  | .init => ⟨[.force, .base, .verbose, .help], false, false⟩
  | .doctor | .help => ⟨[.base, .verbose, .help], false, false⟩

/-- The option of a long name. -/
def long? (g : Grammar) (name : String) : Option CommandOption :=
  g.options.find? (·.long == name)

/-- The option of a letter. -/
def short? (g : Grammar) (letter : Char) : Option CommandOption :=
  g.options.find? (·.short? == some letter)

/-- The mistake that a plain argument is where none belongs. -/
def misplaced (g : Grammar) : Usage :=
  if g.takesTask then .invalidSubcommand else .unknownArgument

end Grammar

/-- What was read but not judged yet. -/
inductive Pending
  | nothing
  /-- An option whose value may follow. -/
  | option (o : CommandOption) (value : Option String)
  | targets (texts : List String)
  deriving DecidableEq, Repr

/-- What was given so far. -/
structure Given where
  options : List (CommandOption × String) := []
  targets : List Path := []
  pending : Pending := .nothing

namespace Given

/-- Whether the next argument is the value of an option. -/
def awaitsValue (f : Given) : Bool :=
  match f.pending with
  | .option _ none => true
  | _ => false

/-- With an option, which must be new and have a value that it allows. -/
def add (f : Given) (o : CommandOption) (value : String) : Except Usage Given :=
  if f.options.any (·.1 == o) then .error .argumentConflict
  else if !o.allows value then .error .invalidValue
  else .ok { f with options := (o, value) :: f.options }

/-- With what is pending judged. -/
def settle (f : Given) : Except Usage Given :=
  let g := { f with pending := .nothing }
  match f.pending with
  | .nothing => .ok g
  | .option _ none => .error .invalidValue
  | .option o (some value) => g.add o value
  | .targets texts =>
    if texts.any String.isEmpty then .error .invalidValue
    else .ok { g with targets := g.targets ++ texts.map Path.mk }

/-- With an option that takes no value. -/
def addFlag (f : Given) (o : CommandOption) : Except Usage Given := do
  let f ← f.settle
  match o with
  | .help => throw .help
  | .version => throw .version
  | o => f.add o ""

/-- With a target; neighbours are judged together. -/
def addTarget (f : Given) (text : String) : Except Usage Given :=
  match f.pending with
  | .targets texts => .ok { f with pending := .targets (texts ++ [text]) }
  | _ => f.settle.map fun f => { f with pending := .targets [text] }

/-- With the options of letters. -/
def addLetters (g : Grammar) : List Char → Given → Except Usage Given
  | [], f => .ok f
  | letter :: letters, f =>
    match g.short? letter with
    | some o => do addLetters g letters (← f.addFlag o)
    | none => .error .unknownArgument

/-- With an option by its long name. -/
def addLong (g : Grammar) (f : Given) (name : String) (value : Option String) :
    Except Usage Given :=
  match g.long? name with
  | none => .error .unknownArgument
  | some o =>
    match o.takesValue, value with
    | true, some value => do (← f.settle).add o value
    | true, none => f.settle.map fun f => { f with pending := .option o none }
    | false, some _ => .error .tooManyValues
    | false, none => f.addFlag o

/-- With a plain argument. -/
def addPlain (g : Grammar) (f : Given) (text : String) : Except Usage Given :=
  match f.pending with
  | .option o none => .ok { f with pending := .option o (some text) }
  | _ => if g.takesTargets then f.addTarget text else .error g.misplaced

/-- With arguments of which none is an option. -/
def addOperands (g : Grammar) : List String → Given → Except Usage Given
  | [], f => .ok f
  | text :: rest, f =>
    if g.takesTargets then do addOperands g rest (← f.addTarget text)
    else if g.takesTask && (TaskName.ofString? text).isNone then .error .invalidSubcommand
    else .error .unknownArgument

end Given

/-- The task that an argument names, where one may be named. -/
def taskAt? (g : Grammar) (f : Given) (text : String) : Option TaskName :=
  if g.takesTask && !f.awaitsValue then TaskName.ofString? text else none

/-- Reads arguments up to the name of a task: what was given, and the task with what follows. -/
def readPart (g : Grammar) :
    List String → Given → Except Usage (Given × Option (TaskName × List String))
  | [], f => .ok (f, none)
  | text :: rest, f =>
    match taskAt? g f text with
    | some task => .ok (f, some (task, rest))
    | none =>
      match Argument.ofString text with
      | .escape => (Given.addOperands g rest f).map fun f => (f, none)
      | .long name value => do readPart g rest (← f.addLong g name value)
      | .short letters => do readPart g rest (← Given.addLetters g letters f)
      | .plain text => do readPart g rest (← f.addPlain g text)

/-- Reads the arguments of a task. -/
def readTask (name : TaskName) (args : List String) : Except Usage Given := do
  let (f, _) ← readPart (.task name) args {}
  f.settle

namespace Given

def has (f : Given) (o : CommandOption) : Bool :=
  f.options.any (·.1 == o)

def value? (f : Given) (o : CommandOption) : Option String :=
  f.options.lookup o

def path? (f : Given) (o : CommandOption) : Option Path :=
  (f.value? o).map Path.mk

/-- The task of a name with what was given for it. -/
def toTask (f : Given) : TaskName → Except Usage Task
  | .run => .ok <| .run {
      targets := f.targets
      dryRun := f.has .dryRun
      noVerify := f.has .noVerify
      parallel := f.has .parallel
      checkCommand := f.value? .checkCommand
      catalog := f.path? .catalog
      format := if f.value? .format = some "json" then .json else .text }
  | .rules => .ok (.rules (f.path? .catalog))
  | .doctor => .ok .doctor
  | .init => .ok (.init (f.has .force))
  | .help => .error .help

end Given

/-- Help is asked for on the whole program or on a task. -/
def readHelp : List String → Usage
  | [] => .help
  | name :: _ => if (TaskName.ofString? name).isSome then .help else .invalidSubcommand

/-- The invocation that a command line stands for. -/
def ofArguments? (args : List String) : Except Usage Invocation := do
  let (outer, task) ← readPart .program args {}
  match task with
  | none =>
    let outer ← outer.settle
    return { base := outer.path? .base, verbose := outer.has .verbose }
  | some (.help, rest) => throw (readHelp rest)
  | some (name, rest) =>
    let inner ← readTask name rest
    let outer ← outer.settle
    return {
      base := inner.path? .base <|> outer.path? .base
      verbose := inner.has .verbose || outer.has .verbose
      task := ← inner.toTask name }

end Invocation

end Amend
