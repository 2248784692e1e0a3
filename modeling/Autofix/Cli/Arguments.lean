import Autofix.Cli.Format
import Autofix.Config.Basic

/-! The arguments of the program. An option's value is checked when the next argument is recognised or
when there are no more arguments; those of a command are checked before what stands before the command. -/
namespace Autofix.Cli

inductive UsageFault
  | unknownArgument
  /-- A value is missing, or is empty where it must not be. -/
  | invalidValue
  /-- A value cannot be read. -/
  | valueValidation
  /-- An option is given twice. -/
  | argumentConflict
  | missingRequiredArgument
  | missingSubcommand
  | invalidSubcommand
  | tooManyValues
  | displayHelp
  | displayVersion
  /-- Nothing at all is given. -/
  | displayHelpOnMissingArgument
deriving DecidableEq, Repr

structure Draft where
  workspace : Option String := none
  logFormat : Option LogFormat := none
  issues : Option String := none
  dryRun : Bool := false
  interactive : Bool := false
  categories : List String := []
  maxRisk : Option Risk := none
  minConfidence : Option Confidence := none
  noBackup : Bool := false
  noValidate : Bool := false
  output : Option OutputFormat := none
  transactionId : Option String := none

/-- An option, or an argument that is known by its position. -/
structure Parameter where
  name : String
  takesValue : Bool := true
  /-- May it be given several times? -/
  repeats : Bool := false
  /-- The values with one more; there is no text if it takes no value. -/
  set : String → Draft → Except UsageFault Draft

namespace Parameter

def flag (name : String) (set : Draft → Draft) : Parameter :=
  { name, takesValue := false, set := fun _ d => .ok (set d) }

def path (name : String) (set : String → Draft → Draft) : Parameter :=
  { name, set := fun v d => if v.isEmpty then .error .invalidValue else .ok (set v d) }

def parsed (name : String) (parse? : String → Option α) (set : α → Draft → Draft) : Parameter :=
  { name
    set := fun v d =>
      match parse? v with
      | some a => .ok (set a d)
      | none => .error .valueValidation }

end Parameter

structure Shape where
  options : List Parameter
  positional : Option Parameter := none
  commands : List String := []
  hasVersion : Bool := false

def globalOptions : List Parameter :=
  [.path "workspace" fun v d => { d with workspace := some v },
    .parsed "log-format" (fun v => (LogFormat.parse v).toOption) fun v d => { d with logFormat := some v }]

def outputOption : Parameter :=
  .parsed "output" (fun v => (OutputFormat.parse v).toOption) fun v d => { d with output := some v }

/-- The pieces of a list with commas. -/
def commaSeparated (text : String) : List String :=
  (Text.splitAt (· == ',') text.toList).map String.ofList

def fixOptions : List Parameter :=
  [.path "issues" fun v d => { d with issues := some v },
    .flag "dry-run" fun d => { d with dryRun := true },
    .flag "interactive" fun d => { d with interactive := true },
    { name := "category", repeats := true
      set := fun v d => .ok { d with categories := d.categories ++ commaSeparated v } },
    .parsed "max-risk" (fun v => (Risk.parse v).toOption) fun v d => { d with maxRisk := some v },
    .parsed "min-confidence" Confidence.parse? fun v d => { d with minConfidence := some v },
    .flag "no-backup" fun d => { d with noBackup := true },
    .flag "no-validate" fun d => { d with noValidate := true },
    outputOption]

def commandNames : List String := ["fix", "backups", "restore", "providers", "init"]

def commandShape (name : String) : Shape :=
  match name with
  | "fix" => { options := fixOptions ++ globalOptions }
  | "backups" => { options := outputOption :: globalOptions }
  | "restore" =>
      { options := globalOptions
        positional := some
          { name := "transaction_id", set := fun v d => .ok { d with transactionId := some v } } }
  | _ => { options := globalOptions }

def programShape : Shape :=
  { options := globalOptions, commands := commandNames ++ ["help"], hasVersion := true }

/-- How far reading has come on one level. -/
structure Level where
  draft : Draft := {}
  seen : List String := []
  /-- An option or argument whose value is not checked yet, or not even there. -/
  pending : Option (Parameter × Option String) := none

namespace Level

def enter (l : Level) (p : Parameter) (value : String) : Except UsageFault Level :=
  if l.seen.contains p.name && !p.repeats then .error .argumentConflict
  else do
    let draft ← p.set value l.draft
    return { draft, seen := p.name :: l.seen }

def settle (l : Level) : Except UsageFault Level :=
  match l.pending with
  | none => .ok l
  | some (_, none) => .error .invalidValue
  | some (p, some value) => { l with pending := none }.enter p value

def awaiting? (l : Level) : Option Parameter :=
  match l.pending with
  | some (p, none) => some p
  | _ => none

/-- A parameter that is recognised: its value follows, or it needs none. -/
def give (l : Level) (p : Parameter) (value : Option String) : Except UsageFault Level := do
  let l ← l.settle
  match value with
  | some v => l.enter p v
  | none => if p.takesValue then return { l with pending := some (p, none) } else l.enter p ""

end Level

/-- A long option: its name and the value after an equals sign. -/
def splitLong (argument : Text) : String × Option String :=
  let name := argument.takeWhile (· != '=')
  match argument.drop name.length with
  | _ :: value => (String.ofList name, some (String.ofList value))
  | [] => (String.ofList name, none)

/-- A long option without its dashes. -/
def readLong (shape : Shape) (l : Level) (argument : Text) : Except UsageFault Level :=
  let (name, value) := splitLong argument
  let shown? : Option UsageFault :=
    if name = "help" then some .displayHelp
    else if name = "version" ∧ shape.hasVersion then some .displayVersion
    else none
  match shown?, shape.options.find? fun p => p.name == name with
  | some fault, _ =>
      if value.isSome then .error .tooManyValues
      else do
        let _ ← l.settle
        .error fault
  | none, some p => if value.isSome && !p.takesValue then .error .tooManyValues else l.give p value
  | none, none => .error .unknownArgument

def readShort (shape : Shape) (l : Level) (argument : Text) : Except UsageFault Level :=
  let shown? : Option UsageFault :=
    match argument with
    | 'h' :: _ => some .displayHelp
    | 'V' :: _ => if shape.hasVersion then some .displayVersion else none
    | _ => none
  match shown? with
  | some fault => do
      let _ ← l.settle
      .error fault
  | none => .error .unknownArgument

def readPositional (shape : Shape) (trailing : Bool) (l : Level) (argument : String) :
    Except UsageFault Level :=
  let isGiven (p : Parameter) : Bool :=
    l.seen.contains p.name || (l.pending.map fun q => q.1.name == p.name).getD false
  match shape.positional with
  | some p =>
      if isGiven p then .error .unknownArgument
      else do
        let l ← l.settle
        return { l with pending := some (p, some argument) }
  | none =>
      if shape.commands.isEmpty || (trailing && shape.commands.contains argument) then .error .unknownArgument
      else .error .invalidSubcommand

/-- The arguments of one level, up to the name of a command. After `--` nothing is an option. -/
def readLevel (shape : Shape) :
    Bool → List String → Level → Except UsageFault (Level × Option (String × List String))
  | _, [], l => .ok (l, none)
  | true, argument :: rest, l => do readLevel shape true rest (← readPositional shape true l argument)
  | false, argument :: rest, l =>
      if l.awaiting?.isNone && shape.commands.contains argument then .ok (l, some (argument, rest))
      else
        match argument.toList with
        | ['-', '-'] => readLevel shape true rest l
        | '-' :: '-' :: long => do readLevel shape false rest (← readLong shape l long)
        | '-' :: c :: short => do readLevel shape false rest (← readShort shape l (c :: short))
        | _ =>
            match l.awaiting? with
            | some p => readLevel shape false rest { l with pending := some (p, some argument) }
            | none => do readLevel shape false rest (← readPositional shape false l argument)

def helpOn : List String → UsageFault
  | [] => .displayHelp
  | name :: rest =>
      if name = "help" then helpOn rest
      else if commandNames.contains name && rest.isEmpty then .displayHelp
      else .invalidSubcommand

structure FixArguments where
  issues : String
  dryRun : Bool
  interactive : Bool
  categories : List String
  maxRisk : Option Risk
  minConfidence : Option Confidence
  noBackup : Bool
  noValidate : Bool
  output : OutputFormat
deriving DecidableEq, Repr

/-- The options of a run: those of the configuration, and on top of them what is given. -/
def FixArguments.options (a : FixArguments) (settings : FixSettings) : Options :=
  { dryRun := settings.dryRun || a.dryRun
    interactive := settings.interactive || a.interactive
    categories := if a.categories.isEmpty then settings.categories else a.categories
    maxRisk := a.maxRisk.getD settings.maxRisk
    minConfidence := a.minConfidence.getD settings.minConfidence
    createBackup := settings.createBackup && !a.noBackup
    validateAfterFix := settings.validateAfterFix && !a.noValidate }

inductive Command
  | fix (arguments : FixArguments)
  | backups (output : OutputFormat)
  | restore (transactionId : String)
  | fixers
  | init
deriving DecidableEq, Repr

def Command.name : Command → String
  | fix _ => "fix"
  | backups _ => "backups"
  | restore _ => "restore"
  | fixers => "providers"
  | init => "init"

structure Invocation where
  workspace : String := "."
  logFormat : LogFormat := .human
  command : Command
deriving DecidableEq, Repr

def Draft.command (d : Draft) (name : String) : Except UsageFault Command :=
  match name with
  | "fix" =>
      match d.issues with
      | none => .error .missingRequiredArgument
      | some issues =>
          .ok (.fix ⟨issues, d.dryRun, d.interactive, d.categories, d.maxRisk, d.minConfidence, d.noBackup,
            d.noValidate, d.output.getD .table⟩)
  | "backups" => .ok (.backups (d.output.getD .table))
  | "restore" =>
      match d.transactionId with
      | none => .error .missingRequiredArgument
      | some id => .ok (.restore id)
  | "providers" => .ok .fixers
  | _ => .ok .init

def readCommand (name : String) (arguments : List String) : Except UsageFault (Draft × Command) := do
  let (l, _) ← readLevel (commandShape name) false arguments {}
  let l ← l.settle
  let command ← l.draft.command name
  return (l.draft, command)

/-- What the arguments of the program tell it to do. What is given after the command wins over what is
given before it. -/
def parse (arguments : List String) : Except UsageFault Invocation := do
  let (l, next) ← readLevel programShape false arguments {}
  match next with
  | none =>
      let l ← l.settle
      .error (if l.seen.isEmpty then .displayHelpOnMissingArgument else .missingSubcommand)
  | some ("help", names) => .error (helpOn names)
  | some (name, arguments) =>
      let (inner, command) ← readCommand name arguments
      let l ← l.settle
      return { workspace := (inner.workspace.or l.draft.workspace).getD "."
               logFormat := (inner.logFormat.or l.draft.logFormat).getD .human, command }

/-- The arguments without a `--` that stands before all others. -/
def dropLeadingEscape : List String → List String
  | "--" :: rest => rest
  | arguments => arguments

end Autofix.Cli
