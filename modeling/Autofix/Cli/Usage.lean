import Autofix.Cli.Arguments

/-! What the program says about itself and about arguments that it does not take. -/
namespace Autofix.Cli

def versionText : String := "menderd 0.1.0\n"

def usageText : String :=
  "Transactional source auto-fixer\n\n" ++
    "Usage: menderd [--workspace PATH] [--log-format human|json] COMMAND\n\n" ++
    "Commands:\n" ++
    "  fix --issues FILE [--dry-run] [--interactive] [--category NAME,...] [--max-risk LEVEL]\n" ++
    "      [--min-confidence NUMBER] [--no-backup] [--no-validate] [--output table|json]\n" ++
    "  backups [--output table|json]\n" ++
    "  restore TRANSACTION_ID\n" ++
    "  providers\n" ++
    "  init\n" ++
    "  help [COMMAND]\n"

namespace UsageFault

/-- What is wrong with the arguments; nothing if the fault is a request. -/
def complaint? : UsageFault → Option String
  | unknownArgument => some "unknown argument"
  | invalidValue => some "a value is missing"
  | valueValidation => some "a value is not valid"
  | argumentConflict => some "an option is given twice"
  | missingRequiredArgument => some "a required argument is missing"
  | missingSubcommand => some "a command is missing"
  | invalidSubcommand => some "unknown command"
  | tooManyValues => some "an option takes no value"
  | displayHelp => none
  | displayVersion => none
  | displayHelpOnMissingArgument => some "no arguments"

def output : UsageFault → String
  | displayHelp => usageText
  | displayVersion => versionText
  | _ => ""

def errors (fault : UsageFault) : String :=
  match fault.complaint? with
  | some complaint => s!"error: {complaint}\n\n" ++ usageText
  | none => ""

def exitCode (fault : UsageFault) : Nat := if fault.complaint?.isSome then 2 else 0

end UsageFault
end Autofix.Cli
