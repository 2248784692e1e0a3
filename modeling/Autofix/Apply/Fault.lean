import Autofix.Apply.Files

/-! Plans of failures: which accesses to files fail, depending on all accesses before them. -/
namespace Autofix

inductive Access
  | read (path : String)
  | write (path : String)
deriving DecidableEq, Repr

def Access.path : Access → String
  | read path => path
  | write path => path

/-- A failing access. A write that fails may leave bytes behind. -/
structure Fault where
  error : IoError
  residue : Option ByteArray := none

/-- Says, from the accesses so far and the next one, whether that one fails. -/
def FaultPlan := List Access → Access → Option Fault

def FaultPlan.none : FaultPlan := fun _ _ => .none

/-- Access that fails as a plan says; `leave` puts the bytes of a failed write into place. -/
def Files.faulty (plan : FaultPlan) (leave : String → ByteArray → σ → σ) (files : Files σ) :
    Files (List Access × σ) where
  read path s :=
    let access := Access.read path
    match plan s.1 access with
    | some fault => (.error fault.error, s.1 ++ [access], s.2)
    | none =>
        let (result, s') := files.read path s.2
        (result, s.1 ++ [access], s')
  write path t s :=
    let access := Access.write path
    match plan s.1 access with
    | some fault =>
        (.error fault.error, s.1 ++ [access], (fault.residue.map (leave path · s.2)).getD s.2)
    | none =>
        let (result, s') := files.write path t s.2
        (result, s.1 ++ [access], s')

/-- A rule: after `skip` matching accesses all further ones fail. -/
structure FaultRule where
  onWrite : Bool
  /-- The last components of the paths that match. -/
  file : String
  kind : IoKind
  skip : Nat := 0
deriving DecidableEq, Repr

namespace FaultRule

def matchesAccess (rule : FaultRule) : Access → Bool
  | .read path => !rule.onWrite && (Path.components rule.file).isSuffixOf (Path.components path)
  | .write path => rule.onWrite && (Path.components rule.file).isSuffixOf (Path.components path)

/-- The rules that are asked about an access, in order up to the first that makes it fail, count it. The rules
behind the one that strikes do not count it. -/
def ask (access : Access) : List (FaultRule × Nat) → Option IoKind × List (FaultRule × Nat)
  | [] => (none, [])
  | (rule, count) :: rest =>
      if rule.matchesAccess access then
        if rule.skip ≤ count then (some rule.kind, (rule, count + 1) :: rest)
        else
          let (kind, rest) := ask access rest
          (kind, (rule, count + 1) :: rest)
      else
        let (kind, rest) := ask access rest
        (kind, (rule, count) :: rest)

def plan (rules : List FaultRule) : FaultPlan := fun past next =>
  let counted := past.foldl (fun counts access => (ask access counts).2) (rules.map fun r => (r, 0))
  (ask next counted).1.map fun kind => { error := .ofKind kind }

end FaultRule
end Autofix
