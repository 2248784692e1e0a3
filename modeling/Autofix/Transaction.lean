import Autofix.Disk
import Autofix.Fix
import Autofix.Time.Timestamp

/-! Transactions: batches of fixes with what is needed to undo them. -/
namespace Autofix

inductive TransactionStatus
  | pending
  | applied
  | rolledBack
  | failed
deriving DecidableEq, Repr

def TransactionStatus.name : TransactionStatus → String
  | pending => "pending"
  | applied => "applied"
  | rolledBack => "rolled_back"
  | failed => "failed"

def TransactionStatus.isTerminal (s : TransactionStatus) : Bool := s != .pending

/-- A file as it was before a transaction. -/
structure Backup where
  /-- The path as the changes give it. -/
  filePath : String
  resolvedPath : String
  entry : FileEntry
  backupFile : String
deriving DecidableEq

structure Transaction where
  id : String
  timestamp : Timestamp
  fixes : List Fix := []
  backups : List Backup := []
  status : TransactionStatus := .pending
deriving DecidableEq

/-- The id made of sixteen random bytes: hexadecimal digits in five groups. The thirteenth digit says that
they are random, and the first bits of the seventeenth are fixed. -/
def Transaction.randomId (bytes : List UInt8) : String :=
  let marked := (bytes.modify 6 fun b => b % 16 + 0x40).modify 8 fun b => b % 64 + 0x80
  let digits := Fix.hexadecimal marked
  let group (start size : Nat) : Text := (digits.drop start).take size
  String.ofList (Text.join ['-'] [group 0 8, group 8 4, group 12 4, group 16 4, group 20 12])

def Transaction.backupFor? (t : Transaction) (resolvedPath : String) : Option Backup :=
  t.backups.find? fun b => Path.same b.resolvedPath resolvedPath

end Autofix
