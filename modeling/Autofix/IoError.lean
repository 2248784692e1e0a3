/-! Failures of reading and writing files: a kind that decides what happens next, and a wording. -/
namespace Autofix

inductive IoKind
  | notFound
  | permissionDenied
  | isADirectory
  | notADirectory
  | invalidInput
  | invalidData
  | fileTooLarge
  | resourceBusy
  | executableFileBusy
  | storageFull
  | readOnlyFilesystem
  | quotaExceeded
  | other
  | timedOut
  | interrupted
  | wouldBlock
  | outOfMemory
  | brokenPipe
  | alreadyExists
  | unexpectedEof
  | directoryNotEmpty
  | unsupported
  | crossesDevices
  | deadlock
  | tooManyLinks
  | writeZero
  | connectionReset
  | notSeekable
  | staleNetworkFileHandle
  | argumentListTooLong
  | invalidFilename
deriving DecidableEq, Repr

namespace IoKind

def all : List IoKind :=
  [notFound, permissionDenied, isADirectory, notADirectory, invalidInput, invalidData, fileTooLarge,
    resourceBusy, executableFileBusy, storageFull, readOnlyFilesystem, quotaExceeded, other, timedOut,
    interrupted, wouldBlock, outOfMemory, brokenPipe, alreadyExists, unexpectedEof, directoryNotEmpty,
    unsupported, crossesDevices, deadlock, tooManyLinks, writeZero, connectionReset, notSeekable,
    staleNetworkFileHandle, argumentListTooLong, invalidFilename]

def text : IoKind → String
  | notFound => "entity not found"
  | permissionDenied => "permission denied"
  | isADirectory => "is a directory"
  | notADirectory => "not a directory"
  | invalidInput => "invalid input parameter"
  | invalidData => "invalid data"
  | fileTooLarge => "file too large"
  | resourceBusy => "resource busy"
  | executableFileBusy => "executable file busy"
  | storageFull => "no storage space"
  | readOnlyFilesystem => "read-only filesystem or storage medium"
  | quotaExceeded => "quota exceeded"
  | other => "other error"
  | timedOut => "timed out"
  | interrupted => "operation interrupted"
  | wouldBlock => "operation would block"
  | outOfMemory => "out of memory"
  | brokenPipe => "broken pipe"
  | alreadyExists => "entity already exists"
  | unexpectedEof => "unexpected end of file"
  | directoryNotEmpty => "directory not empty"
  | unsupported => "unsupported"
  | crossesDevices => "cross-device link or rename"
  | deadlock => "deadlock"
  | tooManyLinks => "too many links"
  | writeZero => "write zero"
  | connectionReset => "connection reset"
  | notSeekable => "seek on unseekable file"
  | staleNetworkFileHandle => "stale network file handle"
  | argumentListTooLong => "argument list too long"
  | invalidFilename => "invalid filename"

/-- Does the failure concern one file alone? All other failures, such as a full disk, are bound to
strike again. -/
def isConfined : IoKind → Bool
  | notFound | permissionDenied | isADirectory | notADirectory | invalidInput | invalidData
  | fileTooLarge | resourceBusy | executableFileBusy => true
  | _ => false

end IoKind

structure IoError where
  kind : IoKind
  text : String
  causes : List String := []
deriving DecidableEq, Repr

namespace IoError

def ofKind (kind : IoKind) : IoError := { kind, text := kind.text }

def numbered (kind : IoKind) (text : String) (number : Nat) : IoError :=
  { kind, text := s!"{text} (os error {number})" }

def noSuchFile : IoError := numbered .notFound "No such file or directory" 2
def fileExists : IoError := numbered .alreadyExists "File exists" 17
def notADirectory : IoError := numbered .notADirectory "Not a directory" 20
def isADirectory : IoError := numbered .isADirectory "Is a directory" 21
def nameTooLong : IoError := numbered .invalidFilename "File name too long" 36
def nulInPath : IoError := ⟨.invalidInput, "file name contained an unexpected NUL byte", []⟩
def notText : IoError := ⟨.invalidData, "stream did not contain valid UTF-8", []⟩

end IoError
end Autofix
