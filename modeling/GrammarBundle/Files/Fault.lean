import GrammarBundle.Text.Utf8

/-!
Why an operation on files or programs is refused: the system's reasons with their numbers and words,
and paths that cannot be given to the system at all.
-/

namespace GrammarBundle

inductive SystemReason where
  | noEntry
  | executableFormat
  | accessDenied
  | notDirectory
  | isDirectory
  | nameTooLong
  | tooManyLinks
  | other (number : Nat)
  deriving DecidableEq, Repr, Inhabited

namespace SystemReason

def number : SystemReason → Nat
  | .noEntry => 2
  | .executableFormat => 8
  | .accessDenied => 13
  | .notDirectory => 20
  | .isDirectory => 21
  | .nameTooLong => 36
  | .tooManyLinks => 40
  | .other n => n

def ofNumber (n : Nat) : SystemReason :=
  if n = 2 then .noEntry
  else if n = 8 then .executableFormat
  else if n = 13 then .accessDenied
  else if n = 20 then .notDirectory
  else if n = 21 then .isDirectory
  else if n = 36 then .nameTooLong
  else if n = 40 then .tooManyLinks
  else .other n

/-- The words for the reasons from number one on. -/
def words : List String :=
  ["Operation not permitted", "No such file or directory", "No such process",
    "Interrupted system call", "Input/output error", "No such device or address",
    "Argument list too long", "Exec format error", "Bad file descriptor", "No child processes",
    "Resource temporarily unavailable", "Cannot allocate memory", "Permission denied",
    "Bad address", "Block device required", "Device or resource busy", "File exists",
    "Invalid cross-device link", "No such device", "Not a directory", "Is a directory",
    "Invalid argument", "Too many open files in system", "Too many open files",
    "Inappropriate ioctl for device", "Text file busy", "File too large",
    "No space left on device", "Illegal seek", "Read-only file system", "Too many links",
    "Broken pipe", "Numerical argument out of domain", "Numerical result out of range",
    "Resource deadlock avoided", "File name too long", "No locks available",
    "Function not implemented", "Directory not empty", "Too many levels of symbolic links"]

def message (r : SystemReason) : Text :=
  match r.number with
  | 0 => "Success"
  | n + 1 =>
    match words[n]? with
    | some w => Text.ofString w
    | none => "Unknown error " ++ Text.ofNat (n + 1)

end SystemReason

/-- A reason of the system with the name of the file or program that it is about. -/
structure SystemFault where
  reason : SystemReason
  subject : Text
  deriving DecidableEq, Repr, Inhabited

def SystemFault.message (f : SystemFault) : Text :=
  "[Errno " ++ Text.ofNat f.reason.number ++ "] " ++ f.reason.message ++ ": " ++ f.subject.quoted

/-- A path on which an operation fails: refused by the system, or no path at all, because it holds a
zero character or cannot be encoded. -/
inductive PathFault where
  | system (reason : SystemReason)
  | zeroCharacter
  | unencodable (fault : Utf8.EncodeFault)
  deriving DecidableEq, Repr

end GrammarBundle
