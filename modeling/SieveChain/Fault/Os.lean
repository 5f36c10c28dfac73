import SieveChain.Fault.Io
import SieveChain.Text.Numeral

/-!
# Errors of the operating system

What the operating system answers when a file cannot be read, a program cannot be
started or a device takes no more. Each of its errors has a number.
-/

namespace SieveChain

/-- An error of the operating system. -/
inductive OsError
  | notFound
  | denied
  | notFolder
  | isFolder
  | storageFull
  | nameTooLong
  deriving DecidableEq, Repr

namespace OsError

def all : List OsError := [.notFound, .denied, .notFolder, .isFolder, .storageFull, .nameTooLong]

def number : OsError → Nat
  | .notFound => 2
  | .denied => 13
  | .notFolder => 20
  | .isFolder => 21
  | .storageFull => 28
  | .nameTooLong => 36

def description : OsError → String
  | .notFound => "No such file or directory"
  | .denied => "Permission denied"
  | .notFolder => "Not a directory"
  | .isFolder => "Is a directory"
  | .storageFull => "No space left on device"
  | .nameTooLong => "File name too long"

def message (e : OsError) : String :=
  e.description ++ " (os error " ++ Numeral.countText e.number ++ ")"

def ofNumber? (n : Nat) : Option OsError := all.find? fun e => e.number == n

theorem ofNumber?_number (e : OsError) : ofNumber? e.number = some e := by cases e <;> rfl

end OsError

def IoError.deviceFull : IoError := ⟨.storageFull, some OsError.storageFull.message⟩

/-- Why the text of a file cannot be had. -/
inductive Unreadable
  /-- The operating system refuses. -/
  | refused (e : OsError)
  /-- A path holds a null character, so it cannot name a file. -/
  | nullInPath
  /-- The file does not hold text. -/
  | notText
  /-- Something else is wrong. -/
  | other (text : String)
  deriving DecidableEq, Repr

def Unreadable.message : Unreadable → String
  | .refused e => e.message
  | .nullInPath => "file name contained an unexpected NUL byte"
  | .notText => "stream did not contain valid UTF-8"
  | .other text => text

end SieveChain
