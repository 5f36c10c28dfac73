import SieveChain.Fault.Os
import SieveChain.Text.Utf8

/-!
# Folders

A folder with files and folders in it, and the way from it to what a path names. A
path leads from name to name. The folder stands among temporary files; a path that
begins with a slash, or climbs above the folder, leads to what every system has.
-/

namespace SieveChain

/-- What a path can name. -/
inductive Filed
  /-- A file, and whether it may be run as a program. -/
  | file (bytes : List UInt8) (runs : Bool)
  /-- A program of the system, which is no text. -/
  | program (name : List Char)
  | folder
  deriving DecidableEq, Repr

namespace Folder

def names (path : List Char) : List (List Char) :=
  path.foldr
    (fun c names =>
      if c = '/' then [] :: names
      else match names with
        | [] => [[c]]
        | name :: rest => (c :: name) :: rest)
    [[]]

def programs : List String := ["true", "false", "sh", "cat", "ls", "sleep", "env"]

/-- The files that every system has, and what they hold, in outline. -/
def files : List (String × String) :=
  [("dev/null", ""), ("etc/passwd", "root:x:0:0:root:/root:/bin/sh\n"),
   ("etc/group", "root:x:0:\n"), ("etc/hosts", "127.0.0.1 localhost\n"),
   ("etc/hostname", "localhost\n")]

def folders : List String :=
  ["bin", "boot", "dev", "dev/fd", "dev/pts", "dev/shm", "etc", "home", "lib", "lib64", "media",
   "mnt", "opt", "proc", "proc/self", "root", "run", "sbin", "srv", "sys", "tmp", "usr", "usr/bin",
   "usr/lib", "usr/local", "usr/sbin", "usr/share", "var", "var/lib", "var/log", "var/tmp"]

/-- What every system has, each by the names that lead to it from the root. -/
def system : List (List (List Char) × Filed) :=
  files.map (fun (path, text) => (names path.toList, .file (Utf8.encode text.toList) false))
    ++ programs.flatMap (fun name =>
      ["bin/", "usr/bin/"].map fun place => (names (place ++ name).toList, .program name.toList))
    ++ folders.map fun path => (names path.toList, .folder)

end Folder

/-- A folder: what it holds, each by the names that lead to it, and what there is besides,
by the names that lead there from the root. -/
structure Folder where
  contents : List (List (List Char) × Filed) := []
  besides : List (List (List Char) × Filed) := Folder.system
  deriving Repr

namespace Folder

/-- A folder in which the input of a program is at hand as a file, too. -/
def withInput (f : Folder) (bytes : List UInt8) : Folder :=
  let input := ["dev/stdin", "dev/fd/0", "proc/self/fd/0"].map fun path =>
    (names path.toList, Filed.file bytes false)
  { f with besides := input ++ f.besides }

/-- Where a walk along a path stands. -/
inductive Place
  /-- In the folder, or so many names below it, the last name first. -/
  | below (names : List (List Char))
  /-- At the root, or so many names below it, the last name first. -/
  | outside (names : List (List Char))

def at? (f : Folder) : Place → Option Filed
  | .outside [] => some .folder
  | .outside names => f.besides.lookup names.reverse
  | .below [] => some .folder
  | .below names => f.contents.lookup names.reverse

/-- The place above a place. Above the root there is nothing but the root, and above the
folder are temporary files. -/
def above : Place → Place
  | .below (_ :: names) => .below names
  | .below [] => .outside ["tmp".toList]
  | .outside names => .outside names.tail

def into (name : List Char) : Place → Place
  | .below names => .below (name :: names)
  | .outside names => .outside (name :: names)

def longestName : Nat := 255

def longestPath : Nat := 4095

/-- Follows one name. Only a folder can be passed through. -/
def follow (f : Folder) (p : Place) (name : List Char) : Except OsError Place :=
  match f.at? p with
  | some .folder =>
    if name = [] ∨ name = ['.'] then .ok p
    else if name = ['.', '.'] then .ok (above p)
    else if longestName < (Utf8.encode name).length then .error .nameTooLong
    else if (f.at? (into name p)).isSome then .ok (into name p)
    else .error .notFound
  | some _ => .error .notFolder
  | none => .error .notFound

def find (f : Folder) (path : List Char) : Except OsError Filed :=
  if path.isEmpty then .error .notFound
  else if longestPath < (Utf8.encode path).length then .error .nameTooLong
  else
    let start : Place := if path.head? = some '/' then .outside [] else .below []
    match (names path).foldlM f.follow start with
    | .error e => .error e
    | .ok p =>
      match f.at? p with
      | some filed => .ok filed
      | none => .error .notFound

def read (f : Folder) (path : List Char) : Except Unreadable (List UInt8) :=
  if '\x00' ∈ path then .error .nullInPath
  else
    match f.find path with
    | .ok (.file bytes _) => .ok bytes
    | .ok (.program _) => .error .notText
    | .ok .folder => .error (.refused .isFolder)
    | .error e => .error (.refused e)

end Folder

end SieveChain
