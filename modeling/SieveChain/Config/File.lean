import SieveChain.Config.Basic
import SieveChain.Fault.Context
import SieveChain.Number.Shortest
import SieveChain.Text.Utf8
import SieveChain.Toml.Document

/-!
# Reading configurations

A configuration is read from a document. Its keys may come in any order and may be
missing; other keys do not matter. Keys are looked at in the order of the document,
and the first that does not fit is reported. What a text says as a document is found out by
whatever reader of documents is at hand.

A document may be that of a file. A file that cannot be read is named in the fault
itself; a fault of what it says is put into the context of the file.
-/

namespace SieveChain.Config

open Toml

/-- A value that is no word, in words. -/
def describe : Value → List Char
  | .string text => "string ".toList ++ Text.quoted text
  | .integer n => "integer `".toList ++ Numeral.ofInt n ++ "`".toList
  | .float x => "floating point `".toList ++ x.text ++ "`".toList
  | .boolean true => "boolean `true`".toList
  | .boolean false => "boolean `false`".toList
  | .dateTime => "map".toList
  | .array _ => "sequence".toList
  | .table _ => "map".toList

def word : Item → Except Mismatch Int32
  | .value (.integer n) =>
    match Numeral.narrow? n with
    | some v => .ok v
    | none => .error (.outOfRange n)
  | .value v => .error (.notWord (describe v))
  | .table _ _ => .error (.notWord "map".toList)
  | .tables _ => .error (.notWord "sequence".toList)

/-- Reads the name of a backend. Case matters. -/
def named (name : List Char) : Except Mismatch Backend :=
  match Backend.ofName? (String.ofList name) with
  | some b => .ok b
  | none => .error (.unknownVariant name)

def bare : Item → Except Mismatch Unit
  | .value (.string _) => .error (.notTable "string")
  | .value (.integer _) => .error (.notTable "integer")
  | .value (.float _) => .error (.notTable "float")
  | .value (.boolean _) => .error (.notTable "boolean")
  | .value .dateTime => .error (.notTable "datetime")
  | .value (.array items) => if items.isEmpty then .ok () else .error .tableNotEmpty
  | .value (.table entries) => if entries.isEmpty then .ok () else .error .tableNotEmpty
  | .table _ entries => if entries.isEmpty then .ok () else .error .tableNotEmpty
  | .tables elements => if elements.isEmpty then .ok () else .error .listNotEmpty

/-- Reads a backend from the entries of a table: its name is the only key. -/
def onlyKey : Entries → Except Mismatch Backend
  | [] => .error .noVariant
  | [(name, item)] =>
    match named name with
    | .ok b =>
      match bare item with
      | .ok () => .ok b
      | .error m => .error m
    | .error m => .error m
  | _ => .error .manyVariants

def variant : Item → Except Mismatch Backend
  | .value (.string name) => named name
  | .value (.table entries) => onlyKey (entries.map fun (k, v) => (k, .value v))
  | .table _ entries => onlyKey entries
  | _ => .error .notVariant

def takeEntry (c : Config) : Key × Item → Except Mismatch Config
  | (key, item) =>
    if key = "low".toList then (word item).map fun low => { c with low }
    else if key = "high".toList then (word item).map fun high => { c with high }
    else if key = "backend".toList then (variant item).map fun backend => { c with backend }
    else .ok c

/-- A reader of documents gives the entries of a text, if it is a document. -/
abbrev DocumentReader := List Char → Option Entries

/-- Reads a configuration from a text, and checks it. -/
def parseWith (document? : DocumentReader) (cs : List Char) : Except Flaw Config :=
  match document? cs with
  | none => .error .malformed
  | some entries =>
    match entries.foldlM takeEntry ({} : Config) with
    | .error m => .error (.mismatched m)
    | .ok c => (c.validate).map fun () => c

/-- Reads a configuration from a text, or reports a fault. -/
def ofTextWith (document? : DocumentReader) (cs : List Char) : Except Fault Config :=
  (parseWith document? cs).mapError Flaw.fault

/-- Loads a configuration from the file at a path, given the means to read files. -/
def loadWith (document? : DocumentReader) (read : List Char → Except Unreadable (List UInt8))
    (path : List Char) : Except Fault Config :=
  let unreadable (reason : Unreadable) : Except Fault Config :=
    .error (Flaw.unreadable path reason).fault
  match read path with
  | .error reason => unreadable reason
  | .ok bytes =>
    match Utf8.decode? bytes with
    | none => unreadable .notText
    | some text =>
      inContext ("Config file " ++ String.ofList (Text.quoted path)) (ofTextWith document? text)

def ofText (cs : List Char) : Except Fault Config := ofTextWith Toml.parse cs

def load (read : List Char → Except Unreadable (List UInt8)) (path : List Char) :
    Except Fault Config :=
  loadWith Toml.parse read path

end SieveChain.Config
