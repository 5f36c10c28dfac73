import SieveChain.Host.Folder
import SieveChain.Host.Processes

/-!
# Launching programs

A program is run with the arguments of a stage, and its input is the channel. Programs
are those of a folder and the system, named by a path with a slash in it, and those of
the search path, named by a name alone.
-/

namespace SieveChain

/-- A program that is to be run as a stage, and the ceiling of the stage. -/
structure Command where
  program : List Char
  ceiling : Option Int32 := none
  deriving Repr

/-- Why a program cannot be started. -/
inductive Unstartable
  | refused (e : OsError)
  /-- A name holds a null character, so it cannot name a program. -/
  | nullInName
  deriving DecidableEq, Repr

def Unstartable.message : Unstartable → String
  | .refused e => e.message
  | .nullInName => "nul byte found in provided data"

/-- The programs that can be launched: those of a folder, which read what they are given
and end with a status, and those of the system, by name, with the status they end with
when they are run as a stage. -/
structure Programs where
  folder : Folder := {}
  ending : Status := .exited 0
  system : List (List Char × Status) :=
    [("true", 0), ("false", 1), ("sh", 2), ("cat", 1), ("ls", 2), ("sleep", 1), ("env", 127)].map
      fun (name, code) => (name.toList, .exited code)

/-- A program that has been found: the status it ends with, and whether it is one of the
folder. -/
structure Found where
  ending : Status
  inFolder : Bool
  deriving DecidableEq, Repr

/-- A process that was launched: its arguments, what has been written to it, whether its
channel is still held, and whether it has been waited for. -/
structure Worker where
  pid : Nat
  found : Found
  arguments : List (List Char)
  received : Array UInt8 := #[]
  writer : Bool := true
  reaped : Bool := false

namespace Programs

def ofSystem (p : Programs) (name : List Char) : Except Unstartable Found :=
  match p.system.lookup name with
  | some ending => .ok { ending, inFolder := false }
  | none => .error (.refused .notFound)

/-- Finds a program on the search path. The folders on it are no programs. -/
def search (p : Programs) (name : List Char) : Except Unstartable Found :=
  if name = ['.'] ∨ name = ['.', '.'] then .error (.refused .denied)
  else if Folder.longestName < (Utf8.encode name).length then .error (.refused .nameTooLong)
  else
    p.ofSystem name

/-- Finds a program. A file that may not be run is no program, and neither is a
folder. -/
def find (p : Programs) (program : List Char) : Except Unstartable Found :=
  if '\x00' ∈ program then .error .nullInName
  else if '/' ∈ program then
    match p.folder.find program with
    | .ok (.file _ true) => .ok { ending := p.ending, inFolder := true }
    | .ok (.program name) => p.ofSystem name
    | .ok _ => .error (.refused .denied)
    | .error e => .error (.refused e)
  else if program.isEmpty then .error (.refused .notFound)
  else p.search program

/-- Launches a program, or says why it cannot be launched. -/
def launch (p : Programs) (c : Command) (pid : Nat) : Except Fault Worker :=
  match p.find c.program with
  | .ok found => .ok { pid, found, arguments := stageArguments c.ceiling }
  | .error why => .error (.spawn (String.ofList c.program ++ ": " ++ why.message))

end Programs

namespace Worker

def label (w : Worker) : String := processLabel w.pid

def verdict (w : Worker) : Except Fault Unit := w.found.ending.verdict w.label

/-- Writes to a process; `none` if its channel has been given up. -/
def write (w : Worker) (bytes : List UInt8) : Option Worker :=
  if w.writer then some { w with received := w.received ++ bytes } else none

/-- Gives up the channel, and says whether it was held. -/
def close (w : Worker) : Bool × Worker := (w.writer, { w with writer := false })

def status? (w : Worker) : Option Status := if w.reaped then some w.found.ending else none

/-- Waits for a process; `none` while its channel is held, since the process goes on
reading. The status stays, so waiting again gives the same answer. -/
def reap (w : Worker) : Option (Except Fault Unit × Worker) :=
  if w.writer then none else some (w.verdict, { w with reaped := true })

end Worker

/-- How a feeder has run with a program as its first stage. -/
structure Programs.Fed where
  result : Except Fault Nat
  notices : List Notice
  worker : Option Worker

/-- Runs a feeder over a range, with a program as its first stage. -/
def Programs.feed (p : Programs) (c : Command) (pid : Nat) (range : Candidates) :
    Option Programs.Fed :=
  match p.launch c pid with
  | .error f =>
    let (outcome?, _) := Feeder.perform range { launches := [.refused f] }
    outcome?.map fun o => { result := o.result, notices := o.notices, worker := none }
  | .ok worker =>
    let start : Scripted.Start := { label := worker.label, ending := some worker.verdict }
    let (outcome?, w) := Feeder.perform range { launches := [.started start] }
    outcome?.map fun o =>
      { result := o.result
        notices := .launched worker.label :: o.notices
        worker := some
          { worker with received := (w.accepts ⟨0, worker.label⟩).toArray,
                        writer := false, reaped := true } }

end SieveChain
