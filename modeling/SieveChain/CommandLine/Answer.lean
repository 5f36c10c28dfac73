import SieveChain.CommandLine.Filter
import SieveChain.CommandLine.Help
import SieveChain.Config.File
import SieveChain.Host.Processes
import SieveChain.Host.Threads

/-!
# Answering requests

What the program does for a request: the code it ends with, what it writes to its
output, and what it notes. The output carries the record and nothing else besides
pages of help.
-/

namespace SieveChain.CommandLine

/-- What the program finds around it: files to read, its input, the log that is asked
for, and whether its output takes nothing. -/
structure Setting where
  read : List Char → Except Unreadable (List UInt8) := fun _ => .error (.refused .notFound)
  input : List (List UInt8) := []
  log : Option (List Char) := none
  full : Bool := false

/-- The means to read what is given to the program as a text: a document, the arguments, and what
is asked of the log. Of the latter there is nothing to be had if a log cannot be set up. -/
structure Readers where
  document? : Config.DocumentReader := Toml.parse
  request? : RequestReader := parse
  passes? : Option (List Char) → Option (Notice → Bool) := fun request =>
    (LogFilter.ofRequest? request).map LogFilter.passes

/-- What the program does. -/
structure Answer where
  code : Nat := 0
  output : List UInt8 := []
  notices : List Notice := []

def misuseCode : Nat := 2

def failureCode : Nat := 1

/-- The code of a program that breaks off before it has begun. -/
def breakOffCode : Nat := 101

namespace Setting

/-- The record of a stage: it goes to the output. -/
def record (s : Setting) : Scripted.Sink :=
  if s.full then { barriers := [⟨0, .failures .deviceFull rfl none⟩] } else {}

/-- A text for the output. Nobody is told if it cannot be written. -/
def say (s : Setting) (text : String) : Answer :=
  { output := if s.full then [] else Utf8.encode text.toList }

/-- The configuration that options ask for. A file is loaded, and has to be valid,
before anything overrides it. -/
def configurationWith (s : Setting) (r : Readers) (o : Options) : Except Fault Config :=
  let loaded : Except Fault Config :=
    match o.file with
    | some path => Config.loadWith r.document? s.read path
    | none => .ok {}
  match loaded with
  | .error f => .error f
  | .ok c =>
    let c : Config :=
      { low := o.low.getD c.low, high := o.bound.getD c.high,
        backend := o.backend.getD c.backend }
    match c.validate with
    | .error flaw => .error flaw.fault
    | .ok () => .ok c

def configuration (s : Setting) (o : Options) : Except Fault Config := s.configurationWith {} o

end Setting

namespace Answer

def fail (a : Answer) (text : String) : Answer :=
  { a with code := failureCode, notices := a.notices ++ [.gaveUp text] }

def conclude (a : Answer) : Except Fault Nat → Answer
  | .ok n => { a with notices := a.notices ++ [.finished n] }
  | .error f => a.fail f.chainText

end Answer

namespace Setting

/-- Sieves with a process for each stage. They share the output as their record. -/
def sieveByProcesses (s : Setting) (r : Readers) (c : Config) : Answer :=
  let fed := Chain.feed (processesWith r.request?) {} (fun _ => { record := s.record }) c.ceiling 1
    c.candidates
  let done : Answer :=
    { output := Chain.recorded fed.runs, notices := processNotices fed.runs ++ fed.notices }
  done.conclude fed.result

/-- Sieves with a thread for each stage. The record is written to the output at the end,
also if a stage has failed, since its lines are valid all the same. -/
def sieveByThreads (s : Setting) (c : Config) : Answer :=
  let fed := Chain.feed threads {} (fun _ => {}) c.ceiling 0 c.candidates
  let record := Chain.recorded fed.runs
  let notices := fed.runs.reverse.flatMap (·.stage.ledger.notices) ++ fed.notices
  if s.full ∧ record ≠ [] then
    ({ notices } : Answer).fail ("Writing record: " ++ IoError.deviceFull.message)
  else ({ output := record, notices } : Answer).conclude fed.result

/-- Sieves as options ask for. -/
def sieve (s : Setting) (r : Readers) (o : Options) : Answer :=
  match s.configurationWith r o with
  | .error f => ({} : Answer).fail f.chainText
  | .ok c =>
    let answer := match c.backend with
      | .process => s.sieveByProcesses r c
      | .thread => s.sieveByThreads c
    { answer with notices := .sieving c.low c.high c.backend.name :: answer.notices }

/-- Runs a single stage on the input. The stages below it run in processes. -/
def stage (s : Setting) (r : Readers) (ceiling : Option Int32) : Answer :=
  let runs := Chain.run (processesWith r.request?) (fun _ => { record := s.record }) ceiling 1
    s.input
  let failed := match runs with
    | [] => false
    | first :: _ => (Status.ofResult first.result).success == false
  { code := if failed then failureCode else 0
    output := Chain.recorded runs, notices := processNotices runs }

def fulfil (s : Setting) (r : Readers) : Request → Answer
  | .page p => s.say p.text
  | .version => s.say CommandLine.version
  | .sieve o => s.sieve r o
  | .stage ceiling => s.stage r ceiling

/-- Does what the arguments ask for. Only the notices that get into the log are kept. A
log that cannot be set up is found out before anything else is looked at. -/
def answerWith (s : Setting) (r : Readers) (arguments : List (List Char)) : Answer :=
  match r.passes? s.log with
  | none => { code := breakOffCode }
  | some passes =>
    match r.request? arguments with
    | none => { code := misuseCode }
    | some request =>
      let a := s.fulfil r request
      { a with notices := a.notices.filter passes }

def answer (s : Setting) (arguments : List (List Char)) : Answer := s.answerWith {} arguments

end Setting

end SieveChain.CommandLine
