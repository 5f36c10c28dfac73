import SieveChain.Chain
import SieveChain.CommandLine.Request

/-!
# Stages as processes

Stages that run each in a process of its own, on one record that they inherit. All
that is learnt of a process is the status it ends with.
-/

namespace SieveChain

/-- How a process has ended. -/
inductive Status
  | exited (code : Nat)
  | killed (signal : Nat)
  deriving DecidableEq, Repr

namespace Status

/-- The names of the signals, from the first. -/
def signals : List String :=
  ["SIGHUP", "SIGINT", "SIGQUIT", "SIGILL", "SIGTRAP", "SIGABRT", "SIGBUS", "SIGFPE",
   "SIGKILL", "SIGUSR1", "SIGSEGV", "SIGUSR2", "SIGPIPE", "SIGALRM", "SIGTERM", "SIGSTKFLT",
   "SIGCHLD", "SIGCONT", "SIGSTOP", "SIGTSTP", "SIGTTIN", "SIGTTOU", "SIGURG", "SIGXCPU",
   "SIGXFSZ", "SIGVTALRM", "SIGPROF", "SIGWINCH", "SIGIO", "SIGPWR", "SIGSYS"]

/-- The name of a signal, if it has one. -/
def signalName? : Nat → Option String
  | 0 => none
  | n + 1 => signals[n]?

/-- The signals that pass over a process which makes no use of them: a test whether there
is a process, a child that has ended, going on, urgent input, and a window's new size. -/
def harmless : List Nat := [0, 17, 18, 23, 28]

/-- How a process ends that asks to exit with a code. A status has room for a byte of it.
A code that is no number for the process is a misuse. -/
def atExit (code : Int) : Status :=
  if 0 ≤ code ∧ code < 2147483648 then .exited (code.toNat % 256) else .exited 2

def lastSignal : Nat := 64

/-- How a process ends that has nothing left to do but to send itself a signal. To ask
for one that does not exist is a misuse. -/
def atSignal (signal : Nat) : Status :=
  if lastSignal < signal then .exited 2
  else if signal ∈ harmless then .exited 0
  else .killed signal

def text : Status → String
  | .exited code => "exit status: " ++ Numeral.countText code
  | .killed signal =>
    "signal: " ++ Numeral.countText signal ++
      match signalName? signal with
      | some name => " (" ++ name ++ ")"
      | none => ""

/-- A process has done its work if it exits with code zero. -/
def success (s : Status) : Bool := s == .exited 0

/-- What whoever waits for a process learns of its status. -/
def verdict (label : String) (s : Status) : Except Fault Unit :=
  if s.success then .ok () else .error (.stageFailed label s.text)

def ofResult : Except Fault Stage.Report → Status
  | .ok _ => .exited 0
  | .error _ => .exited 1

end Status

def processLabel (pid : Nat) : String := "pid " ++ Numeral.countText pid

/-- The arguments with which a program is run as a stage under a ceiling. -/
def stageArguments : Option Int32 → List (List Char)
  | none => ["stage".toList]
  | some v => ["stage".toList, "--ceiling".toList, Numeral.ofInt v.toInt]

/-- The ceiling that a program run with these arguments has as a stage. Arguments that
are not for a stage bring none. -/
def ceilingOf (request? : CommandLine.RequestReader) (arguments : List (List Char)) :
    Option Int32 :=
  match request? arguments with
  | some (.stage ceiling) => ceiling
  | _ => none

/-- Processes take their ceiling from their arguments, and keep their fault to themselves
but for the status they end with. -/
def processesWith (request? : CommandLine.RequestReader) : Host where
  label := processLabel
  heir ceiling := ceilingOf request? (stageArguments ceiling)
  verdict pid result := (Status.ofResult result).verdict (processLabel pid)

def processes : Host := processesWith CommandLine.parse

/-- What is noted around a chain of processes. A stage that fails says so before whoever
waits for it learns of it, so the last stages come first. -/
def processNotices (runs : List StageRun) : List Notice :=
  runs.reverse.flatMap fun r =>
    r.stage.ledger.notices ++
      match r.result with
      | .ok _ => []
      | .error f => [.gaveUp f.chainText]

end SieveChain
