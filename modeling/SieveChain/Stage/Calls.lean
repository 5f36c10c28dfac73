import SieveChain.Stage.Activity

/-!
# Calls on a stage

A stage at rest, and the calls that set it to work: taking a step, giving it up
after a fault, letting it go, and running it from beginning to end.
-/

namespace SieveChain

/-- A stage between two calls. -/
structure Stage where
  ledger : Stage.Ledger := {}
  state : Stage.State := .awaitFirst {} none

namespace Stage

/-- A stage that has not begun, under a ceiling if there is one. -/
def new (ceiling : Option Int32) : Stage := { ledger := { ceiling } }

def phase (s : Stage) : Phase := s.state.phase

def prime? (s : Stage) : Option Int32 := s.state.prime?

def report (s : Stage) : Report :=
  { prime := s.prime?, forwarded := s.ledger.forwarded, discarded := s.ledger.discarded }

def begin (s : Stage) (task : Task) : Activity := { phase := s.phase, ledger := s.ledger, task }

/-- A draining stage that a failure has left without an output cannot go on. -/
def noOutput : Fault := .channel "stage output already released"

def step (s : Stage) : Activity :=
  match s.state with
  | .awaitFirst input earlier => s.begin (.first input earlier)
  | .filtering input prime link => s.begin (.next input prime link)
  | .draining input prime link =>
    if link.output.isEmpty then
      s.begin (.shut (.drained input prime link.child link.output.taken))
    else s.begin (.close input prime link)
  | .severed input prime child => s.begin (.ended (.severed input prime child) (.error noOutput))
  | .spent prime => s.begin (.ended (.spent prime) (.error noOutput))
  | .childReaped prime => (s.begin (.ended s.state (.ok s.phase))).settle (.done (some prime) none)
  | .done prime left => s.begin (.ended (.done prime left) (.ok .done))

/-- Gives the stage up after a fault: both channel ends are given up and the child,
if there is one, is reaped. The call ends with the fault to report. -/
def giveUp (s : Stage) (fault : Fault) : Activity :=
  let gone (prime : Option Int32) : Activity := s.begin (.ended (.done prime none) (.error fault))
  let withLink (input : Bool) (prime : Option Int32) (link : Link) : Activity :=
    (gone prime).giveUpOutput link.output (.givenUp input prime link.child fault)
  match s.state with
  | .awaitFirst _ none => s.begin (.leave (.givenUp none none fault))
  | .awaitFirst _ (some (prime, link)) => withLink true (some prime) link
  | .filtering _ prime link => withLink true (some prime) link
  | .draining _ prime link => withLink true (some prime) link
  | .severed _ prime child => s.begin (.leave (.givenUp (some prime) (some child) fault))
  | .spent prime => gone (some prime)
  | .childReaped prime => gone (some prime)
  | .done prime none => gone prime
  | .done prime (some link) => withLink false prime link

/-- Lets the stage go: whatever it holds is given up, and no child is waited for. -/
def letGo (s : Stage) : Activity :=
  let gone (prime : Option Int32) : Activity := s.begin (.ended (.done prime none) (.ok .done))
  match s.state with
  | .awaitFirst _ earlier => s.begin (.leave (.letGo (earlier.map (·.1)) (earlier.map (·.2))))
  | .filtering _ prime link => s.begin (.leave (.letGo (some prime) (some link)))
  | .draining _ prime link => s.begin (.leave (.letGo (some prime) (some link)))
  | .severed _ prime child => s.begin (.leave (.letGoSevered prime child))
  | .spent prime => gone (some prime)
  | .childReaped prime => gone (some prime)
  | .done prime none => gone prime
  | .done prime (some link) => (gone prime).giveUpOutput link.output (.letGo prime link.child)

/-- The stage and the result of a call that has come to its end. -/
def Activity.outcome? (a : Activity) : Option (Stage × Except Fault Phase) :=
  match a.task with
  | .ended state result => some ({ ledger := a.ledger, state }, result)
  | _ => none

/-- A stage that runs to its end: it takes step after step, is given up after the
first fault, and finishes with a report or a fault. -/
inductive Run
  | stepping (call : Activity)
  | givingUp (call : Activity)
  | finished (stage : Stage) (result : Except Fault Report)

namespace Run

def start (s : Stage) : Run := .stepping s.step

def afterStep (s : Stage) : Except Fault Phase → Run
  | .ok .done => .finished { s with ledger := s.ledger.note (.reported s.report) } (.ok s.report)
  | .ok _ => .stepping s.step
  | .error f => .givingUp (s.giveUp f)

def afterGivingUp (s : Stage) : Except Fault Phase → Run
  | .ok _ => .finished s (.ok s.report)
  | .error f => .finished s (.error f)

def move : Run → Move Run
  | .stepping call =>
    match call.outcome? with
    | some (s, result) => .proceed (afterStep s result)
    | none => call.move.map .stepping
  | .givingUp call =>
    match call.outcome? with
    | some (s, result) => .proceed (afterGivingUp s result)
    | none => call.move.map .givingUp
  | .finished _ _ => .rest

instance : Party Run := ⟨move⟩

def outcome? : Run → Option (Stage × Except Fault Report)
  | .finished s result => some (s, result)
  | _ => none

end Run

end Stage

end SieveChain
