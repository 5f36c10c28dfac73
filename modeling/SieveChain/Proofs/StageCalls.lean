import SieveChain.Proofs.StageMoves

/-!
# Calls in any order

Between two calls anyone who has a stage may take a step or give it up, also after a step that has
failed. Whatever the calls and whatever their surroundings answer, a stage never goes back, owns
nothing but candidates, and has given up all it has taken but for what its state holds. Only a
draining stage can be left in a state that no step goes on from, by a step that has failed before.
-/

namespace SieveChain

/-- A child that is given up without being reaped. -/
def Event.isForsaken : Event → Bool
  | .forsaken _ => true
  | _ => false

/-- Nothing is taken by an event, and nothing is given up. -/
structure Event.Still (e : Event) : Prop where
  left : e.isLeft = false
  start : e.isStart = false
  shut : e.isShut = false
  reap : e.isReap = false
  forsaken : e.isForsaken = false

theorem Event.still_of_isIo {e : Event} (h : e.isIo = true) : e.Still := by
  cases e with
  | read | recorded | committed | sent => exact ⟨rfl, rfl, rfl, rfl, rfl⟩
  | _ => cases h

/-- A fault of a channel that comes from what happens is the fault of a child. -/
theorem Carries.exists_reaped {e : Event} {text : String}
    (h : Carries (some e) none (some (.channel text))) :
    ∃ child, e = .reaped child (.error (.channel text)) := by
  cases h with
  | handed => exact ⟨_, rfl⟩

/-- No remainder by a candidate is undefined or overflows. -/
theorem IsCandidate.divides {ceiling : Option Int32} {p : Int32} (h : IsCandidate ceiling p) :
    p ≠ 0 ∧ p ≠ -1 := by
  constructor <;> rintro rfl <;> exact absurd h.1 (by decide)

namespace Stage

/-! ## What a stage holds -/

/-- How many inputs, outputs and children are held. -/
structure Held where
  input : Nat
  output : Nat
  child : Nat

def State.held : State → Held
  | .awaitFirst _ earlier => ⟨1, earlier.isSome.toNat, earlier.isSome.toNat⟩
  | .filtering _ _ _ | .draining _ _ _ => ⟨1, 1, 1⟩
  | .severed _ _ _ => ⟨1, 0, 1⟩
  | .spent _ | .childReaped _ => ⟨0, 0, 0⟩
  | .done _ left => ⟨0, left.isSome.toNat, left.isSome.toNat⟩

/-- What is held besides an output that is being given up. -/
def Shutting.held : Shutting → Held
  | .replaced _ _ _ _ => ⟨1, 1, 2⟩
  | .drained _ _ _ _ | .severed _ _ _ _ => ⟨1, 0, 1⟩
  | .givenUp input _ _ _ => ⟨input.toNat, 0, 1⟩
  | .letGo _ _ => ⟨0, 0, 1⟩

/-- What is held besides an input that is being given up. -/
def Leaving.held : Leaving → Held
  | .idle earlier => ⟨0, earlier.isSome.toNat, earlier.isSome.toNat⟩
  | .drained _ _ | .letGoSevered _ _ => ⟨0, 0, 1⟩
  | .givenUp _ child _ => ⟨0, 0, child.isSome.toNat⟩
  | .letGo _ left => ⟨0, left.isSome.toNat, left.isSome.toNat⟩

def Task.held : Task → Held
  | .first _ earlier | .skip _ earlier _ | .launch _ earlier _ =>
    ⟨1, earlier.isSome.toNat, earlier.isSome.toNat⟩
  | .record _ _ _ _ | .next _ _ _ | .forward _ _ _ _ | .close _ _ _ => ⟨1, 1, 1⟩
  | .empty _ after | .shut after => ⟨after.held.input, after.held.output + 1, after.held.child⟩
  | .replace _ _ _ _ => ⟨1, 1, 2⟩
  | .leave after => ⟨after.held.input + 1, after.held.output, after.held.child⟩
  | .reap _ _ | .forsake _ _ => ⟨0, 0, 1⟩
  | .ended state _ => state.held

/-- What an event does to what is held. -/
inductive Held.Changes : Held → Event → Held → Prop
  | still {h : Held} {e : Event} (hs : e.Still) : Changes h e h
  | started {i o c : Nat} {child : Child} :
      Changes ⟨i, o, c⟩ (.launched (.ok child)) ⟨i, o + 1, c + 1⟩
  | shut {i o c : Nat} {child : Child} : Changes ⟨i, o + 1, c⟩ (.shut child) ⟨i, o, c⟩
  | left {i o c : Nat} : Changes ⟨i + 1, o, c⟩ .left ⟨i, o, c⟩
  | reaped {i o c : Nat} {child : Child} {result : Except Fault Unit} :
      Changes ⟨i, o, c + 1⟩ (.reaped child result) ⟨i, o, c⟩
  | forsaken {i o c : Nat} {child : Child} : Changes ⟨i, o, c + 1⟩ (.forsaken child) ⟨i, o, c⟩

variable {ceiling : Option Int32} {call : Call} {state : State} {t t' : Task} {e : Event}

theorem GivesUp.held {after : Shutting} (h : GivesUp after t) :
    t.held = ⟨after.held.input, after.held.output + 1, after.held.child⟩ := by
  cases h <;> rfl

theorem Goes.changes (h : Goes ceiling t e t') : t.held.Changes e t'.held := by
  cases h with
  | first hq | refused hq | nothing hq | skip hq | skipped hq | record hq | committed hq | full hq
  | exhausted hq | closed hq => exact .still (Event.still_of_isIo hq.io)
  | accepted hq _ | next hq _ | forward hq _ | forwarded hq _ | close hq _ =>
    exact .still (Event.still_of_isIo hq.io)
  | unread he | unskipped he | unrecorded he | unreadable he =>
    exact .still (Event.still_of_isIo (Event.isIo_of_error he))
  | unforwarded he _ => exact .still (Event.still_of_isIo (Event.isIo_of_error he))
  | unclosed he ht =>
    rw [ht.held]
    exact .still (Event.still_of_isIo (Event.isIo_of_error he))
  | empty hio | emptied hio => exact .still (Event.still_of_isIo hio)
  | unlaunched => exact .still ⟨rfl, rfl, rfl, rfl, rfl⟩
  | launched => exact .started
  | relaunched ht =>
    rw [ht.held]
    exact .started
  | shutReplaced | shutDrained | shutSevered | shutGivenUp | shutLast | shutLetGo => exact .shut
  | @leftIdle q => cases q <;> exact .left
  | leftDrained | leftGivenUp | leftAlone | leftLast | leftSevered => exact .left
  | leftLetGo ht =>
    rw [ht.held]
    exact .left
  | reaped | handed | reapedGivenUp => exact .reaped
  | gaveWay _ | kept _ => exact .reaped
  | replaced | forsaken => exact .forsaken

/-- Whatever has been taken has been given up, but for what is held. A stage has its input from
the beginning. -/
structure Tally (events : List Event) (h : Held) : Prop where
  input : events.countP Event.isLeft + h.input = 1
  output : events.countP Event.isStart = events.countP Event.isShut + h.output
  child : events.countP Event.isStart =
    events.countP Event.isReap + events.countP Event.isForsaken + h.child

theorem countP_concat (p : Event → Bool) (events : List Event) :
    (events ++ [e]).countP p = events.countP p + (p e).toNat := by
  rw [List.countP_append, List.countP_singleton]
  cases p e <;> rfl

theorem Tally.concat {events : List Event} {h h' : Held} (ht : Tally events h)
    (hc : h.Changes e h') : Tally (events ++ [e]) h' := by
  obtain ⟨hi, ho, hk⟩ := ht
  cases hc with
  | still hs =>
    constructor <;>
      simp only [countP_concat, hs.left, hs.start, hs.shut, hs.reap, hs.forsaken] <;> assumption
  | _ =>
    dsimp only at hi ho hk
    constructor <;>
      simp only [countP_concat, Event.isLeft, Event.isStart, Event.isShut, Event.isReap,
        Event.isForsaken, Bool.toNat_true, Bool.toNat_false] <;> omega

theorem Begins.held (h : Begins call state t) : t.held = state.held := by
  cases h with
  | givesUp hs ht => rcases hs with rfl | rfl | rfl <;> exact ht.held
  | givesUpLeft ht => exact ht.held
  | nothing hs => rcases hs with rfl | ⟨q, rfl, rfl | rfl⟩ <;> rfl
  | _ => rfl

/-! ## What a stage owns -/

/-- All that a stage owns, or is about to own, are candidates. -/
structure Task.Owns (ceiling : Option Int32) (t : Task) : Prop where
  prime : ∀ p ∈ t.prime?, accepts ceiling p = true
  chosen : ∀ input earlier v, t = .launch input earlier v → accepts ceiling v = true

theorem GivesUp.owns {after : Shutting} (h : GivesUp after t)
    (hp : ∀ p ∈ after.prime?, accepts ceiling p = true) : t.Owns ceiling := by
  cases h with
  | shut => exact ⟨hp, fun _ _ _ ht => by cases ht⟩
  | empty => exact ⟨hp, fun _ _ _ ht => by cases ht⟩

theorem Goes.owns (h : Goes ceiling t e t') (ho : t.Owns ceiling) : t'.Owns ceiling := by
  cases h with
  | accepted hq hv =>
    refine ⟨ho.prime, ?_⟩
    rintro input earlier v ⟨rfl⟩
    exact hv
  | launched =>
    refine ⟨?_, fun _ _ _ ht => by cases ht⟩
    rintro p ⟨rfl⟩
    exact ho.chosen _ _ _ rfl
  | relaunched ht =>
    apply ht.owns
    rintro p ⟨rfl⟩
    exact ho.chosen _ _ _ rfl
  | unclosed he ht => exact ht.owns ho.prime
  | leftLetGo ht => exact ht.owns ho.prime
  | _ => exact ⟨ho.prime, fun _ _ _ ht => by cases ht⟩

theorem Begins.owns (h : Begins call state t)
    (hp : ∀ p ∈ state.prime?, accepts ceiling p = true) : t.Owns ceiling := by
  cases h with
  | givesUp hs ht => rcases hs with rfl | rfl | rfl <;> exact ht.owns hp
  | givesUpLeft ht => exact ht.owns hp
  | nothing hs =>
    rcases hs with rfl | ⟨q, rfl, rfl | rfl⟩ <;> exact ⟨hp, fun _ _ _ ht => by cases ht⟩
  | _ => exact ⟨hp, fun _ _ _ ht => by cases ht⟩

/-! ## Steps -/

def Shutting.phase? : Shutting → Option Phase
  | .replaced _ _ _ _ => some .awaitFirst
  | .drained _ _ _ _ | .severed _ _ _ _ => some .draining
  | .givenUp _ _ _ _ | .letGo _ _ => none

def Leaving.phase? : Leaving → Option Phase
  | .idle _ => some .awaitFirst
  | .drained _ _ => some .draining
  | _ => none

def Reaping.phase? : Reaping → Option Phase
  | .drained _ => some .draining
  | .givenUp _ _ => none

/-- The phase of a step that is under way at a task. -/
def Task.phase? : Task → Option Phase
  | .first _ _ | .skip _ _ _ | .launch _ _ _ | .record _ _ _ _ | .replace _ _ _ _ =>
    some .awaitFirst
  | .next _ _ _ | .forward _ _ _ _ => some .filtering
  | .close _ _ _ => some .draining
  | .empty _ after | .shut after => after.phase?
  | .leave after => after.phase?
  | .reap _ after => after.phase?
  | .forsake _ _ | .ended _ _ => none

/-- The tasks of a step from a phase. It moves on to a state in which nothing is missing, or it
fails and stays in its phase. -/
inductive StepTask (phase : Phase) : Task → Prop
  | under {t : Task} (h : t.phase? = some phase) : StepTask phase t
  | moved {state : State} (hr : phase.rank ≤ state.phase.rank) (hf : state.fault? = none) :
      StepTask phase (.ended state (.ok state.phase))
  | failed {state : State} {f : Fault} (h : state.phase = phase) :
      StepTask phase (.ended state (.error f))

theorem GivesUp.phase? {after : Shutting} (h : GivesUp after t) : t.phase? = after.phase? := by
  cases h <;> rfl

theorem GivesUp.fault? {after : Shutting} (h : GivesUp after t) : t.fault? = after.fault? := by
  cases h <;> rfl

theorem Goes.stepTask {phase : Phase} (h : Goes ceiling t e t') (hp : t.phase? = some phase) :
    StepTask phase t' := by
  cases h with
  | relaunched ht | unclosed _ ht => exact .under (ht.phase?.trans hp)
  | leftLetGo ht => cases hp
  | unread | unskipped | unlaunched | unrecorded | unreadable | unforwarded | shutSevered
  | handed =>
    cases hp
    exact .failed rfl
  | committed | exhausted | leftIdle | reaped =>
    cases hp
    exact .moved (Nat.le_of_ble_eq_true rfl) rfl
  | leftAlone | leftLast | reapedGivenUp | gaveWay | kept | forsaken => cases hp
  | _ => exact .under hp

/-- A fault that comes up in a step comes from what has happened, and then stays. -/
theorem Goes.step_fault {phase : Phase} (h : Goes ceiling t e t') (hp : t.phase? = some phase) :
    (t.fault? = none → ∀ f, t'.fault? = some f → Carries (some e) none (some f)) ∧
      ∀ f, t.fault? = some f → t'.fault? = some f := by
  cases h with
  | relaunched ht =>
    rw [ht.fault?]
    exact ⟨fun _ f hf => (by cases hf), fun f hf => (by cases hf)⟩
  | unclosed he ht =>
    rw [ht.fault?]
    refine ⟨?_, fun f hf => by cases hf⟩
    rintro - f ⟨rfl⟩
    exact .failed (Event.isPlain_of_error he) he
  | unread he | unskipped he | unrecorded he | unreadable he | unforwarded he _ =>
    refine ⟨?_, fun f hf => by cases hf⟩
    rintro - f ⟨rfl⟩
    exact .failed (Event.isPlain_of_error he) he
  | unlaunched =>
    refine ⟨?_, fun f hf => by cases hf⟩
    rintro - f ⟨rfl⟩
    exact .refused
  | handed =>
    refine ⟨?_, fun f hf => by cases hf⟩
    rintro - f ⟨rfl⟩
    exact .handed
  | empty | emptied | shutSevered =>
    refine ⟨fun hn f hf => ?_, fun f hf => hf⟩
    cases hn.symm.trans hf
  | leftLetGo => cases hp
  | shutGivenUp | shutLast | leftGivenUp | leftAlone | reapedGivenUp | gaveWay | kept => cases hp
  | _ => exact ⟨fun _ f hf => (by cases hf), fun f hf => (by cases hf)⟩

theorem Begins.stepTask (h : Begins .step state t) : StepTask state.phase t := by
  cases h with
  | first | next | close | closed => exact .under rfl
  | severed | spent => exact .failed rfl
  | childReaped => exact .moved (Nat.le_of_ble_eq_true rfl) rfl
  | done => exact .moved (Nat.le_refl _) rfl

/-- A step that has ended has not gone back; if it has failed, it is still in its phase, and only
then is anything missing. -/
theorem StepTask.ended {phase : Phase} {result : Except Fault Phase}
    (h : StepTask phase (.ended state result)) :
    phase.rank ≤ state.phase.rank ∧ (∀ f, result = .error f → state.phase = phase) ∧
      (state.fault? = none ∨ ∃ f, result = .error f) := by
  cases h with
  | under hp => cases hp
  | moved hr hf => exact ⟨hr, fun _ hf => (by cases hf), .inl hf⟩
  | failed hp => exact ⟨Nat.le_of_eq (congrArg Phase.rank hp.symm), fun _ _ => hp, .inr ⟨_, rfl⟩⟩

/-! ## Giving up -/

/-- The tasks of a call that gives a stage up for a fault. It reports the fault, or that of the
child if its own is only a broken pipe. -/
inductive GiveUpTask (own : Fault) (events : List Event) : Task → Prop
  | output {input : Bool} {prime : Option Int32} {child : Child} {t : Task}
      (ht : GivesUp (.givenUp input prime child own) t) : GiveUpTask own events t
  | leave {prime : Option Int32} {child : Option Child} :
      GiveUpTask own events (.leave (.givenUp prime child own))
  | reap {prime : Option Int32} {child : Child} :
      GiveUpTask own events (.reap child (.givenUp prime own))
  | finished {prime : Option Int32} {f : Fault}
      (hf : f = own ∨ own.isBrokenPipe = true ∧ ∃ child, .reaped child (.error f) ∈ events) :
      GiveUpTask own events (.ended (.done prime none) (.error f))

theorem Goes.giveUpTask {own : Fault} {events : List Event} (h : Goes ceiling t e t')
    (hg : GiveUpTask own events t) : GiveUpTask own (events ++ [e]) t' := by
  cases hg with
  | output ht =>
    cases ht with
    | shut =>
      cases h with
      | shutGivenUp => exact .leave
      | shutLast => exact .reap
    | empty =>
      cases h with
      | empty hio => exact .output .empty
      | emptied hio => exact .output .shut
  | leave =>
    cases h with
    | leftGivenUp => exact .reap
    | leftAlone => exact .finished (.inl rfl)
  | reap =>
    cases h with
    | reapedGivenUp => exact .finished (.inl rfl)
    | gaveWay hf =>
      exact .finished (.inr ⟨hf, _, List.mem_append_right _ (List.mem_singleton.2 rfl)⟩)
    | kept hf => exact .finished (.inl rfl)
  | finished hf => cases h

theorem Begins.giveUpTask {own : Fault} (h : Begins (.giveUp own) state t) :
    GiveUpTask own [] t := by
  cases h with
  | alone | givesUpSevered => exact .leave
  | givesUp hs ht => exact .output ht
  | givesUpLeft ht => exact .output ht
  | nothing hs => exact .finished (.inl rfl)

theorem GiveUpTask.ended {own : Fault} {events : List Event} {result : Except Fault Phase}
    (h : GiveUpTask own events (.ended state result)) :
    state.phase = .done ∧
      ∃ f, result = .error f ∧ (f = own ∨ ∃ child, .reaped child (.error f) ∈ events) := by
  cases h with
  | output hg => cases hg
  | finished hf => exact ⟨rfl, _, rfl, hf.imp id fun h => h.2⟩

/-! ## Calls -/

/-- What happens from the beginning of a call up to some point of it. -/
inductive Leads {σ : Type} [Party σ] (b : σ) : List Event → σ → Prop
  | refl : Leads b [] b
  | move {events : List Event} {c c' : σ} {e : Option Event} (h : Leads b events c)
      (hm : (Party.move c).Answered e c') : Leads b (events ++ e.toList) c'

section Calls

variable {s : Stage} {b c : Activity} {events : List Event} {call : Call}

theorem Leads.ceiling_eq (h : Leads b events c) : c.ledger.ceiling = b.ledger.ceiling := by
  induction h with
  | refl => rfl
  | move h hm ih => exact (Activity.ceiling_answered hm).trans ih

/-- What every move keeps holds as far as a call has got. -/
theorem Leads.keeps {P : List Event → Task → Prop} (h : Leads b events c) (hb : P [] b.task)
    (hP : ∀ {events t e t'}, P events t → Goes b.ledger.ceiling t e t' → P (events ++ [e]) t') :
    P events c.task := by
  induction h with
  | refl => exact hb
  | move h hm ih =>
    obtain ⟨e, rfl, hgoes⟩ := Activity.goes hm
    rw [h.ceiling_eq] at hgoes
    exact hP ih hgoes

theorem Call.ceiling_on (call : Call) (s : Stage) :
    (call.on s).ledger.ceiling = s.ledger.ceiling := by
  cases call with
  | step => exact (ledger_step s).1
  | giveUp f => exact (ledger_giveUp s f).1

theorem Leads.owns (h : Leads (call.on s) events c)
    (hp : ∀ p ∈ s.prime?, accepts s.ledger.ceiling p = true) :
    c.task.Owns s.ledger.ceiling := by
  rw [← call.ceiling_on s] at hp ⊢
  exact h.keeps (P := fun _ t => t.Owns (call.on s).ledger.ceiling) ((call.begins s).owns hp)
    fun ho hgoes => hgoes.owns ho

theorem Leads.tally {before : List Event} (h : Leads (call.on s) events c)
    (ht : Tally before s.state.held) : Tally (before ++ events) c.task.held := by
  refine h.keeps (P := fun events t => Tally (before ++ events) t.held) ?_ fun ht hgoes => ?_
  · rwa [List.append_nil, (call.begins s).held]
  · rw [← List.append_assoc]
    exact ht.concat hgoes.changes

/-- A step that has got so far, and where its fault comes from if it has come to one. -/
structure StepSoFar (s : Stage) (events : List Event) (t : Task) : Prop where
  task : StepTask s.phase t
  fault : ∀ f, t.fault? = some f →
    s.state.fault? = some f ∨ ∃ e ∈ events, Carries (some e) none (some f)

theorem Goes.stepSoFar (h : Goes ceiling t e t') (hs : StepSoFar s events t) :
    StepSoFar s (events ++ [e]) t' := by
  obtain ⟨htask, hfault⟩ := hs
  cases htask with
  | moved hr hf => cases h
  | failed hp => cases h
  | under hp =>
    refine ⟨h.stepTask hp, fun f hf => ?_⟩
    obtain ⟨harises, hstays⟩ := h.step_fault hp
    cases ht : t.fault? with
    | none => exact .inr ⟨e, List.mem_append_right _ (List.mem_singleton.2 rfl), harises ht f hf⟩
    | some f₀ =>
      cases (hstays f₀ ht).symm.trans hf
      exact (hfault f ht).imp id fun ⟨e₀, hmem, hc⟩ => ⟨e₀, List.mem_append_left _ hmem, hc⟩

theorem Leads.stepSoFar (h : Leads s.step events c) : StepSoFar s events c.task :=
  h.keeps (P := StepSoFar s)
    ⟨(begins_step s).stepTask, fun _ hf => .inl ((fault?_step s.ledger s.state).symm.trans hf)⟩
    fun hs hgoes => hgoes.stepSoFar hs

theorem Leads.giveUpTask {f : Fault} (h : Leads (s.giveUp f) events c) :
    GiveUpTask f events c.task :=
  h.keeps (begins_giveUp s f).giveUpTask fun hg hgoes => hgoes.giveUpTask hg

end Calls

/-! ## Histories -/

/-- A call that has been made. -/
structure Turn where
  before : Stage
  call : Call
  events : List Event
  result : Except Fault Phase

/-- A step of a draining stage that has failed. -/
structure Turn.FailedDraining (u : Turn) : Prop where
  step : u.call = .step
  draining : u.before.phase = .draining
  failed : ∃ f, u.result = .error f

/-- The calls that have been made on a stage so far, all of which have ended. -/
inductive History (ceiling : Option Int32) : List Turn → Stage → Prop
  | new : History ceiling [] (Stage.new ceiling)
  | turn {turns : List Turn} {s s' : Stage} {call : Call} {events : List Event} {c : Activity}
      {result : Except Fault Phase} (h : History ceiling turns s)
      (hl : Leads (call.on s) events c) (ho : c.outcome? = some (s', result)) :
      History ceiling (turns ++ [⟨s, call, events, result⟩]) s'

section Histories

variable {s s' : Stage} {turns : List Turn} {call : Call} {events : List Event} {c : Activity}
  {result : Except Fault Phase}

/-- What holds of a stage whatever calls have been made on it. -/
structure Lasting (ceiling : Option Int32) (turns : List Turn) (s : Stage) : Prop where
  ceiling_eq : s.ledger.ceiling = ceiling
  owns : ∀ p ∈ s.prime?, accepts ceiling p = true
  tally : Tally (turns.flatMap (·.events)) s.state.held
  /-- Only a failure leaves a stage without what a step needs. -/
  whole : ∀ f, s.state.fault? = some f → f = noOutput ∧ ∃ u ∈ turns, u.FailedDraining

theorem State.fault?_eq_some {state : State} {f : Fault} (h : state.fault? = some f) :
    f = noOutput ∧ state.phase = .draining := by
  cases state with
  | severed input p child => exact ⟨(Option.some.inj h).symm, rfl⟩
  | spent p => exact ⟨(Option.some.inj h).symm, rfl⟩
  | _ => cases h

/-- A call leaves a stage without what a step needs only if it is a step that fails. -/
theorem Leads.failedDraining (hl : Leads (call.on s) events c)
    (ht : c.task = .ended s'.state result) {f : Fault} (hf : s'.state.fault? = some f) :
    (Turn.mk s call events result).FailedDraining := by
  obtain ⟨-, hphase⟩ := State.fault?_eq_some hf
  cases call with
  | step =>
    have htask := hl.stepSoFar.task
    rw [ht] at htask
    obtain ⟨-, hstays, hn | ⟨f', rfl⟩⟩ := htask.ended
    · cases hn.symm.trans hf
    · exact ⟨rfl, (hstays f' rfl).symm.trans hphase, f', rfl⟩
  | giveUp own =>
    have htask := hl.giveUpTask
    rw [ht] at htask
    cases htask.ended.1.symm.trans hphase

theorem Lasting.turn (h : Lasting ceiling turns s) (hl : Leads (call.on s) events c)
    (ho : c.outcome? = some (s', result)) :
    Lasting ceiling (turns ++ [⟨s, call, events, result⟩]) s' := by
  obtain ⟨hceiling, howns, htally, hwhole⟩ := h
  subst hceiling
  obtain ⟨ht, hledger⟩ := Activity.outcome_eq_some ho
  refine ⟨?_, fun p hp => ?_, ?_, fun f hf => ?_⟩
  · rw [hledger, hl.ceiling_eq, call.ceiling_on]
  · refine (hl.owns howns).prime p ?_
    rw [ht]
    exact hp
  · have hends := hl.tally htally
    rw [ht] at hends
    rw [List.flatMap_append, List.flatMap_singleton]
    exact hends
  · exact ⟨(State.fault?_eq_some hf).1, _, List.mem_append_right _ (List.mem_singleton.2 rfl),
      hl.failedDraining ht hf⟩

theorem History.lasting (h : History ceiling turns s) : Lasting ceiling turns s := by
  induction h with
  | new =>
    exact ⟨rfl, fun _ hp => (by cases hp), ⟨rfl, rfl, rfl⟩, fun _ hf => (by cases hf)⟩
  | turn h hl ho ih => exact ih.turn hl ho

/-- A step that fails stays in its phase, and its fault comes from what has happened in it, unless
a draining stage has lost its output to a failure before. -/
theorem Lasting.step_failed {f : Fault} (h : Lasting ceiling turns s) (hl : Leads s.step events c)
    (ho : c.outcome? = some (s', .error f)) :
    s'.phase = s.phase ∧
      ((∃ e ∈ events, Carries (some e) none (some f)) ∨
        f = noOutput ∧ ∃ u ∈ turns, u.FailedDraining) := by
  obtain ⟨ht, -⟩ := Activity.outcome_eq_some ho
  obtain ⟨htask, hfault⟩ := hl.stepSoFar
  dsimp only at ht
  rw [ht] at htask hfault
  exact ⟨htask.ended.2.1 f rfl, (hfault f rfl).symm.imp id (h.whole f)⟩

/-- A fault of the channel is that of the child, or tells that the output is gone. -/
theorem Lasting.step_channel {text : String} (h : Lasting ceiling turns s)
    (hl : Leads s.step events c) (ho : c.outcome? = some (s', .error (.channel text))) :
    (∃ child, .reaped child (.error (.channel text)) ∈ events) ∨
      text = "stage output already released" ∧ ∃ u ∈ turns, u.FailedDraining := by
  obtain ⟨-, ⟨e, hmem, hcarries⟩ | ⟨hf, hfailed⟩⟩ := h.step_failed hl ho
  · obtain ⟨child, rfl⟩ := hcarries.exists_reaped
    exact .inl ⟨child, hmem⟩
  · exact .inr ⟨Fault.channel.inj hf, hfailed⟩

theorem Phase.rank_le_done (phase : Phase) : phase.rank ≤ Phase.done.rank := by
  cases phase <;> decide

/-- No call takes a stage back. -/
theorem Leads.rank_le (hl : Leads (call.on s) events c) (ho : c.outcome? = some (s', result)) :
    s.phase.rank ≤ s'.phase.rank := by
  obtain ⟨ht, -⟩ := Activity.outcome_eq_some ho
  dsimp only at ht
  cases call with
  | step =>
    have htask := hl.stepSoFar.task
    rw [ht] at htask
    exact htask.ended.1
  | giveUp own =>
    have htask := hl.giveUpTask
    rw [ht] at htask
    rw [phase, phase, htask.ended.1]
    exact Phase.rank_le_done _

end Histories

end Stage

end SieveChain
