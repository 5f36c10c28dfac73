import SieveChain.Proofs.StageCalls
import SieveChain.Proofs.StageEffort
import Mathlib.Data.List.Basic

/-!
# Cleaning up

A stage can be given up from wherever its steps have brought it, also by a step that has failed:
before anything is read, with a child and no line on the record, in the middle of filtering, with
the output gone and the child still there, or with both gone. Whatever it holds then is given up
in one order. Behind that nothing is held, every child has been reaped once, and no call does
anything any more.
-/

namespace SieveChain

namespace Event

/-- The child that a launch has given. -/
def started? : Event → Option Child
  | .launched (.ok child) => some child
  | _ => none

def reaped? : Event → Option Child
  | .reaped child _ => some child
  | _ => none

/-- A child that is parted from, be it reaped or not. -/
def parted? : Event → Option Child
  | .reaped child _ => some child
  | .forsaken child => some child
  | _ => none

/-- A write to a channel that has been interrupted. -/
def interrupts : Event → Bool
  | .sent _ _ (.failed e) => e.isInterrupted
  | _ => false

theorem children_of_isIo {e : Event} (h : e.isIo = true) : e.started? = none ∧ e.parted? = none := by
  cases e with
  | read | recorded | committed | sent => exact ⟨rfl, rfl⟩
  | _ => cases h

end Event

namespace Stage

variable {ceiling : Option Int32} {s s' : Stage} {own : Fault} {b b' c : Activity}
  {events before : List Event} {e : Event} {t t' : Task}

/-! ## What is held, by name -/

/-- The output that is held, and the child behind it. -/
def State.output? : State → Option Link
  | .awaitFirst _ earlier => earlier.map (·.2)
  | .filtering _ _ link | .draining _ _ link => some link
  | .severed _ _ _ | .spent _ | .childReaped _ => none
  | .done _ left => left

/-- The child that is held. It may be there still when the output has gone. -/
def State.child? : State → Option Child
  | .severed _ _ child => some child
  | state => state.output?.map (·.child)

def State.hasInput : State → Bool
  | .awaitFirst _ _ | .filtering _ _ _ | .draining _ _ _ | .severed _ _ _ => true
  | .spent _ | .childReaped _ | .done _ _ => false

theorem State.child?_of_output? {state : State} {link : Link} (h : state.output? = some link) :
    state.child? = some link.child := by
  cases state with
  | severed => cases h
  | _ => exact congrArg (Option.map (·.child)) h

def Shutting.children : Shutting → List Child
  | .replaced _ old _ link => [old, link.child]
  | .drained _ _ child _ | .severed _ _ child _ | .givenUp _ _ child _ | .letGo _ child => [child]

def Leaving.children : Leaving → List Child
  | .idle earlier => ((earlier.map (·.2)).map (·.child)).toList
  | .drained _ child | .letGoSevered _ child => [child]
  | .givenUp _ child _ => child.toList
  | .letGo _ left => (left.map (·.child)).toList

/-- The children that a task has at hand. There are two while one makes way for the other. -/
def Task.children : Task → List Child
  | .first _ earlier | .skip _ earlier _ | .launch _ earlier _ =>
    ((earlier.map (·.2)).map (·.child)).toList
  | .record _ _ link _ | .next _ _ link | .forward _ _ link _ | .close _ _ link => [link.child]
  | .empty _ after | .shut after => after.children
  | .replace _ old _ link => [old, link.child]
  | .leave after => after.children
  | .reap child _ | .forsake _ child => [child]
  | .ended state _ => state.child?.toList

/-- Whoever has been launched has been parted from, but for the children at hand. -/
def Booked (events : List Event) (held : List Child) : Prop :=
  (events.filterMap Event.started?).Perm (events.filterMap Event.parted? ++ held)

theorem GivesUp.children {after : Shutting} (h : GivesUp after t) : t.children = after.children := by
  cases h <;> rfl

/-- A move that gives a child puts it at hand, and one that parts from a child had it there. -/
theorem Goes.children (h : Goes ceiling t e t') :
    (e.started?.toList ++ t.children).Perm (e.parted?.toList ++ t'.children) := by
  have still (hio : e.isIo = true) (heq : t'.children = t.children) :
      (e.started?.toList ++ t.children).Perm (e.parted?.toList ++ t'.children) := by
    rw [(Event.children_of_isIo hio).1, (Event.children_of_isIo hio).2, heq]
  cases h with
  | first hq | refused hq | nothing hq | skip hq | skipped hq | record hq | committed hq | full hq
  | exhausted hq | closed hq => exact still hq.io rfl
  | accepted hq _ => exact still hq.io rfl
  | next hq hc | forward hq hc | forwarded hq hc | close hq hc =>
    exact still hq.io (congrArg (fun child => [child]) hc)
  | unread he | unskipped he | unrecorded he | unreadable he =>
    exact still (Event.isIo_of_error he) rfl
  | unforwarded he hc =>
    exact still (Event.isIo_of_error he) (congrArg (fun child => [child]) hc)
  | unclosed he ht => exact still (Event.isIo_of_error he) ht.children
  | empty hio | emptied hio => exact still hio rfl
  | @relaunched _ _ _ old child _ ht =>
    rw [ht.children]
    exact .swap _ _ _
  | leftLetGo ht =>
    rw [ht.children]
    exact .refl _
  | _ => exact .refl _

theorem Begins.children {call : Call} {state : State} (h : Begins call state t) :
    t.children = state.child?.toList := by
  cases h with
  | givesUp hs ht => rcases hs with rfl | rfl | rfl <;> exact ht.children
  | givesUpLeft ht => exact ht.children
  | nothing hs => rcases hs with rfl | ⟨q, rfl, rfl | rfl⟩ <;> rfl
  | _ => rfl

theorem filterMap_concat {α : Type} (f : Event → Option α) (events : List Event) (e : Event) :
    (events ++ [e]).filterMap f = events.filterMap f ++ (f e).toList := by
  rw [List.filterMap_append, List.filterMap_cons]
  cases f e <;> rfl

open scoped List in
theorem Booked.concat {held held' : List Child} (h : Booked events held)
    (he : (e.started?.toList ++ held).Perm (e.parted?.toList ++ held')) :
    Booked (events ++ [e]) held' := by
  rw [Booked, filterMap_concat, filterMap_concat]
  calc events.filterMap Event.started? ++ e.started?.toList
    _ ~ events.filterMap Event.parted? ++ held ++ e.started?.toList := h.append_right _
    _ = events.filterMap Event.parted? ++ (held ++ e.started?.toList) := List.append_assoc _ _ _
    _ ~ events.filterMap Event.parted? ++ (e.started?.toList ++ held) :=
      List.perm_append_comm.append_left _
    _ ~ events.filterMap Event.parted? ++ (e.parted?.toList ++ held') := he.append_left _
    _ = events.filterMap Event.parted? ++ e.parted?.toList ++ held' :=
      (List.append_assoc _ _ _).symm

theorem Leads.booked {call : Call} (h : Leads (call.on s) events c)
    (hb : Booked before s.state.child?.toList) : Booked (before ++ events) c.task.children := by
  refine h.keeps (P := fun events t => Booked (before ++ events) t.children) ?_ fun hb hgoes => ?_
  · rwa [List.append_nil, (call.begins s).children]
  · rw [← List.append_assoc]
    exact hb.concat hgoes.children

/-- Every child that has ever been launched on a stage has been parted from once, but for the
one that the stage holds. -/
theorem History.booked {turns : List Turn} (h : History ceiling turns s) :
    Booked (turns.flatMap (·.events)) s.state.child?.toList := by
  induction h with
  | new => exact .refl _
  | turn h hl ho ih =>
    obtain ⟨ht, -⟩ := Activity.outcome_eq_some ho
    have hends := hl.booked ih
    rw [ht] at hends
    rw [List.flatMap_append, List.flatMap_singleton]
    exact hends

/-! ## The order of giving up -/

def State.shuts (state : State) : List Event :=
  state.output?.toList.map fun link => .shut link.child

def State.lefts (state : State) : List Event := if state.hasInput then [.left] else []

def State.reaps (state : State) (ending : Except Fault Unit) : List Event :=
  state.child?.toList.map fun child => .reaped child ending

/-- What happens when all that a state holds is given up: the output goes first, then the input,
and then the child is reaped. -/
def State.releases (state : State) (ending : Except Fault Unit) : List Event :=
  state.shuts ++ state.lefts ++ state.reaps ending

/-- Events that only try to hand on what the output of a state still holds. -/
def State.Attempts (state : State) (events : List Event) : Prop :=
  ∀ e ∈ events, ∃ link accepted reply, state.output? = some link ∧
    e = .sent link.child accepted reply

theorem State.Attempts.nil {state : State} : state.Attempts [] := fun _ h => by cases h

theorem State.Attempts.concat {state : State} {link : Link} (h : state.Attempts events)
    (ho : state.output? = some link) (accepted : List UInt8) (reply : WriteReply) :
    state.Attempts (events ++ [.sent link.child accepted reply]) := by
  intro e he
  rcases List.mem_append.1 he with he | he
  · exact h e he
  · exact ⟨link, accepted, reply, ho, List.mem_singleton.1 he⟩

/-- What has happened since a stage began to be given up, and the task that is left. -/
inductive Cleaning (s : Stage) (own : Fault) : List Event → Task → Prop
  | empty {attempts : List Event} {link : Link} {o : Outbox} (ho : s.state.output? = some link)
      (ha : s.state.Attempts attempts) (hne : o.bytes ≠ []) :
      Cleaning s own attempts (.empty o (.givenUp s.state.hasInput s.prime? link.child own))
  | shut {attempts : List Event} {link : Link} (ho : s.state.output? = some link)
      (ha : s.state.Attempts attempts) :
      Cleaning s own attempts (.shut (.givenUp s.state.hasInput s.prime? link.child own))
  | leave {attempts : List Event} (ha : s.state.Attempts attempts)
      (hi : s.state.hasInput = true) :
      Cleaning s own (attempts ++ s.state.shuts) (.leave (.givenUp s.prime? s.state.child? own))
  | reap {attempts : List Event} {child : Child} (ha : s.state.Attempts attempts)
      (hk : s.state.child? = some child) :
      Cleaning s own (attempts ++ (s.state.shuts ++ s.state.lefts))
        (.reap child (.givenUp s.prime? own))
  | ended {attempts : List Event} {ending : Except Fault Unit} {f : Fault}
      (ha : s.state.Attempts attempts) :
      Cleaning s own (attempts ++ s.state.releases ending)
        (.ended (.done s.prime? none) (.error f))

theorem Cleaning.of_output {link : Link} {o : Outbox} (ho : s.state.output? = some link)
    (a : Activity) :
    Cleaning s own []
      (a.giveUpOutput o (.givenUp s.state.hasInput s.prime? link.child own)).task := by
  rw [Activity.giveUpOutput]
  split
  · exact .shut ho .nil
  · next hne => exact .empty ho .nil fun hb => hne (Outbox.isEmpty_iff.2 hb)

theorem cleaning_giveUp (s : Stage) (own : Fault) : Cleaning s own [] (s.giveUp own).task := by
  obtain ⟨l, state⟩ := s
  cases state with
  | awaitFirst input earlier =>
    cases earlier with
    | none => exact .leave .nil rfl
    | some earlier => exact .of_output rfl _
  | filtering input p link => exact .of_output rfl _
  | draining input p link => exact .of_output rfl _
  | severed input p child => exact .leave .nil rfl
  | spent p => exact @Cleaning.ended _ _ _ (.ok ()) _ .nil
  | childReaped p => exact @Cleaning.ended _ _ _ (.ok ()) _ .nil
  | done p left =>
    cases left with
    | none => exact @Cleaning.ended _ _ _ (.ok ()) _ .nil
    | some link => exact .of_output rfl _

/-- An output that is to be given up is tried again only after an interruption, or when some of
what it holds has been taken. -/
theorem Activity.tries {phase : Phase} {l : Ledger} {o : Outbox} {after : Shutting}
    (hne : o.bytes ≠ []) (hm : (move ⟨phase, l, .empty o after⟩).Answered (some e) b') :
    (∃ accepted reply, e = .sent after.child accepted reply) ∧
      ((∃ o', b'.task = .empty o' after ∧ o'.bytes ≠ [] ∧
        o'.size + 1 ≤ o.size + e.interrupts.toNat) ∨ b'.task = .shut after) := by
  cases hm with
  | @send _ _ _ reply fits =>
  refine ⟨⟨_, _, rfl⟩, ?_⟩
  have hgone := Outbox.absorb_gone hne reply
  dsimp only [emptied]
  generalize o.absorb reply = outcome at hgone ⊢
  cases hgone with
  | interrupted hi =>
    refine .inl ⟨o, rfl, hne, ?_⟩
    rw [Event.interrupts, hi]
    exact Nat.le_refl _
  | more hb ht hs hne' => exact .inl ⟨_, rfl, Outbox.bytes_ne_nil hne', hs⟩
  | failed | stuck | all => exact .inr rfl

theorem State.shuts_eq {state : State} {link : Link} (h : state.output? = some link) :
    state.shuts = [.shut link.child] := by
  rw [shuts, h]
  rfl

theorem State.reaps_eq {state : State} {child : Child} (h : state.child? = some child)
    (ending : Except Fault Unit) : state.reaps ending = [.reaped child ending] := by
  rw [reaps, h]
  rfl

/-- Every move of giving up does what is next in the order, and takes something from what is left
to do unless it is interrupted. -/
theorem Cleaning.step (h : Cleaning s own events b.task) (hm : b.move.Answered (some e) b') :
    Cleaning s own (events ++ [e]) b'.task ∧
      b'.task.effort + 1 ≤ b.task.effort + e.interrupts.toNat := by
  obtain ⟨phase, l, task⟩ := b
  cases h with
  | empty ho ha hne =>
    obtain ⟨⟨accepted, reply, rfl⟩, ⟨o', ht, hne', hs⟩ | ht⟩ := Activity.tries hne hm
    · rw [ht]
      refine ⟨.empty ho (ha.concat ho _ _) hne', ?_⟩
      dsimp only [Task.effort]
      omega
    · rw [ht]
      have hpos := Outbox.size_pos hne
      refine ⟨.shut ho (ha.concat ho _ _), ?_⟩
      dsimp only [Task.effort]
      omega
  | shut ho ha =>
    cases hm
    dsimp only [Shutting.child]
    rw [← State.shuts_eq ho]
    have hk := State.child?_of_output? ho
    -- A stage that is done may hold an output behind an input that has gone.
    cases hi : s.state.hasInput with
    | true =>
      have hleave : Cleaning s own _ _ := .leave ha hi
      rw [hk] at hleave
      exact ⟨hleave, Nat.le_refl 4⟩
    | false =>
      have hreap : Cleaning s own _ _ := .reap ha hk
      rw [State.lefts, hi, if_neg Bool.false_ne_true, List.append_nil] at hreap
      exact ⟨hreap, Nat.le_succ 3⟩
  | @leave attempts ha hi =>
    cases hm
    have hlefts : s.state.lefts = [.left] := if_pos hi
    rw [List.append_assoc, ← hlefts]
    cases hk : s.state.child? with
    | none =>
      have hended : Cleaning s own (attempts ++ s.state.releases (.ok ()))
        (.ended (.done s.prime? none) (.error own)) := .ended ha
      rw [State.releases, State.reaps, hk, Option.toList_none, List.map_nil,
        List.append_nil] at hended
      exact ⟨hended, Nat.le_succ 2⟩
    | some child => exact ⟨.reap ha hk, Nat.le_refl 3⟩
  | reap ha hk =>
    cases hm with
    | reap ending =>
    rw [List.append_assoc, ← State.reaps_eq hk]
    dsimp only [Activity.reaped]
    cases ending with
    | ok u => exact ⟨.ended ha, Nat.le_refl 2⟩
    | error f =>
      dsimp only
      split
      · exact ⟨.ended ha, Nat.le_refl 2⟩
      · exact ⟨.ended ha, Nat.le_refl 2⟩
  | ended => cases hm

theorem Cleaning.effort_pos (h : Cleaning s own events t) : 0 < t.effort := by
  cases h with
  | ended => exact Nat.succ_pos _
  | _ => simp [Task.effort]

/-- As far as giving a stage up has got, all has gone in its order, and there is a bound to what is
still to come. -/
theorem Leads.cleaning (h : Leads (s.giveUp own) events c) :
    Cleaning s own events c.task ∧
      events.length + c.task.effort ≤ s.state.heldBack + events.countP Event.interrupts + 4 := by
  induction h with
  | refl => exact ⟨cleaning_giveUp s own, by simpa using effort_giveUp s own⟩
  | move h hm ih =>
    obtain ⟨e, rfl, -⟩ := Activity.goes hm
    obtain ⟨hcleaning, hle⟩ := ih
    obtain ⟨hcleaning', hlt⟩ := hcleaning.step hm
    refine ⟨hcleaning', ?_⟩
    rw [Option.toList_some, countP_concat, List.length_append, List.length_singleton]
    omega

/-! ## Steps up to a failure -/

/-- Nothing but steps, of which at most the last has failed. -/
structure UpToFailure (turns : List Turn) : Prop where
  step : ∀ u ∈ turns, u.call = .step
  fine : ∀ u ∈ turns.dropLast, ∃ phase, u.result = .ok phase

theorem UpToFailure.single (u : Turn) (h : u.call = .step) : UpToFailure [u] :=
  ⟨by simpa using h, by simp⟩

/-- A step that is taken in the course of a run is part of the run as far as it has got. -/
theorem Leads.course (h : Leads b events c) (hb : Course ceiling before (.stepping b)) :
    Course ceiling (before ++ events) (.stepping c) := by
  induction h with
  | refl => rwa [List.append_nil]
  | @move events c c' e h hm ih =>
    rw [← List.append_assoc]
    have hout : c.outcome? = none := by
      obtain ⟨phase, l, task⟩ := c
      cases task with
      | ended => cases hm
      | _ => rfl
    refine .step ih ?_
    rw [Run.move, hout]
    exact hm.map Run.stepping

/-- Nothing comes of a call that has ended. -/
theorem Leads.of_ended {state : State} {result : Except Fault Phase} (h : Leads b events c)
    (hb : b.task = .ended state result) : events = [] ∧ c = b := by
  induction h with
  | refl => exact ⟨rfl, rfl⟩
  | move h hm ih =>
    obtain ⟨rfl, rfl⟩ := ih
    change (Activity.move _).Answered _ _ at hm
    rw [Activity.move, hb] at hm
    cases hm

theorem State.exists_done {state : State} (h : state.phase = .done) :
    ∃ prime left, state = .done prime left := by
  cases state with
  | done prime left => exact ⟨prime, left, rfl⟩
  | _ => cases h

/-- A stage whose steps are the course of a run: it is where its next step begins, or done. -/
def OnCourse (ceiling : Option Int32) (events : List Event) (s : Stage) : Prop :=
  ∃ r, Course ceiling events r ∧ (r = .stepping s.step ∨ s.phase = .done)

/-- As far as one more step has got, the steps are the course of a run. -/
theorem OnCourse.step (h : OnCourse ceiling before s) (hl : Leads s.step events c) :
    ∃ r, Course ceiling (before ++ events) r ∧
      (r = .stepping c ∨ s.phase = .done ∧ c = s.step) := by
  obtain ⟨r, hr, rfl | hdone⟩ := h
  · exact ⟨_, hl.course hr, .inl rfl⟩
  · obtain ⟨l, state⟩ := s
    obtain ⟨prime, left, rfl⟩ := State.exists_done hdone
    obtain ⟨rfl, rfl⟩ := hl.of_ended rfl
    rw [List.append_nil]
    exact ⟨r, hr, .inr ⟨rfl, rfl⟩⟩

/-- A step that succeeds leads on. -/
theorem OnCourse.succeed {phase : Phase} (h : OnCourse ceiling before s)
    (hl : Leads s.step events c) (ho : c.outcome? = some (s', .ok phase)) :
    OnCourse ceiling (before ++ events) s' := by
  obtain ⟨r, hr, rfl | ⟨hdone, rfl⟩⟩ := h.step hl
  · obtain ⟨ht, -⟩ := Activity.outcome_eq_some ho
    have htask := hl.stepSoFar.task
    dsimp only at ht
    rw [ht] at htask
    -- A run goes on to its next step without anything happening.
    have hnext : Course ceiling (before ++ events) (Run.afterStep s' (.ok phase)) := by
      rw [← List.append_nil (before ++ events)]
      refine @Course.step _ _ none _ _ hr ?_
      rw [Run.move, ho]
      exact .proceed
    refine ⟨_, hnext, ?_⟩
    cases htask with
    | under hp => cases hp
    | moved hrank hf =>
      cases hphase : s'.state.phase with
      | done => exact .inr hphase
      | _ => exact .inl rfl
  · obtain ⟨l, state⟩ := s
    obtain ⟨prime, left, rfl⟩ := State.exists_done hdone
    cases ho
    exact ⟨r, hr, .inr rfl⟩

theorem History.onCourse {turns : List Turn} (h : History ceiling turns s)
    (hsteps : ∀ u ∈ turns, u.call = .step) (hfine : ∀ u ∈ turns, ∃ phase, u.result = .ok phase) :
    OnCourse ceiling (turns.flatMap (·.events)) s := by
  induction h with
  | new => exact ⟨_, .start, .inl rfl⟩
  | @turn turns s s' call events c result h hl ho ih =>
    have hlast : (⟨s, call, events, result⟩ : Turn) ∈ turns ++ [⟨s, call, events, result⟩] :=
      List.mem_append_right _ (List.mem_singleton.2 rfl)
    obtain rfl : call = .step := hsteps _ hlast
    obtain ⟨phase, rfl⟩ : ∃ phase, result = .ok phase := hfine _ hlast
    have hbefore := ih (fun u hu => hsteps u (List.mem_append_left _ hu))
      fun u hu => hfine u (List.mem_append_left _ hu)
    rw [List.flatMap_append, List.flatMap_singleton]
    exact hbefore.succeed hl ho

/-- Steps of which only the last may have failed are part of the course of a run. -/
theorem UpToFailure.course {turns : List Turn} (hu : UpToFailure turns)
    (h : History ceiling turns s) : ∃ r, Course ceiling (turns.flatMap (·.events)) r := by
  cases h with
  | new => exact ⟨_, .start⟩
  | @turn turns s s' call events c result h hl ho =>
    obtain ⟨hsteps, hfine⟩ := hu
    rw [List.dropLast_concat] at hfine
    obtain rfl : call = .step :=
      hsteps ⟨s, call, events, result⟩ (List.mem_append_right _ (List.mem_singleton.2 rfl))
    have hbefore := h.onCourse (fun u hu => hsteps u (List.mem_append_left _ hu)) hfine
    obtain ⟨r, hr, -⟩ := hbefore.step hl
    rw [List.flatMap_append, List.flatMap_singleton]
    exact ⟨r, hr⟩

/-! ## Behind the end -/

/-- What a stage that is done has to say to a call. -/
def Call.answer : Call → Except Fault Phase
  | .step => .ok .done
  | .giveUp f => .error f

/-- A call in which nothing happens. -/
def Call.idle (s : Stage) (call : Call) : Turn := ⟨s, call, [], call.answer⟩

/-- Calls on a stage, one after the other, all of which have ended. -/
inductive Calls (s : Stage) : List Turn → Stage → Prop
  | refl : Calls s [] s
  | turn {turns : List Turn} {s' s'' : Stage} {call : Call} {events : List Event} {c : Activity}
      {result : Except Fault Phase} (h : Calls s turns s') (hl : Leads (call.on s') events c)
      (ho : c.outcome? = some (s'', result)) :
      Calls s (turns ++ [⟨s', call, events, result⟩]) s''

/-- A call on a stage that holds nothing has ended as soon as it begins. -/
theorem Call.on_done {prime : Option Int32} (hs : s.state = .done prime none) (call : Call) :
    (call.on s).task = .ended s.state call.answer ∧
      (call.on s).outcome? = some (s, call.answer) := by
  obtain ⟨l, state⟩ := s
  cases hs
  cases call <;> exact ⟨rfl, rfl⟩

/-- Whatever calls are made on a stage that holds nothing, none of them does anything. -/
theorem Calls.of_done {prime : Option Int32} {later : List Turn} (hs : s.state = .done prime none) :
    Calls s later s' ↔ s' = s ∧ ∃ calls : List Call, later = calls.map (·.idle s) := by
  constructor
  · intro h
    induction h with
    | refl => exact ⟨rfl, [], rfl⟩
    | @turn turns s' s'' call events c result h hl ho ih =>
      obtain ⟨rfl, calls, rfl⟩ := ih
      obtain ⟨htask, hended⟩ := call.on_done hs
      obtain ⟨rfl, rfl⟩ := hl.of_ended htask
      cases hended.symm.trans ho
      refine ⟨rfl, calls ++ [call], ?_⟩
      rw [List.map_append]
      rfl
  · rintro ⟨rfl, calls, rfl⟩
    induction calls using List.reverseRecOn with
    | nil => exact .refl
    | append_singleton calls call ih =>
      rw [List.map_append]
      exact ih.turn .refl (call.on_done hs).2

/-! ## Giving up -/

/-- While a stage is given up nobody is launched, and whoever is parted from is reaped. -/
theorem State.children_releases {state : State} {attempts : List Event}
    {ending : Except Fault Unit} (ha : state.Attempts attempts) :
    (attempts ++ state.releases ending).filterMap Event.started? = [] ∧
      ∀ child, .forsaken child ∉ attempts ++ state.releases ending := by
  have hall : ∀ e ∈ attempts ++ state.releases ending, e.started? = none ∧ e.isForsaken = false := by
    intro e he
    simp only [releases, shuts, lefts, reaps, List.mem_append, List.mem_map] at he
    rcases he with he | (⟨link, -, rfl⟩ | he) | ⟨child, -, rfl⟩
    · obtain ⟨link, accepted, reply, -, rfl⟩ := ha e he
      exact ⟨rfl, rfl⟩
    · exact ⟨rfl, rfl⟩
    · split at he
      · cases List.mem_singleton.1 he
        exact ⟨rfl, rfl⟩
      · cases he
    · exact ⟨rfl, rfl⟩
  constructor
  · exact List.filterMap_eq_nil_iff.2 fun e he => (hall e he).1
  · intro child hmem
    cases (hall _ hmem).2

theorem Event.parted?_eq_reaped? (h : ∀ child, Event.forsaken child ∉ events) :
    events.filterMap Event.parted? = events.filterMap Event.reaped? := by
  refine List.filterMap_congr fun e he => ?_
  cases e with
  | forsaken child => exact absurd he (h child)
  | _ => rfl

theorem Course.length_started_le {r : Run} (h : Course ceiling events r) :
    (events.filterMap Event.started?).length ≤ 1 := by
  rw [List.length_filterMap_eq_countP]
  refine Nat.le_trans (List.countP_mono_left fun e _ he => ?_) h.inOrder.launches
  cases e with
  | launched => rfl
  | _ => cases he

section Histories

variable {turns : List Turn} {result : Except Fault Phase}

/-- A stage that has been given up has reaped whoever was launched on it, and nobody else. -/
theorem History.reaped_eq_started {attempts : List Event} {ending : Except Fault Unit}
    (h : History ceiling turns s) (hu : UpToFailure turns) (hl : Leads (s.giveUp own) events c)
    (ht : c.task = .ended (.done s.prime? none) result)
    (he : events = attempts ++ s.state.releases ending) (ha : s.state.Attempts attempts) :
    ((turns.flatMap (·.events) ++ events).filterMap Event.started?).length ≤ 1 ∧
      (turns.flatMap (·.events) ++ events).filterMap Event.reaped? =
        (turns.flatMap (·.events) ++ events).filterMap Event.started? := by
  obtain ⟨r, hr⟩ := hu.course h
  obtain ⟨hstarted, hforsaken⟩ := @State.children_releases s.state attempts ending ha
  rw [← he] at hstarted hforsaken
  have hlen : ((turns.flatMap (·.events) ++ events).filterMap Event.started?).length ≤ 1 := by
    rw [List.filterMap_append, hstarted, List.append_nil]
    exact hr.length_started_le
  have hperm : Booked (turns.flatMap (·.events) ++ events) [] := by
    have hbooked := @Leads.booked _ _ _ _ (.giveUp own) hl h.booked
    rw [ht] at hbooked
    exact hbooked
  refine ⟨hlen, ?_⟩
  rw [Booked, List.append_nil, Event.parted?_eq_reaped?] at hperm
  · -- Of at most one child there is only one order.
    generalize List.filterMap Event.started? _ = started at hlen hperm ⊢
    match started, hlen with
    | [], _ => exact hperm.nil_eq.symm
    | [child], _ => exact (List.singleton_perm.1 hperm).symm
  · intro child hmem
    rcases List.mem_append.1 hmem with hmem | hmem
    · exact hr.inOrder.forsaken child hmem
    · exact hforsaken child hmem

/-- A stage that holds nothing any more, with all that happened before it was given up and all
that happened while it was. -/
structure CleanedUp (s : Stage) (before events : List Event) (s' : Stage) : Prop where
  state : s'.state = .done s.prime? none
  held : s'.state.hasInput = false ∧ s'.state.output? = none ∧ s'.state.child? = none
  /-- What the output held back may have been tried once more. Otherwise all that has happened is
  that what was held has gone in its order. -/
  order : ∃ attempts ending, s.state.Attempts attempts ∧
    events = attempts ++ s.state.releases ending
  /-- Nobody has been reaped but who was launched, and everybody who was launched just once. -/
  reaped : (before ++ events).filterMap Event.reaped? = (before ++ events).filterMap Event.started?
  once : ∀ child ∈ (before ++ events).filterMap Event.started?,
    ((before ++ events).filterMap Event.reaped?).count child = 1
  /-- No later call does anything: a step is done, and a fault is given back. -/
  idle : ∀ later s'', Calls s' later s'' ↔
    s'' = s' ∧ ∃ calls : List Call, later = calls.map (·.idle s')

/-- From wherever its steps have brought a stage, also one that has failed, giving it up for any
fault comes to an end and cleans up. -/
theorem History.giveUp_cleans_up (h : History ceiling turns s) (hu : UpToFailure turns)
    (hl : Leads (s.giveUp own) events c) :
    (c.outcome? = none → c.move ≠ .rest) ∧
    events.length ≤ s.state.heldBack + events.countP Event.interrupts + 3 ∧
    ∀ s' result, c.outcome? = some (s', result) →
      CleanedUp s (turns.flatMap (·.events)) events s' := by
  obtain ⟨hcleaning, hle⟩ := hl.cleaning
  refine ⟨?_, ?_, ?_⟩
  · exact Activity.busy
  · have := hcleaning.effort_pos
    omega
  · intro s' result ho
    obtain ⟨ht, -⟩ := Activity.outcome_eq_some ho
    dsimp only at ht
    rw [ht] at hcleaning
    generalize hstate : s'.state = state at ht hcleaning
    cases hcleaning with
    | @ended attempts ending f ha =>
      obtain ⟨hlen, hreaped⟩ := h.reaped_eq_started hu hl ht rfl ha
      refine ⟨hstate, by rw [hstate]; exact ⟨rfl, rfl, rfl⟩, ⟨attempts, ending, ha, rfl⟩,
        hreaped, fun child hchild => ?_, fun later s'' => Calls.of_done hstate⟩
      rw [hreaped]
      have hcount := List.count_pos_iff.2 hchild
      have hle := List.count_le_length (a := child)
        (l := (turns.flatMap (·.events) ++ (attempts ++ s.state.releases ending)).filterMap
          Event.started?)
      omega

/-- The line cannot be written when the child is there already: giving the stage up shuts the
channel, leaves the input and reaps the child. -/
theorem History.giveUp_cleans_up_unrecorded :
    ∃ turns s s', History none turns s ∧
      turns.flatMap (·.events) =
        [.read (.got [5, 0, 0, 0]), .launched (.ok ⟨0, "child"⟩), .recorded [] (.took 0)] ∧
      CleanedUp s (turns.flatMap (·.events))
        [.shut ⟨0, "child"⟩, .left, .reaped ⟨0, "child"⟩ (.ok ())] s' := by
  let child : Child := ⟨0, "child"⟩
  have hline : Record.Entry.ofValue 5 = ⟨[[112, 114, 105, 109, 101], [32], [53], [10]]⟩ :=
    congrArg Record.Entry.mk (by decide +kernel)
  have hfive : ReadReply.Fits 4 (.got [5, 0, 0, 0]) := Nat.le_refl 4
  have hzero (bytes : List UInt8) : WriteReply.Fits bytes (.took 0) := Nat.zero_le _
  have hread := Leads.move (b := Call.step.on (Stage.new none)) .refl (.read hfive)
  have hlaunched : Leads (Call.step.on (Stage.new none)) _
      ⟨.awaitFirst, {}, .record ⟨[], 1⟩ 5 ⟨.empty, child⟩ (.ofValue 5)⟩ :=
    hread.move (.launch (.ok child))
  rw [hline] at hlaunched
  have hunrecorded := History.turn .new (hlaunched.move (.record (hzero _))) rfl
  let lineFault : Fault := .within "Writing record" (.io Record.Entry.stuck)
  let unrecorded : Stage := ⟨{}, .awaitFirst ⟨[], 1⟩ (some (5, ⟨.empty, child⟩))⟩
  have hshut := Leads.move (b := unrecorded.giveUp lineFault) .refl .shut
  have hgiven := (hshut.move .leave).move (.reap (.ok ()))
  obtain ⟨-, -, hcleaned⟩ := hunrecorded.giveUp_cleans_up (.single _ rfl) hgiven
  exact ⟨_, _, _, hunrecorded, rfl, hcleaned _ _ rfl⟩

end Histories

end Stage

end SieveChain
