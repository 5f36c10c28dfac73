import SieveChain.Proofs.StageCalls
import SieveChain.Proofs.StageSlots

/-!
# Calls on the slots of a stage

Every call on a stage, also one after a step that has failed, finds slots that some state of the
stage would fill alike. So a step that awaits its first value finds an input, one that filters finds
all it needs, and one that drains finds a child if it finds an output. The output itself may be
missing, but only after a step has failed in draining.
-/

namespace SieveChain

namespace Stage

/-- What goes on alike from the beginning of two calls goes on alike up to any point of them. -/
theorem Leads.mirrored {σ τ : Type} [Party σ] [Party τ] {R : σ → τ → Prop} {a c : σ} {b : τ}
    {events : List Event} (hR : ∀ {p q}, R p q → (Party.move p).Alike R (Party.move q))
    (h : Leads a events c) (hab : R a b) : ∃ d, Leads b events d ∧ R c d := by
  induction h with
  | refl => exact ⟨b, .refl, hab⟩
  | move h hm ih =>
    obtain ⟨d, hd, hcd⟩ := ih
    obtain ⟨d', hm', hcd'⟩ := (hR hcd).answered hm
    exact ⟨d', hd.move hm', hcd'⟩

def Call.onSlots (s : Slots) : Call → Slots.Activity
  | .step => s.step
  | .giveUp f => s.giveUp f

theorem Call.mirrors (call : Call) (s : Stage) :
    Slots.Mirrors (call.onSlots s.slots) (call.on s) := by
  cases call with
  | step => exact Slots.mirrors_step s
  | giveUp f => exact Slots.mirrors_giveUp s f

namespace Slots

/-- A call that has been made by the slots of a stage. -/
structure Turn where
  before : Slots
  call : Call
  events : List Event
  result : Except Fault Phase

/-- A step of a draining stage that has failed. -/
structure Turn.FailedDraining (u : Turn) : Prop where
  step : u.call = .step
  draining : u.before.phase = .draining
  failed : ∃ f, u.result = .error f

/-- The calls that have been made by the slots of a stage so far, all of which have ended. -/
inductive History (ceiling : Option Int32) : List Turn → Slots → Prop
  | new : History ceiling [] (Slots.new ceiling)
  | turn {turns : List Turn} {s s' : Slots} {call : Call} {events : List Event} {c : Activity}
      {result : Except Fault Phase} (h : History ceiling turns s)
      (hl : Leads (call.onSlots s) events c) (ho : c.outcome? = some (s', result)) :
      History ceiling (turns ++ [⟨s, call, events, result⟩]) s'

/-- What has been done to a stage, as it shows in its slots. -/
def Turn.ofState (u : Stage.Turn) : Turn := ⟨u.before.slots, u.call, u.events, u.result⟩

variable {ceiling : Option Int32} {turns : List Turn} {s s' : Slots} {call : Call}
  {events : List Event} {c : Activity} {result : Except Fault Phase}

/-- Whatever calls have been made, the slots are those of a state that the same calls lead to. -/
theorem History.exists_states (h : History ceiling turns s) :
    ∃ turns' t, Stage.History ceiling turns' t ∧ turns = turns'.map Turn.ofState ∧
      s = t.slots := by
  induction h with
  | new => exact ⟨[], .new ceiling, .new, rfl, rfl⟩
  | @turn turns s s' call events c result h hl ho ih =>
    obtain ⟨turns', t, ht, rfl, rfl⟩ := ih
    obtain ⟨d, hd, hcd⟩ := hl.mirrored Mirrors.move (call.mirrors t)
    rw [hcd.outcome?_eq] at ho
    obtain ⟨⟨t', result'⟩, ho', heq⟩ := Option.map_eq_some_iff.1 ho
    cases heq
    refine ⟨_, t', ht.turn hd ho', ?_, rfl⟩
    rw [List.map_append, List.map_singleton, Turn.ofState]

/-- How many inputs, outputs and children are in the slots. -/
def held (s : Slots) : Held := ⟨s.input.isSome.toNat, s.output.isSome.toNat, s.child.isSome.toNat⟩

theorem held_slots (t : Stage) : t.slots.held = t.state.held := by
  obtain ⟨l, state⟩ := t
  cases state with
  | awaitFirst input earlier => cases earlier <;> rfl
  | done p left => cases left <;> rfl
  | _ => rfl

/-- What the slots hold in each phase. Only of its output a draining stage may be short, and then
nothing is said of its child. -/
structure Equipped (s : Slots) : Prop where
  input : s.phase = .awaitFirst ∨ s.phase = .filtering → s.input.isSome = true
  filtering : s.phase = .filtering →
    s.prime.isSome = true ∧ s.output.isSome = true ∧ s.child.isSome = true
  draining : s.phase = .draining → s.output.isSome = true → s.child.isSome = true

theorem equipped_slots (t : Stage) : t.slots.Equipped := by
  obtain ⟨l, state⟩ := t
  cases state with
  | awaitFirst input earlier =>
    refine ⟨fun _ => rfl, ?_, ?_⟩ <;> (intro h; cases h)
  | filtering input p link => exact ⟨fun _ => rfl, fun _ => ⟨rfl, rfl, rfl⟩, fun h => by cases h⟩
  | draining input p link =>
    refine ⟨?_, ?_, fun _ _ => rfl⟩
    · rintro (h | h) <;> cases h
    · intro h
      cases h
  | _ => constructor <;> simp [slots, State.slots]

theorem Mirrors.prime_eq {a : Activity} {b : Stage.Activity} (h : Mirrors a b) :
    a.slots.prime = b.task.prime? := by
  cases h with
  | empty h | shut h => cases h <;> rfl
  | leave h => cases h <;> rfl
  | ended h => rw [h]; exact State.prime_slots _ _
  | _ => rfl

/-- A call divides by what is in the slot of the value. -/
theorem Mirrors.divisor_eq {a : Activity} {b : Stage.Activity} (h : Mirrors a b) {p : Int32}
    (hp : a.task.divisor? = some p) : a.slots.prime = some p := by
  cases h with
  | next | forward => exact hp
  | _ => cases hp

theorem FailedDraining.ofState {u : Stage.Turn} (h : u.FailedDraining) :
    (Turn.ofState u).FailedDraining :=
  ⟨h.step, (State.phase_slots _ _).trans h.draining, h.failed⟩

/-- The other faults of a stage that misses something are told by other texts. -/
theorem exists_text {f : Fault} (hf : f ∈ [noInput, unready, noChild]) :
    ∃ text, f = .channel text ∧ text ≠ "stage output already released" := by
  simp only [List.mem_cons, List.not_mem_nil, or_false] at hf
  rcases hf with rfl | rfl | rfl
  · exact ⟨_, rfl, by decide⟩
  · exact ⟨_, rfl, by decide⟩
  · exact ⟨_, rfl, by decide⟩

/-- Whatever calls have been made and however far the next one has got, what is in the slot of the
value is a candidate, and so is what values are divided by. -/
theorem History.isCandidate (h : History ceiling turns s) (hl : Leads (call.onSlots s) events c)
    {p : Int32} (hp : s.prime = some p ∨ c.slots.prime = some p ∨ c.task.divisor? = some p) :
    IsCandidate ceiling p := by
  obtain ⟨turns', t, ht, rfl, rfl⟩ := h.exists_states
  obtain ⟨d, hd, hcd⟩ := hl.mirrored Mirrors.move (call.mirrors t)
  obtain ⟨rfl, howns, -, -⟩ := ht.lasting
  have hunderway (hc : c.slots.prime = some p) : accepts t.ledger.ceiling p = true :=
    (hd.owns howns).prime p (hcd.prime_eq.symm.trans hc)
  apply (accepts_iff _ p).1
  rcases hp with hp | hp | hp
  · exact howns p ((State.prime_slots _ _).symm.trans hp)
  · exact hunderway hp
  · exact hunderway (hcd.divisor_eq hp)

/-- What the slots hold is what has been taken and not been given up. -/
theorem History.tally (h : History ceiling turns s) :
    Tally (turns.flatMap (·.events)) s.held := by
  obtain ⟨turns', t, ht, rfl, rfl⟩ := h.exists_states
  rw [held_slots, List.flatMap_map]
  exact ht.lasting.tally

theorem History.equipped (h : History ceiling turns s) : s.Equipped := by
  obtain ⟨turns', t, ht, rfl, rfl⟩ := h.exists_states
  exact equipped_slots t

/-- Whatever calls have been made by the slots of a stage, and whatever call is made next: what the
stage owns and divides by is a candidate, and so neither zero nor minus one; it has an input as long
as it awaits its first value or filters, and as long as it filters also a value, an output and a
child, and what it has is what was taken and not yet given up. No call takes it back, and a step
that fails leaves it in its phase. So a step never finds its input, its value or its child missing.
It may find its output missing, but only after a step has failed in draining. -/
theorem History.never_short (h : History ceiling turns s)
    (hl : Leads (call.onSlots s) events c) :
    (∀ p, s.prime = some p ∨ c.slots.prime = some p ∨ c.task.divisor? = some p →
      IsCandidate ceiling p ∧ p ≠ 0 ∧ p ≠ -1) ∧
    (s.phase = .awaitFirst ∨ s.phase = .filtering → s.input.isSome = true) ∧
    (s.phase = .filtering →
      s.prime.isSome = true ∧ s.output.isSome = true ∧ s.child.isSome = true) ∧
    Tally (turns.flatMap (·.events)) s.held ∧
    ∀ s' result, c.outcome? = some (s', result) →
      s.phase.rank ≤ s'.phase.rank ∧
      (∀ f, call = .step → result = .error f → s'.phase = s.phase) ∧
      (∀ f ∈ [noInput, unready, noChild], call = .step → result = .error f →
        ∃ child, .reaped child (.error f) ∈ events) ∧
      (call = .step → result = .error noOutput →
        (∃ child, .reaped child (.error noOutput) ∈ events) ∨ ∃ u ∈ turns, u.FailedDraining) ∧
      ∀ own, call = .giveUp own →
        ∃ f, result = .error f ∧ (f = own ∨ ∃ child, .reaped child (.error f) ∈ events) := by
  refine ⟨fun p hp => ?_, h.equipped.input, h.equipped.filtering, h.tally, ?_⟩
  · have hc := h.isCandidate hl hp
    exact ⟨hc, hc.divides⟩
  · obtain ⟨turns', t, ht, rfl, rfl⟩ := h.exists_states
    obtain ⟨d, hd, hcd⟩ := hl.mirrored Mirrors.move (call.mirrors t)
    intro s' result ho
    rw [hcd.outcome?_eq] at ho
    obtain ⟨⟨t', result'⟩, ho', heq⟩ := Option.map_eq_some_iff.1 ho
    cases heq
    have hphase (t : Stage) : t.slots.phase = t.phase := State.phase_slots _ _
    refine ⟨?_, ?_, ?_, ?_, ?_⟩
    · rw [hphase, hphase]
      exact hd.rank_le ho'
    · rintro f rfl rfl
      rw [hphase, hphase]
      exact (ht.lasting.step_failed hd ho').1
    · rintro f hf rfl rfl
      obtain ⟨text, rfl, hother⟩ := exists_text hf
      exact (ht.lasting.step_channel hd ho').resolve_right fun h => hother h.1
    · rintro rfl rfl
      refine (ht.lasting.step_channel hd ho').imp id ?_
      rintro ⟨-, u, hu, hfailed⟩
      exact ⟨_, List.mem_map_of_mem hu, FailedDraining.ofState hfailed⟩
    · rintro own rfl
      obtain ⟨htask, -⟩ := Activity.outcome_eq_some ho'
      have hg := hd.giveUpTask
      rw [htask] at hg
      exact hg.ended.2

/-- A child that has gone makes the last step of its stage fail, and the step after that finds no
output. -/
theorem History.never_short_severed :
    ∃ turns s, History (some 10) turns s ∧ s.step.outcome? = some (s, .error noOutput) ∧
      s.prime = some 5 ∧ s.output.isSome = false ∧ s.child.isSome = true ∧
      (IsCandidate (some 10) 5 ∧ (5 : Int32) ≠ 0 ∧ (5 : Int32) ≠ -1) ∧
      ∃ u ∈ turns, u.FailedDraining := by
  let child : Child := ⟨0, "child"⟩
  let gone : IoError := ⟨.brokenPipe, none⟩
  have hline : Record.Entry.ofValue 5 = ⟨[[112, 114, 105, 109, 101], [32], [53], [10]]⟩ :=
    congrArg Record.Entry.mk (by decide +kernel)
  have hfive : ReadReply.Fits 4 (.got [5, 0, 0, 0]) := Nat.le_refl 4
  have hseven : ReadReply.Fits 4 (.got [7, 0, 0, 0]) := Nat.le_refl 4
  have hend : ReadReply.Fits 4 (.got []) := Nat.zero_le 4
  have hword : WriteReply.Fits [112, 114, 105, 109, 101] (.took 5) := Nat.le_refl 5
  have hbyte (b : UInt8) : WriteReply.Fits [b] (.took 1) := Nat.le_refl 1
  have hbroken (bytes : List UInt8) : WriteReply.Fits bytes (.failed gone) := trivial
  have hread := Leads.move (b := Call.step.onSlots (Slots.new (some 10))) .refl (.read hfive)
  have hlaunched : Leads (Call.step.onSlots (Slots.new (some 10))) _
      ⟨⟨.awaitFirst, some ⟨[], 1⟩, some 5, some ⟨.empty, child⟩, some child,
        { ceiling := some 10 }⟩, .record (.ofValue 5)⟩ :=
    hread.move (.launch (.ok child))
  rw [hline] at hlaunched
  have hrecorded := Leads.move (.move (.move (.move (.move hlaunched (.record hword))
    (.record (hbyte 32))) (.record (hbyte 53))) (.record (hbyte 10))) (.commit (.ok ()))
  have hfiltering := History.turn .new hrecorded rfl
  have hdraining := @History.turn _ _ _ _ .step _ _ _ hfiltering
    (.move (.move .refl (.read hseven)) (.read hend)) rfl
  have hsevered := @History.turn _ _ _ _ .step _ _ _ hdraining
    (.move (.move (.move .refl (.send (hbroken _))) (.send (hbroken _))) .shut) rfl
  obtain ⟨hprime, -, -, -, hends⟩ := @never_short _ _ _ .step _ _ hsevered .refl
  obtain ⟨-, -, -, hchannel, -⟩ := hends _ _ rfl
  refine ⟨_, _, hsevered, rfl, rfl, rfl, rfl, hprime 5 (.inl rfl), ?_⟩
  refine (hchannel rfl rfl).resolve_left ?_
  rintro ⟨_, hmem⟩
  cases hmem

end Slots

end Stage

end SieveChain
