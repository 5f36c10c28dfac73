import SieveChain.Proofs.Receiving
import SieveChain.Proofs.StageOrder

/-!
# What the child of a stage is sent

However a run ends, the bytes that the channel of the child has accepted are a beginning of
what the values received call for. A write that fails leaves in the outbox what it has not
handed on, and the last attempt, made when the output is given up, goes on from there. So as
long as no write to the channel fails, nothing is in hand at the end, whatever else has failed.
-/

namespace SieveChain

open Wire Scripted

/-! ## What comes in -/

namespace Event

/-- The bytes that an event brings in. -/
def brought : Event → List UInt8
  | .read (.got bytes) => bytes
  | _ => []

/-- A write to the channel of a child that fails. -/
def sendFails : Event → Bool
  | .sent _ _ reply => !reply.goesWell
  | _ => false

/-- How a segment ends, where an event is the read that finds that out. -/
def stop? : Event → Option (Option IoError)
  | .read (.got []) => some none
  | .read (.failed e) => if e.isInterrupted then none else some (some e)
  | _ => none

end Event

namespace Account

theorem received_add (a : Account) (e : Event) :
    (a.add e).received = a.received ++ e.brought := by
  cases e with
  | read reply =>
    cases reply with
    | got bytes => cases bytes <;> simp [add, Event.brought]
    | failed e => simp [add, Event.brought]
  | launched result => cases result <;> simp [add, Event.brought]
  | _ => simp [add, Event.brought]

theorem received_ofTrace (events : List Event) :
    (ofTrace events).received = events.flatMap Event.brought := by
  induction events using List.reverseRecOn with
  | nil => rfl
  | append_singleton events e ih =>
    rw [ofTrace_concat, received_add, ih, List.flatMap_append, List.flatMap_singleton]

theorem broken_by_read {a : Account} {reply : ReadReply} (hs : a.smooth = true)
    (h : (a.add (.read reply)).smooth = false) :
    ∃ e, reply = .failed e ∧ e.isInterrupted = false := by
  cases reply with
  | got bytes =>
    rw [(a.add_got bytes).2.2.2.2, hs] at h
    cases h
  | failed e =>
    refine ⟨e, rfl, ?_⟩
    rwa [add, hs, Bool.true_and] at h

theorem ended_add (a : Account) (e : Event) :
    (a.add e).ended = true ↔ a.ended = true ∨ e = .read (.got []) := by
  cases e with
  | read reply =>
    cases reply with
    | got bytes => cases bytes <;> simp [add]
    | failed e => simp [add]
  | launched result => cases result <;> simp [add]
  | _ => simp [add]

/-- An account says that the stream has ended where a read has found its end. -/
theorem ended_iff (events : List Event) :
    (ofTrace events).ended = true ↔ .read (.got []) ∈ events := by
  induction events using List.reverseRecOn with
  | nil => simp [ofTrace]
  | append_singleton events e ih =>
    rw [ofTrace_concat, ended_add, ih, List.mem_append, List.mem_singleton]
    exact or_congr_right eq_comm

theorem stopped_add (a : Account) {e : Event} {failure : Option IoError}
    (h : e.stop? = some failure) : (a.add e).smooth = false ∨ (a.add e).ended = true := by
  unfold Event.stop? at h
  split at h
  · exact .inr rfl
  · next e =>
    split at h
    · cases h
    · next hi =>
      rw [add_read_failed a (Bool.eq_false_iff.2 hi)]
      exact .inl rfl
  · cases h

/-- While all goes well and the end has not been found, no read has stopped. -/
theorem stop?_eq_none {events : List Event} (hs : (ofTrace events).smooth = true)
    (he : (ofTrace events).ended = false) : ∀ e ∈ events, e.stop? = none := by
  induction events using List.reverseRecOn with
  | nil =>
    intro e hmem
    cases hmem
  | append_singleton events e ih =>
    rw [ofTrace_concat] at hs he
    have hs' : (ofTrace events).smooth = true := by
      by_contra hn
      rw [← after, not_smooth_after (Bool.eq_false_iff.2 hn)] at hs
      cases hs
    have he' : (ofTrace events).ended = false := by
      rw [Bool.eq_false_iff] at he ⊢
      exact fun hn => he ((ended_add _ e).2 (.inl hn))
    intro e' hmem
    rcases List.mem_append.1 hmem with hmem | hmem
    · exact ih hs' he' e' hmem
    · rw [List.mem_singleton.1 hmem]
      cases hstop : e.stop? with
      | none => rfl
      | some failure =>
        rcases stopped_add (ofTrace events) hstop with h | h
        · rw [h] at hs
          cases hs
        · rw [h] at he
          cases he

end Account

theorem Intake.absorb_failed {r : Intake} {e : IoError} (hi : e.isInterrupted = false) :
    r.absorb (.failed e) = ({ r with held := [] }, some (.failed e)) := by
  rw [absorb, hi]
  rfl

namespace Scripted

/-- The first segment of a source: what it serves up to where it ends or fails first. -/
def Source.opening (s : Source) : Segment := (segments [] s.script).headD {}

/-- What a read makes of the first segment that is still to come. -/
theorem Reads.opening {items items' : List Item} {reply : ReadReply}
    (h : Reads items reply items') {come : List UInt8} {g : Segment} {gs : List Segment}
    (hg : segments come items = g :: gs) :
    match (Event.read reply).stop? with
    | none => segments (come ++ (Event.read reply).brought) items' = g :: gs
    | some failure => (Event.read reply).brought = [] ∧ g = ⟨come, failure⟩ := by
  cases h with
  | interrupted hi h =>
    rw [Event.stop?, hi]
    show segments (come ++ []) items' = g :: gs
    rw [List.append_nil, ← h, hg]
  | failed hi h =>
    obtain ⟨gs', h, -⟩ := h come
    rw [Event.stop?, hi]
    exact ⟨rfl, (List.cons.inj (hg.symm.trans h)).1⟩
  | ended h =>
    obtain ⟨gs', h, -⟩ := h come
    exact ⟨rfl, (List.cons.inj (hg.symm.trans h)).1⟩
  | bytes h => exact (h come).symm.trans hg

namespace Surroundings

variable {σ : Type} {w w' : Surroundings} {a : Account} {m : Move σ} {q : σ} {g : Segment}

/-- The bytes that have been received. -/
def received (w : Surroundings) : List UInt8 := w.trace.toList.flatMap Event.brought

/-- The bytes that the channels have accepted. -/
def output (w : Surroundings) : List UInt8 :=
  w.channels.toList.flatMap (·.sink.accepted.toList)

theorem received_eq (w : Surroundings) :
    (Account.ofTrace w.trace.toList).received = w.received := Account.received_ofTrace _

theorem received_see (w : Surroundings) (e : Event) :
    (w.see e).received = w.received ++ e.brought := by
  rw [received, toList_push, List.flatMap_append, List.flatMap_singleton, received]

theorem Linked.output_eq (h : w.Linked a) (hs : a.child = .none → a.sent = []) :
    w.output = a.sent := by
  cases h with
  | none hk hc =>
    rw [output, hc, hs hk]
    rfl
  | some hk hi hc hs' =>
    rw [output, hc, ← hs']
    exact List.flatMap_singleton _ _

/-- What has been received of a source whose first segment was this one: a beginning of it, and
all of it where a read has found out how it ends. -/
structure Reading (g : Segment) (w : Surroundings) : Prop where
  received : w.received <+: g.bytes
  ahead : (∀ e ∈ w.trace.toList, e.stop? = none) →
    ∃ gs, segments w.received w.source.script = g :: gs
  stopped : ∀ e ∈ w.trace.toList, ∀ failure ∈ e.stop?, g = ⟨w.received, failure⟩

theorem Reading.start (h : w.trace = #[]) : Reading w.source.opening w := by
  have hr : w.received = [] := by rw [Surroundings.received, h]; rfl
  refine ⟨?_, fun _ => ?_, fun e hmem => ?_⟩
  · rw [hr]
    exact List.nil_prefix
  · obtain ⟨g, gs, hg, -⟩ := segments_append [] [] w.source.script
    rw [hr, Source.opening, hg]
    exact ⟨gs, rfl⟩
  · rw [h] at hmem
    cases hmem

theorem Reading.read {room : Nat} (h : Reading g w) (hroom : 0 < room)
    (hgoing : ∀ e ∈ w.trace.toList, e.stop? = none) :
    Reading g ({ w with source := (w.source.read room).2 }.see
      (.read (w.source.read room).1)) := by
  obtain ⟨gs, hg⟩ := h.ahead hgoing
  have hcame := (w.source.read_reads hroom).opening hg
  generalize w.source.read room = answer at hcame ⊢
  obtain ⟨reply, source⟩ := answer
  dsimp only at hcame ⊢
  have hreceived := received_see { w with source } (.read reply)
  change _ = w.received ++ _ at hreceived
  -- Of all the reads so far only this one may have stopped.
  have hlast : ∀ e ∈ ({ w with source }.see (.read reply)).trace.toList,
      ∀ failure ∈ e.stop?, (Event.read reply).stop? = some failure := by
    intro e he failure hf
    rw [toList_push, List.mem_append, List.mem_singleton] at he
    rcases he with he | rfl
    · rw [hgoing e he] at hf
      cases hf
    · exact hf
  split at hcame
  · next hstop =>
    rw [← hreceived] at hcame
    refine ⟨come_isPrefix hcame, fun _ => ⟨gs, hcame⟩, fun e he failure hf => ?_⟩
    cases hstop.symm.trans (hlast e he failure hf)
  · next failure hstop =>
    obtain ⟨hbrought, rfl⟩ := hcame
    rw [hbrought, List.append_nil] at hreceived
    refine ⟨?_, fun hgoing' => ?_, fun e he failure' hf => ?_⟩
    · exact hreceived ▸ List.prefix_refl _
    · have hnone := hgoing' (.read reply) (by rw [toList_push]; simp)
      cases hnone.symm.trans hstop
    · cases hstop.symm.trans (hlast e he failure' hf)
      rw [hreceived]

/-- A move other than a read leaves what has been received, and what is to come. -/
theorem Reading.of_quiet (h : Reading g w) (hs : w'.source = w.source)
    (ht : w'.trace.toList = w.trace.toList ++ (w.event m).toList)
    (hm : ∀ e ∈ w.event m, e.brought = [] ∧ e.stop? = none) : Reading g w' := by
  have hreceived : w'.received = w.received := by
    rw [Surroundings.received, ht, List.flatMap_append]
    cases he : w.event m with
    | none => simp [Surroundings.received]
    | some e => simp [Surroundings.received, (hm e he).1]
  have hmem : ∀ e ∈ w'.trace.toList, e ∈ w.trace.toList ∨ e.stop? = none := by
    intro e he
    rw [ht, List.mem_append, Option.mem_toList] at he
    exact he.imp_right fun he => (hm e he).2
  refine ⟨by rw [hreceived]; exact h.received, fun hgoing => ?_, fun e he failure hf => ?_⟩
  · rw [hreceived, hs]
    exact h.ahead fun e he => hgoing e (by rw [ht]; exact List.mem_append_left _ he)
  · rw [hreceived]
    rcases hmem e he with he | hnone
    · exact h.stopped e he failure hf
    · rw [hnone] at hf
      cases hf

theorem event_quiet (hm : ∀ room next, m ≠ .read room next) :
    ∀ e ∈ w.event m, e.brought = [] ∧ e.stop? = none := by
  intro e he
  cases m with
  | read room next => exact absurd rfl (hm room next)
  | reap child next =>
    obtain ⟨result, -, rfl⟩ := Option.map_eq_some_iff.1 he
    exact ⟨rfl, rfl⟩
  | proceed next => cases he
  | rest => cases he
  | _ =>
    cases he
    exact ⟨rfl, rfl⟩

/-- An answer to a move that is permitted goes on with the first segment. -/
theorem Reading.answer (h : Reading g w) (hp : m.Permitted (Account.ofTrace w.trace.toList))
    (ha : w.answer m = (some q, w')) : Reading g w' := by
  by_cases hread : ∃ room next, m = .read room next
  · obtain ⟨room, next, rfl⟩ := hread
    obtain ⟨hroom, -, he, hs⟩ := hp
    obtain rfl : w' = { w with source := (w.source.read room).2 }.see
        (.read (w.source.read room).1) := by
      cases ha
      rfl
    exact h.read hroom (Account.stop?_eq_none hs he)
  · have hquiet : ∀ room next, m ≠ .read room next := fun room next hm => hread ⟨room, next, hm⟩
    exact h.of_quiet (Stage.quiet_answer (a := {}) hquiet ha).1 (answered ha).2
      (event_quiet hquiet)

end Surroundings

end Scripted

/-! ## What is in hand -/

namespace Stage

open Record

variable {ceiling : Option Int32} {a : Account} {e : Option Event} {call call' : Activity}

/-- The bytes in hand for an earlier child. -/
def heldFor : Option (Int32 × Link) → List UInt8
  | none => []
  | some (_, link) => link.output.bytes

/-- The bytes that a stage at rest has in hand for its child. -/
def State.inHand : State → List UInt8
  | .awaitFirst _ earlier => heldFor earlier
  | .filtering _ _ link => link.output.bytes
  | .draining _ _ link => link.output.bytes
  | .done _ (some link) => link.output.bytes
  | _ => []

/-- The bytes that a stage has in hand for its child: those that its outbox holds, and those of
a value for which it makes room. -/
def Task.inHand : Task → List UInt8
  | .first _ earlier => heldFor earlier
  | .skip _ earlier _ => heldFor earlier
  | .launch _ earlier _ => heldFor earlier
  | .record _ _ link _ => link.output.bytes
  | .next _ _ link => link.output.bytes
  | .forward _ _ link v => link.output.bytes ++ encode v
  | .close _ _ link => link.output.bytes
  | .empty output _ => output.bytes
  | .replace _ _ _ link => link.output.bytes
  | .leave (.idle earlier) => heldFor earlier
  | .leave (.letGo _ (some link)) => link.output.bytes
  | .ended state _ => state.inHand
  | _ => []

def Run.inHand : Run → List UInt8
  | .stepping call => call.task.inHand
  | .givingUp call => call.task.inHand
  | .finished _ _ => []

theorem inHand_giveUpOutput (b : Activity) (o : Outbox) (after : Shutting) :
    (b.giveUpOutput o after).task.inHand = o.bytes := by
  unfold Activity.giveUpOutput
  split
  · next he => exact (Outbox.isEmpty_iff.1 he).symm
  · rfl

/-- A step begins with what the stage at rest has in hand. -/
theorem inHand_step (l : Ledger) (state : State) :
    (step { ledger := l, state }).task.inHand = state.inHand := by
  cases state with
  | draining input p link =>
    dsimp only [step]
    split
    · next he => exact (Outbox.isEmpty_iff.1 he).symm
    · rfl
  | childReaped p =>
    rw [step, Activity.task_settle]
    rfl
  | _ => rfl

/-- So does a stage that is given up. -/
theorem inHand_giveUp (l : Ledger) (state : State) (f : Fault) :
    (giveUp { ledger := l, state } f).task.inHand = state.inHand := by
  cases state with
  | awaitFirst input earlier =>
    cases earlier with
    | none => rfl
    | some earlier => exact inHand_giveUpOutput _ _ _
  | filtering input p link => exact inHand_giveUpOutput _ _ _
  | draining input p link => exact inHand_giveUpOutput _ _ _
  | done p left =>
    cases left with
    | none => rfl
    | some link => exact inHand_giveUpOutput _ _ _
  | _ => rfl

/-- What has been sent and what is in hand are together what the values received call for. -/
def Whole (ceiling : Option Int32) (a : Account) (inHand : List UInt8) : Prop :=
  a.sent ++ inHand = encodeAll (handedOn ceiling (values a.received))

theorem Whole.of_eq {a' : Account} {inHand : List UInt8} (h : Whole ceiling a inHand)
    (hs : a'.sent = a.sent) (hr : a'.received = a.received) : Whole ceiling a' inHand := by
  rw [Whole, hs, hr]
  exact h

theorem Filtering.whole {l : Ledger} {p : Int32} {vs : List Int32} {link : Link}
    (h : Filtering ceiling a l p vs link) (hr : values a.received = p :: vs) :
    Whole ceiling a link.output.bytes := by
  rw [Whole, hr, handedOn_accepted h.accepted, h.sent]

theorem HandedOn.whole {l : Ledger} {p : Int32} {vs : List Int32} {child : Child}
    (h : HandedOn ceiling a l p vs child) : Whole ceiling a [] := by
  rw [Whole, h.received, handedOn_accepted h.accepted, h.sent, List.append_nil]

/-- A stage that has sent nothing, and has nothing to hand on. -/
theorem whole_nil (hs : a.sent = []) (hv : handedOn ceiling (values a.received) = []) :
    Whole ceiling a [] := by
  rw [Whole, hs, hv]
  rfl

theorem Stepping.whole {l : Ledger} {t : Task} (h : Stepping ceiling a l t)
    (hs : a.smooth = true) : Whole ceiling a t.inHand := by
  have broken : ∀ inHand, a.smooth = false → Whole ceiling a inHand := by
    intro inHand hn
    rw [hs] at hn
    cases hn
  induction h with
  | first h he hr hh hd =>
    refine whole_nil h.sent ?_
    rw [hr, values_eq_nil hh]
    rfl
  | skip h he hv hr hh hn =>
    refine whole_nil h.sent ?_
    rw [hr, values_torn _ hh, handedOn, hv]
    rfl
  | idle h he hv hd => exact whole_nil h.sent (handedOn_idle hv)
  | idled h hn hs he hl hv hf hd => exact whole_nil h.sent (handedOn_idle hv)
  | launch h he hv hr hi hd =>
    refine whole_nil h.sent ?_
    rw [hr, values_encode, handedOn_accepted hv]
    rfl
  | record hv hr hi hb hne hcm hn hk hs hh he hsm hf hd =>
    refine whole_nil hs ?_
    rw [hr, values_encode, handedOn_accepted hv]
    rfl
  | next h he hr hh =>
    refine h.whole ?_
    rw [hr]
    exact values_torn _ hh
  | @forward input p v vs link h he hr hi hv hne =>
    have hvs : values a.received = p :: (vs ++ [v]) := by
      rw [hr, values_encodeAll_append, values_encode]
      rfl
    rw [Task.inHand, Whole, hvs, handedOn_accepted h.accepted, ← List.append_assoc, h.sent,
      List.filter_append, List.filter_cons_of_pos hv, encodeAll_append]
    simp
  | close h he hr hne => exact h.whole hr
  | shut h he hr hb =>
    have hall := h.whole hr
    rwa [hb] at hall
  | leave h hl hr => exact h.whole
  | reap h hl hr => exact h.whole
  | done h hl hr => exact h.whole
  | emptySevered h hh hne => exact broken _ h.smooth
  | shutSevered h hh => exact broken _ h.smooth
  | settled hp h ih =>
    rw [inHand_step] at ih
    exact ih
  | failed h => exact broken _ h.not_smooth

/-! ## What failures leave in hand -/

/-- A failure of anything but a write to the channel leaves in hand what was in hand. -/
theorem Activity.inHand_broken (hm : call.move.Answered e call')
    (hsend : ∀ e' ∈ e, e'.sendFails = false) (hs : a.smooth = true)
    (hbroken : (a.after e).smooth = false) :
    call'.task.inHand = call.task.inHand ∧ (a.after e).sent = a.sent ∧
      (a.after e).received = a.received := by
  obtain ⟨phase, l, task⟩ := call
  have smooth : a.smooth = false → False := fun hn => by rw [hs] at hn; cases hn
  cases task with
  | first | skip | next =>
    cases hm with
    | @read _ _ reply fits =>
    obtain ⟨err, rfl, hi⟩ := Account.broken_by_read hs hbroken
    dsimp only
    rw [Intake.absorb_failed hi]
    exact ⟨rfl, rfl, rfl⟩
  | launch input earlier p =>
    cases hm with
    | launch result =>
    cases result with
    | ok child => exact (smooth hbroken).elim
    | error f => exact ⟨rfl, rfl, rfl⟩
  | record input p link entry =>
    dsimp only [Activity.move] at hm
    split at hm
    · cases hm with
      | commit result =>
      cases result with
      | ok u =>
        rw [Account.after, Account.add_committed] at hbroken
        exact (smooth hbroken).elim
      | error err => exact ⟨rfl, rfl, rfl⟩
    · cases hm
      refine ⟨?_, rfl, rfl⟩
      dsimp only [Activity.wrote]
      split <;> rfl
  | forward | close | empty =>
    cases hm with
    | @send _ _ _ reply fits =>
    have hwell : reply.goesWell = true := by simpa [Event.sendFails] using hsend _ rfl
    rw [Account.after, Account.add, hwell, Bool.and_true] at hbroken
    exact (smooth hbroken).elim
  | reap child after =>
    cases hm with
    | reap result =>
    cases result with
    | ok u =>
      rw [Account.after, Account.add_reaped_ok] at hbroken
      exact (smooth hbroken).elim
    | error f =>
      refine ⟨?_, rfl, rfl⟩
      cases after with
      | drained p => rfl
      | givenUp p fault =>
        dsimp only [Activity.reaped]
        split <;> rfl
  | shut | replace | leave | forsake =>
    cases hm
    exact (smooth hbroken).elim
  | ended state result => cases hm

/-- A write that goes well takes from what an outbox holds. -/
theorem Activity.inHand_emptied {o : Outbox} {reply : WriteReply} (hne : o.bytes ≠ [])
    (hwell : reply.goesWell = true) (b : Activity) (after : Shutting) :
    Surroundings.accepted o.bytes reply ++ (b.emptied o after reply).task.inHand = o.bytes := by
  have hg := o.absorb_gone hne reply
  dsimp only [Activity.emptied]
  generalize o.absorb reply = outcome at hg ⊢
  cases hg with
  | interrupted hi => rfl
  | failed hi =>
    rw [WriteReply.goesWell, hi] at hwell
    cases hwell
  | stuck => cases hwell
  | more hb ht hs hne' => exact hb
  | all hb he ht => exact (List.append_nil _).trans hb

/-- Emptying an output that is to be given up. -/
theorem Whole.emptied {phase : Phase} {l : Ledger} {o : Outbox} {after : Shutting}
    (h : Whole ceiling a o.bytes) (hne : o.bytes ≠ [])
    (hm : (Activity.move ⟨phase, l, .empty o after⟩).Answered e call')
    (hsend : ∀ e' ∈ e, e'.sendFails = false) :
    Whole ceiling (a.after e) call'.task.inHand := by
  cases hm with
  | @send _ _ _ reply fits =>
  have hwell : reply.goesWell = true := by simpa [Event.sendFails] using hsend _ rfl
  have hall := Activity.inHand_emptied hne hwell ⟨phase, l, .empty o after⟩ after
  rw [Whole, Account.after, Account.add]
  dsimp only
  rw [List.append_assoc, hall]
  exact h

theorem GivingUp.whole_step (h : GivingUp ceiling a call.task)
    (hw : Whole ceiling a call.task.inHand) (hm : call.move.Answered e call')
    (hsend : ∀ e' ∈ e, e'.sendFails = false) :
    Whole ceiling (a.after e) call'.task.inHand := by
  obtain ⟨phase, l, task⟩ := call
  cases h with
  | empty h hh hne => exact hw.emptied hne hm hsend
  | reap h hs hl hr =>
    cases hm with
    | reap result =>
    cases result with
    | ok u => exact hw.of_eq rfl rfl
    | error f =>
      dsimp only [Activity.reaped]
      split <;> exact hw.of_eq rfl rfl
  | leaveAlone | shut | leave =>
    cases hm
    exact hw.of_eq rfl rfl
  | endedAlone | ended => cases hm

/-- What a failure has left of a stage within a step: an output is given up, or the step ends. -/
theorem Stepping.broken {l : Ledger} {t : Task} (h : Stepping ceiling a l t)
    (hs : a.smooth = false) :
    (∃ o input p child f, t = .empty o (.severed input p child f) ∧ o.bytes ≠ []) ∨
      (∃ input p child f, t = .shut (.severed input p child f)) ∨
      ∃ state result, t = .ended state result := by
  have whole : a.smooth = true → False := fun hn => by rw [hs] at hn; cases hn
  cases h with
  | first h | skip h | idle h | launch h | next h | forward h | close h | shut h | leave h
  | reap h => exact (whole h.smooth).elim
  | record _ _ _ _ _ _ _ _ _ _ _ hsm => exact (whole hsm).elim
  | emptySevered h hh hne => exact .inl ⟨_, _, _, _, _, rfl, hne⟩
  | shutSevered => exact .inr (.inl ⟨_, _, _, _, rfl⟩)
  | idled | done | settled | failed => exact .inr (.inr ⟨_, _, rfl⟩)

theorem Stepping.whole_step (hc : call.ledger.ceiling = ceiling)
    (h : Stepping ceiling a call.ledger call.task) (hw : Whole ceiling a call.task.inHand)
    (hm : call.move.Answered e call') (hsend : ∀ e' ∈ e, e'.sendFails = false) :
    Whole ceiling (a.after e) call'.task.inHand := by
  cases hnow : (a.after e).smooth with
  | true => exact (h.step hc hm).whole hnow
  | false =>
    cases hs : a.smooth with
    | true =>
      obtain ⟨hhand, hsent, hreceived⟩ := Activity.inHand_broken hm hsend hs hnow
      rw [hhand]
      exact hw.of_eq hsent hreceived
    | false =>
      obtain ⟨phase, l, task⟩ := call
      obtain ⟨o, input, p, child, f, ht, hne⟩ | ⟨input, p, child, f, ht⟩ | ⟨state, result, ht⟩ :=
        h.broken hs
      · cases ht
        exact hw.emptied hne hm hsend
      · cases ht
        cases hm
        exact hw.of_eq rfl rfl
      · cases ht
        cases hm

/-- Between two calls nothing changes hands. -/
theorem Run.inHand_afterStep (l : Ledger) (state : State) (result : Except Fault Phase)
    (hdone : result = .ok .done → state.inHand = []) :
    (Run.afterStep { ledger := l, state } result).inHand = state.inHand := by
  cases result with
  | error f => exact inHand_giveUp l state f
  | ok phase =>
    cases phase with
    | done => exact (hdone rfl).symm
    | _ => exact inHand_step l state

theorem Run.whole_step {r r' : Run} (h : r.Accords ceiling a) (hw : Whole ceiling a r.inHand)
    (hm : r.move.Answered e r') (hsend : ∀ e' ∈ e, e'.sendFails = false) :
    Whole ceiling (a.after e) r'.inHand := by
  cases r with
  | stepping call =>
    obtain ⟨hc, h⟩ := h
    cases hout : call.outcome? with
    | none =>
      simp only [Run.move, hout] at hm
      obtain ⟨call', hcall, rfl⟩ := hm.of_map
      exact h.whole_step hc hw hcall hsend
    | some outcome =>
      obtain ⟨⟨l, state⟩, result⟩ := outcome
      obtain ⟨ht, -⟩ := Activity.outcome_eq_some hout
      simp only [Run.move, hout] at hm
      cases hm
      dsimp only at ht
      rw [Run.inHand, ht] at hw
      rw [ht] at h
      rw [Run.inHand_afterStep l state result]
      · exact hw
      · intro hdone
        cases h with
        | idled | done => rfl
        | settled hp h => exact absurd (Except.ok.inj hdone) hp
        | failed h => cases hdone
  | givingUp call =>
    cases hout : call.outcome? with
    | none =>
      simp only [Run.move, hout] at hm
      obtain ⟨call', hcall, rfl⟩ := hm.of_map
      exact GivingUp.whole_step h hw hcall hsend
    | some outcome =>
      obtain ⟨⟨l, state⟩, result⟩ := outcome
      obtain ⟨ht, -⟩ := Activity.outcome_eq_some hout
      simp only [Run.move, hout] at hm
      cases hm
      dsimp only at ht
      rw [Run.inHand, ht] at hw
      rw [Run.Accords, ht] at h
      cases h with
      | endedAlone | ended => exact hw
  | finished s result => cases hm

/-- As long as no write to the channel fails, what has been sent and what is in hand are all
that the values received call for. -/
theorem Course.whole {events : List Event} {r : Run} (h : Course ceiling events r)
    (hsend : ∀ e ∈ events, e.sendFails = false) :
    Whole ceiling (Account.ofTrace events) r.inHand := by
  induction h with
  | start => exact whole_nil rfl rfl
  | @step events e r r' h hm ih =>
    rw [Account.ofTrace_append]
    refine Run.whole_step h.accords (ih fun e' he' => ?_) hm fun e' he' => ?_
    · exact hsend e' (List.mem_append_left _ he')
    · exact hsend e' (List.mem_append_right _ (Option.mem_toList.2 he'))

/-! ## The channel of the child -/

theorem Sound.output_eq {w : Surroundings} (h : Sound ceiling a) (hl : w.Linked a) :
    w.output = a.sent := hl.output_eq h.child

/-- A stage without a value of its own has sent nothing. -/
theorem Sound.sent_of_none (h : Sound ceiling a) (ho : ownValue? ceiling a = none) :
    a.sent = [] := by
  apply h.child
  cases hk : a.child with
  | none => rfl
  | some child =>
    have hk' : a.child.isSome = true := by rw [hk]; rfl
    have howned := h.owner hk'
    rw [ownValue?, if_pos hk'] at ho
    rw [ho] at howned
    cases howned

/-- What a stage that owns a value hands on. -/
theorem handedOn_eq {p : Int32} {vs : List Int32} (hp : accepts ceiling p = true)
    (hr : values a.received = p :: vs) :
    handedOn ceiling (values a.received) = withoutMultiples p vs := by
  rw [hr, handedOn_accepted hp, filter_passes]

/-- The complete values of a beginning of what is handed on are no multiples. -/
theorem not_dvd_of_isPrefix {p : Int32} {vs : List Int32} {bytes : List UInt8}
    (h : bytes <+: encodeAll (withoutMultiples p vs)) :
    ∀ v ∈ values bytes, ¬p.toInt ∣ v.toInt := by
  intro v hv
  have hvalues := values_mono h
  rw [values_encodeAll] at hvalues
  exact of_decide_eq_true (List.mem_filter.1 (hvalues.subset hv)).2

/-- However its input, its record, the launch, the channel and its child behave, a stage hands
on a beginning of what it owes: the values it has received behind its own, in their order and
without the multiples of its own. So nothing that is complete in it is a multiple. As long as
no write to the channel fails it hands on all of that, also where its input or anything else has
failed. What it has received is a beginning of the first segment of its input, and all of it
where its input has ended or failed. -/
theorem run_hands_on (ceiling : Option Int32) (w : Surroundings) (hw : Untouched w) :
    ∃ s result w', (Stage.new ceiling).run w = (some (s, result), w') ∧
      w'.received <+: w.source.opening.bytes ∧
      (∀ e ∈ w'.trace.toList, ∀ failure ∈ e.stop?, w.source.opening = ⟨w'.received, failure⟩) ∧
      match s.prime? with
      | none => w'.output = []
      | some p =>
        ∃ vs, values w'.received = p :: vs ∧
          w'.output <+: encodeAll (withoutMultiples p vs) ∧
          (∀ v ∈ values w'.output, ¬p.toInt ∣ v.toInt) ∧
          ((∀ e ∈ w'.trace.toList, e.sendFails = false) →
            w'.output = encodeAll (withoutMultiples p vs)) := by
  obtain ⟨s, result, hrun, hu, hreading⟩ :=
    run_keeps ceiling hw (fun _ w' => Surroundings.Reading w.source.opening w')
      (Surroundings.Reading.start hw.trace)
      fun hu h ha => h.answer (Run.permitted hu.course.accords) ha
  generalize (Stage.new ceiling).run w = run at hrun hu hreading ⊢
  obtain ⟨outcome, w'⟩ := run
  subst hrun
  refine ⟨s, result, w', rfl, hreading.received, hreading.stopped, ?_⟩
  dsimp only at hu
  have hsound := Run.sound hu.course.accords
  rw [Stage.prime?, hu.course.state_eq, hsound.output_eq hu.linked, ← Surroundings.received_eq]
  dsimp only [State.prime?]
  cases ho : ownValue? ceiling (Account.ofTrace w'.trace.toList) with
  | none => exact hsound.sent_of_none ho
  | some p =>
    obtain ⟨hp, vs, hr⟩ := ownValue?_eq_some ho
    have hsent := hsound.sent
    rw [handedOn_eq hp hr] at hsent
    refine ⟨vs, hr, hsent, not_dvd_of_isPrefix hsent, fun hsend => ?_⟩
    have hall := hu.course.whole hsend
    rwa [Whole, Run.inHand, List.append_nil, handedOn_eq hp hr] at hall

/-- The input of a stage fails in the middle of a value, and then its channel fails after two
of the four bytes in hand: these two have been handed on, and no others. -/
theorem run_hands_on_torn_value :
    let w : Surroundings :=
      { source :=
          { items := [.chunk [2, 0, 0, 0, 3, 0, 0, 0, 4, 0, 0, 0, 5], .error ⟨.other, none⟩] }
        launches := [.started
          { sink := { barriers := [⟨2, .failures ⟨.other, none⟩ rfl none⟩] } }] }
    ∃ s result w', (Stage.new none).run w = (some (s, result), w') ∧
      w'.received <+: w.source.opening.bytes ∧ values w'.received = [2, 3, 4] ∧
      w'.output = [3, 0] ∧ w'.output <+: encodeAll (withoutMultiples 2 [3, 4]) := by
  intro w
  have hw : Untouched w := by
    refine ⟨rfl, rfl, fun s hs => ?_, fun s hs => ?_⟩
    · cases List.mem_singleton.1 hs
      rfl
    · cases List.mem_singleton.1 hs
      exact Option.some_ne_none _
  have howns : ((Stage.new none).run w).1.map (fun run => run.1.prime?) = some (some 2) := by
    decide +kernel
  have hvalues : values ((Stage.new none).run w).2.received = [2, 3, 4] := by decide +kernel
  have hsends : ((Stage.new none).run w).2.output = [3, 0] := by decide +kernel
  obtain ⟨s, result, w', hrun, hreceived, -, howed⟩ := run_hands_on none w hw
  rw [hrun] at howns hvalues hsends
  have hprime : s.prime? = some 2 := Option.some.inj howns
  rw [hprime] at howed
  obtain ⟨vs, hvs, houtput, -⟩ := howed
  obtain ⟨-, rfl⟩ := List.cons.inj (hvs.symm.trans hvalues)
  exact ⟨s, result, w', hrun, hreceived, hvalues, hsends, houtput⟩

end Stage

end SieveChain
