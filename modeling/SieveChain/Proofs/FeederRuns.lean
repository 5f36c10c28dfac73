import SieveChain.Proofs.StageFaults

/-!
# Runs of feeders

A feeder launches the first stage once. What its channel accepts is a beginning of its values, and
the channel is given up once, before the stage is reaped, whichever operation fails. The run
succeeds exactly if nothing fails, and then it counts all values of its range. If the channel
fails, that is what the feeder reports, unless the fault is a broken pipe and the stage has failed
too; a stage that has failed is never passed over.
-/

namespace SieveChain

open Wire Scripted

/-- The bytes that the channel of a child accepts in an event. -/
def Event.carried : Event → List UInt8
  | .sent _ accepted _ => accepted
  | _ => []

theorem Account.sent_ofTrace (events : List Event) :
    (ofTrace events).sent = events.flatMap Event.carried := by
  induction events using List.reverseRecOn with
  | nil => rfl
  | append_singleton events e ih =>
    rw [ofTrace_concat, List.flatMap_append, List.flatMap_singleton, ← ih]
    cases e with
    | read reply =>
      cases reply with
      | got bytes => cases bytes <;> exact (List.append_nil _).symm
      | failed e => exact (List.append_nil _).symm
    | launched result => cases result <;> exact (List.append_nil _).symm
    | sent child accepted reply => rfl
    | _ => exact (List.append_nil _).symm

/-- A party whose only launch has given a child keeps it. -/
theorem Account.child_ofTrace {child : Child} {rest : List Event}
    (h : ∀ e ∈ rest, e.isLaunch = false) :
    (ofTrace (.launched (.ok child) :: rest)).child = some child := by
  induction rest using List.reverseRecOn with
  | nil => rfl
  | append_singleton rest e ih =>
    obtain ⟨hrest, he⟩ := List.forall_mem_append.1 h
    have hlaunch := List.forall_mem_singleton.1 he
    rw [← List.cons_append, ofTrace_concat, ← ih hrest]
    cases e with
    | read reply =>
      cases reply with
      | got bytes => cases bytes <;> rfl
      | failed e => rfl
    | launched result => cases hlaunch
    | _ => rfl

/-- How one write comes out for the bytes held back and for the event it makes. -/
inductive Outbox.Written (o : Outbox) (e : Event) : Outbox × Option (Except IoError Unit) → Prop
  | more {o' : Outbox} (clear : e.fails = false) (taken : o'.taken = o.taken)
      (size : o'.size ≤ o.size) : Written o e (o', none)
  | all {o' : Outbox} (clear : e.fails = false) (taken : o'.taken = o.taken)
      (size : o'.size = 0) : Written o e (o', some (.ok ()))
  | failed {error : IoError} (first : e.error? = some error) : Written o e (o, some (.error error))

theorem Outbox.absorb_written {o : Outbox} (hne : o.bytes ≠ []) (child : Child)
    (accepted : List UInt8) (reply : WriteReply) :
    o.Written (.sent child accepted reply) (o.absorb reply) := by
  have hg := absorb_gone hne reply
  generalize o.absorb reply = outcome at hg ⊢
  cases hg with
  | interrupted hi =>
    have hnone : (Event.sent child accepted (.failed _)).error? = none :=
      Event.error?_sent_interrupted hi
    exact .more (by simp [Event.fails, hnone]) rfl (Nat.le_refl _)
  | failed hi => exact .failed (Event.error?_sent_failed hi)
  | stuck => exact .failed rfl
  | more hb ht hs hne' => exact .more rfl ht (Nat.le_of_lt hs)
  | all hb he ht => exact .all rfl ht (by rw [← length_bytes, he]; rfl)

namespace Feeder

variable {c : Candidates} {child : Child} {sends : List Event}

/-! ## What a feeder is doing -/

/-- As many values as fill an outbox. -/
def batch : Nat := Outbox.capacity / width

/-- How many values have been put into the outbox when so many bytes have been accepted and the
channel fails, if there are as many: they are put there batch by batch. -/
def due (accepted : Nat) : Nat := batch * (accepted / Outbox.capacity + 1)

/-- What a feeder is doing when its channel fails. The value it names is the one for which there
has been no room. -/
def doing (c : Candidates) (accepted : List UInt8) : String :=
  if due accepted.length < c.count then
    "Feeding " ++ Numeral.text (c.value (due accepted.length))
  else "Closing feed channel"

theorem due_eq {accepted taken size : Nat} (hb : batch ∣ taken)
    (hsum : accepted + size = width * taken) (hpos : 0 < size) (hle : size ≤ Outbox.capacity) :
    due accepted = taken := by
  obtain ⟨k, rfl⟩ := hb
  simp only [due, batch, Outbox.capacity, width] at *
  omega

theorem due_mono {m n : Nat} (h : m ≤ n) : due m ≤ due n := by
  have hdiv : m / Outbox.capacity ≤ n / Outbox.capacity := Nat.div_le_div_right h
  exact Nat.mul_le_mul_left _ (by omega)

/-- An outbox is never filled beyond its capacity. -/
theorem Run.size_fill_le (n : Nat) (v : Int32) {o : Outbox} (h : o.size ≤ Outbox.capacity) :
    (Run.fill n v o).2.2.size ≤ Outbox.capacity := by
  fun_induction Run.fill n v o with
  | case1 v o => exact h
  | case2 v o n hroom ih =>
    apply ih
    simpa [Outbox.hasRoom, Outbox.put] using hroom
  | case3 v o n hroom => exact h

/-! ## How the feeding comes out -/

/-- Nothing but writes to the channel of a child. -/
def Sends (child : Child) (sends : List Event) : Prop :=
  ∀ e ∈ sends, ∃ accepted reply, e = .sent child accepted reply

theorem Sends.concat (h : Sends child sends) (accepted : List UInt8) (reply : WriteReply) :
    Sends child (sends ++ [.sent child accepted reply]) :=
  List.forall_mem_append.2 ⟨h, List.forall_mem_singleton.2 ⟨accepted, reply, rfl⟩⟩

/-- What the feeding comes to, by all that has been sent: the number of the values, or the fault of
the first write that has failed. -/
inductive Delivery (c : Candidates) : List Event → Except Fault Nat → Prop
  | whole {sends : List Event} (clear : ∀ e ∈ sends, e.fails = false) :
      Delivery c sends (.ok c.count)
  | broken {before after : List Event} {e : Event} {error : IoError}
      (clear : ∀ b ∈ before, b.fails = false) (first : e.error? = some error) :
      Delivery c (before ++ e :: after)
        (.error (.within (doing c (before.flatMap Event.carried)) (.io error)))

theorem Delivery.concat {f : Fault} (h : Delivery c sends (.error f)) (e : Event) :
    Delivery c (sends ++ [e]) (.error f) := by
  generalize hfed : Except.error f = fed at h
  cases h with
  | whole clear => cases hfed
  | broken clear first =>
    rw [List.append_assoc, List.cons_append]
    exact .broken clear first

/-- What a feeder makes of the feeding and of the end of the first stage: its result, and what it
warns of. -/
inductive Verdict (child : Child) :
    Except Fault Nat → Except Fault Unit → Except Fault Nat → List Notice → Prop
  | well (n : Nat) : Verdict child (.ok n) (.ok ()) (.ok n) []
  | stage (n : Nat) (f : Fault) :
      Verdict child (.ok n) (.error f) (.error (.within ("First stage " ++ child.label) f)) []
  | own (own : Fault) : Verdict child (.error own) (.ok ()) (.error own) []
  | gaveWay {own : Fault} (f : Fault) (broken : own.isBrokenPipe = true) :
      Verdict child (.error own) (.error f) (.error f) []
  | kept {own : Fault} (f : Fault) (broken : own.isBrokenPipe = false) :
      Verdict child (.error own) (.error f) (.error own) [.firstStageFailedToo child.label f]

/-! ## The events up to a task -/

/-- The events and notices with which a feeder has come to a task. As long as the channel goes
well, values are put into the outbox in whole batches but for the last. -/
inductive Chronicle (c : Candidates) : List Event → List Notice → Task → Prop
  | launch : Chronicle c [] [] .launch
  | refused {f : Fault} : Chronicle c [.launched (.error f)] []
      (.finished (.error (.within "Spawning first stage" f)))
  | feed {o : Outbox} {todo : Nat} {next : Int32} {child : Child} {sends : List Event}
      (sent : Sends child sends)
      (clear : ∀ e ∈ sends, e.fails = false) (empty : o.size = 0) (whole : batch ∣ o.taken) :
      Chronicle c (.launched (.ok child) :: sends) [.feeding c.start c.stop child.label]
        (.feed child o todo next)
  | makeRoom {o : Outbox} {todo : Nat} {next : Int32} {child : Child} {sends : List Event}
      (sent : Sends child sends)
      (clear : ∀ e ∈ sends, e.fails = false) (fits : o.size ≤ Outbox.capacity)
      (whole : batch ∣ o.taken) (more : todo ≠ 0) :
      Chronicle c (.launched (.ok child) :: sends) [.feeding c.start c.stop child.label]
        (.makeRoom child o todo next)
  | close {o : Outbox} {child : Child} {sends : List Event}
      (sent : Sends child sends)
      (clear : ∀ e ∈ sends, e.fails = false)
      (last : c.count ≤ due (sends.flatMap Event.carried).length) :
      Chronicle c (.launched (.ok child) :: sends) [.feeding c.start c.stop child.label]
        (.close child o)
  | empty {o : Outbox} {f : Fault} {child : Child} {sends : List Event}
      (sent : Sends child sends)
      (delivery : Delivery c sends (.error f)) :
      Chronicle c (.launched (.ok child) :: sends) [.feeding c.start c.stop child.label]
        (.empty child o f)
  | shut {fed : Except Fault Nat} {child : Child} {sends : List Event}
      (sent : Sends child sends)
      (delivery : Delivery c sends fed) :
      Chronicle c (.launched (.ok child) :: sends) [.feeding c.start c.stop child.label]
        (.shut child fed)
  | reap {fed : Except Fault Nat} {child : Child} {sends : List Event}
      (sent : Sends child sends)
      (delivery : Delivery c sends fed) :
      Chronicle c (.launched (.ok child) :: sends ++ [.shut child])
        [.feeding c.start c.stop child.label] (.reap child fed)
  | finished {fed : Except Fault Nat} {outcome : Except Fault Unit} {result : Except Fault Nat}
      {warnings : List Notice} {child : Child} {sends : List Event}
      (sent : Sends child sends)
      (delivery : Delivery c sends fed) (verdict : Verdict child fed outcome result warnings) :
      Chronicle c (.launched (.ok child) :: sends ++ [.shut child, .reaped child outcome])
        (.feeding c.start c.stop child.label :: warnings) (.finished result)

namespace Chronicle

variable {events : List Event} {r r' : Run} {o : Outbox} {todo : Nat} {next : Int32}

theorem clear_concat {e : Event} (clear : ∀ b ∈ sends, b.fails = false) (he : e.fails = false) :
    ∀ b ∈ sends ++ [e], b.fails = false :=
  List.forall_mem_append.2 ⟨clear, List.forall_mem_singleton.2 he⟩

/-- After a fault the channel is given up, at once if nothing is held back. -/
theorem failed {f : Fault} (hn : r.notices.toList = [.feeding c.start c.stop child.label])
    (sent : Sends child sends)
    (delivery : Delivery c sends (.error f)) :
    Chronicle c (.launched (.ok child) :: sends) (r.failed child o f).notices.toList
      (r.failed child o f).task := by
  unfold Run.failed
  split
  · show Chronicle c _ r.notices.toList (.shut child (.error f))
    rw [hn]
    exact .shut sent delivery
  · show Chronicle c _ r.notices.toList (.empty child o f)
    rw [hn]
    exact .empty sent delivery

/-- What the outbox holds back and what has been accepted make up the values taken. -/
theorem length_carried
    (h : Feeding c (Account.ofTrace (.launched (.ok child) :: sends)) child o todo next) :
    (sends.flatMap Event.carried).length + o.size = width * o.taken := by
  have hbytes := congrArg List.length h.sent
  rw [Account.sent_ofTrace, List.flatMap_cons, List.length_append, List.length_append,
    Outbox.length_bytes, length_encodeAll, Candidates.firstValues, List.length_map,
    List.length_range] at hbytes
  simpa [Event.carried] using hbytes

theorem feed_step (hn : r.notices.toList = [.feeding c.start c.stop child.label])
    (sent : Sends child sends)
    (clear : ∀ e ∈ sends, e.fails = false) (empty : o.size = 0) (whole : batch ∣ o.taken)
    (h : Feeding c (Account.ofTrace (.launched (.ok child) :: sends)) child o todo next) :
    Chronicle c (.launched (.ok child) :: sends) (r.feed child o todo next).notices.toList
      (r.feed child o todo next).task := by
  have hlength := length_carried h
  have htaken := h.taken
  obtain ⟨h', hfull, hsize⟩ := h.fill
  have hfits := Run.size_fill_le todo next (o := o) (by rw [empty]; exact Nat.zero_le _)
  unfold Run.feed
  split
  · next v o' hfill =>
    rw [hfill] at h' hsize hfits
    have hcount : o'.taken = c.count := h'.taken
    dsimp only at hsize hfits
    split
    · show Chronicle c _ r.notices.toList (.shut child (.ok o'.taken))
      rw [hn, hcount]
      exact .shut sent (.whole clear)
    · show Chronicle c _ r.notices.toList (.close child o')
      rw [hn]
      -- The last batch, of at most as many values as an outbox has room for.
      refine .close sent clear ?_
      obtain ⟨k, hk⟩ := whole
      simp only [due, batch, Outbox.capacity, width] at *
      omega
  · next todo' v o' hfill =>
    rw [hfill] at h' hfull hsize hfits
    have htaken' := h'.taken
    have hroom := hfull (Nat.succ_ne_zero _)
    dsimp only at hsize hfits htaken' hroom
    show Chronicle c _ r.notices.toList (.makeRoom child o' (todo' + 1) v)
    rw [hn]
    refine .makeRoom sent clear hfits ?_ (Nat.succ_ne_zero _)
    simp only [Outbox.hasRoom, decide_eq_false_iff_not] at hroom
    obtain ⟨k, hk⟩ := whole
    refine ⟨k + 1, ?_⟩
    simp only [batch, Outbox.capacity, width] at *
    omega

theorem makeRoom_step (hn : r.notices.toList = [.feeding c.start c.stop child.label])
    (sent : Sends child sends)
    (clear : ∀ e ∈ sends, e.fails = false) (fits : o.size ≤ Outbox.capacity)
    (whole : batch ∣ o.taken) (more : todo ≠ 0) (hne : o.bytes ≠ [])
    (h : Feeding c (Account.ofTrace (.launched (.ok child) :: sends)) child o todo next)
    (accepted : List UInt8) (reply : WriteReply) :
    Chronicle c (.launched (.ok child) :: (sends ++ [.sent child accepted reply]))
      (r.madeRoom child o todo next reply).notices.toList
      (r.madeRoom child o todo next reply).task := by
  have hwritten := Outbox.absorb_written hne child accepted reply
  have hsent := sent.concat accepted reply
  unfold Run.madeRoom
  generalize o.absorb reply = outcome at hwritten ⊢
  cases hwritten with
  | @more o' hclear htaken hsize =>
    show Chronicle c _ r.notices.toList (.makeRoom child o' todo next)
    rw [hn]
    exact .makeRoom hsent (clear_concat clear hclear) (Nat.le_trans hsize fits)
      (by rw [htaken]; exact whole) more
  | @all o' hclear htaken hsize =>
    show Chronicle c _ r.notices.toList (.feed child o' todo next)
    rw [hn]
    exact .feed hsent (clear_concat clear hclear) hsize (by rw [htaken]; exact whole)
  | @failed error first =>
    have hdue := due_eq whole (length_carried h) (Outbox.size_pos hne) fits
    have hdoing : doing c (sends.flatMap Event.carried) = "Feeding " ++ Numeral.text next := by
      have hlt : o.taken < c.count := by
        have htaken := h.taken
        omega
      rw [doing, hdue, if_pos hlt, h.next]
    refine failed hn hsent ?_
    rw [← hdoing]
    exact .broken clear first

theorem close_step (hn : r.notices.toList = [.feeding c.start c.stop child.label])
    (sent : Sends child sends)
    (clear : ∀ e ∈ sends, e.fails = false)
    (last : c.count ≤ due (sends.flatMap Event.carried).length) (hne : o.bytes ≠ [])
    (hcount : o.taken = c.count) (accepted : List UInt8) (reply : WriteReply) :
    Chronicle c (.launched (.ok child) :: (sends ++ [.sent child accepted reply]))
      (r.closed child o reply).notices.toList (r.closed child o reply).task := by
  have hwritten := Outbox.absorb_written hne child accepted reply
  have hsent := sent.concat accepted reply
  unfold Run.closed
  generalize o.absorb reply = outcome at hwritten ⊢
  cases hwritten with
  | @more o' hclear htaken hsize =>
    show Chronicle c _ r.notices.toList (.close child o')
    rw [hn]
    refine .close hsent (clear_concat clear hclear) (Nat.le_trans last (due_mono ?_))
    rw [List.flatMap_append, List.length_append]
    exact Nat.le_add_right _ _
  | @all o' hclear htaken hsize =>
    show Chronicle c _ r.notices.toList (.shut child (.ok o'.taken))
    rw [hn, htaken, hcount]
    exact .shut hsent (.whole (clear_concat clear hclear))
  | @failed error first =>
    have hdoing : doing c (sends.flatMap Event.carried) = "Closing feed channel" := by
      rw [doing, if_neg (Nat.not_lt.2 last)]
    refine failed hn hsent ?_
    rw [← hdoing]
    exact .broken clear first

theorem empty_step {f : Fault} (hn : r.notices.toList = [.feeding c.start c.stop child.label])
    (sent : Sends child sends)
    (delivery : Delivery c sends (.error f)) (accepted : List UInt8) (reply : WriteReply) :
    Chronicle c (.launched (.ok child) :: (sends ++ [.sent child accepted reply]))
      (r.emptied child o f reply).notices.toList (r.emptied child o f reply).task := by
  have hsent := sent.concat accepted reply
  have hdelivery := delivery.concat (.sent child accepted reply)
  unfold Run.emptied
  split
  · next o' hnone =>
    show Chronicle c _ r.notices.toList (.empty child o' f)
    rw [hn]
    exact .empty hsent hdelivery
  · show Chronicle c _ r.notices.toList (.shut child (.error f))
    rw [hn]
    exact .shut hsent hdelivery

theorem reap_step {fed : Except Fault Nat}
    (hn : r.notices.toList = [.feeding c.start c.stop child.label])
    (sent : Sends child sends)
    (delivery : Delivery c sends fed) (outcome : Except Fault Unit) :
    Chronicle c (.launched (.ok child) :: sends ++ [.shut child, .reaped child outcome])
      (r.reaped child fed outcome).notices.toList (r.reaped child fed outcome).task := by
  have done : ∀ {result : Except Fault Nat}, Verdict child fed outcome result [] →
      Chronicle c (.launched (.ok child) :: sends ++ [.shut child, .reaped child outcome])
        (r.go (.finished result)).notices.toList (r.go (.finished result)).task := by
    intro result hverdict
    show Chronicle c _ r.notices.toList (.finished result)
    rw [hn]
    exact .finished sent delivery hverdict
  cases fed with
  | ok n =>
    cases outcome with
    | ok u => exact done (.well n)
    | error f => exact done (.stage n f)
  | error own =>
    cases outcome with
    | ok u => exact done (.own own)
    | error f =>
      dsimp only [Run.reaped]
      split
      · next hb => exact done (.gaveWay f hb)
      · next hb =>
        show Chronicle c _ (r.notices.push (.firstStageFailedToo child.label f)).toList
          (.finished (.error own))
        rw [Array.toList_push, hn]
        exact .finished sent delivery (.kept f (Bool.eq_false_iff.2 hb))

theorem step {e : Option Event} (hacc : r.Accords c (Account.ofTrace events))
    (h : Chronicle c events r.notices.toList r.task) (hm : r.move.Answered e r') :
    Chronicle c (events ++ e.toList) r'.notices.toList r'.task := by
  obtain ⟨candidates, notices, task⟩ := r
  obtain ⟨hc, hstance⟩ := hacc
  dsimp only at hc hstance h
  subst hc
  generalize hn : notices.toList = noted at h
  cases h with
  | launch =>
    cases hm with
    | launch result =>
    cases result with
    | error f =>
      show Chronicle candidates _ notices.toList _
      rw [hn]
      exact .refused
    | ok child =>
      show Chronicle candidates _ (notices.push _).toList _
      rw [Array.toList_push, hn]
      exact .feed (fun e he => absurd he List.not_mem_nil) (fun e he => absurd he List.not_mem_nil)
        rfl (Nat.dvd_zero _)
  | refused => cases hm
  | feed sent clear empty whole =>
    cases hm
    rw [Option.toList_none, List.append_nil]
    cases hstance with
    | feed h => exact feed_step hn sent clear empty whole h
  | makeRoom sent clear fits whole more =>
    cases hm
    cases hstance with
    | makeRoom h hne => exact makeRoom_step hn sent clear fits whole more hne h _ _
  | close sent clear last =>
    cases hm
    cases hstance with
    | close h hne => exact close_step hn sent clear last hne h.taken _ _
  | empty sent delivery =>
    cases hm
    exact empty_step hn sent delivery _ _
  | shut sent delivery =>
    cases hm
    show Chronicle candidates _ notices.toList _
    rw [hn]
    exact .reap sent delivery
  | reap sent delivery =>
    cases hm with
    | reap outcome =>
    rw [Option.toList_some, List.append_assoc]
    exact reap_step hn sent delivery outcome
  | finished sent delivery verdict => cases hm

end Chronicle

/-! ## Runs in any surroundings -/

/-- A feeder under way in surroundings that were untouched at first. -/
structure Underway (c : Candidates) (r : Run) (w : Surroundings) : Prop where
  accords : r.Accords c (Account.ofTrace w.trace.toList)
  chronicle : Chronicle c w.trace.toList r.notices.toList r.task
  linked : w.Linked (Account.ofTrace w.trace.toList)
  sinks : ∀ s, .started s ∈ w.launches → s.sink.accepted = #[]
  known : ∀ s ∈ w.channels, s.ending ≠ none
  endings : ∀ s, .started s ∈ w.launches → s.ending ≠ none

namespace Underway

variable {r r' : Run} {w w' : Surroundings}

theorem start (hw : Stage.Untouched w) : Underway c (Feeder.run c) w where
  accords := by
    rw [hw.trace]
    exact Run.accords_start c
  chronicle := by
    rw [hw.trace]
    exact .launch
  linked := by
    rw [hw.trace]
    exact .none rfl hw.channels
  sinks := hw.sinks
  known := by
    intro s hs
    rw [hw.channels] at hs
    exact absurd hs (Array.not_mem_empty s)
  endings := hw.endings

theorem answer (h : Underway c r w) (ha : w.answer r.move = (some r', w')) :
    Underway c r' w' := by
  obtain ⟨hm, htrace⟩ := Surroundings.answered ha
  have haccount := Surroundings.ofTrace_answer ha
  constructor
  · rw [haccount]
    exact Run.accords_step h.accords hm
  · rw [htrace]
    exact h.chronicle.step h.accords hm
  · rw [haccount]
    exact h.linked.answer (Run.permitted h.accords) h.sinks ha
  · exact fun s hs => h.sinks s (Surroundings.launches_answer ha _ hs)
  · exact Stage.known_answer h.known h.endings ha
  · exact fun s hs => h.endings s (Surroundings.launches_answer ha _ hs)

/-- Every answer uses up some of what a feeder can do and its surroundings hold in stock. -/
theorem spends (h : Underway c r w) (ha : w.answer r.move = (some r', w')) :
    r'.effort + w'.stock < r.effort + w.stock := by
  have heffort := Run.effort_step h.accords (Surroundings.answered ha).1
  have hstock := Surroundings.stock_answer h.linked (Run.permitted h.accords) ha
  omega

/-- A feeder whose move has no answer has finished. -/
theorem finished (h : Underway c r w) (hend : (w.answer r.move).1 = none) :
    ∃ result, r.outcome? = some result := by
  obtain ⟨-, hrest | ⟨child, next, -, hunknown⟩⟩ := Surroundings.unanswered (Prod.ext hend rfl)
  · exact Run.finished_of_rest hrest
  · exact absurd hunknown (Surroundings.ending_channel h.known child)

end Underway

/-- The run of a feeder comes to its end, in whatever surroundings. -/
theorem perform_finishes (c : Candidates) {w : Surroundings} (hw : Stage.Untouched w) :
    ∃ r result, (perform c w).1 = some ⟨result, r.notices.toList⟩ ∧ r.task = .finished result ∧
      Underway c r (perform c w).2 := by
  have hn : (Feeder.run c).effort + w.stock < w.allowance (width * c.count) := by
    rw [Run.effort_start, Surroundings.stock, Surroundings.allowance, width]
    omega
  obtain ⟨hu, hpauses⟩ := Surroundings.drive_keeps (fun (r : Run) w => r.effort + w.stock)
    (fun h ha => ⟨Underway.answer h ha, h.spends ha⟩) (w.allowance (width * c.count))
    (Underway.start hw)
  obtain ⟨result, hout⟩ := hu.finished (hpauses hn)
  generalize hdriven : w.drive (w.allowance (width * c.count)) (Feeder.run c) = driven at hu hout
  obtain ⟨r, w'⟩ := driven
  have hperform : perform c w = (some ⟨result, r.notices.toList⟩, w') := by
    rw [perform, hdriven]
    dsimp only at hout ⊢
    rw [hout]
    rfl
  rw [hperform]
  refine ⟨r, result, rfl, ?_, hu⟩
  dsimp only [Run.outcome?] at hout
  split at hout
  · next htask =>
    cases hout
    exact htask
  · cases hout

/-- A write that is the first to fail settles what the feeding comes to. -/
theorem Delivery.of_first {before after : List Event} {e : Event} {error : IoError}
    {fed : Except Fault Nat} (h : Delivery c (before ++ e :: after) fed)
    (clear : ∀ b ∈ before, b.fails = false) (first : e.error? = some error) :
    fed = .error (.within (doing c (before.flatMap Event.carried)) (.io error)) := by
  generalize hsends : before ++ e :: after = sends at h
  cases h with
  | whole clear' =>
    have hno := clear' e (by rw [← hsends]; exact List.mem_append_right _ List.mem_cons_self)
    rw [Event.fails_of_error first] at hno
    cases hno
  | @broken before' after' e' error' clear' first' =>
    obtain ⟨htake, hdrop⟩ := Event.divides clear (Event.fails_of_error first) after
    obtain ⟨htake', hdrop'⟩ := Event.divides clear' (Event.fails_of_error first') after'
    rw [hsends] at htake hdrop
    obtain rfl := htake.symm.trans htake'
    obtain ⟨rfl, -⟩ := List.cons_eq_cons.1 (hdrop.symm.trans hdrop')
    rw [first] at first'
    cases first'
    rfl

/-- The values of a range are as far apart as they seem: none wraps around. -/
theorem map_toInt_values (c : Candidates) :
    c.values.map Int32.toInt = (List.range (c.stop.toInt - c.start.toInt).toNat).map
      fun i => c.start.toInt + Int.ofNat i := by
  rw [← c.firstValues_count, Candidates.firstValues, List.map_map]
  apply List.map_congr_left
  intro i hi
  exact c.toInt_value (List.mem_range.1 hi)

/-- The bytes behind the channel of a child are those it has accepted. -/
theorem accepts_eq {w : Surroundings} {events : List Event} (h : w.Linked (Account.ofTrace events))
    (hchild : (Account.ofTrace events).child = some child) :
    w.accepts child = events.flatMap Event.carried := by
  rw [← Account.sent_ofTrace]
  cases h with
  | none hk hc =>
    rw [hk] at hchild
    cases hchild
  | some hk hi hc hs =>
    obtain rfl := Option.some.inj (hk.symm.trans hchild)
    rw [Surroundings.accepts, Surroundings.channel_eq hi hc, hs]

/-- All that is accepted is accepted between launching the first stage and giving its channel
up. -/
theorem carried_trace (child : Child) (sends : List Event) (ended : Except Fault Unit) :
    (Event.launched (.ok child) :: sends ++ [.shut child, .reaped child ended] : List Event).flatMap
      Event.carried = sends.flatMap Event.carried := by
  simp [Event.carried]

theorem Sends.child_trace (h : Sends child sends) (ended : Except Fault Unit) :
    (Account.ofTrace (.launched (.ok child) :: sends ++
      [.shut child, .reaped child ended])).child = some child := by
  apply Account.child_ofTrace
  intro e he
  rcases List.mem_append.1 he with he | he
  · obtain ⟨accepted, reply, rfl⟩ := h e he
    rfl
  · rcases List.mem_cons.1 he with rfl | he
    · rfl
    · rw [List.mem_singleton.1 he]
      rfl

/-- What a feeder reports when no write to its channel has failed. -/
theorem Verdict.of_clear {fed result : Except Fault Nat} {ended : Except Fault Unit}
    {warnings : List Notice} (h : Verdict child fed ended result warnings)
    (hd : Delivery c sends fed) (clear : ∀ e ∈ sends, e.fails = false) {f : Fault}
    (hended : ended = .error f) :
    result = .error (.within ("First stage " ++ child.label) f) ∧ warnings = [] := by
  subst hended
  cases hd with
  | whole clear' =>
    cases h with
    | stage n f => exact ⟨rfl, rfl⟩
  | @broken before after e error clear' first =>
    have hno := clear e (List.mem_append_right _ List.mem_cons_self)
    rw [Event.fails_of_error first] at hno
    cases hno

/-- What a feeder reports when a write to its channel has failed. -/
theorem Verdict.of_fault {own : Fault} {error : IoError} {result : Except Fault Nat}
    {ended : Except Fault Unit} {warnings : List Notice}
    (hpipe : own.isBrokenPipe = true ↔ error.kind = .brokenPipe)
    (h : Verdict child (.error own) ended result warnings) :
    (ended = .ok () → result = .error own ∧ warnings = []) ∧
      ∀ f, ended = .error f →
        if error.kind = .brokenPipe then result = .error f ∧ warnings = []
        else result = .error own ∧ warnings = [.firstStageFailedToo child.label f] := by
  constructor
  · rintro rfl
    cases h with
    | own own => exact ⟨rfl, rfl⟩
  · rintro f rfl
    cases h with
    | gaveWay f broken =>
      rw [if_pos (hpipe.1 broken)]
      exact ⟨rfl, rfl⟩
    | kept f broken =>
      rw [← Bool.not_eq_true, hpipe] at broken
      rw [if_neg broken]
      exact ⟨rfl, rfl⟩

/-- However launching, the channel and the first stage behave, a feeder launches once. If there is
a first stage, all that its channel accepts, while values are sent and when it is given up after a
failure, is a beginning of the values of the range; the channel is given up once, and the stage is
reaped once and behind that. The run succeeds exactly if nothing has failed, and then it has fed
the whole range. Otherwise it reports the first write that has failed, or the end of the stage if
none has; and if both have, the end of the stage in place of a broken pipe, and with a warning
beside any other fault. -/
theorem perform_reports (c : Candidates) (w : Surroundings) (hw : Stage.Untouched w) :
    c.values.map Int32.toInt = (List.range (c.stop.toInt - c.start.toInt).toNat).map
        (fun i => c.start.toInt + Int.ofNat i) ∧
      ∃ result notices, (perform c w).1 = some ⟨result, notices⟩ ∧
      ((∃ f, (perform c w).2.trace.toList = [.launched (.error f)] ∧
          result = .error (.within "Spawning first stage" f) ∧ notices = []) ∨
        ∃ child sends ended warnings,
          (perform c w).2.trace.toList =
            .launched (.ok child) :: sends ++ [.shut child, .reaped child ended] ∧
          (∀ e ∈ sends, ∃ accepted reply, e = .sent child accepted reply) ∧
          (perform c w).2.accepts child = sends.flatMap Event.carried ∧
          sends.flatMap Event.carried <+: encodeAll c.values ∧
          notices = .feeding c.start c.stop child.label :: warnings ∧
          (result.isOk = true ↔ ∀ e ∈ (perform c w).2.trace.toList, e.fails = false) ∧
          (result.isOk = true → result = .ok (c.stop.toInt - c.start.toInt).toNat ∧
            sends.flatMap Event.carried = encodeAll c.values ∧ warnings = []) ∧
          ((∀ e ∈ sends, e.fails = false) → ∀ f, ended = .error f →
            result = .error (.within ("First stage " ++ child.label) f) ∧ warnings = []) ∧
          ∀ before e after error, sends = before ++ e :: after →
            (∀ b ∈ before, b.fails = false) → e.error? = some error →
            let own : Fault := .within (doing c (before.flatMap Event.carried)) (.io error)
            (ended = .ok () → result = .error own ∧ warnings = []) ∧
              ∀ f, ended = .error f →
                if error.kind = .brokenPipe then result = .error f ∧ warnings = []
                else result = .error own ∧
                  warnings = [.firstStageFailedToo child.label f]) := by
  obtain ⟨r, result, hperform, htask, hu⟩ := perform_finishes c hw
  refine ⟨map_toInt_values c, result, r.notices.toList, hperform, ?_⟩
  have hchronicle := hu.chronicle
  have hout : r.outcome? = some result := by rw [Run.outcome?, htask]
  obtain ⟨hok, hsuccess⟩ := Run.of_outcome hu.accords hout
  have hprefix := Run.sent_isPrefix hu.accords
  have hlinked := hu.linked
  rw [Account.sent_ofTrace] at hprefix hsuccess
  rw [htask] at hchronicle
  generalize (perform c w).2 = w' at hchronicle hok hsuccess hprefix hlinked ⊢
  generalize htrace : w'.trace.toList = trace at hchronicle hok hsuccess hprefix hlinked ⊢
  generalize r.notices.toList = notices at hchronicle ⊢
  cases hchronicle with
  | @refused f => exact .inl ⟨f, rfl, rfl, rfl⟩
  | @finished fed ended _ warnings child sends sent delivery verdict =>
    have hcarried := carried_trace child sends ended
    have hchild := sent.child_trace ended
    rw [hcarried] at hprefix hsuccess
    refine .inr ⟨child, sends, ended, warnings, rfl, sent, ?_, hprefix, rfl, ?_, ?_, ?_, ?_⟩
    · rw [accepts_eq hlinked hchild, hcarried]
    · rw [hok, Account.smooth_ofTrace]
    · intro hisOk
      obtain ⟨hresult, hsent, -⟩ := hsuccess (hok ▸ hisOk)
      refine ⟨hresult, hsent, ?_⟩
      rw [hresult] at verdict
      generalize hcounted : Except.ok c.count = counted at verdict
      cases verdict with
      | well n => rfl
      | _ => cases hcounted
    · exact fun clear f => verdict.of_clear delivery clear
    · rintro before e after error rfl clear first
      rw [delivery.of_first clear first] at verdict
      exact verdict.of_fault beq_iff_eq

/-- A channel that breaks behind six bytes of three values, and a first stage that has failed for a
reason of its own: the feeder, which has been closing the channel, reports the stage. -/
theorem perform_reports_broken_channel :
    let w : Surroundings :=
      { launches := [.started
          { sink := { barriers := [⟨6, .failures ⟨.brokenPipe, none⟩ rfl none⟩] }
            ending := some (.error (.channel "gone")) }] }
    ∃ sends, (perform ⟨2, 5⟩ w).2.trace.toList = .launched (.ok ⟨0, "mock"⟩) :: sends ++
        [.shut ⟨0, "mock"⟩, .reaped ⟨0, "mock"⟩ (.error (.channel "gone"))] ∧
      sends.flatMap Event.carried = [2, 0, 0, 0, 3, 0] ∧
      sends.flatMap Event.carried <+: encodeAll (Candidates.values ⟨2, 5⟩) ∧
      (perform ⟨2, 5⟩ w).1 = some ⟨.error (.channel "gone"), [.feeding 2 5 "mock"]⟩ := by
  intro w
  have hw : Stage.Untouched w := .of_child rfl rfl rfl rfl (Option.some_ne_none _)
  have htrace : (perform ⟨2, 5⟩ w).2.trace.toList =
      .launched (.ok ⟨0, "mock"⟩) ::
        [.sent ⟨0, "mock"⟩ [2, 0, 0, 0, 3, 0] (.took 6),
          .sent ⟨0, "mock"⟩ [] (.failed ⟨.brokenPipe, none⟩),
          .sent ⟨0, "mock"⟩ [] (.failed ⟨.brokenPipe, none⟩)] ++
        [.shut ⟨0, "mock"⟩, .reaped ⟨0, "mock"⟩ (.error (.channel "gone"))] := rfl
  obtain ⟨-, result, notices, hperform, hcase⟩ := perform_reports ⟨2, 5⟩ w hw
  rw [htrace] at hcase
  rw [hperform, htrace]
  rcases hcase with ⟨f, hrefused, -⟩ | ⟨child, sends, ended, warnings, hsame, -, -, hprefix,
    hnotices, -, -, -, hfault⟩
  · cases hrefused
  · obtain ⟨hlaunch, hrest⟩ := List.cons.inj hsame
    cases hlaunch
    obtain ⟨rfl, hend⟩ := List.append_inj' hrest rfl
    cases hend
    obtain ⟨-, hstage⟩ := hfault [.sent ⟨0, "mock"⟩ [2, 0, 0, 0, 3, 0] (.took 6)] _ _
      ⟨.brokenPipe, none⟩ rfl (by simp [Event.fails, Event.error?]) rfl
    obtain ⟨rfl, rfl⟩ := hstage (.channel "gone") rfl
    exact ⟨_, rfl, rfl, hprefix, by rw [hnotices]⟩

end Feeder

end SieveChain
