import SieveChain.Proofs.Chains
import SieveChain.Proofs.Driving
import SieveChain.Proofs.FeederAccount
import SieveChain.Proofs.Parties

/-!
# Schedules

A pipeline is a chain of stages behind a feeder, or behind whoever launches the first stage
and writes to it. Its parties take their turns in any order: one turn is one operation, such
as a single write to the record. Whatever the schedule, the record only ever holds a
beginning of the lines for the values that the stages own, and all schedules that complete
come to the same end.
-/

namespace SieveChain.Concurrent

open Record Stage Wire

/-- A turn in a pipeline. Bytes are written to the first stage from outside, and its channel
is given up there, if no feeder does so. -/
inductive Turn
  | feeder
  | stage (n : Nat)
  | finish (n : Nat)
  | write (bytes : List UInt8)
  | close

/-- What happens in a turn; every launch succeeds. -/
def Turn.action : Turn → System.Action
  | .feeder => .feeder 0 none
  | .stage n => .stage n none
  | .finish n => .finish n
  | .write bytes => .write 0 bytes
  | .close => .dropWriter 0

/-- Parties at work, and what has been written to the first stage from outside. -/
structure Pipeline where
  system : System
  written : List UInt8 := []

namespace Pipeline

/-- What the first stage's pipe accepts in a turn from outside. -/
def accepted (w : Pipeline) : Turn → List UInt8
  | .write bytes =>
    match w.system.offer 0 bytes with
    | some (reply, _) => Scripted.Surroundings.accepted bytes reply
    | none => []
  | _ => []

/-- Takes a turn, if it is possible. -/
def take (w : Pipeline) (turn : Turn) : Option Pipeline :=
  (w.system.perform turn.action).map fun system =>
    { system, written := w.written ++ w.accepted turn }

/-- Takes turns one after the other, if they are possible. -/
def follow (w : Pipeline) (schedule : List Turn) : Option Pipeline := schedule.foldlM take w

end Pipeline

/-- How the first stage is fed: with a range by a feeder, or with any bytes from outside. -/
inductive Feed
  | range (c : Candidates)
  | raw

namespace Feed

/-- How a pipeline begins. -/
def action : Feed → System.Action
  | .range c => .feed c
  | .raw => .launch none

/-- The values that a pipeline is fed with. -/
def values (written : List UInt8) : Feed → List Int32
  | .range c => c.values
  | .raw => Wire.values written

/-- What whoever waits for a pipeline learns when it succeeds: a feeder counts its values. -/
def Result : Feed → Type
  | .range _ => Nat
  | .raw => Unit

/-- The result of a pipeline that has succeeded. -/
def success : (feed : Feed) → feed.Result
  | .range c => c.count
  | .raw => ()

/-- The result of a pipeline that is complete: the feeder's own, or the verdict on the first
stage. -/
def outcome? (s : System) : (feed : Feed) → Option (Except Fault feed.Result)
  | .range _ => s.feeders[0]?.bind Feeder.Run.outcome?
  | .raw => s.verdict ⟨0, threadLabel 0⟩

end Feed

/-- What comes of a pipeline on a record with earlier contents. -/
def Pipeline.run (ceiling : Option Int32) (capacity : Option Nat) (record : Array UInt8)
    (feed : Feed) (schedule : List Turn) : Option Pipeline :=
  (({ ceiling, capacity, record } : System).perform feed.action).bind fun system =>
    Pipeline.follow { system } schedule

/-- The value that a launched stage owns. -/
def Job.prime? (job : Job) : Option Int32 := job.run.bind Stage.Run.prime?

/-- The values that the first stages own, in the order of the chain. -/
def System.owned (s : System) (n : Nat) : List Int32 := (s.jobs.toList.take n).filterMap Job.prime?

/-! ## Chains of accounts -/

/-- The accounts of a party and of the stages below it: each stage receives from what the one
above has sent, and says nothing else than what that calls for. -/
structure Strung (ceiling : Option Int32) (acc : Nat → Account) : Prop where
  received : ∀ i, (acc (i + 1)).received <+: (acc i).sent
  sound : ∀ i, Sound ceiling (acc (i + 1))

namespace Strung

variable {ceiling : Option Int32} {acc : Nat → Account}

/-- A party that has sent nothing has nothing behind it that would own, record or send
anything. -/
theorem silent (h : Strung ceiling acc) {i : Nat} (hs : (acc i).sent = []) :
    ownValue? ceiling (acc (i + 1)) = none ∧ (acc (i + 1)).recorded = [] ∧
      (acc (i + 1)).sent = [] := by
  have hreceived := h.received i
  rw [hs, List.prefix_nil] at hreceived
  have hvalues : Wire.values (acc (i + 1)).received = [] := by
    rw [hreceived]
    rfl
  have hchild : (acc (i + 1)).child = none := by
    rw [← Option.not_isSome_iff_eq_none]
    intro hk
    have howner := (h.sound i).owner hk
    rw [hvalues] at howner
    cases howner
  exact ⟨ownValue?_alone hchild, (h.sound i).alone hchild, (h.sound i).child hchild⟩

theorem quiet (h : Strung ceiling acc) {k : Nat} (hs : (acc k).sent = []) (i : Nat)
    (hi : k < i) : (acc i).recorded = [] := by
  have hall : (acc i).recorded = [] ∧ (acc i).sent = [] := by
    induction i with
    | zero => exact absurd hi (Nat.not_lt_zero k)
    | succ i ih =>
      by_cases hlast : i = k
      · rw [hlast]
        exact (h.silent hs).2
      · exact (h.silent (ih (by omega)).2).2
  exact hall.1

end Strung

/-! ## Parties that accord with their accounts -/

/-- The parties of a system have the accounts that their runs accord with, and no stage has
been reaped that goes on. -/
structure Together (ceiling : Option Int32) (base : List UInt8) (s : System)
    (acc : Nat → Account) : Prop where
  wired : Wired base s acc
  under : s.ceiling = ceiling
  stage : ∀ i (job : Job), s.jobs[i]? = some job →
    ∃ run, job.run = some run ∧ run.Accords ceiling (acc (i + 1)) ∧
      (job.ended = true → ∃ stage result, run = .finished stage result)
  reaped : ∀ i, (acc i).reaped = true → ∃ job, s.jobs[i]? = some job ∧ job.ended = true

variable {ceiling : Option Int32} {base : List UInt8} {s s' : System} {acc : Nat → Account}

namespace Together

theorem accords (h : Together ceiling base s acc) {i : Nat} (hi : i < s.jobs.size) :
    ∃ run : Stage.Run, run.Accords ceiling (acc (i + 1)) ∧ s.jobs[i].run = some run := by
  obtain ⟨run, hrun, hacc, -⟩ := h.stage i _ (Array.getElem?_eq_getElem hi)
  exact ⟨run, hacc, hrun⟩

theorem sound (h : Together ceiling base s acc) (i : Nat) : Sound ceiling (acc (i + 1)) := by
  by_cases hi : i < s.jobs.size
  · obtain ⟨run, hacc, -⟩ := h.accords hi
    exact Stage.Run.sound hacc
  · rw [h.wired.fresh (i + 1) (by omega)]
    exact Sound.of_bare ⟨rfl, rfl, rfl, rfl, rfl, rfl⟩ (Nat.zero_le 1)

theorem ended_of_left (h : Together ceiling base s acc) (i : Nat)
    (hl : (acc (i + 1)).left = true) : (acc (i + 1)).ended = true := by
  by_cases hi : i < s.jobs.size
  · obtain ⟨run, hacc, -⟩ := h.accords hi
    exact Stage.Run.ended_of_left hacc (h.wired.smooth _) hl
  · rw [h.wired.fresh (i + 1) (by omega)] at hl
    cases hl

theorem strung (h : Together ceiling base s acc) : Strung ceiling acc where
  received := by
    intro i
    by_cases hi : i < s.jobs.size
    · rw [← (h.wired.link i hi).bytes]
      exact List.prefix_append _ _
    · rw [h.wired.fresh (i + 1) (by omega)]
      exact List.nil_prefix
  sound := h.sound

theorem verdict_ok (h : Together ceiling base s acc) (child : Child)
    (result : Except Fault Unit) (hv : s.verdict child = some result) : result = .ok () := by
  obtain ⟨job, stage, report, hjob, -, hrun, rfl⟩ := System.verdict_eq_some hv
  obtain ⟨run, hrun', hacc, -⟩ := h.stage child.index job hjob
  rw [hrun, Option.some.injEq] at hrun'
  subst hrun'
  have hok := Stage.Run.isOk_of_finished hacc
  rw [h.wired.smooth] at hok
  cases report with
  | ok report => rfl
  | error f => cases hok

end Together

/-! ## What the record holds -/

/-- The values that the first stages own by their accounts. -/
def owners (ceiling : Option Int32) (acc : Nat → Account) (n : Nat) : List Int32 :=
  (List.range n).flatMap fun i => (ownValue? ceiling (acc (i + 1))).toList

theorem owners_succ (ceiling : Option Int32) (acc : Nat → Account) (n : Nat) :
    owners ceiling acc (n + 1) =
      owners ceiling acc n ++ (ownValue? ceiling (acc (n + 1))).toList := by
  rw [owners, List.range_succ, List.flatMap_append, List.flatMap_singleton]
  rfl

theorem lines_append (vs ws : List Int32) : lines (vs ++ ws) = lines vs ++ lines ws :=
  List.flatMap_append

/-- The line for what a stage owns, if it owns anything. -/
theorem lines_ownValue? {a : Account} (hk : a.child.isSome = true) :
    lines (ownValue? ceiling a).toList = ownLine ceiling (Wire.values a.received) := by
  rw [ownValue?, if_pos hk, ownLine]
  cases owned? ceiling (Wire.values a.received) with
  | none => rfl
  | some p => rw [Option.toList_some, lines, List.flatMap_singleton]

/-- A stage writes nothing but the line for what it owns, and all of it before it sends
anything. -/
theorem recorded_ownValue? {a : Account} (h : Sound ceiling a) :
    a.recorded <+: lines (ownValue? ceiling a).toList ∧
      (a.sent ≠ [] → a.recorded = lines (ownValue? ceiling a).toList) := by
  cases hk : a.child with
  | none =>
    rw [h.alone hk]
    exact ⟨List.nil_prefix, fun hs => absurd (h.child hk) hs⟩
  | some child =>
    have hline := @lines_ownValue? ceiling a (by rw [hk]; rfl)
    rw [hline]
    exact ⟨h.recorded, h.order⟩

namespace Strung

/-- The stages write a beginning of the lines for what they own, and these lines are complete
as far as anything has been sent. -/
theorem texts_owners (h : Strung ceiling acc) (n : Nat) :
    texts acc n <+: lines (owners ceiling acc n) ∧
      ((acc n).sent ≠ [] → texts acc n = lines (owners ceiling acc n)) := by
  induction n with
  | zero => exact ⟨List.prefix_refl _, fun _ => rfl⟩
  | succ n ih =>
    rw [texts_succ, owners_succ, lines_append]
    obtain ⟨hrecorded, hcomplete⟩ := recorded_ownValue? (h.sound n)
    by_cases hs : (acc n).sent = []
    · obtain ⟨hown, hrec, hsent⟩ := h.silent hs
      rw [hown, hrec, List.append_nil]
      exact ⟨ih.1.trans (List.prefix_append _ _), fun hn => absurd hsent hn⟩
    · rw [ih.2 hs]
      refine ⟨(List.prefix_append_right_inj _).2 hrecorded, fun hn => ?_⟩
      rw [hcomplete hn]

/-- Nothing is in flight that is not behind complete lines. -/
theorem length_owners (h : Strung ceiling acc) {n : Nat} (hn : (acc n).sent ≠ []) :
    (owners ceiling acc n).length = n := by
  induction n with
  | zero => rfl
  | succ n ih =>
    have hs : (acc n).sent ≠ [] := fun hs => hn (h.silent hs).2.2
    have hk : (acc (n + 1)).child.isSome = true := by
      rw [Option.isSome_iff_ne_none]
      exact fun hk => hn ((h.sound n).child hk)
    have hown : (ownValue? ceiling (acc (n + 1))).isSome = true := by
      rw [ownValue?, if_pos hk]
      exact (h.sound n).owner hk
    obtain ⟨p, hp⟩ := Option.isSome_iff_exists.1 hown
    rw [owners_succ, hp, List.length_append, ih hs]
    rfl

end Strung

namespace Together

theorem texts_owners (h : Together ceiling base s acc) (n : Nat) :
    texts acc n <+: lines (owners ceiling acc n) ∧
      ((acc n).sent ≠ [] → texts acc n = lines (owners ceiling acc n)) := h.strung.texts_owners n

theorem length_owners (h : Together ceiling base s acc) {n : Nat} (hn : (acc n).sent ≠ []) :
    (owners ceiling acc n).length = n := h.strung.length_owners hn

theorem owned_eq (h : Together ceiling base s acc) {n : Nat} (hn : n ≤ s.jobs.size) :
    s.owned n = owners ceiling acc n := by
  induction n with
  | zero => rfl
  | succ n ih =>
    obtain ⟨run, hacc, hrun⟩ := h.accords (Nat.lt_of_succ_le hn)
    have hget : s.jobs.toList[n]? = some s.jobs[n] := by
      rw [Array.getElem?_toList, Array.getElem?_eq_getElem (Nat.lt_of_succ_le hn)]
    have hprime : Job.prime? s.jobs[n] = ownValue? ceiling (acc (n + 1)) := by
      rw [Job.prime?, hrun]
      exact Stage.Run.prime?_eq hacc (h.wired.smooth _)
    have hprefix : (s.jobs.toList.take n).filterMap Job.prime? = owners ceiling acc n :=
      ih (Nat.le_of_succ_le hn)
    rw [owners_succ, System.owned, List.take_add_one, hget, List.filterMap_append, hprefix]
    rw [Option.toList_some, ← hprime]
    cases hp : Job.prime? s.jobs[n] with
    | none => rw [List.filterMap_cons_none hp]; rfl
    | some p => rw [List.filterMap_cons_some hp]; rfl

end Together

/-! ## Turns -/

/-- Runs and threads come and go without a change to what runs between them. -/
theorem Wired.of_jobs {t : System} (hw : Wired base s acc) (hpipes : t.pipes = s.pipes)
    (hrecord : t.record = s.record) (hsize : t.jobs.size = s.jobs.size)
    (hjob : ∀ i (job : Job), t.jobs[i]? = some job → job.pipe = i) : Wired base t acc where
  pipes := by rw [hpipes, hsize]; exact hw.pipes
  job := hjob
  link := by rw [hpipes, hsize]; exact hw.link
  child := by rw [hsize]; exact hw.child
  fresh := by rw [hsize]; exact hw.fresh
  smooth := hw.smooth
  record := by rw [hrecord, hsize]; exact hw.record

/-- After a change to one job, every job is that one or stands where it stood. -/
theorem job_of_modify {jobs : Array Job} {f : Job → Job} {n i : Nat} {job : Job}
    (h : (jobs.modify n f)[i]? = some job) :
    (i = n ∧ ∃ old, jobs[i]? = some old ∧ job = f old) ∨ (i ≠ n ∧ jobs[i]? = some job) := by
  rw [Array.getElem?_modify] at h
  split at h
  · next hi =>
    obtain ⟨old, hold, rfl⟩ := Option.map_eq_some_iff.1 h
    exact .inl ⟨hi.symm, old, hold, rfl⟩
  · next hi => exact .inr ⟨fun he => hi he.symm, h⟩

/-- What has finished stays so after a change to one job that respects this. -/
theorem ended_modify {jobs : Array Job} {f : Job → Job} (n : Nat)
    (hf : ∀ job : Job, job.ended = true → (f job).ended = true) {i : Nat}
    (h : ∃ job, jobs[i]? = some job ∧ job.ended = true) :
    ∃ job, (jobs.modify n f)[i]? = some job ∧ job.ended = true := by
  obtain ⟨job, hjob, hended⟩ := h
  rw [Array.getElem?_modify, hjob]
  split
  · exact ⟨f job, rfl, hf job hended⟩
  · exact ⟨job, rfl, hended⟩

/-- A change to one job that keeps its pipe is no change to what runs between the parties. -/
theorem Wired.modify (hw : Wired base s acc) {t : System} (n : Nat) {f : Job → Job}
    (hf : ∀ job : Job, (f job).pipe = job.pipe) (hpipes : t.pipes = s.pipes)
    (hrecord : t.record = s.record) (hjobs : t.jobs = s.jobs.modify n f) : Wired base t acc := by
  refine hw.of_jobs hpipes hrecord (by rw [hjobs, Array.size_modify]) fun i job hj => ?_
  rw [hjobs] at hj
  rcases job_of_modify hj with ⟨rfl, old, hold, rfl⟩ | ⟨-, hj⟩
  · rw [hf]
    exact hw.job i old hold
  · exact hw.job i job hj

namespace Moved

variable {k : Nat} {e : Option Event} {t : System}

theorem job_of (hm : Moved base s acc k e t) {i : Nat} {job : Job} (h : s.jobs[i]? = some job) :
    t.jobs[i]? = some job := by
  have hi := (Array.getElem?_eq_some_iff.1 h).1
  rcases hm.jobs with hj | hj
  · rw [hj, h]
  · rw [hj, Array.getElem?_push_lt hi, ← Array.getElem?_eq_getElem hi, h]

theorem job_or (hm : Moved base s acc k e t) {i : Nat} {job : Job} (h : t.jobs[i]? = some job) :
    s.jobs[i]? = some job ∨
      i = s.jobs.size ∧ job.run = some (.start (Stage.new s.ceiling)) ∧ job.ended = false := by
  rcases hm.jobs with hj | hj
  · rw [hj] at h
    exact .inl h
  · rw [hj, Array.getElem?_push] at h
    split at h
    · next hi =>
      cases h
      exact .inr ⟨hi, rfl, rfl⟩
    · exact .inl h

/-- The other stages go on to accord with their accounts, and so does a new one. -/
theorem stage (hm : Moved base s acc k e t) (h : Together ceiling base s acc) {i : Nat}
    (hi : i + 1 ≠ k) {job : Job} (hj : t.jobs[i]? = some job) :
    ∃ run, job.run = some run ∧
      run.Accords ceiling (Function.update acc k ((acc k).after e) (i + 1)) ∧
      (job.ended = true → ∃ stage result, run = .finished stage result) := by
  rw [Function.update_of_ne hi]
  rcases hm.job_or hj with hj | ⟨rfl, hrun, hended⟩
  · exact h.stage i job hj
  · refine ⟨_, hrun, ?_, fun he => ?_⟩
    · rw [h.wired.fresh _ (Nat.lt_succ_self _), h.under]
      exact Stage.Run.accords_start ceiling
    · rw [hended] at he
      cases he

theorem reaped_ended (hm : Moved base s acc k e t) (h : Together ceiling base s acc) (i : Nat)
    (hr : (Function.update acc k ((acc k).after e) i).reaped = true) :
    ∃ job, t.jobs[i]? = some job ∧ job.ended = true := by
  have hbefore : ∃ job, s.jobs[i]? = some job ∧ job.ended = true := by
    by_cases hi : i = k
    · subst hi
      rw [Function.update_self] at hr
      rcases hm.reaped hr with hr | hended
      · exact h.reaped i hr
      · exact hended
    · rw [Function.update_of_ne hi] at hr
      exact h.reaped i hr
  obtain ⟨job, hjob, hended⟩ := hbefore
  exact ⟨job, hm.job_of hjob, hended⟩

end Moved

namespace Together

/-- What the first stage is fed by goes on, or nothing has changed there. -/
theorem of_head (h : Together ceiling base s acc) {e : Option Event} {t : System}
    (hm : Moved base s acc 0 e t) : Together ceiling base t
      (Function.update acc 0 ((acc 0).after e)) where
  wired := hm.wired
  under := hm.ceiling.trans h.under
  stage := fun _ _ hj => hm.stage h (Nat.succ_ne_zero _) hj
  reaped := hm.reaped_ended h

/-- A turn of a stage. -/
theorem stage_turn (h : Together ceiling base s acc) {n : Nat}
    (hp : s.perform (.stage n none) = some s') :
    ∃ a', Together ceiling base s' (Function.update acc (n + 1) a') ∧ s'.feeders = s.feeders ∧
      s'.writers = s.writers := by
  rw [System.perform] at hp
  split at hp
  · next pipe run hjob =>
    obtain ⟨⟨q, t⟩, hanswer, heq⟩ := Option.map_eq_some_iff.1 hp
    have hn := (Array.getElem?_eq_some_iff.1 hjob).1
    obtain ⟨run', hrun, hacc, -⟩ := h.stage n _ hjob
    cases hrun
    have hpipe : pipe = n := h.wired.job n _ hjob
    obtain ⟨e, hm, hmoved⟩ := h.wired.answer (Nat.succ_le_of_lt hn) (Stage.Run.permitted hacc)
      (fun m hm => by cases hm; rw [hpipe]) (fun _ _ _ => Nat.succ_pos n)
      (h.ended_of_left (n + 1)) h.strung.quiet h.verdict_ok hanswer
    have hq := Stage.Run.accords_step hacc hm
    cases heq
    refine ⟨(acc (n + 1)).after e, ⟨?_, hmoved.ceiling.trans h.under, ?_, ?_⟩, hmoved.feeders,
      hmoved.writers⟩
    · exact hmoved.wired.modify n (f := fun job => { job with run := some q }) (fun _ => rfl) rfl
        rfl rfl
    · intro i job hj
      rcases job_of_modify hj with ⟨rfl, old, hold, rfl⟩ | ⟨hi, hj⟩
      · rw [hmoved.job_of hjob] at hold
        cases hold
        refine ⟨q, rfl, ?_, fun he => (Bool.false_ne_true he).elim⟩
        rw [Function.update_self]
        exact hq
      · exact hmoved.stage h (fun he => hi (Nat.succ.inj he)) hj
    · intro i hr
      exact ended_modify n (f := fun job => { job with run := some q }) (fun _ he => he)
        (hmoved.reaped_ended h i hr)
  · cases hp

/-- A thread finishes. -/
theorem finish_turn (h : Together ceiling base s acc) {n : Nat}
    (hp : s.perform (.finish n) = some s') :
    Together ceiling base s' acc ∧ s'.feeders = s.feeders ∧ s'.writers = s.writers := by
  rw [System.perform] at hp
  split at hp
  · next pipe stage result hjob =>
    cases hp
    refine ⟨⟨?_, h.under, ?_, ?_⟩, rfl, rfl⟩
    · exact h.wired.modify n (f := fun job => { job with ended := true }) (fun _ => rfl) rfl rfl rfl
    · intro i job hj
      rcases job_of_modify hj with ⟨rfl, old, hold, rfl⟩ | ⟨-, hj⟩
      · rw [hjob] at hold
        cases hold
        obtain ⟨run, hrun, hacc, -⟩ := h.stage i _ hjob
        cases hrun
        exact ⟨_, rfl, hacc, fun _ => ⟨stage, result, rfl⟩⟩
      · exact h.stage i job hj
    · intro i hr
      exact ended_modify n (f := fun job => { job with ended := true }) (fun _ _ => rfl)
        (h.reaped i hr)
  · cases hp

end Together

/-! ## What feeds the first stage -/

/-- What feeds the first stage accords with its account. -/
def Feed.Accords (w : Pipeline) (a : Account) : Feed → Prop
  | .range c =>
    w.system.writers = [] ∧ ∃ run, w.system.feeders[0]? = some run ∧ run.Accords c a
  | .raw =>
    w.system.feeders = #[] ∧ w.system.writers = (if a.shut then [] else [0]) ∧
      a.sent = w.written ∧ a.child.isSome = true

theorem Feed.Accords.of_eq {feed : Feed} {w w' : Pipeline} {a : Account} (h : feed.Accords w a)
    (hf : w'.system.feeders = w.system.feeders) (hw : w'.system.writers = w.system.writers)
    (hs : w'.written = w.written) : feed.Accords w' a := by
  cases feed with
  | range c =>
    rw [Feed.Accords, hf, hw]
    exact h
  | raw =>
    rw [Feed.Accords, hf, hw, hs]
    exact h

/-- Only in a pipeline without a feeder is the channel to the first stage held outside. -/
theorem Feed.Accords.of_writer {feed : Feed} {w : Pipeline} {a : Account}
    (h : feed.Accords w a) (hw : 0 ∈ w.system.writers) :
    feed = .raw ∧ w.system.feeders = #[] ∧ w.system.writers = [0] ∧ a.shut = false ∧
      a.sent = w.written ∧ a.child.isSome = true := by
  cases feed with
  | range c =>
    rw [h.1] at hw
    exact absurd hw List.not_mem_nil
  | raw =>
    obtain ⟨hfeeders, hwriters, hsent, hk⟩ := h
    cases hshut : a.shut with
    | true =>
      rw [hwriters, hshut, if_pos rfl] at hw
      exact absurd hw List.not_mem_nil
    | false =>
      rw [hshut, if_neg Bool.false_ne_true] at hwriters
      exact ⟨rfl, hfeeders, hwriters, rfl, hsent, hk⟩

/-- The feeder, the stages, and their accounts are in accord. -/
def Pipeline.Kept (ceiling : Option Int32) (base : List UInt8) (feed : Feed) (w : Pipeline) :
    Prop :=
  ∃ acc, Together ceiling base w.system acc ∧ feed.Accords w (acc 0)

theorem Together.of_rest {t : System} (h : Together ceiling base s acc)
    (hceiling : t.ceiling = s.ceiling) (hpipes : t.pipes = s.pipes) (hjobs : t.jobs = s.jobs)
    (hrecord : t.record = s.record) : Together ceiling base t acc where
  wired := h.wired.of_jobs hpipes hrecord (by rw [hjobs]) (by rw [hjobs]; exact h.wired.job)
  under := hceiling.trans h.under
  stage := by rw [hjobs]; exact h.stage
  reaped := by rw [hjobs]; exact h.reaped

/-- A turn of the feeder. -/
theorem Together.feeder_turn (h : Together ceiling base s acc) {c : Candidates}
    {run : Feeder.Run} (hrun : s.feeders[0]? = some run) (hacc : run.Accords c (acc 0))
    (hp : s.perform (.feeder 0 none) = some s') :
    ∃ a' q, Together ceiling base s' (Function.update acc 0 a') ∧ s'.feeders[0]? = some q ∧
      q.Accords c a' ∧ s'.writers = s.writers := by
  rw [System.perform, hrun] at hp
  obtain ⟨⟨q, t⟩, hanswer, heq⟩ := Option.map_eq_some_iff.1 hp
  cases heq
  obtain ⟨e, hm, hmoved⟩ := h.wired.answer (Nat.zero_le _) (Feeder.Run.permitted hacc)
    (fun _ hn => by cases hn) (fun bytes next he => absurd he (run.move_ne_record bytes next))
    (h.ended_of_left 0) h.strung.quiet h.verdict_ok hanswer
  refine ⟨(acc 0).after e, q, (h.of_head hmoved).of_rest rfl rfl rfl rfl, ?_,
    Feeder.Run.accords_step hacc hm, hmoved.writers⟩
  show (t.feeders.modify 0 _)[0]? = some q
  rw [Array.getElem?_modify, hmoved.feeders, hrun]
  rfl

/-- Whoever writes from outside sends to the first stage, as a feeder would. -/
theorem Together.write_turn (h : Together ceiling base s acc) (hk : (acc 0).child.isSome = true)
    (hshut : (acc 0).shut = false) {bytes : List UInt8} {reply : WriteReply}
    (ho : s.offer 0 bytes = some (reply, s')) :
    Together ceiling base s' (Function.update acc 0
        { acc 0 with
          sent := (acc 0).sent ++ Scripted.Surroundings.accepted bytes reply }) ∧
      s'.feeders = s.feeders ∧ s'.writers = s.writers := by
  obtain ⟨child, hchild⟩ := Option.isSome_iff_exists.1 hk
  obtain ⟨hlt, -, -⟩ := h.wired.child_at (Nat.zero_le _) hchild
  by_cases hne : bytes = []
  · subst hne
    rw [System.offer_nil (h.wired.writer_held hlt hshut)] at ho
    cases ho
    have hmoved : Moved base s acc 0 none
        { s with pipes := s.pipes.set 0 (s.pipes.get 0) } := by
      refine ⟨?_, rfl, rfl, rfl, .inl rfl, .inl⟩
      refine h.wired.rewire (Nat.zero_le _) Pipes.size_set ?_ ?_ ?_ rfl rfl rfl
      · intro _
        rw [Pipes.get_set (h.wired.lt_pipes hlt)]
        exact h.wired.link 0 hlt
      · exact fun n hn => absurd hn (Nat.zero_ne_add_one n)
      · exact fun i hi _ => Pipes.get_set_of_ne hi
    have hsame : (acc 0).sent ++ Scripted.Surroundings.accepted [] (.took 0) = (acc 0).sent :=
      List.append_nil _
    rw [hsame]
    exact ⟨h.of_head hmoved, rfl, rfl⟩
  · obtain ⟨n, pipes, hn, rfl, rfl, hwired⟩ :=
      h.wired.send hlt hshut (h.ended_of_left 0) hne ho
    have hmoved : Moved base s acc 0
        (some (.sent child (Scripted.Surroundings.accepted bytes (.took (n + 1)))
          (.took (n + 1)))) { s with pipes } := by
      refine ⟨?_, rfl, rfl, rfl, .inl rfl, .inl⟩
      rw [Account.after, Account.add_sent_took]
      exact hwired
    have htogether := h.of_head hmoved
    rw [Account.after, Account.add_sent_took] at htogether
    exact ⟨htogether, rfl, rfl⟩

theorem Together.close_turn (h : Together ceiling base s acc) (hk : (acc 0).child.isSome = true)
    (hshut : (acc 0).shut = false) :
    Together ceiling base { s with pipes := (s.pipes.dropWriter 0).2 }
      (Function.update acc 0 { acc 0 with shut := true }) := by
  obtain ⟨child, hchild⟩ := Option.isSome_iff_exists.1 hk
  obtain ⟨hlt, -, -⟩ := h.wired.child_at (Nat.zero_le _) hchild
  have hmoved : Moved base s acc 0 (some (.shut child))
      { s with pipes := (s.pipes.dropWriter 0).2 } :=
    ⟨h.wired.shut hlt hshut, rfl, rfl, rfl, .inl rfl, .inl⟩
  exact h.of_head hmoved

namespace Pipeline

variable {feed : Feed} {w w' : Pipeline}

/-- Every turn keeps the parties in accord with their accounts. -/
theorem Kept.take (h : Kept ceiling base feed w) {turn : Turn} (ht : w.take turn = some w') :
    Kept ceiling base feed w' := by
  obtain ⟨acc, htogether, hfeed⟩ := h
  obtain ⟨t, hperform, rfl⟩ := Option.map_eq_some_iff.1 ht
  cases turn with
  | stage n =>
    obtain ⟨a', htogether', hfeeders, hwriters⟩ := htogether.stage_turn hperform
    refine ⟨_, htogether', ?_⟩
    rw [Function.update_of_ne (Nat.succ_ne_zero n).symm]
    exact hfeed.of_eq hfeeders hwriters (List.append_nil _)
  | finish n =>
    obtain ⟨htogether', hfeeders, hwriters⟩ := htogether.finish_turn hperform
    exact ⟨acc, htogether', hfeed.of_eq hfeeders hwriters (List.append_nil _)⟩
  | feeder =>
    cases feed with
    | range c =>
      obtain ⟨hwriters, run, hrun, hacc⟩ := hfeed
      obtain ⟨a', q, htogether', hq, hqacc, hwriters'⟩ := htogether.feeder_turn hrun hacc hperform
      refine ⟨_, htogether', hwriters'.trans hwriters, q, hq, ?_⟩
      rw [Function.update_self]
      exact hqacc
    | raw =>
      rw [Turn.action, System.perform, hfeed.1] at hperform
      cases hperform
  | write bytes =>
    rw [Turn.action, System.perform] at hperform
    split at hperform
    · next hheld =>
      obtain ⟨rfl, hfeeders, hwriters, hshut, hsent, hk⟩ := hfeed.of_writer hheld
      obtain ⟨⟨reply, t'⟩, hoffer, heq⟩ := Option.map_eq_some_iff.1 hperform
      obtain rfl : t' = t := heq
      obtain ⟨htogether', hfeeders', hwriters'⟩ := htogether.write_turn hk hshut hoffer
      have haccepted : w.accepted (.write bytes) =
          Scripted.Surroundings.accepted bytes reply := by
        rw [accepted, hoffer]
      refine ⟨_, htogether', hfeeders'.trans hfeeders, ?_, ?_, ?_⟩
      · rw [Function.update_self, if_neg (by rw [hshut]; exact Bool.false_ne_true)]
        exact hwriters'.trans hwriters
      · rw [Function.update_self, haccepted, ← hsent]
      · rw [Function.update_self]
        exact hk
    · cases hperform
  | close =>
    rw [Turn.action, System.perform] at hperform
    split at hperform
    · next hheld =>
      obtain ⟨rfl, hfeeders, hwriters, hshut, hsent, hk⟩ := hfeed.of_writer hheld
      have htogether' := htogether.close_turn hk hshut
      cases hperform
      refine ⟨_, htogether'.of_rest rfl rfl rfl rfl, hfeeders, ?_, ?_, ?_⟩
      · rw [Function.update_self, if_pos rfl]
        show w.system.writers.erase 0 = []
        rw [hwriters]
        rfl
      · rw [Function.update_self]
        exact hsent.trans (List.append_nil _).symm
      · rw [Function.update_self]
        exact hk
    · cases hperform

/-- Every schedule keeps the parties in accord with their accounts. -/
theorem Kept.follow (h : Kept ceiling base feed w) {schedule : List Turn}
    (hf : w.follow schedule = some w') : Kept ceiling base feed w' := by
  induction schedule generalizing w with
  | nil =>
    cases hf
    exact h
  | cons turn schedule ih =>
    rw [Pipeline.follow, List.foldlM_cons] at hf
    obtain ⟨w'', ht, hrest⟩ := Option.bind_eq_some_iff.1 hf
    exact ih (h.take ht) hrest

end Pipeline

/-- Before anything runs, all accounts are empty. -/
theorem together_idle (ceiling : Option Int32) (capacity : Option Nat) (record : Array UInt8)
    (feeders : Array Feeder.Run) :
    Together ceiling record.toList { ceiling, capacity, record, feeders } fun _ => {} where
  wired :=
    { pipes := rfl
      job := fun _ _ h => by cases h
      link := fun _ h => absurd h (Nat.not_lt_zero _)
      child := fun _ _ => rfl
      fresh := fun _ _ => rfl
      smooth := fun _ => rfl
      record := (List.append_nil _).symm }
  under := rfl
  stage := fun _ _ h => by cases h
  reaped := fun _ h => by cases h

theorem Pipeline.kept_begin {capacity : Option Nat} {record : Array UInt8} {feed : Feed}
    (h : ({ ceiling, capacity, record } : System).perform feed.action = some s) :
    Kept ceiling record.toList feed { system := s } := by
  cases feed with
  | range c =>
    cases h
    exact ⟨_, together_idle ceiling capacity record _, rfl, Feeder.run c, rfl,
      Feeder.Run.accords_start c⟩
  | raw =>
    have hidle := together_idle ceiling capacity record #[]
    generalize hfresh : ({ ceiling, capacity, record } : System) = fresh at h hidle
    obtain ⟨-, hwired⟩ := hidle.wired.launch (Nat.zero_le _) rfl rfl rfl
    have hmoved : Moved record.toList fresh (fun _ => {}) 0
        (some (.launched (fresh.launch none).1)) (fresh.launch none).2 :=
      ⟨hwired, rfl, rfl, rfl, .inr rfl, .inl⟩
    have htogether := hidle.of_head hmoved
    subst hfresh
    cases h
    exact ⟨_, htogether.of_rest rfl rfl rfl rfl, rfl, rfl, rfl, rfl⟩

/-! ## What has come of a pipeline in the end -/

/-- A stage keeps its own value, and sieving goes on with what it hands on. -/
theorem sieve_step (ceiling : Option Int32) (vs : List Int32) :
    sieve ceiling vs = (owned? ceiling vs).toList ++ sieve ceiling (handedOn ceiling vs) := by
  have hsame := @keptUnder_same id fun _ => rfl
  have hstep := Chain.keptUnder_step id ceiling vs
  rwa [hsame, hsame] at hstep

namespace Together

/-- The account of a stage whose thread has finished, on all that has been sent to it. If it
has a child, the child's thread has finished too. -/
theorem finished (h : Together ceiling base s acc) {i : Nat} {job : Job}
    (hjob : s.jobs[i]? = some job) (hended : job.ended = true) :
    Fulfilled ceiling (acc (i + 1)) ∧ (acc (i + 1)).received = (acc i).sent ∧
      (i + 1 < s.jobs.size → ∃ job, s.jobs[i + 1]? = some job ∧ job.ended = true) := by
  have hi := (Array.getElem?_eq_some_iff.1 hjob).1
  obtain ⟨run, -, hacc, hfinished⟩ := h.stage i job hjob
  obtain ⟨stage, result, rfl⟩ := hfinished hended
  have hok := Stage.Run.isOk_of_finished hacc
  rw [h.wired.smooth] at hok
  have hful := Stage.Run.fulfilled hacc hok
  have hlink := h.wired.link i hi
  have hpending := (hlink.ended hful.ended).2
  refine ⟨hful, ?_, fun hlt => ?_⟩
  · have hbytes := hlink.bytes
    rwa [hpending, List.append_nil] at hbytes
  · have hchild := h.wired.child (i + 1) (Nat.le_of_lt hlt)
    rw [if_pos hlt] at hchild
    exact h.reaped (i + 1) (Stage.Run.reaped_of_finished hacc (by rw [hchild]; rfl))

/-- From a stage whose thread has finished on, the chain has sieved what that stage has been
sent: as many stages as values have been kept, and one more, have been launched, and each has
written the whole line for what it owns. -/
theorem sieved (h : Together ceiling base s acc) (m i : Nat) (hm : i + 1 + m = s.jobs.size)
    (hdone : ∃ job, s.jobs[i]? = some job ∧ job.ended = true) :
    texts acc s.jobs.size =
        texts acc i ++ lines (sieve ceiling (Wire.values (acc i).sent)) ∧
      m = (sieve ceiling (Wire.values (acc i).sent)).length := by
  -- From the end of the chain upwards: `m` stages stand below stage `i`.
  induction m generalizing i with
  | zero =>
    obtain ⟨job, hjob, hended⟩ := hdone
    obtain ⟨hful, hreceived, -⟩ := h.finished hjob hended
    have hchild := h.wired.child (i + 1) (by omega)
    rw [if_neg (by omega)] at hchild
    have hown := hful.child
    rw [hchild, hreceived] at hown
    have hnone : owned? ceiling (Wire.values (acc i).sent) = none :=
      Option.not_isSome_iff_eq_none.1 fun hs => by rw [hs] at hown; cases hown
    have hkept : sieve ceiling (Wire.values (acc i).sent) = [] := by
      rw [sieve_step, hnone, handedOn_idle hnone, sieve]
      rfl
    rw [hkept, ← hm, Nat.add_zero, texts_succ, hful.recorded, hreceived, ownLine_idle hnone]
    exact ⟨rfl, rfl⟩
  | succ m ih =>
    obtain ⟨job, hjob, hended⟩ := hdone
    obtain ⟨hful, hreceived, hnext⟩ := h.finished hjob hended
    have hchild := h.wired.child (i + 1) (by omega)
    rw [if_pos (by omega)] at hchild
    have hown := hful.child
    rw [hchild, hreceived] at hown
    obtain ⟨p, hp⟩ := Option.isSome_iff_exists.1 hown.symm
    obtain ⟨htexts, hlength⟩ := ih (i + 1) (by omega) (hnext (by omega))
    rw [hful.sent, values_encodeAll, hreceived] at htexts hlength
    have hline : (acc (i + 1)).recorded = lineBytes p := by
      rw [hful.recorded, hreceived, ownLine, hp]
    have hlines : lines (p :: sieve ceiling (handedOn ceiling (Wire.values (acc i).sent))) =
        lineBytes p ++ lines (sieve ceiling (handedOn ceiling (Wire.values (acc i).sent))) := rfl
    rw [sieve_step, hp, htexts, texts_succ, hline, List.append_assoc, Option.toList_some,
      List.singleton_append, List.length_cons, hlines]
    exact ⟨rfl, by rw [hlength]⟩

end Together

/-- A pipeline that has come to its end has succeeded, and its first stage's thread has
finished after all values had been sent to it. -/
theorem Feed.completed {feed : Feed} {w : Pipeline} {result : Except Fault feed.Result}
    (h : Together ceiling base w.system acc) (hfeed : feed.Accords w (acc 0))
    (ho : feed.outcome? w.system = some result) :
    result = .ok feed.success ∧ Wire.values (acc 0).sent = feed.values w.written ∧
      ∃ job, w.system.jobs[0]? = some job ∧ job.ended = true := by
  cases feed with
  | range c =>
    obtain ⟨-, run, hrun, hacc⟩ := hfeed
    have hout : run.outcome? = some result := by
      rw [outcome?, hrun] at ho
      exact ho
    obtain ⟨-, hgood⟩ := Feeder.Run.of_outcome hacc hout
    obtain ⟨hresult, hsent, hchild, -⟩ := hgood (h.wired.smooth 0)
    refine ⟨hresult, ?_, h.reaped 0 (Feeder.Run.reaped_of_finished hacc hout hchild)⟩
    rw [hsent]
    exact values_encodeAll _
  | raw =>
    obtain ⟨-, -, hsent, -⟩ := hfeed
    obtain ⟨job, stage, report, hjob, hended, -, -⟩ := System.verdict_eq_some ho
    exact ⟨h.verdict_ok _ _ ho, by rw [hsent]; rfl, job, hjob, hended⟩

/-- All that a pipeline has written and launched when it has come to its end. -/
theorem Feed.sieved {feed : Feed} {w : Pipeline} {result : Except Fault feed.Result}
    (h : Together ceiling base w.system acc) (hfeed : feed.Accords w (acc 0))
    (ho : feed.outcome? w.system = some result) :
    result = .ok feed.success ∧
      texts acc w.system.jobs.size = lines (sieve ceiling (feed.values w.written)) ∧
      w.system.counters.launched = (sieve ceiling (feed.values w.written)).length + 1 := by
  obtain ⟨hresult, hvalues, hdone⟩ := Feed.completed h hfeed ho
  have hpos : 0 < w.system.jobs.size := by
    obtain ⟨job, hjob, -⟩ := hdone
    exact (Array.getElem?_eq_some_iff.1 hjob).1
  obtain ⟨htexts, hlength⟩ := h.sieved (w.system.jobs.size - 1) 0 (by omega) hdone
  rw [hvalues] at htexts hlength
  have hcount : w.system.counters.launched = w.system.jobs.size := rfl
  exact ⟨hresult, htexts, by omega⟩

/-- Whatever the schedule, the record has only gained a beginning of the lines for the values
that the stages own, in the order of the chain; if anything is in flight behind a stage, the
lines up to its own are complete. Every schedule that completes comes to the same result, has
written the lines for what the sieve keeps, and has launched one stage more than that. -/
theorem Pipeline.run_any_schedule {ceiling : Option Int32} {capacity : Option Nat}
    {record : Array UInt8} {feed : Feed} {schedule : List Turn} {w : Pipeline}
    (h : Pipeline.run ceiling capacity record feed schedule = some w) :
    ∃ text, w.system.record.toList = record.toList ++ text ∧
      text <+: lines (w.system.owned w.system.jobs.size) ∧
      (∀ n, (w.system.pipes.get (n + 1)).pending ≠ [] →
        (w.system.owned (n + 1)).length = n + 1 ∧ lines (w.system.owned (n + 1)) <+: text) ∧
      ∀ result, feed.outcome? w.system = some result →
        result = .ok feed.success ∧
          text = lines (sieve ceiling (feed.values w.written)) ∧
          w.system.counters.launched =
            (sieve ceiling (feed.values w.written)).length + 1 := by
  obtain ⟨s, hbegin, hfollow⟩ := Option.bind_eq_some_iff.1 h
  obtain ⟨acc, htogether, hfeed⟩ := (Pipeline.kept_begin hbegin).follow hfollow
  refine ⟨texts acc w.system.jobs.size, htogether.wired.record, ?_, ?_, ?_⟩
  · rw [htogether.owned_eq (Nat.le_refl _)]
    exact (htogether.texts_owners _).1
  · intro n hpending
    have hn : n + 1 < w.system.jobs.size := by
      by_contra hle
      rw [Pipes.get_of_le (by rw [htogether.wired.pipes]; omega)] at hpending
      exact hpending rfl
    have hsent : (acc (n + 1)).sent ≠ [] := by
      rw [← (htogether.wired.link (n + 1) hn).bytes]
      exact fun hz => hpending (List.append_eq_nil_iff.1 hz).2
    rw [htogether.owned_eq (Nat.le_of_lt hn), ← (htogether.texts_owners (n + 1)).2 hsent]
    exact ⟨htogether.length_owners hsent, texts_mono acc (Nat.le_of_lt hn)⟩
  · intro result ho
    exact Feed.sieved htogether hfeed ho

/-- A schedule that lets a feeder and two stages come to their end over pipes of three bytes. -/
theorem Pipeline.run_any_schedule_three_bytes :
    ∃ schedule w, Pipeline.run none (some 3) #[] (.range ⟨2, 3⟩) schedule = some w ∧
      w.system.record.toList = lines [2] ∧ w.system.counters.launched = 2 := by
  let schedule : List Turn :=
    [.feeder, .feeder, .feeder, .stage 0, .feeder, .feeder, .stage 0, .stage 0, .stage 0, .stage 0,
      .stage 0, .stage 0, .stage 0, .stage 0, .stage 0, .stage 0, .stage 0, .stage 0, .stage 1,
      .stage 1, .stage 1, .finish 1, .stage 0, .stage 0, .stage 0, .finish 0, .feeder]
  let feed : Feed := .range ⟨2, 3⟩
  have hends : ((Pipeline.run none (some 3) #[] feed schedule).bind fun w =>
      feed.outcome? w.system).isSome = true := by decide +kernel
  -- It is enough to evaluate that the schedule completes: what it comes to is the theorem's.
  cases h : Pipeline.run none (some 3) #[] feed schedule with
  | none =>
    rw [h] at hends
    cases hends
  | some w =>
    rw [h] at hends
    obtain ⟨result, hresult⟩ := Option.isSome_iff_exists.1 hends
    obtain ⟨text, hrecord, -, -, hend⟩ := Pipeline.run_any_schedule h
    obtain ⟨-, htext, hcount⟩ := hend result hresult
    have hvalues : feed.values w.written = [2] := rfl
    have hkept : sieve none [2] = [2] := by
      rw [sieve, if_pos (by decide), withoutMultiples, List.filter_nil, sieve]
    rw [hvalues, hkept] at htext hcount
    refine ⟨schedule, w, h, ?_, hcount⟩
    rw [hrecord, htext]
    rfl

end SieveChain.Concurrent
