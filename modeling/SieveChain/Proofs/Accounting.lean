import SieveChain.Proofs.Chronicles
import Mathlib.Data.List.Basic
import Mathlib.Logic.Relation

/-!
# What the counters say

The counters of a system are kept by adding and taking away. Each agrees with what can be
counted in the system itself: the ends of pipes that are held, whoever holds them, and the
threads that have not finished. A stage whose thread has finished holds nothing any more, nor
does any stage that descends from it; so a feeder that has come to its end leaves the counters
as it has found them.
-/

namespace SieveChain

/-! ## Ends of pipes -/

/-- How many ends of a pipe are held. -/
def Pipe.ends (p : Pipe) : Nat := p.writer.toNat + p.reader.toNat

namespace Pipes

variable {ps ps' : Pipes} {i : Nat} {p : Pipe}

/-- How many ends of pipes are held. -/
def ends (ps : Pipes) : Nat := (ps.pipes.toList.map Pipe.ends).sum

/-- The count of the ends that are held is right. -/
def Balanced (ps : Pipes) : Prop := ps.openEnds = ps.ends

/-- Giving up an end counts one less if it was held, and nothing is taken from a count of
zero. -/
structure Exact (ps : Pipes) : Prop where
  writer : ∀ i, (ps.dropWriter i).2.openEnds + (ps.get i).writer.toNat = ps.openEnds
  reader : ∀ i, (ps.dropReader i).2.openEnds + (ps.get i).reader.toNat = ps.openEnds

end Pipes

theorem sum_map_modify {α : Type} (weight : α → Nat) (f : α → α) {xs : List α} {i : Nat} {x : α}
    (h : xs[i]? = some x) :
    ((xs.modify i f).map weight).sum + weight x = (xs.map weight).sum + weight (f x) := by
  induction xs generalizing i with
  | nil => cases h
  | cons y xs ih =>
    cases i with
    | zero =>
      cases h
      simp only [List.modify_zero_cons, List.map_cons, List.sum_cons]
      omega
    | succ i =>
      have hrest := ih (i := i) h
      simp only [List.modify_succ_cons, List.map_cons, List.sum_cons]
      omega

namespace Pipes

variable {ps ps' : Pipes} {i : Nat} {p : Pipe}

theorem ends_set (hi : i < ps.pipes.size) :
    (ps.set i p).ends + (ps.get i).ends = ps.ends + p.ends := by
  have hget : ps.pipes.toList[i]? = some (ps.get i) := by
    rw [Array.getElem?_toList, Array.getElem?_eq_getElem hi, get, Array.getElem?_eq_getElem hi]
    rfl
  have hsum := sum_map_modify Pipe.ends (fun _ => p) hget
  rw [ends, set, Array.set!_eq_setIfInBounds, Array.toList_setIfInBounds, List.set_eq_modify]
  exact hsum

/-- There is no end to hold of a pipe that has not been made. -/
theorem lt_size_of_held (h : 0 < (ps.get i).ends) : i < ps.pipes.size := by
  by_contra hle
  rw [get_of_le (Nat.le_of_not_lt hle)] at h
  exact Nat.lt_irrefl 0 h

theorem ends_le (hi : i < ps.pipes.size) : (ps.get i).ends ≤ ps.ends := by
  have hset := @ends_set ps i { ps.get i with writer := false, reader := false } hi
  have hnone : ({ ps.get i with writer := false, reader := false } : Pipe).ends = 0 := rfl
  omega

namespace Balanced

theorem create (h : ps.Balanced) : ps.create.2.Balanced := by
  show ps.openEnds + 2 = ((ps.pipes.push {}).toList.map Pipe.ends).sum
  rw [h, Array.toList_push, List.map_append, List.sum_append]
  rfl

theorem exact (h : ps.Balanced) : ps.Exact where
  writer := by
    intro i
    rw [dropWriter]
    split
    · next hw =>
      have hpos : 0 < (ps.get i).ends := by
        rw [Pipe.ends, hw]
        exact Nat.lt_of_lt_of_le Nat.one_pos (Nat.le_add_right _ _)
      have hle := ends_le (lt_size_of_held hpos)
      rw [hw]
      show ps.openEnds - 1 + 1 = ps.openEnds
      rw [h]
      omega
    · next hw =>
      rw [Bool.eq_false_iff.2 hw]
      rfl
  reader := by
    intro i
    rw [dropReader]
    split
    · next hr =>
      have hpos : 0 < (ps.get i).ends := by
        rw [Pipe.ends, hr]
        exact Nat.succ_pos _
      have hle := ends_le (lt_size_of_held hpos)
      rw [hr]
      show ps.openEnds - 1 + 1 = ps.openEnds
      rw [h]
      omega
    · next hr =>
      rw [Bool.eq_false_iff.2 hr]
      rfl

theorem dropWriter (h : ps.Balanced) : (ps.dropWriter i).2.Balanced := by
  have hexact := h.exact.writer i
  rw [Pipes.dropWriter] at hexact ⊢
  split at hexact
  · next hw =>
    rw [if_pos hw]
    have hi : i < ps.pipes.size := lt_size_of_held (by rw [Pipe.ends, hw, Bool.toNat_true]; omega)
    have hset := @ends_set ps i { ps.get i with writer := false } hi
    change ps.openEnds - 1 + (ps.get i).writer.toNat = ps.openEnds at hexact
    show ps.openEnds - 1 = (ps.set i { ps.get i with writer := false }).ends
    generalize (ps.set i { ps.get i with writer := false }).ends = after at hset ⊢
    simp only [Pipe.ends, hw, Bool.toNat_true, Bool.toNat_false] at hset hexact
    rw [Balanced] at h
    omega
  · next hw =>
    rw [if_neg hw]
    exact h

theorem dropReader (h : ps.Balanced) : (ps.dropReader i).2.Balanced := by
  have hexact := h.exact.reader i
  rw [Pipes.dropReader] at hexact ⊢
  split at hexact
  · next hr =>
    rw [if_pos hr]
    have hi : i < ps.pipes.size := lt_size_of_held (by rw [Pipe.ends, hr, Bool.toNat_true]; omega)
    have hset := @ends_set ps i { ps.get i with reader := false } hi
    change ps.openEnds - 1 + (ps.get i).reader.toNat = ps.openEnds at hexact
    show ps.openEnds - 1 = (ps.set i { ps.get i with reader := false }).ends
    generalize (ps.set i { ps.get i with reader := false }).ends = after at hset ⊢
    simp only [Pipe.ends, hr, Bool.toNat_true, Bool.toNat_false] at hset hexact
    rw [Balanced] at h
    omega
  · next hr =>
    rw [if_neg hr]
    exact h

theorem of_alike (h : ps.Balanced) (hl : Concurrent.Alike ps ps') : ps'.Balanced := by
  have hsame : ps'.pipes.toList.map Pipe.ends = ps.pipes.toList.map Pipe.ends := by
    refine List.ext_getElem ?_ fun n hn hn' => ?_
    · simpa only [List.length_map, Array.length_toList] using hl.size
    · simp only [List.length_map, Array.length_toList] at hn hn'
      have hget : ∀ {qs : Pipes} (hq : n < qs.pipes.size), qs.pipes[n] = qs.get n := by
        intro qs hq
        rw [get, Array.getElem?_eq_getElem hq]
        rfl
      simp only [List.getElem_map, Array.getElem_toList]
      rw [hget hn, hget hn', Pipe.ends, Pipe.ends, hl.writer, hl.reader]
  rw [Balanced, ends, hsame, hl.openEnds]
  exact h

end Balanced

end Pipes

/-! ## Ends that parties hold -/

namespace Stage

/-- How many ends a stage holds between two calls. -/
def State.ends : State → Nat
  | .awaitFirst _ earlier => 1 + earlier.isSome.toNat
  | .filtering _ _ _ => 2
  | .draining _ _ _ => 2
  | .severed _ _ _ => 1
  | .spent _ => 0
  | .childReaped _ => 0
  | .done _ left => left.isSome.toNat

/-- How many ends are left to a stage that has given up an output. -/
def Shutting.ends : Shutting → Nat
  | .replaced _ _ _ _ => 2
  | .drained _ _ _ _ => 1
  | .severed _ _ _ _ => 1
  | .givenUp input _ _ _ => input.toNat
  | .letGo _ _ => 0

/-- How many ends are left to a stage that has given up its input. -/
def Leaving.ends : Leaving → Nat
  | .idle earlier => earlier.isSome.toNat
  | .drained _ _ => 0
  | .givenUp _ _ _ => 0
  | .letGo _ left => left.isSome.toNat
  | .letGoSevered _ _ => 0

/-- How many ends a stage holds at a task. -/
def Task.ends : Task → Nat
  | .first _ earlier => 1 + earlier.isSome.toNat
  | .skip _ earlier _ => 1 + earlier.isSome.toNat
  | .launch _ earlier _ => 1 + earlier.isSome.toNat
  | .record _ _ _ _ => 2
  | .next _ _ _ => 2
  | .forward _ _ _ _ => 2
  | .close _ _ _ => 2
  | .empty _ after => 1 + after.ends
  | .shut after => 1 + after.ends
  | .replace _ _ _ _ => 2
  | .leave after => 1 + after.ends
  | .reap _ _ => 0
  | .forsake _ _ => 0
  | .ended state _ => state.ends

/-- How many ends a run of a stage holds. -/
def Run.ends : Run → Nat
  | .stepping call => call.task.ends
  | .givingUp call => call.task.ends
  | .finished s _ => s.state.ends

theorem Activity.ends_giveUpOutput (b : Activity) (o : Outbox) (after : Shutting) :
    (b.giveUpOutput o after).task.ends = 1 + after.ends := by
  unfold giveUpOutput
  split <;> rfl

theorem ends_step (s : Stage) : s.step.task.ends = s.state.ends := by
  obtain ⟨l, state⟩ := s
  cases state with
  | draining input p link =>
    dsimp only [step]
    split <;> rfl
  | childReaped p =>
    rw [step, Activity.task_settle]
    rfl
  | _ => rfl

theorem ends_giveUp (s : Stage) (f : Fault) : (s.giveUp f).task.ends = s.state.ends := by
  obtain ⟨l, state⟩ := s
  cases state with
  | awaitFirst input earlier =>
    cases earlier with
    | none => rfl
    | some earlier => exact Activity.ends_giveUpOutput _ _ _
  | filtering input p link => exact Activity.ends_giveUpOutput _ _ _
  | draining input p link => exact Activity.ends_giveUpOutput _ _ _
  | done p left =>
    cases left with
    | none => rfl
    | some link => exact Activity.ends_giveUpOutput _ _ _
  | _ => rfl

end Stage

/-- How many ends a feeder holds at a task: at most that of the channel to the first stage. -/
def Feeder.Task.ends : Feeder.Task → Nat
  | .launch => 0
  | .feed _ _ _ _ => 1
  | .makeRoom _ _ _ _ => 1
  | .close _ _ => 1
  | .empty _ _ _ => 1
  | .shut _ _ => 1
  | .reap _ _ => 0
  | .finished _ => 0

def Feeder.Run.ends (r : Feeder.Run) : Nat := r.task.ends

/-- How many ends a party with this account holds: its input, and the output to its child. -/
def Account.ends (a : Account) : Nat := (!a.left).toNat + (a.child.isSome && !a.shut).toNat

namespace Account

variable {a : Account}

theorem ends_add_launched {child : Child} (hk : a.child = none) (hs : a.shut = false) :
    (a.add (.launched (.ok child))).ends = a.ends + 1 := by
  rw [ends, ends, hk, Option.isSome_none, Bool.false_and]
  show _ + (true && !a.shut).toNat = _
  rw [hs]
  rfl

theorem ends_add_shut {child : Child} (hk : a.child = some child) (hs : a.shut = false) :
    (a.add (.shut child)).ends + 1 = a.ends := by
  rw [ends, ends, hk, hs]
  show (!a.left).toNat + (a.child.isSome && false).toNat + 1 = _
  rw [Bool.and_false]
  rfl

theorem ends_add_left (hl : a.left = false) : (a.add .left).ends + 1 = a.ends := by
  rw [ends, ends, hl]
  show 0 + (a.child.isSome && !a.shut).toNat + 1 = _
  rw [Nat.zero_add, Nat.add_comm]
  rfl

end Account

namespace Stage

variable {ceiling : Option Int32} {a : Account}

theorem ends_of_open {child : Child} (hl : a.left = false) (hk : a.child = some child)
    (hs : a.shut = false) : a.ends = 2 := by
  rw [Account.ends, hl, hk, hs]
  rfl

theorem ends_of_childless (hl : a.left = false) (hk : a.child = none) : a.ends = 1 := by
  rw [Account.ends, hl, hk]
  rfl

theorem ends_of_shut (hl : a.left = false) (hs : a.shut = true) : a.ends = 1 := by
  rw [Account.ends, hl, hs, Bool.not_true, Bool.and_false]
  rfl

theorem ends_of_left (hl : a.left = true) (hs : a.shut = a.child.isSome) : a.ends = 0 := by
  rw [Account.ends, hl, hs, Bool.and_not_self]
  rfl

theorem GivingUp.ends_eq {t : Task} (h : GivingUp ceiling a t) : t.ends = a.ends := by
  cases h with
  | leaveAlone h hl => exact (ends_of_childless hl h.child).symm
  | endedAlone h hl => exact (ends_of_left hl (by rw [h.shut, h.child]; rfl)).symm
  | empty h hh hne => exact (ends_of_open hh.left h.child hh.shut).symm
  | shut h hh => exact (ends_of_open hh.left h.child hh.shut).symm
  | leave h hs hl hr => exact (ends_of_shut hl hs).symm
  | reap h hs hl hr => exact (ends_of_left hl (by rw [hs, h.child]; rfl)).symm
  | ended h hs hl hr => exact (ends_of_left hl (by rw [hs, h.child]; rfl)).symm

theorem Stepping.ends_eq {l : Ledger} {t : Task} (h : Stepping ceiling a l t) :
    t.ends = a.ends := by
  induction h with
  | first h he hr hh hd => exact (ends_of_childless h.left h.child).symm
  | skip h he hv hr hh hn => exact (ends_of_childless h.left h.child).symm
  | idle h he hv hd => exact (ends_of_childless h.left h.child).symm
  | idled h hn hs he hl hv hf hd => exact (ends_of_left hl (by rw [h.shut, h.child]; rfl)).symm
  | launch h he hv hr hi hd => exact (ends_of_childless h.left h.child).symm
  | record hv hr hi hb hne hcm hn hk hs hh he hsm hf hd =>
    exact (ends_of_open hh.left hk hh.shut).symm
  | next h he hr hh => exact (ends_of_open h.left h.child h.shut).symm
  | forward h he hr hi hv hne => exact (ends_of_open h.left h.child h.shut).symm
  | close h he hr hne => exact (ends_of_open h.left h.child h.shut).symm
  | shut h he hr hb => exact (ends_of_open h.left h.child h.shut).symm
  | leave h hl hr => exact (ends_of_shut hl h.shut).symm
  | reap h hl hr => exact (ends_of_left hl (by rw [h.shut, h.child]; rfl)).symm
  | done h hl hr => exact (ends_of_left hl (by rw [h.shut, h.child]; rfl)).symm
  | emptySevered h hh hne => exact (ends_of_open hh.left h.child hh.shut).symm
  | shutSevered h hh => exact (ends_of_open hh.left h.child hh.shut).symm
  | settled hp h ih => exact (ends_step _).symm.trans ih
  | failed h => exact (ends_giveUp _ _).symm.trans h.ends_eq

/-- A stage holds the ends that its account says it has not given up. -/
theorem Run.ends_eq {r : Run} (h : r.Accords ceiling a) (hs : Concurrent.Spent r) :
    r.ends = a.ends := by
  cases r with
  | stepping call => exact h.2.ends_eq
  | givingUp call => exact GivingUp.ends_eq h
  | finished s result =>
    obtain ⟨p, hp⟩ := hs s result rfl
    obtain ⟨hl, hshut, -⟩ := Run.released_of_finished h
    rw [ends_of_left hl hshut, Run.ends, hp]
    rfl

end Stage

/-- A feeder has no input to give up. -/
theorem Feeder.Run.ends_eq {c : Candidates} {a : Account} {r : Feeder.Run} (h : r.Accords c a) :
    a.left = false ∧ r.ends + 1 = a.ends := by
  obtain ⟨candidates, notices, task⟩ := r
  obtain ⟨-, h⟩ := h
  cases h with
  | launch h hn hs hl => exact ⟨hl, (Stage.ends_of_childless hl h.child).symm⟩
  | feed h => exact ⟨h.left, (Stage.ends_of_open h.left h.child h.shut).symm⟩
  | makeRoom h hne => exact ⟨h.left, (Stage.ends_of_open h.left h.child h.shut).symm⟩
  | close h hne => exact ⟨h.left, (Stage.ends_of_open h.left h.child h.shut).symm⟩
  | shut h hs hr => exact ⟨h.left, (Stage.ends_of_open h.left h.child hs).symm⟩
  | reap h hs hr => exact ⟨h.left, (Stage.ends_of_shut h.left hs).symm⟩
  | done h hs hr => exact ⟨h.left, (Stage.ends_of_shut h.left hs).symm⟩
  | emptyTorn h hs hr hne => exact ⟨h.left, (Stage.ends_of_open h.left h.child hs).symm⟩
  | shutTorn h hs hr => exact ⟨h.left, (Stage.ends_of_open h.left h.child hs).symm⟩
  | reapTorn h hs hr => exact ⟨h.left, (Stage.ends_of_shut h.left hs).symm⟩
  | failed h hs hr => exact ⟨h.left, (Stage.ends_of_shut h.left hs).symm⟩
  | refused h hn hs hl => exact ⟨hl, (Stage.ends_of_childless hl h.child).symm⟩

namespace Concurrent

/-! ## Counting over a system -/

/-- How many ends a launched stage holds. -/
def Job.ends (job : Job) : Nat :=
  match job.run with
  | some run => run.ends
  | none => 0

/-- The thread of a stage has been started and has not finished. -/
def Job.isLive (job : Job) : Bool := job.run.isSome && !job.ended

namespace System

/-- A sum over the stages that have been launched from a number on. -/
def sumFrom (s : System) (weight : Job → Nat) (k : Nat) : Nat :=
  ((s.jobs.toList.drop k).map weight).sum

/-- How many ends the stages hold that have been launched from a number on. -/
def endsFrom (s : System) (k : Nat) : Nat := s.sumFrom Job.ends k

/-- How many of the stages that have been launched from a number on have not finished. -/
def liveFrom (s : System) (k : Nat) : Nat := s.sumFrom (fun job => job.isLive.toNat) k

/-- How many ends all parties hold, and whoever holds any outside. -/
def ends (s : System) : Nat :=
  s.writers.length + s.readers.length + (s.feeders.toList.map Feeder.Run.ends).sum + s.endsFrom 0

/-- Threads that a launch event adds. -/
def added : Option Event → Nat
  | some (.launched (.ok _)) => 1
  | _ => 0

variable {s s' t : System} {k n : Nat} (weight : Job → Nat)

theorem sumFrom_push {pipes : Pipes} {job : Job} {live : Nat} (hk : k ≤ s.jobs.size) :
    ({ s with pipes, jobs := s.jobs.push job, live } : System).sumFrom weight k =
      s.sumFrom weight k + weight job := by
  rw [sumFrom, Array.toList_push, List.drop_append_of_le_length, List.map_append, List.sum_append]
  · rfl
  · exact hk

theorem sumFrom_modify {f : Job → Job} {job : Job} (hk : k ≤ n) (hj : s.jobs[n]? = some job)
    (hjobs : t.jobs = s.jobs.modify n f) :
    t.sumFrom weight k + weight job = s.sumFrom weight k + weight (f job) := by
  have hdrop : (s.jobs.toList.drop k)[n - k]? = some job := by
    rw [List.getElem?_drop, Array.getElem?_toList, Nat.add_sub_cancel' hk, hj]
  rw [sumFrom, hjobs, Array.toList_modify, List.drop_modify_of_ge _ _ _ _ hk]
  exact sum_map_modify weight f hdrop

theorem sumFrom_modify_of_lt {f : Job → Job} (hk : n < k) (hjobs : t.jobs = s.jobs.modify n f) :
    t.sumFrom weight k = s.sumFrom weight k := by
  rw [sumFrom, hjobs, Array.toList_modify, List.drop_modify_of_lt _ _ _ _ hk]
  rfl

end System

/-- A weight that a new stage has exactly if its thread has been started. -/
def Fresh (weight : Job → Nat) : Prop :=
  ∀ (s : System) (refusal : Refusal), weight (s.newJob refusal) = refusal.isNone.toNat

theorem fresh_ends : Fresh Job.ends := by
  intro s refusal
  cases refusal <;> rfl

theorem fresh_live : Fresh fun job => job.isLive.toNat := by
  intro s refusal
  cases refusal <;> rfl

variable {s s' t : System} {launcher : Nat → Holder} {acc : Holder → Account} {P : Holder}
  {refusal : Refusal} {e : Option Event} {k n : Nat}

namespace System

theorem added_launch (s : System) (refusal : Refusal) :
    added (some (.launched (s.launch refusal).1)) = refusal.isNone.toNat := by
  cases refusal <;> rfl

/-- A stage whose thread could not be started is counted, and counted off again. -/
theorem live_launch (s : System) (refusal : Refusal) :
    (s.launch refusal).2.live = s.live + refusal.isNone.toNat := by
  cases refusal <;> rfl

theorem sumFrom_launch (s : System) {weight : Job → Nat} (hw : Fresh weight)
    (hk : k ≤ s.jobs.size) (refusal : Refusal) :
    (s.launch refusal).2.sumFrom weight k = s.sumFrom weight k + refusal.isNone.toNat := by
  rw [← hw s refusal]
  cases refusal with
  | none => exact sumFrom_push weight hk
  | some reason => exact sumFrom_push weight hk

/-- The two ends of a new pipe are counted, and counted off again if the thread could not be
started. -/
theorem openEnds_launch (hb : s.pipes.Balanced) (refusal : Refusal) :
    (s.launch refusal).2.pipes.Balanced ∧
      (s.launch refusal).2.pipes.openEnds = s.pipes.openEnds + 2 * refusal.isNone.toNat := by
  cases refusal with
  | none => exact ⟨hb.create, rfl⟩
  | some reason =>
    have hnew : s.pipes.create.2.get s.pipes.pipes.size = {} := Pipes.get_create
    have hreader := hb.create.exact.reader s.pipes.pipes.size
    have hdropped : (s.pipes.create.2.dropReader s.pipes.pipes.size).2.Balanced :=
      hb.create.dropReader
    have hwriter := hdropped.exact.writer s.pipes.pipes.size
    have hlt : s.pipes.pipes.size < s.pipes.create.2.pipes.size := by
      rw [Pipes.size_create]
      exact Nat.lt_succ_self _
    rw [Pipes.get_dropReader hlt (by rw [hnew]), hnew] at hwriter
    rw [hnew] at hreader
    refine ⟨hdropped.dropWriter, ?_⟩
    show ((s.pipes.create.2.dropReader s.pipes.pipes.size).2.dropWriter
      s.pipes.pipes.size).2.openEnds = _
    have hcreate : s.pipes.create.2.openEnds = s.pipes.openEnds + 2 := rfl
    simp only [Bool.toNat_true] at hwriter hreader
    simp only [Option.isNone_some, Bool.toNat_false]
    omega

namespace Occurs

theorem live (h : s.Occurs refusal e t) : t.live = s.live + added e := by
  cases h with
  | launch => rw [added_launch, live_launch]
  | _ => rfl

theorem size_le (h : s.Occurs refusal e t) : s.jobs.size ≤ t.jobs.size := by
  cases h with
  | launch =>
    rw [s.jobs_size_launch]
    exact Nat.le_succ _
  | _ => exact Nat.le_refl _

theorem sumFrom {weight : Job → Nat} (h : s.Occurs refusal e t) (hw : Fresh weight)
    (hk : k ≤ s.jobs.size) : t.sumFrom weight k = s.sumFrom weight k + added e := by
  cases h with
  | launch => rw [added_launch, s.sumFrom_launch hw hk]
  | _ => rfl

theorem outer (h : s.Occurs refusal e t) : t.writers = s.writers ∧ t.readers = s.readers := by
  cases h with
  | launch => cases refusal <;> exact ⟨rfl, rfl⟩
  | _ => exact ⟨rfl, rfl⟩

theorem balanced (h : s.Occurs refusal e t) (hb : s.pipes.Balanced) : t.pipes.Balanced := by
  cases h with
  | launch => exact (openEnds_launch hb refusal).1
  | read hl => exact hb.of_alike hl
  | sent hl => exact hb.of_alike hl
  | broken hp hr hl => exact hb.of_alike hl
  | shut hp hw => exact hb.dropWriter
  | leave hj hr => exact hb.dropReader
  | _ => exact hb

end Occurs

end System

/-- An operation changes the count of open ends as it changes what its party holds; the reading
end of a new pipe is held by the new stage. -/
theorem Meets.openEnds {σ : Type} {m : Move σ} {q : σ} (h : Meets s acc P refusal m e q t)
    (hb : s.pipes.Balanced) :
    t.pipes.openEnds + (acc P).ends =
      s.pipes.openEnds + ((acc P).after e).ends + System.added e := by
  obtain ⟨hm, ho, hp⟩ := h
  cases ho with
  | proceed => rfl
  | @read bytes pipes hl =>
    rw [hl.openEnds]
    cases bytes <;> rfl
  | record => rfl
  | commit => rfl
  | launch =>
    rw [(System.openEnds_launch hb refusal).2, System.added_launch]
    generalize hr : (s.launch refusal).1 = result at hm
    cases hm
    obtain ⟨-, hchild, -, hshut⟩ := hp
    cases refusal with
    | none =>
      cases hr
      have hends := @Account.ends_add_launched (acc P) ⟨s.jobs.size, threadLabel s.jobs.size⟩ hchild
        hshut
      show s.pipes.openEnds + 2 + (acc P).ends =
        s.pipes.openEnds + ((acc P).add (.launched (.ok ⟨s.jobs.size, _⟩))).ends + 1
      omega
    | some reason =>
      cases hr
      rfl
  | sent hl =>
    rw [hl.openEnds]
    rfl
  | broken hpipe hr hl =>
    rw [hl.openEnds]
    rfl
  | @shut child p hpipe hw =>
    cases hm
    obtain ⟨hchild, hshut⟩ := hp
    have hexact := hb.exact.writer p
    rw [hw, Bool.toNat_true] at hexact
    have hends := Account.ends_add_shut hchild hshut
    show (s.pipes.dropWriter p).2.openEnds + (acc P).ends =
      s.pipes.openEnds + ((acc P).add (.shut child)).ends
    omega
  | @leave n job hj hr =>
    cases hm
    obtain ⟨hleft, -⟩ := hp
    have hexact := hb.exact.reader job.pipe
    rw [hr, Bool.toNat_true] at hexact
    have hends := Account.ends_add_left hleft
    show (s.pipes.dropReader job.pipe).2.openEnds + (acc P).ends =
      s.pipes.openEnds + ((acc P).add .left).ends
    omega
  | reap hv => rfl

/-! ## Turns and the counters -/

/-- The counters change as the ends do that some feeders and the stages launched from a number
on hold, and as these stages start and finish. -/
structure Within (s s' : System) (k held held' : Nat) : Prop where
  ends : s'.pipes.openEnds + (s.endsFrom k + held) = s.pipes.openEnds + (s'.endsFrom k + held')
  live : s'.live + s.liveFrom k = s.live + s'.liveFrom k

/-- Among the stages launched from a number on nothing changes but that threads are started. -/
structure Beside (s s' : System) (k new : Nat) : Prop where
  started : s'.live = s.live + new
  ends : s'.endsFrom k = s.endsFrom k + new
  live : s'.liveFrom k = s.liveFrom k + new

namespace Coherent

theorem ends_stage (h : Coherent s launcher acc) {job : Job} {run : Stage.Run}
    (hj : s.jobs[n]? = some job) (hr : job.run = some run) : run.ends = (acc (.stage n)).ends := by
  obtain ⟨hacc, hspent, -⟩ := h.stage hj hr
  exact Stage.Run.ends_eq hacc hspent

theorem stage_count (h : Coherent s launcher acc) (hb : s.pipes.Balanced)
    (hp : s.perform (.stage n refusal) = some s') :
    s'.pipes.Balanced ∧ s'.writers = s.writers ∧ s'.readers = s.readers ∧
      s'.feeders = s.feeders ∧
      (∀ k held, k ≤ s.jobs.size → k ≤ n → Within s s' k held held) ∧
      (∀ k, k ≤ s.jobs.size → n < k → ∃ new, Beside s s' k new) := by
  obtain ⟨job, run, e, q, t, hjob, hrun, hended, hmeets, hs', hc⟩ := h.stage_turn hp
  have ho := hmeets.occurs
  have hjob' := ho.job_of hjob
  have hopen := hmeets.openEnds hb
  have hstart := ho.live
  let f : Job → Job := fun job => { job with run := some q }
  have hjobs : s'.jobs = t.jobs.modify n f := by rw [hs']
  have hpipes : s'.pipes = t.pipes := by rw [hs']
  have hlive : s'.live = t.live := by rw [hs']
  -- The run before and after holds what the accounts say.
  have hends : job.ends = (acc (.stage n)).ends := by
    rw [Job.ends, hrun]
    exact h.ends_stage hjob hrun
  have hends' : (f job).ends = ((acc (.stage n)).after e).ends := by
    have hget : s'.jobs[n]? = some (f job) := by
      rw [hjobs, Array.getElem?_modify, if_pos rfl, hjob']
      rfl
    have hq := hc.ends_stage hget rfl
    rw [Function.update_self] at hq
    exact hq
  have hsame : (f job).isLive = job.isLive := by
    rw [Job.isLive, Job.isLive, hrun]
    rfl
  refine ⟨hpipes ▸ ho.balanced hb, ?_, ?_, ?_, fun k held hk hkn => ?_,
    fun k hk hnk => ⟨System.added e, ?_⟩⟩
  · rw [hs']
    exact ho.outer.1
  · rw [hs']
    exact ho.outer.2
  · rw [hs']
    exact ho.feeders
  · have hsum := ho.sumFrom fresh_ends hk
    have hsum' := ho.sumFrom fresh_live hk
    have hmod := System.sumFrom_modify Job.ends hkn hjob' hjobs
    have hmod' := System.sumFrom_modify (fun job => job.isLive.toNat) hkn hjob' hjobs
    rw [hsame] at hmod'
    rw [hends, hends'] at hmod
    refine ⟨?_, ?_⟩
    · rw [hpipes, System.endsFrom, System.endsFrom]
      omega
    · rw [hlive, System.liveFrom, System.liveFrom]
      omega
  · refine ⟨hlive.trans ho.live, ?_, ?_⟩
    · rw [System.endsFrom, System.sumFrom_modify_of_lt _ hnk hjobs]
      exact ho.sumFrom fresh_ends hk
    · rw [System.liveFrom, System.sumFrom_modify_of_lt _ hnk hjobs]
      exact ho.sumFrom fresh_live hk

theorem feeder_count (h : Coherent s launcher acc) (hb : s.pipes.Balanced)
    (hp : s.perform (.feeder n refusal) = some s') :
    s'.pipes.Balanced ∧ s'.writers = s.writers ∧ s'.readers = s.readers ∧
      (∃ run q, s.feeders[n]? = some run ∧ s'.feeders = s.feeders.modify n (fun _ => q) ∧
        ∀ k, k ≤ s.jobs.size → Within s s' k run.ends q.ends) ∧
      ∀ k, k ≤ s.jobs.size → ∃ new, Beside s s' k new := by
  obtain ⟨run, e, q, t, hrun, hmeets, hs', hc⟩ := h.feeder_turn hp
  have ho := hmeets.occurs
  have hopen := hmeets.openEnds hb
  have hstart := ho.live
  have hpipes : s'.pipes = t.pipes := by rw [hs']
  have hlive : s'.live = t.live := by rw [hs']
  have hsums : ∀ weight k, s'.sumFrom weight k = t.sumFrom weight k := by
    intro weight k
    rw [hs']
    rfl
  have hfeeders : s'.feeders = s.feeders.modify n fun _ => q := by
    rw [hs', ← ho.feeders]
  obtain ⟨-, hends⟩ := Feeder.Run.ends_eq (h.feeder hrun)
  have hends' : q.ends + 1 = ((acc (.feeder n)).after e).ends := by
    have hget : s'.feeders[n]? = some q := by
      rw [hfeeders, Array.getElem?_modify, if_pos rfl, hrun]
      rfl
    obtain ⟨-, hq⟩ := Feeder.Run.ends_eq (hc.feeder hget)
    rw [Function.update_self] at hq
    exact hq
  refine ⟨hpipes ▸ ho.balanced hb, ?_, ?_, ⟨run, q, hrun, hfeeders, fun k hk => ?_⟩,
    fun k hk => ⟨System.added e, hlive.trans ho.live, ?_, ?_⟩⟩
  · rw [hs']
    exact ho.outer.1
  · rw [hs']
    exact ho.outer.2
  · have hsum := ho.sumFrom fresh_ends hk
    have hsum' := ho.sumFrom fresh_live hk
    refine ⟨?_, ?_⟩
    · rw [hpipes, System.endsFrom, System.endsFrom, hsums]
      omega
    · rw [hlive, System.liveFrom, System.liveFrom, hsums]
      omega
  · exact (hsums _ _).trans (ho.sumFrom fresh_ends hk)
  · exact (hsums _ _).trans (ho.sumFrom fresh_live hk)

/-- A thread that finishes was counted as one that had not. -/
theorem finish_count (h : Coherent s launcher acc) (hlive : s.live = s.liveFrom 0)
    (hp : s.perform (.finish n) = some s') :
    s'.live + 1 = s.live ∧ s'.pipes = s.pipes ∧ s'.writers = s.writers ∧
      s'.readers = s.readers ∧ s'.feeders = s.feeders ∧
      ∀ k held, k ≤ n → Within s s' k held held := by
  obtain ⟨job, stage, result, hjob, hrun, hended, hs', -⟩ := h.finish_turn hp
  let f : Job → Job := fun job => { job with ended := true }
  have hjobs : s'.jobs = s.jobs.modify n f := by rw [hs']
  have hbefore : job.isLive = true := by
    rw [Job.isLive, hrun, hended]
    rfl
  have hafter : (f job).isLive = false := by
    rw [Job.isLive]
    exact Bool.and_false _
  have hsum : ∀ k, k ≤ n → s'.liveFrom k + 1 = s.liveFrom k := by
    intro k hk
    have hmod := System.sumFrom_modify (fun job => job.isLive.toNat) hk hjob hjobs
    rw [hbefore, hafter] at hmod
    exact hmod
  have hpos : s'.live + 1 = s.live := by
    have hzero := hsum 0 (Nat.zero_le n)
    have hs : s'.live = s.live - 1 := by rw [hs']
    omega
  refine ⟨hpos, by rw [hs'], by rw [hs'], by rw [hs'], by rw [hs'], fun k held hk => ?_⟩
  have hmod := System.sumFrom_modify Job.ends hk hjob hjobs
  have hsame : (f job).ends = job.ends := rfl
  have hpipes : s'.pipes = s.pipes := by rw [hs']
  refine ⟨?_, ?_⟩
  · rw [hpipes, System.endsFrom, System.endsFrom]
    omega
  · have := hsum k hk
    omega

/-- What is done with pipes from outside changes the count of open ends as it changes what is
held there. -/
theorem pipes_count (h : Coherent s launcher acc) (hb : s.pipes.Balanced) {a : System.Action}
    (ha : a.onPipes = true) (hp : s.perform a = some s') :
    s'.pipes.Balanced ∧
      s'.pipes.openEnds + (s.writers.length + s.readers.length) =
        s.pipes.openEnds + (s'.writers.length + s'.readers.length) := by
  cases a with
  | create =>
    cases hp
    refine ⟨hb.create, ?_⟩
    show s.pipes.openEnds + 2 + _ =
      s.pipes.openEnds + (s.writers.length + 1 + (s.readers.length + 1))
    omega
  | write p bytes =>
    rw [System.perform] at hp
    split at hp
    · next hw =>
      obtain ⟨⟨reply, t⟩, ho, rfl⟩ := Option.map_eq_some_iff.1 hp
      obtain ⟨hlt, hflag, -⟩ := h.writer hw
      obtain ⟨pipes, rfl, halike, -⟩ := System.offer_alike hlt hflag ho
      exact ⟨hb.of_alike halike, by rw [← halike.openEnds]⟩
    · cases hp
  | read p room =>
    rw [System.perform] at hp
    split at hp
    · next hr =>
      split at hp
      · next bytes pipes hread =>
        cases hp
        obtain ⟨halike, -⟩ := Pipes.read_alike (h.reader hr).1 hread
        exact ⟨hb.of_alike halike, by rw [← halike.openEnds]⟩
      · cases hp
    · cases hp
  | dropWriter p =>
    rw [System.perform] at hp
    split at hp
    · next hw =>
      cases hp
      have hexact := hb.exact.writer p
      rw [(h.writer hw).2.1, Bool.toNat_true] at hexact
      have hlength := List.length_erase_of_mem hw
      have hpos := List.length_pos_of_mem hw
      refine ⟨hb.dropWriter, ?_⟩
      show (s.pipes.dropWriter p).2.openEnds + _ =
        s.pipes.openEnds + ((s.writers.erase p).length + s.readers.length)
      omega
    · cases hp
  | dropReader p =>
    rw [System.perform] at hp
    split at hp
    · next hr =>
      cases hp
      have hexact := hb.exact.reader p
      rw [(h.reader hr).2.1, Bool.toNat_true] at hexact
      have hlength := List.length_erase_of_mem hr
      have hpos := List.length_pos_of_mem hr
      refine ⟨hb.dropReader, ?_⟩
      show (s.pipes.dropReader p).2.openEnds + _ =
        s.pipes.openEnds + (s.writers.length + (s.readers.erase p).length)
      omega
    · cases hp
  | _ => cases ha

end Coherent

/-- The counters agree with what can be counted: the ends that are held of all pipes, the ends
that someone holds, and the threads that have not finished. -/
structure Books (s : System) : Prop where
  balanced : s.pipes.Balanced
  ends : s.pipes.openEnds = s.ends
  live : s.live = s.liveFrom 0

/-- A launch from outside opens two ends, of which one is held outside, or none. -/
theorem Books.launch (hb : Books s) (hp : s.perform (.launch refusal) = some s') : Books s' := by
  have hlive := hb.live
  have hends : s.pipes.openEnds = s.writers.length + s.readers.length +
      (s.feeders.toList.map Feeder.Run.ends).sum + s.endsFrom 0 := hb.ends
  obtain ⟨writers, rfl, hnew⟩ := System.perform_launch hp
  obtain ⟨hbalanced', hopen⟩ := System.openEnds_launch hb.balanced refusal
  have hstart := System.live_launch s refusal
  have hsum := s.sumFrom_launch fresh_ends (Nat.zero_le _) refusal
  have hsum' := s.sumFrom_launch fresh_live (Nat.zero_le _) refusal
  have hwriters : writers.length = s.writers.length + refusal.isNone.toNat := by
    rcases hnew with ⟨rfl, rfl⟩ | ⟨hr, rfl⟩
    · rfl
    · rw [Option.isNone_eq_false_iff.2 (Option.isSome_iff_ne_none.2 hr)]
      rfl
  refine ⟨hbalanced', ?_, ?_⟩
  · show (s.launch refusal).2.pipes.openEnds =
      writers.length + (s.launch refusal).2.readers.length +
        ((s.launch refusal).2.feeders.toList.map Feeder.Run.ends).sum +
        (s.launch refusal).2.endsFrom 0
    rw [s.readers_launch, s.feeders_launch, System.endsFrom]
    rw [System.endsFrom] at hends
    omega
  · show (s.launch refusal).2.live = (s.launch refusal).2.liveFrom 0
    rw [System.liveFrom] at hlive ⊢
    omega

theorem Coherent.books_perform (h : Coherent s launcher acc) (hb : Books s)
    {a : System.Action} (hp : s.perform a = some s') : Books s' := by
  have hbalanced := hb.balanced
  have hlive := hb.live
  have hends : s.pipes.openEnds = s.writers.length + s.readers.length +
      (s.feeders.toList.map Feeder.Run.ends).sum + s.endsFrom 0 := hb.ends
  have pipes : a.onPipes = true → Books s' := by
    intro ha
    obtain ⟨hbalanced', hcount⟩ := h.pipes_count hbalanced ha hp
    obtain ⟨pipes, writers, readers, rfl⟩ := System.perform_onPipes ha hp
    refine ⟨hbalanced', ?_, hlive⟩
    show pipes.openEnds = writers.length + readers.length +
      (s.feeders.toList.map Feeder.Run.ends).sum + s.endsFrom 0
    dsimp only at hcount
    omega
  cases a with
  | stage n refusal =>
    obtain ⟨hbalanced', hw, hr, hf, hwithin, -⟩ := h.stage_count hbalanced hp
    obtain ⟨hcount, hcount'⟩ := hwithin 0 0 (Nat.zero_le _) (Nat.zero_le _)
    refine ⟨hbalanced', ?_, by omega⟩
    rw [System.ends, hw, hr, hf]
    omega
  | feeder n refusal =>
    obtain ⟨hbalanced', hw, hr, ⟨run, q, hrun, hf, hwithin⟩, -⟩ := h.feeder_count hbalanced hp
    obtain ⟨hcount, hcount'⟩ := hwithin 0 (Nat.zero_le _)
    have hget : s.feeders.toList[n]? = some run := by rw [Array.getElem?_toList, hrun]
    have hsum := sum_map_modify Feeder.Run.ends (fun _ => q) hget
    refine ⟨hbalanced', ?_, by omega⟩
    rw [System.ends, hw, hr, hf, Array.toList_modify]
    omega
  | finish n =>
    obtain ⟨hpos, hpipes, hw, hr, hf, hwithin⟩ := h.finish_count hlive hp
    obtain ⟨hcount, hcount'⟩ := hwithin 0 0 (Nat.zero_le _)
    refine ⟨hpipes ▸ hbalanced, ?_, by omega⟩
    rw [System.ends, hw, hr, hf]
    omega
  | feed range =>
    cases hp
    refine ⟨hbalanced, ?_, hlive⟩
    show s.pipes.openEnds = s.writers.length + s.readers.length +
      ((s.feeders.push (Feeder.run range)).toList.map Feeder.Run.ends).sum + s.endsFrom 0
    rw [Array.toList_push, List.map_append, List.sum_append, hends]
    rfl
  | launch refusal => exact hb.launch hp
  | _ => exact pipes rfl

theorem books_idle (ceiling : Option Int32) (capacity : Option Nat) (record : Array UInt8) :
    Books { ceiling, capacity, record } :=
  ⟨rfl, rfl, rfl⟩

/-! ## Stages that have finished -/

/-- One stage descends from another if launches lead from the latter to it. -/
def Descends (launcher : Nat → Holder) : Nat → Nat → Prop :=
  Relation.ReflTransGen fun i j => launcher j = .stage i

/-- The thread of a stage has finished, and whatever ends it held have been given up: those of
the pipe that it read and of the pipe to its child. -/
structure Released (s : System) (launcher : Nat → Holder) (i : Nat) : Prop where
  job : ∃ job, s.jobs[i]? = some job ∧ job.ended = true ∧ job.ends = 0 ∧
    (s.pipes.get job.pipe).reader = false
  output : ∀ {j : Nat} {job : Job}, s.jobs[j]? = some job → launcher j = .stage i →
    (s.pipes.get job.pipe).writer = false

namespace Coherent

/-- A stage whose thread has finished has left nothing behind, and whatever it has launched has
finished before it. -/
theorem released (h : Coherent s launcher acc) {i : Nat} {job : Job}
    (hj : s.jobs[i]? = some job) (he : job.ended = true) :
    Released s launcher i ∧ ∀ {j : Nat}, launcher j = .stage i →
      ∃ job, s.jobs[j]? = some job ∧ job.ended = true := by
  -- What a stage has launched is there.
  have there : ∀ {j : Nat}, launcher j = .stage i → ∃ job, s.jobs[j]? = some job := by
    intro j hl
    refine ⟨_, Array.getElem?_eq_getElem (Nat.lt_of_not_le fun hle => ?_)⟩
    rw [(h.fresh hle).1] at hl
    cases hl
  cases hrun : job.run with
  | none =>
    obtain ⟨-, -, hreader⟩ := h.refused hj (by rw [hrun]; rfl)
    have hchildless : ∀ {j : Nat}, launcher j = .stage i → False := by
      intro j hl
      obtain ⟨job', hj'⟩ := there hl
      have hlaunches := h.launched (Array.getElem?_eq_some_iff.1 hj').1
      rw [hl, h.idle hj hrun] at hlaunches
      exact hlaunches rfl
    have hends : job.ends = 0 := by rw [Job.ends, hrun]
    exact ⟨⟨⟨job, hj, he, hends, hreader⟩, fun _ hl => (hchildless hl).elim⟩,
      fun hl => (hchildless hl).elim⟩
  | some run =>
    obtain ⟨hacc, hspent, hfinished⟩ := h.stage hj hrun
    obtain ⟨stage, result, rfl⟩ := hfinished he
    obtain ⟨hleft, hshut, hreaped⟩ := Stage.Run.released_of_finished hacc
    have hlink := h.link hj (by rw [hrun]; rfl)
    have hends : job.ends = 0 := by
      rw [Job.ends, hrun]
      exact (Stage.Run.ends_eq hacc hspent).trans (Stage.ends_of_left hleft hshut)
    refine ⟨⟨⟨job, hj, he, hends, ?_⟩, fun {j job'} hj' hl => ?_⟩, fun {j} hl => ?_⟩
    · rw [hlink.reader, hleft]
      rfl
    · cases hrun' : job'.run with
      | none => exact (h.refused hj' (by rw [hrun']; rfl)).2.1
      | some run =>
        have hnamed := h.named hj'
        rw [hl, hrun', Option.isSome_some, if_pos rfl] at hnamed
        rw [(h.link hj' (by rw [hrun']; rfl)).writer, hl, hshut, hnamed]
        rfl
    · obtain ⟨job', hj'⟩ := there hl
      cases hrun' : job'.run with
      | none => exact ⟨job', hj', (h.refused hj' (by rw [hrun']; rfl)).1⟩
      | some run =>
        have hnamed := h.named hj'
        rw [hl, hrun', Option.isSome_some, if_pos rfl] at hnamed
        obtain ⟨child, job'', hchild, hj'', he'⟩ := h.reaped (P := .stage i)
          (by rw [hreaped, hnamed]; rfl)
        rw [hnamed] at hchild
        cases hchild
        exact ⟨job'', hj'', he'⟩

theorem released_of_descends (h : Coherent s launcher acc) {i j : Nat} {job : Job}
    (hj : s.jobs[i]? = some job) (he : job.ended = true) (hd : Descends launcher i j) :
    Released s launcher j := by
  have hended : ∃ job, s.jobs[j]? = some job ∧ job.ended = true := by
    induction hd with
    | refl => exact ⟨job, hj, he⟩
    | tail hd hl ih =>
      obtain ⟨job', hj', he'⟩ := ih
      exact (h.released hj' he').2 hl
  obtain ⟨job', hj', he'⟩ := hended
  exact (h.released hj' he').1

end Coherent

/-! ## The run of a feeder -/

/-- What a feeder does, and the stages that have been launched from a number on. -/
def System.Action.belongs (n k : Nat) : System.Action → Bool
  | .feeder m _ => m == n
  | .stage i _ => k ≤ i
  | .finish i => k ≤ i
  | _ => false

/-- Nothing but a feeder and the stages that have been launched from a number on uses the
counters. -/
def System.Spares (n k : Nat) (s : System) (a : System.Action) : Prop :=
  a.belongs n k ∨ ∀ t, s.perform a = some t → t.counters.live = s.counters.live ∧
    t.counters.openEnds = s.counters.openEnds

/-- How many ends a feeder holds. -/
def System.feederEnds (s : System) (n : Nat) : Nat := ((s.feeders[n]?).map Feeder.Run.ends).getD 0

/-- The stages that run and have been launched from a number on descend from a feeder. -/
def Follows (s : System) (launcher : Nat → Holder) (n k : Nat) : Prop :=
  ∀ (i : Nat) (job : Job), k ≤ i → s.jobs[i]? = some job → job.run.isSome = true →
    launcher i = .feeder n ∨ ∃ j, k ≤ j ∧ launcher i = .stage j

theorem Follows.of_jobs (h : Follows s launcher n k)
    (hjobs : ∀ {i : Nat} {job' : Job}, t.jobs[i]? = some job' → job'.run.isSome = true →
      ∃ job, s.jobs[i]? = some job ∧ job.run.isSome = true) : Follows t launcher n k := by
  intro i job' hk hj hr
  obtain ⟨job, hj', hr'⟩ := hjobs hj hr
  exact h i job hk hj' hr'

/-- A launch by one that belongs to the feeder, or one that fails. -/
theorem Follows.occurs (h : Follows s launcher n k) (ho : s.Occurs refusal e t)
    (hP : (P = .feeder n ∨ ∃ j, k ≤ j ∧ P = .stage j) ∨ System.added e = 0) :
    Follows t (lineage s.jobs.size P launcher e) n k := by
  intro i job hk hj hr
  have hold : i ≠ s.jobs.size → lineage s.jobs.size P launcher e i = launcher i := by
    intro hi
    cases ho with
    | launch => exact Function.update_of_ne hi _ _
    | _ => rfl
  rcases ho.job_or hj with hj | ⟨rfl, rfl, -⟩
  · rw [hold (Nat.ne_of_lt (Array.getElem?_eq_some_iff.1 hj).1)]
    exact h i job hk hj hr
  · cases ho with
    | launch =>
      have hself : lineage s.jobs.size P launcher (some (.launched (s.launch refusal).1))
          s.jobs.size = P := Function.update_self _ _ _
      rw [hself]
      refine hP.resolve_right fun hz => ?_
      rw [System.added_launch] at hz
      cases refusal with
      | none => cases hz
      | some reason => cases hr
    | _ => exact absurd (Array.getElem?_eq_some_iff.1 hj).1 (Nat.lt_irrefl _)

/-- While a feeder runs and nothing else uses the counters, they differ from what they were by
what the feeder and its stages hold. -/
structure Attends (start : Counters) (n k : Nat) (s : System) (launcher : Nat → Holder)
    (acc : Holder → Account) : Prop extends Coherent s launcher acc, Books s where
  old : k ≤ s.jobs.size
  there : n < s.feeders.size
  follows : Follows s launcher n k
  opened : s.pipes.openEnds = start.openEnds + (s.endsFrom k + s.feederEnds n)
  started : s.live = start.live + s.liveFrom k

namespace Attends

variable {start : Counters} {launcher' : Nat → Holder} {acc' : Holder → Account}

/-- A turn of one that belongs to the feeder. -/
theorem within (h : Attends start n k s launcher acc) (hc : Coherent s' launcher' acc')
    (hb : Books s') (hold : s.jobs.size ≤ s'.jobs.size) (hthere : s.feeders.size ≤ s'.feeders.size)
    (hf : Follows s' launcher' n k) (hw : Within s s' k (s.feederEnds n) (s'.feederEnds n)) :
    Attends start n k s' launcher' acc' where
  toCoherent := hc
  toBooks := hb
  old := Nat.le_trans h.old hold
  there := Nat.lt_of_lt_of_le h.there hthere
  follows := hf
  opened := by
    have hends := hw.ends
    have hopened := h.opened
    omega
  started := by
    have hlive := hw.live
    have hstarted := h.started
    omega

/-- Anything else that does not use the counters. -/
theorem beside (h : Attends start n k s launcher acc) (hc : Coherent s' launcher' acc')
    (hb : Books s') (hold : s.jobs.size ≤ s'.jobs.size) (hthere : s.feeders.size ≤ s'.feeders.size)
    (hf : Follows s' launcher' n k) (hlive : s'.live = s.live)
    (hopen : s'.pipes.openEnds = s.pipes.openEnds) (hends : s'.endsFrom k = s.endsFrom k)
    (hfeeder : s'.feederEnds n = s.feederEnds n) (hstarted : s'.liveFrom k = s.liveFrom k) :
    Attends start n k s' launcher' acc' :=
  h.within hc hb hold hthere hf ⟨by rw [hopen, hends, hfeeder], by rw [hlive, hstarted]⟩

theorem stage_turn {i : Nat} (h : Attends start n k s launcher acc)
    (ha : System.Spares n k s (.stage i refusal))
    (hp : s.perform (.stage i refusal) = some s') :
    ∃ launcher' acc', Attends start n k s' launcher' acc' := by
  have hbooks := h.toCoherent.books_perform h.toBooks hp
  obtain ⟨-, -, -, hfeeders, hwithin, hbeside⟩ := h.toCoherent.stage_count h.balanced hp
  obtain ⟨job, run, e, q, t, hjob, hrun, -, hmeets, hs', hc⟩ := h.toCoherent.stage_turn hp
  have ho := hmeets.occurs
  have hjobs : s'.jobs = t.jobs.modify i fun job => { job with run := some q } := by rw [hs']
  have hsize : s.jobs.size ≤ s'.jobs.size := by
    rw [hjobs, Array.size_modify]
    exact ho.size_le
  have hthere : s.feeders.size ≤ s'.feeders.size := by rw [hfeeders]
  have hfeeder : s'.feederEnds n = s.feederEnds n := by
    rw [System.feederEnds, hfeeders, System.feederEnds]
  have hfollows : ((Holder.stage i = .feeder n ∨ ∃ j, k ≤ j ∧ Holder.stage i = .stage j) ∨
      System.added e = 0) → Follows s' (lineage s.jobs.size (.stage i) launcher e) n k := by
    intro hP
    refine (h.follows.occurs ho hP).of_jobs fun {j job'} hj hr => ?_
    rw [hjobs] at hj
    rcases job_of_modify hj with ⟨rfl, old, hold, rfl⟩ | ⟨-, hj⟩
    · obtain rfl := Option.some.inj ((ho.job_of hjob).symm.trans hold)
      exact ⟨job, hold, by rw [hrun]; rfl⟩
    · exact ⟨job', hj, hr⟩
  by_cases hk : k ≤ i
  · have hw := hwithin k (s.feederEnds n) h.old hk
    rw [← hfeeder] at hw
    exact ⟨_, _, h.within hc hbooks hsize hthere (hfollows (.inl (.inr ⟨i, hk, rfl⟩)))
      (by rw [← hfeeder]; exact hw)⟩
  · obtain ⟨hlive, hopen⟩ := ha.resolve_left (fun hb => hk (of_decide_eq_true hb)) _ hp
    obtain ⟨new, hstart, hends, hstarted⟩ := hbeside k h.old (Nat.lt_of_not_le hk)
    change s'.live = s.live at hlive
    obtain rfl : new = 0 := by omega
    have hadded : System.added e = 0 := by
      have hlive' : s'.live = t.live := by rw [hs']
      have := ho.live
      omega
    exact ⟨_, _, h.beside hc hbooks hsize hthere (hfollows (.inr hadded)) hlive hopen hends
      hfeeder hstarted⟩

theorem feeder_turn {m : Nat} (h : Attends start n k s launcher acc)
    (ha : System.Spares n k s (.feeder m refusal))
    (hp : s.perform (.feeder m refusal) = some s') :
    ∃ launcher' acc', Attends start n k s' launcher' acc' := by
  have hbooks := h.toCoherent.books_perform h.toBooks hp
  obtain ⟨-, -, -, ⟨run, q, hrun, hfeeders, hwithin⟩, hbeside⟩ :=
    h.toCoherent.feeder_count h.balanced hp
  obtain ⟨run', e, q', t, -, hmeets, hs', hc⟩ := h.toCoherent.feeder_turn hp
  have ho := hmeets.occurs
  have hsize : s.jobs.size ≤ s'.jobs.size := by
    rw [hs']
    exact ho.size_le
  have hthere : s.feeders.size ≤ s'.feeders.size := by rw [hfeeders, Array.size_modify]
  have hfollows : ((Holder.feeder m = .feeder n ∨ ∃ j, k ≤ j ∧ Holder.feeder m = .stage j) ∨
      System.added e = 0) → Follows s' (lineage s.jobs.size (.feeder m) launcher e) n k := by
    intro hP
    refine (h.follows.occurs ho hP).of_jobs fun {j job'} hj hr => ?_
    rw [hs'] at hj
    exact ⟨job', hj, hr⟩
  by_cases hm : m = n
  · subst hm
    have hbefore : s.feederEnds m = run.ends := by
      rw [System.feederEnds, hrun]
      rfl
    have hafter : s'.feederEnds m = q.ends := by
      rw [System.feederEnds, hfeeders, Array.getElem?_modify, if_pos rfl, hrun]
      rfl
    have hw := hwithin k h.old
    rw [← hbefore, ← hafter] at hw
    exact ⟨_, _, h.within hc hbooks hsize hthere (hfollows (.inl (.inl rfl))) hw⟩
  · obtain ⟨hlive, hopen⟩ := ha.resolve_left (fun hb => hm (eq_of_beq hb)) _ hp
    obtain ⟨new, hstart, hends, hstarted⟩ := hbeside k h.old
    change s'.live = s.live at hlive
    obtain rfl : new = 0 := by omega
    have hadded : System.added e = 0 := by
      have hlive' : s'.live = t.live := by rw [hs']
      have := ho.live
      omega
    have hfeeder : s'.feederEnds n = s.feederEnds n := by
      rw [System.feederEnds, hfeeders, Array.getElem?_modify, if_neg hm, System.feederEnds]
    exact ⟨_, _, h.beside hc hbooks hsize hthere (hfollows (.inr hadded)) hlive hopen hends
      hfeeder hstarted⟩

theorem finish_turn {i : Nat} (h : Attends start n k s launcher acc)
    (ha : System.Spares n k s (.finish i)) (hp : s.perform (.finish i) = some s') :
    ∃ launcher' acc', Attends start n k s' launcher' acc' := by
  have hbooks := h.toCoherent.books_perform h.toBooks hp
  obtain ⟨hpos, -, -, -, hfeeders, hwithin⟩ := h.toCoherent.finish_count h.live hp
  obtain ⟨job, stage, result, hjob, hrun, -, hs', hc⟩ := h.toCoherent.finish_turn hp
  have hjobs : s'.jobs = s.jobs.modify i fun job => { job with ended := true } := by rw [hs']
  have hk : k ≤ i := by
    refine of_decide_eq_true (ha.resolve_right fun hspares => ?_)
    obtain ⟨hlive, -⟩ := hspares _ hp
    change s'.live = s.live at hlive
    omega
  have hfeeder : s'.feederEnds n = s.feederEnds n := by
    rw [System.feederEnds, hfeeders, System.feederEnds]
  have hw := hwithin k (s.feederEnds n) hk
  refine ⟨_, _, h.within hc hbooks (by rw [hjobs, Array.size_modify]) (by rw [hfeeders]) ?_
    (by rw [hfeeder]; exact hw)⟩
  refine h.follows.of_jobs fun {j job'} hj hr => ?_
  rw [hjobs] at hj
  rcases job_of_modify hj with ⟨rfl, old, hold, rfl⟩ | ⟨-, hj⟩
  · exact ⟨old, hold, hr⟩
  · exact ⟨job', hj, hr⟩

theorem launch_turn (h : Attends start n k s launcher acc)
    (ha : System.Spares n k s (.launch refusal)) (hp : s.perform (.launch refusal) = some s') :
    ∃ launcher' acc', Attends start n k s' launcher' acc' := by
  have hbooks := h.toCoherent.books_perform h.toBooks hp
  have hc := h.toCoherent.launch_turn hp
  obtain ⟨hlive, hopen⟩ := ha.resolve_left Bool.false_ne_true _ hp
  have hsize := System.perform_launch_size hp
  obtain ⟨writers, rfl, -⟩ := System.perform_launch hp
  have hstart := System.live_launch s refusal
  change (s.launch refusal).2.live = s.live at hlive
  have hnone : refusal.isNone.toNat = 0 := by omega
  have hends := s.sumFrom_launch fresh_ends h.old refusal
  have hstarted := s.sumFrom_launch fresh_live h.old refusal
  rw [hnone] at hends hstarted
  have hfeeders := s.feeders_launch refusal
  refine ⟨_, _, h.beside hc hbooks (by rw [hsize]; exact Nat.le_succ _) (Nat.le_of_eq ?_) ?_
    hlive hopen hends ?_ hstarted⟩
  · exact congrArg Array.size hfeeders.symm
  · have hoccurs : s.Occurs refusal (some (.launched (s.launch refusal).1)) _ := .launch
    exact h.follows.occurs (P := .outside s.jobs.size) hoccurs
      (.inr ((s.added_launch refusal).trans hnone))
  · exact congrArg (fun feeders : Array Feeder.Run => ((feeders[n]?).map Feeder.Run.ends).getD 0)
      hfeeders

theorem perform {a : System.Action} (h : Attends start n k s launcher acc)
    (ha : System.Spares n k s a) (hp : s.perform a = some s') :
    ∃ launcher' acc', Attends start n k s' launcher' acc' := by
  have pipes : a.onPipes = true → a.belongs n k = false →
      ∃ launcher' acc', Attends start n k s' launcher' acc' := by
    intro hpipes hbelongs
    obtain ⟨hlive, hopen⟩ := ha.resolve_left (by rw [hbelongs]; exact Bool.false_ne_true) _ hp
    have hbooks := h.toCoherent.books_perform h.toBooks hp
    obtain ⟨acc', hc⟩ := h.toCoherent.pipes_turn hpipes hp
    obtain ⟨pipes, writers, readers, rfl⟩ := System.perform_onPipes hpipes hp
    exact ⟨_, _, h.beside hc hbooks (Nat.le_refl _) (Nat.le_refl _) h.follows hlive hopen rfl rfl
      rfl⟩
  cases a with
  | stage i refusal => exact h.stage_turn ha hp
  | feeder m refusal => exact h.feeder_turn ha hp
  | finish i => exact h.finish_turn ha hp
  | launch refusal => exact h.launch_turn ha hp
  | feed range =>
    have hbooks := h.toCoherent.books_perform h.toBooks hp
    cases hp
    refine ⟨_, _, h.beside (h.toCoherent.feed_turn range) hbooks (Nat.le_refl _) ?_ h.follows rfl
      rfl rfl ?_ rfl⟩
    · rw [Array.size_push]
      exact Nat.le_succ _
    · show (((s.feeders.push (Feeder.run range))[n]?).map Feeder.Run.ends).getD 0 = _
      rw [Array.getElem?_push_lt h.there, System.feederEnds, Array.getElem?_eq_getElem h.there]
  | _ => exact pipes rfl rfl

/-- A feeder that has just been set to work holds nothing. -/
theorem of_feed {range : Candidates} (hc : Coherent s launcher acc) (hb : Books s)
    (hp : s.perform (.feed range) = some s') :
    Attends s.counters s.feeders.size s.jobs.size s' launcher acc := by
  have hbooks := hc.books_perform hb hp
  cases hp
  have hnone : ∀ weight : Job → Nat, s.sumFrom weight s.jobs.size = 0 := by
    intro weight
    rw [System.sumFrom, ← Array.length_toList, List.drop_length]
    rfl
  refine ⟨hc.feed_turn range, hbooks, Nat.le_refl _, ?_, ?_, ?_, ?_⟩
  · exact (Array.size_push _).symm ▸ Nat.lt_succ_self _
  · exact fun i job hk hj => absurd (Array.getElem?_eq_some_iff.1 hj).1 (Nat.not_lt_of_le hk)
  · show s.pipes.openEnds = s.pipes.openEnds + (s.endsFrom s.jobs.size +
      (((s.feeders.push (Feeder.run range))[s.feeders.size]?).map Feeder.Run.ends).getD 0)
    rw [System.endsFrom, hnone, Array.getElem?_push_size]
    rfl
  · show s.live = s.live + s.liveFrom s.jobs.size
    rw [System.liveFrom, hnone]
    rfl

theorem reaches (h : Attends start n k s launcher acc)
    (hr : System.Reaches (System.Spares n k) s t) :
    ∃ launcher' acc', Attends start n k t launcher' acc' := by
  induction hr with
  | refl => exact ⟨_, _, h⟩
  | step before may does ih =>
    obtain ⟨_, _, h'⟩ := ih
    exact h'.perform may does

/-- When the feeder has come to its end, all stages that descend from it have finished. -/
theorem ended (h : Attends start n k s launcher acc) {run : Feeder.Run}
    (hrun : s.feeders[n]? = some run) {result : Except Fault Nat}
    (ho : run.outcome? = some result) (i : Nat) (hk : k ≤ i) {job : Job}
    (hj : s.jobs[i]? = some job) : job.ended = true := by
  -- From the first stage on: a stage is reaped by whoever has launched it.
  induction i using Nat.strongRecOn generalizing job with
  | ind i ih =>
    cases hr : job.run with
    | none => exact (h.refused hj (by rw [hr]; rfl)).1
    | some r =>
      have hsome : job.run.isSome = true := by rw [hr]; rfl
      have hnamed := h.named hj
      rw [if_pos hsome] at hnamed
      rcases h.follows i job hk hj hsome with hl | ⟨j, hkj, hl⟩
      · rw [hl] at hnamed
        have hreaped := Feeder.Run.reaped_of_finished (h.feeder hrun) ho (by rw [hnamed]; rfl)
        obtain ⟨child, job', hchild, hj', he⟩ := h.reaped hreaped
        rw [hnamed] at hchild
        cases hchild
        obtain rfl := Option.some.inj (hj.symm.trans hj')
        exact he
      · have hlt := h.older hl
        have hj' := Array.getElem?_eq_getElem
          (Nat.lt_trans hlt (Array.getElem?_eq_some_iff.1 hj).1)
        obtain ⟨job', hjob', he⟩ := (h.released hj' (ih j hlt hkj hj')).2 hl
        obtain rfl := Option.some.inj (hj.symm.trans hjob')
        exact he

theorem settled (h : Attends start n k s launcher acc)
    (ho : ((s.feeders[n]?).bind Feeder.Run.outcome?).isSome = true) :
    s.counters.live = start.live ∧ s.counters.openEnds = start.openEnds := by
  obtain ⟨result, ho⟩ := Option.isSome_iff_exists.1 ho
  obtain ⟨run, hrun, ho⟩ := Option.bind_eq_some_iff.1 ho
  have nothing : ∀ {weight : Job → Nat}, (∀ {i : Nat} {job : Job}, s.jobs[i]? = some job →
      job.ended = true → weight job = 0) → s.sumFrom weight k = 0 := by
    intro weight hw
    rw [System.sumFrom, List.sum_eq_zero_iff_forall_eq_nat]
    intro x hx
    obtain ⟨job, hmem, rfl⟩ := List.mem_map.1 hx
    obtain ⟨i, hi, rfl⟩ := List.mem_drop_iff_getElem.1 hmem
    have hget : s.jobs[k + i]? = some (s.jobs.toList[k + i]) := by
      rw [← Array.getElem?_toList, List.getElem?_eq_getElem]
    exact hw hget (h.ended hrun ho (k + i) (Nat.le_add_right k i) hget)
  have hends : s.endsFrom k = 0 := by
    refine nothing fun {i job} hj he => ?_
    obtain ⟨job', hj', -, hz, -⟩ := (h.released hj he).1.job
    obtain rfl := Option.some.inj (hj.symm.trans hj')
    exact hz
  have hlive : s.liveFrom k = 0 := by
    refine nothing fun {i job} hj he => ?_
    rw [Job.isLive, he, Bool.not_true, Bool.and_false]
    rfl
  have hfeeder : s.feederEnds n = 0 := by
    rw [System.feederEnds, hrun]
    show run.task.ends = 0
    rw [Feeder.Run.outcome?] at ho
    split at ho
    · next htask =>
      rw [htask]
      rfl
    · cases ho
  have hopened := h.opened
  have hstarted := h.started
  rw [hends, hfeeder] at hopened
  rw [hlive] at hstarted
  exact ⟨hstarted, hopened⟩

end Attends

/-! ## The counters at any time -/

/-- The counters say what there is, and nothing is ever taken from a count of zero. -/
structure Accurate (s : System) : Prop where
  /-- The open ends are those that have not been given up. -/
  ends : s.counters.openEnds = s.pipes.ends
  /-- Someone holds each of them. -/
  held : s.counters.openEnds = s.ends
  live : s.counters.live = s.jobs.toList.countP Job.isLive
  launched : s.counters.live ≤ s.counters.launched
  /-- An end may be given up at any time; one of a new pipe is given up at once if no thread
  can be started. -/
  exact : s.pipes.Exact ∧ s.pipes.create.2.Exact ∧
    (s.pipes.create.2.dropWriter s.pipes.pipes.size).2.Exact
  finish : ∀ n t, s.perform (.finish n) = some t → t.counters.live + 1 = s.counters.live

theorem liveFrom_zero (s : System) : s.liveFrom 0 = s.jobs.toList.countP Job.isLive := by
  show (s.jobs.toList.map fun job => job.isLive.toNat).sum = _
  induction s.jobs.toList with
  | nil => rfl
  | cons job jobs ih =>
    rw [List.map_cons, List.sum_cons, List.countP_cons, ih, Nat.add_comm]
    cases job.isLive <;> rfl

theorem Coherent.accurate (h : Coherent s launcher acc) (hb : Books s) : Accurate s where
  ends := hb.balanced
  held := hb.ends
  live := hb.live.trans (liveFrom_zero s)
  launched := by
    have hle := @List.countP_le_length _ Job.isLive s.jobs.toList
    rw [← liveFrom_zero, ← hb.live] at hle
    exact hle
  exact := ⟨hb.balanced.exact, hb.balanced.create.exact, hb.balanced.create.dropWriter.exact⟩
  finish := fun _ _ hp => (h.finish_count hb.live hp).1

/-- Whatever has happened since nothing had, the parties accord with accounts, and the counters
with the books. -/
theorem Chronicle.books {ceiling : Option Int32} {capacity : Option Nat} {record : Array UInt8}
    {actions : List System.Action} {c : Chronicle}
    (h : Chronicle.follow { system := { ceiling, capacity, record } } actions = some c) :
    ∃ acc, Coherent c.system c.launcher acc ∧ Books c.system := by
  refine @Chronicle.follow_keeps (fun _ => True)
    (fun c => ∃ acc, Coherent c.system c.launcher acc ∧ Books c.system) ?_ _ _ actions
    (fun _ _ => trivial) ?_ h
  · rintro c c' a - ⟨acc, hc, hb⟩ hp
    obtain ⟨acc', hc'⟩ := hc.perform hp
    obtain ⟨t, ht, rfl⟩ := Option.map_eq_some_iff.1 hp
    exact ⟨acc', hc', hc.books_perform hb ht⟩
  · exact ⟨_, coherent_idle ceiling capacity record, books_idle ceiling capacity record⟩

/-- Whatever has happened and in whatever order, the counters say what there is. Whoever reaps
a stage learns that the stage and all that descend from it have finished and hold nothing; and
when a feeder has come to its end and nothing else has used the counters since it was set to
work, they are what they were then. -/
theorem Chronicle.counters_exact {ceiling : Option Int32} {capacity : Option Nat}
    {record : Array UInt8} {actions : List System.Action} {c : Chronicle}
    (h : Chronicle.follow { system := { ceiling, capacity, record } } actions = some c) :
    Accurate c.system ∧
      (∀ child result, c.system.verdict child = some result →
        ∀ i, Descends c.launcher child.index i → Released c.system c.launcher i) ∧
      ∀ range s t, c.system.perform (.feed range) = some s →
        System.Reaches (System.Spares c.system.feeders.size c.system.jobs.size) s t →
        ((t.feeders[c.system.feeders.size]?).bind Feeder.Run.outcome?).isSome = true →
        t.counters.live = c.system.counters.live ∧
          t.counters.openEnds = c.system.counters.openEnds := by
  obtain ⟨acc, hc, hb⟩ := Chronicle.books h
  refine ⟨hc.accurate hb, fun child result hv i hd => ?_, fun range s t hs hreach ho => ?_⟩
  · obtain ⟨job, stage, report, hj, he, -, -⟩ := System.verdict_eq_some hv
    exact hc.released_of_descends hj he hd
  · obtain ⟨launcher', acc', hattends⟩ := (Attends.of_feed hc hb hs).reaches hreach
    exact hattends.settled ho

/-- A chronicle reaches what it can follow. -/
theorem Chronicle.reaches {allowed : System → System.Action → Prop} {c c' : Chronicle}
    {actions : List System.Action} (hall : ∀ a ∈ actions, ∀ s, allowed s a)
    (h : c.follow actions = some c') : System.Reaches allowed c.system c'.system := by
  refine @Chronicle.follow_keeps (fun a => ∀ s, allowed s a)
    (fun d => System.Reaches allowed c.system d.system) ?_ c c' actions hall .refl h
  intro d d' a ha hr hp
  obtain ⟨t, ht, rfl⟩ := Option.map_eq_some_iff.1 hp
  exact hr.step (ha d.system) ht

/-- A feeder comes to its end beside a stage that goes on, a pipe, and a stage of which the
thread could not be started. -/
theorem Chronicle.counters_exact_beside_others :
    ∃ before meanwhile c d,
      Chronicle.follow { system := { capacity := some 3 } } before = some c ∧
      c.follow (.feed ⟨2, 3⟩ :: meanwhile) = some d ∧ c.system.counters.live = 1 ∧
      c.system.counters.openEnds = 4 ∧ Accurate d.system ∧ Released d.system d.launcher 3 ∧
      d.system.counters.live = 1 ∧ d.system.counters.openEnds = 4 := by
  let start : Chronicle := { system := { capacity := some 3 } }
  let before : List System.Action := [.launch none, .create, .launch (some "no more threads")]
  let meanwhile : List System.Action :=
    [.feeder 0 none, .feeder 0 none, .feeder 0 none, .stage 2 none, .feeder 0 none,
      .feeder 0 none, .stage 2 none, .stage 2 none, .stage 2 none, .stage 2 none, .stage 2 none,
      .stage 2 none, .stage 2 none, .stage 2 none, .stage 2 none, .stage 2 none, .stage 2 none,
      .stage 2 none, .stage 3 none, .stage 3 none, .stage 3 none, .finish 3, .stage 2 none,
      .stage 2 none, .stage 2 none, .finish 2, .feeder 0 none]
  have hbegins : (start.follow before).map (fun c => (c.system.counters.live,
      c.system.counters.openEnds, c.system.feeders.size, c.system.jobs.size)) =
        some (1, 4, 0, 2) := by decide +kernel
  have hends : ((start.follow before).bind fun c => c.follow (.feed ⟨2, 3⟩ :: meanwhile)).map
      (fun d => (((d.system.feeders[0]?).bind Feeder.Run.outcome?).isSome,
        (d.system.verdict ⟨2, threadLabel 2⟩).isSome, decide (d.launcher 3 = .stage 2))) =
        some (true, true, true) := by decide +kernel
  -- It is enough to evaluate that the feeder comes to its end: the rest is the theorem's.
  obtain ⟨c, hc, hcounts⟩ := Option.map_eq_some_iff.1 hbegins
  obtain ⟨d, hd, hdone⟩ := Option.map_eq_some_iff.1 hends
  rw [hc, Option.bind_some] at hd
  simp only [Prod.mk.injEq] at hcounts hdone
  obtain ⟨hlive, hopen, hfeeders, hjobs⟩ := hcounts
  obtain ⟨houtcome, hverdict, hlauncher⟩ := hdone
  obtain ⟨-, -, hfed⟩ := Chronicle.counters_exact hc
  have hall : start.follow (before ++ .feed ⟨2, 3⟩ :: meanwhile) = some d := by
    rw [Chronicle.follow_append, hc, Option.bind_some, hd]
  obtain ⟨haccurate, hreleased, -⟩ := Chronicle.counters_exact hall
  obtain ⟨result, hverdict⟩ := Option.isSome_iff_exists.1 hverdict
  rw [Chronicle.follow_cons] at hd
  obtain ⟨c', hfeed, hrest⟩ := Option.bind_eq_some_iff.1 hd
  obtain ⟨s, hs, rfl⟩ := Option.map_eq_some_iff.1 hfeed
  obtain ⟨hlive', hopen'⟩ := hfed ⟨2, 3⟩ s d.system hs
    (Chronicle.reaches (fun a ha s => .inl (by rw [hfeeders, hjobs]; revert a; decide)) hrest)
    (by rw [hfeeders]; exact houtcome)
  exact ⟨before, meanwhile, c, d, hc, by rw [Chronicle.follow_cons, hfeed]; exact hrest, hlive,
    hopen, haccurate, hreleased _ result hverdict 3 (.single (of_decide_eq_true hlauncher)),
    hlive'.trans hlive, hopen'.trans hopen⟩

end Concurrent

end SieveChain
