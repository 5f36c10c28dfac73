import SieveChain.Proofs.Accounting
import SieveChain.Proofs.StageEffort
import Mathlib.Algebra.Order.BigOperators.Group.Finset

/-!
# Flows

A flow is a chain of stages and whoever supplies the first of them: a feeder, or someone
outside who writes a stream of bytes in pieces of any size. Any launch may fail. Whatever the
schedule and however small the pipes, a flow that has not come to its end can go on, and it
cannot go on for ever: each stage gives up its output before it waits for its child.
-/

namespace SieveChain.Concurrent

open Wire

/-- How a flow is supplied: with a range by a feeder, or with bytes from outside. -/
inductive Supply
  | range (c : Candidates)
  | stream (bytes : List UInt8)

/-- Whoever supplies the first stage of a flow. -/
inductive Head
  /-- A feeder. -/
  | feeder (n : Nat)
  /-- Someone outside, with the bytes still to be written to a pipe; none of them once its
  writing end has been given up. -/
  | stream (pipe : Nat) (rest : Option (List UInt8))
  /-- Someone outside who could not launch the first stage. -/
  | refused

/-- A chain of stages, counted from the first of its launches on, and its supply. -/
structure Flow where
  system : System
  first : Nat
  head : Head

namespace Flow

/-- A turn in a flow: of the supply, which may write any number of bytes at once, but at least
one; or of a stage, by its place in the chain. -/
inductive Turn
  | supply (most : Nat)
  | stage (n : Nat)
  | finish (n : Nat)

/-- What is left of a stream after a write; after a failure, nothing more is written. -/
def left (rest : List UInt8) : Option (WriteReply × System) → List UInt8
  | some (.took n, _) => rest.drop n
  | _ => []

/-- The supply takes its turn. -/
def supply (w : Flow) (refusal : Refusal) (most : Nat) : Option Flow :=
  match w.head with
  | .feeder n => (w.system.perform (.feeder n refusal)).map fun system => { w with system }
  | .stream pipe (some (b :: rest)) =>
    let piece := (b :: rest).take (most + 1)
    (w.system.perform (.write pipe piece)).map fun system =>
      { w with system, head := .stream pipe (some (left (b :: rest) (w.system.offer pipe piece))) }
  | .stream pipe (some []) =>
    (w.system.perform (.dropWriter pipe)).map fun system =>
      { w with system, head := .stream pipe none }
  | _ => none

/-- Takes a turn, if it is possible. Launches are refused by their numbers. -/
def take (refuse : Nat → Refusal) (w : Flow) : Turn → Option Flow
  | .supply most => w.supply (refuse w.system.jobs.size) most
  | .stage n =>
    (w.system.perform (.stage (w.first + n) (refuse w.system.jobs.size))).map fun system =>
      { w with system }
  | .finish n =>
    (w.system.perform (.finish (w.first + n))).map fun system => { w with system }

/-- Takes turns one after the other, if they are possible. -/
def follow (refuse : Nat → Refusal) (w : Flow) (schedule : List Turn) : Option Flow :=
  schedule.foldlM (take refuse) w

/-- Whoever supplies a flow has come to the end: the feeder has a result, or whoever has
launched the first stage has given up its pipe and can reap it. -/
def returned (w : Flow) : Bool :=
  match w.head with
  | .feeder n => ((w.system.feeders[n]?).bind Feeder.Run.outcome?).isSome
  | .stream _ rest =>
    rest.isNone && (w.system.verdict ⟨w.first, threadLabel w.first⟩).isSome
  | .refused => true

end Flow

/-- How a flow begins. -/
def Supply.begin (refuse : Nat → Refusal) (s : System) : Supply → Option Flow
  | .range c => (s.perform (.feed c)).map fun system =>
    { system, first := s.jobs.size, head := .feeder s.feeders.size }
  | .stream bytes => (s.perform (.launch (refuse s.jobs.size))).map fun system =>
    { system, first := s.jobs.size,
      head := match refuse s.jobs.size with
        | none => .stream s.pipes.pipes.size (some bytes)
        | some _ => .refused }

/-- What comes of a flow in a system. -/
def Flow.run (refuse : Nat → Refusal) (s : System) (supply : Supply) (schedule : List Flow.Turn) :
    Option Flow :=
  (supply.begin refuse s).bind fun w => w.follow refuse schedule

variable {s s' t : System} {launcher : Nat → Holder} {acc : Holder → Account} {P : Holder}
  {refusal : Refusal} {e : Option Event} {refuse : Nat → Refusal} {w w' : Flow}

/-! ## Waiting -/

/-- What a party waits for that cannot have its next operation: bytes on an empty pipe that can
still be written to, room in the pipe of a child that still reads, or the end of a child to
which it has given up the pipe. -/
inductive Waits {σ : Type} (s : System) (acc : Holder → Account) (P : Holder) : Move σ → Prop
  | rest : Waits s acc P .rest
  | read {room n : Nat} {next : ReadReply → σ} {job : Job} (hP : P = .stage n)
      (hj : s.jobs[n]? = some job) (hempty : (s.pipes.get job.pipe).pending = [])
      (hw : (s.pipes.get job.pipe).writer = true) : Waits s acc P (.read room next)
  | send {child : Child} {bytes : List UInt8} {next : WriteReply → σ} {job : Job}
      (hk : (acc P).child = some child) (hj : s.jobs[child.index]? = some job)
      (hr : (s.pipes.get job.pipe).reader = true)
      (hfull : (s.pipes.get job.pipe).pending ≠ []) : Waits s acc P (.send child bytes next)
  | reap {child : Child} {next : Except Fault Unit → σ} {job : Job}
      (hk : (acc P).child = some child) (hj : s.jobs[child.index]? = some job)
      (hended : job.ended = false) (hw : (s.pipes.get job.pipe).writer = false) :
      Waits s acc P (.reap child next)

/-- The moves of a party that has no input. -/
def Inputless {σ : Type} : Move σ → Prop
  | .read _ _ | .leave _ => False
  | _ => True

theorem inputless_feeder (r : Feeder.Run) : Inputless r.move := by
  obtain ⟨candidates, notices, task⟩ := r
  cases task <;> trivial

/-- A write to a pipe that is held at both ends waits only while the pipe is full. -/
theorem System.offer_waits {p : Nat} {bytes : List UInt8}
    (hcapacity : ∀ most, s.capacity = some most → 0 < most)
    (hw : (s.pipes.get p).writer = true) (ho : s.offer p bytes = none) :
    (s.pipes.get p).reader = true ∧ (s.pipes.get p).pending ≠ [] := by
  rw [System.offer_of_writer hw] at ho
  split at ho
  · next hwait =>
    obtain ⟨hr, hroom, hne⟩ := hwait
    refine ⟨hr, fun hempty => ?_⟩
    rw [System.room] at hroom
    have hlength : bytes.length ≠ 0 := fun hz => hne (List.length_eq_zero_iff.1 hz)
    split at hroom
    · exact hlength hroom
    · next most hmost =>
      have hpos := hcapacity most hmost
      rw [hempty, List.length_nil] at hroom
      omega
  · cases ho

/-- A stage whose pipe can still be read has not finished. -/
theorem Coherent.unended_of_reader (h : Coherent s launcher acc) {i : Nat} {job : Job}
    (hj : s.jobs[i]? = some job) (hr : (s.pipes.get job.pipe).reader = true) :
    job.ended = false := by
  rw [Bool.eq_false_iff]
  intro he
  obtain ⟨job', hj', -, -, hgone⟩ := (h.released hj he).1.job
  obtain rfl := Option.some.inj (hj.symm.trans hj')
  rw [hr] at hgone
  cases hgone

/-- A stage of which the thread has finished can be reaped. -/
theorem Coherent.verdict_of_ended (h : Coherent s launcher acc) {child : Child} {job : Job}
    (hj : s.jobs[child.index]? = some job) (hrun : job.run.isSome = true)
    (he : job.ended = true) : (s.verdict child).isSome = true := by
  obtain ⟨run, hr⟩ := Option.isSome_iff_exists.1 hrun
  obtain ⟨-, -, hfinished⟩ := h.stage hj hr
  obtain ⟨stage, result, rfl⟩ := hfinished he
  obtain ⟨pipe, run, ended⟩ := job
  dsimp only at hr he
  rw [System.verdict, hj, hr, he]
  rfl

/-- A party that cannot have its next operation waits for one of the other parties. -/
theorem Coherent.waits {σ : Type} {m : Move σ} {pipe : Option Nat} (h : Coherent s launcher acc)
    (hcapacity : ∀ most, s.capacity = some most → 0 < most) (hm : m.Permitted (acc P))
    (hin : Inputless m ∨ ∃ n job, P = .stage n ∧ s.jobs[n]? = some job ∧
      job.run.isSome = true ∧ pipe = some job.pipe)
    (ha : s.answer pipe refusal m = none) : Waits s acc P m := by
  cases m with
  | read room next =>
    obtain ⟨n, job, rfl, hj, hrun, rfl⟩ := hin.resolve_left id
    have hreader : (s.pipes.get job.pipe).reader = true := by
      rw [(h.link hj hrun).reader, hm.2.1]
      rfl
    rw [System.answer] at ha
    rw [Pipes.read, if_pos hreader] at ha
    split at ha
    · cases ha
    · next hnot =>
      cases hread : (s.pipes.get job.pipe).read room with
      | mk bytes q =>
        cases bytes with
        | some bytes =>
          rw [hread] at hnot
          exact absurd rfl (hnot bytes _)
        | none =>
          obtain ⟨hempty, hw⟩ := Pipe.read_waits hm.1 hread
          exact .read rfl hj hempty hw
  | send child bytes next =>
    obtain ⟨hne, hk, hshut⟩ := hm
    obtain ⟨job, hj, hrun, -, hp, hw⟩ := h.writer_held hk hshut
    rw [System.answer, hp] at ha
    obtain ⟨hr, hfull⟩ := System.offer_waits hcapacity hw (Option.map_eq_none_iff.1 ha)
    exact .send hk hj hr hfull
  | reap child next =>
    obtain ⟨hk, hshut, -⟩ := hm
    obtain ⟨job, hj, hrun, hl, -⟩ := h.job_of_child hk
    refine .reap hk hj ?_ ?_
    · rw [Bool.eq_false_iff]
      intro hended
      have hverdict := h.verdict_of_ended hj hrun hended
      rw [Option.map_eq_none_iff.1 ha] at hverdict
      cases hverdict
    · rw [(h.link hj hrun).writer, hl, hshut]
      rfl
  | shut child next =>
    obtain ⟨hk, -⟩ := hm
    obtain ⟨job, hj, hrun, hl, hp⟩ := h.job_of_child hk
    rw [System.answer, hp] at ha
    cases ha
  | leave next =>
    obtain ⟨n, job, rfl, hj, hrun, rfl⟩ := hin.resolve_left id
    cases ha
  | rest => exact .rest
  | record bytes next => cases ha
  | commit next => cases ha
  | launch next => cases ha
  | forsake child next => cases ha
  | proceed next => cases ha

/-! ## Chains in a system -/

/-- Whoever launches the stages of a flow: the supply the first of them, each stage the next. -/
def leader (root : Holder) (first : Nat) : Nat → Holder
  | 0 => root
  | n + 1 => .stage (first + n)

/-- The stages launched from a number on are a chain below a party. -/
structure Linear (s : System) (launcher : Nat → Holder) (root : Holder) (first : Nat) : Prop where
  start : first ≤ s.jobs.size
  lead : ∀ n, first + n < s.jobs.size → launcher (first + n) = leader root first n
  /-- The party above the chain is not one of its stages, and has launched nothing else. -/
  above : ∀ n, root ≠ .stage n
  before : ∀ i, i < first → launcher i ≠ root

namespace Linear

variable {root : Holder} {first n : Nat}

/-- Each party of a chain launches the stage in the place behind its own. -/
theorem index_eq (h : Linear s launcher root first) (hj : Joined s launcher acc) {i : Nat}
    (hi : i < s.jobs.size) (hl : launcher i = leader root first n) : i = first + n := by
  have hle : first ≤ i := by
    refine Nat.le_of_not_lt fun hlt => ?_
    cases n with
    | zero => exact h.before i hlt hl
    | succ n =>
      have := hj.older hl
      omega
  obtain ⟨k, rfl⟩ := Nat.exists_eq_add_of_le hle
  have hlead := h.lead k hi
  rw [hl] at hlead
  cases n with
  | zero =>
    cases k with
    | zero => rfl
    | succ k => exact absurd hlead (h.above _)
  | succ n =>
    cases k with
    | zero => exact absurd hlead.symm (h.above _)
    | succ k =>
      have := Holder.stage.inj hlead
      omega

theorem of_jobs (h : Linear s launcher root first) (hsize : t.jobs.size = s.jobs.size) :
    Linear t launcher root first :=
  { h with
    start := hsize ▸ h.start
    lead := fun n hn => h.lead n (hsize ▸ hn) }

/-- Whoever of a chain has launched nothing is the last of it. -/
theorem last (h : Linear s launcher root first) (hj : Joined s launcher acc)
    (hP : P = root ∨ ∃ n, first + n < s.jobs.size ∧ P = .stage (first + n))
    (hnone : (acc P).launches = 0) : ∃ m, s.jobs.size = first + m ∧ P = leader root first m := by
  obtain ⟨m, hm⟩ := Nat.exists_eq_add_of_le h.start
  have hnot : ∀ k, first + k < s.jobs.size → P ≠ leader root first k := by
    intro k hk hP
    refine hj.launched hk ?_
    rw [h.lead k hk, ← hP, hnone]
  refine ⟨m, hm, ?_⟩
  rcases hP with rfl | ⟨n, hn, rfl⟩
  · cases m with
    | zero => rfl
    | succ m => exact absurd rfl (hnot 0 (by omega))
  · have hlast : m = n + 1 := by
      by_contra hne
      exact hnot (n + 1) (by omega) rfl
    rw [hlast]
    rfl

/-- Only the last party of a chain launches a stage: the others have done so. -/
theorem occurs (h : Linear s launcher root first) (hj : Joined s launcher acc)
    (ho : s.Occurs refusal e t)
    (hP : P = root ∨ ∃ n, first + n < s.jobs.size ∧ P = .stage (first + n))
    (hlaunches : ∀ result, e = some (.launched result) → (acc P).launches = 0) :
    Linear t (lineage s.jobs.size P launcher e) root first := by
  cases ho with
  | launch =>
    obtain ⟨m, hm, hP'⟩ := h.last hj hP (hlaunches _ rfl)
    have hsize := s.jobs_size_launch refusal
    refine ⟨by rw [hsize]; exact Nat.le_succ_of_le h.start, fun k hk => ?_, h.above,
      fun i hi => ?_⟩
    · show Function.update launcher s.jobs.size P (first + k) = _
      rcases Nat.lt_or_eq_of_le (Nat.le_of_lt_succ (hsize ▸ hk)) with hk | hk
      · rw [Function.update_of_ne (Nat.ne_of_lt hk)]
        exact h.lead k hk
      · rw [hk, Function.update_self, hP']
        congr 1
        omega
    · show Function.update launcher s.jobs.size P i ≠ root
      rw [Function.update_of_ne (by omega)]
      exact h.before i hi
  | _ => exact h.of_jobs rfl

end Linear

/-! ## Some party can go on -/

/-- Some stage from a place of the chain on can go on, or its thread can finish. -/
def Moves (refusal : Refusal) (s : System) (first n : Nat) : Prop :=
  ∃ k, n ≤ k ∧ ((s.perform (.stage (first + k) refusal)).isSome = true ∨
    (s.perform (.finish (first + k))).isSome = true)

namespace Coherent

variable {root : Holder} {first n : Nat}

theorem running (h : Coherent s launcher acc) {job : Job} {i : Nat} (hj : s.jobs[i]? = some job)
    (hended : job.ended = false) : ∃ run, job.run = some run := by
  rw [← Option.isSome_iff_exists]
  by_contra hn
  rw [(h.refused hj (Bool.eq_false_iff.2 hn)).1] at hended
  cases hended

/-- Whoever waits for a child, or for room in its pipe, waits for a stage that moves, or one below
that does: the child does not wait for bytes in turn, since there are some, or there will be
none. -/
theorem moves_of_waits {σ : Type} {m : Move σ} (h : Coherent s launcher acc)
    (refusal : Refusal) (hl : Linear s launcher root first) (hP : P = leader root first n)
    (hw : Waits s acc P m)
    (below : ∀ job : Job, s.jobs[first + n]? = some job → job.ended = false →
      Moves refusal s first n ∨
        ((s.pipes.get job.pipe).pending = [] ∧ (s.pipes.get job.pipe).writer = true)) :
    m = .rest ∨ (∃ i job, P = .stage i ∧ s.jobs[i]? = some job ∧
      (s.pipes.get job.pipe).pending = [] ∧ (s.pipes.get job.pipe).writer = true) ∨
      Moves refusal s first n := by
  have child_at : ∀ {child : Child} {job : Job}, (acc P).child = some child →
      s.jobs[child.index]? = some job → s.jobs[first + n]? = some job := by
    intro child job hk hj
    obtain ⟨hi, hlauncher⟩ := h.child hk
    rw [← hl.index_eq h.toJoined hi (hlauncher.trans hP)]
    exact hj
  cases hw with
  | rest => exact .inl rfl
  | read hP hj hempty hw => exact .inr (.inl ⟨_, _, hP, hj, hempty, hw⟩)
  | @send child bytes next job hk hj hr hfull =>
    have hj' := child_at hk hj
    refine .inr (.inr ((below job hj' (h.unended_of_reader hj hr)).resolve_right
      fun hstarved => ?_))
    exact hfull hstarved.1
  | @reap child next job hk hj hended hw =>
    refine .inr (.inr ((below job (child_at hk hj) hended).resolve_right fun hstarved => ?_))
    rw [hw] at hstarved
    exact Bool.false_ne_true hstarved.2

/-- A stage with a thread that has not finished moves, or one below it does, or it waits for
bytes. -/
theorem moves (h : Coherent s launcher acc) (hl : Linear s launcher root first)
    (hcapacity : ∀ most, s.capacity = some most → 0 < most) (refusal : Refusal) (m : Nat)
    {n : Nat} (hm : first + n + m = s.jobs.size) {job : Job}
    (hj : s.jobs[first + n]? = some job) (hended : job.ended = false) :
    Moves refusal s first n ∨
      ((s.pipes.get job.pipe).pending = [] ∧ (s.pipes.get job.pipe).writer = true) := by
  -- From the end of the chain upwards: `m` stages stand from this one on.
  induction m generalizing n job with
  | zero => exact absurd (Array.getElem?_eq_some_iff.1 hj).1 (by omega)
  | succ m ih =>
    obtain ⟨run, hrun⟩ := h.running hj hended
    obtain ⟨hacc, -, -⟩ := h.stage hj hrun
    have hsome : job.run.isSome = true := by rw [hrun]; rfl
    obtain ⟨pipe, jobRun, ended⟩ := job
    dsimp only at hrun hended
    subst hrun hended
    cases ha : s.answer (some pipe) refusal run.move with
    | some outcome =>
      refine .inl ⟨n, Nat.le_refl n, .inl ?_⟩
      rw [System.perform, hj]
      show ((s.answer (some pipe) refusal run.move).map _).isSome = true
      rw [ha]
      rfl
    | none =>
      have hwaits := h.waits hcapacity (Stage.Run.permitted hacc)
        (.inr ⟨first + n, _, rfl, hj, hsome, rfl⟩) ha
      have hmoves := h.moves_of_waits refusal (n := n + 1) hl rfl hwaits
        fun job' hj' he' => ih (by omega) hj' he'
      rcases hmoves with hrest | ⟨i, job', hP, hj', hempty, hw⟩ | ⟨k, hk, hmove⟩
      · obtain ⟨stage, result, rfl⟩ := Stage.Run.finished_of_rest hrest
        refine .inl ⟨n, Nat.le_refl n, .inr ?_⟩
        rw [System.perform, hj]
        rfl
      · obtain rfl := Holder.stage.inj hP
        obtain rfl := Option.some.inj (hj.symm.trans hj')
        exact .inr ⟨hempty, hw⟩
      · exact .inl ⟨k, Nat.le_of_succ_le hk, hmove⟩

end Coherent

/-! ## Flows and their accounts -/

/-- The party above the chain of a flow. -/
def Flow.root (w : Flow) : Holder :=
  match w.head with
  | .feeder n => .feeder n
  | _ => .outside w.first

/-- The supply of a chain, which never sends more than a number of bytes. -/
inductive Supplied (s : System) (acc : Holder → Account) (first total : Nat) : Head → Prop
  | feeder {n : Nat} {run : Feeder.Run} (hr : s.feeders[n]? = some run)
      (ht : width * run.candidates.count ≤ total) : Supplied s acc first total (.feeder n)
  | stream {pipe : Nat} {rest : Option (List UInt8)} {job : Job} (hj : s.jobs[first]? = some job)
      (hrun : job.run.isSome = true) (hp : job.pipe = pipe)
      (ht : (acc (.outside first)).sent.length + (rest.getD []).length ≤ total)
      (hs : (acc (.outside first)).shut = rest.isNone) :
      Supplied s acc first total (.stream pipe rest)
  | refused {job : Job} (hj : s.jobs[first]? = some job) (hrun : job.run.isSome = false) :
      Supplied s acc first total .refused

/-- A flow among parties in accord with their accounts. -/
structure Flowing (total : Nat) (w : Flow) (launcher : Nat → Holder) (acc : Holder → Account) :
    Prop extends Coherent w.system launcher acc, Linear w.system launcher w.root w.first where
  room : ∀ most, w.system.capacity = some most → 0 < most
  supplied : Supplied w.system acc w.first total w.head

namespace Flowing

variable {total : Nat}

theorem take_of_moves (h : Moves (refuse w.system.jobs.size) w.system w.first 0) :
    ∃ turn, (w.take refuse turn).isSome = true := by
  obtain ⟨k, -, hmove | hmove⟩ := h
  · exact ⟨.stage k, by rw [Flow.take, Option.isSome_map]; exact hmove⟩
  · exact ⟨.finish k, by rw [Flow.take, Option.isSome_map]; exact hmove⟩

/-- The first stage moves, or one below it does, or it waits for bytes. -/
theorem first_moves (h : Flowing total w launcher acc) (refusal : Refusal) {job : Job}
    (hj : w.system.jobs[w.first + 0]? = some job) (hended : job.ended = false) :
    Moves refusal w.system w.first 0 ∨
      ((w.system.pipes.get job.pipe).pending = [] ∧
        (w.system.pipes.get job.pipe).writer = true) := by
  obtain ⟨m, hm⟩ := Nat.exists_eq_add_of_le h.start
  exact h.toCoherent.moves h.toLinear h.room refusal m (by omega) hj hended

theorem take_of_supply {most : Nat}
    (h : (w.supply (refuse w.system.jobs.size) most).isSome = true) :
    ∃ turn, (w.take refuse turn).isSome = true := ⟨.supply most, h⟩

theorem feeder_goes_on (h : Flowing total w launcher acc) {n : Nat} {run : Feeder.Run}
    (hhead : w.head = .feeder n) (hr : w.system.feeders[n]? = some run)
    (hrun : run.outcome? = none) : ∃ turn, (w.take refuse turn).isSome = true := by
  cases ha : w.system.answer none (refuse w.system.jobs.size) run.move with
  | some outcome =>
    refine @take_of_supply refuse w 0 ?_
    rw [Flow.supply, hhead]
    show ((w.system.perform (.feeder n _)).map _).isSome = true
    rw [Option.isSome_map, System.perform, hr]
    show ((w.system.answer none _ run.move).map _).isSome = true
    rw [ha]
    rfl
  | none =>
    have hwaits := h.toCoherent.waits h.room (Feeder.Run.permitted (h.feeder hr))
      (.inl (inputless_feeder run)) ha
    have hroot : Holder.feeder n = leader w.root w.first 0 := by
      rw [leader, Flow.root, hhead]
    rcases h.toCoherent.moves_of_waits (refuse w.system.jobs.size) h.toLinear hroot hwaits
        (fun _ => h.first_moves (refuse w.system.jobs.size)) with
      hrest | ⟨i, -, hP, -⟩ | hmove
    · obtain ⟨result, ho⟩ := Feeder.Run.finished_of_rest hrest
      rw [hrun] at ho
      cases ho
    · cases hP
    · exact take_of_moves hmove

/-- Once the pipe has been given up, the first stage does not wait for bytes. -/
theorem closed_goes_on (h : Flowing total w launcher acc) {job : Job}
    (hj : w.system.jobs[w.first]? = some job) (hended : job.ended = false)
    (hw : (w.system.pipes.get job.pipe).writer = false) :
    ∃ turn, (w.take refuse turn).isSome = true := by
  refine take_of_moves ((h.first_moves (refuse w.system.jobs.size) hj hended).resolve_right
    fun hstarved => ?_)
  rw [hw] at hstarved
  cases hstarved.2

/-- As long as the pipe has not been given up, something is written to it, or it is full and the
first stage does not wait for bytes. -/
theorem open_goes_on (h : Flowing total w launcher acc) {job : Job} {rest : List UInt8}
    (hhead : w.head = .stream job.pipe (some rest)) (hj : w.system.jobs[w.first]? = some job)
    (hgiven : job.pipe ∈ w.system.writers) (hw : (w.system.pipes.get job.pipe).writer = true) :
    ∃ turn, (w.take refuse turn).isSome = true := by
  cases rest with
  | nil =>
    refine @take_of_supply refuse w 0 ?_
    rw [Flow.supply, hhead]
    show ((w.system.perform (.dropWriter job.pipe)).map _).isSome = true
    rw [Option.isSome_map, System.perform, if_pos hgiven]
    rfl
  | cons b rest =>
    cases ho : w.system.offer job.pipe ((b :: rest).take (0 + 1)) with
    | some outcome =>
      refine @take_of_supply refuse w 0 ?_
      rw [Flow.supply, hhead]
      show ((w.system.perform (.write job.pipe ((b :: rest).take (0 + 1)))).map _).isSome = true
      rw [Option.isSome_map, System.perform, if_pos hgiven, ho]
      rfl
    | none =>
      obtain ⟨hreader, hfull⟩ := System.offer_waits h.room hw ho
      refine take_of_moves ((h.first_moves (refuse w.system.jobs.size) hj
        (h.unended_of_reader hj hreader)).resolve_right fun hstarved => ?_)
      exact hfull hstarved.1

/-- As long as whoever supplies a flow has not come to the end, some party can take a turn. -/
theorem goes_on (h : Flowing total w launcher acc) (hw : w.returned = false) :
    ∃ turn, (w.take refuse turn).isSome = true := by
  have hsupplied := h.supplied
  generalize hhead : w.head = head at hsupplied
  rw [Flow.returned, hhead] at hw
  cases hsupplied with
  | @feeder n run hr ht =>
    dsimp only at hw
    rw [hr] at hw
    exact h.feeder_goes_on hhead hr (Option.not_isSome_iff_eq_none.1 (Bool.eq_false_iff.1 hw))
  | @stream pipe rest job hj hrun hp ht hs =>
    subst hp
    dsimp only at hw
    have hlead := h.lead 0 (Array.getElem?_eq_some_iff.1 hj).1
    have hroot : launcher w.first = .outside w.first := by
      rw [Nat.add_zero] at hlead
      rw [hlead, leader, Flow.root, hhead]
    have hwriter := (h.link hj hrun).writer
    rw [hroot, hs] at hwriter
    cases rest with
    | none =>
      refine h.closed_goes_on hj (Bool.eq_false_iff.2 fun he => ?_) hwriter
      have hverdict := @Coherent.verdict_of_ended _ _ _ h.toCoherent
        ⟨w.first, threadLabel w.first⟩ job hj hrun he
      rw [hverdict] at hw
      cases hw
    | some rest => exact h.open_goes_on hhead hj (h.given hj hrun hroot hs) hwriter
  | refused hj hrun => cases hw

end Flowing

/-! ## What a flow can still do -/

/-- What is left to do of a job: of its run, of the bytes that may still come in, and of its
thread. -/
def Job.effort (total : Nat) (a : Account) (job : Job) : Nat :=
  (job.run.map Stage.Run.effort).getD 0 + 2 * (total - a.received.length) +
    if job.ended then 0 else 1

/-- A bound for what is left to do of a job that has just been launched. -/
def Job.most (total : Nat) : Nat := 2 * total + 44

/-- What is left to do of the job of a number, if there is one. -/
def System.effort (total : Nat) (s : System) (acc : Holder → Account) (i : Nat) : Nat :=
  ((s.jobs[i]?).map (Job.effort total (acc (.stage i)))).getD 0

/-- What is left to do of the supply. -/
def Head.effort (s : System) : Head → Nat
  | .feeder n => ((s.feeders[n]?).map Feeder.Run.effort).getD 0
  | .stream _ (some rest) => rest.length + 1
  | _ => 0

/-- What is left to do of a chain, with the stages that may still be launched: each of them
sends less than it receives. -/
def System.chainEffort (total : Nat) (s : System) (acc : Holder → Account) (first : Nat) : Nat :=
  ∑ n ∈ Finset.range (s.jobs.size - first), s.effort total acc (first + n) +
    (total + 2 - (s.jobs.size - first)) * Job.most total

/-- What is left to do of a flow. -/
def Flow.effort (total : Nat) (w : Flow) (acc : Holder → Account) : Nat :=
  w.system.chainEffort total acc w.first + w.head.effort w.system

theorem System.effort_of_job {total i : Nat} {job : Job} (hj : s.jobs[i]? = some job) :
    s.effort total acc i = job.effort total (acc (.stage i)) := by
  rw [System.effort, hj]
  rfl

/-- What a read brings is what has been received; nothing else brings anything. -/
theorem System.Occurs.brings (h : s.Occurs refusal e t) (a : Account) :
    Event.brings e + 2 * a.received.length = 2 * (a.after e).received.length := by
  have nothing : ∀ {e : Option Event}, Event.brings e = 0 → (a.after e).received = a.received →
      Event.brings e + 2 * a.received.length = 2 * (a.after e).received.length := by
    intro e hz hr
    rw [hz, hr, Nat.zero_add]
  cases h with
  | @read bytes pipes h =>
    cases bytes with
    | nil => exact Nat.zero_add _
    | cons b bs =>
      rw [Account.after, Account.add_bytes, List.length_append, Nat.mul_add, Nat.add_comm]
      rfl
  | launch => exact nothing rfl (by cases (s.launch refusal).1 <;> rfl)
  | broken hp hr h => exact nothing rfl rfl
  | _ => exact nothing rfl rfl

theorem System.Occurs.brings_nothing {σ : Type} {m : Move σ} {q : σ} (h : s.Occurs refusal e t)
    (hm : m.Answered e q) (hin : Inputless m) : Event.brings e = 0 := by
  cases h with
  | read h =>
    cases hm
    exact hin.elim
  | _ => rfl

/-- Whatever a party does, nothing changes about what is left to do of the other stages. -/
theorem System.Occurs.effort_other {total i : Nat} {a' : Account} (h : s.Occurs refusal e t)
    (hi : i < s.jobs.size) (hP : Holder.stage i ≠ P) :
    t.effort total (Function.update acc P a') i = s.effort total acc i := by
  have hj := Array.getElem?_eq_getElem hi
  rw [System.effort_of_job (h.job_of hj), System.effort_of_job hj, Function.update_of_ne hP]

theorem System.effort_newJob {total : Nat} (s : System) (refusal : Refusal) (a : Account) :
    (s.newJob refusal).effort total a ≤ Job.most total := by
  have hle := Nat.sub_le total a.received.length
  cases refusal with
  | none =>
    show (Stage.Run.start (Stage.new s.ceiling)).effort + 2 * (total - a.received.length) + 1 ≤ _
    rw [Stage.Run.effort_start, Job.most]
    omega
  | some reason =>
    show 0 + 2 * (total - a.received.length) + 0 ≤ _
    rw [Job.most]
    omega

/-- What becomes of the jobs of a chain in one step: none is lost, and there is at most one new
one, at a place that there is for it. -/
structure Grows (total : Nat) (s t : System) (acc' : Holder → Account) (first : Nat) : Prop where
  start : first ≤ s.jobs.size
  size : t.jobs.size = s.jobs.size ∨ (t.jobs.size = s.jobs.size + 1 ∧
    s.jobs.size - first ≤ total + 1 ∧ t.effort total acc' s.jobs.size ≤ Job.most total)

theorem Meets.unlaunched {σ : Type} {m : Move σ} {q : σ} {result : Except Fault Child}
    (h : Meets s acc P refusal m e q t) (he : e = some (.launched result)) :
    (acc P).launches = 0 := by
  obtain ⟨hm, -, hp⟩ := h
  subst he
  cases hm
  exact hp.1

theorem Head.effort_of_feeders (head : Head) (h : t.feeders = s.feeders) :
    head.effort t = head.effort s := by
  cases head with
  | feeder n =>
    rw [Head.effort, h]
    rfl
  | stream pipe rest => cases rest <;> rfl
  | refused => rfl

theorem getElem?_modify_self {jobs : Array Job} {f : Job → Job} {i : Nat} {job : Job}
    (hj : jobs[i]? = some job) : (jobs.modify i f)[i]? = some (f job) := by
  rw [Array.getElem?_modify, if_pos rfl, hj]
  rfl

/-- A job keeps its pipe, and its run if it has one, when another changes or when it only moves
on. -/
theorem kept_modify {jobs : Array Job} {f : Job → Job} {i k : Nat} {job : Job}
    (hj : jobs[k]? = some job)
    (hf : k = i → (f job).pipe = job.pipe ∧ (f job).run.isSome = job.run.isSome) :
    ∃ job', (jobs.modify i f)[k]? = some job' ∧ job'.pipe = job.pipe ∧
      job'.run.isSome = job.run.isSome := by
  rw [Array.getElem?_modify, hj]
  split
  · next hi => exact ⟨_, rfl, hf hi.symm⟩
  · exact ⟨job, rfl, rfl, rfl⟩

namespace Grows

variable {total first : Nat} {acc' : Holder → Account}

theorem modify (h : Grows total s t acc' first) {i : Nat} (hi : i < s.jobs.size) (f : Job → Job) :
    Grows total s { t with jobs := t.jobs.modify i f } acc' first := by
  refine ⟨h.start, ?_⟩
  show (t.jobs.modify i f).size = _ ∨ _
  rw [Array.size_modify]
  refine h.size.imp_right fun ⟨hsize, hplace, hnew⟩ => ⟨hsize, hplace, ?_⟩
  rw [System.effort, Array.getElem?_modify, if_neg (Nat.ne_of_lt hi)]
  exact hnew

/-- A new stage takes the place of one that might still be launched. -/
theorem chainEffort_le (h : Grows total s t acc' first) :
    t.chainEffort total acc' first ≤
      ∑ n ∈ Finset.range (s.jobs.size - first), t.effort total acc' (first + n) +
        (total + 2 - (s.jobs.size - first)) * Job.most total := by
  have hstart := h.start
  rcases h.size with hsize | ⟨hsize, hplace, hnew⟩
  · rw [System.chainEffort, hsize]
  · have hplaces : t.jobs.size - first = s.jobs.size - first + 1 := by omega
    have hslots : total + 2 - (s.jobs.size - first) =
        total + 2 - (s.jobs.size - first + 1) + 1 := by omega
    rw [System.chainEffort, hplaces, Finset.sum_range_succ, Nat.add_sub_cancel' hstart, hslots,
      Nat.succ_mul]
    omega

/-- A chain does not get more to do if none of its stages does. -/
theorem keeps (h : Grows total s t acc' first)
    (heach : ∀ n, first + n < s.jobs.size →
      t.effort total acc' (first + n) ≤ s.effort total acc (first + n)) :
    t.chainEffort total acc' first ≤ s.chainEffort total acc first := by
  refine Nat.le_trans h.chainEffort_le (Nat.add_le_add_right (Finset.sum_le_sum ?_) _)
  intro n hn
  have := Finset.mem_range.1 hn
  exact heach n (by omega)

/-- A chain has less to do if one of its stages has, and none has more. -/
theorem spends (h : Grows total s t acc' first) {m : Nat} (hm : first + m < s.jobs.size)
    (hless : t.effort total acc' (first + m) < s.effort total acc (first + m))
    (hother : ∀ n, first + n < s.jobs.size → n ≠ m →
      t.effort total acc' (first + n) = s.effort total acc (first + n)) :
    t.chainEffort total acc' first < s.chainEffort total acc first := by
  refine Nat.lt_of_le_of_lt h.chainEffort_le (Nat.add_lt_add_right (Finset.sum_lt_sum ?_ ?_) _)
  · intro n hn
    have := Finset.mem_range.1 hn
    by_cases hne : n = m
    · exact hne ▸ Nat.le_of_lt hless
    · exact Nat.le_of_eq (hother n (by omega) hne)
  · exact ⟨m, Finset.mem_range.2 (by omega), hless⟩

end Grows

/-! ## Turns in a flow -/

/-- The supply of a chain stays as it is if the first job, the feeders and whoever is outside
do. -/
theorem Supplied.of {total first : Nat} {head : Head} {acc' : Holder → Account}
    (h : Supplied s acc first total head)
    (hjobs : ∀ job : Job, s.jobs[first]? = some job → ∃ job' : Job, t.jobs[first]? = some job' ∧
      job'.pipe = job.pipe ∧ job'.run.isSome = job.run.isSome)
    (hfeeders : t.feeders = s.feeders) (hacc : acc' (.outside first) = acc (.outside first)) :
    Supplied t acc' first total head := by
  cases h with
  | feeder hr ht => exact .feeder (by rw [hfeeders]; exact hr) ht
  | stream hj hrun hp ht hs =>
    obtain ⟨job', hj', hp', hrun'⟩ := hjobs _ hj
    exact .stream hj' (hrun'.trans hrun) (hp'.trans hp) (by rw [hacc]; exact ht)
      (by rw [hacc]; exact hs)
  | refused hj hrun =>
    obtain ⟨job', hj', -, hrun'⟩ := hjobs _ hj
    exact .refused hj' (hrun'.trans hrun)

theorem Supplied.sent_le {total : Nat} (h : Supplied w.system acc w.first total w.head)
    (hc : Coherent w.system launcher acc) {job : Job} (hj : w.system.jobs[w.first]? = some job)
    (hrun : job.run.isSome = true) : (acc w.root).sent.length ≤ total := by
  rw [Flow.root]
  generalize w.head = head at h
  cases h with
  | @feeder n run hr ht =>
    have hsent := (Feeder.Run.sent_isPrefix (hc.feeder hr)).length_le
    rw [length_encodeAll, Candidates.values, List.length_map, List.length_range] at hsent
    exact Nat.le_trans hsent ht
  | stream hj hrun hp ht hs => exact Nat.le_trans (Nat.le_add_right _ _) ht
  | refused hj' hrun' =>
    obtain rfl := Option.some.inj (hj.symm.trans hj')
    rw [hrun] at hrun'
    cases hrun'

namespace Flowing

variable {total : Nat}

/-- Each stage receives less than the one above it. -/
theorem received_le (h : Flowing total w launcher acc) {n : Nat} {job : Job}
    (hj : w.system.jobs[w.first + n]? = some job) (hrun : job.run.isSome = true) :
    (acc (.stage (w.first + n))).received.length + n ≤ total := by
  induction n generalizing job with
  | zero =>
    have hsent := h.supplied.sent_le h.toCoherent hj hrun
    have hbytes := (h.link hj hrun).bytes
    rw [h.lead 0 (Array.getElem?_eq_some_iff.1 hj).1, leader] at hbytes
    rw [← hbytes, List.length_append] at hsent
    omega
  | succ n ih =>
    have hi := (Array.getElem?_eq_some_iff.1 hj).1
    have hup : launcher (w.first + (n + 1)) = .stage (w.first + n) := h.lead (n + 1) hi
    have hbytes := (h.link hj hrun).bytes
    have hchild := h.named hj
    rw [if_pos hrun] at hchild
    rw [hup] at hbytes hchild
    have hj' := Array.getElem?_eq_getElem (show w.first + n < w.system.jobs.size by omega)
    obtain ⟨run, hr⟩ : ∃ run, (w.system.jobs[w.first + n]).run = some run := by
      rw [← Option.isSome_iff_exists]
      by_contra hnone
      rw [h.idle hj' (Option.not_isSome_iff_eq_none.1 hnone)] at hchild
      cases hchild
    have hlt := (Stage.Run.sound (h.stage hj' hr).1).length_sent_lt (by rw [hchild]; rfl)
    have hih := ih hj' (by rw [hr]; rfl)
    have hlength := congrArg List.length hbytes
    rw [List.length_append] at hlength
    omega

/-- A launch in a flow finds a place. -/
theorem grows (h : Flowing total w launcher acc) {acc' : Holder → Account}
    (ho : w.system.Occurs refusal e t)
    (hP : P = w.root ∨ ∃ n job, P = .stage (w.first + n) ∧
      w.system.jobs[w.first + n]? = some job ∧ job.run.isSome = true)
    (hlaunches : ∀ result, e = some (.launched result) → (acc P).launches = 0) :
    Grows total w.system t acc' w.first := by
  refine ⟨h.start, ?_⟩
  cases ho with
  | launch =>
    have hsize := w.system.jobs_size_launch refusal
    have hnew : (w.system.launch refusal).2.jobs[w.system.jobs.size]? =
        some (w.system.newJob refusal) := by
      rw [w.system.jobs_launch, Array.getElem?_push_size]
    refine .inr ⟨hsize, ?_, ?_⟩
    · have hP' : P = w.root ∨ ∃ n, w.first + n < w.system.jobs.size ∧
          P = .stage (w.first + n) := hP.imp_right fun ⟨n, job, hP, hj, _⟩ =>
        ⟨n, (Array.getElem?_eq_some_iff.1 hj).1, hP⟩
      obtain ⟨m, hm, hlead⟩ := h.toLinear.last h.toJoined hP' (hlaunches _ rfl)
      rcases hP with rfl | ⟨n, job, rfl, hj, hrun⟩
      · cases m with
        | zero => omega
        | succ m => exact absurd hlead (h.above _)
      · cases m with
        | zero => exact absurd hlead.symm (h.above _)
        | succ m =>
          have := Holder.stage.inj hlead
          have := h.received_le hj hrun
          omega
    · rw [System.effort_of_job hnew]
      exact System.effort_newJob w.system refusal _
  | _ => exact .inl rfl

/-- The flow goes on, and has less left to do. -/
def Spends (total : Nat) (w : Flow) (acc : Holder → Account) (w' : Flow) : Prop :=
  ∃ launcher' acc', Flowing total w' launcher' acc' ∧ w'.effort total acc' < w.effort total acc

/-- A stage has moved on. -/
theorem stage_next (h : Flowing total w launcher acc) {n : Nat} {job : Job} {run q : Stage.Run}
    {u : System} (hj : w.system.jobs[w.first + n]? = some job) (hr : job.run = some run)
    (hmeets : Meets w.system acc (.stage (w.first + n)) refusal run.move e q u)
    (ht : t = { u with jobs := u.jobs.modify (w.first + n) fun job => { job with run := some q } })
    (hc : Coherent t (lineage w.system.jobs.size (.stage (w.first + n)) launcher e)
      (Function.update acc (.stage (w.first + n)) ((acc (.stage (w.first + n))).after e))) :
    Flowing total { w with system := t }
      (lineage w.system.jobs.size (.stage (w.first + n)) launcher e)
      (Function.update acc (.stage (w.first + n)) ((acc (.stage (w.first + n))).after e)) := by
  subst ht
  have hi := (Array.getElem?_eq_some_iff.1 hj).1
  exact
    { toCoherent := hc
      toLinear := (h.toLinear.occurs h.toJoined hmeets.occurs (.inr ⟨n, hi, rfl⟩)
        fun _ => hmeets.unlaunched).of_jobs Array.size_modify
      room := fun most hm => h.room most (hmeets.occurs.capacity ▸ hm)
      supplied := h.supplied.of
        (fun job' hj' => kept_modify (hmeets.occurs.job_of hj') fun hfirst => by
          obtain rfl := Option.some.inj ((hfirst ▸ hj').symm.trans hj)
          rw [hr]
          exact ⟨rfl, rfl⟩)
        hmeets.occurs.feeders (Function.update_of_ne (fun he => by cases he) _ _) }

theorem stage_turn (h : Flowing total w launcher acc) {n : Nat}
    (hp : w.system.perform (.stage (w.first + n) refusal) = some t) :
    Spends total w acc { w with system := t } := by
  obtain ⟨job, run, e, q, u, hj, hr, hended, hmeets, rfl, hc⟩ := h.toCoherent.stage_turn hp
  have hi := (Array.getElem?_eq_some_iff.1 hj).1
  have hflowing := h.stage_next hj hr hmeets rfl hc
  refine ⟨_, _, hflowing, Nat.add_lt_add_of_lt_of_le ?_ (Nat.le_of_eq
    (w.head.effort_of_feeders hmeets.occurs.feeders))⟩
  have hnew := getElem?_modify_self (f := fun job => { job with run := some q })
    (hmeets.occurs.job_of hj)
  refine ((h.grows hmeets.occurs (.inr ⟨n, job, rfl, hj, by rw [hr]; rfl⟩)
    fun _ => hmeets.unlaunched).modify hi _).spends hi ?_ fun k hk hne => ?_
  · -- What comes in is paid for by what may still come in.
    have hspent := Stage.Run.effort_step (h.stage hj hr).1 hmeets.answered
    have hbrings := hmeets.occurs.brings (acc (.stage (w.first + n)))
    have hmost := hflowing.received_le hnew rfl
    rw [Function.update_self] at hmost
    rw [System.effort_of_job hnew, System.effort_of_job hj, Job.effort, Job.effort, hr, hended,
      Function.update_self]
    dsimp only [Option.map_some, Option.getD_some]
    omega
  · have hstage : Holder.stage (w.first + k) ≠ .stage (w.first + n) := fun he =>
      hne (Nat.add_left_cancel (Holder.stage.inj he))
    rw [← hmeets.occurs.effort_other hk hstage, System.effort, Array.getElem?_modify,
      if_neg fun he => hne (Nat.add_left_cancel he).symm]
    rfl

/-- A thread has finished. -/
theorem finish_next (h : Flowing total w launcher acc) {n live : Nat}
    (ht : t = { w.system with
      jobs := w.system.jobs.modify n (fun job => { job with ended := true }), live })
    (hc : Coherent t launcher acc) : Flowing total { w with system := t } launcher acc := by
  subst ht
  exact
    { toCoherent := hc
      toLinear := h.toLinear.of_jobs Array.size_modify
      room := h.room
      supplied := h.supplied.of (fun job' hj' => kept_modify hj' fun _ => ⟨rfl, rfl⟩) rfl rfl }

theorem finish_turn (h : Flowing total w launcher acc) {n : Nat}
    (hp : w.system.perform (.finish (w.first + n)) = some t) :
    Spends total w acc { w with system := t } := by
  obtain ⟨job, stage, result, hj, hr, hended, rfl, hc⟩ := h.toCoherent.finish_turn hp
  have hi := (Array.getElem?_eq_some_iff.1 hj).1
  have hnew := getElem?_modify_self (f := fun job => { job with ended := true }) hj
  refine ⟨launcher, acc, h.finish_next rfl hc,
    Nat.add_lt_add_of_lt_of_le ?_ (Nat.le_of_eq (w.head.effort_of_feeders rfl))⟩
  refine Grows.spends ⟨h.start, .inl Array.size_modify⟩ hi ?_ fun k hk hne => ?_
  · rw [System.effort_of_job hnew, System.effort_of_job hj, Job.effort, Job.effort, hended]
    exact Nat.lt_succ_self _
  · rw [System.effort, Array.getElem?_modify,
      if_neg fun he => hne (Nat.add_left_cancel he).symm]
    rfl

/-- The feeder has moved on. -/
theorem feeder_next (h : Flowing total w launcher acc) {n : Nat} {run q : Feeder.Run} {u : System}
    (hhead : w.head = .feeder n) (hr : w.system.feeders[n]? = some run)
    (hmeets : Meets w.system acc (.feeder n) refusal run.move e q u)
    (ht : t = { u with feeders := u.feeders.modify n fun _ => q })
    (hc : Coherent t (lineage w.system.jobs.size (.feeder n) launcher e)
      (Function.update acc (.feeder n) ((acc (.feeder n)).after e))) :
    Flowing total { w with system := t } (lineage w.system.jobs.size (.feeder n) launcher e)
      (Function.update acc (.feeder n) ((acc (.feeder n)).after e)) := by
  subst ht
  have hroot : .feeder n = w.root := by rw [Flow.root, hhead]
  have hnew : (u.feeders.modify n fun _ => q)[n]? = some q := by
    rw [Array.getElem?_modify, if_pos rfl, hmeets.occurs.feeders, hr]
    rfl
  have hsupplied := h.supplied
  rw [hhead] at hsupplied
  cases hsupplied with
  | feeder hr' ht =>
    obtain rfl := Option.some.inj (hr.symm.trans hr')
    exact
      { toCoherent := hc
        toLinear := (h.toLinear.occurs h.toJoined hmeets.occurs (.inl hroot)
          fun _ => hmeets.unlaunched).of_jobs rfl
        room := fun most hm => h.room most (hmeets.occurs.capacity ▸ hm)
        supplied := by
          show Supplied _ _ _ _ w.head
          rw [hhead]
          exact .feeder hnew (by rw [Feeder.Run.candidates_answered hmeets.answered]; exact ht) }

theorem feeder_turn (h : Flowing total w launcher acc) {n : Nat} (hhead : w.head = .feeder n)
    (hp : w.system.perform (.feeder n refusal) = some t) :
    Spends total w acc { w with system := t } := by
  obtain ⟨run, e, q, u, hr, hmeets, rfl, hc⟩ := h.toCoherent.feeder_turn hp
  have hroot : .feeder n = w.root := by rw [Flow.root, hhead]
  have hnew : (u.feeders.modify n fun _ => q)[n]? = some q := by
    rw [Array.getElem?_modify, if_pos rfl, hmeets.occurs.feeders, hr]
    rfl
  refine ⟨_, _, h.feeder_next hhead hr hmeets rfl hc, Nat.add_lt_add_of_le_of_lt ?_ ?_⟩
  · exact Grows.keeps
      ⟨h.start, (h.grows hmeets.occurs (.inl hroot) fun _ => hmeets.unlaunched).size⟩ fun k hk =>
      Nat.le_of_eq (hmeets.occurs.effort_other hk fun he => by cases he)
  · have hspent := Feeder.Run.effort_step (h.feeder hr) hmeets.answered
    rw [hmeets.occurs.brings_nothing hmeets.answered (inputless_feeder run)] at hspent
    show w.head.effort _ < w.head.effort _
    rw [hhead, Head.effort, Head.effort, hnew, hr]
    exact hspent

/-- What is done with the pipe of the first stage from outside concerns no stage. -/
theorem outside_turn (h : Flowing total w launcher acc) {head : Head} {a' : Account}
    (hjobs : t.jobs = w.system.jobs) (hcapacity : t.capacity = w.system.capacity)
    (hhead : Flow.root { w with system := t, head } = w.root)
    (hc : Coherent t launcher (Function.update acc (.outside w.first) a'))
    (hsupplied : Supplied t (Function.update acc (.outside w.first) a') w.first total head)
    (hless : head.effort t < w.head.effort w.system) :
    Spends total w acc { w with system := t, head } := by
  refine ⟨_, _,
    { toCoherent := hc
      toLinear := by
        rw [hhead]
        exact h.toLinear.of_jobs (congrArg Array.size hjobs)
      room := fun most hm => h.room most (hcapacity ▸ hm)
      supplied := hsupplied }, Nat.add_lt_add_of_le_of_lt ?_ hless⟩
  refine Grows.keeps ⟨h.start, .inl (congrArg Array.size hjobs)⟩ fun n hn => Nat.le_of_eq ?_
  rw [System.effort, hjobs, Function.update_of_ne fun he => by cases he]
  rfl

/-- What is left of a stream after a write is what has not been sent. -/
theorem write_turn (h : Flowing total w launcher acc) {pipe : Nat} {rest piece : List UInt8}
    (hhead : w.head = .stream pipe (some rest)) (hne : piece ≠ [])
    (hlength : piece.length ≤ rest.length)
    (hp : w.system.perform (.write pipe piece) = some t) :
    Spends total w acc { w with
      system := t, head := .stream pipe (some (Flow.left rest (w.system.offer pipe piece))) } := by
  have hroot : w.root = .outside w.first := by rw [Flow.root, hhead]
  have hpos := List.length_pos_iff.2 hne
  have heffort : w.head.effort w.system = rest.length + 1 := by rw [hhead, Head.effort]
  have hsupplied := h.supplied
  rw [hhead] at hsupplied
  cases hsupplied with
  | @stream _ _ job hj hrun hpipe ht hs =>
  subst hpipe
  rw [Option.getD_some] at ht
  rw [System.perform] at hp
  split at hp
  · next hheld =>
    obtain ⟨⟨reply, u⟩, ho, rfl⟩ := Option.map_eq_some_iff.1 hp
    obtain ⟨hfits, hoccurs, hc⟩ := h.write_job hj hheld hne ho
    rw [ho]
    cases hoccurs with
    | @sent _ _ n pipes hl =>
      change n + 1 ≤ piece.length at hfits
      have hdrop : (rest.drop (n + 1)).length + (n + 1) = rest.length := by
        rw [List.length_drop]
        omega
      refine h.outside_turn rfl rfl hroot.symm hc (.stream hj hrun rfl ?_ ?_) ?_
      · rw [Function.update_self, Account.add_sent_took, List.length_append, List.length_take]
        show _ + (rest.drop (n + 1)).length ≤ total
        omega
      · rw [Function.update_self]
        exact hs
      · rw [heffort]
        show (rest.drop (n + 1)).length + 1 < rest.length + 1
        omega
    | broken hp hr hl =>
      refine h.outside_turn rfl rfl hroot.symm hc (.stream hj hrun rfl ?_ ?_) ?_
      · rw [Function.update_self, Account.add_sent_failed _ _ _ rfl]
        exact Nat.le_trans (Nat.le_add_right _ _) ht
      · rw [Function.update_self]
        exact hs
      · rw [heffort]
        show 0 + 1 < rest.length + 1
        omega
  · cases hp

/-- Once all has been written, the writing end is given up. -/
theorem close_turn (h : Flowing total w launcher acc) {pipe : Nat}
    (hhead : w.head = .stream pipe (some []))
    (hp : w.system.perform (.dropWriter pipe) = some t) :
    Spends total w acc { w with system := t, head := .stream pipe none } := by
  have hroot : w.root = .outside w.first := by rw [Flow.root, hhead]
  have hsupplied := h.supplied
  rw [hhead] at hsupplied
  cases hsupplied with
  | @stream _ _ job hj hrun hpipe ht hs =>
  subst hpipe
  rw [System.perform] at hp
  split at hp
  · next hheld =>
    cases hp
    refine h.outside_turn rfl rfl hroot.symm (h.drop_job hj hheld) (.stream hj hrun rfl ?_ ?_) ?_
    · rw [Function.update_self]
      exact ht
    · rw [Function.update_self]
      rfl
    · rw [hhead]
      exact Nat.zero_lt_one
  · cases hp

/-- Every turn in a flow uses something up. -/
theorem take (h : Flowing total w launcher acc) {turn : Flow.Turn}
    (ht : w.take refuse turn = some w') : Spends total w acc w' := by
  cases turn with
  | stage n =>
    obtain ⟨t, hp, rfl⟩ := Option.map_eq_some_iff.1 ht
    exact h.stage_turn hp
  | finish n =>
    obtain ⟨t, hp, rfl⟩ := Option.map_eq_some_iff.1 ht
    exact h.finish_turn hp
  | supply most =>
    rw [Flow.take, Flow.supply] at ht
    split at ht
    · next n hhead =>
      obtain ⟨t, hp, rfl⟩ := Option.map_eq_some_iff.1 ht
      exact h.feeder_turn hhead hp
    · next pipe b rest hhead =>
      obtain ⟨t, hp, rfl⟩ := Option.map_eq_some_iff.1 ht
      exact h.write_turn hhead (List.cons_ne_nil _ _) (List.length_take_le' _ _) hp
    · next pipe hhead =>
      obtain ⟨t, hp, rfl⟩ := Option.map_eq_some_iff.1 ht
      exact h.close_turn hhead hp
    · cases ht

/-- What a flow can still do bounds how long it goes on. -/
theorem follow (h : Flowing total w launcher acc) {schedule : List Flow.Turn}
    (hs : w.follow refuse schedule = some w') :
    ∃ launcher' acc', Flowing total w' launcher' acc' ∧
      schedule.length + w'.effort total acc' ≤ w.effort total acc := by
  induction schedule generalizing w launcher acc with
  | nil =>
    cases hs
    exact ⟨launcher, acc, h, Nat.le_of_eq (Nat.zero_add _)⟩
  | cons turn schedule ih =>
    obtain ⟨w'', ht, hrest⟩ := Option.bind_eq_some_iff.1 hs
    obtain ⟨launcher', acc', hflowing, hless⟩ := h.take ht
    obtain ⟨launcher'', acc'', hflowing', hle⟩ := ih hflowing hrest
    refine ⟨launcher'', acc'', hflowing', ?_⟩
    rw [List.length_cons]
    omega

end Flowing

/-! ## How a flow begins -/

/-- How many bytes a supply sends at most. -/
def Supply.total : Supply → Nat
  | .range c => width * c.count
  | .stream bytes => bytes.length

/-- A bound for the turns of a flow: what a supply has to do, and a job for each stage that may
be launched. -/
def Supply.limit (supply : Supply) : Nat :=
  (supply.total + 2) * Job.most supply.total +
    match supply with
    | .range c => (Feeder.run c).effort
    | .stream bytes => bytes.length + 1

/-- A chain that has not begun has nothing but places. -/
theorem Grows.chainEffort_start {total : Nat} {acc' : Holder → Account}
    (h : Grows total s t acc' s.jobs.size) :
    t.chainEffort total acc' s.jobs.size ≤ (total + 2) * Job.most total := by
  refine Nat.le_trans h.chainEffort_le (Nat.le_of_eq ?_)
  rw [Nat.sub_self, Finset.sum_range_zero, Nat.zero_add, Nat.sub_zero]

/-- A feeder that has just been set to work has a chain of no stages. -/
theorem Flowing.feed (h : Coherent s launcher acc)
    (hcapacity : ∀ most, s.capacity = some most → 0 < most) (c : Candidates) :
    Flowing (Supply.range c).total
      { system := { s with feeders := s.feeders.push (Feeder.run c) }, first := s.jobs.size,
        head := .feeder s.feeders.size } launcher acc where
  toCoherent := h.feed_turn c
  start := Nat.le_refl _
  lead := fun n hn => absurd hn (Nat.not_lt_of_le (Nat.le_add_right _ _))
  above := fun n he => by cases he
  before := by
    intro i hi he
    have hpresent := h.present_launcher hi
    rw [he] at hpresent
    exact Nat.lt_irrefl _ hpresent
  room := hcapacity
  supplied := .feeder Array.getElem?_push_size (Nat.le_refl _)

theorem Flowing.of_feed (h : Coherent s launcher acc)
    (hcapacity : ∀ most, s.capacity = some most → 0 < most) {c : Candidates}
    (hb : (Supply.range c).begin refuse s = some w) :
    ∃ launcher' acc', Flowing (Supply.range c).total w launcher' acc' ∧
      w.effort (Supply.range c).total acc' ≤ (Supply.range c).limit := by
  cases hb
  refine ⟨launcher, acc, Flowing.feed h hcapacity c, Nat.add_le_add ?_ (Nat.le_of_eq ?_)⟩
  · exact Grows.chainEffort_start ⟨Nat.le_refl _, .inl rfl⟩
  · show ((s.feeders.push (Feeder.run c))[s.feeders.size]?.map _).getD 0 = _
    rw [Array.getElem?_push_size]
    rfl

/-- A launch from outside puts a stage below whoever launches it. -/
theorem Linear.of_launch (h : Joined s launcher acc) (hsize : t.jobs.size = s.jobs.size + 1) :
    Linear t (Function.update launcher s.jobs.size (.outside s.jobs.size)) (.outside s.jobs.size)
      s.jobs.size where
  start := by rw [hsize]; exact Nat.le_succ _
  lead := by
    intro n hn
    have hn : n = 0 := by omega
    subst hn
    rw [Nat.add_zero, Function.update_self]
    rfl
  above := fun n he => by cases he
  before := by
    intro i hi he
    rw [Function.update_of_ne (Nat.ne_of_lt hi)] at he
    exact Nat.ne_of_lt hi (h.outer he)

/-- What a launch from outside adds. -/
theorem System.perform_launch_job (h : s.perform (.launch refusal) = some t) :
    t.jobs[s.jobs.size]? = some (s.newJob refusal) ∧ t.capacity = s.capacity := by
  obtain ⟨writers, rfl, -⟩ := System.perform_launch h
  refine ⟨?_, s.capacity_launch refusal⟩
  show (s.launch refusal).2.jobs[s.jobs.size]? = _
  rw [s.jobs_launch, Array.getElem?_push_size]

theorem Flowing.of_launch (h : Coherent s launcher acc)
    (hcapacity : ∀ most, s.capacity = some most → 0 < most) {bytes : List UInt8}
    (hb : (Supply.stream bytes).begin refuse s = some w) :
    ∃ launcher' acc', Flowing (Supply.stream bytes).total w launcher' acc' ∧
      w.effort (Supply.stream bytes).total acc' ≤ (Supply.stream bytes).limit := by
  obtain ⟨t, ht, rfl⟩ := Option.map_eq_some_iff.1 hb
  generalize refuse s.jobs.size = refusal at ht
  have hc := h.launch_turn ht
  obtain ⟨-, -, hnone⟩ := h.fresh (Nat.le_refl _)
  rw [hnone] at hc
  have hsize := System.perform_launch_size ht
  have hlinear := Linear.of_launch h.toJoined hsize
  obtain ⟨hnew, hroom⟩ := System.perform_launch_job ht
  rw [← hroom] at hcapacity
  have hgrows : ∀ acc' : Holder → Account,
      Grows (Supply.stream bytes).total s t acc' s.jobs.size := by
    refine fun acc' => ⟨Nat.le_refl _, .inr ⟨hsize, ?_, ?_⟩⟩
    · rw [Nat.sub_self]
      exact Nat.zero_le _
    · rw [System.effort_of_job hnew]
      exact System.effort_newJob s _ _
  cases refusal with
  | none =>
    refine ⟨_, _,
      { toCoherent := hc
        toLinear := hlinear
        room := hcapacity
        supplied := .stream hnew rfl rfl ?_ ?_ },
      Nat.add_le_add (hgrows _).chainEffort_start (Nat.le_refl _)⟩
    · rw [Function.update_self]
      exact Nat.le_of_eq (Nat.zero_add _)
    · rw [Function.update_self]
      rfl
  | some reason =>
    exact ⟨_, _,
      { toCoherent := hc
        toLinear := hlinear
        room := hcapacity
        supplied := .refused hnew rfl },
      Nat.add_le_add (hgrows _).chainEffort_start (Nat.zero_le _)⟩

/-- However a flow begins, it accords with accounts, and what it can do is limited. -/
theorem Flowing.of_begin (h : Coherent s launcher acc)
    (hcapacity : ∀ most, s.capacity = some most → 0 < most) {supply : Supply}
    (hb : supply.begin refuse s = some w) :
    ∃ launcher' acc', Flowing supply.total w launcher' acc' ∧
      w.effort supply.total acc' ≤ supply.limit := by
  cases supply with
  | range c => exact Flowing.of_feed h hcapacity hb
  | stream bytes => exact Flowing.of_launch h hcapacity hb

theorem Flowing.of_run (h : Coherent s launcher acc)
    (hcapacity : ∀ most, s.capacity = some most → 0 < most) {supply : Supply}
    {schedule : List Flow.Turn} (hrun : Flow.run refuse s supply schedule = some w) :
    ∃ launcher' acc', Flowing supply.total w launcher' acc' ∧ schedule.length ≤ supply.limit := by
  obtain ⟨w', hb, hs⟩ := Option.bind_eq_some_iff.1 hrun
  obtain ⟨launcher', acc', hflowing, hle⟩ := Flowing.of_begin h hcapacity hb
  obtain ⟨launcher'', acc'', hflowing', hspent⟩ := hflowing.follow hs
  exact ⟨launcher'', acc'', hflowing', by omega⟩

/-! ## No flow is ever stuck -/

/-- A stage or a feeder waits for a child to finish. -/
inductive System.Reaps (s : System) (child : Child) : Prop
  | stage {n : Nat} {job : Job} {run : Stage.Run} {next : Except Fault Unit → Stage.Run}
      (hj : s.jobs[n]? = some job) (hr : job.run = some run) (hm : run.move = .reap child next)
  | feeder {n : Nat} {run : Feeder.Run} {next : Except Fault Unit → Feeder.Run}
      (hr : s.feeders[n]? = some run) (hm : run.move = .reap child next)

/-- A stage waits for bytes: it is about to read, and there are none yet. -/
def System.Starves (s : System) (n : Nat) : Prop :=
  ∃ job run room next, s.jobs[n]? = some job ∧ job.run = some run ∧
    run.move = .read room next ∧ s.answer (some job.pipe) none run.move = none

/-- Whoever waits for a child has given up the pipe to it. -/
theorem Coherent.writer_of_reaps (h : Coherent s launcher acc) {child : Child}
    (hr : s.Reaps child) :
    ∃ job, s.jobs[child.index]? = some job ∧ (s.pipes.get job.pipe).writer = false := by
  obtain ⟨P, hk, hshut⟩ : ∃ P, (acc P).child = some child ∧ (acc P).shut = true := by
    cases hr with
    | stage hj hr hm =>
      have hpermitted := Stage.Run.permitted (h.stage hj hr).1
      rw [hm] at hpermitted
      exact ⟨_, hpermitted.1, hpermitted.2.1⟩
    | feeder hr hm =>
      have hpermitted := Feeder.Run.permitted (h.feeder hr)
      rw [hm] at hpermitted
      exact ⟨_, hpermitted.1, hpermitted.2.1⟩
  obtain ⟨job, hj, hrun, hl, -⟩ := h.job_of_child hk
  refine ⟨job, hj, ?_⟩
  rw [(h.link hj hrun).writer, hl, hshut]
  rfl

theorem Coherent.writer_of_starves (h : Coherent s launcher acc)
    (hcapacity : ∀ most, s.capacity = some most → 0 < most) {n : Nat} (hs : s.Starves n) :
    ∃ job, s.jobs[n]? = some job ∧ (s.pipes.get job.pipe).writer = true := by
  obtain ⟨job, run, room, next, hj, hr, hm, ha⟩ := hs
  have hwaits := h.waits hcapacity (Stage.Run.permitted (h.stage hj hr).1)
    (.inr ⟨n, job, rfl, hj, by rw [hr]; rfl, rfl⟩) ha
  rw [hm] at hwaits
  cases hwaits with
  | read hP hj hempty hw =>
    obtain rfl := Holder.stage.inj hP
    exact ⟨_, hj, hw⟩

/-- Beside whatever else there is in a system, a flow with pipes of at least one byte never gets
stuck, whichever launches fail: as long as whoever supplies it has not come to the end, some
party can take a turn; there is a limit to the turns taken; and nobody waits for a child that
waits for bytes in turn. -/
theorem Flow.never_stuck {ceiling : Option Int32} {capacity : Option Nat} {record : Array UInt8}
    {actions : List System.Action} {c : Chronicle}
    (hc : Chronicle.follow { system := { ceiling, capacity, record } } actions = some c)
    (hcapacity : ∀ most, c.system.capacity = some most → 0 < most) {supply : Supply}
    {schedule : List Flow.Turn} (hrun : Flow.run refuse c.system supply schedule = some w) :
    (w.returned = false → ∃ turn, (w.take refuse turn).isSome = true) ∧
      schedule.length ≤ supply.limit ∧
      ∀ child, w.system.Reaps child → ¬w.system.Starves child.index := by
  obtain ⟨acc, hcoherent⟩ := Chronicle.coherent hc
  obtain ⟨launcher', acc', hflowing, hlimit⟩ := Flowing.of_run hcoherent hcapacity hrun
  refine ⟨hflowing.goes_on, hlimit, fun child hreaps hstarves => ?_⟩
  obtain ⟨job, hj, hgone⟩ := hflowing.writer_of_reaps hreaps
  obtain ⟨job', hj', hheld⟩ := hflowing.writer_of_starves hflowing.room hstarves
  obtain rfl := Option.some.inj (hj.symm.trans hj')
  rw [hgone] at hheld
  cases hheld

/-- Over a pipe of one byte a feeder has to wait for its stage, which can go on. -/
theorem Flow.never_stuck_one_byte :
    ∃ schedule w,
      Flow.run (fun _ => none) { capacity := some 1 } (.range ⟨2, 5⟩) schedule = some w ∧
      w.returned = false ∧ (w.take (fun _ => none) (.supply 0)).isSome = false ∧
      (∃ turn, (w.take (fun _ => none) turn).isSome = true) ∧
      schedule.length ≤ (Supply.range ⟨2, 5⟩).limit := by
  let schedule : List Flow.Turn := [.supply 0, .supply 0, .supply 0]
  have hwaits : (Flow.run (fun _ => none) { capacity := some 1 } (.range ⟨2, 5⟩) schedule).map
      (fun w => (w.returned, (w.take (fun _ => none) (.supply 0)).isSome)) =
        some (false, false) := by decide +kernel
  obtain ⟨w, hw, hwaiting⟩ := Option.map_eq_some_iff.1 hwaits
  simp only [Prod.mk.injEq] at hwaiting
  obtain ⟨hgoes, hlimit, -⟩ :=
    @Flow.never_stuck (fun _ => none) w none (some 1) #[] [] { system := { capacity := some 1 } }
      rfl (fun most hm => by cases hm; exact Nat.one_pos) _ _ hw
  exact ⟨schedule, w, hw, hwaiting.1, hwaiting.2, hgoes hwaiting.1, hlimit⟩

end SieveChain.Concurrent
