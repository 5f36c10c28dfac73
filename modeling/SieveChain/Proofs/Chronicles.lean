import SieveChain.Proofs.FeederAccount
import SieveChain.Proofs.Lineage
import SieveChain.Proofs.Schedules
import SieveChain.Proofs.StageOrder

/-!
# Chronicles

A chronicle is a system with a memory of who has launched which stage. Whatever is done in
it, in any order, by its parties or from outside, each party's account goes on to accord
with its run, and the pipes lie between the accounts.
-/

namespace SieveChain.Concurrent

variable {s s' : System} {launcher : Nat → Holder} {acc : Holder → Account} {P : Holder}

/-- Every job after a launch is the new one or was there before. -/
theorem System.job_launch {refusal : Refusal} {i : Nat} {job : Job}
    (hj : (s.launch refusal).2.jobs[i]? = some job) :
    (i = s.jobs.size ∧ job = s.newJob refusal) ∨ (i < s.jobs.size ∧ s.jobs[i]? = some job) := by
  rw [s.jobs_launch] at hj
  exact job_of_push hj

theorem System.pipe_newJob (s : System) (refusal : Refusal) :
    (s.newJob refusal).pipe = s.pipes.pipes.size := by
  cases refusal <;> rfl

/-! ## What is held outside -/

/-- The ends that are held outside. -/
structure Outer (s : System) (launcher : Nat → Holder) (acc : Holder → Account) : Prop where
  /-- A writing end belongs to a stage that has been launched from outside, or to none. -/
  writer : ∀ {p : Nat}, p ∈ s.writers → p < s.pipes.pipes.size ∧
    (s.pipes.get p).writer = true ∧ ∀ {i : Nat} {job : Job}, s.jobs[i]? = some job →
      job.pipe = p → launcher i = .outside i
  /-- A reading end belongs to no stage. -/
  reader : ∀ {p : Nat}, p ∈ s.readers → p < s.pipes.pipes.size ∧
    (s.pipes.get p).reader = true ∧ ∀ {i : Nat} {job : Job}, s.jobs[i]? = some job →
      job.pipe ≠ p
  writers : s.writers.Nodup
  readers : s.readers.Nodup
  /-- The writing end for a stage that has been launched from outside is held there. -/
  given : ∀ {i : Nat} {job : Job}, s.jobs[i]? = some job → job.run.isSome = true →
    launcher i = .outside i → (acc (.outside i)).shut = false → job.pipe ∈ s.writers

namespace Outer

variable {acc' : Holder → Account} {t : System}

/-- What leaves the ends alone that are held outside, and the launches. -/
theorem of_pipes (h : Outer s launcher acc) (hjobs : t.jobs = s.jobs)
    (hwriters : t.writers = s.writers) (hreaders : t.readers = s.readers)
    (hsize : t.pipes.pipes.size = s.pipes.pipes.size)
    (hwriter : ∀ p ∈ s.writers, (t.pipes.get p).writer = (s.pipes.get p).writer)
    (hreader : ∀ p ∈ s.readers, (t.pipes.get p).reader = (s.pipes.get p).reader)
    (hacc : ∀ i, (acc' (.outside i)).shut = (acc (.outside i)).shut) :
    Outer t launcher acc' where
  writer := by
    intro p hp
    rw [hwriters] at hp
    rw [hsize, hwriter p hp, hjobs]
    exact h.writer hp
  reader := by
    intro p hp
    rw [hreaders] at hp
    rw [hsize, hreader p hp, hjobs]
    exact h.reader hp
  writers := by rw [hwriters]; exact h.writers
  readers := by rw [hreaders]; exact h.readers
  given := by
    intro i job hj hrun hl hs
    rw [hjobs] at hj
    rw [hwriters]
    exact h.given hj hrun hl (by rw [← hacc]; exact hs)

/-- A launch; whoever launches a stage from outside gets the writing end of its pipe. -/
theorem launch (h : Outer s launcher acc) (refusal : Refusal) {writers : List Nat}
    (hlt : ∀ {i : Nat} {job : Job}, s.jobs[i]? = some job → job.pipe < s.pipes.pipes.size)
    (hnodup : writers.Nodup) (hkept : ∀ p ∈ s.writers, p ∈ writers)
    (hnew : ∀ p ∈ writers, p ∈ s.writers ∨ (p = s.pipes.pipes.size ∧ refusal = none ∧
      P = .outside s.jobs.size))
    (hgiven : refusal = none → ∀ n, P = .outside n → s.pipes.pipes.size ∈ writers)
    (hacc : ∀ i, i ≠ s.jobs.size → (acc' (.outside i)).shut = (acc (.outside i)).shut) :
    Outer { (s.launch refusal).2 with writers } (Function.update launcher s.jobs.size P)
      acc' := by
  have hreaders := s.readers_launch refusal
  have hsize := s.size_launch refusal
  have hpipe := s.pipe_newJob refusal
  refine ⟨fun {p} hp => ?_, fun {p} hp => ?_, hnodup, ?_, fun {i job} hj' hrun hl hs => ?_⟩
  · show p < (s.launch refusal).2.pipes.pipes.size ∧
      ((s.launch refusal).2.pipes.get p).writer = true ∧ _
    rw [hsize]
    rcases hnew p hp with hp | ⟨rfl, rfl, rfl⟩
    · obtain ⟨hlt, hflag, howner⟩ := h.writer hp
      rw [s.get_launch refusal hlt]
      refine ⟨Nat.lt_succ_of_lt hlt, hflag, fun {i job} hj' he => ?_⟩
      rcases System.job_launch hj' with ⟨rfl, rfl⟩ | ⟨hi, hj'⟩
      · omega
      · rw [Function.update_of_ne (Nat.ne_of_lt hi)]
        exact howner hj' he
    · refine ⟨Nat.lt_succ_self _, congrArg Pipe.writer s.get_launch_started,
        fun {i job} hj' he => ?_⟩
      rcases System.job_launch hj' with ⟨rfl, -⟩ | ⟨-, hj'⟩
      · rw [Function.update_self]
      · exact absurd he (Nat.ne_of_lt (hlt hj'))
  · change p ∈ (s.launch refusal).2.readers at hp
    rw [hreaders] at hp
    obtain ⟨hlt, hflag, hother⟩ := h.reader hp
    show p < (s.launch refusal).2.pipes.pipes.size ∧
      ((s.launch refusal).2.pipes.get p).reader = true ∧ _
    rw [hsize, s.get_launch refusal hlt]
    refine ⟨Nat.lt_succ_of_lt hlt, hflag, fun {i job} hj' he => ?_⟩
    rcases System.job_launch hj' with ⟨rfl, rfl⟩ | ⟨-, hj'⟩
    · omega
    · exact hother hj' he
  · exact hreaders ▸ h.readers
  · rcases System.job_launch hj' with ⟨rfl, rfl⟩ | ⟨hi, hj'⟩
    · rw [Function.update_self] at hl
      rw [hpipe]
      cases refusal with
      | none => exact hgiven rfl _ hl
      | some reason => cases hrun
    · rw [Function.update_of_ne (Nat.ne_of_lt hi)] at hl
      exact hkept _ (h.given hj' hrun hl (by rw [← hacc i (Nat.ne_of_lt hi)]; exact hs))

/-- No operation of a party touches the ends that are held outside. -/
theorem occurs (h : Outer s launcher acc) (hj : Joined s launcher acc)
    (hP : ∀ n, P ≠ .outside n) {refusal : Refusal} {e : Option Event} {a' : Account}
    (ho : s.Occurs refusal e s')
    (hshut : ∀ child, e = some (.shut child) → (acc P).child = some child) :
    Outer s' (lineage s.jobs.size P launcher e) (Function.update acc P a') := by
  have hacc : ∀ i, (Function.update acc P a' (.outside i)).shut = (acc (.outside i)).shut := by
    intro i
    rw [Function.update_of_ne (hP i).symm]
  have same : ∀ {t : System}, t.jobs = s.jobs → t.writers = s.writers → t.readers = s.readers →
      t.pipes = s.pipes → Outer t launcher (Function.update acc P a') := by
    intro t hjobs hw hr hp
    exact h.of_pipes hjobs hw hr (by rw [hp]) (fun _ _ => by rw [hp]) (fun _ _ => by rw [hp]) hacc
  have alike : ∀ {pipes : Pipes}, Alike s.pipes pipes →
      Outer { s with pipes } launcher (Function.update acc P a') := fun hl =>
    h.of_pipes rfl rfl rfl hl.size (fun _ _ => hl.writer _) (fun _ _ => hl.reader _) hacc
  cases ho with
  | proceed => exact same rfl rfl rfl rfl
  | read hl => exact alike hl
  | record => exact same rfl rfl rfl rfl
  | commit => exact same rfl rfl rfl rfl
  | launch =>
    have hsame : (s.launch refusal).2 = { (s.launch refusal).2 with writers := s.writers } := by
      cases refusal <;> rfl
    rw [hsame]
    exact h.launch refusal hj.pipe h.writers (fun _ => id) (fun _ => .inl)
      (fun _ n hn => absurd hn (hP n)) fun i _ => hacc i
  | sent hl => exact alike hl
  | broken hp hr hl => exact alike hl
  | @shut child p hp hw =>
    obtain ⟨job, hjob, -, hl, hpipe⟩ := hj.job_of_child (hshut child rfl)
    obtain rfl := Option.some.inj (hp.symm.trans hpipe)
    refine h.of_pipes rfl rfl rfl Pipes.size_dropWriter (fun q hq => ?_) (fun q hq => ?_) hacc
    · rw [Pipes.get_dropWriter_of_ne]
      rintro rfl
      have howner := (h.writer hq).2.2 hjob rfl
      rw [hl] at howner
      exact hP _ howner
    · rw [Pipes.get_dropWriter_of_ne]
      exact ((h.reader hq).2.2 hjob).symm
  | @leave n job hjob hr =>
    refine h.of_pipes rfl rfl rfl Pipes.size_dropReader (fun q hq => ?_) (fun q hq => ?_) hacc
    · by_cases hne : q = job.pipe
      · rw [hne, Pipes.get_dropReader (hj.pipe hjob) hr]
      · rw [Pipes.get_dropReader_of_ne hne]
    · rw [Pipes.get_dropReader_of_ne]
      exact ((h.reader hq).2.2 hjob).symm
  | reap hv => exact same rfl rfl rfl rfl

end Outer

/-! ## Parties in accord with their accounts -/

/-- A run that has come to its end holds nothing. -/
def Spent (r : Stage.Run) : Prop :=
  ∀ stage result, r = .finished stage result → ∃ p, stage.state = .done p none

/-- Parties whose runs accord with their accounts, and the pipes between them. -/
structure Coherent (s : System) (launcher : Nat → Holder) (acc : Holder → Account) : Prop
    extends Joined s launcher acc, Outer s launcher acc where
  stage : ∀ {i : Nat} {job : Job} {run : Stage.Run}, s.jobs[i]? = some job →
    job.run = some run → run.Accords s.ceiling (acc (.stage i)) ∧ Spent run ∧
      (job.ended = true → ∃ stage result, run = .finished stage result)
  idle : ∀ {i : Nat} {job : Job}, s.jobs[i]? = some job → job.run = none → acc (.stage i) = {}
  feeder : ∀ {n : Nat} {run : Feeder.Run}, s.feeders[n]? = some run →
    run.Accords run.candidates (acc (.feeder n))

namespace System.Occurs

variable {refusal : Refusal} {e : Option Event}

theorem ceiling (h : s.Occurs refusal e s') : s'.ceiling = s.ceiling := by
  cases h with
  | launch => exact s.ceiling_launch refusal
  | _ => rfl

theorem capacity (h : s.Occurs refusal e s') : s'.capacity = s.capacity := by
  cases h with
  | launch => exact s.capacity_launch refusal
  | _ => rfl

theorem feeders (h : s.Occurs refusal e s') : s'.feeders = s.feeders := by
  cases h with
  | launch => exact s.feeders_launch refusal
  | _ => rfl

theorem job_of (h : s.Occurs refusal e s') {i : Nat} {job : Job}
    (hj : s.jobs[i]? = some job) : s'.jobs[i]? = some job := by
  cases h with
  | launch =>
    rw [s.jobs_launch]
    exact job_push hj
  | _ => exact hj

/-- Every job was there before, or has just been launched. -/
theorem job_or (h : s.Occurs refusal e s') {i : Nat} {job : Job}
    (hj : s'.jobs[i]? = some job) :
    s.jobs[i]? = some job ∨
      i = s.jobs.size ∧ job = s.newJob refusal ∧ ∃ result, e = some (.launched result) := by
  cases h with
  | launch =>
    rcases System.job_launch hj with ⟨hi, hjob⟩ | ⟨-, hj⟩
    · exact .inr ⟨hi, hjob, _, rfl⟩
    · exact .inl hj
  | _ => exact .inl hj

end System.Occurs

/-- What becomes of the runs and threads of jobs without a change to their pipes. -/
structure Ran (s t : System) : Prop where
  pipes : t.pipes = s.pipes
  size : t.jobs.size = s.jobs.size
  job : ∀ {i : Nat} {job' : Job}, t.jobs[i]? = some job' → ∃ job, s.jobs[i]? = some job ∧
    job'.pipe = job.pipe ∧ job'.run.isSome = job.run.isSome ∧
      (job.ended = true → job'.ended = true)

theorem Joined.ran {t : System} (h : Joined s launcher acc) (hr : Ran s t)
    (hfeeders : s.feeders.size ≤ t.feeders.size) : Joined t launcher acc where
  pipe := by
    intro i job' hj
    obtain ⟨job, hjob, hp, -, -⟩ := hr.job hj
    rw [hp, hr.pipes]
    exact h.pipe hjob
  apart := by
    intro i j job job' hi hj heq
    obtain ⟨old, hold, hp, -, -⟩ := hr.job hi
    obtain ⟨old', hold', hp', -, -⟩ := hr.job hj
    rw [hp, hp'] at heq
    exact h.apart hold hold' heq
  link := by
    intro i job' hj hrun
    obtain ⟨job, hjob, hp, hr', -⟩ := hr.job hj
    rw [hr.pipes, hp]
    exact h.link hjob (hr' ▸ hrun)
  refused := by
    intro i job' hj hrun
    obtain ⟨job, hjob, hp, hr', hended⟩ := hr.job hj
    obtain ⟨he, hflags⟩ := h.refused hjob (hr' ▸ hrun)
    rw [hr.pipes, hp]
    exact ⟨hended he, hflags⟩
  named := by
    intro i job' hj
    obtain ⟨job, hjob, -, hr', -⟩ := hr.job hj
    rw [hr']
    exact h.named hjob
  launched := by rw [hr.size]; exact h.launched
  sole := by rw [hr.size]; exact h.sole
  child := by rw [hr.size]; exact h.child
  older := h.older
  outer := h.outer
  fresh := by rw [hr.size]; exact h.fresh
  absent := fun hn => h.absent (Nat.le_trans hfeeders hn)
  reaped := by
    intro P hreaped
    obtain ⟨child, job, hc, hjob, hended⟩ := h.reaped hreaped
    have hi : child.index < t.jobs.size := by
      rw [hr.size]
      exact (Array.getElem?_eq_some_iff.1 hjob).1
    obtain ⟨job', hjob', -, -, hkeeps⟩ := hr.job (Array.getElem?_eq_getElem hi)
    obtain rfl := Option.some.inj (hjob.symm.trans hjob')
    exact ⟨child, _, hc, Array.getElem?_eq_getElem hi, hkeeps hended⟩

theorem Outer.ran {t : System} (h : Outer s launcher acc) (hr : Ran s t)
    (hwriters : t.writers = s.writers) (hreaders : t.readers = s.readers) :
    Outer t launcher acc where
  writer := by
    intro p hp
    rw [hwriters] at hp
    obtain ⟨hlt, hflag, howner⟩ := h.writer hp
    rw [hr.pipes]
    refine ⟨hlt, hflag, fun {i job'} hj he => ?_⟩
    obtain ⟨job, hjob, hp', -, -⟩ := hr.job hj
    exact howner hjob (hp' ▸ he)
  reader := by
    intro p hp
    rw [hreaders] at hp
    obtain ⟨hlt, hflag, hother⟩ := h.reader hp
    rw [hr.pipes]
    refine ⟨hlt, hflag, fun {i job'} hj => ?_⟩
    obtain ⟨job, hjob, hp', -, -⟩ := hr.job hj
    rw [hp']
    exact hother hjob
  writers := by rw [hwriters]; exact h.writers
  readers := by rw [hreaders]; exact h.readers
  given := by
    intro i job' hj hrun hl hs
    obtain ⟨job, hjob, hp, hr', -⟩ := hr.job hj
    rw [hwriters, hp]
    exact h.given hjob (hr' ▸ hrun) hl hs

theorem Ran.modify {t : System} (n : Nat) (f : Job → Job)
    (hpipe : ∀ job, (f job).pipe = job.pipe)
    (hrun : ∀ job, s.jobs[n]? = some job → (f job).run.isSome = job.run.isSome)
    (hended : ∀ job : Job, job.ended = true → (f job).ended = true) (hpipes : t.pipes = s.pipes)
    (hjobs : t.jobs = s.jobs.modify n f) : Ran s t where
  pipes := hpipes
  size := by rw [hjobs, Array.size_modify]
  job := by
    intro i job' hj
    rw [hjobs, Array.getElem?_modify] at hj
    split at hj
    · next hi =>
      obtain ⟨job, hjob, rfl⟩ := Option.map_eq_some_iff.1 hj
      exact ⟨job, hjob, hpipe job, hrun job (by rw [hi]; exact hjob), hended job⟩
    · exact ⟨job', hj, rfl, rfl, id⟩

/-! ## Parties take their turns -/

/-- What a party meets in one operation, and how its run goes on. -/
structure Meets {σ : Type} (s : System) (acc : Holder → Account) (P : Holder)
    (refusal : Refusal) (m : Move σ) (e : Option Event) (q : σ) (t : System) : Prop where
  answered : m.Answered e q
  occurs : s.Occurs refusal e t
  permitted : m.Permitted (acc P)

theorem Meets.child_of_shut {σ : Type} {refusal : Refusal} {m : Move σ} {e : Option Event} {q : σ}
    {t : System} (h : Meets s acc P refusal m e q t) (child : Child)
    (he : e = some (.shut child)) : (acc P).child = some child := by
  obtain ⟨hm, -, hp⟩ := h
  subst he
  cases hm
  exact hp.1

namespace Coherent

/-- The other stages go on to accord with their accounts, and so does a new one. -/
theorem stage_occurs (h : Coherent s launcher acc) {refusal : Refusal} {e : Option Event}
    {t : System} (ho : s.Occurs refusal e t) {a' : Account} {i : Nat} (hi : Holder.stage i ≠ P)
    {job : Job} {run : Stage.Run} (hj : t.jobs[i]? = some job) (hr : job.run = some run) :
    run.Accords t.ceiling (Function.update acc P a' (.stage i)) ∧ Spent run ∧
      (job.ended = true → ∃ stage result, run = .finished stage result) := by
  rw [Function.update_of_ne hi, ho.ceiling]
  rcases ho.job_or hj with hj | ⟨rfl, rfl, -⟩
  · exact h.stage hj hr
  · cases refusal with
    | none =>
      cases hr
      rw [(h.fresh (Nat.le_refl _)).2.1]
      have hspent : Spent (Stage.Run.start (Stage.new s.ceiling)) := by
        intro stage result hf
        cases hf
      exact ⟨Stage.Run.accords_start s.ceiling, hspent, fun hf => by cases hf⟩
    | some reason => cases hr

/-- A stage of which the thread could not be started does nothing. -/
theorem idle_occurs (h : Coherent s launcher acc) {refusal : Refusal} {e : Option Event}
    {t : System} (ho : s.Occurs refusal e t) {a' : Account} {i : Nat} (hi : Holder.stage i ≠ P)
    {job : Job} (hj : t.jobs[i]? = some job) (hr : job.run = none) :
    Function.update acc P a' (.stage i) = {} := by
  rw [Function.update_of_ne hi]
  rcases ho.job_or hj with hj | ⟨rfl, -, -⟩
  · exact h.idle hj hr
  · exact (h.fresh (Nat.le_refl _)).2.1

theorem stage_turn (h : Coherent s launcher acc) {n : Nat} {refusal : Refusal}
    (hp : s.perform (.stage n refusal) = some s') :
    ∃ job run e q t, s.jobs[n]? = some job ∧ job.run = some run ∧ job.ended = false ∧
      Meets s acc (.stage n) refusal run.move e q t ∧
      s' = { t with jobs := t.jobs.modify n fun job => { job with run := some q } } ∧
      Coherent s' (lineage s.jobs.size (.stage n) launcher e)
        (Function.update acc (.stage n) ((acc (.stage n)).after e)) := by
  rw [System.perform] at hp
  split at hp
  · next pipe run hjob =>
    obtain ⟨⟨q, t⟩, hanswer, heq⟩ := Option.map_eq_some_iff.1 hp
    cases heq
    have hn : Holder.Present s (.stage n) := (Array.getElem?_eq_some_iff.1 hjob).1
    have hout : ∀ m, Holder.stage n ≠ .outside m := fun m hm => by cases hm
    obtain ⟨hacc, -, -⟩ := h.stage hjob rfl
    have hperm := Stage.Run.permitted hacc
    obtain ⟨e, hm, ho, hjoined⟩ := h.toJoined.answer hn hout hperm
      (fun p hp => ⟨n, _, rfl, hjob, rfl, Option.some.inj hp⟩) hanswer
    have hmeets : Meets s acc (.stage n) refusal run.move e q t := ⟨hm, ho, hperm⟩
    have hmodify : Ran t { t with jobs := t.jobs.modify n fun job => { job with run := some q } } :=
      Ran.modify n (fun job => { job with run := some q }) (fun _ => rfl)
        (fun job hj => by
          obtain rfl := Option.some.inj ((ho.job_of hjob).symm.trans hj)
          rfl)
        (fun _ he => he) rfl rfl
    refine ⟨_, run, e, q, t, hjob, rfl, rfl, hmeets, rfl, ?_⟩
    refine
      { toJoined := hjoined.ran hmodify (Nat.le_refl _)
        toOuter := ((h.toOuter.occurs h.toJoined hout ho hmeets.child_of_shut).ran hmodify
          rfl rfl)
        stage := fun {i job r} hj hr => ?_
        idle := fun {i job} hj hr => ?_
        feeder := fun {m r} hr => ?_ }
    · rcases job_of_modify hj with ⟨rfl, old, hold, rfl⟩ | ⟨hi, hj⟩
      · cases hr
        obtain rfl := Option.some.inj ((ho.job_of hjob).symm.trans hold)
        rw [Function.update_self, ho.ceiling]
        refine ⟨Stage.Run.accords_step hacc hm, fun stage result hq => ?_,
          fun he => (Bool.false_ne_true he).elim⟩
        subst hq
        exact ⟨_, Stage.Run.spent_step hacc hm⟩
      · exact h.stage_occurs ho (fun he => hi (Holder.stage.inj he)) hj hr
    · rcases job_of_modify hj with ⟨-, old, -, rfl⟩ | ⟨hi, hj⟩
      · cases hr
      · exact h.idle_occurs ho (fun he => hi (Holder.stage.inj he)) hj hr
    · rw [ho.feeders] at hr
      rw [Function.update_of_ne (fun he => by cases he)]
      exact h.feeder hr
  · cases hp

theorem feeder_turn (h : Coherent s launcher acc) {n : Nat} {refusal : Refusal}
    (hp : s.perform (.feeder n refusal) = some s') :
    ∃ run e q t, s.feeders[n]? = some run ∧ Meets s acc (.feeder n) refusal run.move e q t ∧
      s' = { t with feeders := t.feeders.modify n fun _ => q } ∧
      Coherent s' (lineage s.jobs.size (.feeder n) launcher e)
        (Function.update acc (.feeder n) ((acc (.feeder n)).after e)) := by
  rw [System.perform] at hp
  split at hp
  · next run hrun =>
    obtain ⟨⟨q, t⟩, hanswer, heq⟩ := Option.map_eq_some_iff.1 hp
    cases heq
    have hn : Holder.Present s (.feeder n) := (Array.getElem?_eq_some_iff.1 hrun).1
    have hout : ∀ m, Holder.feeder n ≠ .outside m := fun m hm => by cases hm
    have hacc := h.feeder hrun
    have hperm := Feeder.Run.permitted hacc
    obtain ⟨e, hm, ho, hjoined⟩ := h.toJoined.answer hn hout hperm (fun p hp => by cases hp) hanswer
    have hmeets : Meets s acc (.feeder n) refusal run.move e q t := ⟨hm, ho, hperm⟩
    have hran : Ran t { t with feeders := t.feeders.modify n fun _ => q } :=
      ⟨rfl, rfl, fun hj => ⟨_, hj, rfl, rfl, id⟩⟩
    refine ⟨run, e, q, t, hrun, hmeets, rfl, ?_⟩
    refine
      { toJoined := hjoined.ran hran (Nat.le_of_eq (Array.size_modify ..).symm)
        toOuter := ((h.toOuter.occurs h.toJoined hout ho hmeets.child_of_shut).ran hran rfl rfl)
        stage := fun {i job r} hj hr => h.stage_occurs ho (fun he => by cases he) hj hr
        idle := fun {i job} hj hr => h.idle_occurs ho (fun he => by cases he) hj hr
        feeder := fun {m r} hr => ?_ }
    change (t.feeders.modify n fun _ => q)[m]? = some r at hr
    rw [Array.getElem?_modify, ho.feeders] at hr
    split at hr
    · next hm' =>
      subst hm'
      rw [hrun] at hr
      cases hr
      rw [Function.update_self]
      have hstep := Feeder.Run.accords_step hacc hm
      rwa [← hstep.1] at hstep
    · next hm' =>
      rw [Function.update_of_ne fun he => hm' (Holder.feeder.inj he).symm]
      exact h.feeder hr
  · cases hp

theorem finish_turn (h : Coherent s launcher acc) {n : Nat}
    (hp : s.perform (.finish n) = some s') :
    ∃ job stage result, s.jobs[n]? = some job ∧ job.run = some (.finished stage result) ∧
      job.ended = false ∧
      s' = { s with jobs := s.jobs.modify n (fun job => { job with ended := true }),
                    live := s.live - 1 } ∧
      Coherent s' launcher acc := by
  rw [System.perform] at hp
  split at hp
  · next pipe stage result hjob =>
    cases hp
    have hran : Ran s { s with jobs := s.jobs.modify n (fun job => { job with ended := true }),
                               live := s.live - 1 } :=
      Ran.modify n (fun job => { job with ended := true }) (fun _ => rfl) (fun _ _ => rfl)
        (fun _ _ => rfl) rfl rfl
    refine ⟨_, stage, result, hjob, rfl, rfl, rfl, ?_⟩
    refine
      { toJoined := h.toJoined.ran hran (Nat.le_refl _)
        toOuter := h.toOuter.ran hran rfl rfl
        stage := fun {i job r} hj hr => ?_
        idle := fun {i job} hj hr => ?_
        feeder := h.feeder }
    · rcases job_of_modify hj with ⟨rfl, old, hold, rfl⟩ | ⟨-, hj⟩
      · obtain rfl := Option.some.inj (hjob.symm.trans hold)
        obtain ⟨hacc, hspent, -⟩ := h.stage hjob hr
        cases hr
        exact ⟨hacc, hspent, fun _ => ⟨stage, result, rfl⟩⟩
      · exact h.stage hj hr
    · rcases job_of_modify hj with ⟨rfl, old, hold, rfl⟩ | ⟨-, hj⟩
      · exact h.idle hold hr
      · exact h.idle hj hr
  · cases hp

theorem feed_turn (h : Coherent s launcher acc) (c : Candidates) :
    Coherent { s with feeders := s.feeders.push (Feeder.run c) } launcher acc where
  toJoined := h.toJoined.ran ⟨rfl, rfl, fun hj => ⟨_, hj, rfl, rfl, id⟩⟩
    (by rw [Array.size_push]; exact Nat.le_succ _)
  toOuter := h.toOuter.ran ⟨rfl, rfl, fun hj => ⟨_, hj, rfl, rfl, id⟩⟩ rfl rfl
  stage := h.stage
  idle := h.idle
  feeder := by
    intro n run hr
    rw [Array.getElem?_push] at hr
    split at hr
    · next hn =>
      cases hr
      rw [hn, h.absent (Nat.le_refl _)]
      exact Feeder.Run.accords_start c
    · exact h.feeder hr

end Coherent

/-! ## What is done from outside -/

/-- What is done with pipes that no stage reads changes nothing between the parties. -/
theorem Joined.elsewhere {pipes : Pipes} {writers readers : List Nat}
    (h : Joined s launcher acc) (hsize : s.pipes.pipes.size ≤ pipes.pipes.size)
    (hget : ∀ {i : Nat} {job : Job}, s.jobs[i]? = some job →
      pipes.get job.pipe = s.pipes.get job.pipe) :
    Joined { s with pipes, writers, readers } launcher acc :=
  { h with
    pipe := fun hj => Nat.lt_of_lt_of_le (h.pipe hj) hsize
    link := fun hj hrun => by rw [hget hj]; exact h.link hj hrun
    refused := fun hj hrun => by rw [hget hj]; exact h.refused hj hrun }

/-- A write leaves the ends of the pipe as they are, and all other pipes. -/
theorem System.offer_alike {p : Nat} {bytes : List UInt8} {reply : WriteReply}
    (hp : p < s.pipes.pipes.size) (hw : (s.pipes.get p).writer = true)
    (ho : s.offer p bytes = some (reply, s')) :
    ∃ pipes, s' = { s with pipes } ∧ Alike s.pipes pipes ∧
      ∀ q, q ≠ p → pipes.get q = s.pipes.get q := by
  have hflags : ∀ bytes, ((s.pipes.get p).write bytes).2.writer = (s.pipes.get p).writer ∧
      ((s.pipes.get p).write bytes).2.reader = (s.pipes.get p).reader := by
    intro bytes
    unfold Pipe.write
    split
    · exact ⟨rfl, rfl⟩
    · split <;> exact ⟨rfl, rfl⟩
  rw [System.offer_of_writer hw] at ho
  split at ho
  · cases ho
  · cases ho
    exact ⟨_, rfl, Alike.set hp (hflags _).1 (hflags _).2, fun q hq => Pipes.get_set_of_ne hq⟩

theorem Pipes.read_alike {ps ps' : Pipes} {p room : Nat} {bytes : List UInt8}
    (hp : p < ps.pipes.size) (h : ps.read p room = (.got bytes, ps')) :
    Alike ps ps' ∧ ∀ q, q ≠ p → ps'.get q = ps.get q := by
  have hflags : ((ps.get p).read room).2.writer = (ps.get p).writer ∧
      ((ps.get p).read room).2.reader = (ps.get p).reader := by
    unfold Pipe.read
    split
    · exact ⟨rfl, rfl⟩
    · split <;> exact ⟨rfl, rfl⟩
  by_cases hr : (ps.get p).reader = true
  · rw [Pipes.read, if_pos hr] at h
    split at h
    · cases h
    · next hread =>
      cases h
      rw [hread] at hflags
      exact ⟨Alike.set hp hflags.1 hflags.2, fun q hq => Pipes.get_set_of_ne hq⟩
  · rw [Pipes.read, if_neg hr] at h
    cases h

namespace Coherent

/-- The parties inside go on as they were. -/
theorem outside (h : Coherent s launcher acc) {t : System} {acc' : Holder → Account}
    (hjoined : Joined t launcher acc') (houter : Outer t launcher acc') (hjobs : t.jobs = s.jobs)
    (hfeeders : t.feeders = s.feeders) (hceiling : t.ceiling = s.ceiling)
    (hacc : ∀ Q, (∀ n, Q ≠ .outside n) → acc' Q = acc Q) : Coherent t launcher acc' where
  toJoined := hjoined
  toOuter := houter
  stage := by
    intro i job run hj hr
    rw [hjobs] at hj
    rw [hceiling, hacc _ (fun _ he => by cases he)]
    exact h.stage hj hr
  idle := by
    intro i job hj hr
    rw [hjobs] at hj
    rw [hacc _ (fun _ he => by cases he)]
    exact h.idle hj hr
  feeder := by
    intro n run hr
    rw [hfeeders] at hr
    rw [hacc _ (fun _ he => by cases he)]
    exact h.feeder hr

/-- Whoever holds the writing end of a stage's pipe outside has launched that stage, and has
not given the end up. -/
theorem given_job (h : Coherent s launcher acc) {i : Nat} {job : Job}
    (hj : s.jobs[i]? = some job) (hp : job.pipe ∈ s.writers) :
    job.run.isSome = true ∧ launcher i = .outside i ∧
      (acc (.outside i)).child = some ⟨i, threadLabel i⟩ ∧ (acc (.outside i)).shut = false := by
  obtain ⟨-, hflag, howner⟩ := h.writer hp
  have hl := howner hj rfl
  have hrun : job.run.isSome = true := by
    by_contra hn
    rw [(h.refused hj (Bool.eq_false_iff.2 hn)).2.1] at hflag
    cases hflag
  have hnamed := h.named hj
  have hlink := (h.link hj hrun).writer
  rw [hl] at hnamed hlink
  rw [if_pos hrun] at hnamed
  refine ⟨hrun, hl, hnamed, ?_⟩
  rw [hflag] at hlink
  exact Bool.not_eq_eq_eq_not.1 hlink.symm

/-- A write from outside to a stage. -/
theorem write_job (h : Coherent s launcher acc) {i : Nat} {job : Job} {bytes : List UInt8}
    {reply : WriteReply} (hj : s.jobs[i]? = some job) (hp : job.pipe ∈ s.writers)
    (hne : bytes ≠ []) (ho : s.offer job.pipe bytes = some (reply, s')) :
    reply.Fits bytes ∧
      s.Occurs none (some (.sent ⟨i, threadLabel i⟩
        (Scripted.Surroundings.accepted bytes reply) reply)) s' ∧
      Coherent s' launcher (Function.update acc (.outside i) ((acc (.outside i)).add
        (.sent ⟨i, threadLabel i⟩ (Scripted.Surroundings.accepted bytes reply) reply))) := by
  obtain ⟨-, -, hchild, hshut⟩ := h.given_job hj hp
  obtain ⟨hlt, hflag, -⟩ := h.writer hp
  have hpipe : s.pipeOf? ⟨i, threadLabel i⟩ = some job.pipe := by
    rw [System.pipeOf?, hj]
    rfl
  obtain ⟨hfits, hoccurs, hjoined⟩ := h.toJoined.send (P := .outside i)
    (Array.getElem?_eq_some_iff.1 hj).1 hchild hshut hne hpipe ho
  obtain ⟨pipes, rfl, halike, -⟩ := System.offer_alike hlt hflag ho
  refine ⟨hfits, hoccurs none, h.outside hjoined (h.toOuter.of_pipes rfl rfl rfl halike.size
    (fun _ _ => halike.writer _) (fun _ _ => halike.reader _) fun n => ?_) rfl rfl rfl
    fun Q hQ => Function.update_of_ne (hQ i) _ _⟩
  by_cases hn : Holder.outside n = .outside i
  · rw [hn, Function.update_self]
    rfl
  · rw [Function.update_of_ne hn]

theorem write_turn (h : Coherent s launcher acc) {p : Nat} {bytes : List UInt8}
    (hperform : s.perform (.write p bytes) = some s') : ∃ acc', Coherent s' launcher acc' := by
  rw [System.perform] at hperform
  split at hperform
  · next hp =>
    obtain ⟨⟨reply, t⟩, ho, rfl⟩ := Option.map_eq_some_iff.1 hperform
    obtain ⟨hlt, hflag, -⟩ := h.writer hp
    by_cases hjob : bytes ≠ [] ∧ ∃ (i : Nat) (job : Job), s.jobs[i]? = some job ∧ job.pipe = p
    · obtain ⟨hne, i, job, hj, heq⟩ := hjob
      subst heq
      exact ⟨_, (h.write_job hj hp hne ho).2.2⟩
    · obtain ⟨pipes, rfl, halike, hother⟩ := System.offer_alike hlt hflag ho
      refine ⟨acc, h.outside
        (h.toJoined.elsewhere (Nat.le_of_eq halike.size.symm) fun {i job} hj => ?_)
        (h.toOuter.of_pipes rfl rfl rfl halike.size (fun _ _ => halike.writer _)
          (fun _ _ => halike.reader _) fun _ => rfl) rfl rfl rfl fun _ _ => rfl⟩
      by_cases hq : job.pipe = p
      · have hnil : bytes = [] := by
          by_contra hne
          exact hjob ⟨hne, _, _, hj, hq⟩
        rw [hnil, System.offer_nil hflag] at ho
        cases ho
        rw [hq, Pipes.get_set hlt]
      · exact hother _ hq
  · cases hperform

theorem read_turn (h : Coherent s launcher acc) {p room : Nat}
    (hperform : s.perform (.read p room) = some s') : Coherent s' launcher acc := by
  rw [System.perform] at hperform
  split at hperform
  · next hp =>
    split at hperform
    · next bytes pipes hread =>
      cases hperform
      obtain ⟨hlt, -, hother⟩ := h.reader hp
      obtain ⟨halike, hget⟩ := Pipes.read_alike hlt hread
      exact h.outside
        (h.toJoined.elsewhere (Nat.le_of_eq halike.size.symm) fun hj => hget _ (hother hj))
        (h.toOuter.of_pipes rfl rfl rfl halike.size (fun _ _ => halike.writer _)
          (fun _ _ => halike.reader _) fun _ => rfl) rfl rfl rfl fun _ _ => rfl
    · cases hperform
  · cases hperform

theorem create_turn (h : Coherent s launcher acc) (hperform : s.perform .create = some s') :
    Coherent s' launcher acc := by
  cases hperform
  have hnew : ∀ {i : Nat} {job : Job}, s.jobs[i]? = some job → job.pipe ≠ s.pipes.pipes.size :=
    fun hj => Nat.ne_of_lt (h.pipe hj)
  have hnot : ∀ {ps : List Nat}, (∀ {p : Nat}, p ∈ ps → p < s.pipes.pipes.size) →
      s.pipes.pipes.size ∉ ps := fun hall hmem => Nat.lt_irrefl _ (hall hmem)
  refine h.outside (h.toJoined.elsewhere ?_ fun hj => Pipes.get_create_of_lt (h.pipe hj)) ?_
    rfl rfl rfl fun _ _ => rfl
  · show s.pipes.pipes.size ≤ s.pipes.create.2.pipes.size
    rw [Pipes.size_create]
    exact Nat.le_succ _
  · refine ⟨fun {p} hp => ?_, fun {p} hp => ?_, ?_, ?_, fun hj hrun hl hs => ?_⟩
    · show p < s.pipes.create.2.pipes.size ∧ _
      rw [Pipes.size_create]
      rcases List.mem_cons.1 hp with rfl | hp
      · exact ⟨Nat.lt_succ_self _, congrArg Pipe.writer Pipes.get_create,
          fun hj he => absurd he (hnew hj)⟩
      · obtain ⟨hlt, hflag, howner⟩ := h.writer hp
        exact ⟨Nat.lt_succ_of_lt hlt,
          (congrArg Pipe.writer (Pipes.get_create_of_lt hlt)).trans hflag, howner⟩
    · show p < s.pipes.create.2.pipes.size ∧ _
      rw [Pipes.size_create]
      rcases List.mem_cons.1 hp with rfl | hp
      · exact ⟨Nat.lt_succ_self _, congrArg Pipe.reader Pipes.get_create, hnew⟩
      · obtain ⟨hlt, hflag, hother⟩ := h.reader hp
        exact ⟨Nat.lt_succ_of_lt hlt,
          (congrArg Pipe.reader (Pipes.get_create_of_lt hlt)).trans hflag, hother⟩
    · exact List.nodup_cons.2 ⟨hnot fun hp => (h.writer hp).1, h.writers⟩
    · exact List.nodup_cons.2 ⟨hnot fun hp => (h.reader hp).1, h.readers⟩
    · exact List.mem_cons_of_mem _ (h.given hj hrun hl hs)

theorem dropReader_turn (h : Coherent s launcher acc) {p : Nat}
    (hperform : s.perform (.dropReader p) = some s') : Coherent s' launcher acc := by
  rw [System.perform] at hperform
  split at hperform
  · next hp =>
    cases hperform
    obtain ⟨hlt, hflag, hother⟩ := h.reader hp
    have hget : ∀ q, (((s.pipes.dropReader p).2).get q).writer = (s.pipes.get q).writer := by
      intro q
      by_cases hq : q = p
      · rw [hq, Pipes.get_dropReader hlt hflag]
      · rw [Pipes.get_dropReader_of_ne hq]
    refine h.outside (h.toJoined.elsewhere (Nat.le_of_eq Pipes.size_dropReader.symm)
      fun hj => Pipes.get_dropReader_of_ne (hother hj)) ?_ rfl rfl rfl fun _ _ => rfl
    refine ⟨fun {q} hq => ?_, fun {q} hq => ?_, h.writers, h.readers.erase p, h.given⟩
    · obtain ⟨hq, hwriter, howner⟩ := h.writer hq
      exact ⟨Pipes.size_dropReader.symm ▸ hq, (hget q).trans hwriter, howner⟩
    · obtain ⟨hne, hq⟩ := (h.readers.mem_erase_iff).1 hq
      obtain ⟨hlt', hreader, hother'⟩ := h.reader hq
      exact ⟨Pipes.size_dropReader.symm ▸ hlt',
        (congrArg Pipe.reader (Pipes.get_dropReader_of_ne hne)).trans hreader, hother'⟩
  · cases hperform

end Coherent

/-- A writing end is given up outside: nobody else holds it. -/
theorem Outer.dropWriter {p : Nat} {acc' : Holder → Account} (h : Outer s launcher acc)
    (hp : p ∈ s.writers)
    (hgiven : ∀ {i : Nat} {job : Job}, s.jobs[i]? = some job → job.run.isSome = true →
      launcher i = .outside i → (acc' (.outside i)).shut = false →
      job.pipe ≠ p ∧ (acc (.outside i)).shut = false) :
    Outer { s with pipes := (s.pipes.dropWriter p).2, writers := s.writers.erase p }
      launcher acc' := by
  obtain ⟨hlt, hflag, -⟩ := h.writer hp
  have hget : ∀ q, (((s.pipes.dropWriter p).2).get q).reader = (s.pipes.get q).reader := by
    intro q
    by_cases hq : q = p
    · rw [hq, Pipes.get_dropWriter hlt hflag]
    · rw [Pipes.get_dropWriter_of_ne hq]
  refine ⟨fun {q} hq => ?_, fun {q} hq => ?_, h.writers.erase p, h.readers,
    fun hj hrun hl hs => ?_⟩
  · obtain ⟨hne, hq⟩ := (h.writers.mem_erase_iff).1 hq
    obtain ⟨hlt', hwriter, howner'⟩ := h.writer hq
    exact ⟨Pipes.size_dropWriter.symm ▸ hlt',
      (congrArg Pipe.writer (Pipes.get_dropWriter_of_ne hne)).trans hwriter, howner'⟩
  · obtain ⟨hq, hreader, hother⟩ := h.reader hq
    exact ⟨Pipes.size_dropWriter.symm ▸ hq, (hget q).trans hreader, hother⟩
  · obtain ⟨hne, hs⟩ := hgiven hj hrun hl hs
    exact h.writers.mem_erase_iff.2 ⟨hne, h.given hj hrun hl hs⟩

namespace Coherent

/-- Whoever has launched a stage from outside gives up the writing end of its pipe. -/
theorem drop_job (h : Coherent s launcher acc) {i : Nat} {job : Job}
    (hj : s.jobs[i]? = some job) (hp : job.pipe ∈ s.writers) :
    Coherent { s with pipes := (s.pipes.dropWriter job.pipe).2,
                      writers := s.writers.erase job.pipe } launcher
      (Function.update acc (.outside i) { acc (.outside i) with shut := true }) := by
  obtain ⟨-, -, hchild, hshut⟩ := h.given_job hj hp
  have hpipe : s.pipeOf? ⟨i, threadLabel i⟩ = some job.pipe := by
    rw [System.pipeOf?, hj]
    rfl
  have hjoined : Joined { s with pipes := (s.pipes.dropWriter job.pipe).2,
                                 writers := s.writers.erase job.pipe } launcher
      (Function.update acc (.outside i) { acc (.outside i) with shut := true }) :=
    h.toJoined.shut (P := .outside i) (Array.getElem?_eq_some_iff.1 hj).1 hchild hshut hpipe
  refine h.outside hjoined (h.toOuter.dropWriter hp fun {j job'} hj' hrun hl hs => ?_) rfl rfl rfl
    fun Q hQ => Function.update_of_ne (hQ i) _ _
  by_cases hij : j = i
  · rw [hij, Function.update_self] at hs
    cases hs
  · rw [Function.update_of_ne fun he => hij (Holder.outside.inj he)] at hs
    exact ⟨fun he => hij (h.apart hj' hj he), hs⟩

/-- A writing end that is given up outside is that of a stage launched from there, or of a
pipe that no stage reads. -/
theorem dropWriter_turn (h : Coherent s launcher acc) {p : Nat}
    (hperform : s.perform (.dropWriter p) = some s') : ∃ acc', Coherent s' launcher acc' := by
  rw [System.perform] at hperform
  split at hperform
  · next hp =>
    cases hperform
    by_cases hjob : ∃ (i : Nat) (job : Job), s.jobs[i]? = some job ∧ job.pipe = p
    · obtain ⟨i, job, hj, rfl⟩ := hjob
      exact ⟨_, h.drop_job hj hp⟩
    · refine ⟨acc, h.outside (h.toJoined.elsewhere (Nat.le_of_eq Pipes.size_dropWriter.symm)
        fun hj => Pipes.get_dropWriter_of_ne fun he => hjob ⟨_, _, hj, he⟩)
        (h.toOuter.dropWriter hp fun hj _ _ hs => ⟨fun he => hjob ⟨_, _, hj, he⟩, hs⟩)
        rfl rfl rfl fun _ _ => rfl⟩
  · cases hperform

end Coherent

/-- Whoever launches a stage from outside gets the writing end of its pipe, if there is one. -/
theorem System.perform_launch {refusal : Refusal} (h : s.perform (.launch refusal) = some s') :
    ∃ writers, s' = { (s.launch refusal).2 with writers } ∧
      ((refusal = none ∧ writers = s.pipes.pipes.size :: s.writers) ∨
        (refusal ≠ none ∧ writers = s.writers)) := by
  cases refusal with
  | none =>
    have hp : (s.launch none).2.pipeOf? ⟨s.jobs.size, threadLabel s.jobs.size⟩ =
        some s.pipes.pipes.size := by
      rw [System.pipeOf?, s.jobs_launch, Array.getElem?_push_size]
      rfl
    change ((s.launch none).2.pipeOf? ⟨s.jobs.size, threadLabel s.jobs.size⟩).map _ =
      some s' at h
    rw [hp] at h
    cases h
    exact ⟨_, rfl, .inl ⟨rfl, rfl⟩⟩
  | some reason =>
    cases h
    exact ⟨s.writers, rfl, .inr ⟨Option.some_ne_none reason, rfl⟩⟩

theorem Coherent.launch_turn (h : Coherent s launcher acc) {refusal : Refusal}
    (hperform : s.perform (.launch refusal) = some s') :
    Coherent s' (Function.update launcher s.jobs.size (.outside s.jobs.size))
      (Function.update acc (.outside s.jobs.size)
        ((acc (.outside s.jobs.size)).add (.launched (s.launch refusal).1))) := by
  obtain ⟨-, -, hnone⟩ := h.fresh (Nat.le_refl _)
  have hjoined : ∀ writers, Joined { (s.launch refusal).2 with writers }
      (Function.update launcher s.jobs.size (.outside s.jobs.size)) _ := fun writers =>
    h.toJoined.launch .outside
      (by rw [hnone]) (by rw [hnone]) (by rw [hnone]) refusal
  obtain ⟨writers, rfl, hnew⟩ := System.perform_launch hperform
  have hmem : ∀ p, p ∈ writers ↔ p ∈ s.writers ∨ (p = s.pipes.pipes.size ∧ refusal = none) := by
    intro p
    rcases hnew with ⟨hr, rfl⟩ | ⟨hr, rfl⟩
    · rw [List.mem_cons, and_iff_left hr]
      exact or_comm
    · rw [or_iff_left fun hp => hr hp.2]
  have hnodup : writers.Nodup := by
    rcases hnew with ⟨-, rfl⟩ | ⟨-, rfl⟩
    · exact List.nodup_cons.2 ⟨fun hmem => Nat.lt_irrefl _ (h.writer hmem).1, h.writers⟩
    · exact h.writers
  refine
    { toJoined := hjoined writers
      toOuter := h.toOuter.launch refusal h.toJoined.pipe hnodup (fun p hp => (hmem p).2 (.inl hp))
        (fun p hp => ((hmem p).1 hp).imp_right fun ⟨he, hr⟩ => ⟨he, hr, rfl⟩)
        (fun hr _ _ => (hmem _).2 (.inr ⟨rfl, hr⟩)) fun i hi => ?_
      stage := fun {i job run} hj hr => ?_
      idle := fun {i job} hj hr => h.idle_occurs .launch (fun he => by cases he) hj hr
      feeder := fun {n run} hr => ?_ }
  · rw [Function.update_of_ne fun he => hi (Holder.outside.inj he)]
  · exact h.stage_occurs .launch (fun he => by cases he) hj hr
  · rw [Function.update_of_ne fun he => by cases he]
    exact h.feeder (s.feeders_launch refusal ▸ hr)

theorem System.offer_pipes {p : Nat} {bytes : List UInt8} {reply : WriteReply}
    (h : s.offer p bytes = some (reply, s')) : ∃ pipes, s' = { s with pipes } := by
  unfold System.offer at h
  extract_lets pipe room at h
  split at h
  · cases h
  · split at h
    · cases h
      exact ⟨_, rfl⟩
    · cases h

/-- What is done with pipes from outside. -/
def System.Action.onPipes : System.Action → Bool
  | .create | .write _ _ | .read _ _ | .dropWriter _ | .dropReader _ => true
  | _ => false

theorem System.perform_onPipes {a : System.Action} (ha : a.onPipes = true)
    (h : s.perform a = some s') :
    ∃ pipes writers readers, s' = { s with pipes, writers, readers } := by
  cases a with
  | create =>
    cases h
    exact ⟨_, _, _, rfl⟩
  | write p bytes =>
    rw [System.perform] at h
    split at h
    · obtain ⟨⟨reply, t⟩, ho, rfl⟩ := Option.map_eq_some_iff.1 h
      obtain ⟨pipes, rfl⟩ := System.offer_pipes ho
      exact ⟨pipes, _, _, rfl⟩
    · cases h
  | read p room =>
    rw [System.perform] at h
    split at h
    · split at h
      · cases h
        exact ⟨_, _, _, rfl⟩
      · cases h
    · cases h
  | dropWriter p =>
    rw [System.perform] at h
    split at h
    · cases h
      exact ⟨_, _, _, rfl⟩
    · cases h
  | dropReader p =>
    rw [System.perform] at h
    split at h
    · cases h
      exact ⟨_, _, _, rfl⟩
    · cases h
  | _ => cases ha

theorem Coherent.pipes_turn (h : Coherent s launcher acc) {a : System.Action}
    (ha : a.onPipes = true) (hperform : s.perform a = some s') :
    ∃ acc', Coherent s' launcher acc' := by
  cases a with
  | create => exact ⟨acc, h.create_turn hperform⟩
  | write p bytes => exact h.write_turn hperform
  | read p room => exact ⟨acc, h.read_turn hperform⟩
  | dropWriter p => exact h.dropWriter_turn hperform
  | dropReader p => exact ⟨acc, h.dropReader_turn hperform⟩
  | _ => cases ha

theorem System.perform_launch_size {refusal : Refusal} (h : s.perform (.launch refusal) = some s') :
    s'.jobs.size = s.jobs.size + 1 := by
  obtain ⟨writers, rfl, -⟩ := System.perform_launch h
  exact s.jobs_size_launch refusal

/-! ## Chronicles -/

/-- Whoever acts; an action from outside is that of the launcher of the next stage there. -/
def System.Action.holder (s : System) : System.Action → Holder
  | .stage n _ => .stage n
  | .feeder n _ => .feeder n
  | _ => .outside s.jobs.size

/-- A system, and who has launched which of its stages. -/
structure Chronicle where
  system : System
  launcher : Nat → Holder := .outside

namespace Chronicle

/-- What happens next, if it is possible; a stage that is launched is launched by whoever
acts. -/
def perform (c : Chronicle) (a : System.Action) : Option Chronicle :=
  (c.system.perform a).map fun system =>
    { system
      launcher := if system.jobs.size = c.system.jobs.size then c.launcher
        else Function.update c.launcher c.system.jobs.size (a.holder c.system) }

/-- What happens one after the other, if it is possible. -/
def follow (c : Chronicle) (actions : List System.Action) : Option Chronicle :=
  actions.foldlM perform c

theorem follow_cons (c : Chronicle) (a : System.Action) (actions : List System.Action) :
    c.follow (a :: actions) = (c.perform a).bind fun c' => c'.follow actions := rfl

theorem follow_append (c : Chronicle) (actions more : List System.Action) :
    c.follow (actions ++ more) = (c.follow actions).bind fun c' => c'.follow more :=
  List.foldlM_append

/-- What every action preserves holds after all of them. -/
theorem follow_keeps {allowed : System.Action → Prop} {Q : Chronicle → Prop}
    (hstep : ∀ {c c' : Chronicle} {a : System.Action}, allowed a → Q c →
      c.perform a = some c' → Q c') {c c' : Chronicle} {actions : List System.Action}
    (hall : ∀ a ∈ actions, allowed a) (hc : Q c) (h : c.follow actions = some c') : Q c' := by
  induction actions generalizing c with
  | nil =>
    cases h
    exact hc
  | cons a actions ih =>
    rw [follow_cons] at h
    obtain ⟨c'', ha, hrest⟩ := Option.bind_eq_some_iff.1 h
    exact ih (fun b hb => hall b (List.mem_cons_of_mem a hb))
      (hstep (hall a List.mem_cons_self) hc ha) hrest

end Chronicle

theorem System.Occurs.launcher_eq {refusal : Refusal} {e : Option Event} {t : System}
    (h : s.Occurs refusal e t) (P : Holder) (launcher : Nat → Holder) :
    (if t.jobs.size = s.jobs.size then launcher
      else Function.update launcher s.jobs.size P) = lineage s.jobs.size P launcher e := by
  cases h with
  | launch =>
    rw [s.jobs_size_launch, if_neg (Nat.succ_ne_self _)]
    rfl
  | _ => exact if_pos rfl

/-- Whatever happens, and in whatever order, the parties go on to accord with their
accounts. -/
theorem Coherent.perform {c c' : Chronicle} {a : System.Action}
    (h : Coherent c.system c.launcher acc) (hperform : c.perform a = some c') :
    ∃ acc', Coherent c'.system c'.launcher acc' := by
  obtain ⟨t, ht, rfl⟩ := Option.map_eq_some_iff.1 hperform
  show ∃ acc', Coherent t (if t.jobs.size = c.system.jobs.size then c.launcher
    else Function.update c.launcher c.system.jobs.size (a.holder c.system)) acc'
  have pipes : a.onPipes = true → ∃ acc', Coherent t (if t.jobs.size = c.system.jobs.size then
      c.launcher else Function.update c.launcher c.system.jobs.size (a.holder c.system)) acc' := by
    intro ha
    obtain ⟨pipes, writers, readers, rfl⟩ := System.perform_onPipes ha ht
    rw [if_pos rfl]
    exact h.pipes_turn ha ht
  cases a with
  | stage n refusal =>
    obtain ⟨job, run, e, q, u, -, -, -, hmeets, rfl, hc⟩ := h.stage_turn ht
    have hsize : (u.jobs.modify n fun job => { job with run := some q }).size = u.jobs.size :=
      Array.size_modify
    rw [← hmeets.occurs.launcher_eq] at hc
    rw [hsize]
    exact ⟨_, hc⟩
  | feeder n refusal =>
    obtain ⟨run, e, q, u, -, hmeets, rfl, hc⟩ := h.feeder_turn ht
    rw [← hmeets.occurs.launcher_eq] at hc
    exact ⟨_, hc⟩
  | finish n =>
    obtain ⟨job, stage, result, -, -, -, rfl, hc⟩ := h.finish_turn ht
    rw [if_pos Array.size_modify]
    exact ⟨acc, hc⟩
  | feed range =>
    cases ht
    rw [if_pos rfl]
    exact ⟨acc, h.feed_turn range⟩
  | launch refusal =>
    have hc := h.launch_turn ht
    have hsize : t.jobs.size ≠ c.system.jobs.size := by
      rw [System.perform_launch_size ht]
      exact Nat.succ_ne_self _
    rw [if_neg hsize]
    exact ⟨_, hc⟩
  | _ => exact pipes rfl

/-- Before anything happens, all accounts are empty. -/
theorem coherent_idle (ceiling : Option Int32) (capacity : Option Nat) (record : Array UInt8) :
    Coherent { ceiling, capacity, record } .outside fun _ => {} where
  pipe := fun h => by cases h
  apart := fun h => by cases h
  link := fun h => by cases h
  refused := fun h => by cases h
  named := fun h => by cases h
  launched := fun h => absurd h (Nat.not_lt_zero _)
  sole := fun h => absurd h (Nat.not_lt_zero _)
  child := fun h => by cases h
  older := fun h => by cases h
  outer := fun h => Holder.outside.inj h
  fresh := fun _ => ⟨rfl, rfl, rfl⟩
  absent := fun _ => rfl
  reaped := fun h => by cases h
  writer := fun h => by cases h
  reader := fun h => by cases h
  writers := List.nodup_nil
  readers := List.nodup_nil
  given := fun h => by cases h
  stage := fun h => by cases h
  idle := fun h => by cases h
  feeder := fun h => by cases h

/-- Whatever has happened since nothing had, the parties accord with accounts. -/
theorem Chronicle.coherent {ceiling : Option Int32} {capacity : Option Nat}
    {record : Array UInt8} {actions : List System.Action} {c : Chronicle}
    (h : Chronicle.follow { system := { ceiling, capacity, record } } actions = some c) :
    ∃ acc, Coherent c.system c.launcher acc :=
  @follow_keeps (fun _ => True) (fun c => ∃ acc, Coherent c.system c.launcher acc)
    (fun _ ⟨_, hc⟩ hp => hc.perform hp) _ _ actions (fun _ _ => trivial)
    ⟨_, coherent_idle ceiling capacity record⟩ h

/-! ## The ceiling -/

theorem System.answer_ceiling {σ : Type} {m : Move σ} {q : σ} {pipe : Option Nat}
    {refusal : Refusal} (h : s.answer pipe refusal m = some (q, s')) : s'.ceiling = s.ceiling := by
  cases m with
  | read room next =>
    cases pipe with
    | none => cases h
    | some p =>
      rw [answer] at h
      split at h
      · cases h
        rfl
      · cases h
  | launch next => cases refusal <;> cases h <;> rfl
  | send child bytes next =>
    rw [answer] at h
    split at h
    · cases h
    · obtain ⟨⟨reply, t⟩, ho, heq⟩ := Option.map_eq_some_iff.1 h
      cases heq
      obtain ⟨pipes, rfl⟩ := offer_pipes ho
      rfl
  | shut child next =>
    obtain ⟨p, -, heq⟩ := Option.map_eq_some_iff.1 h
    cases heq
    rfl
  | leave next =>
    obtain ⟨p, -, heq⟩ := Option.map_eq_some_iff.1 h
    cases heq
    rfl
  | reap child next =>
    obtain ⟨result, -, heq⟩ := Option.map_eq_some_iff.1 h
    cases heq
    rfl
  | rest => cases h
  | _ =>
    cases h
    rfl

/-- All stages of a system are launched under one ceiling. -/
theorem System.perform_ceiling {a : System.Action} (h : s.perform a = some s') :
    s'.ceiling = s.ceiling := by
  have pipes : a.onPipes = true → s'.ceiling = s.ceiling := by
    intro ha
    obtain ⟨pipes, writers, readers, rfl⟩ := perform_onPipes ha h
    rfl
  cases a with
  | stage i refusal =>
    rw [perform] at h
    split at h
    · obtain ⟨⟨run, t⟩, ha, rfl⟩ := Option.map_eq_some_iff.1 h
      exact (answer_ceiling ha : t.ceiling = _)
    · cases h
  | finish i =>
    rw [perform] at h
    split at h
    · cases h
      rfl
    · cases h
  | feeder i refusal =>
    rw [perform] at h
    split at h
    · obtain ⟨⟨run, t⟩, ha, rfl⟩ := Option.map_eq_some_iff.1 h
      exact (answer_ceiling ha : t.ceiling = _)
    · cases h
  | feed c =>
    cases h
    rfl
  | launch refusal =>
    obtain ⟨writers, rfl, -⟩ := perform_launch h
    exact s.ceiling_launch refusal
  | _ => exact pipes rfl

theorem System.Reaches.ceiling {allowed : System → System.Action → Prop}
    (h : System.Reaches allowed s s') : s'.ceiling = s.ceiling := by
  induction h with
  | refl => rfl
  | step before may does ih => exact (perform_ceiling does).trans ih

theorem Chronicle.ceiling {ceiling : Option Int32} {capacity : Option Nat}
    {record : Array UInt8} {actions : List System.Action} {c : Chronicle}
    (h : Chronicle.follow { system := { ceiling, capacity, record } } actions = some c) :
    c.system.ceiling = ceiling := by
  refine @follow_keeps (fun _ => True) (fun c => c.system.ceiling = ceiling) ?_ _ _ actions
    (fun _ _ => trivial) rfl h
  intro c c' a _ hceiling hp
  obtain ⟨t, ht, rfl⟩ := Option.map_eq_some_iff.1 hp
  exact (System.perform_ceiling ht).trans hceiling

end SieveChain.Concurrent
