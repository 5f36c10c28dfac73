import SieveChain.Proofs.Parties

/-!
# Parties of every descent

Any number of feeders and stages may share one system, and so may whoever uses it from
outside. Each launch has one launcher, which holds the writing end of the new pipe; the
stage that is launched holds the reading end. So every pipe lies between two accounts,
whatever has failed, and an operation of one party changes the pipe to its child, the pipe
that it reads, or none.
-/

namespace SieveChain.Concurrent

/-- Whoever may launch a stage. A stage that is launched from outside has a launcher of its
own there. -/
inductive Holder
  | feeder (n : Nat)
  | stage (n : Nat)
  | outside (n : Nat)
  deriving DecidableEq

/-- A party that is there. -/
def Holder.Present (s : System) : Holder → Prop
  | .feeder n => n < s.feeders.size
  | .stage n => n < s.jobs.size
  | .outside n => n < s.jobs.size

/-- The thread of the child has finished. -/
def Ended (s : System) (a : Account) : Prop :=
  ∃ child job, a.child = some child ∧ s.jobs[child.index]? = some job ∧ job.ended = true

/-- Parties with accounts, and the pipes between them. -/
structure Joined (s : System) (launcher : Nat → Holder) (acc : Holder → Account) : Prop where
  pipe : ∀ {i : Nat} {job : Job}, s.jobs[i]? = some job → job.pipe < s.pipes.pipes.size
  apart : ∀ {i j : Nat} {job job' : Job}, s.jobs[i]? = some job → s.jobs[j]? = some job' →
    job.pipe = job'.pipe → i = j
  link : ∀ {i : Nat} {job : Job}, s.jobs[i]? = some job → job.run.isSome = true →
    Piped (s.pipes.get job.pipe) (acc (launcher i)) (acc (.stage i))
  refused : ∀ {i : Nat} {job : Job}, s.jobs[i]? = some job → job.run.isSome = false →
    job.ended = true ∧ (s.pipes.get job.pipe).writer = false ∧
      (s.pipes.get job.pipe).reader = false
  named : ∀ {i : Nat} {job : Job}, s.jobs[i]? = some job →
    (acc (launcher i)).child = if job.run.isSome then some ⟨i, threadLabel i⟩ else none
  launched : ∀ {i : Nat}, i < s.jobs.size → (acc (launcher i)).launches ≠ 0
  sole : ∀ {i j : Nat}, i < s.jobs.size → j < s.jobs.size → launcher i = launcher j → i = j
  child : ∀ {P : Holder} {child : Child}, (acc P).child = some child →
    child.index < s.jobs.size ∧ launcher child.index = P
  older : ∀ {i j : Nat}, launcher i = .stage j → j < i
  outer : ∀ {i j : Nat}, launcher i = .outside j → i = j
  fresh : ∀ {i : Nat}, s.jobs.size ≤ i →
    launcher i = .outside i ∧ acc (.stage i) = {} ∧ acc (.outside i) = {}
  absent : ∀ {n : Nat}, s.feeders.size ≤ n → acc (.feeder n) = {}
  reaped : ∀ {P : Holder}, (acc P).reaped = true → Ended s (acc P)

variable {s s' : System} {launcher : Nat → Holder} {acc : Holder → Account} {P : Holder}
  {a' : Account} {pipes : Pipes} {record : Array UInt8} {writers readers : List Nat}

namespace Joined

theorem present_launcher (h : Joined s launcher acc) {i : Nat} (hi : i < s.jobs.size) :
    (launcher i).Present s := by
  have hn := h.launched hi
  cases hl : launcher i with
  | feeder n =>
    refine Nat.lt_of_not_le fun hle => ?_
    rw [hl, h.absent hle] at hn
    exact hn rfl
  | stage n => exact Nat.lt_trans (h.older hl) hi
  | outside n =>
    obtain rfl := h.outer hl
    exact hi

/-- A party with a child has launched it, and its job is there. -/
theorem job_of_child (h : Joined s launcher acc) {child : Child}
    (hk : (acc P).child = some child) :
    ∃ job, s.jobs[child.index]? = some job ∧ job.run.isSome = true ∧
      launcher child.index = P ∧ s.pipeOf? child = some job.pipe := by
  obtain ⟨hi, hl⟩ := h.child hk
  have hjob := Array.getElem?_eq_getElem hi
  have hnamed := h.named hjob
  rw [hl, hk] at hnamed
  refine ⟨_, hjob, ?_, hl, ?_⟩
  · by_contra hrun
    rw [if_neg hrun] at hnamed
    cases hnamed
  · rw [System.pipeOf?, hjob]
    rfl

/-- A job of another number has another pipe. -/
theorem pipe_ne (h : Joined s launcher acc) {i j : Nat} {job job' : Job}
    (hi : s.jobs[i]? = some job) (hj : s.jobs[j]? = some job') (hne : i ≠ j) :
    job.pipe ≠ job'.pipe := fun he => hne (h.apart hi hj he)

/-! ## One party changes its account -/

/-- What a new account of a party must have in common with the old one. -/
structure Keeps (s : System) (a a' : Account) : Prop where
  child : a'.child = a.child
  launches : a'.launches = a.launches
  reaped : a'.reaped = true → a.reaped = true ∨ Ended s a

/-- A party that changes its account keeps all in its place if the pipes of the stages that
run agree with the new account. -/
theorem change (h : Joined s launcher acc) (hP : P.Present s) (hk : Keeps s (acc P) a')
    (hsize : pipes.pipes.size = s.pipes.pipes.size)
    (hlink : ∀ {i : Nat} {job : Job}, s.jobs[i]? = some job → job.run.isSome = true →
      Piped (pipes.get job.pipe) (Function.update acc P a' (launcher i))
        (Function.update acc P a' (.stage i)))
    (hrefused : ∀ {i : Nat} {job : Job}, s.jobs[i]? = some job → job.run.isSome = false →
      pipes.get job.pipe = s.pipes.get job.pipe) :
    Joined { s with pipes, record, writers, readers } launcher (Function.update acc P a') := by
  have hchild : ∀ Q, (Function.update acc P a' Q).child = (acc Q).child := by
    intro Q
    by_cases hQ : Q = P
    · rw [hQ, Function.update_self, hk.child]
    · rw [Function.update_of_ne hQ]
  have hother : ∀ Q, ¬Q.Present s → Function.update acc P a' Q = acc Q := by
    intro Q hQ
    rw [Function.update_of_ne]
    rintro rfl
    exact hQ hP
  refine
    { h with
      pipe := fun hj => by rw [hsize]; exact h.pipe hj
      link := hlink
      refused := fun hj hr => by rw [hrefused hj hr]; exact h.refused hj hr
      named := fun hj => by rw [hchild]; exact h.named hj
      launched := ?_
      child := fun hc => h.child (by rw [← hchild]; exact hc)
      fresh := ?_
      absent := ?_
      reaped := ?_ }
  · intro i hi
    by_cases hQ : launcher i = P
    · rw [hQ, Function.update_self, hk.launches, ← hQ]
      exact h.launched hi
    · rw [Function.update_of_ne hQ]
      exact h.launched hi
  · intro i hi
    obtain ⟨hl, hs, ho⟩ := h.fresh hi
    refine ⟨hl, ?_, ?_⟩
    · rw [hother (.stage i) (Nat.not_lt_of_le hi), hs]
    · rw [hother (.outside i) (Nat.not_lt_of_le hi), ho]
  · intro n hn
    rw [hother (.feeder n) (Nat.not_lt_of_le hn), h.absent hn]
  · intro Q hr
    have hended : Ended s (acc Q) := by
      by_cases hQ : Q = P
      · subst hQ
        rw [Function.update_self] at hr
        exact (hk.reaped hr).elim h.reaped id
      · rw [Function.update_of_ne hQ] at hr
        exact h.reaped hr
    obtain ⟨child, job, hc, hjob⟩ := hended
    exact ⟨child, job, (hchild Q).trans hc, hjob⟩

/-- The two ends of a pipe: the party that reads it, and the party that has launched that
one. Each agrees with the pipe and with the account of the other. -/
inductive End (launcher : Nat → Holder) (acc : Holder → Account) (n : Nat) (p : Pipe)
    (a' : Account) : Holder → Prop
  | down (hp : Piped p (acc (launcher n)) a') (hs : a'.sent = (acc (.stage n)).sent)
      (hshut : a'.shut = (acc (.stage n)).shut) : End launcher acc n p a' (.stage n)
  | up (hp : Piped p a' (acc (.stage n))) (hr : a'.received = (acc (launcher n)).received)
      (hl : a'.left = (acc (launcher n)).left) (he : a'.ended = (acc (launcher n)).ended) :
      End launcher acc n p a' (launcher n)

/-- An operation on one pipe, by the party at one of its ends. -/
theorem operate (h : Joined s launcher acc) (hP : P.Present s) (hk : Keeps s (acc P) a')
    {n : Nat} {job : Job} (hjob : s.jobs[n]? = some job) (hrun : job.run.isSome = true)
    (hsize : pipes.pipes.size = s.pipes.pipes.size)
    (hoff : ∀ q, q ≠ job.pipe → pipes.get q = s.pipes.get q)
    (hend : End launcher acc n (pipes.get job.pipe) a' P) :
    Joined { s with pipes, record, writers, readers } launcher (Function.update acc P a') := by
  have hold : ∀ {i : Nat} {job' : Job}, s.jobs[i]? = some job' → i ≠ n →
      pipes.get job'.pipe = s.pipes.get job'.pipe := fun hi hne =>
    hoff _ (h.pipe_ne hi hjob hne)
  refine h.change hP hk hsize (fun {i job'} hi hi' => ?_) (fun {i job'} hi hi' => ?_)
  · have hlink := h.link hi hi'
    by_cases hin : i = n
    · subst hin
      obtain rfl := Option.some.inj (hi.symm.trans hjob)
      cases hend with
      | down hp hs hshut =>
        rw [Function.update_self, Function.update_of_ne]
        · exact hp
        · exact fun hl => Nat.lt_irrefl _ (h.older hl)
      | up hp hr hl he =>
        rw [Function.update_self, Function.update_of_ne]
        · exact hp
        · exact fun hl => Nat.lt_irrefl _ (h.older hl.symm)
    · rw [hold hi hin]
      cases hend with
      | down hp hs hshut =>
        have hdown : (Holder.stage i : Holder) ≠ .stage n := fun he => hin (Holder.stage.inj he)
        rw [Function.update_of_ne hdown]
        by_cases hup : launcher i = .stage n
        · rw [hup, Function.update_self]
          rw [hup] at hlink
          exact hlink.of_up hs hshut
        · rw [Function.update_of_ne hup]
          exact hlink
      | up hp hr hl he =>
        have hin' := (Array.getElem?_eq_some_iff.1 hi).1
        have hn := (Array.getElem?_eq_some_iff.1 hjob).1
        have hup : launcher i ≠ launcher n := fun he => hin (h.sole hin' hn he)
        rw [Function.update_of_ne hup]
        by_cases hdown : Holder.stage i = launcher n
        · rw [hdown, Function.update_self]
          rw [hdown] at hlink
          exact hlink.of_down hr hl he
        · rw [Function.update_of_ne hdown]
          exact hlink
  · refine hold hi ?_
    rintro rfl
    obtain rfl := Option.some.inj (hi.symm.trans hjob)
    rw [hrun] at hi'
    cases hi'

/-- What does not show on any pipe does not matter. -/
theorem keep (h : Joined s launcher acc) (hP : P.Present s) (hk : Keeps s (acc P) a')
    (hr : a'.received = (acc P).received) (hl : a'.left = (acc P).left)
    (he : a'.ended = (acc P).ended) (hs : a'.sent = (acc P).sent)
    (hshut : a'.shut = (acc P).shut) :
    Joined { s with record } launcher (Function.update acc P a') := by
  refine @change s launcher acc P a' s.pipes record s.writers s.readers h hP hk rfl ?_
    (fun _ _ => rfl)
  intro i job hi hrun
  have hlink := h.link hi hrun
  by_cases hdown : Holder.stage i = P
  · subst hdown
    rw [Function.update_self, Function.update_of_ne fun hl => Nat.lt_irrefl _ (h.older hl)]
    exact hlink.of_down hr hl he
  · rw [Function.update_of_ne hdown]
    by_cases hup : launcher i = P
    · rw [hup, Function.update_self]
      rw [hup] at hlink
      exact hlink.of_up hs hshut
    · rw [Function.update_of_ne hup]
      exact hlink

/-! ## Launches -/

end Joined

/-- Every job is the new one or stands where it stood. -/
theorem job_of_push {jobs : Array Job} {new job : Job} {i : Nat}
    (h : (jobs.push new)[i]? = some job) :
    (i = jobs.size ∧ job = new) ∨ (i < jobs.size ∧ jobs[i]? = some job) := by
  rw [Array.getElem?_push] at h
  split at h
  · next hi => exact .inl ⟨hi, (Option.some.inj h).symm⟩
  · exact .inr ⟨(Array.getElem?_eq_some_iff.1 h).1, h⟩

theorem job_push {jobs : Array Job} {new job : Job} {i : Nat} (h : jobs[i]? = some job) :
    (jobs.push new)[i]? = some job := by
  have hi := (Array.getElem?_eq_some_iff.1 h).1
  rw [Array.getElem?_push_lt hi, ← Array.getElem?_eq_getElem hi, h]

/-- Whoever may launch the next stage: a party that is there, or its own launcher outside. -/
inductive Holder.MayLaunch (s : System) : Holder → Prop
  | inside {P : Holder} (hP : P.Present s) (hout : ∀ n, P ≠ .outside n) : MayLaunch s P
  | outside : MayLaunch s (.outside s.jobs.size)

/-- Whoever is neither there nor the launcher of the next stage outside does not launch it. -/
theorem Holder.MayLaunch.ne (h : P.MayLaunch s) {Q : Holder} (hQ : ¬Q.Present s)
    (hout : Q ≠ .outside s.jobs.size) : Q ≠ P := by
  rintro rfl
  cases h with
  | inside hP => exact hQ hP
  | outside => exact hout rfl

/-- What a launch adds: a job with a pipe of its own, and to the account of its launcher a child
if the thread has been started. -/
structure Adds (s : System) (a a' : Account) (pipes : Pipes) (new : Job) : Prop where
  pipe : new.pipe = s.pipes.pipes.size
  size : pipes.pipes.size = s.pipes.pipes.size + 1
  old : ∀ q < s.pipes.pipes.size, pipes.get q = s.pipes.get q
  launches : a'.launches ≠ 0
  child : a'.child = if new.run.isSome then some ⟨s.jobs.size, threadLabel s.jobs.size⟩ else none
  received : a'.received = a.received
  left : a'.left = a.left
  ended : a'.ended = a.ended
  reaped : a'.reaped = a.reaped
  started : new.run.isSome = true → Piped (pipes.get new.pipe) a' {}
  refused : new.run.isSome = false → new.ended = true ∧
    (pipes.get new.pipe).writer = false ∧ (pipes.get new.pipe).reader = false

namespace Joined

variable {new : Job} {live : Nat}

/-- A party that has launched nothing has no child, and has reaped none. -/
theorem launcher_ne (h : Joined s launcher acc) (hnone : (acc P).launches = 0) {i : Nat}
    (hi : i < s.jobs.size) : launcher i ≠ P := fun hP => h.launched hi (hP ▸ hnone)

theorem childless (h : Joined s launcher acc) (hnone : (acc P).launches = 0) :
    (acc P).child = none := by
  rw [Option.eq_none_iff_forall_ne_some]
  intro child hc
  obtain ⟨hi, hP⟩ := h.child hc
  exact h.launcher_ne hnone hi hP

theorem unreaped (h : Joined s launcher acc) (hnone : (acc P).launches = 0) :
    (acc P).reaped = false := by
  rw [Bool.eq_false_iff]
  intro hr
  obtain ⟨child, -, hc, -⟩ := h.reaped hr
  rw [h.childless hnone] at hc
  cases hc

theorem pipe_push (h : Joined s launcher acc) (ha : Adds s (acc P) a' pipes new) {i : Nat}
    {job : Job} (hj : (s.jobs.push new)[i]? = some job) : job.pipe < pipes.pipes.size := by
  rw [ha.size]
  rcases job_of_push hj with ⟨-, rfl⟩ | ⟨-, hj⟩
  · exact Nat.lt_succ_of_le (Nat.le_of_eq ha.pipe)
  · exact Nat.lt_succ_of_lt (h.pipe hj)

theorem apart_push (h : Joined s launcher acc) (ha : Adds s (acc P) a' pipes new) {i j : Nat}
    {job job' : Job} (hi : (s.jobs.push new)[i]? = some job)
    (hj : (s.jobs.push new)[j]? = some job') (heq : job.pipe = job'.pipe) : i = j := by
  have hnew := ha.pipe
  rcases job_of_push hi with ⟨rfl, rfl⟩ | ⟨-, hi'⟩
  · rcases job_of_push hj with ⟨rfl, rfl⟩ | ⟨-, hj⟩
    · rfl
    · have := h.pipe hj
      omega
  · rcases job_of_push hj with ⟨rfl, rfl⟩ | ⟨-, hj⟩
    · have := h.pipe hi'
      omega
    · exact h.apart hi' hj heq

/-- The pipes of the other stages do not change, and their launchers did not launch this one. -/
theorem link_push (h : Joined s launcher acc) (hnone : (acc P).launches = 0)
    (hP : P.MayLaunch s) (ha : Adds s (acc P) a' pipes new) {i : Nat} {job : Job}
    (hj : (s.jobs.push new)[i]? = some job) (hrun : job.run.isSome = true) :
    Piped (pipes.get job.pipe)
      (Function.update acc P a' (Function.update launcher s.jobs.size P i))
      (Function.update acc P a' (.stage i)) := by
  rcases job_of_push hj with ⟨rfl, rfl⟩ | ⟨hi, hj⟩
  · have hne := hP.ne (Q := .stage s.jobs.size) (Nat.lt_irrefl _) fun he => by cases he
    rw [Function.update_self, Function.update_self, Function.update_of_ne hne,
      (h.fresh (Nat.le_refl _)).2.1]
    exact ha.started hrun
  · have hlink := h.link hj hrun
    rw [Function.update_of_ne (Nat.ne_of_lt hi), Function.update_of_ne (h.launcher_ne hnone hi),
      ha.old _ (h.pipe hj)]
    by_cases hdown : Holder.stage i = P
    · rw [hdown, Function.update_self]
      rw [hdown] at hlink
      exact hlink.of_down ha.received ha.left ha.ended
    · rw [Function.update_of_ne hdown]
      exact hlink

/-- Nobody has launched two stages. -/
theorem sole_push (h : Joined s launcher acc) (hnone : (acc P).launches = 0) {i j : Nat}
    (hi : i < s.jobs.size + 1) (hj : j < s.jobs.size + 1)
    (heq : Function.update launcher s.jobs.size P i = Function.update launcher s.jobs.size P j) :
    i = j := by
  rcases Nat.lt_or_eq_of_le (Nat.le_of_lt_succ hi) with hi | rfl
  · rw [Function.update_of_ne (Nat.ne_of_lt hi)] at heq
    rcases Nat.lt_or_eq_of_le (Nat.le_of_lt_succ hj) with hj | rfl
    · rw [Function.update_of_ne (Nat.ne_of_lt hj)] at heq
      exact h.sole hi hj heq
    · rw [Function.update_self] at heq
      exact absurd heq (h.launcher_ne hnone hi)
  · rcases Nat.lt_or_eq_of_le (Nat.le_of_lt_succ hj) with hj | rfl
    · rw [Function.update_of_ne (Nat.ne_of_lt hj), Function.update_self] at heq
      exact absurd heq.symm (h.launcher_ne hnone hj)
    · rfl

theorem child_push (h : Joined s launcher acc) (ha : Adds s (acc P) a' pipes new) {Q : Holder}
    {child : Child} (hc : (Function.update acc P a' Q).child = some child) :
    child.index < s.jobs.size + 1 ∧
      Function.update launcher s.jobs.size P child.index = Q := by
  by_cases hQ : Q = P
  · rw [hQ, Function.update_self, ha.child] at hc
    split at hc
    · cases hc
      exact ⟨Nat.lt_succ_self _, by rw [hQ, Function.update_self]⟩
    · cases hc
  · rw [Function.update_of_ne hQ] at hc
    obtain ⟨hi, hl⟩ := h.child hc
    exact ⟨Nat.lt_succ_of_lt hi, by rw [Function.update_of_ne (Nat.ne_of_lt hi), hl]⟩

/-- Whoever launches a stage is older, and outside only launches it. -/
theorem older_push (h : Joined s launcher acc) (hP : P.MayLaunch s) {i j : Nat}
    (hl : Function.update launcher s.jobs.size P i = .stage j) : j < i := by
  by_cases hi : i = s.jobs.size
  · rw [hi, Function.update_self] at hl
    subst hl
    cases hP with
    | inside hP => exact hi ▸ hP
  · rw [Function.update_of_ne hi] at hl
    exact h.older hl

theorem outer_push (h : Joined s launcher acc) (hP : P.MayLaunch s) {i j : Nat}
    (hl : Function.update launcher s.jobs.size P i = .outside j) : i = j := by
  by_cases hi : i = s.jobs.size
  · rw [hi, Function.update_self] at hl
    subst hl
    cases hP with
    | inside hP hout => exact absurd rfl (hout j)
    | outside => exact hi
  · rw [Function.update_of_ne hi] at hl
    exact h.outer hl

theorem fresh_push (h : Joined s launcher acc) (hP : P.MayLaunch s) {i : Nat}
    (hi : s.jobs.size + 1 ≤ i) : Function.update launcher s.jobs.size P i = .outside i ∧
      Function.update acc P a' (.stage i) = {} ∧ Function.update acc P a' (.outside i) = {} := by
  obtain ⟨hl, hstage, hout⟩ := h.fresh (Nat.le_of_succ_le hi)
  have hnot : ¬i < s.jobs.size := Nat.not_lt_of_le (Nat.le_of_succ_le hi)
  refine ⟨?_, ?_, ?_⟩
  · rw [Function.update_of_ne (Nat.ne_of_gt hi), hl]
  · rw [Function.update_of_ne (hP.ne (Q := .stage i) hnot fun he => by cases he), hstage]
  · refine (Function.update_of_ne (hP.ne (Q := .outside i) hnot fun he => ?_) _ _).trans hout
    exact Nat.ne_of_gt hi (Holder.outside.inj he)

/-- A launch keeps all in its place. -/
theorem extend (h : Joined s launcher acc) (hnone : (acc P).launches = 0) (hP : P.MayLaunch s)
    (ha : Adds s (acc P) a' pipes new) :
    Joined { s with pipes, jobs := s.jobs.push new, live, writers }
      (Function.update launcher s.jobs.size P) (Function.update acc P a') := by
  have hsize : (s.jobs.push new).size = s.jobs.size + 1 := Array.size_push _
  exact
    { pipe := h.pipe_push ha
      apart := h.apart_push ha
      link := h.link_push hnone hP ha
      refused := by
        intro i job hj hrun
        show job.ended = true ∧ (pipes.get job.pipe).writer = false ∧ _
        rcases job_of_push hj with ⟨-, rfl⟩ | ⟨-, hj⟩
        · exact ha.refused hrun
        · rw [ha.old _ (h.pipe hj)]
          exact h.refused hj hrun
      named := by
        intro i job hj
        rcases job_of_push hj with ⟨rfl, rfl⟩ | ⟨hi, hj⟩
        · rw [Function.update_self, Function.update_self]
          exact ha.child
        · rw [Function.update_of_ne (Nat.ne_of_lt hi),
            Function.update_of_ne (h.launcher_ne hnone hi)]
          exact h.named hj
      launched := by
        intro i hi
        rcases Nat.lt_or_eq_of_le (Nat.le_of_lt_succ (hsize ▸ hi)) with hi | rfl
        · rw [Function.update_of_ne (Nat.ne_of_lt hi),
            Function.update_of_ne (h.launcher_ne hnone hi)]
          exact h.launched hi
        · rw [Function.update_self, Function.update_self]
          exact ha.launches
      sole := fun hi hj => h.sole_push hnone (hsize ▸ hi) (hsize ▸ hj)
      child := fun hc => hsize ▸ h.child_push ha hc
      older := h.older_push hP
      outer := h.outer_push hP
      fresh := fun hi => h.fresh_push hP (hsize ▸ hi)
      absent := by
        intro n hn
        rw [Function.update_of_ne (hP.ne (Q := .feeder n) (Nat.not_lt_of_le hn)
          fun he => by cases he), h.absent hn]
      reaped := by
        intro Q hr
        by_cases hQ : Q = P
        · rw [hQ, Function.update_self, ha.reaped, h.unreaped hnone] at hr
          cases hr
        · rw [Function.update_of_ne hQ] at hr ⊢
          obtain ⟨child, job, hc, hjob, hended⟩ := h.reaped hr
          exact ⟨child, job, hc, job_push hjob, hended⟩ }

end Joined

/-! ## What can happen -/

/-- Pipes of which the same ends are held. -/
structure Alike (ps ps' : Pipes) : Prop where
  size : ps'.pipes.size = ps.pipes.size
  openEnds : ps'.openEnds = ps.openEnds
  writer : ∀ p, (ps'.get p).writer = (ps.get p).writer
  reader : ∀ p, (ps'.get p).reader = (ps.get p).reader

theorem Alike.set {ps : Pipes} {p : Nat} {pipe : Pipe} (hp : p < ps.pipes.size)
    (hw : pipe.writer = (ps.get p).writer) (hr : pipe.reader = (ps.get p).reader) :
    Alike ps (ps.set p pipe) where
  size := Pipes.size_set
  openEnds := rfl
  writer := by
    intro q
    by_cases hq : q = p
    · rw [hq, Pipes.get_set hp, hw]
    · rw [Pipes.get_set_of_ne hq]
  reader := by
    intro q
    by_cases hq : q = p
    · rw [hq, Pipes.get_set hp, hr]
    · rw [Pipes.get_set_of_ne hq]

/-- What an event of a party does to the system around it: where a thread cannot be started
the launch fails, and where a reader has gone a write does; nothing else goes wrong. -/
inductive System.Occurs (s : System) (refusal : Refusal) : Option Event → System → Prop
  | proceed : Occurs s refusal none s
  | read {bytes : List UInt8} {pipes : Pipes} (h : Alike s.pipes pipes) :
      Occurs s refusal (some (.read (.got bytes))) { s with pipes }
  | record {bytes : List UInt8} (hne : bytes ≠ []) :
      Occurs s refusal
        (some (.recorded (Scripted.Surroundings.accepted bytes (.took bytes.length))
          (.took bytes.length))) { s with record := s.record ++ bytes }
  | commit : Occurs s refusal (some (.committed (.ok ()))) s
  | launch : Occurs s refusal (some (.launched (s.launch refusal).1)) (s.launch refusal).2
  | sent {child : Child} {accepted : List UInt8} {n : Nat} {pipes : Pipes}
      (h : Alike s.pipes pipes) :
      Occurs s refusal (some (.sent child accepted (.took (n + 1)))) { s with pipes }
  | broken {child : Child} {accepted : List UInt8} {p : Nat} {pipes : Pipes}
      (hp : s.pipeOf? child = some p) (hr : (s.pipes.get p).reader = false)
      (h : Alike s.pipes pipes) :
      Occurs s refusal (some (.sent child accepted (.failed Pipe.readerGone))) { s with pipes }
  | shut {child : Child} {p : Nat} (hp : s.pipeOf? child = some p)
      (hw : (s.pipes.get p).writer = true) :
      Occurs s refusal (some (.shut child)) { s with pipes := (s.pipes.dropWriter p).2 }
  | leave {n : Nat} {job : Job} (hj : s.jobs[n]? = some job)
      (hr : (s.pipes.get job.pipe).reader = true) :
      Occurs s refusal (some .left) { s with pipes := (s.pipes.dropReader job.pipe).2 }
  | reap {child : Child} {result : Except Fault Unit} (h : s.verdict child = some result) :
      Occurs s refusal (some (.reaped child result)) s

/-- Who has launched whom once there have been so many launches and a party has met an
event. -/
def lineage (launches : Nat) (P : Holder) (launcher : Nat → Holder) :
    Option Event → Nat → Holder
  | some (.launched _) => Function.update launcher launches P
  | _ => launcher

namespace System

/-- The pipes after a launch: those of a thread that could not be started have been given up. -/
theorem size_launch (s : System) (refusal : Refusal) :
    (s.launch refusal).2.pipes.pipes.size = s.pipes.pipes.size + 1 := by
  cases refusal with
  | none => exact Pipes.size_create
  | some reason => exact Pipes.size_dropWriter.trans (Pipes.size_dropReader.trans Pipes.size_create)

theorem get_launch (s : System) (refusal : Refusal) {p : Nat} (hp : p < s.pipes.pipes.size) :
    (s.launch refusal).2.pipes.get p = s.pipes.get p := by
  have hne : p ≠ s.pipes.pipes.size := Nat.ne_of_lt hp
  cases refusal with
  | none => exact Pipes.get_create_of_lt hp
  | some reason =>
    exact (Pipes.get_dropWriter_of_ne hne).trans
      ((Pipes.get_dropReader_of_ne hne).trans (Pipes.get_create_of_lt hp))

theorem get_launch_started (s : System) :
    (s.launch none).2.pipes.get s.pipes.pipes.size = {} := Pipes.get_create

theorem get_launch_refused (s : System) (reason : String) :
    (s.launch (some reason)).2.pipes.get s.pipes.pipes.size =
      { writer := false, reader := false } := by
  have hnew : s.pipes.create.2.get s.pipes.pipes.size = {} := Pipes.get_create
  have hlt : s.pipes.pipes.size < s.pipes.create.2.pipes.size := by
    rw [Pipes.size_create]
    exact Nat.lt_succ_self _
  have hreader := Pipes.get_dropReader hlt (by rw [hnew])
  show ((s.pipes.create.2.dropReader s.pipes.pipes.size).2.dropWriter
    s.pipes.pipes.size).2.get s.pipes.pipes.size = _
  rw [Pipes.get_dropWriter, hreader, hnew]
  · rw [Pipes.size_dropReader]
    exact hlt
  · rw [hreader, hnew]

/-- The job that a launch adds. -/
def newJob (s : System) : Refusal → Job
  | none => { pipe := s.pipes.pipes.size, run := some (.start (Stage.new s.ceiling)) }
  | some _ => { pipe := s.pipes.pipes.size, run := none, ended := true }

theorem jobs_launch (s : System) (refusal : Refusal) :
    (s.launch refusal).2.jobs = s.jobs.push (s.newJob refusal) := by
  cases refusal <;> rfl

theorem jobs_size_launch (s : System) (refusal : Refusal) :
    (s.launch refusal).2.jobs.size = s.jobs.size + 1 := by
  rw [s.jobs_launch, Array.size_push]

theorem feeders_launch (s : System) (refusal : Refusal) :
    (s.launch refusal).2.feeders = s.feeders := by
  cases refusal <;> rfl

theorem readers_launch (s : System) (refusal : Refusal) :
    (s.launch refusal).2.readers = s.readers := by
  cases refusal <;> rfl

theorem record_launch (s : System) (refusal : Refusal) :
    (s.launch refusal).2.record = s.record := by
  cases refusal <;> rfl

theorem ceiling_launch (s : System) (refusal : Refusal) :
    (s.launch refusal).2.ceiling = s.ceiling := by
  cases refusal <;> rfl

theorem capacity_launch (s : System) (refusal : Refusal) :
    (s.launch refusal).2.capacity = s.capacity := by
  cases refusal <;> rfl

end System

namespace Joined

theorem launch (h : Joined s launcher acc) (hP : P.MayLaunch s)
    (hnone : (acc P).launches = 0) (hsent : (acc P).sent = []) (hshut : (acc P).shut = false)
    (refusal : Refusal) :
    Joined { (s.launch refusal).2 with writers } (Function.update launcher s.jobs.size P)
      (Function.update acc P ((acc P).add (.launched (s.launch refusal).1))) := by
  have hsize := s.size_launch refusal
  have hold : ∀ q < s.pipes.pipes.size, (s.launch refusal).2.pipes.get q = s.pipes.get q :=
    fun q hq => s.get_launch refusal hq
  cases refusal with
  | none =>
    have hnew := s.get_launch_started
    refine h.extend hnone hP ⟨rfl, hsize, hold, Nat.succ_ne_zero _, rfl, rfl, rfl, rfl, rfl,
      fun _ => ?_, fun hr => by cases hr⟩
    show Piped ((s.launch none).2.pipes.get s.pipes.pipes.size) _ _
    rw [hnew]
    refine ⟨hsent.symm, ?_, rfl, fun hended => (Bool.false_ne_true hended).elim, ?_⟩
    · show true = !(acc P).shut
      rw [hshut]
      rfl
    · exact fun chunk hc => absurd hc List.not_mem_nil
  | some reason =>
    have hnew := s.get_launch_refused reason
    refine h.extend hnone hP ⟨rfl, hsize, hold, Nat.succ_ne_zero _, h.childless hnone, rfl, rfl,
      rfl, rfl, (fun hr => by cases hr), fun _ => ⟨rfl, ?_⟩⟩
    show ((s.launch (some reason)).2.pipes.get s.pipes.pipes.size).writer = false ∧
      ((s.launch (some reason)).2.pipes.get s.pipes.pipes.size).reader = false
    rw [hnew]
    exact ⟨rfl, rfl⟩

/-! ## The operations of one party -/

theorem writer_held (h : Joined s launcher acc) {child : Child}
    (hk : (acc P).child = some child) (hshut : (acc P).shut = false) :
    ∃ job, s.jobs[child.index]? = some job ∧ job.run.isSome = true ∧
      launcher child.index = P ∧ s.pipeOf? child = some job.pipe ∧
      (s.pipes.get job.pipe).writer = true := by
  obtain ⟨job, hjob, hrun, hl, hpipe⟩ := h.job_of_child hk
  refine ⟨job, hjob, hrun, hl, hpipe, ?_⟩
  rw [(h.link hjob hrun).writer, hl, hshut]
  rfl

theorem read (h : Joined s launcher acc) {n room : Nat} {job : Job}
    (hjob : s.jobs[n]? = some job) (hrun : job.run.isSome = true) (hroom : 0 < room)
    (hleft : (acc (.stage n)).left = false) {bytes : List UInt8}
    (hread : s.pipes.read job.pipe room = (.got bytes, pipes)) :
    bytes.length ≤ room ∧ Alike s.pipes pipes ∧
      Joined { s with pipes } launcher (Function.update acc (.stage n)
        ((acc (.stage n)).add (.read (.got bytes)))) := by
  have hlink := h.link hjob hrun
  have hreader : (s.pipes.get job.pipe).reader = true := by
    rw [hlink.reader, hleft]
    rfl
  have hn := (Array.getElem?_eq_some_iff.1 hjob).1
  obtain ⟨hsent, hshut, hchild, -, -⟩ := (acc (.stage n)).add_got bytes
  rw [Pipes.read, if_pos hreader] at hread
  split at hread
  · cases hread
  · next bytes' p' hp =>
    cases hread
    have hg := Pipe.read_got hlink.solid hroom hp
    refine ⟨hg.fits, Alike.set (h.pipe hjob) hg.writer hg.reader, ?_⟩
    have hkeeps : Keeps s (acc (.stage n)) ((acc (.stage n)).add (.read (.got bytes))) := by
      refine ⟨hchild, ?_, fun hr => .inl ?_⟩
      · cases bytes <;> rfl
      · cases bytes <;> exact hr
    refine h.operate hn hkeeps hjob hrun Pipes.size_set (fun q hq => Pipes.get_set_of_ne hq)
      (.down ?_ hsent hshut)
    rw [Pipes.get_set (h.pipe hjob)]
    exact hlink.read hg

/-- A write to a pipe of which the writing end is held: some of it is taken, or the reader
has gone. -/
theorem send (h : Joined s launcher acc) (hP : P.Present s) {child : Child}
    (hk : (acc P).child = some child) (hshut : (acc P).shut = false) {bytes : List UInt8}
    (hne : bytes ≠ []) {p : Nat} (hp : s.pipeOf? child = some p) {reply : WriteReply}
    (ho : s.offer p bytes = some (reply, s')) :
    reply.Fits bytes ∧
      (∀ refusal, s.Occurs refusal
        (some (.sent child (Scripted.Surroundings.accepted bytes reply) reply)) s') ∧
      Joined s' launcher (Function.update acc P
        ((acc P).add (.sent child (Scripted.Surroundings.accepted bytes reply) reply))) := by
  obtain ⟨job, hjob, hrun, rfl, hpipe, hwriter⟩ := h.writer_held hk hshut
  obtain rfl := Option.some.inj (hp.symm.trans hpipe)
  have hlink := h.link hjob hrun
  have hlt := h.pipe hjob
  cases hreader : (s.pipes.get job.pipe).reader with
  | true =>
    obtain ⟨n, p', hn, rfl, rfl, hpending, hw, hr, hsolid⟩ :=
      System.offer_took hwriter hreader hlink.solid hne ho
    have hadd := (acc (launcher child.index)).add_sent_took child bytes n
    refine ⟨hn, fun _ => .sent (Alike.set hlt (hw.trans hwriter.symm) (hr.trans hreader.symm)),
      ?_⟩
    rw [hadd]
    refine h.operate hP ⟨rfl, rfl, .inl⟩ hjob hrun Pipes.size_set
      (fun q hq => Pipes.get_set_of_ne hq) (.up ?_ rfl rfl rfl)
    rw [Pipes.get_set hlt]
    refine ⟨?_, hw.trans (hwriter.symm.trans hlink.writer),
      hr.trans (hreader.symm.trans hlink.reader), fun he => ?_, hsolid⟩
    · rw [hpending, ← List.append_assoc, hlink.bytes]
    · rw [(hlink.ended he).1] at hwriter
      cases hwriter
  | false =>
    have hempty : bytes.isEmpty = false := List.isEmpty_eq_false_iff.2 hne
    rw [System.offer_of_writer hwriter, hreader, if_neg fun hwait => by cases hwait.1] at ho
    simp only [Bool.false_eq_true, if_false, Pipe.write, hempty, hreader] at ho
    cases ho
    have hi : Pipe.readerGone.isInterrupted = false := rfl
    refine ⟨trivial, fun _ => .broken hpipe hreader (Alike.set hlt rfl rfl), ?_⟩
    rw [Account.add_sent_failed _ _ _ hi]
    refine h.operate hP ⟨rfl, rfl, .inl⟩ hjob hrun Pipes.size_set
      (fun q hq => Pipes.get_set_of_ne hq) (.up ?_ rfl rfl rfl)
    rw [Pipes.get_set hlt]
    exact hlink.of_up rfl rfl

theorem shut (h : Joined s launcher acc) (hP : P.Present s) {child : Child}
    (hk : (acc P).child = some child) (hshut : (acc P).shut = false) {p : Nat}
    (hp : s.pipeOf? child = some p) :
    Joined { s with pipes := (s.pipes.dropWriter p).2, writers } launcher
      (Function.update acc P { acc P with shut := true }) := by
  obtain ⟨job, hjob, hrun, rfl, hpipe, hwriter⟩ := h.writer_held hk hshut
  obtain rfl := Option.some.inj (hp.symm.trans hpipe)
  have hlink := h.link hjob hrun
  refine h.operate hP ⟨rfl, rfl, .inl⟩ hjob hrun Pipes.size_dropWriter
    (fun q hq => Pipes.get_dropWriter_of_ne hq) (.up ?_ rfl rfl rfl)
  rw [Pipes.get_dropWriter (h.pipe hjob) hwriter]
  exact ⟨hlink.bytes, rfl, hlink.reader, fun he => ⟨rfl, (hlink.ended he).2⟩, hlink.solid⟩

theorem leave (h : Joined s launcher acc) {n : Nat} {job : Job} (hjob : s.jobs[n]? = some job)
    (hrun : job.run.isSome = true) (hleft : (acc (.stage n)).left = false) :
    (s.pipes.get job.pipe).reader = true ∧
      Joined { s with pipes := (s.pipes.dropReader job.pipe).2 } launcher
        (Function.update acc (.stage n) { acc (.stage n) with left := true }) := by
  have hlink := h.link hjob hrun
  have hreader : (s.pipes.get job.pipe).reader = true := by
    rw [hlink.reader, hleft]
    rfl
  refine ⟨hreader, ?_⟩
  refine h.operate (Array.getElem?_eq_some_iff.1 hjob).1 ⟨rfl, rfl, .inl⟩ hjob hrun
    Pipes.size_dropReader (fun q hq => Pipes.get_dropReader_of_ne hq) (.down ?_ rfl rfl)
  rw [Pipes.get_dropReader (h.pipe hjob) hreader]
  exact ⟨hlink.bytes, hlink.writer, rfl, hlink.ended, hlink.solid⟩

/-- Whatever a party may ask for, its answer keeps all in its place. -/
theorem answer {σ : Type} {m : Move σ} {q : σ} {pipe : Option Nat} {refusal : Refusal}
    (h : Joined s launcher acc) (hP : P.Present s) (hout : ∀ n, P ≠ .outside n)
    (hm : m.Permitted (acc P))
    (hpipe : ∀ p, pipe = some p → ∃ n job, P = .stage n ∧ s.jobs[n]? = some job ∧
      job.run.isSome = true ∧ job.pipe = p)
    (ha : s.answer pipe refusal m = some (q, s')) :
    ∃ e, m.Answered e q ∧ s.Occurs refusal e s' ∧
      Joined s' (lineage s.jobs.size P launcher e) (Function.update acc P ((acc P).after e)) := by
  cases m with
  | read room next =>
    cases pipe with
    | none => cases ha
    | some p =>
      obtain ⟨n, job, rfl, hjob, hrun, rfl⟩ := hpipe p rfl
      rw [System.answer] at ha
      split at ha
      · next bytes pipes hread =>
        cases ha
        obtain ⟨hfits, halike, hjoined⟩ := h.read hjob hrun hm.1 hm.2.1 hread
        exact ⟨some (.read (.got bytes)), .read hfits, .read halike, hjoined⟩
      · cases ha
  | record bytes next =>
    cases ha
    refine ⟨_, .record (Nat.le_refl _), .record hm.1, ?_⟩
    rw [Account.after, Account.add_recorded_all _ hm.1]
    exact h.keep hP ⟨rfl, rfl, .inl⟩ rfl rfl rfl rfl rfl
  | commit next =>
    cases ha
    refine ⟨_, .commit _, .commit, ?_⟩
    rw [Account.after, Account.add_committed]
    exact h.keep hP ⟨rfl, rfl, .inl⟩ rfl rfl rfl rfl rfl
  | launch next =>
    obtain rfl : s' = (s.launch refusal).2 := by cases ha; rfl
    obtain rfl : q = next (s.launch refusal).1 := by cases ha; rfl
    refine ⟨_, .launch _, .launch, ?_⟩
    exact h.launch (.inside hP hout) hm.1 hm.2.2.1 hm.2.2.2 refusal
  | send child bytes next =>
    obtain ⟨hne, hk, hshut⟩ := hm
    obtain ⟨job, -, -, -, hp⟩ := h.job_of_child hk
    rw [System.answer, hp] at ha
    obtain ⟨⟨reply, t⟩, ho, heq⟩ := Option.map_eq_some_iff.1 ha
    cases heq
    obtain ⟨hfits, hoccurs, hjoined⟩ := h.send hP hk hshut hne hp ho
    exact ⟨_, .send hfits, hoccurs refusal, hjoined⟩
  | shut child next =>
    obtain ⟨hk, hshut⟩ := hm
    obtain ⟨job, -, -, -, hp, hwriter⟩ := h.writer_held hk hshut
    rw [System.answer, hp] at ha
    cases ha
    exact ⟨_, .shut, .shut hp hwriter, h.shut hP hk hshut hp⟩
  | leave next =>
    cases pipe with
    | none => cases ha
    | some p =>
      obtain ⟨n, job, rfl, hjob, hrun, rfl⟩ := hpipe p rfl
      cases ha
      obtain ⟨hreader, hjoined⟩ := h.leave hjob hrun hm.1
      exact ⟨_, .leave, .leave hjob hreader, hjoined⟩
  | reap child next =>
    obtain ⟨result, hresult, heq⟩ := Option.map_eq_some_iff.1 ha
    cases heq
    obtain ⟨job, stage, report, hjob, hended, -, -⟩ := System.verdict_eq_some hresult
    refine ⟨_, .reap result, .reap hresult, ?_⟩
    exact h.keep hP ⟨rfl, rfl, fun _ => .inr ⟨child, job, hm.1, hjob, hended⟩⟩ rfl rfl rfl rfl rfl
  | forsake child next => exact hm.elim
  | proceed next =>
    cases ha
    refine ⟨none, .proceed, .proceed, ?_⟩
    rw [Account.after, Function.update_eq_self]
    exact h
  | rest => cases ha

end Joined

end SieveChain.Concurrent
