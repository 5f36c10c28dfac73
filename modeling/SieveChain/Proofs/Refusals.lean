import SieveChain.Proofs.FedChains
import SieveChain.Proofs.Faults
import SieveChain.Proofs.Flows

/-!
# Refusals

One launch of a feeder's flow is refused: the thread of one stage, or of the first, cannot be
started. Whoever has launched it fails for that reason. Those above may write on for a while,
find that the pipe to their child is broken, or learn of the failure only when they reap the
child; in the end all of them report the one refusal, and the record holds the lines of the
stages above the one that could not launch its child.
-/

/-! ## What stays in an account -/

namespace SieveChain

namespace Account

/-- Nothing but a launch changes whether a child has been launched. -/
theorem unlaunched {a : Account} {e : Option Event}
    (h : ∀ result, e ≠ some (.launched result)) :
    (a.after e).launches = a.launches ∧ (a.after e).child = a.child := by
  cases e with
  | none => exact ⟨rfl, rfl⟩
  | some e =>
    cases e with
    | read reply =>
      cases reply with
      | got bytes => cases bytes <;> exact ⟨rfl, rfl⟩
      | failed e => exact ⟨rfl, rfl⟩
    | launched result => exact absurd rfl (h result)
    | _ => exact ⟨rfl, rfl⟩

theorem shut_after {a : Account} (e : Option Event) (h : a.shut = true) :
    (a.after e).shut = true := by
  cases e with
  | none => exact h
  | some e => rw [after, (a.flags_add e).2.1, h, Bool.true_or]

/-- Whoever has reaped a child had done so before, or does so now. -/
theorem reaped_or {a : Account} {e : Option Event} (h : (a.after e).reaped = true) :
    a.reaped = true ∨ ∃ child result, e = some (.reaped child result) := by
  cases e with
  | none => exact .inl h
  | some e =>
    rw [after, (a.flags_add e).2.2.2, Bool.or_eq_true] at h
    refine h.imp_right fun hreap => ?_
    cases e with
    | reaped child result => exact ⟨child, result, rfl⟩
    | _ => cases hreap

end Account

theorem Move.Answered.of_recorded {σ : Type} {m : Move σ} {accepted : List UInt8}
    {reply : WriteReply} {q : σ} (h : m.Answered (some (.recorded accepted reply)) q) :
    ∃ bytes next, m = .record bytes next := by
  cases h
  exact ⟨_, _, rfl⟩

/-- A stage launches another only when a value has come in. -/
theorem Stage.Run.called {ceiling : Option Int32} {a : Account} {e : Option Event}
    {r r' : Stage.Run} (h : r.Accords ceiling a) (hm : r.move.Answered e r')
    (hcalled : a.launches ≠ 0 → a.received ≠ []) (hl : (a.after e).launches ≠ 0) :
    (a.after e).received ≠ [] := by
  by_cases hlaunch : ∃ result, e = some (.launched result)
  · obtain ⟨result, rfl⟩ := hlaunch
    obtain ⟨-, -, v, -, hv⟩ := allows_of_answered (Run.permitted h) (Run.timely h) hm
    have hsame : (a.add (.launched result)).received = a.received := by cases result <;> rfl
    rw [Account.after, hsame, hv]
    exact List.cons_ne_nil _ _
  · obtain ⟨hsame, -⟩ := Account.unlaunched fun result he => hlaunch ⟨result, he⟩
    rw [hsame] at hl
    cases e with
    | none => exact hcalled hl
    | some e =>
      intro hnil
      have hreceived := received_add a e
      change (a.add e).received = [] at hnil
      rw [hnil, List.prefix_nil] at hreceived
      exact hcalled hl hreceived

namespace Concurrent

open Record Stage Wire

variable {ceiling : Option Int32} {vs : List Int32}

/-! ## What comes down a chain -/

/-- The values that come to a stage from a number of stages above it. -/
def handed (ceiling : Option Int32) (vs : List Int32) : Nat → List Int32
  | 0 => vs
  | n + 1 => handedOn ceiling (handed ceiling vs n)

theorem handed_succ (ceiling : Option Int32) (vs : List Int32) (n : Nat) :
    handed ceiling vs (n + 1) = handed ceiling (handedOn ceiling vs) n := by
  induction n with
  | zero => rfl
  | succ n ih =>
    rw [handed, ih]
    rfl

/-- What each stage of a chain owns that is handed all. -/
theorem sieve_getElem? (ceiling : Option Int32) (vs : List Int32) (n : Nat) :
    (sieve ceiling vs)[n]? = owned? ceiling (handed ceiling vs n) := by
  induction n generalizing vs with
  | zero =>
    rw [sieve_step, handed]
    cases hown : owned? ceiling vs with
    | none =>
      rw [handedOn_idle hown, sieve]
      rfl
    | some p => rfl
  | succ n ih =>
    rw [handed_succ, ← ih, sieve_step ceiling vs]
    cases hown : owned? ceiling vs with
    | none =>
      rw [handedOn_idle hown, sieve]
      rfl
    | some p => rfl

namespace Strung

variable {acc : Nat → Account}

/-- Each stage receives a beginning of what comes to it where all goes well. -/
theorem values (h : Strung ceiling acc) (hs : (acc 0).sent <+: encodeAll vs) (n : Nat) :
    Wire.values (acc (n + 1)).received <+: handed ceiling vs n := by
  induction n with
  | zero =>
    have hvalues := values_mono ((h.received 0).trans hs)
    rwa [values_encodeAll] at hvalues
  | succ n ih =>
    have hvalues := values_mono ((h.received (n + 1)).trans (h.sound n).sent)
    rw [values_encodeAll] at hvalues
    exact hvalues.trans (handedOn_mono ih)

/-- The stages above one that has sent anything own the first values that the sieve keeps. -/
theorem owners_eq (h : Strung ceiling acc) (hs : (acc 0).sent <+: encodeAll vs) {n : Nat}
    (hn : (acc n).sent ≠ []) : owners ceiling acc n = (sieve ceiling vs).take n := by
  induction n with
  | zero => rfl
  | succ n ih =>
    have hchild : (acc (n + 1)).child.isSome = true := by
      rw [Option.isSome_iff_ne_none]
      exact fun hk => hn ((h.sound n).child hk)
    have howned : owned? ceiling (Wire.values (acc (n + 1)).received) =
        owned? ceiling (handed ceiling vs n) :=
      owned?_of_isPrefix (h.values hs n) ((h.sound n).owner hchild)
    rw [owners_succ, ih fun hz => hn (h.silent hz).2.2, List.take_add_one, sieve_getElem?,
      ← howned, ownValue?, if_pos hchild]

end Strung

/-! ## How failures spread -/

/-- What befalls a party of a chain, by its account and that of its child. -/
structure Befalls (a below : Account) (e : Option Event) : Prop where
  alive : a.child.isSome = true → a.launches ≠ 0
  /-- A party fails when its launch does, or because its child has failed. -/
  failing : a.smooth = true → (a.after e).smooth = false →
    (∃ f, e = some (.launched (.error f))) ∨ (a.child.isSome = true ∧ below.smooth = false)
  launched : ∀ result, e = some (.launched result) → a.launches = 0 ∧ a.child = none
  reaped : ∀ child result, e = some (.reaped child result) →
    below.smooth = result.isOk ∧ a.shut = true

/-- How failures spread among a party and the stages below it. -/
structure Spreads (acc : Nat → Account) : Prop where
  /-- Whoever has failed could not launch a child, or the child has failed. -/
  cause : ∀ n, (acc n).smooth = false → (acc n).launches ≠ 0 ∧
    ((acc n).child.isSome = true → (acc (n + 1)).smooth = false)
  /-- Whoever has reaped a child and has not failed has learned that the child has not. -/
  clear : ∀ n, (acc n).reaped = true → (acc n).smooth = true → (acc (n + 1)).smooth = true
  late : ∀ n, (acc n).reaped = true → (acc n).shut = true

namespace Befalls

variable {a below : Account} {e : Option Event}

/-- A party launches only once. -/
theorem launched_once (h : Befalls a below e) (hl : a.launches ≠ 0) :
    (a.after e).launches = a.launches ∧ (a.after e).child = a.child :=
  Account.unlaunched fun result he => hl (h.launched result he).1

theorem cause (h : Befalls a below e)
    (hcause : a.smooth = false → a.launches ≠ 0 ∧ (a.child.isSome = true → below.smooth = false))
    (hs : (a.after e).smooth = false) : (a.after e).launches ≠ 0 ∧
      ((a.after e).child.isSome = true → below.smooth = false) := by
  cases ha : a.smooth with
  | false =>
    obtain ⟨hl, hbelow⟩ := hcause ha
    obtain ⟨hlaunches, hchild⟩ := h.launched_once hl
    rw [hlaunches, hchild]
    exact ⟨hl, hbelow⟩
  | true =>
    rcases h.failing ha hs with ⟨f, rfl⟩ | ⟨hk, hbelow⟩
    · refine ⟨Nat.succ_ne_zero _, fun hk => ?_⟩
      change a.child.isSome = true at hk
      rw [(h.launched _ rfl).2] at hk
      cases hk
    · rw [(h.launched_once (h.alive hk)).1]
      exact ⟨h.alive hk, fun _ => hbelow⟩

theorem clear (h : Befalls a below e)
    (hclear : a.reaped = true → a.smooth = true → below.smooth = true)
    (hr : (a.after e).reaped = true) (hs : (a.after e).smooth = true) : below.smooth = true := by
  have ha : a.smooth = true := by
    rw [← Bool.not_eq_false]
    intro ha
    rw [Account.not_smooth_after ha] at hs
    cases hs
  rcases Account.reaped_or hr with hr | ⟨child, result, rfl⟩
  · exact hclear hr ha
  · rw [(h.reaped _ _ rfl).1]
    change (a.smooth && result.isOk) = true at hs
    rwa [ha] at hs

theorem late (h : Befalls a below e) (hlate : a.reaped = true → a.shut = true)
    (hr : (a.after e).reaped = true) : (a.after e).shut = true := by
  rcases Account.reaped_or hr with hr | ⟨child, result, rfl⟩
  · exact Account.shut_after e (hlate hr)
  · exact (h.reaped _ _ rfl).2

end Befalls

theorem Spreads.of_empty {acc : Nat → Account} (h : ∀ n, acc n = {}) : Spreads acc where
  cause := fun n hs => by
    rw [h n] at hs
    cases hs
  clear := fun n hr => by
    rw [h n] at hr
    cases hr
  late := fun n hr => by
    rw [h n] at hr
    cases hr

/-- What befalls a party that goes on spreads as before: nobody has reaped it yet. -/
theorem Spreads.update {acc : Nat → Account} (h : Spreads acc) {n : Nat} {e : Option Event}
    (hb : Befalls (acc n) (acc (n + 1)) e) (hopen : ∀ m, m + 1 = n → (acc m).reaped = false) :
    Spreads (Function.update acc n ((acc n).after e)) where
  cause := by
    intro m
    rcases eq_or_ne m n with rfl | hm
    · rw [Function.update_self, Function.update_of_ne (Nat.succ_ne_self m)]
      exact hb.cause (h.cause m)
    · rw [Function.update_of_ne hm]
      intro hs
      obtain ⟨hlaunches, hbelow⟩ := h.cause m hs
      refine ⟨hlaunches, fun hk => ?_⟩
      rcases eq_or_ne (m + 1) n with rfl | hm'
      · rw [Function.update_self]
        exact Account.not_smooth_after (hbelow hk) e
      · rw [Function.update_of_ne hm']
        exact hbelow hk
  clear := by
    intro m
    rcases eq_or_ne m n with rfl | hm
    · rw [Function.update_self, Function.update_of_ne (Nat.succ_ne_self m)]
      exact hb.clear (h.clear m)
    · rw [Function.update_of_ne hm]
      intro hr hs
      rcases eq_or_ne (m + 1) n with rfl | hm'
      · rw [hopen m rfl] at hr
        cases hr
      · rw [Function.update_of_ne hm']
        exact h.clear m hr hs
  late := by
    intro m
    rcases eq_or_ne m n with rfl | hm
    · rw [Function.update_self]
      exact hb.late (h.late m)
    · rw [Function.update_of_ne hm]
      exact h.late m

/-! ## Chains and their accounts -/

/-- The accounts of the party above a chain and of its stages, in their order. -/
def strand (root : Holder) (first : Nat) (acc : Holder → Account) (n : Nat) : Account :=
  acc (leader root first n)

variable {s t : System} {launcher : Nat → Holder} {acc : Holder → Account} {root P : Holder}
  {first n : Nat} {refusal : Refusal} {e : Option Event}

namespace Linear

theorem leader_injective (h : Linear s launcher root first) :
    Function.Injective (leader root first) := by
  intro n m he
  cases n with
  | zero =>
    cases m with
    | zero => rfl
    | succ m => exact absurd he (h.above _)
  | succ n =>
    cases m with
    | zero => exact absurd he.symm (h.above _)
    | succ m =>
      have := Holder.stage.inj he
      omega

theorem strand_update (h : Linear s launcher root first) (n : Nat) (a' : Account) :
    strand root first (Function.update acc (leader root first n) a') =
      Function.update (strand root first acc) n a' :=
  Function.update_comp_eq_of_injective acc h.leader_injective n a'

/-- The child of a party of a chain is the stage in the place behind. -/
theorem child_at (h : Linear s launcher root first) (hj : Joined s launcher acc) {child : Child}
    (hk : (acc (leader root first n)).child = some child) : child.index = first + n := by
  obtain ⟨hi, hl⟩ := hj.child hk
  exact h.index_eq hj hi hl

end Linear

namespace Coherent

/-- A stage without a run has done nothing. -/
theorem empty_or (h : Coherent s launcher acc) (i : Nat) :
    acc (.stage i) = {} ∨ ∃ job run, s.jobs[i]? = some job ∧ job.run = some run := by
  cases hj : s.jobs[i]? with
  | none => exact .inl (h.fresh (Array.getElem?_eq_none_iff.1 hj)).2.1
  | some job =>
    cases hr : job.run with
    | none => exact .inl (h.idle hj hr)
    | some run => exact .inr ⟨job, run, rfl, hr⟩

theorem strung (h : Coherent s launcher acc) (hl : Linear s launcher root first) :
    Strung s.ceiling (strand root first acc) where
  received := by
    intro n
    show (acc (.stage (first + n))).received <+: (acc (leader root first n)).sent
    rcases h.empty_or (first + n) with hnone | ⟨job, run, hj, hr⟩
    · rw [hnone]
      exact List.nil_prefix
    · rw [← hl.lead n (Array.getElem?_eq_some_iff.1 hj).1, ← (h.link hj (by rw [hr]; rfl)).bytes]
      exact List.prefix_append _ _
  sound := by
    intro n
    show Sound s.ceiling (acc (.stage (first + n)))
    rcases h.empty_or (first + n) with hnone | ⟨job, run, hj, hr⟩
    · rw [hnone]
      exact Sound.of_bare ⟨rfl, rfl, rfl, rfl, rfl, rfl⟩ (Nat.zero_le 1)
    · exact Stage.Run.sound (h.stage hj hr).1

/-- Whoever reaps a stage learns whether anything has failed there. -/
theorem verdict_smooth (h : Coherent s launcher acc) {child : Child}
    {result : Except Fault Unit} (hv : s.verdict child = some result) :
    (acc (.stage child.index)).smooth = result.isOk := by
  obtain ⟨job, stage, report, hj, -, hrun, rfl⟩ := System.verdict_eq_some hv
  rw [Chain.threads_verdict_isOk]
  exact (Stage.Run.isOk_of_finished (h.stage hj hrun).1).symm

/-- A child that no longer reads what might still be written to it has failed. -/
theorem child_failed (h : Coherent s launcher acc) {child : Child}
    (hk : (acc P).child = some child) (hshut : (acc P).shut = false) {p : Nat}
    (hp : s.pipeOf? child = some p) (hr : (s.pipes.get p).reader = false) :
    (acc (.stage child.index)).smooth = false := by
  obtain ⟨job, hj, hsome, hl, hpipe, hw⟩ := h.writer_held hk hshut
  obtain rfl := Option.some.inj (hp.symm.trans hpipe)
  obtain ⟨run, hrun⟩ := Option.isSome_iff_exists.1 hsome
  have hlink := h.link hj hsome
  have hleft : (acc (.stage child.index)).left = true := by
    rw [← Bool.not_eq_false', ← hlink.reader, hr]
  rw [← Bool.not_eq_true]
  intro hs
  obtain ⟨hgone, -⟩ := hlink.ended (Stage.Run.ended_of_left (h.stage hj hrun).1 hs hleft)
  rw [hw] at hgone
  cases hgone

/-- A party fails when its launch does, or because its child has failed. -/
theorem failing {σ : Type} {m : Move σ} {q : σ} (h : Coherent s launcher acc)
    (hmeets : Meets s acc P refusal m e q t) (hs : (acc P).smooth = true)
    (hf : ((acc P).after e).smooth = false) :
    (∃ f, e = some (.launched (.error f))) ∨
      ∃ child, (acc P).child = some child ∧ (acc (.stage child.index)).smooth = false := by
  obtain ⟨hm, ho, hp⟩ := hmeets
  have kept : ∀ {b : Bool} {p : Prop}, b = (acc P).smooth → b = false → p := by
    intro b p hb hf
    rw [hb, hs] at hf
    cases hf
  cases ho with
  | proceed => exact kept rfl hf
  | @read bytes => exact kept ((acc P).add_got bytes).2.2.2.2 hf
  | record hne =>
    rw [Account.after, Account.add_recorded_all _ hne] at hf
    exact kept rfl hf
  | commit =>
    rw [Account.after, Account.add_committed] at hf
    exact kept rfl hf
  | launch =>
    cases hresult : (s.launch refusal).1 with
    | ok child =>
      rw [hresult] at hf
      exact kept rfl hf
    | error f => exact .inl ⟨f, rfl⟩
  | sent => exact kept (Bool.and_true _) hf
  | broken hpipe hr =>
    cases hm
    obtain ⟨-, hk, hshut⟩ := hp
    exact .inr ⟨_, hk, h.child_failed hk hshut hpipe hr⟩
  | shut => exact kept rfl hf
  | leave => exact kept rfl hf
  | @reap child result hv =>
    cases hm
    refine .inr ⟨child, hp.1, ?_⟩
    rw [h.verdict_smooth hv]
    change ((acc P).smooth && result.isOk) = false at hf
    rwa [hs] at hf

theorem befalls {σ : Type} {m : Move σ} {q : σ} (h : Coherent s launcher acc)
    (hl : Linear s launcher root first)
    (hmeets : Meets s acc (leader root first n) refusal m e q t) :
    Befalls (acc (leader root first n)) (acc (leader root first (n + 1))) e := by
  have hbelow : ∀ {child : Child}, (acc (leader root first n)).child = some child →
      acc (.stage child.index) = acc (leader root first (n + 1)) := by
    intro child hk
    rw [hl.child_at h.toJoined hk]
    rfl
  refine ⟨fun hk => ?_, fun hs hf => ?_, fun result he => ?_, fun child result he => ?_⟩
  · obtain ⟨child, hk⟩ := Option.isSome_iff_exists.1 hk
    obtain ⟨hi, hlauncher⟩ := h.child hk
    have hlaunched := h.launched hi
    rwa [hlauncher] at hlaunched
  · refine (h.failing hmeets hs hf).imp_right fun ⟨child, hk, hfailed⟩ => ⟨by rw [hk]; rfl, ?_⟩
    rwa [hbelow hk] at hfailed
  · subst he
    cases hmeets.answered
    exact ⟨hmeets.permitted.1, hmeets.permitted.2.1⟩
  · subst he
    obtain ⟨hm, ho, hp⟩ := hmeets
    cases ho with
    | reap hv =>
      cases hm
      rw [← hbelow hp.1, h.verdict_smooth hv]
      exact ⟨rfl, hp.2.1⟩

end Coherent

/-! ## Who is to blame -/

/-- A stage of a chain blames a broken pipe or faults of a certain kind, once and for all. -/
def Faulty (kind : Fault → Prop) (s : System) (acc : Holder → Account) (i : Nat) : Prop :=
  ∀ (job : Job) (run : Stage.Run) (f : Fault), s.jobs[i]? = some job → job.run = some run →
    run.fault? = some f → Blamed kind (acc (.stage i)) f

/-- A party fails in an operation only when it writes to a child that no longer reads. -/
theorem Meets.broken {σ : Type} {m : Move σ} {q : σ} {event : Event} {error : IoError}
    (h : Meets s acc P refusal m e q t) (he : e = some event) (herror : event.error? = some error) :
    error = Pipe.readerGone ∧ (acc P).child.isSome = true ∧ (acc P).shut = false := by
  obtain ⟨hm, ho, hp⟩ := h
  subst he
  cases ho with
  | @record bytes hne =>
    obtain ⟨length, hlength⟩ :=
      Nat.exists_eq_succ_of_ne_zero fun hz => hne (List.length_eq_zero_iff.1 hz)
    rw [hlength] at herror
    cases herror
  | broken =>
    cases herror
    cases hm
    exact ⟨rfl, by rw [hp.2.1]; rfl, hp.2.2⟩
  | _ => cases herror

/-- Whoever reaps a stage that has failed learns of a fault that the stage does not put down to
a broken pipe: the stage has reaped its own child. -/
theorem Faulty.verdict {kind : Fault → Prop} {child : Child} {f : Fault}
    (h : Faulty kind s acc child.index) (hc : Coherent s launcher acc)
    (hkind : ∀ context f, kind f → kind (.within context f))
    (hv : s.verdict child = some (.error f)) : kind f := by
  obtain ⟨job, stage, report, hj, -, hrun, hreport⟩ := System.verdict_eq_some hv
  cases report with
  | ok report => cases hreport
  | error f' =>
    cases hreport
    exact hkind _ _ ((h job _ f' hj hrun rfl).settled
      (Stage.Run.reaped_of_finished (hc.stage hj hrun).1))

/-- Nothing else befalls a party of a chain than that its launch is refused, that its child no
longer reads, and that its child has failed. -/
theorem Coherent.attributable {σ : Type} {m : Move σ} {q : σ} {kind : Fault → Prop}
    (h : Coherent s launcher acc) (hl : Linear s launcher root first)
    (hspreads : Spreads (strand root first acc))
    (hkind : ∀ context f, kind f → kind (.within context f))
    (hrefused : ∀ f, (s.launch refusal).1 = .error f → kind f)
    (hbelow : Faulty kind s acc (first + n))
    (hmeets : Meets s acc (leader root first n) refusal m e q t) :
    Attributable kind (acc (leader root first n)) e where
  broken := by
    intro event error he herror
    obtain ⟨rfl, hk, hshut⟩ := hmeets.broken he herror
    refine ⟨rfl, hk, ?_⟩
    rw [← Bool.not_eq_true]
    intro hreaped
    have hlate : (acc (leader root first n)).shut = true := hspreads.late n hreaped
    rw [hlate] at hshut
    cases hshut
  refused := by
    intro f he
    obtain ⟨hm, ho, hp⟩ := hmeets
    cases ho with
    | launch =>
      cases hm
      exact ⟨hrefused f (Event.launched.inj (Option.some.inj he)), hp.2.1⟩
    | _ => cases he
  reaped := by
    intro child he
    subst he
    obtain ⟨hbefalls, -⟩ := (h.befalls hl hmeets).reaped child _ rfl
    cases hmeets.answered
    rw [← Bool.not_eq_false]
    intro hs
    have hfailed := (hspreads.cause n hs).2 (by rw [strand, hmeets.permitted.1]; rfl)
    rw [strand, hbefalls] at hfailed
    cases hfailed
  failed := by
    intro child f he
    subst he
    obtain ⟨hm, ho, hp⟩ := hmeets
    cases ho with
    | reap hv =>
      cases hm
      obtain ⟨hk, -, hunreaped⟩ := hp
      rw [← hl.child_at h.toJoined hk] at hbelow
      exact ⟨hbelow.verdict h hkind hv, by rw [hk]; rfl, hunreaped⟩

theorem Faulty.occurs {kind : Fault → Prop} {a' : Account} {i : Nat}
    (h : Faulty kind s acc i) (ho : s.Occurs refusal e t) (hP : Holder.stage i ≠ P) :
    Faulty kind t (Function.update acc P a') i := by
  intro job run f hj hr hf
  rw [Function.update_of_ne hP]
  rcases ho.job_or hj with hj | ⟨-, rfl, -⟩
  · exact h job run f hj hr hf
  · cases refusal with
    | none =>
      cases hr
      cases hf
    | some reason => cases hr

/-- A fault that goes back to the refusal of a launch. -/
def Stems (refuse : Nat → Refusal) (i : Nat) (f : Fault) : Prop :=
  ∃ reason, refuse i = some reason ∧
    f.root = .spawn ("stage " ++ threadLabel i ++ ": " ++ reason)

theorem Stems.not_broken {refuse : Nat → Refusal} {i : Nat} {f : Fault} (h : Stems refuse i f) :
    f.isBrokenPipe = false := by
  obtain ⟨reason, -, hroot⟩ := h
  induction f with
  | within context f ih => exact ih hroot
  | io e => cases hroot
  | _ => rfl

theorem System.launch_stems {refuse : Nat → Refusal} {f : Fault}
    (h : (s.launch (refuse s.jobs.size)).1 = .error f) : Stems refuse s.jobs.size f := by
  cases hr : refuse s.jobs.size with
  | none =>
    rw [hr] at h
    cases h
  | some reason =>
    rw [hr] at h
    cases h
    exact ⟨reason, hr, rfl⟩

/-! ## A chain in which a launch is refused -/

/-- A chain in which the launch in one place is refused, and what its stages have written on a
record with earlier contents. -/
structure Barred (base : List UInt8) (k : Nat) (s : System) (first : Nat) (acc : Nat → Account) :
    Prop where
  spreads : Spreads acc
  begun : ∀ n, (acc n).launches ≠ 0 → first + n < s.jobs.size
  /-- A stage launches another only when it has received something. -/
  called : ∀ n, (acc (n + 1)).launches ≠ 0 → (acc (n + 1)).received ≠ []
  place : ∀ {n : Nat} {job : Job}, s.jobs[first + n]? = some job →
    (job.run.isSome = false ↔ n = k)
  record : s.record.toList = base ++ texts acc (s.jobs.size - first)

theorem Linear.size_of_unlaunched (h : Linear s launcher root first) (hj : Joined s launcher acc)
    (hn : first + n ≤ s.jobs.size) (hnone : (acc (leader root first n)).launches = 0) :
    s.jobs.size = first + n := by
  rcases Nat.lt_or_eq_of_le hn with hlt | heq
  · have hlaunched := hj.launched hlt
    rw [h.lead n hlt] at hlaunched
    exact absurd hnone hlaunched
  · exact heq.symm

namespace Barred

variable {base : List UInt8} {k : Nat}

/-- What a stage writes stands at the end of the record: the stages below it have not written
anything yet. -/
theorem record_meets {σ : Type} {m : Move σ} {q : σ}
    (h : Barred base k s first (strand root first acc)) (hc : Coherent s launcher acc)
    (hl : Linear s launcher root first)
    (hmeets : Meets s acc (leader root first n) refusal m e q t) (hn : first + n ≤ s.jobs.size)
    (hsilent : n = 0 → ∀ bytes next, m ≠ .record bytes next) :
    t.record.toList = base ++ texts (Function.update (strand root first acc) n
      ((acc (leader root first n)).after e)) (t.jobs.size - first) := by
  have kept : ∀ {a' : Account}, a'.recorded = (acc (leader root first n)).recorded →
      s.record.toList =
        base ++ texts (Function.update (strand root first acc) n a') (s.jobs.size - first) := by
    intro a' ha
    rw [texts_update _ ha]
    exact h.record
  obtain ⟨hm, ho, hp⟩ := hmeets
  cases ho with
  | @record bytes hne =>
    obtain ⟨bytes', next, rfl⟩ := hm.of_recorded
    cases n with
    | zero => exact absurd rfl (hsilent rfl _ _)
    | succ j =>
      have hj : j < s.jobs.size - first := by omega
      have hquiet := (hc.strung hl).quiet (k := j + 1) hp.2.2.1
      rw [Account.after, Account.add_recorded_all _ hne]
      show (s.record ++ bytes).toList = _
      rw [texts_record hj rfl hquiet, Array.toList_appendList, h.record, List.append_assoc]
  | launch =>
    have hsize : (s.launch refusal).2.jobs.size - first = s.jobs.size - first + 1 := by
      rw [s.jobs_size_launch]
      exact Nat.succ_sub hl.start
    have hnew : (strand root first acc (s.jobs.size - first + 1)).recorded = [] := by
      show (acc (.stage (first + (s.jobs.size - first)))).recorded = []
      rw [Nat.add_sub_cancel' hl.start, (hc.fresh (Nat.le_refl _)).2.1]
    rw [hsize, s.record_launch, texts_update, texts_succ, hnew, List.append_nil, h.record]
    rw [Account.after]
    cases (s.launch refusal).1 <;> rfl
  | @read bytes => exact kept ((acc (leader root first n)).add_got bytes).2.2.2.1
  | _ => exact kept rfl

/-- A step of a party keeps a chain as it is. -/
theorem meets {σ : Type} {m : Move σ} {q : σ}
    (h : Barred base k s first (strand root first acc)) (hc : Coherent s launcher acc)
    (hl : Linear s launcher root first)
    (hmeets : Meets s acc (leader root first n) refusal m e q t) (hn : first + n ≤ s.jobs.size)
    (hopen : ∀ i, i + 1 = n → (strand root first acc i).reaped = false)
    (hcalled : ∀ i, i + 1 = n → ((acc (leader root first n)).after e).launches ≠ 0 →
      ((acc (leader root first n)).after e).received ≠ [])
    (hsilent : n = 0 → ∀ bytes next, m ≠ .record bytes next)
    (hplace : refusal.isSome = true ↔ s.jobs.size = first + k) :
    Barred base k t first (strand root first
      (Function.update acc (leader root first n) ((acc (leader root first n)).after e))) := by
  have hbefalls := hc.befalls hl hmeets
  have hsize : s.jobs.size ≤ t.jobs.size := hmeets.occurs.size_le
  rw [hl.strand_update]
  refine ⟨h.spreads.update hbefalls hopen, fun i hi => ?_, fun i hi => ?_, fun {i job} hj => ?_,
    h.record_meets hc hl hmeets hn hsilent⟩
  · rcases eq_or_ne i n with rfl | hne
    · rw [Function.update_self] at hi
      by_cases hnone : (acc (leader root first i)).launches = 0
      · have hlast := hl.size_of_unlaunched hc.toJoined hn hnone
        have hlaunch : ∃ result, e = some (.launched result) := by
          by_contra hno
          rw [(Account.unlaunched fun result he => hno ⟨result, he⟩).1] at hi
          exact hi hnone
        obtain ⟨result, rfl⟩ := hlaunch
        have hgrown : t.jobs.size = s.jobs.size + 1 := by
          cases hmeets.occurs with
          | launch => exact s.jobs_size_launch _
        omega
      · exact Nat.lt_of_lt_of_le (h.begun i hnone) hsize
    · rw [Function.update_of_ne hne] at hi
      exact Nat.lt_of_lt_of_le (h.begun i hi) hsize
  · rcases eq_or_ne (i + 1) n with rfl | hne
    · rw [Function.update_self] at hi ⊢
      exact hcalled i rfl hi
    · rw [Function.update_of_ne hne] at hi ⊢
      exact h.called i hi
  · rcases hmeets.occurs.job_or hj with hj | ⟨hi, rfl, -⟩
    · exact h.place hj
    · have hrun : (s.newJob refusal).run.isSome = false ↔ refusal.isSome = true := by
        cases refusal <;> simp [System.newJob]
      rw [hrun, hplace]
      omega

end Barred

theorem Barred.ran {base : List UInt8} {k : Nat} {acc : Nat → Account}
    (h : Barred base k s first acc) (hr : Ran s t) (hrecord : t.record = s.record) :
    Barred base k t first acc where
  spreads := h.spreads
  begun := by
    rw [hr.size]
    exact h.begun
  called := h.called
  place := by
    intro n job hj
    obtain ⟨old, hold, -, hrun, -⟩ := hr.job hj
    rw [hrun]
    exact h.place hold
  record := by
    rw [hrecord, hr.size]
    exact h.record

/-- A feeder's flow in which the launch in one place is refused, and nothing else fails. -/
structure Thwarted (refuse : Nat → Refusal) (base : List UInt8) (k : Nat) (range : Candidates)
    (m : Nat) (w : Flow) (launcher : Nat → Holder) (acc : Holder → Account) : Prop extends
    Flowing (Supply.range range).total w launcher acc,
    Barred base k w.system w.first (strand w.root w.first acc) where
  refuses : ∀ i, (refuse i).isSome = true ↔ i = w.first + k
  head : w.head = .feeder m
  fed : ∃ run, w.system.feeders[m]? = some run ∧ run.candidates = range ∧
    ∀ f, run.fault? = some f → Blamed (Stems refuse (w.first + k)) (acc (.feeder m)) f
  faulty : ∀ n, Faulty (Stems refuse (w.first + k)) w.system acc (w.first + n)

namespace Thwarted

variable {refuse : Nat → Refusal} {base : List UInt8} {k m : Nat} {range : Candidates} {w : Flow}

theorem root_eq (h : Thwarted refuse base k range m w launcher acc) : w.root = .feeder m := by
  rw [Flow.root, h.head]

theorem strand_zero (h : Thwarted refuse base k range m w launcher acc) :
    strand w.root w.first acc 0 = acc (.feeder m) := congrArg acc h.root_eq

/-- A launch that fails is the one that is refused. -/
theorem stems (h : Thwarted refuse base k range m w launcher acc) (f : Fault)
    (hf : (w.system.launch (refuse w.system.jobs.size)).1 = .error f) :
    Stems refuse (w.first + k) f := by
  obtain ⟨reason, hreason, hroot⟩ := System.launch_stems hf
  have hsize := (h.refuses w.system.jobs.size).1 (by rw [hreason]; rfl)
  rw [← hsize]
  exact ⟨reason, hreason, hroot⟩

/-- Nothing else befalls a party of the flow. -/
theorem attributable {σ : Type} {move : Move σ} {q : σ}
    (h : Thwarted refuse base k range m w launcher acc)
    (hmeets : Meets w.system acc (leader w.root w.first n) (refuse w.system.jobs.size) move e q t) :
    Attributable (Stems refuse (w.first + k)) (acc (leader w.root w.first n)) e :=
  h.toCoherent.attributable h.toLinear h.spreads (fun _ _ hf => hf) h.stems (h.faulty n) hmeets

theorem stage_turn (h : Thwarted refuse base k range m w launcher acc)
    (hp : w.system.perform (.stage (w.first + n) (refuse w.system.jobs.size)) = some t) :
    ∃ launcher' acc', Thwarted refuse base k range m { w with system := t } launcher' acc' := by
  obtain ⟨job, run, e, q, u, hj, hr, hended, hmeets, rfl, hc⟩ := h.toCoherent.stage_turn hp
  have hi := (Array.getElem?_eq_some_iff.1 hj).1
  have hacc := (h.stage hj hr).1
  have hchain := h.toBarred.meets (n := n + 1) h.toCoherent h.toLinear hmeets (by omega)
    (fun i hi' => ?_) (fun i hi' => ?_) (fun hz => by omega) (h.refuses _)
  · have hran : Ran u { u with
        jobs := u.jobs.modify (w.first + n) fun job => { job with run := some q } } :=
      Ran.modify (w.first + n) (fun job => { job with run := some q }) (fun _ => rfl)
        (fun old hold => by
          obtain rfl := Option.some.inj ((hmeets.occurs.job_of hj).symm.trans hold)
          rw [hr]
          rfl)
        (fun _ he => he) rfl rfl
    refine ⟨_, _,
      { toFlowing := h.toFlowing.stage_next hj hr hmeets rfl hc
        toBarred := hchain.ran hran rfl
        refuses := h.refuses
        head := h.head
        fed := ?_
        faulty := ?_ }⟩
    · obtain ⟨feeder, hfeeder, hrange, hblamed⟩ := h.fed
      refine ⟨feeder, ?_, hrange, ?_⟩
      · show u.feeders[m]? = _
        rw [hmeets.occurs.feeders, hfeeder]
      · rw [Function.update_of_ne fun he => by cases he]
        exact hblamed
    · intro i job' run' f hj' hr' hf
      rcases job_of_modify hj' with ⟨heq, old, hold, rfl⟩ | ⟨hne, hj'⟩
      · cases hr'
        rw [heq, Function.update_self]
        exact (Stage.Run.carries hacc hmeets.answered).blamed (fun _ _ hf => hf)
          (h.attributable (n := n + 1) hmeets) (Stage.Run.not_smooth_of_fault hacc)
          (fun f' hf' => h.faulty n job run f' hj hr hf') f hf
      · exact (h.faulty i).occurs hmeets.occurs (fun he => hne (Holder.stage.inj he)) job' run' f
          hj' hr' hf
  · -- Whoever has launched the stage has not reaped it: its thread has not finished.
    obtain rfl := Nat.succ.inj hi'
    rw [← Bool.not_eq_true]
    intro hreaped
    obtain ⟨child, job', hk, hj', hended'⟩ := h.reaped (P := leader w.root w.first i) hreaped
    rw [h.toLinear.child_at h.toJoined hk, hj] at hj'
    cases hj'
    rw [hended] at hended'
    cases hended'
  · obtain rfl := Nat.succ.inj hi'
    exact Stage.Run.called hacc hmeets.answered (h.called i)

theorem feeder_turn (h : Thwarted refuse base k range m w launcher acc)
    (hp : w.system.perform (.feeder m (refuse w.system.jobs.size)) = some t) :
    ∃ launcher' acc', Thwarted refuse base k range m { w with system := t } launcher' acc' := by
  obtain ⟨run, e, q, u, hr, hmeets, rfl, hc⟩ := h.toCoherent.feeder_turn hp
  obtain ⟨run', hr', hrange, hblamed⟩ := h.fed
  obtain rfl := Option.some.inj (hr.symm.trans hr')
  have hacc := h.feeder hr
  have hlead : leader w.root w.first 0 = .feeder m := h.root_eq
  have hmeets' : Meets w.system acc (leader w.root w.first 0) (refuse w.system.jobs.size) run.move
      e q u := hlead ▸ hmeets
  have hattributable := h.attributable hmeets'
  have hchain := h.toBarred.meets h.toCoherent h.toLinear hmeets' h.start
    (fun i hi => absurd hi (Nat.succ_ne_zero i)) (fun i hi => absurd hi (Nat.succ_ne_zero i))
    (fun _ => run.move_ne_record) (h.refuses _)
  rw [hlead] at hattributable hchain
  refine ⟨_, _,
    { toFlowing := h.toFlowing.feeder_next h.head hr hmeets rfl hc
      toBarred := hchain.ran ⟨rfl, rfl, fun hj => ⟨_, hj, rfl, rfl, id⟩⟩ rfl
      refuses := h.refuses
      head := h.head
      fed := ⟨q, ?_, (Feeder.Run.candidates_answered hmeets.answered).trans hrange, ?_⟩
      faulty := fun i job run' f hj =>
        (h.faulty i).occurs hmeets.occurs (fun he => by cases he) job run' f hj }⟩
  · show (u.feeders.modify m fun _ => q)[m]? = some q
    rw [Array.getElem?_modify, if_pos rfl, hmeets.occurs.feeders, hr]
    rfl
  · rw [Function.update_self]
    exact (Feeder.Run.carries hacc hmeets.answered).blamed (fun _ _ hf => hf) hattributable
      (Feeder.Run.not_smooth_of_fault hacc) hblamed

theorem finish_turn (h : Thwarted refuse base k range m w launcher acc)
    (hp : w.system.perform (.finish (w.first + n)) = some t) :
    Thwarted refuse base k range m { w with system := t } launcher acc := by
  obtain ⟨job, stage, result, hj, hr, hended, rfl, hc⟩ := h.toCoherent.finish_turn hp
  exact
    { toFlowing := h.toFlowing.finish_next rfl hc
      toBarred := h.toBarred.ran (Ran.modify (w.first + n) (fun job => { job with ended := true })
        (fun _ => rfl) (fun _ _ => rfl) (fun _ _ => rfl) rfl rfl) rfl
      refuses := h.refuses
      head := h.head
      fed := h.fed
      faulty := by
        intro i job' run' f hj' hr' hf
        rcases job_of_modify hj' with ⟨heq, old, hold, rfl⟩ | ⟨-, hj'⟩
        · exact h.faulty i old run' f (heq ▸ hold) hr' hf
        · exact h.faulty i job' run' f hj' hr' hf }

end Thwarted

/-! ## Turns of a flow that a feeder supplies -/

variable {refuse : Nat → Refusal} {base : List UInt8} {k m : Nat} {range : Candidates}
  {w w' : Flow} {schedule : List Flow.Turn}

/-- Only the feeder and the stages of its chain take turns. -/
theorem Flow.take_feeder {turn : Flow.Turn} (hhead : w.head = .feeder m)
    (ht : w.take refuse turn = some w') :
    ∃ a t, w.system.perform a = some t ∧ w' = { w with system := t } ∧
      (a = .feeder m (refuse w.system.jobs.size) ∨
        ∃ n, a = .stage (w.first + n) (refuse w.system.jobs.size) ∨ a = .finish (w.first + n)) := by
  cases turn with
  | stage n =>
    obtain ⟨t, hp, rfl⟩ := Option.map_eq_some_iff.1 ht
    exact ⟨_, t, hp, rfl, .inr ⟨n, .inl rfl⟩⟩
  | finish n =>
    obtain ⟨t, hp, rfl⟩ := Option.map_eq_some_iff.1 ht
    exact ⟨_, t, hp, rfl, .inr ⟨n, .inr rfl⟩⟩
  | supply most =>
    rw [Flow.take, Flow.supply, hhead] at ht
    obtain ⟨t, hp, rfl⟩ := Option.map_eq_some_iff.1 ht
    exact ⟨_, t, hp, by rw [hhead], .inl rfl⟩

/-- Nothing else uses the counters meanwhile. -/
theorem Flow.follow_reaches (hhead : w.head = .feeder m)
    (hs : w.follow refuse schedule = some w')
    (hr : System.Reaches (System.Spares m w.first) s w.system) :
    System.Reaches (System.Spares m w.first) s w'.system ∧ w'.first = w.first := by
  induction schedule generalizing w with
  | nil =>
    cases hs
    exact ⟨hr, rfl⟩
  | cons turn schedule ih =>
    obtain ⟨w'', ht, hrest⟩ := Option.bind_eq_some_iff.1 hs
    obtain ⟨a, t, hp, rfl, ha⟩ := Flow.take_feeder hhead ht
    refine ih (w := { w with system := t }) hhead hrest (hr.step (.inl ?_) hp)
    rcases ha with rfl | ⟨n, rfl | rfl⟩
    · exact beq_self_eq_true m
    · exact decide_eq_true (Nat.le_add_right _ _)
    · exact decide_eq_true (Nat.le_add_right _ _)

namespace Thwarted

theorem take {turn : Flow.Turn} (h : Thwarted refuse base k range m w launcher acc)
    (ht : w.take refuse turn = some w') :
    ∃ launcher' acc', Thwarted refuse base k range m w' launcher' acc' := by
  obtain ⟨a, t, hp, rfl, ha⟩ := Flow.take_feeder h.head ht
  rcases ha with rfl | ⟨n, rfl | rfl⟩
  · exact h.feeder_turn hp
  · exact h.stage_turn hp
  · exact ⟨launcher, acc, h.finish_turn hp⟩

theorem follow (h : Thwarted refuse base k range m w launcher acc)
    (hs : w.follow refuse schedule = some w') :
    ∃ launcher' acc', Thwarted refuse base k range m w' launcher' acc' := by
  induction schedule generalizing w launcher acc with
  | nil =>
    cases hs
    exact ⟨launcher, acc, h⟩
  | cons turn schedule ih =>
    obtain ⟨w'', ht, hrest⟩ := Option.bind_eq_some_iff.1 hs
    obtain ⟨launcher', acc', h'⟩ := h.take ht
    exact ih h' hrest

/-- A feeder that has just been set to work. -/
theorem of_feed (h : Coherent s launcher acc)
    (hcapacity : ∀ most, s.capacity = some most → 0 < most)
    (hrefuses : ∀ i, (refuse i).isSome = true ↔ i = s.jobs.size + k)
    (hb : (Supply.range range).begin refuse s = some w) :
    Thwarted refuse s.record.toList k range s.feeders.size w launcher acc := by
  cases hb
  have hnone : ∀ n, s.jobs[s.jobs.size + n]? = none := fun n =>
    Array.getElem?_eq_none (Nat.le_add_right _ _)
  have hempty : ∀ n, strand (.feeder s.feeders.size) s.jobs.size acc n = {} := by
    intro n
    cases n with
    | zero => exact h.absent (Nat.le_refl _)
    | succ n => exact (h.fresh (Nat.le_add_right _ _)).2.1
  have hfed := h.absent (Nat.le_refl s.feeders.size)
  exact
    { toFlowing := Flowing.feed h hcapacity range
      spreads := .of_empty hempty
      begun := fun n hl => absurd (congrArg Account.launches (hempty n)) hl
      called := fun n hl => absurd (congrArg Account.launches (hempty (n + 1))) hl
      place := fun {n job} hj => by
        change s.jobs[s.jobs.size + n]? = some job at hj
        rw [hnone] at hj
        cases hj
      record := by
        show _ = _ ++ texts _ (s.jobs.size - s.jobs.size)
        rw [Nat.sub_self]
        exact (List.append_nil _).symm
      refuses := hrefuses
      head := rfl
      fed := ⟨Feeder.run range, Array.getElem?_push_size, rfl, fun f hf => by cases hf⟩
      faulty := fun n job run f hj => by
        change s.jobs[s.jobs.size + n]? = some job at hj
        rw [hnone] at hj
        cases hj }

/-! ## What comes of the flow in the end -/

/-- A chain ends with the launch that is refused, if it gets there. -/
theorem size_le (h : Thwarted refuse base k range m w launcher acc) :
    w.system.jobs.size ≤ w.first + k + 1 := by
  rw [← Nat.not_lt]
  intro hlt
  have hj := Array.getElem?_eq_getElem (show w.first + k < w.system.jobs.size by omega)
  have hrun := Option.not_isSome_iff_eq_none.1 (Bool.eq_false_iff.1 ((h.place hj).2 rfl))
  have hlaunched := h.launched hlt
  rw [Nat.add_assoc, h.lead (k + 1) hlt, leader, h.idle hj hrun] at hlaunched
  exact hlaunched rfl

/-- A party that has failed stands above the launch that is refused, and so does every other
down to it. -/
theorem failed (h : Thwarted refuse base k range m w launcher acc)
    (hs : (strand w.root w.first acc 0).smooth = false) {n : Nat} (hn : n ≤ k) :
    w.first + n < w.system.jobs.size ∧ (strand w.root w.first acc n).smooth = false := by
  induction n with
  | zero => exact ⟨h.begun 0 (h.spreads.cause 0 hs).1, hs⟩
  | succ n ih =>
    obtain ⟨hlt, hfailed⟩ := ih (Nat.le_of_succ_le hn)
    have hj := Array.getElem?_eq_getElem hlt
    have hrun : w.system.jobs[w.first + n].run.isSome = true := by
      rw [← Bool.not_eq_false]
      exact fun hrun => Nat.ne_of_lt hn ((h.place hj).1 hrun)
    have hnamed := h.named hj
    rw [h.lead n hlt, if_pos hrun] at hnamed
    have hbelow := (h.spreads.cause n hfailed).2 (by rw [strand, hnamed]; rfl)
    exact ⟨h.begun (n + 1) (h.spreads.cause (n + 1) hbelow).1, hbelow⟩

theorem size_eq (h : Thwarted refuse base k range m w launcher acc)
    (hs : (strand w.root w.first acc 0).smooth = false) :
    w.system.jobs.size = w.first + k + 1 :=
  Nat.le_antisymm h.size_le (h.failed hs (Nat.le_refl k)).1

/-- Nobody in a chain has failed whom the feeder has found in order: it would have launched as
many stages as there are values to keep. -/
theorem smooth_down (h : Thwarted refuse base k range m w launcher acc)
    (hk : k ≤ (sieve w.system.ceiling range.values).length)
    (hs : (strand w.root w.first acc 0).smooth = true)
    (hsent : Wire.values (strand w.root w.first acc 0).sent = range.values)
    (hchild : (strand w.root w.first acc 0).child.isSome = true)
    (hreaped : (strand w.root w.first acc 0).reaped = true) {n : Nat} (hn : n ≤ k) :
    (strand w.root w.first acc n).smooth = true ∧
      Wire.values (strand w.root w.first acc n).sent =
        handed w.system.ceiling range.values n ∧
      (strand w.root w.first acc n).child.isSome = true ∧
      (strand w.root w.first acc n).reaped = true := by
  induction n with
  | zero => exact ⟨hs, hsent, hchild, hreaped⟩
  | succ n ih =>
    obtain ⟨hsmooth, hvalues, -, hdone⟩ := ih (Nat.le_of_succ_le hn)
    have hbelow := h.spreads.clear n hdone hsmooth
    obtain ⟨child, job, hk', hj, hended⟩ := h.reaped (P := leader w.root w.first n) hdone
    rw [h.toLinear.child_at h.toJoined hk'] at hj
    have hi := (Array.getElem?_eq_some_iff.1 hj).1
    obtain ⟨run, hrun⟩ : ∃ run, job.run = some run := by
      rw [← Option.isSome_iff_exists, ← Bool.not_eq_false]
      exact fun hrun => Nat.ne_of_lt hn ((h.place hj).1 hrun)
    obtain ⟨hacc, -, hfinished⟩ := h.stage hj hrun
    obtain ⟨stage, result, rfl⟩ := hfinished hended
    have hful := Stage.Run.fulfilled hacc ((Stage.Run.isOk_of_finished hacc).trans hbelow)
    have hlink := h.link hj (by rw [hrun]; rfl)
    have hreceived :
        (acc (.stage (w.first + n))).received = (strand w.root w.first acc n).sent := by
      have hbytes := hlink.bytes
      rwa [(hlink.ended hful.ended).2, List.append_nil, h.lead n hi] at hbytes
    have howned : (acc (.stage (w.first + n))).child.isSome = true := by
      rw [hful.child, hreceived, hvalues, ← sieve_getElem?,
        List.getElem?_eq_getElem (Nat.lt_of_lt_of_le hn hk)]
      rfl
    refine ⟨hbelow, ?_, howned, Stage.Run.reaped_of_finished hacc howned⟩
    show Wire.values (acc (.stage (w.first + n))).sent = _
    rw [hful.sent, values_encodeAll, hreceived, hvalues]
    rfl

/-- A feeder that has come to its end has failed: otherwise all stages down to the launch that
is refused would have done their work, and that launch would not have been refused. -/
theorem not_smooth (h : Thwarted refuse base k range m w launcher acc)
    (hk : k ≤ (sieve w.system.ceiling range.values).length) {run : Feeder.Run}
    (hr : w.system.feeders[m]? = some run) {result : Except Fault Nat}
    (ho : run.outcome? = some result) : (strand w.root w.first acc 0).smooth = false := by
  rw [← Bool.not_eq_true]
  intro hs
  obtain ⟨run', hr', hrange, -⟩ := h.fed
  obtain rfl := Option.some.inj (hr.symm.trans hr')
  have hacc := h.feeder hr
  obtain ⟨-, hgood⟩ := Feeder.Run.of_outcome hacc ho
  obtain ⟨-, hsent, hchild, -⟩ := hgood (by rw [← h.strand_zero]; exact hs)
  have hreaped := Feeder.Run.reaped_of_finished hacc ho hchild
  rw [hrange] at hsent
  rw [← h.strand_zero] at hsent hchild hreaped
  obtain ⟨-, -, hlast, -⟩ := h.smooth_down hk hs (by rw [hsent, values_encodeAll]) hchild hreaped
    (Nat.le_refl k)
  obtain ⟨child, hlast⟩ := Option.isSome_iff_exists.1 hlast
  obtain ⟨job, hj, hrun, -⟩ := h.job_of_child hlast
  rw [h.toLinear.child_at h.toJoined hlast] at hj
  rw [(h.place hj).2 rfl] at hrun
  cases hrun

/-- The stages above the one that could not launch its child have written their lines, and it
has written nothing. -/
theorem record_eq (h : Thwarted refuse base k range m w launcher acc)
    (hs : (strand w.root w.first acc 0).smooth = false) :
    w.system.record.toList =
      base ++ lines ((sieve w.system.ceiling range.values).take (k - 1)) := by
  have hstrung := h.toCoherent.strung h.toLinear
  have hj := Array.getElem?_eq_getElem (h.failed hs (Nat.le_refl k)).1
  have hrefused := (h.place hj).2 rfl
  have hidle : (strand w.root w.first acc (k + 1)).recorded = [] := by
    show (acc (.stage (w.first + k))).recorded = []
    rw [h.idle hj (Option.not_isSome_iff_eq_none.1 (Bool.eq_false_iff.1 hrefused))]
  have hsize : w.system.jobs.size - w.first = k + 1 := by
    rw [h.size_eq hs]
    omega
  rw [h.record, hsize, texts_succ, hidle, List.append_nil]
  cases k with
  | zero => rfl
  | succ j =>
    have hlast := h.begun (j + 1) (h.spreads.cause (j + 1) (h.failed hs (Nat.le_refl _)).2).1
    have hnamed := h.named hj
    rw [if_neg (by rw [hrefused]; exact Bool.false_ne_true), h.lead (j + 1) hlast] at hnamed
    have hlaunched := h.launched hlast
    rw [h.lead (j + 1) hlast] at hlaunched
    have hcalled : (strand w.root w.first acc (j + 1)).received ≠ [] := h.called j hlaunched
    have hsent : (strand w.root w.first acc j).sent ≠ [] := by
      intro hnil
      have hreceived := hstrung.received j
      rw [hnil, List.prefix_nil] at hreceived
      exact hcalled hreceived
    have hfed : (strand w.root w.first acc 0).sent <+: encodeAll range.values := by
      obtain ⟨run, hr, rfl, -⟩ := h.fed
      rw [h.strand_zero]
      exact Feeder.Run.sent_isPrefix (h.feeder hr)
    rw [texts_succ, (hstrung.sound j).alone hnamed, List.append_nil,
      (hstrung.texts_owners j).2 hsent, hstrung.owners_eq hfed hsent]
    rfl

/-- The feeder reports the refusal. -/
theorem result_eq (h : Thwarted refuse base k range m w launcher acc)
    (hs : (strand w.root w.first acc 0).smooth = false) {run : Feeder.Run}
    (hr : w.system.feeders[m]? = some run) {result : Except Fault Nat}
    (ho : run.outcome? = some result) :
    ∃ f, result = .error f ∧ Stems refuse (w.first + k) f := by
  obtain ⟨run', hr', -, hblamed⟩ := h.fed
  obtain rfl := Option.some.inj (hr.symm.trans hr')
  have hacc := h.feeder hr
  obtain ⟨hok, -⟩ := Feeder.Run.of_outcome hacc ho
  rw [← h.strand_zero, hs] at hok
  cases result with
  | ok count => cases hok
  | error f =>
    have hfault : run.fault? = some f := by
      rw [Feeder.Run.outcome?] at ho
      split at ho
      · next htask =>
        cases ho
        rw [Feeder.Run.fault?, htask]
        rfl
      · cases ho
    exact ⟨f, rfl, (hblamed f hfault).settled (Feeder.Run.reaped_of_finished hacc ho)⟩

end Thwarted

/-! ## A launch that is refused -/

/-- The launch of one number is refused, and no other. -/
def refusing (i : Nat) (reason : String) : Nat → Refusal := fun j =>
  if j = i then some reason else none

theorem isSome_refusing (i : Nat) (reason : String) (j : Nat) :
    (refusing i reason j).isSome = true ↔ j = i := by
  rw [refusing]
  split <;> simp [*]

theorem Stems.of_refusing {i : Nat} {reason : String} {f : Fault}
    (h : Stems (refusing i reason) i f) :
    f.root = .spawn ("stage " ++ threadLabel i ++ ": " ++ reason) := by
  obtain ⟨reason', hreason, hroot⟩ := h
  rw [refusing, if_pos rfl] at hreason
  cases hreason
  exact hroot

/-- Whatever the schedule, a flow of which one launch is refused comes to one and the same end:
the feeder reports the refusal, and never a broken pipe; the record has gained the lines of the
stages above the one that could not launch its child; as many launches are counted as there
have been, and of these nothing is left. The flow cannot get stuck, or go on for ever. -/
theorem Flow.refused_launch {ceiling : Option Int32} {capacity : Option Nat}
    {record : Array UInt8} {actions : List System.Action} {c : Chronicle}
    (hc : Chronicle.follow { system := { ceiling, capacity, record } } actions = some c)
    (hcapacity : ∀ most, c.system.capacity = some most → 0 < most)
    (hk : k ≤ (sieve ceiling range.values).length) {reason : String}
    (hrun : Flow.run (refusing (c.system.jobs.size + k) reason) c.system (.range range) schedule =
      some w) :
    schedule.length ≤ (Supply.range range).limit ∧
      (w.returned = false →
        ∃ turn, (w.take (refusing (c.system.jobs.size + k) reason) turn).isSome = true) ∧
      (w.returned = true → ∃ f,
        (w.system.feeders[c.system.feeders.size]?).bind Feeder.Run.outcome? = some (.error f) ∧
        f.root = .spawn ("stage " ++ threadLabel (c.system.jobs.size + k) ++ ": " ++ reason) ∧
        f.isBrokenPipe = false ∧
        w.system.record.toList =
          c.system.record.toList ++ lines ((sieve ceiling range.values).take (k - 1)) ∧
        w.system.counters =
          { c.system.counters with launched := c.system.counters.launched + (k + 1) }) := by
  obtain ⟨acc, hcoherent, hbooks⟩ := Chronicle.books hc
  obtain ⟨_, _, hflowing, hlimit⟩ := Flowing.of_run hcoherent hcapacity hrun
  refine ⟨hlimit, hflowing.goes_on, fun hreturned => ?_⟩
  obtain ⟨w', hbegin, hfollow⟩ := Option.bind_eq_some_iff.1 hrun
  have hstart := Thwarted.of_feed (k := k) hcoherent hcapacity
    (isSome_refusing (c.system.jobs.size + k) reason) hbegin
  obtain ⟨launcher', acc', hthwarted⟩ := hstart.follow hfollow
  cases hbegin
  obtain ⟨hreaches, hfirst⟩ := Flow.follow_reaches (m := c.system.feeders.size) rfl hfollow .refl
  rw [Flow.returned, hthwarted.head] at hreturned
  obtain ⟨result, ho⟩ := Option.isSome_iff_exists.1 hreturned
  obtain ⟨run, hr, houtcome⟩ := Option.bind_eq_some_iff.1 ho
  have hceiling : w.system.ceiling = ceiling :=
    hreaches.ceiling.trans (Chronicle.ceiling hc)
  have hs := hthwarted.not_smooth (by rw [hceiling]; exact hk) hr houtcome
  obtain ⟨f, rfl, hstems⟩ := hthwarted.result_eq hs hr houtcome
  have hrecord := hthwarted.record_eq hs
  have hsize := hthwarted.size_eq hs
  rw [hfirst] at hstems hsize
  rw [hceiling] at hrecord
  have hfeed : c.system.perform (.feed range) =
      some { c.system with feeders := c.system.feeders.push (Feeder.run range) } := rfl
  obtain ⟨_, _, hattends⟩ := (Attends.of_feed hcoherent hbooks hfeed).reaches hreaches
  obtain ⟨hlive, hopen⟩ := hattends.settled (by rw [ho]; rfl)
  refine ⟨f, ho, hstems.of_refusing, hstems.not_broken, hrecord, ?_⟩
  rw [Counters.mk.injEq]
  exact ⟨hsize, hlive, hopen⟩

/-- The second stage finds a value, and cannot launch a third. -/
theorem Flow.refused_launch_third :
    ∃ schedule w f,
      Flow.run (refusing 2 "no more threads") {} (.range ⟨2, 4⟩) schedule = some w ∧
      (w.system.feeders[0]?).bind Feeder.Run.outcome? = some (.error f) ∧
      f.root = .spawn ("stage " ++ threadLabel 2 ++ ": " ++ "no more threads") ∧
      f.isBrokenPipe = false ∧ w.system.record.toList = lines [2] ∧
      w.system.counters = { launched := 3 } := by
  let schedule : List Flow.Turn :=
    List.replicate 4 (.supply 0) ++ List.replicate 14 (.stage 0) ++ List.replicate 5 (.stage 1) ++
      [.finish 1, .stage 0, .stage 0, .stage 0, .finish 0, .supply 0]
  have hends : (Flow.run (refusing 2 "no more threads") {} (.range ⟨2, 4⟩) schedule).map
      Flow.returned = some true := by decide +kernel
  have hkept : sieve none (Candidates.values ⟨2, 4⟩) = [2, 3] := by
    rw [show Candidates.values ⟨2, 4⟩ = [2, 3] from rfl, sieve, if_pos (by decide),
      show withoutMultiples 2 [3] = [3] from rfl, sieve, if_pos (by decide), withoutMultiples,
      List.filter_nil, sieve]
  -- It is enough to evaluate that the feeder comes to its end: the rest is the theorem's.
  obtain ⟨w, hw, hreturned⟩ := Option.map_eq_some_iff.1 hends
  obtain ⟨-, -, hend⟩ :=
    @Flow.refused_launch 2 ⟨2, 4⟩ w schedule none none #[] [] { system := {} } rfl
      (fun most hm => by cases hm) (by rw [hkept]; decide) "no more threads" hw
  obtain ⟨f, hresult, hroot, hpipe, hrecord, hcounters⟩ := hend hreturned
  rw [hkept] at hrecord
  exact ⟨schedule, w, f, hw, hresult, hroot, hpipe, hrecord, hcounters⟩

end Concurrent

end SieveChain
