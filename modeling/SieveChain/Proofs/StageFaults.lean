import SieveChain.Proofs.Contexts
import SieveChain.Proofs.StageNotices
import SieveChain.Proofs.StageOrder

/-!
# Which fault a stage reports

A run that fails reports the fault of the first operation that has failed, with the words for what
the stage was doing, unless that fault is a broken pipe and its child has failed too: then it
reports the fault of the child. A child that has failed is never passed over: if its fault is not
reported, there is one warning of it. A run in which no operation has failed succeeds.
-/

namespace SieveChain

open Wire

/-- An operation that has failed. -/
def Event.fails : Event → Bool
  | .launched (.error _) => true
  | .reaped _ (.error _) => true
  | e => e.error?.isSome

def Event.isSent : Event → Bool
  | .sent _ _ _ => true
  | _ => false

def Event.isRead : Event → Bool
  | .read _ => true
  | _ => false

/-- A trace is divided at the first event that fails. -/
theorem Event.divides {before : List Event} {e : Event} (clear : ∀ b ∈ before, b.fails = false)
    (fails : e.fails = true) (after : List Event) :
    (before ++ e :: after).takeWhile (fun e => !e.fails) = before ∧
      (before ++ e :: after).dropWhile (fun e => !e.fails) = e :: after := by
  have hclear : ∀ b ∈ before, (!b.fails) = true := fun b hb => by rw [clear b hb]; rfl
  rw [List.takeWhile_append_of_pos hclear, List.dropWhile_append_of_pos hclear,
    List.takeWhile_cons, List.dropWhile_cons, fails, Bool.not_true, if_neg Bool.false_ne_true,
    if_neg Bool.false_ne_true, List.append_nil]
  exact ⟨rfl, rfl⟩

theorem Event.fails_of_error {e : Event} {error : IoError} (he : e.error? = some error) :
    e.fails = true := by
  cases e with
  | launched result => cases he
  | reaped child result => cases he
  | _ => simp [fails, he]

namespace Account

theorem smooth_add (a : Account) (e : Event) : (a.add e).smooth = (a.smooth && !e.fails) := by
  cases e with
  | read reply =>
    cases reply with
    | got bytes =>
      cases bytes <;> exact (Bool.and_true a.smooth).symm
    | failed e =>
      dsimp only [add, Event.fails, Event.error?]
      cases e.isInterrupted <;> rfl
  | recorded accepted reply =>
    cases reply with
    | took n => cases n <;> rfl
    | failed e =>
      dsimp only [add, WriteReply.goesWell, Event.fails, Event.error?]
      cases e.isInterrupted <;> rfl
  | committed result => cases result <;> rfl
  | launched result =>
    cases result with
    | ok child => exact (Bool.and_true a.smooth).symm
    | error f => exact (Bool.and_false a.smooth).symm
  | sent child accepted reply =>
    cases reply with
    | took n => cases n <;> rfl
    | failed e =>
      dsimp only [add, WriteReply.goesWell, Event.fails, Event.error?]
      cases e.isInterrupted <;> rfl
  | reaped child result => cases result <;> rfl
  | shut child => exact (Bool.and_true a.smooth).symm
  | left => exact (Bool.and_true a.smooth).symm
  | forsaken child => exact (Bool.and_true a.smooth).symm

/-- An account is smooth exactly if nothing in its trace has failed. -/
theorem smooth_ofTrace (events : List Event) :
    (ofTrace events).smooth = true ↔ ∀ e ∈ events, e.fails = false := by
  induction events using List.reverseRecOn with
  | nil => exact ⟨fun _ e he => absurd he List.not_mem_nil, fun _ => rfl⟩
  | append_singleton events e ih =>
    rw [ofTrace_concat, smooth_add, Bool.and_eq_true, ih, Bool.not_eq_true', List.forall_mem_append,
      List.forall_mem_singleton]

end Account

namespace Stage

variable {ceiling : Option Int32} {a : Account} {events before after : List Event}

/-! ## The fault of an operation -/

/-- The fault that arises from an event behind which nothing has failed before. -/
def arising? (ceiling : Option Int32) (a : Account) : Event → Option Fault
  | .launched (.error f) => some (.within (doing ceiling a (.launched (.error f))) f)
  | .reaped _ (.error f) => some f
  | e => e.error?.map fun error => .within (doing ceiling a e) (.io error)

theorem arising?_plain {e : Event} (hp : e.isPlain = true) :
    arising? ceiling a e = e.error?.map fun error => .within (doing ceiling a e) (.io error) := by
  cases e with
  | launched result => cases hp
  | reaped child result => cases hp
  | _ => rfl

theorem arising?_of_error {e : Event} {error : IoError} (he : e.error? = some error) :
    arising? ceiling a e = some (.within (doing ceiling a e) (.io error)) := by
  rw [arising?_plain (Event.isPlain_of_error he), he, Option.map_some]

theorem isSome_arising? (ceiling : Option Int32) (a : Account) (e : Event) :
    (arising? ceiling a e).isSome = e.fails := by
  cases e with
  | launched result => cases result <;> rfl
  | reaped child result => cases result <;> rfl
  | read reply => exact Option.isSome_map
  | recorded accepted reply => exact Option.isSome_map
  | committed result => exact Option.isSome_map
  | sent child accepted reply => exact Option.isSome_map
  | shut child => rfl
  | left => rfl
  | forsaken child => rfl

variable {e : Option Event}

theorem Arises.eq {fault : Option Fault} (h : Arises ceiling a e fault) :
    fault = e.bind (arising? ceiling a) := by
  cases h with
  | proceed => rfl
  | done hp hn => rw [Option.bind_some, arising?_plain hp, hn, Option.map_none]
  | failed he hc => rw [Option.bind_some, arising?_of_error he, hc]
  | launched => rfl
  | refused hc => rw [Option.bind_some, arising?, hc]
  | reaped => rfl
  | handed => rfl

/-- A stage that is given up carries a fault. -/
theorem GivingUp.isSome_fault? {t : Task} (h : GivingUp ceiling a t) : t.fault?.isSome = true := by
  cases h <;> rfl

theorem Run.arises {r r' : Run} (h : r.Accords ceiling a) (hm : r.move.Answered e r')
    (hf : r.fault? = none) : Arises ceiling a e r'.fault? := by
  have hcarries := Run.carries h hm
  rw [hf] at hcarries
  cases r with
  | stepping call =>
    cases hout : call.outcome? with
    | none =>
      simp only [Run.move, hout] at hm
      obtain ⟨call', hcall, rfl⟩ := hm.of_map
      exact h.2.arises hcall hf
    | some result =>
      simp only [Run.move, hout] at hm
      cases hm
      generalize (Run.afterStep result.1 result.2).fault? = fault at hcarries ⊢
      cases hcarries
      exact .proceed
  | givingUp call =>
    have hsome := GivingUp.isSome_fault? h
    rw [show call.task.fault? = none from hf] at hsome
    cases hsome
  | finished s result => cases hm

/-! ## The fault of a run -/

/-- The first operation of a trace that fails, behind a part in which nothing does, and the fault
that arises from it. -/
structure FirstFailure (ceiling : Option Int32) (before : List Event) (e : Event) (own : Fault) :
    Prop where
  clear : ∀ b ∈ before, b.fails = false
  arises : arising? ceiling (Account.ofTrace before) e = some own

theorem FirstFailure.fails {e : Event} {own : Fault} (h : FirstFailure ceiling before e own) :
    e.fails = true := by
  rw [← isSome_arising? ceiling (Account.ofTrace before), h.arises]
  rfl

/-- What a trace tells of the fault that a run carries, and of what the run has warned of. -/
inductive Told (ceiling : Option Int32) : List Event → Option Fault → List Notice → Prop
  | clear {events : List Event} (h : ∀ e ∈ events, e.fails = false) : Told ceiling events none []
  | own {before after : List Event} {e : Event} {own : Fault}
      (h : FirstFailure ceiling before e own)
      (hr : ∀ child f, .reaped child (.error f) ∉ after) :
      Told ceiling (before ++ e :: after) (some own) []
  | gaveWay {before after : List Event} {e : Event} {own f : Fault} {child : Child}
      (h : FirstFailure ceiling before e own) (hb : own.isBrokenPipe = true)
      (hr : .reaped child (.error f) ∈ after) : Told ceiling (before ++ e :: after) (some f) []
  | kept {before after : List Event} {e : Event} {own f : Fault} {child : Child}
      (h : FirstFailure ceiling before e own) (hb : own.isBrokenPipe = false)
      (hr : .reaped child (.error f) ∈ after) :
      Told ceiling (before ++ e :: after) (some own) [.childFailedToo child.label f]

/-- A run without a fault meets an event. -/
theorem Told.arise {e : Event} {fault : Option Fault} (h : ∀ b ∈ events, b.fails = false)
    (hc : Arises ceiling (Account.ofTrace events) (some e) fault) :
    Told ceiling (events ++ [e]) fault [] := by
  have hfault := hc.eq
  rw [Option.bind_some] at hfault
  cases fault with
  | none =>
    refine .clear (List.forall_mem_append.2 ⟨h, List.forall_mem_singleton.2 ?_⟩)
    rw [← isSome_arising? ceiling (Account.ofTrace events), ← hfault]
    rfl
  | some own => exact .own ⟨h, hfault.symm⟩ fun child f => List.not_mem_nil

/-- A run that has not reaped its child carries the fault of its first failure. -/
theorem Told.unreaped {own : Fault} {warnings : List Notice}
    (h : Told ceiling events (some own) warnings) (hz : events.countP Event.isReap = 0) :
    warnings = [] ∧ ∃ before e after, events = before ++ e :: after ∧
      FirstFailure ceiling before e own := by
  have none_in : ∀ {before after : List Event} {e : Event} {child : Child} {f : Fault},
      events = before ++ e :: after → .reaped child (.error f) ∉ after := by
    rintro before after e child f rfl hmem
    have hno := List.countP_eq_zero.1 hz (.reaped child (.error f))
      (List.mem_append_right _ (List.mem_cons_of_mem _ hmem))
    exact hno rfl
  generalize hevents : events = trace at h
  cases h with
  | own h hr => exact ⟨rfl, _, _, _, rfl, h⟩
  | gaveWay h hb hr => exact absurd hr (none_in hevents)
  | kept h hb hr => exact absurd hr (none_in hevents)

/-- A run with a fault meets an event; it reaps its child only once. -/
theorem Told.carry {e : Event} {own : Fault} {fault : Option Fault} {warnings : List Notice}
    (h : Told ceiling events (some own) warnings) (hc : Carries (some e) (some own) fault)
    (honce : ∀ child result, e = .reaped child result → events.countP Event.isReap = 0) :
    Told ceiling (events ++ [e]) fault (warnings ++ (warning? (some own) (some e)).toList) := by
  -- An event that is no failure of the child changes nothing.
  have same : fault = some own → (∀ child f, e ≠ .reaped child (.error f)) →
      Told ceiling (events ++ [e]) fault
        (warnings ++ (warning? (some own) (some e)).toList) := by
    intro hfault he
    have hquiet : warning? (some own) (some e) = none := by
      cases e with
      | reaped child result =>
        cases result with
        | ok u => rfl
        | error f => exact absurd rfl (he child f)
      | _ => rfl
    rw [hfault, hquiet, Option.toList_none, List.append_nil]
    cases h with
    | own h hr =>
      rw [List.append_assoc, List.cons_append]
      refine .own h fun child f hmem => ?_
      rcases List.mem_append.1 hmem with hmem | hmem
      · exact hr child f hmem
      · exact he child f (List.mem_singleton.1 hmem).symm
    | gaveWay h hb hr =>
      rw [List.append_assoc, List.cons_append]
      exact .gaveWay h hb (List.mem_append_left _ hr)
    | kept h hb hr =>
      rw [List.append_assoc, List.cons_append]
      exact .kept h hb (List.mem_append_left _ hr)
  have plain : e.isPlain = true → ∀ child f, e ≠ .reaped child (.error f) := by
    rintro hp child f rfl
    cases hp
  cases hc with
  | done hp hn => exact same rfl (plain hp)
  | again hp he => exact same rfl (plain hp)
  | reaped => exact same rfl fun child f heq => by cases heq
  | @gaveWay child _ f hb =>
    obtain ⟨rfl, before, e, after, rfl, hfirst⟩ := h.unreaped (honce child (.error f) rfl)
    have hquiet : warning? (some own) (some (.reaped child (.error f))) = none := if_pos hb
    rw [hquiet, List.append_assoc, List.cons_append]
    exact .gaveWay hfirst hb (List.mem_append_right _ (List.mem_singleton.2 rfl))
  | @kept child _ f hb =>
    obtain ⟨rfl, before, e, after, rfl, hfirst⟩ := h.unreaped (honce child (.error f) rfl)
    have hwarning : warning? (some own) (some (.reaped child (.error f))) =
        some (.childFailedToo child.label f) := if_neg (by rw [hb]; exact Bool.false_ne_true)
    rw [hwarning, List.append_assoc, List.cons_append]
    exact .kept hfirst hb (List.mem_append_right _ (List.mem_singleton.2 rfl))

theorem Course.told {r : Run} (h : Course ceiling events r) :
    Told ceiling events r.fault? r.ledger.warnings := by
  induction h with
  | start => exact .clear fun e he => absurd he List.not_mem_nil
  | @step events e r r' h hm ih =>
    have hacc := h.accords
    have hnext := h.step hm
    have hcarries := Run.carries hacc hm
    have hwarnings := (Run.ledger_answered hm).2
    rw [hwarnings]
    cases e with
    | none =>
      generalize r'.fault? = fault at hcarries ⊢
      cases hcarries with
      | proceed =>
        have hquiet : warning? r.fault? none = none := rfl
        rw [hquiet, Option.toList_none, Option.toList_none, List.append_nil, List.append_nil]
        exact ih
    | some e =>
      rw [Option.toList_some]
      cases hfault : r.fault? with
      | none =>
        have harises := Run.arises hacc hm hfault
        rw [hfault] at ih
        generalize r.ledger.warnings = warnings at ih ⊢
        cases ih with
        | clear hclear =>
          have hquiet : warning? none (some e) = none := by
            cases e with
            | reaped child result => cases result <;> rfl
            | _ => rfl
          rw [hquiet]
          exact .arise hclear harises
      | some own =>
        rw [hfault] at hcarries ih
        refine ih.carry hcarries fun child result he => ?_
        subst he
        exact (hnext.inOrder.reaped events child result [] rfl).2.2.2

/-! ## What a run comes to -/

/-- A trace is divided at its first failure. -/
theorem FirstFailure.divides {e : Event} {own : Fault} (h : FirstFailure ceiling before e own)
    (after : List Event) :
    (before ++ e :: after).takeWhile (fun e => !e.fails) = before ∧
      (before ++ e :: after).dropWhile (fun e => !e.fails) = e :: after :=
  Event.divides h.clear h.fails after

/-- There is only one first failure. -/
theorem FirstFailure.unique {before' after' : List Event} {e e' : Event} {own own' : Fault}
    (h : FirstFailure ceiling before e own) (h' : FirstFailure ceiling before' e' own')
    (heq : before ++ e :: after = before' ++ e' :: after') : own = own' ∧ after = after' := by
  obtain ⟨htake, hdrop⟩ := h.divides after
  obtain ⟨htake', hdrop'⟩ := h'.divides after'
  rw [heq] at htake hdrop
  obtain rfl := htake.symm.trans htake'
  obtain ⟨rfl, rfl⟩ := List.cons_eq_cons.1 (hdrop.symm.trans hdrop')
  exact ⟨Option.some.inj (h.arises.symm.trans h'.arises), rfl⟩

/-- An operation that has failed is the first one, or comes behind it. -/
theorem FirstFailure.mem {e e' : Event} {own : Fault} (h : FirstFailure ceiling before e own)
    (hmem : e' ∈ before ++ e :: after) (hfails : e'.fails = true) : e' = e ∨ e' ∈ after := by
  rcases List.mem_append.1 hmem with hb | hb
  · rw [h.clear e' hb] at hfails
    cases hfails
  · exact List.mem_cons.1 hb

/-- What a run comes to is settled by its first failure and by how its child ends behind that. -/
theorem Told.of_first {e : Event} {own : Fault} {fault : Option Fault} {warnings : List Notice}
    (h : Told ceiling (before ++ e :: after) fault warnings)
    (hfirst : FirstFailure ceiling before e own) :
    (fault = some own ∧ warnings = [] ∧ ∀ child f, .reaped child (.error f) ∉ after) ∨
    ∃ child f, .reaped child (.error f) ∈ after ∧
      if own.isBrokenPipe then fault = some f ∧ warnings = []
      else fault = some own ∧ warnings = [.childFailedToo child.label f] := by
  generalize htrace : before ++ e :: after = trace at h
  cases h with
  | clear h =>
    have hfails := h e (by rw [← htrace]; exact List.mem_append_right _ List.mem_cons_self)
    rw [hfirst.fails] at hfails
    cases hfails
  | own h hr =>
    obtain ⟨rfl, rfl⟩ := hfirst.unique h htrace
    exact .inl ⟨rfl, rfl, hr⟩
  | gaveWay h hb hr =>
    obtain ⟨rfl, rfl⟩ := hfirst.unique h htrace
    exact .inr ⟨_, _, hr, by rw [if_pos hb]; exact ⟨rfl, rfl⟩⟩
  | kept h hb hr =>
    obtain ⟨rfl, rfl⟩ := hfirst.unique h htrace
    exact .inr ⟨_, _, hr, by rw [if_neg (by rw [hb]; exact Bool.false_ne_true)]; exact ⟨rfl, rfl⟩⟩

/-- Of what happens at most once there is only one event. -/
theorem eq_of_countP_le_one {kind : Event → Bool} {e e' : Event} (h : events.countP kind ≤ 1)
    (he : e ∈ events) (he' : e' ∈ events) (hk : kind e = true) (hk' : kind e' = true) : e = e' := by
  have hmem := List.mem_filter.2 ⟨he, hk⟩
  have hmem' := List.mem_filter.2 ⟨he', hk'⟩
  rw [List.countP_eq_length_filter] at h
  generalize events.filter kind = found at h hmem hmem'
  match found, h with
  | [only], _ => exact (List.mem_singleton.1 hmem).trans (List.mem_singleton.1 hmem').symm

/-- A child is reaped only once. -/
theorem Course.reap_unique {r : Run} {child child' : Child} {result result' : Except Fault Unit}
    (h : Course ceiling events r) (hmem : .reaped child result ∈ events)
    (hmem' : .reaped child' result' ∈ events) : child = child' ∧ result = result' := by
  have hone : events.countP Event.isReap ≤ 1 := by
    rw [(tallied h.lawful).reaps]
    exact Bool.toNat_le _
  cases eq_of_countP_le_one hone hmem hmem' rfl rfl
  exact ⟨rfl, rfl⟩

/-- A child that has been launched in the course of a run is reaped before the run is over. -/
theorem Course.reap_of_launch {s : Stage} {result : Except Fault Report} {child : Child}
    (h : Course ceiling events (.finished s result)) (hmem : .launched (.ok child) ∈ events) :
    ∃ outcome, .reaped child outcome ∈ events := by
  have hreaped : 0 < events.countP Event.isReap := by
    rw [h.released.reaped]
    exact List.countP_pos_iff.2 ⟨_, hmem, rfl⟩
  obtain ⟨e, he, hreap⟩ := List.countP_pos_iff.1 hreaped
  cases e with
  | reaped child' outcome =>
    obtain ⟨before, after, heq⟩ := List.append_of_mem he
    obtain ⟨hlaunched, -⟩ := h.inOrder.reaped before child' outcome after heq
    have hmem' : .launched (.ok child') ∈ events := by
      rw [heq]
      exact List.mem_append_left _ hlaunched
    cases eq_of_countP_le_one h.inOrder.launches hmem hmem' rfl rfl
    exact ⟨outcome, he⟩
  | _ => cases hreap

theorem error_of_fault? {s : Stage} {result : Except Fault Report} {f : Fault}
    (h : (Run.finished s result).fault? = some f) : result = .error f := by
  cases result with
  | ok report => cases h
  | error f' =>
    cases h
    rfl

open Scripted

/-- What a run comes to can be told from its trace. -/
theorem run_told (ceiling : Option Int32) {w : Surroundings} (hw : Untouched w) :
    ∃ s result, ((Stage.new ceiling).run w).1 = some (s, result) ∧
      Course ceiling ((Stage.new ceiling).run w).2.trace.toList (.finished s result) ∧
      Told ceiling ((Stage.new ceiling).run w).2.trace.toList (Run.finished s result).fault?
        s.ledger.warnings := by
  obtain ⟨s, result, hrun, hu⟩ := run_underway ceiling hw
  exact ⟨s, result, hrun, hu.course, hu.course.told⟩

/-- No failure is lost. A run succeeds exactly if none of its operations has failed. If its child
has failed, either that is what the run reports, or the run reports the failure of its own that
came before and warns of the child once. And the failure that came first is only passed over if
its root is a broken pipe and the child has failed too. -/
theorem run_loses_no_failure (ceiling : Option Int32) (w : Surroundings) (hw : Untouched w) :
    ∃ s result, ((Stage.new ceiling).run w).1 = some (s, result) ∧
      (result.isOk = true ↔
        ∀ e ∈ ((Stage.new ceiling).run w).2.trace.toList, e.fails = false) ∧
      (∀ child f, .reaped child (.error f) ∈ ((Stage.new ceiling).run w).2.trace.toList →
        (result = .error f ∧ s.ledger.warnings = []) ∨
        ∃ before e after own,
          ((Stage.new ceiling).run w).2.trace.toList = before ++ e :: after ∧
          FirstFailure ceiling before e own ∧ .reaped child (.error f) ∈ after ∧
          result = .error own ∧ s.ledger.warnings = [.childFailedToo child.label f]) ∧
      ∀ before e after own, ((Stage.new ceiling).run w).2.trace.toList = before ++ e :: after →
        FirstFailure ceiling before e own → result ≠ .error own →
        (∃ error, own.root = .io error ∧ error.kind = .brokenPipe) ∧
          ∃ child f, .reaped child (.error f) ∈ after ∧ result = .error f := by
  obtain ⟨s, result, hrun, hcourse, htold⟩ := run_told ceiling hw
  generalize ((Stage.new ceiling).run w).2.trace.toList = trace at hcourse htold ⊢
  refine ⟨s, result, hrun, ?_, ?_, ?_⟩
  · rw [Run.isOk_of_finished hcourse.accords, Account.smooth_ofTrace]
  · intro child f hmem
    generalize hfault : (Run.finished s result).fault? = fault at htold
    generalize s.ledger.warnings = warnings at htold ⊢
    cases htold with
    | clear h => exact Bool.noConfusion (h _ hmem)
    | own h hr =>
      rcases h.mem hmem rfl with rfl | hb
      · cases h.arises
        exact .inl ⟨error_of_fault? hfault, rfl⟩
      · exact absurd hb (hr child f)
    | gaveWay h hb hr =>
      obtain ⟨-, heq⟩ := hcourse.reap_unique hmem
        (List.mem_append_right _ (List.mem_cons_of_mem _ hr))
      cases heq
      exact .inl ⟨error_of_fault? hfault, rfl⟩
    | kept h hb hr =>
      obtain ⟨rfl, heq⟩ := hcourse.reap_unique hmem
        (List.mem_append_right _ (List.mem_cons_of_mem _ hr))
      cases heq
      exact .inr ⟨_, _, _, _, rfl, h, hr, error_of_fault? hfault, rfl⟩
  · intro before e after own heq hfirst hne
    rw [heq] at htold
    rcases htold.of_first hfirst with ⟨hfault, -, -⟩ | ⟨child, f, hr, hcase⟩
    · exact absurd (error_of_fault? hfault) hne
    · by_cases hb : own.isBrokenPipe = true
      · rw [if_pos hb] at hcase
        exact ⟨(isBrokenPipe_iff own).1 hb, child, f, hr, error_of_fault? hcase.1⟩
      · rw [if_neg hb] at hcase
        exact absurd (error_of_fault? hcase.1) hne

/-- The record fails for good, and so does the child: the stage reports the record and warns of the
child. -/
theorem run_loses_no_failure_full_record :
    let w : Surroundings :=
      { source := { items := [.chunk [2, 0, 0, 0]] }
        record := { barriers := [⟨3, .zeros none⟩] }
        launches := [.started { ending := some (.error (.channel "gone")) }] }
    ∃ s own, ((Stage.new none).run w).1 = some (s, .error own) ∧
      own = .within "Writing record" (.io Record.Entry.stuck) ∧
      s.ledger.warnings = [.childFailedToo "mock" (.channel "gone")] := by
  intro w
  have hw : Untouched w := .of_child rfl rfl rfl rfl (Option.some_ne_none _)
  have hresult : ((Stage.new none).run w).1.map Prod.snd =
      some (.error (.within "Writing record" (.io Record.Entry.stuck))) := rfl
  have hreap : .reaped ⟨0, "mock"⟩ (.error (.channel "gone")) ∈
      ((Stage.new none).run w).2.trace.toList := by
    have htrace : ((Stage.new none).run w).2.trace.toList[6]? =
        some (.reaped ⟨0, "mock"⟩ (.error (.channel "gone"))) := rfl
    exact List.mem_of_getElem? htrace
  obtain ⟨s, result, hrun, -, hchild, -⟩ := run_loses_no_failure none w hw
  rw [hrun] at hresult
  cases hresult
  rcases hchild _ _ hreap with ⟨heq, -⟩ | ⟨before, e, after, own, -, -, -, heq, hwarned⟩
  · cases heq
  · cases heq
    exact ⟨s, _, hrun, rfl, hwarned⟩

/-- A stage that has a child, and whose own input or record fails. -/
theorem Course.doing_eq {r : Run} {child : Child} {e : Event} {error : IoError}
    (h : Course ceiling (before ++ e :: after) r) (hchild : .launched (.ok child) ∈ before)
    (he : e.error? = some error) (hown : e.isSent = false) :
    doing ceiling (Account.ofTrace before) e =
      if e.isRead then "Reading input" else "Writing record" := by
  cases e with
  | read reply =>
    obtain ⟨early, late, rfl⟩ := List.append_of_mem hchild
    have hlaw := h.lawful early (.launched (.ok child)) (late ++ .read reply :: after)
      (by rw [List.append_assoc, List.cons_append])
    obtain ⟨-, -, v, hv, hr⟩ := hlaw
    have hvalues := values_mono (received_mono early (.launched (.ok child) :: late))
    rw [hr, values_encode] at hvalues
    obtain ⟨vs, hvs⟩ := hvalues
    exact readingFor_accepted hv hvs.symm
  | recorded accepted reply => rfl
  | committed result => rfl
  | sent child' accepted reply => cases hown
  | _ => cases he

/-- When the input or the record of a stage with a child is the first to fail, the stage reports
just that, whatever becomes of the child, and a failure of the child is noted beside it; but for
one case. If the error is of the kind of a broken pipe and the child has failed as well, the stage
takes it for the end of the child's channel, and reports the child's fault in its place. -/
theorem run_reports_own_failure (ceiling : Option Int32) (w : Surroundings) (hw : Untouched w)
    {before after : List Event} {e : Event} {error : IoError} {child : Child}
    (htrace : ((Stage.new ceiling).run w).2.trace.toList = before ++ e :: after)
    (hclear : ∀ b ∈ before, b.fails = false) (hchild : .launched (.ok child) ∈ before)
    (he : e.error? = some error) (hown : e.isSent = false) :
    let own : Fault := .within (if e.isRead then "Reading input" else "Writing record") (.io error)
    ∃ s result outcome, ((Stage.new ceiling).run w).1 = some (s, result) ∧
      .reaped child outcome ∈ ((Stage.new ceiling).run w).2.trace.toList ∧
      match outcome with
      | .ok () => result = .error own ∧ s.ledger.warnings = []
      | .error f =>
        if error.kind = .brokenPipe then result = .error f ∧ s.ledger.warnings = []
        else result = .error own ∧ s.ledger.warnings = [.childFailedToo child.label f] := by
  intro own
  obtain ⟨s, result, hrun, hcourse, htold⟩ := run_told ceiling hw
  rw [htrace] at hcourse htold ⊢
  obtain ⟨outcome, hreap⟩ := hcourse.reap_of_launch (List.mem_append_left _ hchild)
  have hfirst : FirstFailure ceiling before e own := by
    refine ⟨hclear, ?_⟩
    rw [arising?_of_error he, hcourse.doing_eq hchild he hown]
  have hpipe : own.isBrokenPipe = true ↔ error.kind = .brokenPipe := beq_iff_eq
  refine ⟨s, result, outcome, hrun, hreap, ?_⟩
  rcases htold.of_first hfirst with ⟨hfault, hwarnings, hr⟩ | ⟨child', f, hr, hcase⟩
  · cases outcome with
    | ok u => exact ⟨error_of_fault? hfault, hwarnings⟩
    | error f =>
      rcases hfirst.mem hreap rfl with rfl | hb
      · cases he
      · exact absurd hb (hr child f)
  · obtain ⟨rfl, rfl⟩ := hcourse.reap_unique hreap
      (List.mem_append_right _ (List.mem_cons_of_mem _ hr))
    dsimp only
    by_cases hb : error.kind = .brokenPipe
    · rw [if_pos (hpipe.2 hb)] at hcase
      rw [if_pos hb]
      exact ⟨error_of_fault? hcase.1, hcase.2⟩
    · rw [if_neg (fun h => hb (hpipe.1 h))] at hcase
      rw [if_neg hb]
      exact ⟨error_of_fault? hcase.1, hcase.2⟩

/-- A device that is full while the child is at work: the stage reports its record. -/
theorem run_reports_own_failure_full_device :
    let w : Surroundings :=
      { source := { items := [.chunk [2, 0, 0, 0]] }
        record := { barriers := [⟨3, .failures ⟨.storageFull, none⟩ rfl none⟩] }
        launches := [.started { ending := some (.error (.channel "gone")) }] }
    ∃ s, ((Stage.new none).run w).1 =
        some (s, .error (.within "Writing record" (.io ⟨.storageFull, none⟩))) ∧
      s.ledger.warnings = [.childFailedToo "mock" (.channel "gone")] := by
  intro w
  have hw : Untouched w := .of_child rfl rfl rfl rfl (Option.some_ne_none _)
  have htrace : ((Stage.new none).run w).2.trace.toList =
      [.read (.got [2, 0, 0, 0]), .launched (.ok ⟨0, "mock"⟩),
        .recorded [112, 114, 105] (.took 3)] ++
      .recorded [] (.failed ⟨.storageFull, none⟩) ::
        [.shut ⟨0, "mock"⟩, .left, .reaped ⟨0, "mock"⟩ (.error (.channel "gone"))] := rfl
  obtain ⟨s, result, outcome, hrun, hreap, htold⟩ := run_reports_own_failure none w hw htrace
    (by simp [Event.fails, Event.error?]) (List.mem_cons_of_mem _ List.mem_cons_self) rfl rfl
  have houtcome : outcome = .error (.channel "gone") := by
    rw [htrace] at hreap
    simpa using hreap
  subst houtcome
  obtain ⟨rfl, hwarned⟩ := htold
  exact ⟨s, hrun, hwarned⟩

/-- The record of a stage need not break for want of its child to be passed over. Standard output
is a pipe that is closed, and the child fails for a reason of its own: the stage reports the child,
and nothing of its record. -/
theorem broken_record_passed_over :
    ¬ ∀ (ceiling : Option Int32) (w : Surroundings), Untouched w →
      ∀ (before after : List Event) (e : Event) (error : IoError) (child : Child),
        ((Stage.new ceiling).run w).2.trace.toList = before ++ e :: after →
        (∀ b ∈ before, b.fails = false) → .launched (.ok child) ∈ before →
        e.error? = some error → e.isSent = false →
        ∃ s own, ((Stage.new ceiling).run w).1 = some (s, .error own) ∧ own.root = .io error := by
  intro h
  let w : Surroundings :=
    { source := { items := [.chunk [2, 0, 0, 0, 3, 0, 0, 0]] }
      record := { barriers := [⟨3, .failures ⟨.brokenPipe, none⟩ rfl none⟩] }
      launches := [.started { ending := some (.error (.channel "gone")) }] }
  have hw : Untouched w := .of_child rfl rfl rfl rfl (Option.some_ne_none _)
  have htrace : ((Stage.new none).run w).2.trace.toList =
      [.read (.got [2, 0, 0, 0]), .launched (.ok ⟨0, "mock"⟩),
        .recorded [112, 114, 105] (.took 3)] ++
      .recorded [] (.failed ⟨.brokenPipe, none⟩) ::
        [.shut ⟨0, "mock"⟩, .left, .reaped ⟨0, "mock"⟩ (.error (.channel "gone"))] := rfl
  have hresult : ((Stage.new none).run w).1.map Prod.snd = some (.error (.channel "gone")) := rfl
  obtain ⟨s, own, hrun, hroot⟩ := h none w hw _ _ _ _ ⟨0, "mock"⟩ htrace
    (by simp [Event.fails, Event.error?]) (List.mem_cons_of_mem _ List.mem_cons_self) rfl rfl
  rw [hrun] at hresult
  cases hresult
  cases hroot

end Stage

end SieveChain
