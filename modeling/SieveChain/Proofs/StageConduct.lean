import SieveChain.Proofs.StageSteps

/-!
# How stages conduct themselves

A stage asks for its operations in a fixed order, and at no time has it recorded or handed
on anything but what the values received so far call for; nothing is handed on before the
line is complete. A run that succeeds has done all of it without a failure, and a run that
fails has met one.
-/

namespace SieveChain.Stage

open Wire Record

variable {ceiling : Option Int32} {a : Account}

theorem GivingUp.permitted {call : Activity} (h : GivingUp ceiling a call.task) :
    call.move.Permitted a := by
  obtain ⟨phase, l, task⟩ := call
  cases h with
  | leaveAlone h hl =>
    refine ⟨hl, fun hc => ?_⟩
    rw [h.child] at hc
    cases hc
  | endedAlone h hl => trivial
  | empty h hh hne => exact ⟨hne, h.child, hh.shut⟩
  | shut h hh => exact ⟨h.child, hh.shut⟩
  | leave h hs hl hr => exact ⟨hl, fun _ => hs⟩
  | reap h hs hl hr => exact ⟨h.child, hs, hr⟩
  | ended h hs hl hr => trivial

theorem Stepping.permitted {call : Activity} (h : Stepping ceiling a call.ledger call.task) :
    call.move.Permitted a := by
  obtain ⟨phase, l, task⟩ := call
  cases h with
  | first h he hr hh hd => exact ⟨Intake.room_pos hh, h.left, he, h.smooth⟩
  | skip h he hv hr hh hn => exact ⟨Intake.room_pos hh, h.left, he, h.smooth⟩
  | idle h he hv hd =>
    refine ⟨h.left, fun hc => ?_⟩
    rw [h.child] at hc
    cases hc
  | launch h he hv hr hi hd => exact ⟨h.launches, h.child, h.sent, h.shut⟩
  | @record input p child entry hv hr hi hb hne hcm hn hk hs hh he hsm hf hd =>
    have hk' : a.child.isSome = true := by rw [hk]; rfl
    dsimp only [Activity.move]
    split
    · exact ⟨hk', hs, hh.shut⟩
    · next piece rest hp =>
      refine ⟨hne piece ?_, hk', hs, hh.shut⟩
      rw [hp]
      exact List.mem_cons_self
  | next h he hr hh => exact ⟨Intake.room_pos hh, h.left, he, h.smooth⟩
  | forward h he hr hi hv hne => exact ⟨hne, h.child, h.shut⟩
  | close h he hr hne => exact ⟨hne, h.child, h.shut⟩
  | shut h he hr hb => exact ⟨h.child, h.shut⟩
  | leave h hl hr => exact ⟨hl, fun _ => h.shut⟩
  | reap h hl hr => exact ⟨h.child, h.shut, hr⟩
  | emptySevered h hh hne => exact ⟨hne, h.child, hh.shut⟩
  | shutSevered h hh => exact ⟨h.child, hh.shut⟩
  | idled | done | settled | failed => trivial

/-- A run of a stage only ever asks for what it may. -/
theorem Run.permitted {r : Run} (h : r.Accords ceiling a) : r.move.Permitted a := by
  cases r with
  | stepping call =>
    rw [Run.move]
    split
    · trivial
    · exact Move.Permitted.map h.2.permitted
  | givingUp call =>
    rw [Run.move]
    split
    · trivial
    · exact Move.Permitted.map (GivingUp.permitted h)
  | finished s result => trivial

/-! ## What has been recorded and sent -/

/-- The record line of the value that a stage comes to own, if it comes to own one. -/
def ownLine (ceiling : Option Int32) (vs : List Int32) : List UInt8 :=
  match owned? ceiling vs with
  | none => []
  | some p => lineBytes p

theorem owned?_accepted {p : Int32} (hp : accepts ceiling p = true) (vs : List Int32) :
    owned? ceiling (p :: vs) = some p := by
  rw [owned?, if_pos hp]

theorem owned?_eq_some {p : Int32} {vs : List Int32} (h : owned? ceiling vs = some p) :
    accepts ceiling p = true ∧ ∃ ws, vs = p :: ws := by
  cases vs with
  | nil => cases h
  | cons v vs =>
    rw [owned?] at h
    split at h
    · next hv =>
      cases h
      exact ⟨hv, vs, rfl⟩
    · cases h

theorem ownLine_accepted {p : Int32} (hp : accepts ceiling p = true) (vs : List Int32) :
    ownLine ceiling (p :: vs) = lineBytes p := by
  rw [ownLine, owned?_accepted hp]

theorem handedOn_accepted {p : Int32} (hp : accepts ceiling p = true) (vs : List Int32) :
    handedOn ceiling (p :: vs) = vs.filter (passes p) := by
  rw [handedOn, if_pos hp]

theorem ownLine_idle {vs : List Int32} (h : owned? ceiling vs = none) :
    ownLine ceiling vs = [] := by
  rw [ownLine, h]

theorem handedOn_idle {vs : List Int32} (h : owned? ceiling vs = none) :
    handedOn ceiling vs = [] := by
  cases vs with
  | nil => rfl
  | cons v vs =>
    rw [owned?] at h
    split at h
    · cases h
    · next hv => rw [handedOn, if_neg hv]

theorem owned?_of_isPrefix {vs ws : List Int32} (h : vs <+: ws)
    (ho : (owned? ceiling vs).isSome = true) : owned? ceiling vs = owned? ceiling ws := by
  cases vs with
  | nil => cases ho
  | cons v vs =>
    obtain ⟨rest, rfl⟩ := h
    rfl

theorem owned?_eq_none_of_isPrefix {vs ws : List Int32} (h : vs <+: ws)
    (ho : owned? ceiling ws = none) : owned? ceiling vs = none := by
  cases hn : owned? ceiling vs with
  | none => rfl
  | some p => rw [← hn, owned?_of_isPrefix h (by rw [hn]; rfl), ho]

/-- Values to come do not change the line of a stage that has one. -/
theorem ownLine_of_isPrefix {vs ws : List Int32} (h : vs <+: ws)
    (ho : (owned? ceiling vs).isSome = true) : ownLine ceiling vs = ownLine ceiling ws := by
  rw [ownLine, ownLine, owned?_of_isPrefix h ho]

theorem ownLine_mono {vs ws : List Int32} (h : vs <+: ws) :
    ownLine ceiling vs <+: ownLine ceiling ws := by
  cases ho : owned? ceiling vs with
  | none =>
    rw [ownLine_idle ho]
    exact List.nil_prefix
  | some p =>
    have hsame := ownLine_of_isPrefix h (by rw [ho]; rfl)
    exact hsame ▸ List.prefix_refl _

theorem handedOn_mono {vs ws : List Int32} (h : vs <+: ws) :
    handedOn ceiling vs <+: handedOn ceiling ws := by
  cases vs with
  | nil => exact List.nil_prefix
  | cons v vs =>
    obtain ⟨rest, rfl⟩ := h
    rw [List.cons_append, handedOn, handedOn]
    split
    · exact (List.prefix_append vs rest).filter _
    · exact List.prefix_refl _

theorem length_handedOn_lt {vs : List Int32} (h : (owned? ceiling vs).isSome = true) :
    (handedOn ceiling vs).length < vs.length := by
  cases vs with
  | nil => cases h
  | cons v vs =>
    rw [handedOn]
    split
    · exact Nat.lt_succ_of_le (List.length_filter_le _ _)
    · exact Nat.zero_lt_succ _

/-- All that a stage has recorded and sent is called for by what it has received. -/
structure Sound (ceiling : Option Int32) (a : Account) : Prop where
  recorded : a.recorded <+: ownLine ceiling (values a.received)
  sent : a.sent <+: encodeAll (handedOn ceiling (values a.received))
  order : a.sent ≠ [] → a.recorded = ownLine ceiling (values a.received)
  owner : a.child.isSome = true → (owned? ceiling (values a.received)).isSome = true
  launches : a.launches ≤ 1
  child : a.child = none → a.sent = []
  alone : a.child = none → a.recorded = []

/-- A stage with a child has sent less than it has received. -/
theorem Sound.length_sent_lt (h : Sound ceiling a) (hk : a.child.isSome = true) :
    a.sent.length < a.received.length := by
  have hlt := length_handedOn_lt (h.owner hk)
  have hsent := h.sent.length_le
  have hreceived := length_values_le a.received
  rw [length_encodeAll] at hsent
  rw [width] at hsent hreceived
  omega

theorem Sound.of_bare (h : a.Bare) (hn : a.launches ≤ 1) : Sound ceiling a where
  recorded := by rw [h.recorded]; exact List.nil_prefix
  sent := by rw [h.sent]; exact List.nil_prefix
  order := fun hs => absurd h.sent hs
  owner := fun hc => by rw [h.child] at hc; cases hc
  launches := hn
  child := fun _ => h.sent
  alone := fun _ => h.recorded

theorem Waiting.sound {l : Ledger} (h : Waiting a l) : Sound ceiling a :=
  Sound.of_bare h.toBare (by rw [h.launches]; exact Nat.zero_le 1)

/-- A stage that owns a value has nothing else on the record than a beginning of its line,
and has sent nothing else than a beginning of what the others call for. -/
theorem Sound.owning {p : Int32} {vs : List Int32} {child : Child}
    (hp : accepts ceiling p = true) (hr : values a.received = p :: vs)
    (hb : a.recorded <+: lineBytes p) (hs : a.sent <+: encodeAll (vs.filter (passes p)))
    (ho : a.sent ≠ [] → a.recorded = lineBytes p) (hn : a.launches ≤ 1)
    (hk : a.child = some child) : Sound ceiling a where
  recorded := by rw [hr, ownLine_accepted hp]; exact hb
  sent := by rw [hr, handedOn_accepted hp]; exact hs
  order := by rw [hr, ownLine_accepted hp]; exact ho
  owner := fun _ => by rw [hr, owned?_accepted hp]; rfl
  launches := hn
  child := fun hc => by rw [hk] at hc; cases hc
  alone := fun hc => by rw [hk] at hc; cases hc

theorem Filtering.sound {l : Ledger} {p : Int32} {vs ws : List Int32} {link : Link}
    (h : Filtering ceiling a l p vs link) (hr : values a.received = p :: ws)
    (hw : vs <+: ws) : Sound ceiling a := by
  refine .owning h.accepted hr ?_ ?_ (fun _ => h.recorded) (Nat.le_of_eq h.launches) h.child
  · exact h.recorded ▸ List.prefix_refl _
  · refine List.IsPrefix.trans ?_ (encodeAll_mono (hw.filter _))
    rw [← h.sent]
    exact List.prefix_append _ _

theorem HandedOn.sound {l : Ledger} {p : Int32} {vs : List Int32} {child : Child}
    (h : HandedOn ceiling a l p vs child) : Sound ceiling a := by
  refine .owning h.accepted h.received ?_ ?_ (fun _ => h.recorded) (Nat.le_of_eq h.launches)
    h.child
  · exact h.recorded ▸ List.prefix_refl _
  · exact h.sent ▸ List.prefix_refl _

theorem Torn.sound {p : Int32} {vs : List Int32} {child : Child} {heldBack : List UInt8}
    (h : Torn ceiling a p vs child heldBack) : Sound ceiling a := by
  refine .owning h.accepted h.received h.recorded ?_ ?_ (Nat.le_of_eq h.launches) h.child
  · exact (List.prefix_append _ _).trans h.sent
  · intro hs
    refine (h.order fun hn => hs ?_).1
    exact (List.append_eq_nil_iff.1 hn).1

theorem GivingUp.sound {t : Task} (h : GivingUp ceiling a t) : Sound ceiling a := by
  cases h with
  | leaveAlone h hl => exact Sound.of_bare h.toBare h.launches
  | endedAlone h hl => exact Sound.of_bare h.toBare h.launches
  | empty h hh hne => exact h.sound
  | shut h hh => exact h.sound
  | leave h hs hl hr => exact h.sound
  | reap h hs hl hr => exact h.sound
  | ended h hs hl hr => exact h.sound

theorem Stepping.sound {l : Ledger} {t : Task} (h : Stepping ceiling a l t) :
    Sound ceiling a := by
  induction h with
  | first h he hr hh hd => exact h.sound
  | skip h he hv hr hh hn => exact h.sound
  | idle h he hv hd => exact h.sound
  | idled h hn hs he hl hv hf hd =>
    exact Sound.of_bare h (by rw [hn]; exact Nat.zero_le 1)
  | launch h he hv hr hi hd => exact h.sound
  | @record input p child entry hv hr hi hb hne hcm hn hk hs hh he hsm hf hd =>
    have hvs : values a.received = [p] := by rw [hr, values_encode]
    refine .owning hv hvs ?_ ?_ (fun h => absurd hs h) (Nat.le_of_eq hn) hk
    · rw [← hb]
      exact List.prefix_append _ _
    · rw [hs]
      exact List.nil_prefix
  | next h he hr hh =>
    refine h.sound ?_ (List.prefix_refl _)
    rw [hr]
    exact values_torn _ hh
  | @forward input p v vs link h he hr hi hv hne =>
    refine h.sound ?_ (List.prefix_append vs [v])
    rw [hr, values_encodeAll_append, values_encode]
    rfl
  | close h he hr hne => exact h.sound hr (List.prefix_refl _)
  | shut h he hr hb => exact h.sound hr (List.prefix_refl _)
  | leave h hl hr => exact h.sound
  | reap h hl hr => exact h.sound
  | done h hl hr => exact h.sound
  | emptySevered h hh hne => exact h.sound
  | shutSevered h hh => exact h.sound
  | settled hp h ih => exact ih
  | failed h => exact h.sound

theorem Run.sound {r : Run} (h : r.Accords ceiling a) : Sound ceiling a := by
  cases r with
  | stepping call => exact h.2.sound
  | givingUp call => exact GivingUp.sound h
  | finished s result =>
    cases result with
    | ok report =>
      cases h with
      | idle h hn hs he hl hv => exact Sound.of_bare h (by rw [hn]; exact Nat.zero_le 1)
      | owner h hl hr => exact h.sound
    | error f =>
      cases h with
      | alone h hl => exact Sound.of_bare h.toBare h.launches
      | owner h hs hl hr => exact h.sound

/-! ## How runs come out -/

/-- The account of a stage that has done all there was to do. -/
structure Fulfilled (ceiling : Option Int32) (a : Account) : Prop where
  recorded : a.recorded = ownLine ceiling (values a.received)
  sent : a.sent = encodeAll (handedOn ceiling (values a.received))
  launches : a.launches = (owned? ceiling (values a.received)).toList.length
  child : a.child.isSome = (owned? ceiling (values a.received)).isSome
  ended : a.ended = true
  smooth : a.smooth = true

theorem Completed.fulfilled {report : Report} (h : Completed ceiling a report) :
    Fulfilled ceiling a := by
  cases h with
  | idle h hn hs he hl hv =>
    refine ⟨?_, ?_, ?_, ?_, he, hs⟩
    · rw [h.recorded, ownLine_idle hv]
    · rw [h.sent, handedOn_idle hv]
      rfl
    · rw [hn, hv]
      rfl
    · rw [h.child, hv]
      rfl
  | owner h hl hr =>
    refine ⟨?_, ?_, ?_, ?_, h.ended, h.smooth⟩
    · rw [h.received, ownLine_accepted h.accepted, h.recorded]
    · rw [h.received, handedOn_accepted h.accepted, h.sent]
    · rw [h.received, owned?_accepted h.accepted, h.launches]
      rfl
    · rw [h.received, owned?_accepted h.accepted, h.child]
      rfl

theorem Run.fulfilled {s : Stage} {result : Except Fault Report}
    (h : (Run.finished s result).Accords ceiling a) (hok : result.isOk = true) :
    Fulfilled ceiling a := by
  cases result with
  | ok report => exact Completed.fulfilled h
  | error f => cases hok

theorem Broken.not_smooth (h : Broken ceiling a) : a.smooth = false := by
  cases h with
  | alone h hl => exact h.smooth
  | owner h hs hl hr => exact h.smooth

/-- A run that has finished has met no failure exactly if its result is a report. -/
theorem Run.isOk_of_finished {s : Stage} {result : Except Fault Report}
    (h : (Run.finished s result).Accords ceiling a) : result.isOk = a.smooth := by
  cases result with
  | ok report =>
    rw [(Completed.fulfilled h).smooth]
    rfl
  | error f =>
    rw [Broken.not_smooth h]
    rfl

/-! ## What stages own -/

/-- The value of a stage that gives up an output. -/
def Shutting.prime? : Shutting → Option Int32
  | .replaced _ _ p _ => some p
  | .drained _ p _ _ => some p
  | .severed _ p _ _ => some p
  | .givenUp _ p _ _ => p
  | .letGo p _ => p

/-- The value of a stage that gives up its input. -/
def Leaving.prime? : Leaving → Option Int32
  | .idle earlier => earlier.map (·.1)
  | .drained p _ => some p
  | .givenUp p _ _ => p
  | .letGo p _ => p
  | .letGoSevered p _ => some p

/-- The value of a stage that reaps its child. -/
def Reaping.prime? : Reaping → Option Int32
  | .drained p => some p
  | .givenUp p _ => p

/-- The value that a stage owns at a task. A stage that is about to launch its child does not
own its value yet. -/
def Task.prime? : Task → Option Int32
  | .first _ earlier => earlier.map (·.1)
  | .skip _ earlier _ => earlier.map (·.1)
  | .launch _ earlier _ => earlier.map (·.1)
  | .record _ p _ _ => some p
  | .next _ p _ => some p
  | .forward _ p _ _ => some p
  | .close _ p _ => some p
  | .empty _ after => after.prime?
  | .shut after => after.prime?
  | .replace _ _ p _ => some p
  | .leave after => after.prime?
  | .reap _ after => after.prime?
  | .forsake p _ => p
  | .ended state _ => state.prime?

/-- The value that a stage owns at a point of its run; one that has succeeded says so in its
report. -/
def Run.prime? : Run → Option Int32
  | .stepping call => call.task.prime?
  | .givingUp call => call.task.prime?
  | .finished _ (.ok report) => report.prime
  | .finished s (.error _) => s.prime?

theorem Task.prime?_step (l : Ledger) (state : State) :
    (step { ledger := l, state }).task.prime? = state.prime? := by
  cases state with
  | draining input p link =>
    dsimp only [step]
    split
    · rfl
    · rfl
  | childReaped p =>
    rw [step, Activity.task_settle]
    rfl
  | _ => rfl

theorem GivingUp.not_smooth {t : Task} (h : GivingUp ceiling a t) : a.smooth = false := by
  cases h with
  | leaveAlone h hl => exact h.smooth
  | endedAlone h hl => exact h.smooth
  | empty h hh hne => exact h.smooth
  | shut h hh => exact h.smooth
  | leave h hs hl hr => exact h.smooth
  | reap h hs hl hr => exact h.smooth
  | ended h hs hl hr => exact h.smooth

/-- The value that a stage with this account owns. -/
def ownValue? (ceiling : Option Int32) (a : Account) : Option Int32 :=
  if a.child.isSome then owned? ceiling (values a.received) else none

theorem ownValue?_alone (hk : a.child = none) : ownValue? ceiling a = none := by
  rw [ownValue?, hk]
  rfl

theorem ownValue?_owning {p : Int32} {vs : List Int32} {child : Child}
    (hp : accepts ceiling p = true) (hk : a.child = some child)
    (hr : values a.received = p :: vs) : ownValue? ceiling a = some p := by
  rw [ownValue?, hk, hr, owned?_accepted hp]
  rfl

theorem ownValue?_eq_some {p : Int32} (h : ownValue? ceiling a = some p) :
    accepts ceiling p = true ∧ ∃ vs, values a.received = p :: vs := by
  rw [ownValue?] at h
  split at h
  · exact owned?_eq_some h
  · cases h

theorem Stepping.prime?_eq {l : Ledger} {t : Task} (h : Stepping ceiling a l t)
    (hs : a.smooth = true) : t.prime? = ownValue? ceiling a := by
  -- What has failed is no concern here.
  have whole : ∀ t : Task, a.smooth = false → t.prime? = ownValue? ceiling a := by
    intro t hn
    rw [hs] at hn
    cases hn
  induction h with
  | first h he hr hh hd => exact (ownValue?_alone h.child).symm
  | skip h he hv hr hh hn => exact (ownValue?_alone h.child).symm
  | idle h he hv hd => exact (ownValue?_alone h.child).symm
  | idled h hn hs he hl hv hf hd => exact (ownValue?_alone h.child).symm
  | launch h he hv hr hi hd => exact (ownValue?_alone h.child).symm
  | @record input p child entry hv hr hi hb hne hcm hn hk hs hh he hsm hf hd =>
    have hvs : values a.received = [p] := by rw [hr, values_encode]
    exact (ownValue?_owning hv hk hvs).symm
  | @next input p vs link h he hr hh =>
    have hvs : values a.received = p :: vs := by rw [hr, values_torn _ hh]
    exact (ownValue?_owning h.accepted h.child hvs).symm
  | @forward input p v vs link h he hr hi hv hne =>
    have hvs : values a.received = p :: (vs ++ [v]) := by
      rw [hr, values_encodeAll_append, values_encode]
      rfl
    exact (ownValue?_owning h.accepted h.child hvs).symm
  | close h he hr hne => exact (ownValue?_owning h.accepted h.child hr).symm
  | shut h he hr hb => exact (ownValue?_owning h.accepted h.child hr).symm
  | leave h hl hr => exact (ownValue?_owning h.accepted h.child h.received).symm
  | reap h hl hr => exact (ownValue?_owning h.accepted h.child h.received).symm
  | done h hl hr => exact (ownValue?_owning h.accepted h.child h.received).symm
  | emptySevered h hh hne => exact whole _ h.smooth
  | shutSevered h hh => exact whole _ h.smooth
  | settled hp h ih => exact (Task.prime?_step _ _).symm.trans ih
  | failed h => exact whole _ h.not_smooth

/-- As long as all goes well, a stage owns its value exactly from the launch of its child. -/
theorem Run.prime?_eq {r : Run} (h : r.Accords ceiling a) (hs : a.smooth = true) :
    r.prime? = ownValue? ceiling a := by
  cases r with
  | stepping call => exact h.2.prime?_eq hs
  | givingUp call =>
    rw [GivingUp.not_smooth h] at hs
    cases hs
  | finished s result =>
    cases result with
    | ok report =>
      cases h with
      | idle h hn hs he hl hv => exact (ownValue?_alone h.child).symm
      | owner h hl hr => exact (ownValue?_owning h.accepted h.child h.received).symm
    | error f =>
      rw [Broken.not_smooth h] at hs
      cases hs

theorem Stepping.ended_of_left {l : Ledger} {t : Task} (h : Stepping ceiling a l t)
    (hs : a.smooth = true) (hl : a.left = true) : a.ended = true := by
  have stays : a.left = false → a.ended = true := by
    intro hn
    rw [hl] at hn
    cases hn
  have whole : a.smooth = false → a.ended = true := by
    intro hn
    rw [hs] at hn
    cases hn
  induction h with
  | first h he hr hh hd => exact stays h.left
  | skip h he hv hr hh hn => exact stays h.left
  | idle h he hv hd => exact he
  | idled h hn hs he hl hv hf hd => exact he
  | launch h he hv hr hi hd => exact stays h.left
  | record hv hr hi hb hne hcm hn hk hs hh he hsm hf hd => exact stays hh.left
  | next h he hr hh => exact stays h.left
  | forward h he hr hi hv hne => exact stays h.left
  | close h he hr hne => exact he
  | shut h he hr hb => exact he
  | leave h hl hr => exact h.ended
  | reap h hl hr => exact h.ended
  | done h hl hr => exact h.ended
  | emptySevered h hh hne => exact whole h.smooth
  | shutSevered h hh => exact whole h.smooth
  | settled hp h ih => exact ih
  | failed h => exact whole h.not_smooth

/-- As long as all goes well, a stage gives up its input only when it has found its end. -/
theorem Run.ended_of_left {r : Run} (h : r.Accords ceiling a) (hs : a.smooth = true)
    (hl : a.left = true) : a.ended = true := by
  cases r with
  | stepping call => exact h.2.ended_of_left hs hl
  | givingUp call =>
    rw [GivingUp.not_smooth h] at hs
    cases hs
  | finished s result =>
    have hok := Run.isOk_of_finished h
    rw [hs] at hok
    exact (Run.fulfilled h hok).ended

end SieveChain.Stage
