import SieveChain.Host.Threads
import SieveChain.Proofs.Chains

/-!
# Feeders and the chains below them

A feeder sends its values to the first stage of a chain. Whatever goes wrong in the feeder
or around any of the stages, the record is a beginning of what it is where nothing goes
wrong; and a feeder that succeeds has missed nothing.
-/

namespace SieveChain.Chain

open Scripted Wire Record

variable {host : Host} {feeder : Conditions} {conditions : Nat → Conditions}
  {ceiling : Option Int32} {first : Nat} {c : Candidates}

/-- The surroundings in which a feeder begins. -/
def feederSurroundings (host : Host) (feeder : Conditions) (first : Nat) : Surroundings :=
  { first, launches := [feeder.launch (host.label first)] }

theorem mirrors_feederSurroundings (h : feeder.Sensible) :
    (feederSurroundings host feeder first).Mirrors [] {} where
  trace := rfl
  record := rfl
  script := @Surroundings.Script.whole [] {} [] rfl (fun _ => rfl)
  perRead := (Option.some_ne_none 0).symm
  link := .none rfl rfl
  fresh := by
    intro s hs
    have hs : Launch.started s = feeder.launch (host.label first) := List.mem_singleton.1 hs
    unfold Conditions.launch at hs
    split at hs
    · cases hs
    · cases hs
      exact h.channel

theorem pending_feederSurroundings : (feederSurroundings host feeder first).Pending {} where
  channels := fun s hs => absurd hs (Array.not_mem_empty s)
  launches := by
    intro _
    refine ⟨_, rfl, ?_⟩
    intro s hs
    unfold Conditions.launch at hs
    split at hs
    · cases hs
    · cases hs
      rfl
  reaped := rfl

theorem easy_feederSurroundings (h : feeder.Easy) :
    (feederSurroundings host feeder first).Easy where
  source := ⟨[], rfl⟩
  record := Sink.easy_default
  launches := by
    intro l hl
    have hl : l = feeder.launch (host.label first) := List.mem_singleton.1 hl
    rw [Conditions.launch, h.refusal] at hl
    exact ⟨_, hl, h.channel, fun _ => (Option.some_ne_none _).symm⟩
  channels := fun s hs => absurd hs (Array.not_mem_empty s)

/-- A feeder that has come to its end, and what has run below it. -/
def concludeFeeder (r : Feeder.Run) (w : Surroundings) (runs : List StageRun) : Fed :=
  { result := (w.drive (w.allowance 0) r).1.outcome?.getD (.error stalled)
    notices := (w.drive (w.allowance 0) r).1.notices.toList
    trace := (w.drive (w.allowance 0) r).2.trace.toList
    runs }

/-- What becomes of a feeder that rests, or waits for the chain below it. -/
def resumeFeeder (host : Host) (conditions : Nat → Conditions) (ceiling : Option Int32)
    (next : Nat) : Feeder.Run × Surroundings → Fed
  | (r, w) =>
    match r.move with
    | .reap child _ =>
      let runs := run host conditions (host.heir ceiling) next [w.accepts child]
      concludeFeeder r (w.settle child (headVerdict host child.index runs)) runs
    | _ => concludeFeeder r w []

theorem feed_eq (host : Host) (feeder : Conditions) (conditions : Nat → Conditions)
    (ceiling : Option Int32) (first : Nat) (c : Candidates) :
    feed host feeder conditions ceiling first c =
      resumeFeeder host conditions ceiling (first + 1)
        ((feederSurroundings host feeder first).drive
          ((feederSurroundings host feeder first).allowance (width * c.count))
          (Feeder.run c)) := by
  rw [feed]
  unfold feederSurroundings
  generalize Surroundings.drive _ (Feeder.run c) _ = driven
  obtain ⟨r, w⟩ := driven
  dsimp only [resumeFeeder]
  cases r.move with
  | reap child next =>
    dsimp only
    generalize run host conditions (host.heir ceiling) (first + 1) [w.accepts child] = runs
    cases runs <;> rfl
  | _ => rfl

theorem resumeFeeder_rest {next : Nat} {r : Feeder.Run} {w : Surroundings}
    (h : r.move = .rest) :
    resumeFeeder host conditions ceiling next (r, w) = concludeFeeder r w [] := by
  rw [resumeFeeder, h]

theorem resumeFeeder_reap {next : Nat} {r : Feeder.Run} {w : Surroundings} {child : Child}
    {after : Except Fault Unit → Feeder.Run} (h : r.move = .reap child after) :
    resumeFeeder host conditions ceiling next (r, w) =
      concludeFeeder r (w.settle child (headVerdict host child.index
        (run host conditions (host.heir ceiling) next [w.accepts child])))
        (run host conditions (host.heir ceiling) next [w.accepts child]) := by
  rw [resumeFeeder, h]

/-- A feeder that has run: what it has sent is what the first stage reads, and it fails if
the first stage does. -/
structure Served (host : Host) (feeder : Conditions) (conditions : Nat → Conditions)
    (ceiling : Option Int32) (first : Nat) (c : Candidates) (fed : Fed) : Prop where
  sent : (Account.ofTrace fed.trace).sent <+: encodeAll c.values
  below : fed.runs = [] ∨ fed.runs = run host conditions (host.heir ceiling) (first + 1)
    [(Account.ofTrace fed.trace).sent]
  failure : fed.result.isOk = true → ∀ r ∈ fed.runs.head?, r.result.isOk = true
  success : fed.result.isOk = true → fed.result = .ok c.count ∧
    (Account.ofTrace fed.trace).sent = encodeAll c.values ∧
    (Account.ofTrace fed.trace).launches = 1 ∧ fed.runs ≠ []
  easy : feeder.Easy → (∀ r ∈ fed.runs.head?, r.result.isOk = true) → fed.result.isOk = true

theorem served_of_finished {r : Feeder.Run} {w : Surroundings} {a : Account}
    {runs : List StageRun} {result : Except Fault Nat} (h : r.Accords c a)
    (hr : r.outcome? = some result) (hw : w.Mirrors [] a)
    (hbelow : runs = [] ∨
      runs = run host conditions (host.heir ceiling) (first + 1) [a.sent])
    (hchild : a.child.isSome = true → runs ≠ [])
    (hfail : a.smooth = true → ∀ r ∈ runs.head?, r.result.isOk = true)
    (heasy : feeder.Easy → (∀ r ∈ runs.head?, r.result.isOk = true) → a.smooth = true) :
    Served host feeder conditions ceiling first c
      { result := r.outcome?.getD (.error stalled), notices := r.notices.toList
        trace := w.trace.toList, runs } := by
  obtain ⟨hok, hall⟩ := Feeder.Run.of_outcome h hr
  have hresult : r.outcome?.getD (.error stalled) = result := by rw [hr]; rfl
  rw [hresult]
  refine ⟨?_, ?_, ?_, ?_, ?_⟩
  · dsimp only
    rw [hw.trace]
    exact Feeder.Run.sent_isPrefix h
  · dsimp only
    rw [hw.trace]
    exact hbelow
  · exact fun h => hfail (hok.symm.trans h)
  · intro h
    obtain ⟨hres, hsent, hk, hn⟩ := hall (hok.symm.trans h)
    dsimp only
    rw [hw.trace]
    exact ⟨hres, hsent, hn, hchild hk⟩
  · exact fun he hb => hok.trans (heasy he hb)

theorem feed_served (hv : ∀ i r, (host.verdict i r).isOk = r.isOk) (hf : feeder.Sensible)
    (hc : ∀ d, (conditions d).Sensible) (ceiling : Option Int32) (first : Nat)
    (c : Candidates) :
    Served host feeder conditions ceiling first c
      (feed host feeder conditions ceiling first c) := by
  have hw := @mirrors_feederSurroundings host feeder first hf
  have heffort : (Feeder.run c).effort ≤ 4 * (width * c.count) + 99 := by
    rw [Feeder.Run.effort_start, width]
    omega
  have hn := stock_le_allowance (feederSurroundings host feeder first) (width * c.count) heffort
  obtain ⟨a, hd, hend⟩ :=
    (Feeder.Run.orderly c).drive_pauses (Feeder.Run.accords_start c) hw hn
  have hpending := hd.pending pending_feederSurroundings
  have heasy := fun h => hd.easy (@easy_feederSurroundings host feeder first h)
  rw [feed_eq]
  generalize (feederSurroundings host feeder first).drive
    ((feederSurroundings host feeder first).allowance (width * c.count)) (Feeder.run c) =
      driven at hd hend hpending heasy ⊢
  obtain ⟨r, w⟩ := driven
  dsimp only at hd hend hpending heasy ⊢
  -- A feeder at rest has been refused its child; all others wait for the first stage.
  rcases hend with hrest | ⟨child, next, hreap, hk, hs, hr⟩
  · obtain ⟨result, hr⟩ := Feeder.Run.finished_of_rest hrest
    have hdrive : ∀ n, w.drive n r = (r, w) := by
      intro n
      cases n with
      | zero => rfl
      | succ n => rw [Surroundings.drive, hrest]; rfl
    rw [resumeFeeder_rest hrest, concludeFeeder, hdrive]
    refine served_of_finished hd.accords hr hd.mirrors (.inl rfl) ?_
      (fun _ below hb => absurd hb (Option.not_mem_none below)) (fun he _ => (heasy he).2)
    intro hk
    have hreaped := Feeder.Run.reaped_of_finished hd.accords hr hk
    rw [hpending.reaped] at hreaped
    cases hreaped
  · have hmove : r.move = .reap child next := hreap
    have hsent : w.accepts child = a.sent := (hd.mirrors.settle hk (.ok ())).2.2.2.1
    rw [resumeFeeder_reap hmove, hsent]
    have hruns := run_consistent hv hc (host.heir ceiling) (first + 1) [a.sent]
    generalize hrun : run host conditions (host.heir ceiling) (first + 1) [a.sent] = runs
      at hruns ⊢
    have hverdict := headVerdict_isOk hv child.index runs
    generalize headVerdict host child.index runs = verdict at hverdict ⊢
    obtain ⟨hw', hend', hstock, -, heasy'⟩ := hd.mirrors.settle hk verdict
    have heffort := Feeder.Run.effort_of_reap hmove
    have hn' := stock_le_allowance (w.settle child verdict) 0
      (Nat.le_trans (Nat.le_of_eq heffort) (by decide))
    obtain ⟨a', hd', hrest, hbad⟩ :=
      (Feeder.Run.orderly c).drive_settled hd.accords hw' hn' hmove hend'
    obtain ⟨result, hres⟩ := Feeder.Run.finished_of_rest hrest
    have hsealed := hd'.sealed hs
    rw [concludeFeeder]
    refine served_of_finished hd'.accords hres hd'.mirrors (.inr ?_) (fun _ => hruns.nonempty)
      ?_ ?_
    · rw [hsealed.2.1, hrun]
    · intro hsm
      rw [← hverdict]
      cases hok : verdict.isOk with
      | true => rfl
      | false =>
        rw [hbad hok] at hsm
        cases hsm
    · intro he hb
      rw [(hd'.easy (heasy' (heasy he).1 (hverdict.2 hb))).2]
      exact (heasy he).2

/-- What there is of a chain below a feeder is consistent with all that the feeder was to
send, of which the first stage may have received less. -/
theorem recorded_feed (hv : ∀ i r, (host.verdict i r).isOk = r.isOk) (hf : feeder.Sensible)
    (hc : ∀ d, (conditions d).Sensible) (ceiling : Option Int32) (first : Nat)
    (c : Candidates) :
    recorded (feed host feeder conditions ceiling first c).runs <+:
      lines (keptUnder host.heir (host.heir ceiling) c.values) := by
  obtain ⟨hsent, hbelow, -, -, -⟩ := feed_served hv hf hc ceiling first c
  rcases hbelow with hnone | hrun
  · rw [hnone]
    exact List.nil_prefix
  · rw [hrun]
    have hcons := run_consistent hv hc (host.heir ceiling) (first + 1)
      [(Account.ofTrace (feed host feeder conditions ceiling first c).trace).sent]
    rw [List.flatten_singleton] at hcons
    have hvalues := values_mono hsent
    rw [values_encodeAll] at hvalues
    exact hcons.recorded.trans (lines_mono (keptUnder_mono hvalues))

/-- What the feeder has delivered: the values that the first stage has received. -/
def Fed.delivered (fed : Fed) : List Int32 :=
  match fed.runs with
  | [] => []
  | r :: _ => values r.account.received

/-- A feeder that succeeds has run a whole chain. -/
theorem feed_succeeds (hv : ∀ i r, (host.verdict i r).isOk = r.isOk) (hf : feeder.Sensible)
    (hc : ∀ d, (conditions d).Sensible)
    (hok : (feed host feeder conditions ceiling first c).result.isOk = true) :
    (∀ r ∈ (feed host feeder conditions ceiling first c).runs, r.result.isOk = true) ∧
      recorded (feed host feeder conditions ceiling first c).runs =
        lines (keptUnder host.heir (host.heir ceiling) c.values) ∧
      launches (feed host feeder conditions ceiling first c).runs =
        (keptUnder host.heir (host.heir ceiling) c.values).length ∧
      (feed host feeder conditions ceiling first c).result = .ok c.count ∧
      (feed host feeder conditions ceiling first c).delivered = c.values ∧
      (Account.ofTrace (feed host feeder conditions ceiling first c).trace).launches = 1 := by
  obtain ⟨-, hbelow, hfail, hsuccess, -⟩ := feed_served hv hf hc ceiling first c
  obtain ⟨hresult, hsent, hn, hne⟩ := hsuccess hok
  have hhead := hfail hok
  have hcons : Consistent host (host.heir ceiling) (encodeAll c.values)
      (feed host feeder conditions ceiling first c).runs := by
    rcases hbelow with hnone | hrun
    · exact absurd hnone hne
    · rw [hrun, hsent]
      have hcons := run_consistent hv hc (host.heir ceiling) (first + 1) [encodeAll c.values]
      rwa [List.flatten_singleton] at hcons
  obtain ⟨hrec, hcount⟩ := hcons.complete hhead
  rw [values_encodeAll] at hrec hcount
  refine ⟨hcons.all_isOk hhead, hrec, hcount, hresult, ?_, hn⟩
  unfold Fed.delivered
  split
  · next hnone => exact absurd hnone hne
  · next r rest hruns =>
    have hr : r ∈ (feed host feeder conditions ceiling first c).runs.head? := by rw [hruns]; rfl
    rw [hcons.delivered r hr (hhead r hr), values_encodeAll]

/-- Where nothing fails, a feeder succeeds. -/
theorem feed_isOk (hv : ∀ i r, (host.verdict i r).isOk = r.isOk) (hf : feeder.Sensible)
    (hc : ∀ d, (conditions d).Sensible) (hef : feeder.Easy) (hec : ∀ d, (conditions d).Easy)
    (ceiling : Option Int32) (first : Nat) (c : Candidates) :
    (feed host feeder conditions ceiling first c).result.isOk = true := by
  obtain ⟨-, hbelow, -, -, heasy⟩ := feed_served hv hf hc ceiling first c
  apply heasy hef
  rcases hbelow with hnone | hrun
  · rw [hnone]
    exact fun below hb => absurd hb (Option.not_mem_none below)
  · rw [hrun]
    exact grow_isOk hv hc hec _ _ 0 _ _

/-- Where nothing fails and a ceiling is passed on as it is, what the sieve keeps is recorded, each
value by a stage that has been launched. -/
theorem feed_faultless (hv : ∀ i r, (host.verdict i r).isOk = r.isOk)
    (hheir : ∀ c, host.heir c = c) (ceiling : Option Int32) (first : Nat) (c : Candidates) :
    let fed := feed host {} (fun _ => {}) ceiling first c
    fed.result = .ok c.count ∧ recorded fed.runs = lines (sieve ceiling c.values) ∧
      launches fed.runs = (sieve ceiling c.values).length ∧
      (Account.ofTrace fed.trace).launches = 1 := by
  intro fed
  have hsensible : ∀ _ : Nat, ({} : Conditions).Sensible := fun _ => Conditions.sensible_default
  have hok : fed.result.isOk = true := feed_isOk hv Conditions.sensible_default hsensible
    Conditions.easy_default (fun _ => Conditions.easy_default) ceiling first c
  obtain ⟨-, hrecorded, hcount, hresult, -, hone⟩ :=
    feed_succeeds hv Conditions.sensible_default hsensible hok
  rw [keptUnder_same hheir, hheir] at hrecorded hcount
  exact ⟨hresult, hrecorded, hcount, hone⟩

/-! ## Crash consistency -/

/-- Whatever fails, in the feeder or around any stage, the record is a beginning of what it
is where nothing fails. A feeder succeeds only if no stage has failed; then the record is
complete and all has been delivered. A failure shows in all stages above it. -/
theorem feed_crash_consistent (hv : ∀ i r, (host.verdict i r).isOk = r.isOk)
    (hf : feeder.Sensible) (hc : ∀ d, (conditions d).Sensible) (ceiling : Option Int32)
    (first : Nat) (c : Candidates) :
    let fed := feed host feeder conditions ceiling first c
    let faultless := feed host {} (fun _ => {}) ceiling first c
    faultless.result = .ok c.count ∧
      recorded fed.runs <+: recorded faultless.runs ∧
      (fed.result.isOk = true → (∀ r ∈ fed.runs, r.result.isOk = true) ∧
        recorded fed.runs = recorded faultless.runs ∧
        fed.result = .ok c.count ∧ fed.delivered = c.values) ∧
      (fed.runs.Pairwise fun upper lower =>
        lower.result.isOk = false → upper.result.isOk = false) ∧
      ∀ r ∈ fed.runs, r.result.isOk = false → fed.result.isOk = false := by
  intro fed faultless
  have hsensible : ∀ _ : Nat, ({} : Conditions).Sensible := fun _ => Conditions.sensible_default
  have hgood : faultless.result.isOk = true :=
    feed_isOk hv Conditions.sensible_default hsensible Conditions.easy_default
      (fun _ => Conditions.easy_default) ceiling first c
  obtain ⟨-, hfull, -, hresult, -, -⟩ :=
    feed_succeeds hv Conditions.sensible_default hsensible hgood
  refine ⟨hresult, ?_, ?_, ?_, ?_⟩
  · rw [hfull]
    exact recorded_feed hv hf hc ceiling first c
  · intro hok
    obtain ⟨hall, hrec, -, hres, hdelivered, -⟩ := feed_succeeds hv hf hc hok
    exact ⟨hall, hrec.trans hfull.symm, hres, hdelivered⟩
  · have hfailure : fed.runs.Pairwise fun upper lower =>
        upper.result.isOk = true → lower.result.isOk = true := by
      rcases (feed_served hv hf hc ceiling first c).below with hnone | hrun
      · rw [hnone]
        exact List.Pairwise.nil
      · rw [hrun]
        exact (run_consistent hv hc _ _ _).failure
    apply hfailure.imp
    intro upper lower himp hlower
    cases hupper : upper.result.isOk with
    | false => rfl
    | true =>
      rw [himp hupper] at hlower
      cases hlower
  · intro r hr hbad
    cases hok : fed.result.isOk with
    | false => rfl
    | true =>
      rw [(feed_succeeds hv hf hc hok).1 r hr] at hbad
      cases hbad

/-- Whoever waits for a thread learns whether its stage has failed. -/
theorem threads_verdict_isOk (i : Nat) (r : Except Fault Stage.Report) :
    (threads.verdict i r).isOk = r.isOk := by
  cases r <;> rfl

/-- The second stage gets nine bytes of its line onto the record, and then no more. -/
theorem feed_crash_consistent_torn_line :
    let conditions : Nat → Conditions := fun d =>
      if d = 1 then { record := { barriers := [⟨9, .zeros none⟩] } } else {}
    (∀ d, (conditions d).Sensible) ∧
      recorded (feed threads {} conditions (some 10) 0 ⟨2, 10⟩).runs <+:
        recorded (feed threads {} (fun _ => {}) (some 10) 0 ⟨2, 10⟩).runs ∧
      ∀ r ∈ (feed threads {} conditions (some 10) 0 ⟨2, 10⟩).runs, r.result.isOk = false →
        (feed threads {} conditions (some 10) 0 ⟨2, 10⟩).result.isOk = false := by
  intro conditions
  have hc : ∀ d, (conditions d).Sensible := by
    intro d
    dsimp only [conditions]
    split
    · refine ⟨(Option.some_ne_none 0).symm, ?_, rfl, rfl⟩
      exact fun _ _ h => absurd h.symm (Option.some_ne_none _)
    · exact Conditions.sensible_default
  obtain ⟨-, hrecorded, -, -, hfailure⟩ :=
    feed_crash_consistent threads_verdict_isOk Conditions.sensible_default hc (some 10) 0 ⟨2, 10⟩
  exact ⟨hc, hrecorded, hfailure⟩

end SieveChain.Chain
