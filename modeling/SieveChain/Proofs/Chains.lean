import SieveChain.Chain
import SieveChain.Proofs.Driving
import SieveChain.Proofs.StageConduct

/-!
# Chains of stages

Each stage of a chain receives a beginning of what its parent has sent, and all of it if
its run succeeds; the parent's run fails if that of the stage does. So whatever goes wrong
around the stages, the lines on their record are a beginning of those for the values that
the sieve keeps, and they are all of them if the first stage succeeds.
-/

namespace SieveChain

open Scripted Wire Record

/-- Conditions in which anything may fail but nothing is made up: a read that is due brings
something, or fails for good, and the sinks have taken nothing before. -/
structure Conditions.Sensible (c : Conditions) : Prop where
  perRead : c.perRead ≠ some 0
  readFault : ∀ n e, c.readFault = some (n, e) → e.isInterrupted = false
  record : c.record.accepted = #[]
  channel : c.channel.accepted = #[]

/-- Conditions in which nothing fails. -/
structure Conditions.Easy (c : Conditions) : Prop where
  readFault : c.readFault = none
  record : c.record.Easy
  refusal : c.refusal = none
  channel : c.channel.Easy

theorem Conditions.sensible_default : ({} : Conditions).Sensible :=
  ⟨(Option.some_ne_none 0).symm, fun _ _ h => absurd h.symm (Option.some_ne_none _), rfl, rfl⟩

theorem Conditions.easy_default : ({} : Conditions).Easy :=
  ⟨rfl, Sink.easy_default, rfl, Sink.easy_default⟩

namespace StageRun

/-- The account of a stage that has run. -/
def account (r : StageRun) : Account := Account.ofTrace r.trace

/-- A run under a ceiling on a stream: it has received a beginning of the stream, all of it
if it succeeds. -/
structure Regular (ceiling : Option Int32) (stream : List UInt8) (r : StageRun) : Prop where
  accords : (Stage.Run.finished r.stage r.result).Accords ceiling r.account
  recorded : r.recorded = r.account.recorded
  received : r.account.received <+: stream
  complete : r.result.isOk = true → r.account.received = stream

end StageRun

namespace Chain

/-- The surroundings in which a stage of a chain begins. -/
def surroundings (host : Host) (here : Conditions) (below : Nat) (chunks : List (List UInt8)) :
    Surroundings :=
  { source := here.deliver chunks, record := here.record, first := below,
    launches := [here.launch (host.label below)] }

section Surroundings

variable (host : Host) {here : Conditions} (below : Nat) (chunks : List (List UInt8))

theorem mirrors_surroundings (h : here.Sensible) :
    (surroundings host here below chunks).Mirrors chunks.flatten {} where
  trace := rfl
  record := by
    show here.record.accepted.toList = []
    rw [h.record]
  script := by
    show Surroundings.Script chunks.flatten {} (here.deliver chunks).items
    rw [Conditions.deliver]
    dsimp only
    split
    · exact .whole (List.nil_append _) fun he => absurd he Bool.false_ne_true
    · next n e hfault => exact .cut (List.take_prefix n _) rfl (h.readFault n e hfault)
  perRead := h.perRead
  link := .none rfl rfl
  fresh := by
    intro s hs
    have hs : Launch.started s = here.launch (host.label below) := List.mem_singleton.1 hs
    unfold Conditions.launch at hs
    split at hs
    · cases hs
    · cases hs
      exact h.channel

theorem pending_surroundings : (surroundings host here below chunks).Pending {} where
  channels := fun s hs => absurd hs (Array.not_mem_empty s)
  launches := by
    intro _
    refine ⟨_, rfl, ?_⟩
    intro s hs
    unfold Conditions.launch at hs
    split at hs
    · cases hs
    · cases hs
      rfl
  reaped := rfl

theorem easy_surroundings (h : here.Easy) : (surroundings host here below chunks).Easy where
  source := by
    refine ⟨chunks, ?_⟩
    show (here.deliver chunks).items = _
    rw [Conditions.deliver, h.readFault]
  record := h.record
  launches := by
    intro l hl
    have hl : l = here.launch (host.label below) := List.mem_singleton.1 hl
    rw [Conditions.launch, h.refusal] at hl
    exact ⟨_, hl, h.channel, fun _ => (Option.some_ne_none _).symm⟩
  channels := fun s hs => absurd hs (Array.not_mem_empty s)

end Surroundings

theorem stock_le_allowance (w : Surroundings) (inHand : Nat) {effort : Nat}
    (h : effort ≤ 4 * inHand + 99) : effort + w.stock < w.allowance inHand := by
  rw [Surroundings.stock, Surroundings.allowance]
  omega

/-! ## One stage of a chain -/

variable {host : Host} {conditions : Nat → Conditions} {ceiling : Option Int32}
  {stream : List UInt8} {w : Surroundings} {a : Account}

theorem account_eq {s : Stage} {result : Except Fault Stage.Report} (hw : w.Mirrors stream a) :
    ({ stage := s, result, surroundings := w } : StageRun).account = a := hw.trace

theorem regular_of_finished {s : Stage} {result : Except Fault Stage.Report}
    (h : (Stage.Run.finished s result).Accords ceiling a) (hw : w.Mirrors stream a) :
    ({ stage := s, result, surroundings := w } : StageRun).Regular ceiling stream where
  accords := by rw [account_eq hw]; exact h
  recorded := by rw [account_eq hw]; exact hw.record
  received := by rw [account_eq hw]; exact hw.script.received
  complete := by
    intro hok
    rw [account_eq hw]
    refine hw.script.complete ((Stage.Run.isOk_of_finished h).symm.trans hok) ?_
    cases result with
    | ok report => exact (Stage.Completed.fulfilled h).ended
    | error f => cases hok

theorem conclude_eq {r : Stage.Run} {s : Stage} {result : Except Fault Stage.Report}
    (h : (w.drive (w.allowance Outbox.capacity) r).1 = .finished s result) :
    conclude r w =
      { stage := s, result, surroundings := (w.drive (w.allowance Outbox.capacity) r).2 } := by
  rw [conclude]
  dsimp only
  rw [h]
  rfl

theorem drive_finished (s : Stage) (result : Except Fault Stage.Report) (n : Nat) :
    w.drive n (Stage.Run.finished s result) = (.finished s result, w) := by
  cases n <;> rfl

/-- What becomes of a stage that learns the end of its child from the run of the latter. -/
theorem conclude_settled {r : Stage.Run} {child : Child} {next : Except Fault Unit → Stage.Run}
    (h : r.Accords ceiling a) (hw : w.Mirrors stream a) (hm : r.move = .reap child next)
    (hk : a.child = some child) (hs : a.shut = true) (verdict : Except Fault Unit) :
    (conclude r (w.settle child verdict)).Regular ceiling stream ∧
      (conclude r (w.settle child verdict)).account.child.isSome = true ∧
      (conclude r (w.settle child verdict)).account.sent = a.sent ∧
      (verdict.isOk = false → (conclude r (w.settle child verdict)).result.isOk = false) ∧
      (w.Easy → a.smooth = true → verdict.isOk = true →
        (conclude r (w.settle child verdict)).result.isOk = true) := by
  obtain ⟨hw', hend, hstock, -, heasy⟩ := hw.settle hk verdict
  have heffort := Stage.Run.effort_of_reap hm
  have hn := stock_le_allowance (w.settle child verdict) Outbox.capacity
    (Nat.le_trans heffort (by decide))
  obtain ⟨a', hd, hrest, hbad⟩ :=
    (Stage.Run.orderly ceiling).drive_settled h hw' hn hm hend
  obtain ⟨s, result, hfin⟩ := Stage.Run.finished_of_rest hrest
  rw [conclude_eq hfin]
  have hacc := hd.accords
  rw [hfin] at hacc
  have hok := Stage.Run.isOk_of_finished hacc
  refine ⟨regular_of_finished hacc hd.mirrors, ?_, ?_, ?_, ?_⟩
  · rw [account_eq hd.mirrors, (hd.sealed hs).2.2.2, hk]
    rfl
  · rw [account_eq hd.mirrors]
    exact (hd.sealed hs).2.1
  · intro hv
    dsimp only
    rw [hok, hbad hv]
  · intro he hsm hv
    dsimp only
    rw [hok, (hd.easy (heasy he hv)).2]
    exact hsm

/-- The verdict on the first stage of a chain. -/
def headVerdict (host : Host) (index : Nat) : List StageRun → Except Fault Unit
  | [] => .ok ()
  | r :: _ => host.verdict index r.result

theorem headVerdict_isOk (hv : ∀ i r, (host.verdict i r).isOk = r.isOk) (index : Nat)
    (runs : List StageRun) :
    (headVerdict host index runs).isOk = true ↔ ∀ below ∈ runs.head?, below.result.isOk = true := by
  cases runs with
  | nil => exact ⟨fun _ below hb => absurd hb (Option.not_mem_none below), fun _ => rfl⟩
  | cons r runs =>
    rw [headVerdict, hv]
    constructor
    · rintro h below hb
      cases hb
      exact h
    · exact fun h => h r rfl

/-- What becomes of a stage that rests, or waits for the chain below it. -/
def resume (host : Host) (conditions : Nat → Conditions) (next n depth : Nat)
    (ceiling : Option Int32) : Stage.Run × Surroundings → List StageRun
  | (r, w) =>
    match r.move with
    | .reap child _ =>
      let rest := grow host conditions next n (depth + 1) (host.heir ceiling) [w.accepts child]
      conclude r (w.settle child (headVerdict host child.index rest)) :: rest
    | _ => [conclude r w]

theorem grow_eq (next n depth : Nat) (chunks : List (List UInt8)) :
    grow host conditions next (n + 1) depth ceiling chunks =
      resume host conditions next n depth ceiling
        ((surroundings host (conditions depth) (next + depth) chunks).drive
          ((surroundings host (conditions depth) (next + depth) chunks).allowance Outbox.capacity)
          (Stage.Run.start (Stage.new ceiling))) := by
  rw [grow]
  unfold surroundings
  generalize Surroundings.drive _ (Stage.Run.start (Stage.new ceiling)) _ = driven
  obtain ⟨r, w⟩ := driven
  dsimp only [resume]
  cases r.move with
  | reap child next' =>
    dsimp only
    generalize grow host conditions next n (depth + 1) (host.heir ceiling) [w.accepts child] = rest
    cases rest <;> rfl
  | _ => rfl

theorem resume_rest {next n depth : Nat} {r : Stage.Run} (h : r.move = .rest) :
    resume host conditions next n depth ceiling (r, w) = [conclude r w] := by
  rw [resume, h]

theorem resume_reap {next n depth : Nat} {r : Stage.Run} {child : Child}
    {after : Except Fault Unit → Stage.Run} (h : r.move = .reap child after) :
    resume host conditions next n depth ceiling (r, w) =
      conclude r (w.settle child (headVerdict host child.index
        (grow host conditions next n (depth + 1) (host.heir ceiling) [w.accepts child]))) ::
      grow host conditions next n (depth + 1) (host.heir ceiling) [w.accepts child] := by
  rw [resume, h]

/-- A stage of a chain and the chain below it: the latter reads what the former has sent, and
the former fails if the first stage of the latter does. -/
structure Grown (host : Host) (conditions : Nat → Conditions) (next n depth : Nat)
    (ceiling : Option Int32) (stream : List UInt8) (r : StageRun) (rest : List StageRun) :
    Prop where
  regular : r.Regular ceiling stream
  below : (r.account.child = none ∧ rest = []) ∨
    (r.account.child.isSome = true ∧ rest =
      grow host conditions next n (depth + 1) (host.heir ceiling) [r.account.sent])
  failure : r.result.isOk = true → ∀ below ∈ rest.head?, below.result.isOk = true
  easy : (conditions depth).Easy → (∀ below ∈ rest.head?, below.result.isOk = true) →
    r.result.isOk = true

/-- The first stage of a chain, and the chain below it. -/
theorem grow_succ (hv : ∀ i r, (host.verdict i r).isOk = r.isOk) {depth : Nat}
    (hc : (conditions depth).Sensible) (next n : Nat) (chunks : List (List UInt8)) :
    ∃ r rest, grow host conditions next (n + 1) depth ceiling chunks = r :: rest ∧
      Grown host conditions next n depth ceiling chunks.flatten r rest := by
  have hw := mirrors_surroundings host (next + depth) chunks hc
  have hn := stock_le_allowance (surroundings host (conditions depth) (next + depth) chunks)
    Outbox.capacity (Nat.le_trans (Nat.le_of_eq (Stage.Run.effort_start ceiling)) (by decide))
  obtain ⟨a, hd, hend⟩ :=
    (Stage.Run.orderly ceiling).drive_pauses (Stage.Run.accords_start ceiling) hw hn
  have hpending := hd.pending (pending_surroundings host (next + depth) chunks)
  have heasy := fun h => hd.easy (easy_surroundings host (next + depth) chunks h)
  rw [grow_eq]
  generalize (surroundings host (conditions depth) (next + depth) chunks).drive
    ((surroundings host (conditions depth) (next + depth) chunks).allowance Outbox.capacity)
    (Stage.Run.start (Stage.new ceiling)) = driven at hd hend hpending heasy ⊢
  obtain ⟨r, w⟩ := driven
  dsimp only at hd hend hpending heasy ⊢
  -- A stage at rest has no child, for a child keeps it waiting.
  rcases hend with hrest | ⟨child, next', hreap, hk, hs, hr⟩
  · obtain ⟨s, result, rfl⟩ := Stage.Run.finished_of_rest hrest
    have hfin : conclude (.finished s result) w = { stage := s, result, surroundings := w } := by
      rw [conclude, drive_finished]
      rfl
    refine ⟨_, [], by rw [resume_rest hrest, hfin], regular_of_finished hd.accords hd.mirrors,
      .inl ⟨?_, rfl⟩, fun _ below hb => absurd hb (Option.not_mem_none below), ?_⟩
    · rw [account_eq hd.mirrors]
      cases hk : a.child with
      | none => rfl
      | some child =>
        have hreaped := Stage.Run.reaped_of_finished hd.accords (by rw [hk]; rfl)
        rw [hpending.reaped] at hreaped
        cases hreaped
    · intro he _
      rw [Stage.Run.isOk_of_finished hd.accords, (heasy he).2]
  · have hmove : r.move = .reap child next' := hreap
    have hsent : w.accepts child = a.sent := (hd.mirrors.settle hk (.ok ())).2.2.2.1
    refine ⟨_, _, resume_reap hmove, ?_⟩
    obtain ⟨hreg, hchild, hsent', hbad, hgood⟩ := conclude_settled hd.accords hd.mirrors hmove hk hs
      (headVerdict host child.index
        (grow host conditions next n (depth + 1) (host.heir ceiling) [w.accepts child]))
    refine ⟨hreg, .inr ⟨hchild, by rw [hsent', hsent]⟩, ?_, ?_⟩
    · intro hok
      rw [← headVerdict_isOk hv child.index]
      cases hverdict : (headVerdict host child.index
        (grow host conditions next n (depth + 1) (host.heir ceiling) [w.accepts child])).isOk with
      | true => rfl
      | false =>
        rw [hbad hverdict] at hok
        cases hok
    · intro he hbelow
      exact hgood (heasy he).1 ((heasy he).2) ((headVerdict_isOk hv child.index _).2 hbelow)

/-! ## Whole chains -/

/-- A stage keeps its own value, and the chain below it sieves what it hands on. -/
theorem keptUnder_step (heir : Option Int32 → Option Int32) (ceiling : Option Int32)
    (vs : List Int32) :
    keptUnder heir ceiling vs =
      (Stage.owned? ceiling vs).toList ++
        keptUnder heir (heir ceiling) (Stage.handedOn ceiling vs) := by
  cases vs with
  | nil => rw [Stage.owned?, Stage.handedOn, keptUnder, keptUnder]; rfl
  | cons v vs =>
    rw [Stage.owned?, Stage.handedOn]
    cases hv : Stage.accepts ceiling v with
    | true =>
      rw [keptUnder_of_accepts hv, if_pos rfl, if_pos rfl]
      rfl
    | false =>
      rw [keptUnder_of_not_accepts hv, if_neg Bool.false_ne_true, if_neg Bool.false_ne_true,
        keptUnder]
      rfl

theorem lines_keptUnder (heir : Option Int32 → Option Int32) (ceiling : Option Int32)
    (vs : List Int32) :
    lines (keptUnder heir ceiling vs) =
      Stage.ownLine ceiling vs ++
        lines (keptUnder heir (heir ceiling) (Stage.handedOn ceiling vs)) := by
  rw [keptUnder_step, lines, List.flatMap_append, lines, Stage.ownLine]
  cases Stage.owned? ceiling vs with
  | none => rfl
  | some p => rw [Option.toList_some, List.flatMap_singleton]

/-- The stages that the runs of a chain have launched. -/
def launches (runs : List StageRun) : Nat := (runs.map fun r => r.account.launches).sum

/-- Whatever has happened to a chain, its record is a beginning of the lines for the values
kept, and all of them if no failure shows at the first stage; and failures show there. -/
structure Consistent (host : Host) (ceiling : Option Int32) (stream : List UInt8)
    (runs : List StageRun) : Prop where
  nonempty : runs ≠ []
  recorded : Chain.recorded runs <+: lines (keptUnder host.heir ceiling (values stream))
  failure : runs.Pairwise fun upper lower => upper.result.isOk = true → lower.result.isOk = true
  delivered : ∀ r ∈ runs.head?, r.result.isOk = true → r.account.received = stream
  complete : (∀ r ∈ runs.head?, r.result.isOk = true) →
    Chain.recorded runs = lines (keptUnder host.heir ceiling (values stream)) ∧
      launches runs = (keptUnder host.heir ceiling (values stream)).length

/-- If the first stage has succeeded, so have all others. -/
theorem Consistent.all_isOk {runs : List StageRun} (h : Consistent host ceiling stream runs)
    (hok : ∀ r ∈ runs.head?, r.result.isOk = true) : ∀ r ∈ runs, r.result.isOk = true := by
  cases runs with
  | nil => exact fun r hr => absurd hr List.not_mem_nil
  | cons first runs =>
    intro r hr
    rcases List.mem_cons.1 hr with rfl | hr
    · exact hok r rfl
    · exact (List.pairwise_cons.1 h.failure).1 r hr (hok first rfl)

theorem recorded_cons (r : StageRun) (runs : List StageRun) :
    Chain.recorded (r :: runs) = r.recorded ++ Chain.recorded runs := List.flatMap_cons

theorem launches_cons (r : StageRun) (runs : List StageRun) :
    launches (r :: runs) = r.account.launches + launches runs := List.sum_cons

/-- A stage without a child is a chain of its own. -/
theorem consistent_single {r : StageRun} (h : r.Regular ceiling stream)
    (hk : r.account.child = none) : Consistent host ceiling stream [r] where
  nonempty := List.cons_ne_nil _ _
  recorded := by
    rw [recorded_cons, lines_keptUnder, h.recorded]
    show r.account.recorded ++ [] <+: _
    rw [List.append_nil]
    exact ((Stage.Run.sound h.accords).recorded.trans
      (Stage.ownLine_mono (values_mono h.received))).trans (List.prefix_append _ _)
  failure := List.pairwise_singleton _ _
  delivered := by
    intro first hfirst
    cases hfirst
    exact h.complete
  complete := by
    intro hok
    have hok := hok r rfl
    have hf := Stage.Run.fulfilled h.accords hok
    have hown := hf.child
    have hn := hf.launches
    have hrec := hf.recorded
    rw [hk] at hown
    rw [h.complete hok] at hown hn hrec
    have hidle : Stage.owned? ceiling (values stream) = none :=
      Option.isSome_eq_false_iff.1 hown.symm |> Option.isNone_iff_eq_none.1
    have hkept : keptUnder host.heir ceiling (values stream) = [] := by
      rw [keptUnder_step, hidle, Stage.handedOn_idle hidle, keptUnder]
      rfl
    rw [hidle] at hn
    rw [Stage.ownLine_idle hidle] at hrec
    rw [recorded_cons, launches_cons, h.recorded, hrec, hkept, hn]
    exact ⟨rfl, rfl⟩

/-- A stage with a child, and the chain that begins with the latter. -/
theorem consistent_cons {r : StageRun} {rest : List StageRun} (h : r.Regular ceiling stream)
    (hk : r.account.child.isSome = true)
    (hrest : Consistent host (host.heir ceiling) r.account.sent rest)
    (hfail : r.result.isOk = true → ∀ below ∈ rest.head?, below.result.isOk = true) :
    Consistent host ceiling stream (r :: rest) where
  nonempty := List.cons_ne_nil _ _
  recorded := by
    have hsound := Stage.Run.sound h.accords
    have hvalues := values_mono h.received
    have hsent := values_mono hsound.sent
    rw [values_encodeAll] at hsent
    have hbelow := hrest.recorded.trans (lines_mono (keptUnder_mono
      (hsent.trans (Stage.handedOn_mono hvalues))))
    have hown := Stage.ownLine_of_isPrefix hvalues (hsound.owner hk)
    rw [recorded_cons, lines_keptUnder, h.recorded]
    by_cases hs : r.account.sent = []
    · have hnone : Chain.recorded rest = [] := by
        have hempty := hrest.recorded
        rw [hs] at hempty
        change Chain.recorded rest <+: lines (keptUnder host.heir _ []) at hempty
        rw [keptUnder] at hempty
        exact List.prefix_nil.1 hempty
      rw [hnone, List.append_nil, ← hown]
      exact hsound.recorded.trans (List.prefix_append _ _)
    · rw [hsound.order hs, hown]
      exact (List.prefix_append_right_inj _).2 hbelow
  failure := by
    refine List.pairwise_cons.2 ⟨fun lower hl hok => ?_, hrest.failure⟩
    exact hrest.all_isOk (hfail hok) lower hl
  delivered := by
    intro first hfirst
    cases hfirst
    exact h.complete
  complete := by
    intro hok
    have hok := hok r rfl
    have hf := Stage.Run.fulfilled h.accords hok
    have hn := hf.launches
    have hrec := hf.recorded
    have hsent := hf.sent
    rw [h.complete hok] at hn hrec hsent
    obtain ⟨hbelow, hcount⟩ := hrest.complete (hfail hok)
    rw [hsent, values_encodeAll] at hbelow hcount
    constructor
    · rw [recorded_cons, lines_keptUnder, h.recorded, hrec, hbelow]
    · rw [launches_cons, hcount, keptUnder_step host.heir ceiling, List.length_append, hn]

theorem grow_consistent (hv : ∀ i r, (host.verdict i r).isOk = r.isOk)
    (hc : ∀ d, (conditions d).Sensible) (next n depth : Nat) (ceiling : Option Int32)
    (chunks : List (List UInt8)) (hn : chunks.flatten.length < n) :
    Consistent host ceiling chunks.flatten
      (grow host conditions next n depth ceiling chunks) := by
  -- A stage with a child sends less than it receives, so `n` lasts to the end of the chain.
  induction n generalizing depth ceiling chunks with
  | zero => exact absurd hn (Nat.not_lt_zero _)
  | succ n ih =>
    obtain ⟨r, rest, hgrow, hg⟩ := @grow_succ _ _ ceiling hv depth (hc depth) next n chunks
    rw [hgrow]
    rcases hg.below with ⟨hk, hrest⟩ | ⟨hk, hrest⟩
    · rw [hrest]
      exact consistent_single hg.regular hk
    · have hflat : [r.account.sent].flatten = r.account.sent := List.flatten_singleton
      have hlt := (Stage.Run.sound hg.regular.accords).length_sent_lt hk
      have hle := hg.regular.received.length_le
      have hih := ih (depth + 1) (host.heir ceiling) [r.account.sent] (by rw [hflat]; omega)
      rw [hflat, ← hrest] at hih
      exact consistent_cons hg.regular hk hih hg.failure

theorem run_consistent (hv : ∀ i r, (host.verdict i r).isOk = r.isOk)
    (hc : ∀ d, (conditions d).Sensible) (ceiling : Option Int32) (next : Nat)
    (chunks : List (List UInt8)) :
    Consistent host ceiling chunks.flatten (run host conditions ceiling next chunks) :=
  grow_consistent hv hc next _ 0 ceiling chunks (Nat.lt_succ_self _)

/-- Where nothing fails, the first stage of a chain succeeds. -/
theorem grow_isOk (hv : ∀ i r, (host.verdict i r).isOk = r.isOk)
    (hc : ∀ d, (conditions d).Sensible) (he : ∀ d, (conditions d).Easy) (next n depth : Nat)
    (ceiling : Option Int32) (chunks : List (List UInt8)) :
    ∀ r ∈ (grow host conditions next n depth ceiling chunks).head?, r.result.isOk = true := by
  induction n generalizing depth ceiling chunks with
  | zero => exact fun r hr => absurd hr (Option.not_mem_none r)
  | succ n ih =>
    obtain ⟨r, rest, hgrow, hg⟩ := @grow_succ _ _ ceiling hv depth (hc depth) next n chunks
    have hok : r.result.isOk = true := by
      apply hg.easy (he depth)
      rcases hg.below with ⟨-, hrest⟩ | ⟨-, hrest⟩
      · rw [hrest]
        exact fun below hb => absurd hb (Option.not_mem_none below)
      · rw [hrest]
        exact ih (depth + 1) _ _
    rw [hgrow]
    intro first hfirst
    cases hfirst
    exact hok

end Chain

end SieveChain
