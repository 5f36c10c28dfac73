import SieveChain.Proofs.FedChains
import SieveChain.Proofs.StageResults
import Mathlib.Data.List.Chain

/-!
# Chains in which nothing fails

If the first stage of a chain succeeds, so do all stages below it, and each makes of the values
it reads what its report says. No value is lost between two stages or counted twice: each one that
enters the chain ends in one stage, which takes it for its own or discards it.
-/

namespace SieveChain

open Scripted Wire Record

/-! ## Reports -/

namespace Stage

variable {ceiling : Option Int32} {vs : List Int32} {report : Report} {recorded sent : List UInt8}

/-- A stage that owns no value has found none, or none to begin with that is a candidate. -/
theorem Yields.of_no_prime (h : Yields ceiling vs report recorded sent)
    (hp : report.prime = none) :
    (∀ v ∈ vs.head?, ¬IsCandidate ceiling v) ∧ report = { discarded := vs.length } ∧
      recorded = [] ∧ sent = [] := by
  cases h with
  | nothing => exact ⟨fun v hv => absurd hv (Option.not_mem_none v), rfl, rfl, rfl⟩
  | refused hv =>
    refine ⟨?_, rfl, rfl, rfl⟩
    intro v hmem
    cases hmem
    exact hv
  | owner hc prime forwarded counted =>
    rw [prime] at hp
    cases hp

/-- A stage that owns a value has read it first. -/
theorem Yields.of_prime {p : Int32} (h : Yields ceiling vs report recorded sent)
    (hp : report.prime = some p) :
    ∃ rest, vs = p :: rest ∧ IsCandidate ceiling p ∧ recorded = lineBytes p ∧
      sent = encodeAll (withoutMultiples p rest) ∧
      report.forwarded = (withoutMultiples p rest).length ∧
      report.forwarded + report.discarded = rest.length := by
  cases h with
  | nothing => cases hp
  | refused hv => cases hp
  | @owner q rest _ hc prime forwarded counted =>
    rw [prime] at hp
    cases hp
    refine ⟨rest, rfl, hc, rfl, rfl, forwarded, ?_⟩
    rw [List.length_cons] at counted
    omega

/-- A stage that has succeeded has launched a child exactly if it owns a value. -/
theorem Completed.child {a : Account} (h : Completed ceiling a report) :
    a.child.isSome = report.prime.isSome ∧ a.launches = report.prime.toList.length := by
  cases h with
  | idle h hn hs he hl hv =>
    rw [h.child, hn]
    exact ⟨rfl, rfl⟩
  | owner h hl hr =>
    rw [h.child, h.launches]
    exact ⟨rfl, rfl⟩

end Stage

namespace StageRun

/-- The report of a stage, if its run has succeeded. -/
def report (r : StageRun) : Stage.Report :=
  match r.result with
  | .ok report => report
  | .error _ => {}

/-- A stage that has succeeded under a ceiling, with a stream for its input. -/
structure Succeeds (ceiling : Option Int32) (stream : List UInt8) (r : StageRun) : Prop where
  result : r.result = .ok r.report
  received : r.account.received = stream
  yields : Stage.Yields ceiling (values stream) r.report r.recorded r.account.sent
  launches : r.account.launches = r.report.prime.toList.length

theorem Regular.succeeds {ceiling : Option Int32} {stream : List UInt8} {r : StageRun}
    (h : r.Regular ceiling stream) (hok : r.result.isOk = true) :
    r.Succeeds ceiling stream ∧ r.account.child.isSome = r.report.prime.isSome := by
  have hreceived := h.complete hok
  have hacc := h.accords
  unfold report at *
  cases hres : r.result with
  | error f =>
    rw [hres] at hok
    cases hok
  | ok report =>
    rw [hres] at hacc
    have hdone : Stage.Completed ceiling r.account report := hacc
    have hyields := hdone.yields
    rw [hreceived, ← h.recorded] at hyields
    obtain ⟨hchild, hlaunches⟩ := hdone.child
    have hreport : r.report = report := by rw [StageRun.report, hres]
    exact ⟨⟨by rw [hres, hreport], hreceived, by rwa [hreport], by rwa [hreport]⟩, hchild⟩

end StageRun

namespace Chain

/-! ## Chains whose stages have succeeded -/

/-- The values that the stages of a chain own, from the first stage on. -/
def primes (runs : List StageRun) : List Int32 := runs.flatMap fun r => r.report.prime.toList

/-- A chain whose stages have all succeeded: one that owns a value has a stage below it, which
reads what it has sent. -/
inductive Cascade (heir : Option Int32 → Option Int32) :
    Option Int32 → List UInt8 → List StageRun → Prop
  | last {ceiling : Option Int32} {stream : List UInt8} {r : StageRun}
      (first : r.Succeeds ceiling stream) (prime : r.report.prime = none) :
      Cascade heir ceiling stream [r]
  | stage {ceiling : Option Int32} {stream : List UInt8} {r : StageRun} {rest : List StageRun}
      {p : Int32} (first : r.Succeeds ceiling stream) (prime : r.report.prime = some p)
      (below : Cascade heir (heir ceiling) r.account.sent rest) :
      Cascade heir ceiling stream (r :: rest)

section Cascade

variable {heir : Option Int32 → Option Int32} {ceiling : Option Int32} {stream : List UInt8}
  {runs : List StageRun}

theorem Cascade.head (h : Cascade heir ceiling stream runs) :
    ∃ r rest, runs = r :: rest ∧ r.Succeeds ceiling stream := by
  cases h with
  | last first prime => exact ⟨_, _, rfl, first⟩
  | stage first prime below => exact ⟨_, _, rfl, first⟩

theorem Cascade.result (h : Cascade heir ceiling stream runs) :
    ∀ r ∈ runs, r.result = .ok r.report := by
  induction h with
  | last first prime => exact List.forall_mem_singleton.2 first.result
  | stage first prime below ih => exact List.forall_mem_cons.2 ⟨first.result, ih⟩

/-- Each stage but the last has launched the one below it. -/
theorem Cascade.launches (h : Cascade heir ceiling stream runs) :
    launches runs = (primes runs).length ∧ runs.length = (primes runs).length + 1 := by
  induction h with
  | last first prime =>
    rw [launches_cons, first.launches, primes, List.flatMap_singleton, prime]
    exact ⟨rfl, rfl⟩
  | @stage ceiling stream r rest p first prime below ih =>
    have hprimes : primes (r :: rest) = r.report.prime.toList ++ primes rest := List.flatMap_cons
    rw [launches_cons, hprimes, List.length_append, first.launches, prime, ih.1, List.length_cons,
      ih.2, Option.toList_some, List.length_singleton]
    omega

/-- The values owned are those that the chain keeps of its stream, and their lines are on the
record. -/
theorem Cascade.kept (h : Cascade heir ceiling stream runs) :
    primes runs = keptUnder heir ceiling (values stream) ∧
      recorded runs = lines (primes runs) := by
  induction h with
  | @last ceiling stream r first prime =>
    obtain ⟨hfirst, -, hrecorded, -⟩ := first.yields.of_no_prime prime
    have hkept : keptUnder heir ceiling (values stream) = [] := by
      cases hvs : values stream with
      | nil => rw [keptUnder]
      | cons v vs =>
        rw [keptUnder, if_neg]
        exact hfirst v (by rw [hvs]; rfl)
    have hprimes : primes [r] = [] := by rw [primes, List.flatMap_singleton, prime]; rfl
    rw [hkept, hprimes, recorded_cons, hrecorded]
    exact ⟨rfl, rfl⟩
  | @stage ceiling stream r rest p first prime below ih =>
    obtain ⟨vs, hvs, hp, hrecorded, hsent, -, -⟩ := first.yields.of_prime prime
    have hprimes : primes (r :: rest) = p :: primes rest := by
      rw [primes, List.flatMap_cons, prime]
      rfl
    obtain ⟨hbelow, hlines⟩ := ih
    rw [hsent, values_encodeAll] at hbelow
    constructor
    · rw [hprimes, hvs, keptUnder, if_pos hp, hbelow]
    · rw [hprimes, recorded_cons, hrecorded, hlines]
      rfl

end Cascade

/-! ## Chains that come to that -/

variable {host : Host} {conditions : Nat → Conditions} {ceiling : Option Int32}

theorem grow_cascades (hv : ∀ i r, (host.verdict i r).isOk = r.isOk)
    (hc : ∀ d, (conditions d).Sensible) (next n depth : Nat) (ceiling : Option Int32)
    (chunks : List (List UInt8)) (hn : chunks.flatten.length < n)
    (hok : ∀ r ∈ (grow host conditions next n depth ceiling chunks).head?,
      r.result.isOk = true) :
    Cascade host.heir ceiling chunks.flatten
      (grow host conditions next n depth ceiling chunks) := by
  -- As in `grow_consistent`, `n` lasts because a stage with a child sends less than it receives.
  induction n generalizing depth ceiling chunks with
  | zero => exact absurd hn (Nat.not_lt_zero _)
  | succ n ih =>
    obtain ⟨r, rest, hgrow, hg⟩ := @grow_succ _ _ ceiling hv depth (hc depth) next n chunks
    rw [hgrow] at hok ⊢
    have hr : r.result.isOk = true := hok r rfl
    obtain ⟨hfirst, hchild⟩ := hg.regular.succeeds hr
    rcases hg.below with ⟨hk, hrest⟩ | ⟨hk, hrest⟩
    · rw [hk] at hchild
      rw [hrest]
      exact .last hfirst (Option.isSome_eq_false_iff.1 hchild.symm |> Option.isNone_iff_eq_none.1)
    · have hprime := hk
      rw [hchild] at hprime
      obtain ⟨p, hp⟩ := Option.isSome_iff_exists.1 hprime
      have hflat : [r.account.sent].flatten = r.account.sent := List.flatten_singleton
      have hlt := (Stage.Run.sound hg.regular.accords).length_sent_lt hk
      have hle := hg.regular.received.length_le
      have hbelow := ih (depth + 1) (host.heir ceiling) [r.account.sent] (by rw [hflat]; omega)
        (by rw [← hrest]; exact hg.failure hr)
      rw [hflat, ← hrest] at hbelow
      exact .stage hfirst hp hbelow

/-- Nothing fails in a chain, and whoever waits for a stage learns how its run has ended. -/
structure Faultless (host : Host) (conditions : Nat → Conditions) : Prop where
  verdict : ∀ i r, (host.verdict i r).isOk = r.isOk
  sensible : ∀ d, (conditions d).Sensible
  easy : ∀ d, (conditions d).Easy

theorem threads_faultless : Faultless threads fun _ => {} where
  verdict := threads_verdict_isOk
  sensible := fun _ => Conditions.sensible_default
  easy := fun _ => Conditions.easy_default

theorem Faultless.run_cascades (h : Faultless host conditions) (ceiling : Option Int32)
    (next : Nat) (chunks : List (List UInt8)) :
    Cascade host.heir ceiling chunks.flatten (run host conditions ceiling next chunks) :=
  grow_cascades h.verdict h.sensible next _ 0 ceiling chunks (Nat.lt_succ_self _)
    (grow_isOk h.verdict h.sensible h.easy next _ 0 ceiling chunks)

/-- A feeder above such a chain, if nothing fails for it either, feeds it its whole range. -/
theorem Faultless.feed_cascades (h : Faultless host conditions) {feeder : Conditions}
    (hs : feeder.Sensible) (he : feeder.Easy) (ceiling : Option Int32) (first : Nat)
    (c : Candidates) :
    let fed := feed host feeder conditions ceiling first c
    fed.result = .ok c.count ∧ (Account.ofTrace fed.trace).launches = 1 ∧
      Cascade host.heir (host.heir ceiling) (encodeAll c.values) fed.runs := by
  intro fed
  have hok : fed.result.isOk = true :=
    feed_isOk h.verdict hs h.sensible he h.easy ceiling first c
  obtain ⟨-, hbelow, -, hsuccess, -⟩ := feed_served h.verdict hs h.sensible ceiling first c
  obtain ⟨hresult, hsent, hone, hne⟩ := hsuccess hok
  refine ⟨hresult, hone, ?_⟩
  rcases hbelow with hnone | hrun
  · exact absurd hnone hne
  · rw [hsent] at hrun
    have hcascade := h.run_cascades (host.heir ceiling) (first + 1) [encodeAll c.values]
    rwa [List.flatten_singleton, ← hrun] at hcascade

end Chain

end SieveChain
