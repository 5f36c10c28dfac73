import SieveChain.Proofs.Cascades
import SieveChain.Proofs.Threads

/-!
# What a ceiling takes away

A stage under a ceiling gives up at the first value that reaches it. Where values do not descend
all those behind it reach it as well, so a ceiling takes away those values and no others; and where
all values are below it, it takes away nothing.
-/

namespace SieveChain

open Scripted Wire Record

/-- No value is smaller than one before it. -/
abbrev NonDescending (vs : List Int32) : Prop := vs.Pairwise fun v w => v.toInt ≤ w.toInt

theorem isCandidate_some_iff {c v : Int32} :
    IsCandidate (some c) v ↔ IsCandidate none v ∧ v.toInt < c.toInt := by
  constructor
  · rintro ⟨htwo, hc⟩
    exact ⟨⟨htwo, fun _ h => absurd h (Option.not_mem_none _)⟩, hc c rfl⟩
  · rintro ⟨⟨htwo, -⟩, hc⟩
    refine ⟨htwo, ?_⟩
    intro top ht
    cases ht
    exact hc

/-- Of values that do not descend a ceiling keeps those below it. -/
theorem sieve_some_eq_filter (c : Int32) {vs : List Int32} (h : NonDescending vs) :
    sieve (some c) vs = (sieve none vs).filter fun v => v.toInt < c.toInt := by
  fun_induction sieve (some c) vs with
  | case1 => rw [sieve, List.filter_nil]
  | case2 v vs hv ih =>
    obtain ⟨hfree, hlt⟩ := isCandidate_some_iff.1 hv
    have hrest : NonDescending (withoutMultiples v vs) := (List.pairwise_cons.1 h).2.filter _
    rw [sieve, if_pos hfree, List.filter_cons, if_pos (decide_eq_true hlt), ih hrest]
  | case3 v vs hv =>
    symm
    apply List.filter_eq_nil_iff.2
    intro w hw hlt
    have hlt : w.toInt < c.toInt := of_decide_eq_true hlt
    by_cases hfree : IsCandidate none v
    · -- The first value has reached the ceiling, and `w` is no smaller.
      have hle : v.toInt ≤ w.toInt := by
        rcases List.mem_cons.1 ((sieve_sublist none (v :: vs)).subset hw) with rfl | hmem
        · exact Int.le_refl _
        · exact (List.pairwise_cons.1 h).1 w hmem
      apply hv
      exact isCandidate_some_iff.2 ⟨hfree, by omega⟩
    · rw [sieve, if_neg hfree] at hw
      exact List.not_mem_nil hw

namespace Chain

variable {host : Host} {conditions : Nat → Conditions} {heir : Option Int32 → Option Int32}
  {ceiling : Option Int32} {stream : List UInt8} {runs : List StageRun}

/-- Where all values that enter a chain are candidates, none of its stages turns one away. -/
theorem Cascade.all_owned (hheir : ∀ c, heir c = c) (h : Cascade heir ceiling stream runs)
    {vs : List Int32} (hvs : stream = encodeAll vs) (hc : ∀ v ∈ vs, IsCandidate ceiling v) :
    ∀ r ∈ runs, r.report.prime.isSome = true ∨ r.account.received = [] ∧ r.report = {} := by
  induction h generalizing vs with
  | @last ceiling stream r first prime =>
    obtain ⟨hfirst, hreport, -, -⟩ := first.yields.of_no_prime prime
    rw [hvs, values_encodeAll] at hfirst hreport
    have hnone : vs = [] := by
      cases vs with
      | nil => rfl
      | cons v vs => exact absurd (hc v List.mem_cons_self) (hfirst v rfl)
    subst hnone
    rw [List.forall_mem_singleton, first.received, hvs]
    exact .inr ⟨rfl, hreport⟩
  | @stage ceiling stream r rest p first prime below ih =>
    obtain ⟨rest', hrest', -, -, hsent, -, -⟩ := first.yields.of_prime prime
    rw [hvs, values_encodeAll] at hrest'
    subst hrest'
    refine List.forall_mem_cons.2 ⟨.inl (by rw [prime]; rfl), ih hsent ?_⟩
    intro v hv
    rw [hheir]
    exact hc v (List.mem_cons_of_mem p (List.mem_filter.1 hv).1)

/-- What is fed of a configuration that may be sieved are candidates under its ceiling. -/
theorem isCandidate_of_mem_candidates {config : Config} (hvalid : config.validate = .ok ())
    {v : Int32} (hv : v ∈ config.candidates.values) : IsCandidate (some config.ceiling) v := by
  have hlow := (Threads.validate_iff config).1 hvalid
  have hstop := Threads.toInt_stop config
  have hstart : config.candidates.start = config.low := rfl
  rw [Candidates.mem_values, hstop, hstart] at hv
  refine ⟨by omega, ?_⟩
  intro top ht
  cases ht
  rw [Config.ceiling]
  omega

/-- A chain fed with the candidates of a configuration, under its ceiling or under none. -/
structure WellFed (config : Config) (fed : Fed) : Prop where
  result : fed.result = .ok config.candidates.count
  recorded : recorded fed.runs = lines (sieve none config.candidates.values)
  launches : (Account.ofTrace fed.trace).launches + launches fed.runs =
    (sieve none config.candidates.values).length + 1
  stages : fed.runs.length = (sieve none config.candidates.values).length + 1
  owned : ∀ r ∈ fed.runs, r.result = .ok r.report ∧
    (r.report.prime.isSome = true ∨ r.account.received = [] ∧ r.report = {})

theorem Faultless.wellFed (h : Faultless host conditions) (hheir : ∀ c, host.heir c = c)
    {feeder : Conditions} (hs : feeder.Sensible) (he : feeder.Easy) (first : Nat)
    {config : Config} (hvalid : config.validate = .ok ()) {ceiling : Option Int32}
    (hceiling : ceiling = none ∨ ceiling = some config.ceiling) :
    WellFed config (feed host feeder conditions ceiling first config.candidates) := by
  obtain ⟨hresult, hone, hcascade⟩ := h.feed_cascades hs he ceiling first config.candidates
  rw [hheir] at hcascade
  have hcandidates : ∀ v ∈ config.candidates.values, IsCandidate ceiling v := by
    intro v hv
    have hv := isCandidate_of_mem_candidates hvalid hv
    rcases hceiling with rfl | rfl
    · exact (isCandidate_some_iff.1 hv).1
    · exact hv
  have hsieve : sieve ceiling config.candidates.values = sieve none config.candidates.values := by
    rcases hceiling with rfl | rfl
    · rfl
    · rw [sieve_some_eq_filter _ ((Candidates.ascending_values _).imp Int.le_of_lt)]
      apply List.filter_eq_self.2
      intro v hv
      have hmem := (sieve_sublist none _).subset hv
      exact decide_eq_true (isCandidate_some_iff.1 (hcandidates v hmem)).2
  obtain ⟨hprimes, hrecorded⟩ := hcascade.kept
  obtain ⟨hlaunches, hlength⟩ := hcascade.launches
  rw [keptUnder_same hheir, values_encodeAll, hsieve] at hprimes
  rw [hprimes] at hrecorded hlaunches hlength
  refine ⟨hresult, hrecorded, ?_, hlength, ?_⟩
  · rw [hone, hlaunches]
    omega
  · intro r hr
    exact ⟨hcascade.result r hr, hcascade.all_owned hheir rfl hcandidates r hr⟩

/-- Where values that do not descend enter a chain, a ceiling takes away the primes that reach it
and no others. So the candidates of a configuration that may be sieved give the same under its
ceiling as under none: the same record, as many stages launched, as many values fed, and no stage
that turns a value away. -/
theorem ceiling_truncates (h : Faultless host conditions) (hheir : ∀ c, host.heir c = c) :
    (∀ (c : Int32) (next : Nat) (chunks : List (List UInt8)),
      NonDescending (values chunks.flatten) →
      let below := run host conditions (some c) next chunks
      let unbounded := run host conditions none next chunks
      recorded below = lines (primes below) ∧ recorded unbounded = lines (primes unbounded) ∧
        primes below = (primes unbounded).filter fun v => v.toInt < c.toInt) ∧
    ∀ (config : Config) (feeder : Conditions) (first : Nat), config.validate = .ok () →
      feeder.Sensible → feeder.Easy →
      let below := feed host feeder conditions (some config.ceiling) first config.candidates
      let unbounded := feed host feeder conditions none first config.candidates
      recorded below.runs = recorded unbounded.runs ∧
        (Account.ofTrace below.trace).launches + launches below.runs =
          (Account.ofTrace unbounded.trace).launches + launches unbounded.runs ∧
        below.runs.length = unbounded.runs.length ∧
        below.result = .ok config.candidates.count ∧
        unbounded.result = .ok config.candidates.count ∧
        ∀ r ∈ below.runs, r.result = .ok r.report ∧
          (r.report.prime.isSome = true ∨ r.account.received = [] ∧ r.report = {}) := by
  constructor
  · intro c next chunks hvs
    obtain ⟨hbelow, hlines⟩ := (h.run_cascades (some c) next chunks).kept
    obtain ⟨hunbounded, hlines'⟩ := (h.run_cascades none next chunks).kept
    refine ⟨hlines, hlines', ?_⟩
    rw [hbelow, hunbounded, keptUnder_same hheir, keptUnder_same hheir]
    exact sieve_some_eq_filter c hvs
  · intro config feeder first hvalid hs he
    have hbelow := h.wellFed hheir hs he first hvalid (.inr rfl)
    have hunbounded := h.wellFed hheir hs he first hvalid (.inl rfl)
    refine ⟨?_, ?_, ?_, hbelow.result, hunbounded.result, hbelow.owned⟩
    · rw [hbelow.recorded, hunbounded.recorded]
    · rw [hbelow.launches, hunbounded.launches]
    · rw [hbelow.stages, hunbounded.stages]

/-- On threads, with a stream that repeats values and one that is fed below thirty. -/
theorem ceiling_truncates_on_threads :
    primes (run threads (fun _ => {}) (some 11) 0 [encodeAll [2, 3, 3, 5, 9, 11, 13]]) =
        (primes (run threads (fun _ => {}) none 0 [encodeAll [2, 3, 3, 5, 9, 11, 13]])).filter
          (fun v => v.toInt < 11) ∧
      recorded (feed threads {} (fun _ => {}) (some 30) 0 ⟨2, 30⟩).runs =
        recorded (feed threads {} (fun _ => {}) none 0 ⟨2, 30⟩).runs ∧
      ∀ r ∈ (feed threads {} (fun _ => {}) (some 30) 0 ⟨2, 30⟩).runs, r.result = .ok r.report ∧
        (r.report.prime.isSome = true ∨ r.account.received = [] ∧ r.report = {}) := by
  obtain ⟨htruncates, hsame⟩ := ceiling_truncates threads_faultless fun _ => rfl
  have hordered : NonDescending (values [encodeAll [2, 3, 3, 5, 9, 11, 13]].flatten) := by decide
  obtain ⟨hrecorded, -, -, -, -, howned⟩ := hsame { low := 2, high := 30 } {} 0 (by decide)
    Conditions.sensible_default Conditions.easy_default
  exact ⟨(htruncates 11 0 _ hordered).2.2, hrecorded, howned⟩

end Chain

end SieveChain
