import SieveChain.Proofs.Cascades

/-!
# Streams cut short

A value that the end of a stream cuts in two is no value, and no failure either. So a chain that
is given less of a stream, cut at any byte, does a part of what it does with all of it: stage by
stage it reads a beginning of what it would have read, and a stage that owns a value owns the same
one in both. Its record is a beginning of the longer one, and it ends with a whole line.
-/

namespace SieveChain.Chain

open Scripted Wire Record

/-- A chain that does a part of what another does. Its stages own what those at the same places of
the other own, up to one that owns nothing and is the last. -/
inductive PartOf : List StageRun → List StageRun → Prop
  | last {r r' : StageRun} {rest' : List StageRun}
      (received : r.account.received <+: r'.account.received) (prime : r.report.prime = none) :
      PartOf [r] (r' :: rest')
  | stage {r r' : StageRun} {rest rest' : List StageRun} {p : Int32}
      (received : r.account.received <+: r'.account.received) (prime : r.report.prime = some p)
      (same : r'.report.prime = some p) (below : PartOf rest rest') :
      PartOf (r :: rest) (r' :: rest')

namespace PartOf

variable {runs runs' : List StageRun}

theorem primes_isPrefix (h : PartOf runs runs') : primes runs <+: primes runs' := by
  induction h with
  | last received prime =>
    rw [primes, List.flatMap_singleton, prime]
    exact List.nil_prefix
  | stage received prime same below ih =>
    simp only [primes, List.flatMap_cons, prime, same, Option.toList_some]
    exact (List.prefix_append_right_inj _).2 ih

/-- Each stage has its counterpart, which reads at least as much. -/
theorem counterpart (h : PartOf runs runs') {k : Nat} {r : StageRun} (hr : runs[k]? = some r) :
    ∃ r', runs'[k]? = some r' ∧ r.account.received <+: r'.account.received ∧
      (r.report.prime = none ∨ r.report.prime = r'.report.prime) := by
  induction h generalizing k with
  | last received prime =>
    cases k with
    | zero =>
      cases hr
      exact ⟨_, rfl, received, .inl prime⟩
    | succ k => simp at hr
  | stage received prime same below ih =>
    cases k with
    | zero =>
      cases hr
      exact ⟨_, rfl, received, .inr (prime.trans same.symm)⟩
    | succ k =>
      rw [List.getElem?_cons_succ] at hr ⊢
      exact ih hr

end PartOf

variable {host : Host} {conditions conditions' : Nat → Conditions}

/-- A chain under the same ceiling that is given a beginning of the stream of another. -/
theorem Cascade.partOf {heir : Option Int32 → Option Int32} {ceiling : Option Int32}
    {stream stream' : List UInt8} {runs runs' : List StageRun}
    (h : Cascade heir ceiling stream runs) (h' : Cascade heir ceiling stream' runs')
    (hcut : stream <+: stream') : PartOf runs runs' := by
  -- By the stages of the shorter chain: as long as one owns a value, so does its counterpart, and
  -- what is sent to the stage below it is a beginning of what its counterpart sends.
  induction h generalizing stream' runs' with
  | last first prime =>
    obtain ⟨r', rest', rfl, first'⟩ := h'.head
    refine .last ?_ prime
    rwa [first.received, first'.received]
  | @stage ceiling stream r rest p first prime below ih =>
    have hreceived : ∀ {r' : StageRun}, r'.Succeeds ceiling stream' →
        r.account.received <+: r'.account.received := by
      intro r' first'
      rwa [first.received, first'.received]
    obtain ⟨vs, hvs, hp, -, hsent, -, -⟩ := first.yields.of_prime prime
    obtain ⟨ws, hws⟩ := values_mono hcut
    rw [hvs, List.cons_append] at hws
    cases h' with
    | last first' prime' =>
      obtain ⟨hhead, -⟩ := first'.yields.of_no_prime prime'
      exact absurd hp (hhead p (by simp [← hws]))
    | @stage _ _ r' rest' q first' prime' below' =>
      obtain ⟨vs', hvs', -, -, hsent', -, -⟩ := first'.yields.of_prime prime'
      obtain ⟨rfl, rfl⟩ := List.cons.inj (hws.trans hvs')
      refine .stage (hreceived first') prime prime' (ih below' ?_)
      rw [hsent, hsent']
      apply encodeAll_mono
      exact (List.prefix_append vs ws).filter _

/-- Cutting a stream short, at any byte, only shortens the record, and by whole lines. The shorter
chain succeeds as well, with no more stages launched, each of which has read a beginning of what
its counterpart in the longer chain has read and owns either nothing or the same value. -/
theorem run_cut_short (h : Faultless host conditions) (h' : Faultless host conditions')
    (ceiling : Option Int32) (next next' : Nat) {cut whole : List (List UInt8)}
    (hcut : cut.flatten <+: whole.flatten) :
    let shorter := run host conditions ceiling next cut
    let longer := run host conditions' ceiling next' whole
    recorded shorter <+: recorded longer ∧
      recorded shorter = lines (primes shorter) ∧ recorded longer = lines (primes longer) ∧
      primes shorter <+: primes longer ∧
      (∀ r ∈ shorter, r.result = .ok r.report) ∧
      (∀ index, (headVerdict host index shorter).isOk = true) ∧
      launches shorter ≤ launches longer ∧ shorter.length ≤ longer.length ∧
      ∀ (k : Nat) (r : StageRun), shorter[k]? = some r → ∃ r', longer[k]? = some r' ∧
        r.account.received <+: r'.account.received ∧
        (r.report.prime = none ∨ r.report.prime = r'.report.prime) := by
  intro shorter longer
  have hshorter : Cascade host.heir ceiling cut.flatten shorter := h.run_cascades ..
  have hlonger : Cascade host.heir ceiling whole.flatten longer := h'.run_cascades ..
  have hpart : PartOf shorter longer := hshorter.partOf hlonger hcut
  have hprimes := hpart.primes_isPrefix
  have hcount := hprimes.length_le
  obtain ⟨-, hrecorded⟩ := hshorter.kept
  obtain ⟨-, hrecorded'⟩ := hlonger.kept
  obtain ⟨hlaunches, hlength⟩ := hshorter.launches
  obtain ⟨hlaunches', hlength'⟩ := hlonger.launches
  refine ⟨?_, hrecorded, hrecorded', hprimes, hshorter.result, ?_, by omega, by omega,
    fun k r => hpart.counterpart⟩
  · rw [hrecorded, hrecorded']
    exact lines_mono hprimes
  · intro index
    rw [headVerdict_isOk h.verdict]
    intro r hr
    rw [hshorter.result r (List.mem_of_mem_head? hr)]
    rfl

/-- On threads, with a stream that ends behind the first byte of its fourth value, against the
whole of it in two pieces. -/
theorem run_cut_short_inside_value :
    recorded (run threads (fun _ => {}) none 0 [(encodeAll [2, 3, 4, 5]).take 13]) <+:
        recorded (run threads (fun _ => {}) none 0 [encodeAll [2, 3], encodeAll [4, 5, 6]]) ∧
      (∀ r ∈ run threads (fun _ => {}) none 0 [(encodeAll [2, 3, 4, 5]).take 13],
        r.result = .ok r.report) ∧
      (run threads (fun _ => {}) none 0 [(encodeAll [2, 3, 4, 5]).take 13]).length ≤
        (run threads (fun _ => {}) none 0 [encodeAll [2, 3], encodeAll [4, 5, 6]]).length := by
  have hcut : [(encodeAll [2, 3, 4, 5]).take 13].flatten <+:
      [encodeAll [2, 3], encodeAll [4, 5, 6]].flatten := by decide
  obtain ⟨hrecorded, -, -, -, hresult, -, -, hlength, -⟩ :=
    run_cut_short threads_faultless threads_faultless none 0 0 hcut
  exact ⟨hrecorded, hresult, hlength⟩

end SieveChain.Chain
