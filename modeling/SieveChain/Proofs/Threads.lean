import SieveChain.Config.Basic
import SieveChain.Host.Threads
import SieveChain.Proofs.FedChains
import SieveChain.Proofs.Schedules

/-!
# Threads sieve

Stages that run as threads meet no failure, so all that is fed to them is sieved: a range
from a lower bound on gives the values that no smaller one of the range divides, and a raw
stream gives what the sieve keeps of its values. The launches are counted.

A chain is run from the first stage downwards, each stage writing for itself; that is what any
schedule of threads at work together comes to on the record that they share.
-/

namespace SieveChain

open Scripted Wire Record

namespace Counters

/-- Every launch is counted. -/
theorem launched_observe (c : Counters) (a : Account) (e : Event) :
    (c.observe e).launched + a.launches = c.launched + (a.add e).launches := by
  cases e with
  | launched result =>
    cases result with
    | ok child =>
      dsimp only [observe, start, Account.add]
      omega
    | error f =>
      dsimp only [observe, miss_eq, Account.add]
      omega
  | read reply =>
    cases reply with
    | got bytes => cases bytes <;> rfl
    | failed e => rfl
  | _ => rfl

theorem launched_foldl (c : Counters) (a : Account) (events : List Event) :
    (events.foldl observe c).launched + a.launches =
      c.launched + (events.foldl Account.add a).launches := by
  induction events generalizing c a with
  | nil => rfl
  | cons e events ih =>
    have hstep := c.launched_observe a e
    have hrest := ih (c.observe e) (a.add e)
    rw [List.foldl_cons, List.foldl_cons]
    omega

theorem launched_trace (c : Counters) (events : List Event) :
    (events.foldl observe c).launched = c.launched + (Account.ofTrace events).launches :=
  c.launched_foldl {} events

theorem launched_runs (c : Counters) (runs : List StageRun) :
    ((Chain.trace runs).foldl observe c).launched = c.launched + Chain.launches runs := by
  induction runs generalizing c with
  | nil => rfl
  | cons r runs ih =>
    have htrace : Chain.trace (r :: runs) = r.trace ++ Chain.trace runs := List.flatMap_cons
    rw [htrace, List.foldl_append, ih, launched_trace, Chain.launches_cons, StageRun.account]
    omega

end Counters

namespace Threads

/-! ## Feeders -/

/-- A feeder on threads succeeds, and what the sieve keeps of its range is recorded. -/
theorem feed_sieves (t : Threads) (c : Candidates) :
    (t.feed c).1 = .ok c.count ∧
      (t.feed c).2.record.toList = t.record.toList ++ lines (sieve t.ceiling c.values) ∧
      (t.feed c).2.counters.launched =
        t.counters.launched + (sieve t.ceiling c.values).length + 1 := by
  obtain ⟨hresult, hrecorded, hcount, hone⟩ := Chain.feed_faultless Chain.threads_verdict_isOk
    (fun _ => rfl) t.ceiling t.counters.launched c
  refine ⟨hresult, ?_, ?_⟩
  · dsimp only [feed, absorb]
    rw [Array.toList_appendList, hrecorded]
  · dsimp only [feed, absorb]
    rw [List.foldl_append, Counters.launched_runs, Counters.launched_trace, hcount, hone]
    omega

theorem validate_iff (config : Config) : config.validate = .ok () ↔ 2 ≤ config.low.toInt := by
  have hleast : Config.leastLow.toInt = 2 := rfl
  unfold Config.validate
  split
  · next hlow =>
    rw [Int32.lt_iff_toInt_lt, hleast] at hlow
    exact ⟨fun h => (by cases h), fun h => absurd hlow (Int.not_lt.2 h)⟩
  · next hlow =>
    rw [Int32.lt_iff_toInt_lt, hleast] at hlow
    exact ⟨fun _ => Int.not_lt.1 hlow, fun _ => rfl⟩

theorem toInt_stop (config : Config) :
    config.candidates.stop.toInt = max config.low.toInt config.high.toInt := by
  rw [Config.candidates]
  dsimp only
  split
  · next h =>
    rw [Int32.lt_iff_toInt_lt] at h
    omega
  · next h =>
    rw [Int32.lt_iff_toInt_lt] at h
    omega

/-- What the sieve keeps of a configured range: the values that no smaller one divides. -/
theorem mem_sieve_candidates {config : Config} {ceiling : Option Int32}
    (hlow : 2 ≤ config.low.toInt) (hc : ceiling = none ∨ ceiling = some config.ceiling)
    (v : Int32) :
    v ∈ sieve ceiling config.candidates.values ↔
      config.low.toInt ≤ v.toInt ∧ v.toInt < config.high.toInt ∧
        Undivided config.low.toInt v.toInt := by
  have hstop := toInt_stop config
  have hstart : config.candidates.start = config.low := rfl
  -- An empty range stops at `low`, which a ceiling of `high` does not admit.
  by_cases hempty : config.high.toInt < config.low.toInt
  · have hcount : config.candidates.count = 0 := by
      rw [Candidates.count, hstop, hstart]
      omega
    have hvalues : config.candidates.values = [] := by
      rw [Candidates.values, hcount]
      rfl
    rw [hvalues, sieve]
    refine ⟨fun h => absurd h List.not_mem_nil, ?_⟩
    rintro ⟨hl, hh, -⟩
    omega
  · have hceil : ∀ top ∈ ceiling, config.candidates.stop.toInt ≤ top.toInt := by
      intro top ht
      rcases hc with rfl | rfl
      · cases ht
      · cases ht
        rw [hstop, Config.ceiling]
        omega
    have hmax : max config.low.toInt config.high.toInt = config.high.toInt := by omega
    rw [Candidates.mem_sieve_values hlow hceil, hstop, hmax, hstart]

theorem count_candidates (config : Config) :
    config.candidates.count = (config.high.toInt - config.low.toInt).toNat := by
  have hstart : config.candidates.start = config.low := rfl
  rw [Candidates.count, toInt_stop, hstart]
  omega

/-- A feeder on threads finds the primes: the values of the range that no smaller one of the
range divides are recorded in ascending order, and from two on these are the primes. -/
theorem feed_primes (t : Threads) (config : Config) (hvalid : config.validate = .ok ())
    (hceiling : t.ceiling = none ∨ t.ceiling = some config.ceiling) :
    ∃ vs : List Int32,
      (t.feed config.candidates).1 = .ok (config.high.toInt - config.low.toInt).toNat ∧
      (t.feed config.candidates).2.record.toList = t.record.toList ++ lines vs ∧
      Ascending vs ∧
      (∀ v : Int32, v ∈ vs ↔ config.low.toInt ≤ v.toInt ∧ v.toInt < config.high.toInt ∧
        Undivided config.low.toInt v.toInt) ∧
      (config.low = 2 → ∀ v : Int32,
        v ∈ vs ↔ v.toInt < config.high.toInt ∧ v.toInt.toNat.Prime) ∧
      (t.feed config.candidates).2.counters.launched =
        t.counters.launched + vs.length + 1 := by
  have hlow := (validate_iff config).1 hvalid
  obtain ⟨hresult, hrecord, hlaunched⟩ := t.feed_sieves config.candidates
  rw [count_candidates] at hresult
  have hmem := mem_sieve_candidates hlow hceiling
  refine ⟨sieve t.ceiling config.candidates.values, hresult, hrecord, ?_, hmem, ?_, hlaunched⟩
  · exact (Candidates.ascending_values config.candidates).sublist (sieve_sublist _ _)
  · intro htwo v
    have htwo' : config.low.toInt = 2 := by rw [htwo]; rfl
    rw [hmem v, htwo']
    constructor
    · rintro ⟨hl, hh, hu⟩
      exact ⟨hh, (undivided_two_iff hl).1 hu⟩
    · rintro ⟨hh, hprime⟩
      have hl : 2 ≤ v.toInt := by
        have := hprime.two_le
        omega
      exact ⟨hl, hh, (undivided_two_iff hl).2 hprime⟩

/-- Among the values below thirty, with the ceiling that goes with them. -/
theorem feed_primes_below_thirty :
    ∃ vs : List Int32,
      (feed { ceiling := some 30 } (Config.candidates { low := 2, high := 30 })).1 = .ok 28 ∧
      (feed { ceiling := some 30 } (Config.candidates { low := 2, high := 30 })).2.record.toList =
        lines vs ∧
      ∀ v : Int32, v ∈ vs ↔ v.toInt < 30 ∧ v.toInt.toNat.Prime := by
  obtain ⟨vs, hresult, hrecord, -, -, hprimes, -⟩ :=
    feed_primes { ceiling := some 30 } { low := 2, high := 30 } (by decide) (.inr rfl)
  exact ⟨vs, hresult, hrecord, hprimes rfl⟩

/-! ## Raw streams -/

/-- Stages on threads record what the sieve keeps of a raw stream, each value by a stage that has
been launched. -/
theorem run_faultless (ceiling : Option Int32) (next : Nat) (chunks : List (List UInt8)) :
    let runs := Chain.run threads (fun _ => {}) ceiling next chunks
    (∀ r ∈ runs.head?, r.result.isOk = true) ∧
      Chain.recorded runs = lines (sieve ceiling (values chunks.flatten)) ∧
      Chain.launches runs = (sieve ceiling (values chunks.flatten)).length := by
  intro runs
  have hsensible : ∀ _ : Nat, ({} : Conditions).Sensible := fun _ => Conditions.sensible_default
  have hok : ∀ r ∈ runs.head?, r.result.isOk = true :=
    Chain.grow_isOk Chain.threads_verdict_isOk hsensible (fun _ => Conditions.easy_default) next
      (chunks.flatten.length + 1) 0 ceiling chunks
  obtain ⟨hrecorded, hlaunches⟩ :=
    (Chain.run_consistent Chain.threads_verdict_isOk hsensible ceiling next chunks).complete hok
  have hkept : keptUnder threads.heir ceiling (values chunks.flatten) =
      sieve ceiling (values chunks.flatten) := keptUnder_same (fun _ => rfl) _ _
  rw [hkept] at hrecorded hlaunches
  exact ⟨hok, hrecorded, hlaunches⟩

/-- Writes chunks of bytes to a stage, one after the other. -/
def writeAll (t : Threads) (handle : Nat) : List (List UInt8) → Threads
  | [] => t
  | bytes :: rest => (t.write handle bytes).2.writeAll handle rest

/-- A stage launched from outside, to which chunks of bytes have been written. -/
structure Fed (t : Threads) (chunks : List (List UInt8)) (writer : Bool) (t' : Threads) : Prop where
  handle : t'.handles[t.handles.size]? =
    some { index := t.counters.launched, chunks := chunks.toArray, writer, reaped := false }
  ceiling : t'.ceiling = t.ceiling
  record : t'.record = t.record
  launched : t'.counters.launched = t.counters.launched + 1

theorem fed_launch (t : Threads) : Fed t [] true t.launch.2 where
  handle := Array.getElem?_push_size
  ceiling := rfl
  record := rfl
  launched := rfl

theorem Fed.write {t t' : Threads} {chunks : List (List UInt8)} (h : Fed t chunks true t')
    (bytes : List UInt8) :
    (t'.write t.handles.size bytes).1 = some bytes.length ∧
      Fed t (chunks ++ [bytes]) true (t'.write t.handles.size bytes).2 := by
  rw [Threads.write, h.handle]
  refine ⟨rfl, ?_, h.ceiling, h.record, h.launched⟩
  dsimp only
  rw [Array.getElem?_modify, if_pos rfl, h.handle]
  simp

theorem Fed.writeAll {t t' : Threads} {chunks : List (List UInt8)} (h : Fed t chunks true t')
    (more : List (List UInt8)) :
    Fed t (chunks ++ more) true (t'.writeAll t.handles.size more) := by
  induction more generalizing t' chunks with
  | nil => rwa [List.append_nil]
  | cons bytes more ih =>
    have hih := ih (h.write bytes).2
    rwa [List.append_assoc, List.singleton_append] at hih

theorem Fed.close {t t' : Threads} {chunks : List (List UInt8)} (h : Fed t chunks true t') :
    (t'.close t.handles.size).1 = true ∧ Fed t chunks false (t'.close t.handles.size).2 := by
  rw [Threads.close, h.handle]
  refine ⟨rfl, ?_, h.ceiling, h.record, h.launched⟩
  dsimp only
  rw [Array.getElem?_modify, if_pos rfl, h.handle]
  rfl

/-- Reaping a stage from outside runs the chain that it begins. -/
theorem reap_eq {t : Threads} {handle : Nat} {h : Thread} {runs : List StageRun}
    (hhandle : t.handles[handle]? = some h) (hnew : h.reaped = false)
    (hruns : Chain.run threads (fun _ => {}) t.ceiling t.counters.launched h.chunks.toList =
      runs) :
    (t.reap handle).1 = Chain.headVerdict threads h.index runs ∧
      (t.reap handle).2.record = t.record ++ Chain.recorded runs ∧
      (t.reap handle).2.counters =
        ((Chain.trace runs).foldl Counters.observe t.counters).finish := by
  rw [reap, hhandle]
  dsimp only
  rw [hnew, if_neg Bool.false_ne_true, hruns]
  cases runs <;> exact ⟨rfl, rfl, rfl⟩

theorem eq_ok_of_isOk {ε : Type} {result : Except ε Unit} (h : result.isOk = true) :
    result = .ok () := by
  cases result with
  | ok u => rfl
  | error e => cases h

theorem Fed.reap {t t' : Threads} {chunks : List (List UInt8)} {writer : Bool}
    (h : Fed t chunks writer t') :
    (t'.reap t.handles.size).1 = .ok () ∧
      (t'.reap t.handles.size).2.record.toList =
        t.record.toList ++ lines (sieve t.ceiling (values chunks.flatten)) ∧
      (t'.reap t.handles.size).2.counters.launched =
        t.counters.launched + (sieve t.ceiling (values chunks.flatten)).length + 1 := by
  have hfaultless := run_faultless t'.ceiling t'.counters.launched chunks
  generalize hruns : Chain.run threads (fun _ => {}) t'.ceiling t'.counters.launched chunks =
    runs at hfaultless
  obtain ⟨hok, hrecorded, hlaunches⟩ := hfaultless
  obtain ⟨hverdict, hrecord, hcounters⟩ := reap_eq h.handle rfl hruns
  rw [hverdict, hrecord, hcounters]
  refine ⟨?_, ?_, ?_⟩
  · exact eq_ok_of_isOk ((Chain.headVerdict_isOk Chain.threads_verdict_isOk _ _).2 hok)
  · rw [Array.toList_appendList, hrecorded, h.record, h.ceiling]
  · dsimp only [Counters.finish]
    rw [Counters.launched_runs, hlaunches, h.launched, h.ceiling]
    omega

/-- Any bytes may be written to a stage, in chunks of any sizes: once its channel has been
given up and the stage has been reaped, the record has gained the lines for what the sieve
keeps of the complete values, and one stage more than that has been launched. -/
theorem raw_stream_sieved (t : Threads) (chunks : List (List UInt8)) :
    let handle := t.launch.1
    let written := t.launch.2.writeAll handle chunks
    let closed := (written.close handle).2
    let kept := sieve t.ceiling (values chunks.flatten)
    (∀ before bytes,
        ((t.launch.2.writeAll handle before).write handle bytes).1 = some bytes.length) ∧
      (written.close handle).1 = true ∧
      (closed.reap handle).1 = .ok () ∧
      (closed.reap handle).2.record.toList = t.record.toList ++ lines kept ∧
      (closed.reap handle).2.counters.launched = t.counters.launched + (kept.length + 1) := by
  have hlaunched := t.fed_launch
  obtain ⟨hclose, hclosed⟩ := (hlaunched.writeAll chunks).close
  obtain ⟨hreap, hrecord, hcount⟩ := hclosed.reap
  refine ⟨?_, hclose, hreap, hrecord, hcount⟩
  intro before bytes
  exact ((hlaunched.writeAll before).write bytes).1

/-! ## Any schedule -/

/-- The runs of the stages behind a feed, one after the other. -/
def runsOf (ceiling : Option Int32) (first : Nat) (chunks : List (List UInt8)) :
    Concurrent.Feed → List StageRun
  | .range c => (Chain.feed threads {} (fun _ => {}) ceiling first c).runs
  | .raw => Chain.run threads (fun _ => {}) ceiling first chunks

/-- Whatever the schedule of a pipeline that has come to its end, the record that its stages share
has gained what they write when they run one after the other, and as many have been launched. -/
theorem recorded_any_schedule {ceiling : Option Int32} {capacity : Option Nat}
    {record : Array UInt8} {feed : Concurrent.Feed} {schedule : List Concurrent.Turn}
    {w : Concurrent.Pipeline}
    {result : Except Fault feed.Result} {chunks : List (List UInt8)} (first : Nat)
    (h : Concurrent.Pipeline.run ceiling capacity record feed schedule = some w)
    (ho : feed.outcome? w.system = some result) (hchunks : chunks.flatten = w.written) :
    w.system.record.toList =
        record.toList ++ Chain.recorded (runsOf ceiling first chunks feed) ∧
      w.system.counters.launched = Chain.launches (runsOf ceiling first chunks feed) + 1 := by
  obtain ⟨s, hbegin, hfollow⟩ := Option.bind_eq_some_iff.1 h
  obtain ⟨acc, htogether, hfeed⟩ := (Concurrent.Pipeline.kept_begin hbegin).follow hfollow
  obtain ⟨-, htexts, hlaunched⟩ := Concurrent.Feed.sieved htogether hfeed ho
  rw [htogether.wired.record, htexts, hlaunched]
  cases feed with
  | range c =>
    obtain ⟨-, hrecorded, hcount, -⟩ := Chain.feed_faultless Chain.threads_verdict_isOk
      (fun _ => rfl) ceiling first c
    rw [runsOf, hrecorded, hcount]
    exact ⟨rfl, rfl⟩
  | raw =>
    obtain ⟨-, hrecorded, hcount⟩ := run_faultless ceiling first chunks
    rw [runsOf, hrecorded, hcount, hchunks]
    exact ⟨rfl, rfl⟩

end Threads

end SieveChain
