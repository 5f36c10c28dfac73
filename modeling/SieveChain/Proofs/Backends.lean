import SieveChain.Proofs.Layers
import SieveChain.Proofs.Requests
import SieveChain.Proofs.StageNotices
import SieveChain.Proofs.Threads

/-!
# Processes and threads

A stage that runs in a process of its own takes its ceiling from the arguments of the process, and
tells whoever waits for it no more than whether it has failed. That is enough: every stage has the
ceiling of the first, and with either backend the record and the code at the end are the same.
-/

namespace SieveChain

open Scripted Record

/-! ## Ceilings of processes -/

namespace Chain

variable {host : Host} {conditions : Nat → Conditions} {w : Surroundings}

/-- What every answer keeps is kept by driving a party on. -/
theorem drive_induction {σ : Type} [Party σ] {P : σ → Prop}
    (hstep : ∀ p q e, P p → (Party.move p).Answered e q → P q) (n : Nat) {p : σ} (h : P p)
    (w : Surroundings) : P (w.drive n p).1 := by
  induction n generalizing p w with
  | zero => exact h
  | succ n ih =>
    unfold Surroundings.drive
    split
    · exact h
    · next q w' ha => exact ih (hstep p q _ h (Surroundings.answered ha).1) w'

/-- A stage has run to its end under the ceiling that it began with. -/
theorem ceiling_conclude {r : Stage.Run} {s : Stage} {result : Except Fault Stage.Report}
    (h : (w.drive (w.allowance Outbox.capacity) r).1 = .finished s result) :
    (conclude r w).stage.ledger.ceiling = r.ledger.ceiling := by
  have hkept : (w.drive (w.allowance Outbox.capacity) r).1.ledger.ceiling = r.ledger.ceiling :=
    drive_induction (P := fun q => q.ledger.ceiling = r.ledger.ceiling)
      (fun p q e hp hm => (Stage.Run.ledger_answered hm).1.trans hp) _ rfl w
  rw [h] at hkept
  rw [conclude_eq h]
  exact hkept

/-- Where a ceiling is passed on as it is, all stages of a chain have it. -/
theorem ceiling_grow (hheir : ∀ c, host.heir c = c) (hc : ∀ d, (conditions d).Sensible)
    (next n depth : Nat) (ceiling : Option Int32) (chunks : List (List UInt8)) :
    ∀ r ∈ grow host conditions next n depth ceiling chunks, r.stage.ledger.ceiling = ceiling := by
  induction n generalizing depth chunks with
  | zero => exact fun r hr => absurd hr List.not_mem_nil
  | succ n ih =>
    have hw := mirrors_surroundings host (next + depth) chunks (hc depth)
    have hn := stock_le_allowance (surroundings host (conditions depth) (next + depth) chunks)
      Outbox.capacity (Nat.le_trans (Nat.le_of_eq (Stage.Run.effort_start ceiling)) (by decide))
    obtain ⟨a, hd, hend⟩ :=
      (Stage.Run.orderly ceiling).drive_pauses (Stage.Run.accords_start ceiling) hw hn
    have hceiling : ((surroundings host (conditions depth) (next + depth) chunks).drive
        ((surroundings host (conditions depth) (next + depth) chunks).allowance Outbox.capacity)
        (Stage.Run.start (Stage.new ceiling))).1.ledger.ceiling = ceiling :=
      drive_induction (P := fun q => q.ledger.ceiling = ceiling)
        (fun p q e hp hm => (Stage.Run.ledger_answered hm).1.trans hp) _ rfl _
    rw [grow_eq]
    generalize (surroundings host (conditions depth) (next + depth) chunks).drive
      ((surroundings host (conditions depth) (next + depth) chunks).allowance Outbox.capacity)
      (Stage.Run.start (Stage.new ceiling)) = driven at hd hend hceiling ⊢
    obtain ⟨r, w⟩ := driven
    dsimp only at hd hend hceiling ⊢
    rcases hend with hrest | ⟨child, after, hreap, hk, hs, -⟩
    · obtain ⟨s, result, rfl⟩ := Stage.Run.finished_of_rest hrest
      have hfin : (w.drive (w.allowance Outbox.capacity) (Stage.Run.finished s result)).1 =
          .finished s result := by rw [drive_finished]
      rw [resume_rest hrest, List.forall_mem_singleton, ceiling_conclude hfin]
      exact hceiling
    · have hmove : r.move = .reap child after := hreap
      rw [resume_reap hmove, hheir]
      generalize headVerdict host child.index _ = verdict
      obtain ⟨hw', hsettled, -, -, -⟩ := hd.mirrors.settle hk verdict
      have hn' := stock_le_allowance (w.settle child verdict) Outbox.capacity
        (Nat.le_trans (Stage.Run.effort_of_reap hmove) (by decide))
      obtain ⟨a', -, hrest, -⟩ :=
        (Stage.Run.orderly ceiling).drive_settled hd.accords hw' hn' hmove hsettled
      obtain ⟨s, result, hfin⟩ := Stage.Run.finished_of_rest hrest
      refine List.forall_mem_cons.2 ⟨?_, ih (depth + 1) _⟩
      rw [ceiling_conclude hfin]
      exact hceiling

end Chain

open CommandLine

/-! ## Readers of arguments -/

namespace CommandLine

/-- What a reader of arguments has to do for processes and threads to be alike. -/
structure RequestReader.Lawful (request? : RequestReader) : Prop where
  /-- The arguments with which a stage is launched ask for a stage under the same ceiling. -/
  stage : ∀ ceiling, request? (stageArguments ceiling) = some (.stage ceiling)
  /-- There are arguments for all options. -/
  options : ∀ o : Options, o.file ≠ some [] → request? o.arguments = some (.sieve o)
  /-- A value that stands behind the option for the backend is the backend, and nothing else. -/
  backend : ∀ (before after : List (List Char)) (b b' : Backend),
    request? (before ++ "--backend".toList :: b'.name.toList :: after) =
      (request? (before ++ "--backend".toList :: b.name.toList :: after)).map (·.choose b')

theorem lawful_parse : RequestReader.Lawful parse where
  stage := parse_stageArguments
  options := fun _ => parse_arguments
  backend := fun before after b b' => Reading.parse_backend {} b b' before after

end CommandLine

variable {request? : RequestReader}

/-- Whoever waits for a process learns from its code whether its stage has failed. -/
theorem processes_verdict_isOk (i : Nat) (r : Except Fault Stage.Report) :
    ((processesWith request?).verdict i r).isOk = r.isOk := by
  cases r <;> rfl

/-- A process takes the ceiling from its arguments that its parent has. -/
theorem processes_heir (hr : request?.Lawful) (ceiling : Option Int32) :
    (processesWith request?).heir ceiling = ceiling := by
  show ceilingOf request? (stageArguments ceiling) = ceiling
  rw [ceilingOf, hr.stage]

/-! ## What the program does with either backend -/

/-- The record of a configuration: the lines of the values in its range that no smaller one of the
range divides, in ascending order. -/
def Config.Recorded (c : Config) (bytes : List UInt8) : Prop :=
  ∃ vs : List Int32, bytes = lines vs ∧ Ascending vs ∧
    ∀ v : Int32, v ∈ vs ↔
      c.low.toInt ≤ v.toInt ∧ v.toInt < c.high.toInt ∧ Undivided c.low.toInt v.toInt

/-- What the sieve writes for a configuration. -/
def Config.sieved (c : Config) : List UInt8 := lines (sieve (some c.ceiling) c.candidates.values)

theorem Config.recorded_sieved {c : Config} (hlow : leastLow ≤ c.low) : c.Recorded c.sieved := by
  have hlow' : 2 ≤ c.low.toInt := Int32.le_iff_toInt_le.1 hlow
  exact ⟨_, rfl, (Candidates.ascending_values c.candidates).sublist (sieve_sublist _ _),
    Threads.mem_sieve_candidates hlow' (.inr rfl)⟩

namespace CommandLine.Setting

variable {s : Setting} {r : Readers} {o : Options} {c : Config}

theorem sieveByProcesses_eq (hr : r.request?.Lawful) (hfull : s.full = false) (c : Config) :
    (s.sieveByProcesses r c).output = c.sieved ∧ (s.sieveByProcesses r c).code = 0 := by
  have hrecord : s.record = {} := if_neg (by rw [hfull]; exact Bool.false_ne_true)
  obtain ⟨hresult, hrecorded, -⟩ :=
    Chain.feed_faultless processes_verdict_isOk (processes_heir hr) (some c.ceiling) 1 c.candidates
  unfold sieveByProcesses
  rw [hrecord]
  dsimp only
  rw [hresult, hrecorded]
  exact ⟨rfl, rfl⟩

theorem sieveByThreads_eq (hfull : s.full = false) (c : Config) :
    (s.sieveByThreads c).output = c.sieved ∧ (s.sieveByThreads c).code = 0 := by
  obtain ⟨hresult, hrecorded, -⟩ :=
    Chain.feed_faultless Chain.threads_verdict_isOk (fun _ => rfl) (some c.ceiling) 0 c.candidates
  unfold sieveByThreads
  dsimp only
  rw [if_neg (by rw [hfull]; exact fun h => Bool.false_ne_true h.1), hresult, hrecorded]
  exact ⟨rfl, rfl⟩

/-- With either backend the program writes the same for a configuration. -/
theorem sieve_of_configuration (hr : r.request?.Lawful) (hfull : s.full = false)
    (h : s.configurationWith r o = .ok c) :
    (s.sieve r o).output = c.sieved ∧ (s.sieve r o).code = 0 := by
  unfold Setting.sieve
  rw [h]
  dsimp only
  cases c.backend with
  | process => exact sieveByProcesses_eq hr hfull c
  | thread => exact sieveByThreads_eq hfull c

theorem sieve_of_fault {f : Fault} (h : s.configurationWith r o = .error f) :
    (s.sieve r o).output = [] ∧ (s.sieve r o).code = failureCode := by
  unfold Setting.sieve
  rw [h]
  exact ⟨rfl, rfl⟩

theorem low_of_configuration (h : s.configurationWith r o = .ok c) : Config.leastLow ≤ c.low := by
  rw [configurationWith_eq] at h
  cases hloaded : s.loaded r o.file with
  | error f =>
    rw [hloaded] at h
    cases h
  | ok base =>
    rw [hloaded] at h
    dsimp only [Except.bind] at h
    split at h
    · cases h
    · next hlow =>
      cases h
      exact Int32.not_lt.1 hlow

/-- The choice of a backend decides on the backend of a configuration, and on nothing else. -/
theorem configuration_choose (s : Setting) (r : Readers) (o : Options) (b b' : Backend) :
    s.configurationWith r (o.choose b') =
      (s.configurationWith r (o.choose b)).map fun c => { c with backend := b' } := by
  rw [configurationWith_eq, configurationWith_eq]
  show (s.loaded r o.file).bind _ = ((s.loaded r o.file).bind _).map _
  cases s.loaded r o.file with
  | error f => rfl
  | ok base =>
    dsimp only [Except.bind]
    have hlow : ((o.choose b').layer.override base).low =
        ((o.choose b).layer.override base).low := rfl
    rw [hlow]
    split <;> rfl

/-- With either backend the program writes the same, and ends with the same code. -/
theorem sieve_choose (hr : r.request?.Lawful) (hfull : s.full = false) (o : Options)
    (b b' : Backend) :
    (s.sieve r (o.choose b')).output = (s.sieve r (o.choose b)).output ∧
      (s.sieve r (o.choose b')).code = (s.sieve r (o.choose b)).code := by
  have hchoose := configuration_choose s r o b b'
  cases hc : s.configurationWith r (o.choose b) with
  | error f =>
    rw [hc] at hchoose
    obtain ⟨houtput, hcode⟩ := sieve_of_fault hc
    obtain ⟨houtput', hcode'⟩ := sieve_of_fault hchoose
    exact ⟨houtput'.trans houtput.symm, hcode'.trans hcode.symm⟩
  | ok c =>
    rw [hc] at hchoose
    obtain ⟨houtput, hcode⟩ := sieve_of_configuration hr hfull hc
    obtain ⟨houtput', hcode'⟩ := sieve_of_configuration hr hfull hchoose
    exact ⟨houtput'.trans houtput.symm, hcode'.trans hcode.symm⟩

/-! ## Whole runs of the program -/

variable {passes : Notice → Bool} {arguments : List (List Char)}

theorem answer_of_request (hlog : r.passes? s.log = some passes) {request : Request}
    (h : r.request? arguments = some request) :
    (s.answerWith r arguments).output = (s.fulfil r request).output ∧
      (s.answerWith r arguments).code = (s.fulfil r request).code := by
  unfold answerWith
  rw [hlog]
  dsimp only
  rw [h]
  exact ⟨rfl, rfl⟩

theorem answer_of_misuse (hlog : r.passes? s.log = some passes) (h : r.request? arguments = none) :
    (s.answerWith r arguments).output = [] ∧ (s.answerWith r arguments).code = misuseCode := by
  unfold answerWith
  rw [hlog]
  dsimp only
  rw [h]
  exact ⟨rfl, rfl⟩

/-- The program that is run as a stage, in a process of its own, sieves what it is given to read. -/
theorem answer_stage (hr : r.request?.Lawful) (hfull : s.full = false)
    (hlog : r.passes? s.log = some passes) (ceiling : Option Int32) :
    (s.answerWith r (stageArguments ceiling)).output =
        lines (SieveChain.sieve ceiling (Wire.values s.input.flatten)) ∧
      (s.answerWith r (stageArguments ceiling)).code = 0 := by
  have hrecord : s.record = {} := if_neg (by rw [hfull]; exact Bool.false_ne_true)
  obtain ⟨houtput, hcode⟩ := answer_of_request hlog (hr.stage ceiling)
  rw [houtput, hcode]
  show (s.stage r ceiling).output = _ ∧ (s.stage r ceiling).code = 0
  unfold stage
  rw [hrecord]
  have hsensible : ∀ _ : Nat, ({} : Conditions).Sensible := fun _ => Conditions.sensible_default
  have hcons := Chain.run_consistent (@processes_verdict_isOk r.request?) hsensible ceiling
    1 s.input
  have hok := Chain.grow_isOk (@processes_verdict_isOk r.request?) hsensible
    (fun _ => Conditions.easy_default) 1 (s.input.flatten.length + 1) 0 ceiling s.input
  obtain ⟨hrecorded, -⟩ := hcons.complete hok
  rw [keptUnder_same (processes_heir hr)] at hrecorded
  refine ⟨hrecorded, ?_⟩
  have hhead : ∀ first ∈ (Chain.run (processesWith r.request?) (fun _ => {}) ceiling 1
      s.input).head?, first.result.isOk = true := hok
  generalize Chain.run (processesWith r.request?) (fun _ => {}) ceiling 1 s.input = runs at hhead ⊢
  cases runs with
  | nil => rfl
  | cons first runs =>
    have hfirst : first.result.isOk = true := hhead first rfl
    obtain ⟨stage, result, surroundings⟩ := first
    cases result with
    | ok report => rfl
    | error f => cases hfirst

/-- Wherever a backend is named among the arguments, it does not matter which. -/
theorem answer_backend (hr : r.request?.Lawful) (hfull : s.full = false)
    (hlog : r.passes? s.log = some passes) (before after : List (List Char)) (b b' : Backend) :
    (s.answerWith r (before ++ "--backend".toList :: b'.name.toList :: after)).output =
        (s.answerWith r (before ++ "--backend".toList :: b.name.toList :: after)).output ∧
      (s.answerWith r (before ++ "--backend".toList :: b'.name.toList :: after)).code =
        (s.answerWith r (before ++ "--backend".toList :: b.name.toList :: after)).code := by
  have hsame := hr.backend before after b b
  have hother := hr.backend before after b b'
  generalize before ++ "--backend".toList :: b.name.toList :: after = arguments at hsame hother ⊢
  generalize before ++ "--backend".toList :: b'.name.toList :: after = arguments' at hother ⊢
  cases hp : r.request? arguments with
  | none =>
    rw [hp] at hother
    obtain ⟨houtput, hcode⟩ := answer_of_misuse hlog hp
    obtain ⟨houtput', hcode'⟩ := answer_of_misuse hlog hother
    exact ⟨houtput'.trans houtput.symm, hcode'.trans hcode.symm⟩
  | some request =>
    rw [hp] at hsame hother
    obtain ⟨houtput, hcode⟩ := answer_of_request hlog hp
    obtain ⟨houtput', hcode'⟩ := answer_of_request hlog hother
    rw [houtput, hcode, houtput', hcode']
    cases request with
    | sieve o =>
      have ho : o = o.choose b := Request.sieve.inj (Option.some.inj hsame)
      rw [ho]
      exact sieve_choose hr hfull o b b'
    | _ => exact ⟨rfl, rfl⟩

/-- If the program is to sieve, it writes the whole record of the configuration and ends with zero,
or there is none, and it writes nothing and ends with another code. -/
theorem answer_sieve (hr : r.request?.Lawful) (hfull : s.full = false)
    (hlog : r.passes? s.log = some passes) (hp : r.request? arguments = some (.sieve o)) :
    match s.configurationWith r o with
    | .ok c => c.Recorded (s.answerWith r arguments).output ∧ (s.answerWith r arguments).code = 0
    | .error _ => (s.answerWith r arguments).output = [] ∧ (s.answerWith r arguments).code ≠ 0 := by
  obtain ⟨houtput, hcode⟩ := answer_of_request hlog hp
  rw [houtput, hcode]
  show match s.configurationWith r o with
    | .ok c => c.Recorded (s.sieve r o).output ∧ (s.sieve r o).code = 0
    | .error _ => (s.sieve r o).output = [] ∧ (s.sieve r o).code ≠ 0
  cases hc : s.configurationWith r o with
  | ok c =>
    obtain ⟨houtput, hcode⟩ := sieve_of_configuration hr hfull hc
    rw [houtput, hcode]
    exact ⟨Config.recorded_sieved (low_of_configuration hc), rfl⟩
  | error f =>
    obtain ⟨houtput, hcode⟩ := sieve_of_fault hc
    rw [houtput, hcode]
    exact ⟨rfl, Nat.one_ne_zero⟩

/-- Processes and threads agree. The arguments with which a stage is launched ask for a stage under
the same ceiling, and the program sieves its input then; all stages of the chain that begins with it
have that ceiling, whatever happens around them. Arguments that differ in the backend only make the
program write the same and end with the same code. If it is to sieve, that is the whole record of
the configuration and zero, or, if there is no valid configuration, nothing and another code; and
there are arguments for all options. -/
theorem backends_agree {filter : LogFilter} (hfull : s.full = false)
    (hlog : LogFilter.ofRequest? s.log = some filter) :
    (∀ ceiling, parse (stageArguments ceiling) = some (.stage ceiling) ∧
      (s.answer (stageArguments ceiling)).output =
        lines (SieveChain.sieve ceiling (Wire.values s.input.flatten)) ∧
      (s.answer (stageArguments ceiling)).code = 0 ∧
      ∀ conditions : Nat → Conditions, (∀ d, (conditions d).Sensible) → ∀ next chunks,
        ∀ r ∈ Chain.run processes conditions ceiling next chunks,
          r.stage.ledger.ceiling = ceiling) ∧
    (∀ before after : List (List Char),
      let answer (b : Backend) := s.answer (before ++ "--backend".toList :: b.name.toList :: after)
      (answer .process).output = (answer .thread).output ∧
        (answer .process).code = (answer .thread).code) ∧
    (∀ arguments o, parse arguments = some (.sieve o) →
      match s.configuration o with
      | .ok c => c.Recorded (s.answer arguments).output ∧ (s.answer arguments).code = 0
      | .error _ => (s.answer arguments).output = [] ∧ (s.answer arguments).code ≠ 0) ∧
    ∀ o : Options, o.file ≠ some [] → parse o.arguments = some (.sieve o) := by
  have hpasses : ({} : Readers).passes? s.log = some filter.passes := by
    show (LogFilter.ofRequest? s.log).map LogFilter.passes = _
    rw [hlog]
    rfl
  refine ⟨fun ceiling => ?_, ?_, ?_, lawful_parse.options⟩
  · obtain ⟨houtput, hcode⟩ := answer_stage (r := {}) lawful_parse hfull hpasses ceiling
    refine ⟨lawful_parse.stage ceiling, houtput, hcode, fun conditions hc next chunks => ?_⟩
    exact Chain.ceiling_grow (processes_heir lawful_parse) hc next _ 0 ceiling chunks
  · intro before after
    exact answer_backend (r := {}) lawful_parse hfull hpasses before after .thread .process
  · exact fun arguments o => answer_sieve lawful_parse hfull hpasses

/-- The program with the bound nine behind the backend, and no file. -/
theorem backends_agree_below_nine :
    let answer (b : Backend) :=
      ({} : Setting).answer ["--backend".toList, b.name.toList, "9".toList]
    (answer .process).output = (answer .thread).output ∧
      (answer .process).code = (answer .thread).code ∧
      Config.Recorded { low := 2, high := 9 } (answer .process).output ∧
      (answer .process).code = 0 := by
  obtain ⟨-, hsame, hsieve, -⟩ := backends_agree (s := {}) rfl rfl
  obtain ⟨houtput, hcode⟩ := hsame [] ["9".toList]
  obtain ⟨hrecorded, hzero⟩ := hsieve ["--backend".toList, "process".toList, "9".toList]
    { bound := some 9, backend := some .process } rfl
  exact ⟨houtput, hcode, hrecorded, hzero⟩

end CommandLine.Setting

end SieveChain
