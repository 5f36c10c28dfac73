import SieveChain.Host.Processes
import SieveChain.Proofs.Numerals

/-!
# What arguments ask for

Arguments that are put together from options ask for just these options, and the arguments with
which a program is run as a stage ask for a stage under the same ceiling. Which backend is named
among the arguments has no influence on anything but the backend.
-/

namespace SieveChain.CommandLine

/-! ## Numerals among arguments -/

namespace Reading

/-- How far a number has been read when a character follows. -/
def numberStep (state : Option (Nat × Bool × Bool)) (c : Char) : Option (Nat × Bool × Bool) :=
  state.bind fun (i, dotted, raised) =>
    if '0' ≤ c ∧ c ≤ '9' then some (i + 1, dotted, raised)
    else if c = '.' ∧ ¬dotted ∧ ¬raised ∧ 0 < i then some (i + 1, true, raised)
    else if (c = 'e' ∨ c = 'E') ∧ ¬raised ∧ 0 < i then some (i + 1, dotted, true)
    else none

theorem isNumber_eq (cs : List Char) :
    isNumber cs = match cs.foldl numberStep (some (0, false, false)) with
      | none => false
      | some _ => cs.getLast? != some 'e' && cs.getLast? != some 'E' := rfl

theorem isNumber_of_digits {cs : List Char} (h : ∀ c ∈ cs, '0' ≤ c ∧ c ≤ '9') :
    isNumber cs = true := by
  have hfold : ∀ i, cs.foldl numberStep (some (i, false, false)) =
      some (i + cs.length, false, false) := by
    induction cs with
    | nil => exact fun i => rfl
    | cons c cs ih =>
      intro i
      have hstep : numberStep (some (i, false, false)) c = some (i + 1, false, false) :=
        if_pos (h c List.mem_cons_self)
      rw [List.foldl_cons, hstep, ih (fun c hc => h c (List.mem_cons_of_mem _ hc)),
        List.length_cons, Nat.add_right_comm, Nat.add_assoc]
  have hlast : ∀ e : Char, ¬e ≤ '9' → cs.getLast? ≠ some e := fun e he hlast =>
    he (h e (List.mem_of_getLast? hlast)).2
  rw [isNumber_eq, hfold]
  exact Bool.and_eq_true_iff.2 ⟨bne_iff_ne.2 (hlast 'e' (by decide)),
    bne_iff_ne.2 (hlast 'E' (by decide))⟩

variable {r : Reading}

/-- The numeral of a word is a value where a number can be one. -/
theorem next_numeral (hl : r.literal = false) (ha : r.awaitsNumber = true) (v : Int32) :
    r.next (Numeral.ofInt v.toInt) = r.value (Numeral.ofInt v.toInt) := by
  unfold next
  rw [if_neg (by rw [hl]; exact Bool.false_ne_true)]
  cases v.toInt with
  | ofNat n =>
    have hsign : ∀ cs, Numeral.ofInt (.ofNat n) ≠ '-' :: cs := Numeral.ofNat_ne_cons (by decide) n
    split
    · next h => exact absurd h (hsign _)
    · next h => exact absurd h (hsign _)
    · next h => exact absurd h (hsign _)
    · rfl
  | negSucc n =>
    have hsign : ∀ cs, Numeral.ofNat (n + 1) ≠ '-' :: cs := Numeral.ofNat_ne_cons (by decide) _
    split
    · next h => exact absurd (List.tail_eq_of_cons_eq h) (hsign _)
    · next h => exact absurd (List.tail_eq_of_cons_eq h) (hsign _)
    · next c rest _ _ h =>
      have hnumber : isNumber (c :: rest) = true := by
        rw [← List.tail_eq_of_cons_eq h]
        exact isNumber_of_digits (Numeral.digits_ofNat _)
      rw [if_pos (by rw [ha, hnumber]; rfl)]
    · rfl

/-! ## The choice of a backend -/

end Reading

/-- Options with another backend. -/
def Options.choose (o : Options) (b : Backend) : Options := { o with backend := some b }

/-- A request for which another backend has been chosen. -/
def Request.choose : Request → Backend → Request
  | .sieve o, b => .sieve (o.choose b)
  | request, _ => request

/-- A reading for which a backend has been chosen, so that it has begun. -/
def Reading.choose (r : Reading) (b : Backend) : Reading :=
  { r with options := r.options.choose b, begun := true }

def Reading.Outcome.choose : Outcome → Backend → Outcome
  | .misuse, _ => .misuse
  | .answer request, b => .answer (request.choose b)
  | .goOn r, b => .goOn (r.choose b)

namespace Reading

variable {r : Reading} {b b' : Backend}

theorem take_choose (r : Reading) (b b' : Backend) (o : Valued) (cs : List Char) :
    (r.choose b').take o cs = ((r.choose b).take o cs).map (·.choose b') := by
  unfold take fill choose Options.choose
  cases o with
  | low =>
    dsimp only
    cases r.options.low <;> cases Numeral.int32? cs <;> rfl
  | backend => rfl
  | file =>
    dsimp only
    cases r.options.file <;> cases cs.isEmpty <;> rfl
  | ceiling =>
    dsimp only
    cases r.ceiling <;> cases Numeral.int32? cs <;> rfl

theorem takeBound_choose (r : Reading) (b b' : Backend) (cs : List Char) :
    (r.choose b').takeBound cs = ((r.choose b).takeBound cs).map (·.choose b') := by
  unfold takeBound fill choose Options.choose
  dsimp only
  cases r.verb with
  | sieve =>
    dsimp only
    cases r.options.bound <;> cases Numeral.int32? cs <;> rfl
  | stage => rfl

theorem ofTaken_choose (r? : Option Reading) (b : Backend) :
    Outcome.ofTaken (r?.map (·.choose b)) = (Outcome.ofTaken r?).choose b := by
  cases r? <;> rfl

theorem option_choose (r : Reading) (b b' : Backend) (attached : Option (List Char)) (m : Meaning) :
    (r.choose b').option attached m = ((r.choose b).option attached m).choose b' := by
  cases m with
  | value o =>
    cases attached with
    | some cs =>
      show Outcome.ofTaken ((r.choose b').take o cs) = _
      rw [take_choose r b b', ofTaken_choose]
      rfl
    | none => rfl
  | help => cases attached <;> rfl
  | version => cases attached <;> rfl

theorem verb_choose (r : Reading) (b : Backend) : (r.choose b).verb = r.verb := rfl

theorem waiting_choose (r : Reading) (b : Backend) : (r.choose b).waiting = r.waiting := rfl

theorem awaitsNumber_choose (r : Reading) (b : Backend) :
    (r.choose b).awaitsNumber = r.awaitsNumber := rfl

theorem long_choose (r : Reading) (b b' : Backend) (cs : List Char) :
    (r.choose b').long cs = ((r.choose b).long cs).choose b' := by
  unfold long
  simp only [verb_choose]
  cases r.verb.long? (cs.takeWhile (· != '=')) with
  | none => rfl
  | some meaning => exact option_choose r b b' _ meaning

theorem short_choose (r : Reading) (b b' : Backend) (c : Char) (cs : List Char) :
    (r.choose b').short c cs = ((r.choose b).short c cs).choose b' := by
  unfold short
  simp only [verb_choose]
  cases r.verb.short? c with
  | none => rfl
  | some meaning =>
    cases meaning with
    | value o => exact option_choose r b b' _ _
    | help => exact option_choose r b b' none .help
    | version => exact option_choose r b b' none .version

theorem value_choose (r : Reading) (b b' : Backend) (cs : List Char) :
    (r.choose b').value cs = ((r.choose b).value cs).choose b' := by
  unfold value
  simp only [waiting_choose]
  cases r.waiting with
  | none =>
    dsimp only
    rw [takeBound_choose r b b', ofTaken_choose]
  | some o =>
    dsimp only
    rw [take_choose r b b', ofTaken_choose]

/-- What comes of an argument does not depend on the backend that has been chosen before. -/
theorem next_choose (r : Reading) (b b' : Backend) (cs : List Char) :
    (r.choose b').next cs = ((r.choose b).next cs).choose b' := by
  unfold next
  by_cases hl : r.literal = true
  · rw [if_pos (show (r.choose b').literal = true from hl),
      if_pos (show (r.choose b).literal = true from hl), takeBound_choose r b b', ofTaken_choose]
  rw [if_neg (show ¬(r.choose b').literal = true from hl),
    if_neg (show ¬(r.choose b).literal = true from hl)]
  split
  · rw [waiting_choose, waiting_choose]
    cases r.waiting.isSome <;> rfl
  · rw [waiting_choose, waiting_choose]
    cases r.waiting.isSome with
    | true => rfl
    | false => exact long_choose r b b' _
  · rw [waiting_choose, waiting_choose, awaitsNumber_choose, awaitsNumber_choose]
    split
    · exact value_choose r b b' _
    · cases r.waiting.isSome with
      | true => rfl
      | false => exact short_choose r b b' _ _
  · exact value_choose r b b' _

/-- What is asked for when an argument has come out in some way and others follow. -/
def Outcome.follow (rest : List (List Char)) : Outcome → Option Request
  | .misuse => none
  | .answer request => some request
  | .goOn r => r.parse rest

theorem parse_cons {cs : List Char} (hstage : cs ≠ "stage".toList) (hhelp : cs ≠ "help".toList)
    (r : Reading) (rest : List (List Char)) :
    r.parse (cs :: rest) = (r.next cs).follow rest := by
  rw [parse, if_neg fun h => hstage h.2, if_neg fun h => hhelp h.2]
  cases r.next cs <;> rfl

/-- A reading that has begun looks for no command any more. -/
theorem parse_cons_of_begun {r : Reading} (h : r.begun = true) (cs : List Char)
    (rest : List (List Char)) : r.parse (cs :: rest) = (r.next cs).follow rest := by
  have hverb : r.awaitsVerb = false := by
    rw [awaitsVerb, h, Bool.not_true, Bool.and_false, Bool.false_and]
  rw [parse, if_neg (by rw [hverb]; exact fun h => Bool.false_ne_true h.1),
    if_neg (by rw [hverb]; exact fun h => Bool.false_ne_true h.1)]
  cases r.next cs <;> rfl

/-- What has been asked for does not depend on the backend, but for the backend itself. -/
theorem parse_choose (r : Reading) (b b' : Backend) (arguments : List (List Char)) :
    (r.choose b').parse arguments = ((r.choose b).parse arguments).map (·.choose b') := by
  induction arguments generalizing r with
  | nil =>
    rw [parse, parse]
    unfold finish
    rw [waiting_choose, waiting_choose, verb_choose, verb_choose]
    cases r.waiting with
    | some o => rfl
    | none => cases r.verb <;> rfl
  | cons cs rest ih =>
    rw [parse_cons_of_begun rfl, parse_cons_of_begun rfl, next_choose r b b' cs]
    -- A reading that goes on keeps the backend, so it is a reading with that choice itself.
    have hself := next_choose r b b cs
    cases hout : (r.choose b).next cs with
    | misuse => rfl
    | answer request => rfl
    | goOn r' =>
      rw [hout] at hself
      obtain hself : r' = r'.choose b := Outcome.goOn.inj hself
      show (r'.choose b').parse rest = (r'.parse rest).map (·.choose b')
      rw [hself]
      exact ih r'

/-! ### A backend among arguments -/

theorem ofTaken_ne_answer (r? : Option Reading) (request : Request) :
    Outcome.ofTaken r? ≠ .answer request := by
  cases r? with
  | none => exact Outcome.noConfusion
  | some r => exact Outcome.noConfusion

theorem choose_of_option {attached : Option (List Char)} {m : Meaning} {request : Request}
    (h : r.option attached m = .answer request) (b : Backend) : request.choose b = request := by
  cases m with
  | value o =>
    cases attached with
    | none => cases h
    | some cs => exact absurd h (ofTaken_ne_answer _ _)
  | help =>
    cases attached with
    | none =>
      cases h
      rfl
    | some cs => cases h
  | version =>
    cases attached with
    | none =>
      cases h
      rfl
    | some cs => cases h

theorem choose_of_long {cs : List Char} {request : Request} (h : r.long cs = .answer request)
    (b : Backend) : request.choose b = request := by
  unfold long at h
  dsimp only at h
  cases hm : r.verb.long? (cs.takeWhile (· != '=')) with
  | none =>
    rw [hm] at h
    cases h
  | some meaning =>
    rw [hm] at h
    exact choose_of_option h b

theorem choose_of_short {c : Char} {cs : List Char} {request : Request}
    (h : r.short c cs = .answer request) (b : Backend) : request.choose b = request := by
  unfold short at h
  split at h
  · exact choose_of_option h b
  · exact choose_of_option h b
  · cases h

theorem value_ne_answer (r : Reading) (cs : List Char) (request : Request) :
    r.value cs ≠ .answer request := by
  unfold value
  split <;> exact ofTaken_ne_answer _ _

/-- What an argument alone asks for has nothing to do with a backend. -/
theorem choose_of_next {cs : List Char} {request : Request} (h : r.next cs = .answer request)
    (b : Backend) : request.choose b = request := by
  unfold next at h
  split at h
  · exact absurd h (ofTaken_ne_answer _ _)
  · split at h
    · split at h <;> cases h
    · split at h
      · cases h
      · exact choose_of_long h b
    · split at h
      · exact absurd h (value_ne_answer _ _ _)
      · split at h
        · cases h
        · exact choose_of_short h b
    · exact absurd h (value_ne_answer _ _ _)

/-- The option for a backend is misplaced, or waits for its value. -/
theorem next_backend (r : Reading) :
    r.next "--backend".toList = .misuse ∨
      r.literal = false ∧
        r.next "--backend".toList = .goOn { r with waiting := some .backend, begun := true } := by
  obtain ⟨verb, ⟨bound, low, backend, file⟩, ceiling, waiting, begun, literal⟩ := r
  cases literal with
  | true =>
    refine .inl ?_
    cases verb with
    | stage => rfl
    | sieve => cases bound <;> rfl
  | false =>
    cases waiting with
    | some o => exact .inl rfl
    | none =>
      cases verb with
      | stage => exact .inl rfl
      | sieve => exact .inr ⟨rfl, rfl⟩

/-- The value of the option for a backend is its name. -/
theorem next_backendName (hl : r.literal = false) (hb : r.options.backend = none) (b : Backend) :
    { r with waiting := some .backend, begun := true }.next b.name.toList =
      .goOn ({ r with waiting := none }.choose b) := by
  obtain ⟨verb, ⟨bound, low, backend, file⟩, ceiling, waiting, begun, literal⟩ := r
  obtain rfl : literal = false := hl
  obtain rfl : backend = none := hb
  cases b <;> rfl

/-- The option for a backend is given once. -/
theorem next_backendAgain (hl : r.literal = false) {b' : Backend}
    (hb : r.options.backend = some b') (b : Backend) :
    { r with waiting := some .backend, begun := true }.next b.name.toList = .misuse := by
  obtain ⟨verb, ⟨bound, low, backend, file⟩, ceiling, waiting, begun, literal⟩ := r
  obtain rfl : literal = false := hl
  obtain rfl : backend = some b' := hb
  cases b <;> rfl

theorem pageOf?_append_cons_cons (before after : List (List Char)) (cs cs' : List Char) :
    pageOf? (before ++ cs :: cs' :: after) = none := by
  cases before with
  | nil => rfl
  | cons x before => cases before <;> rfl

/-- Which backend is named, wherever among the arguments, does not matter for anything else that
is asked for. -/
theorem parse_backend (r : Reading) (b b' : Backend) (before after : List (List Char)) :
    r.parse (before ++ "--backend".toList :: b'.name.toList :: after) =
      (r.parse (before ++ "--backend".toList :: b.name.toList :: after)).map (·.choose b') := by
  induction before generalizing r with
  | nil =>
    have hstage : "--backend".toList ≠ "stage".toList := by decide
    have hhelp : "--backend".toList ≠ "help".toList := by decide
    rw [List.nil_append, List.nil_append, parse_cons hstage hhelp, parse_cons hstage hhelp]
    rcases r.next_backend with hmisuse | ⟨hl, hwaits⟩
    · rw [hmisuse]
      rfl
    · rw [hwaits]
      dsimp only [Outcome.follow]
      rw [parse_cons_of_begun rfl, parse_cons_of_begun rfl]
      cases hb : r.options.backend with
      | some chosen =>
        rw [next_backendAgain hl hb, next_backendAgain hl hb]
        rfl
      | none =>
        rw [next_backendName hl hb, next_backendName hl hb]
        exact parse_choose _ b b' after
  | cons cs before ih =>
    rw [List.cons_append, List.cons_append, parse, parse, pageOf?_append_cons_cons,
      pageOf?_append_cons_cons]
    split
    · exact ih _
    · split
      · rfl
      · cases hout : r.next cs with
        | misuse => rfl
        | answer request =>
          show some request = some (request.choose b')
          rw [choose_of_next hout]
        | goOn r' => exact ih r'

/-! ## Arguments for requests -/

variable {o : Options}

theorem parse_low (ho : o.low = none) (begun : Bool) (low : Option Int32)
    (rest : List (List Char)) : ∃ begun',
      ({ options := o, begun } : Reading).parse
        (low.toList.flatMap (fun v => ["--low".toList, Numeral.ofInt v.toInt]) ++ rest) =
      ({ options := { o with low }, begun := begun' } : Reading).parse rest := by
  obtain ⟨bound, low', backend, file⟩ := o
  obtain rfl : low' = none := ho
  cases low with
  | none => exact ⟨begun, rfl⟩
  | some v =>
    refine ⟨true, ?_⟩
    show Reading.parse _ ("--low".toList :: Numeral.ofInt v.toInt :: rest) = _
    rw [parse_cons (by decide) (by decide)]
    let r : Reading :=
      { options := ⟨bound, none, backend, file⟩, waiting := some .low, begun := true }
    have ha : r.awaitsNumber = true := Bool.or_true _
    show r.parse (Numeral.ofInt v.toInt :: rest) = _
    rw [parse_cons_of_begun rfl, next_numeral rfl ha]
    unfold value take fill
    dsimp only
    rw [Numeral.int32?_ofInt]
    rfl

theorem parse_file (ho : o.file = none) (begun : Bool) {file : Option (List Char)}
    (hfile : file ≠ some []) (rest : List (List Char)) : ∃ begun',
      ({ options := o, begun } : Reading).parse
        (file.toList.map (fun path => "--config=".toList ++ path) ++ rest) =
      ({ options := { o with file }, begun := begun' } : Reading).parse rest := by
  obtain ⟨bound, low, backend, file'⟩ := o
  obtain rfl : file' = none := ho
  cases file with
  | none => exact ⟨begun, rfl⟩
  | some path =>
    refine ⟨true, ?_⟩
    cases path with
    | nil => exact absurd rfl hfile
    | cons c cs => cases begun <;> rfl

theorem parse_bound (ho : o.bound = none) (begun : Bool) (bound : Option Int32)
    (rest : List (List Char)) : ∃ begun',
      ({ options := o, begun } : Reading).parse
        (bound.toList.map (fun v => Numeral.ofInt v.toInt) ++ rest) =
      ({ options := { o with bound }, begun := begun' } : Reading).parse rest := by
  obtain ⟨bound', low, backend, file⟩ := o
  obtain rfl : bound' = none := ho
  cases bound with
  | none => exact ⟨begun, rfl⟩
  | some v =>
    refine ⟨true, ?_⟩
    show Reading.parse _ (Numeral.ofInt v.toInt :: rest) = _
    rw [parse_cons (Numeral.ofInt_ne_cons (by decide) (by decide) _ _)
      (Numeral.ofInt_ne_cons (by decide) (by decide) _ _), next_numeral rfl rfl]
    unfold value takeBound fill
    dsimp only
    rw [Numeral.int32?_ofInt]
    rfl

theorem parse_backendName (ho : o.backend = none) (begun : Bool) (backend : Option Backend) :
    ({ options := o, begun } : Reading).parse
      (backend.toList.flatMap fun b => ["--backend".toList, b.name.toList]) =
    some (.sieve { o with backend }) := by
  obtain ⟨bound, low, backend', file⟩ := o
  obtain rfl : backend' = none := ho
  cases backend with
  | none => rfl
  | some b => cases b <;> cases begun <;> rfl

end Reading

/-- Arguments that give options. The path of a file is attached, for it may begin with a hyphen. -/
def Options.arguments (o : Options) : List (List Char) :=
  o.low.toList.flatMap (fun v => ["--low".toList, Numeral.ofInt v.toInt]) ++
    (o.file.toList.map (fun path => "--config=".toList ++ path) ++
      (o.bound.toList.map (fun v => Numeral.ofInt v.toInt) ++
        o.backend.toList.flatMap fun b => ["--backend".toList, b.name.toList]))

/-- Arguments that give options ask for them, whatever numbers are among them. -/
theorem parse_arguments {o : Options} (hfile : o.file ≠ some []) :
    parse o.arguments = some (.sieve o) := by
  obtain ⟨begun, hlow⟩ := Reading.parse_low (o := {}) rfl false o.low _
  obtain ⟨begun', hpath⟩ := Reading.parse_file (o := { low := o.low }) rfl begun hfile _
  obtain ⟨begun'', hbound⟩ :=
    Reading.parse_bound (o := { low := o.low, file := o.file }) rfl begun' o.bound _
  rw [parse, Options.arguments, hlow, hpath, hbound, Reading.parse_backendName rfl]

/-- The arguments with which a program is run as a stage ask for a stage under the same ceiling. -/
theorem parse_stageArguments (ceiling : Option Int32) :
    parse (stageArguments ceiling) = some (.stage ceiling) := by
  cases ceiling with
  | none => rfl
  | some v =>
    show Reading.parse { verb := .stage, waiting := some .ceiling, begun := true }
      [Numeral.ofInt v.toInt] = _
    rw [Reading.parse_cons_of_begun rfl, Reading.next_numeral rfl rfl]
    unfold Reading.value Reading.take Reading.fill
    dsimp only
    rw [Numeral.int32?_ofInt]
    rfl

end SieveChain.CommandLine
