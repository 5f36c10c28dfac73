import SieveChain.Config.Basic

/-!
# Requests on the command line

What the arguments of the program ask for. Without a command the program sieves, up to
a bound and with options; the command `stage` is for a single stage, and `help` shows a
page. Arguments are looked at in their order, so the first of two requests for a page
is answered, and a mistake in front of it is a misuse.

An option is given once. Its value is the next argument or stands behind an equals
sign. Only a number may begin with a hyphen. Behind two hyphens there are no more
options.
-/

namespace SieveChain.CommandLine

/-- The pages of help. -/
inductive Page
  | program
  | stage
  | help
  deriving DecidableEq, Repr

/-- What overrides a configuration, and the file to load it from. -/
structure Options where
  bound : Option Int32 := none
  low : Option Int32 := none
  backend : Option Backend := none
  file : Option (List Char) := none
  deriving DecidableEq, Repr

/-- What the program is asked for. -/
inductive Request
  | page (p : Page)
  | version
  | sieve (options : Options)
  | stage (ceiling : Option Int32)
  deriving DecidableEq, Repr

/-- The commands that take options. -/
inductive Verb
  | sieve
  | stage
  deriving DecidableEq, Repr

/-- Options that take a value. -/
inductive Valued
  | low
  | backend
  | file
  | ceiling
  deriving DecidableEq, Repr

/-- What an option stands for. -/
inductive Meaning
  | value (o : Valued)
  | help
  | version
  deriving DecidableEq, Repr

def Verb.long? : Verb → List Char → Option Meaning
  | .sieve, name =>
    if name = "low".toList then some (.value .low)
    else if name = "config".toList then some (.value .file)
    else if name = "backend".toList then some (.value .backend)
    else if name = "help".toList then some .help
    else if name = "version".toList then some .version
    else none
  | .stage, name =>
    if name = "ceiling".toList then some (.value .ceiling)
    else if name = "help".toList then some .help
    else none

def Verb.short? : Verb → Char → Option Meaning
  | .sieve, 'c' => some (.value .file)
  | .sieve, 'h' => some .help
  | .sieve, 'V' => some .version
  | .stage, 'h' => some .help
  | _, _ => none

def Verb.page : Verb → Page
  | .sieve => .program
  | .stage => .stage

/-- What has been read of the arguments of a command: the options so far, the option
that waits for its value, whether anything but two hyphens has been seen, and whether
these have. -/
structure Reading where
  verb : Verb := .sieve
  options : Options := {}
  ceiling : Option Int32 := none
  waiting : Option Valued := none
  begun : Bool := false
  literal : Bool := false

namespace Reading

/-- Sets a place that is still empty to a value that can be read. -/
def fill {α β : Type} (place : Option α) (value : Option α) (put : α → β) : Option β :=
  match place with
  | none => value.map put
  | some _ => none

/-- Takes the value of an option; `none` if it is not one, or not the first. -/
def take (r : Reading) (o : Valued) (cs : List Char) : Option Reading :=
  let r := { r with waiting := none, begun := true }
  match o with
  | .low =>
    fill r.options.low (Numeral.int32? cs) fun v => { r with options.low := some v }
  | .backend =>
    fill r.options.backend (Backend.ofName? (String.ofList cs)) fun b =>
      { r with options.backend := some b }
  | .file =>
    fill r.options.file (if cs.isEmpty then none else some cs) fun path =>
      { r with options.file := some path }
  | .ceiling => fill r.ceiling (Numeral.int32? cs) fun v => { r with ceiling := some v }

/-- Takes an argument that is no option: it can only be the bound. -/
def takeBound (r : Reading) (cs : List Char) : Option Reading :=
  match r.verb with
  | .sieve =>
    fill r.options.bound (Numeral.int32? cs) fun v =>
      { r with begun := true, options.bound := some v }
  | .stage => none

/-- What comes of one argument. -/
inductive Outcome
  | misuse
  | answer (request : Request)
  | goOn (r : Reading)

/-- An argument that is taken, or not. -/
def Outcome.ofTaken : Option Reading → Outcome
  | none => .misuse
  | some r => .goOn r

/-- Takes an option, and its value if that is attached to it. -/
def option (r : Reading) (attached : Option (List Char)) : Meaning → Outcome
  | .value o =>
    match attached with
    | some cs => .ofTaken (r.take o cs)
    | none => .goOn { r with waiting := some o, begun := true }
  | .help => if attached.isNone then .answer (.page r.verb.page) else .misuse
  | .version => if attached.isNone then .answer .version else .misuse

def long (r : Reading) (cs : List Char) : Outcome :=
  let attached := match cs.dropWhile (· != '=') with
    | _ :: value => some value
    | [] => none
  match r.verb.long? (cs.takeWhile (· != '=')) with
  | some meaning => r.option attached meaning
  | none => .misuse

/-- Takes an option by its letter. What stands behind a letter is its value, or other
letters, which do not matter any more once a page has been asked for. -/
def short (r : Reading) (c : Char) (cs : List Char) : Outcome :=
  match r.verb.short? c with
  | some (.value o) =>
    let attached := match cs with
      | [] => none
      | '=' :: value => some value
      | value => some value
    r.option attached (.value o)
  | some meaning => r.option none meaning
  | none => .misuse

/-- Digits, of which one may be followed by a point and a later one by an exponent. -/
def isNumber (cs : List Char) : Bool :=
  let go := cs.foldl
    (fun (state : Option (Nat × Bool × Bool)) c =>
      state.bind fun (i, dotted, raised) =>
        if '0' ≤ c ∧ c ≤ '9' then some (i + 1, dotted, raised)
        else if c = '.' ∧ ¬dotted ∧ ¬raised ∧ 0 < i then some (i + 1, true, raised)
        else if (c = 'e' ∨ c = 'E') ∧ ¬raised ∧ 0 < i then some (i + 1, dotted, true)
        else none)
    (some (0, false, false))
  match go with
  | none => false
  | some _ => cs.getLast? != some 'e' && cs.getLast? != some 'E'

/-- Whether a negative number is a value here, be it of the option that waits for one or
of the bound. -/
def awaitsNumber (r : Reading) : Bool :=
  (r.verb == .sieve && r.options.bound.isNone) ||
    match r.waiting with
    | some .low => true
    | some .ceiling => true
    | _ => false

def value (r : Reading) (cs : List Char) : Outcome :=
  match r.waiting with
  | some o => .ofTaken (r.take o cs)
  | none => .ofTaken (r.takeBound cs)

/-- Takes one argument that is no command. An option that waits for its value cannot be
followed by another. -/
def next (r : Reading) (cs : List Char) : Outcome :=
  if r.literal then .ofTaken (r.takeBound cs)
  else
    match cs with
    | ['-', '-'] => if r.waiting.isSome then .misuse else .goOn { r with literal := true }
    | '-' :: '-' :: name => if r.waiting.isSome then .misuse else r.long name
    | '-' :: c :: rest =>
      if r.awaitsNumber && isNumber (c :: rest) then r.value cs
      else if r.waiting.isSome then .misuse
      else r.short c rest
    | _ => r.value cs

/-- What has been asked for when all arguments have been read. -/
def finish (r : Reading) : Option Request :=
  match r.waiting, r.verb with
  | some _, _ => none
  | none, .sieve => some (.sieve r.options)
  | none, .stage => some (.stage r.ceiling)

/-- A command is looked for as long as there is nothing in front of it. -/
def awaitsVerb (r : Reading) : Bool :=
  r.verb == .sieve && !r.begun && !r.literal

end Reading

/-- The page that is asked for by the names behind `help`. -/
def pageOf? : List (List Char) → Option Page
  | [] => some .program
  | [name] =>
    if name = "stage".toList then some .stage
    else if name = "help".toList then some .help
    else none
  | _ => none

def Reading.parse (r : Reading) : List (List Char) → Option Request
  | [] => r.finish
  | cs :: rest =>
    if r.awaitsVerb ∧ cs = "stage".toList then parse { verb := .stage } rest
    else if r.awaitsVerb ∧ cs = "help".toList then (pageOf? rest).map .page
    else
      match r.next cs with
      | .misuse => none
      | .answer request => some request
      | .goOn r => parse r rest

/-- A reader of arguments says what they ask for; `none` is misuse. -/
abbrev RequestReader := List (List Char) → Option Request

/-- What the arguments ask for. -/
def parse (arguments : List (List Char)) : Option Request := ({} : Reading).parse arguments

end SieveChain.CommandLine
