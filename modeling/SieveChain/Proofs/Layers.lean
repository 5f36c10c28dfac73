import SieveChain.CommandLine.Answer
import SieveChain.Proofs.Documents
import SieveChain.Proofs.Numerals

/-!
# Layers of a configuration

The values of a configuration come in layers: what is given on the command line stands for what
the file says, and that for what holds by default. The lower bound has to be two at least in the
end; it also has to be in the file, if the file gives one, and then it does not help to give another
on the command line.
-/

namespace SieveChain

open Toml

/-- A layer of a configuration gives some of its values. -/
structure Layer where
  low : Option Int32 := none
  high : Option Int32 := none
  backend : Option Backend := none

namespace Layer

/-- What a configuration comes to when a layer is put over it. -/
def override (l : Layer) (c : Config) : Config :=
  { low := l.low.getD c.low, high := l.high.getD c.high, backend := l.backend.getD c.backend }

/-- A document gives the values of a layer: the key of each that it has is in the document, with
an item of the right type. Other keys do not matter. -/
structure InDocument (l : Layer) (es : Entries) : Prop where
  low : Option.Rel (fun i v => i = .value (.integer v.toInt)) (es.item? "low".toList) l.low
  high : Option.Rel (fun i v => i = .value (.integer v.toInt)) (es.item? "high".toList) l.high
  backend : Option.Rel (fun i b => Config.variant i = .ok b) (es.item? "backend".toList) l.backend

/-- A layer over the defaults has a lower bound that is allowed, unless it gives another. -/
theorem leastLow_le_override {l : Layer} :
    Config.leastLow ≤ (l.override {}).low ↔ ∀ v, l.low = some v → Config.leastLow ≤ v := by
  obtain ⟨low, high, backend⟩ := l
  cases low with
  | none => exact ⟨fun _ v hv => (Option.some_ne_none v hv.symm).elim, fun _ => Int32.le_refl 2⟩
  | some v =>
    constructor
    · rintro h v' hv
      cases hv
      exact h
    · exact fun h => h v rfl

end Layer

/-! ## The layer of a file -/

namespace Config

theorem word_integer (v : Int32) : word (.value (.integer v.toInt)) = .ok v := by
  rw [word, Numeral.narrow_toInt]

theorem low_ne_high : "low".toList ≠ "high".toList := by decide

theorem low_ne_backend : "low".toList ≠ "backend".toList := by decide

theorem high_ne_backend : "high".toList ≠ "backend".toList := by decide

/-- Reading the entries of a document one by one puts its layer over a configuration. -/
theorem takeEntries_eq {es : Entries} {l : Layer} (h : l.InDocument es) (hes : es.Distinct)
    (c : Config) : es.foldlM takeEntry c = .ok (l.override c) := by
  induction es generalizing l c with
  | nil =>
    obtain ⟨low, high, backend⟩ := l
    obtain ⟨hlow, hhigh, hbackend⟩ := h
    cases hlow
    cases hhigh
    cases hbackend
    rfl
  | cons e es ih =>
    obtain ⟨k, i⟩ := e
    obtain ⟨low, high, backend⟩ := l
    obtain ⟨hlow, hhigh, hbackend⟩ := h
    obtain ⟨hk, hrest⟩ := List.nodup_cons.1 hes
    have habsent : Entries.item? es k = none := Entries.item?_eq_none.2 hk
    rw [Entries.item?_cons] at hlow hhigh hbackend
    rw [List.foldlM_cons]
    dsimp only at hlow hhigh hbackend ⊢
    -- Whichever key comes first, the rest of the entries is silent about it.
    by_cases hkl : k = "low".toList
    · rw [if_pos hkl.symm] at hlow
      rw [hkl, if_neg low_ne_high.symm] at hhigh
      rw [hkl, if_neg low_ne_backend.symm] at hbackend
      rw [hkl] at habsent
      cases hlow with
      | some heq =>
        rw [takeEntry, if_pos hkl, heq, word_integer]
        exact ih (l := ⟨none, high, backend⟩) ⟨habsent ▸ .none, hhigh, hbackend⟩ hrest _
    rw [if_neg (Ne.symm hkl)] at hlow
    by_cases hkh : k = "high".toList
    · rw [if_pos hkh.symm] at hhigh
      rw [hkh, if_neg high_ne_backend.symm] at hbackend
      rw [hkh] at habsent
      cases hhigh with
      | some heq =>
        rw [takeEntry, if_neg hkl, if_pos hkh, heq, word_integer]
        exact ih (l := ⟨low, none, backend⟩) ⟨hlow, habsent ▸ .none, hbackend⟩ hrest _
    rw [if_neg (Ne.symm hkh)] at hhigh
    by_cases hkb : k = "backend".toList
    · rw [if_pos hkb.symm] at hbackend
      rw [hkb] at habsent
      cases hbackend with
      | some heq =>
        rw [takeEntry, if_neg hkl, if_neg hkh, if_pos hkb, heq]
        exact ih (l := ⟨low, high, none⟩) ⟨hlow, hhigh, habsent ▸ .none⟩ hrest _
    rw [if_neg (Ne.symm hkb)] at hbackend
    rw [takeEntry, if_neg hkl, if_neg hkh, if_neg hkb]
    exact ih ⟨hlow, hhigh, hbackend⟩ hrest c

/-- A reader of documents finds each key of a document once. -/
def DocumentReader.Distinct (document? : DocumentReader) : Prop :=
  ∀ cs es, document? cs = some es → es.Distinct

theorem distinct_document : DocumentReader.Distinct Toml.parse := fun _ _ => distinct_parse

variable {document? : DocumentReader}

/-- A configuration that is put together from a document is that of its layer over the defaults, if
that one is valid. -/
theorem parseWith_eq (hdoc : document?.Distinct) {cs : List Char} {es : Entries} {l : Layer}
    (hp : document? cs = some es) (h : l.InDocument es) :
    parseWith document? cs =
      if (l.override {}).low < leastLow then .error (.lowTooSmall (l.override {}).low)
      else .ok (l.override {}) := by
  rw [parseWith, hp]
  dsimp only
  rw [takeEntries_eq h (hdoc _ _ hp)]
  dsimp only [validate]
  split <;> rfl

end Config

namespace CommandLine

open Config

/-- What the options give of a configuration themselves. -/
def Options.layer (o : Options) : Layer := { low := o.low, high := o.bound, backend := o.backend }

/-- The layer of the file that is asked for; without a file it gives nothing. -/
inductive Setting.LaysWith (s : Setting) (document? : DocumentReader) :
    Option (List Char) → Layer → Prop
  | absent : s.LaysWith document? none {}
  | file {path cs : List Char} {bytes : List UInt8} {es : Entries} {l : Layer}
      (hr : s.read path = .ok bytes) (hd : Utf8.decode? bytes = some cs)
      (hp : document? cs = some es) (h : l.InDocument es) : s.LaysWith document? (some path) l

abbrev Setting.Lays (s : Setting) : Option (List Char) → Layer → Prop := s.LaysWith Toml.parse

namespace Setting

variable {s : Setting} {r : Readers} {o : Options} {l : Layer}

/-- The context in which a file is told of. -/
def fileContext (path : List Char) : String :=
  "Config file " ++ String.ofList (Text.quoted path)

/-- The configuration before the options are looked at. -/
def loaded (s : Setting) (r : Readers) : Option (List Char) → Except Fault Config
  | some path => loadWith r.document? s.read path
  | none => .ok {}

theorem validated_eq (c : Config) :
    (match c.validate with
      | .error flaw => .error flaw.fault
      | .ok () => .ok c : Except Fault Config) =
    if c.low < leastLow then .error (Flaw.lowTooSmall c.low).fault else .ok c := by
  rw [validate]
  by_cases hlow : c.low < leastLow
  · rw [if_pos hlow, if_pos hlow]
  · rw [if_neg hlow, if_neg hlow]

/-- What the options give is put over what has been loaded, and has to be valid then. -/
theorem configurationWith_eq (s : Setting) (r : Readers) (o : Options) :
    s.configurationWith r o = (s.loaded r o.file).bind fun c =>
      let c := o.layer.override c
      if c.low < leastLow then .error (Flaw.lowTooSmall c.low).fault else .ok c := by
  unfold configurationWith loaded
  cases o.file with
  | none => exact validated_eq _
  | some path =>
    dsimp only
    cases loadWith r.document? s.read path with
    | error f => rfl
    | ok c => exact validated_eq (o.layer.override c)

/-- A file whose lower bound is not allowed is not loaded. -/
theorem loaded_of_lays (hdoc : r.document?.Distinct) {file : Option (List Char)}
    (h : s.LaysWith r.document? file l) :
    ((∀ v, l.low = some v → leastLow ≤ v) → s.loaded r file = .ok (l.override {})) ∧
      ∀ v, l.low = some v → v < leastLow → ∃ path, file = some path ∧
        s.loaded r file = .error (.within (fileContext path) (Flaw.lowTooSmall v).fault) := by
  cases h with
  | absent => exact ⟨fun _ => rfl, fun v hv => (Option.some_ne_none v hv.symm).elim⟩
  | @file path cs bytes es l hr hd hp h =>
    have hload : s.loaded r (some path) =
        inContext (fileContext path) (ofTextWith r.document? cs) := by
      rw [loaded, loadWith, hr]
      dsimp only
      rw [hd]
      rfl
    constructor
    · intro hle
      rw [hload, ofTextWith, parseWith_eq hdoc hp h,
        if_neg (Int32.not_lt.2 (Layer.leastLow_le_override.2 hle))]
      rfl
    · intro v hv hlt
      have hlow : (l.override {}).low = v := by
        rw [show (l.override {}).low = l.low.getD 2 from rfl, hv, Option.getD_some]
      refine ⟨path, rfl, ?_⟩
      rw [hload, ofTextWith, parseWith_eq hdoc hp h, hlow, if_pos hlt]
      rfl

/-- If the file gives no lower bound below two, all depends on the lower bound in the end. -/
theorem configurationWith_of_lays (hdoc : r.document?.Distinct)
    (h : s.LaysWith r.document? o.file l) (hle : ∀ v, l.low = some v → leastLow ≤ v) :
    s.configurationWith r o =
      let effective := o.layer.override (l.override {})
      if effective.low < leastLow then .error (Flaw.lowTooSmall effective.low).fault
      else .ok effective := by
  rw [configurationWith_eq, (loaded_of_lays hdoc h).1 hle]
  rfl

/-- If the file gives a lower bound below two, there is no configuration. -/
theorem configurationWith_refused (hdoc : r.document?.Distinct)
    (h : s.LaysWith r.document? o.file l) {v : Int32} (hv : l.low = some v) (hlt : v < leastLow) :
    ∃ path, o.file = some path ∧
      s.configurationWith r o = .error (.within (fileContext path) (Flaw.lowTooSmall v).fault) := by
  obtain ⟨path, hpath, hloaded⟩ := (loaded_of_lays hdoc h).2 v hv hlt
  refine ⟨path, hpath, ?_⟩
  rw [configurationWith_eq, hloaded]
  rfl

/-- Which configuration comes of a file and options. Each of its values is the one of the options,
or else of the file, or else the default. There is none if its lower bound is below two, and for one
more reason: the file gives a lower bound below two, be it that the options give another. -/
theorem configuration_in_layers (h : s.Lays o.file l) :
    let effective := o.layer.override (l.override {})
    (∀ c, s.configuration o = .ok c ↔
      c = effective ∧ leastLow ≤ effective.low ∧ ∀ v, l.low = some v → leastLow ≤ v) ∧
    (∀ v, l.low = some v → v < leastLow → ∃ path, o.file = some path ∧
      s.configuration o = .error (.within (fileContext path) (Flaw.lowTooSmall v).fault)) ∧
    ((∀ v, l.low = some v → leastLow ≤ v) → effective.low < leastLow →
      s.configuration o = .error (Flaw.lowTooSmall effective.low).fault) := by
  intro effective
  have hsettled (hle : ∀ v, l.low = some v → leastLow ≤ v) : s.configuration o =
      if effective.low < leastLow then .error (Flaw.lowTooSmall effective.low).fault
      else .ok effective := configurationWith_of_lays distinct_document h hle
  have hrefused (v : Int32) (hv : l.low = some v) (hlt : v < leastLow) : ∃ path,
      o.file = some path ∧
        s.configuration o = .error (.within (fileContext path) (Flaw.lowTooSmall v).fault) :=
    configurationWith_refused distinct_document h hv hlt
  refine ⟨fun c => ?_, hrefused, fun hle hlt => by rw [hsettled hle, if_pos hlt]⟩
  constructor
  · intro hc
    have hle : ∀ v, l.low = some v → leastLow ≤ v := by
      refine fun v hv => Int32.not_lt.1 fun hlt => ?_
      obtain ⟨path, -, herror⟩ := hrefused v hv hlt
      rw [herror] at hc
      cases hc
    rw [hsettled hle] at hc
    split at hc
    · cases hc
    · next hlt =>
      cases hc
      exact ⟨rfl, Int32.not_lt.1 hlt, hle⟩
  · rintro ⟨rfl, hle, hfile⟩
    rw [hsettled hfile, if_neg (Int32.not_lt.2 hle)]

/-- A file with a lower bound of three, and a bound on the command line. -/
theorem configuration_in_layers_bound :
    let s : Setting := { read := fun _ => .ok (Utf8.encode "low = 3".toList) }
    s.configuration { bound := some 9, file := some "c.toml".toList } =
      .ok { low := 3, high := 9, backend := .process } := by
  intro s
  have hp : Toml.parse "low = 3".toList = some [("low".toList, .value (.integer 3))] := rfl
  have h : s.Lays (some "c.toml".toList) { low := some 3 } :=
    .file rfl rfl hp ⟨.some rfl, .none, .none⟩
  refine ((configuration_in_layers (o := { bound := some 9, file := some "c.toml".toList }) h).1
    _).2 ⟨rfl, by decide, ?_⟩
  rintro v hv
  cases hv
  decide

/-- The lower bound of a file counts although the command line gives another. -/
theorem overridden_low_counts :
    ¬ ∀ (s : Setting) (o : Options) (l : Layer), s.Lays o.file l →
      ∀ c, s.configuration o = .ok c ↔
        c = o.layer.override (l.override {}) ∧
          leastLow ≤ (o.layer.override (l.override {})).low := by
  intro h
  let s : Setting := { read := fun _ => .ok (Utf8.encode "low = 1".toList) }
  have hp : Toml.parse "low = 1".toList = some [("low".toList, .value (.integer 1))] := rfl
  have hlays : s.Lays (some "c.toml".toList) { low := some 1 } :=
    .file rfl rfl hp ⟨.some rfl, .none, .none⟩
  let o : Options :=
    { low := some 2, bound := some 9, backend := some .thread, file := some "c.toml".toList }
  have hok := (h s o _ hlays { low := 2, high := 9, backend := .thread }).2 ⟨rfl, by decide⟩
  obtain ⟨path, -, hrefused⟩ := configurationWith_refused (r := {}) (o := o) distinct_document
    hlays rfl (by decide)
  cases hok.symm.trans hrefused

end Setting

end CommandLine

end SieveChain
