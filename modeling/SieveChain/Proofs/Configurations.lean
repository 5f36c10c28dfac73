import SieveChain.Proofs.Layers
import SieveChain.Proofs.Threads

/-!
# Configurations from documents

A text is a configuration exactly if it is a document, each of its bounds is absent or a whole
number that is a word, its backend is absent or spelled in one of a few ways, and its lower bound
is two at least. The order of the keys and all other keys do not matter. The candidates of a
configuration are the values between its bounds, and none of them is zero or one.
-/

namespace SieveChain

open Toml

/-! ## Values in a document -/

theorem Backend.ofName?_eq_some {name : String} {b : Backend} :
    Backend.ofName? name = some b ↔ name = b.name := by
  rw [Backend.ofName?]
  split
  · next h => cases b <;> simp [h, Backend.name]
  · next h =>
    split
    · next h' => cases b <;> simp [h', Backend.name]
    · next h' => cases b <;> simp [h, h', Backend.name]

namespace Config

theorem word_eq_ok {i : Item} {v : Int32} : word i = .ok v ↔ i = .value (.integer v.toInt) := by
  constructor
  · intro h
    unfold word at h
    split at h
    · next n =>
      split at h
      · next hn =>
        cases h
        rw [Numeral.narrow?_eq_some.1 hn]
      · cases h
    all_goals cases h
  · rintro rfl
    exact word_integer v

theorem named_eq_ok {name : List Char} {b : Backend} :
    named name = .ok b ↔ name = b.name.toList := by
  have hname : String.ofList name = b.name ↔ name = b.name.toList := by
    rw [← String.toList_inj, String.toList_ofList]
  rw [← hname, ← Backend.ofName?_eq_some, named]
  split
  · next b' hb' => simp [hb']
  · next hb' => simp [hb']

/-- An item with nothing in it. -/
inductive Hollow : Item → Prop
  | array : Hollow (.value (.array []))
  | inline : Hollow (.value (.table []))
  | table (origin : Origin) : Hollow (.table origin [])
  | tables : Hollow (.tables [])

theorem ite_isEmpty_eq_ok {α : Type} {xs : List α} {m : Mismatch}
    (h : (if xs.isEmpty then .ok () else .error m : Except Mismatch Unit) = .ok ()) : xs = [] := by
  split at h
  · exact List.isEmpty_iff.1 ‹_›
  · cases h

theorem bare_eq_ok {i : Item} : bare i = .ok () ↔ Hollow i := by
  constructor
  · intro h
    cases i with
    | value v =>
      cases v with
      | array items =>
        rw [ite_isEmpty_eq_ok h]
        exact .array
      | table entries =>
        rw [ite_isEmpty_eq_ok h]
        exact .inline
      | _ => cases h
    | table origin entries =>
      rw [ite_isEmpty_eq_ok h]
      exact .table origin
    | tables elements =>
      rw [ite_isEmpty_eq_ok h]
      exact .tables
  · intro h
    cases h <;> rfl

/-- How a backend is spelled: by its name, or as a table with its name as the only key and nothing
in what stands there. -/
inductive Spells (b : Backend) : Item → Prop
  | name : Spells b (.value (.string b.name.toList))
  | inline {v : Value} (h : Hollow (.value v)) : Spells b (.value (.table [(b.name.toList, v)]))
  | table {i : Item} (origin : Origin) (h : Hollow i) :
      Spells b (.table origin [(b.name.toList, i)])

theorem onlyKey_eq_ok {es : Entries} {b : Backend} :
    onlyKey es = .ok b ↔ ∃ i, es = [(b.name.toList, i)] ∧ Hollow i := by
  constructor
  · intro h
    unfold onlyKey at h
    split at h
    · cases h
    · next name i =>
      split at h
      · next b' hb' =>
        split at h
        · next hi =>
          cases h
          exact ⟨i, by rw [named_eq_ok.1 hb'], bare_eq_ok.1 hi⟩
        · cases h
      · cases h
    · cases h
  · rintro ⟨i, rfl, hi⟩
    rw [onlyKey, named_eq_ok.2 rfl, bare_eq_ok.2 hi]

theorem variant_eq_ok {i : Item} {b : Backend} : variant i = .ok b ↔ Spells b i := by
  constructor
  · intro h
    unfold variant at h
    split at h
    · next name =>
      rw [named_eq_ok.1 h]
      exact .name
    · next entries =>
      obtain ⟨i, hi, hollow⟩ := onlyKey_eq_ok.1 h
      obtain ⟨⟨k, v⟩, rfl, he⟩ := List.map_eq_singleton_iff.1 hi
      cases he
      exact .inline hollow
    · next origin entries =>
      obtain ⟨i, rfl, hollow⟩ := onlyKey_eq_ok.1 h
      exact .table origin hollow
    · cases h
  · intro h
    cases h with
    | name => exact named_eq_ok.2 rfl
    | inline h => exact onlyKey_eq_ok.2 ⟨_, rfl, h⟩
    | table origin h => exact onlyKey_eq_ok.2 ⟨_, rfl, h⟩

/-! ## What a document gives -/

/-- An item that is a word: the very number that it stands for. -/
def IsWord (v : Int32) (i : Item) : Prop := i = .value (.integer v.toInt)

/-- What holds for a key: what the item under it means, and without an item the default. -/
inductive Given {α : Type} (means : α → Item → Prop) (default : α) : Option Item → α → Prop
  | absent : Given means default none default
  | present {i : Item} {v : α} (h : means v i) : Given means default (some i) v

theorem given_iff {α : Type} {means : α → Item → Prop} {default v : α} {i? : Option Item} :
    Given means default i? v ↔
      ∃ v?, Option.Rel (fun i v => means v i) i? v? ∧ v = v?.getD default := by
  constructor
  · intro h
    cases h with
    | absent => exact ⟨none, .none, rfl⟩
    | present h => exact ⟨some v, .some h, rfl⟩
  · rintro ⟨v?, h, rfl⟩
    cases h with
    | none => exact .absent
    | some h => exact .present h

/-- What a document has to be for a configuration. No other keys are looked at. -/
structure DecodedFrom (c : Config) (es : Entries) : Prop where
  low : Given IsWord 2 (es.item? "low".toList) c.low
  high : Given IsWord 35 (es.item? "high".toList) c.high
  backend : Given Spells .process (es.item? "backend".toList) c.backend
  least : 2 ≤ c.low.toInt

theorem decodedFrom_iff {c : Config} {es : Entries} :
    c.DecodedFrom es ↔ ∃ l : Layer, l.InDocument es ∧ c = l.override {} ∧ 2 ≤ c.low.toInt := by
  constructor
  · rintro ⟨hlow, hhigh, hbackend, hleast⟩
    obtain ⟨low, hlow, heq⟩ := given_iff.1 hlow
    obtain ⟨high, hhigh, heq'⟩ := given_iff.1 hhigh
    obtain ⟨backend, hbackend, heq''⟩ := given_iff.1 hbackend
    simp only [← variant_eq_ok] at hbackend
    refine ⟨⟨low, high, backend⟩, ⟨hlow, hhigh, hbackend⟩, ?_, hleast⟩
    obtain ⟨low', high', backend'⟩ := c
    rw [Layer.override, Config.mk.injEq]
    exact ⟨heq, heq', heq''⟩
  · rintro ⟨l, ⟨hlow, hhigh, hbackend⟩, rfl, hleast⟩
    simp only [variant_eq_ok] at hbackend
    exact ⟨given_iff.2 ⟨_, hlow, rfl⟩, given_iff.2 ⟨_, hhigh, rfl⟩,
      given_iff.2 ⟨_, hbackend, rfl⟩, hleast⟩

/-- What is under the three keys decides, whatever the order of the entries and the others are. -/
theorem DecodedFrom.of_same {c : Config} {es es' : Entries} (hes : es.Distinct)
    (hes' : es'.Distinct)
    (h : ∀ k ∈ ["low", "high", "backend"], ∀ i, (k.toList, i) ∈ es ↔ (k.toList, i) ∈ es') :
    c.DecodedFrom es ↔ c.DecodedFrom es' := by
  have hsame : ∀ k ∈ ["low", "high", "backend"], es.item? k.toList = es'.item? k.toList := by
    intro k hk
    ext i
    rw [Entries.item?_eq_some hes, Entries.item?_eq_some hes']
    exact h k hk i
  rw [List.forall_mem_cons, List.forall_mem_cons, List.forall_mem_singleton] at hsame
  obtain ⟨hlow, hhigh, hbackend⟩ := hsame
  constructor
  · rintro ⟨low, high, backend, least⟩
    exact ⟨hlow ▸ low, hhigh ▸ high, hbackend ▸ backend, least⟩
  · rintro ⟨low, high, backend, least⟩
    exact ⟨hlow ▸ low, hhigh ▸ high, hbackend ▸ backend, least⟩

/-! ## Texts -/

theorem of_map_eq_ok {α β ε : Type} {r : Except ε α} {f : α → β} {b : β} (h : r.map f = .ok b) :
    ∃ a, r = .ok a := by
  cases r with
  | error e => cases h
  | ok a => exact ⟨a, rfl⟩

/-- An entry that is taken fits its key. -/
theorem fits_of_takeEntry {c c' : Config} {k : Key} {i : Item}
    (h : takeEntry c (k, i) = .ok c') :
    (k = "low".toList → ∃ v, word i = .ok v) ∧ (k = "high".toList → ∃ v, word i = .ok v) ∧
      (k = "backend".toList → ∃ b, variant i = .ok b) := by
  refine ⟨?_, ?_, ?_⟩
  · rintro rfl
    rw [takeEntry, if_pos rfl] at h
    exact of_map_eq_ok h
  · rintro rfl
    rw [takeEntry, if_neg low_ne_high.symm, if_pos rfl] at h
    exact of_map_eq_ok h
  · rintro rfl
    rw [takeEntry, if_neg low_ne_backend.symm, if_neg high_ne_backend.symm, if_pos rfl] at h
    exact of_map_eq_ok h

/-- If a document is taken, so is each of its entries. -/
theorem exists_takeEntry {es : Entries} {c c' : Config} (h : es.foldlM takeEntry c = .ok c') :
    ∀ e ∈ es, ∃ before after, takeEntry before e = .ok after := by
  induction es generalizing c with
  | nil => exact List.forall_mem_nil _
  | cons e es ih =>
    rw [List.foldlM_cons] at h
    cases htake : takeEntry c e with
    | error m =>
      rw [htake] at h
      cases h
    | ok next =>
      rw [htake] at h
      exact List.forall_mem_cons.2 ⟨⟨c, next, htake⟩, ih h⟩

theorem exists_rel {α β : Type} {r : α → β → Prop} {a? : Option α}
    (h : ∀ a, a? = some a → ∃ b, r a b) : ∃ b?, Option.Rel r a? b? := by
  cases a? with
  | none => exact ⟨none, .none⟩
  | some a =>
    obtain ⟨b, hb⟩ := h a rfl
    exact ⟨some b, .some hb⟩

/-- A document that is taken gives a layer. -/
theorem exists_inDocument {es : Entries} {c c' : Config} (hes : es.Distinct)
    (h : es.foldlM takeEntry c = .ok c') : ∃ l : Layer, l.InDocument es := by
  have hfits : ∀ k i, es.item? k = some i →
      (k = "low".toList → ∃ v, word i = .ok v) ∧ (k = "high".toList → ∃ v, word i = .ok v) ∧
        (k = "backend".toList → ∃ b, variant i = .ok b) := by
    intro k i hi
    obtain ⟨before, after, htake⟩ := exists_takeEntry h _ ((Entries.item?_eq_some hes).1 hi)
    exact fits_of_takeEntry htake
  simp only [word_eq_ok] at hfits
  obtain ⟨low, hlow⟩ := exists_rel fun i hi => (hfits _ i hi).1 rfl
  obtain ⟨high, hhigh⟩ := exists_rel fun i hi => (hfits _ i hi).2.1 rfl
  obtain ⟨backend, hbackend⟩ := exists_rel fun i hi => (hfits _ i hi).2.2 rfl
  exact ⟨⟨low, high, backend⟩, hlow, hhigh, hbackend⟩

theorem not_lt_leastLow {v : Int32} : ¬v < leastLow ↔ 2 ≤ v.toInt := by
  rw [Int32.lt_iff_toInt_lt]
  exact Int.not_lt

variable {document? : DocumentReader} {cs : List Char} {c : Config}

/-- A text that is read as a configuration is a document, and gives a layer. -/
theorem exists_layer_of_parse (hdoc : document?.Distinct) (h : parseWith document? cs = .ok c) :
    ∃ es, document? cs = some es ∧ ∃ l : Layer, l.InDocument es := by
  rw [parseWith] at h
  cases hp : document? cs with
  | none =>
    rw [hp] at h
    cases h
  | some es =>
    rw [hp] at h
    dsimp only at h
    split at h
    · cases h
    · next hfold => exact ⟨es, rfl, exists_inDocument (hdoc _ _ hp) hfold⟩

theorem parseWith_eq_ok (hdoc : document?.Distinct) :
    parseWith document? cs = .ok c ↔ ∃ es, document? cs = some es ∧ c.DecodedFrom es := by
  constructor
  · intro h
    obtain ⟨es, hp, l, hl⟩ := exists_layer_of_parse hdoc h
    rw [parseWith_eq hdoc hp hl] at h
    split at h
    · cases h
    · next hlow =>
      cases h
      exact ⟨es, hp, decodedFrom_iff.2 ⟨l, hl, rfl, not_lt_leastLow.1 hlow⟩⟩
  · rintro ⟨es, hp, hd⟩
    obtain ⟨l, hl, rfl, hlow⟩ := decodedFrom_iff.1 hd
    rw [parseWith_eq hdoc hp hl, if_neg (not_lt_leastLow.2 hlow)]

/-- Whatever reads documents, a text is read as what it says as a document. -/
theorem ofTextWith_eq_ok (hdoc : document?.Distinct) :
    ofTextWith document? cs = .ok c ↔ ∃ es, document? cs = some es ∧ c.DecodedFrom es := by
  rw [← parseWith_eq_ok hdoc, ofTextWith]
  cases parseWith document? cs with
  | error flaw => simp only [Except.mapError, reduceCtorEq]
  | ok c' => simp only [Except.mapError, Except.ok.injEq]

/-- Whatever reads documents, a text that is read as nothing is a fault of the configuration. -/
theorem root_kind_of_ofTextWith {f : Fault} (h : ofTextWith document? cs = .error f) :
    f.root.kind = .config := by
  rw [ofTextWith] at h
  cases hp : parseWith document? cs with
  | error flaw =>
    rw [hp] at h
    cases h
    rfl
  | ok c =>
    rw [hp] at h
    cases h

/-- Two documents with the same entries under the three keys are read as the same. -/
theorem ofTextWith_same (hdoc : document?.Distinct) {cs' : List Char} {es es' : Entries}
    (hp : document? cs = some es) (hp' : document? cs' = some es')
    (hsame : ∀ k ∈ ["low", "high", "backend"], ∀ i, (k.toList, i) ∈ es ↔ (k.toList, i) ∈ es') :
    ofTextWith document? cs = .ok c ↔ ofTextWith document? cs' = .ok c := by
  simp only [ofTextWith_eq_ok hdoc, hp, hp', Option.some.injEq, exists_eq_left']
  exact DecodedFrom.of_same (hdoc _ _ hp) (hdoc _ _ hp') hsame

/-! ## Candidates -/

theorem length_values_candidates (c : Config) :
    (c.candidates.values.length : Int) = max (c.high.toInt - c.low.toInt) 0 := by
  rw [Candidates.values, List.length_map, List.length_range, Threads.count_candidates]
  exact Int.toNat_eq_max _

theorem mem_values_candidates {c : Config} {v : Int32} :
    v ∈ c.candidates.values ↔ c.low.toInt ≤ v.toInt ∧ v.toInt < c.high.toInt := by
  have hstart : c.candidates.start = c.low := rfl
  rw [Candidates.mem_values, Threads.toInt_stop, hstart]
  omega

theorem start_le_stop (c : Config) : c.candidates.start ≤ c.candidates.stop := by
  have hstart : c.candidates.start = c.low := rfl
  rw [Int32.le_iff_toInt_le, Threads.toInt_stop, hstart]
  exact Int.le_max_left _ _

/-! ## Decoding -/

/-- Decoding a text. It yields a configuration exactly if the text is a document and the
configuration is what the document says; else there is a fault of the configuration. Two documents
with the same entries under the three keys yield the same, in whatever order these and any others
come. The candidates of a configuration that has been decoded are the values between its bounds, of
which none is below two, and nothing is lost or wraps around. -/
theorem ofText_decodes (cs : List Char) :
    (∀ c, ofText cs = .ok c ↔ ∃ es, Toml.parse cs = some es ∧ c.DecodedFrom es) ∧
    (∀ f, ofText cs = .error f → f.root.kind = .config) ∧
    (∀ cs' es es', Toml.parse cs = some es → Toml.parse cs' = some es' →
      (∀ k ∈ ["low", "high", "backend"], ∀ i, (k.toList, i) ∈ es ↔ (k.toList, i) ∈ es') →
      ∀ c, ofText cs = .ok c ↔ ofText cs' = .ok c) ∧
    ∀ c, ofText cs = .ok c →
      c.candidates.start ≤ c.candidates.stop ∧
      (∀ v, v ∈ c.candidates.values ↔ c.low.toInt ≤ v.toInt ∧ v.toInt < c.high.toInt) ∧
      (∀ v ∈ c.candidates.values, 2 ≤ v.toInt) ∧
      (c.candidates.values.length : Int) = max (c.high.toInt - c.low.toInt) 0 := by
  refine ⟨fun c => ofTextWith_eq_ok distinct_document, fun f => root_kind_of_ofTextWith, ?_, ?_⟩
  · exact fun cs' es es' hp hp' hsame c => ofTextWith_same distinct_document hp hp' hsame
  · intro c h
    obtain ⟨es, -, hd⟩ := (ofTextWith_eq_ok distinct_document).1 h
    have hmem : ∀ v, v ∈ c.candidates.values ↔
        c.low.toInt ≤ v.toInt ∧ v.toInt < c.high.toInt := fun v => mem_values_candidates
    refine ⟨c.start_le_stop, hmem, fun v hv => ?_, c.length_values_candidates⟩
    exact Int.le_trans hd.least ((hmem v).1 hv).1

/-- Keys in another order, with an unknown one among them and a backend as a table, and a number
that would wrap around to two. -/
theorem ofText_decodes_unordered :
    let c : Config := { low := 3, high := 10, backend := .thread }
    ofText "high = 10\nlevel = true\nlow = 3\n[backend.thread]".toList = .ok c ∧
      (c.candidates.values.length : Int) = 7 ∧
      ∀ c', ofText "low = 4294967298".toList ≠ .ok c' := by
  intro c
  have hp : Toml.parse "high = 10\nlevel = true\nlow = 3\n[backend.thread]".toList =
      some [("high".toList, .value (.integer 10)), ("level".toList, .value (.boolean true)),
        ("low".toList, .value (.integer 3)),
        ("backend".toList, .table .header [("thread".toList, .table .stated [])])] := rfl
  obtain ⟨hiff, -, -, hcandidates⟩ :=
    ofText_decodes "high = 10\nlevel = true\nlow = 3\n[backend.thread]".toList
  have hc := (hiff c).2 ⟨_, hp, .present rfl, .present rfl,
    .present (.table .header (.table .stated)), by decide⟩
  refine ⟨hc, (hcandidates c hc).2.2.2, fun c' hc' => ?_⟩
  have hp' : Toml.parse "low = 4294967298".toList =
      some [("low".toList, .value (.integer 4294967298))] := rfl
  obtain ⟨es, hes, hd⟩ := ((ofText_decodes "low = 4294967298".toList).1 c').1 hc'
  cases Option.some.inj (hp'.symm.trans hes)
  have hlow : Given IsWord 2 (some (.value (.integer 4294967298))) c'.low := hd.low
  cases hlow with
  | present h =>
    have hv : 4294967298 = c'.low.toInt := Value.integer.inj (Item.value.inj h)
    have hlt := c'.low.toInt_lt
    omega

end Config

end SieveChain
