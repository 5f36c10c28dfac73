import SieveChain.Proofs.Emissions
import SieveChain.Proofs.RecordLines
import SieveChain.Proofs.Replies
import SieveChain.Record.Shared

/-!
# Shared records

The bytes of a record that ends with a whole line are read line by line, whatever comes behind them.
A value that is emitted through a handle goes to the record that the handle refers to and to no
other, and its line stands behind all that has been there. So what is read of a record in the end is
what was read of it before, and then the values that have been emitted to it, in order.
-/

namespace SieveChain

/-! ## Bytes and texts -/

namespace Utf8

/-- What does not end with something after a first piece does not end with it without that piece. -/
theorem getLast?_ne_of_cons {α : Type} {x y : α} {l : List α} (h : (x :: l).getLast? ≠ some y) :
    l.getLast? ≠ some y := by
  intro hl
  apply h
  rw [List.getLast?_cons, hl]
  rfl

/-- Bytes that come behind a text do not change it, if the text does not end in an ill-formed
piece: such a piece may be a sequence that goes on. -/
theorem pieces_append (p : Option Pending) (bs more : List UInt8)
    (h : (pieces p bs).getLast? ≠ some none) :
    pieces p (bs ++ more) = pieces p bs ++ pieces none more := by
  fun_induction pieces p bs with
  | case1 => rfl
  | case2 p => exact absurd rfl h
  | case3 b bs c hl ih =>
    rw [List.cons_append, pieces, hl]
    exact congrArg (some c :: ·) (ih (getLast?_ne_of_cons h))
  | case4 b bs p hl ih =>
    rw [List.cons_append, pieces, hl]
    exact ih h
  | case5 b bs hl ih =>
    rw [List.cons_append, pieces, hl]
    exact congrArg (none :: ·) (ih (getLast?_ne_of_cons h))
  | case6 p b bs hin bits hdue ih =>
    rw [List.cons_append, pieces, if_pos hin]
    exact (if_pos hdue).trans (congrArg (some (Char.ofNat bits) :: ·) (ih (getLast?_ne_of_cons h)))
  | case7 p b bs hin bits hdue ih =>
    rw [List.cons_append, pieces, if_pos hin]
    exact (if_neg hdue).trans (ih h)
  | case8 p b bs hout c hl ih =>
    rw [List.cons_append, pieces, if_neg hout, hl]
    exact congrArg (none :: some c :: ·) (ih (getLast?_ne_of_cons (getLast?_ne_of_cons h)))
  | case9 p b bs hout q hl ih =>
    rw [List.cons_append, pieces, if_neg hout, hl]
    exact congrArg (none :: ·) (ih (getLast?_ne_of_cons h))
  | case10 p b bs hout hl ih =>
    rw [List.cons_append, pieces, if_neg hout, hl]
    exact congrArg (none :: none :: ·) (ih (getLast?_ne_of_cons (getLast?_ne_of_cons h)))

/-- A text that is empty or ends with its line is whole. -/
theorem lossy_append {bs : List UInt8} (h : ∀ c, (lossy bs).getLast? = some c → c = '\n')
    (more : List UInt8) : lossy (bs ++ more) = lossy bs ++ lossy more := by
  rw [lossy, lossy, lossy, pieces_append, List.map_append]
  intro hn
  rw [lossy, List.getLast?_map, hn] at h
  exact absurd (h _ rfl) (by decide)

theorem utf8EncodeChar_of_lt {c : Char} (h : c.toNat < 0x80) :
    String.utf8EncodeChar c = [UInt8.ofNat c.toNat] := by
  have hval : c.val.toNat ≤ 0x7f := Nat.le_of_lt_succ h
  exact if_pos hval

theorem lead_of_lt {c : Char} (h : c.toNat < 0x80) : lead (UInt8.ofNat c.toNat) = .whole c := by
  have hn : (UInt8.ofNat c.toNat).toNat = c.toNat := Nat.mod_eq_of_lt (by omega)
  rw [lead, hn, if_pos h, Char.ofNat_toNat]

/-- A text of characters of one byte each is read as it has been encoded. -/
theorem lossy_encode {cs : List Char} (h : ∀ c ∈ cs, c.toNat < 0x80) :
    lossy (encode cs) = cs := by
  induction cs with
  | nil => rfl
  | cons c cs ih =>
    obtain ⟨hc, hcs⟩ := List.forall_mem_cons.1 h
    have hencode : encode (c :: cs) = UInt8.ofNat c.toNat :: encode cs := by
      rw [encode, List.flatMap_cons, utf8EncodeChar_of_lt hc]
      rfl
    have hrest : (pieces none (encode cs)).map (·.getD '\uFFFD') = cs := ih hcs
    rw [hencode, lossy, pieces, lead_of_lt hc, List.map_cons, hrest]
    rfl

end Utf8

namespace Record

theorem toNat_line_lt (v : Int32) : ∀ c ∈ line v, c.toNat < 0x80 := by
  have hdigit : ∀ n, ∀ c ∈ Numeral.ofNat n, c.toNat < 0x80 := by
    intro n c hc
    have hnine : c.toNat ≤ '9'.toNat := (Numeral.digits_ofNat n c hc).2
    exact Nat.lt_of_le_of_lt hnine (by decide)
  have hnumeral : ∀ n, ∀ c ∈ Numeral.ofInt n, c.toNat < 0x80 := by
    intro n
    cases n with
    | ofNat n => exact hdigit n
    | negSucc n => exact List.forall_mem_cons.2 ⟨by decide, hdigit (n + 1)⟩
  have hopening : ∀ c ∈ opening, c.toNat < 0x80 := by
    have hall : opening.all (fun c => c.toNat < 0x80) = true := by decide
    exact fun c hc => of_decide_eq_true (List.all_eq_true.1 hall c hc)
  rw [line, List.append_assoc]
  refine List.forall_mem_append.2 ⟨hopening, List.forall_mem_cons.2 ⟨by decide, ?_⟩⟩
  exact List.forall_mem_append.2 ⟨hnumeral v.toInt, List.forall_mem_singleton.2 (by decide)⟩

theorem lossy_lines (vs : List Int32) : Utf8.lossy (lines vs) = vs.flatMap line := by
  have hlines : lines vs = Utf8.encode (vs.flatMap line) := List.flatMap_assoc.symm
  rw [hlines]
  apply Utf8.lossy_encode
  intro c hc
  obtain ⟨v, -, hc⟩ := List.mem_flatMap.1 hc
  exact toNat_line_lt v c hc

/-- The lines of values, behind bytes that end with a whole line, are read as these values. -/
theorem parse_lossy_append_lines {bs : List UInt8}
    (h : Utf8.lossy bs = [] ∨ (Utf8.lossy bs).getLast? = some '\n') (vs : List Int32) :
    parse (Utf8.lossy (bs ++ lines vs)) = parse (Utf8.lossy bs) ++ vs := by
  have hwhole : ∀ c, (Utf8.lossy bs).getLast? = some c → c = '\n' := by
    intro c hc
    rcases h with h | h
    · rw [h] at hc
      cases hc
    · exact Option.some.inj (hc.symm.trans h)
  rw [Utf8.lossy_append hwhole, lossy_lines, parse_append h, parse_lines]

namespace Shelf

/-! ## Handles -/

/-- A handle refers to a record of a shelf. -/
structure Refers (s : Shelf) (handle record : Nat) : Prop where
  link : s.handles[handle]? = some record
  kept : record < s.buffers.size

/-- What can be done with the handles of a shelf. -/
inductive Deed
  | emit (handle : Nat) (v : Int32)
  | clone (handle : Nat)
  | fresh

/-- A value that has been emitted: the record it was for, and what came of that. -/
structure Emission where
  record : Option Nat
  value : Int32
  result : Except IoError Unit

/-- Does a deed; an emission is put down. -/
def step (s : Shelf) : Deed → Option Emission × Shelf
  | .emit handle v => (some ⟨s.handles[handle]?, v, (s.emit handle v).1⟩, (s.emit handle v).2)
  | .clone handle => (none, (s.clone handle).2)
  | .fresh => (none, s.fresh.2)

/-- Does one deed after the other. -/
def perform (s : Shelf) : List Deed → List Emission × Shelf
  | [] => ([], s)
  | d :: ds => ((s.step d).1.toList ++ ((s.step d).2.perform ds).1, ((s.step d).2.perform ds).2)

/-- The values that have been emitted to a record, in order. -/
def valuesIn (record : Nat) (es : List Emission) : List Int32 :=
  es.filterMap fun e => if e.record = some record then some e.value else none

theorem valuesIn_append (record : Nat) (es es' : List Emission) :
    valuesIn record (es ++ es') = valuesIn record es ++ valuesIn record es' :=
  List.filterMap_append

/-- What emissions make of a shelf. Handles refer to what they have referred to, and to each record
the lines of the values have been added that have been emitted to it. -/
structure Grows (s : Shelf) (es : List Emission) (s' : Shelf) : Prop where
  links : ∀ handle record : Nat, s.handles[handle]? = some record →
    s'.handles[handle]? = some record
  buffers : ∀ (record : Nat) (buffer : Array UInt8), s.buffers[record]? = some buffer →
    ∃ buffer', s'.buffers[record]? = some buffer' ∧
      buffer'.toList = buffer.toList ++ lines (valuesIn record es)
  results : ∀ e ∈ es, e.result = .ok ()

theorem Grows.trans {s s' s'' : Shelf} {es es' : List Emission} (h : Grows s es s')
    (h' : Grows s' es' s'') : Grows s (es ++ es') s'' where
  links handle record hlink := h'.links handle record (h.links handle record hlink)
  buffers record buffer hbuffer := by
    obtain ⟨buffer', hbuffer', heq⟩ := h.buffers record buffer hbuffer
    obtain ⟨buffer'', hbuffer'', heq'⟩ := h'.buffers record buffer' hbuffer'
    refine ⟨buffer'', hbuffer'', ?_⟩
    rw [heq', heq, valuesIn_append, lines, lines, lines, List.flatMap_append, List.append_assoc]
  results := List.forall_mem_append.2 ⟨h.results, h'.results⟩

/-- Without emissions nothing is added to what is there, though there may be more than that. -/
theorem Grows.of_kept {s s' : Shelf}
    (hl : ∀ handle record : Nat, s.handles[handle]? = some record →
      s'.handles[handle]? = some record)
    (hb : ∀ (record : Nat) (buffer : Array UInt8), s.buffers[record]? = some buffer →
      s'.buffers[record]? = some buffer) : Grows s [] s' where
  links := hl
  buffers record buffer hbuffer := ⟨buffer, hb record buffer hbuffer, (List.append_nil _).symm⟩
  results := List.forall_mem_nil _

theorem getElem?_push_of_eq_some {α : Type} {xs : Array α} {i : Nat} {x : α}
    (h : xs[i]? = some x) (y : α) : (xs.push y)[i]? = some x := by
  obtain ⟨hi, -⟩ := Array.getElem?_eq_some_iff.1 h
  rw [Array.getElem?_push, if_neg (Nat.ne_of_lt hi), h]

/-- A record in memory takes the whole line: it is put behind what the handle refers to. -/
theorem emit_eq (s : Shelf) (handle : Nat) (v : Int32) :
    ∃ buffer : Array UInt8, buffer.toList = (s.bytes handle).toList ++ lineBytes v ∧
      s.emit handle v = (.ok (), { s with
        buffers := s.handles[handle]?.elim s.buffers (s.buffers.modify · fun _ => buffer) }) := by
  have heasy : Scripted.Sink.Easy { accepted := s.bytes handle } :=
    ⟨(Option.some_ne_none 0).symm, rfl, rfl⟩
  obtain ⟨hresult, haccepted⟩ := emit_of_easy v heasy
  rw [Shelf.emit]
  generalize Record.emit v { accepted := s.bytes handle } = emitted at hresult haccepted
  obtain ⟨result, sink⟩ := emitted
  obtain rfl : result = .ok () := hresult
  refine ⟨sink.accepted, haccepted, ?_⟩
  dsimp only
  cases s.handles[handle]? <;> rfl

theorem emit_grows (s : Shelf) (handle : Nat) (v : Int32) :
    Grows s [⟨s.handles[handle]?, v, (s.emit handle v).1⟩] (s.emit handle v).2 := by
  obtain ⟨buffer, hbuffer, hemit⟩ := s.emit_eq handle v
  rw [hemit]
  refine ⟨fun _ _ h => h, fun record before hbefore => ?_, List.forall_mem_singleton.2 rfl⟩
  cases hlink : s.handles[handle]? with
  | none => exact ⟨before, hbefore, by simp [valuesIn, lines]⟩
  | some i =>
    dsimp only [Option.elim_some]
    rw [Array.getElem?_modify, hbefore]
    by_cases hi : i = record
    · rw [if_pos hi]
      refine ⟨buffer, rfl, ?_⟩
      rw [hbuffer, bytes, hlink, Option.bind_some, hi, hbefore]
      simp [valuesIn, lines]
    · rw [if_neg hi]
      exact ⟨before, rfl, by simp [valuesIn, lines, hi]⟩

theorem step_grows (s : Shelf) (d : Deed) : Grows s (s.step d).1.toList (s.step d).2 := by
  cases d with
  | emit handle v => exact s.emit_grows handle v
  | clone handle =>
    exact .of_kept (fun _ _ h => getElem?_push_of_eq_some h _) fun _ _ h => h
  | fresh =>
    exact .of_kept (fun _ _ h => getElem?_push_of_eq_some h _)
      fun _ _ h => getElem?_push_of_eq_some h _

theorem perform_grows (s : Shelf) (ds : List Deed) :
    Grows s (s.perform ds).1 (s.perform ds).2 := by
  induction ds generalizing s with
  | nil => exact .of_kept (fun _ _ h => h) fun _ _ h => h
  | cons d ds ih => exact (s.step_grows d).trans (ih _)

theorem Refers.buffer {s : Shelf} {handle record : Nat} (h : s.Refers handle record) :
    s.buffers[record]? = some (s.bytes handle) := by
  rw [bytes, h.link, Option.bind_some, Array.getElem?_eq_getElem h.kept]
  rfl

theorem Refers.primes_eq {s s' : Shelf} {handle other record : Nat} {es : List Emission}
    (h : s.Refers handle record) (h' : s'.Refers other record) (hgrows : Grows s es s')
    (hwhole : s.contents handle = [] ∨ (s.contents handle).getLast? = some '\n') :
    s'.primes other = s.primes handle ++ valuesIn record es := by
  obtain ⟨buffer, hbuffer, heq⟩ := hgrows.buffers record _ h.buffer
  have hbytes : buffer = s'.bytes other := Option.some.inj (hbuffer.symm.trans h'.buffer)
  rw [primes, contents, ← hbytes, heq]
  exact parse_lossy_append_lines hwhole _

theorem Refers.clone {s : Shelf} {handle record : Nat} (h : s.Refers handle record) :
    (s.clone handle).2.Refers (s.clone handle).1 record := by
  refine ⟨?_, h.kept⟩
  rw [Shelf.clone, h.link]
  exact Array.getElem?_push_size

theorem Refers.perform {s : Shelf} {handle record : Nat} (h : s.Refers handle record)
    (ds : List Deed) : (s.perform ds).2.Refers handle record := by
  have hgrows := s.perform_grows ds
  obtain ⟨buffer, hbuffer, -⟩ := hgrows.buffers record _ h.buffer
  exact ⟨hgrows.links handle record h.link, (Array.getElem?_eq_some_iff.1 hbuffer).1⟩

/-- Reading undoes writing. Of two texts, one below the other, what is read is what is read of the
one and then what is read of the other. A clone of a handle refers to the same record. And if the
contents of a record are empty or end with a line, then whatever is done with handles, each
emission succeeds, and what is read through any handle to the record in the end is what was read
before and then the values emitted to it, in order. -/
theorem reading_undoes_writing :
    (∀ a b : List Char, parse (a ++ '\n' :: b) = parse a ++ parse b) ∧
    ∀ (s : Shelf) (handle record : Nat), s.Refers handle record →
      (s.clone handle).2.Refers (s.clone handle).1 record ∧
      (s.contents handle = [] ∨ (s.contents handle).getLast? = some '\n' →
        ∀ ds : List Deed,
          (∀ e ∈ (s.perform ds).1, e.result = .ok ()) ∧
          (s.perform ds).2.Refers handle record ∧
          ∀ other, (s.perform ds).2.Refers other record →
            (s.perform ds).2.primes other =
              parse (s.contents handle) ++ valuesIn record (s.perform ds).1) := by
  refine ⟨parse_below, fun s handle record h => ⟨h.clone, fun hwhole ds => ?_⟩⟩
  have hgrows := s.perform_grows ds
  exact ⟨hgrows.results, h.perform ds, fun other h' => h.primes_eq h' hgrows hwhole⟩

/-- Both ends of the words, through a clone and through what it has been cloned from, behind a line
with a carriage return. -/
theorem reading_undoes_writing_both_ends :
    let s : Shelf := { buffers := #[#[0x70, 0x72, 0x69, 0x6d, 0x65, 0x20, 0x35, 0x0d, 0x0a]] }
    let ds : List Deed := [.clone 0, .emit 1 (-2147483648), .emit 0 2147483647]
    (s.perform ds).2.primes 1 = [5, -2147483648, 2147483647] := by
  intro s ds
  have hrefers : s.Refers 0 0 := ⟨rfl, by decide⟩
  have hcontents : s.contents 0 = "prime 5\r\n".toList := rfl
  have hparse : parse "prime 5\r\n".toList = [5] := by decide
  obtain ⟨hclone, hread⟩ := reading_undoes_writing.2 s 0 0 hrefers
  obtain ⟨-, -, hprimes⟩ := hread (.inr (by rw [hcontents]; rfl)) ds
  rw [hprimes 1 (hclone.perform [.emit 1 (-2147483648), .emit 0 2147483647]), hcontents, hparse]
  obtain ⟨buffer, -, hemit⟩ := (s.clone 0).2.emit_eq 1 (-2147483648)
  simp only [ds, perform, step, hemit]
  rfl

end Shelf

end Record

end SieveChain
