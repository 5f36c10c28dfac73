/-!
# Values on the wire

A value travels as four bytes, least significant first. Four bytes and a value determine
each other, so a byte string is the encoding of its complete values followed by what is left
over. Extending a byte string extends its values.
-/

namespace SieveChain.Wire

def width : Nat := 4

def encode (v : Int32) : List UInt8 :=
  let n := v.toUInt32.toNat
  [UInt8.ofNat n, UInt8.ofNat (n / 0x100), UInt8.ofNat (n / 0x10000), UInt8.ofNat (n / 0x1000000)]

@[simp] theorem length_encode (v : Int32) : (encode v).length = width := rfl

def decode (a b c d : UInt8) : Int32 :=
  (UInt32.ofNat (a.toNat + 0x100 * b.toNat + 0x10000 * c.toNat + 0x1000000 * d.toNat)).toInt32

def decode? : List UInt8 → Option Int32
  | [a, b, c, d] => some (decode a b c d)
  | _ => none

def encodeAll (vs : List Int32) : List UInt8 := vs.flatMap encode

def values : List UInt8 → List Int32
  | a :: b :: c :: d :: rest => decode a b c d :: values rest
  | _ => []

/-- The bytes after the last complete value: three at most. -/
def leftover : List UInt8 → List UInt8
  | _ :: _ :: _ :: _ :: rest => leftover rest
  | rest => rest

theorem width_pos : 0 < width := by decide

theorem decode_encode (v : Int32) : decode? (encode v) = some v := by
  have hn : v.toUInt32.toNat < 0x100000000 := v.toUInt32.toNat_lt
  have hsum : v.toUInt32.toNat % 256 + 0x100 * (v.toUInt32.toNat / 0x100 % 256)
      + 0x10000 * (v.toUInt32.toNat / 0x10000 % 256)
      + 0x1000000 * (v.toUInt32.toNat / 0x1000000 % 256) = v.toUInt32.toNat := by omega
  simp only [encode, decode?, decode, Option.some.injEq]
  rw [UInt8.toNat_ofNat', UInt8.toNat_ofNat', UInt8.toNat_ofNat', UInt8.toNat_ofNat', hsum,
    UInt32.ofNat_toNat]
  rfl

theorem encode_decode (a b c d : UInt8) : encode (decode a b c d) = [a, b, c, d] := by
  have ha := a.toNat_lt
  have hb := b.toNat_lt
  have hc := c.toNat_lt
  have hd := d.toNat_lt
  have hn : (decode a b c d).toUInt32.toNat =
      a.toNat + 0x100 * b.toNat + 0x10000 * c.toNat + 0x1000000 * d.toNat := by
    show (UInt32.ofNat _).toNat = _
    rw [UInt32.toNat_ofNat', Nat.mod_eq_of_lt (by omega)]
  have byte (n : Nat) (x : UInt8) (h : n % 256 = x.toNat) : UInt8.ofNat n = x := by
    rw [← UInt8.toNat_inj, UInt8.toNat_ofNat', h]
  rw [encode, hn, byte _ a (by omega), byte _ b (by omega), byte _ c (by omega),
    byte _ d (by omega)]

theorem eq_encode_of_decode {bs : List UInt8} {v : Int32} (h : decode? bs = some v) :
    bs = encode v := by
  match bs, h with
  | [a, b, c, d], h =>
    simp only [decode?, Option.some.injEq] at h
    rw [← h, encode_decode]

theorem decode_isSome {bs : List UInt8} (h : bs.length = width) : ∃ v, decode? bs = some v := by
  match bs, h with
  | [a, b, c, d], _ => exact ⟨decode a b c d, rfl⟩

@[simp] theorem encodeAll_nil : encodeAll [] = [] := rfl

@[simp] theorem encodeAll_cons (v : Int32) (vs : List Int32) :
    encodeAll (v :: vs) = encode v ++ encodeAll vs := rfl

@[simp] theorem encodeAll_append (vs ws : List Int32) :
    encodeAll (vs ++ ws) = encodeAll vs ++ encodeAll ws := List.flatMap_append

theorem length_encodeAll (vs : List Int32) : (encodeAll vs).length = width * vs.length := by
  induction vs with
  | nil => rfl
  | cons v vs ih =>
    rw [encodeAll_cons, List.length_append, ih, length_encode, List.length_cons, Nat.mul_succ,
      Nat.add_comm]

theorem values_encode_append (v : Int32) (bs : List UInt8) :
    values (encode v ++ bs) = v :: values bs := by
  have h := decode_encode v
  simp only [encode, decode?, Option.some.injEq] at h
  simp only [encode, List.cons_append, List.nil_append, values, h]

theorem values_encode (v : Int32) : values (encode v) = [v] := by
  have h := values_encode_append v []
  rwa [List.append_nil] at h

theorem values_encodeAll_append (vs : List Int32) (bs : List UInt8) :
    values (encodeAll vs ++ bs) = vs ++ values bs := by
  induction vs with
  | nil => rfl
  | cons v vs ih =>
    rw [encodeAll_cons, List.append_assoc, values_encode_append, ih, List.cons_append]

theorem values_eq_nil {bs : List UInt8} (h : bs.length < width) : values bs = [] := by
  match bs, h with
  | [], _ => rfl
  | [_], _ => rfl
  | [_, _], _ => rfl
  | [_, _, _], _ => rfl

/-- An incomplete value at the end does not count. -/
theorem values_torn (vs : List Int32) {torn : List UInt8} (h : torn.length < width) :
    values (encodeAll vs ++ torn) = vs := by
  rw [values_encodeAll_append, values_eq_nil h, List.append_nil]

@[simp] theorem values_encodeAll (vs : List Int32) : values (encodeAll vs) = vs := by
  have h := @values_torn vs [] (by decide)
  rwa [List.append_nil] at h

/-- A byte string is made of complete values and an incomplete one at its end. -/
theorem eq_encodeAll_values (bs : List UInt8) :
    ∃ torn, torn.length < width ∧ bs = encodeAll (values bs) ++ torn := by
  fun_induction values bs with
  | case1 a b c d rest ih =>
    obtain ⟨torn, ht, hr⟩ := ih
    refine ⟨torn, ht, ?_⟩
    rw [encodeAll_cons, encode_decode, List.append_assoc, ← hr]
    rfl
  | case2 bs h =>
    refine ⟨bs, ?_, rfl⟩
    match bs, h with
    | [], _ => decide
    | [_], _ => exact (by decide : 1 < width)
    | [_, _], _ => exact (by decide : 2 < width)
    | [_, _, _], _ => exact (by decide : 3 < width)
    | a :: b :: c :: d :: rest, h => exact (h a b c d rest rfl).elim

theorem values_mono {bs cs : List UInt8} (h : bs <+: cs) : values bs <+: values cs := by
  obtain ⟨rest, rfl⟩ := h
  obtain ⟨torn, _, hb⟩ := eq_encodeAll_values bs
  rw [hb, values_torn _ ‹_›, List.append_assoc, values_encodeAll_append]
  exact List.prefix_append _ _

theorem encodeAll_mono {vs ws : List Int32} (h : vs <+: ws) : encodeAll vs <+: encodeAll ws := by
  obtain ⟨rest, rfl⟩ := h
  rw [encodeAll_append]
  exact List.prefix_append _ _

theorem length_values_le (bs : List UInt8) : width * (values bs).length ≤ bs.length := by
  obtain ⟨torn, _, hb⟩ := eq_encodeAll_values bs
  have hl := congrArg List.length hb
  rw [List.length_append, length_encodeAll] at hl
  omega

end SieveChain.Wire
