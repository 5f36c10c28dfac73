import SieveChain.Channel.Intake
import SieveChain.Channel.Outbox
import SieveChain.Proofs.Account
import SieveChain.Proofs.Numerals
import SieveChain.Wire.Value
import SieveChain.Record.Emit

/-!
# What replies mean

One reply moves an intake, an outbox or a record line on in one of a few ways. The bytes of
the value under way, the bytes held back and the bytes of the line are never lost on the way:
they are what has come in, and what has not yet been taken.
-/

namespace SieveChain

open Scripted

/-! ## Receiving -/

namespace Intake

theorem room_pos {r : Intake} (hh : r.held.length < Wire.width) : 0 < r.room :=
  Nat.sub_pos_of_lt hh

/-- How one read comes out for a value under way. -/
inductive Came (r : Intake) : ReadReply → Intake × Option Receipt → Prop
  | interrupted {e : IoError} (hi : e.isInterrupted = true) : Came r (.failed e) (r, none)
  | failed {e : IoError} (hi : e.isInterrupted = false) :
      Came r (.failed e) ({ r with held := [] }, some (.failed e))
  | ended : Came r (.got []) ({ r with held := [] }, some (.ended r.held.length))
  | more {b : UInt8} {bs : List UInt8} (hl : (r.held ++ b :: bs).length < Wire.width) :
      Came r (.got (b :: bs)) ({ r with held := r.held ++ b :: bs }, none)
  | value {b : UInt8} {bs : List UInt8} {v : Int32} (hv : r.held ++ b :: bs = Wire.encode v) :
      Came r (.got (b :: bs)) ({ held := [], received := r.received + 1 }, some (.value v))

theorem absorb_came {r : Intake} {reply : ReadReply} (fits : reply.Fits r.room)
    (hh : r.held.length < Wire.width) : r.Came reply (r.absorb reply) := by
  cases reply with
  | failed e =>
    rw [absorb]
    split
    · exact .interrupted ‹_›
    · exact .failed (Bool.eq_false_iff.2 ‹_›)
  | got bytes =>
    cases bytes with
    | nil => exact .ended
    | cons b bs =>
      have hl : (r.held ++ b :: bs).length ≤ Wire.width := by
        have hf : (b :: bs).length ≤ Wire.width - r.held.length := fits
        rw [List.length_append]
        omega
      rw [absorb]
      split
      · exact .value (Wire.eq_encode_of_decode ‹_›)
      · next hn =>
        refine .more (Nat.lt_of_le_of_ne hl fun he => ?_)
        obtain ⟨v, hv⟩ := Wire.decode_isSome he
        rw [hn] at hv
        cases hv

end Intake

/-! ## Sending -/

namespace Outbox

theorem isEmpty_iff {o : Outbox} : o.isEmpty = true ↔ o.bytes = [] := by
  rw [isEmpty, beq_iff_eq, ← length_bytes, List.length_eq_zero_iff]

theorem bytes_ne_nil {o : Outbox} (h : o.isEmpty = false) : o.bytes ≠ [] := by
  intro hb
  rw [isEmpty_iff.2 hb] at h
  cases h

theorem size_pos {o : Outbox} (h : o.bytes ≠ []) : 0 < o.size := by
  rw [← length_bytes]
  exact List.length_pos_iff.2 h

/-- A full outbox has something to hand on. -/
theorem bytes_ne_nil_of_full {o : Outbox} (h : o.hasRoom = false) : o.bytes ≠ [] := by
  intro hb
  have hs : o.size = 0 := by rw [← length_bytes, hb]; rfl
  rw [hasRoom, hs] at h
  revert h
  decide

/-- How one write comes out for the bytes held back. -/
inductive Gone (o : Outbox) : WriteReply → Outbox × Option (Except IoError Unit) → Prop
  | interrupted {e : IoError} (hi : e.isInterrupted = true) : Gone o (.failed e) (o, none)
  | failed {e : IoError} (hi : e.isInterrupted = false) :
      Gone o (.failed e) (o, some (.error e))
  | stuck : Gone o (.took 0) (o, some (.error stuck))
  | more {n : Nat} {o' : Outbox} (hb : o.bytes.take (n + 1) ++ o'.bytes = o.bytes)
      (ht : o'.taken = o.taken) (hs : o'.size < o.size) (hne : o'.isEmpty = false) :
      Gone o (.took (n + 1)) (o', none)
  | all {n : Nat} {o' : Outbox} (hb : o.bytes.take (n + 1) = o.bytes)
      (he : o'.bytes = []) (ht : o'.taken = o.taken) :
      Gone o (.took (n + 1)) (o', some (.ok ()))

theorem absorb_gone {o : Outbox} (hne : o.bytes ≠ []) (reply : WriteReply) :
    o.Gone reply (o.absorb reply) := by
  cases reply with
  | failed e =>
    rw [absorb]
    split
    · exact .interrupted ‹_›
    · exact .failed (Bool.eq_false_iff.2 ‹_›)
  | took n =>
    cases n with
    | zero => exact .stuck
    | succ n =>
      have hb : o.bytes.take (n + 1) ++ (o.advance (n + 1)).bytes = o.bytes := by
        rw [bytes_advance, List.take_append_drop]
      have hs : (o.advance (n + 1)).size < o.size := by
        exact Nat.sub_lt (size_pos hne) (Nat.succ_pos n)
      simp only [absorb]
      split
      · next he =>
        have he := isEmpty_iff.1 he
        rw [he, List.append_nil] at hb
        exact .all hb he rfl
      · next he => exact .more hb rfl hs (Bool.eq_false_iff.2 he)

/-- What one write makes of the account and of the bytes held back: some have been sent, and
it goes on; all have been sent; or a failure has left them as they were. -/
inductive Handed (o : Outbox) (a : Account) :
    Account → Outbox × Option (Except IoError Unit) → Prop
  | more {sent : List UInt8} {o' : Outbox} (hb : sent ++ o'.bytes = o.bytes)
      (ht : o'.taken = o.taken) (hne : o'.bytes ≠ []) :
      Handed o a { a with sent := a.sent ++ sent } (o', none)
  | all {sent : List UInt8} {o' : Outbox} (hb : sent ++ o'.bytes = o.bytes)
      (ht : o'.taken = o.taken) (he : o'.bytes = []) :
      Handed o a { a with sent := a.sent ++ sent } (o', some (.ok ()))
  | failed {e : IoError} : Handed o a { a with smooth := false } (o, some (.error e))

theorem absorb_handed {o : Outbox} (hne : o.bytes ≠ []) (a : Account) (child : Child)
    (reply : WriteReply) :
    o.Handed a (a.add (.sent child (Scripted.Surroundings.accepted o.bytes reply) reply))
      (o.absorb reply) := by
  have hg := absorb_gone hne reply
  generalize o.absorb reply = outcome at hg ⊢
  cases hg with
  | interrupted hi =>
    have hnothing := @Handed.more o a [] o (List.nil_append _) rfl hne
    rw [List.append_nil] at hnothing
    rw [Account.add_sent_interrupted _ _ _ hi]
    exact hnothing
  | failed hi =>
    rw [Account.add_sent_failed _ _ _ hi]
    exact .failed
  | stuck =>
    rw [Account.add_sent_stuck]
    exact .failed
  | more hb ht hs hne' =>
    rw [Account.add_sent_took]
    exact .more hb ht (bytes_ne_nil hne')
  | all hb he ht =>
    rw [Account.add_sent_took]
    exact .all (by rw [he, List.append_nil, hb]) ht he

/-- What one write uses up of the bytes held back, when something may have been brought that
calls for another one. -/
inductive Spent (o : Outbox) (n : Nat) : Outbox × Option (Except IoError Unit) → Prop
  | more {o' : Outbox} (hle : o'.size ≤ o.size) (hs : o'.size + 1 ≤ o.size + n) :
      Spent o n (o', none)
  | all {o' : Outbox} (hs : o'.size = 0) : Spent o n (o', some (.ok ()))
  | failed {e : IoError} : Spent o n (o, some (.error e))

theorem absorb_spent {o : Outbox} (hne : o.bytes ≠ []) (child : Child) (accepted : List UInt8)
    (reply : WriteReply) :
    o.Spent (Event.brings (some (.sent child accepted reply))) (o.absorb reply) := by
  have hg := absorb_gone hne reply
  generalize o.absorb reply = outcome at hg ⊢
  cases hg with
  | interrupted hi =>
    rw [Event.brings_sent hi]
    exact .more (Nat.le_refl _) (Nat.le_refl _)
  | failed hi => exact .failed
  | stuck => exact .failed
  | more hb ht hs hne' => exact .more (Nat.le_of_lt hs) hs
  | all hb he ht => exact .all (by rw [← length_bytes, he]; rfl)

end Outbox

/-! ## Recording -/

namespace Record

/-- The bytes of the line of a value. -/
def lineBytes (v : Int32) : List UInt8 := Utf8.encode (line v)

theorem encode_append (cs ds : List Char) :
    Utf8.encode (cs ++ ds) = Utf8.encode cs ++ Utf8.encode ds := List.flatMap_append

theorem encode_ne_nil {cs : List Char} (h : cs ≠ []) : Utf8.encode cs ≠ [] := by
  cases cs with
  | nil => exact absurd rfl h
  | cons c cs =>
    intro hn
    have hl := congrArg List.length hn
    have hp := Char.utf8Size_pos c
    rw [Utf8.encode, List.flatMap_cons, List.length_append, String.length_utf8EncodeChar,
      List.length_nil] at hl
    omega

/-- The pieces of a line, still as characters. -/
theorem pieces_ofValue (v : Int32) : ∃ number : List (List Char),
    (Entry.ofValue v).pieces = ([opening, [' ']] ++ number ++ [['\n']]).map Utf8.encode ∧
      number.flatten = Numeral.ofInt v.toInt ∧ number.length ≤ 2 ∧ ∀ cs ∈ number, cs ≠ [] := by
  rw [Entry.ofValue]
  generalize v.toInt = n
  cases n with
  | ofNat n =>
    refine ⟨[Numeral.ofNat n], ?_, by simp [Numeral.ofInt], Nat.le_succ 1, ?_⟩
    · simp only [Numeral.ofInt]
      split
      · next digits hd => exact absurd hd (Numeral.ofNat_ne_cons (by decide) n digits)
      · rfl
    · intro cs hcs
      rw [List.mem_singleton.1 hcs]
      exact Numeral.ofNat_ne_nil n
  | negSucc n =>
    refine ⟨[['-'], Numeral.ofNat (n + 1)], rfl, by simp [Numeral.ofInt], Nat.le_refl 2, ?_⟩
    intro cs hcs
    rcases List.mem_cons.1 hcs with rfl | hcs
    · simp
    · rw [List.mem_singleton.1 hcs]
      exact Numeral.ofNat_ne_nil _

theorem encode_flatten (css : List (List Char)) :
    (css.map Utf8.encode).flatten = Utf8.encode css.flatten := by
  induction css with
  | nil => rfl
  | cons cs css ih => rw [List.map_cons, List.flatten_cons, List.flatten_cons, encode_append, ih]

theorem bytes_ofValue (v : Int32) : (Entry.ofValue v).bytes = lineBytes v := by
  obtain ⟨number, hp, hn, -, -⟩ := pieces_ofValue v
  rw [Entry.bytes, hp, encode_flatten, lineBytes, line, ← hn, List.flatten_append,
    List.flatten_append]
  simp

theorem piece_ne_nil {v : Int32} {piece : List UInt8} (h : piece ∈ (Entry.ofValue v).pieces) :
    piece ≠ [] := by
  obtain ⟨number, hp, -, -, hne⟩ := pieces_ofValue v
  rw [hp, List.mem_map] at h
  obtain ⟨cs, hcs, rfl⟩ := h
  apply encode_ne_nil
  rcases List.mem_append.1 hcs with hcs | hcs
  · rcases List.mem_append.1 hcs with hcs | hcs
    · rcases List.mem_cons.1 hcs with rfl | hcs
      · decide
      · rw [List.mem_singleton.1 hcs]
        decide
    · exact hne cs hcs
  · rw [List.mem_singleton.1 hcs]
    simp

/-! The bytes of a line are few. -/

theorem length_encode_ofNat_le (n : Nat) : ∀ k, n < Nat.pow 10 (k + 1) →
    (Utf8.encode (Numeral.ofNat n)).length ≤ k + 1 := by
  have hdigit : ∀ d < 10, (String.utf8EncodeChar (Numeral.digit d)).length = 1 := by decide
  fun_induction Numeral.ofNat n with
  | case1 n hn =>
    intro k _
    rw [Utf8.encode, List.flatMap_singleton, hdigit n hn]
    omega
  | case2 n hn ih =>
    intro k hk
    cases k with
    | zero => exact absurd hk hn
    | succ k =>
      have hq := ih k (Nat.div_lt_of_lt_mul (by rw [Nat.mul_comm]; exact hk))
      rw [encode_append, List.length_append, Utf8.encode, Utf8.encode, List.flatMap_singleton,
        hdigit _ (Nat.mod_lt n (by decide))]
      exact Nat.succ_le_succ hq

theorem length_lineBytes_le (v : Int32) : (lineBytes v).length ≤ 18 := by
  have hlow := v.le_toInt
  have hhigh := v.toInt_lt
  have hnumber : (Utf8.encode (Numeral.ofInt v.toInt)).length ≤ 11 := by
    revert hlow hhigh
    generalize v.toInt = n
    intro hlow hhigh
    have hten : Nat.pow 10 (9 + 1) = 10000000000 := by decide
    cases n with
    | ofNat n =>
      have := length_encode_ofNat_le n 9 (by rw [hten]; simp at hhigh; omega)
      exact Nat.le_succ_of_le this
    | negSucc n =>
      have := length_encode_ofNat_le (n + 1) 9 (by rw [hten]; simp at hlow; omega)
      exact Nat.succ_le_succ this
  have hopening : (Utf8.encode opening).length = 5 := by decide
  have hline : lineBytes v = Utf8.encode opening ++
      ([0x20] ++ Utf8.encode (Numeral.ofInt v.toInt) ++ [0x0a]) := by
    rw [lineBytes, line, List.append_assoc, encode_append, List.cons_append,
      ← List.singleton_append, encode_append, encode_append, List.append_assoc]
    rfl
  simp only [hline, List.length_append, hopening, List.length_singleton]
  omega

/-- The bytes of the lines of values. -/
def lines (vs : List Int32) : List UInt8 := vs.flatMap lineBytes

theorem lines_mono {vs ws : List Int32} (h : vs <+: ws) : lines vs <+: lines ws := by
  obtain ⟨rest, rfl⟩ := h
  rw [lines, lines, List.flatMap_append]
  exact List.prefix_append _ _

namespace Entry

theorem weight_ofValue_le (v : Int32) : (ofValue v).weight ≤ 23 := by
  obtain ⟨number, hp, -, hl, -⟩ := pieces_ofValue v
  have hb := length_lineBytes_le v
  rw [← bytes_ofValue, bytes] at hb
  have hpieces : (ofValue v).pieces.length ≤ 5 := by
    rw [hp]
    simp only [List.length_map, List.length_append, List.length_cons, List.length_nil]
    omega
  rw [weight]
  omega

/-- How one write comes out for a line that goes on with a piece. -/
inductive Wrote (entry : Entry) (piece : List UInt8) : WriteReply → Except IoError Entry → Prop
  | interrupted {e : IoError} (hi : e.isInterrupted = true) :
      Wrote entry piece (.failed e) (.ok entry)
  | failed {e : IoError} (hi : e.isInterrupted = false) :
      Wrote entry piece (.failed e) (.error e)
  | stuck : Wrote entry piece (.took 0) (.error stuck)
  | some {n : Nat} {entry' : Entry} (hb : piece.take (n + 1) ++ entry'.bytes = entry.bytes)
      (hne : ∀ piece ∈ entry'.pieces, piece ≠ []) (hw : entry'.weight < entry.weight) :
      Wrote entry piece (.took (n + 1)) (.ok entry')

theorem absorb_wrote {entry : Entry} {piece : List UInt8} {rest : List (List UInt8)}
    (hp : entry.pieces = piece :: rest) (hne : ∀ piece ∈ entry.pieces, piece ≠ [])
    (reply : WriteReply) : entry.Wrote piece reply (entry.absorb reply) := by
  cases reply with
  | failed e =>
    rw [absorb]
    split
    · exact .interrupted ‹_›
    · exact .failed (Bool.eq_false_iff.2 ‹_›)
  | took n =>
    cases n with
    | zero => exact .stuck
    | succ n =>
      have hrest : ∀ p ∈ rest, p ≠ [] := fun p h => hne p (by rw [hp]; exact .tail _ h)
      have hbytes : entry.bytes = piece ++ rest.flatten := by rw [bytes, hp]; rfl
      have hpieces : entry.pieces ≠ [] := by rw [hp]; exact List.cons_ne_nil _ _
      cases ha : entry.absorb (.took (n + 1)) with
      | error e =>
        simp only [absorb, hp] at ha
        split at ha <;> cases ha
      | ok entry' =>
        have hw := absorb_took ha hpieces
        simp only [absorb, hp] at ha
        split at ha
        · next hle =>
          cases ha
          refine .some ?_ hrest hw
          rw [List.take_of_length_le hle, hbytes, bytes]
        · next hgt =>
          cases ha
          refine .some ?_ ?_ hw
          · rw [hbytes, bytes, List.flatten_cons, ← List.append_assoc, List.take_append_drop]
          · intro p h
            rcases List.mem_cons.1 h with rfl | h
            · intro hd
              have := List.drop_eq_nil_iff.1 hd
              omega
            · exact hrest p h

end Entry

end Record

end SieveChain
