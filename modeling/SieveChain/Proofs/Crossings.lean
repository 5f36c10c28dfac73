import SieveChain.Concurrent.Crossing
import SieveChain.Proofs.Pipes
import SieveChain.Proofs.Replies
import Mathlib.Logic.Relation

/-!
# Values cross a pipe intact

Whatever the order in which a sender and a receiver move, what has been received is a beginning of
what has been sent, and the end of the stream is found only when the sender has closed and all has
been received. The bytes of the values sent are always those received, those of the value under
way, those in the pipe and those that the sender still holds back, one after the other.
-/

namespace SieveChain

open Wire Scripted

namespace Sender

section Writer

variable {ω : Type} [Writer ω] {w w' : ω} {o o' : Outbox} {reply : WriteReply}
  {again : Outbox → Sender} {next : Outbox → Except IoError Unit → Sender × Option Int32}

theorem writeOut_again (hw : Writer.write w o.bytes = (reply, w'))
    (ha : o.absorb reply = (o', none)) : writeOut w o again next = (again o', none, w') := by
  rw [writeOut, hw]
  dsimp only
  rw [ha]

theorem writeOut_done {r : Except IoError Unit} (hw : Writer.write w o.bytes = (reply, w'))
    (ha : o.absorb reply = (o', some r)) :
    writeOut w o again next = ((next o' r).1, (next o' r).2, w') := by
  rw [writeOut, hw]
  dsimp only
  rw [ha]

end Writer

/-! ## Senders that write to a sink -/

/-- A sender and what it writes to, after some of its operations. -/
def Comes {ω : Type} [Writer ω] : Sender × ω → Sender × ω → Prop :=
  Relation.ReflTransGen fun x y => ∃ v, x.1.step x.2 = some (y.1, v, y.2)

/-- Writing out what is held back comes to what a flush comes to. -/
theorem comes_flush (again : Outbox → Sender)
    (next : Outbox → Except IoError Unit → Sender × Option Int32)
    (hstep : ∀ (o : Outbox) (s : Sink), (again o).step s = some (writeOut s o again next))
    {o : Outbox} (s : Sink) (hne : o.isEmpty = false) :
    Comes (again o, s) ((next (o.flush s).2.1 (o.flush s).1).1, (o.flush s).2.2) := by
  fun_induction Outbox.flush o s with
  | case1 o s he =>
    rw [he] at hne
    cases hne
  | case2 o s he reply s' hs o' r ho =>
    refine .single ⟨(next o' r).2, ?_⟩
    rw [hstep, writeOut_done hs ho]
  | case3 o s he reply s' hs o' ho ih =>
    have hgone := Outbox.absorb_gone (Outbox.bytes_ne_nil he) reply
    rw [ho] at hgone
    have hne' : o'.isEmpty = false := by
      cases hgone with
      | interrupted hi => exact he
      | more hb ht hs hne => exact hne
    refine .head ⟨none, ?_⟩ (ih hne')
    rw [hstep, writeOut_again hs ho]

theorem flush_of_isEmpty {o : Outbox} (h : o.isEmpty = true) (s : Sink) :
    o.flush s = (.ok (), o, s) := by
  unfold Outbox.flush
  split
  · rfl
  · next he =>
    rw [h] at he
    cases he

theorem comes_failed (o : Outbox) (e : IoError) (s : Sink) :
    Comes (failed o e, s) (.closed (.error e), o.drop s) := by
  rw [failed, Outbox.drop]
  cases he : o.isEmpty with
  | true =>
    rw [if_pos rfl, flush_of_isEmpty he]
    exact .single ⟨none, rfl⟩
  | false =>
    rw [if_neg Bool.false_ne_true]
    exact (comes_flush (.emptying · e) _ (fun _ _ => rfl) s he).tail ⟨none, rfl⟩

theorem comes_close (o : Outbox) (s : Sink) :
    Comes (.sending o [], s) (.closed (o.close s).1, (o.close s).2) := by
  rw [Outbox.close]
  cases he : o.isEmpty with
  | true =>
    rw [flush_of_isEmpty he]
    have hfirst : Comes (.sending o [], s) (.releasing (.ok o.taken), s) := by
      refine .single ⟨none, ?_⟩
      rw [step, he]
      rfl
    exact hfirst.tail ⟨none, rfl⟩
  | false =>
    have hflush := comes_flush closing wroteAll (fun _ _ => rfl) s he
    have hfirst : Comes (.sending o [], s) (.closing o, s) := by
      refine .single ⟨none, ?_⟩
      rw [step, he]
      rfl
    generalize o.flush s = flushed at hflush
    obtain ⟨result, o', s'⟩ := flushed
    cases result with
    | ok u => exact (hfirst.trans hflush).tail ⟨none, rfl⟩
    | error e => exact (hfirst.trans hflush).trans (comes_failed o' e s')

/-- Where a sender stands when a value has been sent in one piece, or has not. -/
def afterSend (left : List Int32) : Except IoError Unit × Outbox × Sink → Sender × Sink
  | (.ok (), o, s) => (.sending o left, s)
  | (.error e, o, s) => (failed o e, s)

theorem comes_send (o : Outbox) (v : Int32) (left : List Int32) (s : Sink) :
    Comes (.sending o (v :: left), s) (afterSend left (o.send v s)) := by
  rw [Outbox.send]
  cases hr : o.hasRoom with
  | true =>
    refine .single ⟨some v, ?_⟩
    rw [step, if_pos hr]
    rfl
  | false =>
    have hne : o.isEmpty = false := Bool.eq_false_iff.2 fun he =>
      Outbox.bytes_ne_nil_of_full hr (Outbox.isEmpty_iff.1 he)
    have hflush := comes_flush (.makingRoom · v left) (madeRoom v left) (fun _ _ => rfl) s hne
    have hfirst : Comes (.sending o (v :: left), s) (.makingRoom o v left, s) := by
      refine .single ⟨none, ?_⟩
      rw [step, hr]
      rfl
    rw [if_neg Bool.false_ne_true]
    generalize o.flush s = flushed at hflush
    obtain ⟨result, o', s'⟩ := flushed
    cases result with
    | ok u => exact hfirst.trans hflush
    | error e => exact hfirst.trans hflush

/-- The channel is closed when all values have been sent, and dropped when one could not be. -/
def afterAll : Option IoError × Nat × Outbox × Sink → Except IoError Nat × Sink
  | (none, _, o, s) => o.close s
  | (some e, _, o, s) => (.error e, o.drop s)

/-- A sender that moves by single operations does to a sink what sending values one after the other
and closing do. -/
theorem comes_sendAll (o : Outbox) (s : Sink) (vs : List Int32) (n : Nat) :
    Comes (.sending o vs, s)
      (.closed (afterAll (o.sendAll s vs n)).1, (afterAll (o.sendAll s vs n)).2) := by
  induction vs generalizing o s n with
  | nil => exact comes_close o s
  | cons v vs ih =>
    have hsend := comes_send o v vs s
    rw [Outbox.sendAll]
    generalize o.send v s = sent at hsend
    obtain ⟨result, o', s'⟩ := sent
    cases result with
    | ok u => exact hsend.trans (ih o' s' (n + 1))
    | error e => exact hsend.trans (comes_failed o' e s')

/-! ## Senders that write to a pipe -/

/-- The bytes of values that have been sent and not yet written. -/
def heldBack : Sender → List UInt8
  | .sending o _ | .makingRoom o _ _ | .closing o | .emptying o _ => o.bytes
  | .releasing _ | .closed _ => []

/-- How many operations are left, if every write takes all that it is offered. -/
def left : Sender → Nat
  | .sending _ vs => 2 * vs.length + 3
  | .makingRoom _ _ vs => 2 * vs.length + 4
  | .closing _ | .emptying _ _ => 2
  | .releasing _ => 1
  | .closed _ => 0

/-- Where a sender stands that has sent some of its values and met no error, and whether the
writing end of its pipe is still held. -/
inductive Stands (vs sent : List Int32) : Bool → Sender → Prop
  | sending {o : Outbox} {rest : List Int32} (h : sent ++ rest = vs)
      (ht : o.taken = sent.length) : Stands vs sent true (.sending o rest)
  | makingRoom {o : Outbox} {v : Int32} {rest : List Int32} (h : sent ++ v :: rest = vs)
      (ht : o.taken = sent.length) (hne : o.bytes ≠ []) :
      Stands vs sent true (.makingRoom o v rest)
  | closing {o : Outbox} (h : sent = vs) (ht : o.taken = sent.length) (hne : o.bytes ≠ []) :
      Stands vs sent true (.closing o)
  | releasing (h : sent = vs) : Stands vs sent true (.releasing (.ok vs.length))
  | closed (h : sent = vs) : Stands vs sent false (.closed (.ok vs.length))

/-- One operation of a sender on a pipe: a value that is sent with it joins what is on its way. -/
structure Moved (vs sent : List Int32) (sender : Sender) (p : Pipe) (sender' : Sender)
    (v : Option Int32) (p' : Pipe) : Prop where
  step : sender.step p = some (sender', v, p')
  stands : Stands vs (sent ++ v.toList) p'.writer sender'
  bytes : p'.pending ++ sender'.heldBack = p.pending ++ sender.heldBack ++ encodeAll v.toList
  solid : p'.Solid
  reader : p'.reader = true
  left : sender'.left + 1 ≤ sender.left

/-- A pipe takes in one write all that is held back. -/
theorem writeOut_pipe {p : Pipe} {o : Outbox} (again : Outbox → Sender)
    (next : Outbox → Except IoError Unit → Sender × Option Int32) (hs : p.Solid)
    (hr : p.reader = true) (hne : o.bytes ≠ []) :
    ∃ o' p', writeOut p o again next = ((next o' (.ok ())).1, (next o' (.ok ())).2, p') ∧
      o'.bytes = [] ∧ o'.taken = o.taken ∧ p'.pending = p.pending ++ o.bytes ∧
      p'.writer = p.writer ∧ p'.reader = true ∧ p'.Solid := by
  obtain ⟨p', hw, hpending, hwriter, hreader, hsolid⟩ := Pipe.write_took hs hr hne
  have hgone := Outbox.absorb_gone hne (.took o.bytes.length)
  generalize ha : o.absorb (.took o.bytes.length) = outcome at hgone
  generalize hn : o.bytes.length = n at hgone ha hw
  cases hgone with
  | stuck => exact absurd (List.length_eq_zero_iff.1 hn) hne
  | @more n o' hb ht hlt he =>
    have hall : o.bytes.take (n + 1) = o.bytes := by rw [← hn, List.take_length]
    rw [hall] at hb
    exact absurd (List.self_eq_append_right.1 hb.symm) (Outbox.bytes_ne_nil he)
  | @all n o' hb he ht =>
    exact ⟨o', p', writeOut_done hw ha, he, ht, hpending, hwriter, hreader.trans hr, hsolid⟩

variable {vs sent : List Int32} {sender : Sender} {p : Pipe} {o : Outbox}

section Moves

variable (hs : p.Solid) (hr : p.reader = true) (hw : p.writer = true)
include hs hr hw

/-- With nothing left to send the channel is closed, at once if nothing is held back. -/
theorem moves_to_close (ht : o.taken = vs.length) :
    ∃ sender' v p', Moved vs vs (.sending o []) p sender' v p' := by
  cases he : o.isEmpty with
  | true =>
    refine ⟨.releasing (.ok vs.length), none, p, ?_, ?_, ?_, hs, hr, by simp [left]⟩
    · rw [step, he, ht]
      rfl
    · rw [hw, Option.toList_none, List.append_nil]
      exact .releasing rfl
    · simp [heldBack, Outbox.isEmpty_iff.1 he]
  | false =>
    refine ⟨.closing o, none, p, ?_, ?_, ?_, hs, hr, by simp [left]⟩
    · rw [step, he]
      rfl
    · rw [hw, Option.toList_none, List.append_nil]
      exact .closing rfl ht (Outbox.bytes_ne_nil he)
    · simp [heldBack]

/-- A value is sent if there is room for it. -/
theorem moves_to_send {v : Int32} {rest : List Int32} (hsent : sent ++ v :: rest = vs)
    (ht : o.taken = sent.length) :
    ∃ sender' v' p', Moved vs sent (.sending o (v :: rest)) p sender' v' p' := by
  cases hroom : o.hasRoom with
  | true =>
    refine ⟨.sending (o.put v) rest, some v, p, ?_, ?_, ?_, hs, hr, ?_⟩
    · rw [step, if_pos hroom]
    · rw [hw]
      refine .sending ?_ ?_
      · rw [← hsent]
        simp
      · rw [List.length_append, ← ht]
        rfl
    · simp [heldBack, Outbox.bytes_put]
    · simp only [left, List.length_cons]
      omega
  | false =>
    refine ⟨.makingRoom o v rest, none, p, ?_, ?_, ?_, hs, hr, ?_⟩
    · rw [step, hroom]
      rfl
    · rw [hw, Option.toList_none, List.append_nil]
      exact .makingRoom hsent ht (Outbox.bytes_ne_nil_of_full hroom)
    · simp [heldBack]
    · simp only [left, List.length_cons]
      omega

/-- A value for which room is to be made is sent with the write that makes it. -/
theorem moves_with_room {v : Int32} {rest : List Int32} (hsent : sent ++ v :: rest = vs)
    (ht : o.taken = sent.length) (hne : o.bytes ≠ []) :
    ∃ sender' v' p', Moved vs sent (.makingRoom o v rest) p sender' v' p' := by
  obtain ⟨o', p', hstep, he, ht', hpending, hwriter, hreader, hsolid⟩ :=
    writeOut_pipe (.makingRoom · v rest) (madeRoom v rest) hs hr hne
  refine ⟨.sending (o'.put v) rest, some v, p', ?_, ?_, ?_, hsolid, hreader, ?_⟩
  · rw [step, hstep]
    rfl
  · rw [hwriter, hw]
    refine .sending ?_ ?_
    · rw [← hsent]
      simp
    · rw [List.length_append, ← ht, ← ht']
      rfl
  · rw [hpending, heldBack, heldBack, Outbox.bytes_put, he]
    simp
  · simp [left]

theorem moves_with_rest (ht : o.taken = vs.length) (hne : o.bytes ≠ []) :
    ∃ sender' v p', Moved vs vs (.closing o) p sender' v p' := by
  obtain ⟨o', p', hstep, he, ht', hpending, hwriter, hreader, hsolid⟩ :=
    writeOut_pipe Sender.closing wroteAll hs hr hne
  refine ⟨.releasing (.ok vs.length), none, p', ?_, ?_, ?_, hsolid, hreader, by simp [left]⟩
  · rw [step, hstep, wroteAll, ht', ht]
  · rw [hwriter, hw, Option.toList_none, List.append_nil]
    exact .releasing rfl
  · rw [hpending]
    simp [heldBack]

end Moves

/-- A sender that has not closed is never held up. -/
theorem Stands.moves (h : Stands vs sent p.writer sender) (hs : p.Solid)
    (hr : p.reader = true) (hw : p.writer = true) :
    ∃ sender' v p', Moved vs sent sender p sender' v p' := by
  rw [hw] at h
  cases h with
  | @sending o rest hsent ht =>
    cases rest with
    | nil =>
      rw [List.append_nil] at hsent
      subst hsent
      exact moves_to_close hs hr hw ht
    | cons v rest => exact moves_to_send hs hr hw hsent ht
  | makingRoom hsent ht hne => exact moves_with_room hs hr hw hsent ht hne
  | closing hsent ht hne =>
    subst hsent
    exact moves_with_rest hs hr hw ht hne
  | releasing hsent =>
    refine ⟨.closed (.ok vs.length), none, { p with writer := false }, rfl, ?_, ?_, hs, hr, ?_⟩
    · rw [Option.toList_none, List.append_nil]
      exact .closed hsent
    · simp [heldBack, Pipe.pending]
    · simp [left]

theorem Stands.closed_of_released (h : Stands vs sent false sender) :
    sender = .closed (.ok vs.length) ∧ sent = vs := by
  cases h with
  | closed hsent => exact ⟨rfl, hsent⟩

theorem Stands.isPrefix {writer : Bool} (h : Stands vs sent writer sender) : sent <+: vs := by
  cases h with
  | sending hsent ht => exact ⟨_, hsent⟩
  | makingRoom hsent ht hne => exact ⟨_, hsent⟩
  | closing hsent ht hne => exact hsent ▸ List.prefix_rfl
  | releasing hsent => exact hsent ▸ List.prefix_rfl
  | closed hsent => exact hsent ▸ List.prefix_rfl

end Sender

namespace Crossing

/-! ## Both sides -/

/-- What holds of a crossing at every moment, with the values received so far and how often the
end of the stream has been found. -/
structure Sound (vs : List Int32) (c : Crossing) (received : List Int32) (ends : Nat) : Prop where
  stands : c.sender.Stands vs c.sent c.pipe.writer
  solid : c.pipe.Solid
  reader : c.pipe.reader = true
  bytes : encodeAll received ++ c.receiver.held ++ c.pipe.pending ++ c.sender.heldBack =
    encodeAll c.sent
  torn : c.receiver.held.length < width
  count : c.receiver.received = received.length
  receipts : c.receipts = received.map .value ++ List.replicate ends (.ended 0)
  ended : ends ≠ 0 → c.pipe.writer = false ∧ received = vs

variable {vs received : List Int32} {c : Crossing} {ends : Nat}

theorem sound_start (vs : List Int32) : Sound vs (start vs) [] 0 where
  stands := .sending (List.nil_append vs) rfl
  solid := fun _ h => absurd h List.not_mem_nil
  reader := rfl
  bytes := rfl
  torn := width_pos
  count := rfl
  receipts := rfl
  ended := fun h => absurd rfl h

theorem Sound.received_isPrefix (h : Sound vs c received ends) : received <+: c.sent := by
  have hbytes : encodeAll received <+: encodeAll c.sent := by
    rw [← h.bytes, List.append_assoc, List.append_assoc]
    exact List.prefix_append _ _
  have hvalues := values_mono hbytes
  rwa [values_encodeAll, values_encodeAll] at hvalues

/-- Where nothing is on its way any more, all values have been received, and none in part. -/
theorem Sound.drained (h : Sound vs c received ends) (hp : c.pipe.pending = [])
    (hs : c.sender.heldBack = []) : received = c.sent ∧ c.receiver.held = [] := by
  have hbytes := h.bytes
  rw [hp, hs, List.append_nil, List.append_nil] at hbytes
  have hvalues := congrArg values hbytes
  rw [values_torn received h.torn, values_encodeAll] at hvalues
  rw [hvalues] at hbytes
  exact ⟨hvalues, List.append_right_eq_self.1 hbytes⟩

/-- The sender moves on, unless it has closed. -/
theorem Sound.sender_turn (h : Sound vs c received ends) :
    Sound vs (c.turn .sender) received ends ∧
      ((c.turn .sender).sender.left + 1 ≤ c.sender.left ∨
        c.turn .sender = c ∧ c.pipe.writer = false) := by
  cases hw : c.pipe.writer with
  | false =>
    have hstands := h.stands
    rw [hw] at hstands
    have hsame : c.turn .sender = c := by
      rw [turn, perform, hstands.closed_of_released.1]
      rfl
    rw [hsame]
    exact ⟨h, .inr ⟨rfl, rfl⟩⟩
  | true =>
    obtain ⟨sender', v, p', hmoved⟩ := h.stands.moves h.solid h.reader hw
    have hturn : c.turn .sender =
        { c with sender := sender', pipe := p', sent := c.sent ++ v.toList } := by
      rw [turn, perform, hmoved.step]
      rfl
    rw [hturn]
    refine ⟨⟨hmoved.stands, hmoved.solid, hmoved.reader, ?_, h.torn, h.count, h.receipts, ?_⟩,
      .inl hmoved.left⟩
    · dsimp only
      rw [encodeAll_append, ← h.bytes, List.append_assoc _ p'.pending, hmoved.bytes]
      simp only [List.append_assoc]
    · intro hends
      have hclosed := (h.ended hends).1
      rw [hw] at hclosed
      cases hclosed

/-- Where the writing end has been given up, the sender has sent all values. -/
theorem Sound.released (h : Sound vs c received ends) (hw : c.pipe.writer = false) :
    c.sender = .closed (.ok vs.length) ∧ c.sent = vs := by
  have hstands := h.stands
  rw [hw] at hstands
  exact hstands.closed_of_released

/-- Behind the end of the stream there is nothing left to read. -/
theorem Sound.ends_eq_zero (h : Sound vs c received ends) (hp : 0 < c.pipe.pending.length) :
    ends = 0 := by
  rcases Nat.eq_zero_or_pos ends with hzero | hpos
  · exact hzero
  obtain ⟨hw, hall⟩ := h.ended (Nat.ne_of_gt hpos)
  have hlength := congrArg List.length h.bytes
  rw [hall, (h.released hw).2] at hlength
  simp only [List.length_append] at hlength
  omega

/-- The crossing when the receiver has read some bytes. -/
def reading (c : Crossing) (bytes : List UInt8) (pipe : Pipe) : Crossing :=
  { c with
    pipe, receiver := (c.receiver.absorb (.got bytes)).1
    receipts := c.receipts ++ (c.receiver.absorb (.got bytes)).2.toList }

/-- What the receiver reads comes from the pipe; if that is nothing, it has found the end. -/
theorem Sound.reading {bytes : List UInt8} {p' : Pipe} (h : Sound vs c received ends)
    (hgot : c.pipe.Got c.receiver.room bytes p') :
    ∃ received' ends', Sound vs (c.reading bytes p') received' ends' ∧ ends ≤ ends' ∧
      (ends < ends' ∨ p'.pending.length < c.pipe.pending.length) := by
  have hfits : (ReadReply.got bytes).Fits c.receiver.room := hgot.fits
  have hcame := Intake.absorb_came hfits h.torn
  have hstands := h.stands
  have hreader := hgot.reader.trans h.reader
  have hbytes := h.bytes
  rw [← hgot.pending] at hbytes
  rw [← hgot.writer] at hstands
  have hended : ends ≠ 0 → p'.writer = false ∧ received = vs := by
    rw [hgot.writer]
    exact h.ended
  have hlength : p'.pending.length + bytes.length = c.pipe.pending.length := by
    rw [← hgot.pending, List.length_append, Nat.add_comm]
  unfold Crossing.reading
  generalize c.receiver.absorb (.got bytes) = outcome at hcame ⊢
  cases hcame with
  | ended =>
    obtain ⟨hw, hpending⟩ := hgot.ended rfl
    obtain ⟨hclosed, hsent⟩ := h.released hw
    obtain ⟨hall, htorn⟩ := h.drained hpending (by rw [hclosed]; rfl)
    refine ⟨received, ends + 1, ⟨hstands, hgot.solid, hreader, ?_, width_pos, h.count, ?_, ?_⟩,
      Nat.le_succ _, .inl (Nat.lt_succ_self _)⟩
    · rw [htorn] at hbytes
      exact hbytes
    · dsimp only
      rw [h.receipts, htorn, List.replicate_succ', ← List.append_assoc]
      rfl
    · exact fun _ => ⟨hgot.writer.trans hw, hall.trans hsent⟩
  | @more b bs hl =>
    refine ⟨received, ends, ⟨hstands, hgot.solid, hreader, ?_, hl, h.count, ?_, hended⟩,
      Nat.le_refl _, .inr ?_⟩
    · rw [← hbytes]
      simp
    · dsimp only
      rw [Option.toList_none, List.append_nil]
      exact h.receipts
    · rw [← hlength, List.length_cons]
      omega
  | @value b bs v hv =>
    rw [List.length_cons] at hlength
    have hzero : ends = 0 := h.ends_eq_zero (by omega)
    subst hzero
    refine ⟨received ++ [v], 0, ⟨hstands, hgot.solid, hreader, ?_, width_pos, ?_, ?_, ?_⟩,
      Nat.le_refl _, .inr ?_⟩
    · rw [← hbytes, encodeAll_append]
      simp [← hv]
    · rw [List.length_append, ← h.count]
      rfl
    · dsimp only
      rw [h.receipts]
      simp
    · exact fun hne => absurd rfl hne
    · omega

/-- The receiver moves on, and is held up only while nothing is in the pipe and the writing end
is still held. -/
theorem Sound.receiver_turn (h : Sound vs c received ends) :
    (c.perform .receiver = none → c.pipe.pending = [] ∧ c.pipe.writer = true) ∧
      ∃ received' ends', Sound vs (c.turn .receiver) received' ends' ∧
        (c.turn .receiver).sender = c.sender ∧
        (c.turn .receiver).pipe.writer = c.pipe.writer ∧ ends ≤ ends' ∧
        (c.pipe.writer = false →
          ends < ends' ∨ (c.turn .receiver).pipe.pending.length < c.pipe.pending.length) := by
  have hroom := Intake.room_pos h.torn
  cases hr : c.pipe.read c.receiver.room with
  | mk reply p' =>
  cases reply with
  | none =>
    have hwaits : c.perform .receiver = none := by rw [perform, hr]
    have hsame : c.turn .receiver = c := by rw [turn, hwaits]; rfl
    obtain ⟨hpending, hwriter⟩ := Pipe.read_waits hroom hr
    rw [hsame]
    refine ⟨fun _ => ⟨hpending, hwriter⟩, received, ends, h, rfl, rfl, Nat.le_refl _, ?_⟩
    intro hclosed
    rw [hwriter] at hclosed
    cases hclosed
  | some bytes =>
    have hperform : c.perform .receiver = some (c.reading bytes p') := by rw [perform, hr]; rfl
    have hturn : c.turn .receiver = c.reading bytes p' := by rw [turn, hperform]; rfl
    have hgot := Pipe.read_got h.solid hroom hr
    obtain ⟨received', ends', hsound, hle, hprogress⟩ := h.reading hgot
    rw [hturn]
    refine ⟨?_, received', ends', hsound, rfl, hgot.writer, hle, fun _ => hprogress⟩
    intro hnone
    rw [hperform] at hnone
    cases hnone

/-! ## Any schedule -/

theorem follow_cons (c : Crossing) (side : Side) (schedule : List Side) :
    c.follow (side :: schedule) = (c.turn side).follow schedule := rfl

/-- What comes of turns in any order from a crossing with some values received. -/
structure Followed (vs : List Int32) (c : Crossing) (ends : Nat) (schedule : List Side)
    (received' : List Int32) (ends' : Nat) : Prop where
  sound : Sound vs (c.follow schedule) received' ends'
  grows : ends ≤ ends'
  closes : c.sender.left ≤ schedule.count .sender → (c.follow schedule).pipe.writer = false
  drains : c.pipe.writer = false → (c.follow schedule).pipe.writer = false ∧
    (ends < ends' ∨
      (c.follow schedule).pipe.pending.length + schedule.count .receiver ≤ c.pipe.pending.length)

/-- Each turn of the sender brings it nearer to its end, and each turn of the receiver behind that
brings it nearer to the end of the stream. -/
theorem Sound.follow (h : Sound vs c received ends) (schedule : List Side) :
    ∃ received' ends', Followed vs c ends schedule received' ends' := by
  induction schedule generalizing c received ends with
  | nil =>
    refine ⟨received, ends, h, Nat.le_refl _, fun hleft => ?_, fun hw => ⟨hw, .inr ?_⟩⟩
    · change c.pipe.writer = false
      have hstands := h.stands
      generalize c.pipe.writer = writer at hstands ⊢
      generalize c.sender = sender at hstands hleft
      cases hstands with
      | closed hsent => rfl
      | _ => exact absurd hleft (by simp [Sender.left])
    · exact Nat.le_refl _
  | cons side schedule ih =>
    cases side with
    | sender =>
      obtain ⟨hsound, hmoves⟩ := h.sender_turn
      obtain ⟨received', ends', hrest⟩ := ih hsound
      refine ⟨received', ends', hrest.sound, hrest.grows, fun hleft => ?_, fun hw => ?_⟩
      · rw [List.count_cons_self] at hleft
        rcases hmoves with hless | ⟨hsame, hw⟩
        · exact hrest.closes (by omega)
        · exact (hrest.drains (by rw [hsame, hw])).1
      · have hsame : c.turn .sender = c := by
          rcases hmoves with hless | ⟨hsame, -⟩
          · rw [(h.released hw).1] at hless
            exact absurd hless (Nat.not_succ_le_zero _)
          · exact hsame
        rw [List.count_cons_of_ne (by decide), follow_cons]
        have hdrains := hrest.drains
        rw [hsame] at hdrains ⊢
        exact hdrains hw
    | receiver =>
      obtain ⟨-, received', ends', hsound, hsender, hwriter, hle, hprogress⟩ := h.receiver_turn
      obtain ⟨received'', ends'', hrest⟩ := ih hsound
      refine ⟨received'', ends'', hrest.sound, Nat.le_trans hle hrest.grows,
        fun hleft => ?_, fun hw => ?_⟩
      · rw [List.count_cons_of_ne (by decide), ← hsender] at hleft
        exact hrest.closes hleft
      · obtain ⟨hw', hdrained⟩ := hrest.drains (hwriter.trans hw)
        have hends := hrest.grows
        rw [List.count_cons_self, follow_cons]
        refine ⟨hw', ?_⟩
        rcases hprogress hw with hfound | hless
        · exact .inl (by omega)
        · rcases hdrained with hfound | hless'
          · exact .inl (by omega)
          · exact .inr (by omega)

/-- A sender that has closed has given up the writing end. -/
theorem Sound.writer_of_closed {result : Except IoError Nat} (h : Sound vs c received ends)
    (hclosed : c.sender = .closed result) : c.pipe.writer = false := by
  have hstands := h.stands
  rw [hclosed] at hstands
  generalize c.pipe.writer = writer at hstands ⊢
  cases hstands
  rfl

theorem Sound.pending_le (h : Sound vs c received ends) (hw : c.pipe.writer = false) :
    c.pipe.pending.length ≤ width * vs.length := by
  have hlength := congrArg List.length h.bytes
  rw [(h.released hw).2] at hlength
  simp only [List.length_append, length_encodeAll] at hlength
  omega

/-- Once the sender has closed, one turn of the receiver more than there are bytes is enough for
it to come to the end of the stream. -/
theorem Sound.finishes {after : List Side} (h : Sound vs c received ends)
    (hw : c.pipe.writer = false) (hturns : width * vs.length < after.count .receiver) :
    (c.follow after).receiver.received = vs.length ∧
      ∃ more, (c.follow after).receipts =
        vs.map .value ++ .ended 0 :: List.replicate more (.ended 0) := by
  have hpending := h.pending_le hw
  obtain ⟨received', ends', hafter, -, -, hdrains⟩ := h.follow after
  have hfound : ends' ≠ 0 := by
    rcases (hdrains hw).2 with hfound | hless <;> omega
  obtain ⟨-, hall⟩ := hafter.ended hfound
  obtain ⟨more, rfl⟩ := Nat.exists_eq_succ_of_ne_zero hfound
  rw [hall] at hafter
  exact ⟨hafter.count, more, hafter.receipts⟩

/-- At every moment what has been received is a beginning of what has been sent, and that of what
there is to send; the end of the stream is found only when the sender has closed, and then all
has been received. The receiver is held up only while the sender has not closed. The sender closes
in so many turns, and the receiver comes to the end in so many turns after that; and both count
as many values as there were to send. -/
theorem values_cross (vs : List Int32) (schedule : List Side) :
    let c := (start vs).follow schedule
    (∃ received ends,
      c.receipts = received.map .value ++ List.replicate ends (.ended 0) ∧
      c.receiver.received = received.length ∧ received <+: c.sent ∧ c.sent <+: vs ∧
      (ends ≠ 0 → received = vs ∧ c.sender = .closed (.ok vs.length))) ∧
    (∀ result, c.sender = .closed result → result = .ok vs.length ∧ c.sent = vs) ∧
    (c.perform .receiver = none →
      c.pipe.pending = [] ∧ ∀ result, c.sender ≠ .closed result) ∧
    (2 * vs.length + 3 ≤ schedule.count .sender → c.sender = .closed (.ok vs.length)) ∧
    ∀ after, c.sender = .closed (.ok vs.length) → width * vs.length < after.count .receiver →
      (c.follow after).receiver.received = vs.length ∧
        ∃ ends, (c.follow after).receipts =
          vs.map .value ++ .ended 0 :: List.replicate ends (.ended 0) := by
  intro c
  obtain ⟨received, ends, hsound, -, hcloses, -⟩ := (sound_start vs).follow schedule
  refine ⟨⟨received, ends, hsound.receipts, hsound.count, hsound.received_isPrefix,
    hsound.stands.isPrefix, ?_⟩, ?_, ?_, ?_, ?_⟩
  · intro hends
    obtain ⟨hw, hall⟩ := hsound.ended hends
    exact ⟨hall, (hsound.released hw).1⟩
  · intro result hclosed
    obtain ⟨hclosed', hsent⟩ := hsound.released (hsound.writer_of_closed hclosed)
    exact ⟨Sender.closed.inj (hclosed.symm.trans hclosed'), hsent⟩
  · intro hwaits
    obtain ⟨hpending, hw⟩ := hsound.receiver_turn.1 hwaits
    refine ⟨hpending, fun result hclosed => ?_⟩
    rw [hsound.writer_of_closed hclosed] at hw
    cases hw
  · intro hturns
    exact (hsound.released (hcloses hturns)).1
  · intro after hclosed hturns
    exact hsound.finishes (hsound.writer_of_closed hclosed) hturns

/-- The receiver lets two turns pass: the value is held back until the sender closes. -/
example : ((start [7]).follow [.receiver, .sender, .sender, .receiver, .sender, .receiver, .sender,
    .receiver]).receipts = [.value 7, .ended 0] := by decide

end Crossing

end SieveChain
