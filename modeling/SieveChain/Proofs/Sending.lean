import SieveChain.Channel.Send
import SieveChain.Proofs.Replies
import SieveChain.Proofs.Surroundings

/-!
# Sending, whatever becomes of the writes

A write may take some of what an outbox holds, fail, or take nothing, and the writes behind it
go on from there. At all times what the sink has accepted and what the outbox still holds are
together the encoding of the values taken; a value whose sending has failed is not among them.
-/

namespace SieveChain.Outbox

open Wire Scripted

/-- What a sink accepts in one write leaves the outbox. -/
theorem absorb_write {o o' : Outbox} {s s' : Sink} {reply : WriteReply}
    {r : Option (Except IoError Unit)} (hne : o.bytes ≠ []) (hs : s.write o.bytes = (reply, s'))
    (h : o.absorb reply = (o', r)) :
    ∃ sent, s'.accepted.toList = s.accepted.toList ++ sent ∧ sent ++ o'.bytes = o.bytes ∧
      o'.taken = o.taken ∧ (r = some (.ok ()) → o'.bytes = []) := by
  obtain ⟨rfl, rfl⟩ := Prod.mk.inj hs
  refine ⟨Surroundings.accepted o.bytes (s.answer o.bytes).1, s.accepted_after _ _, ?_⟩
  have hg := absorb_gone hne (s.answer o.bytes).1
  rw [h] at hg
  generalize (s.answer o.bytes).1 = reply at hg ⊢
  cases hg with
  | interrupted hi => exact ⟨rfl, rfl, fun hr => nomatch hr⟩
  | failed hi => exact ⟨rfl, rfl, fun hr => nomatch hr⟩
  | stuck => exact ⟨rfl, rfl, fun hr => nomatch hr⟩
  | more hb ht hs hne' => exact ⟨hb, ht, fun hr => nomatch hr⟩
  | all hb he ht =>
    refine ⟨?_, ht, fun _ => he⟩
    rw [he, List.append_nil]
    exact hb

/-- Flushing hands on a beginning of what is held, and all of it if it succeeds. -/
theorem flush_hands_on (o : Outbox) (s : Sink) :
    ∃ sent, (o.flush s).2.2.accepted.toList = s.accepted.toList ++ sent ∧
      sent ++ (o.flush s).2.1.bytes = o.bytes ∧ (o.flush s).2.1.taken = o.taken ∧
      ((o.flush s).1 = .ok () → (o.flush s).2.1.bytes = []) := by
  fun_induction flush o s with
  | case1 o s he => exact ⟨[], by simp, rfl, rfl, fun _ => isEmpty_iff.1 he⟩
  | case2 o s he reply s' hs o' r ho =>
    obtain ⟨sent, ha, hb, ht, hok⟩ := absorb_write (bytes_ne_nil he) hs ho
    exact ⟨sent, ha, hb, ht, fun hr => hok (congrArg some hr)⟩
  | case3 o s he reply s' hs o' ho ih =>
    obtain ⟨sent, ha, hb, ht, -⟩ := absorb_write (bytes_ne_nil he) hs ho
    obtain ⟨rest, ha', hb', ht', hok⟩ := ih
    refine ⟨sent ++ rest, ?_, ?_, ht'.trans ht, hok⟩
    · rw [ha', ha, List.append_assoc]
    · rw [List.append_assoc, hb', hb]

/-- An outbox that has taken some values, and what it has handed on of them to a sink that
held certain bytes before. -/
structure Keeps (before : List UInt8) (vs : List Int32) (sent : List UInt8) (o : Outbox)
    (s : Sink) : Prop where
  accepted : s.accepted.toList = before ++ sent
  bytes : sent ++ o.bytes = encodeAll vs
  taken : o.taken = vs.length
  size : o.size ≤ capacity

section Keeps

variable {before sent : List UInt8} {vs : List Int32} {o : Outbox} {s : Sink}

theorem keeps_empty (s : Sink) : Keeps s.accepted.toList [] [] .empty s :=
  ⟨(List.append_nil _).symm, rfl, rfl, Nat.zero_le _⟩

theorem Keeps.sent_isPrefix (h : Keeps before vs sent o s) : sent <+: encodeAll vs := by
  rw [← h.bytes]
  exact List.prefix_append _ _

theorem Keeps.put (h : Keeps before vs sent o s) (hroom : o.hasRoom = true) (v : Int32) :
    Keeps before (vs ++ [v]) sent (o.put v) s where
  accepted := h.accepted
  bytes := by rw [bytes_put, ← List.append_assoc, h.bytes, encodeAll_append]; simp
  taken := by rw [List.length_append, ← h.taken]; rfl
  size := by simpa [hasRoom, Outbox.put] using hroom

theorem Keeps.flush (h : Keeps before vs sent o s) :
    ∃ sent', Keeps before vs sent' (o.flush s).2.1 (o.flush s).2.2 ∧
      ((o.flush s).1 = .ok () → (o.flush s).2.1.bytes = []) := by
  obtain ⟨more, ha, hb, ht, hok⟩ := o.flush_hands_on s
  refine ⟨sent ++ more, ⟨?_, ?_, ht.trans h.taken, ?_⟩, hok⟩
  · rw [ha, h.accepted, List.append_assoc]
  · rw [List.append_assoc, hb, h.bytes]
  · have hl := congrArg List.length hb
    rw [List.length_append, length_bytes, length_bytes] at hl
    exact Nat.le_trans (by omega) h.size

/-- Sending takes a value, or fails and takes nothing. -/
theorem Keeps.send (h : Keeps before vs sent o s) (v : Int32) :
    ∃ sent', Keeps before (if (o.send v s).1.isOk then vs ++ [v] else vs) sent'
      (o.send v s).2.1 (o.send v s).2.2 := by
  unfold Outbox.send
  split
  · next hroom => exact ⟨sent, h.put hroom v⟩
  · obtain ⟨sent', h', hok⟩ := h.flush
    generalize o.flush s = answer at h' hok
    obtain ⟨r, o', s'⟩ := answer
    cases r with
    | error e => exact ⟨sent', h'⟩
    | ok u =>
      have hempty : o'.size = 0 := by rw [← length_bytes, hok rfl]; rfl
      exact ⟨sent', h'.put (by rw [hasRoom, hempty]; decide) v⟩

end Keeps

/-! ## Sending one value after the other -/

/-- Sends values one after the other, going on when one of them is not taken. -/
def sendEach (o : Outbox) (s : Sink) :
    List Int32 → List (Int32 × Except IoError Unit) × Outbox × Sink
  | [] => ([], o, s)
  | v :: vs =>
    let (r, o, s) := o.send v s
    let (results, o, s) := sendEach o s vs
    ((v, r) :: results, o, s)

/-- The values whose sending went well. -/
def takenOf (results : List (Int32 × Except IoError Unit)) : List Int32 :=
  (results.filter (·.2.isOk)).map (·.1)

theorem Keeps.sendEach {before sent : List UInt8} {vs : List Int32} {o : Outbox} {s : Sink}
    (h : Keeps before vs sent o s) (ws : List Int32) :
    ∃ sent', Keeps before (vs ++ takenOf (o.sendEach s ws).1) sent' (o.sendEach s ws).2.1
      (o.sendEach s ws).2.2 := by
  induction ws generalizing vs sent o s with
  | nil => exact ⟨sent, by simpa [Outbox.sendEach, takenOf] using h⟩
  | cons w ws ih =>
    obtain ⟨sent', h'⟩ := h.send w
    obtain ⟨sent'', h''⟩ := ih h'
    refine ⟨sent'', ?_⟩
    rw [Outbox.sendEach]
    dsimp only
    generalize o.send w s = answer at h'' ⊢
    obtain ⟨r, o', s'⟩ := answer
    cases r with
    | ok u => simpa [takenOf, Except.isOk, Except.toBool] using h''
    | error e => simpa [takenOf, Except.isOk, Except.toBool] using h''

/-- However its sink behaves, after any number of sends an outbox has handed on and still holds
exactly the values whose sending went well, at most so many bytes of them, and counts them.
Closing succeeds only if the sink has accepted them all; whether closing fails or the outbox is
dropped, the sink has accepted a beginning of them. -/
theorem sendEach_exact (s : Sink) (vs : List Int32) :
    let (results, o, s') := sendEach .empty s vs
    ∃ sent, s'.accepted.toList = s.accepted.toList ++ sent ∧
      sent ++ o.bytes = encodeAll (takenOf results) ∧ o.bytes.length ≤ 8192 ∧
      o.taken = (takenOf results).length ∧
      (match o.close s' with
        | (.ok n, s'') => n = (takenOf results).length ∧
          s''.accepted.toList = s.accepted.toList ++ encodeAll (takenOf results)
        | (.error _, s'') => ∃ sent', s''.accepted.toList = s.accepted.toList ++ sent' ∧
          sent' <+: encodeAll (takenOf results)) ∧
      ∃ sent', (o.drop s').accepted.toList = s.accepted.toList ++ sent' ∧
        sent' <+: encodeAll (takenOf results) := by
  obtain ⟨sent, h⟩ := (keeps_empty s).sendEach vs
  rw [List.nil_append] at h
  generalize sendEach .empty s vs = run at h
  obtain ⟨results, o, s'⟩ := run
  dsimp only at h ⊢
  obtain ⟨sent', h', hok⟩ := h.flush
  refine ⟨sent, h.accepted, h.bytes, ?_, h.taken, ?_, sent', h'.accepted, h'.sent_isPrefix⟩
  · rw [length_bytes]
    exact h.size
  · rw [close]
    generalize o.flush s' = answer at h' hok
    obtain ⟨r, o', s''⟩ := answer
    dsimp only at h' hok
    cases r with
    | ok u =>
      have hall := h'.bytes
      rw [hok rfl, List.append_nil] at hall
      exact ⟨h'.taken, by rw [h'.accepted, hall]⟩
    | error e =>
      obtain ⟨sent'', h'', -⟩ := h'.flush
      exact ⟨sent'', h''.accepted, h''.sent_isPrefix⟩

end SieveChain.Outbox
