import SieveChain.Proofs.Faults
import SieveChain.Proofs.Surroundings

/-!
# Emitting a line, whatever the writer answers

A line is emitted in pieces, each offered until all of it has been accepted, and then there is one
flush. Whatever the writer answers, what it has accepted is a beginning of the line. The result is
good exactly if that is the whole line and the flush has succeeded; otherwise it is the first error
among the answers.
-/

namespace SieveChain

open Scripted

/-- The bytes that the record accepts in an event. -/
def Event.entered : Event → List UInt8
  | .recorded accepted _ => accepted
  | _ => []

/-- A flush of the record. -/
def Event.isCommit : Event → Bool
  | .committed _ => true
  | _ => false

theorem Event.error?_recorded_of_goesWell {accepted : List UInt8} {reply : WriteReply}
    (h : reply.goesWell = true) : (Event.recorded accepted reply).error? = none := by
  cases reply with
  | took n =>
    cases n with
    | zero => cases h
    | succ n => rfl
  | failed e => exact error?_recorded_interrupted h

/-- The first error among events, as a result. -/
def firstError (events : List Event) : Except IoError Unit :=
  match events.findSome? Event.error? with
  | none => .ok ()
  | some error => .error error

namespace Record

/-! ## What comes of the writes -/

/-- How what remains of a line is written to a writer of any kind: what happens, and the result. -/
inductive Entry.Writes : Entry → List Event → Except IoError Unit → Prop
  | all {entry : Entry} (hp : entry.pieces = []) : Writes entry [] (.ok ())
  | again {entry entry' : Entry} {piece : List UInt8} {rest : List (List UInt8)}
      {reply : WriteReply} {events : List Event} {result : Except IoError Unit}
      (hp : entry.pieces = piece :: rest) (fits : reply.Fits piece)
      (ha : entry.absorb reply = .ok entry') (h : Writes entry' events result) :
      Writes entry (.recorded (Surroundings.accepted piece reply) reply :: events) result
  | broken {entry : Entry} {piece : List UInt8} {rest : List (List UInt8)} {reply : WriteReply}
      {error : IoError} (hp : entry.pieces = piece :: rest) (fits : reply.Fits piece)
      (ha : entry.absorb reply = .error error) :
      Writes entry [.recorded (Surroundings.accepted piece reply) reply] (.error error)

namespace Entry.Writes

variable {entry : Entry} {events : List Event} {result : Except IoError Unit}

theorem isCommit (h : entry.Writes events result) : ∀ e ∈ events, e.isCommit = false := by
  induction h with
  | all hp => exact List.forall_mem_nil _
  | again hp fits ha h ih => exact List.forall_mem_cons.2 ⟨rfl, ih⟩
  | broken hp fits ha => exact List.forall_mem_singleton.2 rfl

theorem result_eq (h : entry.Writes events result) (hne : ∀ piece ∈ entry.pieces, piece ≠ []) :
    result = firstError events := by
  induction h with
  | all hp => rfl
  | @again entry entry' piece rest reply events result hp fits ha h ih =>
    have hw := absorb_wrote hp hne reply
    rw [ha] at hw
    cases hw with
    | interrupted hi =>
      rw [ih hne, firstError, firstError, List.findSome?_cons, Event.error?_recorded_interrupted hi]
    | some hb hne' hw => rw [ih hne', firstError, firstError, List.findSome?_cons]; rfl
  | @broken entry piece rest reply error hp fits ha =>
    have hw := absorb_wrote hp hne reply
    rw [ha] at hw
    cases hw with
    | failed hi =>
      rw [firstError, List.findSome?_cons, Event.error?_recorded_failed hi]
    | stuck => rfl

/-- What is left of the bytes of a line when it has been written, or writing has failed. -/
theorem exists_rest (h : entry.Writes events result) (hne : ∀ piece ∈ entry.pieces, piece ≠ []) :
    ∃ rest, events.flatMap Event.entered ++ rest = entry.bytes ∧ (result = .ok () ↔ rest = []) := by
  induction h with
  | @all entry hp => exact ⟨[], by rw [bytes, hp]; rfl, by simp⟩
  | @again entry entry' piece rest reply events result hp fits ha h ih =>
    have hw := absorb_wrote hp hne reply
    rw [ha] at hw
    cases hw with
    | interrupted hi => exact ih hne
    | some hb hne' hw =>
      obtain ⟨rest, hrest, hiff⟩ := ih hne'
      refine ⟨rest, ?_, hiff⟩
      rw [List.flatMap_cons, List.append_assoc, hrest]
      exact hb
  | @broken entry piece rest reply error hp fits ha =>
    have hpiece : piece ≠ [] := hne piece (by rw [hp]; exact List.mem_cons_self)
    have hw := absorb_wrote hp hne reply
    rw [ha] at hw
    have hnothing : Surroundings.accepted piece reply = [] := by cases hw <;> rfl
    refine ⟨entry.bytes, ?_, ?_⟩
    · rw [List.flatMap_singleton, Event.entered, hnothing, List.nil_append]
    · simp [bytes, hp, hpiece]

end Entry.Writes

end Record

/-! ## Sinks as writers -/

namespace Scripted.Sink

/-- How a sink answers writes and flushes, and what it is afterwards. No write is of nothing. -/
inductive Answers : Sink → List Event → Sink → Prop
  | done {s : Sink} : Answers s [] s
  | write {s s' : Sink} {bytes : List UInt8} {events : List Event} (hne : bytes ≠ [])
      (h : Answers (s.write bytes).2 events s') :
      Answers s
        (.recorded (Surroundings.accepted bytes (s.write bytes).1) (s.write bytes).1 :: events) s'
  | flush {s s' : Sink} {events : List Event} (h : Answers s.flush.2 events s') :
      Answers s (.committed s.flush.1 :: events) s'

namespace Answers

variable {s s' : Sink} {events : List Event}

theorem flushed (h : s.Answers events s') :
    s.Answers (events ++ [.committed s'.flush.1]) s'.flush.2 := by
  induction h with
  | done => exact .flush .done
  | write hne h ih => exact .write hne ih
  | flush h ih => exact .flush ih

theorem accepted_eq (h : s.Answers events s') :
    s'.accepted.toList = s.accepted.toList ++ events.flatMap Event.entered := by
  induction h with
  | done => exact (List.append_nil _).symm
  | @write s s' bytes events hne h ih =>
    have hwrite : (s.write bytes).2.accepted.toList =
        s.accepted.toList ++ Surroundings.accepted bytes (s.write bytes).1 := s.accepted_after _ _
    rw [ih, hwrite, List.append_assoc]
    rfl
  | @flush s s' events h ih =>
    rw [ih, flush_snd]
    rfl

theorem flushes_eq (h : s.Answers events s') :
    s'.flushes = s.flushes + events.countP Event.isCommit := by
  induction h with
  | done => rfl
  | @write s s' bytes events hne h ih =>
    have hwrite : (s.write bytes).2.flushes = s.flushes := s.flushes_after _ _
    rw [ih, hwrite]
    rfl
  | @flush s s' events h ih =>
    rw [ih, flush_snd, List.countP_cons_of_pos rfl]
    exact Nat.add_right_comm _ _ _

/-- A sink that is never in the way makes no errors. -/
theorem error?_of_easy (h : s.Answers events s') (he : s.Easy) :
    ∀ e ∈ events, e.error? = none := by
  induction h with
  | done => exact List.forall_mem_nil _
  | write hne h ih =>
    obtain ⟨hafter, hwell⟩ := he.after hne
    exact List.forall_mem_cons.2 ⟨Event.error?_recorded_of_goesWell hwell, ih hafter⟩
  | flush h ih =>
    obtain ⟨hok, heasy⟩ := he.flush
    rw [hok]
    exact List.forall_mem_cons.2 ⟨rfl, ih heasy⟩

end Answers

end Scripted.Sink

/-! ## What comes of emitting -/

namespace Record

/-- How the line of a value is emitted through a writer of any kind: when it has been written it is
flushed, whatever comes of that. -/
inductive Emits (v : Int32) : List Event → Except IoError Unit → Prop
  | flushed {events : List Event} (h : (Entry.ofValue v).Writes events (.ok ()))
      (result : Except IoError Unit) : Emits v (events ++ [.committed result]) result
  | broken {events : List Event} {error : IoError}
      (h : (Entry.ofValue v).Writes events (.error error)) : Emits v events (.error error)

theorem writeEntry_writes (entry : Entry) (s : Sink) (hne : ∀ piece ∈ entry.pieces, piece ≠ []) :
    ∃ events, entry.Writes events (writeEntry entry s).1 ∧
      s.Answers events (writeEntry entry s).2 := by
  fun_induction writeEntry entry s with
  | case1 entry s hp => exact ⟨[], .all hp, .done⟩
  | case2 entry s piece rest hp reply s' hw error ha =>
    have hpiece : piece ≠ [] := hne piece (by rw [hp]; exact List.mem_cons_self)
    obtain ⟨rfl, rfl⟩ := Prod.mk.inj hw
    exact ⟨_, .broken hp (s.answer_fits piece) ha, .write hpiece .done⟩
  | case3 entry s piece rest hp reply s' hw entry' ha ih =>
    have hpiece : piece ≠ [] := hne piece (by rw [hp]; exact List.mem_cons_self)
    have hwrote := Entry.absorb_wrote hp hne reply
    rw [ha] at hwrote
    have hne' : ∀ piece ∈ entry'.pieces, piece ≠ [] := by
      cases hwrote with
      | interrupted hi => exact hne
      | some hb hne' hw => exact hne'
    obtain ⟨rfl, rfl⟩ := Prod.mk.inj hw
    obtain ⟨events, hwrites, hanswers⟩ := ih hne'
    exact ⟨_, .again hp (s.answer_fits piece) ha hwrites, .write hpiece hanswers⟩

theorem emit_emits (v : Int32) (s : Sink) :
    ∃ events, Emits v events (emit v s).1 ∧ s.Answers events (emit v s).2 := by
  obtain ⟨events, hwrites, hanswers⟩ := writeEntry_writes (.ofValue v) s fun _ => piece_ne_nil
  rw [emit]
  generalize writeEntry (.ofValue v) s = written at hwrites hanswers
  obtain ⟨result, s'⟩ := written
  cases result with
  | error e => exact ⟨events, .broken hwrites, hanswers⟩
  | ok u => exact ⟨_, .flushed hwrites _, hanswers.flushed⟩

namespace Emits

variable {v : Int32} {events : List Event} {result : Except IoError Unit}

theorem result_eq (h : Emits v events result) : result = firstError events := by
  cases h with
  | @flushed events h result =>
    have hwrites : firstError events = .ok () := (h.result_eq fun _ => piece_ne_nil).symm
    unfold firstError at hwrites ⊢
    rw [List.findSome?_append]
    split at hwrites
    · next hnone =>
      rw [hnone, Option.none_or]
      cases result <;> rfl
    · cases hwrites
  | broken h => exact h.result_eq fun _ => piece_ne_nil

theorem exists_rest (h : Emits v events result) :
    ∃ rest, events.flatMap Event.entered ++ rest = lineBytes v ∧
      events.countP Event.isCommit = (if rest = [] then 1 else 0) ∧
      (result = .ok () ↔ rest = [] ∧ .committed (.ok ()) ∈ events) := by
  cases h with
  | @flushed events h result =>
    obtain ⟨rest, hrest, hok⟩ := h.exists_rest fun _ => piece_ne_nil
    obtain rfl := hok.1 rfl
    have hnone : events.countP Event.isCommit = 0 :=
      List.countP_eq_zero.2 fun e he => by simp [h.isCommit e he]
    have hcommit : Event.committed (.ok ()) ∉ events := fun hmem => by
      cases h.isCommit _ hmem
    refine ⟨[], ?_, ?_, ?_⟩
    · have hcommitted : [Event.committed result].flatMap Event.entered = [] := rfl
      rw [← bytes_ofValue, ← hrest, List.flatMap_append, hcommitted, List.append_nil]
    · rw [List.countP_append, hnone, if_pos rfl]
      rfl
    · simp [hcommit, eq_comm]
  | @broken events error h =>
    obtain ⟨rest, hrest, hok⟩ := h.exists_rest fun _ => piece_ne_nil
    have hne : rest ≠ [] := fun hnil => by cases hok.2 hnil
    refine ⟨rest, by rw [← bytes_ofValue, hrest], ?_, ?_⟩
    · rw [if_neg hne]
      exact List.countP_eq_zero.2 fun e he => by simp [h.isCommit e he]
    · simp [hne]

end Emits

/-- A record that is never in the way takes the whole line. -/
theorem emit_of_easy (v : Int32) {s : Sink} (he : s.Easy) :
    (emit v s).1 = .ok () ∧
      (emit v s).2.accepted.toList = s.accepted.toList ++ lineBytes v := by
  obtain ⟨events, hemits, hanswers⟩ := emit_emits v s
  obtain ⟨rest, hrest, -, hok⟩ := hemits.exists_rest
  have hresult : (emit v s).1 = .ok () := by
    rw [hemits.result_eq, firstError, List.findSome?_eq_none_iff.2 (hanswers.error?_of_easy he)]
  refine ⟨hresult, ?_⟩
  rw [hanswers.accepted_eq, ← hrest, (hok.1 hresult).1, List.append_nil]

/-- Emitting is all or a failure that is seen. A sink answers writes and at most one flush, and
keeps what it has accepted. Whatever a writer answers, that is a beginning of the line; there is a
flush exactly if it is the whole line; the result is good exactly if, besides, the flush has
succeeded; and otherwise it is the first error, of a write or of the flush. -/
theorem emit_all_or_fails (v : Int32) :
    (∀ s : Sink, ∃ events, Emits v events (emit v s).1 ∧ s.Answers events (emit v s).2 ∧
      (emit v s).2.accepted.toList = s.accepted.toList ++ events.flatMap Event.entered ∧
      (emit v s).2.flushes = s.flushes + events.countP Event.isCommit) ∧
    ∀ events result, Emits v events result →
      events.flatMap Event.entered <+: lineBytes v ∧
      events.countP Event.isCommit =
        (if events.flatMap Event.entered = lineBytes v then 1 else 0) ∧
      (result = .ok () ↔
        events.flatMap Event.entered = lineBytes v ∧ .committed (.ok ()) ∈ events) ∧
      result = firstError events := by
  constructor
  · intro s
    obtain ⟨events, hemits, hanswers⟩ := emit_emits v s
    exact ⟨events, hemits, hanswers, hanswers.accepted_eq, hanswers.flushes_eq⟩
  · intro events result hemits
    obtain ⟨rest, hrest, hcommits, hok⟩ := hemits.exists_rest
    have hwhole : events.flatMap Event.entered = lineBytes v ↔ rest = [] := by
      rw [← hrest]
      exact List.self_eq_append_right
    simp only [hwhole]
    exact ⟨⟨rest, hrest⟩, hcommits, hok, hemits.result_eq⟩

/-- A writer that takes three bytes, is interrupted, and is gone then. -/
theorem emit_all_or_fails_torn_word :
    let events : List Event :=
      [.recorded [0x70, 0x72, 0x69] (.took 3), .recorded [] (.failed ⟨.interrupted, none⟩),
        .recorded [] (.failed ⟨.brokenPipe, none⟩)]
    Emits 7 events (.error ⟨.brokenPipe, none⟩) ∧
      [0x70, 0x72, 0x69] <+: lineBytes 7 ∧ events.countP Event.isCommit = 0 := by
  intro events
  obtain ⟨rest, hword⟩ : ∃ rest, (Entry.ofValue 7).pieces = [0x70, 0x72, 0x69, 0x6d, 0x65] :: rest :=
    ⟨_, rfl⟩
  have htaken : (Entry.ofValue 7).absorb (.took 3) = .ok ⟨[0x6d, 0x65] :: rest⟩ := by
    simp [Entry.absorb, hword]
  have hfits : WriteReply.Fits [0x70, 0x72, 0x69, 0x6d, 0x65] (.took 3) := by
    show 3 ≤ 5
    decide
  have hgone : Entry.Writes ⟨[0x6d, 0x65] :: rest⟩
      [.recorded (Surroundings.accepted [0x6d, 0x65] (.failed ⟨.brokenPipe, none⟩))
        (.failed ⟨.brokenPipe, none⟩)] (.error ⟨.brokenPipe, none⟩) := .broken rfl trivial rfl
  have hagain : Entry.Writes ⟨[0x6d, 0x65] :: rest⟩
      (.recorded (Surroundings.accepted [0x6d, 0x65] (.failed ⟨.interrupted, none⟩))
        (.failed ⟨.interrupted, none⟩) :: _) _ := .again rfl trivial rfl hgone
  have hemits : Emits 7 events (.error ⟨.brokenPipe, none⟩) :=
    .broken (.again hword hfits htaken hagain)
  have hmore : events.flatMap Event.entered ≠ lineBytes 7 := by
    rw [← bytes_ofValue, Entry.bytes, hword]
    simp [events, Event.entered]
  obtain ⟨hbegun, hcommits, -, -⟩ := (emit_all_or_fails 7).2 events _ hemits
  exact ⟨hemits, hbegun, hcommits.trans (if_neg hmore)⟩

end Record

end SieveChain
