import SieveChain.Proofs.Account

/-!
# Scripted surroundings keep accounts

What a script answers is an answer to the move, and it is put on the trace. So the account
of the trace says what has been taken of the script: the bytes received are a beginning of
what the source had to give, and the bytes recorded and sent are those that the sinks have
accepted. Every answer takes from what the script holds in stock at least what it brings.
-/

namespace SieveChain.Scripted

/-! ## Replies of sources and sinks -/

theorem Source.most_pos {s : Source} {room : Nat} (hp : s.perRead ≠ some 0) (hroom : 0 < room) :
    0 < s.most room := by
  unfold Source.most
  split
  · exact hroom
  · next most hm =>
    rw [hm] at hp
    have : most ≠ 0 := fun hz => hp (by rw [hz])
    omega

theorem serve_chunks {most : Nat} (hm : 0 < most) (chunks : List (List UInt8)) :
    ∃ (bytes : List UInt8) (rest : List (List UInt8)),
      serve most (chunks.map .chunk) = (.got bytes, rest.map .chunk) ∧
      bytes ++ rest.flatten = chunks.flatten ∧ (bytes = [] → chunks.flatten = []) := by
  induction chunks with
  | nil => exact ⟨[], [], rfl, rfl, fun _ => rfl⟩
  | cons chunk chunks ih =>
    cases chunk with
    | nil => exact ih
    | cons b bs =>
      refine ⟨(b :: bs).take most, (b :: bs).drop most :: chunks, rfl, ?_, ?_⟩
      · rw [List.flatten_cons, ← List.append_assoc, List.take_append_drop, List.flatten_cons]
      · intro hn
        have hl := congrArg List.length hn
        rw [List.length_take, List.length_cons, List.length_nil] at hl
        omega

/-- A read brings no more than it was to bring at most, and uses that much up. -/
theorem serve_fits {most : Nat} {items rest : List Item} {reply : ReadReply}
    (h : serve most items = (reply, rest)) :
    reply.Fits most ∧ 2 * content rest + reply.brings ≤ 2 * content items := by
  fun_induction serve most items with
  | case1 =>
    cases h
    exact ⟨Nat.zero_le _, Nat.le_refl _⟩
  | case2 items ih =>
    obtain ⟨hf, hc⟩ := ih h
    refine ⟨hf, ?_⟩
    dsimp only [content]
    omega
  | case3 b bs items =>
    cases h
    constructor
    · rw [ReadReply.Fits, List.length_take]
      exact Nat.min_le_left _ _
    · dsimp only [content, ReadReply.brings]
      rw [List.length_drop, List.length_take]
      omega
  | case4 e items =>
    cases h
    refine ⟨trivial, ?_⟩
    dsimp only [content, ReadReply.brings]
    omega
  | case5 items =>
    cases h
    refine ⟨Nat.zero_le _, ?_⟩
    dsimp only [content, ReadReply.brings]
    rw [List.length_nil]
    omega

theorem Source.read_fits (s : Source) (room : Nat) : (s.read room).1.Fits room := by
  have hf := (@serve_fits (s.most room) s.items _ _ rfl).1
  have hmost : s.most room ≤ room := by
    unfold most
    split
    · exact Nat.le_refl _
    · exact Nat.min_le_left _ _
  have hr : (s.read room).1 = (serve (s.most room) s.items).1 := rfl
  rw [hr]
  cases hreply : (serve (s.most room) s.items).1 with
  | got bytes =>
    rw [hreply] at hf
    exact Nat.le_trans hf hmost
  | failed e => trivial

theorem respond_took {offer : Nat} {bs : List Barrier} {n : Nat}
    (h : (respond offer bs).1 = .took n) : n ≤ offer := by
  fun_induction respond offer bs with
  | case1 =>
    injection h with hn
    exact Nat.le_of_eq hn.symm
  | case2 d hurdle bs m =>
    injection h with hn
    rw [← hn]
    exact Nat.min_le_left _ _
  | case3 bs ih => exact ih h
  | case4 n bs => cases h
  | case5 e hard times bs hc ih => exact ih h
  | case6 e hard times bs left hc => cases h
  | case7 times bs hc ih => exact ih h
  | case8 times bs left hc =>
    cases h
    exact Nat.zero_le _

theorem patience_respond_le (offer : Nat) (bs : List Barrier) :
    patience (respond offer bs).2 ≤ patience bs := by
  fun_induction respond offer bs with
  | case1 => exact Nat.le_refl _
  | case2 d hurdle bs m => cases hurdle <;> exact Nat.le_refl _
  | case3 bs ih => exact Nat.le_trans ih (Nat.le_add_left _ _)
  | case4 n bs =>
    dsimp only [patience]
    omega
  | case5 e hard times bs hc ih => exact ih
  | case6 e hard times bs left hc => exact Nat.le_refl _
  | case7 times bs hc ih => exact ih
  | case8 times bs left hc => exact Nat.le_refl _

namespace Sink

/-- A sink that takes some of all it is offered, and is never in the way. -/
structure Easy (s : Sink) : Prop where
  perCall : s.perCall ≠ some 0
  barriers : s.barriers = []
  flushing : s.flushing = none

theorem easy_default : ({} : Sink).Easy := ⟨(Option.some_ne_none 0).symm, rfl, rfl⟩

theorem length_share_le (s : Sink) (bytes : List UInt8) : s.share bytes ≤ bytes.length := by
  unfold share
  split
  · exact Nat.le_refl _
  · rw [List.length_take]
    exact Nat.min_le_right _ _

theorem answer_fits (s : Sink) (bytes : List UInt8) : (s.answer bytes).1.Fits bytes := by
  cases hr : (s.answer bytes).1 with
  | took n => exact Nat.le_trans (respond_took hr) (s.length_share_le bytes)
  | failed e => trivial

theorem patience_after (s : Sink) (bytes : List UInt8) (reply : WriteReply × List Barrier) :
    (s.after bytes reply).patience = Scripted.patience reply.2 := by
  obtain ⟨reply, rest⟩ := reply
  cases reply <;> rfl

theorem accepted_after (s : Sink) (bytes : List UInt8) (reply : WriteReply × List Barrier) :
    (s.after bytes reply).accepted.toList =
      s.accepted.toList ++ Surroundings.accepted bytes reply.1 := by
  obtain ⟨reply, rest⟩ := reply
  cases reply with
  | took n => exact Array.toList_appendList
  | failed e => exact (List.append_nil _).symm

theorem flushes_after (s : Sink) (bytes : List UInt8) (reply : WriteReply × List Barrier) :
    (s.after bytes reply).flushes = s.flushes := by
  obtain ⟨reply, rest⟩ := reply
  cases reply <;> rfl

/-- A flush is counted, whether it succeeds or not, and nothing else comes of it. -/
theorem flush_snd (s : Sink) : s.flush.2 = { s with flushes := s.flushes + 1 } := by
  unfold flush
  dsimp only
  split <;> rfl

theorem patience_answer (s : Sink) (bytes : List UInt8) :
    (s.after bytes (s.answer bytes)).patience + (s.answer bytes).1.brings ≤ s.patience := by
  have hle := patience_respond_le (s.share bytes) s.barriers
  rw [patience_after]
  cases hr : (s.answer bytes).1 with
  | took n => exact hle
  | failed e =>
    dsimp only [WriteReply.brings]
    split
    · next hi => exact patience_respond (Prod.ext hr rfl) hi
    · exact hle

theorem share_ne_zero {s : Sink} (hcall : s.perCall ≠ some 0) {bytes : List UInt8}
    (hne : bytes ≠ []) : s.share bytes ≠ 0 := by
  have hpos := List.length_pos_iff.2 hne
  unfold share
  split
  · omega
  · next most hmost =>
    rw [hmost] at hcall
    have : most ≠ 0 := fun hz => hcall (by rw [hz])
    rw [List.length_take]
    omega

theorem Easy.after {s : Sink} (h : s.Easy) {bytes : List UInt8} (hne : bytes ≠ []) :
    (s.after bytes (s.answer bytes)).Easy ∧ (s.answer bytes).1.goesWell = true := by
  have hshare := share_ne_zero h.perCall hne
  have ha : s.answer bytes = (.took (s.share bytes), []) := by
    rw [answer, h.barriers, respond]
  rw [ha]
  exact ⟨⟨h.perCall, rfl, h.flushing⟩, bne_iff_ne.2 hshare⟩

theorem flush_eq_ok {s : Sink} (h : s.flushing = none) :
    s.flush = (.ok (), { s with flushes := s.flushes + 1 }) := by
  rw [flush]
  dsimp only
  rw [h]

theorem Easy.flush {s : Sink} (h : s.Easy) : s.flush.1 = .ok () ∧ s.flush.2.Easy := by
  rw [flush_eq_ok h.flushing]
  exact ⟨rfl, h.perCall, h.barriers, h.flushing⟩

end Sink

/-- A channel that takes what it is offered, to a child that does not fail. -/
structure Start.Easy (s : Start) : Prop where
  sink : s.sink.Easy
  ending : ∀ f, s.ending ≠ some (.error f)

theorem Start.easy_default : ({} : Start).Easy where
  sink := Sink.easy_default
  ending := by
    intro f h
    cases h

namespace Surroundings

variable {σ : Type} {w w' : Surroundings} {a : Account} {m : Move σ} {q : σ}

/-- What happens when a move is answered. -/
def event (w : Surroundings) : Move σ → Option Event
  | .read room _ => some (.read (w.source.read room).1)
  | .record bytes _ =>
    some (.recorded (accepted bytes (w.record.answer bytes).1) (w.record.answer bytes).1)
  | .commit _ => some (.committed w.record.flush.1)
  | .launch _ => some (.launched w.launch.1)
  | .send child bytes _ =>
    let reply := ((w.channel child).sink.answer bytes).1
    some (.sent child (accepted bytes reply) reply)
  | .shut child _ => some (.shut child)
  | .leave _ => some .left
  | .reap child _ => (w.channel child).ending.map (.reaped child)
  | .forsake child _ => some (.forsaken child)
  | .proceed _ => none
  | .rest => none

theorem toList_push (w : Surroundings) (e : Event) :
    (w.see e).trace.toList = w.trace.toList ++ [e] := Array.toList_push

theorem trace_launch (w : Surroundings) :
    w.launch.2.trace.toList = w.trace.toList ++ [.launched w.launch.1] := by
  unfold launch
  split
  · exact toList_push _ _
  · exact toList_push _ _
  · exact toList_push _ _

/-- A script answers moves. -/
theorem answered (h : w.answer m = (some q, w')) :
    m.Answered (w.event m) q ∧ w'.trace.toList = w.trace.toList ++ (w.event m).toList := by
  cases m with
  | read room next =>
    cases h
    exact ⟨.read (w.source.read_fits room), toList_push _ _⟩
  | record bytes next =>
    cases h
    exact ⟨.record (w.record.answer_fits bytes), toList_push _ _⟩
  | commit next =>
    cases h
    exact ⟨.commit _, toList_push _ _⟩
  | launch next =>
    cases h
    exact ⟨.launch _, w.trace_launch⟩
  | send child bytes next =>
    cases h
    exact ⟨.send (Sink.answer_fits _ bytes), toList_push _ _⟩
  | shut child next =>
    cases h
    exact ⟨.shut, toList_push _ _⟩
  | leave next =>
    cases h
    exact ⟨.leave, toList_push _ _⟩
  | reap child next =>
    rw [answer] at h
    split at h
    · next result hend =>
      cases h
      rw [event, hend]
      exact ⟨.reap result, toList_push _ _⟩
    · cases h
  | forsake child next =>
    cases h
    exact ⟨.forsake, toList_push _ _⟩
  | proceed next =>
    cases h
    exact ⟨.proceed, (List.append_nil _).symm⟩
  | rest => cases h

theorem ofTrace_answer (h : w.answer m = (some q, w')) :
    Account.ofTrace w'.trace.toList = (Account.ofTrace w.trace.toList).after (w.event m) := by
  rw [(answered h).2, Account.ofTrace_append]

theorem unanswered (h : w.answer m = (none, w')) :
    w' = w ∧ (m = .rest ∨
      ∃ child next, m = .reap child next ∧ (w.channel child).ending = none) := by
  cases m with
  | reap child next =>
    rw [answer] at h
    split at h
    · cases h
    · next hend =>
      cases h
      exact ⟨rfl, .inr ⟨child, next, rfl, hend⟩⟩
  | rest =>
    cases h
    exact ⟨rfl, .inl rfl⟩
  | _ => cases h

/-! ## The account of a party and its surroundings -/

/-- The channel of the child that a party has launched, if it has launched one. -/
inductive Linked (w : Surroundings) (a : Account) : Prop
  | none (hk : a.child = none) (hc : w.channels = #[])
  | some {child : Child} {s : Start} (hk : a.child = some child) (hi : child.index = w.first)
      (hc : w.channels = #[s]) (hs : s.sink.accepted.toList = a.sent)

theorem channel_eq {child : Child} {s : Start} (hi : child.index = w.first)
    (hc : w.channels = #[s]) : w.channel child = s := by
  rw [channel, hc, hi, Nat.sub_self]
  rfl

/-- It is known how a child ends if that is known behind every channel. -/
theorem ending_channel (hk : ∀ s ∈ w.channels, s.ending ≠ none) (child : Child) :
    (w.channel child).ending ≠ none := by
  rw [channel]
  cases hs : w.channels[child.index - w.first]? with
  | none => exact Option.some_ne_none _
  | some s => exact hk s (Array.mem_of_getElem? hs)

theorem channels_changed {child : Child} {s : Start} (change : Start → Start)
    (hi : child.index = w.first) (hc : w.channels = #[s]) :
    (w.changeChannel child change).channels = #[change s] := by
  rw [changeChannel, hc, hi, Nat.sub_self]
  rfl

/-- A source that serves a stream: all of it, or a beginning of it and then an error. -/
inductive Script (stream : List UInt8) (a : Account) : List Item → Prop
  | whole {chunks : List (List UInt8)} (hr : a.received ++ chunks.flatten = stream)
      (he : a.ended = true → chunks.flatten = []) : Script stream a (chunks.map .chunk)
  | cut {bytes : List UInt8} {e : IoError} (hr : a.received ++ bytes <+: stream)
      (he : a.ended = false) (hard : e.isInterrupted = false) :
      Script stream a [.chunk bytes, .error e]
  | struck (hr : a.received <+: stream) (hs : a.smooth = false) : Script stream a []

/-- Surroundings whose sinks were fresh at first and whose source serves a stream, when a
party with an account has acted in them. -/
structure Mirrors (stream : List UInt8) (w : Surroundings) (a : Account) : Prop where
  trace : Account.ofTrace w.trace.toList = a
  record : w.record.accepted.toList = a.recorded
  script : Script stream a w.source.items
  perRead : w.source.perRead ≠ some 0
  link : w.Linked a
  fresh : ∀ s, .started s ∈ w.launches → s.sink.accepted = #[]

theorem Script.received {stream : List UInt8} {items : List Item} (h : Script stream a items) :
    a.received <+: stream := by
  cases h with
  | whole hr he => rw [← hr]; exact List.prefix_append _ _
  | cut hr he hard => exact (List.prefix_append _ _).trans hr
  | struck hr hs => exact hr

/-- Without a failure the stream has been received in full when its end has been seen. -/
theorem Script.complete {stream : List UInt8} {items : List Item} (h : Script stream a items)
    (hs : a.smooth = true) (he : a.ended = true) : a.received = stream := by
  cases h with
  | whole hr he' => rw [← hr, he' he, List.append_nil]
  | cut hr he' hard =>
    rw [he] at he'
    cases he'
  | struck hr hs' =>
    rw [hs] at hs'
    cases hs'

theorem Script.of_eq {stream : List UInt8} {items : List Item} {a' : Account}
    (h : Script stream a items) (hr : a'.received = a.received) (he : a'.ended = a.ended)
    (hs : a.smooth = false → a'.smooth = false) : Script stream a' items := by
  cases h with
  | whole hr' he' => exact .whole (by rw [hr, hr']) (by rw [he]; exact he')
  | cut hr' he' hard => exact .cut (by rw [hr]; exact hr') (by rw [he, he']) hard
  | struck hr' hs' => exact .struck (by rw [hr]; exact hr') (hs hs')

/-- One read of a party that has met no failure yet. -/
theorem Script.read {stream : List UInt8} {source : Source} {room : Nat}
    (h : Script stream a source.items) (hp : source.perRead ≠ some 0) (hroom : 0 < room)
    (hs : a.smooth = true) :
    Script stream (a.add (.read (source.read room).1)) (source.read room).2.items := by
  have hmost := Source.most_pos hp hroom
  have hread : source.read room =
      ((serve (source.most room) source.items).1,
        { source with items := (serve (source.most room) source.items).2 }) := rfl
  rw [hread]
  dsimp only
  generalize source.items = items at h ⊢
  cases h with
  | @whole chunks hr he =>
    obtain ⟨bytes, rest, hserve, hb, hn⟩ := serve_chunks hmost chunks
    rw [hserve]
    cases bytes with
    | nil =>
      rw [Account.add_end]
      have hrest : rest.flatten = [] := by rw [← hn rfl, ← hb]; rfl
      exact .whole (by rw [← hr, hn rfl, hrest]) (fun _ => hrest)
    | cons b bs =>
      rw [Account.add_bytes]
      refine .whole ?_ ?_
      · rw [← hr, ← hb, List.append_assoc]
      · intro hend
        have := he hend
        rw [← hb] at this
        cases this
  | @cut bytes e hr he hard =>
    cases bytes with
    | nil =>
      have hserve : serve (source.most room) [.chunk [], .error e] = (.failed e, []) := rfl
      rw [hserve, Account.add_read_failed a hard]
      rw [List.append_nil] at hr
      exact .struck hr rfl
    | cons b bs =>
      obtain ⟨n, hn⟩ := Nat.exists_eq_add_of_lt hmost
      have hserve : serve (source.most room) [.chunk (b :: bs), .error e] =
        (.got ((b :: bs).take (source.most room)),
          [.chunk ((b :: bs).drop (source.most room)), .error e]) := rfl
      rw [hserve]
      rw [Nat.zero_add] at hn
      rw [hn, List.take_succ_cons, Account.add_bytes, ← List.take_succ_cons]
      refine .cut ?_ he hard
      rw [List.append_assoc, List.take_append_drop]
      exact hr
  | struck hr hs' =>
    rw [hs] at hs'
    cases hs'

theorem Linked.of_eq {a' : Account} (h : w.Linked a) (hc : w'.channels = w.channels)
    (hf : w'.first = w.first) (hk : a'.child = a.child) (hs : a'.sent = a.sent) :
    w'.Linked a' := by
  cases h with
  | none hk' hc' => exact .none (hk.trans hk') (hc.trans hc')
  | some hk' hi hc' hs' =>
    exact .some (hk.trans hk') (hi.trans hf.symm) (hc.trans hc') (hs'.trans hs.symm)

theorem Linked.send {child : Child} {bytes : List UInt8} (h : w.Linked a)
    (hk : a.child = .some child) :
    (w.send child bytes).2.Linked
      (a.add (.sent child (accepted bytes (w.send child bytes).1) (w.send child bytes).1)) := by
  cases h with
  | none hk' hc =>
    rw [hk] at hk'
    cases hk'
  | @some child' s hk' hi hc hs =>
    obtain rfl : child = child' := Option.some.inj (hk.symm.trans hk')
    have hsend : (w.send child bytes).1 = (s.sink.answer bytes).1 := by
      rw [Surroundings.send, channel_eq hi hc]
    have hchan := channels_changed
      (fun start : Start =>
        { start with sink := start.sink.after bytes ((w.channel child).sink.answer bytes) }) hi hc
    refine .some hk hi hchan ?_
    rw [hsend]
    dsimp only [Account.add]
    rw [channel_eq hi hc, Sink.accepted_after, hs]

theorem Linked.launch (h : w.Linked a) (hk : a.child = .none) (hs : a.sent = [])
    (hf : ∀ s, .started s ∈ w.launches → s.sink.accepted = #[]) :
    w.launch.2.Linked (a.add (.launched w.launch.1)) := by
  cases h with
  | some hk' hi hc hs' =>
    rw [hk] at hk'
    cases hk'
  | none hk' hc =>
    have started : ∀ (launches : List Launch) (s : Start), s.sink.accepted = #[] →
        ({ w with launches }.start s).2.Linked
          (a.add (.launched (.ok ({ w with launches }.start s).1))) := by
      intro launches s hs'
      have hi : w.first + w.channels.size = w.first := by
        rw [hc]
        rfl
      have hchan : w.channels.push s = #[s] := by
        rw [hc]
        rfl
      refine .some rfl hi hchan ?_
      rw [hs']
      exact hs.symm
    unfold Surroundings.launch
    split
    · exact started w.launches {} rfl
    · next s launches hl =>
      refine started launches s (hf s ?_)
      rw [hl]
      exact List.mem_cons_self
    · exact .none hk hc

theorem launches_launch (w : Surroundings) : ∀ l ∈ w.launch.2.launches, l ∈ w.launches := by
  intro l hl
  unfold launch at hl
  split at hl
  · exact hl
  · next hw => rw [hw]; exact List.mem_cons_of_mem _ hl
  · next hw => rw [hw]; exact List.mem_cons_of_mem _ hl

/-- An event that has touched the source of a party. -/
def touchesSource : Event → Bool
  | .read _ => true
  | _ => false

/-- A move that does not touch the source of a party leaves its script. -/
theorem Script.of_event {stream : List UInt8} {items : List Item} {e : Event}
    (h : Script stream a items) (he : touchesSource e = false) :
    Script stream (a.add e) items := by
  have smooth : ∀ b : Bool, a.smooth = false → (a.smooth && b) = false := by
    intro b hs
    rw [hs]
    rfl
  cases e with
  | read reply => cases he
  | recorded accepted reply => exact h.of_eq rfl rfl (smooth _)
  | committed result => exact h.of_eq rfl rfl (smooth _)
  | launched result =>
    cases result with
    | ok child => exact h.of_eq rfl rfl id
    | error f => exact h.of_eq rfl rfl fun _ => rfl
  | sent child accepted reply => exact h.of_eq rfl rfl (smooth _)
  | shut child => exact h.of_eq rfl rfl id
  | left => exact h.of_eq rfl rfl id
  | reaped child result => exact h.of_eq rfl rfl (smooth _)
  | forsaken child => exact h.of_eq rfl rfl id

/-- An answer leaves no launches but those that were there before. -/
theorem launches_answer (h : w.answer m = (some q, w')) : ∀ l ∈ w'.launches, l ∈ w.launches := by
  cases m with
  | launch next =>
    obtain rfl : w' = w.launch.2 := by cases h; rfl
    exact w.launches_launch
  | reap child next =>
    rw [answer] at h
    split at h
    · cases h
      exact fun _ hl => hl
    · cases h
  | rest => cases h
  | _ =>
    cases h
    exact fun _ hl => hl

/-- An answer to a move that is permitted keeps the link to the child. -/
theorem Linked.answer (hl : w.Linked a) (hp : m.Permitted a)
    (hf : ∀ s, .started s ∈ w.launches → s.sink.accepted = #[])
    (h : w.answer m = (.some q, w')) : w'.Linked (a.after (w.event m)) := by
  cases m with
  | read room next =>
    cases h
    rw [event, Account.after]
    cases (w.source.read room).1 with
    | got bytes => cases bytes <;> exact hl.of_eq rfl rfl rfl rfl
    | failed e => exact hl.of_eq rfl rfl rfl rfl
  | launch next =>
    obtain rfl : w' = w.launch.2 := by cases h; rfl
    exact hl.launch hp.2.1 hp.2.2.1 hf
  | send child bytes next =>
    cases h
    exact hl.send hp.2.1
  | reap child next =>
    rw [Surroundings.answer] at h
    split at h
    · next result hend =>
      cases h
      rw [event, hend]
      exact hl.of_eq rfl rfl rfl rfl
    · cases h
  | proceed next =>
    cases h
    exact hl
  | forsake child next => exact hp.elim
  | rest => cases h
  | _ =>
    cases h
    exact hl.of_eq rfl rfl rfl rfl

/-- The record has accepted what an account says, behind what it held before. -/
theorem recorded_answer {before : List UInt8}
    (hr : w.record.accepted.toList = before ++ a.recorded) (h : w.answer m = (some q, w')) :
    w'.record.accepted.toList = before ++ (a.after (w.event m)).recorded := by
  cases m with
  | read room next =>
    cases h
    rw [event, Account.after]
    cases (w.source.read room).1 with
    | got bytes => cases bytes <;> exact hr
    | failed e => exact hr
  | record bytes next =>
    cases h
    show (w.record.after bytes (w.record.answer bytes)).accepted.toList = _
    rw [Sink.accepted_after, hr, List.append_assoc]
    rfl
  | commit next =>
    cases h
    show w.record.flush.2.accepted.toList = before ++ a.recorded
    rw [Sink.flush_snd]
    exact hr
  | launch next =>
    obtain rfl : w' = w.launch.2 := by cases h; rfl
    have hrecord : w.launch.2.record = w.record := by rw [launch]; split <;> rfl
    rw [hrecord, hr, event, Account.after]
    cases w.launch.1 <;> rfl
  | reap child next =>
    rw [answer] at h
    split at h
    · next result hend =>
      cases h
      rw [event, hend]
      exact hr
    · cases h
  | rest => cases h
  | _ =>
    cases h
    exact hr

/-- An answer to a move that is permitted keeps the account. -/
theorem Mirrors.answer {stream : List UInt8} (hw : w.Mirrors stream a) (hp : m.Permitted a)
    (h : w.answer m = (some q, w')) : w'.Mirrors stream (a.after (w.event m)) := by
  have ht : Account.ofTrace w'.trace.toList = a.after (w.event m) := by
    rw [ofTrace_answer h, hw.trace]
  have hrecord : w'.record.accepted.toList = (a.after (w.event m)).recorded :=
    @recorded_answer _ _ _ _ _ _ [] hw.record h
  have hlink := hw.link.answer hp hw.fresh h
  have hfresh := fun s hs => hw.fresh s (launches_answer h _ hs)
  have quiet : ∀ {e : Event}, w.event m = some e → touchesSource e = false →
      Script stream (a.after (w.event m)) w.source.items := by
    intro e he hne
    rw [he]
    exact hw.script.of_event hne
  cases m with
  | read room next =>
    cases h
    exact ⟨ht, hrecord, hw.script.read hw.perRead hp.1 hp.2.2.2, hw.perRead, hlink, hfresh⟩
  | launch next =>
    obtain rfl : w' = w.launch.2 := by cases h; rfl
    have hsource : w.launch.2.source = w.source := by rw [launch]; split <;> rfl
    refine ⟨ht, hrecord, ?_, ?_, hlink, hfresh⟩
    · rw [hsource]
      exact quiet rfl rfl
    · rw [hsource]
      exact hw.perRead
  | record | commit | send | shut | leave =>
    cases h
    exact ⟨ht, hrecord, quiet rfl rfl, hw.perRead, hlink, hfresh⟩
  | reap child next =>
    rw [Surroundings.answer] at h
    split at h
    · next result hend =>
      cases h
      rw [event, hend] at ht hrecord quiet hlink ⊢
      exact ⟨ht, hrecord, quiet rfl rfl, hw.perRead, hlink, hfresh⟩
    · cases h
  | forsake child next => exact hp.elim
  | proceed next =>
    cases h
    exact hw
  | rest => cases h

theorem first_answer (h : w.answer m = (some q, w')) : w'.first = w.first := by
  cases m with
  | launch next =>
    obtain rfl : w' = w.launch.2 := by cases h; rfl
    rw [launch]
    split <;> rfl
  | reap child next =>
    rw [answer] at h
    split at h
    · cases h
      rfl
    · cases h
  | rest => cases h
  | _ =>
    cases h
    rfl

/-! ## Children whose end is not known -/

/-- Surroundings in which no child ends for the time being. -/
structure Pending (w : Surroundings) (a : Account) : Prop where
  channels : ∀ s ∈ w.channels, s.ending = none
  launches : a.launches = 0 → ∃ l, w.launches = [l] ∧ ∀ s, l = .started s → s.ending = none
  reaped : a.reaped = false

theorem Pending.of_eq {a' : Account} (h : w.Pending a) (hc : w'.channels = w.channels)
    (hl : w'.launches = w.launches) (hn : a'.launches = a.launches)
    (hr : a'.reaped = a.reaped) : w'.Pending a' :=
  ⟨by rw [hc]; exact h.channels, by rw [hl, hn]; exact h.launches, hr.trans h.reaped⟩

/-- A party can go on without learning how its child ends. -/
theorem Pending.answer (hw : w.Pending a) (hl : w.Linked a) (hp : m.Permitted a)
    (h : w.answer m = (some q, w')) : w'.Pending (a.after (w.event m)) := by
  cases m with
  | read room next =>
    cases h
    rw [event, Account.after]
    cases (w.source.read room).1 with
    | got bytes => cases bytes <;> exact hw.of_eq rfl rfl rfl rfl
    | failed e => exact hw.of_eq rfl rfl rfl rfl
  | launch next =>
    obtain rfl : w' = w.launch.2 := by cases h; rfl
    obtain ⟨l, hlaunch, hl'⟩ := hw.launches hp.1
    have hsome : ∀ result : Except Fault Child, (a.add (.launched result)).launches ≠ 0 ∧
        (a.add (.launched result)).reaped = a.reaped := by
      intro result
      cases result <;> exact ⟨Nat.succ_ne_zero _, rfl⟩
    refine ⟨?_, fun hz => absurd hz (hsome _).1, (hsome _).2.trans hw.reaped⟩
    rw [launch, hlaunch]
    cases l with
    | refused f => exact hw.channels
    | started s =>
      intro s' hs'
      rcases Array.mem_push.1 hs' with hs' | rfl
      · exact hw.channels s' hs'
      · exact hl' s' rfl
  | send child bytes next =>
    obtain rfl : w' = (w.send child bytes).2 := by cases h; rfl
    refine ⟨?_, hw.launches, hw.reaped⟩
    cases hl with
    | none hk hc =>
      rw [hp.2.1] at hk
      cases hk
    | @some child' s hk hi hc hs =>
      obtain rfl : child = child' := Option.some.inj (hp.2.1.symm.trans hk)
      have hchan := channels_changed
        (fun start : Start =>
          { start with sink := start.sink.after bytes ((w.channel child).sink.answer bytes) }) hi hc
      intro s' hs'
      dsimp only [Surroundings.send, see] at hs'
      rw [hchan] at hs'
      rw [Array.mem_singleton.1 hs']
      exact hw.channels s (by rw [hc]; exact Array.mem_singleton.2 rfl)
  | reap child next =>
    cases hl with
    | none hk hc =>
      rw [hp.1] at hk
      cases hk
    | @some child' s hk hi hc hs =>
      obtain rfl : child = child' := Option.some.inj (hp.1.symm.trans hk)
      have hend := hw.channels s (by rw [hc]; exact Array.mem_singleton.2 rfl)
      rw [Surroundings.answer, channel_eq hi hc, hend] at h
      cases h
  | record bytes next =>
    cases h
    exact hw.of_eq rfl rfl rfl rfl
  | commit next =>
    cases h
    exact hw.of_eq rfl rfl rfl rfl
  | shut child next =>
    cases h
    exact hw.of_eq rfl rfl rfl rfl
  | leave next =>
    cases h
    exact hw.of_eq rfl rfl rfl rfl
  | forsake child next => exact hp.elim
  | proceed next =>
    cases h
    exact hw
  | rest => cases h

/-! ## What surroundings hold in stock -/

/-- What the surroundings of a party still hold for it: bytes to come, and interruptions. -/
def stock (w : Surroundings) : Nat := 2 * w.source.remaining + w.patience

theorem stock_launch (hk : w.channels = #[]) : w.launch.2.stock ≤ w.stock := by
  unfold launch
  split
  · next hl =>
    dsimp only [stock, patience, start, see]
    rw [hk, hl]
    exact Nat.le_refl _
  · next s launches hl =>
    dsimp only [stock, patience, start, see]
    rw [hk, hl]
    simp only [Array.toList_push, List.nil_append, List.foldr_cons, List.foldr_nil,
      Launch.patience]
    omega
  · next f launches hl =>
    dsimp only [stock, patience, see]
    rw [hl]
    simp only [List.foldr_cons, Launch.patience]
    omega

/-- An answer takes at least what it brings. -/
theorem stock_answer (hl : w.Linked a) (hp : m.Permitted a) (h : w.answer m = (some q, w')) :
    w'.stock + Event.brings (w.event m) ≤ w.stock := by
  cases m with
  | read room next =>
    cases h
    have hs := (@serve_fits (w.source.most room) w.source.items _ _ rfl).2
    have hr : (w.source.read room).1 = (serve (w.source.most room) w.source.items).1 := rfl
    rw [← hr] at hs
    dsimp only [stock, event, see, Event.brings]
    show 2 * content (serve (w.source.most room) w.source.items).2 + w.patience + _ ≤
      2 * content w.source.items + w.patience
    omega
  | record bytes next =>
    cases h
    have hp := w.record.patience_answer bytes
    dsimp only [stock, event, see, patience, Event.brings]
    omega
  | commit next =>
    obtain rfl : w' = { w with record := w.record.flush.2 }.see (.committed w.record.flush.1) := by
      cases h
      rfl
    have hf : w.record.flush.2.patience = w.record.patience := by
      rw [Sink.flush_snd]
      rfl
    dsimp only [stock, event, see, patience, Event.brings]
    omega
  | launch next =>
    obtain rfl : w' = w.launch.2 := by cases h; rfl
    apply w.stock_launch
    cases hl with
    | none hk hc => exact hc
    | some hk hi hc hs =>
      rw [hp.2.1] at hk
      cases hk
  | send child bytes next =>
    obtain rfl : w' = (w.send child bytes).2 := by cases h; rfl
    cases hl with
    | none hk hc =>
      rw [hp.2.1] at hk
      cases hk
    | @some child' s hk hi hc hs =>
      obtain rfl : child = child' := Option.some.inj (hp.2.1.symm.trans hk)
      have hpat := s.sink.patience_answer bytes
      have hchan := channels_changed
        (fun start : Start =>
          { start with sink := start.sink.after bytes ((w.channel child).sink.answer bytes) }) hi hc
      dsimp only [stock, event, Surroundings.send, see, patience]
      rw [hchan, hc, channel_eq hi hc]
      simp only [List.foldr_cons, List.foldr_nil]
      dsimp only [changeChannel, Event.brings]
      omega
  | shut child next =>
    cases h
    exact Nat.le_refl _
  | leave next =>
    cases h
    exact Nat.le_refl _
  | reap child next =>
    rw [answer] at h
    split at h
    · next result hend =>
      cases h
      rw [event, hend]
      exact Nat.le_refl _
    · cases h
  | forsake child next => exact hp.elim
  | proceed next =>
    cases h
    exact Nat.le_refl _
  | rest => cases h

/-! ## Surroundings in which nothing fails -/

/-- Surroundings in which nothing fails. -/
structure Easy (w : Surroundings) : Prop where
  source : ∃ chunks : List (List UInt8), w.source.items = chunks.map .chunk
  record : w.record.Easy
  launches : ∀ l ∈ w.launches, ∃ s : Start, l = .started s ∧ s.Easy
  channels : ∀ s ∈ w.channels, s.Easy

theorem Easy.read {source : Source} {room : Nat} (hp : source.perRead ≠ some 0)
    (hroom : 0 < room) {chunks : List (List UInt8)}
    (hc : source.items = chunks.map .chunk) :
    ∃ (bytes : List UInt8) (rest : List (List UInt8)), (source.read room).1 = .got bytes ∧
      (source.read room).2.items = rest.map .chunk := by
  obtain ⟨bytes, rest, hserve, -, -⟩ := serve_chunks (Source.most_pos hp hroom) chunks
  refine ⟨bytes, rest, ?_, ?_⟩
  · rw [Source.read, hc, hserve]
  · rw [Source.read, hc, hserve]

theorem Easy.launch (h : w.Easy) (hk : w.channels = #[]) :
    w.launch.2.Easy ∧ (a.add (.launched w.launch.1)).smooth = a.smooth := by
  have started : ∀ (launches : List Launch) (s : Start),
      (∀ l ∈ launches, ∃ s : Start, l = .started s ∧ s.Easy) → s.Easy →
        ({ w with launches }.start s).2.Easy := by
    intro launches s hl hs
    refine ⟨h.source, h.record, hl, ?_⟩
    intro s' hs'
    change s' ∈ w.channels.push s at hs'
    rw [hk] at hs'
    rw [List.mem_singleton.1 (Array.mem_toList_iff.2 hs')]
    exact hs
  unfold Surroundings.launch
  split
  · next hl =>
    exact ⟨started w.launches {} h.launches Start.easy_default, rfl⟩
  · next s launches hl =>
    have hall := h.launches
    rw [hl] at hall
    obtain ⟨s', hs', heasy⟩ := hall (.started s) List.mem_cons_self
    cases hs'
    exact ⟨started launches s (fun l hm => hall l (List.mem_cons_of_mem _ hm)) heasy, rfl⟩
  · next f launches hl =>
    have hall := h.launches
    rw [hl] at hall
    obtain ⟨s', hs', -⟩ := hall (.refused f) List.mem_cons_self
    cases hs'

/-- Where nothing fails, an answer keeps the account smooth. -/
theorem Easy.answer (hw : w.Easy) (hread : w.source.perRead ≠ some 0) (hl : w.Linked a)
    (hp : m.Permitted a) (h : w.answer m = (some q, w')) :
    w'.Easy ∧ (a.after (w.event m)).smooth = a.smooth := by
  cases m with
  | read room next =>
    obtain ⟨chunks, hc⟩ := hw.source
    obtain ⟨bytes, rest, hr, hi⟩ := Easy.read hread hp.1 hc
    cases h
    refine ⟨⟨⟨rest, hi⟩, hw.record, hw.launches, hw.channels⟩, ?_⟩
    rw [event, hr]
    cases bytes <;> rfl
  | record bytes next =>
    cases h
    obtain ⟨heasy, hgood⟩ := hw.record.after hp.1
    refine ⟨⟨hw.source, heasy, hw.launches, hw.channels⟩, ?_⟩
    show (a.smooth && (w.record.answer bytes).1.goesWell) = a.smooth
    rw [hgood, Bool.and_true]
  | commit next =>
    obtain rfl : w' = { w with record := w.record.flush.2 }.see (.committed w.record.flush.1) := by
      cases h
      rfl
    obtain ⟨hok, heasy⟩ := hw.record.flush
    refine ⟨⟨hw.source, heasy, hw.launches, hw.channels⟩, ?_⟩
    rw [event, hok]
    exact Bool.and_true _
  | launch next =>
    obtain rfl : w' = w.launch.2 := by cases h; rfl
    apply hw.launch
    cases hl with
    | none hk hc => exact hc
    | some hk hi hc hs =>
      rw [hp.2.1] at hk
      cases hk
  | send child bytes next =>
    obtain rfl : w' = (w.send child bytes).2 := by cases h; rfl
    cases hl with
    | none hk hc =>
      rw [hp.2.1] at hk
      cases hk
    | @some child' s hk hi hc hs =>
      obtain rfl : child = child' := Option.some.inj (hp.2.1.symm.trans hk)
      have hs' : s.Easy := hw.channels s (by rw [hc]; exact Array.mem_singleton.2 rfl)
      obtain ⟨heasy, hgood⟩ := hs'.sink.after hp.1
      have hchan := channels_changed
        (fun start : Start =>
          { start with sink := start.sink.after bytes ((w.channel child).sink.answer bytes) }) hi hc
      refine ⟨⟨hw.source, hw.record, hw.launches, ?_⟩, ?_⟩
      · intro s' hmem
        dsimp only [Surroundings.send, see] at hmem
        rw [hchan, channel_eq hi hc] at hmem
        rw [Array.mem_singleton.1 hmem]
        exact ⟨heasy, hs'.ending⟩
      · dsimp only [event, Account.after, Account.add]
        rw [channel_eq hi hc, hgood, Bool.and_true]
  | shut child next =>
    cases h
    exact ⟨{ hw with }, rfl⟩
  | leave next =>
    cases h
    exact ⟨{ hw with }, rfl⟩
  | reap child next =>
    rw [Surroundings.answer] at h
    split at h
    · next result hend =>
      cases h
      refine ⟨{ hw with }, ?_⟩
      have hok : result.isOk = true := by
        cases hl with
        | none hk hc =>
          rw [hp.1] at hk
          cases hk
        | @some child' s hk hi hc hs =>
          obtain rfl : child = child' := Option.some.inj (hp.1.symm.trans hk)
          have hs' : s.Easy := hw.channels s (by rw [hc]; exact Array.mem_singleton.2 rfl)
          rw [channel_eq hi hc] at hend
          cases result with
          | ok u => rfl
          | error f => exact absurd hend (hs'.ending f)
      rw [event, hend]
      change (a.smooth && result.isOk) = a.smooth
      rw [hok, Bool.and_true]
    · cases h
  | forsake child next => exact hp.elim
  | proceed next =>
    cases h
    exact ⟨hw, rfl⟩
  | rest => cases h

/-- How a child ends is settled from outside. -/
theorem Mirrors.settle {stream : List UInt8} {child : Child} (hw : w.Mirrors stream a)
    (hk : a.child = some child) (result : Except Fault Unit) :
    (w.settle child result).Mirrors stream a ∧
      ((w.settle child result).channel child).ending = some result ∧
      (w.settle child result).stock = w.stock ∧ w.accepts child = a.sent ∧
      (w.Easy → result.isOk = true → (w.settle child result).Easy) := by
  have hlink := hw.link
  cases hlink with
  | none hk' hc =>
    rw [hk] at hk'
    cases hk'
  | @some child' s hk' hi hc hs =>
    obtain rfl : child = child' := Option.some.inj (hk.symm.trans hk')
    have hchan : (w.settle child result).channels = #[{ s with ending := some result }] :=
      channels_changed (fun start : Start => { start with ending := some result }) hi hc
    refine ⟨⟨hw.trace, hw.record, hw.script, hw.perRead, .some hk hi hchan hs, hw.fresh⟩,
      ?_, ?_, ?_, ?_⟩
    · have hi' : child.index = (w.settle child result).first := hi
      rw [channel_eq hi' hchan]
    · dsimp only [stock, patience]
      rw [hchan, hc]
      rfl
    · rw [accepts, channel_eq hi hc, hs]
    · intro heasy hok
      have hs' := heasy.channels s (by rw [hc]; exact Array.mem_singleton.2 rfl)
      refine ⟨heasy.source, heasy.record, heasy.launches, ?_⟩
      intro s'' hmem
      rw [hchan] at hmem
      rw [Array.mem_singleton.1 hmem]
      refine ⟨hs'.sink, fun f hf => ?_⟩
      cases hf
      cases hok

end Surroundings

end SieveChain.Scripted
