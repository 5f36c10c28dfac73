import SieveChain.Proofs.StageOutput

/-!
# What a stage computes when nothing fails

Nothing fails for a stage whose input ends cleanly, whose record and whose channel take what it
may come to offer them, and whose child ends well. Short writes and interruptions do not matter.
Such a run succeeds, and its report, its record and its channel are told by the values alone
that its input brings.
-/

namespace SieveChain

open Wire Scripted

/-! ## Sinks that take enough -/

namespace Scripted

/-- A hurdle that turns writes away, other than by interrupting them. -/
def Hurdle.refuses : Hurdle → Bool
  | .interruptions _ => false
  | .failures _ _ times => times != some 0
  | .zeros times => times != some 0

/-- No write is turned away before so many bytes have been taken. -/
def clear : Nat → List Barrier → Bool
  | _, [] => true
  | n, ⟨d, hurdle⟩ :: rest => if hurdle.refuses then n ≤ d else clear (n - d) rest

theorem countdown_eq_none {times : Option Nat} (h : countdown times = none) : times = some 0 := by
  match times, h with
  | some 0, _ => rfl

theorem respond_clear {offer n : Nat} {bs : List Barrier} (h : clear n bs = true)
    (hoffer : offer ≠ 0) (hle : offer ≤ n) :
    match respond offer bs with
    | (.took k, rest) => k ≠ 0 ∧ clear (n - k) rest = true
    | (.failed e, rest) => e.isInterrupted = true ∧ clear n rest = true := by
  fun_induction respond offer bs with
  | case1 => exact ⟨hoffer, rfl⟩
  | case2 d hurdle rest k =>
    have hk : k = min offer (d + 1) := rfl
    refine ⟨by omega, ?_⟩
    cases hr : hurdle.refuses with
    | true =>
      simp [clear, hr] at h ⊢
      omega
    | false =>
      have hsame : n - k - (d + 1 - k) = n - (d + 1) := by omega
      simp [clear, hr, hsame] at h ⊢
      exact h
  | case3 rest ih => exact ih h
  | case4 k rest => exact ⟨rfl, h⟩
  | case5 e hard times rest hc ih =>
    rw [countdown_eq_none hc] at h
    exact ih h
  | case6 e hard times rest left hc =>
    have hrefuses : times ≠ some 0 := by
      rintro rfl
      cases hc
    simp [clear, Hurdle.refuses, hrefuses] at h
    omega
  | case7 times rest hc ih =>
    rw [countdown_eq_none hc] at h
    exact ih h
  | case8 times rest left hc =>
    have hrefuses : times ≠ some 0 := by
      rintro rfl
      cases hc
    simp [clear, Hurdle.refuses, hrefuses] at h
    omega

namespace Sink

/-- A sink that takes so many bytes, however few at a time and however often interrupted. -/
structure Takes (n : Nat) (s : Sink) : Prop where
  perCall : 0 < n → s.perCall ≠ some 0
  barriers : clear n s.barriers = true

/-- A write of what a sink takes goes well, and leaves room for the rest. -/
theorem Takes.write {n : Nat} {s : Sink} {bytes : List UInt8} (h : s.Takes n)
    (hne : bytes ≠ []) (hle : bytes.length ≤ n) :
    (s.answer bytes).1.goesWell = true ∧
      (s.after bytes (s.answer bytes)).Takes
        (n - (Surroundings.accepted bytes (s.answer bytes).1).length) := by
  have hpos := List.length_pos_iff.2 hne
  have hcall := h.perCall (by omega)
  have hshare := share_ne_zero hcall hne
  have hmost := s.length_share_le bytes
  have hclear := respond_clear h.barriers hshare (by omega)
  have hfits := s.answer_fits bytes
  change match s.answer bytes with
    | (.took k, rest) => k ≠ 0 ∧ clear (n - k) rest = true
    | (.failed e, rest) => e.isInterrupted = true ∧ clear n rest = true at hclear
  generalize s.answer bytes = answer at hclear hfits ⊢
  match answer, hclear, hfits with
  | (.took k, rest), ⟨hk, hrest⟩, hfits =>
    have hlength : (Surroundings.accepted bytes (.took k)).length = k := by
      rw [Surroundings.accepted, List.length_take]
      exact Nat.min_eq_left hfits
    refine ⟨by simpa [WriteReply.goesWell] using hk, fun _ => hcall, ?_⟩
    rw [hlength]
    exact hrest
  | (.failed e, rest), ⟨hi, hrest⟩, _ => exact ⟨hi, fun _ => hcall, hrest⟩

end Sink

/-- A child whose channel takes so many bytes, and that ends well. -/
structure Start.Serves (n : Nat) (s : Start) : Prop where
  sink : s.sink.Takes n
  ending : s.ending = some (.ok ())

namespace Surroundings

variable {σ : Type} {w w' : Surroundings} {a : Account} {m : Move σ} {q : σ}

/-- What the next launch gives. -/
def upcoming (w : Surroundings) : Launch := w.launches.headD (.started {})

theorem launch_upcoming {start : Start} (h : w.upcoming = .started start) :
    (∃ child, w.launch.1 = .ok child) ∧ w.launch.2.channels = w.channels.push start ∧
      w.launch.2.record = w.record := by
  rw [upcoming] at h
  unfold launch
  split
  · next hl =>
    rw [hl] at h
    cases h
    exact ⟨⟨_, rfl⟩, rfl, rfl⟩
  · next hl =>
    rw [hl] at h
    cases h
    exact ⟨⟨_, rfl⟩, rfl, rfl⟩
  · next hl =>
    rw [hl] at h
    cases h

/-- A record that takes a line of so many bytes, and a child that takes a stream of so many,
when a party with an account has recorded and sent some of them. -/
structure Ample (line stream : Nat) (w : Surroundings) (a : Account) : Prop where
  record : w.record.Takes (line - a.recorded.length)
  flushing : w.record.flushing = none
  launch : a.launches = 0 → ∃ start, w.upcoming = .started start ∧ start.Serves stream
  channels : ∀ start ∈ w.channels, start.Serves (stream - a.sent.length)

section Ample

variable {line stream : Nat}

theorem Ample.of_eq {a' : Account} (h : w.Ample line stream a) (hr : w'.record = w.record)
    (hl : w'.launches = w.launches) (hc : w'.channels = w.channels)
    (hr' : a'.recorded = a.recorded) (hn : a'.launches = a.launches) (hs : a'.sent = a.sent) :
    w'.Ample line stream a' where
  record := by rw [hr, hr']; exact h.record
  flushing := by rw [hr]; exact h.flushing
  launch := by rw [upcoming, hl, hn]; exact h.launch
  channels := by rw [hc, hs]; exact h.channels

theorem Ample.write_record {bytes : List UInt8} {next : WriteReply → σ}
    (h : w.Ample line stream a) (hne : bytes ≠ []) (hle : a.recorded.length + bytes.length ≤ line)
    (ha : w.answer (.record bytes next) = (some q, w')) :
    w'.Ample line stream (a.after (w.event (.record bytes next))) ∧
      (a.after (w.event (.record bytes next))).smooth = a.smooth := by
  obtain ⟨hwell, htakes⟩ := h.record.write hne (by omega)
  cases ha
  refine ⟨⟨?_, ?_, h.launch, h.channels⟩, ?_⟩
  · dsimp only [event, Account.after, Account.add]
    rw [List.length_append, ← Nat.sub_sub]
    exact htakes
  · have hsame : (w.record.after bytes (w.record.answer bytes)).flushing = w.record.flushing := by
      cases w.record.answer bytes with
      | mk reply rest => cases reply <;> rfl
    exact hsame.trans h.flushing
  · dsimp only [event, Account.after, Account.add]
    rw [hwell, Bool.and_true]

theorem Ample.commit {next : Except IoError Unit → σ} (h : w.Ample line stream a)
    (ha : w.answer (.commit next) = (some q, w')) :
    w'.Ample line stream (a.after (w.event (.commit next))) ∧
      (a.after (w.event (.commit next))).smooth = a.smooth := by
  obtain rfl : w' = { w with record := w.record.flush.2 }.see (.committed w.record.flush.1) := by
    cases ha
    rfl
  rw [event, Sink.flush_eq_ok h.flushing, Account.after, Account.add_committed]
  exact ⟨⟨⟨h.record.perCall, h.record.barriers⟩, h.flushing, h.launch, h.channels⟩, rfl⟩

theorem Ample.start {next : Except Fault Child → σ} (h : w.Ample line stream a)
    (hl : w.Linked a) (hp : (Move.launch next).Permitted a)
    (ha : w.answer (.launch next) = (some q, w')) :
    w'.Ample line stream (a.after (w.event (.launch next))) ∧
      (a.after (w.event (.launch next))).smooth = a.smooth := by
  obtain ⟨hn, hk, hs, -⟩ := hp
  obtain ⟨start, hupcoming, hserves⟩ := h.launch hn
  obtain ⟨⟨child, hchild⟩, hchannels, hrecord⟩ := launch_upcoming hupcoming
  obtain rfl : w' = w.launch.2 := by cases ha; rfl
  rw [event, hchild]
  refine ⟨⟨?_, ?_, fun hz => absurd hz (Nat.succ_ne_zero _), ?_⟩, rfl⟩
  · rw [hrecord]
    exact h.record
  · rw [hrecord]
    exact h.flushing
  · cases hl with
    | some hk' => rw [hk] at hk'; cases hk'
    | none _ hc =>
      intro s hmem
      rw [hchannels, hc] at hmem
      rw [List.mem_singleton.1 (Array.mem_toList_iff.2 hmem)]
      show start.Serves (stream - a.sent.length)
      rw [hs]
      exact hserves

theorem Ample.write_channel {child : Child} {bytes : List UInt8} {next : WriteReply → σ}
    (h : w.Ample line stream a) (hl : w.Linked a) (hne : bytes ≠ []) (hk : a.child = some child)
    (hle : a.sent.length + bytes.length ≤ stream)
    (ha : w.answer (.send child bytes next) = (some q, w')) :
    w'.Ample line stream (a.after (w.event (.send child bytes next))) ∧
      (a.after (w.event (.send child bytes next))).smooth = a.smooth := by
  obtain rfl : w' = (w.send child bytes).2 := by cases ha; rfl
  cases hl with
  | none hk' hc => rw [hk] at hk'; cases hk'
  | @some child' s hk' hi hc hs =>
    obtain rfl : child = child' := Option.some.inj (hk.symm.trans hk')
    have hserves := h.channels s (by rw [hc]; exact Array.mem_singleton.2 rfl)
    obtain ⟨hwell, htakes⟩ := hserves.sink.write hne (by omega)
    have hchan := channels_changed
      (fun start : Start =>
        { start with sink := start.sink.after bytes ((w.channel child).sink.answer bytes) }) hi hc
    dsimp only [event, Account.after, Account.add]
    rw [channel_eq hi hc] at hchan ⊢
    refine ⟨⟨h.record, h.flushing, h.launch, ?_⟩, by rw [hwell, Bool.and_true]⟩
    intro s' hmem
    dsimp only [Surroundings.send, see] at hmem
    rw [channel_eq hi hc, hchan] at hmem
    rw [Array.mem_singleton.1 hmem, List.length_append, ← Nat.sub_sub]
    exact ⟨htakes, hserves.ending⟩

theorem Ample.reap {child : Child} {next : Except Fault Unit → σ} (h : w.Ample line stream a)
    (hl : w.Linked a) (hk : a.child = some child)
    (ha : w.answer (.reap child next) = (some q, w')) :
    w'.Ample line stream (a.after (w.event (.reap child next))) ∧
      (a.after (w.event (.reap child next))).smooth = a.smooth := by
  cases hl with
  | none hk' hc => rw [hk] at hk'; cases hk'
  | @some child' s hk' hi hc hs =>
    obtain rfl : child = child' := Option.some.inj (hk.symm.trans hk')
    have hserves := h.channels s (by rw [hc]; exact Array.mem_singleton.2 rfl)
    have hend : (w.channel child).ending = .some (.ok ()) := by
      rw [channel_eq hi hc]
      exact hserves.ending
    rw [answer, hend] at ha
    cases ha
    rw [event, hend]
    dsimp only [Option.map_some, Account.after]
    rw [Account.add_reaped_ok]
    exact ⟨h.of_eq rfl rfl rfl rfl rfl rfl, rfl⟩

/-- Where there is enough, every answer leaves enough, and only reads can fail. -/
theorem Ample.answer (h : w.Ample line stream a) (hl : w.Linked a) (hp : m.Permitted a)
    (hrecord : ∀ bytes next, m = .record bytes next → a.recorded.length + bytes.length ≤ line)
    (hsend : ∀ child bytes next, m = .send child bytes next →
      a.sent.length + bytes.length ≤ stream)
    (ha : w.answer m = (some q, w')) :
    w'.Ample line stream (a.after (w.event m)) ∧
      ((∀ room next, m ≠ .read room next) → (a.after (w.event m)).smooth = a.smooth) := by
  have quiet : w'.record = w.record → w'.launches = w.launches → w'.channels = w.channels →
      (a.after (w.event m)).recorded = a.recorded → (a.after (w.event m)).launches = a.launches →
      (a.after (w.event m)).sent = a.sent → w'.Ample line stream (a.after (w.event m)) :=
    h.of_eq
  cases m with
  | read room next =>
    refine ⟨?_, fun hread => absurd rfl (hread room next)⟩
    cases ha
    rw [event, Account.after] at quiet ⊢
    cases hreply : (w.source.read room).1 with
    | got bytes =>
      rw [hreply] at quiet
      cases bytes <;> exact quiet rfl rfl rfl rfl rfl rfl
    | failed e =>
      rw [hreply] at quiet
      exact quiet rfl rfl rfl rfl rfl rfl
  | record bytes next =>
    exact (h.write_record hp.1 (hrecord _ _ rfl) ha).imp_right fun hs _ => hs
  | commit next => exact (h.commit ha).imp_right fun hs _ => hs
  | launch next => exact (h.start hl hp ha).imp_right fun hs _ => hs
  | send child bytes next =>
    exact (h.write_channel hl hp.1 hp.2.1 (hsend _ _ _ rfl) ha).imp_right fun hs _ => hs
  | reap child next => exact (h.reap hl hp.1 ha).imp_right fun hs _ => hs
  | shut | leave | proceed =>
    cases ha
    exact ⟨quiet rfl rfl rfl rfl rfl rfl, fun _ => rfl⟩
  | forsake child next => exact hp.elim
  | rest => cases ha

end Ample

/-- A source whose first segment ends cleanly fails no read of it. -/
theorem Reading.smooth_read {g : Segment} {reply : ReadReply} (h : w.Reading g)
    (hg : g.failure = none) (hmem : .read reply ∈ w.trace.toList) (a : Account) :
    (a.add (.read reply)).smooth = a.smooth := by
  cases reply with
  | got bytes => exact (a.add_got bytes).2.2.2.2
  | failed e =>
    cases hi : e.isInterrupted with
    | true => rw [Account.add_read_interrupted a hi]
    | false =>
      have hstop : (Event.read (.failed e)).stop? = some (some e) := by
        rw [Event.stop?, hi]
        rfl
      rw [h.stopped _ hmem _ hstop] at hg
      cases hg

end Surroundings

end Scripted

/-! ## Runs that nothing stands in the way of -/

namespace Stage

open Record

variable {ceiling : Option Int32} {a : Account} {σ : Type}

/-- All that a stage offers to its record is called for. -/
theorem Run.record_isPrefix {r : Run} {bytes : List UInt8} {next : WriteReply → Run}
    (h : r.Accords ceiling a) (hm : r.move = .record bytes next) :
    a.recorded ++ bytes <+: ownLine ceiling (values a.received) := by
  have hp := Run.permitted h
  rw [hm] at hp
  -- If all of it were taken, the account would still be sound.
  have hfits : (WriteReply.took bytes.length).Fits bytes := Nat.le_refl _
  have hall : (Move.record bytes next).Answered _ (next (.took bytes.length)) := .record hfits
  rw [← hm] at hall
  have hsound := (Run.sound (Run.accords_step h hall)).recorded
  rwa [Account.after, Account.add_recorded_all a hp.1] at hsound

/-- All that a stage offers to the channel of its child is called for. -/
theorem Run.send_isPrefix {r : Run} {child : Child} {bytes : List UInt8}
    {next : WriteReply → Run} (h : r.Accords ceiling a) (hm : r.move = .send child bytes next) :
    a.sent ++ bytes <+: encodeAll (handedOn ceiling (values a.received)) := by
  have hp := Run.permitted h
  rw [hm] at hp
  have hfits : (WriteReply.took bytes.length).Fits bytes := Nat.le_refl _
  have hall : (Move.send child bytes next).Answered _ (next (.took bytes.length)) := .send hfits
  rw [← hm] at hall
  have hsound := (Run.sound (Run.accords_step h hall)).sent
  rwa [Account.after, Account.add_sent_all a child hp.1] at hsound

/-- A stage that does not come to own a value only reads and gives up its input. -/
theorem smooth_of_unowned {m : Move σ} {e : Option Event} {q : σ} (hp : m.Permitted a)
    (ht : Timely ceiling a m) (hs : Sound ceiling a)
    (ho : owned? ceiling (values a.received) = none) (hread : ∀ room next, m ≠ .read room next)
    (hm : m.Answered e q) : (a.after e).smooth = a.smooth := by
  have alone : a.child.isSome = true → False := by
    intro hk
    have howned := hs.owner hk
    rw [ho] at howned
    cases howned
  have parted : ∀ {child : Child}, a.child = some child → False := by
    intro child hk
    exact alone (by rw [hk]; rfl)
  cases hm with
  | read fits => exact absurd rfl (hread _ _)
  | record fits => exact (alone hp.2.1).elim
  | commit result => exact (alone hp.1).elim
  | launch result =>
    obtain ⟨v, hv, hr⟩ := ht
    rw [hr, values_encode, owned?_accepted hv] at ho
    cases ho
  | send fits => exact (parted hp.2.1).elim
  | shut => exact (parted hp.1).elim
  | reap result => exact (parted hp.1).elim
  | forsake => exact hp.elim
  | leave => rfl
  | proceed => rfl

/-- Surroundings in which nothing stands in the way of a stage: its input ends cleanly, and if
its first value is a candidate, the record takes the line of that value and is flushed, and the
launch gives a child whose channel takes what the value does not divide, and that ends well. -/
structure Favourable (ceiling : Option Int32) (w : Surroundings) : Prop extends Untouched w where
  input : w.source.opening.failure = none
  owner : ∀ p vs, values w.source.opening.bytes = p :: vs → IsCandidate ceiling p →
    w.record.Takes (lineBytes p).length ∧ w.record.flushing = none ∧
      ∃ start, w.upcoming = .started start ∧
        start.Serves (encodeAll (withoutMultiples p vs)).length

/-- A stage in whose way nothing has stood, with enough left for it. -/
structure Unhindered (ceiling : Option Int32) (g : Segment) (w : Surroundings) : Prop where
  smooth : (Account.ofTrace w.trace.toList).smooth = true
  ample : (owned? ceiling (values g.bytes)).isSome = true →
    w.Ample (ownLine ceiling (values g.bytes)).length
      (encodeAll (handedOn ceiling (values g.bytes))).length (Account.ofTrace w.trace.toList)

theorem Favourable.unhindered {w : Surroundings} (hw : Favourable ceiling w) :
    Unhindered ceiling w.source.opening w := by
  have htrace : Account.ofTrace w.trace.toList = {} := by rw [hw.trace]; rfl
  refine ⟨by rw [htrace], fun ho => ?_⟩
  obtain ⟨p, ho⟩ := Option.isSome_iff_exists.1 ho
  obtain ⟨hp, vs, hvs⟩ := owned?_eq_some ho
  obtain ⟨hrecord, hflushing, start, hupcoming, hserves⟩ :=
    hw.owner p vs hvs ((accepts_iff ceiling p).1 hp)
  rw [htrace, hvs, ownLine_accepted hp, handedOn_accepted hp, filter_passes]
  refine ⟨hrecord, hflushing, fun _ => ⟨start, hupcoming, hserves⟩, fun s hmem => ?_⟩
  rw [hw.channels] at hmem
  exact absurd hmem (Array.not_mem_empty s)

/-- Where nothing has stood in the way, nothing comes to stand in it. -/
theorem Unhindered.answer {fate : Receipt} {g : Segment} {r r' : Run} {w w' : Surroundings}
    (hu : Underway ceiling fate r w) (hg : g.failure = none) (hreading : w.Reading g)
    (hreading' : w'.Reading g) (h : Unhindered ceiling g w)
    (ha : w.answer r.move = (some r', w')) : Unhindered ceiling g w' := by
  have hacc := hu.course.accords
  have hperm := Run.permitted hacc
  obtain ⟨hm, htrace⟩ := Surroundings.answered ha
  have hvalues := values_mono hreading.received
  rw [← Surroundings.received_eq] at hvalues
  -- A read of the first segment goes well; whether another move does is a matter of the sinks.
  have smooth : ((∀ room next, r.move ≠ .read room next) →
      ((Account.ofTrace w.trace.toList).after (w.event r.move)).smooth =
        (Account.ofTrace w.trace.toList).smooth) →
      ((Account.ofTrace w.trace.toList).after (w.event r.move)).smooth = true := by
    intro hquiet
    by_cases hread : ∃ room next, r.move = .read room next
    · obtain ⟨room, next, hread⟩ := hread
      rw [hread] at htrace ⊢
      exact (hreading'.smooth_read hg (by rw [htrace]; simp [Surroundings.event]) _).trans
        h.smooth
    · exact (hquiet fun room next hm => hread ⟨room, next, hm⟩).trans h.smooth
  cases ho : owned? ceiling (values g.bytes) with
  | none =>
    refine ⟨?_, fun hsome => ?_⟩
    · rw [Surroundings.ofTrace_answer ha]
      have hnone := owned?_eq_none_of_isPrefix hvalues ho
      exact smooth fun hread =>
        smooth_of_unowned hperm (Run.timely hacc) (Run.sound hacc) hnone hread hm
    · rw [ho] at hsome
      cases hsome
  | some p =>
    have hline : ∀ bytes next, r.move = .record bytes next →
        (Account.ofTrace w.trace.toList).recorded.length + bytes.length ≤
          (ownLine ceiling (values g.bytes)).length := by
      intro bytes next hmove
      rw [← List.length_append]
      exact ((Run.record_isPrefix hacc hmove).trans (ownLine_mono hvalues)).length_le
    have hstream : ∀ child bytes next, r.move = .send child bytes next →
        (Account.ofTrace w.trace.toList).sent.length + bytes.length ≤
          (encodeAll (handedOn ceiling (values g.bytes))).length := by
      intro child bytes next hmove
      rw [← List.length_append]
      exact ((Run.send_isPrefix hacc hmove).trans
        (encodeAll_mono (handedOn_mono hvalues))).length_le
    have howned : (owned? ceiling (values g.bytes)).isSome = true := by rw [ho]; rfl
    obtain ⟨hample, hquiet⟩ := (h.ample howned).answer hu.linked hperm hline hstream ha
    rw [← Surroundings.ofTrace_answer ha] at hample smooth hquiet
    exact ⟨smooth hquiet, fun _ => hample⟩

/-! ## What runs yield -/

/-- What a stage under a ceiling makes of the values of its input when nothing fails: its
report, what it puts on the record, and what its child is sent. -/
inductive Yields (ceiling : Option Int32) :
    List Int32 → Report → List UInt8 → List UInt8 → Prop
  | nothing : Yields ceiling [] {} [] []
  | refused {v : Int32} {vs : List Int32} (hv : ¬IsCandidate ceiling v) :
      Yields ceiling (v :: vs) { discarded := vs.length + 1 } [] []
  | owner {p : Int32} {vs : List Int32} {report : Report} (hp : IsCandidate ceiling p)
      (prime : report.prime = some p)
      (forwarded : report.forwarded = (withoutMultiples p vs).length)
      (counted : report.forwarded + report.discarded + 1 = (p :: vs).length) :
      Yields ceiling (p :: vs) report (lineBytes p) (encodeAll (withoutMultiples p vs))

theorem Completed.yields {report : Report} (h : Completed ceiling a report) :
    Yields ceiling (values a.received) report a.recorded a.sent := by
  cases h with
  | idle h hn hs he hl hv =>
    rw [h.recorded, h.sent]
    cases hvs : values a.received with
    | nil => exact .nothing
    | cons v vs =>
      refine .refused fun hc => ?_
      rw [hvs, owned?_accepted ((accepts_iff ceiling v).2 hc)] at hv
      cases hv
  | @owner l p vs child h hl hr =>
    rw [h.received, h.recorded, h.sent, filter_passes]
    refine .owner ((accepts_iff ceiling p).1 h.accepted) rfl ?_ ?_
    · rw [← filter_passes]
      exact h.forwarded
    · have hcounted := h.counted
      rw [List.length_cons]
      show l.forwarded + l.discarded + 1 = vs.length + 1
      omega

/-- A stage reads only as long as it has not found the end of its input. -/
theorem Course.reads {events : List Event} {r : Run} (h : Course ceiling events r) :
    Account.Lawful (fun a e => ∀ reply, e = .read reply → a.ended = false) events := by
  induction h with
  | start => exact .nil
  | @step events e r r' h hm ih =>
    cases e with
    | none =>
      rw [Option.toList_none, List.append_nil]
      exact ih
    | some e =>
      refine ih.concat fun reply he => ?_
      have hperm := Run.permitted h.accords
      subst he
      generalize r.move = m at hm hperm
      cases hm
      exact hperm.2.2.1

/-- Nothing is read behind the end of the input. -/
theorem Course.no_read_behind {events before after : List Event} {r : Run}
    (h : Course ceiling events r) (heq : events = before ++ .read (.got []) :: after)
    (reply : ReadReply) : .read reply ∉ after := by
  intro hmem
  obtain ⟨mid, rest, rfl⟩ := List.append_of_mem hmem
  rw [← List.cons_append, ← List.append_assoc] at heq
  have hopen := h.reads _ _ _ heq reply rfl
  rw [(Account.ended_iff _).2 (by simp)] at hopen
  cases hopen

/-- A run that has found the end of its input has found it once, and has read nothing behind
it. -/
theorem Course.reads_end {events : List Event} {r : Run} (h : Course ceiling events r)
    (he : (Account.ofTrace events).ended = true) :
    ∃ before after, events = before ++ .read (.got []) :: after ∧
      .read (.got []) ∉ before ∧ ∀ reply, .read reply ∉ after := by
  obtain ⟨before, after, heq⟩ := List.append_of_mem ((Account.ended_iff events).1 he)
  refine ⟨before, after, heq, fun hmem => ?_, h.no_read_behind heq⟩
  obtain ⟨first, mid, rfl⟩ := List.append_of_mem hmem
  rw [List.append_assoc, List.cons_append] at heq
  exact h.no_read_behind heq (.got []) (by simp)

/-- Where nothing stands in the way of a stage its run succeeds. It reads its input up to the
first end and no further; its report, its line on the record and what its child has been sent
are told by the complete values in front of that end. -/
theorem run_yields (ceiling : Option Int32) (w : Surroundings) (hw : Favourable ceiling w) :
    ∃ s report w', (Stage.new ceiling).run w = (some (s, .ok report), w') ∧
      (∃ before after, w'.trace.toList = before ++ .read (.got []) :: after ∧
        .read (.got []) ∉ before ∧ ∀ reply, .read reply ∉ after) ∧
      ∃ recorded, w'.record.accepted.toList = w.record.accepted.toList ++ recorded ∧
        Yields ceiling (values w.source.opening.bytes) report recorded w'.output := by
  let keeps (_ : Run) (w' : Surroundings) : Prop :=
    w'.Reading w.source.opening ∧ Unhindered ceiling w.source.opening w' ∧
      w'.record.accepted.toList =
        w.record.accepted.toList ++ (Account.ofTrace w'.trace.toList).recorded
  have hstart : keeps (Run.start (Stage.new ceiling)) w := by
    refine ⟨.start hw.trace, hw.unhindered, ?_⟩
    rw [hw.trace]
    exact (List.append_nil _).symm
  obtain ⟨s, result, hrun, hu, hreading, hunhindered, hrecord⟩ :=
    run_keeps ceiling hw.toUntouched keeps hstart fun hu h ha => by
      have hreading := h.1.answer (Run.permitted hu.course.accords) ha
      refine ⟨hreading, h.2.1.answer hu hw.input h.1 hreading ha, ?_⟩
      rw [Surroundings.ofTrace_answer ha]
      exact Surroundings.recorded_answer h.2.2 ha
  generalize (Stage.new ceiling).run w = run at hrun hu hreading hunhindered hrecord ⊢
  obtain ⟨outcome, w'⟩ := run
  dsimp only at hrun hu hreading hunhindered hrecord
  subst hrun
  have hacc := hu.course.accords
  have hok := (Run.isOk_of_finished hacc).trans hunhindered.smooth
  cases result with
  | error f => cases hok
  | ok report =>
    have hcompleted : Completed ceiling (Account.ofTrace w'.trace.toList) report := hacc
    have hends := hu.course.reads_end hcompleted.fulfilled.ended
    refine ⟨s, report, w', rfl, hends, _, hrecord, ?_⟩
    have hall := hreading.stopped _ ((Account.ended_iff _).1 hcompleted.fulfilled.ended) _ rfl
    rw [hall, ← Surroundings.received_eq, (Run.sound hacc).output_eq hu.linked]
    exact hcompleted.yields

/-- Values cut anywhere, three bytes to a read at most, a record and a channel that take a byte
or two at a time and interrupt, an incomplete value at the end, and failures lying in wait
behind all that is read and sent. -/
theorem run_yields_in_small_pieces :
    let w : Surroundings :=
      { source :=
          { items := [.chunk [3, 0], .error ⟨.interrupted, none⟩, .chunk [0, 0, 4, 0, 0, 0, 6],
              .chunk [0, 0, 0, 9], .ended, .error ⟨.other, none⟩]
            perRead := some 3 }
        record := { perCall := some 2, barriers := [⟨1, .interruptions 2⟩] }
        launches := [.started
          { sink :=
              { perCall := some 1
                barriers := [⟨2, .interruptions 1⟩, ⟨2, .failures ⟨.other, none⟩ rfl none⟩] } }] }
    ∃ s report w' recorded, (Stage.new none).run w = (some (s, .ok report), w') ∧
      w'.record.accepted.toList = recorded ∧ Yields none [3, 4, 6] report recorded w'.output := by
  intro w
  have hvalues : values w.source.opening.bytes = [3, 4, 6] := by decide
  have hw : Favourable none w := by
    refine
      { trace := rfl
        channels := rfl
        sinks := fun s hs => ?_
        endings := fun s hs => ?_
        input := by decide
        owner := fun p vs hvs _ => ?_ }
    · cases List.mem_singleton.1 hs
      rfl
    · cases List.mem_singleton.1 hs
      exact Option.some_ne_none _
    · obtain ⟨rfl, rfl⟩ := List.cons.inj (hvalues.symm.trans hvs)
      have hline : clear (lineBytes 3).length w.record.barriers = true := by decide
      refine ⟨⟨fun _ => by decide, hline⟩, rfl, _, rfl, ⟨fun _ => by decide, ?_⟩, rfl⟩
      decide
  obtain ⟨s, report, w', hrun, -, recorded, hrecord, hyields⟩ := run_yields none w hw
  rw [hvalues] at hyields
  exact ⟨s, report, w', recorded, hrun, hrecord, hyields⟩

end Stage

end SieveChain
