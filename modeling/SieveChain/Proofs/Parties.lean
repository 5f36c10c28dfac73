import SieveChain.Concurrent.System
import SieveChain.Proofs.Pipes
import SieveChain.Proofs.StageConduct
import Mathlib.Logic.Function.Basic

/-!
# Parties and pipes

Parties that work together in any order are told apart by their numbers: the one that feeds
the first stage is the zeroth, and each stage comes after the one that has launched it. On
the pipe between two of them is what the former has sent and the latter has not received
yet. Every step of any party keeps it so, whatever the others have done in between.
-/

namespace SieveChain.Concurrent

open Record

/-- The pipe between two parties. -/
structure Piped (p : Pipe) (up down : Account) : Prop where
  bytes : down.received ++ p.pending = up.sent
  writer : p.writer = !up.shut
  reader : p.reader = !down.left
  ended : down.ended = true → p.writer = false ∧ p.pending = []
  solid : p.Solid

/-- What the first stages have written, in the order of the chain. -/
def texts (acc : Nat → Account) (n : Nat) : List UInt8 :=
  (List.range n).flatMap fun i => (acc (i + 1)).recorded

/-- A system of parties with accounts, on a record with earlier contents. -/
structure Wired (base : List UInt8) (s : System) (acc : Nat → Account) : Prop where
  pipes : s.pipes.pipes.size = s.jobs.size
  job : ∀ i (job : Job), s.jobs[i]? = some job → job.pipe = i
  link : ∀ i < s.jobs.size, Piped (s.pipes.get i) (acc i) (acc (i + 1))
  child : ∀ i ≤ s.jobs.size,
    (acc i).child = if i < s.jobs.size then some ⟨i, threadLabel i⟩ else none
  fresh : ∀ i, s.jobs.size < i → acc i = {}
  smooth : ∀ i, (acc i).smooth = true
  record : s.record.toList = base ++ texts acc s.jobs.size

theorem Piped.of_up {p : Pipe} {up up' down : Account} (h : Piped p up down)
    (hs : up'.sent = up.sent) (hshut : up'.shut = up.shut) : Piped p up' down :=
  ⟨h.bytes.trans hs.symm, by rw [hshut]; exact h.writer, h.reader, h.ended, h.solid⟩

theorem Piped.of_down {p : Pipe} {up down down' : Account} (h : Piped p up down)
    (hr : down'.received = down.received) (hl : down'.left = down.left)
    (he : down'.ended = down.ended) : Piped p up down' :=
  ⟨by rw [hr]; exact h.bytes, h.writer, by rw [hl]; exact h.reader, by rw [he]; exact h.ended,
    h.solid⟩

theorem texts_succ (acc : Nat → Account) (n : Nat) :
    texts acc (n + 1) = texts acc n ++ (acc (n + 1)).recorded := by
  rw [texts, List.range_succ, List.flatMap_append, List.flatMap_singleton]
  rfl

theorem texts_mono (acc : Nat → Account) {n m : Nat} (h : n ≤ m) : texts acc n <+: texts acc m := by
  induction m with
  | zero =>
    obtain rfl := Nat.le_zero.1 h
    exact List.prefix_refl _
  | succ m ih =>
    rcases Nat.lt_or_eq_of_le h with hlt | rfl
    · rw [texts_succ]
      exact (ih (Nat.le_of_lt_succ hlt)).trans (List.prefix_append _ _)
    · exact List.prefix_refl _

theorem texts_congr {acc acc' : Nat → Account} {n : Nat}
    (h : ∀ i < n, (acc' (i + 1)).recorded = (acc (i + 1)).recorded) :
    texts acc' n = texts acc n := by
  induction n with
  | zero => rfl
  | succ n ih =>
    rw [texts_succ, texts_succ, ih fun i hi => h i (Nat.lt_succ_of_lt hi), h n (Nat.lt_succ_self n)]

variable {base : List UInt8} {s s' : System} {acc : Nat → Account} {k : Nat}

theorem texts_update {a' : Account} (n : Nat) (h : a'.recorded = (acc k).recorded) :
    texts (Function.update acc k a') n = texts acc n := by
  apply texts_congr
  intro i _
  by_cases hi : i + 1 = k
  · rw [← hi, Function.update_self, hi, h]
  · rw [Function.update_of_ne hi]

/-- A stage with nothing on the record behind it writes at the end of the record. -/
theorem texts_record {a' : Account} {n j : Nat} {bytes : List UInt8} (hj : j < n)
    (ha : a'.recorded = (acc (j + 1)).recorded ++ bytes)
    (hquiet : ∀ i, j + 1 < i → (acc i).recorded = []) :
    texts (Function.update acc (j + 1) a') n = texts acc n ++ bytes := by
  induction n with
  | zero => exact absurd hj (Nat.not_lt_zero j)
  | succ n ih =>
    rw [texts_succ, texts_succ]
    by_cases hn : j = n
    · subst hn
      have hsame : texts (Function.update acc (j + 1) a') j = texts acc j := by
        apply texts_congr
        intro i hi
        rw [Function.update_of_ne (by omega)]
      rw [hsame, Function.update_self, ha, List.append_assoc]
    · have hrec := hquiet (n + 1) (by omega)
      rw [ih (by omega), Function.update_of_ne (by omega), hrec, List.append_nil, List.append_nil]

/-! ## One party changes its account -/

/-- A party that changes its account keeps the system wired if the pipes on both its sides
agree with the new account. -/
theorem Wired.change (hw : Wired base s acc) (hk : k ≤ s.jobs.size) {a' : Account}
    {pipes : Pipes} {record : Array UInt8}
    (hsize : pipes.pipes.size = s.pipes.pipes.size)
    (hdown : k < s.jobs.size → Piped (pipes.get k) a' (acc (k + 1)))
    (hup : ∀ n, k = n + 1 → Piped (pipes.get n) (acc n) a')
    (hother : ∀ i, i ≠ k → i + 1 ≠ k → pipes.get i = s.pipes.get i)
    (hchild : a'.child = (acc k).child) (hsmooth : a'.smooth = true)
    (hrecord : record.toList = base ++ texts (Function.update acc k a') s.jobs.size) :
    Wired base { s with pipes, record } (Function.update acc k a') where
  pipes := hsize.trans hw.pipes
  job := hw.job
  link := by
    intro i hi
    show Piped (pipes.get i) _ _
    by_cases hik : i = k
    · subst hik
      rw [Function.update_self, Function.update_of_ne (by omega)]
      exact hdown hi
    · rw [Function.update_of_ne hik]
      by_cases hik' : i + 1 = k
      · rw [hik', Function.update_self]
        exact hup i hik'.symm
      · rw [Function.update_of_ne hik', hother i hik hik']
        exact hw.link i hi
  child := by
    intro i hi
    by_cases hik : i = k
    · rw [hik, Function.update_self, hchild]
      exact hw.child k hk
    · rw [Function.update_of_ne hik]
      exact hw.child i hi
  fresh := by
    intro i hi
    change s.jobs.size < i at hi
    rw [Function.update_of_ne (by omega)]
    exact hw.fresh i hi
  smooth := by
    intro i
    by_cases hik : i = k
    · rw [hik, Function.update_self]
      exact hsmooth
    · rw [Function.update_of_ne hik]
      exact hw.smooth i
  record := hrecord

/-- A party that leaves the record alone need only agree with the pipes. -/
theorem Wired.rewire (hw : Wired base s acc) (hk : k ≤ s.jobs.size) {a' : Account}
    {pipes : Pipes} (hsize : pipes.pipes.size = s.pipes.pipes.size)
    (hdown : k < s.jobs.size → Piped (pipes.get k) a' (acc (k + 1)))
    (hup : ∀ n, k = n + 1 → Piped (pipes.get n) (acc n) a')
    (hother : ∀ i, i ≠ k → i + 1 ≠ k → pipes.get i = s.pipes.get i)
    (hchild : a'.child = (acc k).child) (hsmooth : a'.smooth = (acc k).smooth)
    (hrec : a'.recorded = (acc k).recorded) :
    Wired base { s with pipes } (Function.update acc k a') := by
  refine hw.change hk hsize hdown hup hother hchild (hsmooth.trans (hw.smooth k)) ?_
  rw [texts_update _ hrec]
  exact hw.record

/-- What does not show on the pipes or on the record does not matter. -/
theorem Wired.keep (hw : Wired base s acc) (hk : k ≤ s.jobs.size) {a' : Account}
    (hr : a'.received = (acc k).received) (he : a'.ended = (acc k).ended)
    (hl : a'.left = (acc k).left) (hs : a'.sent = (acc k).sent)
    (hshut : a'.shut = (acc k).shut) (hchild : a'.child = (acc k).child)
    (hrec : a'.recorded = (acc k).recorded) (hsmooth : a'.smooth = true) :
    Wired base s (Function.update acc k a') := by
  refine @Wired.rewire base s acc k hw hk a' s.pipes rfl ?_ ?_ (fun _ _ _ => rfl) hchild
    (hsmooth.trans (hw.smooth k).symm) hrec
  · exact fun hlt => (hw.link k hlt).of_up hs hshut
  · rintro n rfl
    exact (hw.link n hk).of_down hr hl he

/-! ## The operations of one party -/

/-- A party with a child holds the pipe behind it. -/
theorem Wired.child_at (hw : Wired base s acc) (hk : k ≤ s.jobs.size) {child : Child}
    (h : (acc k).child = some child) :
    k < s.jobs.size ∧ child.index = k ∧ s.pipeOf? child = some k := by
  have hc := hw.child k hk
  rw [h] at hc
  by_cases hlt : k < s.jobs.size
  · rw [if_pos hlt, Option.some.injEq] at hc
    subst hc
    have hjob := Array.getElem?_eq_getElem hlt
    refine ⟨hlt, rfl, ?_⟩
    show (s.jobs[k]?).map (·.pipe) = some k
    rw [hjob, Option.map_some, hw.job k _ hjob]
  · rw [if_neg hlt] at hc
    cases hc

theorem Wired.lt_pipes (hw : Wired base s acc) (hk : k < s.jobs.size) :
    k < s.pipes.pipes.size := by
  rw [hw.pipes]
  exact hk

theorem Wired.writer_held (hw : Wired base s acc) (hk : k < s.jobs.size)
    (hshut : (acc k).shut = false) : (s.pipes.get k).writer = true := by
  rw [(hw.link k hk).writer, hshut]
  rfl

theorem Wired.reader_held (hw : Wired base s acc) (hk : k < s.jobs.size)
    (hleft : (acc (k + 1)).left = false) : (s.pipes.get k).reader = true := by
  rw [(hw.link k hk).reader, hleft]
  rfl

theorem Piped.read {p p' : Pipe} {up down : Account} {room : Nat} {bytes : List UInt8}
    (h : Piped p up down) (hg : p.Got room bytes p') :
    Piped p' up (down.add (.read (.got bytes))) := by
  have hpending := hg.pending
  cases bytes with
  | nil =>
    obtain ⟨hwriter, hnil⟩ := hg.ended rfl
    have hsame : p'.pending = p.pending := hpending
    refine ⟨?_, hg.writer.trans h.writer, hg.reader.trans h.reader, fun _ => ?_, hg.solid⟩
    · rw [hsame]
      exact h.bytes
    · exact ⟨hg.writer.trans hwriter, hsame.trans hnil⟩
  | cons b bs =>
    refine ⟨?_, hg.writer.trans h.writer, hg.reader.trans h.reader, fun he => ?_, hg.solid⟩
    · show down.received ++ b :: bs ++ p'.pending = up.sent
      rw [List.append_assoc, hpending]
      exact h.bytes
    · rw [(h.ended he).2] at hpending
      cases hpending

theorem Wired.read (hw : Wired base s acc) {n room : Nat} (hn : n < s.jobs.size)
    (hroom : 0 < room) (hleft : (acc (n + 1)).left = false) {bytes : List UInt8} {pipes : Pipes}
    (h : s.pipes.read n room = (.got bytes, pipes)) :
    bytes.length ≤ room ∧
      Wired base { s with pipes }
        (Function.update acc (n + 1) ((acc (n + 1)).add (.read (.got bytes)))) := by
  have hlink := hw.link n hn
  have hreader := hw.reader_held hn hleft
  obtain ⟨hsent, hshut, hchild, hrec, hsmooth⟩ := (acc (n + 1)).add_got bytes
  rw [Pipes.read, if_pos hreader] at h
  split at h
  · cases h
  · next bytes' p' hp =>
    cases h
    have hg := Pipe.read_got hlink.solid hroom hp
    refine ⟨hg.fits, ?_⟩
    refine hw.rewire (Nat.succ_le_of_lt hn) Pipes.size_set ?_ ?_ ?_ hchild hsmooth hrec
    · intro hlt
      rw [Pipes.get_set_of_ne (Nat.succ_ne_self n)]
      exact (hw.link (n + 1) hlt).of_up hsent hshut
    · intro m hm
      obtain rfl := Nat.succ.inj hm
      rw [Pipes.get_set (hw.lt_pipes hn)]
      exact hlink.read hg
    · intro i _ hi
      exact Pipes.get_set_of_ne fun he => hi (by rw [he])

/-- A stage writes at the end of the record, on which nothing stands yet behind it. -/
theorem Wired.note (hw : Wired base s acc) {n : Nat} (hn : n < s.jobs.size)
    (hquiet : ∀ i, n + 1 < i → (acc i).recorded = []) {bytes : List UInt8} (hne : bytes ≠ []) :
    Wired base { s with record := s.record ++ bytes }
      (Function.update acc (n + 1) ((acc (n + 1)).add
        (.recorded (Scripted.Surroundings.accepted bytes (.took bytes.length))
          (.took bytes.length)))) := by
  rw [Account.add_recorded_all _ hne]
  refine hw.change (Nat.succ_le_of_lt hn) rfl ?_ ?_ (fun _ _ _ => rfl) rfl (hw.smooth (n + 1)) ?_
  · exact fun hlt => (hw.link (n + 1) hlt).of_up rfl rfl
  · intro m hm
    obtain rfl := Nat.succ.inj hm
    exact (hw.link n hn).of_down rfl rfl rfl
  · rw [texts_record hn rfl hquiet, Array.toList_appendList, hw.record, List.append_assoc]

/-- A stage that is new behind the last party has done nothing yet, and its pipe is empty. -/
theorem Wired.extend (hw : Wired base s acc) {a' : Account}
    (hr : a'.received = (acc s.jobs.size).received) (he : a'.ended = (acc s.jobs.size).ended)
    (hl : a'.left = (acc s.jobs.size).left) (hsent : a'.sent = []) (hshut : a'.shut = false)
    (hrec : a'.recorded = (acc s.jobs.size).recorded) (hsmooth : a'.smooth = true)
    (hchild : a'.child = some ⟨s.jobs.size, threadLabel s.jobs.size⟩) :
    Wired base (s.launch none).2 (Function.update acc s.jobs.size a') := by
  have hsize : (s.launch none).2.jobs.size = s.jobs.size + 1 := Array.size_push _
  have hnew : s.pipes.create.2.get s.jobs.size = {} := by
    rw [← hw.pipes]
    exact Pipes.get_create
  have hnone : acc (s.jobs.size + 1) = {} := hw.fresh _ (Nat.lt_succ_self _)
  refine ⟨?_, ?_, ?_, ?_, ?_, ?_, ?_⟩
  · rw [hsize, ← hw.pipes]
    exact Pipes.size_create
  · intro i job hjob
    change (s.jobs.push _)[i]? = some job at hjob
    rw [Array.getElem?_push] at hjob
    split at hjob
    · next hi =>
      cases hjob
      rw [hi]
      exact hw.pipes
    · exact hw.job i job hjob
  · intro i hi
    rw [hsize] at hi
    show Piped (s.pipes.create.2.get i) _ _
    by_cases hlt : i < s.jobs.size
    · rw [Pipes.get_create_of_lt (by rw [hw.pipes]; exact hlt),
        Function.update_of_ne (Nat.ne_of_lt hlt)]
      by_cases hlast : i + 1 = s.jobs.size
      · rw [hlast, Function.update_self]
        refine Piped.of_down ?_ hr hl he
        rw [← hlast]
        exact hw.link i hlt
      · rw [Function.update_of_ne hlast]
        exact hw.link i hlt
    · obtain rfl : i = s.jobs.size := by omega
      rw [Function.update_self, Function.update_of_ne (Nat.succ_ne_self _), hnone, hnew]
      refine ⟨hsent.symm, ?_, rfl, fun hended => (Bool.false_ne_true hended).elim, ?_⟩
      · rw [hshut]
        rfl
      · exact fun chunk hc => absurd hc List.not_mem_nil
  · intro i hi
    rw [hsize] at hi ⊢
    by_cases hlast : i = s.jobs.size
    · rw [hlast, Function.update_self, if_pos (Nat.lt_succ_self _), hchild]
    · rw [Function.update_of_ne hlast]
      by_cases hlt : i < s.jobs.size
      · rw [hw.child i (Nat.le_of_lt hlt), if_pos hlt, if_pos (Nat.lt_succ_of_lt hlt)]
      · rw [hw.fresh i (by omega), if_neg (by omega)]
  · intro i hi
    rw [hsize] at hi
    rw [Function.update_of_ne (by omega)]
    exact hw.fresh i (Nat.lt_of_succ_lt hi)
  · intro i
    by_cases hlast : i = s.jobs.size
    · rw [hlast, Function.update_self]
      exact hsmooth
    · rw [Function.update_of_ne hlast]
      exact hw.smooth i
  · show s.record.toList = _
    rw [hsize, texts_update _ hrec, texts_succ, hnone, List.append_nil]
    exact hw.record

/-- Only the last party launches a stage: the others have a child. -/
theorem Wired.launch (hw : Wired base s acc) (hk : k ≤ s.jobs.size)
    (hchild : (acc k).child = none) (hsent : (acc k).sent = []) (hshut : (acc k).shut = false) :
    k = s.jobs.size ∧ Wired base (s.launch none).2
      (Function.update acc k ((acc k).add (.launched (s.launch none).1))) := by
  have hlast : k = s.jobs.size := by
    have hc := hw.child k hk
    by_cases hlt : k < s.jobs.size
    · rw [if_pos hlt, hchild] at hc
      cases hc
    · omega
  subst hlast
  exact ⟨rfl, hw.extend rfl rfl rfl hsent hshut rfl (hw.smooth _) rfl⟩

/-- How much of what is offered a pipe has room for. -/
def System.room (s : System) (pipe : Nat) (bytes : List UInt8) : Nat :=
  match s.capacity with
  | none => bytes.length
  | some most => min bytes.length (most - (s.pipes.get pipe).pending.length)

theorem System.room_le (s : System) (pipe : Nat) (bytes : List UInt8) :
    s.room pipe bytes ≤ bytes.length := by
  unfold room
  split
  · exact Nat.le_refl _
  · exact Nat.min_le_left _ _

theorem System.offer_of_writer {pipe : Nat} (hwriter : (s.pipes.get pipe).writer = true)
    (bytes : List UInt8) :
    s.offer pipe bytes =
      if (s.pipes.get pipe).reader = true ∧ s.room pipe bytes = 0 ∧ bytes ≠ [] then none
      else
        let (reply, p) := (s.pipes.get pipe).write
          (if (s.pipes.get pipe).reader then bytes.take (s.room pipe bytes) else bytes)
        some (reply, { s with pipes := s.pipes.set pipe p }) := by
  rw [offer, Pipes.write, if_pos hwriter]
  rfl

theorem System.offer_nil {pipe : Nat} (hwriter : (s.pipes.get pipe).writer = true) :
    s.offer pipe [] =
      some (.took 0, { s with pipes := s.pipes.set pipe (s.pipes.get pipe) }) := by
  have hnothing : (if (s.pipes.get pipe).reader then [].take (s.room pipe []) else []) =
      ([] : List UInt8) := by
    split
    · exact List.take_nil
    · rfl
  rw [offer_of_writer hwriter, if_neg fun hwait => hwait.2.2 rfl, hnothing]
  rfl

/-- What is offered to a pipe that is held at both ends is taken as far as there is room. -/
theorem System.offer_took {i : Nat} {bytes : List UInt8} {reply : WriteReply}
    (hwriter : (s.pipes.get i).writer = true) (hreader : (s.pipes.get i).reader = true)
    (hsolid : (s.pipes.get i).Solid) (hne : bytes ≠ []) (h : s.offer i bytes = some (reply, s')) :
    ∃ n p', n + 1 ≤ bytes.length ∧ reply = .took (n + 1) ∧
      s' = { s with pipes := s.pipes.set i p' } ∧
      p'.pending = (s.pipes.get i).pending ++ bytes.take (n + 1) ∧ p'.writer = true ∧
      p'.reader = true ∧ p'.Solid := by
  rw [offer_of_writer hwriter, if_pos hreader] at h
  have hle := s.room_le i bytes
  generalize s.room i bytes = room at h hle
  split at h
  · cases h
  · next hwait =>
    have hpos : room ≠ 0 := fun hz => hwait ⟨hreader, hz, hne⟩
    obtain ⟨n, rfl⟩ := Nat.exists_eq_succ_of_ne_zero hpos
    have hlength : (bytes.take (n + 1)).length = n + 1 := by
      rw [List.length_take]
      exact Nat.min_eq_left hle
    have hsome : bytes.take (n + 1) ≠ [] := by
      intro hz
      rw [hz] at hlength
      cases hlength
    obtain ⟨p', hp, hpending, hw, hr, hs⟩ := Pipe.write_took hsolid hreader hsome
    rw [Nat.succ_eq_add_one, hp, hlength] at h
    cases h
    exact ⟨n, p', hle, rfl, rfl, hpending, hw.trans hwriter, hr.trans hreader, hs⟩

/-- A write to a child that will go on reading is taken. -/
theorem Wired.send (hw : Wired base s acc) (hk : k < s.jobs.size) (hshut : (acc k).shut = false)
    (hleft : (acc (k + 1)).left = true → (acc (k + 1)).ended = true) {bytes : List UInt8}
    (hne : bytes ≠ []) {reply : WriteReply} (h : s.offer k bytes = some (reply, s')) :
    ∃ n pipes, n + 1 ≤ bytes.length ∧ reply = .took (n + 1) ∧ s' = { s with pipes } ∧
      Wired base s' (Function.update acc k
        { acc k with sent := (acc k).sent ++ bytes.take (n + 1) }) := by
  have hlink := hw.link k hk
  have hwriter := hw.writer_held hk hshut
  have hstays : (acc (k + 1)).left = false := by
    rw [Bool.eq_false_iff]
    intro hl
    have hgone := (hlink.ended (hleft hl)).1
    rw [hwriter] at hgone
    cases hgone
  have hreader := hw.reader_held hk hstays
  obtain ⟨n, p', hn, hreply, hs', hpending, hp, hp', hsolid⟩ :=
    System.offer_took hwriter hreader hlink.solid hne h
  refine ⟨n, s.pipes.set k p', hn, hreply, hs', ?_⟩
  rw [hs']
  refine hw.rewire (Nat.le_of_lt hk) Pipes.size_set ?_ ?_ ?_ rfl rfl rfl
  · intro _
    rw [Pipes.get_set (hw.lt_pipes hk)]
    refine ⟨?_, hp.trans (hwriter.symm.trans hlink.writer), ?_, ?_, hsolid⟩
    · rw [hpending, ← List.append_assoc, hlink.bytes]
    · exact hp'.trans (hreader.symm.trans hlink.reader)
    · intro he
      rw [(hlink.ended he).1] at hwriter
      cases hwriter
  · rintro m rfl
    rw [Pipes.get_set_of_ne (Nat.ne_of_lt (Nat.lt_succ_self m))]
    exact (hw.link m (Nat.lt_of_succ_lt hk)).of_down rfl rfl rfl
  · intro i hi _
    exact Pipes.get_set_of_ne hi

theorem Wired.shut (hw : Wired base s acc) (hk : k < s.jobs.size)
    (hshut : (acc k).shut = false) :
    Wired base { s with pipes := (s.pipes.dropWriter k).2 }
      (Function.update acc k { acc k with shut := true }) := by
  have hlink := hw.link k hk
  have hwriter := hw.writer_held hk hshut
  refine hw.rewire (Nat.le_of_lt hk) Pipes.size_dropWriter ?_ ?_ ?_ rfl rfl rfl
  · intro _
    rw [Pipes.get_dropWriter (hw.lt_pipes hk) hwriter]
    exact ⟨hlink.bytes, rfl, hlink.reader, fun he => ⟨rfl, (hlink.ended he).2⟩, hlink.solid⟩
  · rintro m rfl
    rw [Pipes.get_dropWriter_of_ne (Nat.ne_of_lt (Nat.lt_succ_self m))]
    exact (hw.link m (Nat.lt_of_succ_lt hk)).of_down rfl rfl rfl
  · intro i hi _
    exact Pipes.get_dropWriter_of_ne hi

theorem Wired.leave (hw : Wired base s acc) {n : Nat} (hn : n < s.jobs.size)
    (hleft : (acc (n + 1)).left = false) :
    Wired base { s with pipes := (s.pipes.dropReader n).2 }
      (Function.update acc (n + 1) { acc (n + 1) with left := true }) := by
  have hlink := hw.link n hn
  have hreader := hw.reader_held hn hleft
  refine hw.rewire (Nat.succ_le_of_lt hn) Pipes.size_dropReader ?_ ?_ ?_ rfl rfl rfl
  · intro hlt
    rw [Pipes.get_dropReader_of_ne (Nat.succ_ne_self n)]
    exact (hw.link (n + 1) hlt).of_up rfl rfl
  · intro m hm
    obtain rfl := Nat.succ.inj hm
    rw [Pipes.get_dropReader (hw.lt_pipes hn) hreader]
    exact ⟨hlink.bytes, hlink.writer, rfl, hlink.ended, hlink.solid⟩
  · intro i _ hi
    exact Pipes.get_dropReader_of_ne fun he => hi (by rw [he])

/-! ## One move of a party -/

/-- What a reap learns comes from a stage whose thread has finished. -/
theorem System.verdict_eq_some {child : Child} {result : Except Fault Unit}
    (h : s.verdict child = some result) :
    ∃ job stage report, s.jobs[child.index]? = some job ∧ job.ended = true ∧
      job.run = some (.finished stage report) ∧ result = threads.verdict child.index report := by
  unfold verdict at h
  split at h
  · next hjob =>
    cases h
    exact ⟨_, _, _, hjob, rfl, rfl, rfl⟩
  · cases h

/-- A party has moved on: nothing but its own account has changed, it has launched one stage
at most, and it has reaped no stage that goes on. -/
structure Moved (base : List UInt8) (s : System) (acc : Nat → Account) (k : Nat)
    (e : Option Event) (s' : System) : Prop where
  wired : Wired base s' (Function.update acc k ((acc k).after e))
  ceiling : s'.ceiling = s.ceiling
  feeders : s'.feeders = s.feeders
  writers : s'.writers = s.writers
  jobs : s'.jobs = s.jobs ∨
    s'.jobs = s.jobs.push
      { pipe := s.pipes.pipes.size, run := some (.start (Stage.new s.ceiling)) }
  reaped : ((acc k).after e).reaped = true →
    (acc k).reaped = true ∨ ∃ job, s.jobs[k]? = some job ∧ job.ended = true

/-- Whatever a party may ask for among parties that have met no failure, it meets none. -/
theorem Wired.answer {σ : Type} {m : Move σ} {q : σ} {pipe : Option Nat}
    (hw : Wired base s acc) (hk : k ≤ s.jobs.size) (hm : m.Permitted (acc k))
    (hpipe : ∀ n, pipe = some n → k = n + 1)
    (hown : ∀ bytes next, m = .record bytes next → 0 < k)
    (hleft : (acc (k + 1)).left = true → (acc (k + 1)).ended = true)
    (hquiet : (acc k).sent = [] → ∀ i, k < i → (acc i).recorded = [])
    (hverdict : ∀ child result, s.verdict child = some result → result = .ok ())
    (h : s.answer pipe none m = some (q, s')) :
    ∃ e, m.Answered e q ∧ Moved base s acc k e s' := by
  cases m with
  | read room next =>
    cases pipe with
    | none => cases h
    | some n =>
      obtain rfl := hpipe n rfl
      rw [System.answer] at h
      split at h
      · next bytes pipes hread =>
        cases h
        obtain ⟨hfits, hwired⟩ := hw.read (Nat.lt_of_succ_le hk) hm.1 hm.2.1 hread
        refine ⟨some (.read (.got bytes)), .read hfits, hwired, rfl, rfl, rfl, .inl rfl, ?_⟩
        intro hr
        cases bytes <;> exact .inl hr
      · cases h
  | record bytes next =>
    obtain ⟨n, rfl⟩ := Nat.exists_eq_succ_of_ne_zero (Nat.ne_of_gt (hown bytes next rfl))
    obtain ⟨hne, -, hsent, -⟩ := hm
    cases h
    exact ⟨_, .record (Nat.le_refl _), hw.note (Nat.lt_of_succ_le hk) (hquiet hsent) hne, rfl, rfl,
      rfl, .inl rfl, .inl⟩
  | commit next =>
    cases h
    refine ⟨some (.committed (.ok ())), .commit _, ?_, rfl, rfl, rfl, .inl rfl, .inl⟩
    rw [Account.after, Account.add_committed]
    exact hw.keep hk rfl rfl rfl rfl rfl rfl rfl (hw.smooth k)
  | launch next =>
    obtain ⟨-, hchild, hsent, hshut⟩ := hm
    obtain ⟨-, hwired⟩ := hw.launch hk hchild hsent hshut
    cases h
    exact ⟨_, .launch _, hwired, rfl, rfl, rfl, .inr rfl, .inl⟩
  | send child bytes next =>
    obtain ⟨hne, hchild, hshut⟩ := hm
    obtain ⟨hlt, -, hpipe⟩ := hw.child_at hk hchild
    rw [System.answer, hpipe] at h
    obtain ⟨⟨reply, s''⟩, hoffer, heq⟩ := Option.map_eq_some_iff.1 h
    cases heq
    obtain ⟨n, pipes, hn, rfl, rfl, hwired⟩ := hw.send hlt hshut hleft hne hoffer
    have hanswered := @Move.Answered.send σ child bytes next (.took (n + 1)) hn
    refine ⟨_, hanswered, ?_, rfl, rfl, rfl, .inl rfl, .inl⟩
    rw [Account.after, Account.add_sent_took]
    exact hwired
  | shut child next =>
    obtain ⟨hchild, hshut⟩ := hm
    obtain ⟨hlt, -, hpipe⟩ := hw.child_at hk hchild
    rw [System.answer, hpipe] at h
    cases h
    exact ⟨_, .shut, hw.shut hlt hshut, rfl, rfl, rfl, .inl rfl, .inl⟩
  | leave next =>
    cases pipe with
    | none => cases h
    | some n =>
      obtain rfl := hpipe n rfl
      cases h
      exact ⟨_, .leave, hw.leave (Nat.lt_of_succ_le hk) hm.1, rfl, rfl, rfl, .inl rfl, .inl⟩
  | reap child next =>
    obtain ⟨hchild, -, -⟩ := hm
    obtain ⟨hlt, hindex, -⟩ := hw.child_at hk hchild
    obtain ⟨result, hresult, heq⟩ := Option.map_eq_some_iff.1 h
    cases heq
    obtain rfl := hverdict child result hresult
    refine ⟨some (.reaped child (.ok ())), .reap _, ?_, rfl, rfl, rfl, .inl rfl, ?_⟩
    · rw [Account.after, Account.add_reaped_ok]
      exact hw.keep hk rfl rfl rfl rfl rfl rfl rfl (hw.smooth k)
    · intro _
      obtain ⟨job, stage, report, hjob, hended, -, -⟩ := System.verdict_eq_some hresult
      rw [hindex] at hjob
      exact .inr ⟨job, hjob, hended⟩
  | forsake child next => exact hm.elim
  | proceed next =>
    cases h
    refine ⟨none, .proceed, ?_, rfl, rfl, rfl, .inl rfl, .inl⟩
    rw [Account.after, Function.update_eq_self]
    exact hw
  | rest => cases h

end SieveChain.Concurrent
