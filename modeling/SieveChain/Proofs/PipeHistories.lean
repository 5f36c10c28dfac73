import SieveChain.Proofs.Pipes

/-!
# Histories of pipes

Pipes are made, written to, read from and given up at either end in any order. What has been read
from a pipe and what is pending in it are then always what it has accepted, in that order. A read
finds the end of a stream only where it has one: no write makes it, an empty one in particular.
-/

namespace SieveChain

namespace Pipe

variable {p : Pipe} {room : Nat}

/-- A pipe in which nothing is pending holds no chunk. -/
theorem Solid.emptied (hs : p.Solid) (h : p.pending = []) : p.current = [] ∧ p.queue = [] := by
  obtain ⟨hcurrent, hqueue⟩ := List.append_eq_nil_iff.1 h
  refine ⟨hcurrent, List.eq_nil_iff_forall_not_mem.2 ?_⟩
  intro chunk hchunk
  exact hs chunk hchunk (List.flatten_eq_nil_iff.1 hqueue chunk hchunk)

/-- A read that finds nothing pending changes nothing. -/
theorem read_emptied (hs : p.Solid) (hroom : 0 < room) (h : p.pending = []) :
    p.read room = (if p.writer then none else some [], p) := by
  obtain ⟨hcurrent, hqueue⟩ := hs.emptied h
  rw [read, if_neg (Nat.ne_of_gt hroom), hcurrent, hqueue]

/-- A read that finds something pending takes some of it. -/
theorem read_pending (hs : p.Solid) (hroom : 0 < room) (h : p.pending ≠ []) :
    ∃ bytes p', p.read room = (some bytes, p') ∧ bytes ≠ [] ∧ p.Got room bytes p' := by
  cases hread : p.read room with
  | mk reply p' =>
    cases reply with
    | none => exact absurd (read_waits hroom hread).1 h
    | some bytes =>
      have hgot := read_got hs hroom hread
      exact ⟨bytes, p', rfl, fun he => h (hgot.ended he).2, hgot⟩

end Pipe

namespace Pipes

/-- Something done with the pipes of a table. -/
inductive Act
  | create
  | write (pipe : Nat) (bytes : List UInt8)
  | read (pipe : Nat) (room : Nat)
  | dropWriter (pipe : Nat)
  | dropReader (pipe : Nat)

/-- Something that has been done, and how it has come out. -/
inductive Deed
  | created (pipe : Nat)
  | wrote (pipe : Nat) (bytes : List UInt8) (reply : Option WriteReply)
  | looked (pipe : Nat) (room : Nat) (result : Read)
  | gaveUpWriter (pipe : Nat) (held : Bool)
  | gaveUpReader (pipe : Nat) (held : Bool)

def Act.on (ps : Pipes) : Act → Deed × Pipes
  | .create => (.created ps.create.1, ps.create.2)
  | .write i bytes => (.wrote i bytes (ps.write i bytes).1, (ps.write i bytes).2)
  | .read i room => (.looked i room (ps.read i room).1, (ps.read i room).2)
  | .dropWriter i => (.gaveUpWriter i (ps.dropWriter i).1, (ps.dropWriter i).2)
  | .dropReader i => (.gaveUpReader i (ps.dropReader i).1, (ps.dropReader i).2)

/-- What has been done with a table of pipes since it was empty, and what has become of it. -/
inductive History : List Deed → Pipes → Prop
  | new : History [] {}
  | act {log : List Deed} {ps : Pipes} (h : History log ps) (a : Act) :
      History (log ++ [(a.on ps).1]) (a.on ps).2

/-! ## What has gone into a pipe and come out of it -/

/-- The bytes that a pipe has accepted in a deed. -/
def Deed.accepted (i : Nat) : Deed → List UInt8
  | .wrote j bytes (some (.took count)) => if j = i then bytes.take count else []
  | _ => []

/-- The bytes that have been read from a pipe in a deed. -/
def Deed.delivered (i : Nat) : Deed → List UInt8
  | .looked j _ (.got bytes) => if j = i then bytes else []
  | _ => []

def accepted (i : Nat) (log : List Deed) : List UInt8 := log.flatMap (Deed.accepted i)

def delivered (i : Nat) (log : List Deed) : List UInt8 := log.flatMap (Deed.delivered i)

@[simp] theorem accepted_concat (i : Nat) (log : List Deed) (d : Deed) :
    accepted i (log ++ [d]) = accepted i log ++ d.accepted i := by
  rw [accepted, List.flatMap_append, List.flatMap_singleton]
  rfl

@[simp] theorem delivered_concat (i : Nat) (log : List Deed) (d : Deed) :
    delivered i (log ++ [d]) = delivered i log ++ d.delivered i := by
  rw [delivered, List.flatMap_append, List.flatMap_singleton]
  rfl

variable {ps ps' : Pipes} {log : List Deed} {i j : Nat} {bytes : List UInt8} {room : Nat}

/-! ## How one operation comes out -/

/-- A table does not change if one of its pipes is put back as it is. -/
theorem set_get (hi : i < ps.pipes.size) : ps.set i (ps.get i) = ps := by
  have hget : ps.get i = ps.pipes[i] := by
    rw [get, Array.getElem?_eq_getElem hi]
    rfl
  simp [hget, set, Array.setIfInBounds, hi]

theorem lt_size_of_writer (h : (ps.get i).writer = true) : i < ps.pipes.size := by
  apply Nat.lt_of_not_le
  intro hle
  rw [get_of_le hle] at h
  cases h

theorem lt_size_of_reader (h : (ps.get i).reader = true) : i < ps.pipes.size := by
  apply Nat.lt_of_not_le
  intro hle
  rw [get_of_le hle] at h
  cases h

/-- The ways in which a write to a pipe comes out. -/
inductive Writes (ps : Pipes) (i : Nat) (bytes : List UInt8) : Option WriteReply × Pipes → Prop
  | closed (writer : (ps.get i).writer = false) : Writes ps i bytes (none, ps)
  | nothing (writer : (ps.get i).writer = true) (empty : bytes = []) :
      Writes ps i bytes (some (.took 0), ps)
  | broken (writer : (ps.get i).writer = true) (reader : (ps.get i).reader = false)
      (filled : bytes ≠ []) : Writes ps i bytes (some (.failed Pipe.readerGone), ps)
  | took {p : Pipe} (writer : (ps.get i).writer = true) (reader : (ps.get i).reader = true)
      (filled : bytes ≠ []) (pending : p.pending = (ps.get i).pending ++ bytes)
      (same : p.writer = (ps.get i).writer ∧ p.reader = (ps.get i).reader) (solid : p.Solid) :
      Writes ps i bytes (some (.took bytes.length), ps.set i p)

theorem write_comes_out (hs : (ps.get i).Solid) : Writes ps i bytes (ps.write i bytes) := by
  by_cases hwriter : (ps.get i).writer = true
  · have hput := set_get (lt_size_of_writer hwriter)
    rw [write, if_pos hwriter]
    by_cases hempty : bytes = []
    · subst hempty
      show Writes ps i [] (some (.took 0), ps.set i (ps.get i))
      rw [hput]
      exact .nothing hwriter rfl
    · by_cases hreader : (ps.get i).reader = true
      · obtain ⟨p, hwrite, hpending, hw, hr, hsolid⟩ := Pipe.write_took hs hreader hempty
        rw [hwrite]
        exact .took hwriter hreader hempty hpending ⟨hw, hr⟩ hsolid
      · have hbroken : (ps.get i).write bytes = (.failed Pipe.readerGone, ps.get i) := by
          simp [Pipe.write, hempty, hreader]
        rw [hbroken]
        show Writes ps i bytes (some (.failed Pipe.readerGone), ps.set i (ps.get i))
        rw [hput]
        exact .broken hwriter (Bool.eq_false_iff.2 hreader) hempty
  · rw [write, if_neg hwriter]
    exact .closed (Bool.eq_false_iff.2 hwriter)

/-- The ways in which a read from a pipe comes out. -/
inductive Looks (ps : Pipes) (i room : Nat) : Read × Pipes → Prop
  | closed (reader : (ps.get i).reader = false) : Looks ps i room (.closed, ps)
  | nothing (reader : (ps.get i).reader = true) (none : room = 0) : Looks ps i room (.got [], ps)
  | waits (reader : (ps.get i).reader = true) (some : 0 < room)
      (pending : (ps.get i).pending = []) (writer : (ps.get i).writer = true) :
      Looks ps i room (.waits, ps)
  | ended (reader : (ps.get i).reader = true) (some : 0 < room)
      (pending : (ps.get i).pending = []) (writer : (ps.get i).writer = false) :
      Looks ps i room (.got [], ps)
  | got {bytes : List UInt8} {p : Pipe} (reader : (ps.get i).reader = true) (some : 0 < room)
      (filled : bytes ≠ []) (taken : (ps.get i).Got room bytes p) :
      Looks ps i room (.got bytes, ps.set i p)

theorem read_comes_out (hs : (ps.get i).Solid) : Looks ps i room (ps.read i room) := by
  by_cases hreader : (ps.get i).reader = true
  · have hput := set_get (lt_size_of_reader hreader)
    rw [read, if_pos hreader]
    by_cases hroom : 0 < room
    · by_cases hpending : (ps.get i).pending = []
      · rw [Pipe.read_emptied hs hroom hpending]
        by_cases hwriter : (ps.get i).writer = true
        · rw [if_pos hwriter]
          exact .waits hreader hroom hpending hwriter
        · rw [if_neg hwriter]
          show Looks ps i room (.got [], ps.set i (ps.get i))
          rw [hput]
          exact .ended hreader hroom hpending (Bool.eq_false_iff.2 hwriter)
      · obtain ⟨bytes, p, hread, hfilled, hgot⟩ := Pipe.read_pending hs hroom hpending
        rw [hread]
        exact .got hreader hroom hfilled hgot
    · have hzero : room = 0 := by omega
      have hread : (ps.get i).read room = (some [], ps.get i) := by rw [Pipe.read, if_pos hzero]
      rw [hread]
      show Looks ps i room (.got [], ps.set i (ps.get i))
      rw [hput]
      exact .nothing hreader hzero
  · rw [read, if_neg hreader]
    exact .closed (Bool.eq_false_iff.2 hreader)

/-! ## What one deed does to a pipe -/

/-- A pipe whose writing end has been given up and in which nothing is pending. -/
structure Ended (ps : Pipes) (i : Nat) : Prop where
  made : i < ps.pipes.size
  writer : (ps.get i).writer = false
  pending : (ps.get i).pending = []

/-- What a deed, whichever pipe it is done to, means for one pipe. -/
structure Means (i : Nat) (d : Deed) (ps ps' : Pipes) : Prop where
  solid : (ps'.get i).Solid
  pending : d.delivered i ++ (ps'.get i).pending = (ps.get i).pending ++ d.accepted i
  /-- A write that succeeds takes all it is given. -/
  whole : ∀ {bytes count}, d = .wrote i bytes (some (.took count)) → count = bytes.length
  writer : i < ps'.pipes.size ∧ (ps'.get i).writer = false ↔
    (i < ps.pipes.size ∧ (ps.get i).writer = false) ∨ d = .gaveUpWriter i true
  reader : i < ps'.pipes.size ∧ (ps'.get i).reader = false ↔
    (i < ps.pipes.size ∧ (ps.get i).reader = false) ∨ d = .gaveUpReader i true
  /-- A read finds the end of a stream only where it has one, -/
  finds : ∀ {room}, 0 < room → d = .looked i room (.got []) → Ended ps' i
  /-- and then it has one for good. -/
  lasts : Ended ps i → Ended ps' i

/-- A deed that is done to another pipe, or that comes to nothing. -/
structure Idle (i : Nat) (d : Deed) : Prop where
  accepted : d.accepted i = []
  delivered : d.delivered i = []
  whole : ∀ {bytes count}, d = .wrote i bytes (some (.took count)) → count = bytes.length
  writer : d ≠ .gaveUpWriter i true
  reader : d ≠ .gaveUpReader i true
  finds : ∀ {room}, 0 < room → d ≠ .looked i room (.got [])

theorem Idle.of_write {reply : Option WriteReply}
    (h : j = i → ∀ count, reply = some (.took count) → count = 0 ∧ bytes = []) :
    Idle i (.wrote j bytes reply) := by
  refine ⟨?_, rfl, ?_, by simp, by simp, by simp⟩
  · unfold Deed.accepted
    split
    · next hdeed =>
      cases hdeed
      split
      · next hi =>
        rw [(h hi _ rfl).1, List.take_zero]
      · rfl
    · rfl
  · intro bytes' count he
    cases he
    obtain ⟨rfl, rfl⟩ := h rfl count rfl
    rfl

theorem Idle.of_read {result : Read}
    (h : j = i → ∀ bytes, result = .got bytes → room = 0 ∧ bytes = []) :
    Idle i (.looked j room result) := by
  refine ⟨rfl, ?_, by simp, by simp, by simp, ?_⟩
  · unfold Deed.delivered
    split
    · next hdeed =>
      cases hdeed
      split
      · next hi =>
        exact (h hi _ rfl).2
      · rfl
    · rfl
  · intro room' hroom he
    cases he
    have hzero := (h rfl [] rfl).1
    omega

theorem Means.of_idle {d : Deed} (hd : Idle i d) (hs : (ps.get i).Solid)
    (hget : ps'.get i = ps.get i) (hsize : i < ps'.pipes.size ↔ i < ps.pipes.size) :
    Means i d ps ps' where
  solid := by rw [hget]; exact hs
  pending := by rw [hd.accepted, hd.delivered, hget, List.nil_append, List.append_nil]
  whole := hd.whole
  writer := by rw [hget, hsize]; simp [hd.writer]
  reader := by rw [hget, hsize]; simp [hd.reader]
  finds := fun hroom he => absurd he (hd.finds hroom)
  lasts := fun h => ⟨hsize.2 h.made, by rw [hget]; exact h.writer, by rw [hget]; exact h.pending⟩

theorem means_create (hs : (ps.get i).Solid) :
    Means i (.created ps.create.1) ps ps.create.2 := by
  by_cases hi : i = ps.pipes.size
  · have hold : ps.get i = { writer := false, reader := false } := get_of_le (Nat.le_of_eq hi.symm)
    have hnew : ps.create.2.get i = {} := by rw [hi]; exact get_create
    have hfresh : ¬i < ps.pipes.size := by omega
    constructor
    · simp [hnew, Pipe.Solid]
    · simp [hold, hnew, Pipe.pending, Deed.accepted, Deed.delivered]
    · intro bytes count he
      cases he
    · simp [hnew, hfresh]
    · simp [hnew, hfresh]
    · intro room hroom he
      cases he
    · exact fun h => absurd h.made hfresh
  · apply Means.of_idle _ hs
    · by_cases hlt : i < ps.pipes.size
      · exact get_create_of_lt hlt
      · rw [get_of_le (Nat.le_of_not_lt hlt), get_of_le]
        rw [size_create]
        omega
    · rw [size_create]
      omega
    · constructor <;> simp [Deed.accepted, Deed.delivered]

/-- A write takes all or nothing, and what it takes joins what is pending. -/
theorem means_write (hs : (ps.get i).Solid) (hsj : (ps.get j).Solid) (bytes : List UInt8) :
    Means i (.wrote j bytes (ps.write j bytes).1) ps (ps.write j bytes).2 := by
  have hcome := @write_comes_out _ _ bytes hsj
  generalize ps.write j bytes = out at hcome ⊢
  cases hcome with
  | closed writer => exact .of_idle (.of_write (by simp)) hs rfl Iff.rfl
  | nothing writer empty => exact .of_idle (.of_write (by simp [empty])) hs rfl Iff.rfl
  | broken writer reader filled => exact .of_idle (.of_write (by simp)) hs rfl Iff.rfl
  | @took p writer reader filled pending same solid =>
    have hsize : (ps.set j p).pipes.size = ps.pipes.size := size_set
    by_cases hi : j = i
    · subst hi
      have hget : (ps.set j p).get j = p := get_set (lt_size_of_writer writer)
      constructor
      · rw [hget]
        exact solid
      · simp [hget, Deed.accepted, Deed.delivered, pending]
      · intro bytes' count he
        cases he
        rfl
      · simp [hget, hsize, same.1]
      · simp [hget, hsize, same.2]
      · intro room hroom he
        cases he
      · intro h
        rw [h.writer] at writer
        cases writer
    · refine .of_idle (.of_write ?_) hs (get_set_of_ne (Ne.symm hi)) (by rw [hsize])
      exact fun he => absurd he hi

/-- A read takes from the front of what is pending. -/
theorem means_read (hs : (ps.get i).Solid) (hsj : (ps.get j).Solid) (room : Nat) :
    Means i (.looked j room (ps.read j room).1) ps (ps.read j room).2 := by
  have hcome := @read_comes_out _ _ room hsj
  generalize ps.read j room = out at hcome ⊢
  cases hcome with
  | closed reader => exact .of_idle (.of_read (by simp)) hs rfl Iff.rfl
  | nothing reader none => exact .of_idle (.of_read (by simp [none])) hs rfl Iff.rfl
  | waits reader some pending writer => exact .of_idle (.of_read (by simp)) hs rfl Iff.rfl
  | ended reader some pending writer =>
    by_cases hi : j = i
    · subst hi
      have hended : Ended ps j := ⟨lt_size_of_reader reader, writer, pending⟩
      constructor
      · exact hs
      · simp [Deed.accepted, Deed.delivered]
      · intro bytes count he
        cases he
      · simp
      · simp
      · exact fun _ _ => hended
      · exact id
    · refine .of_idle (.of_read ?_) hs rfl Iff.rfl
      exact fun he => absurd he hi
  | @got bytes p reader some filled taken =>
    have hsize : (ps.set j p).pipes.size = ps.pipes.size := size_set
    by_cases hi : j = i
    · subst hi
      have hget : (ps.set j p).get j = p := get_set (lt_size_of_reader reader)
      constructor
      · rw [hget]
        exact taken.solid
      · simp [hget, Deed.accepted, Deed.delivered, taken.pending]
      · intro bytes' count he
        cases he
      · simp [hget, hsize, taken.writer]
      · simp [hget, hsize, taken.reader]
      · intro room' hroom he
        cases he
        exact absurd rfl filled
      · -- Nothing can be taken where a stream has ended.
        intro h
        have hnone := taken.pending
        rw [h.pending] at hnone
        exact absurd (List.append_eq_nil_iff.1 hnone).1 filled
    · refine .of_idle (.of_read ?_) hs (get_set_of_ne (Ne.symm hi)) (by rw [hsize])
      exact fun he => absurd he hi

theorem means_dropWriter (hs : (ps.get i).Solid) :
    Means i (.gaveUpWriter j (ps.dropWriter j).1) ps (ps.dropWriter j).2 := by
  by_cases hw : (ps.get j).writer = true
  · have hheld : (ps.dropWriter j).1 = true := by rw [dropWriter, if_pos hw]
    by_cases hi : j = i
    · subst hi
      have hlt := lt_size_of_writer hw
      have hget := get_dropWriter hlt hw
      have hsize := @size_dropWriter ps j
      constructor
      · rw [hget]
        exact hs
      · simp [hget, Pipe.pending, Deed.accepted, Deed.delivered]
      · intro bytes count he
        cases he
      · simp [hget, hsize, hlt, hheld]
      · simp [hget, hsize]
      · intro room hroom he
        cases he
      · exact fun h => ⟨by rw [hsize]; exact hlt, by rw [hget], by rw [hget]; exact h.pending⟩
    · apply Means.of_idle _ hs (get_dropWriter_of_ne (Ne.symm hi)) (by rw [size_dropWriter])
      constructor <;> simp [Deed.accepted, Deed.delivered, hi]
  · have hkept : ps.dropWriter j = (false, ps) := by rw [dropWriter, if_neg hw]
    rw [hkept]
    apply Means.of_idle _ hs rfl Iff.rfl
    constructor <;> simp [Deed.accepted, Deed.delivered]

theorem means_dropReader (hs : (ps.get i).Solid) :
    Means i (.gaveUpReader j (ps.dropReader j).1) ps (ps.dropReader j).2 := by
  by_cases hr : (ps.get j).reader = true
  · have hheld : (ps.dropReader j).1 = true := by rw [dropReader, if_pos hr]
    by_cases hi : j = i
    · subst hi
      have hlt := lt_size_of_reader hr
      have hget := get_dropReader hlt hr
      have hsize := @size_dropReader ps j
      constructor
      · rw [hget]
        exact hs
      · simp [hget, Pipe.pending, Deed.accepted, Deed.delivered]
      · intro bytes count he
        cases he
      · simp [hget, hsize]
      · simp [hget, hsize, hlt, hheld]
      · intro room hroom he
        cases he
      · exact fun h => ⟨by rw [hsize]; exact hlt, by rw [hget]; exact h.writer,
          by rw [hget]; exact h.pending⟩
    · apply Means.of_idle _ hs (get_dropReader_of_ne (Ne.symm hi)) (by rw [size_dropReader])
      constructor <;> simp [Deed.accepted, Deed.delivered, hi]
  · have hkept : ps.dropReader j = (false, ps) := by rw [dropReader, if_neg hr]
    rw [hkept]
    apply Means.of_idle _ hs rfl Iff.rfl
    constructor <;> simp [Deed.accepted, Deed.delivered]

theorem means_act (hs : ∀ i, (ps.get i).Solid) (i : Nat) (a : Act) :
    Means i (a.on ps).1 ps (a.on ps).2 := by
  cases a with
  | create => exact means_create (hs i)
  | write j bytes => exact means_write (hs i) (hs j) bytes
  | read j room => exact means_read (hs i) (hs j) room
  | dropWriter j => exact means_dropWriter (hs i)
  | dropReader j => exact means_dropReader (hs i)

/-! ## What every history keeps -/

/-- What is known of a pipe from all that has been done. -/
structure Faithful (i : Nat) (log : List Deed) (ps : Pipes) : Prop where
  solid : (ps.get i).Solid
  conserved : delivered i log ++ (ps.get i).pending = accepted i log
  whole : ∀ {bytes count}, .wrote i bytes (some (.took count)) ∈ log → count = bytes.length
  writer : i < ps.pipes.size ∧ (ps.get i).writer = false ↔ .gaveUpWriter i true ∈ log
  reader : i < ps.pipes.size ∧ (ps.get i).reader = false ↔ .gaveUpReader i true ∈ log
  ended : ∀ {room}, 0 < room → .looked i room (.got []) ∈ log → Ended ps i

theorem faithful_new (i : Nat) : Faithful i [] {} := by
  have hget : get {} i = { writer := false, reader := false } := get_of_le (Nat.zero_le i)
  constructor <;> simp [hget, Pipe.Solid, Pipe.pending, accepted, delivered]

theorem Faithful.follow {d : Deed} (h : Faithful i log ps) (hd : Means i d ps ps') :
    Faithful i (log ++ [d]) ps' := by
  have hmem : ∀ {e : Deed}, e ∈ log ++ [d] ↔ e ∈ log ∨ d = e := by
    intro e
    rw [List.mem_append, List.mem_singleton, eq_comm]
  constructor
  · exact hd.solid
  · rw [accepted_concat, delivered_concat, List.append_assoc, hd.pending, ← List.append_assoc,
      h.conserved]
  · intro bytes count he
    rcases hmem.1 he with he | he
    · exact h.whole he
    · exact hd.whole he
  · rw [hmem, hd.writer, h.writer]
  · rw [hmem, hd.reader, h.reader]
  · intro room hroom he
    rcases hmem.1 he with he | he
    · exact hd.lasts (h.ended hroom he)
    · exact hd.finds hroom he

theorem History.keeps (h : History log ps) (i : Nat) : Faithful i log ps := by
  induction h generalizing i with
  | new => exact faithful_new i
  | act h a ih => exact (ih i).follow (means_act (fun j => (ih j).solid) i a)

/-! ## What comes of the next read and the next write -/

/-- A read of nothing gives nothing. A read with room waits or finds the end where nothing is
pending, as the writing end is held or not, and else takes some of it. -/
theorem read_truthful (hs : (ps.get i).Solid) (hr : (ps.get i).reader = true) :
    ps.read i 0 = (.got [], ps) ∧ ∀ room, 0 < room →
      ((ps.get i).pending = [] → (ps.get i).writer = true → ps.read i room = (.waits, ps)) ∧
      ((ps.get i).pending = [] → (ps.get i).writer = false → ps.read i room = (.got [], ps)) ∧
      ((ps.get i).pending ≠ [] → ∃ bytes ps', ps.read i room = (.got bytes, ps') ∧
        1 ≤ bytes.length ∧ bytes.length ≤ room ∧
        bytes ++ (ps'.get i).pending = (ps.get i).pending) := by
  constructor
  · have hcome := @read_comes_out _ _ 0 hs
    generalize ps.read i 0 = out at hcome ⊢
    cases hcome with
    | closed reader => rw [reader] at hr; cases hr
    | nothing reader none => rfl
    | waits reader some => omega
    | ended reader some => omega
    | got reader some => omega
  · intro room hroom
    have hcome := @read_comes_out _ _ room hs
    generalize ps.read i room = out at hcome ⊢
    cases hcome with
    | closed reader => rw [reader] at hr; cases hr
    | nothing reader none => omega
    | waits reader some pending writer => simp [pending, writer]
    | ended reader some pending writer => simp [pending, writer]
    | @got bytes p reader some filled taken =>
      have hget : (ps.set i p).get i = p := get_set (lt_size_of_reader reader)
      have hpending : (ps.get i).pending ≠ [] := by
        rw [← taken.pending]
        simp [filled]
      refine ⟨fun h => absurd h hpending, fun h => absurd h hpending, fun _ => ?_⟩
      refine ⟨bytes, _, rfl, List.length_pos_iff.2 filled, taken.fits, ?_⟩
      rw [hget]
      exact taken.pending

/-- An empty write is accepted and changes nothing. Any other joins what is pending, or fails and
changes nothing. -/
theorem write_truthful (hs : (ps.get i).Solid) (hw : (ps.get i).writer = true) :
    ps.write i [] = (some (.took 0), ps) ∧ ∀ bytes, bytes ≠ [] →
      ((ps.get i).reader = true → ∃ ps', ps.write i bytes = (some (.took bytes.length), ps') ∧
        (ps'.get i).pending = (ps.get i).pending ++ bytes) ∧
      ((ps.get i).reader = false → ∃ e : IoError, e.kind = .brokenPipe ∧
        ps.write i bytes = (some (.failed e), ps)) := by
  constructor
  · have hcome := @write_comes_out _ _ [] hs
    generalize ps.write i [] = out at hcome ⊢
    cases hcome with
    | closed writer => rw [writer] at hw; cases hw
    | nothing writer empty => rfl
    | broken writer reader filled => exact absurd rfl filled
    | took writer reader filled => exact absurd rfl filled
  · intro bytes hbytes
    have hcome := @write_comes_out _ _ bytes hs
    generalize ps.write i bytes = out at hcome ⊢
    cases hcome with
    | closed writer => rw [writer] at hw; cases hw
    | nothing writer empty => exact absurd empty hbytes
    | broken writer reader filled =>
      simp only [reader]
      exact ⟨fun h => absurd h Bool.false_ne_true, fun _ => ⟨_, rfl, rfl⟩⟩
    | @took p writer reader filled pending same solid =>
      have hget : (ps.set i p).get i = p := get_set (lt_size_of_writer writer)
      simp only [reader]
      refine ⟨fun _ => ⟨_, rfl, ?_⟩, fun h => absurd h.symm Bool.false_ne_true⟩
      rw [hget]
      exact pending

/-- In whatever order pipes are written to, read from and given up, what has been read from a
pipe and what is pending in it are what it has accepted, each accepted write whole. The end of its
stream is found only where the writing end is gone and all of that has been read. -/
theorem History.faithful (h : History log ps) (hi : i < ps.pipes.size) :
    delivered i log <+: accepted i log ∧
      (.gaveUpReader i true ∉ log → delivered i log ++ (ps.get i).pending = accepted i log) ∧
      (∀ bytes count, .wrote i bytes (some (.took count)) ∈ log → count = bytes.length) ∧
      (∀ room, 0 < room → .looked i room (.got []) ∈ log →
        .gaveUpWriter i true ∈ log ∧ delivered i log = accepted i log) ∧
      (.gaveUpReader i true ∉ log → ps.read i 0 = (.got [], ps) ∧ ∀ room, 0 < room →
        ((ps.get i).pending = [] → .gaveUpWriter i true ∉ log → ps.read i room = (.waits, ps)) ∧
        ((ps.get i).pending = [] → .gaveUpWriter i true ∈ log → ps.read i room = (.got [], ps)) ∧
        ((ps.get i).pending ≠ [] → ∃ bytes ps', ps.read i room = (.got bytes, ps') ∧
          1 ≤ bytes.length ∧ bytes.length ≤ room ∧
          bytes ++ (ps'.get i).pending = (ps.get i).pending)) ∧
      (.gaveUpWriter i true ∉ log → ps.write i [] = (some (.took 0), ps) ∧ ∀ bytes, bytes ≠ [] →
        (.gaveUpReader i true ∉ log → ∃ ps', ps.write i bytes = (some (.took bytes.length), ps') ∧
          (ps'.get i).pending = (ps.get i).pending ++ bytes) ∧
        (.gaveUpReader i true ∈ log → ∃ e : IoError, e.kind = .brokenPipe ∧
          ps.write i bytes = (some (.failed e), ps))) := by
  have hkept := h.keeps i
  have hgone : .gaveUpWriter i true ∈ log ↔ (ps.get i).writer = false := by
    rw [← hkept.writer]
    exact and_iff_right hi
  have hheld : .gaveUpWriter i true ∉ log ↔ (ps.get i).writer = true := by
    rw [hgone, Bool.not_eq_false]
  have hgone' : .gaveUpReader i true ∈ log ↔ (ps.get i).reader = false := by
    rw [← hkept.reader]
    exact and_iff_right hi
  have hheld' : .gaveUpReader i true ∉ log ↔ (ps.get i).reader = true := by
    rw [hgone', Bool.not_eq_false]
  refine ⟨⟨_, hkept.conserved⟩, fun _ => hkept.conserved, fun _ _ => hkept.whole, ?_, ?_, ?_⟩
  · intro room hroom hfound
    have hended := hkept.ended hroom hfound
    have hconserved := hkept.conserved
    rw [hended.pending, List.append_nil] at hconserved
    exact ⟨hgone.2 hended.writer, hconserved⟩
  · rw [hheld, hgone, hheld']
    exact read_truthful hkept.solid
  · rw [hheld, hgone', Bool.not_eq_false]
    exact write_truthful hkept.solid

/-- Three bytes are written, in two writes with an empty one between them, and two of them read. -/
theorem History.faithful_empty_write :
    ∃ log ps, History log ps ∧ 0 < ps.pipes.size ∧ .wrote 0 [] (some (.took 0)) ∈ log ∧
      .gaveUpReader 0 true ∉ log ∧ accepted 0 log = [1, 2, 3] ∧ delivered 0 log = [1, 2] ∧
      (ps.get 0).pending = [3] ∧ delivered 0 log ++ (ps.get 0).pending = accepted 0 log ∧
      ∃ bytes ps', ps.read 0 5 = (.got bytes, ps') ∧ 1 ≤ bytes.length ∧ bytes.length ≤ 5 := by
  obtain ⟨log, ps, h, hmade, hempty, hheld, haccepted, hdelivered, hpending⟩ :
      ∃ log ps, History log ps ∧ 0 < ps.pipes.size ∧ .wrote 0 [] (some (.took 0)) ∈ log ∧
        .gaveUpReader 0 true ∉ log ∧ accepted 0 log = [1, 2, 3] ∧ delivered 0 log = [1, 2] ∧
        (ps.get 0).pending = [3] := by
    have hreply : ((({} : Pipes).create.2.write 0 [1, 2]).2.write 0 []).1 = some (.took 0) := by
      decide
    refine ⟨_, _, ((((((History.new.act .create).act (.write 0 [1, 2])).act
      (.write 0 [])).act (.write 0 [3])).act (.read 0 1)).act (.read 0 4)), by decide, ?_, ?_,
      by decide, by decide, by decide⟩
    · simp [Act.on, hreply]
    · simp [Act.on]
  obtain ⟨-, hconserved, -, -, hread, -⟩ := h.faithful hmade
  have hsome : (ps.get 0).pending ≠ [] := by simp [hpending]
  obtain ⟨bytes, ps', hgot, hleast, hfits, -⟩ := ((hread hheld).2 5 (by decide)).2.2 hsome
  exact ⟨log, ps, h, hmade, hempty, hheld, haccepted, hdelivered, hpending, hconserved hheld, bytes,
    ps', hgot, hleast, hfits⟩

end Pipes

end SieveChain
