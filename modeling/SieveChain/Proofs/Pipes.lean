import SieveChain.Channel.Pipe
import SieveChain.Proofs.Account

/-!
# What pipes hold

A pipe hands on what has been written to it: a read takes from the front of what is
pending, a write adds to its end, and no end of the stream is found before the writing end
is gone and nothing is pending.
-/

namespace SieveChain

namespace Pipe

/-- No chunk waiting in a pipe is empty, so that no read takes one for the end. -/
def Solid (p : Pipe) : Prop := ∀ chunk ∈ p.queue, chunk ≠ []

/-- How one read from a pipe comes out. -/
structure Got (p : Pipe) (room : Nat) (bytes : List UInt8) (p' : Pipe) : Prop where
  fits : bytes.length ≤ room
  pending : bytes ++ p'.pending = p.pending
  ended : bytes = [] → p.writer = false ∧ p.pending = []
  writer : p'.writer = p.writer
  reader : p'.reader = p.reader
  solid : p'.Solid

theorem read_got {p p' : Pipe} {room : Nat} {bytes : List UInt8} (hs : p.Solid)
    (hroom : 0 < room) (h : p.read room = (some bytes, p')) : p.Got room bytes p' := by
  obtain ⟨current, queue, writer, reader⟩ := p
  have hne : room ≠ 0 := Nat.ne_of_gt hroom
  have taken : ∀ chunk : List UInt8, chunk ≠ [] → chunk.take room ≠ [] := by
    intro chunk hchunk htake
    rcases List.take_eq_nil_iff.1 htake with hz | hz
    · exact hne hz
    · exact hchunk hz
  rw [read, if_neg hne] at h
  split at h
  · next hc hq =>
    dsimp only at hc hq
    subst hc hq
    dsimp only at h
    cases writer with
    | true => cases h
    | false =>
      cases h
      exact ⟨Nat.zero_le _, rfl, fun _ => ⟨rfl, rfl⟩, rfl, rfl, hs⟩
  · next chunk rest hc hq =>
    dsimp only at hc hq
    subst hc hq
    cases h
    refine ⟨?_, ?_, ?_, rfl, rfl, fun c hc => hs c (List.mem_cons_of_mem _ hc)⟩
    · rw [List.length_take]
      exact Nat.min_le_left _ _
    · simp only [pending, List.nil_append, List.flatten_cons]
      rw [← List.append_assoc, List.take_append_drop]
    · exact fun he => absurd he (taken chunk (hs chunk List.mem_cons_self))
  · next current' queue' hnil hcons =>
    cases h
    have hcurrent : current ≠ [] := by
      intro hz
      cases queue with
      | nil => exact hnil hz rfl
      | cons chunk rest => exact hcons chunk rest hz rfl
    refine ⟨?_, ?_, ?_, rfl, rfl, hs⟩
    · rw [List.length_take]
      exact Nat.min_le_left _ _
    · simp only [pending]
      rw [← List.append_assoc, List.take_append_drop]
    · exact fun he => absurd he (taken current hcurrent)

/-- A read waits only while nothing is pending and there is a writer. -/
theorem read_waits {p p' : Pipe} {room : Nat} (hroom : 0 < room) (h : p.read room = (none, p')) :
    p.pending = [] ∧ p.writer = true := by
  obtain ⟨current, queue, writer, reader⟩ := p
  rw [read, if_neg (Nat.ne_of_gt hroom)] at h
  split at h
  · next hc hq =>
    dsimp only at hc hq
    subst hc hq
    cases writer with
    | true => exact ⟨rfl, rfl⟩
    | false => cases h
  · cases h
  · cases h

/-- What can be written to a pipe that is read joins what is pending. -/
theorem write_took {p : Pipe} {bytes : List UInt8} (hs : p.Solid) (hr : p.reader = true)
    (hne : bytes ≠ []) :
    ∃ p', p.write bytes = (.took bytes.length, p') ∧ p'.pending = p.pending ++ bytes ∧
      p'.writer = p.writer ∧ p'.reader = p.reader ∧ p'.Solid := by
  have hempty : bytes.isEmpty = false := by
    rw [List.isEmpty_eq_false_iff]
    exact hne
  refine ⟨{ p with queue := p.queue ++ [bytes] }, ?_, ?_, rfl, rfl, ?_⟩
  · rw [write, hempty, hr]
    rfl
  · simp only [pending, List.flatten_append, List.flatten_singleton, List.append_assoc]
  · intro chunk hchunk
    rcases List.mem_append.1 hchunk with hchunk | hchunk
    · exact hs chunk hchunk
    · rw [List.mem_singleton.1 hchunk]
      exact hne

end Pipe

namespace Pipes

variable {ps : Pipes} {i j : Nat} {p : Pipe}

/-- A pipe that has not been made is held at neither end, and nothing is pending in it. -/
theorem get_of_le (h : ps.pipes.size ≤ i) : ps.get i = { writer := false, reader := false } := by
  rw [get, Array.getElem?_eq_none h]
  rfl

theorem get_set (hi : i < ps.pipes.size) : (ps.set i p).get i = p := by
  rw [get, set, Array.set!_eq_setIfInBounds, Array.getElem?_setIfInBounds_self_of_lt hi]
  rfl

theorem get_set_of_ne (h : j ≠ i) : (ps.set i p).get j = ps.get j := by
  rw [get, set, Array.set!_eq_setIfInBounds, Array.getElem?_setIfInBounds_ne h.symm]
  rfl

theorem size_set : (ps.set i p).pipes.size = ps.pipes.size := by
  rw [set, Array.set!_eq_setIfInBounds, Array.size_setIfInBounds]

theorem get_create : ps.create.2.get ps.pipes.size = {} := by
  rw [get, create, Array.getElem?_push_size]
  rfl

theorem get_create_of_lt (h : j < ps.pipes.size) : ps.create.2.get j = ps.get j := by
  rw [get, create, Array.getElem?_push_lt h, get, Array.getElem?_eq_getElem h]

theorem size_create : ps.create.2.pipes.size = ps.pipes.size + 1 := by
  rw [create, Array.size_push]

theorem get_dropWriter (hi : i < ps.pipes.size) (hw : (ps.get i).writer = true) :
    (ps.dropWriter i).2.get i = { ps.get i with writer := false } := by
  rw [dropWriter, if_pos hw]
  exact get_set hi

theorem get_dropWriter_of_ne (h : j ≠ i) : (ps.dropWriter i).2.get j = ps.get j := by
  rw [dropWriter]
  split
  · exact get_set_of_ne h
  · rfl

theorem size_dropWriter : (ps.dropWriter i).2.pipes.size = ps.pipes.size := by
  rw [dropWriter]
  split
  · exact size_set
  · rfl

theorem get_dropReader (hi : i < ps.pipes.size) (hr : (ps.get i).reader = true) :
    (ps.dropReader i).2.get i = { ps.get i with reader := false } := by
  rw [dropReader, if_pos hr]
  exact get_set hi

theorem get_dropReader_of_ne (h : j ≠ i) : (ps.dropReader i).2.get j = ps.get j := by
  rw [dropReader]
  split
  · exact get_set_of_ne h
  · rfl

theorem size_dropReader : (ps.dropReader i).2.pipes.size = ps.pipes.size := by
  rw [dropReader]
  split
  · exact size_set
  · rfl

end Pipes

end SieveChain
