import SieveChain.Fault.Io

/-!
# Scripted sources

A byte source that serves its script: chunks of bytes, errors and ends of stream.
A read never crosses from one chunk into the next, and a chunk is served over as
many reads as it takes. Behind the last item every read finds the stream ended.
-/

namespace SieveChain.Scripted

/-- One item of a source's script. -/
inductive Item
  | chunk (bytes : List UInt8)
  | error (e : IoError)
  | ended

/-- The reply to a read of at most so many bytes, and the items that remain. -/
def serve (most : Nat) : List Item → ReadReply × List Item
  | [] => (.got [], [])
  | .chunk [] :: rest => serve most rest
  | .chunk (b :: bs) :: rest =>
    (.got ((b :: bs).take most), .chunk ((b :: bs).drop most) :: rest)
  | .error e :: rest => (.failed e, rest)
  | .ended :: rest => (.got [], rest)

/-- How much a script still holds: every byte counts, and so does every item. -/
def content : List Item → Nat
  | [] => 0
  | .chunk bytes :: rest => bytes.length + 1 + content rest
  | _ :: rest => 1 + content rest

/-- A read that brings bytes, or fails, uses up some of the script. -/
theorem content_serve {most : Nat} {items items' : List Item} {reply : ReadReply}
    (h : serve most items = (reply, items')) (hr : reply ≠ .got []) :
    content items' < content items := by
  fun_induction serve most items with
  | case1 => simp at h; exact absurd h.1.symm hr
  | case2 rest ih => have := ih h; simp only [content]; omega
  | case3 b bs rest =>
    simp only [Prod.mk.injEq] at h
    obtain ⟨rfl, rfl⟩ := h
    cases most with
    | zero => simp at hr
    | succ n => simp only [content, List.drop_succ_cons, List.length_drop, List.length_cons]; omega
  | case4 e rest =>
    simp only [Prod.mk.injEq] at h
    obtain ⟨-, rfl⟩ := h
    simp only [content]; omega
  | case5 rest =>
    simp only [Prod.mk.injEq] at h
    exact absurd h.1.symm hr

/-- A byte source: its script, and the most bytes that one read gives. -/
structure Source where
  items : List Item := []
  perRead : Option Nat := none

namespace Source

def most (s : Source) (room : Nat) : Nat :=
  match s.perRead with
  | none => room
  | some m => min room m

def read (s : Source) (room : Nat) : ReadReply × Source :=
  match serve (s.most room) s.items with
  | (reply, items) => (reply, { s with items })

def remaining (s : Source) : Nat := content s.items

theorem remaining_read {s s' : Source} {room : Nat} {reply : ReadReply}
    (h : s.read room = (reply, s')) (hr : reply ≠ .got []) : s'.remaining < s.remaining := by
  simp only [read, Prod.mk.injEq] at h
  obtain ⟨rfl, rfl⟩ := h
  exact content_serve rfl hr

end Source

end SieveChain.Scripted
