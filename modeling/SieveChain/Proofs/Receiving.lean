import SieveChain.Channel.Receive
import SieveChain.Proofs.Replies
import SieveChain.Proofs.Surroundings

/-!
# Receiving, however the bytes come

A script falls into segments: each goes up to where its stream ends or a read fails for good.
How the bytes of a segment are divided among chunks and reads, and where reads are interrupted,
does not matter. What receiving and draining bring is told by the segments alone: the complete
values of each in their order, and then how it ends.
-/

namespace SieveChain

open Wire

/-! ## Segments of a script -/

namespace Scripted

/-- A part of a script: its bytes, and the error that it stops with unless the stream ends
there. -/
structure Segment where
  bytes : List UInt8 := []
  failure : Option IoError := none
  deriving DecidableEq, Repr

/-- The segments of a script, when some bytes of the first have come before. Behind the last
item the stream has ended. -/
def segments (come : List UInt8) : List Item → List Segment
  | [] => [⟨come, none⟩]
  | .chunk bytes :: items => segments (come ++ bytes) items
  | .error e :: items =>
    if e.isInterrupted then segments come items else ⟨come, some e⟩ :: segments [] items
  | .ended :: items => ⟨come, none⟩ :: segments [] items

/-- What follows a segment. Behind the last one the stream is found ended again and again. -/
def behind : List Segment → List Segment
  | [] => [{}]
  | gs => gs

/-- Bytes that have come before belong to the first segment. -/
theorem segments_append (before come : List UInt8) (items : List Item) :
    ∃ g gs, segments come items = g :: gs ∧
      segments (before ++ come) items = { g with bytes := before ++ g.bytes } :: gs := by
  fun_induction segments come items with
  | case1 come => exact ⟨_, _, rfl, rfl⟩
  | case2 come bytes items ih =>
    obtain ⟨g, gs, hold, hnew⟩ := ih
    refine ⟨g, gs, hold, ?_⟩
    rw [segments, List.append_assoc, hnew]
  | case3 come e items hi ih =>
    obtain ⟨g, gs, hold, hnew⟩ := ih
    refine ⟨g, gs, hold, ?_⟩
    rw [segments, if_pos hi, hnew]
  | case4 come e items hi _ =>
    refine ⟨_, _, rfl, ?_⟩
    rw [segments, if_neg hi]
  | case5 come items _ => exact ⟨_, _, rfl, rfl⟩

theorem come_isPrefix {come : List UInt8} {items : List Item} {g : Segment} {gs : List Segment}
    (h : segments come items = g :: gs) : come <+: g.bytes := by
  obtain ⟨g', gs', -, hmine⟩ := segments_append come [] items
  rw [List.append_nil, h] at hmine
  obtain ⟨rfl, -⟩ := List.cons.inj hmine
  exact List.prefix_append _ _

theorem behind_segments (come : List UInt8) (items : List Item) :
    behind (segments come items) = segments come items := by
  obtain ⟨g, gs, h, -⟩ := segments_append [] come items
  rw [h, behind]
  exact List.cons_ne_nil g gs

/-- What a read makes of a script: an interruption changes nothing, bytes come to those of the
first segment, and an end or a failure is that of the first segment. -/
inductive Reads (items : List Item) : ReadReply → List Item → Prop
  | interrupted {e : IoError} {items' : List Item} (hi : e.isInterrupted = true)
      (h : ∀ come, segments come items = segments come items') :
      Reads items (.failed e) items'
  | failed {e : IoError} {items' : List Item} (hi : e.isInterrupted = false)
      (h : ∀ come, ∃ gs, segments come items = ⟨come, some e⟩ :: gs ∧
        segments [] items' = behind gs) :
      Reads items (.failed e) items'
  | ended {items' : List Item}
      (h : ∀ come, ∃ gs, segments come items = ⟨come, none⟩ :: gs ∧
        segments [] items' = behind gs) :
      Reads items (.got []) items'
  | bytes {b : UInt8} {bs : List UInt8} {items' : List Item}
      (h : ∀ come, segments come items = segments (come ++ b :: bs) items') :
      Reads items (.got (b :: bs)) items'

/-- A chunk that is not empty. -/
def Item.hasBytes : Item → Bool
  | .chunk (_ :: _) => true
  | _ => false

/-- The items that reads of at most so many bytes get to see. Reads of no bytes never get past
a chunk: they find the stream ended there. -/
def reachable (most : Nat) (items : List Item) : List Item :=
  if most = 0 then items.takeWhile (!·.hasBytes) else items

theorem reachable_cons {item : Item} (most : Nat) (h : item.hasBytes = false)
    (items : List Item) : reachable most (item :: items) = item :: reachable most items := by
  unfold reachable
  split
  · rw [List.takeWhile_cons_of_pos (by simp [h])]
  · rfl

theorem Reads.of_reachable_nil {most : Nat} {items : List Item} {reply : ReadReply}
    {items' : List Item} (h : Reads (reachable most items) reply items') :
    Reads (reachable most (.chunk [] :: items)) reply items' := by
  have hskip : ∀ come, segments come (reachable most (.chunk [] :: items)) =
      segments come (reachable most items) := by
    intro come
    rw [reachable_cons most rfl, segments, List.append_nil]
  cases h with
  | interrupted hi h => exact .interrupted hi fun come => (hskip come).trans (h come)
  | failed hi h => exact .failed hi fun come => by rw [hskip]; exact h come
  | ended h => exact .ended fun come => by rw [hskip]; exact h come
  | bytes h => exact .bytes fun come => (hskip come).trans (h come)

theorem serve_reads (most : Nat) (items : List Item) :
    Reads (reachable most items) (serve most items).1 (reachable most (serve most items).2) := by
  fun_induction serve most items with
  | case1 =>
    have hnil : reachable most [] = [] := by simp [reachable]
    rw [hnil]
    exact .ended fun come => ⟨[], rfl, rfl⟩
  | case2 items ih => exact ih.of_reachable_nil
  | case3 b bs items =>
    cases most with
    | zero => exact .ended fun come => ⟨[], rfl, rfl⟩
    | succ n =>
      refine .bytes fun come => ?_
      simp [reachable, segments]
  | case4 e items =>
    cases hi : e.isInterrupted with
    | true =>
      refine .interrupted hi fun come => ?_
      rw [reachable_cons most rfl, segments, if_pos hi]
    | false =>
      refine .failed hi fun come => ⟨_, ?_, (behind_segments _ _).symm⟩
      rw [reachable_cons most rfl, segments, if_neg (by simp [hi])]
  | case5 items =>
    refine .ended fun come => ⟨_, ?_, (behind_segments _ _).symm⟩
    rw [reachable_cons most rfl, segments]

namespace Source

/-- The items of a source's script that its reads get to see. -/
def script (s : Source) : List Item := reachable (s.most 1) s.items

theorem most_eq_zero_iff {s : Source} {room : Nat} (hroom : 0 < room) :
    s.most room = 0 ↔ s.most 1 = 0 := by
  unfold most
  split
  · omega
  · omega

theorem read_reads (s : Source) {room : Nat} (hroom : 0 < room) :
    Reads s.script (s.read room).1 (s.read room).2.script := by
  have hsame : ∀ items, reachable (s.most room) items = reachable (s.most 1) items := by
    intro items
    simp only [reachable, most_eq_zero_iff hroom]
  have h := serve_reads (s.most room) s.items
  rw [hsame, hsame] at h
  exact h

end Source

end Scripted

/-! ## Receipts -/

def Receipt.isValue : Receipt → Bool
  | .value _ => true
  | _ => false

/-- What follows a receipt. Behind the last one the stream is found ended again and again. -/
def thereafter : List Receipt → List Receipt
  | [] => [.ended 0]
  | told => told

namespace Scripted

/-- How a segment ends. What is left over of an incomplete value is dropped. -/
def Segment.closing (g : Segment) : Receipt :=
  match g.failure with
  | none => .ended (leftover g.bytes).length
  | some e => .failed e

/-- What receiving makes of a segment: its complete values, and then how it ends. -/
def Segment.receipts (g : Segment) : List Receipt :=
  (values g.bytes).map .value ++ [g.closing]

/-- The receipts of a script, when some bytes of its first segment have come before. -/
def receipts (come : List UInt8) (items : List Item) : List Receipt :=
  (segments come items).flatMap Segment.receipts

theorem receipts_encode (v : Int32) (come : List UInt8) (items : List Item) :
    receipts (encode v ++ come) items = .value v :: receipts come items := by
  obtain ⟨g, gs, hold, hnew⟩ := segments_append (encode v) come items
  have hleft : leftover (encode v ++ g.bytes) = leftover g.bytes := rfl
  simp only [receipts, hold, hnew, List.flatMap_cons, Segment.receipts, Segment.closing,
    values_encode_append, hleft, List.map_cons, List.cons_append]

/-- Where no value is complete, only the end of a segment is told. -/
theorem receipts_torn {come : List UInt8} {items : List Item} {failure : Option IoError}
    {gs : List Segment} (h : segments come items = ⟨come, failure⟩ :: gs)
    (hl : come.length < width) :
    receipts come items = Segment.closing ⟨come, failure⟩ :: gs.flatMap Segment.receipts := by
  rw [receipts, h, List.flatMap_cons, Segment.receipts, values_eq_nil hl]
  rfl

theorem closing_torn {come : List UInt8} (hl : come.length < width) :
    Segment.closing ⟨come, none⟩ = .ended come.length := by
  match come, hl with
  | [], _ => rfl
  | [_], _ => rfl
  | [_, _], _ => rfl
  | [_, _, _], _ => rfl

theorem flatMap_behind (gs : List Segment) :
    (behind gs).flatMap Segment.receipts = thereafter (gs.flatMap Segment.receipts) := by
  cases gs with
  | nil => rfl
  | cons g gs =>
    rw [behind, thereafter]
    · simp [Segment.receipts]
    · exact List.cons_ne_nil g gs

theorem thereafter_receipts (come : List UInt8) (items : List Item) :
    thereafter (receipts come items) = receipts come items := by
  rw [receipts, ← flatMap_behind, behind_segments]

end Scripted

/-! ## Calls on an intake -/

namespace Intake

open Scripted

/-- Receiving takes the first of the receipts to come. -/
theorem receive_told {r : Intake} (s : Source) (hh : r.held.length < width) :
    ∃ rest, receipts r.held s.script = (r.receive s).1 :: rest ∧
      receipts [] (r.receive s).2.2.script = thereafter rest ∧
      (r.receive s).2.1 = ⟨[], r.received + (r.receive s).1.isValue.toNat⟩ := by
  fun_induction receive r s with
  | case1 r s r' receipt hr =>
    have hreads := s.read_reads (room_pos hh)
    have hcame := absorb_came (s.read_fits r.room) hh
    rw [hr] at hcame
    generalize s.read r.room = answer at hreads hcame ⊢
    obtain ⟨reply, s'⟩ := answer
    dsimp only at hreads hcame ⊢
    cases hcame with
    | failed hi =>
      cases hreads with
      | interrupted hi' => rw [hi] at hi'; cases hi'
      | failed _ h =>
        obtain ⟨gs, hold, hnew⟩ := h r.held
        refine ⟨gs.flatMap Segment.receipts, receipts_torn hold hh, ?_, rfl⟩
        rw [receipts, hnew, flatMap_behind]
    | ended =>
      cases hreads with
      | ended h =>
        obtain ⟨gs, hold, hnew⟩ := h r.held
        refine ⟨gs.flatMap Segment.receipts, ?_, ?_, rfl⟩
        · rw [receipts_torn hold hh, closing_torn hh]
        · rw [receipts, hnew, flatMap_behind]
    | @value b bs v hv =>
      cases hreads with
      | bytes h =>
        refine ⟨receipts [] s'.script, ?_, (thereafter_receipts _ _).symm, rfl⟩
        rw [receipts, h, hv, ← receipts, ← List.append_nil (encode v), receipts_encode]
  | case2 r s r' hr ih =>
    have hreads := s.read_reads (room_pos hh)
    have hcame := absorb_came (s.read_fits r.room) hh
    rw [hr] at hcame
    generalize s.read r.room = answer at hreads hcame ih ⊢
    obtain ⟨reply, s'⟩ := answer
    dsimp only at hreads hcame ih ⊢
    cases hcame with
    | interrupted hi =>
      cases hreads with
      | interrupted _ h =>
        rw [receipts, h, ← receipts]
        exact ih hh
      | failed hi' => rw [hi] at hi'; cases hi'
    | more hl =>
      cases hreads with
      | bytes h =>
        rw [receipts, h, ← receipts]
        exact ih hl

/-- How draining comes out by the receipt that stops it. -/
def drained (skipped : Nat) : Option Receipt → Drained
  | some (.failed e) => .failed e
  | some (.ended torn) => .ended skipped torn
  | _ => .ended skipped 0

theorem takeWhile_thereafter (told : List Receipt) :
    (thereafter told).takeWhile Receipt.isValue = told.takeWhile Receipt.isValue := by
  cases told <;> rfl

theorem drained_thereafter (skipped : Nat) (told : List Receipt) :
    drained skipped ((thereafter told).dropWhile Receipt.isValue).head? =
      drained skipped (told.dropWhile Receipt.isValue).head? := by
  cases told <;> rfl

theorem tail_thereafter (told : List Receipt) :
    ((thereafter told).dropWhile Receipt.isValue).tail =
      (told.dropWhile Receipt.isValue).tail := by
  cases told <;> rfl

/-- Draining takes the receipts to come up to the first that is no value, and counts those
skipped even if it fails. -/
theorem drain_told {r : Intake} (s : Source) (skipped : Nat) (hh : r.held.length < width) :
    let told := receipts r.held s.script
    let values := told.takeWhile Receipt.isValue
    let stop := told.dropWhile Receipt.isValue
    (r.drain s skipped).1 = drained (skipped + values.length) stop.head? ∧
      receipts [] (r.drain s skipped).2.2.script = thereafter stop.tail ∧
      (r.drain s skipped).2.1 = ⟨[], r.received + values.length⟩ := by
  fun_induction drain r s skipped with
  | case1 r s skipped v r' s' h ih =>
    obtain ⟨rest, hold, hnew, hr⟩ := receive_told s hh
    rw [h] at hold hnew hr
    dsimp only at hold hnew hr
    subst hr
    have hvalue : (Receipt.value v).isValue = true := rfl
    have ih := ih width_pos
    dsimp only at ih ⊢
    rw [hnew, takeWhile_thereafter, drained_thereafter, tail_thereafter] at ih
    obtain ⟨hdrained, hscript, hintake⟩ := ih
    rw [hold, List.takeWhile_cons_of_pos hvalue, List.dropWhile_cons_of_pos hvalue,
      List.length_cons]
    refine ⟨?_, hscript, ?_⟩
    · rw [hdrained]
      congr 1
      omega
    · rw [hintake, hvalue]
      congr 1
      show r.received + 1 + _ = _
      omega
  | case2 r s skipped torn r' s' h =>
    obtain ⟨rest, hold, hnew, hr⟩ := receive_told s hh
    rw [h] at hold hnew hr
    dsimp only at hold ⊢
    rw [hold]
    exact ⟨rfl, hnew, hr⟩
  | case3 r s skipped e r' s' h =>
    obtain ⟨rest, hold, hnew, hr⟩ := receive_told s hh
    rw [h] at hold hnew hr
    dsimp only at hold ⊢
    rw [hold]
    exact ⟨rfl, hnew, hr⟩

/-- A call on an intake. -/
inductive Call
  | receive
  | drain

/-- What a call answers. -/
inductive Answer
  | received (receipt : Receipt)
  | drained (result : Drained)

/-- Calls one after the other: what each of them answers, and how many values the intake has
received by then. -/
def serve : List Call → Intake → Source → List (Answer × Nat)
  | [], _, _ => []
  | .receive :: calls, r, s =>
    let (receipt, r, s) := r.receive s
    (.received receipt, r.received) :: serve calls r s
  | .drain :: calls, r, s =>
    let (result, r, s) := r.drain s 0
    (.drained result, r.received) :: serve calls r s

/-- What calls answer by the receipts to come, when so many values have been received. A call
to receive takes one receipt; draining skips values and takes the receipt behind them. -/
def foretell : List Call → List Receipt → Nat → List (Answer × Nat)
  | [], _, _ => []
  | .receive :: calls, told, n =>
    let receipt := told.headD (.ended 0)
    let n := n + receipt.isValue.toNat
    (.received receipt, n) :: foretell calls told.tail n
  | .drain :: calls, told, n =>
    let skipped := (told.takeWhile Receipt.isValue).length
    let stop := told.dropWhile Receipt.isValue
    let n := n + skipped
    (.drained (drained skipped stop.head?), n) :: foretell calls stop.tail n

theorem foretell_thereafter (calls : List Call) (told : List Receipt) (n : Nat) :
    foretell calls (thereafter told) n = foretell calls told n := by
  cases told with
  | cons receipt told => rfl
  | nil =>
    match calls with
    | [] => rfl
    | .receive :: calls => rfl
    | .drain :: calls => rfl

theorem serve_told {r : Intake} {s : Source} (hh : r.held.length < width) (calls : List Call) :
    serve calls r s = foretell calls (receipts r.held s.script) r.received := by
  induction calls generalizing r s with
  | nil => rfl
  | cons call calls ih =>
    cases call with
    | receive =>
      obtain ⟨rest, hold, hnew, hr⟩ := receive_told s hh
      rw [serve, hold, foretell, List.headD_cons, List.tail_cons]
      generalize r.receive s = answer at hnew hr ⊢
      obtain ⟨receipt, r', s'⟩ := answer
      dsimp only at hnew hr ⊢
      subst hr
      rw [ih (r := ⟨[], _⟩) width_pos, hnew, foretell_thereafter]
    | drain =>
      obtain ⟨hdrained, hnew, hr⟩ := drain_told s 0 hh
      rw [serve, foretell]
      rw [Nat.zero_add] at hdrained
      generalize r.drain s 0 = answer at hdrained hnew hr ⊢
      obtain ⟨result, r', s'⟩ := answer
      dsimp only at hdrained hnew hr ⊢
      subst hr
      rw [ih (r := ⟨[], _⟩) width_pos, hnew, foretell_thereafter, hdrained]

/-- Whatever calls are made on a fresh intake, the segments of the script tell what they
answer: segment by segment the complete values, and once how the segment ends. -/
theorem serve_eq_foretell (calls : List Call) (s : Source) :
    serve calls {} s = foretell calls (receipts [] s.script) 0 :=
  serve_told (r := {}) width_pos calls

example :
    receipts []
        [.chunk [2, 0], .error ⟨.interrupted, none⟩, .chunk [0, 0, 7], .error ⟨.other, none⟩,
          .chunk [3, 0, 0, 0]] =
      [.value 2, .failed ⟨.other, none⟩, .value 3, .ended 0] := by
  decide

end Intake

end SieveChain
