import SieveChain.Feeder
import SieveChain.Proofs.Replies
import SieveChain.Proofs.Sieving

/-!
# Accounts of feeders

A feeder sends the values of its range in order. As long as all goes well, what it has
sent and what its outbox still holds are together the first values of the range, and the
result counts all of them. After a failure the account still never holds anything else.
-/

namespace SieveChain

open Wire

namespace Candidates

/-- The value at a place of a range. -/
def value (c : Candidates) (i : Nat) : Int32 := Int32.ofInt (c.start.toInt + Int.ofNat i)

/-- The first values of a range. -/
def firstValues (c : Candidates) (k : Nat) : List Int32 := (List.range k).map c.value

theorem value_zero (c : Candidates) : c.value 0 = c.start := by
  have hz : c.start.toInt + Int.ofNat 0 = c.start.toInt := Int.add_zero _
  rw [value, hz, Int32.ofInt_toInt]

theorem value_succ (c : Candidates) (k : Nat) : c.value (k + 1) = c.value k + 1 := by
  have hs : c.start.toInt + Int.ofNat (k + 1) = c.start.toInt + Int.ofNat k + 1 := by
    rw [Int.add_assoc]
    rfl
  rw [value, value, hs, Int32.ofInt_add]
  rfl

theorem firstValues_succ (c : Candidates) (k : Nat) :
    c.firstValues (k + 1) = c.firstValues k ++ [c.value k] := by
  rw [firstValues, List.range_succ, List.map_append]
  rfl

theorem firstValues_count (c : Candidates) : c.firstValues c.count = c.values := rfl

theorem firstValues_mono (c : Candidates) {k m : Nat} (h : k ≤ m) :
    c.firstValues k <+: c.firstValues m := by
  obtain ⟨n, rfl⟩ := Nat.exists_eq_add_of_le h
  rw [firstValues, firstValues, List.range_add, List.map_append]
  exact List.prefix_append _ _

end Candidates

namespace Feeder

variable {c : Candidates} {a : Account} {e : Option Event}

/-- A feeder at work: what it has sent and what it holds back are together the first values
of its range. -/
structure Feeding (c : Candidates) (a : Account) (child : Child) (o : Outbox) (todo : Nat)
    (next : Int32) : Prop extends a.Holding where
  launches : a.launches = 1
  child : a.child = some child
  smooth : a.smooth = true
  next : next = c.value o.taken
  taken : o.taken + todo = c.count
  sent : a.sent ++ o.bytes = encodeAll (c.firstValues o.taken)

/-- A feeder that has sent all its values. -/
structure Fed (c : Candidates) (a : Account) (child : Child) : Prop where
  launches : a.launches = 1
  child : a.child = some child
  smooth : a.smooth = true
  sent : a.sent = encodeAll c.values
  left : a.left = false

/-- What a failure has left of a feeder with a child. -/
structure Torn (c : Candidates) (a : Account) (child : Child) (heldBack : List UInt8) :
    Prop where
  launches : a.launches = 1
  child : a.child = some child
  smooth : a.smooth = false
  sent : a.sent ++ heldBack <+: encodeAll c.values
  left : a.left = false

/-- The tasks of a feeder, and its account at each of them. -/
inductive Stance (c : Candidates) (a : Account) : Task → Prop
  | launch (h : a.Bare) (hn : a.launches = 0) (hs : a.smooth = true) (hl : a.left = false) :
      Stance c a .launch
  | feed {child : Child} {o : Outbox} {todo : Nat} {next : Int32}
      (h : Feeding c a child o todo next) : Stance c a (.feed child o todo next)
  | makeRoom {child : Child} {o : Outbox} {todo : Nat} {next : Int32}
      (h : Feeding c a child o todo next) (hne : o.bytes ≠ []) :
      Stance c a (.makeRoom child o todo next)
  | close {child : Child} {o : Outbox} {next : Int32} (h : Feeding c a child o 0 next)
      (hne : o.bytes ≠ []) : Stance c a (.close child o)
  | shut {child : Child} (h : Fed c a child) (hs : a.shut = false) (hr : a.reaped = false) :
      Stance c a (.shut child (.ok c.count))
  | reap {child : Child} (h : Fed c a child) (hs : a.shut = true) (hr : a.reaped = false) :
      Stance c a (.reap child (.ok c.count))
  | done {child : Child} (h : Fed c a child) (hs : a.shut = true) (hr : a.reaped = true) :
      Stance c a (.finished (.ok c.count))
  | emptyTorn {child : Child} {o : Outbox} {f : Fault} (h : Torn c a child o.bytes)
      (hs : a.shut = false) (hr : a.reaped = false) (hne : o.bytes ≠ []) :
      Stance c a (.empty child o f)
  | shutTorn {child : Child} {f : Fault} (h : Torn c a child []) (hs : a.shut = false)
      (hr : a.reaped = false) : Stance c a (.shut child (.error f))
  | reapTorn {child : Child} {f : Fault} (h : Torn c a child []) (hs : a.shut = true)
      (hr : a.reaped = false) : Stance c a (.reap child (.error f))
  | failed {child : Child} {f : Fault} (h : Torn c a child []) (hs : a.shut = true)
      (hr : a.reaped = true) : Stance c a (.finished (.error f))
  | refused {f : Fault} (h : a.Bare) (hn : a.launches = 1) (hs : a.smooth = false)
      (hl : a.left = false) : Stance c a (.finished (.error f))

/-- An account is that of a run of a feeder over a range. -/
def Run.Accords (c : Candidates) (a : Account) (r : Run) : Prop :=
  r.candidates = c ∧ Stance c a r.task

/-! ## Every operation keeps the account -/

theorem Torn.drop {child : Child} {heldBack : List UInt8} (h : Torn c a child heldBack) :
    Torn c a child [] :=
  { h with
    sent := by
      rw [List.append_nil]
      exact (List.prefix_append _ _).trans h.sent }

theorem Torn.send {child : Child} {bytes heldBack left : List UInt8}
    (h : Torn c a child heldBack) (hb : bytes ++ left = heldBack) :
    Torn c { a with sent := a.sent ++ bytes } child left :=
  { h with sent := by rw [List.append_assoc, hb]; exact h.sent }

theorem Feeding.torn {child : Child} {o : Outbox} {todo : Nat} {next : Int32}
    (h : Feeding c a child o todo next) : Torn c { a with smooth := false } child o.bytes where
  launches := h.launches
  child := h.child
  smooth := rfl
  sent := by
    show a.sent ++ o.bytes <+: _
    rw [h.sent, ← c.firstValues_count]
    exact encodeAll_mono (c.firstValues_mono (by have := h.taken; omega))
  left := h.left

theorem Feeding.put {child : Child} {o : Outbox} {todo : Nat} {next : Int32}
    (h : Feeding c a child o (todo + 1) next) : Feeding c a child (o.put next) todo (next + 1) :=
  { h with
    next := by rw [h.next]; exact (c.value_succ _).symm
    taken := by have := h.taken; dsimp only [Outbox.put]; omega
    sent := by
      have ht : (o.put next).taken = o.taken + 1 := rfl
      rw [Outbox.bytes_put, ← List.append_assoc, h.sent, ht, c.firstValues_succ, h.next,
        encodeAll_append, encodeAll_cons, encodeAll_nil, List.append_nil] }

theorem Feeding.send {child : Child} {o o' : Outbox} {todo : Nat} {next : Int32}
    {bytes : List UInt8} (h : Feeding c a child o todo next)
    (hb : bytes ++ o'.bytes = o.bytes) (ht : o'.taken = o.taken) :
    Feeding c { a with sent := a.sent ++ bytes } child o' todo next :=
  { h with
    next := by rw [ht]; exact h.next
    taken := by rw [ht]; exact h.taken
    sent := by
      show a.sent ++ bytes ++ o'.bytes = _
      rw [List.append_assoc, hb, ht, h.sent] }

theorem Feeding.fed {child : Child} {o : Outbox} {next : Int32}
    (h : Feeding c a child o 0 next) (hb : o.bytes = []) :
    Fed c a child ∧ o.taken = c.count := by
  have ht : o.taken = c.count := h.taken
  refine ⟨⟨h.launches, h.child, h.smooth, ?_, h.left⟩, ht⟩
  have hs := h.sent
  rwa [hb, List.append_nil, ht, c.firstValues_count] at hs

/-- Filling the outbox takes values as long as there is room for them. -/
theorem Feeding.fill {child : Child} {o : Outbox} {todo : Nat} {next : Int32}
    (h : Feeding c a child o todo next) :
    Feeding c a child (Run.fill todo next o).2.2 (Run.fill todo next o).1
        (Run.fill todo next o).2.1 ∧
      ((Run.fill todo next o).1 ≠ 0 → (Run.fill todo next o).2.2.hasRoom = false) ∧
      8 * (Run.fill todo next o).1 + 2 * (Run.fill todo next o).2.2.size =
        8 * todo + 2 * o.size := by
  fun_induction Run.fill todo next o with
  | case1 next o => exact ⟨h, fun hn => absurd rfl hn, rfl⟩
  | case2 next o todo hroom ih =>
    obtain ⟨h', hfull, heq⟩ := ih h.put
    refine ⟨h', hfull, heq.trans ?_⟩
    dsimp only [Outbox.put, width]
    omega
  | case3 next o todo hroom => exact ⟨h, fun _ => Bool.eq_false_iff.2 hroom, rfl⟩

theorem Stance.feed_step {r : Run} {child : Child} {o : Outbox} {todo : Nat} {next : Int32}
    (h : Feeding c a child o todo next) : Stance c a (r.feed child o todo next).task := by
  obtain ⟨h', hfull, -⟩ := h.fill
  unfold Run.feed
  split
  · next v o' hf =>
    rw [hf] at h'
    split
    · next he =>
      obtain ⟨hfed, ht⟩ := h'.fed (Outbox.isEmpty_iff.1 he)
      dsimp only at ht
      rw [ht]
      exact .shut hfed h'.shut h'.reaped
    · next he => exact .close h' (Outbox.bytes_ne_nil (Bool.eq_false_iff.2 he))
  · next todo' v o' hf =>
    rw [hf] at h' hfull
    exact .makeRoom h' (Outbox.bytes_ne_nil_of_full (hfull (Nat.succ_ne_zero _)))

theorem Stance.failed_step {r : Run} {child : Child} {o : Outbox} {f : Fault}
    (h : Torn c a child o.bytes) (hs : a.shut = false) (hr : a.reaped = false) :
    Stance c a (r.failed child o f).task := by
  unfold Run.failed
  split
  · next he =>
    rw [Outbox.isEmpty_iff.1 he] at h
    exact .shutTorn h hs hr
  · next he => exact .emptyTorn h hs hr (Outbox.bytes_ne_nil (Bool.eq_false_iff.2 he))

section Steps

variable {d : Candidates} {notices : Array Notice} {r' : Run} {child : Child} {o : Outbox}

theorem Stance.makeRoom_step {todo : Nat} {next : Int32}
    (h : Feeding c a child o todo next) (hne : o.bytes ≠ [])
    (hm : (Run.move ⟨d, notices, .makeRoom child o todo next⟩).Answered e r') :
    Stance c (a.after e) r'.task := by
  cases hm with
  | @send _ _ _ reply fits =>
  have hg := Outbox.absorb_handed hne a child reply
  dsimp only [Run.madeRoom, Account.after]
  generalize a.add _ = a', o.absorb reply = outcome at hg ⊢
  cases hg with
  | more hb ht hne' => exact .makeRoom (h.send hb ht) hne'
  | all hb ht he => exact .feed (h.send hb ht)
  | failed => exact failed_step h.torn h.shut h.reaped

theorem Stance.close_step {next : Int32} (h : Feeding c a child o 0 next) (hne : o.bytes ≠ [])
    (hm : (Run.move ⟨d, notices, .close child o⟩).Answered e r') :
    Stance c (a.after e) r'.task := by
  cases hm with
  | @send _ _ _ reply fits =>
  have hg := Outbox.absorb_handed hne a child reply
  dsimp only [Run.closed, Account.after]
  generalize a.add _ = a', o.absorb reply = outcome at hg ⊢
  cases hg with
  | more hb ht hne' => exact .close (h.send hb ht) hne'
  | all hb ht he =>
    have h' := h.send hb ht
    obtain ⟨hfed, hcount⟩ := h'.fed he
    dsimp only [Run.go]
    rw [hcount]
    exact .shut hfed h'.shut h'.reaped
  | failed => exact failed_step h.torn h.shut h.reaped

theorem Stance.empty_step {f : Fault} (h : Torn c a child o.bytes) (hs : a.shut = false)
    (hr : a.reaped = false) (hne : o.bytes ≠ [])
    (hm : (Run.move ⟨d, notices, .empty child o f⟩).Answered e r') :
    Stance c (a.after e) r'.task := by
  cases hm with
  | @send _ _ _ reply fits =>
  have hg := Outbox.absorb_handed hne a child reply
  dsimp only [Run.emptied, Account.after]
  generalize a.add _ = a', o.absorb reply = outcome at hg ⊢
  cases hg with
  | more hb ht hne' => exact .emptyTorn (h.send hb) hs hr hne'
  | all hb ht he =>
    rw [he] at hb
    exact .shutTorn (h.send hb) hs hr
  | failed => exact .shutTorn { h.drop with smooth := rfl } hs hr

theorem Stance.reap_step {fed : Except Fault Nat} (h : Stance c a (.reap child fed))
    (hm : (Run.move ⟨d, notices, .reap child fed⟩).Answered e r') :
    Stance c (a.after e) r'.task := by
  cases hm with
  | reap result =>
  cases h with
  | reap h hs hr =>
    cases result with
    | ok u =>
      rw [Account.after, Account.add_reaped_ok]
      exact .done { h with } hs rfl
    | error f =>
      rw [Account.after, Account.add_reaped_error]
      have htorn : Torn c { a with reaped := true, smooth := false } child [] :=
        { h with
          smooth := rfl
          sent := by
            rw [List.append_nil]
            exact h.sent ▸ List.prefix_refl _ }
      exact .failed htorn hs rfl
  | @reapTorn _ fault h hs hr =>
    cases result with
    | ok u =>
      rw [Account.after, Account.add_reaped_ok]
      have htorn : Torn c { a with reaped := true } child [] := { h with }
      exact .failed htorn hs rfl
    | error f =>
      rw [Account.after, Account.add_reaped_error]
      have htorn : Torn c { a with reaped := true, smooth := false } child [] :=
        { h with smooth := rfl }
      dsimp only [Run.reaped]
      split
      · exact .failed htorn hs rfl
      · exact .failed htorn hs rfl

end Steps

theorem Stance.step {r r' : Run} (hc : r.candidates = c) (h : Stance c a r.task)
    (hm : r.move.Answered e r') : Stance c (a.after e) r'.task := by
  obtain ⟨candidates, notices, task⟩ := r
  dsimp only at hc
  subst hc
  cases h with
  | launch h hn hs hl =>
    cases hm with
    | launch result =>
    cases result with
    | ok child =>
      refine .feed ?_
      exact
        { shut := h.shut
          left := hl
          reaped := h.reaped
          launches := by
            show a.launches + 1 = 1
            rw [hn]
          child := rfl
          smooth := hs
          next := (candidates.value_zero).symm
          taken := Nat.zero_add _
          sent := by
            show a.sent ++ [] = _
            rw [h.sent]
            rfl }
    | error f =>
      refine .refused { h with } ?_ rfl hl
      show a.launches + 1 = 1
      rw [hn]
  | feed h =>
    cases hm
    exact feed_step h
  | makeRoom h hne => exact makeRoom_step h hne hm
  | close h hne => exact close_step h hne hm
  | shut h hs hr =>
    cases hm
    exact .reap { h with } rfl hr
  | reap h hs hr => exact reap_step (.reap h hs hr) hm
  | done h hs hr => cases hm
  | emptyTorn h hs hr hne => exact empty_step h hs hr hne hm
  | shutTorn h hs hr =>
    cases hm
    exact .reapTorn { h with } rfl hr
  | reapTorn h hs hr => exact reap_step (.reapTorn h hs hr) hm
  | failed h hs hr => cases hm
  | refused h hn hs hl => cases hm

theorem Run.candidates_failed (r : Run) (child : Child) (o : Outbox) (f : Fault) :
    (r.failed child o f).candidates = r.candidates := by
  unfold failed
  split <;> rfl

/-- No move changes the range of a feeder. -/
theorem Run.candidates_answered {r r' : Run} (hm : r.move.Answered e r') :
    r'.candidates = r.candidates := by
  obtain ⟨candidates, notices, task⟩ := r
  cases task with
  | launch =>
    cases hm with
    | launch result => cases result <;> rfl
  | feed child o todo next =>
    cases hm
    simp only [feed]
    split
    · split <;> rfl
    · rfl
  | makeRoom child o todo next =>
    cases hm
    simp only [madeRoom]
    split
    · rfl
    · rfl
    · exact candidates_failed _ _ _ _
  | close child o =>
    cases hm
    simp only [closed]
    split
    · rfl
    · rfl
    · exact candidates_failed _ _ _ _
  | empty child o f =>
    cases hm
    simp only [emptied]
    split <;> rfl
  | shut child fed => cases hm; rfl
  | reap child fed =>
    cases hm
    simp only [reaped]
    split
    · rfl
    · rfl
    · rfl
    · split <;> rfl
  | finished result => cases hm

/-- Whatever happens to a run of a feeder, its account goes on to accord with it. -/
theorem Run.accords_step {r r' : Run} (h : r.Accords c a) (hm : r.move.Answered e r') :
    r'.Accords c (a.after e) :=
  ⟨(candidates_answered hm).trans h.1, h.2.step h.1 hm⟩

theorem Run.accords_start (c : Candidates) : (Feeder.run c).Accords c {} :=
  ⟨rfl, .launch ⟨rfl, rfl, rfl, rfl, rfl, rfl⟩ rfl rfl rfl⟩

/-! ## How feeders conduct themselves -/

/-- A feeder only ever asks for what it may. -/
theorem Run.permitted {r : Run} (h : r.Accords c a) : r.move.Permitted a := by
  obtain ⟨candidates, notices, task⟩ := r
  obtain ⟨-, h⟩ := h
  cases h with
  | launch h hn hs hl => exact ⟨hn, h.child, h.sent, h.shut⟩
  | feed h => trivial
  | makeRoom h hne => exact ⟨hne, h.child, h.shut⟩
  | close h hne => exact ⟨hne, h.child, h.shut⟩
  | shut h hs hr => exact ⟨h.child, hs⟩
  | reap h hs hr => exact ⟨h.child, hs, hr⟩
  | emptyTorn h hs hr hne => exact ⟨hne, h.child, hs⟩
  | shutTorn h hs hr => exact ⟨h.child, hs⟩
  | reapTorn h hs hr => exact ⟨h.child, hs, hr⟩
  | done | failed | refused => trivial

/-- A feeder leaves the record alone. -/
theorem Run.move_ne_record (r : Run) (bytes : List UInt8) (next : WriteReply → Run) :
    r.move ≠ .record bytes next := by
  obtain ⟨candidates, notices, task⟩ := r
  intro h
  cases task <;> cases h

/-- A feeder sends nothing but the values of its range. -/
theorem Run.sent_isPrefix {r : Run} (h : r.Accords c a) : a.sent <+: encodeAll c.values := by
  obtain ⟨candidates, notices, task⟩ := r
  obtain ⟨-, h⟩ := h
  have bare : ∀ {a : Account}, a.Bare → a.sent <+: encodeAll c.values := by
    intro a h
    rw [h.sent]
    exact List.nil_prefix
  have feeding : ∀ {child : Child} {o : Outbox} {todo : Nat} {next : Int32},
      Feeding c a child o todo next → a.sent <+: encodeAll c.values := fun h =>
    (List.prefix_append _ _).trans h.torn.sent
  cases h with
  | launch h hn hs hl => exact bare h
  | feed h => exact feeding h
  | makeRoom h hne => exact feeding h
  | close h hne => exact feeding h
  | shut h hs hr => exact h.sent ▸ List.prefix_refl _
  | reap h hs hr => exact h.sent ▸ List.prefix_refl _
  | done h hs hr => exact h.sent ▸ List.prefix_refl _
  | emptyTorn h hs hr hne => exact (List.prefix_append _ _).trans h.sent
  | shutTorn h hs hr => exact (List.prefix_append _ _).trans h.sent
  | reapTorn h hs hr => exact (List.prefix_append _ _).trans h.sent
  | failed h hs hr => exact (List.prefix_append _ _).trans h.sent
  | refused h hn hs hl => exact bare h

/-- A feeder succeeds exactly if it has met no failure; then its result is the number of
its values, and all of them have been sent. -/
theorem Run.of_outcome {r : Run} {result : Except Fault Nat} (h : r.Accords c a)
    (hr : r.outcome? = some result) :
    result.isOk = a.smooth ∧
      (a.smooth = true → result = .ok c.count ∧ a.sent = encodeAll c.values ∧
        a.child.isSome = true ∧ a.launches = 1) := by
  obtain ⟨candidates, notices, task⟩ := r
  obtain ⟨-, h⟩ := h
  have failure : ∀ f : Fault, a.smooth = false →
      (Except.error f : Except Fault Nat).isOk = a.smooth ∧
        (a.smooth = true → (Except.error f : Except Fault Nat) = .ok c.count ∧
          a.sent = encodeAll c.values ∧ a.child.isSome = true ∧ a.launches = 1) := by
    intro f hs
    refine ⟨hs.symm, fun ht => ?_⟩
    rw [hs] at ht
    cases ht
  cases h with
  | done h hs hreaped =>
    cases hr
    exact ⟨h.smooth.symm, fun _ => ⟨rfl, h.sent, by rw [h.child]; rfl, h.launches⟩⟩
  | failed h hs hreaped =>
    cases hr
    exact failure _ h.smooth
  | refused h hn hs hl =>
    cases hr
    exact failure _ hs
  | _ => cases hr

/-! ## How long a feeder can go on -/

/-- What is left to do of a feeder at a task. -/
def Task.effort (count : Nat) : Task → Nat
  | .launch => 8 * count + 8
  | .feed _ o todo _ => 8 * todo + 2 * o.size + 7
  | .makeRoom _ o todo _ => 8 * todo + 2 * o.size + 6
  | .close _ o => 2 * o.size + 5
  | .empty _ o _ => 2 * o.size + 3
  | .shut _ _ => 2
  | .reap _ _ => 1
  | .finished _ => 0

/-- What is left to do of a run. -/
def Run.effort (r : Run) : Nat := r.task.effort r.candidates.count

theorem Run.effort_failed (r : Run) (child : Child) (o : Outbox) (f : Fault) :
    (r.failed child o f).effort ≤ 2 * o.size + 3 := by
  unfold failed
  split
  · exact Nat.le_add_left 2 (2 * o.size + 1)
  · exact Nat.le_refl _

/-- Every move of a feeder uses something up. -/
theorem Run.effort_step {r r' : Run} (h : r.Accords c a) (hm : r.move.Answered e r') :
    r'.effort + 1 ≤ r.effort + Event.brings e := by
  obtain ⟨candidates, notices, task⟩ := r
  obtain ⟨hc, h⟩ := h
  dsimp only at hc
  subst hc
  cases h with
  | launch h hn hs hl =>
    cases hm with
    | launch result =>
    cases result with
    | ok child => exact Nat.le_refl _
    | error f => exact Nat.le_add_left 1 _
  | feed h =>
    cases hm
    obtain ⟨-, -, heq⟩ := h.fill
    dsimp only [Run.feed]
    split
    · next o' hf =>
      rw [hf] at heq
      dsimp only at heq
      split
      · dsimp only [Run.go, Run.effort, Task.effort]
        omega
      · dsimp only [Run.go, Run.effort, Task.effort]
        omega
    · next hf =>
      rw [hf] at heq
      dsimp only at heq
      dsimp only [Run.go, Run.effort, Task.effort]
      omega
  | @makeRoom child o todo next h hne =>
    have hpos := Outbox.size_pos hne
    cases hm with
    | @send _ _ _ reply fits =>
      have hspent :=
        Outbox.absorb_spent hne child (Scripted.Surroundings.accepted o.bytes reply) reply
      dsimp only [Run.madeRoom]
      generalize Event.brings _ = n, o.absorb reply = outcome at hspent ⊢
      cases hspent with
      | more hle hs =>
        dsimp only [Run.go, Run.effort, Task.effort]
        omega
      | all hs =>
        dsimp only [Run.go, Run.effort, Task.effort]
        omega
      | failed =>
        refine Nat.le_trans (Nat.succ_le_succ (effort_failed _ _ _ _)) ?_
        dsimp only [Run.effort, Task.effort]
        omega
  | @close child o next h hne =>
    have hpos := Outbox.size_pos hne
    cases hm with
    | @send _ _ _ reply fits =>
      have hspent :=
        Outbox.absorb_spent hne child (Scripted.Surroundings.accepted o.bytes reply) reply
      dsimp only [Run.closed]
      generalize Event.brings _ = n, o.absorb reply = outcome at hspent ⊢
      cases hspent with
      | more hle hs =>
        dsimp only [Run.go, Run.effort, Task.effort]
        omega
      | all hs =>
        dsimp only [Run.go, Run.effort, Task.effort]
        omega
      | failed =>
        refine Nat.le_trans (Nat.succ_le_succ (effort_failed _ _ _ _)) ?_
        dsimp only [Run.effort, Task.effort]
        omega
  | shut h hs hr =>
    cases hm
    exact Nat.le_refl 2
  | reap h hs hr =>
    cases hm with
    | reap result => cases result <;> exact Nat.le_refl 1
  | @emptyTorn child o f h hs hr hne =>
    have hpos := Outbox.size_pos hne
    cases hm with
    | @send _ _ _ reply fits =>
      have hspent :=
        Outbox.absorb_spent hne child (Scripted.Surroundings.accepted o.bytes reply) reply
      dsimp only [Run.emptied]
      generalize Event.brings _ = n, o.absorb reply = outcome at hspent ⊢
      cases hspent with
      | more hle hs => dsimp only [Run.go, Run.effort, Task.effort]; omega
      | all hs => dsimp only [Run.go, Run.effort, Task.effort]; omega
      | failed => dsimp only [Run.go, Run.effort, Task.effort]; omega
  | shutTorn h hs hr =>
    cases hm
    exact Nat.le_refl 2
  | reapTorn h hs hr =>
    cases hm with
    | reap result =>
    cases result with
    | ok u => exact Nat.le_refl 1
    | error f =>
      dsimp only [Run.reaped]
      split
      · exact Nat.le_refl 1
      · exact Nat.le_refl 1
  | done | failed | refused => cases hm

theorem Run.effort_start (c : Candidates) : (Feeder.run c).effort = 8 * c.count + 8 := rfl

end Feeder

end SieveChain
