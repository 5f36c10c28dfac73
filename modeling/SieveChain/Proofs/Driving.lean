import SieveChain.Proofs.FeederAccount
import SieveChain.Proofs.StageEffort
import SieveChain.Proofs.Surroundings

/-!
# Driving parties

A party that is orderly keeps its account whatever the surroundings answer. It uses its
effort up, so that driving it long enough brings it to rest or to a child whose end is not
known; and nothing fails where nothing can.
-/

namespace SieveChain

open Scripted

variable {σ : Type}

/-- Parties with accounts: every answer keeps the account, only what is permitted is asked
for, and every move uses some of a bounded effort up. -/
structure Orderly [Party σ] (accords : Account → σ → Prop) (effort : σ → Nat) : Prop where
  step : ∀ {a : Account} {p q : σ} {e : Option Event}, accords a p →
    (Party.move p).Answered e q → accords (a.after e) q
  permitted : ∀ {a : Account} {p : σ}, accords a p → (Party.move p).Permitted a
  effort_step : ∀ {a : Account} {p q : σ} {e : Option Event}, accords a p →
    (Party.move p).Answered e q → effort q + 1 ≤ effort p + Event.brings e

/-- What becomes of a party and its surroundings when it is driven on. -/
structure Driven (accords : Account → σ → Prop) (stream : List UInt8) (a : Account)
    (w : Surroundings) (p' : σ) (w' : Surroundings) (a' : Account) : Prop where
  accords : accords a' p'
  mirrors : w'.Mirrors stream a'
  sealed : a.shut = true → a'.shut = true ∧ a'.sent = a.sent ∧ a'.recorded = a.recorded ∧
    a'.child = a.child
  reaped : a.reaped = true → a'.reaped = true
  rough : a.smooth = false → a'.smooth = false
  easy : w.Easy → w'.Easy ∧ a'.smooth = a.smooth
  pending : w.Pending a → w'.Pending a'
  first : w'.first = w.first

variable {accords : Account → σ → Prop} {effort : σ → Nat} {stream : List UInt8}
  {a a' a'' : Account} {p p' p'' : σ} {w w' w'' : Surroundings}

theorem Driven.refl (h : accords a p) (hw : w.Mirrors stream a) :
    Driven accords stream a w p w a :=
  ⟨h, hw, fun hs => ⟨hs, rfl, rfl, rfl⟩, id, id, fun he => ⟨he, rfl⟩, id, rfl⟩

theorem Driven.trans (h : Driven accords stream a w p' w' a')
    (h' : Driven accords stream a' w' p'' w'' a'') : Driven accords stream a w p'' w'' a'' where
  accords := h'.accords
  mirrors := h'.mirrors
  sealed := by
    intro hs
    obtain ⟨hs', hsent, hrec, hk⟩ := h.sealed hs
    obtain ⟨hs'', hsent', hrec', hk'⟩ := h'.sealed hs'
    exact ⟨hs'', hsent'.trans hsent, hrec'.trans hrec, hk'.trans hk⟩
  reaped := fun hr => h'.reaped (h.reaped hr)
  rough := fun hr => h'.rough (h.rough hr)
  easy := by
    intro he
    obtain ⟨he', hs⟩ := h.easy he
    obtain ⟨he'', hs'⟩ := h'.easy he'
    exact ⟨he'', hs'.trans hs⟩
  pending := fun hp => h'.pending (h.pending hp)
  first := h'.first.trans h.first

namespace Orderly

variable [Party σ]

theorem answer (k : Orderly accords effort) (h : accords a p) (hw : w.Mirrors stream a)
    (ha : w.answer (Party.move p) = (some p', w')) :
    Driven accords stream a w p' w' (a.after (w.event (Party.move p))) where
  accords := k.step h (Surroundings.answered ha).1
  mirrors := hw.answer (k.permitted h) ha
  sealed := (k.permitted h).sealed (Surroundings.answered ha).1
  reaped := fun hr => Account.reaped_after hr _
  rough := fun hr => Account.not_smooth_after hr _
  easy := fun he => he.answer hw.perRead hw.link (k.permitted h) ha
  pending := fun hp => hp.answer hw.link (k.permitted h) ha
  first := Surroundings.first_answer ha

/-- A party that is driven on keeps its account, and when all its effort has been spent
there is nothing left to answer. -/
theorem drive (k : Orderly accords effort) (n : Nat) (h : accords a p)
    (hw : w.Mirrors stream a) :
    ∃ a', Driven accords stream a w (w.drive n p).1 (w.drive n p).2 a' ∧
      (effort p + w.stock < n →
        ((w.drive n p).2.answer (Party.move (w.drive n p).1)).1 = none) := by
  -- Every answer uses one of `n` up, and at least one of what effort and stock come to.
  induction n generalizing a p w with
  | zero => exact ⟨a, .refl h hw, fun hn => absurd hn (Nat.not_lt_zero _)⟩
  | succ n ih =>
    unfold Surroundings.drive
    split
    · next w' ha =>
      obtain ⟨rfl, -⟩ := Surroundings.unanswered ha
      exact ⟨a, .refl h hw, fun _ => by rw [ha]⟩
    · next q w' ha =>
      have hd := k.answer h hw ha
      obtain ⟨a', hd', hn'⟩ := ih hd.accords hd.mirrors
      refine ⟨a', hd.trans hd', fun hn => hn' ?_⟩
      have hspent := k.effort_step h (Surroundings.answered ha).1
      have hstock := Surroundings.stock_answer hw.link (k.permitted h) ha
      omega

/-- A party that pauses is at rest, or waits for a child whose end is not known. -/
theorem drive_pauses (k : Orderly accords effort) {n : Nat} (h : accords a p)
    (hw : w.Mirrors stream a) (hn : effort p + w.stock < n) :
    ∃ a', Driven accords stream a w (w.drive n p).1 (w.drive n p).2 a' ∧
      (Party.move (w.drive n p).1 = .rest ∨ ∃ child next,
        Party.move (w.drive n p).1 = .reap child next ∧ a'.child = some child ∧
          a'.shut = true ∧ a'.reaped = false) := by
  obtain ⟨a', hd, hend⟩ := k.drive n h hw
  refine ⟨a', hd, ?_⟩
  obtain ⟨-, hrest | ⟨child, next, hreap, -⟩⟩ :=
    Surroundings.unanswered (Prod.ext (hend hn) rfl)
  · exact .inl hrest
  · have hp := k.permitted hd.accords
    rw [hreap] at hp
    exact .inr ⟨child, next, hreap, hp⟩

/-- A party that waits for its child comes to rest once it is settled how the child ends. -/
theorem drive_settled (k : Orderly accords effort) {n : Nat} (h : accords a p)
    (hw : w.Mirrors stream a) (hn : effort p + w.stock < n) {child : Child}
    {next : Except Fault Unit → σ} (hm : Party.move p = .reap child next)
    {result : Except Fault Unit} (hend : (w.channel child).ending = some result) :
    ∃ a', Driven accords stream a w (w.drive n p).1 (w.drive n p).2 a' ∧
      Party.move (w.drive n p).1 = .rest ∧ (result.isOk = false → a'.smooth = false) := by
  obtain ⟨n, rfl⟩ := Nat.exists_eq_succ_of_ne_zero (Nat.ne_zero_of_lt hn)
  have ha : w.answer (Party.move p) = (some (next result), w.see (.reaped child result)) := by
    rw [hm, Surroundings.answer, hend]
  have hevent : w.event (Party.move p) = some (.reaped child result) := by
    rw [hm, Surroundings.event, hend]
    rfl
  have hd := k.answer h hw ha
  have hspent := k.effort_step h (Surroundings.answered ha).1
  have hstock := Surroundings.stock_answer hw.link (k.permitted h) ha
  obtain ⟨a', hd', hrest⟩ := k.drive_pauses (n := n) hd.accords hd.mirrors (by omega)
  have hdrive : w.drive (n + 1) p = (w.see (.reaped child result)).drive n (next result) := by
    rw [Surroundings.drive, ha]
  rw [hdrive]
  rw [hevent] at hd hd'
  refine ⟨a', hd.trans hd', ?_, ?_⟩
  · rcases hrest with hrest | ⟨child', next', hreap, hk, hs, hr⟩
    · exact hrest
    · rw [hd'.reaped rfl] at hr
      cases hr
  · intro hok
    apply hd'.rough
    show (a.smooth && result.isOk) = false
    rw [hok, Bool.and_false]

end Orderly

/-! ## Stages -/

namespace Stage.Activity

variable {call : Activity}

theorem ended_of_rest (h : call.move = .rest) :
    ∃ state result, call.task = .ended state result := by
  obtain ⟨phase, l, task⟩ := call
  cases task with
  | record input p link entry =>
    dsimp only [move] at h
    split at h <;> cases h
  | ended state result => exact ⟨state, result, rfl⟩
  | _ => cases h

/-- A call that has not ended has something to ask for. -/
theorem busy (h : call.outcome? = none) : call.move ≠ .rest := by
  intro hrest
  obtain ⟨state, result, ht⟩ := ended_of_rest hrest
  rw [outcome?, ht] at h
  cases h

end Stage.Activity

namespace Stage.Run

variable {ceiling : Option Int32} {a : Account} {r : Run}

theorem orderly (ceiling : Option Int32) : Orderly (Run.Accords ceiling) Run.effort :=
  ⟨accords_step, permitted, effort_step⟩

theorem rest_of_map {τ : Type} {f : σ → τ} {m : Move σ} (h : m.map f = .rest) : m = .rest := by
  cases m <;> first | rfl | cases h

/-- A stage is at rest only when its run has finished. -/
theorem finished_of_rest (h : r.move = .rest) : ∃ s result, r = .finished s result := by
  cases r with
  | stepping call =>
    rw [move] at h
    split at h
    · cases h
    · next hout => exact absurd (rest_of_map h) (Activity.busy hout)
  | givingUp call =>
    rw [move] at h
    split at h
    · cases h
    · next hout => exact absurd (rest_of_map h) (Activity.busy hout)
  | finished s result => exact ⟨s, result, rfl⟩

/-- A stage that waits for its child has little left to do. -/
theorem effort_of_reap {child : Child} {next : Except Fault Unit → Run}
    (h : r.move = .reap child next) : r.effort ≤ 12 := by
  have task : ∀ (call : Activity) (f : Activity → Run), call.move.map f = .reap child next →
      call.task.effort = 2 := by
    intro call f hm
    obtain ⟨phase, l, task⟩ := call
    cases task with
    | record input p link entry =>
      dsimp only [Activity.move] at hm
      split at hm <;> cases hm
    | reap child after => rfl
    | _ => cases hm
  cases r with
  | stepping call =>
    rw [move] at h
    split at h
    · cases h
    · rw [effort, task call _ h]
  | givingUp call =>
    rw [move] at h
    split at h
    · cases h
    · rw [effort, task call _ h]
      decide
  | finished s result => cases h

/-- The run of a stage with a child ends only after the child has been reaped. -/
theorem reaped_of_finished {s : Stage} {result : Except Fault Report}
    (h : (Run.finished s result).Accords ceiling a) (hk : a.child.isSome = true) :
    a.reaped = true := by
  cases result with
  | ok report =>
    cases h with
    | idle h hn hs he hl hv =>
      rw [h.child] at hk
      cases hk
    | owner h hl hr => exact hr
  | error f =>
    cases h with
    | alone h hl =>
      rw [h.child] at hk
      cases hk
    | owner h hs hl hr => exact hr

end Stage.Run

/-! ## Feeders -/

namespace Feeder.Run

variable {c : Candidates} {a : Account} {r : Run}

theorem orderly (c : Candidates) : Orderly (Run.Accords c) Run.effort :=
  ⟨accords_step, permitted, effort_step⟩

theorem finished_of_rest (h : r.move = .rest) : ∃ result, r.outcome? = some result := by
  obtain ⟨candidates, notices, task⟩ := r
  cases task with
  | finished result => exact ⟨result, rfl⟩
  | _ => cases h

theorem effort_of_reap {child : Child} {next : Except Fault Unit → Run}
    (h : r.move = .reap child next) : r.effort = 1 := by
  obtain ⟨candidates, notices, task⟩ := r
  cases task with
  | reap child fed => rfl
  | _ => cases h

/-- The run of a feeder with a child ends only after the child has been reaped. -/
theorem reaped_of_finished {result : Except Fault Nat} (h : r.Accords c a)
    (hr : r.outcome? = some result) (hk : a.child.isSome = true) : a.reaped = true := by
  obtain ⟨candidates, notices, task⟩ := r
  obtain ⟨-, h⟩ := h
  cases h with
  | done h hs hreaped => exact hreaped
  | failed h hs hreaped => exact hreaped
  | refused h hn hs hl =>
    rw [h.child] at hk
    cases hk
  | _ => cases hr

end Feeder.Run

end SieveChain
