import SieveChain.Proofs.Cascades

/-!
# Every value ends in one stage

Along a chain in which nothing fails each occurrence of a value travels down to one stage, which
takes it for its own or discards it. All stages above have read it and handed it on, and none
below has seen it.
-/

namespace SieveChain.Chain

open Scripted Wire Record

/-- What becomes of an occurrence of a value in a chain, with the stage that decides it. -/
inductive Fate
  | taken (stage : Nat)
  | discarded (stage : Nat)
  deriving DecidableEq, Repr

namespace Fate

def stage : Fate → Nat
  | taken k => k
  | discarded k => k

/-- The fate of an occurrence in a chain with one more stage above it. -/
def lower : Fate → Fate
  | taken k => taken (k + 1)
  | discarded k => discarded (k + 1)

@[simp] theorem stage_taken (k : Nat) : (taken k).stage = k := rfl

@[simp] theorem stage_discarded (k : Nat) : (discarded k).stage = k := rfl

@[simp] theorem stage_lower (f : Fate) : f.lower.stage = f.stage + 1 := by
  cases f <;> rfl

@[simp] theorem lower_eq_taken (f : Fate) (k : Nat) :
    f.lower = taken (k + 1) ↔ f = taken k := by
  cases f <;> simp [lower]

@[simp] theorem lower_eq_discarded (f : Fate) (k : Nat) :
    f.lower = discarded (k + 1) ↔ f = discarded k := by
  cases f <;> simp [lower]

end Fate

/-- A stage of a chain bears out the fates of values: it reads those that are to be decided there
or further down, and sends those that are to be decided further down; its report tells of the
value that it takes and of how many it discards. -/
structure Decides (fates : List (Int32 × Fate)) (k : Nat) (r : StageRun) : Prop where
  read : values r.account.received = (fates.filter fun x => k ≤ x.2.stage).map (·.1)
  sent : values r.account.sent = (fates.filter fun x => k < x.2.stage).map (·.1)
  taken : r.report.prime.toList = (fates.filter fun x => x.2 = .taken k).map (·.1)
  discarded : r.report.discarded = (fates.filter fun x => x.2 = .discarded k).length

/-! ## One stage more -/

/-- Labels for the values that pass a test, and one label for all others, are put in the order
of the values. -/
theorem exists_weave {α β : Type} (q : α → Bool) (b : β) (vs : List α) (ys : List (α × β))
    (h : ys.map (·.1) = vs.filter q) :
    ∃ zs : List (α × β), zs.map (·.1) = vs ∧ (zs.filter fun z => q z.1) = ys ∧
      ∀ z ∈ zs, q z.1 = false → z.2 = b := by
  induction vs generalizing ys with
  | nil =>
    have hys : ys = [] := List.map_eq_nil_iff.1 h
    exact ⟨[], rfl, hys.symm, fun z hz => absurd hz List.not_mem_nil⟩
  | cons v vs ih =>
    cases hv : q v with
    | true =>
      rw [List.filter_cons_of_pos hv] at h
      obtain ⟨y, rest, rfl, hy, hrest⟩ := List.map_eq_cons_iff.1 h
      obtain ⟨zs, hzs, hpass, hother⟩ := ih _ hrest
      have hqy : q y.1 = true := by rw [hy, hv]
      refine ⟨y :: zs, by rw [List.map_cons, hy, hzs], ?_, List.forall_mem_cons.2 ⟨?_, hother⟩⟩
      · rw [List.filter_cons, if_pos hqy, hpass]
      · intro hfalse
        rw [hqy] at hfalse
        cases hfalse
    | false =>
      have hneg : ¬q v = true := by rw [hv]; exact Bool.false_ne_true
      rw [List.filter_cons_of_neg hneg] at h
      obtain ⟨zs, hzs, hpass, hother⟩ := ih _ h
      refine ⟨(v, b) :: zs, by rw [List.map_cons, hzs], ?_,
        List.forall_mem_cons.2 ⟨fun _ => rfl, hother⟩⟩
      rw [List.filter_cons, if_neg hneg, hpass]

/-- What is decided below a stage is decided by the chain below it. -/
theorem filter_lower {fates fates' : List (Int32 × Fate)}
    (h : (fates'.filter fun x => 0 < x.2.stage) = fates.map fun x => (x.1, x.2.lower))
    (P P' : Fate → Bool) (hdeep : ∀ f, P' f = true → 0 < f.stage)
    (hlower : ∀ f, P' f.lower = P f) :
    (fates'.filter fun x => P' x.2).map (·.1) = (fates.filter fun x => P x.2).map (·.1) := by
  have hfirst : (fates'.filter fun x => P' x.2) =
      (fates'.filter fun x => 0 < x.2.stage).filter fun x => P' x.2 := by
    rw [List.filter_filter]
    apply List.filter_congr
    intro x _
    cases hx : P' x.2 with
    | false => rfl
    | true => simp [hdeep x.2 hx]
  rw [hfirst, h, List.filter_map, List.map_map]
  apply congrArg (List.map _)
  apply List.filter_congr
  intro x _
  exact hlower x.2

/-- Fates for a stage above a chain: it takes the first value that it reads, hands on those for
the chain, and discards all others. -/
structure Topped (p : Int32) (vs : List Int32) (fates zs : List (Int32 × Fate)) : Prop where
  all : zs.map (·.1) = vs
  lower : (zs.filter fun x => 0 < x.2.stage) = fates.map fun x => (x.1, x.2.lower)
  own : ∀ x ∈ zs, x.2.stage = 0 → x.2 = .discarded 0

theorem exists_topped {p : Int32} {vs : List Int32} {fates : List (Int32 × Fate)}
    (h : fates.map (·.1) = withoutMultiples p vs) : ∃ zs, Topped p vs fates zs := by
  obtain ⟨zs, hzs, hpass, hother⟩ := exists_weave (fun v => ¬p.toInt ∣ v.toInt)
    (Fate.discarded 0) vs (fates.map fun x => (x.1, x.2.lower))
    (by rw [List.map_map]; exact h)
  have hfate : ∀ x ∈ zs, decide (¬p.toInt ∣ x.1.toInt) = true → 0 < x.2.stage := by
    intro x hx hq
    have hmem : x ∈ fates.map fun x => (x.1, x.2.lower) := by
      rw [← hpass]
      exact List.mem_filter.2 ⟨hx, hq⟩
    obtain ⟨y, -, rfl⟩ := List.mem_map.1 hmem
    exact Nat.lt_of_lt_of_eq (Nat.succ_pos _) (Fate.stage_lower y.2).symm
  refine ⟨zs, hzs, ?_, ?_⟩
  · rw [← hpass]
    apply List.filter_congr
    intro x hx
    cases hq : decide (¬p.toInt ∣ x.1.toInt) with
    | true => exact decide_eq_true (hfate x hx hq)
    | false => rw [hother x hx hq]; rfl
  · intro x hx hzero
    cases hq : decide (¬p.toInt ∣ x.1.toInt) with
    | true => exact absurd (hfate x hx hq) (by omega)
    | false => exact hother x hx hq

namespace Topped

variable {ceiling : Option Int32} {stream : List UInt8} {r : StageRun} {p : Int32}
  {vs : List Int32} {fates zs : List (Int32 × Fate)}

theorem discarded_length (h : Topped p vs fates zs) :
    (zs.filter fun x => x.2 = .discarded 0).length + fates.length = vs.length := by
  have hown : (zs.filter fun x => x.2 = .discarded 0) =
      zs.filter fun x => !decide (0 < x.2.stage) := by
    apply List.filter_congr
    intro x hx
    by_cases hzero : x.2.stage = 0
    · rw [h.own x hx hzero]
      rfl
    · rw [decide_eq_false, decide_eq_true (Nat.pos_of_ne_zero hzero)]
      · rfl
      · intro hd
        exact hzero (by rw [hd]; rfl)
  have hsplit := List.length_eq_length_filter_add (l := zs) fun x => decide (0 < x.2.stage)
  rw [h.lower, List.length_map, ← hown] at hsplit
  rw [← h.all, List.length_map]
  omega

theorem taken_nil (h : Topped p vs fates zs) : (zs.filter fun x => x.2 = .taken 0) = [] := by
  apply List.filter_eq_nil_iff.2
  intro x hx htaken
  have htaken : x.2 = .taken 0 := of_decide_eq_true htaken
  have hown := h.own x hx (by rw [htaken]; rfl)
  rw [htaken] at hown
  cases hown

theorem stage_lt {n : Nat} (h : Topped p vs fates zs) (hf : ∀ x ∈ fates, x.2.stage < n) :
    ∀ x ∈ zs, x.2.stage < n + 1 := by
  intro x hx
  by_cases hzero : 0 < x.2.stage
  · have hmem : x ∈ fates.map fun x => (x.1, x.2.lower) := by
      rw [← h.lower]
      exact List.mem_filter.2 ⟨hx, decide_eq_true hzero⟩
    obtain ⟨y, hy, rfl⟩ := List.mem_map.1 hmem
    have hy := hf y hy
    rw [Fate.stage_lower]
    omega
  · omega

/-- The stage on top decides on the first value, and on all those that it does not hand on. -/
theorem decides_first (h : Topped p vs fates zs) (hr : r.Succeeds ceiling stream)
    (hp : r.report.prime = some p) (hvs : values stream = p :: vs)
    (hsent : fates.map (·.1) = values r.account.sent)
    (hcounted : fates.length + r.report.discarded = vs.length) :
    Decides ((p, .taken 0) :: zs) 0 r := by
  refine ⟨?_, ?_, ?_, ?_⟩
  · rw [hr.received, hvs, ← h.all]
    simp
  · rw [← hsent, List.filter_cons, if_neg (by simp), h.lower, List.map_map]
    rfl
  · rw [hp, List.filter_cons, if_pos (decide_eq_true rfl), h.taken_nil]
    rfl
  · have hlength := h.discarded_length
    rw [List.filter_cons, if_neg (by simp)]
    omega

/-- The stages below it decide as they do in the chain of their own. -/
theorem decides_lower {k : Nat} (h : Topped p vs fates zs) (hr : Decides fates k r) :
    Decides ((p, .taken 0) :: zs) (k + 1) r := by
  have hlower : (((p, Fate.taken 0) :: zs).filter fun x => 0 < x.2.stage) =
      fates.map fun x => (x.1, x.2.lower) := h.lower
  refine ⟨?_, ?_, ?_, ?_⟩
  · rw [hr.read]
    exact (filter_lower hlower (fun f => k ≤ f.stage) (fun f => k + 1 ≤ f.stage)
      (by simp; omega) (by simp)).symm
  · rw [hr.sent]
    exact (filter_lower hlower (fun f => k < f.stage) (fun f => k + 1 < f.stage)
      (by simp; omega) (by simp)).symm
  · rw [hr.taken]
    exact (filter_lower hlower (fun f => f = .taken k) (fun f => f = .taken (k + 1))
      (by simp) (by simp)).symm
  · have hsame := filter_lower hlower (fun f => f = .discarded k)
      (fun f => f = .discarded (k + 1)) (by simp) (by simp)
    rw [hr.discarded, ← List.length_map, ← hsame, List.length_map]

end Topped

/-! ## Whole chains -/

section Cascade

variable {heir : Option Int32 → Option Int32} {ceiling : Option Int32} {stream : List UInt8}
  {runs : List StageRun}

/-- A stage that owns nothing discards all that it reads. -/
theorem decides_alone {r : StageRun} (h : r.Succeeds ceiling stream)
    (hp : r.report.prime = none) :
    Decides ((values stream).map fun v => (v, .discarded 0)) 0 r := by
  obtain ⟨-, hreport, -, hsent⟩ := h.yields.of_no_prime hp
  refine ⟨?_, ?_, ?_, ?_⟩
  · rw [h.received, List.filter_map, List.map_map, List.filter_eq_self.2]
    · exact (List.map_id _).symm
    · exact fun v _ => rfl
  · rw [hsent, List.filter_map, List.filter_eq_nil_iff.2]
    · rfl
    · exact fun v _ => Bool.false_ne_true
  · rw [hp, List.filter_map, List.filter_eq_nil_iff.2]
    · rfl
    · exact fun v _ => Bool.false_ne_true
  · rw [hreport, List.filter_map, List.length_map, List.filter_eq_self.2]
    exact fun v _ => rfl

/-- Every occurrence of a value that enters a chain has a fate there, which all stages bear
out. -/
theorem Cascade.exists_fates (h : Cascade heir ceiling stream runs) :
    ∃ fates : List (Int32 × Fate), fates.map (·.1) = values stream ∧
      (∀ x ∈ fates, x.2.stage < runs.length) ∧ ∀ k r, runs[k]? = some r → Decides fates k r := by
  induction h with
  | @last ceiling stream r first prime =>
    refine ⟨(values stream).map fun v => (v, .discarded 0), ?_, ?_, ?_⟩
    · rw [List.map_map]
      exact List.map_id _
    · intro x hx
      obtain ⟨v, -, rfl⟩ := List.mem_map.1 hx
      exact Nat.zero_lt_one
    · intro k r' hk
      cases k with
      | zero =>
        cases hk
        exact decides_alone first prime
      | succ k => cases hk
  | @stage ceiling stream r rest p first prime below ih =>
    obtain ⟨fates, hvalues, hwithin, hdecides⟩ := ih
    obtain ⟨vs, hvs, -, -, hsent, hforwarded, hcounted⟩ := first.yields.of_prime prime
    have hpassed := hvalues
    rw [hsent, values_encodeAll] at hpassed
    obtain ⟨zs, hzs⟩ := exists_topped hpassed
    rw [← hpassed, List.length_map] at hforwarded
    rw [hforwarded] at hcounted
    refine ⟨(p, .taken 0) :: zs, ?_, ?_, ?_⟩
    · rw [List.map_cons, hzs.all, hvs]
    · rw [List.length_cons]
      exact List.forall_mem_cons.2 ⟨Nat.succ_pos _, hzs.stage_lt hwithin⟩
    · intro k r' hk
      cases k with
      | zero =>
        cases hk
        exact hzs.decides_first first prime hvs hvalues hcounted
      | succ k => exact hzs.decides_lower (hdecides k r' hk)

/-- A stage reports as forwarded what the stage below it has read. -/
theorem Cascade.forwarded (h : Cascade heir ceiling stream runs) :
    runs.IsChain (fun upper lower =>
      upper.report.forwarded = (values lower.account.received).length) ∧
      ∃ last ∈ runs.getLast?, last.report.forwarded = 0 := by
  induction h with
  | @last ceiling stream r first prime =>
    obtain ⟨-, hreport, -, -⟩ := first.yields.of_no_prime prime
    exact ⟨.singleton r, r, rfl, by rw [hreport]⟩
  | @stage ceiling stream r rest p first prime below ih =>
    obtain ⟨vs, -, -, -, hsent, hforwarded, -⟩ := first.yields.of_prime prime
    obtain ⟨r', rest, rfl, hr'⟩ := below.head
    obtain ⟨hchain, last, hlast, hzero⟩ := ih
    refine ⟨.cons_cons ?_ hchain, last, ?_, hzero⟩
    · rw [hr'.received, hsent, values_encodeAll, hforwarded]
    · rw [List.getLast?_cons_cons]
      exact hlast

/-- What the stages take and what they discard are together what has entered the chain. -/
theorem Cascade.counted (h : Cascade heir ceiling stream runs) :
    (runs.map fun r => r.report.prime.toList.length + r.report.discarded).sum =
      (values stream).length := by
  induction h with
  | @last ceiling stream r first prime =>
    obtain ⟨-, hreport, -, -⟩ := first.yields.of_no_prime prime
    rw [List.map_singleton, List.sum_singleton, hreport]
    exact Nat.zero_add _
  | @stage ceiling stream r rest p first prime below ih =>
    obtain ⟨vs, hvs, -, -, hsent, hforwarded, hcounted⟩ := first.yields.of_prime prime
    rw [hsent, values_encodeAll] at ih
    rw [List.map_cons, List.sum_cons, ih, hvs, prime, Option.toList_some, List.length_singleton,
      List.length_cons]
    omega

end Cascade

/-- No value is lost or counted twice along a chain in which nothing fails, whatever bytes enter
it. Each stage succeeds; it forwards as many values as the stage below it reads, and the last
forwards none; the values taken and those discarded add up to those that have entered the chain.
And every occurrence of a value that has entered it is taken by one stage or discarded by one
stage, and has been read by that stage and those above it, and by no other. -/
theorem run_conserves {host : Host} {conditions : Nat → Conditions}
    (h : Faultless host conditions) (ceiling : Option Int32) (next : Nat)
    (chunks : List (List UInt8)) :
    let runs := run host conditions ceiling next chunks
    (∀ r ∈ runs, r.result = .ok r.report) ∧
      runs.IsChain (fun upper lower =>
        upper.report.forwarded = (values lower.account.received).length) ∧
      (∃ last ∈ runs.getLast?, last.report.forwarded = 0) ∧
      (runs.map fun r => r.report.prime.toList.length + r.report.discarded).sum =
        (values chunks.flatten).length ∧
      ∃ fates : List (Int32 × Fate), fates.map (·.1) = values chunks.flatten ∧
        (∀ x ∈ fates, x.2.stage < runs.length) ∧
        ∀ k r, runs[k]? = some r → Decides fates k r := by
  have hcascade := h.run_cascades ceiling next chunks
  obtain ⟨hchain, hlast⟩ := hcascade.forwarded
  exact ⟨hcascade.result, hchain, hlast, hcascade.counted, hcascade.exists_fates⟩

/-- A stream that is cut inside a value, repeats one, and has one behind it that the ceiling keeps
from being taken. -/
theorem run_conserves_repeated :
    let runs := run threads (fun _ => {}) (some 10) 0
      [[3, 0], [0, 0, 6, 0, 0, 0, 3, 0, 0, 0, 5, 0], [0, 0, 11, 0, 0, 0, 7, 0, 0, 0, 1]]
    (runs.map fun r => r.report.prime.toList.length + r.report.discarded).sum = 6 ∧
      ∃ fates : List (Int32 × Fate), fates.map (·.1) = [3, 6, 3, 5, 11, 7] ∧
        (∀ x ∈ fates, x.2.stage < runs.length) ∧
        ∀ k r, runs[k]? = some r → Decides fates k r := by
  have hvalues : values [[3, 0], [0, 0, 6, 0, 0, 0, 3, 0, 0, 0, 5, 0],
      [0, 0, 11, 0, 0, 0, 7, 0, 0, 0, 1]].flatten = [3, 6, 3, 5, 11, 7] := by decide
  have h := run_conserves threads_faultless (some 10) 0
    [[3, 0], [0, 0, 6, 0, 0, 0, 3, 0, 0, 0, 5, 0], [0, 0, 11, 0, 0, 0, 7, 0, 0, 0, 1]]
  rw [hvalues] at h
  exact ⟨h.2.2.2.1, h.2.2.2.2⟩

end SieveChain.Chain
