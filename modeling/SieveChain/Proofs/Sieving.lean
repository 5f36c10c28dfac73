import SieveChain.Sieve
import SieveChain.Stage.Basic
import Mathlib.Data.Nat.Prime.Basic

/-!
# What sieving keeps

Stages test values by comparing and by taking remainders of words; the sieve is stated by
divisibility of integers. On ascending candidates the sieve keeps exactly the values that
no smaller candidate divides. From two on these are the prime numbers.
-/

namespace SieveChain

theorem accepts_iff (ceiling : Option Int32) (v : Int32) :
    Stage.accepts ceiling v = true ↔ IsCandidate ceiling v := by
  cases ceiling with
  | none =>
    simp [Stage.accepts, IsCandidate, Stage.smallest, Int32.le_iff_toInt_le]
  | some c =>
    simp only [Stage.accepts, IsCandidate, Stage.smallest, Bool.and_eq_true, decide_eq_true_eq,
      Int32.le_iff_toInt_le, Int32.lt_iff_toInt_lt, Option.mem_def, Option.some.injEq,
      forall_eq']
    rfl

theorem passes_iff (p v : Int32) : Stage.passes p v = true ↔ ¬p.toInt ∣ v.toInt := by
  have hz : (0 : Int32).toInt = 0 := rfl
  rw [Stage.passes, bne_iff_ne, ne_eq, ← Int32.toInt_inj, Int32.toInt_mod, hz,
    Int.dvd_iff_tmod_eq_zero]

theorem filter_passes (p : Int32) (vs : List Int32) :
    vs.filter (Stage.passes p) = withoutMultiples p vs := by
  apply List.filter_congr
  intro v _
  rw [Bool.eq_iff_iff, passes_iff, decide_eq_true_eq]

/-- The values that are kept where each stage hands on a ceiling of its own. -/
def keptUnder (heir : Option Int32 → Option Int32) (ceiling : Option Int32) :
    List Int32 → List Int32
  | [] => []
  | v :: vs =>
    if IsCandidate ceiling v then v :: keptUnder heir (heir ceiling) (withoutMultiples v vs)
    else []
termination_by vs => vs.length
decreasing_by
  have := length_withoutMultiples_le v vs
  simp only [List.length_cons]
  omega

/-- Stages under one and the same ceiling sieve together. -/
theorem keptUnder_same {heir : Option Int32 → Option Int32} (hh : ∀ c, heir c = c)
    (ceiling : Option Int32) (vs : List Int32) : keptUnder heir ceiling vs = sieve ceiling vs := by
  fun_induction sieve ceiling vs with
  | case1 => rw [keptUnder]
  | case2 v vs hv ih => rw [keptUnder, if_pos hv, hh, ih]
  | case3 v vs hv => rw [keptUnder, if_neg hv]

theorem keptUnder_of_accepts {heir : Option Int32 → Option Int32} {ceiling : Option Int32}
    {v : Int32} (hv : Stage.accepts ceiling v = true) (vs : List Int32) :
    keptUnder heir ceiling (v :: vs) =
      v :: keptUnder heir (heir ceiling) (vs.filter (Stage.passes v)) := by
  rw [keptUnder, if_pos ((accepts_iff ceiling v).1 hv), filter_passes]

theorem keptUnder_of_not_accepts {heir : Option Int32 → Option Int32} {ceiling : Option Int32}
    {v : Int32} (hv : Stage.accepts ceiling v = false) (vs : List Int32) :
    keptUnder heir ceiling (v :: vs) = [] := by
  rw [keptUnder, if_neg]
  intro hc
  rw [(accepts_iff ceiling v).2 hc] at hv
  exact Bool.noConfusion hv

/-- A value behind others does not change what is kept of these. -/
theorem keptUnder_mono {heir : Option Int32 → Option Int32} {ceiling : Option Int32}
    {vs ws : List Int32} (h : vs <+: ws) :
    keptUnder heir ceiling vs <+: keptUnder heir ceiling ws := by
  fun_induction keptUnder heir ceiling vs generalizing ws with
  | case1 => exact List.nil_prefix
  | case2 ceiling v vs hv ih =>
    obtain ⟨rest, rfl⟩ := h
    rw [List.cons_append, keptUnder, if_pos hv]
    refine (List.prefix_cons_inj v).2 (ih ?_)
    exact (List.prefix_append vs rest).filter _
  | case3 => exact List.nil_prefix

/-- What is kept stays in its order. -/
theorem sieve_sublist (ceiling : Option Int32) (vs : List Int32) :
    (sieve ceiling vs).Sublist vs := by
  fun_induction sieve ceiling vs with
  | case1 => exact List.Sublist.refl _
  | case2 v vs hv ih => exact (ih.trans List.filter_sublist).cons_cons v
  | case3 v vs hv => exact List.nil_sublist _

/-! ## Ascending values -/

/-- Values in strictly ascending order. -/
abbrev Ascending (vs : List Int32) : Prop := vs.Pairwise fun v w => v.toInt < w.toInt

/-- No smaller value of a list divides a value. -/
def UndividedIn (vs : List Int32) (v : Int32) : Prop :=
  ∀ d ∈ vs, d.toInt < v.toInt → ¬d.toInt ∣ v.toInt

instance (vs : List Int32) (v : Int32) : Decidable (UndividedIn vs v) :=
  List.decidableBAll (fun d : Int32 => d.toInt < v.toInt → ¬d.toInt ∣ v.toInt) vs

/-- Removing the multiples of the first value does not change which of the others are
divided by a smaller one: a removed value that divides one of them is itself a multiple
of the first, which then divides it too. -/
theorem undividedIn_cons {p v : Int32} {vs : List Int32} (hp : p.toInt < v.toInt) :
    UndividedIn (p :: vs) v ↔ ¬p.toInt ∣ v.toInt ∧ UndividedIn (withoutMultiples p vs) v := by
  constructor
  · intro h
    refine ⟨h p List.mem_cons_self hp, fun d hd => ?_⟩
    exact h d (List.mem_cons_of_mem p ((List.mem_filter.1 hd).1))
  · rintro ⟨hpv, h⟩ d hd hlt hdv
    rcases List.mem_cons.1 hd with rfl | hd
    · exact hpv hdv
    · by_cases hpd : p.toInt ∣ d.toInt
      · exact hpv (hpd.trans hdv)
      · exact h d (List.mem_filter.2 ⟨hd, by simpa using hpd⟩) hlt hdv

theorem sieve_ascending {ceiling : Option Int32} {vs : List Int32} (ha : Ascending vs)
    (hc : ∀ v ∈ vs, IsCandidate ceiling v) :
    sieve ceiling vs = vs.filter fun v => UndividedIn vs v := by
  fun_induction sieve ceiling vs with
  | case1 => rfl
  | case2 p vs hp ih =>
    have hlt := (List.pairwise_cons.1 ha).1
    have hsub : ∀ v ∈ withoutMultiples p vs, v ∈ vs := fun v hv => (List.mem_filter.1 hv).1
    have hfirst : UndividedIn (p :: vs) p := by
      intro d hd hdp
      rcases List.mem_cons.1 hd with rfl | hd
      · omega
      · have := hlt d hd; omega
    rw [ih ((List.pairwise_cons.1 ha).2.filter _)
      fun v hv => hc v (List.mem_cons_of_mem p (hsub v hv))]
    rw [List.filter_cons_of_pos (by simpa using hfirst), withoutMultiples, List.filter_filter]
    refine congrArg (List.cons p) (List.filter_congr fun v hv => ?_)
    rw [Bool.eq_iff_iff, decide_eq_true_eq, undividedIn_cons (hlt v hv), Bool.and_eq_true,
      decide_eq_true_eq, decide_eq_true_eq, And.comm]
    rfl
  | case3 p vs hp => exact absurd (hc p List.mem_cons_self) hp

/-! ## Ranges -/

namespace Candidates

/-- The values of a range do not wrap around. -/
theorem toInt_value (c : Candidates) {i : Nat} (hi : i < c.count) :
    (Int32.ofInt (c.start.toInt + Int.ofNat i)).toInt = c.start.toInt + i := by
  have hlow := c.start.le_toInt
  have hhigh := c.stop.toInt_lt
  rw [count] at hi
  exact Int32.toInt_ofInt_of_le (by simp; omega) (by simp; omega)

theorem mem_values {c : Candidates} {v : Int32} :
    v ∈ c.values ↔ c.start.toInt ≤ v.toInt ∧ v.toInt < c.stop.toInt := by
  rw [values, List.mem_map]
  constructor
  · rintro ⟨i, hi, rfl⟩
    rw [List.mem_range] at hi
    rw [c.toInt_value hi]
    rw [count] at hi
    omega
  · rintro ⟨hlow, hhigh⟩
    have hi : (v.toInt - c.start.toInt).toNat < c.count := by rw [count]; omega
    refine ⟨_, List.mem_range.2 hi, ?_⟩
    rw [← Int32.toInt_inj, c.toInt_value hi]
    omega

theorem ascending_values (c : Candidates) : Ascending c.values := by
  rw [Ascending, values, List.pairwise_map]
  apply List.pairwise_lt_range.imp_of_mem
  intro i j hi hj hij
  rw [c.toInt_value (List.mem_range.1 hi), c.toInt_value (List.mem_range.1 hj)]
  omega

/-- Of a range of candidates the sieve keeps, in ascending order, what no smaller value
of the range divides. -/
theorem mem_sieve_values {ceiling : Option Int32} {c : Candidates} (hlow : 2 ≤ c.start.toInt)
    (hc : ∀ top ∈ ceiling, c.stop.toInt ≤ top.toInt) (v : Int32) :
    v ∈ sieve ceiling c.values ↔
      c.start.toInt ≤ v.toInt ∧ v.toInt < c.stop.toInt ∧ Undivided c.start.toInt v.toInt := by
  have hcand : ∀ v ∈ c.values, IsCandidate ceiling v := by
    intro v hv
    rw [mem_values] at hv
    refine ⟨by omega, fun top ht => ?_⟩
    have := hc top ht
    omega
  rw [sieve_ascending c.ascending_values hcand, List.mem_filter, mem_values, decide_eq_true_eq,
    and_assoc]
  refine and_congr_right fun hv => and_congr_right fun hv' => ?_
  constructor
  · intro h d hd hdv
    have hi : (d - c.start.toInt).toNat < c.count := by rw [count]; omega
    have hd' : (Int32.ofInt (c.start.toInt + Int.ofNat (d - c.start.toInt).toNat)).toInt = d := by
      rw [c.toInt_value hi]; omega
    have := h _ (List.mem_map_of_mem (List.mem_range.2 hi))
    rw [hd'] at this
    exact this hdv
  · intro h d hd hdv
    exact h d.toInt (mem_values.1 hd).1 hdv

end Candidates

/-- From two on, undivided means prime. -/
theorem undivided_two_iff {v : Int} (hv : 2 ≤ v) : Undivided 2 v ↔ v.toNat.Prime := by
  have hcast : (v.toNat : Int) = v := Int.toNat_of_nonneg (by omega)
  rw [Nat.prime_def_lt']
  constructor
  · intro h
    refine ⟨by omega, fun m hm hmv hdvd => h m (by omega) (by omega) ?_⟩
    rw [← hcast]
    exact Int.natCast_dvd_natCast.2 hdvd
  · rintro ⟨-, h⟩ d hd hdv hdvd
    have hd' : (d.toNat : Int) = d := Int.toNat_of_nonneg (by omega)
    apply h d.toNat (by omega) (by omega)
    rw [← hd', ← hcast] at hdvd
    exact Int.natCast_dvd_natCast.1 hdvd

end SieveChain
