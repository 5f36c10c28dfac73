import SieveChain.Text.Numeral

/-!
# Numerals

Reading accepts exactly the numerals: digits, with a sign in front of them if there is one. What is
printed is such a numeral, so reading undoes printing, for every number and for every word.
-/

namespace SieveChain.Numeral

/-! ## Digits -/

theorem digit?_digit : ∀ {n : Nat}, n < 10 → digit? (digit n) = some n := by
  decide

theorem digit_bounds : ∀ {n : Nat}, n < 10 → '0' ≤ digit n ∧ digit n ≤ '9' := by
  decide

theorem digit?_eq_some {c : Char} {d : Nat} : digit? c = some d ↔ d < 10 ∧ c = digit d := by
  constructor
  · intro h
    rw [digit?] at h
    split at h
    · next hc =>
      have hlow : '0'.toNat ≤ c.toNat := hc.1
      have hhigh : c.toNat ≤ '0'.toNat + 9 := hc.2
      cases h
      refine ⟨by omega, ?_⟩
      rw [digit, Nat.add_sub_cancel' hlow, Char.ofNat_toNat]
    · cases h
  · rintro ⟨hd, rfl⟩
    exact digit?_digit hd

/-! ## The grammar of numerals -/

/-- One or more digits that say a number, most significant first. -/
inductive Decimal : List Char → Nat → Prop
  | single {d : Nat} (hd : d < 10) : Decimal [digit d] d
  | concat {ds : List Char} {n d : Nat} (h : Decimal ds n) (hd : d < 10) :
      Decimal (ds ++ [digit d]) (10 * n + d)

/-- Digits that say an integer, with a sign in front of them if there is one. -/
inductive Signed : List Char → Int → Prop
  | bare {ds : List Char} {n : Nat} (h : Decimal ds n) : Signed ds n
  | plus {ds : List Char} {n : Nat} (h : Decimal ds n) : Signed ('+' :: ds) n
  | minus {ds : List Char} {n : Nat} (h : Decimal ds n) : Signed ('-' :: ds) (-n)

namespace Decimal

variable {ds : List Char} {n : Nat}

theorem mem (h : Decimal ds n) : ∀ c ∈ ds, '0' ≤ c ∧ c ≤ '9' := by
  induction h with
  | single hd => exact List.forall_mem_singleton.2 (digit_bounds hd)
  | concat h hd ih =>
    exact List.forall_mem_append.2 ⟨ih, List.forall_mem_singleton.2 (digit_bounds hd)⟩

theorem exists_last (h : Decimal ds n) : ∃ before d, ds = before ++ [digit d] ∧ d < 10 := by
  cases h with
  | single hd => exact ⟨[], n, rfl, hd⟩
  | @concat before n d h hd => exact ⟨before, d, rfl, hd⟩

theorem ne_nil (h : Decimal ds n) : ds ≠ [] := by
  obtain ⟨before, d, rfl, -⟩ := h.exists_last
  exact List.append_ne_nil_of_right_ne_nil _ (List.cons_ne_nil _ _)

end Decimal

/-- A numeral ends in a digit. -/
theorem Signed.exists_last {cs : List Char} {n : Int} (h : Signed cs n) :
    ∃ before d, cs = before ++ [digit d] ∧ d < 10 := by
  cases h with
  | bare h => exact h.exists_last
  | plus h =>
    obtain ⟨before, d, rfl, hd⟩ := h.exists_last
    exact ⟨'+' :: before, d, rfl, hd⟩
  | minus h =>
    obtain ⟨before, d, rfl, hd⟩ := h.exists_last
    exact ⟨'-' :: before, d, rfl, hd⟩

/-! ## Reading accepts the grammar -/

/-- Reads the digits behind those that have said a number so far. -/
def readOn (acc : Option Nat) (ds : List Char) : Option Nat :=
  ds.foldl (fun acc c => acc.bind fun n => (digit? c).map (10 * n + ·)) acc

theorem readOn_cons (n : Nat) (c : Char) (ds : List Char) :
    readOn (some n) (c :: ds) = readOn ((digit? c).map (10 * n + ·)) ds := rfl

theorem readOn_none (ds : List Char) : readOn none ds = none := by
  induction ds with
  | nil => rfl
  | cons c ds ih => exact ih

theorem natural?_of_ne_nil {ds : List Char} (h : ds ≠ []) : natural? ds = readOn (some 0) ds := by
  unfold natural?
  split
  · exact absurd rfl h
  · rfl

theorem Decimal.readOn_eq {ds : List Char} {n : Nat} (h : Decimal ds n) :
    readOn (some 0) ds = some n := by
  induction h with
  | single hd =>
    rw [readOn_cons, digit?_digit hd, Option.map_some, Nat.mul_zero, Nat.zero_add]
    rfl
  | concat h hd ih =>
    unfold readOn at ih ⊢
    rw [List.foldl_append, ih, List.foldl_cons, List.foldl_nil, Option.bind_some, digit?_digit hd,
      Option.map_some]

theorem Decimal.of_readOn {before ds : List Char} {m n : Nat} (h : Decimal before m)
    (hn : readOn (some m) ds = some n) : Decimal (before ++ ds) n := by
  induction ds generalizing before m with
  | nil =>
    cases hn
    rw [List.append_nil]
    exact h
  | cons c ds ih =>
    rw [readOn_cons] at hn
    cases hc : digit? c with
    | none =>
      rw [hc, Option.map_none, readOn_none] at hn
      cases hn
    | some d =>
      obtain ⟨hd, rfl⟩ := digit?_eq_some.1 hc
      rw [hc, Option.map_some] at hn
      rw [List.append_cons]
      exact ih (h.concat hd) hn

theorem natural?_eq_some {cs : List Char} {n : Nat} : natural? cs = some n ↔ Decimal cs n := by
  constructor
  · intro h
    cases cs with
    | nil => cases h
    | cons c ds =>
      rw [natural?_of_ne_nil (List.cons_ne_nil c ds), readOn_cons] at h
      cases hc : digit? c with
      | none =>
        rw [hc, Option.map_none, readOn_none] at h
        cases h
      | some d =>
        obtain ⟨hd, rfl⟩ := digit?_eq_some.1 hc
        rw [hc, Option.map_some, Nat.mul_zero, Nat.zero_add] at h
        exact (Decimal.single hd).of_readOn h
  · intro h
    rw [natural?_of_ne_nil h.ne_nil, h.readOn_eq]

theorem integer?_eq_some {cs : List Char} {n : Int} : integer? cs = some n ↔ Signed cs n := by
  constructor
  · intro h
    unfold integer? at h
    split at h
    · obtain ⟨m, hm, rfl⟩ := Option.map_eq_some_iff.1 h
      exact .plus (natural?_eq_some.1 hm)
    · obtain ⟨m, hm, rfl⟩ := Option.map_eq_some_iff.1 h
      exact .minus (natural?_eq_some.1 hm)
    · obtain ⟨m, hm, rfl⟩ := Option.map_eq_some_iff.1 h
      exact .bare (natural?_eq_some.1 hm)
  · intro h
    cases h with
    | plus h => rw [integer?, natural?_eq_some.2 h]; rfl
    | minus h => rw [integer?, natural?_eq_some.2 h]; rfl
    | bare h =>
      -- Digits without a sign do not begin with one.
      have hfirst {c : Char} {ds : List Char} (hcs : cs = c :: ds) : '0' ≤ c ∧ c ≤ '9' :=
        h.mem c (hcs ▸ List.mem_cons_self)
      unfold integer?
      split
      · exact absurd (hfirst rfl) (by decide)
      · exact absurd (hfirst rfl) (by decide)
      · rw [natural?_eq_some.2 h]; rfl

/-! ## What is printed -/

theorem decimal_ofNat (n : Nat) : Decimal (ofNat n) n := by
  induction n using Nat.strongRecOn with
  | ind n ih =>
    rw [ofNat]
    split
    · next hn => exact .single hn
    · next hn =>
      have hlast : n % 10 < 10 := Nat.mod_lt n (by decide)
      have h := (ih (n / 10) (by omega)).concat hlast
      rwa [Nat.div_add_mod] at h

theorem signed_ofInt (n : Int) : Signed (ofInt n) n := by
  cases n with
  | ofNat n => exact .bare (decimal_ofNat n)
  | negSucc n => exact .minus (decimal_ofNat (n + 1))

/-- A number is printed in digits. -/
theorem digits_ofNat (n : Nat) : ∀ c ∈ ofNat n, '0' ≤ c ∧ c ≤ '9' := (decimal_ofNat n).mem

theorem ofNat_ne_nil (n : Nat) : ofNat n ≠ [] := (decimal_ofNat n).ne_nil

/-- A number begins with a digit, and not with a sign. -/
theorem ofNat_ne_cons {c : Char} (hc : ¬('0' ≤ c ∧ c ≤ '9')) (n : Nat) (cs : List Char) :
    ofNat n ≠ c :: cs :=
  fun h => hc (digits_ofNat n c (by rw [h]; exact List.mem_cons_self))

/-- A numeral begins with a digit or the sign. -/
theorem ofInt_ne_cons {c : Char} (hs : c ≠ '-') (hc : ¬('0' ≤ c ∧ c ≤ '9')) (n : Int)
    (cs : List Char) : ofInt n ≠ c :: cs := by
  cases n with
  | ofNat n => exact ofNat_ne_cons hc n cs
  | negSucc n => exact fun h => hs (List.head_eq_of_cons_eq h).symm

theorem integer?_ofInt (n : Int) : integer? (ofInt n) = some n :=
  integer?_eq_some.2 (signed_ofInt n)

/-! ## Words -/

/-- A word fits a word. -/
theorem narrow_toInt (v : Int32) : narrow? v.toInt = some v := by
  have hle := v.le_toInt
  have hlt := v.toInt_lt
  rw [narrow?, if_pos (by omega), Int32.ofInt_toInt]

/-- Nothing is wrapped: a word is what it has been as an integer. -/
theorem narrow?_eq_some {n : Int} {v : Int32} : narrow? n = some v ↔ n = v.toInt := by
  constructor
  · intro h
    rw [narrow?] at h
    split at h
    · next hn =>
      cases h
      rw [Int32.toInt_ofInt_of_le hn.1 (Int.lt_add_one_of_le hn.2)]
    · cases h
  · rintro rfl
    exact narrow_toInt v

theorem narrow?_eq_none {n : Int} : narrow? n = none ↔ n < -2147483648 ∨ 2147483647 < n := by
  rw [narrow?]
  split
  · next hn => simp only [reduceCtorEq, false_iff]; omega
  · next hn => simp only [true_iff]; omega

theorem int32?_ofInt (v : Int32) : int32? (ofInt v.toInt) = some v := by
  rw [int32?, integer?_ofInt, Option.bind_some, narrow_toInt]

end SieveChain.Numeral
