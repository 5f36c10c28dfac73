/-!
# The sieve

The values that are to be sieved, as a range, and what a chain of stages does to a list of
values: the first value is kept and its multiples are removed, and so on with what is left,
until a value comes first that is no candidate.
-/

namespace SieveChain

/-- A half-open range of candidates; it is empty if it stops where it starts or
before. -/
structure Candidates where
  start : Int32
  stop : Int32
  deriving DecidableEq, Repr

namespace Candidates

def count (c : Candidates) : Nat := (c.stop.toInt - c.start.toInt).toNat

def values (c : Candidates) : List Int32 :=
  (List.range c.count).map fun i => Int32.ofInt (c.start.toInt + Int.ofNat i)

end Candidates

/-- A value that may be kept: not below two, and below the ceiling if there is one. -/
def IsCandidate (ceiling : Option Int32) (v : Int32) : Prop :=
  2 ≤ v.toInt ∧ ∀ c ∈ ceiling, v.toInt < c.toInt

instance (ceiling : Option Int32) (v : Int32) : Decidable (IsCandidate ceiling v) :=
  letI : Decidable (∀ c ∈ ceiling, v.toInt < c.toInt) := Option.decidableForallMem ceiling
  inferInstanceAs (Decidable (_ ∧ _))

/-- The values of a list that are no multiples of a value. -/
def withoutMultiples (p : Int32) (vs : List Int32) : List Int32 :=
  vs.filter fun v => ¬p.toInt ∣ v.toInt

theorem length_withoutMultiples_le (p : Int32) (vs : List Int32) :
    (withoutMultiples p vs).length ≤ vs.length := List.length_filter_le _ _

/-- The values that are kept. -/
def sieve (ceiling : Option Int32) : List Int32 → List Int32
  | [] => []
  | v :: vs =>
    if IsCandidate ceiling v then v :: sieve ceiling (withoutMultiples v vs) else []
termination_by vs => vs.length
decreasing_by
  have := length_withoutMultiples_le v vs
  simp only [List.length_cons]
  omega

/-- No smaller value from a lower bound on divides a value. From two on, such values are
the prime numbers. -/
def Undivided (low v : Int) : Prop := ∀ d, low ≤ d → d < v → ¬d ∣ v

end SieveChain
