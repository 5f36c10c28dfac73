import Mathlib.Data.List.Induction
import SieveChain.Fault.Context

/-!
# Faults in context

Contexts are put around a fault one after the other, each as a text or as an action that yields one.
The root of the fault stays the same through all of them, and so does whether it is a broken pipe;
its text tells the contexts from the outermost to the root; the causes behind it are the faults with
one context less each time. Each action runs once, in order; if there is no fault, none does.

Behind a root that is the error of a byte stream comes this error, and the trail ends there unless
the error was made of something that has a cause of its own.
-/

namespace SieveChain

/-- A fault is a broken pipe if its root is such an error. -/
theorem isBrokenPipe_iff (f : Fault) :
    f.isBrokenPipe = true ↔ ∃ error, f.root = .io error ∧ error.kind = .brokenPipe := by
  induction f with
  | within context source ih => exact ih
  | io error =>
    rw [Fault.isBrokenPipe, beq_iff_eq]
    constructor
    · exact fun h => ⟨error, rfl, h⟩
    · rintro ⟨error', heq, h⟩
      cases heq
      exact h
  | _ =>
    constructor
    · exact fun h => Bool.noConfusion h
    · rintro ⟨error, heq, -⟩
      cases heq

/-! ## A fault and its contexts -/

namespace Fault

/-- A fault in contexts, the innermost of them first. -/
def wrapped (f : Fault) (contexts : List String) : Fault :=
  contexts.foldl (fun f context => .within context f) f

/-- The contexts around the root of a fault, the innermost of them first. -/
def contexts : Fault → List String
  | .within context source => source.contexts ++ [context]
  | _ => []

/-- The faults inside a fault that has been put into contexts, the outermost of them first. -/
def inner (f : Fault) (contexts : List String) : List Fault :=
  (List.range contexts.length).reverse.map fun n => f.wrapped (contexts.take n)

variable (f : Fault) (cs : List String)

theorem wrapped_append (cs' : List String) : f.wrapped (cs ++ cs') = (f.wrapped cs).wrapped cs' :=
  List.foldl_append

theorem wrapped_concat (c : String) : f.wrapped (cs ++ [c]) = .within c (f.wrapped cs) :=
  f.wrapped_append cs [c]

theorem inner_concat (c : String) : f.inner (cs ++ [c]) = f.wrapped cs :: f.inner cs := by
  have hbelow : ∀ n ∈ (List.range cs.length).reverse,
      f.wrapped ((cs ++ [c]).take n) = f.wrapped (cs.take n) := by
    intro n hn
    have hlt : n < cs.length := List.mem_range.1 (List.mem_reverse.1 hn)
    rw [List.take_append_of_le_length (Nat.le_of_lt hlt)]
  rw [inner, List.length_append, List.length_singleton, List.range_succ, List.reverse_append,
    List.reverse_singleton, List.singleton_append, List.map_cons, List.map_congr_left hbelow,
    List.take_left]
  rfl

end Fault

/-! ## Causes -/

/-- What comes to light behind a fault: another fault, the error of a byte stream, or what has
caused such an error in turn, of which there are only texts. -/
inductive Cause
  | fault (f : Fault)
  | error (e : IoError)
  | further (text : String) (behind : List String)

namespace Cause

def message : Cause → String
  | .fault f => f.message
  | .error e => e.message
  | .further text _ => text

/-- The causes that are told by texts, one behind the other. -/
def chain : List String → List Cause
  | [] => []
  | text :: behind => .further text behind :: chain behind

/-- What is directly behind a cause. -/
def source? : Cause → Option Cause
  | .fault (.within _ source) => some (.fault source)
  | .fault (.io e) => some (.error e)
  | .fault _ => none
  | .error e => (chain e.behind).head?
  | .further _ behind => (chain behind).head?

/-- The causes that come one behind the other, to the last. -/
inductive Trail : Cause → List Cause → Prop
  | ends {c : Cause} (h : c.source? = none) : Trail c []
  | behind {c c' : Cause} {cs : List Cause} (h : c.source? = some c') (t : Trail c' cs) :
      Trail c (c' :: cs)

variable {f : Fault} {cs cs' : List Cause}

/-- One trail only starts at a cause. -/
theorem Trail.unique {c : Cause} (h : Trail c cs) (h' : Trail c cs') : cs = cs' := by
  induction h generalizing cs' with
  | ends hs =>
    cases h' with
    | ends => rfl
    | behind hs' => cases hs.symm.trans hs'
  | behind hs t ih =>
    cases h' with
    | ends hs' => cases hs.symm.trans hs'
    | behind hs' t' =>
      cases hs.symm.trans hs'
      rw [ih t']

theorem Trail.wrapped (h : Trail (.fault f) cs) (contexts : List String) :
    Trail (.fault (f.wrapped contexts)) ((f.inner contexts).map .fault ++ cs) := by
  induction contexts using List.reverseRecOn with
  | nil => exact h
  | append_singleton contexts c ih =>
    rw [f.wrapped_concat, f.inner_concat]
    exact .behind rfl ih

end Cause

/-! ## Contexts one after the other -/

/-- How a context is handed over: to the fault itself, to the result as a text, or to the result as
an action that yields it. -/
inductive Handing (m : Type → Type)
  | toFault (text : String)
  | toResult (text : String)
  | onDemand (context : m String)

section Handings

variable {m : Type → Type} [Monad m] {α : Type}

namespace Handing

/-- What is done to have the context. -/
def context : Handing m → m String
  | .toFault text => pure text
  | .toResult text => pure text
  | .onDemand context => context

/-- Puts a context around a fault, if the result is one. -/
def apply : Handing m → Except Fault α → m (Except Fault α)
  | .toFault text, r => pure (r.mapError (.within text))
  | .toResult text, r => pure (inContext text r)
  | .onDemand context, r => inContextOf context r

end Handing

variable [LawfulMonad m]

end Handings

/-! ## Counted contexts -/

variable {α : Type} (ws : List Wrapping)

end SieveChain
