import SieveChain.Proofs.Numerals
import SieveChain.Record.Line

/-!
# Reading records

A line is read as an integer exactly if it is the word, one blank, a numeral and then white space.
A record is read line by line, so what is read of two records, one below the other, is what is read
of the first and then what is read of the second. Lines that have been written are read as the
values that they have been written for.
-/

namespace SieveChain

/-! ## Trimming -/

namespace Text

theorem trimEnd_append_blank {blanks : List Char} (h : ∀ c ∈ blanks, isBlank c = true)
    (cs : List Char) : trimEnd (cs ++ blanks) = trimEnd cs := by
  rw [trimEnd, List.reverse_append, List.dropWhile_append_of_pos, ← trimEnd]
  exact fun c hc => h c (List.mem_reverse.1 hc)

theorem trimEnd_concat {c : Char} (h : isBlank c = false) (cs : List Char) :
    trimEnd (cs ++ [c]) = cs ++ [c] := by
  rw [trimEnd, List.reverse_append, List.reverse_singleton, List.singleton_append,
    List.dropWhile_cons_of_neg (Bool.eq_false_iff.1 h), List.reverse_cons, List.reverse_reverse]

/-- What is trimmed from a text is white space. -/
theorem trimEnd_append (cs : List Char) :
    ∃ blanks, trimEnd cs ++ blanks = cs ∧ ∀ c ∈ blanks, isBlank c = true := by
  refine ⟨(cs.reverse.takeWhile isBlank).reverse, ?_, ?_⟩
  · rw [trimEnd, ← List.reverse_append, List.takeWhile_append_dropWhile, List.reverse_reverse]
  · exact fun c hc => List.all_eq_true.1 List.all_takeWhile c (List.mem_reverse.1 hc)

theorem isBlank_digit : ∀ {d : Nat}, d < 10 → isBlank (Numeral.digit d) = false := by decide

end Text

namespace Record

/-! ## Lines -/

theorem after?_eq_some {ps cs rest : List Char} : after? ps cs = some rest ↔ cs = ps ++ rest := by
  fun_induction after? ps cs with
  | case1 cs => simp
  | case2 p ps => simp
  | case3 ps c cs ih => simp [ih]
  | case4 p ps c cs hne => simp [Ne.symm hne]

/-- How a line says an integer: the word and one blank, a numeral, and nothing but white space
behind it. -/
inductive Says : List Char → Int → Prop
  | intro {numeral blanks : List Char} {n : Int} (signed : Numeral.Signed numeral n)
      (blank : ∀ c ∈ blanks, Text.isBlank c = true) :
      Says ("prime ".toList ++ numeral ++ blanks) n

/-- The integer of a line, however large. -/
def integer? (cs : List Char) : Option Int :=
  (after? (opening ++ [' ']) (Text.trimEnd cs)).bind Numeral.integer?

theorem parseLine?_eq (cs : List Char) : parseLine? cs = (integer? cs).bind Numeral.narrow? := by
  rw [parseLine?, integer?, Option.bind_assoc]
  rfl

theorem integer?_eq_some {cs : List Char} {n : Int} : integer? cs = some n ↔ Says cs n := by
  constructor
  · intro h
    obtain ⟨numeral, hafter, hn⟩ := Option.bind_eq_some_iff.1 h
    obtain ⟨blanks, hcs, hblanks⟩ := Text.trimEnd_append cs
    rw [← hcs, after?_eq_some.1 hafter]
    exact .intro (Numeral.integer?_eq_some.1 hn) hblanks
  · intro h
    cases h with
    | @intro numeral blanks n signed blank =>
      -- The last digit stops the trimming.
      obtain ⟨before, d, hlast, hd⟩ := signed.exists_last
      have htrim : Text.trimEnd ("prime ".toList ++ numeral) = "prime ".toList ++ numeral := by
        rw [hlast, ← List.append_assoc, Text.trimEnd_concat (Text.isBlank_digit hd)]
      have hafter : after? (opening ++ [' ']) ("prime ".toList ++ numeral) = some numeral :=
        after?_eq_some.2 rfl
      rw [integer?, Text.trimEnd_append_blank blank, htrim, hafter, Option.bind_some,
        Numeral.integer?_eq_some.2 signed]

theorem parseLine?_eq_some {cs : List Char} {v : Int32} :
    parseLine? cs = some v ↔ Says cs v.toInt := by
  rw [parseLine?_eq, Option.bind_eq_some_iff]
  simp only [integer?_eq_some, Numeral.narrow?_eq_some, exists_eq_right]

/-- Reading a line accepts exactly the lines that say a word, and yields that word. A line that says
an integer beyond the words is refused, and so is one that says nothing. -/
theorem parseLine?_accepts (cs : List Char) :
    (∀ v : Int32, parseLine? cs = some v ↔ Says cs v.toInt) ∧
      (parseLine? cs = none ↔ ∀ n, Says cs n → n < -2147483648 ∨ 2147483647 < n) := by
  refine ⟨fun v => parseLine?_eq_some, ?_⟩
  rw [parseLine?_eq, Option.bind_eq_none_iff]
  simp only [integer?_eq_some, Numeral.narrow?_eq_none]

example : parseLine? "prime +007\u2003\r".toList = some 7 := by decide

/-! ## Records -/

theorem splitLines_ne_nil (cs : List Char) : splitLines cs ≠ [] := by
  fun_cases splitLines cs <;> exact List.cons_ne_nil _ _

theorem splitLines_append (a b : List Char) :
    splitLines (a ++ '\n' :: b) = splitLines a ++ splitLines b := by
  induction a with
  | nil => rfl
  | cons c a ih =>
    rw [List.cons_append, splitLines, splitLines]
    split
    · rw [ih, List.cons_append]
    · rw [ih]
      cases hl : splitLines a with
      | nil => exact absurd hl (splitLines_ne_nil a)
      | cons l ls => rfl

/-- A text without line ends is one line. -/
theorem splitLines_eq_singleton {cs : List Char} (h : '\n' ∉ cs) : splitLines cs = [cs] := by
  induction cs with
  | nil => rfl
  | cons c cs ih =>
    obtain ⟨hc, hcs⟩ := not_or.1 (mt List.mem_cons.2 h)
    rw [splitLines, if_neg (Ne.symm hc), ih hcs]

theorem parse_below (a b : List Char) : parse (a ++ '\n' :: b) = parse a ++ parse b := by
  rw [parse, splitLines_append, List.filterMap_append]
  rfl

/-- A text whose last line has ended, if there is any, goes on with a new line. -/
theorem parse_append {a : List Char} (h : a = [] ∨ a.getLast? = some '\n') (b : List Char) :
    parse (a ++ b) = parse a ++ parse b := by
  rcases h with rfl | h
  · rfl
  · obtain ⟨before, rfl⟩ := List.getLast?_eq_some_iff.1 h
    have hnothing : parse [] = [] := rfl
    rw [List.append_assoc, List.singleton_append, parse_below, parse_below, hnothing,
      List.append_nil]

theorem not_newline_mem_ofInt (n : Int) : '\n' ∉ Numeral.ofInt n := by
  intro h
  cases n with
  | ofNat n => exact absurd (Numeral.digits_ofNat n _ h) (by decide)
  | negSucc n =>
    rcases List.mem_cons.1 h with hc | h
    · cases hc
    · exact absurd (Numeral.digits_ofNat _ _ h) (by decide)

/-- The line of a value is read as this value. -/
theorem parse_line_append (v : Int32) (b : List Char) : parse (line v ++ b) = v :: parse b := by
  have hsays : Says (opening ++ ' ' :: Numeral.ofInt v.toInt) v.toInt := by
    have h := Says.intro (Numeral.signed_ofInt v.toInt) (List.forall_mem_nil _)
    rwa [List.append_nil] at h
  have hone : '\n' ∉ opening ++ ' ' :: Numeral.ofInt v.toInt := by
    intro h
    rcases List.mem_append.1 h with h | h
    · exact absurd h (by decide)
    · rcases List.mem_cons.1 h with h | h
      · cases h
      · exact not_newline_mem_ofInt _ h
  have hvalue : parse (opening ++ ' ' :: Numeral.ofInt v.toInt) = [v] := by
    rw [parse, splitLines_eq_singleton hone, List.filterMap_cons_some (parseLine?_eq_some.2 hsays),
      List.filterMap_nil]
  rw [line, List.append_assoc, List.singleton_append, parse_below, hvalue, List.singleton_append]

theorem parse_lines (vs : List Int32) : parse (vs.flatMap line) = vs := by
  induction vs with
  | nil => rfl
  | cons v vs ih => rw [List.flatMap_cons, parse_line_append, ih]

end Record

end SieveChain
