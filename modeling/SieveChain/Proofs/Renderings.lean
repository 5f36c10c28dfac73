import SieveChain.Proofs.Configurations

/-!
# Configurations as they are rendered

A configuration is rendered as a document of lines, each with a bare key and an integer or a plain
string. Such a document is read as what is written on its lines, in their order. So a configuration
that has been rendered is read again as it was, unless its lower bound is below two.
-/

namespace SieveChain.Toml

variable {ds cs : List Char}

/-! ## Characters -/

/-- A character of a class is none of those outside. -/
theorem ne_of_class {p : Char → Bool} {c d : Char} (hc : p c = true) (hd : p d = false) :
    c ≠ d := by
  rintro rfl
  rw [hc] at hd
  cases hd

/-- A text that begins with a character of a class begins with none of those outside. -/
theorem class_of_cons {p : Char → Bool} {c d : Char} (hc : p c = true) (h : c :: cs = d :: ds) :
    p d = true :=
  List.head_eq_of_cons_eq h ▸ hc

theorem skipBlanks_cons {p : Char → Bool} {c : Char} (hc : p c = true) (hspace : p ' ' = false)
    (htab : p '\t' = false) : skipBlanks (c :: cs) = c :: cs := by
  have hblank : isBlank c = false := by
    rw [isBlank, beq_false_of_ne (ne_of_class hc hspace), beq_false_of_ne (ne_of_class hc htab)]
    rfl
  rw [skipBlanks, List.dropWhile_cons_of_neg (by rw [hblank]; exact Bool.false_ne_true)]

/-- A line that begins with a bare key is not at its end. -/
theorem lineEnd?_cons {c : Char} (hc : isBare c = true) : lineEnd? (c :: cs) = none := by
  have hcomment : skipComment (c :: cs) = c :: cs := by
    unfold skipComment
    split
    · next heq => cases class_of_cons hc heq
    · rfl
  rw [lineEnd?, skipBlanks_cons hc rfl rfl, hcomment]
  dsimp only
  unfold newline?
  split
  · next heq => cases class_of_cons hc heq
  · next heq => cases class_of_cons hc heq
  · rfl

/-! ## Integers -/

theorem hexValue_digit : ∀ {d : Nat}, d < 10 → hexValue (Numeral.digit d) = d := by
  decide

theorem valueOf_decimal {n : Nat} (h : Numeral.Decimal ds n) : valueOf 10 ds = n := by
  induction h with
  | single hd =>
    rw [valueOf, List.foldl_cons, List.foldl_nil, Nat.mul_zero, Nat.zero_add, hexValue_digit hd]
  | concat h hd ih =>
    unfold valueOf at ih ⊢
    rw [List.foldl_append, ih, List.foldl_cons, List.foldl_nil, hexValue_digit hd]

theorem isDigit_iff {c : Char} : isDigit c = true ↔ '0' ≤ c ∧ c ≤ '9' := by
  rw [isDigit, Bool.and_eq_true, decide_eq_true_eq, decide_eq_true_eq]

theorem isDigit_ofNat (n : Nat) : ∀ c ∈ Numeral.ofNat n, isDigit c = true :=
  fun c hc => isDigit_iff.2 (Numeral.digits_ofNat n c hc)

theorem exists_cons_ofNat (n : Nat) : ∃ d ds, Numeral.ofNat n = d :: ds ∧ isDigit d = true := by
  obtain ⟨d, ds, h⟩ := List.exists_cons_of_ne_nil (Numeral.ofNat_ne_nil n)
  exact ⟨d, ds, h, isDigit_ofNat n d (h ▸ List.mem_cons_self)⟩

/-- Only zero begins with a zero. -/
theorem eq_zero_of_ofNat {n : Nat} (h : Numeral.ofNat n = '0' :: ds) : n = 0 := by
  induction n using Nat.strongRecOn generalizing ds with
  | ind n ih =>
    rw [Numeral.ofNat] at h
    split at h
    · next hn =>
      have hzero : ∀ {d : Nat}, d < 10 → Numeral.digit d = '0' → d = 0 := by decide
      exact hzero hn (List.head_eq_of_cons_eq h)
    · next hn =>
      -- The digits in front are those of a number that is not zero.
      obtain ⟨d, before, hbefore, -⟩ := exists_cons_ofNat (n / 10)
      have hd : d = '0' := by
        rw [hbefore] at h
        exact List.head_eq_of_cons_eq h
      have htenth : n / 10 = 0 := ih (n / 10) (by omega) (hd ▸ hbefore)
      omega

/-- Behind the first digits of a number at the end of a line comes another digit or the line end. -/
theorem isDigit_or_end {before behind : List Char} {c : Char} (hds : ∀ d ∈ ds, isDigit d = true)
    (hbefore : ∀ d ∈ before, isDigit d = true) (h : ds ++ '\n' :: cs = before ++ c :: behind) :
    isDigit c = true ∨ c = '\n' := by
  induction ds generalizing before with
  | nil =>
    cases before with
    | nil => exact .inr (List.head_eq_of_cons_eq h).symm
    | cons b before =>
      have hb := hbefore b List.mem_cons_self
      rw [← List.head_eq_of_cons_eq h] at hb
      cases hb
  | cons d ds ih =>
    cases before with
    | nil => exact .inl (List.head_eq_of_cons_eq h ▸ hds d List.mem_cons_self)
    | cons b before =>
      exact ih (List.forall_mem_cons.1 hds).2 (List.forall_mem_cons.1 hbefore).2
        (List.tail_eq_of_cons_eq h)

theorem looksDated_digits (hds : ∀ d ∈ ds, isDigit d = true) :
    looksDated (ds ++ '\n' :: cs) = false := by
  unfold looksDated
  split
  · next a b c d e behind heq =>
    have hdate : ([a, b, c, d].all isDigit && e == '-') = false := by
      rw [Bool.and_eq_false_imp, List.all_eq_true]
      intro hbefore
      obtain he | rfl := isDigit_or_end hds hbefore heq
      · exact beq_false_of_ne (ne_of_class he rfl)
      · rfl
    have htime : ([a, b].all isDigit && c == ':') = false := by
      rw [Bool.and_eq_false_imp, List.all_eq_true]
      intro hbefore
      obtain hc | rfl := isDigit_or_end hds hbefore heq
      · exact beq_false_of_ne (ne_of_class hc rfl)
      · rfl
    rw [hdate, htime]
    rfl
  · rfl

theorem looksDated_minus (cs : List Char) : looksDated ('-' :: cs) = false := by
  unfold looksDated
  split
  · next heq =>
    rw [← List.head_eq_of_cons_eq heq]
    rfl
  · rfl

theorem moreDigits_append (hds : ∀ d ∈ ds, isDigit d = true) :
    moreDigits isDigit (ds ++ '\n' :: cs) = (ds, '\n' :: cs) := by
  induction ds with
  | nil => rfl
  | cons d ds ih =>
    obtain ⟨hd, hds⟩ := List.forall_mem_cons.1 hds
    rw [List.cons_append, moreDigits]
    · rw [if_pos hd, ih hds]
    · rintro c cs rfl
      cases hd

theorem wholeDigits?_ofNat (n : Nat) :
    wholeDigits? (Numeral.ofNat n ++ '\n' :: cs) = some (Numeral.ofNat n, '\n' :: cs) := by
  obtain ⟨d, ds, h, hd⟩ := exists_cons_ofNat n
  have hds : ∀ d ∈ ds, isDigit d = true :=
    fun d' hd' => isDigit_ofNat n d' (h ▸ List.mem_cons_of_mem d hd')
  by_cases hzero : d = '0'
  · obtain rfl := eq_zero_of_ofNat (hzero ▸ h)
    rw [Numeral.ofNat]
    rfl
  · rw [h, List.cons_append, wholeDigits?]
    · rw [digits?, if_pos hd, moreDigits_append hds]
    · exact fun cs heq => hzero (List.head_eq_of_cons_eq heq)

theorem sign_ofNat (n : Nat) (cs : List Char) :
    sign (Numeral.ofNat n ++ cs) = (false, Numeral.ofNat n ++ cs) := by
  obtain ⟨d, ds, h, hd⟩ := exists_cons_ofNat n
  rw [h, List.cons_append]
  unfold sign
  split
  · next heq => cases class_of_cons hd heq
  · next heq => cases class_of_cons hd heq
  · rfl

/-- A natural number up to the end of a line, with a minus before it or without one. -/
theorem decimal?_of_sign {text : List Char} {negative : Bool} {n : Nat}
    (hs : sign text = (negative, Numeral.ofNat n ++ '\n' :: cs)) :
    decimal? text =
      (integer? (if negative then -(n : Int) else n)).map fun v => (v, '\n' :: cs) := by
  unfold decimal?
  rw [hs]
  dsimp only
  obtain ⟨d, ds, h, hd⟩ := exists_cons_ofNat n
  split
  · next heq =>
    rw [h] at heq
    cases class_of_cons hd heq
  · next heq =>
    rw [h] at heq
    cases class_of_cons hd heq
  · rw [wholeDigits?_ofNat, Option.bind_eq_bind, Option.bind_some]
    dsimp only
    rw [if_neg]
    · rw [valueOf_decimal (Numeral.decimal_ofNat n)]
      cases integer? (if negative then -(n : Int) else n) <;> rfl
    · exact Bool.false_ne_true

/-- The digits of a natural number do not say another base, and no date or time. -/
theorem number?_ofNat (n : Nat) :
    number? (Numeral.ofNat n ++ '\n' :: cs) = decimal? (Numeral.ofNat n ++ '\n' :: cs) := by
  have hbase {c : Char} {behind : List Char} (hc : isDigit c = false) (hend : c ≠ '\n') :
      Numeral.ofNat n ++ '\n' :: cs ≠ '0' :: c :: behind := by
    intro heq
    have hzero : ∀ d ∈ ['0'], isDigit d = true := by simp [isDigit]
    obtain h | h := isDigit_or_end (isDigit_ofNat n) hzero heq
    · exact ne_of_class h hc rfl
    · exact hend h
  unfold number?
  split
  · next heq => exact absurd heq (hbase rfl (by decide))
  · next heq => exact absurd heq (hbase rfl (by decide))
  · next heq => exact absurd heq (hbase rfl (by decide))
  · rw [looksDated_digits (isDigit_ofNat n), if_neg Bool.false_ne_true]

theorem number?_minus (cs : List Char) : number? ('-' :: cs) = decimal? ('-' :: cs) := by
  unfold number?
  split
  · next heq => cases heq
  · next heq => cases heq
  · next heq => cases heq
  · rw [looksDated_minus, if_neg Bool.false_ne_true]

theorem number?_ofInt (n : Int) :
    number? (Numeral.ofInt n ++ '\n' :: cs) = (integer? n).map fun v => (v, '\n' :: cs) := by
  cases n with
  | ofNat n =>
    rw [Numeral.ofInt, number?_ofNat]
    exact decimal?_of_sign (sign_ofNat n _)
  | negSucc n =>
    have hsign : sign ('-' :: (Numeral.ofNat (n + 1) ++ '\n' :: cs)) =
        (true, Numeral.ofNat (n + 1) ++ '\n' :: cs) := rfl
    rw [Numeral.ofInt, List.cons_append, number?_minus, decimal?_of_sign hsign, if_pos rfl]
    rfl

/-- The characters that an integer begins with. -/
def beginsInteger (c : Char) : Bool := isDigit c || c == '-'

theorem exists_cons_ofInt (n : Int) :
    ∃ c ds, Numeral.ofInt n = c :: ds ∧ beginsInteger c = true := by
  cases n with
  | ofNat n =>
    obtain ⟨d, ds, h, hd⟩ := exists_cons_ofNat n
    exact ⟨d, ds, h, by rw [beginsInteger, hd]; rfl⟩
  | negSucc n => exact ⟨'-', _, rfl, rfl⟩

theorem value?_ofInt (most depth : Nat) (n : Int) :
    value? most depth (Numeral.ofInt n ++ cs) = number? (Numeral.ofInt n ++ cs) := by
  obtain ⟨c, ds, h, hc⟩ := exists_cons_ofInt n
  rw [h, List.cons_append]
  unfold value?
  split
  · next heq => cases class_of_cons hc heq
  · next heq => cases class_of_cons hc heq
  · next heq => cases class_of_cons hc heq
  · next heq => cases class_of_cons hc heq
  · next heq => cases class_of_cons hc heq
  · next heq => cases class_of_cons hc heq
  · rfl

/-! ## Strings -/

section Strings

variable {text : List Char} (h : ∀ c ∈ text, isPlain c = true ∧ c ≠ '"' ∧ c ≠ '\\')
include h

theorem basic_append : basic (text ++ '"' :: cs) = some (text, cs) := by
  induction text with
  | nil => rfl
  | cons c text ih =>
    obtain ⟨⟨hplain, hquote, hslash⟩, htext⟩ := List.forall_mem_cons.1 h
    rw [List.cons_append]
    unfold basic
    split
    · next heq => exact absurd (List.head_eq_of_cons_eq heq) hquote
    · next heq => exact absurd (List.head_eq_of_cons_eq heq) hslash
    · next heq => exact absurd (List.head_eq_of_cons_eq heq) hslash
    · next heq => exact absurd (List.head_eq_of_cons_eq heq) hslash
    · next heq =>
      cases heq
      rw [hplain, bne_iff_ne.2 hslash, ih htext]
      rfl
    · next heq => cases heq

/-- Not even an empty string at the end of a line begins with three quotes. -/
theorem string?_append :
    string? ('"' :: (text ++ '"' :: '\n' :: cs)) = some (text, '\n' :: cs) := by
  cases text with
  | nil => rfl
  | cons c text =>
    have hquote := (h c List.mem_cons_self).2.1
    unfold string?
    split
    · next heq => exact absurd (List.head_eq_of_cons_eq (List.tail_eq_of_cons_eq heq)) hquote
    · next heq =>
      cases heq
      exact basic_append h
    · next heq => cases heq
    · next heq => cases heq
    · next hquoted _ _ => exact (hquoted _ rfl).elim

end Strings

/-! ## Lines -/

/-- How a value is written on a line: an integer of 64 bits as its numeral, a text of plain
characters in quotes. -/
inductive Written : List Char → Value → Prop
  | integer {n : Int} (h : -9223372036854775808 ≤ n ∧ n ≤ 9223372036854775807) :
      Written (Numeral.ofInt n) (.integer n)
  | string {text : List Char} (h : ∀ c ∈ text, isPlain c = true ∧ c ≠ '"' ∧ c ≠ '\\') :
      Written ('"' :: (text ++ ['"'])) (.string text)

namespace Written

variable {text : List Char} {v : Value}

theorem value?_append (h : Written text v) (most depth : Nat) :
    value? most depth (text ++ '\n' :: cs) = some (v, '\n' :: cs) := by
  cases h with
  | integer h => rw [value?_ofInt, number?_ofInt, integer?, if_pos h, Option.map_some]
  | string h =>
    rw [List.cons_append, List.append_assoc, List.singleton_append]
    unfold value?
    dsimp only
    rw [string?_append h, Option.map_some]
    rfl

/-- No blank is taken from the front of a value. -/
theorem skipBlanks_append (h : Written text v) : skipBlanks (text ++ cs) = text ++ cs := by
  cases h with
  | @integer n h =>
    obtain ⟨c, ds, h, hc⟩ := exists_cons_ofInt n
    rw [h, List.cons_append, skipBlanks_cons hc rfl rfl]
  | string h => rfl

end Written

/-- A line with a bare key and a value. -/
structure Line where
  key : Key
  text : List Char
  value : Value
  ne_nil : key ≠ []
  bare : ∀ c ∈ key, isBare c = true
  written : Written text value

namespace Line

def render (l : Line) : List Char := l.key ++ " = ".toList ++ l.text ++ ['\n']

def statement (l : Line) : Statement := .entry [l.key] l.value

def entry (l : Line) : Key × Item := (l.key, .value l.value)

variable (l : Line)

theorem render_append (cs : List Char) :
    l.render ++ cs = l.key ++ ' ' :: '=' :: ' ' :: (l.text ++ '\n' :: cs) := by
  simp [render]

theorem exists_cons : ∃ c behind, l.key = c :: behind ∧ isBare c = true := by
  obtain ⟨c, behind, h⟩ := List.exists_cons_of_ne_nil l.ne_nil
  exact ⟨c, behind, h, l.bare c (h ▸ List.mem_cons_self)⟩

theorem simpleKey?_append (cs : List Char) :
    simpleKey? (l.key ++ ' ' :: cs) = some (l.key, ' ' :: cs) := by
  obtain ⟨c, behind, h, hc⟩ := l.exists_cons
  rw [h, List.cons_append]
  unfold simpleKey?
  split
  · next heq => cases class_of_cons hc heq
  · next heq => cases class_of_cons hc heq
  · rw [← List.cons_append, ← h, List.takeWhile_append_of_pos l.bare,
      List.dropWhile_append_of_pos l.bare, List.takeWhile_cons_of_neg (by decide),
      List.dropWhile_cons_of_neg (by decide), List.append_nil, h]
    rfl

theorem key?_append (cs : List Char) :
    key? (l.key ++ ' ' :: '=' :: cs) = some ([l.key], '=' :: cs) := by
  obtain ⟨c, behind, h, hc⟩ := l.exists_cons
  have hskip : skipBlanks (l.key ++ ' ' :: '=' :: cs) = l.key ++ ' ' :: '=' :: cs := by
    rw [h, List.cons_append, skipBlanks_cons hc rfl rfl]
  show keyParts? (78 + 1) _ = _
  rw [keyParts?, hskip, simpleKey?_append]
  rfl

theorem entry?_append (most depth : Nat) (cs : List Char) :
    entry? (value? most depth) (l.render ++ cs) = some (([l.key], l.value), '\n' :: cs) := by
  rw [render_append, entry?, key?_append]
  show (value? most depth (skipBlanks (l.text ++ '\n' :: cs))).bind _ = _
  rw [l.written.skipBlanks_append, l.written.value?_append]
  rfl

theorem statements?_append (n : Nat) (cs : List Char) :
    statements? (n + 1) (l.render ++ cs) = (statements? n cs).map (l.statement :: ·) := by
  obtain ⟨c, behind, h, hc⟩ := l.exists_cons
  have hentry := l.entry?_append (n + 1) (deepest - 1) cs
  rw [render_append, h, List.cons_append] at hentry ⊢
  rw [statements?, skipBlanks_cons hc rfl rfl]
  split
  · next heq => cases heq
  · next heq => cases class_of_cons hc heq
  · rw [lineEnd?_cons hc]
    dsimp only
    rw [hentry]
    show (statements? n cs).bind _ = _
    rw [statement, h]
    cases statements? n cs <;> rfl

end Line

/-! ## Documents of lines -/

/-- A document of lines is taken apart into them if that many are allowed. -/
theorem statements?_lines (ls : List Line) {n : Nat} (h : ls.length < n) :
    statements? n (ls.flatMap Line.render) = some (ls.map Line.statement) := by
  induction ls generalizing n with
  | nil =>
    obtain ⟨n, rfl⟩ := Nat.exists_eq_add_of_lt h
    rfl
  | cons l ls ih =>
    cases n with
    | zero => exact absurd h (Nat.not_lt_zero _)
    | succ n =>
      rw [List.flatMap_cons, l.statements?_append, ih (Nat.lt_of_succ_lt_succ h)]
      rfl

theorem length_le_render (ls : List Line) : ls.length ≤ (ls.flatMap Line.render).length := by
  induction ls with
  | nil => exact Nat.le_refl 0
  | cons l ls ih =>
    rw [List.flatMap_cons, List.length_append, Line.render, List.length_append, List.length_cons,
      List.length_singleton]
    omega

/-- A bare key is no byte order mark, so nothing is stripped from the front. -/
theorem statements_lines (ls : List Line) :
    statements (ls.flatMap Line.render) = some (ls.map Line.statement) := by
  have hlines := statements?_lines ls (Nat.lt_succ_of_le (length_le_render ls))
  cases ls with
  | nil => rfl
  | cons l ls =>
    obtain ⟨c, behind, h, hc⟩ := l.exists_cons
    rw [List.flatMap_cons, l.render_append, h, List.cons_append] at hlines ⊢
    unfold statements
    dsimp only
    split
    · next heq => cases class_of_cons hc heq
    · exact hlines

theorem addValue?_singleton {es : Entries} {k : Key} (v : Value) (h : es.item? k = none) :
    addValue? es [k] v = some (es.add k (.value v)) := by
  simp [addValue?, descend, h]

/-- The entries of lines are added one by one, as long as no key comes twice. -/
theorem take_lines {ls : List Line} {es : Entries}
    (h : (es.map Prod.fst ++ ls.map Line.key).Nodup) :
    (ls.map Line.statement).foldlM Draft.take { current := es } =
      some { current := es ++ ls.map Line.entry } := by
  induction ls generalizing es with
  | nil =>
    rw [List.map_nil, List.map_nil, List.append_nil]
    rfl
  | cons l ls ih =>
    have hkey : es.item? l.key = none := by
      rw [Entries.item?_eq_none]
      intro hmem
      exact (List.nodup_append.1 h).2.2 _ hmem _ List.mem_cons_self rfl
    have htake : Draft.take { current := es } l.statement =
        some { current := es.add l.key (.value l.value) } := by
      rw [Line.statement, Draft.take]
      dsimp only
      rw [addValue?_singleton l.value hkey]
      rfl
    rw [List.map_cons, List.foldlM_cons, htake, Option.bind_eq_bind, Option.bind_some, ih]
    · rw [Entries.add, List.append_assoc]
      rfl
    · rw [Entries.add, List.map_append, List.append_assoc]
      exact h

/-- A document of lines is read as what is written on them. -/
theorem parse_lines {ls : List Line} (h : (ls.map Line.key).Nodup) :
    parse (ls.flatMap Line.render) = some (ls.map Line.entry) := by
  have htake : (ls.map Line.statement).foldlM Draft.take {} =
      some { current := ls.map Line.entry } := take_lines h
  rw [parse, statements_lines, Option.bind_eq_bind, Option.bind_some, htake]
  rfl

end SieveChain.Toml

/-! ## Configurations -/

namespace SieveChain.Config

open Toml

def wordLine (key : Key) (hne : key ≠ []) (hbare : ∀ c ∈ key, isBare c = true) (v : Int32) :
    Line where
  key
  text := Numeral.ofInt v.toInt
  value := .integer v.toInt
  ne_nil := hne
  bare := hbare
  written := by
    have hle := v.le_toInt
    have hlt := v.toInt_lt
    exact .integer ⟨by omega, by omega⟩

/-- The name of a backend is written without an escape. -/
theorem plain_name (b : Backend) :
    ∀ c ∈ b.name.toList, isPlain c = true ∧ c ≠ '"' ∧ c ≠ '\\' := by
  have hall : b.name.toList.all (fun c => isPlain c && c != '"' && c != '\\') = true := by
    cases b <;> rfl
  simpa [and_assoc] using hall

def backendLine (b : Backend) : Line where
  key := "backend".toList
  text := '"' :: (b.name.toList ++ ['"'])
  value := .string b.name.toList
  ne_nil := by decide
  bare := List.all_eq_true.1 rfl
  written := .string (plain_name b)

/-- The lines of a configuration. -/
def lines (c : Config) : List Line :=
  [wordLine "low".toList (by decide) (List.all_eq_true.1 rfl) c.low,
    wordLine "high".toList (by decide) (List.all_eq_true.1 rfl) c.high, backendLine c.backend]

theorem render_wordLine (key : Key) (hne : key ≠ []) (hbare : ∀ c ∈ key, isBare c = true)
    (v : Int32) : (wordLine key hne hbare v).render =
      key ++ " = ".toList ++ Numeral.ofInt v.toInt ++ ['\n'] := rfl

theorem render_backendLine (b : Backend) : (backendLine b).render =
    "backend".toList ++ " = ".toList ++ (['"'] ++ (b.name.toList ++ ['"'])) ++ ['\n'] := rfl

theorem render_eq (c : Config) : c.render = c.lines.flatMap Line.render := by
  unfold render lines
  rw [List.flatMap_cons, List.flatMap_cons, List.flatMap_cons, List.flatMap_nil, List.append_nil,
    render_wordLine, render_wordLine, render_backendLine]
  simp only [List.append_assoc]
  rfl

theorem nodup_lines (c : Config) : (c.lines.map Line.key).Nodup := by
  show ["low".toList, "high".toList, "backend".toList].Nodup
  decide

theorem parse_render (c : Config) : Toml.parse c.render = some (c.lines.map Line.entry) := by
  rw [render_eq, parse_lines c.nodup_lines]

/-- The layer that gives all values of a configuration. -/
def layer (c : Config) : Layer :=
  { low := some c.low, high := some c.high, backend := some c.backend }

theorem inDocument_layer (c : Config) : c.layer.InDocument (c.lines.map Line.entry) :=
  ⟨.some rfl, .some rfl, .some (named_eq_ok.2 rfl)⟩

/-- What a writer makes of a configuration, a reader of documents reads as a document that gives
all its values. -/
structure DocumentReader.Reads (document? : DocumentReader) (write : Config → List Char) :
    Prop where
  distinct : document?.Distinct
  written : ∀ c, ∃ es, document? (write c) = some es ∧ c.layer.InDocument es

theorem reads_render : DocumentReader.Reads Toml.parse render where
  distinct := distinct_document
  written := fun c => ⟨_, c.parse_render, c.inDocument_layer⟩

/-- Whatever writes and reads documents, a configuration that has been written is read again, unless
its lower bound is not allowed. -/
theorem ofTextWith_written {document? : DocumentReader} {write : Config → List Char}
    (h : document?.Reads write) (c : Config) :
    ofTextWith document? (write c) =
      if c.low < leastLow then .error (Flaw.lowTooSmall c.low).fault else .ok c := by
  obtain ⟨es, hp, hl⟩ := h.written c
  rw [ofTextWith, parseWith_eq h.distinct hp hl]
  show Except.mapError _ (if c.low < leastLow then .error (Flaw.lowTooSmall c.low) else .ok c) = _
  split <;> rfl

theorem ofText_render (c : Config) :
    ofText c.render =
      if c.low < leastLow then .error (Flaw.lowTooSmall c.low).fault else .ok c :=
  ofTextWith_written reads_render c

/-- A configuration that has been rendered is read again as it was if its lower bound is at least
two, and else there is a fault of the configuration that tells the bound. So what any text is read
as, its own rendering is read as too. -/
theorem render_reads_back (c : Config) :
    (2 ≤ c.low.toInt → ofText c.render = .ok c) ∧
    (c.low.toInt < 2 → ofText c.render =
      .error (.config ("low bound must be at least 2, got " ++ Numeral.text c.low))) ∧
    ∀ cs, ofText cs = .ok c → ofText c.render = .ok c := by
  have hvalid (h : 2 ≤ c.low.toInt) : ofText c.render = .ok c := by
    rw [ofText_render, if_neg (not_lt_leastLow.2 h)]
  refine ⟨hvalid, fun h => ?_, fun cs hcs => ?_⟩
  · rw [ofText_render, if_pos (Int32.lt_iff_toInt_lt.2 h)]
    rfl
  · obtain ⟨es, -, hd⟩ := (ofTextWith_eq_ok distinct_document).1 hcs
    exact hvalid hd.least

/-- Bounds at both ends of the words, and a lower bound that is refused at the lower end. -/
theorem render_reads_back_both_ends :
    let c : Config := { low := 2147483647, high := -2147483648, backend := .thread }
    let c' : Config := { low := -2147483648, high := 0 }
    ofText c.render = .ok c ∧
      ofText c'.render = .error (.config "low bound must be at least 2, got -2147483648") := by
  intro c c'
  have hlow : c'.low.toInt = .negSucc 2147483647 := by decide
  have htext : Numeral.text c'.low = "-2147483648" := by
    rw [Numeral.text, hlow, Numeral.ofInt]
    simp [Numeral.ofNat, Numeral.digit]
  have hrefused := (render_reads_back c').2.1 (by decide)
  rw [htext] at hrefused
  exact ⟨(render_reads_back c).1 (by decide), hrefused⟩

end SieveChain.Config
