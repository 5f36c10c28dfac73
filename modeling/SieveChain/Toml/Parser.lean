import SieveChain.Toml.Number

/-!
# TOML statements

A document is a sequence of statements: a key with a value, the header of a table, or
the header of a further element of a list of tables. Values may nest, but not deeper
than a limit.
-/

namespace SieveChain.Toml

abbrev Reader := List Char → Option (Value × List Char)

/-- Reads the items of an array behind its bracket, at most so many. -/
def items? (read : Reader) : Nat → List Char → Option (List Value × List Char)
  | 0, _ => none
  | n + 1, cs => do
    match ← skipFiller? false cs with
    | ']' :: cs => return ([], cs)
    | cs =>
      let (v, cs) ← read cs
      match ← skipFiller? false cs with
      | ',' :: cs =>
        let (vs, cs) ← items? read n cs
        return (v :: vs, cs)
      | ']' :: cs => return ([v], cs)
      | _ => none

/-- Reads a key, an equals sign and a value. -/
def entry? (read : Reader) (cs : List Char) : Option ((List Key × Value) × List Char) := do
  let (path, cs) ← key? cs
  let (v, cs) ← read (skipBlanks (← expect? '=' cs))
  return ((path, v), cs)

/-- Reads the entries of a table in braces, at most so many. There is at least one. -/
def entries? (read : Reader) : Nat → List Char → Option (List (List Key × Value) × List Char)
  | 0, _ => none
  | n + 1, cs => do
    let (e, cs) ← entry? read cs
    match skipBlanks cs with
    | ',' :: cs =>
      let (es, cs) ← entries? read n cs
      return (e :: es, cs)
    | '}' :: cs => return ([e], cs)
    | _ => none

/-- Goes down a path from a table to another, and changes it. What is missing on the way
comes to be. The last element stands for a list of tables. A dotted key goes through
tables that headers have not stated, a header through any. -/
def descend {α : Type} (byKey : Bool) (change : Origin → Entries → Option (Entries × α)) :
    List Key → Origin → Entries → Option (Entries × α)
  | [], origin, es => change origin es
  | k :: path, _, es => do
    match es.item? k with
    | none =>
      let origin : Origin := if byKey then .dotted else .header
      let (sub, a) ← descend byKey change path origin []
      return (es.add k (.table origin sub), a)
    | some (.value _) => none
    | some (.table origin sub) =>
      if byKey && origin == .stated then none
      else
        let (sub, a) ← descend byKey change path origin sub
        return (es.replace k (.table origin sub), a)
    | some (.tables []) => none
    | some (.tables (last :: before)) =>
      let (last, a) ← descend byKey change path .stated last
      return (es.replace k (.tables (last :: before)), a)

/-- Adds a value under a key, unless there is an item already. The parts before the last
must lead to a table that dotted keys have made. -/
def addValue? (es : Entries) (path : List Key) (v : Value) : Option Entries := do
  let k ← path.getLast?
  let place (origin : Origin) (es : Entries) : Option (Entries × Unit) :=
    if path.length ≠ 1 && origin != .dotted then none
    else if (es.item? k).isSome then none
    else some (es.add k (.value v), ())
  return (← descend true place path.dropLast .stated es).1

def inBraces (es : Entries) : List (Key × Value) :=
  es.map fun (k, i) => (k, asValue i)
where
  /-- An item as a value; tables in braces hold no lists of tables. -/
  asValue : Item → Value
    | .value v => v
    | .table _ sub => .table (sub.attach.map fun ⟨(k, i), _⟩ => (k, asValue i))
    | .tables _ => .array []
  termination_by i => sizeOf i
  decreasing_by
    rename_i h
    have := List.sizeOf_lt_of_mem h
    simp at this ⊢
    omega

def tableOf? (es : List (List Key × Value)) : Option Value := do
  let table ← es.foldlM (fun table (path, v) => addValue? table path v) []
  return .table (inBraces table)

/-- Reads a value with at most so many items in any bracket, nested at most so deep. -/
def value? (most : Nat) : Nat → Reader
  | depth, cs =>
    match cs with
    | '"' :: _ => (string? cs).map fun (s, cs) => (.string s, cs)
    | '\'' :: _ => (string? cs).map fun (s, cs) => (.string s, cs)
    | 't' :: 'r' :: 'u' :: 'e' :: cs => some (.boolean true, cs)
    | 'f' :: 'a' :: 'l' :: 's' :: 'e' :: cs => some (.boolean false, cs)
    | '[' :: cs =>
      match depth with
      | 0 => none
      | d + 1 => (items? (value? most d) most cs).map fun (vs, cs) => (.array vs, cs)
    | '{' :: cs =>
      match depth with
      | 0 => none
      | d + 1 =>
        match skipBlanks cs with
        | '}' :: cs => some (.table [], cs)
        | cs => do
          let (es, cs) ← entries? (value? most d) most cs
          return (← tableOf? es, cs)
    | cs => number? cs

/-- A statement of a document. -/
inductive Statement
  | entry (path : List Key) (v : Value)
  | table (path : List Key)
  | element (path : List Key)
  deriving Repr

def header? : List Char → Option (Statement × List Char)
  | '[' :: cs => do
    let (path, cs) ← key? cs
    return (.element path, ← expect? ']' (← expect? ']' cs))
  | cs => do
    let (path, cs) ← key? cs
    return (.table path, ← expect? ']' cs)

/-- Reads the statements of a document, at most so many lines of it. No bracket on them
holds more items than there are characters left, so the same number bounds those. -/
def statements? : Nat → List Char → Option (List Statement)
  | 0, _ => none
  | n + 1, cs =>
    match skipBlanks cs with
    | [] => some []
    | '[' :: cs => do
      let (s, cs) ← header? cs
      return s :: (← statements? n (← lineEnd? cs))
    | cs =>
      match lineEnd? cs with
      | some [] => some []
      | some cs => statements? n cs
      | none => do
        let ((path, v), cs) ← entry? (value? (n + 1) (deepest - 1)) cs
        return .entry path v :: (← statements? n (← lineEnd? cs))

/-- Reads all statements of a text, behind a byte order mark if there is one. -/
def statements (cs : List Char) : Option (List Statement) :=
  let cs := match cs with
    | '\uFEFF' :: cs => cs
    | cs => cs
  statements? (cs.length + 1) cs

end SieveChain.Toml
