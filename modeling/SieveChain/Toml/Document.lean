import SieveChain.Toml.Parser

/-!
# TOML documents

The tables of a document are put together statement by statement. No key is given
twice; a header may state a table that until then was only part of other headers, but
not one that a header, a key or braces have made.
-/

namespace SieveChain.Toml

/-- A document under construction: the tables closed so far, and the open table with
its path and the way it will be added. -/
structure Draft where
  root : Entries := []
  current : Entries := []
  path : List Key := []
  isElement : Bool := false

namespace Draft

def place (d : Draft) (k : Key) (_ : Origin) (es : Entries) : Option (Entries × Unit) :=
  match d.isElement, es.item? k with
  | true, none => some (es.add k (.tables [d.current]), ())
  | true, some (.tables elements) => some (es.replace k (.tables (d.current :: elements)), ())
  | true, some _ => none
  | false, none => some (es.add k (.table .stated d.current), ())
  | false, some (.table .stated _) => none
  | false, some (.table _ _) => some (es.replace k (.table .stated d.current), ())
  | false, some _ => none

def close (d : Draft) : Option Entries :=
  match d.path.getLast? with
  | none => some d.current
  | some k => (descend false (d.place k) d.path.dropLast .stated d.root).map (·.1)

/-- Takes a table out that only other headers have made, so that it can be stated. -/
def claim (k : Key) (_ : Origin) (es : Entries) : Option (Entries × Entries) :=
  match es.item? k with
  | none => some (es, [])
  | some (.table .header sub) => some (es.remove k, sub)
  | some _ => none

def claimList (k : Key) (_ : Origin) (es : Entries) : Option (Entries × Unit) :=
  match es.item? k with
  | none => some (es.add k (.tables []), ())
  | some (.tables _) => some (es, ())
  | some _ => none

def take (d : Draft) : Statement → Option Draft
  | .entry path v => do return { d with current := ← addValue? d.current path v }
  | .table path => do
    let root ← d.close
    let (root, current) ← descend false (claim (← path.getLast?)) path.dropLast .stated root
    return { root, current, path, isElement := false }
  | .element path => do
    let root ← d.close
    let (root, _) ← descend false (claimList (← path.getLast?)) path.dropLast .stated root
    return { root, current := [], path, isElement := true }

end Draft

/-- The root table of a text, if the text is a document. -/
def parse (cs : List Char) : Option Entries := do
  let draft ← (← statements cs).foldlM Draft.take {}
  draft.close

end SieveChain.Toml
