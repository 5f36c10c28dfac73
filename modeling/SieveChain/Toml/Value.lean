import SieveChain.Number.Double

/-!
# TOML values

A document is a tree of tables. Entries keep the order in which they came to be. A
table remembers how it came to be, because that decides whether a later key or
header may add to it.
-/

namespace SieveChain.Toml

abbrev Key := List Char

/-- A value behind an equals sign. Of a date or time only that it is one is kept. -/
inductive Value
  | string (text : List Char)
  | integer (n : Int)
  | float (x : Double)
  | boolean (b : Bool)
  | dateTime
  | array (items : List Value)
  | table (entries : List (Key × Value))
  deriving Repr

/-- How a table came to be: by a header of its own or in braces, as a part of the
header of another table, or as a part of a dotted key. -/
inductive Origin
  | stated
  | header
  | dotted
  deriving DecidableEq, Repr

/-- An item of a document: a value, a table, or a list of tables under one header, the
last of them first. -/
inductive Item
  | value (v : Value)
  | table (origin : Origin) (entries : List (Key × Item))
  | tables (elements : List (List (Key × Item)))
  deriving Repr

abbrev Entries := List (Key × Item)

namespace Entries

def item? (es : Entries) (k : Key) : Option Item := List.lookup k es

def replace (es : Entries) (k : Key) (i : Item) : Entries :=
  List.map (fun e => if e.1 == k then (k, i) else e) es

def remove (es : Entries) (k : Key) : Entries := List.filter (fun e => e.1 != k) es

def add (es : Entries) (k : Key) (i : Item) : Entries := es ++ [(k, i)]

end Entries

end SieveChain.Toml
