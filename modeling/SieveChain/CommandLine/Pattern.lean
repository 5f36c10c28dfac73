import SieveChain.Text.Property

/-!
# Patterns

Which texts a log filter takes as the value of a field: numerals and patterns. A pattern
is made of characters, kinds of characters, classes in brackets, places between
characters, groups and repetitions, and `|` stands between alternatives. Looking around
and referring back to a group are not available. Nor is a repetition with a count,
because braces enclose the fields of a directive.

There are no tables of letters behind patterns. So where characters beyond ASCII count,
there are no kinds of characters, no edges of words and no disregard of case; and where
they do not count, nothing may stand for a part of such a character.
-/

namespace SieveChain.Pattern

def isDigit (c : Char) : Bool := '0' ≤ c && c ≤ '9'

def hexDigit? (c : Char) : Option Nat :=
  if isDigit c then some (c.toNat - 48)
  else if 'a' ≤ c ∧ c ≤ 'f' then some (c.toNat - 87)
  else if 'A' ≤ c ∧ c ≤ 'F' then some (c.toNat - 55)
  else none

/-- The options under which a part of a pattern is read: whether case is disregarded,
whether characters beyond ASCII count, and whether white space and comments are passed
over. -/
structure Options where
  anyCase : Bool := false
  wide : Bool := true
  spaced : Bool := false
  deriving DecidableEq, Repr

/-- Passes over white space and comments, which end with their line. -/
def skipFiller : Bool → List Char → List Char
  | _, [] => []
  | true, c :: cs => skipFiller (c != '\n') cs
  | false, c :: cs =>
    if Text.isBlank c then skipFiller false cs
    else if c = '#' then skipFiller true cs
    else c :: cs

/-- The next character that is neither white space nor the start of a comment. -/
def ahead? : Bool → List Char → Option Char
  | _, [] => none
  | false, '#' :: cs => ahead? true cs
  | commented, c :: cs => if Text.isBlank c then ahead? commented cs else some c

namespace Options

def skip (o : Options) (cs : List Char) : List Char := if o.spaced then skipFiller false cs else cs

/-- The next character that counts, of a comment perhaps. -/
def peek? (o : Options) (cs : List Char) : Option Char :=
  if o.spaced then ahead? false cs else cs.head?

/-- Switches options by their letters, on or behind a hyphen off. -/
def switch (o : Options) (letters : List Char) : Options :=
  let on := letters.takeWhile (· != '-')
  let off := letters.dropWhile (· != '-')
  let state (letter : Char) (before : Bool) : Bool := (before || letter ∈ on) && letter ∉ off
  { anyCase := state 'i' o.anyCase, wide := state 'u' o.wide, spaced := state 'x' o.spaced }

end Options

/-- What a character or a backslash stands for. -/
inductive Item
  /-- One character, which may be written as a byte. -/
  | letter (c : Char) (byte : Bool)
  /-- Any character of a kind, or any that is not. -/
  | kind (other : Bool)
  /-- A place at the edge of a word, or one that is not. -/
  | edge
  /-- The start or the end of the text. -/
  | place
  deriving DecidableEq, Repr

def Options.admits (o : Options) : Item → Bool
  | .letter c byte => if o.wide then !o.anyCase else !(byte && 128 ≤ c.toNat)
  | .kind other => !o.wide && !other
  | .edge => !o.wide
  | .place => true

def Options.admitsMember (o : Options) : Item → Bool
  | .letter c _ => if o.wide then !o.anyCase else c.toNat < 128
  | .kind other => !o.wide && !other
  | _ => false

/-- Whether a class or a kind with a name can be turned round. -/
def Options.admitsOther (o : Options) : Bool := o.wide

def Options.admitsNamed (o : Options) (other : Bool) : Bool :=
  if o.wide then !o.anyCase else !other

/-- A character by its number, which has this many digits in base sixteen. -/
def numbered? (o : Options) (byte : Bool) : Nat → Nat → List Char → Option (Item × List Char)
  | 0, n, cs => if n.isValidChar then some (.letter (Char.ofNat n) byte, cs) else none
  | due + 1, n, cs =>
    match o.skip cs with
    | [] => none
    | c :: cs => (hexDigit? c).bind fun d => numbered? o byte due (16 * n + d) cs

def escape? (o : Options) : List Char → Option (Item × List Char)
  | [] => none
  | 'x' :: cs => numbered? o true 2 0 cs
  | 'u' :: cs => numbered? o false 4 0 cs
  | 'U' :: cs => numbered? o false 8 0 cs
  | 'a' :: cs => some (.letter '\x07' false, cs)
  | 't' :: cs => some (.letter '\t' false, cs)
  | 'n' :: cs => some (.letter '\n' false, cs)
  | 'v' :: cs => some (.letter '\x0b' false, cs)
  | 'f' :: cs => some (.letter '\x0c' false, cs)
  | 'r' :: cs => some (.letter '\r' false, cs)
  | c :: cs =>
    if c ∈ ['d', 's', 'w'] then some (.kind false, cs)
    else if c ∈ ['D', 'S', 'W'] then some (.kind true, cs)
    else if c ∈ ['b', 'B', '<', '>'] then some (.edge, cs)
    else if c = 'A' ∨ c = 'z' then some (.place, cs)
    else if c.isAlphanum ∨ 128 ≤ c.toNat then none
    else some (.letter c false, cs)

def member? (o : Options) : List Char → Option (Item × List Char)
  | [] => none
  | '\\' :: cs => escape? o cs
  | c :: cs => some (.letter c false, cs)

/-- Passes over a member of a class or a range of characters. A hyphen in front of a
bracket or of another hyphen makes no range. -/
def range? (o : Options) (cs : List Char) : Option (List Char) :=
  match member? o cs with
  | none => none
  | some (first, rest) =>
    if !o.admitsMember first then none
    else
      match o.skip rest with
      | '-' :: rest =>
        if o.peek? rest = some ']' ∨ o.peek? rest = some '-' then some ('-' :: rest)
        else
          match first, member? o (o.skip rest) with
          | .letter low _, some (.letter high byte, rest) =>
            if low ≤ high && o.admitsMember (.letter high byte) then some rest else none
          | _, _ => none
      | rest => some rest

def kinds : List (List Char) :=
  ["alnum", "alpha", "ascii", "blank", "cntrl", "digit", "graph", "lower", "print", "punct",
   "space", "upper", "word", "xdigit"].map String.toList

/-- A kind by its name, behind the bracket that opens it, and whether it is turned
round. -/
def named? : List Char → Option (Bool × List Char)
  | ':' :: cs =>
    let (other, cs) := match cs with
      | '^' :: cs => (true, cs)
      | _ => (false, cs)
    match cs.dropWhile (· != ':') with
    | ':' :: ']' :: rest =>
      if cs.takeWhile (· != ':') ∈ kinds then some (other, rest) else none
    | _ => none
  | _ => none

/-- The height of a row of parts: of one by itself, or one more than that of the
highest. -/
def rowHeight : List Nat → Nat
  | [] => 0
  | [height] => height
  | heights => 1 + heights.foldl max 0

/-- A class that has been opened: the height of what stands in front of the last operator,
the heights of the members behind it, and whether nothing but hyphens has been read. -/
structure OpenClass where
  operand : Option Nat := none
  members : List Nat := []
  fresh : Bool := true

namespace OpenClass

def height (k : OpenClass) : Nat :=
  match k.operand with
  | none => rowHeight k.members
  | some height => 1 + max height (rowHeight k.members)

def push (k : OpenClass) (height : Nat) : OpenClass := { k with members := height :: k.members }

def operate (k : OpenClass) : OpenClass :=
  { operand := some k.height, members := [], fresh := false }

end OpenClass

/-- Passes over a sign that turns a class round, behind its opening. -/
def afterOpening? (o : Options) (cs : List Char) : Option (List Char) :=
  match o.skip cs with
  | '^' :: cs => if o.admitsOther then some cs else none
  | cs => some cs

/-- Passes over a class and finds its height, from behind its opening. Hyphens at the
start of a class stand for themselves, and so does a bracket that would leave it empty. -/
def class? (o : Options) :
    Nat → OpenClass → List OpenClass → List Char → Option (Nat × List Char)
  | 0, _, _, _ => none
  | fuel + 1, k, outer, cs =>
    match o.skip cs with
    | [] => none
    | c :: rest =>
      if k.fresh && c == '-' then
        if o.admitsMember (.letter c false) then class? o fuel (k.push 0) outer rest else none
      else if k.fresh && k.members.isEmpty && c == ']' then
        if o.admitsMember (.letter c false) then
          class? o fuel { k.push 0 with fresh := false } outer rest
        else none
      else
        let k := { k with fresh := false }
        match c, rest with
        | '[', rest =>
          match named? rest with
          | some (other, rest) =>
            if o.admitsNamed other then class? o fuel (k.push 0) outer rest else none
          | none => (afterOpening? o rest).bind fun rest => class? o fuel {} (k :: outer) rest
        | ']', rest =>
          match outer with
          | [] => some (1 + k.height, rest)
          | parent :: outer => class? o fuel (parent.push (1 + k.height)) outer rest
        | '&', '&' :: rest => class? o fuel k.operate outer rest
        | '-', '-' :: rest => class? o fuel k.operate outer rest
        | '~', '~' :: rest => class? o fuel k.operate outer rest
        | c, rest => (range? o (c :: rest)).bind fun rest => class? o fuel (k.push 0) outer rest

/-- What a bracket opens: a group, which may have a name or options of its own, or a
setting of options for what follows. -/
inductive Opening
  | group (name : Option (List Char)) (letters : List Char)
  | setting (letters : List Char)
  deriving DecidableEq, Repr

def isName : List Char → Bool
  | [] => false
  | c :: cs =>
    (c == '_' || Text.within Text.alphabetic c)
      && cs.all fun c => c ∈ ['_', '.', '[', ']'] || Text.isAlphanumeric c

def name? (cs : List Char) : Option (Opening × List Char) :=
  match cs.dropWhile (· != '>') with
  | [] => none
  | _ :: rest =>
    let name := cs.takeWhile (· != '>')
    if isName name then some (.group (some name) [], rest) else none

/-- Letters of options, each once, with a hyphen in front of those that are switched
off. -/
def areLetters (cs : List Char) : Bool :=
  cs.all (· ∈ ['i', 'm', 's', 'U', 'u', 'R', 'x', '-']) && decide cs.Nodup
    && cs.getLast? != some '-'

/-- What a bracket opens, from behind it. -/
def opening? : List Char → Option (Opening × List Char)
  | '?' :: 'P' :: '<' :: cs => name? cs
  | '?' :: '<' :: cs => name? cs
  | '?' :: cs =>
    let letters := cs.takeWhile fun c => c != ':' && c != ')'
    match cs.dropWhile fun c => c != ':' && c != ')' with
    | ':' :: rest => if areLetters letters then some (.group none letters, rest) else none
    | _ :: rest =>
      if areLetters letters && !letters.isEmpty then some (.setting letters, rest) else none
    | [] => none
  | cs => some (.group none [], cs)

/-- A group that has been opened, or the pattern itself: the options in it, the heights
of the alternatives before the last, the heights of the items of the last, its last item
first, and whether that one can be repeated. -/
structure OpenGroup where
  options : Options := {}
  alternatives : List Nat := []
  items : List Nat := []
  repeatable : Bool := false

namespace OpenGroup

def height (g : OpenGroup) : Nat := rowHeight (rowHeight g.items :: g.alternatives)

def push (g : OpenGroup) (height : Nat) : OpenGroup :=
  { g with items := height :: g.items, repeatable := true }

def alternate (g : OpenGroup) : OpenGroup :=
  { g with alternatives := rowHeight g.items :: g.alternatives, items := [], repeatable := false }

def again? (g : OpenGroup) : Option OpenGroup :=
  match g.repeatable, g.items with
  | true, height :: items => some { g with items := (height + 1) :: items }
  | _, _ => none

/-- Switches options for what follows. The setting is an item, but not to be repeated. -/
def set (g : OpenGroup) (letters : List Char) : OpenGroup :=
  { g with options := g.options.switch letters, items := 0 :: g.items, repeatable := false }

end OpenGroup

/-- How far a pattern has been read: the group it is in, the groups around it, and the
names that groups have. -/
structure Reading where
  here : OpenGroup := {}
  outer : List OpenGroup := []
  names : List (List Char) := []

namespace Reading

def push (r : Reading) (height : Nat) : Reading := { r with here := r.here.push height }

/-- Takes what a bracket opens. No two groups have one name. -/
def enter? (r : Reading) : Opening → Option Reading
  | .setting letters => some { r with here := r.here.set letters }
  | .group name letters =>
    if name.any (· ∈ r.names) then none
    else
      some { here := { options := r.here.options.switch letters }, outer := r.here :: r.outer,
             names := name.toList ++ r.names }

def leave? (r : Reading) : Option Reading :=
  match r.outer with
  | [] => none
  | parent :: outer => some { r with here := parent.push (1 + r.here.height), outer }

end Reading

def greatestHeight : Nat := 250

/-- A repetition may be told by a question mark to be short. -/
def afterRepetition : List Char → List Char
  | '?' :: cs => cs
  | cs => cs

def reads : Nat → Reading → List Char → Bool
  | 0, _, _ => false
  | fuel + 1, r, cs =>
    let o := r.here.options
    match o.skip cs with
    | [] => r.outer.isEmpty && r.here.height ≤ greatestHeight
    | '(' :: rest =>
      match opening? (o.skip rest) with
      | none => false
      | some (opening, rest) => (r.enter? opening).any fun r => reads fuel r rest
    | ')' :: rest => r.leave?.any fun r => reads fuel r rest
    | '|' :: rest => reads fuel { r with here := r.here.alternate } rest
    | '[' :: rest =>
      match (afterOpening? o rest).bind (class? o (rest.length + 1) {} []) with
      | none => false
      | some (height, rest) => reads fuel (r.push height) rest
    | '\\' :: rest =>
      match escape? o rest with
      | none => false
      | some (item, rest) => o.admits item && reads fuel (r.push 0) rest
    | c :: rest =>
      if c ∈ ['?', '*', '+'] then
        r.here.again?.any fun g => reads fuel { r with here := g } (afterRepetition rest)
      else if c = '\x7b' then false
      else if c = '.' then o.wide && reads fuel (r.push 0) rest
      else if c = '^' ∨ c = '$' then reads fuel (r.push 0) rest
      else o.admits (.letter c false) && reads fuel (r.push 0) rest

/-- A text is a pattern. Each step of the reading takes a character at least. -/
def isPattern (cs : List Char) : Bool := reads (cs.length + 1) {} cs

/-- A text is a numeral: a sign, digits of which a point may be in front or behind, and
an exponent, or a word for what is no finite number. -/
def isNumeral (cs : List Char) : Bool :=
  let unsigned : List Char → List Char
    | '+' :: cs => cs
    | '-' :: cs => cs
    | cs => cs
  let cs := unsigned cs
  let whole := cs.takeWhile isDigit
  let (fraction, rest) := match cs.dropWhile isDigit with
    | '.' :: cs => (cs.takeWhile isDigit, cs.dropWhile isDigit)
    | rest => ([], rest)
  let ends := match rest with
    | [] => true
    | c :: exponent =>
      let digits := unsigned exponent
      (c == 'e' || c == 'E') && !digits.isEmpty && digits.all isDigit
  (!(whole ++ fraction).isEmpty && ends)
    || String.ofList (cs.map Char.toLower) ∈ ["inf", "infinity", "nan"]

/-- A text that the value of a field can be compared with. -/
def isValue (cs : List Char) : Bool := isNumeral cs || isPattern cs

end SieveChain.Pattern
