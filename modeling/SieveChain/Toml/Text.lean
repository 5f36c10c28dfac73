/-!
# TOML texts

Blanks, line ends, comments, keys and strings. Each reader takes what it reads from
the front of a text and gives back the rest.
-/

namespace SieveChain.Toml

def isBlank (c : Char) : Bool := c == ' ' || c == '\t'

/-- A character that may stand for itself in a text: a tab, or any that is no control
character. -/
def isPlain (c : Char) : Bool := c == '\t' || (' ' ≤ c && c != '\x7f')

def isDigit (c : Char) : Bool := '0' ≤ c && c ≤ '9'

def isHexDigit (c : Char) : Bool :=
  isDigit c || ('a' ≤ c && c ≤ 'f') || ('A' ≤ c && c ≤ 'F')

def hexValue (c : Char) : Nat :=
  if isDigit c then c.toNat - '0'.toNat
  else if 'a' ≤ c then c.toNat - 'a'.toNat + 10
  else c.toNat - 'A'.toNat + 10

def skipBlanks (cs : List Char) : List Char := cs.dropWhile isBlank

/-- Takes a line end: a line feed, or a carriage return and a line feed. -/
def newline? : List Char → Option (List Char)
  | '\n' :: cs => some cs
  | '\r' :: '\n' :: cs => some cs
  | _ => none

/-- Skips a comment, if there is one, up to the end of its line. -/
def skipComment : List Char → List Char
  | '#' :: cs => cs.dropWhile isPlain
  | cs => cs

/-- Takes the rest of a line that holds nothing but blanks and a comment. -/
def lineEnd? (cs : List Char) : Option (List Char) :=
  match skipComment (skipBlanks cs) with
  | [] => some []
  | cs => newline? cs

/-- Skips blanks, comments and line ends between the items of an array. A comment must
end with its line. -/
def skipFiller? : Bool → List Char → Option (List Char)
  | false, '#' :: cs => skipFiller? true cs
  | _, '\n' :: cs => skipFiller? false cs
  | _, '\r' :: '\n' :: cs => skipFiller? false cs
  | false, c :: cs => if isBlank c then skipFiller? false cs else some (c :: cs)
  | false, [] => some []
  | true, c :: cs => if isPlain c then skipFiller? true cs else none
  | true, [] => none

/-- A character by its number, if there is one. -/
def charOf? (n : Nat) : Option Char := if h : n.isValidChar then some (Char.ofNatAux n h) else none

def charOfHex? (digits : List Char) : Option Char :=
  if digits.all isHexDigit then charOf? (digits.foldl (fun n c => 16 * n + hexValue c) 0) else none

def escaped? : Char → Option Char
  | 'b' => some '\x08'
  | 't' => some '\t'
  | 'n' => some '\n'
  | 'f' => some '\x0c'
  | 'r' => some '\r'
  | '"' => some '"'
  | '\\' => some '\\'
  | _ => none

def push (c : Char) (r : Option (List Char × List Char)) : Option (List Char × List Char) :=
  r.map fun (text, rest) => (c :: text, rest)

/-- Reads a string in double quotes behind its opening quote. -/
def basic : List Char → Option (List Char × List Char)
  | '"' :: cs => some ([], cs)
  | '\\' :: 'u' :: a :: b :: c :: d :: cs => do push (← charOfHex? [a, b, c, d]) (basic cs)
  | '\\' :: 'U' :: a :: b :: c :: d :: e :: f :: g :: h :: cs => do
    push (← charOfHex? [a, b, c, d, e, f, g, h]) (basic cs)
  | '\\' :: c :: cs => do push (← escaped? c) (basic cs)
  | c :: cs => if isPlain c && c != '\\' then push c (basic cs) else none
  | [] => none

/-- Reads a string in single quotes behind its opening quote. -/
def literal : List Char → Option (List Char × List Char)
  | '\'' :: cs => some ([], cs)
  | c :: cs => if isPlain c then push c (literal cs) else none
  | [] => none

/-- A backslash ends its line: only blanks stand between it and the line end. -/
def endsLine (cs : List Char) : Bool := (newline? (skipBlanks cs)).isSome

/-- Reads a string in three double quotes behind its opening quotes. Up to two quotes
may stand before the closing ones. A backslash that ends its line takes all blanks
and line ends behind it with it; while those are skipped the flag is set. -/
def multilineBasic : Bool → List Char → Option (List Char × List Char)
  | _, '"' :: '"' :: '"' :: '"' :: '"' :: cs => some (['"', '"'], cs)
  | _, '"' :: '"' :: '"' :: '"' :: cs => some (['"'], cs)
  | _, '"' :: '"' :: '"' :: cs => some ([], cs)
  | skipping, '\r' :: '\n' :: cs =>
    if skipping then multilineBasic true cs else push '\n' (multilineBasic false cs)
  | skipping, '\n' :: cs =>
    if skipping then multilineBasic true cs else push '\n' (multilineBasic false cs)
  | _, '\\' :: 'u' :: a :: b :: c :: d :: cs => do
    push (← charOfHex? [a, b, c, d]) (multilineBasic false cs)
  | _, '\\' :: 'U' :: a :: b :: c :: d :: e :: f :: g :: h :: cs => do
    push (← charOfHex? [a, b, c, d, e, f, g, h]) (multilineBasic false cs)
  | _, '\\' :: c :: cs =>
    if endsLine (c :: cs) then
      if c == '\r' then
        match cs with
        | [] => none
        | _ :: cs => multilineBasic true cs
      else multilineBasic true cs
    else do push (← escaped? c) (multilineBasic false cs)
  | skipping, c :: cs =>
    if skipping && isBlank c then multilineBasic true cs
    else if isPlain c && c != '\\' then push c (multilineBasic false cs)
    else none
  | _, [] => none

/-- Reads a string in three single quotes behind its opening quotes. Up to two quotes
may stand before the closing ones. -/
def multilineLiteral : List Char → Option (List Char × List Char)
  | '\'' :: '\'' :: '\'' :: '\'' :: '\'' :: cs => some (['\'', '\''], cs)
  | '\'' :: '\'' :: '\'' :: '\'' :: cs => some (['\''], cs)
  | '\'' :: '\'' :: '\'' :: cs => some ([], cs)
  | '\r' :: '\n' :: cs => push '\n' (multilineLiteral cs)
  | '\n' :: cs => push '\n' (multilineLiteral cs)
  | c :: cs => if isPlain c then push c (multilineLiteral cs) else none
  | [] => none

/-- Drops the line end that directly follows the opening quotes. -/
def dropNewline (cs : List Char) : List Char := (newline? cs).getD cs

def string? : List Char → Option (List Char × List Char)
  | '"' :: '"' :: '"' :: cs => multilineBasic false (dropNewline cs)
  | '"' :: cs => basic cs
  | '\'' :: '\'' :: '\'' :: cs => multilineLiteral (dropNewline cs)
  | '\'' :: cs => literal cs
  | _ => none

def isBare (c : Char) : Bool :=
  isDigit c || ('a' ≤ c && c ≤ 'z') || ('A' ≤ c && c ≤ 'Z') || c == '-' || c == '_'

def simpleKey? : List Char → Option (List Char × List Char)
  | '"' :: cs => basic cs
  | '\'' :: cs => literal cs
  | cs =>
    let name := cs.takeWhile isBare
    if name.isEmpty then none else some (name, cs.dropWhile isBare)

/-- Reads the parts of a dotted key, at most so many, with blanks around them. -/
def keyParts? : Nat → List Char → Option (List (List Char) × List Char)
  | 0, _ => none
  | n + 1, cs => do
    let (part, cs) ← simpleKey? (skipBlanks cs)
    match skipBlanks cs with
    | '.' :: cs =>
      let (parts, cs) ← keyParts? n cs
      return (part :: parts, cs)
    | cs => return ([part], cs)

/-- The parts of a key and the nesting of values are limited. -/
def deepest : Nat := 80

/-- Reads a key, which has fewer parts than the limit. -/
def key? (cs : List Char) : Option (List (List Char) × List Char) := keyParts? (deepest - 1) cs

end SieveChain.Toml
