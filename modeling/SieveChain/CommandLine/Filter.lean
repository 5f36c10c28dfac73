import SieveChain.CommandLine.Pattern
import SieveChain.Notice
import SieveChain.Text.Property
import SieveChain.Text.Utf8

/-!
# Log filters

Which notices get into the log. A filter is a list of directives, each for the parts
of the program whose name begins with its target and, if it says so, for notices with
a certain field. The narrowest directive decides, and a notice that none is for stays
out of the log.

Directives are written one after the other with commas between them: a level, which
holds for every part, or a target with a level behind an equals sign. A target alone
lets everything through. Brackets behind the target hold the name of a span of work
and, in braces, a field. This program does not divide its work into spans.
-/

namespace SieveChain

/-- A directive: the parts it is for, the field that a notice has to have, and how
detailed the notices may be. -/
structure Directive where
  target : List Char := []
  field : Option (List Char) := none
  most : Nat := Level.trace.rank
  deriving DecidableEq, Repr

abbrev LogFilter := List Directive

/-- Why a filter cannot be read: a directive is malformed, or is cut within a character. -/
inductive FilterFlaw
  | malformed
  | cut
  deriving DecidableEq, Repr

namespace Directive

/-- Levels by name, from silence. -/
def levels : List (List Char) :=
  ["off", "error", "warn", "info", "debug", "trace"].map String.toList

/-- The rank of a level, which is written as a name in letters of either case or as a
number. -/
def rank? (cs : List Char) : Option Nat :=
  let digits := match cs with
    | '+' :: cs => cs
    | cs => cs
  match Numeral.natural? digits with
  | some n => if n < levels.length then some n else none
  | none => levels.findIdx? (· == cs.map Char.toLower)

def beginsTarget (c : Char) : Bool :=
  c == '-' || c == ':' || c == '_' || Text.isAlphanumeric c

/-- A part of a directive, by the byte it begins with and the one behind its end. -/
def part (text : List Char) (start stop : Nat) : Except FilterFlaw (List Char) :=
  match Utf8.slice? start stop text with
  | some cs => .ok cs
  | none => .error .cut

/-- The level that is written from a byte on. If there is nothing, everything is let
through. -/
def level (text : List Char) (start : Nat) : Except FilterFlaw Nat := do
  match ← part text start (Utf8.size text) with
  | [] => return Level.trace.rank
  | cs =>
    match rank? cs with
    | some most => return most
    | none => throw .malformed

def levelAfterSpan (text : List Char) (start : Nat) : List Char → Except FilterFlaw Nat
  | [] => return Level.trace.rank
  | '=' :: _ => level text (start + 1)
  | _ => throw .malformed

/-- The parts of a text between occurrences of a character. -/
def split (separator : Char) (cs : List Char) : List (List Char) :=
  cs.foldr
    (fun c parts =>
      if c = separator then [] :: parts
      else match parts with
        | [] => [[c]]
        | part :: rest => (c :: part) :: rest)
    [[]]

/-- The name of a field, and whether there is a value to compare it with. -/
def fieldName (cs : List Char) : Except FilterFlaw (List Char × Bool) :=
  match cs, split '=' cs with
  | [], _ => throw .malformed
  | _, name :: value :: _ => if Pattern.isValue value then return (name, true) else throw .malformed
  | _, [name] => return (name, false)
  | _, [] => throw .malformed

/-- Reads on from behind the bracket that opens a span, at this byte. The result is empty
for a directive about spans with a name or fields with a value: no notice is for it. -/
def span (text target : List Char) (start : Nat) (cs : List Char) :
    Except FilterFlaw (Option Directive) := do
  let stop := start + Utf8.size (cs.takeWhile fun c => c != ']' && c != '\x7b')
  match cs.dropWhile fun c => c != ']' && c != '\x7b' with
  | [] => throw .malformed
  | ']' :: rest =>
    discard <| part text start stop
    discard <| levelAfterSpan text (stop + 1) rest
    return none
  | _ :: rest =>
    let name ← part text start stop
    let last := stop + 1 + Utf8.size (rest.takeWhile (· != '\x7d'))
    match rest.dropWhile (· != '\x7d') with
    | [] => throw .malformed
    | _ :: rest =>
      let (field, compared) ← fieldName (← part text (stop + 1) last)
      match rest with
      | ']' :: rest =>
        let most ← levelAfterSpan text (last + 2) rest
        return if name.isEmpty && !compared then some { target, field, most } else none
      | _ => throw .malformed

/-- Reads a directive. White space around it does not count when it is divided, but the
parts are then taken as if it began where the white space does. -/
def read (text : List Char) : Except FilterFlaw (Option Directive) :=
  match Text.trim text with
  | [] => throw .malformed
  | '[' :: rest => span text [] 1 rest
  | c :: cs => do
    if !beginsTarget c then throw .malformed
    let stop := Utf8.size ((c :: cs).takeWhile fun c => c != '=' && c != '[')
    match (c :: cs).dropWhile fun c => c != '=' && c != '[' with
    | [] =>
      match rank? text with
      | some most => return some { most }
      | none => return some { target := text }
    | '=' :: _ =>
      let target ← part text 0 stop
      return some { target, most := ← level text (stop + 1) }
    | _ :: rest => span text (← part text 0 stop) (stop + 1) rest

def onlyField : List Char := "message".toList

def concerns (d : Directive) (n : Notice) : Bool :=
  d.target.isPrefixOf n.origin.toList && (d.field.all (· == onlyField))

/-- How narrow a directive is: by its target first, and then by whether it is for
notices with a field. -/
def narrowness (d : Directive) : Nat := 2 * d.target.length + d.field.toList.length

end Directive

namespace LogFilter

def standard : LogFilter :=
  [{ most := Level.warn.rank }, { target := "pipe_sieve".toList, most := Level.info.rank }]

def read (cs : List Char) : Except FilterFlaw LogFilter :=
  (((Directive.split ',' cs).filter (!·.isEmpty)).mapM Directive.read).map (·.filterMap id)

/-- The filter that is asked for. One with a malformed directive counts for nothing; there
is none if a directive is cut within a character. -/
def ofRequest? : Option (List Char) → Option LogFilter
  | none => some standard
  | some cs =>
    match read cs with
    | .ok f => some f
    | .error .malformed => some standard
    | .error .cut => none

/-- The directive that decides on a notice: of the narrowest that are for it, the last. -/
def deciding? (f : LogFilter) (n : Notice) : Option Directive :=
  (f.filter (·.concerns n)).foldl
    (fun best d =>
      match best with
      | none => some d
      | some b => if b.narrowness ≤ d.narrowness then some d else some b)
    none

def passes (f : LogFilter) (n : Notice) : Bool :=
  match f.deciding? n with
  | none => false
  | some d => n.level.rank ≤ d.most

end LogFilter

end SieveChain
