/-!
# UTF-8

Bytes are read one at a time. A byte that cannot extend the sequence under way
ends it and is looked at afresh, so an ill-formed stretch is cut into its maximal
subparts. Strict reading refuses any such subpart; lossy reading puts one
replacement character in its place. Parts of a text can be taken by the numbers of
their bytes, if no character is torn by that.
-/

namespace SieveChain.Utf8

def encode (cs : List Char) : List UInt8 := cs.flatMap String.utf8EncodeChar

/-- A sequence under way: the bits so far, how many bytes are still due, and the
range the next one must lie in. -/
structure Pending where
  bits : Nat
  due : Nat
  low : Nat
  high : Nat

/-- What a first byte announces. -/
inductive Lead
  | whole (c : Char)
  | start (p : Pending)
  | bad

/-- The well-formed first bytes. Overlong forms, surrogates and code points past
the last plane are excluded by the range of the second byte. -/
def lead (b : UInt8) : Lead :=
  let n := b.toNat
  if n < 0x80 then .whole (Char.ofNat n)
  else if n < 0xC2 then .bad
  else if n < 0xE0 then .start ⟨n - 0xC0, 1, 0x80, 0xBF⟩
  else if n = 0xE0 then .start ⟨0, 2, 0xA0, 0xBF⟩
  else if n = 0xED then .start ⟨0xD, 2, 0x80, 0x9F⟩
  else if n < 0xF0 then .start ⟨n - 0xE0, 2, 0x80, 0xBF⟩
  else if n = 0xF0 then .start ⟨0, 3, 0x90, 0xBF⟩
  else if n < 0xF4 then .start ⟨n - 0xF0, 3, 0x80, 0xBF⟩
  else if n = 0xF4 then .start ⟨4, 3, 0x80, 0x8F⟩
  else .bad

/-- The pieces of a byte string: a character for each well-formed sequence,
`none` for each maximal ill-formed subpart. -/
def pieces : Option Pending → List UInt8 → List (Option Char)
  | none, [] => []
  | some _, [] => [none]
  | none, b :: bs =>
    match lead b with
    | .whole c => some c :: pieces none bs
    | .start p => pieces (some p) bs
    | .bad => none :: pieces none bs
  | some p, b :: bs =>
    if p.low ≤ b.toNat ∧ b.toNat ≤ p.high then
      let bits := p.bits * 64 + (b.toNat - 0x80)
      if p.due ≤ 1 then some (Char.ofNat bits) :: pieces none bs
      else pieces (some ⟨bits, p.due - 1, 0x80, 0xBF⟩) bs
    else
      match lead b with
      | .whole c => none :: some c :: pieces none bs
      | .start p => none :: pieces (some p) bs
      | .bad => none :: none :: pieces none bs

def decode? (bs : List UInt8) : Option (List Char) := (pieces none bs).mapM id

/-- The text of any bytes, with U+FFFD for each maximal ill-formed subpart. -/
def lossy (bs : List UInt8) : List Char := (pieces none bs).map (·.getD '\uFFFD')

def size (cs : List Char) : Nat := cs.foldr (fun c n => c.utf8Size + n) 0

/-- A text from a byte on; `none` if that byte is not the first of a character. -/
def drop? : Nat → List Char → Option (List Char)
  | 0, cs => some cs
  | _ + 1, [] => none
  | n + 1, c :: cs => if c.utf8Size ≤ n + 1 then drop? (n + 1 - c.utf8Size) cs else none

/-- The first bytes of a text; `none` if they end within a character. -/
def take? : Nat → List Char → Option (List Char)
  | 0, _ => some []
  | _ + 1, [] => none
  | n + 1, c :: cs =>
    if c.utf8Size ≤ n + 1 then (take? (n + 1 - c.utf8Size) cs).map (c :: ·) else none

def slice? (start stop : Nat) (cs : List Char) : Option (List Char) :=
  (drop? start cs).bind (take? (stop - start))

end SieveChain.Utf8
