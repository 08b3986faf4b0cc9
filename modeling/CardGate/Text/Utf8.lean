/-!
# UTF-8

Protocol lines and bodies arrive as bytes.  `units` reads them as UTF-8 one byte at a time and
gives a character for every complete sequence and `none` for every maximal piece that no
character starts with.  `text?` accepts only bytes without such a piece; `lossy` puts the
replacement character in the place of each.
-/

namespace CardGate.Utf8

/-- The bytes of a text. -/
def encode (cs : List Char) : List UInt8 :=
  cs.flatMap String.utf8EncodeChar

/-- The bytes of a string. -/
def bytes (s : String) : List UInt8 :=
  encode s.toList

/-! ## Reading -/

/-- Where the reader stands: between two characters, or inside one, waiting for a byte between
two bounds and then for `more` continuation bytes. -/
inductive State where
  | ready
  | inside (more : Nat) (low high : UInt8) (code : Nat)

/-- What a byte means at the start of a character.  The second byte is bounded more closely after
four of the first bytes: below, where a shorter sequence would do, and above, where the code would
be a surrogate or too large. -/
def start (b : UInt8) : List (Option Char) × State :=
  if b < 0x80 then ([some (Char.ofNat b.toNat)], .ready)
  else if b < 0xC2 then ([none], .ready)
  else if b < 0xE0 then ([], .inside 0 0x80 0xBF (b.toNat - 0xC0))
  else if b < 0xF0 then
    ([], .inside 1 (if b = 0xE0 then 0xA0 else 0x80) (if b = 0xED then 0x9F else 0xBF)
      (b.toNat - 0xE0))
  else if b < 0xF5 then
    ([], .inside 2 (if b = 0xF0 then 0x90 else 0x80) (if b = 0xF4 then 0x8F else 0xBF)
      (b.toNat - 0xF0))
  else ([none], .ready)

/-- Takes one byte.  A byte that does not continue the character begun ends the broken piece and
is read again as a start. -/
def advance : State → UInt8 → List (Option Char) × State
  | .ready, b => start b
  | .inside more low high code, b =>
    if low ≤ b && b ≤ high then
      let code := code * 64 + (b.toNat - 0x80)
      match more with
      | 0 => ([some (Char.ofNat code)], .ready)
      | more + 1 => ([], .inside more 0x80 0xBF code)
    else
      let (out, next) := start b
      (none :: out, next)

/-- Reads the remaining bytes from a given state.  A character cut off by the end is broken. -/
def unitsFrom : State → List UInt8 → List (Option Char)
  | .ready, [] => []
  | .inside .., [] => [none]
  | state, b :: rest =>
    let (out, next) := advance state b
    out ++ unitsFrom next rest

/-- The characters of a byte sequence, with `none` for each broken piece. -/
def units (bs : List UInt8) : List (Option Char) :=
  unitsFrom .ready bs

/-- The text of bytes that are wholly UTF-8. -/
def text? (bs : List UInt8) : Option String :=
  let us := units bs
  if us.all Option.isSome then some (String.ofList (us.filterMap id)) else none

/-- The text of any bytes, with a replacement character for each broken piece. -/
def lossy (bs : List UInt8) : String :=
  String.ofList ((units bs).map (·.getD '\uFFFD'))

end CardGate.Utf8
