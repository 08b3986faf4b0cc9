import CardGate.Icap.Error
import CardGate.Text.Utf8

/-!
# Reading a stream

A source is what a client sends: the bytes still unread, and how the stream ends after them, by
being closed or by being broken off.  A reader gives what it read and the source after it.

`readLine` takes one line, `readBlock` the lines up to an empty one, and `readExactly` a number of
bytes.  Every line that is read leaves a shorter source, which is why reading a block ends.
-/

namespace CardGate

/-- How a stream ends. -/
inductive Ending where
  | closed
  | reset
  deriving DecidableEq, Repr

/-- The unread part of a stream. -/
structure Source where
  bytes : List UInt8
  ending : Ending
  deriving DecidableEq, Repr

/-- A reader's answer: what it read, and the source after it. -/
abbrev Reading (α : Type) := Except IcapError (α × Source)

namespace Source

/-- The longest line that is read, with its end. -/
def maxLine : Nat := 8192

/-- The line feed. -/
def lineFeed : UInt8 := 10

/-- The carriage return. -/
def carriageReturn : UInt8 := 13

/-- A line without the carriage returns at its end. -/
def stripLine (line : List UInt8) : List UInt8 :=
  (line.reverse.dropWhile (· == carriageReturn)).reverse

/-- Reads a line without its end, or nothing at the end of the stream.  The last line need not
have an end; bytes that are no UTF-8 are replaced. -/
def readLine (s : Source) : Reading (Option String) :=
  let line := s.bytes.takeWhile (· != lineFeed)
  if maxLine ≤ line.length then .error (.lineTooLong maxLine)
  else match s.bytes.dropWhile (· != lineFeed) with
    | _ :: rest => .ok (some (Utf8.lossy (stripLine line)), { s with bytes := rest })
    | [] =>
      match s.ending with
      | .reset => .error .connectionReset
      | .closed =>
        if line.isEmpty then .ok (none, s)
        else .ok (some (Utf8.lossy (stripLine line)), { s with bytes := [] })

/-- A line takes at least one byte. -/
theorem length_lt_of_readLine {s rest : Source} {line : String}
    (h : s.readLine = .ok (some line, rest)) : rest.bytes.length < s.bytes.length := by
  unfold readLine at h
  have split := congrArg List.length (List.takeWhile_append_dropWhile (p := (· != lineFeed)) (l := s.bytes))
  simp only [List.length_append] at split
  simp only at h
  split at h
  · cases h
  · split at h
    · next rest' heq =>
      simp only [heq, List.length_cons] at split
      cases h
      simp only
      omega
    · split at h
      · cases h
      · split at h
        · cases h
        · next heq hne =>
          cases h
          cases hs : s.bytes with
          | nil => simp [hs] at hne
          | cons b bs => simp

/-- Reads a line that must be there. -/
def requireLine (s : Source) : Reading String :=
  match s.readLine with
  | .error e => .error e
  | .ok (none, _) => .error .endOfStream
  | .ok (some line, rest) => .ok (line, rest)

/-- A required line takes at least one byte. -/
theorem length_lt_of_requireLine {s rest : Source} {line : String}
    (h : s.requireLine = .ok (line, rest)) : rest.bytes.length < s.bytes.length := by
  unfold requireLine at h
  split at h
  · cases h
  · cases h
  · next heq =>
    cases h
    exact length_lt_of_readLine heq

/-- Reads lines up to and including an empty one, which is left out. -/
def readBlock (s : Source) : Reading (List String) :=
  match _line : s.requireLine with
  | .error e => .error e
  | .ok (line, rest) =>
    if line.isEmpty then .ok ([], rest)
    else
      match rest.readBlock with
      | .error e => .error e
      | .ok (lines, rest) => .ok (line :: lines, rest)
termination_by s.bytes.length
decreasing_by exact length_lt_of_requireLine _line

/-- Skips lines up to and including an empty one, or to the end of the stream. -/
def skipBlock (s : Source) : Except IcapError Source :=
  match _line : s.readLine with
  | .error e => .error e
  | .ok (none, rest) => .ok rest
  | .ok (some line, rest) => if line.isEmpty then .ok rest else rest.skipBlock
termination_by s.bytes.length
decreasing_by exact length_lt_of_readLine _line

/-- Reads exactly `n` bytes. -/
def readExactly (n : Nat) (s : Source) : Reading (List UInt8) :=
  let bytes := s.bytes.take n
  if bytes.length = n then .ok (bytes, { s with bytes := s.bytes.drop n })
  else match s.ending with
    | .closed => .error .endOfStream
    | .reset => .error .connectionReset

/-- As many bytes as a list has are read back, and the rest is left. -/
theorem readExactly_append (bytes rest : List UInt8) (ending : Ending) :
    readExactly bytes.length ⟨bytes ++ rest, ending⟩ = .ok (bytes, ⟨rest, ending⟩) := by
  simp [readExactly]

/-- What remains after exactly `n` bytes is no longer than before. -/
theorem length_le_of_readExactly {n : Nat} {s rest : Source} {bytes : List UInt8}
    (h : s.readExactly n = .ok (bytes, rest)) : rest.bytes.length ≤ s.bytes.length := by
  unfold readExactly at h
  simp only at h
  split at h
  · cases h
    simp
  · split at h <;> cases h

end Source

end CardGate
