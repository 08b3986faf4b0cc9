import CardGate.Proofs.Icap.Lines
import CardGate.Proofs.Text.Broken
import Mathlib.Data.List.DropRight

/-!
# A line, byte for byte

How many bytes are looked at for a line, how many are taken, and what text they are.  Three things
come together at the end of a line: the limit, the line feed that may or may not stand within it,
and the end of the stream, where the last line needs no line feed.  `reads_line_exactly` says which
of them decides, for every stream.

`Takes` says where a line ends without saying how it is found.  The limit counts the line feed, so
that the longest line that is read has 8191 bytes before it.
-/

namespace CardGate.Source

/-- The bytes that a line takes off the front of others, and those it leaves: it takes the first
line feed and all before it, or everything if there is none. -/
inductive Takes : List UInt8 → List UInt8 → List UInt8 → Prop
  | ended {line rest : List UInt8} (unbroken : lineFeed ∉ line) :
      Takes (line ++ lineFeed :: rest) (line ++ [lineFeed]) rest
  | last {line : List UInt8} (unbroken : lineFeed ∉ line) : Takes line line []

/-- Whether a byte is left out where it stands at the end of a line. -/
def isTerminator (b : UInt8) : Bool :=
  b == lineFeed || b == carriageReturn

/-- Whether a stream begins with more bytes of one line than are looked at. -/
def IsOverlong (bytes : List UInt8) : Prop :=
  8192 ≤ bytes.length ∧ lineFeed ∉ bytes.take 8192

variable {s : Source} {line rest : List UInt8}

/-! ## The limit -/

/-- So many characters at the front pass a test if there are as many and all of them do. -/
theorem le_length_takeWhile_iff {α : Type} {test : α → Bool} {n : Nat} {l : List α} :
    n ≤ (l.takeWhile test).length ↔ n ≤ l.length ∧ ∀ a ∈ l.take n, test a = true := by
  induction l generalizing n with
  | nil => simp
  | cons a l ih =>
    cases n with
    | zero => simp
    | succ n =>
      by_cases ha : test a = true
      · simp [ha, ih]
      · simp [ha]

theorem isOverlong_iff {bytes : List UInt8} :
    IsOverlong bytes ↔ maxLine ≤ (bytes.takeWhile (· != lineFeed)).length := by
  rw [le_length_takeWhile_iff, IsOverlong, maxLine]
  simp only [bne_iff_ne, ne_eq]
  exact and_congr_right fun _ => ⟨fun h _ hb heq => h (heq ▸ hb), fun h hb => h _ hb rfl⟩

/-- The line feed is looked for within the limit before anything else. -/
theorem readLine_eq_lineTooLong_iff :
    s.readLine = .error (.lineTooLong 8192) ↔ IsOverlong s.bytes := by
  rw [isOverlong_iff]
  unfold readLine
  constructor
  · intro h
    by_contra hshort
    simp only [if_neg hshort] at h
    split at h
    · cases h
    · split at h
      · cases h
      · split at h <;> cases h
  · intro hlong
    simp only [if_pos hlong]
    rfl

/-- A line is within the limit if no more than 8191 bytes stand before its line feed. -/
theorem isOverlong_append_iff (unbroken : lineFeed ∉ line) (rest : List UInt8) :
    IsOverlong (line ++ lineFeed :: rest) ↔ 8191 < line.length := by
  rw [isOverlong_iff, takeWhile_of_unbroken unbroken, maxLine]
  simp only [List.takeWhile_cons, bne_self_eq_false, Bool.false_eq_true, if_false, List.append_nil]
  exact Iff.rfl

/-! ## The text -/

/-- Before the line feed only carriage returns can be left out. -/
theorem rdropWhile_of_unbroken (unbroken : lineFeed ∉ line) :
    line.rdropWhile isTerminator = stripLine line := by
  have hdrop : ∀ bytes : List UInt8, lineFeed ∉ bytes →
      bytes.dropWhile isTerminator = bytes.dropWhile (· == carriageReturn) := by
    intro bytes h
    induction bytes with
    | nil => rfl
    | cons b bytes ih =>
      obtain ⟨hb, hmore⟩ := not_or.1 (mt List.mem_cons.2 h)
      have hsame : isTerminator b = (b == carriageReturn) := by
        rw [isTerminator, beq_false_of_ne (Ne.symm hb), Bool.false_or]
      rw [List.dropWhile_cons, List.dropWhile_cons, hsame, ih hmore]
  rw [List.rdropWhile, stripLine, hdrop _ (mt List.mem_reverse.1 unbroken)]

/-- The text of a line is what its bytes are without those at the end. -/
theorem decoded_lineText (unbroken : lineFeed ∉ line) :
    Utf8.Decoded (line.rdropWhile isTerminator) (lineText line).toList := by
  rw [rdropWhile_of_unbroken unbroken, Utf8.decoded_iff, lineText]

/-- A line takes its line feed with it, which is no part of its text. -/
theorem Line.takes {after : Source} (h : s.Line line after) :
    ∃ taken, Takes s.bytes taken after.bytes ∧ after.ending = s.ending ∧
      Utf8.Decoded (taken.rdropWhile isTerminator) (lineText line).toList := by
  cases h with
  | ended unbroken =>
    refine ⟨line ++ [lineFeed], .ended unbroken, rfl, ?_⟩
    rw [List.rdropWhile_concat_pos _ _ _ rfl]
    exact decoded_lineText unbroken
  | last unbroken nonempty => exact ⟨line, .last unbroken, rfl, decoded_lineText unbroken⟩

/-! ## Reading -/

/-- What is read as the line at the front of a stream. -/
structure ReadsLine (s : Source) : Prop where
  /-- There is no line where the stream is over, and then nothing is taken. -/
  nothing : ∀ after, s.readLine = .ok (none, after) ↔ s = ⟨[], .closed⟩ ∧ after = s
  tooLong : s.readLine = .error (.lineTooLong 8192) ↔ IsOverlong s.bytes
  /-- Otherwise the line is what stands before the first line feed, or before the end of a stream
  that has been closed. -/
  text : s.bytes ≠ [] → ¬IsOverlong s.bytes → lineFeed ∈ s.bytes ∨ s.ending = .closed →
    ∃ taken text rest, Takes s.bytes taken rest ∧
      s.readLine = .ok (some text, ⟨rest, s.ending⟩) ∧
      Utf8.Decoded (taken.rdropWhile isTerminator) text.toList
  /-- A stream that is broken off has no last line. -/
  reset : lineFeed ∉ s.bytes → s.bytes.length < 8192 → s.ending = .reset →
    s.readLine = .error .connectionReset
  /-- Up to 8191 bytes may stand before a line feed. -/
  limit : ∀ line rest, lineFeed ∉ line → s.bytes = line ++ lineFeed :: rest →
    ((∃ text, s.readLine = .ok (some text, ⟨rest, s.ending⟩)) ↔ line.length ≤ 8191)

/-- A line of a stream that is not too long is read. -/
theorem readLine_of_fits {after : Source} (h : s.Line line after) (fits : ¬IsOverlong s.bytes) :
    s.readLine = .ok (some (lineText line), after) := by
  have hread := readLine_of_line h
  by_cases hlong : maxLine ≤ line.length
  · rw [if_pos hlong] at hread
    exact absurd (readLine_eq_lineTooLong_iff.1 hread) fits
  · rwa [if_neg hlong] at hread

/-- A stream that is broken off within the limit, before a line feed, cannot be read. -/
theorem readLine_eq_connectionReset (hfeed : lineFeed ∉ s.bytes) (hshort : s.bytes.length < 8192)
    (hreset : s.ending = .reset) : s.readLine = .error .connectionReset := by
  have htake : s.bytes.takeWhile (· != lineFeed) = s.bytes := by
    simpa using takeWhile_of_unbroken hfeed []
  have hdrop : s.bytes.dropWhile (· != lineFeed) = [] := by
    simpa using dropWhile_of_unbroken hfeed []
  have hfits : ¬maxLine ≤ s.bytes.length := Nat.not_le.2 hshort
  simp only [readLine, htake, hdrop, if_neg hfits, hreset]

/-- Every stream is read line by line as `ReadsLine` says. -/
theorem reads_line_exactly (s : Source) : s.ReadsLine where
  nothing after := by
    rw [readLine_eq_none_iff]
    constructor
    · rintro ⟨rfl, rfl⟩
      exact ⟨rfl, rfl⟩
    · rintro ⟨rfl, rfl⟩
      exact ⟨rfl, rfl⟩
  tooLong := readLine_eq_lineTooLong_iff
  text hne fits hends := by
    rcases line_cases s with ⟨line, after, hline⟩ | rfl | ⟨hfeed, hreset⟩
    · obtain ⟨taken, htakes, hending, htext⟩ := hline.takes
      refine ⟨taken, lineText line, after.bytes, htakes, ?_, htext⟩
      rw [readLine_of_fits hline fits, ← hending]
    · exact absurd rfl hne
    · rw [hreset] at hends
      exact absurd hends (by simp [hfeed])
  reset hfeed hshort hreset := readLine_eq_connectionReset hfeed hshort hreset
  limit line rest unbroken hbytes := by
    obtain ⟨bytes, ending⟩ := s
    subst hbytes
    rw [← Nat.not_lt, ← isOverlong_append_iff unbroken rest]
    constructor
    · rintro ⟨text, hread⟩ hlong
      rw [readLine_eq_lineTooLong_iff.2 hlong] at hread
      cases hread
    · intro fits
      exact ⟨lineText line, readLine_of_fits (.ended unbroken) fits⟩

end CardGate.Source
