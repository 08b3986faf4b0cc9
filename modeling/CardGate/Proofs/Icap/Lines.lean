import CardGate.Icap.Source

/-!
# The lines of a stream

What the line readers accept, said without them.  A `Line` stands at the front of a stream and ends
at the first line feed, or at the end of a stream that is closed.  `HasLine` is a line within the
limit, by its text; a `Block` is lines up to an empty one, and a `Trailer` is the same but may also
end with the stream.

Each reader is characterised by its grammar: `readLine_eq_some_iff`, `requireLine_eq_ok_iff`,
`readBlock_eq_ok_iff` and `skipBlock_eq_ok_iff`.
-/

namespace CardGate

/-- Whether an error is one of framing: the client is told that its request is bad. -/
def IcapError.IsFraming (e : IcapError) : Prop :=
  e.isSilent = false ∧ e.status = .badRequest

namespace Source

/-! ## Lines -/

/-- The text of a line: carriage returns at its end do not count, and what is no UTF-8 is
replaced. -/
def lineText (line : List UInt8) : String :=
  Utf8.lossy (stripLine line)

/-- The line at the front of a stream, without its line feed, and the stream after it. -/
inductive Line : Source → List UInt8 → Source → Prop
  | ended {line rest : List UInt8} {ending : Ending} (unbroken : lineFeed ∉ line) :
      Line ⟨line ++ lineFeed :: rest, ending⟩ line ⟨rest, ending⟩
  /-- The last line of a closed stream need not have an end. -/
  | last {line : List UInt8} (unbroken : lineFeed ∉ line) (nonempty : line ≠ []) :
      Line ⟨line, .closed⟩ line ⟨[], .closed⟩

/-- The text of a line within the limit at the front of a stream, and the stream after it. -/
def HasLine (s : Source) (text : String) (rest : Source) : Prop :=
  ∃ line, s.Line line rest ∧ line.length < maxLine ∧ lineText line = text

/-- Bytes without a line feed are the whole line. -/
theorem takeWhile_of_unbroken {line : List UInt8} (h : lineFeed ∉ line) (rest : List UInt8) :
    (line ++ rest).takeWhile (· != lineFeed) = line ++ rest.takeWhile (· != lineFeed) := by
  apply List.takeWhile_append_of_pos
  intro b hb
  rw [bne_iff_ne]
  rintro rfl
  exact h hb

theorem dropWhile_of_unbroken {line : List UInt8} (h : lineFeed ∉ line) (rest : List UInt8) :
    (line ++ rest).dropWhile (· != lineFeed) = rest.dropWhile (· != lineFeed) := by
  apply List.dropWhile_append_of_pos
  intro b hb
  rw [bne_iff_ne]
  rintro rfl
  exact h hb

/-- The first line feed is where the first line ends. -/
theorem eq_of_unbroken {line other rest more : List UInt8} (h : lineFeed ∉ line)
    (hother : lineFeed ∉ other) (heq : line ++ lineFeed :: rest = other ++ lineFeed :: more) :
    line = other ∧ rest = more := by
  have hline : line = other := by
    have htake := congrArg (List.takeWhile (· != lineFeed)) heq
    rw [takeWhile_of_unbroken h, takeWhile_of_unbroken hother] at htake
    simpa using htake
  rw [hline, List.append_cancel_left_eq] at heq
  exact ⟨hline, (List.cons.inj heq).2⟩

/-- Every stream has a line, is over, or is broken off within a line. -/
theorem line_cases (s : Source) :
    (∃ line rest, s.Line line rest) ∨ s = ⟨[], .closed⟩ ∨
      lineFeed ∉ s.bytes ∧ s.ending = .reset := by
  obtain ⟨bytes, ending⟩ := s
  by_cases hfeed : lineFeed ∈ bytes
  · obtain ⟨line, rest, rfl, hline⟩ := List.eq_append_cons_of_mem hfeed
    exact Or.inl ⟨line, ⟨rest, ending⟩, .ended hline⟩
  · cases ending with
    | reset => exact Or.inr (Or.inr ⟨hfeed, rfl⟩)
    | closed =>
      cases bytes with
      | nil => exact Or.inr (Or.inl rfl)
      | cons b more => exact Or.inl ⟨b :: more, ⟨[], .closed⟩, .last hfeed (List.cons_ne_nil b more)⟩

/-- What the line at the front of a stream is read as. -/
theorem readLine_of_line {s rest : Source} {line : List UInt8} (h : s.Line line rest) :
    s.readLine = if maxLine ≤ line.length then .error (.lineTooLong maxLine)
      else .ok (some (lineText line), rest) := by
  cases h with
  | @ended line rest ending unbroken =>
    have htake : (line ++ lineFeed :: rest).takeWhile (· != lineFeed) = line := by
      rw [takeWhile_of_unbroken unbroken]
      simp
    have hdrop : (line ++ lineFeed :: rest).dropWhile (· != lineFeed) = lineFeed :: rest := by
      rw [dropWhile_of_unbroken unbroken]
      simp
    simp only [readLine, htake, hdrop, lineText]
  | last unbroken nonempty =>
    have htake : line.takeWhile (· != lineFeed) = line := by
      simpa using takeWhile_of_unbroken unbroken []
    have hdrop : line.dropWhile (· != lineFeed) = [] := by
      simpa using dropWhile_of_unbroken unbroken []
    have hempty : line.isEmpty = false := by
      rwa [List.isEmpty_eq_false_iff]
    simp only [readLine, htake, hdrop, hempty, lineText]
    rfl

theorem readLine_nil : (⟨[], .closed⟩ : Source).readLine = .ok (none, ⟨[], .closed⟩) :=
  rfl

/-- A stream that is broken off within a line cannot be read. -/
theorem readLine_reset {s : Source} (hfeed : lineFeed ∉ s.bytes) (hreset : s.ending = .reset) :
    ∃ e, s.readLine = .error e ∧ e.IsFraming := by
  obtain ⟨bytes, ending⟩ := s
  cases hreset
  have htake : bytes.takeWhile (· != lineFeed) = bytes := by
    simpa using takeWhile_of_unbroken hfeed []
  have hdrop : bytes.dropWhile (· != lineFeed) = [] := by
    simpa using dropWhile_of_unbroken hfeed []
  simp only [readLine, htake, hdrop]
  split
  · exact ⟨_, rfl, rfl, rfl⟩
  · exact ⟨_, rfl, rfl, rfl⟩

theorem readLine_eq_some_iff {s rest : Source} {text : String} :
    s.readLine = .ok (some text, rest) ↔ s.HasLine text rest := by
  constructor
  · intro h
    rcases line_cases s with ⟨line, after, hline⟩ | rfl | ⟨hfeed, hreset⟩
    · rw [readLine_of_line hline] at h
      split at h
      · cases h
      · next hshort =>
        cases h
        exact ⟨line, hline, Nat.not_le.1 hshort, rfl⟩
    · cases h
    · obtain ⟨e, he, -⟩ := readLine_reset hfeed hreset
      rw [he] at h
      cases h
  · rintro ⟨line, hline, hshort, rfl⟩
    rw [readLine_of_line hline, if_neg (Nat.not_le.2 hshort)]

theorem readLine_eq_none_iff {s rest : Source} :
    s.readLine = .ok (none, rest) ↔ s = ⟨[], .closed⟩ ∧ rest = ⟨[], .closed⟩ := by
  constructor
  · intro h
    rcases line_cases s with ⟨line, after, hline⟩ | rfl | ⟨hfeed, hreset⟩
    · rw [readLine_of_line hline] at h
      split at h <;> cases h
    · cases h
      exact ⟨rfl, rfl⟩
    · obtain ⟨e, he, -⟩ := readLine_reset hfeed hreset
      rw [he] at h
      cases h
  · rintro ⟨rfl, rfl⟩
    exact readLine_nil

theorem isFraming_of_readLine {s : Source} {e : IcapError} (h : s.readLine = .error e) :
    e.IsFraming := by
  rcases line_cases s with ⟨line, after, hline⟩ | rfl | ⟨hfeed, hreset⟩
  · rw [readLine_of_line hline] at h
    split at h
    · cases h
      exact ⟨rfl, rfl⟩
    · cases h
  · cases h
  · obtain ⟨e', he, hframing⟩ := readLine_reset hfeed hreset
    rw [he] at h
    cases h
    exact hframing

theorem requireLine_eq_ok_iff {s rest : Source} {text : String} :
    s.requireLine = .ok (text, rest) ↔ s.HasLine text rest := by
  rw [← readLine_eq_some_iff, requireLine]
  constructor
  · intro h
    split at h
    · cases h
    · cases h
    · next heq =>
      cases h
      exact heq
  · intro h
    rw [h]

/-- A stream has one line at its front. -/
theorem HasLine.unique {s rest others : Source} {text other : String} (h : s.HasLine text rest)
    (hother : s.HasLine other others) : text = other ∧ rest = others := by
  have hread := requireLine_eq_ok_iff.2 h
  rw [requireLine_eq_ok_iff.2 hother] at hread
  cases hread
  exact ⟨rfl, rfl⟩

theorem isFraming_of_requireLine {s : Source} {e : IcapError} (h : s.requireLine = .error e) :
    e.IsFraming := by
  rw [requireLine] at h
  split at h
  · next heq =>
    cases h
    exact isFraming_of_readLine heq
  · cases h
    exact ⟨rfl, rfl⟩
  · cases h

/-! ## Blocks -/

/-- Lines up to an empty one, which is not among them, and the stream after it. -/
inductive Block : Source → List String → Source → Prop
  | done {s rest : Source} (blank : s.HasLine "" rest) : Block s [] rest
  | more {s next rest : Source} {line : String} {lines : List String} (first : s.HasLine line next)
      (nonempty : line ≠ "") (others : Block next lines rest) : Block s (line :: lines) rest

/-- Lines up to an empty one or to the end of the stream, and the stream after them. -/
inductive Trailer : Source → Source → Prop
  | atEnd : Trailer ⟨[], .closed⟩ ⟨[], .closed⟩
  | done {s rest : Source} (blank : s.HasLine "" rest) : Trailer s rest
  | more {s next rest : Source} {line : String} (first : s.HasLine line next)
      (nonempty : line ≠ "") (others : Trailer next rest) : Trailer s rest

/-- A block goes on after a line that is not empty. -/
theorem readBlock_of_line {s next : Source} {line : String}
    (h : s.requireLine = .ok (line, next)) :
    s.readBlock = if line = "" then .ok ([], next)
      else match next.readBlock with
        | .error e => .error e
        | .ok (lines, rest) => .ok (line :: lines, rest) := by
  fun_cases readBlock s with
  | case1 e hline =>
    rw [h] at hline
    cases hline
  | case2 line' next' hline hempty =>
    rw [h] at hline
    cases hline
    rw [if_pos (String.isEmpty_iff.1 hempty)]
  | case3 line' next' hline hempty e hmore =>
    rw [h] at hline
    cases hline
    rw [if_neg (mt String.isEmpty_iff.2 hempty), hmore]
  | case4 line' next' hline hempty lines rest hmore =>
    rw [h] at hline
    cases hline
    rw [if_neg (mt String.isEmpty_iff.2 hempty), hmore]

theorem readBlock_eq_ok_iff {s rest : Source} {lines : List String} :
    s.readBlock = .ok (lines, rest) ↔ s.Block lines rest := by
  constructor
  · intro h
    fun_induction readBlock s generalizing lines rest with
    | case1 s e hline => cases h
    | case2 s line next hline hempty =>
      cases h
      rw [String.isEmpty_iff.1 hempty] at hline
      exact .done (requireLine_eq_ok_iff.1 hline)
    | case3 s line next hline hempty e hmore ih => cases h
    | case4 s line next hline hempty more after hmore ih =>
      cases h
      have hnonempty : line ≠ "" := mt String.isEmpty_iff.2 hempty
      exact .more (requireLine_eq_ok_iff.1 hline) hnonempty (ih hmore)
  · intro h
    induction h with
    | done blank =>
      rw [readBlock_of_line (requireLine_eq_ok_iff.2 blank)]
      rfl
    | more first nonempty others ih =>
      rw [readBlock_of_line (requireLine_eq_ok_iff.2 first), if_neg nonempty, ih]

theorem isFraming_of_readBlock {s : Source} {e : IcapError} (h : s.readBlock = .error e) :
    e.IsFraming := by
  fun_induction readBlock s with
  | case1 s e' hline =>
    cases h
    exact isFraming_of_requireLine hline
  | case2 s line next hline hempty => cases h
  | case3 s line next hline hempty e' hmore ih =>
    cases h
    exact ih hmore
  | case4 s line next hline hempty more after hmore ih => cases h

/-- A trailer goes on after a line that is not empty. -/
theorem skipBlock_of_line {s next : Source} {line : String}
    (h : s.readLine = .ok (some line, next)) :
    s.skipBlock = if line = "" then .ok next else next.skipBlock := by
  fun_cases skipBlock s with
  | case1 e hline | case2 next' hline =>
    rw [h] at hline
    cases hline
  | case3 line' next' hline hempty =>
    rw [h] at hline
    cases hline
    rw [if_pos (String.isEmpty_iff.1 hempty)]
  | case4 line' next' hline hempty =>
    rw [h] at hline
    cases hline
    rw [if_neg (mt String.isEmpty_iff.2 hempty)]

theorem skipBlock_eq_ok_iff {s rest : Source} : s.skipBlock = .ok rest ↔ s.Trailer rest := by
  constructor
  · intro h
    fun_induction skipBlock s with
    | case1 s e hline => cases h
    | case2 s next hline =>
      cases h
      obtain ⟨rfl, rfl⟩ := readLine_eq_none_iff.1 hline
      exact .atEnd
    | case3 s line next hline hempty =>
      cases h
      rw [String.isEmpty_iff.1 hempty] at hline
      exact .done (readLine_eq_some_iff.1 hline)
    | case4 s line next hline hempty ih =>
      have hnonempty : line ≠ "" := mt String.isEmpty_iff.2 hempty
      exact .more (readLine_eq_some_iff.1 hline) hnonempty (ih h)
  · intro h
    induction h with
    | atEnd =>
      rw [skipBlock]
      rfl
    | done blank =>
      rw [skipBlock_of_line (readLine_eq_some_iff.2 blank)]
      rfl
    | more first nonempty others ih =>
      rw [skipBlock_of_line (readLine_eq_some_iff.2 first), if_neg nonempty]
      exact ih

theorem isFraming_of_skipBlock {s : Source} {e : IcapError} (h : s.skipBlock = .error e) :
    e.IsFraming := by
  fun_induction skipBlock s with
  | case1 s e' hline =>
    cases h
    exact isFraming_of_readLine hline
  | case2 s next hline => cases h
  | case3 s line next hline hempty => cases h
  | case4 s line next hline hempty ih => exact ih h

/-! ## Runs of bytes -/

/-- Exactly `n` bytes can be read if the stream has as many. -/
theorem readExactly_eq_ok_iff {n : Nat} {s rest : Source} {data : List UInt8} :
    s.readExactly n = .ok (data, rest) ↔
      data.length = n ∧ s = ⟨data ++ rest.bytes, rest.ending⟩ := by
  constructor
  · intro h
    obtain ⟨bytes, ending⟩ := s
    rw [readExactly] at h
    dsimp only at h
    split at h
    · next hlength =>
      cases h
      exact ⟨hlength, by rw [List.take_append_drop]⟩
    · cases ending <;> cases h
  · rintro ⟨rfl, rfl⟩
    exact readExactly_append data rest.bytes rest.ending

theorem isFraming_of_readExactly {n : Nat} {s : Source} {e : IcapError}
    (h : s.readExactly n = .error e) : e.IsFraming := by
  rw [readExactly] at h
  split at h
  · cases h
  · split at h <;> cases h <;> exact ⟨rfl, rfl⟩

end Source

end CardGate
