import CardGate.Text.Utf8.Lemmas
import Mathlib.Data.List.Basic
import Mathlib.Data.List.Induction
import Mathlib.Data.Nat.Find

/-!
# Bytes that are no UTF-8

What `lossy` makes of bytes, said without its reader.  A text is read off the bytes from left to
right.  Where the bytes of a character stand, it is that character.  Where those of no character do,
it is a replacement character for as many bytes as some character begins with, and for one byte if
none begins so (`Broken`).  `decoded_iff` says that this is the text that `lossy` gives.

The reader goes byte by byte and keeps the bounds of the next one.  What these bounds mean is
`Completes`: bytes within them make a character of the bytes before.  So a byte outside of them is
where the longest beginning of a character ends (`units_broken`).
-/

namespace CardGate.Utf8

/-- Whether a character begins with bytes, or is the whole of them. -/
def BeginsChar (bs : List UInt8) : Prop :=
  ∃ c, bs <+: String.utf8EncodeChar c

/-- A piece that is replaced by one character when `rest` stands behind it. -/
structure Broken (piece rest : List UInt8) : Prop where
  nonempty : piece ≠ []
  no_char : ∀ c, ¬String.utf8EncodeChar c <+: piece ++ rest
  begins : piece.length = 1 ∨ BeginsChar piece
  longest : ∀ front, front <+: piece ++ rest → BeginsChar front → front.length ≤ piece.length

/-- The text of bytes, with a replacement character for each broken piece. -/
inductive Decoded : List UInt8 → List Char → Prop
  | nil : Decoded [] []
  | char {bs : List UInt8} {cs : List Char} (c : Char) (more : Decoded bs cs) :
      Decoded (String.utf8EncodeChar c ++ bs) (c :: cs)
  | broken {piece bs : List UInt8} {cs : List Char} (isBroken : Broken piece bs)
      (more : Decoded bs cs) : Decoded (piece ++ bs) ('\uFFFD' :: cs)

variable {piece rest front bs : List UInt8} {cs : List Char} {more : Nat} {low high : UInt8}

/-! ## Inside a character -/

/-- Whether the bytes before a state inside a character become one with every byte that is within
the bounds and as many continuation bytes behind it as the state waits for. -/
def Completes (front : List UInt8) (more : Nat) (low high : UInt8) : Prop :=
  ∀ b tail, low ≤ b ∧ b ≤ high → tail.length = more → (∀ t ∈ tail, 0x80 ≤ t ∧ t ≤ 0xBF) →
    ∃ c, String.utf8EncodeChar c = front ++ b :: tail

/-- The bytes before and one byte within the bounds are what a character begins with. -/
theorem Completes.beginsChar (h : Completes front more low high) {b : UInt8}
    (hb : low ≤ b ∧ b ≤ high) : BeginsChar (front ++ [b]) := by
  have hcontinue : ∀ t ∈ List.replicate more (0x80 : UInt8), 0x80 ≤ t ∧ t ≤ 0xBF := by
    intro t ht
    rw [List.eq_of_mem_replicate ht]
    decide
  obtain ⟨c, hc⟩ := h b _ hb List.length_replicate hcontinue
  exact ⟨c, List.replicate more 0x80, by rw [hc, List.append_assoc]; rfl⟩

/-- A byte is a character, begins none, or leaves the reader inside one. -/
theorem start_completes (b : UInt8) :
    (∃ c, String.utf8EncodeChar c = [b]) ∨ start b = ([none], .ready) ∨
      ∃ more low high code, start b = ([], .inside more low high code) ∧ low ≤ high ∧
        Completes [b] more low high := by
  have hstart := start_ofNat b.toNat_lt
  rw [UInt8.ofNat_toNat] at hstart
  rw [hstart]
  split
  · next hb => exact Or.inl ⟨_, utf8EncodeChar_one hb⟩
  split
  · exact Or.inr (Or.inl rfl)
  split
  · refine Or.inr (Or.inr ⟨_, _, _, _, rfl, by decide, ?_⟩)
    intro b2 tail h2 htail _
    simp only [UInt8.le_iff_toNat_le, UInt8.reduceToNat] at h2
    rw [List.length_eq_zero_iff.1 htail]
    exact ⟨_, utf8EncodeChar_two (by omega) h2⟩
  split
  · refine Or.inr (Or.inr ⟨_, _, _, _, rfl, ?_, ?_⟩)
    · simp only [UInt8.le_iff_toNat_le, apply_ite UInt8.toNat, UInt8.reduceToNat]
      split <;> split <;> omega
    intro b2 tail h2 htail htails
    obtain ⟨b3, rfl⟩ := List.length_eq_one_iff.1 htail
    have h3 := htails b3 List.mem_cons_self
    simp only [UInt8.le_iff_toNat_le, apply_ite UInt8.toNat, UInt8.reduceToNat] at h2 h3
    exact ⟨_, utf8EncodeChar_three (by omega) h2 h3⟩
  split
  · refine Or.inr (Or.inr ⟨_, _, _, _, rfl, ?_, ?_⟩)
    · simp only [UInt8.le_iff_toNat_le, apply_ite UInt8.toNat, UInt8.reduceToNat]
      split <;> split <;> omega
    intro b2 tail h2 htail htails
    obtain ⟨b3, b4, rfl⟩ := List.length_eq_two.1 htail
    have h3 := htails b3 List.mem_cons_self
    have h4 := htails b4 (List.mem_cons_of_mem b3 List.mem_cons_self)
    simp only [UInt8.le_iff_toNat_le, apply_ite UInt8.toNat, UInt8.reduceToNat] at h2 h3 h4
    exact ⟨_, utf8EncodeChar_four (by omega) h2 h3 h4⟩
  · exact Or.inr (Or.inl rfl)

/-- Whether the reader is inside a character behind some bytes, and waits for what makes them
whole. -/
structure ReadsInside (front : List UInt8) (more : Nat) (low high : UInt8) (code : Nat) : Prop where
  reaches : ∀ rest,
    unitsFrom .ready (front ++ rest) = unitsFrom (.inside more low high code) rest
  completes : Completes front more low high

theorem readsInside_of_start {b : UInt8} {code : Nat}
    (hstart : start b = ([], .inside more low high code))
    (hcompletes : Completes [b] more low high) : ReadsInside [b] more low high code where
  reaches rest := by
    rw [List.singleton_append, unitsFrom_cons, advance.eq_1, hstart]
    rfl
  completes := hcompletes

/-- A byte within the bounds leaves the reader inside, if it waits for more than this byte. -/
theorem ReadsInside.snoc {b : UInt8} {code : Nat} (h : ReadsInside front (more + 1) low high code)
    (hbounds : low ≤ b ∧ b ≤ high) :
    ReadsInside (front ++ [b]) more 0x80 0xBF (code * 64 + (b.toNat - 0x80)) where
  reaches rest := by
    rw [List.append_assoc, List.singleton_append, h.reaches, unitsFrom_cons]
    simp [advance, hbounds]
  completes := by
    intro b2 tail h2 htail htails
    obtain ⟨c, hc⟩ := h.completes b (b2 :: tail) hbounds (congrArg (· + 1) htail)
      (List.forall_mem_cons.2 ⟨h2, htails⟩)
    exact ⟨c, by rw [hc, List.append_assoc]; rfl⟩

/-- Behind a part of a character the reader is inside. -/
theorem exists_readsInside (hbegins : BeginsChar front) (hne : front ≠ [])
    (hpart : ∀ c, ¬String.utf8EncodeChar c <+: front) :
    ∃ more low high code, ReadsInside front more low high code := by
  induction front using List.reverseRecOn with
  | nil => exact absurd rfl hne
  | append_singleton front b ih =>
    obtain ⟨c, tail, hc⟩ := hbegins
    have hread := unitsFrom_utf8EncodeChar c []
    rw [← hc, List.append_nil, List.append_assoc, List.singleton_append] at hread
    by_cases hfirst : front = []
    · subst hfirst
      rcases start_completes b with ⟨d, hd⟩ | hnone | ⟨more, low, high, code, hstart, -, hcompletes⟩
      · exact absurd (hd ▸ List.prefix_rfl) (hpart d)
      · rw [List.nil_append, unitsFrom_cons, advance.eq_1, hnone] at hread
        cases hread
      · exact ⟨more, low, high, code, readsInside_of_start hstart hcompletes⟩
    · have hbefore : BeginsChar front := ⟨c, b :: tail, by rw [← hc, List.append_assoc]; rfl⟩
      obtain ⟨more, low, high, code, hinside⟩ := ih hbefore hfirst fun d hd =>
        hpart d (hd.trans (List.prefix_append front [b]))
      rw [hinside.reaches] at hread
      obtain ⟨b', rest', hcons, hbounds, -⟩ := unitsFrom_inside hread (by simp)
      obtain ⟨rfl, rfl⟩ := List.cons.inj hcons
      rw [← UInt8.le_iff_toNat_le, ← UInt8.le_iff_toNat_le] at hbounds
      cases more with
      | zero =>
        -- The part would be whole.
        obtain ⟨d, hd⟩ := hinside.completes b [] hbounds rfl (List.forall_mem_nil _)
        exact absurd (hd ▸ List.prefix_rfl) (hpart d)
      | succ more => exact ⟨more, 0x80, 0xBF, _, hinside.snoc hbounds⟩

/-! ## Broken pieces -/

/-- A broken piece is read as one, and what stands behind it as if it stood alone. -/
theorem units_broken (h : Broken piece rest) : units (piece ++ rest) = none :: units rest := by
  by_cases hbegins : BeginsChar piece
  · obtain ⟨more, low, high, code, hinside⟩ := exists_readsInside hbegins h.nonempty
      fun c hc => h.no_char c (hc.trans (List.prefix_append piece rest))
    rw [units, hinside.reaches]
    cases rest with
    | nil => rfl
    | cons b rest =>
      -- With a byte within the bounds the piece would not be the longest.
      have hout : ¬(low ≤ b ∧ b ≤ high) := by
        intro hbounds
        have hlonger := h.longest (piece ++ [b]) ⟨rest, by rw [List.append_assoc]; rfl⟩
          (hinside.completes.beginsChar hbounds)
        rw [List.length_append, List.length_singleton] at hlonger
        omega
      rw [units, unitsFrom_cons, unitsFrom_cons]
      simp [advance, hout]
  · obtain ⟨b, rfl⟩ := List.length_eq_one_iff.1 (h.begins.resolve_right hbegins)
    rcases start_completes b with ⟨c, hc⟩ | hnone | ⟨more, low, high, code, -, hle, hcompletes⟩
    · exact absurd (hc ▸ List.prefix_append [b] rest) (h.no_char c)
    · rw [List.singleton_append, units, unitsFrom_cons, advance.eq_1, hnone]
      rfl
    · obtain ⟨c, hc⟩ := hcompletes.beginsChar ⟨UInt8.le_refl low, hle⟩
      exact absurd ⟨c, (List.prefix_append [b] [low]).trans hc⟩ hbegins

/-- Of the fronts of bytes that a character begins with, one is the longest. -/
theorem exists_longest (bs : List UInt8) : ∃ n ≤ bs.length, (n ≠ 0 → BeginsChar (bs.take n)) ∧
    ∀ front, front <+: bs → BeginsChar front → front.length ≤ n := by
  classical
  refine ⟨Nat.findGreatest (fun k => BeginsChar (bs.take k)) bs.length, Nat.findGreatest_le _,
    Nat.findGreatest_of_ne_zero rfl, fun front hfront hbegins => ?_⟩
  rw [List.prefix_iff_eq_take.1 hfront] at hbegins
  exact Nat.le_findGreatest hfront.length_le hbegins

/-- Where no character stands, there is a broken piece. -/
theorem exists_broken (hne : bs ≠ []) (hnone : ∀ c, ¬String.utf8EncodeChar c <+: bs) :
    ∃ piece rest, bs = piece ++ rest ∧ Broken piece rest := by
  obtain ⟨n, hle, hfound, hlongest⟩ := exists_longest bs
  have hpos := List.length_pos_iff.2 hne
  have hlength : (bs.take (max 1 n)).length = max 1 n := by
    rw [List.length_take]
    omega
  refine ⟨bs.take (max 1 n), bs.drop (max 1 n), (List.take_append_drop _ bs).symm, ?_⟩
  constructor
  · rw [← List.length_pos_iff, hlength]
    omega
  · rwa [List.take_append_drop]
  · rw [hlength]
    by_cases hn : n = 0
    · exact Or.inl (by omega)
    · rw [Nat.max_eq_right (Nat.pos_of_ne_zero hn)]
      exact Or.inr (hfound hn)
  · intro front hfront hbegins
    rw [List.take_append_drop] at hfront
    have hn := hlongest front hfront hbegins
    omega

/-! ## Whole texts -/

theorem exists_decoded (bs : List UInt8) : ∃ cs, Decoded bs cs := by
  induction hlength : bs.length using Nat.strong_induction_on generalizing bs with
  | h length ih =>
    subst hlength
    by_cases hne : bs = []
    · exact ⟨[], hne ▸ .nil⟩
    by_cases hchar : ∃ c, String.utf8EncodeChar c <+: bs
    · obtain ⟨c, rest, rfl⟩ := hchar
      have hpos := List.length_pos_iff.2 (String.utf8EncodeChar_ne_nil (c := c))
      obtain ⟨cs, hcs⟩ := ih rest.length (by rw [List.length_append]; omega) rest rfl
      exact ⟨c :: cs, .char c hcs⟩
    · obtain ⟨piece, rest, rfl, hbroken⟩ := exists_broken hne fun c hc => hchar ⟨c, hc⟩
      have hpos := List.length_pos_iff.2 hbroken.nonempty
      obtain ⟨cs, hcs⟩ := ih rest.length (by rw [List.length_append]; omega) rest rfl
      exact ⟨_, .broken hbroken hcs⟩

theorem Decoded.toList_lossy (h : Decoded bs cs) : (lossy bs).toList = cs := by
  rw [lossy, String.toList_ofList]
  induction h with
  | nil => rfl
  | char c more ih =>
    rw [units, unitsFrom_utf8EncodeChar, List.map_cons]
    exact congrArg (c :: ·) ih
  | broken isBroken more ih =>
    rw [units_broken isBroken, List.map_cons, ih]
    rfl

/-- Bytes have one text, and it is the one that is read. -/
theorem decoded_iff : Decoded bs cs ↔ (lossy bs).toList = cs := by
  constructor
  · exact Decoded.toList_lossy
  · rintro rfl
    obtain ⟨cs, hcs⟩ := exists_decoded bs
    rwa [hcs.toList_lossy]

end CardGate.Utf8
