/-!
# Counts of 32 bits

A count is an unsigned number of 32 bits, and adding to it is checked: a sum that needs more bits
is not had, and what asked for it gives up.  The gateway leaves this check as it is by default; a
build that turns it off, in which a count goes round to zero, is not meant here.
-/

namespace CardGate.Counter

/-- A count with an amount added, if the sum fits. -/
def add? (count : UInt32) (amount : Nat) : Option UInt32 :=
  if h : count.toNat + amount < UInt32.size then some (.ofNatLT (count.toNat + amount) h) else none

theorem add?_eq_some_iff {count sum : UInt32} {amount : Nat} :
    add? count amount = some sum ↔ sum.toNat = count.toNat + amount := by
  unfold add?
  split
  · next h =>
    rw [Option.some.injEq, ← UInt32.toNat_inj, UInt32.toNat_ofNatLT]
    exact eq_comm
  · next h =>
    have hsum := sum.toNat_lt_size
    simp only [reduceCtorEq, false_iff]
    omega

theorem add?_eq_none_iff {count : UInt32} {amount : Nat} :
    add? count amount = none ↔ UInt32.size ≤ count.toNat + amount := by
  rw [add?, dite_eq_right_iff]
  simp

/-- A sum that fits is had. -/
theorem exists_add? (count : UInt32) (amount : Nat) (h : count.toNat + amount < UInt32.size) :
    ∃ sum, add? count amount = some sum ∧ sum.toNat = count.toNat + amount :=
  ⟨_, dif_pos h, UInt32.toNat_ofNatLT⟩

/-- Two amounts can be added one after the other if and only if they can be added at once. -/
theorem add?_bind_add? (count : UInt32) (first second : Nat) :
    ((add? count first).bind fun sum => add? sum second) = add? count (first + second) := by
  cases hfirst : add? count first with
  | none =>
    rw [add?_eq_none_iff] at hfirst
    refine (add?_eq_none_iff.2 ?_).symm
    omega
  | some sum =>
    rw [add?_eq_some_iff] at hfirst
    rw [Option.bind_some, add?, add?]
    simp only [hfirst, Nat.add_assoc]

end CardGate.Counter
