import CardGate.Proofs.Icap.Limits
import CardGate.Proofs.Icap.Writing

/-!
# A chunked body is read back, or refused for its size

Writing a body in chunks and reading it with a limit gives the body back and leaves what stands
behind it, if the body is within the limit.  A larger one is refused as too large, and for nothing
else: the chunks before the one that goes beyond the limit are read without a fault.

Sizes are 64-bit words, and a sum of sizes saturates, so the statement is about bodies whose length
is such a word.
-/

namespace CardGate

namespace Chunked

/-- A body written in chunks is read back up to its last byte, and what stands behind it is left,
if the body is within the limit; otherwise it is refused as too large. -/
theorem read_write (body rest : List UInt8) (limit : Nat) (ending : Ending)
    (sized : body.length < Numeral.sizeBound) :
    read limit ⟨write body ++ rest, ending⟩ =
      if body.length ≤ limit then .ok (body, ⟨rest, ending⟩)
      else .error (.bodyTooLarge limit) := by
  have hchunks := chunks_write (Nat.le_refl body.length) rest ending
  have hsized : 0 + body.length < Numeral.sizeBound := by rwa [Nat.zero_add]
  have hread := readFrom_of_chunks hchunks hsized (Nat.zero_le limit)
  rwa [Nat.zero_add] at hread

/-- A body of two chunks that is made of ends of bodies. -/
def sampleBody : List UInt8 :=
  (List.replicate 5000 [48, 13, 10, 13, 10]).flatten

theorem length_sampleBody : sampleBody.length = 25000 := by
  rw [sampleBody, List.length_flatten, List.map_replicate, List.sum_replicate_nat]
  rfl

theorem read_write_sample :
    sampleBody.length < Numeral.sizeBound ∧
      read 25000 ⟨write sampleBody ++ [71, 69, 84], .reset⟩ =
        .ok (sampleBody, ⟨[71, 69, 84], .reset⟩) ∧
      read 24999 ⟨write sampleBody ++ [71, 69, 84], .reset⟩ = .error (.bodyTooLarge 24999) := by
  have hsized : sampleBody.length < Numeral.sizeBound := by
    rw [length_sampleBody]
    decide
  refine ⟨hsized, ?_, ?_⟩
  · rw [read_write sampleBody [71, 69, 84] 25000 .reset hsized, length_sampleBody]
    rfl
  · rw [read_write sampleBody [71, 69, 84] 24999 .reset hsized, length_sampleBody]
    rfl

end Chunked

end CardGate
