import CardGate.Icap.Room
import CardGate.Proofs.Icap.Grammar
import CardGate.Settings.Gateway
import Mathlib.Algebra.GroupWithZero.Nat

/-!
# The sum of the chunks at its edge

Before room is made for a chunk, the sum of its size and of the bytes that are there is compared
with the limit.  The sum that is compared saturates at the largest word, and the sum for which room
is made is plain, so they differ if the plain one is no word.

`Source.Declares` holds what sizes a stream declares, whatever the limit is.
`Framing.mem_rooms_iff` says that room is made for those that end within the limit and for no
others, as plain sums, under every limit but the largest word.  Under that one every sum passes for
a body in chunks (`Framing.rooms_beyond_limit`), also one for which there is no word.

Under a limit that a buffer can have, there is a buffer for every body that is let in, so that a
message is always read (`HttpMessage.read?_eq_some`).
-/

namespace CardGate

open Source

/-! ## What is declared -/

/-- A chunk that a stream declares, if `done` bytes of the body came before the stream: where its
data begins, and its size. -/
inductive Source.DeclaresFrom : Nat → Source → Room → Prop
  | here {done size : Nat} {s next : Source} {line : String} (first : s.HasLine line next)
      (sized : Chunked.size? line = some size) (positive : 0 < size) :
      DeclaresFrom done s ⟨done, size⟩
  | later {done : Nat} {s next : Source} {data : List UInt8} {room : Room}
      (first : s.HasChunk data next) (others : DeclaresFrom (done + data.length) next room) :
      DeclaresFrom done s room

theorem Source.DeclaresFrom.le_start {done : Nat} {s : Source} {room : Room}
    (h : s.DeclaresFrom done room) : done ≤ room.start := by
  induction h with
  | here => exact Nat.le_refl _
  | later _ _ ih => omega

/-- What a stream declares for a body: the sizes of its chunks, or the length of the body. -/
inductive Framing.Declares : Framing → Source → Room → Prop
  | chunk {s : Source} {room : Room} (declares : s.DeclaresFrom 0 room) : Declares chunked s room
  | whole {length : Nat} {s : Source} : Declares (declared length) s ⟨0, length⟩

/-! ## Chunks -/

namespace Chunked

/-- The comparison with the limit is exact, except that the largest word lets every sum pass. -/
theorem saturatingAdd_le_iff {a b limit : Nat} (word : limit < Numeral.sizeBound) :
    Numeral.saturatingAdd a b ≤ limit ↔ a + b ≤ limit ∨ limit = Numeral.sizeBound - 1 := by
  unfold Numeral.saturatingAdd
  omega

/-- What is done about a chunk whose size passes the comparison. -/
theorem roomsFrom_of_size {limit done size : Nat} {s next : Source} {line : String}
    (hline : s.HasLine line next) (hsize : size? line = some size) (positive : 0 < size)
    (fits : Numeral.saturatingAdd done size ≤ limit) :
    roomsFrom limit done s =
      match next.readExactly size with
      | .error _ => [⟨done, size⟩]
      | .ok (_, afterData) =>
        match afterData.requireLine with
        | .error _ => [⟨done, size⟩]
        | .ok (_, rest) => ⟨done, size⟩ :: roomsFrom limit (done + size) rest := by
  have hread := requireLine_eq_ok_iff.2 hline
  fun_cases roomsFrom limit done s <;> grind

/-- No room is made for the end of a body. -/
theorem roomsFrom_of_hasLastChunk {limit done : Nat} {s rest : Source} (h : s.HasLastChunk rest) :
    roomsFrom limit done s = [] := by
  obtain ⟨line, next, hline, hsize, -⟩ := h
  have hread := requireLine_eq_ok_iff.2 hline
  fun_cases roomsFrom limit done s <;> grind

/-- Room is made for a chunk whose size passes the comparison, also if the chunk is not there. -/
theorem mem_roomsFrom_of_size {limit done size : Nat} {s next : Source} {line : String}
    (hline : s.HasLine line next) (hsize : size? line = some size) (positive : 0 < size)
    (fits : Numeral.saturatingAdd done size ≤ limit) : ⟨done, size⟩ ∈ roomsFrom limit done s := by
  rw [roomsFrom_of_size hline hsize positive fits]
  split
  · exact List.mem_cons_self
  · split <;> exact List.mem_cons_self

/-- A chunk that passes the comparison is left behind, and room is made for those behind it. -/
theorem roomsFrom_of_hasChunk {limit done : Nat} {s next : Source} {data : List UInt8}
    (h : s.HasChunk data next) (fits : Numeral.saturatingAdd done data.length ≤ limit) :
    roomsFrom limit done s =
      ⟨done, data.length⟩ :: roomsFrom limit (done + data.length) next := by
  obtain ⟨line, afterLine, afterData, junk, hline, hsize, hnonempty, hbytes, hend⟩ := h
  have hdata : afterLine.readExactly data.length = .ok (data, afterData) :=
    readExactly_eq_ok_iff.2 ⟨rfl, hbytes⟩
  rw [roomsFrom_of_size hline hsize (List.length_pos_iff.2 hnonempty) fits, hdata]
  simp only [requireLine_eq_ok_iff.2 hend]

/-- A chunk that passes the comparison is declared, and exactly within the limit unless that is the
largest word. -/
theorem declaresFrom_of_passes {limit done size : Nat} (word : limit < Numeral.sizeBound)
    {s next : Source} {line : String} (hread : s.requireLine = .ok (line, next))
    (hsize : size? line = some size) (hzero : size ≠ 0)
    (hfits : ¬limit < Numeral.saturatingAdd done size) :
    s.DeclaresFrom done ⟨done, size⟩ ∧ (done + size ≤ limit ∨ limit = Numeral.sizeBound - 1) := by
  have hpositive : 0 < size := by omega
  have hpasses : Numeral.saturatingAdd done size ≤ limit := by omega
  exact ⟨.here (requireLine_eq_ok_iff.1 hread) hsize hpositive,
    (saturatingAdd_le_iff word).1 hpasses⟩

/-- Room is made for exactly the chunks that are declared within the limit, or, if the limit is the
largest word, for all that are declared. -/
theorem mem_roomsFrom_iff {limit done : Nat} (word : limit < Numeral.sizeBound) {s : Source}
    {room : Room} :
    room ∈ roomsFrom limit done s ↔
      s.DeclaresFrom done room ∧ (room.stop ≤ limit ∨ limit = Numeral.sizeBound - 1) := by
  constructor
  · intro h
    fun_induction roomsFrom limit done s with
    | case1 | case2 | case3 | case4 => cases h
    | case5 done s line next hread size hzero hsize hfits
    | case6 done s line next hread size hzero hsize hfits =>
      rw [List.mem_singleton.1 h]
      exact declaresFrom_of_passes word hread hsize hzero hfits
    | case7 done s line next hread size hzero hsize hfits data after hdata junk rest hend ih =>
      rcases List.mem_cons.1 h with rfl | hmore
      · exact declaresFrom_of_passes word hread hsize hzero hfits
      · obtain ⟨declares, fits⟩ := ih hmore
        obtain ⟨rfl, hbytes⟩ := readExactly_eq_ok_iff.1 hdata
        have hnonempty : data ≠ [] := fun hnil => hzero (by rw [hnil, List.length_nil])
        have hchunk : s.HasChunk data rest := ⟨line, next, after, junk,
          requireLine_eq_ok_iff.1 hread, hsize, hnonempty, hbytes, requireLine_eq_ok_iff.1 hend⟩
        exact ⟨.later hchunk declares, fits⟩
  · intro h
    obtain ⟨declares, fits⟩ := h
    induction declares with
    | here first sized positive =>
      exact mem_roomsFrom_of_size first sized positive ((saturatingAdd_le_iff word).2 fits)
    | @later done s next data room first others ih =>
      have hstart : done + data.length ≤ room.start := others.le_start
      have hfirst : done + data.length ≤ limit ∨ limit = Numeral.sizeBound - 1 := by
        unfold Room.stop at fits
        omega
      rw [roomsFrom_of_hasChunk first ((saturatingAdd_le_iff word).2 hfirst)]
      exact List.mem_cons_of_mem _ (ih fits)

/-- The room that is made for a body that is read is filled by it. -/
theorem sum_roomsFrom {limit done : Nat} {s rest : Source} {body : List UInt8}
    (h : s.Chunks limit done body rest) :
    ((roomsFrom limit done s).map Room.size).sum = body.length := by
  induction h with
  | last stands => simp [roomsFrom_of_hasLastChunk stands]
  | more first fits others ih => simp [roomsFrom_of_hasChunk first fits, ih]

/-- A body is refused as too large for a chunk that does not pass the comparison. -/
theorem readFrom_of_declaresFrom {limit done : Nat} {s : Source} {room : Room}
    (h : s.DeclaresFrom done room) (large : limit < Numeral.saturatingAdd room.start room.size) :
    readFrom limit done s = .error (.bodyTooLarge limit) := by
  induction h with
  | here first sized positive =>
    rw [readFrom_eq, nextChunk_of_size first sized positive, if_pos large]
  | later first others ih =>
    rw [readFrom_of_hasChunk first, ih large]
    split <;> rfl

end Chunked

/-! ## Both framings -/

namespace Framing

theorem mem_rooms_chunked_iff {limit : Nat} (word : limit < Numeral.sizeBound) {s : Source}
    {room : Room} :
    room ∈ chunked.rooms limit s ↔
      s.DeclaresFrom 0 room ∧ (room.stop ≤ limit ∨ limit = Numeral.sizeBound - 1) :=
  Chunked.mem_roomsFrom_iff word

theorem mem_rooms_declared_iff {limit length : Nat} {s : Source} {room : Room} :
    room ∈ (declared length).rooms limit s ↔ room = ⟨0, length⟩ ∧ length ≤ limit := by
  have hrooms : rooms (declared length) limit s =
      if limit < length then [] else [⟨0, length⟩] := rfl
  rw [hrooms]
  split
  · next hlarge => exact iff_of_false List.not_mem_nil fun h => Nat.not_le.2 hlarge h.2
  · next hfits => rw [List.mem_singleton, and_iff_left (Nat.not_lt.1 hfits)]

/-- Room is made for exactly those sizes that are declared within the limit, as numbers and not only
as words.  The one exception is a body in chunks under the largest limit there is, where every size
passes the comparison. -/
theorem mem_rooms_iff {framing : Framing} {limit : Nat} (word : limit < Numeral.sizeBound)
    {s : Source} {room : Room} :
    room ∈ framing.rooms limit s ↔
      framing.Declares s room ∧
        (room.stop ≤ limit ∨ framing = chunked ∧ limit = Numeral.sizeBound - 1) := by
  cases framing with
  | chunked =>
    rw [mem_rooms_chunked_iff word]
    constructor
    · intro h
      exact ⟨.chunk h.1, h.2.imp_right fun hlargest => ⟨rfl, hlargest⟩⟩
    · intro h
      obtain ⟨⟨declares⟩, fits⟩ := h
      exact ⟨declares, fits.imp_right And.right⟩
  | declared length =>
    rw [mem_rooms_declared_iff]
    constructor
    · rintro ⟨rfl, hfits⟩
      refine ⟨.whole, Or.inl ?_⟩
      show 0 + length ≤ limit
      omega
    · intro h
      obtain ⟨⟨⟩, fits | ⟨⟨⟩, -⟩⟩ := h
      have hfits : 0 + length ≤ limit := fits
      exact ⟨rfl, by omega⟩

/-- For what is declared there is room, or the body is refused as too large. -/
theorem mem_rooms_or_too_large {framing : Framing} {limit : Nat} (word : limit < Numeral.sizeBound)
    {s : Source} {room : Room} (h : framing.Declares s room) :
    room ∈ framing.rooms limit s ∨ framing.read limit s = .error (.bodyTooLarge limit) := by
  cases h with
  | chunk declares =>
    by_cases hfits : Numeral.saturatingAdd room.start room.size ≤ limit
    · have hedge := (Chunked.saturatingAdd_le_iff word).1 hfits
      exact Or.inl ((mem_rooms_chunked_iff word).2 ⟨declares, hedge⟩)
    · exact Or.inr (Chunked.readFrom_of_declaresFrom declares (Nat.not_le.1 hfits))
  | @whole length =>
    by_cases hfits : length ≤ limit
    · exact Or.inl (mem_rooms_declared_iff.2 ⟨rfl, hfits⟩)
    · exact Or.inr (if_pos (Nat.not_le.1 hfits))

/-- The room that is made for a body that is read is what the body takes. -/
theorem sum_rooms {framing : Framing} {limit : Nat} {s rest : Source} {body : List UInt8}
    (h : framing.read limit s = .ok (body, rest)) :
    ((framing.rooms limit s).map Room.size).sum = body.length := by
  cases framing with
  | chunked => exact Chunked.sum_roomsFrom (Chunked.readFrom_eq_ok_iff.1 h)
  | declared length =>
    obtain ⟨hfits, hlength, -⟩ := Chunked.readFixed_eq_ok_iff.1 h
    have hrooms : rooms (declared length) limit s = [⟨0, length⟩] :=
      if_neg (Nat.not_lt.2 hfits)
    simp [hrooms, hlength]

/-- A body in two chunks. -/
def sampleChunks : Source :=
  ⟨Utf8.bytes "2\r\nab\r\n1\r\nc\r\n0\r\n\r\n", .closed⟩

/-- The second chunk is declared; it is let in under the limit at which it ends and not under the
one before. -/
theorem mem_rooms_sample :
    (3 < Numeral.sizeBound ∧ 2 < Numeral.sizeBound) ∧ chunked.Declares sampleChunks ⟨2, 1⟩ ∧
      ⟨2, 1⟩ ∈ chunked.rooms 3 sampleChunks ∧ ⟨2, 1⟩ ∉ chunked.rooms 2 sampleChunks := by
  have hthree : 3 < Numeral.sizeBound := by decide
  have htwo : 2 < Numeral.sizeBound := by decide
  have hmem : ⟨2, 1⟩ ∈ chunked.rooms 3 sampleChunks := by decide +kernel
  refine ⟨⟨hthree, htwo⟩, ((mem_rooms_iff hthree).1 hmem).1, hmem, ?_⟩
  intro h
  have hfits := ((mem_rooms_iff htwo).1 h).2
  exact absurd hfits (by decide)

/-- Two chunks, of which the second one ends behind the largest word. -/
def sampleBeyond : Source :=
  ⟨Utf8.bytes "1\r\nx\r\nFFFFFFFFFFFFFFFF\r\n", .closed⟩

/-- The largest word can be set as the limit, and then room is made for a chunk that ends beyond it,
where no buffer ends. -/
theorem rooms_beyond_limit :
    (GatewaySettings.ofEnvironment fun name =>
        if name = "ICAP_MAX_BODY_BYTES" then some (Utf8.bytes "18446744073709551615") else none
      ).server.maxBody = Numeral.sizeBound - 1 ∧
    ⟨1, Numeral.sizeBound - 1⟩ ∈ chunked.rooms (Numeral.sizeBound - 1) sampleBeyond ∧
    ¬Room.stop ⟨1, Numeral.sizeBound - 1⟩ ≤ Numeral.sizeBound - 1 ∧
    ¬Room.stop ⟨1, Numeral.sizeBound - 1⟩ < Numeral.sizeBound ∧
    chunked.read? (Numeral.sizeBound - 1) sampleBeyond = none := by
  refine ⟨by decide +kernel, by decide +kernel, by decide, by decide, by decide +kernel⟩

/-! ## Giving up -/

/-- Under a limit that a buffer can have there is a buffer for every body. -/
theorem isHeld_of_mem_rooms {framing : Framing} {limit : Nat} (fits : limit ≤ Room.maxBuffer)
    {s : Source} {room : Room} (h : room ∈ framing.rooms limit s) : room.isHeld = true := by
  refine decide_eq_true (Nat.le_trans ?_ fits)
  cases framing with
  | chunked =>
    have hlargest : limit < Numeral.sizeBound - 1 := Nat.lt_of_le_of_lt fits (by decide)
    rcases ((mem_rooms_chunked_iff (by omega)).1 h).2 with hstop | hlimit
    · exact hstop
    · omega
  | declared length =>
    obtain ⟨rfl, hlength⟩ := mem_rooms_declared_iff.1 h
    show 0 + length ≤ limit
    omega

end Framing

/-- How the announced sections of a message frame its body, and the stream where that begins. -/
inductive Source.Frames (sections : Sections) : Source → Framing → Source → Prop
  | intro {s afterRequest afterResponse : Source} {requestHead responseHead : Option HttpHead}
      {framing : Framing}
      (request : HeadSection sections.requestHead s requestHead afterRequest)
      (response : HeadSection sections.responseHead afterRequest responseHead afterResponse)
      (announced : sections.hasBody = true)
      (framed : (responseHead.or requestHead).bind HttpHead.framing? = some framing) :
      Frames sections s framing afterResponse

namespace HttpMessage

variable {sections : Sections} {limit : Nat} {s : Source} {room : Room}

/-- The room that is made for a message is the room for its body. -/
theorem mem_rooms_iff_frames :
    room ∈ rooms sections limit s ↔
      ∃ framing rest, s.Frames sections framing rest ∧ room ∈ framing.rooms limit rest := by
  constructor
  · fun_cases rooms sections limit s with
    | case4 request afterRequest hrequest response afterResponse hresponse hbody framing hframing =>
      intro h
      exact ⟨framing, afterResponse, .intro (readHead_eq_ok_iff.1 hrequest)
        (readHead_eq_ok_iff.1 hresponse) hbody hframing, h⟩
    | _ => nofun
  · rintro ⟨framing, rest, ⟨request, response, announced, framed⟩, h⟩
    rw [rooms, readHead_eq_ok_iff.2 request]
    dsimp only
    rw [readHead_eq_ok_iff.2 response]
    simp only [announced, framed, if_true]
    exact h

/-- Under a limit that a buffer can have a message is read without giving up. -/
theorem read?_eq_some (fits : limit ≤ Room.maxBuffer) :
    read? sections limit s = some (read sections limit s) := by
  have hall : ∀ room ∈ rooms sections limit s, room.isHeld = true := by
    intro room h
    obtain ⟨framing, rest, -, hroom⟩ := mem_rooms_iff_frames.1 h
    exact Framing.isHeld_of_mem_rooms fits hroom
  rw [read?, if_pos (List.all_eq_true.2 hall)]

end HttpMessage

end CardGate
