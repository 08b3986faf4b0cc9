import CardGate.Proofs.Icap.Layout
import CardGate.Proofs.Icap.Rooms

/-!
# The sections that are announced

The value of the `Encapsulated` header is a row of entries between commas.  An entry names a section
in front of its first `=`, in any case and with blanks on both sides.  `Announces` says so without
saying how a value is taken apart, and by `only_presence_counts` that is all a value says: two values
that announce the same sections are read alike, and so is the message behind the headers, whatever
else the values hold.

For the message still less counts.  Whether the body belongs to the request or to the response, and
whether it is announced that there is none, makes no difference to it, nor does a body without a
head.  What is left, `Alike`, shows on a single stream (`read?_eq_read?_iff`).
-/

namespace CardGate

/-! ## Names of sections -/

/-- The sections that can be announced. -/
inductive SectionName where
  | requestHead
  | requestBody
  | responseHead
  | responseBody
  | nullBody
  deriving DecidableEq, Repr

/-- How a section is called in a header, in lower case. -/
def SectionName.word : SectionName → String
  | requestHead => "req-hdr"
  | requestBody => "req-body"
  | responseHead => "res-hdr"
  | responseBody => "res-body"
  | nullBody => "null-body"

theorem SectionName.word_ne_nil (name : SectionName) : name.word.toList ≠ [] := by
  cases name <;> decide

/-- No name of a section has a blank or an `=` in it. -/
theorem SectionName.plain_word (name : SectionName) :
    ∀ c ∈ name.word.toList, (!Text.isBlank c && c != '=') = true := by
  cases name <;> exact List.all_eq_true.1 (by decide)

namespace Sections

/-- Whether a section is there. -/
def has (sections : Sections) : SectionName → Bool
  | .requestHead => sections.requestHead
  | .requestBody => sections.requestBody
  | .responseHead => sections.responseHead
  | .responseBody => sections.responseBody
  | .nullBody => sections.nullBody

theorem ext_of_has {a b : Sections} (h : ∀ name, a.has name = b.has name) : a = b := by
  cases a
  cases b
  rw [mk.injEq]
  exact ⟨h .requestHead, h .requestBody, h .responseHead, h .responseBody, h .nullBody⟩

/-! ## Entries -/

/-- The name of a section in any case, with blanks on both sides. -/
inductive Label (name : SectionName) : List Char → Prop
  | intro {before word after : List Char} (blankBefore : ∀ c ∈ before, Text.isBlank c = true)
      (spelled : Text.lower word = name.word.toList)
      (blankAfter : ∀ c ∈ after, Text.isBlank c = true) :
      Label name (before ++ (word ++ after))

/-- An entry for a section: its name, and behind it nothing or an offset, which may be any text. -/
inductive Entry (name : SectionName) : List Char → Prop
  | bare {label : List Char} (h : Label name label) : Entry name label
  | offset {label : List Char} (h : Label name label) (text : List Char) :
      Entry name (label ++ '=' :: text)

/-- The entries that a header value is a row of. -/
structure Entries (value : String) (entries : List (List Char)) : Prop where
  nonempty : entries ≠ []
  plain : ∀ entry ∈ entries, ',' ∉ entry
  joined : [','].intercalate entries = value.toList

/-- Whether a header value announces a section. -/
def Announces (value : String) (name : SectionName) : Prop :=
  ∃ entries, Entries value entries ∧ ∃ entry ∈ entries, Entry name entry

variable {name : SectionName} {value other : String} {word label entry : List Char}

/-- A name in any case has no blank and no `=` in it either. -/
theorem plain_of_spelled (spelled : Text.lower word = name.word.toList) {c : Char} (hc : c ∈ word) :
    Text.isBlank c = false ∧ c ≠ '=' := by
  have hmem : c.toLower ∈ name.word.toList := spelled ▸ List.mem_map_of_mem hc
  have hplain := name.plain_word c.toLower hmem
  rw [Bool.and_eq_true, Bool.not_eq_true', bne_iff_ne] at hplain
  constructor
  · cases hblank : Text.isBlank c with
    | false => rfl
    | true =>
      rw [Text.toLower_of_isBlank hblank, hblank] at hplain
      exact hplain.1
  · rintro rfl
    exact hplain.2 rfl

theorem label_iff : Label name label ↔ Text.lower (Text.trim label) = name.word.toList := by
  constructor
  · intro h
    cases h with
    | @intro before word after blankBefore spelled blankAfter =>
      have hne : word ≠ [] := by
        rintro rfl
        exact name.word_ne_nil spelled.symm
      rw [Text.trim_blanks hne blankBefore blankAfter, spelled]
      · exact fun c hc => (plain_of_spelled spelled (List.mem_of_head? hc)).1
      · exact fun c hc => (plain_of_spelled spelled (List.mem_of_getLast? hc)).1
  · intro spelled
    obtain ⟨before, after, hlabel, blankBefore, blankAfter⟩ := Text.exists_of_trim label
    rw [hlabel]
    exact .intro blankBefore spelled blankAfter

theorem Label.plain (h : Label name label) : '=' ∉ label := by
  obtain ⟨blankBefore, spelled, blankAfter⟩ := h
  have hblank : Text.isBlank '=' = false := by decide
  rw [List.mem_append, List.mem_append]
  rintro (hbefore | hword | hafter)
  · exact absurd (blankBefore '=' hbefore) (Bool.eq_false_iff.1 hblank)
  · exact (plain_of_spelled spelled hword).2 rfl
  · exact absurd (blankAfter '=' hafter) (Bool.eq_false_iff.1 hblank)

/-- An entry without an offset is all name. -/
theorem entryName_of_plain (plain : '=' ∉ label) :
    entryName label = Text.lower (Text.trim label) := by
  rw [entryName, List.takeWhile_eq_self_iff.2 (Text.forall_ne_of_not_mem plain)]

theorem entry_iff : Entry name entry ↔ entryName entry = name.word.toList := by
  constructor
  · intro h
    cases h with
    | bare h => rw [entryName_of_plain h.plain, label_iff.1 h]
    | @offset label h text => rw [entryName_append h.plain, label_iff.1 h]
  · by_cases hmark : '=' ∈ entry
    · obtain ⟨label, text, rfl, plain⟩ := List.eq_append_cons_of_mem hmark
      rw [entryName_append plain]
      exact fun named => .offset (label_iff.2 named) text
    · rw [entryName_of_plain hmark]
      exact fun named => .bare (label_iff.2 named)

theorem entries_iff {entries : List (List Char)} :
    Entries value entries ↔ Text.fields (· == ',') value.toList = entries := by
  rw [Text.fields_eq_iff]
  constructor
  · rintro ⟨nonempty, plain, joined⟩
    exact ⟨nonempty, plain, joined⟩
  · rintro ⟨nonempty, plain, joined⟩
    exact ⟨nonempty, plain, joined⟩

theorem names_iff_announces : Names value name.word ↔ Announces value name := by
  constructor
  · rintro ⟨entry, hentry, named⟩
    exact ⟨_, entries_iff.2 rfl, entry, hentry, entry_iff.2 named⟩
  · rintro ⟨entries, hentries, entry, hentry, hnames⟩
    rw [← entries_iff.1 hentries] at hentry
    exact ⟨entry, hentry, entry_iff.1 hnames⟩

instance (value : String) (name : SectionName) : Decidable (Announces value name) :=
  decidable_of_iff _ names_iff_announces

/-- A section is found in a value if it is announced. -/
theorem has_ofValue_iff : (ofValue value).has name = true ↔ Announces value name := by
  rw [← names_iff_announces, ← contains_iff]
  cases name <;> rfl

theorem ofValue_eq_iff :
    ofValue value = ofValue other ↔ ∀ name, Announces value name ↔ Announces other name := by
  constructor
  · intro h name
    rw [← has_ofValue_iff, h, has_ofValue_iff]
  · intro same
    refine ext_of_has fun name => Bool.eq_iff_iff.2 ?_
    rw [has_ofValue_iff, has_ofValue_iff, same name]

/-! ## Messages -/

/-- Whether a body is read: one is announced, and so is a head to frame it. -/
def framesBody (sections : Sections) : Bool :=
  sections.hasBody && (sections.requestHead || sections.responseHead)

/-- Sections that say the same about the message: which heads there are, and whether a body follows
that one of them frames. -/
structure Alike (a b : Sections) : Prop where
  requestHead : a.requestHead = b.requestHead
  responseHead : a.responseHead = b.responseHead
  framesBody : a.framesBody = b.framesBody

theorem Alike.body_cases {a b : Sections} (h : a.Alike b) :
    a.hasBody = b.hasBody ∨ a.requestHead = false ∧ a.responseHead = false := by
  obtain ⟨hrequest, hresponse, hbody⟩ := h
  by_cases headless : (a.requestHead || a.responseHead) = true
  · rw [Sections.framesBody, Sections.framesBody, ← hrequest, ← hresponse, headless,
      Bool.and_true, Bool.and_true] at hbody
    exact Or.inl hbody
  · rw [Bool.not_eq_true, Bool.or_eq_false_iff] at headless
    exact Or.inr headless

end Sections

namespace HttpMessage

open Sections

variable {a b sections : Sections}

/-- Without a head nothing is read, whether or not a body is announced. -/
theorem read?_of_headless (request : sections.requestHead = false)
    (response : sections.responseHead = false) (limit : Nat) (s : Source) :
    read? sections limit s = some (.ok (⟨none, none, []⟩, s)) := by
  have hrooms : rooms sections limit s = [] := by
    simp [rooms, readHead, request, response]
  have hread : HttpMessage.read sections limit s = .ok (⟨none, none, []⟩, s) := by
    simp [HttpMessage.read, readHead, readBody, request, response]
  rw [read?, hrooms, hread]
  rfl

theorem read?_eq_of_alike (h : a.Alike b) (limit : Nat) (s : Source) :
    read? a limit s = read? b limit s := by
  rcases h.body_cases with hbody | ⟨request, response⟩
  · have hrooms : rooms a limit s = rooms b limit s := by
      rw [rooms, rooms, h.requestHead, h.responseHead, hbody]
    have hread : HttpMessage.read a limit s = HttpMessage.read b limit s := by
      rw [HttpMessage.read, HttpMessage.read, h.requestHead, h.responseHead, hbody]
    rw [read?, read?, hrooms, hread]
  · rw [read?_of_headless request response,
      read?_of_headless (h.requestHead ▸ request) (h.responseHead ▸ response)]

/-- Two heads, each of which frames a body of one byte, and one byte behind them. -/
def probe : Source :=
  ⟨Utf8.bytes "a\nContent-Length: 1\n\nb\nContent-Length: 1\n\n!", .closed⟩

/-- What there is of a message: the heads, and a body that is not empty. -/
def parts (message : HttpMessage) : Bool × Bool × Bool :=
  (message.requestHead.isSome, message.responseHead.isSome, !message.body.isEmpty)

theorem parts_probe (sections : Sections) :
    (HttpMessage.read sections 1 probe).map (fun answer => answer.1.parts) =
      .ok (sections.requestHead, sections.responseHead, sections.framesBody) := by
  have hall : ∀ requestHead requestBody responseHead responseBody nullBody : Bool,
      (HttpMessage.read ⟨requestHead, requestBody, responseHead, responseBody, nullBody⟩ 1
        probe).map (fun answer => answer.1.parts) =
        .ok (requestHead, responseHead,
          (requestBody || responseBody) && (requestHead || responseHead)) := by
    decide +kernel
  exact hall _ _ _ _ _

/-- Every stream is read as the same message, with the same rest, if and only if the sections are
alike. -/
theorem read?_eq_read?_iff :
    (∀ limit s, read? a limit s = read? b limit s) ↔ a.Alike b := by
  constructor
  · intro same
    have hprobe := same 1 probe
    rw [read?_eq_some (by decide), read?_eq_some (by decide), Option.some_inj] at hprobe
    have hparts := parts_probe a
    rw [hprobe, parts_probe b, Except.ok.injEq, Prod.mk.injEq, Prod.mk.injEq] at hparts
    obtain ⟨hrequest, hresponse, hbody⟩ := hparts
    exact ⟨hrequest.symm, hresponse.symm, hbody.symm⟩
  · exact read?_eq_of_alike

end HttpMessage

namespace Sections

/-- The sections that a header value announces are all that counts: two values that announce the
same sections give the same flags, each set if its section is announced, and the same message with
the same rest of the stream, for every stream. -/
theorem only_presence_counts {value other : String}
    (same : ∀ name, Announces value name ↔ Announces other name) :
    ofValue value = ofValue other ∧
      (∀ name, (ofValue value).has name = true ↔ Announces value name) ∧
      ∀ limit s, HttpMessage.read (ofValue value) limit s = HttpMessage.read (ofValue other) limit s ∧
        HttpMessage.read? (ofValue value) limit s = HttpMessage.read? (ofValue other) limit s := by
  have heq := ofValue_eq_iff.2 same
  refine ⟨heq, fun name => has_ofValue_iff, fun limit s => ?_⟩
  rw [heq]
  exact ⟨rfl, rfl⟩

/-- A header value as it is usually written. -/
def sampleTidy : String := "req-hdr=0, res-hdr=137, res-body=296"

/-- The same sections in another order, in mixed case, one of them twice, with odd offsets and
blanks, and with entries that say nothing. -/
def sampleWild : String := "RES-BODY , res-hdr==\u00A0,, opt-body=1,\u2003Req-Hdr\t=x y,Res-Hdr=007"

theorem only_presence_counts_sample :
    (∀ name, Announces sampleTidy name ↔ Announces sampleWild name) ∧
      ofValue sampleTidy = ofValue sampleWild ∧
      (∀ name, (ofValue sampleTidy).has name = true ↔ Announces sampleTidy name) ∧
      ∀ limit s,
        HttpMessage.read (ofValue sampleTidy) limit s =
          HttpMessage.read (ofValue sampleWild) limit s ∧
        HttpMessage.read? (ofValue sampleTidy) limit s =
          HttpMessage.read? (ofValue sampleWild) limit s := by
  have same : ∀ name, Announces sampleTidy name ↔ Announces sampleWild name := by
    intro name
    cases name <;> decide
  exact ⟨same, only_presence_counts same⟩

end Sections

end CardGate
