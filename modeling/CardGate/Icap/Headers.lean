import CardGate.Icap.Source
import CardGate.Text.Blank
import CardGate.Text.Case

/-!
# Headers and sections of a request

Headers are kept in the order of arrival.  Names are compared without regard to case; a name that
comes again keeps its place and its spelling and takes the new value.

The `Encapsulated` header says which sections of an HTTP message follow.  Only the names of the
sections count: their offsets, their order, repeated names and unknown ones do not.
-/

namespace CardGate

/-- Header fields in order of arrival. -/
structure IcapHeaders where
  entries : List (String × String)
  deriving DecidableEq, Repr

/-- The sections that follow the headers. -/
structure Sections where
  requestHead : Bool
  requestBody : Bool
  responseHead : Bool
  responseBody : Bool
  nullBody : Bool
  deriving DecidableEq, Repr

namespace Sections

/-- No section at all. -/
def none : Sections :=
  ⟨false, false, false, false, false⟩

/-- The name of a section in an entry such as `req-hdr=0`. -/
def entryName (entry : List Char) : List Char :=
  Text.lower (Text.trim (entry.takeWhile (· ≠ '=')))

/-- The sections that a header value names. -/
def ofValue (value : String) : Sections :=
  let names := (Text.fields (· == ',') value.toList).map entryName
  let named (name : String) : Bool := names.contains name.toList
  { requestHead := named "req-hdr"
    requestBody := named "req-body"
    responseHead := named "res-hdr"
    responseBody := named "res-body"
    nullBody := named "null-body" }

/-- Whether there is a body. -/
def hasBody (s : Sections) : Bool :=
  s.requestBody || s.responseBody

end Sections

namespace IcapHeaders

/-- No headers. -/
def empty : IcapHeaders :=
  ⟨[]⟩

/-- Sets a name among entries. -/
def insertInto (name value : String) : List (String × String) → List (String × String)
  | [] => [(name, value)]
  | (n, v) :: rest =>
    if Text.sameName n name then (n, value) :: rest else (n, v) :: insertInto name value rest

/-- Sets a header. -/
def insert (headers : IcapHeaders) (name value : String) : IcapHeaders :=
  ⟨insertInto name value headers.entries⟩

/-- The value of a header. -/
def get? (headers : IcapHeaders) (name : String) : Option String :=
  (headers.entries.find? fun entry => Text.sameName entry.1 name).map (·.2)

theorem find?_insertInto (name value other : String) (entries : List (String × String)) :
    ((insertInto name value entries).find? fun entry => Text.sameName entry.1 other).map (·.2) =
      if Text.sameName name other then some value
      else (entries.find? fun entry => Text.sameName entry.1 other).map (·.2) := by
  induction entries with
  | nil => by_cases h : Text.sameName name other <;> simp [insertInto, List.find?, h]
  | cons entry rest ih =>
    obtain ⟨n, v⟩ := entry
    by_cases hn : Text.sameName n name
    · have same := Text.sameName_of_same hn other
      by_cases h : Text.sameName name other <;> simp [insertInto, hn, List.find?, same, h]
    · by_cases h : Text.sameName n other
      · have different : ¬Text.sameName name other := by
          rw [Text.sameName_iff] at *
          exact fun h' => hn (h.trans h'.symm)
        simp [insertInto, hn, List.find?, h, different]
      · simp [insertInto, hn, List.find?, h, ih]

/-- After a header is set, its name in any case has the new value, and other names keep theirs. -/
theorem get?_insert (headers : IcapHeaders) (name value other : String) :
    (headers.insert name value).get? other =
      if Text.sameName name other then some value else headers.get? other :=
  find?_insertInto name value other headers.entries

/-- The number of headers. -/
def size (headers : IcapHeaders) : Nat :=
  headers.entries.length

/-- The sections that the headers announce. -/
def sections (headers : IcapHeaders) : Except IcapError Sections :=
  match headers.get? "Encapsulated" with
  | some value => .ok (Sections.ofValue value)
  | none => .error .sectionsMissing

/-- Takes a line of a header block.  A line without a colon is ignored. -/
def addLine (headers : IcapHeaders) (line : String) : IcapHeaders :=
  match Text.splitAtFirst? ':' line.toList with
  | some (name, value) =>
    headers.insert (String.ofList (Text.trim name)) (String.ofList (Text.trim value))
  | none => headers

/-- The headers of a block of lines. -/
def ofLines (lines : List String) : IcapHeaders :=
  lines.foldl addLine empty

/-- Reads the headers of a request. -/
def read (s : Source) : Reading IcapHeaders :=
  match s.readBlock with
  | .error e => .error e
  | .ok (lines, rest) => .ok (ofLines lines, rest)

end IcapHeaders

end CardGate
