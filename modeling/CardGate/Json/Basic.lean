/-!
# JSON documents

A document keeps what the client wrote: the order of the members of an object and the digits of
every number.  Numbers are never computed with, so they stay text; `put` says how a repeated name
is treated.
-/

namespace CardGate

/-- A JSON document. -/
inductive Json where
  | null
  | bool (b : Bool)
  /-- A number, by its digits. -/
  | num (digits : String)
  | str (s : String)
  | arr (items : List Json)
  /-- An object, by its members in order. -/
  | obj (members : List (String × Json))
  deriving Inhabited

namespace Json

/-- Sets a member of an object.  A name that is already there keeps its place and takes the new
value; a new name goes to the end. -/
def put (name : String) (value : Json) : List (String × Json) → List (String × Json)
  | [] => [(name, value)]
  | (n, v) :: rest => if n = name then (name, value) :: rest else (n, v) :: put name value rest

/-- The members of an object as they are written, with repeated names brought together. -/
def collect (written : List (String × Json)) : List (String × Json) :=
  written.foldl (fun members (name, value) => put name value members) []

/-- The value of a member. -/
def member? (name : String) (members : List (String × Json)) : Option Json :=
  (members.find? (·.1 = name)).map (·.2)

/-! ## Members after one is set -/

theorem member?_put (name other : String) (value : Json) (members : List (String × Json)) :
    member? other (put name value members) =
      if name = other then some value else member? other members := by
  induction members with
  | nil => by_cases h : name = other <;> simp [put, member?, h]
  | cons entry rest ih =>
    obtain ⟨n, v⟩ := entry
    simp only [member?] at ih
    by_cases hn : n = name
    · subst hn
      by_cases h : n = other <;> simp [put, member?, List.find?, h]
    · by_cases h : n = other
      · subst h
        simp [put, member?, hn, Ne.symm hn]
      · simp [put, member?, hn, List.find?, h, ih]

theorem map_fst_put (name : String) (value : Json) (members : List (String × Json)) :
    (put name value members).map (·.1) =
      if name ∈ members.map (·.1) then members.map (·.1) else members.map (·.1) ++ [name] := by
  induction members with
  | nil => simp [put]
  | cons entry rest ih =>
    obtain ⟨n, v⟩ := entry
    by_cases hn : n = name
    · simp [put, hn]
    · simp only [put, hn, if_false, List.map_cons, ih, List.mem_cons, Ne.symm hn, false_or]
      split <;> simp

end Json

end CardGate
