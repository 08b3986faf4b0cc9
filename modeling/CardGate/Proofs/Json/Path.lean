import CardGate.Json.Basic

/-!
# Places in a document

A path leads into a document by positions: into an array to one of its items, into an object to
the value of one of its members.  `follow` gives what stands at its end, and `shell` what that
shows by itself, without the values inside.  By `eq_of_shell_follow` two documents with the same
shell everywhere are the same; so a statement about the shell at every path says all about a
document.

`induct` is the induction on documents that the proofs about substitution use, and `induct_inside`
the same with all values that hold others in one case.
-/

namespace CardGate.Json

/-- Induction on documents: what holds of a document if it holds of all values inside it. -/
theorem induct {motive : Json → Prop} (null : motive null) (bool : ∀ b, motive (bool b))
    (num : ∀ digits, motive (num digits)) (str : ∀ s, motive (str s))
    (arr : ∀ items, (∀ item ∈ items, motive item) → motive (arr items))
    (obj : ∀ members, (∀ member ∈ members, motive member.2) → motive (obj members)) :
    ∀ d, motive d
  | .null => null
  | .bool b => bool b
  | .num digits => num digits
  | .str s => str s
  | .arr items => arr items fun item _ => induct null bool num str arr obj item
  | .obj members => obj members fun member hmember => by
    have hsize := List.sizeOf_lt_of_mem hmember
    exact induct null bool num str arr obj member.2
termination_by d => sizeOf d
decreasing_by
  · have hsize := List.sizeOf_lt_of_mem ‹item ∈ items›
    simp only [Json.arr.sizeOf_spec]
    omega
  · obtain ⟨name, value⟩ := member
    simp only [Prod.mk.sizeOf_spec, Json.obj.sizeOf_spec] at hsize ⊢
    omega

/-- The values directly inside a document, in order. -/
def inside : Json → List Json
  | arr items => items
  | obj members => members.map (·.2)
  | _ => []

/-- Induction on documents with one case: what holds of a document if it holds of all values
directly inside it. -/
theorem induct_inside {motive : Json → Prop}
    (step : ∀ d, (∀ v ∈ d.inside, motive v) → motive d) (d : Json) : motive d := by
  induction d using induct with
  | arr items ih => exact step (arr items) ih
  | obj members ih =>
    refine step (obj members) fun v hv => ?_
    obtain ⟨member, hmember, rfl⟩ := List.mem_map.1 hv
    exact ih member hmember
  | _ => exact step _ fun v hv => absurd hv List.not_mem_nil

/-- What a document shows without the values inside it: the number of items, the names of the
members in order, or all of a value that holds no others. -/
def shell : Json → Json
  | arr items => arr (items.map fun _ => null)
  | obj members => obj (members.map fun member => (member.1, null))
  | d => d

theorem shell_eq_obj {d : Json} {members : List (String × Json)}
    (h : d.shell = (obj members).shell) :
    ∃ others, d = obj others ∧ others.map (·.1) = members.map (·.1) := by
  cases d with
  | obj others =>
    refine ⟨others, rfl, ?_⟩
    simp only [shell, obj.injEq] at h
    have hnames := congrArg (List.map (·.1)) h
    rwa [List.map_map, List.map_map] at hnames
  | _ => simp [shell] at h

theorem eq_of_shell_of_inside {d d' : Json} (hshell : d.shell = d'.shell)
    (hinside : d.inside = d'.inside) : d = d' := by
  cases d with
  | arr items => cases d' <;> simp_all [shell, inside]
  | obj members =>
    cases d' with
    | obj others =>
      have hnames : members.map (·.1) = others.map (·.1) := by
        obtain ⟨names, heq, hnames⟩ := shell_eq_obj hshell
        cases heq
        exact hnames
      have hvalues : members.map (·.2) = others.map (·.2) := hinside
      rw [← List.zip_unzip members, ← List.zip_unzip others, List.unzip_eq_map,
        List.unzip_eq_map, hnames, hvalues]
    | _ => simp [shell] at hshell
  | _ => cases d' <;> simp_all [shell]

/-- The part of a document at the end of a path. -/
def follow : List Nat → Json → Option Json
  | [], d => some d
  | i :: path, d => d.inside[i]?.bind (follow path)

/-- A path goes on from where its front leads. -/
theorem follow_append (front back : List Nat) (d : Json) :
    follow (front ++ back) d = (follow front d).bind (follow back) := by
  induction front generalizing d with
  | nil => rfl
  | cons i front ih => rw [List.cons_append, follow, follow, funext ih, Option.bind_assoc]

/-- What stands at the end of a path is the document itself or stands inside one of its values. -/
theorem follow_cases {path : List Nat} {d v : Json} (h : follow path d = some v) :
    d = v ∨ ∃ inner ∈ d.inside, ∃ rest, follow rest inner = some v := by
  cases path with
  | nil => exact Or.inl (Option.some.inj h)
  | cons i rest =>
    obtain ⟨inner, hinner, hrest⟩ := Option.bind_eq_some_iff.1 h
    exact Or.inr ⟨inner, List.mem_of_getElem? hinner, rest, hrest⟩

/-- A string shows all that it is. -/
theorem eq_str_of_shell {d : Json} {s : String} (h : d.shell = str s) : d = str s := by
  cases d with
  | arr items => cases h
  | obj members => cases h
  | _ => exact h

/-- Two documents that show the same everywhere are the same. -/
theorem eq_of_shell_follow {d d' : Json}
    (h : ∀ path, (follow path d).map shell = (follow path d').map shell) : d = d' := by
  induction d using induct_inside generalizing d' with
  | step d ih =>
    refine eq_of_shell_of_inside (Option.some.inj (h [])) (List.ext_getElem? fun i => ?_)
    have hat (path : List Nat) := h (i :: path)
    simp only [follow] at hat
    rcases hv : d.inside[i]? with _ | v <;> rcases hv' : d'.inside[i]? with _ | v'
    · rfl
    · simpa [hv, hv', follow] using hat []
    · simpa [hv, hv', follow] using hat []
    · refine congrArg some (ih v (List.mem_of_getElem? hv) fun path => ?_)
      simpa [hv, hv'] using hat path

end CardGate.Json
