import CardGate.Proofs.Json.Path
import CardGate.Substitution.Document

/-!
# Where the cards of a document are

A site is a place in a document with the card number that stands there.  `IsCardSite` says which
places these are: values of members of an object, at any depth, that have the name of a card
field, the shape of a card number and no sentinel.

`cardSites` lists them.  The main statements are `mem_cardSites`, that it lists exactly these, and
`pairwise_cardSites`, that it lists each once and in the order of the document.
-/

namespace CardGate

/-- A place in a document, and the card number that stands there. -/
structure Site where
  path : List Nat
  card : String
  deriving DecidableEq, Repr

/-- A site, seen from the value that holds its document as the `i`-th value inside. -/
def Site.under (i : Nat) (site : Site) : Site :=
  ⟨i :: site.path, site.card⟩

namespace Json

/-! ## Cards in members -/

theorem cardIn?_eq_some {format : TokenFormat} {name card : String} {value : Json} :
    cardIn? format name value = some card ↔
      value = str card ∧ Card.isFieldName name = true ∧ Card.looksLikeNumber card = true ∧
        format.marks card = false := by
  cases value with
  | str s =>
    simp only [cardIn?, str.injEq]
    constructor
    · intro h
      split at h
      · next hcard =>
        cases h
        simpa [and_assoc] using hcard
      · cases h
    · rintro ⟨rfl, hname, hnumber, hmark⟩
      simp [hname, hnumber, hmark]
  | _ => simp [cardIn?]

/-- Whether a card number stands at a place in a document. -/
def IsCardSite (format : TokenFormat) (d : Json) (site : Site) : Prop :=
  ∃ (holder : List Nat) (members : List (String × Json)) (i : Nat) (name : String),
    site.path = holder ++ [i] ∧ follow holder d = some (obj members) ∧
      members[i]? = some (name, str site.card) ∧ Card.isFieldName name = true ∧
      Card.looksLikeNumber site.card = true ∧ format.marks site.card = false

theorem IsCardSite.marks_eq_false {format : TokenFormat} {d : Json} {site : Site}
    (h : IsCardSite format d site) : format.marks site.card = false := by
  obtain ⟨_, _, _, _, -, -, -, -, -, hmarks⟩ := h
  exact hmarks

/-- The sites in a row of parts that come `i`-th, `i + 1`-th and so on in a value. -/
def numberedSites {α : Type} (sites : α → List Site) : Nat → List α → List Site
  | _, [] => []
  | i, part :: more => (sites part).map (Site.under i) ++ numberedSites sites (i + 1) more

mutual

/-- The places of the card numbers in a document, in order. -/
def cardSites (format : TokenFormat) : Json → List Site
  | arr items => itemSites format 0 items
  | obj members => membersSites format 0 members
  | _ => []

/-- The places of the card numbers in the items of an array. -/
def itemSites (format : TokenFormat) (i : Nat) : List Json → List Site
  | [] => []
  | item :: more => (cardSites format item).map (Site.under i) ++ itemSites format (i + 1) more

/-- The places of the card numbers in the members of an object. -/
def membersSites (format : TokenFormat) (i : Nat) : List (String × Json) → List Site
  | [] => []
  | (name, value) :: more =>
    let here : List Site :=
      match cardIn? format name value with
      | some card => [⟨[], card⟩]
      | none => cardSites format value
    here.map (Site.under i) ++ membersSites format (i + 1) more

end

/-- The places of the card numbers in a member of an object. -/
def memberSites (format : TokenFormat) (member : String × Json) : List Site :=
  match cardIn? format member.1 member.2 with
  | some card => [⟨[], card⟩]
  | none => cardSites format member.2

theorem cardSites_arr (format : TokenFormat) (items : List Json) :
    cardSites format (arr items) = numberedSites (cardSites format) 0 items := by
  have hitems (i : Nat) : itemSites format i items = numberedSites (cardSites format) i items := by
    induction items generalizing i with
    | nil => rfl
    | cons item more ih => rw [itemSites, numberedSites, ih]
  rw [cardSites, hitems]

theorem cardSites_obj (format : TokenFormat) (members : List (String × Json)) :
    cardSites format (obj members) = numberedSites (memberSites format) 0 members := by
  have hmembers (i : Nat) :
      membersSites format i members = numberedSites (memberSites format) i members := by
    induction members generalizing i with
    | nil => rfl
    | cons member more ih => rw [membersSites, numberedSites, ih]; rfl
  rw [cardSites, hmembers]

/-! ## Exactly the cards -/

theorem mem_numberedSites {α : Type} {sites : α → List Site} {i : Nat} {parts : List α}
    {site : Site} :
    site ∈ numberedSites sites i parts ↔
      ∃ j part inner, parts[j]? = some part ∧ inner ∈ sites part ∧ site = inner.under (i + j) := by
  induction parts generalizing i with
  | nil => simp [numberedSites]
  | cons part more ih =>
    rw [numberedSites, List.mem_append, List.mem_map, ih]
    constructor
    · rintro (⟨inner, hinner, rfl⟩ | ⟨j, other, inner, hother, hinner, rfl⟩)
      · exact ⟨0, part, inner, rfl, hinner, rfl⟩
      · exact ⟨j + 1, other, inner, hother, hinner, by rw [Nat.add_assoc, Nat.add_comm 1 j]⟩
    · rintro ⟨j, other, inner, hother, hinner, rfl⟩
      cases j with
      | zero =>
        cases hother
        exact Or.inl ⟨inner, hinner, rfl⟩
      | succ j =>
        refine Or.inr ⟨j, other, inner, hother, hinner, ?_⟩
        rw [Nat.add_assoc, Nat.add_comm 1 j]

theorem isCardSite_arr {format : TokenFormat} {items : List Json} {site : Site} :
    IsCardSite format (arr items) site ↔
      ∃ i item inner, items[i]? = some item ∧ IsCardSite format item inner ∧
        site = inner.under i := by
  obtain ⟨path, card⟩ := site
  constructor
  · rintro ⟨holder, members, i, name, rfl, hholder, hcard⟩
    cases holder with
    | nil => simp [follow] at hholder
    | cons k holder =>
      obtain ⟨item, hitem, hfollow⟩ := Option.bind_eq_some_iff.1 hholder
      exact ⟨k, item, ⟨holder ++ [i], card⟩, hitem,
        ⟨holder, members, i, name, rfl, hfollow, hcard⟩, rfl⟩
  · rintro ⟨k, item, inner, hitem, ⟨holder, members, i, name, hpath, hfollow, hcard⟩, hsite⟩
    cases hsite
    refine ⟨k :: holder, members, i, name, congrArg (k :: ·) hpath, ?_, hcard⟩
    exact Option.bind_eq_some_iff.2 ⟨item, hitem, hfollow⟩

theorem isCardSite_obj {format : TokenFormat} {members : List (String × Json)} {site : Site} :
    IsCardSite format (obj members) site ↔
      ∃ i member inner, members[i]? = some member ∧
        (cardIn? format member.1 member.2 = some inner.card ∧ inner.path = [] ∨
          IsCardSite format member.2 inner) ∧
        site = inner.under i := by
  obtain ⟨path, card⟩ := site
  constructor
  · rintro ⟨holder, others, i, name, rfl, hholder, hmember, hcard⟩
    cases holder with
    | nil =>
      cases hholder
      exact ⟨i, (name, str card), ⟨[], card⟩, hmember,
        Or.inl ⟨cardIn?_eq_some.2 ⟨rfl, hcard⟩, rfl⟩, rfl⟩
    | cons k holder =>
      obtain ⟨value, hvalue, hfollow⟩ := Option.bind_eq_some_iff.1 hholder
      obtain ⟨member, hat, rfl⟩ := Option.map_eq_some_iff.1 (List.getElem?_map ▸ hvalue)
      exact ⟨k, member, ⟨holder ++ [i], card⟩, hat,
        Or.inr ⟨holder, others, i, name, rfl, hfollow, hmember, hcard⟩, rfl⟩
  · rintro ⟨k, member, inner, hat, hinner, hsite⟩
    obtain ⟨rest, found⟩ := inner
    cases hsite
    rcases hinner with ⟨hcard, hpath⟩ | ⟨holder, others, i, name, hpath, hfollow, hcard⟩
    · obtain ⟨name, value⟩ := member
      obtain ⟨hvalue, hcard⟩ := cardIn?_eq_some.1 hcard
      cases hpath
      cases hvalue
      exact ⟨[], members, k, name, rfl, rfl, hat, hcard⟩
    · refine ⟨k :: holder, others, i, name, congrArg (k :: ·) hpath, ?_, hcard⟩
      refine Option.bind_eq_some_iff.2 ⟨member.2, ?_, hfollow⟩
      rw [inside, List.getElem?_map, hat]
      rfl

/-- A value that holds no others has no sites. -/
theorem not_isCardSite_of_inside {format : TokenFormat} {d : Json} {site : Site}
    (hinside : d.inside = []) (hobj : ∀ members, d ≠ obj members) :
    ¬ IsCardSite format d site := by
  rintro ⟨holder, members, i, name, -, hholder, -⟩
  cases holder with
  | nil => exact hobj members (Option.some.inj hholder)
  | cons k holder => simp [follow, hinside] at hholder

theorem mem_memberSites {format : TokenFormat} {member : String × Json} {inner : Site}
    (ih : ∀ site, site ∈ cardSites format member.2 ↔ IsCardSite format member.2 site) :
    inner ∈ memberSites format member ↔
      cardIn? format member.1 member.2 = some inner.card ∧ inner.path = [] ∨
        IsCardSite format member.2 inner := by
  obtain ⟨path, found⟩ := inner
  rcases hcard : cardIn? format member.1 member.2 with _ | card
  · simp [memberSites, hcard, ih]
  · have hnot : ¬ IsCardSite format member.2 ⟨path, found⟩ := by
      rw [(cardIn?_eq_some.1 hcard).1]
      exact not_isCardSite_of_inside rfl nofun
    simp [memberSites, hcard, hnot, eq_comm, and_comm]

/-- The sites listed are the places of card numbers. -/
theorem mem_cardSites {format : TokenFormat} {d : Json} {site : Site} :
    site ∈ cardSites format d ↔ IsCardSite format d site := by
  induction d using induct generalizing site with
  | arr items ih =>
    rw [cardSites_arr, mem_numberedSites, isCardSite_arr]
    refine exists_congr fun i => exists_congr fun item => exists_congr fun inner => ?_
    rw [Nat.zero_add]
    refine and_congr_right fun hitem => and_congr_left fun _ => ?_
    exact ih item (List.mem_of_getElem? hitem)
  | obj members ih =>
    rw [cardSites_obj, mem_numberedSites, isCardSite_obj]
    refine exists_congr fun i => exists_congr fun member => exists_congr fun inner => ?_
    rw [Nat.zero_add]
    refine and_congr_right fun hmember => and_congr_left fun _ => ?_
    exact mem_memberSites fun _ => ih member (List.mem_of_getElem? hmember)
  | _ => exact iff_of_false List.not_mem_nil (not_isCardSite_of_inside rfl nofun)

/-! ## In order -/

theorem pairwise_numberedSites {α : Type} {sites : α → List Site} {parts : List α}
    (h : ∀ part ∈ parts, (sites part).Pairwise fun one other => one.path < other.path) (i : Nat) :
    (numberedSites sites i parts).Pairwise fun one other => one.path < other.path := by
  induction parts generalizing i with
  | nil => exact List.Pairwise.nil
  | cons part more ih =>
    have hmore := ih (fun part hpart => h part (List.mem_cons_of_mem _ hpart)) (i + 1)
    refine List.pairwise_append.2 ⟨?_, hmore, ?_⟩
    · rw [List.pairwise_map]
      refine (h part List.mem_cons_self).imp fun hlt => ?_
      exact List.cons_lt_cons_iff.2 (Or.inr ⟨rfl, hlt⟩)
    · intro one hone other hother
      obtain ⟨inner, -, rfl⟩ := List.mem_map.1 hone
      obtain ⟨j, -, outer, -, -, rfl⟩ := mem_numberedSites.1 hother
      exact List.cons_lt_cons_iff.2 (Or.inl (by omega))

/-- The sites are listed in the order of the document. -/
theorem pairwise_cardSites (format : TokenFormat) (d : Json) :
    (cardSites format d).Pairwise fun one other => one.path < other.path := by
  induction d using induct with
  | arr items ih =>
    rw [cardSites_arr]
    exact pairwise_numberedSites ih 0
  | obj members ih =>
    rw [cardSites_obj]
    refine pairwise_numberedSites (fun member hmember => ?_) 0
    rw [memberSites]
    split
    · exact List.pairwise_singleton _ _
    · exact ih member hmember
  | _ => exact List.Pairwise.nil

end Json

end CardGate
