import CardGate.Proofs.Json.Written
import CardGate.Proofs.Substitution.Sites

/-!
# What tokenizing changes

Tokenizing goes along the sites of a document: it issues one token a site, in their order, and
the document differs from what it was at the sites and nowhere else.

`issues_tokenized` says which tokens are issued, `swapped_tokenized` where the document has
changed, and `cardSites_tokenized` that nothing is left to be replaced if the tokens carry the
sentinel.
-/

namespace CardGate

/-- What is issued at given sites, with the tokens from the `next`-th on. -/
def issuesAt (tokens : Nat → String) (next : Nat) (sites : List Site) : List Issue :=
  sites.mapIdx fun k site => ⟨tokens (next + k), site.card⟩

theorem issuesAt_append (tokens : Nat → String) (next : Nat) (sites more : List Site) :
    issuesAt tokens next (sites ++ more) =
      issuesAt tokens next sites ++ issuesAt tokens (next + sites.length) more := by
  rw [issuesAt, List.mapIdx_append, issuesAt, issuesAt]
  refine congrArg _ (congrArg (List.mapIdx · more) (funext fun k => ?_))
  rw [Nat.add_assoc, Nat.add_comm k]

theorem issuesAt_map_under (tokens : Nat → String) (next i : Nat) (sites : List Site) :
    issuesAt tokens next (sites.map (Site.under i)) = issuesAt tokens next sites := by
  refine List.ext_getElem? fun k => ?_
  rw [issuesAt, issuesAt, List.getElem?_mapIdx, List.getElem?_mapIdx, List.getElem?_map,
    Option.map_map]
  rfl

theorem mem_issuesAt {tokens : Nat → String} {next : Nat} {sites : List Site} {issue : Issue} :
    issue ∈ issuesAt tokens next sites ↔
      ∃ k site, sites[k]? = some site ∧ issue = ⟨tokens (next + k), site.card⟩ := by
  rw [List.mem_iff_getElem?]
  refine exists_congr fun k => ?_
  rw [issuesAt, List.getElem?_mapIdx, Option.map_eq_some_iff]
  exact exists_congr fun site => and_congr_right fun _ => eq_comm

theorem length_issuesAt (tokens : Nat → String) (next : Nat) (sites : List Site) :
    (issuesAt tokens next sites).length = sites.length :=
  List.length_mapIdx

theorem isEmpty_issuesAt (tokens : Nat → String) (next : Nat) (sites : List Site) :
    (issuesAt tokens next sites).isEmpty = decide (sites = []) := by
  rw [Bool.eq_iff_iff, List.isEmpty_iff_length_eq_zero, length_issuesAt, decide_eq_true_iff,
    List.length_eq_zero_iff]

/-- Something is issued in a row of parts if something is issued in one of them. -/
theorem not_isEmpty_append (first rest : List Issue) :
    (!(first ++ rest).isEmpty) = (!first.isEmpty || !rest.isEmpty) := by
  cases first <;> rfl

namespace Json

/-! ## Going through a row of parts -/

/-- The parts of a row after each of them is replaced, with the tokens that those before it have
left over. -/
def replacedAll {α : Type} (replaced : Nat → α → α × List Issue) (next : Nat) :
    List α → List α × List Issue
  | [] => ([], [])
  | part :: more =>
    let (part, first) := replaced next part
    let (more, rest) := replacedAll replaced (next + first.length) more
    (part :: more, first ++ rest)

/-- A member after its card number, or those in its value, are replaced. -/
def tokenizedMember (format : TokenFormat) (tokens : Nat → String) (next : Nat)
    (member : String × Json) : (String × Json) × List Issue :=
  match cardIn? format member.1 member.2 with
  | some card => ((member.1, str (tokens next)), [Issue.mk (tokens next) card])
  | none =>
    let (value, issues) := tokenized format tokens next member.2
    ((member.1, value), issues)

variable {format : TokenFormat} {tokens : Nat → String}

theorem tokenized_arr (next : Nat) (items : List Json) :
    tokenized format tokens next (arr items) =
      (arr (replacedAll (tokenized format tokens) next items).1,
        (replacedAll (tokenized format tokens) next items).2) := by
  have hitems (next : Nat) :
      tokenizedItems format tokens next items =
        replacedAll (tokenized format tokens) next items := by
    induction items generalizing next with
    | nil => rfl
    | cons item more ih => simp only [tokenizedItems, replacedAll, ih]
  rw [tokenized, hitems]

theorem tokenized_obj (next : Nat) (members : List (String × Json)) :
    tokenized format tokens next (obj members) =
      (obj (replacedAll (tokenizedMember format tokens) next members).1,
        (replacedAll (tokenizedMember format tokens) next members).2) := by
  have hmembers (next : Nat) :
      tokenizedMembers format tokens next members =
        replacedAll (tokenizedMember format tokens) next members := by
    induction members generalizing next with
    | nil => rfl
    | cons member more ih =>
      obtain ⟨name, value⟩ := member
      rw [tokenizedMembers, replacedAll, tokenizedMember]
      cases cardIn? format name value <;> simp only [ih]
  rw [tokenized, hmembers]

section replacedAll

variable {α : Type} {replaced : Nat → α → α × List Issue}

theorem mem_replacedAll {next : Nat} {parts : List α} {part : α}
    (h : part ∈ (replacedAll replaced next parts).1) :
    ∃ n, ∃ old ∈ parts, part = (replaced n old).1 := by
  induction parts generalizing next with
  | nil => exact absurd h List.not_mem_nil
  | cons old more ih =>
    rcases List.mem_cons.1 h with rfl | h
    · exact ⟨next, old, List.mem_cons_self, rfl⟩
    · obtain ⟨n, old, hold, hpart⟩ := ih h
      exact ⟨n, old, List.mem_cons_of_mem _ hold, hpart⟩

theorem map_replacedAll {β : Type} {f : α → β} (h : ∀ n part, f (replaced n part).1 = f part)
    (next : Nat) (parts : List α) : (replacedAll replaced next parts).1.map f = parts.map f := by
  induction parts generalizing next with
  | nil => rfl
  | cons part more ih =>
    rw [replacedAll, List.map_cons, List.map_cons, h, ih]

theorem issues_replacedAll {sites : α → List Site} {parts : List α}
    (h : ∀ part ∈ parts, ∀ n, (replaced n part).2 = issuesAt tokens n (sites part)) (next i : Nat) :
    (replacedAll replaced next parts).2 = issuesAt tokens next (numberedSites sites i parts) := by
  induction parts generalizing next i with
  | nil => rfl
  | cons part more ih =>
    have hmore := ih fun part hpart => h part (List.mem_cons_of_mem _ hpart)
    rw [replacedAll, numberedSites, issuesAt_append, issuesAt_map_under, List.length_map]
    dsimp only
    rw [h part List.mem_cons_self, hmore _ (i + 1), length_issuesAt]

end replacedAll

/-! ## The tokens issued -/

theorem issues_tokenizedMember {member : String × Json} {next : Nat}
    (h : (tokenized format tokens next member.2).2 =
      issuesAt tokens next (cardSites format member.2)) :
    (tokenizedMember format tokens next member).2 =
      issuesAt tokens next (memberSites format member) := by
  rw [tokenizedMember, memberSites]
  rcases cardIn? format member.1 member.2 with _ | card
  · exact h
  · rfl

/-- Tokenizing issues one token for each site, in the order of the document. -/
theorem issues_tokenized (next : Nat) (d : Json) :
    (tokenized format tokens next d).2 = issuesAt tokens next (cardSites format d) := by
  induction d using induct generalizing next with
  | arr items ih =>
    rw [tokenized_arr, cardSites_arr]
    exact issues_replacedAll (fun item hitem n => ih item hitem n) next 0
  | obj members ih =>
    rw [tokenized_obj, cardSites_obj]
    refine issues_replacedAll (fun member hmember n => ?_) next 0
    exact issues_tokenizedMember (ih member hmember n)
  | _ => rfl

/-! ## Where a document has changed -/

/-- A document differs from another at given sites, where it has the tokens from the `next`-th on,
and nowhere else. -/
structure Swapped (tokens : Nat → String) (next : Nat) (sites : List Site) (d d' : Json) :
    Prop where
  there : ∀ k site, sites[k]? = some site →
    follow site.path d' = some (str (tokens (next + k)))
  elsewhere : ∀ path, (∀ site ∈ sites, site.path ≠ path) →
    (follow path d').map shell = (follow path d).map shell

/-- The same for the values in a row that come `i`-th, `i + 1`-th and so on in a document. -/
structure SwappedAll (tokens : Nat → String) (next : Nat) (sites : List Site) (i : Nat)
    (values values' : List Json) : Prop where
  there : ∀ k site, sites[k]? = some site → ∃ j rest, site.path = (i + j) :: rest ∧
    values'[j]?.bind (follow rest) = some (str (tokens (next + k)))
  elsewhere : ∀ j rest, (∀ site ∈ sites, site.path ≠ (i + j) :: rest) →
    (values'[j]?.bind (follow rest)).map shell = (values[j]?.bind (follow rest)).map shell

theorem Swapped.refl (next : Nat) (d : Json) : Swapped tokens next [] d d :=
  ⟨fun _ _ h => absurd h (by simp), fun _ _ => rfl⟩

theorem Swapped.here (next : Nat) (card : String) :
    Swapped tokens next [⟨[], card⟩] (str card) (str (tokens next)) := by
  refine ⟨fun k site hsite => ?_, fun path hpath => ?_⟩
  · cases k with
    | zero =>
      cases hsite
      rfl
    | succ k => simp at hsite
  · cases path with
    | nil => exact absurd rfl (hpath _ List.mem_cons_self)
    | cons i path => rfl

theorem SwappedAll.nil (next i : Nat) : SwappedAll tokens next [] i [] [] :=
  ⟨fun _ _ h => absurd h (by simp), fun _ _ _ => rfl⟩

theorem SwappedAll.cons {next i : Nat} {sites more : List Site} {d d' : Json}
    {values values' : List Json} (hd : Swapped tokens next sites d d')
    (hmore : SwappedAll tokens (next + sites.length) more (i + 1) values values') :
    SwappedAll tokens next (sites.map (Site.under i) ++ more) i (d :: values) (d' :: values') := by
  refine ⟨fun k site hsite => ?_, fun j rest hnot => ?_⟩
  · rcases Nat.lt_or_ge k sites.length with hk | hk
    · rw [List.getElem?_append_left (by rwa [List.length_map]), List.getElem?_map] at hsite
      obtain ⟨inner, hinner, rfl⟩ := Option.map_eq_some_iff.1 hsite
      exact ⟨0, inner.path, rfl, hd.there k inner hinner⟩
    · rw [List.getElem?_append_right (by rwa [List.length_map]), List.length_map] at hsite
      obtain ⟨j, rest, hpath, hthere⟩ := hmore.there _ site hsite
      refine ⟨j + 1, rest, by rw [hpath, Nat.add_assoc, Nat.add_comm 1 j], ?_⟩
      rwa [show next + sites.length + (k - sites.length) = next + k by omega] at hthere
  · cases j with
    | zero =>
      refine hd.elsewhere rest fun inner hinner hpath => ?_
      exact hnot (inner.under i) (List.mem_append_left _ (List.mem_map_of_mem hinner))
        (congrArg (i :: ·) hpath)
    | succ j =>
      refine hmore.elsewhere j rest fun site hsite => ?_
      rw [Nat.add_assoc, Nat.add_comm 1 j]
      exact hnot site (List.mem_append_right _ hsite)

theorem Swapped.of_inside {next : Nat} {sites : List Site} {d d' : Json}
    (hshell : d'.shell = d.shell) (h : SwappedAll tokens next sites 0 d.inside d'.inside) :
    Swapped tokens next sites d d' := by
  refine ⟨fun k site hsite => ?_, fun path hpath => ?_⟩
  · obtain ⟨j, rest, hrest, hthere⟩ := h.there k site hsite
    rw [hrest, Nat.zero_add]
    exact hthere
  · cases path with
    | nil => exact congrArg some hshell
    | cons j rest => exact h.elsewhere j rest (by rwa [Nat.zero_add])

theorem swappedAll_replacedAll {α : Type} {replaced : Nat → α → α × List Issue}
    {sites : α → List Site} {parts : List α} (value : α → Json)
    (hissues : ∀ part ∈ parts, ∀ n, (replaced n part).2 = issuesAt tokens n (sites part))
    (hswapped : ∀ part ∈ parts, ∀ n,
      Swapped tokens n (sites part) (value part) (value (replaced n part).1)) (next i : Nat) :
    SwappedAll tokens next (numberedSites sites i parts) i (parts.map value)
      ((replacedAll replaced next parts).1.map value) := by
  induction parts generalizing next i with
  | nil => exact SwappedAll.nil next i
  | cons part more ih =>
    rw [replacedAll, numberedSites]
    refine SwappedAll.cons (hswapped part List.mem_cons_self next) ?_
    rw [hissues part List.mem_cons_self, length_issuesAt]
    exact ih (fun part hpart => hissues part (List.mem_cons_of_mem _ hpart))
      (fun part hpart => hswapped part (List.mem_cons_of_mem _ hpart)) _ _

theorem swapped_tokenizedMember {member : String × Json} {next : Nat}
    (h : Swapped tokens next (cardSites format member.2) member.2
      (tokenized format tokens next member.2).1) :
    Swapped tokens next (memberSites format member) member.2
      (tokenizedMember format tokens next member).1.2 := by
  rw [memberSites, tokenizedMember]
  rcases hcard : cardIn? format member.1 member.2 with _ | card
  · exact h
  · rw [(cardIn?_eq_some.1 hcard).1]
    exact Swapped.here next card

theorem fst_tokenizedMember (next : Nat) (member : String × Json) :
    (tokenizedMember format tokens next member).1.1 = member.1 := by
  rw [tokenizedMember]
  split <;> rfl

/-- The members of an object keep their names and their order. -/
theorem names_tokenizedMember (next : Nat) (members : List (String × Json)) :
    (replacedAll (tokenizedMember format tokens) next members).1.map (·.1) =
      members.map (·.1) :=
  map_replacedAll fst_tokenizedMember next members

/-- Tokenizing changes a document at its sites and nowhere else. -/
theorem swapped_tokenized (next : Nat) (d : Json) :
    Swapped tokens next (cardSites format d) d (tokenized format tokens next d).1 := by
  induction d using induct generalizing next with
  | arr items ih =>
    rw [tokenized_arr, cardSites_arr]
    refine Swapped.of_inside ?_ ?_
    · rw [shell, shell, map_replacedAll fun _ _ => rfl]
    · have hall := swappedAll_replacedAll id (fun item _ n => issues_tokenized n item)
        (fun item hitem n => ih item hitem n) next 0
      rwa [List.map_id, List.map_id] at hall
  | obj members ih =>
    rw [tokenized_obj, cardSites_obj]
    refine Swapped.of_inside ?_ ?_
    · rw [shell, shell, map_replacedAll fun n member => ?_]
      rw [fst_tokenizedMember]
    · refine swappedAll_replacedAll Prod.snd (fun member _ n => ?_)
        (fun member hmember n => ?_) next 0
      · exact issues_tokenizedMember (issues_tokenized n member.2)
      · exact swapped_tokenizedMember (ih member hmember n)
  | _ => exact Swapped.refl next _

/-- A document without sites is left as it is. -/
theorem tokenized_of_cardSites_eq_nil {d : Json} (h : cardSites format d = []) (next : Nat) :
    tokenized format tokens next d = (d, []) := by
  have hswapped : Swapped tokens next (cardSites format d) d (tokenized format tokens next d).1 :=
    swapped_tokenized next d
  rw [h] at hswapped
  refine Prod.ext (eq_of_shell_follow fun path => hswapped.elsewhere path (by simp)) ?_
  rw [issues_tokenized, h]
  rfl

/-! ## What stays true of a document -/

theorem Written.tokenizedMember {depth next : Nat} {member : String × Json}
    (hvalue : Written depth (tokenized format tokens next member.2).1) :
    Written depth (tokenizedMember format tokens next member).1.2 := by
  rw [Json.tokenizedMember]
  split
  · exact Written.str _
  · exact hvalue

/-- A document that can be read from a text still can after tokenizing. -/
theorem Written.tokenized {depth next : Nat} {d : Json} (h : Written depth d) :
    Written depth (tokenized format tokens next d).1 := by
  induction h generalizing next with
  | arr all ih =>
    rw [tokenized_arr]
    refine Written.arr fun item hitem => ?_
    obtain ⟨n, old, hold, rfl⟩ := mem_replacedAll hitem
    exact ih old hold
  | obj distinct plain all ih =>
    rw [tokenized_obj]
    refine Written.obj (by rwa [names_tokenizedMember]) (by rwa [names_tokenizedMember])
      fun member hmember => ?_
    obtain ⟨n, old, hold, rfl⟩ := mem_replacedAll hmember
    exact (ih old hold).tokenizedMember
  | null => exact Written.null
  | bool b => exact Written.bool b
  | num number => exact Written.num number
  | str s => exact Written.str s

/-! ## Nothing left over -/

theorem numberedSites_eq_nil {α : Type} {sites : α → List Site} {parts : List α}
    (h : ∀ part ∈ parts, sites part = []) (i : Nat) : numberedSites sites i parts = [] := by
  induction parts generalizing i with
  | nil => rfl
  | cons part more ih =>
    rw [numberedSites, h part List.mem_cons_self,
      ih fun part hpart => h part (List.mem_cons_of_mem _ hpart)]
    rfl

theorem cardIn?_str_of_marks {name s : String} (h : format.marks s = true) :
    cardIn? format name (str s) = none := by
  simp [cardIn?, h]

/-- Tokenizing inside a value leaves it as much a card number as it was. -/
theorem cardIn?_tokenized (name : String) (next : Nat) (d : Json) :
    cardIn? format name (tokenized format tokens next d).1 = cardIn? format name d := by
  cases d <;> simp [tokenized, cardIn?]

/-- After tokenizing with tokens that carry the sentinel there is no card number left. -/
theorem cardSites_tokenized (hmarks : ∀ i, format.marks (tokens i) = true) (next : Nat) (d : Json) :
    cardSites format (tokenized format tokens next d).1 = [] := by
  induction d using induct generalizing next with
  | arr items ih =>
    rw [tokenized_arr, cardSites_arr]
    refine numberedSites_eq_nil (fun item hitem => ?_) 0
    obtain ⟨n, old, hold, rfl⟩ := mem_replacedAll hitem
    exact ih old hold n
  | obj members ih =>
    rw [tokenized_obj, cardSites_obj]
    refine numberedSites_eq_nil (fun member hmember => ?_) 0
    obtain ⟨n, old, hold, rfl⟩ := mem_replacedAll hmember
    rw [memberSites, tokenizedMember]
    rcases hcard : cardIn? format old.1 old.2 with _ | card
    · simp only [cardIn?_tokenized, hcard, ih old hold n]
    · simp only [cardIn?_str_of_marks (hmarks n)]
      rfl
  | _ => rfl

end Json

end CardGate
