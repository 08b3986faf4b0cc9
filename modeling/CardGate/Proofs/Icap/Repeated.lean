import CardGate.Proofs.Icap.RoundTrip
import Mathlib.Data.List.Induction

/-!
# Names that come again

Headers are set one after another, and a name may come again in another case.  `firstNames` are the
names as they came first, and `lastValue?` is what was set last under a name; `Resolved` says that
headers hold just these.  That is all there is to say: no other headers are resolved in the same way
(`Resolved.unique`).

`last_write_wins` says it of every sequence of calls, and of the lines of every block that is read.
-/

namespace CardGate

namespace IcapHeaders

/-- The headers after names are set one after another. -/
def setAll (calls : List (String × String)) : IcapHeaders :=
  calls.foldl (fun headers call => headers.insert call.1 call.2) empty

/-- The names of calls as they came first, in that order. -/
def firstNames : List (String × String) → List String
  | [] => []
  | (name, _) :: later => name :: (firstNames later).filter fun other => !Text.sameName name other

/-- The value of the last call for a name, in any case. -/
def lastValue? (calls : List (String × String)) (name : String) : Option String :=
  (calls.filter fun call => Text.sameName call.1 name).getLast?.map (·.2)

/-- What headers hold after calls: every name once, as it came first, with its last value. -/
structure Resolved (calls : List (String × String)) (headers : IcapHeaders) : Prop where
  distinct : Distinct headers.entries
  value : ∀ name, headers.get? name = lastValue? calls name
  names : headers.entries.map (·.1) = firstNames calls

theorem setAll_append (calls more : List (String × String)) :
    setAll (calls ++ more) =
      more.foldl (fun headers call => headers.insert call.1 call.2) (setAll calls) :=
  List.foldl_append

/-! ## Values -/

theorem lastValue?_append (calls : List (String × String)) (name value other : String) :
    lastValue? (calls ++ [(name, value)]) other =
      if Text.sameName name other then some value else lastValue? calls other := by
  simp only [lastValue?, List.filter_append, List.filter_cons, List.filter_nil]
  split
  · rw [List.getLast?_concat, Option.map_some]
  · rw [List.append_nil]

theorem get?_setAll (calls : List (String × String)) (name : String) :
    (setAll calls).get? name = lastValue? calls name := by
  induction calls using List.reverseRecOn with
  | nil => rfl
  | append_singleton calls call ih =>
    obtain ⟨n, v⟩ := call
    rw [setAll_append, List.foldl_cons, List.foldl_nil, get?_insert, ih, lastValue?_append]

/-! ## Names -/

theorem pairwise_firstNames (calls : List (String × String)) :
    (firstNames calls).Pairwise fun one other => Text.sameName one other = false := by
  induction calls with
  | nil => exact .nil
  | cons call later ih =>
    refine .cons (fun other hother => ?_) (ih.filter _)
    have hdiffers := (List.mem_filter.1 hother).2
    rwa [Bool.not_eq_true'] at hdiffers

/-- Whether a name is among others does not depend on those that are named otherwise. -/
theorem any_filter_sameName {n name : String} (h : Text.sameName n name = false)
    (names : List String) :
    (names.filter fun other => !Text.sameName n other).any (Text.sameName · name) =
      names.any (Text.sameName · name) := by
  rw [List.any_filter]
  refine List.any_congr rfl fun other => ?_
  cases hother : Text.sameName n other with
  | true =>
    rw [← Text.sameName_of_same hother, h]
    rfl
  | false => rfl

/-- A name that comes at the end is new or has come before. -/
theorem firstNames_append (calls : List (String × String)) (name value : String) :
    firstNames (calls ++ [(name, value)]) =
      if (firstNames calls).any (Text.sameName · name) then firstNames calls
      else firstNames calls ++ [name] := by
  induction calls with
  | nil => rfl
  | cons call later ih =>
    obtain ⟨n, v⟩ := call
    rw [List.cons_append, firstNames, firstNames, ih, List.any_cons]
    cases hname : Text.sameName n name with
    | true =>
      rw [Bool.true_or, if_pos rfl]
      split
      · rfl
      · rw [List.filter_append, List.filter_singleton, hname]
        exact congrArg (n :: ·) (List.append_nil _)
    | false =>
      rw [Bool.false_or, any_filter_sameName hname]
      split
      · rfl
      · rw [List.filter_append, List.filter_singleton, hname]
        rfl

theorem map_fst_insertInto (name value : String) (entries : List (String × String)) :
    (insertInto name value entries).map (·.1) =
      if (entries.map (·.1)).any (Text.sameName · name) then entries.map (·.1)
      else entries.map (·.1) ++ [name] := by
  induction entries with
  | nil => rfl
  | cons entry entries ih =>
    obtain ⟨n, v⟩ := entry
    rw [insertInto, List.map_cons, List.any_cons]
    cases hname : Text.sameName n name with
    | true => rfl
    | false =>
      rw [if_neg Bool.false_ne_true, List.map_cons, ih, Bool.false_or]
      split
      · rfl
      · rfl

theorem names_setAll (calls : List (String × String)) :
    (setAll calls).entries.map (·.1) = firstNames calls := by
  induction calls using List.reverseRecOn with
  | nil => rfl
  | append_singleton calls call ih =>
    obtain ⟨n, v⟩ := call
    rw [setAll_append, List.foldl_cons, List.foldl_nil, insert, map_fst_insertInto, ih,
      firstNames_append]

theorem resolved_setAll (calls : List (String × String)) : Resolved calls (setAll calls) where
  distinct := by
    have hnames := pairwise_firstNames calls
    rwa [← names_setAll, List.pairwise_map] at hnames
  value := get?_setAll calls
  names := names_setAll calls

example : setAll [("Host", "a"), ("Allow", "204"), ("host", "b")] =
    ⟨[("Host", "b"), ("Allow", "204")]⟩ := by
  decide

/-- Headers are their names with what is found under them. -/
theorem entries_eq {headers : IcapHeaders} (hdistinct : Distinct headers.entries) :
    headers.entries =
      (headers.entries.map (·.1)).map fun name => (name, (headers.get? name).getD "") := by
  rw [List.map_map]
  refine (List.map_id headers.entries).symm.trans (List.map_congr_left fun entry hentry => ?_)
  have hvalue : headers.get? entry.1 = some entry.2 :=
    get?_of_mem hdistinct hentry (Text.sameName_iff.2 rfl)
  rw [Function.comp_apply, hvalue]
  rfl

/-- What headers hold after calls is determined by the calls. -/
theorem Resolved.unique {calls : List (String × String)} {headers others : IcapHeaders}
    (h : Resolved calls headers) (hothers : Resolved calls others) : headers = others := by
  have hvalue : headers.get? = others.get? := by
    funext name
    rw [h.value, hothers.value]
  have hentries : headers.entries = others.entries := by
    rw [entries_eq h.distinct, entries_eq hothers.distinct, h.names, hothers.names, hvalue]
  cases headers
  cases others
  exact congrArg IcapHeaders.mk hentries

/-! ## Lines -/

/-- The calls that the lines of a block are: name and value stand around the first colon, without
the blanks around them.  A line without a colon is none. -/
inductive Calls : List String → List (String × String) → Prop
  | nil : Calls [] []
  | field {name value : List Char} {lines : List String} {calls : List (String × String)}
      (plain : ':' ∉ name) (others : Calls lines calls) :
      Calls (String.ofList (name ++ ':' :: value) :: lines)
        ((String.ofList (Text.trim name), String.ofList (Text.trim value)) :: calls)
  | ignored {line : String} {lines : List String} {calls : List (String × String)}
      (plain : ':' ∉ line.toList) (others : Calls lines calls) : Calls (line :: lines) calls

/-- Every row of lines is some calls. -/
theorem exists_calls (lines : List String) : ∃ calls, Calls lines calls := by
  induction lines with
  | nil => exact ⟨[], .nil⟩
  | cons line lines ih =>
    obtain ⟨calls, hcalls⟩ := ih
    by_cases hcolon : ':' ∈ line.toList
    · obtain ⟨name, value, hline, plain⟩ := List.eq_append_cons_of_mem hcolon
      rw [← String.ofList_toList (s := line), hline]
      exact ⟨_, .field plain hcalls⟩
    · exact ⟨calls, .ignored hcolon hcalls⟩

theorem foldl_addLine_of_calls {lines : List String} {calls : List (String × String)}
    (h : Calls lines calls) (headers : IcapHeaders) :
    lines.foldl addLine headers =
      calls.foldl (fun headers call => headers.insert call.1 call.2) headers := by
  induction h generalizing headers with
  | nil => rfl
  | field plain others ih =>
    rw [List.foldl_cons, List.foldl_cons, ← ih, addLine, String.toList_ofList,
      Text.splitAtFirst?_append plain]
  | @ignored line lines calls plain others ih =>
    rw [List.foldl_cons, ← ih, addLine, Text.splitAtFirst?_of_absent plain]

theorem ofLines_of_calls {lines : List String} {calls : List (String × String)}
    (h : Calls lines calls) : ofLines lines = setAll calls :=
  foldl_addLine_of_calls h empty

/-- After any calls, headers hold every name once, in the place and the case in which it came first,
with the value that was set last; and what is read from a block are the headers that its lines set,
a later line of the same name overriding an earlier one. -/
theorem last_write_wins :
    (∀ calls, Resolved calls (setAll calls)) ∧
      ∀ (s rest : Source) (headers : IcapHeaders), IcapHeaders.read s = .ok (headers, rest) ↔
        ∃ lines calls, s.Block lines rest ∧ Calls lines calls ∧ Resolved calls headers := by
  refine ⟨resolved_setAll, fun s rest headers => ⟨fun h => ?_, fun h => ?_⟩⟩
  · rw [IcapHeaders.read] at h
    split at h
    · cases h
    · next lines after hblock =>
      cases h
      obtain ⟨calls, hcalls⟩ := exists_calls lines
      rw [ofLines_of_calls hcalls]
      exact ⟨lines, calls, Source.readBlock_eq_ok_iff.1 hblock, hcalls, resolved_setAll calls⟩
  · obtain ⟨lines, calls, hblock, hcalls, hresolved⟩ := h
    rw [IcapHeaders.read, Source.readBlock_eq_ok_iff.2 hblock]
    dsimp only
    rw [ofLines_of_calls hcalls, hresolved.unique (resolved_setAll calls)]

end IcapHeaders

end CardGate
