import CardGate.Limiter
import Mathlib.Data.List.Nodup

/-!
# Runs of calls on a limiter

A run is a list of calls, one after the other, and its history is the calls with their answers.
`client?_call` says what one call does to the entry of one client, and that is all that the
statements about runs need to know of the four operations.

Lookup by name takes the first entry of a client, and a sweep could bring an entry behind it to
light.  No client has two entries as long as the names are distinct, which every call keeps
(`distinct_call`).
-/

namespace CardGate

/-- A call on a limiter. -/
inductive LimiterCall where
  | attempt (client : String) (now : Nat)
  | sweep (now : Nat)
  | stats (now : Nat)
  | reset (client : String)
  deriving DecidableEq, Repr

/-- The time a call is given, if it is given one. -/
def LimiterCall.time? : LimiterCall → Option Nat
  | attempt _ now => some now
  | sweep now => some now
  | stats now => some now
  | reset _ => none

/-- What a call answers. -/
inductive LimiterAnswer where
  /-- Whether an attempt is allowed, or nothing if the call gave up. -/
  | verdict (allowed : Option Bool)
  /-- How many clients a sweep forgot. -/
  | swept (count : Nat)
  | counted (stats : LimiterStats)
  | done
  deriving DecidableEq, Repr

namespace Limiter

/-- A limiter after a call, and the answer. -/
def call (limiter : Limiter) : LimiterCall → Limiter × LimiterAnswer
  | .attempt client now =>
    let (next, allowed) := limiter.attempt client now
    (next, .verdict allowed)
  | .sweep now =>
    let (next, count) := limiter.sweep now
    (next, .swept count)
  | .stats now => (limiter, .counted (limiter.stats now))
  | .reset client => (limiter.reset client, .done)

/-- The calls of a run with their answers. -/
def history (limiter : Limiter) : List LimiterCall → List (LimiterCall × LimiterAnswer)
  | [] => []
  | call :: more => (call, (limiter.call call).2) :: history (limiter.call call).1 more

/-- A limiter after a run of calls. -/
def after (limiter : Limiter) : List LimiterCall → Limiter
  | [] => limiter
  | call :: more => after (limiter.call call).1 more

theorem after_append (limiter : Limiter) (front back : List LimiterCall) :
    limiter.after (front ++ back) = (limiter.after front).after back := by
  induction front generalizing limiter with
  | nil => rfl
  | cons call front ih => exact ih (limiter.call call).1

/-! ## Order of time -/

/-- Whether the times of a run do not go back, and not before a given time. -/
def InOrder (before : Nat) (calls : List LimiterCall) : Prop :=
  (before :: calls.filterMap LimiterCall.time?).Pairwise (· ≤ ·)

theorem InOrder.start {calls : List LimiterCall}
    (h : (calls.filterMap LimiterCall.time?).Pairwise (· ≤ ·)) : InOrder 0 calls :=
  List.pairwise_cons.2 ⟨fun time _ => Nat.zero_le time, h⟩

/-- The first call is not before the given time, and the others are not before the first. -/
theorem InOrder.of_cons {before : Nat} {call : LimiterCall} {more : List LimiterCall}
    (h : InOrder before (call :: more)) :
    (∀ time, call.time? = some time → before ≤ time) ∧
      InOrder (call.time?.getD before) more := by
  rw [InOrder] at h
  cases htime : call.time? with
  | none =>
    rw [List.filterMap_cons_none htime] at h
    exact ⟨nofun, h⟩
  | some now =>
    rw [List.filterMap_cons_some htime, List.pairwise_cons] at h
    obtain ⟨hlater, hmore⟩ := h
    refine ⟨?_, hmore⟩
    rintro time ⟨⟩
    exact hlater now List.mem_cons_self

/-- What is picked from the history of a run, call by call. -/
theorem filterMap_history_cons {α : Type} (pick : LimiterCall × LimiterAnswer → Option α)
    (limiter : Limiter) (call : LimiterCall) (more : List LimiterCall) :
    (limiter.history (call :: more)).filterMap pick =
      (pick (call, (limiter.call call).2)).toList ++
        ((limiter.call call).1.history more).filterMap pick := by
  rw [history]
  cases hpick : pick (call, (limiter.call call).2) with
  | none =>
    rw [List.filterMap_cons_none hpick]
    rfl
  | some picked =>
    rw [List.filterMap_cons_some hpick]
    rfl

/-! ## Names -/

/-- No client has two entries. -/
def Distinct (limiter : Limiter) : Prop :=
  (limiter.clients.map (·.1)).Nodup

theorem distinct_empty (config : LimiterConfig) : (empty config).Distinct :=
  List.nodup_nil

/-- An attempt leaves the names as they are, or adds a new one at the end. -/
theorem names_attemptIn (config : LimiterConfig) (client : String) (now : Nat)
    (clients : List (String × ClientRate)) :
    (attemptIn config client now clients).1.map (·.1) =
      if client ∈ clients.map (·.1) then clients.map (·.1)
      else clients.map (·.1) ++ [client] := by
  induction clients with
  | nil => rfl
  | cons entry rest ih =>
    obtain ⟨name, rate⟩ := entry
    by_cases hname : name = client
    · simp [attemptIn, hname]
    · have hother : client ≠ name := Ne.symm hname
      simp only [attemptIn, if_neg hname, List.map_cons, List.mem_cons, hother, false_or, ih]
      split <;> rfl

/-- Every call keeps the names distinct. -/
theorem distinct_call {limiter : Limiter} (h : limiter.Distinct) (call : LimiterCall) :
    (limiter.call call).1.Distinct := by
  cases call with
  | attempt client now =>
    show ((attemptIn limiter.config client now limiter.clients).1.map (·.1)).Nodup
    rw [names_attemptIn]
    split
    · exact h
    · next hnew =>
      rw [List.nodup_append]
      refine ⟨h, List.nodup_singleton client, ?_⟩
      intro name hname other hother
      rw [List.mem_singleton.1 hother]
      rintro rfl
      exact hnew hname
  | sweep now => exact h.sublist (List.filter_sublist.map _)
  | stats now => exact h
  | reset client => exact h.sublist (List.filter_sublist.map _)

theorem config_call (limiter : Limiter) (call : LimiterCall) :
    (limiter.call call).1.config = limiter.config := by
  cases call <;> rfl

theorem distinct_after {limiter : Limiter} (h : limiter.Distinct) (calls : List LimiterCall) :
    (limiter.after calls).Distinct := by
  induction calls generalizing limiter with
  | nil => exact h
  | cons call more ih => exact ih (distinct_call h call)

theorem config_after (limiter : Limiter) (calls : List LimiterCall) :
    (limiter.after calls).config = limiter.config := by
  induction calls generalizing limiter with
  | nil => rfl
  | cons call more ih => exact (ih (limiter.call call).1).trans (config_call limiter call)

/-! ## Entries -/

/-- What an attempt of a known client can come to: its entry afterwards, and what is answered. -/
inductive Attempted (config : LimiterConfig) (now : Nat) (rate : ClientRate) :
    ClientRate × Option Bool → Prop
  /-- The client is locked out. -/
  | refused {blockEnd : Nat} (block : rate.blockedUntil = some blockEnd) (locked : now < blockEnd) :
      Attempted config now rate (rate, some false)
  /-- The lockout has passed. -/
  | released {blockEnd : Nat} (block : rate.blockedUntil = some blockEnd)
      (passed : blockEnd ≤ now) : Attempted config now rate (ClientRate.first now, some true)
  /-- The client has paused for a window. -/
  | rested (free : rate.blockedUntil = none) (pause : config.window ≤ now - rate.lastAttempt) :
      Attempted config now rate (ClientRate.first now, some true)
  /-- The attempt cannot be counted. -/
  | uncounted (free : rate.blockedUntil = none) (active : now - rate.lastAttempt < config.window)
      (last : UInt32.size ≤ rate.attempts.toNat + 1) : Attempted config now rate (rate, none)
  /-- The attempt is one too many. -/
  | exceeded {attempts : UInt32} (free : rate.blockedUntil = none)
      (active : now - rate.lastAttempt < config.window)
      (next : attempts.toNat = rate.attempts.toNat + 1)
      (full : config.maxAttempts.toNat < attempts.toNat)
      (told : now + config.block ≤ clockEnd) :
      Attempted config now rate (⟨attempts, now, some (now + config.block)⟩, some false)
  /-- The attempt is one too many, and the clock cannot tell the end of its lockout. -/
  | endless {attempts : UInt32} (free : rate.blockedUntil = none)
      (active : now - rate.lastAttempt < config.window)
      (next : attempts.toNat = rate.attempts.toNat + 1)
      (full : config.maxAttempts.toNat < attempts.toNat)
      (beyond : clockEnd < now + config.block) :
      Attempted config now rate (⟨attempts, now, none⟩, none)
  | counted {attempts : UInt32} (free : rate.blockedUntil = none)
      (active : now - rate.lastAttempt < config.window)
      (next : attempts.toNat = rate.attempts.toNat + 1)
      (room : attempts.toNat ≤ config.maxAttempts.toNat) :
      Attempted config now rate (⟨attempts, now, none⟩, some true)

theorem attempted (config : LimiterConfig) (now : Nat) (rate : ClientRate) :
    Attempted config now rate (rate.attempt config now) := by
  unfold ClientRate.attempt
  split
  · next blockEnd hblock =>
    by_cases hlocked : now < blockEnd
    · rw [if_pos hlocked]
      exact .refused hblock hlocked
    · rw [if_neg hlocked]
      exact .released hblock (Nat.not_lt.1 hlocked)
  · next hfree =>
    by_cases hpause : config.window ≤ now - rate.lastAttempt
    · rw [if_pos hpause]
      exact .rested hfree hpause
    · rw [if_neg hpause]
      have hactive := Nat.not_le.1 hpause
      split
      · next hlast => exact .uncounted hfree hactive (Counter.add?_eq_none_iff.1 hlast)
      · next attempts hnext =>
        rw [Counter.add?_eq_some_iff] at hnext
        by_cases hfull : config.maxAttempts < attempts
        · rw [if_pos hfull, LimiterConfig.blockEnd?]
          by_cases htold : now + config.block ≤ clockEnd
          · rw [if_pos htold]
            exact .exceeded hfree hactive hnext hfull htold
          · rw [if_neg htold]
            exact .endless hfree hactive hnext hfull (Nat.not_le.1 htold)
        · rw [if_neg hfull]
          exact .counted hfree hactive hnext (UInt32.not_lt.1 hfull)

/-- After a sweep the clients that are live have their entries, and the others have none. -/
theorem client?_sweep {limiter : Limiter} (h : limiter.Distinct) (client : String) (now : Nat) :
    (limiter.sweep now).1.client? client =
      (limiter.client? client).filter (limiter.isLive now) := by
  obtain ⟨config, clients⟩ := limiter
  show ((clients.filter fun entry => Limiter.isLive ⟨config, clients⟩ now entry.2).find?
    (·.1 = client)).map (·.2) = ((clients.find? (·.1 = client)).map (·.2)).filter _
  generalize Limiter.isLive ⟨config, clients⟩ now = live
  unfold Distinct at h
  induction clients with
  | nil => rfl
  | cons entry rest ih =>
    obtain ⟨name, rate⟩ := entry
    rw [List.map_cons, List.nodup_cons] at h
    have hrest := ih h.2
    by_cases hname : name = client
    · -- The client has no second entry, so nothing is found when this one goes.
      have hnone : rest.find? (·.1 = client) = none := by
        rw [List.find?_eq_none]
        intro other hother hsame
        have hmem : other.1 ∈ rest.map (·.1) := List.mem_map_of_mem hother
        rw [of_decide_eq_true hsame, ← hname] at hmem
        exact h.1 hmem
      by_cases hlive : live rate = true
      · simp [hlive, hname, Option.filter]
      · rw [List.filter_cons_of_neg (by simpa using hlive), hrest, hnone]
        simp [hlive, hname, Option.filter]
    · by_cases hlive : live rate = true
      · simpa [hlive, hname] using hrest
      · simpa [hlive, hname] using hrest

/-- After a client is forgotten it has no entry, and the others have theirs. -/
theorem client?_reset (limiter : Limiter) (client other : String) :
    (limiter.reset client).client? other =
      if client = other then none else limiter.client? other := by
  obtain ⟨config, clients⟩ := limiter
  show ((clients.filter (·.1 ≠ client)).find? (·.1 = other)).map (·.2) =
    if client = other then none else (clients.find? (·.1 = other)).map (·.2)
  induction clients with
  | nil => simp
  | cons entry rest ih =>
    obtain ⟨name, rate⟩ := entry
    by_cases hname : name = client
    · rw [List.filter_cons_of_neg (by simpa using hname), ih]
      by_cases hother : client = other
      · simp [hother]
      · have hskip : name ≠ other := hname ▸ hother
        simp [hother, hskip]
    · rw [List.filter_cons_of_pos (by simpa using hname), List.find?_cons, List.find?_cons]
      by_cases hother : name = other
      · have hkept : client ≠ other := fun h => hname (hother.trans h.symm)
        simp [hother, hkept]
      · simpa [hother] using ih

/-- What a call does to the entry of a client. -/
theorem client?_call {limiter : Limiter} (h : limiter.Distinct) (call : LimiterCall)
    (client : String) :
    (limiter.call call).1.client? client =
      match call with
      | .attempt name now =>
        if name = client then
          some (match limiter.client? client with
            | none => ClientRate.first now
            | some rate => (rate.attempt limiter.config now).1)
        else limiter.client? client
      | .sweep now => (limiter.client? client).filter (limiter.isLive now)
      | .stats _ => limiter.client? client
      | .reset name => if name = client then none else limiter.client? client := by
  cases call with
  | attempt name now =>
    show (limiter.attempt name now).1.client? client = _
    rw [client?_attempt]
    by_cases hname : name = client
    · subst hname
      rfl
    · simp only [if_neg hname]
  | sweep now => exact client?_sweep h client now
  | stats now => rfl
  | reset name => exact client?_reset limiter name client

end Limiter

end CardGate
