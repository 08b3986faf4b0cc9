import CardGate.Proofs.Limiter.Run
import Mathlib.Data.List.Induction

/-!
# What the entries of a limiter look like

An entry counts attempts, or it is locked out.  The two are told apart by the counter as well as by
the lockout: an entry that is locked out stands beyond the limit, and its lockout began with its
last attempt.  This is so whatever times the calls are given, for no time is ever compared but to
choose between keeping an entry, counting on and starting afresh.

There is a third form, and it is not meant.  The attempt beyond the limit is counted before the end
of its lockout is computed, and if the clock cannot tell that end the call gives up: the entry is
left beyond the limit and not locked out (`Overrun`, `settled_overrun`).

* `Regular.attempt` and `AsMeant.attempt` are the steps: what an attempt makes of an entry has one
  of the three forms, or one of the first two if the clock can tell the end of a lockout.
* `snd_attempt_eq_answer`: what an attempt was answered can be told from the entry that it left.
* `client?_call_cases`: only an attempt of a client gives it an entry that it did not have.

`settled_after` puts them together for every run.
-/

namespace CardGate

/-- How many attempts of a client a window allows.  The first one is always allowed. -/
def LimiterConfig.limit (config : LimiterConfig) : Nat :=
  max 1 config.maxAttempts.toNat

namespace Limiter

variable {config : LimiterConfig} {rate : ClientRate} {now : Nat} {client : String}
  {limiter : Limiter}

/-! ## One entry -/

/-- Whether an entry counts attempts within the limit. -/
def Counting (config : LimiterConfig) (rate : ClientRate) : Prop :=
  rate.blockedUntil = none ∧ rate.attempts.toNat ≤ config.limit

/-- Whether an entry is locked out since its last attempt. -/
def LockedOut (config : LimiterConfig) (rate : ClientRate) : Prop :=
  rate.blockedUntil = some (rate.lastAttempt + config.block) ∧ config.limit < rate.attempts.toNat

/-- Whether an entry is beyond the limit without a lockout, the end of which the clock could not
tell. -/
def Overrun (config : LimiterConfig) (rate : ClientRate) : Prop :=
  rate.blockedUntil = none ∧ config.limit < rate.attempts.toNat ∧
    clockEnd < rate.lastAttempt + config.block

instance (config : LimiterConfig) (rate : ClientRate) : Decidable (Counting config rate) :=
  inferInstanceAs (Decidable (_ ∧ _))

instance (config : LimiterConfig) (rate : ClientRate) : Decidable (LockedOut config rate) :=
  inferInstanceAs (Decidable (_ ∧ _))

instance (config : LimiterConfig) (rate : ClientRate) : Decidable (Overrun config rate) :=
  inferInstanceAs (Decidable (_ ∧ _))

/-- An entry as the calls of a limiter make it. -/
structure Regular (config : LimiterConfig) (rate : ClientRate) : Prop where
  tried : 1 ≤ rate.attempts.toNat
  state : Counting config rate ∨ LockedOut config rate ∨ Overrun config rate

/-- An entry as it is meant to be: it counts up to the limit, or it is locked out by the attempt
beyond that. -/
structure AsMeant (config : LimiterConfig) (rate : ClientRate) : Prop where
  tried : 1 ≤ rate.attempts.toNat
  state : Counting config rate ∨
    LockedOut config rate ∧ rate.attempts.toNat = config.limit + 1

theorem counting_first (config : LimiterConfig) (now : Nat) :
    Counting config (ClientRate.first now) :=
  ⟨rfl, Nat.le_max_left 1 config.maxAttempts.toNat⟩

theorem regular_first (config : LimiterConfig) (now : Nat) :
    Regular config (ClientRate.first now) :=
  ⟨Nat.le_refl 1, Or.inl (counting_first config now)⟩

theorem asMeant_first (config : LimiterConfig) (now : Nat) :
    AsMeant config (ClientRate.first now) :=
  ⟨Nat.le_refl 1, Or.inl (counting_first config now)⟩

/-- A known client that has tried once more than is allowed is beyond the limit. -/
theorem limit_lt {attempts : UInt32} (tried : 1 ≤ rate.attempts.toNat)
    (next : attempts.toNat = rate.attempts.toNat + 1)
    (full : config.maxAttempts.toNat < attempts.toNat) : config.limit < attempts.toNat := by
  unfold LimiterConfig.limit
  omega

/-- What an attempt makes of a regular entry is regular. -/
theorem Regular.attempt (h : Regular config rate) (now : Nat) :
    Regular config (rate.attempt config now).1 := by
  have hattempted := attempted config now rate
  generalize rate.attempt config now = after at hattempted ⊢
  cases hattempted with
  | refused block locked => exact h
  | released block passed => exact regular_first config now
  | rested free pause => exact regular_first config now
  | uncounted free active last => exact h
  | exceeded free active next full told =>
    exact ⟨next ▸ Nat.le_add_left 1 _, Or.inr (Or.inl ⟨rfl, limit_lt h.tried next full⟩)⟩
  | endless free active next full beyond =>
    exact ⟨next ▸ Nat.le_add_left 1 _, Or.inr (Or.inr ⟨rfl, limit_lt h.tried next full, beyond⟩)⟩
  | counted free active next room =>
    exact ⟨next ▸ Nat.le_add_left 1 _,
      Or.inl ⟨rfl, Nat.le_trans room (Nat.le_max_right 1 _)⟩⟩

/-- An entry stays as it is meant to be when the clock can tell the end of a lockout. -/
theorem AsMeant.attempt (h : AsMeant config rate) (told : now + config.block ≤ clockEnd) :
    AsMeant config (rate.attempt config now).1 := by
  have hattempted := attempted config now rate
  generalize rate.attempt config now = after at hattempted ⊢
  cases hattempted with
  | refused block locked => exact h
  | released block passed => exact asMeant_first config now
  | rested free pause => exact asMeant_first config now
  | uncounted free active last => exact h
  | exceeded free active next full told =>
    refine ⟨next ▸ Nat.le_add_left 1 _, Or.inr ⟨⟨rfl, limit_lt h.tried next full⟩, ?_⟩⟩
    -- The counter was within the limit, and the next number is not.
    rcases h.state with ⟨-, hfew⟩ | ⟨⟨hblock, -⟩, -⟩
    · have hlimit := limit_lt h.tried next full
      simp only
      omega
    · rw [free] at hblock
      cases hblock
  | endless free active next full beyond => exact absurd told (Nat.not_le.2 beyond)
  | counted free active next room =>
    exact ⟨next ▸ Nat.le_add_left 1 _,
      Or.inl ⟨rfl, Nat.le_trans room (Nat.le_max_right 1 _)⟩⟩

/-- As far as an entry tells, what the attempt that made it was answered. -/
def answer (config : LimiterConfig) (rate : ClientRate) : Option Bool :=
  if rate.blockedUntil ≠ none then some false
  else if rate.attempts.toNat ≤ config.limit then some true else none

theorem answer_of_blocked (h : rate.blockedUntil ≠ none) : answer config rate = some false :=
  if_pos h

theorem answer_of_counting (h : Counting config rate) : answer config rate = some true := by
  rw [answer, if_neg (by simp [h.1]), if_pos h.2]

theorem answer_of_beyond (free : rate.blockedUntil = none)
    (beyond : config.limit < rate.attempts.toNat) : answer config rate = none := by
  rw [answer, if_neg (by simp [free]), if_neg (Nat.not_le.2 beyond)]

theorem answer_eq_false_iff : answer config rate = some false ↔ rate.blockedUntil ≠ none := by
  rw [answer]
  split
  · next hblock => simp [hblock]
  · next hfree =>
    split
    · simpa using hfree
    · simpa using hfree

/-- An attempt gives up if and only if it leaves an overrun behind. -/
theorem Regular.answer_eq_none_iff (h : Regular config rate) :
    answer config rate = none ↔ Overrun config rate := by
  rcases h.state with hcounting | hlocked | hoverrun
  · rw [answer_of_counting hcounting]
    refine ⟨nofun, fun hoverrun => ?_⟩
    exact absurd hcounting.2 (Nat.not_le.2 hoverrun.2.1)
  · have hblock : rate.blockedUntil ≠ none := by simp [hlocked.1]
    rw [answer_of_blocked hblock]
    exact ⟨nofun, fun hoverrun => absurd hoverrun.1 hblock⟩
  · rw [answer_of_beyond hoverrun.1 hoverrun.2.1]
    exact ⟨fun _ => hoverrun, fun _ => rfl⟩

/-- What an attempt is answered can be told from the entry that it leaves.  The limit must leave
room for one attempt more in 32 bits, so that an entry that can count no further is beyond it. -/
theorem snd_attempt_eq_answer (small : config.maxAttempts.toNat < UInt32.size - 1)
    (tried : 1 ≤ rate.attempts.toNat) (now : Nat) :
    (rate.attempt config now).2 = answer config (rate.attempt config now).1 := by
  have hattempted := attempted config now rate
  generalize rate.attempt config now = after at hattempted ⊢
  cases hattempted with
  | refused block locked => exact (answer_of_blocked (by simp [block])).symm
  | released block passed => exact (answer_of_counting ⟨rfl, Nat.le_max_left 1 _⟩).symm
  | rested free pause => exact (answer_of_counting ⟨rfl, Nat.le_max_left 1 _⟩).symm
  | uncounted free active last =>
    have htwo : 2 < UInt32.size := by decide
    have hbeyond : config.limit < rate.attempts.toNat := by
      unfold LimiterConfig.limit
      omega
    exact (answer_of_beyond free hbeyond).symm
  | exceeded free active next full told => exact (answer_of_blocked (Option.some_ne_none _)).symm
  | endless free active next full beyond =>
    exact (answer_of_beyond rfl (limit_lt tried next full)).symm
  | counted free active next room =>
    exact (answer_of_counting ⟨rfl, Nat.le_trans room (Nat.le_max_right 1 _)⟩).symm

/-! ## One call -/

/-- The entry of a client is the one that is found under its name. -/
theorem client?_of_mem {entry : String × ClientRate} (h : limiter.Distinct)
    (hmem : entry ∈ limiter.clients) : limiter.client? entry.1 = some entry.2 := by
  obtain ⟨config, clients⟩ := limiter
  show (clients.find? (·.1 = entry.1)).map (·.2) = some entry.2
  unfold Distinct at h
  induction clients with
  | nil => cases hmem
  | cons first rest ih =>
    rw [List.map_cons, List.nodup_cons] at h
    rcases List.mem_cons.1 hmem with rfl | hrest
    · simp
    · have hother : first.1 ≠ entry.1 := by
        intro hsame
        apply h.1
        rw [hsame]
        exact List.mem_map_of_mem hrest
      simpa [hother] using ih h.2 hrest

/-- Only an attempt of a client gives it an entry that it did not have. -/
theorem client?_call_cases (h : limiter.Distinct) {call : LimiterCall}
    (hentry : (limiter.call call).1.client? client = some rate) :
    limiter.client? client = some rate ∨ ∃ now, call = .attempt client now := by
  rw [client?_call h] at hentry
  cases call with
  | attempt name now =>
    by_cases hname : name = client
    · exact Or.inr ⟨now, by rw [hname]⟩
    · simp only [if_neg hname] at hentry
      exact Or.inl hentry
  | sweep now => exact Or.inl (Option.filter_eq_some_iff.1 hentry).1
  | stats now => exact Or.inl hentry
  | reset name =>
    by_cases hname : name = client
    · simp only [if_pos hname] at hentry
      cases hentry
    · simp only [if_neg hname] at hentry
      exact Or.inl hentry

/-- The entry of a client after an attempt tells the answer. -/
theorem snd_attempt_of_client? (small : limiter.config.maxAttempts.toNat < UInt32.size - 1)
    (tried : ∀ rate, limiter.client? client = some rate → 1 ≤ rate.attempts.toNat)
    (hentry : (limiter.attempt client now).1.client? client = some rate) :
    (limiter.attempt client now).2 = answer limiter.config rate := by
  rw [client?_attempt, if_pos rfl, Option.some.injEq] at hentry
  rw [snd_attempt, ← hentry]
  cases hclient : limiter.client? client with
  | none => exact (answer_of_counting ⟨rfl, Nat.le_max_left 1 _⟩).symm
  | some before => exact snd_attempt_eq_answer small (tried before hclient) now

/-- Whether all entries of a limiter have a property. -/
def All (holds : ClientRate → Prop) (limiter : Limiter) : Prop :=
  ∀ client rate, limiter.client? client = some rate → holds rate

/-- What a first attempt gives an entry, and what attempts keep, calls keep. -/
theorem All.call {holds : ClientRate → Prop} (hall : limiter.All holds) (h : limiter.Distinct)
    {call : LimiterCall}
    (first : ∀ client now, call = .attempt client now → holds (ClientRate.first now))
    (next : ∀ client now rate, call = .attempt client now → holds rate →
      holds (rate.attempt limiter.config now).1) :
    (limiter.call call).1.All holds := by
  intro client rate hentry
  rcases client?_call_cases h hentry with hbefore | ⟨now, rfl⟩
  · exact hall client rate hbefore
  · replace hentry : (limiter.attempt client now).1.client? client = some rate := hentry
    rw [client?_attempt, if_pos rfl, Option.some.injEq] at hentry
    rw [← hentry]
    cases hclient : limiter.client? client with
    | none => exact first client now rfl
    | some before => exact next client now before rfl (hall client before hclient)

/-! ## Runs -/

theorem All.after {holds : ClientRate → Prop} (hall : limiter.All holds) (h : limiter.Distinct)
    {calls : List LimiterCall}
    (first : ∀ client now, .attempt client now ∈ calls → holds (ClientRate.first now))
    (next : ∀ client now rate, .attempt client now ∈ calls → holds rate →
      holds (rate.attempt limiter.config now).1) :
    (limiter.after calls).All holds := by
  induction calls generalizing limiter with
  | nil => exact hall
  | cons call more ih =>
    have hnext : (limiter.call call).1.All holds :=
      hall.call h (fun client now heq => first client now (heq ▸ List.mem_cons_self))
        fun client now rate heq => next client now rate (heq ▸ List.mem_cons_self)
    apply ih hnext (distinct_call h call)
    · exact fun client now hmem => first client now (List.mem_cons_of_mem _ hmem)
    · intro client now rate hmem
      rw [config_call]
      exact next client now rate (List.mem_cons_of_mem _ hmem)

/-- A limiter that has seen nobody has no entries. -/
theorem all_empty (config : LimiterConfig) (holds : ClientRate → Prop) :
    (empty config).All holds := by
  intro client rate hentry
  cases hentry

/-- All entries that a run leaves are regular. -/
theorem all_regular (config : LimiterConfig) (calls : List LimiterCall) :
    ((empty config).after calls).All (Regular config) :=
  (all_empty config _).after (distinct_empty config) (fun _ now _ => regular_first config now)
    fun _ now _ _ hregular => hregular.attempt now

/-- Whether the clock can tell, from every attempt of a run on, when a lockout would end. -/
def Timely (config : LimiterConfig) (calls : List LimiterCall) : Prop :=
  ∀ client now, .attempt client now ∈ calls → now + config.block ≤ clockEnd

/-- If the clock can tell the ends of lockouts, all entries that a run leaves are as they are meant
to be. -/
theorem all_asMeant {calls : List LimiterCall} (timely : Timely config calls) :
    ((empty config).after calls).All (AsMeant config) :=
  (all_empty config _).after (distinct_empty config) (fun _ now _ => asMeant_first config now)
    fun client now _ hmem hmeant => hmeant.attempt (timely client now hmem)

/-- Whether, of the calls of a run, the one between `front` and `back` is the last to change the
entry of a client. -/
structure LastChange (limiter : Limiter) (client : String) (front : List LimiterCall)
    (call : LimiterCall) (back : List LimiterCall) : Prop where
  changed : (limiter.after (front ++ [call])).client? client ≠ (limiter.after front).client? client
  kept : ∀ mid, mid <+: back →
    (limiter.after (front ++ call :: mid)).client? client =
      (limiter.after (front ++ [call])).client? client

/-- A call that does not touch the entry of a client comes behind the last one that did. -/
theorem LastChange.snoc {front back : List LimiterCall} {call next : LimiterCall}
    (h : LastChange limiter client front call back)
    (hsame : (limiter.after (front ++ call :: (back ++ [next]))).client? client =
      (limiter.after (front ++ [call])).client? client) :
    LastChange limiter client front call (back ++ [next]) where
  changed := h.changed
  kept := by
    intro mid hmid
    rcases List.prefix_concat_iff.1 hmid with rfl | hmid
    · exact hsame
    · exact h.kept mid hmid

/-- Every entry comes from an attempt of its client, and the answer to that attempt can be told from
it. -/
theorem exists_lastChange (small : config.maxAttempts.toNat < UInt32.size - 1)
    {calls : List LimiterCall}
    (hentry : ((empty config).after calls).client? client = some rate) :
    ∃ front now back, calls = front ++ .attempt client now :: back ∧
      LastChange (empty config) client front (.attempt client now) back ∧
      (((empty config).after front).attempt client now).2 = answer config rate := by
  induction calls using List.reverseRecOn with
  | nil => cases hentry
  | append_singleton calls call ih =>
    have hdistinct := distinct_after (distinct_empty config) calls
    by_cases hbefore : ((empty config).after calls).client? client = some rate
    · obtain ⟨front, now, back, rfl, hlast, hanswer⟩ := ih hbefore
      refine ⟨front, now, back ++ [call], by simp, hlast.snoc ?_, hanswer⟩
      rw [← hlast.kept back (List.prefix_refl back), hbefore, ← hentry]
      simp
    · rw [after_append] at hentry
      rcases client?_call_cases hdistinct hentry with hsame | ⟨now, rfl⟩
      · exact absurd hsame hbefore
      · refine ⟨calls, now, [], rfl, ⟨?_, ?_⟩, ?_⟩
        · rw [after_append]
          exact fun hsame => hbefore (hsame.symm.trans hentry)
        · intro mid hmid
          rw [List.prefix_nil.1 hmid]
        · have hconfig : ((empty config).after calls).config = config :=
            config_after (empty config) calls
          have hanswer := snd_attempt_of_client? (by rwa [hconfig])
            (fun rate hrate => (all_regular config calls client rate hrate).tried) hentry
          rwa [hconfig] at hanswer

/-- What a run leaves behind. -/
structure Settled (config : LimiterConfig) (calls : List LimiterCall) : Prop where
  regular : ∀ entry ∈ ((empty config).after calls).clients, Regular config entry.2
  /-- If the clock can tell when lockouts end, there are but the two forms that are meant. -/
  meant : Timely config calls →
    ∀ entry ∈ ((empty config).after calls).clients, AsMeant config entry.2
  /-- Short of an overrun, an entry that counts can count one attempt more in 32 bits. -/
  fits : ∀ entry ∈ ((empty config).after calls).clients, entry.2.blockedUntil = none →
    ¬Overrun config entry.2 → entry.2.attempts.toNat + 1 < UInt32.size
  /-- An entry was last changed by an attempt of its client.  That attempt was refused if and only
  if the entry is locked out, and it gave up if and only if the entry is an overrun. -/
  verdict : ∀ entry ∈ ((empty config).after calls).clients, ∃ front now back,
    calls = front ++ .attempt entry.1 now :: back ∧
      LastChange (empty config) entry.1 front (.attempt entry.1 now) back ∧
      ((((empty config).after front).attempt entry.1 now).2 = some false ↔
        entry.2.blockedUntil ≠ none) ∧
      ((((empty config).after front).attempt entry.1 now).2 = none ↔ Overrun config entry.2)

/-- In every run of a limiter that has seen nobody, with times in any order, every entry counts
attempts up to the limit, is locked out beyond it, or was left there by a call that gave up because
the clock could not tell when the lockout would end.  The limit must leave room for one attempt more
in 32 bits. -/
theorem settled_after (config : LimiterConfig)
    (small : config.maxAttempts.toNat < UInt32.size - 1) (calls : List LimiterCall) :
    Settled config calls := by
  have hdistinct := distinct_after (distinct_empty config) calls
  have hregular : ∀ entry ∈ ((empty config).after calls).clients, Regular config entry.2 :=
    fun entry hmem => all_regular config calls _ _ (client?_of_mem hdistinct hmem)
  refine ⟨hregular, fun timely entry hmem => ?_, fun entry hmem free hno => ?_,
    fun entry hmem => ?_⟩
  · exact all_asMeant timely _ _ (client?_of_mem hdistinct hmem)
  · rcases (hregular entry hmem).state with hcounting | hlocked | hoverrun
    · -- Two attempts fit even where the limit allows none.
      have htwo : 2 < UInt32.size := by decide
      have hfew : entry.2.attempts.toNat ≤ max 1 config.maxAttempts.toNat := hcounting.2
      omega
    · rw [hlocked.1] at free
      cases free
    · exact absurd hoverrun hno
  · obtain ⟨front, now, back, hcalls, hlast, hanswer⟩ :=
      exists_lastChange small (client?_of_mem hdistinct hmem)
    refine ⟨front, now, back, hcalls, hlast, ?_, ?_⟩
    · rw [hanswer, answer_eq_false_iff]
    · rw [hanswer, (hregular entry hmem).answer_eq_none_iff]

/-- Attempts at times that go back and forth: the first client is locked out and the second lets a
window pass. -/
def sampleBackwards : List LimiterCall :=
  [.attempt "a" 500, .attempt "b" 40, .attempt "a" 20, .sweep 0, .attempt "a" 10, .reset "c",
    .attempt "b" 900, .attempt "a" 3]

theorem settled_after_sample :
    Settled ⟨2, 100, 300⟩ sampleBackwards ∧
      ((empty ⟨2, 100, 300⟩).after sampleBackwards).clients =
        [("a", ⟨3, 10, some 310⟩), ("b", ⟨1, 900, none⟩)] :=
  ⟨settled_after ⟨2, 100, 300⟩ (by decide) sampleBackwards, by decide⟩

/-- One attempt in a minute, and the longest lockout that can be set in seconds. -/
def longBlock : LimiterConfig :=
  .ofSeconds 1 60 (UInt64.size - 1)

/-- The second attempt gives up.  It has been counted by then, and the client is not locked out. -/
theorem settled_overrun :
    (empty longBlock).history [.attempt "a" 0, .attempt "a" 0] =
        [(.attempt "a" 0, .verdict (some true)), (.attempt "a" 0, .verdict none)] ∧
      ((empty longBlock).after [.attempt "a" 0, .attempt "a" 0]).client? "a" =
        some ⟨2, 0, none⟩ ∧
      ¬AsMeant longBlock ⟨2, 0, none⟩ := by
  refine ⟨by decide +kernel, by decide +kernel, fun h => ?_⟩
  have hoverrun : Overrun longBlock ⟨2, 0, none⟩ := by decide +kernel
  rcases h.state with hcounting | hlocked
  · exact absurd hcounting.2 (Nat.not_le.2 hoverrun.2.1)
  · cases hlocked.1.1

end Limiter

end CardGate
