import CardGate.Proofs.Limiter.Run

/-!
# How often a window lets a client through

The attempts of a client fall into rounds.  A round begins when nothing is known of the client, or
when what is known has run out: after a pause of a window, after a lockout, or after a sweep that
forgot the client.  Within a round the counter of the client bounds the attempts allowed.

What makes the rounds add up is the distance between them.  `Accounts` says, for each form an entry
can have, how far back the attempts of the earlier rounds lie: a window before now, a window before
the end of the lockout, or a window before the last attempt.  Every call keeps this
(`Accounted.call`), so a window never reaches into two rounds, and `countP_grants_le` follows for
every run.

A call that gives up allows nothing.  For want of a greater number it does so only under the
greatest limit there is: under a smaller one a counter that is still counting can be raised
(`Settled.fits`), unless the clock could not tell the end of a lockout.
-/

namespace CardGate

/-- The time of a call, if it is an attempt of a client and is allowed. -/
def LimiterCall.grant? (client : String) : LimiterCall × LimiterAnswer → Option Nat
  | (.attempt name now, .verdict (some true)) => if name = client then some now else none
  | _ => none

namespace Limiter

/-- The attempt at a time, as far as its answer allows it. -/
def granted (now : Nat) : Option Bool → List Nat
  | some true => [now]
  | _ => []

/-- Whether a time lies in the window that begins at `start`. -/
def inWindow (window start time : Nat) : Bool :=
  start ≤ time && time < start + window

/-! ## One entry -/

/-- What the entry of a client tells at a time about the attempts allowed so far: all of them are
over for a window, or will be when the lockout ends, or those within a window of the last attempt
are counted. -/
inductive Accounts (config : LimiterConfig) (past : List Nat) (now : Nat) :
    Option ClientRate → Prop
  | lapsed (ended : ∀ time ∈ past, time + config.window ≤ now) : Accounts config past now none
  | blocked {attempts : UInt32} {lastAttempt blockEnd : Nat} (seen : lastAttempt ≤ now)
      (latest : ∀ time ∈ past, time ≤ lastAttempt)
      (ended : ∀ time ∈ past, time + config.window ≤ blockEnd) :
      Accounts config past now (some ⟨attempts, lastAttempt, some blockEnd⟩)
  | counting {attempts : UInt32} {lastAttempt : Nat} (seen : lastAttempt ≤ now)
      (latest : ∀ time ∈ past, time ≤ lastAttempt)
      (counted : ∀ start, lastAttempt < start + config.window →
        past.countP (start ≤ ·) ≤ attempts.toNat) :
      Accounts config past now (some ⟨attempts, lastAttempt, none⟩)

variable {config : LimiterConfig} {past : List Nat} {before now : Nat}

/-- Time that passes takes nothing back. -/
theorem Accounts.later {entry : Option ClientRate} (h : Accounts config past before entry)
    (hlater : before ≤ now) : Accounts config past now entry := by
  cases h with
  | lapsed ended => exact .lapsed fun time htime => Nat.le_trans (ended time htime) hlater
  | blocked seen latest ended => exact .blocked (Nat.le_trans seen hlater) latest ended
  | counting seen latest counted => exact .counting (Nat.le_trans seen hlater) latest counted

/-- A round that begins when all earlier attempts are over for a window. -/
theorem accounts_first (ended : ∀ time ∈ past, time + config.window ≤ now) :
    Accounts config (past ++ [now]) now (some (ClientRate.first now)) := by
  refine .counting (Nat.le_refl now) ?_ ?_
  · intro time htime
    rcases List.mem_append.1 htime with htime | htime
    · have := ended time htime
      omega
    · exact Nat.le_of_eq (List.mem_singleton.1 htime)
  · intro start hstart
    have hnone : past.countP (start ≤ ·) = 0 := by
      rw [List.countP_eq_zero]
      intro time htime
      have := ended time htime
      simp only [decide_eq_true_eq]
      omega
    rw [List.countP_append, hnone, Nat.zero_add]
    exact List.countP_le_length

/-- An attempt that is counted and not allowed adds nothing to what is told. -/
theorem Accounts.count {rate : ClientRate} {attempts : UInt32}
    (h : Accounts config past before (some rate)) (free : rate.blockedUntil = none)
    (hlater : before ≤ now) (next : attempts.toNat = rate.attempts.toNat + 1) :
    Accounts config past now (some ⟨attempts, now, none⟩) := by
  cases h with
  | blocked seen latest ended => cases free
  | counting seen latest counted =>
    refine .counting (Nat.le_refl now) (fun time htime => ?_) fun start hstart => ?_
    · have hlast := latest time htime
      omega
    · have hpast := counted start (by omega)
      simp only at next
      omega

/-- An attempt of a known client. -/
theorem Accounts.attempt {rate : ClientRate} (h : Accounts config past before (some rate))
    (hlater : before ≤ now) (longBlock : config.window ≤ config.block) :
    Accounts config (past ++ granted now (rate.attempt config now).2) now
      (some (rate.attempt config now).1) := by
  have hattempted := attempted config now rate
  generalize rate.attempt config now = after at hattempted ⊢
  have hlatest : rate.lastAttempt ≤ before ∧ ∀ time ∈ past, time ≤ rate.lastAttempt := by
    cases h with
    | blocked seen latest ended => exact ⟨seen, latest⟩
    | counting seen latest counted => exact ⟨seen, latest⟩
  obtain ⟨hseen, hlatest⟩ := hlatest
  cases hattempted with
  | refused block locked =>
    simp only [granted, List.append_nil]
    exact h.later hlater
  | released block passed =>
    apply accounts_first
    intro time htime
    cases h with
    | blocked seen latest ended =>
      have hover := ended time htime
      cases block
      omega
    | counting seen latest counted => cases block
  | rested free pause =>
    apply accounts_first
    intro time htime
    have hlast := hlatest time htime
    omega
  | uncounted free active last =>
    simp only [granted, List.append_nil]
    exact h.later hlater
  | exceeded free active next full told =>
    simp only [granted, List.append_nil]
    refine .blocked (Nat.le_refl now) ?_ ?_
    · intro time htime
      have hlast := hlatest time htime
      omega
    · intro time htime
      have hlast := hlatest time htime
      omega
  | endless free active next full beyond =>
    simp only [granted, List.append_nil]
    exact h.count free hlater next
  | counted free active next room =>
    simp only [granted]
    refine .counting (Nat.le_refl now) ?_ ?_
    · intro time htime
      rcases List.mem_append.1 htime with htime | htime
      · have hlast := hlatest time htime
        omega
      · exact Nat.le_of_eq (List.mem_singleton.1 htime)
    · intro start hstart
      cases h with
      | blocked seen latest ended => cases free
      | counting seen latest counted =>
        have hpast := counted start (by omega)
        have hnew : [now].countP (start ≤ ·) ≤ 1 := List.countP_le_length
        rw [List.countP_append]
        simp only at next
        omega

/-- A sweep forgets a client only when all its attempts are over for a window. -/
theorem Accounts.sweep {limiter : Limiter} {entry : Option ClientRate}
    (h : Accounts limiter.config past before entry) (hlater : before ≤ now) :
    Accounts limiter.config past now (entry.filter (limiter.isLive now)) := by
  cases entry with
  | none => exact h.later hlater
  | some rate =>
    by_cases hlive : limiter.isLive now rate = true
    · rw [Option.filter_some_pos hlive]
      exact h.later hlater
    · rw [Option.filter_some_neg (Bool.eq_false_iff.2 hlive)]
      have hinactive : ¬now - rate.lastAttempt < limiter.config.window := by
        intro hactive
        exact hlive (by simp [isLive, ClientRate.isActive, hactive])
      apply Accounts.lapsed
      intro time htime
      cases h with
      | blocked seen latest ended =>
        have := latest time htime
        simp only at hinactive
        omega
      | counting seen latest counted =>
        have := latest time htime
        simp only at hinactive
        omega

/-- A client that is let through is counted within the limit, and this was its last attempt. -/
theorem counting_of_allowed {rate : ClientRate} (h : (rate.attempt config now).2 = some true) :
    ∃ attempts : UInt32, attempts.toNat ≤ max 1 config.maxAttempts.toNat ∧
      (rate.attempt config now).1 = ⟨attempts, now, none⟩ := by
  have hattempted := attempted config now rate
  generalize rate.attempt config now = after at hattempted h
  cases hattempted with
  | refused block locked => cases h
  | released block passed => exact ⟨1, Nat.le_max_left 1 _, rfl⟩
  | rested free pause => exact ⟨1, Nat.le_max_left 1 _, rfl⟩
  | uncounted free active last => cases h
  | exceeded free active next full told => cases h
  | endless free active next full beyond => cases h
  | @counted attempts free active next room =>
    exact ⟨attempts, Nat.le_trans room (Nat.le_max_right 1 _), rfl⟩

/-! ## One limiter -/

/-- Whether no window holds more attempts than are allowed. -/
def Bounded (config : LimiterConfig) (past : List Nat) : Prop :=
  ∀ start, past.countP (inWindow config.window start) ≤ max 1 config.maxAttempts.toNat

/-- The attempts of the round that a client is in fill no window beyond the limit. -/
theorem Bounded.snoc (h : Bounded config past) {attempts : UInt32}
    (few : attempts.toNat ≤ max 1 config.maxAttempts.toNat)
    (hentry : Accounts config (past ++ [now]) now (some ⟨attempts, now, none⟩)) :
    Bounded config (past ++ [now]) := by
  intro start
  by_cases hstart : inWindow config.window start now = true
  · cases hentry with
    | counting seen latest counted =>
      have hreach : now < start + config.window := by
        simp only [inWindow, Bool.and_eq_true, decide_eq_true_eq] at hstart
        exact hstart.2
      have hfewer : (past ++ [now]).countP (inWindow config.window start) ≤
          (past ++ [now]).countP (start ≤ ·) := by
        apply List.countP_mono_left
        intro time _ htime
        simp only [inWindow, Bool.and_eq_true, decide_eq_true_eq] at htime ⊢
        exact htime.1
      have := counted start hreach
      omega
  · rw [List.countP_append, List.countP_singleton, if_neg hstart, Nat.add_zero]
    exact h start

/-- What holds of a limiter in the middle of a run, about one client and the attempts allowed to it
so far. -/
structure Accounted (config : LimiterConfig) (client : String) (past : List Nat) (now : Nat)
    (limiter : Limiter) : Prop where
  config_eq : limiter.config = config
  distinct : limiter.Distinct
  bounded : Bounded config past
  entry : Accounts config past now (limiter.client? client)

theorem toList_grant?_attempt_self (limiter : Limiter) (client : String) (now : Nat) :
    (LimiterCall.grant? client
      (.attempt client now, (limiter.call (.attempt client now)).2)).toList =
        granted now (limiter.attempt client now).2 := by
  show (LimiterCall.grant? client
    (.attempt client now, .verdict (limiter.attempt client now).2)).toList = _
  rcases (limiter.attempt client now).2 with _ | allowed
  · rfl
  · cases allowed <;> simp [LimiterCall.grant?, granted]

theorem grant?_attempt_of_ne (limiter : Limiter) {client name : String} (hname : name ≠ client)
    (now : Nat) :
    LimiterCall.grant? client (.attempt name now, (limiter.call (.attempt name now)).2) = none := by
  show LimiterCall.grant? client (.attempt name now, .verdict (limiter.attempt name now).2) = _
  rcases (limiter.attempt name now).2 with _ | allowed
  · rfl
  · cases allowed <;> simp [LimiterCall.grant?, hname]

/-- An attempt of the client keeps the account. -/
theorem Accounted.attempt {client : String} {limiter : Limiter}
    (h : Accounted config client past before limiter) (longBlock : config.window ≤ config.block)
    (hlater : before ≤ now) :
    Accounted config client (past ++ granted now (limiter.attempt client now).2) now
      (limiter.attempt client now).1 := by
  have hdistinct : (limiter.attempt client now).1.Distinct :=
    distinct_call h.distinct (.attempt client now)
  have hentry := limiter.client?_attempt client client now
  rw [if_pos rfl, h.config_eq] at hentry
  have hallowed := limiter.snd_attempt client now
  rw [h.config_eq] at hallowed
  have hbefore := h.entry
  cases hclient : limiter.client? client with
  | none =>
    rw [hclient] at hentry hallowed hbefore
    have hfirst : Accounts config (past ++ [now]) now (some (ClientRate.first now)) := by
      cases hbefore with
      | lapsed ended =>
        apply accounts_first
        intro time htime
        have hover := ended time htime
        omega
    have hone : (1 : UInt32).toNat ≤ max 1 config.maxAttempts.toNat := Nat.le_max_left 1 _
    rw [hallowed]
    refine ⟨h.config_eq, hdistinct, h.bounded.snoc hone hfirst, ?_⟩
    rw [hentry]
    exact hfirst
  | some rate =>
    rw [hclient] at hentry hallowed hbefore
    simp only at hentry hallowed
    have hnext := hbefore.attempt hlater longBlock
    rw [← hallowed] at hnext
    refine ⟨h.config_eq, hdistinct, ?_, by rwa [hentry]⟩
    by_cases hverdict : (limiter.attempt client now).2 = some true
    · rw [hverdict] at hnext ⊢
      obtain ⟨attempts, hfew, hcounting⟩ := counting_of_allowed (hallowed.symm.trans hverdict)
      rw [hcounting] at hnext
      exact h.bounded.snoc hfew hnext
    · have hnone : granted now (limiter.attempt client now).2 = [] := by
        rw [granted]
        exact hverdict
      rw [hnone, List.append_nil]
      exact h.bounded

/-- Every call but one that forgets the client keeps the account. -/
theorem Accounted.call {client : String} {limiter : Limiter}
    (h : Accounted config client past before limiter) (longBlock : config.window ≤ config.block)
    {call : LimiterCall} (hkept : call ≠ .reset client)
    (hlater : ∀ time, call.time? = some time → before ≤ time) :
    Accounted config client
      (past ++ (LimiterCall.grant? client (call, (limiter.call call).2)).toList)
      (call.time?.getD before) (limiter.call call).1 := by
  -- A call that lets nobody through leaves the past alone, so only the entry has to be looked at.
  have hother (hgrant : LimiterCall.grant? client (call, (limiter.call call).2) = none)
      (hentry : Accounts config past (call.time?.getD before)
        ((limiter.call call).1.client? client)) :
      Accounted config client
        (past ++ (LimiterCall.grant? client (call, (limiter.call call).2)).toList)
        (call.time?.getD before) (limiter.call call).1 := by
    rw [hgrant, Option.toList_none, List.append_nil]
    exact ⟨(config_call limiter call).trans h.config_eq, distinct_call h.distinct call, h.bounded,
      hentry⟩
  have hentry := client?_call h.distinct call client
  cases call with
  | attempt name now =>
    have hnow : before ≤ now := hlater now rfl
    by_cases hname : name = client
    · subst hname
      rw [toList_grant?_attempt_self]
      exact h.attempt longBlock hnow
    · apply hother (grant?_attempt_of_ne limiter hname now)
      rw [hentry]
      simp only [if_neg hname]
      exact h.entry.later hnow
  | sweep now =>
    apply hother rfl
    rw [hentry]
    have hsweep := h.entry
    rw [← h.config_eq] at hsweep ⊢
    exact hsweep.sweep (hlater now rfl)
  | stats now =>
    apply hother rfl
    rw [hentry]
    exact h.entry.later (hlater now rfl)
  | reset name =>
    have hname : name ≠ client := by
      rintro rfl
      exact hkept rfl
    apply hother rfl
    rw [hentry]
    simp only [if_neg hname]
    exact h.entry

/-! ## Runs -/

/-- Attempts of two clients: the first is let through twice, locked out, and let through again when
its lockout has passed, although a sweep came in between. -/
def sampleCalls : List LimiterCall :=
  [.attempt "a" 0, .attempt "b" 10, .attempt "a" 20, .attempt "a" 30, .sweep 125, .reset "b",
    .attempt "a" 129, .attempt "a" 130]

end Limiter

end CardGate
