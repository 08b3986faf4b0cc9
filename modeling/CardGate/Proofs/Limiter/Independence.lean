import CardGate.Proofs.Limiter.Run

/-!
# Clients do not see each other, nor the sweeps

What a limiter answers to a client depends on the calls of that client alone.  The statement
compares two runs: one with the calls of everybody, and one with nothing but the attempts and the
resets of one client.

The two limiters need not know the same.  A sweep forgets a client whose window and lockout have
passed, and where nothing was swept the entry is still there.  `Shadows` is how the two entries are
related, and it lasts because what has lapsed stays so while time goes on (`Lapsed.later`).  An
attempt ends it, for a client that has lapsed is treated like a new one (`attempt_of_lapsed`).
-/

namespace CardGate

/-- Whether a call is an attempt or a reset of a client. -/
def LimiterCall.concerns (client : String) : LimiterCall → Bool
  | attempt name _ => name = client
  | reset name => name = client
  | sweep _ => false
  | stats _ => false

/-- The answer to a call, if the call is an attempt of a client.  Giving up counts as an answer. -/
def LimiterCall.verdict? (client : String) : LimiterCall × LimiterAnswer → Option (Option Bool)
  | (.attempt name _, .verdict allowed) => if name = client then some allowed else none
  | _ => none

namespace Limiter

/-- What the attempts of a client are answered in a run, in order. -/
def verdicts (limiter : Limiter) (client : String) (calls : List LimiterCall) :
    List (Option Bool) :=
  (limiter.history calls).filterMap (LimiterCall.verdict? client)

variable {config : LimiterConfig} {client : String} {before now : Nat}

/-! ## Entries that have lapsed -/

/-- Whether nothing that is known of a client counts any more. -/
def Lapsed (config : LimiterConfig) (now : Nat) (rate : ClientRate) : Prop :=
  rate.isBlocked now = false ∧ rate.isActive config.window now = false

theorem lapsed_iff {rate : ClientRate} :
    Lapsed config now rate ↔
      (∀ blockEnd, rate.blockedUntil = some blockEnd → blockEnd ≤ now) ∧
        config.window ≤ now - rate.lastAttempt := by
  rw [Lapsed, ClientRate.isBlocked, ClientRate.isActive, decide_eq_false_iff_not, Nat.not_lt]
  cases rate.blockedUntil with
  | none => simp
  | some blockEnd => simp

/-- What has lapsed stays so. -/
theorem Lapsed.later {rate : ClientRate} (h : Lapsed config before rate) (hlater : before ≤ now) :
    Lapsed config now rate := by
  rw [lapsed_iff] at h ⊢
  obtain ⟨hblock, hpause⟩ := h
  refine ⟨fun blockEnd hend => ?_, ?_⟩
  · exact Nat.le_trans (hblock blockEnd hend) hlater
  · omega

/-- A client whose entry has lapsed is treated like one that was never seen. -/
theorem attempt_of_lapsed {rate : ClientRate} (h : Lapsed config now rate) :
    rate.attempt config now = (ClientRate.first now, some true) := by
  obtain ⟨hblock, hpause⟩ := lapsed_iff.1 h
  have hattempted := attempted config now rate
  generalize rate.attempt config now = after at hattempted ⊢
  cases hattempted with
  | refused block locked => exact absurd locked (Nat.not_lt.2 (hblock _ block))
  | released block passed => rfl
  | rested free pause => rfl
  | uncounted free active last => exact absurd active (Nat.not_lt.2 hpause)
  | exceeded free active next full told => exact absurd active (Nat.not_lt.2 hpause)
  | endless free active next full beyond => exact absurd active (Nat.not_lt.2 hpause)
  | counted free active next room => exact absurd active (Nat.not_lt.2 hpause)

/-- A sweep keeps the entries that have not lapsed. -/
theorem isLive_eq_false_iff {limiter : Limiter} {rate : ClientRate} :
    limiter.isLive now rate = false ↔ Lapsed limiter.config now rate :=
  Bool.or_eq_false_iff

/-! ## Two entries of one client -/

/-- What a limiter knows of a client, and what it would know if the client were alone: the same, or
nothing where the other entry has lapsed. -/
inductive Shadows (config : LimiterConfig) (now : Nat) :
    Option ClientRate → Option ClientRate → Prop
  | same (entry : Option ClientRate) : Shadows config now entry entry
  | forgotten {rate : ClientRate} (lapsed : Lapsed config now rate) :
      Shadows config now none (some rate)

theorem Shadows.later {entry alone : Option ClientRate} (h : Shadows config before entry alone)
    (hlater : before ≤ now) : Shadows config now entry alone := by
  cases h with
  | same entry => exact .same entry
  | forgotten lapsed => exact .forgotten (lapsed.later hlater)

/-- What an entry, or its absence, makes of an attempt. -/
def attemptFrom (config : LimiterConfig) (now : Nat) (entry : Option ClientRate) :
    ClientRate × Option Bool :=
  match entry with
  | none => (ClientRate.first now, some true)
  | some rate => rate.attempt config now

/-- Related entries make the same of an attempt. -/
theorem Shadows.attemptFrom_eq {entry alone : Option ClientRate}
    (h : Shadows config now entry alone) :
    attemptFrom config now entry = attemptFrom config now alone := by
  cases h with
  | same entry => rfl
  | forgotten lapsed => exact (attempt_of_lapsed lapsed).symm

/-- A sweep of the limiter with everybody does not show. -/
theorem Shadows.sweep {limiter : Limiter} {entry alone : Option ClientRate}
    (h : Shadows limiter.config now entry alone) :
    Shadows limiter.config now (entry.filter (limiter.isLive now)) alone := by
  cases h with
  | same entry =>
    cases entry with
    | none => exact .same none
    | some rate =>
      by_cases hlive : limiter.isLive now rate = true
      · rw [Option.filter_some_pos hlive]
        exact .same (some rate)
      · rw [Option.filter_some_neg (Bool.eq_false_iff.2 hlive)]
        exact .forgotten (isLive_eq_false_iff.1 (Bool.eq_false_iff.2 hlive))
  | forgotten lapsed => exact .forgotten lapsed

theorem client?_attempt_self (limiter : Limiter) (client : String) (now : Nat) :
    (limiter.attempt client now).1.client? client =
      some (attemptFrom limiter.config now (limiter.client? client)).1 := by
  rw [client?_attempt, if_pos rfl]
  cases limiter.client? client <;> rfl

theorem snd_attempt_self (limiter : Limiter) (client : String) (now : Nat) :
    (limiter.attempt client now).2 =
      (attemptFrom limiter.config now (limiter.client? client)).2 := by
  rw [snd_attempt]
  cases limiter.client? client <;> rfl

/-! ## Two limiters -/

/-- A limiter with everybody and one with a client alone, in the middle of their runs. -/
structure Mirrors (client : String) (now : Nat) (limiter alone : Limiter) : Prop where
  config_eq : alone.config = limiter.config
  distinct : limiter.Distinct
  entry : Shadows limiter.config now (limiter.client? client) (alone.client? client)

/-- An attempt of the client is answered alike. -/
theorem Mirrors.attempt {limiter alone : Limiter} (h : Mirrors client before limiter alone)
    (hlater : before ≤ now) :
    (limiter.attempt client now).2 = (alone.attempt client now).2 ∧
      Mirrors client now (limiter.attempt client now).1 (alone.attempt client now).1 := by
  have hsame := (h.entry.later hlater).attemptFrom_eq
  refine ⟨?_, h.config_eq, distinct_call h.distinct (.attempt client now), ?_⟩
  · rw [snd_attempt_self, snd_attempt_self, h.config_eq, hsame]
  · rw [client?_attempt_self, client?_attempt_self, h.config_eq, hsame]
    exact .same _

/-- A reset of the client leaves nothing of it in either limiter. -/
theorem Mirrors.reset {limiter alone : Limiter} (h : Mirrors client now limiter alone) :
    Mirrors client now (limiter.reset client) (alone.reset client) := by
  refine ⟨h.config_eq, distinct_call h.distinct (.reset client), ?_⟩
  rw [client?_reset, client?_reset, if_pos rfl, if_pos rfl]
  exact .same none

/-- Any other call can be left out. -/
theorem Mirrors.skip {limiter alone : Limiter} (h : Mirrors client before limiter alone)
    {call : LimiterCall} (hother : call.concerns client = false)
    (hlater : ∀ time, call.time? = some time → before ≤ time) :
    Mirrors client (call.time?.getD before) (limiter.call call).1 alone := by
  refine ⟨h.config_eq.trans (config_call limiter call).symm, distinct_call h.distinct call, ?_⟩
  rw [config_call, client?_call h.distinct]
  cases call with
  | attempt name now =>
    rw [LimiterCall.concerns, decide_eq_false_iff_not] at hother
    simp only [if_neg hother]
    exact h.entry.later (hlater now rfl)
  | sweep now => exact (h.entry.later (hlater now rfl)).sweep
  | stats now => exact h.entry.later (hlater now rfl)
  | reset name =>
    rw [LimiterCall.concerns, decide_eq_false_iff_not] at hother
    simp only [if_neg hother]
    exact h.entry

/-! ## Runs -/

theorem verdicts_cons (limiter : Limiter) (client : String) (call : LimiterCall)
    (more : List LimiterCall) :
    limiter.verdicts client (call :: more) =
      (LimiterCall.verdict? client (call, (limiter.call call).2)).toList ++
        (limiter.call call).1.verdicts client more :=
  filterMap_history_cons (LimiterCall.verdict? client) limiter call more

theorem verdict?_of_not_concerns (limiter : Limiter) {call : LimiterCall}
    (h : call.concerns client = false) :
    LimiterCall.verdict? client (call, (limiter.call call).2) = none := by
  cases call with
  | attempt name now =>
    rw [LimiterCall.concerns, decide_eq_false_iff_not] at h
    exact if_neg h
  | _ => rfl

/-- From limiters that mirror each other, the rest of a run is answered alike. -/
theorem Mirrors.verdicts_eq {limiter alone : Limiter} (h : Mirrors client before limiter alone)
    {calls : List LimiterCall} (ordered : InOrder before calls) :
    limiter.verdicts client calls = alone.verdicts client (calls.filter (·.concerns client)) := by
  induction calls generalizing limiter alone before with
  | nil => rfl
  | cons call more ih =>
    obtain ⟨hlater, hmore⟩ := ordered.of_cons
    rw [verdicts_cons]
    by_cases hconcerns : call.concerns client = true
    · rw [List.filter_cons_of_pos hconcerns, verdicts_cons]
      cases call with
      | attempt name now =>
        cases of_decide_eq_true hconcerns
        obtain ⟨hverdict, hnext⟩ := h.attempt (hlater now rfl)
        have hanswer : (limiter.call (.attempt client now)).2 =
            (alone.call (.attempt client now)).2 := congrArg LimiterAnswer.verdict hverdict
        rw [hanswer]
        exact congrArg _ (ih hnext hmore)
      | reset name =>
        cases of_decide_eq_true hconcerns
        exact ih h.reset hmore
      | sweep now => cases hconcerns
      | stats now => cases hconcerns
    · rw [Bool.not_eq_true] at hconcerns
      rw [List.filter_cons_of_neg (Bool.eq_false_iff.1 hconcerns),
        verdict?_of_not_concerns limiter hconcerns]
      exact ih (h.skip hconcerns hlater) hmore

/-- In every run of a limiter that has seen nobody, the attempts of a client are answered as in the
run of that client's attempts and resets alone, without the calls for other clients, the sweeps and
the counts.  The times must not go back. -/
theorem verdicts_alone (config : LimiterConfig) (calls : List LimiterCall)
    (ordered : (calls.filterMap LimiterCall.time?).Pairwise (· ≤ ·)) (client : String) :
    (empty config).verdicts client calls =
      (empty config).verdicts client (calls.filter (·.concerns client)) := by
  have hstart : Mirrors client 0 (empty config) (empty config) :=
    ⟨rfl, distinct_empty config, .same none⟩
  exact hstart.verdicts_eq (InOrder.start ordered)

/-- Two clients and two sweeps.  The first sweep finds the client locked out and keeps its entry,
the second forgets it. -/
def sampleTraffic : List LimiterCall :=
  [.attempt "a" 0, .attempt "b" 5, .attempt "a" 10, .sweep 20, .attempt "a" 30, .stats 40,
    .sweep 250, .attempt "a" 260, .reset "b", .attempt "a" 270, .reset "a", .attempt "a" 280]

theorem verdicts_alone_sample :
    (sampleTraffic.filter (·.concerns "a")).length = 7 ∧
      (empty ⟨1, 100, 200⟩).verdicts "a" sampleTraffic =
        [some true, some false, some false, some true, some false, some true] ∧
      (empty ⟨1, 100, 200⟩).verdicts "a" sampleTraffic =
        (empty ⟨1, 100, 200⟩).verdicts "a" (sampleTraffic.filter (·.concerns "a")) :=
  ⟨by decide, by decide, verdicts_alone ⟨1, 100, 200⟩ sampleTraffic (by decide) "a"⟩

end Limiter

end CardGate
