import CardGate.Proofs.Limiter.Run

/-!
# A lockout lasts exactly as long as it is set for

The attempt that is one too many locks its client out until a time that is fixed then.  What a run
does after that, other clients' attempts, sweeps and counts and the retries of the client itself,
neither moves that time nor loses it.  `lockout_exact` says so for every continuation in which the
client is not forgotten on purpose.

`Holds` is what each call keeps: the entry is as the lockout left it, or the lockout is over and a
sweep has forgotten the client.  The second case cannot come early, for a sweep keeps an entry that
is blocked even if its window has long passed (`Holds.sweep`); and it does no harm late, for a
client that is not known is let through like one whose lockout has ended (`Holds.released`).
-/

namespace CardGate.Limiter

/-- When the lockout of a client ends, if there is one. -/
def lockoutEnd? (limiter : Limiter) (client : String) : Option Nat :=
  (limiter.client? client).bind (·.blockedUntil)

/-- Whether an attempt is the one that locks its client out: there is a lockout afterwards, and not
the one that was there before. -/
def LocksOut (limiter : Limiter) (client : String) (now : Nat) : Prop :=
  (limiter.attempt client now).1.lockoutEnd? client ≠ none ∧
    (limiter.attempt client now).1.lockoutEnd? client ≠ limiter.lockoutEnd? client

instance (limiter : Limiter) (client : String) (now : Nat) :
    Decidable (limiter.LocksOut client now) :=
  inferInstanceAs (Decidable (_ ∧ _))

variable {client : String} {attempts : UInt32} {start before now : Nat} {limiter : Limiter}

/-! ## Attempts -/

/-- The entry of a client that was locked out at `start`. -/
def lockedEntry (config : LimiterConfig) (attempts : UInt32) (start : Nat) : ClientRate :=
  ⟨attempts, start, some (start + config.block)⟩

/-- The attempt that locks a client out does so for the time that is configured. -/
theorem LocksOut.exists_entry (h : limiter.LocksOut client now) :
    ∃ attempts, (limiter.attempt client now).1.client? client =
      some (lockedEntry limiter.config attempts now) := by
  obtain ⟨hlocked, hnew⟩ := h
  unfold lockoutEnd? at hlocked hnew
  rw [client?_attempt, if_pos rfl, Option.bind_some] at hlocked hnew
  rw [client?_attempt, if_pos rfl]
  cases hclient : limiter.client? client with
  | none =>
    rw [hclient] at hlocked
    exact absurd rfl hlocked
  | some rate =>
    rw [hclient] at hlocked hnew
    simp only [Option.bind_some] at hlocked hnew ⊢
    have hattempted := attempted limiter.config now rate
    generalize rate.attempt limiter.config now = after at hattempted hlocked hnew ⊢
    cases hattempted with
    | refused block locked => exact absurd rfl hnew
    | released block passed => exact absurd rfl hlocked
    | rested free pause => exact absurd rfl hlocked
    | uncounted free active last => exact absurd rfl hnew
    | @exceeded attempts free active next full told => exact ⟨attempts, rfl⟩
    | endless free active next full beyond => exact absurd rfl hlocked
    | counted free active next room => exact absurd rfl hlocked

/-- An attempt that leaves the entry of its client as it is leaves all entries as they are. -/
theorem attemptIn_of_unchanged {config : LimiterConfig} {clients : List (String × ClientRate)}
    {rate : ClientRate} {allowed : Option Bool}
    (hclient : (clients.find? (·.1 = client)).map (·.2) = some rate)
    (hrate : rate.attempt config now = (rate, allowed)) :
    attemptIn config client now clients = (clients, allowed) := by
  induction clients with
  | nil => simp at hclient
  | cons entry rest ih =>
    obtain ⟨name, other⟩ := entry
    by_cases hname : name = client
    · have hother : other = rate := by simpa [hname] using hclient
      simp [attemptIn, hname, hother, hrate]
    · have hrest := ih (by simpa [hname] using hclient)
      simp [attemptIn, hname, hrest]

/-- While a lockout lasts an attempt is refused, and nothing comes of it. -/
theorem attempt_of_locked
    (hclient : limiter.client? client = some (lockedEntry limiter.config attempts start))
    (hnow : now < start + limiter.config.block) :
    limiter.attempt client now = (limiter, some false) := by
  have hrate : (lockedEntry limiter.config attempts start).attempt limiter.config now =
      (lockedEntry limiter.config attempts start, some false) := by
    simp [lockedEntry, ClientRate.attempt, hnow]
  unfold attempt
  rw [attemptIn_of_unchanged hclient hrate]

/-! ## One call -/

/-- A client was locked out at `start`.  The lockout is still there, or it is over and has been
swept away. -/
structure Holds (client : String) (attempts : UInt32) (start now : Nat) (limiter : Limiter) :
    Prop where
  distinct : limiter.Distinct
  entry : limiter.client? client = some (lockedEntry limiter.config attempts start) ∨
    limiter.client? client = none ∧ start + limiter.config.block ≤ now

/-- Until the lockout is over it is there. -/
theorem Holds.client?_eq (h : Holds client attempts start before limiter)
    (hnow : before < start + limiter.config.block) :
    limiter.client? client = some (lockedEntry limiter.config attempts start) := by
  rcases h.entry with hentry | ⟨-, hover⟩
  · exact hentry
  · omega

/-- An attempt when the lockout is over is allowed, and the client starts afresh. -/
theorem Holds.released (h : Holds client attempts start before limiter)
    (hnow : start + limiter.config.block ≤ now) :
    (limiter.attempt client now).2 = some true ∧
      (limiter.attempt client now).1.client? client = some (ClientRate.first now) := by
  rw [snd_attempt, client?_attempt, if_pos rfl]
  rcases h.entry with hentry | ⟨hentry, -⟩
  · have hrate : (lockedEntry limiter.config attempts start).attempt limiter.config now =
        (ClientRate.first now, some true) := by
      simp [lockedEntry, ClientRate.attempt, hnow]
    simp [hentry, hrate]
  · simp [hentry]

/-- A sweep does not forget the client before the lockout is over. -/
theorem Holds.sweep (h : Holds client attempts start before limiter) (hlater : before ≤ now) :
    Holds client attempts start now (limiter.sweep now).1 := by
  refine ⟨distinct_call h.distinct (.sweep now), ?_⟩
  show (limiter.sweep now).1.client? client =
      some (lockedEntry limiter.config attempts start) ∨
    (limiter.sweep now).1.client? client = none ∧ start + limiter.config.block ≤ now
  rw [client?_sweep h.distinct]
  rcases h.entry with hentry | ⟨hentry, hover⟩
  · rw [hentry]
    by_cases hlive : limiter.isLive now (lockedEntry limiter.config attempts start) = true
    · exact Or.inl (Option.filter_some_pos hlive)
    · refine Or.inr ⟨Option.filter_some_neg (Bool.eq_false_iff.2 hlive), ?_⟩
      simp [isLive, lockedEntry, ClientRate.isBlocked] at hlive
      omega
  · rw [hentry]
    exact Or.inr ⟨rfl, by omega⟩

/-- Every call keeps the lockout, but one that forgets the client and an attempt when the lockout is
over. -/
theorem Holds.call (h : Holds client attempts start before limiter) {call : LimiterCall}
    (kept : call ≠ .reset client)
    (early : ∀ now, call = .attempt client now → now < start + limiter.config.block)
    (hlater : ∀ time, call.time? = some time → before ≤ time) :
    Holds client attempts start (call.time?.getD before) (limiter.call call).1 := by
  -- A call that does not touch the entry keeps it, and time that passes ends no lockout anew.
  have hsame (hentry : (limiter.call call).1.client? client = limiter.client? client)
      (hnow : before ≤ call.time?.getD before) :
      Holds client attempts start (call.time?.getD before) (limiter.call call).1 := by
    refine ⟨distinct_call h.distinct call, ?_⟩
    rw [config_call, hentry]
    exact h.entry.imp_right fun hover => ⟨hover.1, by omega⟩
  cases call with
  | attempt name now =>
    have hnow : before ≤ now := hlater now rfl
    by_cases hname : name = client
    · subst hname
      have hover := early now rfl
      have hattempt := attempt_of_locked (h.client?_eq (by omega)) hover
      apply hsame _ hnow
      show (limiter.attempt name now).1.client? name = _
      rw [hattempt]
    · apply hsame _ hnow
      show (limiter.attempt name now).1.client? client = _
      rw [client?_attempt, if_neg hname]
  | sweep now => exact h.sweep (hlater now rfl)
  | stats now => exact hsame rfl (hlater now rfl)
  | reset name =>
    have hname : name ≠ client := fun heq => kept (heq ▸ rfl)
    apply hsame _ (Nat.le_refl before)
    show (limiter.reset name).client? client = _
    rw [client?_reset, if_neg hname]

/-! ## Runs -/

/-- Over a run the lockout stays, if the client is not forgotten and does not try when it is over. -/
theorem Holds.after (h : Holds client attempts start before limiter) {calls : List LimiterCall}
    (ordered : InOrder before calls) (kept : .reset client ∉ calls)
    (early : ∀ now, .attempt client now ∈ calls → now < start + limiter.config.block) :
    ∃ last ∈ before :: calls.filterMap LimiterCall.time?,
      Holds client attempts start last (limiter.after calls) := by
  induction calls generalizing limiter before with
  | nil => exact ⟨before, List.mem_cons_self, h⟩
  | cons call more ih =>
    obtain ⟨hlater, hmore⟩ := ordered.of_cons
    have hkept : call ≠ .reset client := fun heq => kept (heq ▸ List.mem_cons_self)
    have hnext := h.call hkept (fun now heq => early now (heq ▸ List.mem_cons_self)) hlater
    have hearly : ∀ now, .attempt client now ∈ more →
        now < start + (limiter.call call).1.config.block := by
      intro now hmem
      rw [config_call]
      exact early now (List.mem_cons_of_mem _ hmem)
    obtain ⟨last, hlast, hholds⟩ :=
      ih hnext hmore (fun hmem => kept (List.mem_cons_of_mem _ hmem)) hearly
    refine ⟨last, ?_, hholds⟩
    cases htime : call.time? with
    | none =>
      rw [htime] at hlast
      rw [List.filterMap_cons_none htime]
      exact hlast
    | some now =>
      rw [htime] at hlast
      rw [List.filterMap_cons_some htime]
      exact List.mem_cons_of_mem _ hlast

/-- How a limiter treats a client that was locked out at `start`, when the calls `since` have come
after that. -/
structure KeepsLockout (config : LimiterConfig) (client : String) (start : Nat)
    (since : List LimiterCall) (limiter : Limiter) : Prop where
  /-- Until the lockout is over, it ends when it was set to end. -/
  stays : (∀ time ∈ start :: since.filterMap LimiterCall.time?, time < start + config.block) →
    limiter.lockoutEnd? client = some (start + config.block)
  /-- Until then an attempt is refused, and it leaves all clients as they are. -/
  refused : ∀ now < start + config.block,
    (∀ time ∈ start :: since.filterMap LimiterCall.time?, time ≤ now) →
      limiter.attempt client now = (limiter, some false)
  /-- The first attempt from then on is allowed, and it counts as the first. -/
  released : ∀ now, start + config.block ≤ now →
    (∀ time, .attempt client time ∈ since → time < start + config.block) →
      (limiter.attempt client now).2 = some true ∧
        (limiter.attempt client now).1.client? client = some ⟨1, now, none⟩

/-- In every run of a limiter that has seen nobody, an attempt that locks its client out does so
until the time of the lockout has passed and no longer, whatever is called in between, as long as
the client is not forgotten on purpose.  The times must not go back. -/
theorem lockout_exact (config : LimiterConfig) {past since : List LimiterCall}
    (ordered : ((past ++ .attempt client start :: since).filterMap LimiterCall.time?).Pairwise
      (· ≤ ·))
    (locks : ((empty config).after past).LocksOut client start)
    (kept : .reset client ∉ since) :
    KeepsLockout config client start since
      ((empty config).after (past ++ .attempt client start :: since)) := by
  have hconfig : (((empty config).after past).attempt client start).1.config = config :=
    config_after (empty config) past
  have hdistinct : (((empty config).after past).attempt client start).1.Distinct :=
    distinct_call (distinct_after (distinct_empty config) past) (.attempt client start)
  have hsince : InOrder start since := by
    rw [List.filterMap_append] at ordered
    exact (List.pairwise_append.1 ordered).2.1
  obtain ⟨attempts, hentry⟩ := locks.exists_entry
  rw [config_after] at hentry
  rw [after_append]
  show KeepsLockout config client start since
    ((((empty config).after past).attempt client start).1.after since)
  generalize (((empty config).after past).attempt client start).1 = limiter at *
  subst hconfig
  have hstart : Holds client attempts start start limiter := ⟨hdistinct, Or.inl hentry⟩
  have hafter := config_after limiter since
  have hholds (early : ∀ time, .attempt client time ∈ since → time < start + limiter.config.block) :
      ∃ last ∈ start :: since.filterMap LimiterCall.time?,
        Holds client attempts start last (limiter.after since) :=
    hstart.after hsince kept early
  -- The attempts of the client in between are among the times of the run.
  have htimes {time : Nat} (hmem : .attempt client time ∈ since) :
      time ∈ start :: since.filterMap LimiterCall.time? :=
    List.mem_cons_of_mem _ (List.mem_filterMap.2 ⟨_, hmem, rfl⟩)
  refine ⟨fun hlasts => ?_, fun now hnow hlater => ?_, fun now hnow early => ?_⟩
  · obtain ⟨last, hlast, hheld⟩ := hholds fun time hmem => hlasts time (htimes hmem)
    have hclient := hheld.client?_eq (hafter ▸ hlasts last hlast)
    unfold lockoutEnd?
    rw [hclient, hafter]
    rfl
  · obtain ⟨last, hlast, hheld⟩ := hholds fun time hmem =>
      Nat.lt_of_le_of_lt (hlater time (htimes hmem)) hnow
    have hbefore : last < start + limiter.config.block :=
      Nat.lt_of_le_of_lt (hlater last hlast) hnow
    exact attempt_of_locked (hheld.client?_eq (hafter ▸ hbefore)) (hafter ▸ hnow)
  · obtain ⟨last, hlast, hheld⟩ := hholds early
    exact hheld.released (hafter ▸ hnow)

/-- A client is locked out by its third attempt and tries again while it is.  A sweep comes when its
window has long passed. -/
def samplePast : List LimiterCall :=
  [.attempt "a" 0, .attempt "b" 5, .attempt "a" 10]

def sampleSince : List LimiterCall :=
  [.attempt "a" 30, .sweep 200, .attempt "b" 210, .reset "b", .stats 220, .attempt "a" 319]

theorem lockout_exact_sample :
    ((empty ⟨2, 100, 300⟩).after samplePast).LocksOut "a" 20 ∧
      KeepsLockout ⟨2, 100, 300⟩ "a" 20 sampleSince
        ((empty ⟨2, 100, 300⟩).after (samplePast ++ .attempt "a" 20 :: sampleSince)) ∧
      (((empty ⟨2, 100, 300⟩).after (samplePast ++ .attempt "a" 20 :: sampleSince)).attempt
        "a" 320).2 = some true := by
  have locks : ((empty ⟨2, 100, 300⟩).after samplePast).LocksOut "a" 20 := by decide
  have keeps : KeepsLockout ⟨2, 100, 300⟩ "a" 20 sampleSince
      ((empty ⟨2, 100, 300⟩).after (samplePast ++ .attempt "a" 20 :: sampleSince)) :=
    lockout_exact ⟨2, 100, 300⟩ (by decide) locks (by decide)
  refine ⟨locks, keeps, (keeps.released 320 (by decide) ?_).1⟩
  intro time hmem
  simp only [sampleSince, List.mem_cons, LimiterCall.attempt.injEq] at hmem
  grind

end CardGate.Limiter
