import CardGate.Proofs.Limiter.Counters

/-!
# A sweep and the counts

A sweep keeps a client if one of two tests holds of its entry, and the statistics count the clients
of which each holds.  `sweep_agrees_with_stats` says that these are the same tests at the same time,
for every state a limiter can be in.  A client may be locked out and active at once, and the time
may lie before its last attempt.

Whether a client is counted is told from the numbers alone: a number that counts a client goes down
when the client is forgotten (`Counts`).  `counts_blocked_iff` and `counts_active_iff` say at which
times that is so.
-/

namespace CardGate.Limiter

variable {limiter : Limiter} {now : Nat} {client : String} {rate : ClientRate}

/-! ## Who is counted -/

/-- Whether a client is among those that a number of the statistics counts: the number is smaller
when the client is forgotten. -/
def Counts (limiter : Limiter) (number : LimiterStats → Nat) (now : Nat) (client : String) : Prop :=
  number ((limiter.reset client).stats now) < number (limiter.stats now)

instance (limiter : Limiter) (number : LimiterStats → Nat) (now : Nat) (client : String) :
    Decidable (limiter.Counts number now client) :=
  inferInstanceAs (Decidable (_ < _))

/-- A client has an entry if it is listed, and there is no other. -/
theorem client?_eq_some_iff (h : limiter.Distinct) :
    limiter.client? client = some rate ↔ (client, rate) ∈ limiter.clients := by
  constructor
  · intro hclient
    obtain ⟨entry, hfind, rfl⟩ := Option.map_eq_some_iff.1 hclient
    have hname := List.find?_some hfind
    rw [decide_eq_true_iff] at hname
    rw [← hname]
    exact List.mem_of_find?_eq_some hfind
  · exact fun hmem => client?_of_mem h hmem

/-- Fewer entries pass a test without a client if the client has one that does. -/
theorem countP_reset_lt_iff (h : limiter.Distinct) (test : ClientRate → Bool) (client : String) :
    (limiter.reset client).clients.countP (test ·.2) < limiter.clients.countP (test ·.2) ↔
      ∃ rate, limiter.client? client = some rate ∧ test rate = true := by
  have hsplit := List.countP_eq_countP_filter_add limiter.clients (test ·.2) (·.1 ≠ client)
  have hreset : (limiter.reset client).clients = limiter.clients.filter (·.1 ≠ client) := rfl
  rw [hsplit, hreset, Nat.lt_add_right_iff_pos, List.countP_pos_iff]
  constructor
  · rintro ⟨⟨name, rate⟩, hmem, htest⟩
    obtain ⟨hlisted, hname⟩ := List.mem_filter.1 hmem
    replace hname : name = client := by simpa using hname
    exact ⟨rate, (client?_eq_some_iff h).2 (hname ▸ hlisted), htest⟩
  · rintro ⟨rate, hclient, htest⟩
    refine ⟨(client, rate), List.mem_filter.2 ⟨(client?_eq_some_iff h).1 hclient, ?_⟩, htest⟩
    simp

theorem counts_blocked_iff (h : limiter.Distinct) (now : Nat) (client : String) :
    limiter.Counts LimiterStats.blocked now client ↔
      ∃ rate, limiter.client? client = some rate ∧ rate.isBlocked now = true :=
  countP_reset_lt_iff h (·.isBlocked now) client

theorem counts_active_iff (h : limiter.Distinct) (now : Nat) (client : String) :
    limiter.Counts LimiterStats.active now client ↔
      ∃ rate, limiter.client? client = some rate ∧
        rate.isActive limiter.config.window now = true :=
  countP_reset_lt_iff h (·.isActive limiter.config.window now) client

/-- A lockout is over when its end has come. -/
theorem isBlocked_iff (rate : ClientRate) (now : Nat) :
    rate.isBlocked now = true ↔ ∃ blockEnd, rate.blockedUntil = some blockEnd ∧ now < blockEnd := by
  simp [ClientRate.isBlocked, Option.any_eq_true]

/-- An attempt no longer counts when a window has passed.  A window of no length counts nothing, not
even at a time before the attempt. -/
theorem isActive_iff (rate : ClientRate) (window now : Nat) :
    rate.isActive window now = true ↔ 0 < window ∧ now < rate.lastAttempt + window := by
  rw [ClientRate.isActive, decide_eq_true_iff]
  omega

/-! ## What is left -/

/-- An entry is worth remembering if it passes one of the two tests that are counted. -/
theorem isLive_iff (limiter : Limiter) (now : Nat) (rate : ClientRate) :
    limiter.isLive now rate = true ↔
      rate.isBlocked now = true ∨ rate.isActive limiter.config.window now = true := by
  rw [isLive, Bool.or_eq_true]

/-- A sweep takes no entry from a count of entries that are worth remembering. -/
theorem countP_sweep {test : ClientRate → Bool}
    (hlive : ∀ rate, test rate = true → limiter.isLive now rate = true) :
    (limiter.sweep now).1.clients.countP (test ·.2) = limiter.clients.countP (test ·.2) := by
  show (limiter.clients.filter _).countP _ = _
  rw [List.countP_filter]
  apply List.countP_congr
  intro entry _
  rw [Bool.and_eq_true]
  exact ⟨And.left, fun htest => ⟨htest, hlive entry.2 htest⟩⟩

/-- What a sweep answers is the number of entries that are gone. -/
theorem length_sweep_add (limiter : Limiter) (now : Nat) :
    (limiter.sweep now).1.clients.length + (limiter.sweep now).2 = limiter.clients.length := by
  have hle := List.length_filter_le (fun entry => limiter.isLive now entry.2) limiter.clients
  exact Nat.add_sub_of_le hle

/-- A sweep leaves nothing to a second one at the same time. -/
theorem sweep_sweep (limiter : Limiter) (now : Nat) :
    (limiter.sweep now).1.sweep now = ((limiter.sweep now).1, 0) := by
  have hclients : (limiter.sweep now).1.clients.filter (fun entry => limiter.isLive now entry.2) =
      (limiter.sweep now).1.clients :=
    List.filter_eq_self.2 fun entry hmem => (List.mem_filter.1 hmem).2
  have hsame : ((limiter.sweep now).1.sweep now).1 = (limiter.sweep now).1 :=
    congrArg (Limiter.mk limiter.config) hclients
  have hcount := length_sweep_add (limiter.sweep now).1 now
  rw [hsame] at hcount
  exact Prod.ext hsame (by omega)

/-- The clients that a sweep forgets are as many as it says. -/
theorem snd_sweep (h : limiter.Distinct) (now : Nat) :
    (limiter.sweep now).2 =
      (limiter.clients.map (·.1)).countP fun client =>
        (limiter.sweep now).1.client? client = none := by
  have hlength := limiter.clients.length_eq_countP_add_countP fun entry =>
    limiter.isLive now entry.2
  have hsweep := length_sweep_add limiter now
  have hkept : (limiter.sweep now).1.clients.length =
      limiter.clients.countP fun entry => limiter.isLive now entry.2 :=
    List.countP_eq_length_filter.symm
  have hgone : limiter.clients.countP (fun entry => decide ¬limiter.isLive now entry.2 = true) =
      (limiter.clients.map (·.1)).countP fun client =>
        (limiter.sweep now).1.client? client = none := by
    rw [List.countP_map]
    apply List.countP_congr
    intro entry hmem
    simp only [Function.comp_apply, decide_eq_true_iff]
    rw [client?_sweep h, client?_of_mem h hmem, Option.filter_eq_none_iff]
    simp
  omega

/-! ## Both together -/

/-- How a sweep goes with the statistics before and after it. -/
structure AgreesWithStats (limiter : Limiter) (now : Nat) : Prop where
  /-- A client is counted as blocked until its lockout is over. -/
  blocked : ∀ client, limiter.Counts LimiterStats.blocked now client ↔
    ∃ rate, limiter.client? client = some rate ∧
      ∃ blockEnd, rate.blockedUntil = some blockEnd ∧ now < blockEnd
  /-- A client is counted as active until a window has passed since its last attempt. -/
  active : ∀ client, limiter.Counts LimiterStats.active now client ↔
    ∃ rate, limiter.client? client = some rate ∧
      0 < limiter.config.window ∧ now < rate.lastAttempt + limiter.config.window
  /-- The clients that are counted as one of the two keep their entries, and the others have none
  afterwards. -/
  kept : ∀ client rate, (limiter.sweep now).1.client? client = some rate ↔
    limiter.client? client = some rate ∧ (limiter.Counts LimiterStats.blocked now client ∨
      limiter.Counts LimiterStats.active now client)
  /-- The answer is the number of the clients that have no entry any more. -/
  forgotten : (limiter.sweep now).2 = (limiter.clients.map (·.1)).countP fun client =>
    (limiter.sweep now).1.client? client = none
  sameBlocked : ((limiter.sweep now).1.stats now).blocked = (limiter.stats now).blocked
  sameActive : ((limiter.sweep now).1.stats now).active = (limiter.stats now).active
  total : ((limiter.sweep now).1.stats now).total + (limiter.sweep now).2 =
    (limiter.stats now).total
  /-- A second sweep forgets nobody. -/
  again : (limiter.sweep now).1.sweep now = ((limiter.sweep now).1, 0)

/-- At every time a sweep forgets exactly the clients that the statistics count neither as blocked
nor as active, and changes nothing else.  No client may have two entries, which is so of every
limiter that calls have made. -/
theorem sweep_agrees_with_stats (h : limiter.Distinct) (now : Nat) :
    limiter.AgreesWithStats now where
  blocked client := by
    rw [counts_blocked_iff h]
    simp only [isBlocked_iff]
  active client := by
    rw [counts_active_iff h]
    simp only [isActive_iff]
  kept client rate := by
    rw [client?_sweep h, Option.filter_eq_some_iff]
    refine and_congr_right fun hclient => ?_
    rw [isLive_iff, counts_blocked_iff h, counts_active_iff h, hclient]
    simp
  forgotten := snd_sweep h now
  sameBlocked := countP_sweep fun rate hblocked =>
    (isLive_iff limiter now rate).2 (Or.inl hblocked)
  sameActive := countP_sweep fun rate hactive =>
    (isLive_iff limiter now rate).2 (Or.inr hactive)
  total := length_sweep_add limiter now
  again := sweep_sweep limiter now

/-- At the time 200: locked out though its window has passed, locked out and active, active, idle
since exactly a window, and with an attempt that is still to come. -/
def sampleClients : Limiter :=
  ⟨⟨2, 100, 300⟩, [("a", ⟨3, 10, some 310⟩), ("b", ⟨3, 180, some 480⟩), ("c", ⟨1, 101, none⟩),
    ("d", ⟨2, 100, none⟩), ("e", ⟨1, 900, none⟩)]⟩

theorem sweep_agrees_with_stats_sample :
    sampleClients.Distinct ∧ sampleClients.AgreesWithStats 200 ∧
      sampleClients.stats 200 = ⟨5, 2, 3⟩ ∧ (sampleClients.sweep 200).2 = 1 := by
  have hdistinct : sampleClients.Distinct := by
    unfold Distinct
    decide
  exact ⟨hdistinct, sweep_agrees_with_stats hdistinct 200, by decide, by decide⟩

end CardGate.Limiter
