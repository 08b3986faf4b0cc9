import CardGate.Counter

/-!
# Limiting attempts

Every client may try so many times within a window; the attempt beyond that locks the client out
for a while.  A window counts from the last attempt: a client that pauses long enough starts
afresh, and so does one whose lockout has passed.  Times are milliseconds and are given to every
call.

The state is one entry for each client seen.  `sweep` forgets the clients whose window and lockout
have both passed.

An attempt can fail to get an answer.  It is counted in 32 bits and a lockout ends at a time that
the clock must be able to tell, and where either is out of reach the call gives up.  What it has
written by then stays: the attempt is counted before its lockout is computed, so a lockout that the
clock cannot tell leaves a client beyond the limit and not locked out.
-/

namespace CardGate

/-- How many attempts are allowed, and for how long they count and lock out. -/
structure LimiterConfig where
  maxAttempts : UInt32
  window : Nat
  block : Nat
  deriving DecidableEq, Repr

/-- Five attempts, and a quarter of an hour for both times. -/
def LimiterConfig.standard : LimiterConfig :=
  ⟨5, 900000, 900000⟩

/-- A configuration with its times in seconds. -/
def LimiterConfig.ofSeconds (maxAttempts : UInt32) (window block : Nat) : LimiterConfig :=
  ⟨maxAttempts, window * 1000, block * 1000⟩

/-- The last time that the clock can tell: it counts whole seconds in 64 bits, one of them for the
sign. -/
def clockEnd : Nat :=
  UInt64.size / 2 * 1000 - 1

/-- The end of a lockout that begins at a time, if the clock can tell it. -/
def LimiterConfig.blockEnd? (config : LimiterConfig) (now : Nat) : Option Nat :=
  if now + config.block ≤ clockEnd then some (now + config.block) else none

/-- What is known about a client. -/
structure ClientRate where
  attempts : UInt32
  lastAttempt : Nat
  blockedUntil : Option Nat
  deriving DecidableEq, Repr

namespace ClientRate

/-- A client after its first attempt. -/
def first (now : Nat) : ClientRate :=
  ⟨1, now, none⟩

/-- Whether a client is locked out. -/
def isBlocked (rate : ClientRate) (now : Nat) : Bool :=
  rate.blockedUntil.any (now < ·)

/-- Whether the last attempt of a client still counts.  A time before it counts as none passed. -/
def isActive (rate : ClientRate) (window now : Nat) : Bool :=
  now - rate.lastAttempt < window

/-- The entry of a client after one more attempt, and whether that attempt is allowed.  There is no
answer if the call gives up. -/
def attempt (config : LimiterConfig) (now : Nat) (rate : ClientRate) : ClientRate × Option Bool :=
  match rate.blockedUntil with
  | some blockEnd => if now < blockEnd then (rate, some false) else (first now, some true)
  | none =>
    if config.window ≤ now - rate.lastAttempt then (first now, some true)
    else
      match Counter.add? rate.attempts 1 with
      | none => (rate, none)
      | some attempts =>
        if config.maxAttempts < attempts then
          match config.blockEnd? now with
          | none => (⟨attempts, now, none⟩, none)
          | some blockEnd => (⟨attempts, now, some blockEnd⟩, some false)
        else (⟨attempts, now, none⟩, some true)

end ClientRate

/-- A limiter and the clients it has seen. -/
structure Limiter where
  config : LimiterConfig
  clients : List (String × ClientRate)
  deriving DecidableEq, Repr

/-- How many clients there are, are locked out, and have attempts that still count. -/
structure LimiterStats where
  total : Nat
  blocked : Nat
  active : Nat
  deriving DecidableEq, Repr

namespace Limiter

/-- A limiter that has seen nobody. -/
def empty (config : LimiterConfig) : Limiter :=
  ⟨config, []⟩

/-- What is known about a client. -/
def client? (limiter : Limiter) (client : String) : Option ClientRate :=
  (limiter.clients.find? (·.1 = client)).map (·.2)

/-- Takes an attempt of a client among entries. -/
def attemptIn (config : LimiterConfig) (client : String) (now : Nat) :
    List (String × ClientRate) → List (String × ClientRate) × Option Bool
  | [] => ([(client, ClientRate.first now)], some true)
  | (name, rate) :: rest =>
    if name = client then
      let (rate, allowed) := rate.attempt config now
      ((name, rate) :: rest, allowed)
    else
      let (rest, allowed) := attemptIn config client now rest
      ((name, rate) :: rest, allowed)

/-- Takes an attempt of a client and says whether it is allowed, unless it gives up. -/
def attempt (limiter : Limiter) (client : String) (now : Nat) : Limiter × Option Bool :=
  let (clients, allowed) := attemptIn limiter.config client now limiter.clients
  ({ limiter with clients }, allowed)

theorem find?_attemptIn (config : LimiterConfig) (client other : String) (now : Nat)
    (clients : List (String × ClientRate)) :
    ((attemptIn config client now clients).1.find? (·.1 = other)).map (·.2) =
      if client = other then
        some (match (clients.find? (·.1 = client)).map (·.2) with
          | none => ClientRate.first now
          | some rate => (rate.attempt config now).1)
      else (clients.find? (·.1 = other)).map (·.2) := by
  induction clients with
  | nil => by_cases h : client = other <;> simp [attemptIn, h]
  | cons entry rest ih =>
    obtain ⟨name, rate⟩ := entry
    by_cases hn : name = client
    · subst hn
      by_cases h : name = other <;> simp [attemptIn, List.find?, h]
    · by_cases h : name = other
      · subst h
        simp [attemptIn, hn, Ne.symm hn]
      · simp [attemptIn, hn, List.find?, h, ih]

theorem snd_attemptIn (config : LimiterConfig) (client : String) (now : Nat)
    (clients : List (String × ClientRate)) :
    (attemptIn config client now clients).2 =
      match (clients.find? (·.1 = client)).map (·.2) with
      | none => some true
      | some rate => (rate.attempt config now).2 := by
  induction clients with
  | nil => simp [attemptIn]
  | cons entry rest ih =>
    obtain ⟨name, rate⟩ := entry
    by_cases hn : name = client <;> simp [attemptIn, List.find?, hn, ih]

/-- An attempt changes the entry of its own client and no other. -/
theorem client?_attempt (limiter : Limiter) (client other : String) (now : Nat) :
    (limiter.attempt client now).1.client? other =
      if client = other then
        some (match limiter.client? client with
          | none => ClientRate.first now
          | some rate => (rate.attempt limiter.config now).1)
      else limiter.client? other :=
  find?_attemptIn limiter.config client other now limiter.clients

/-- What an attempt is answered depends on the entry of its own client alone. -/
theorem snd_attempt (limiter : Limiter) (client : String) (now : Nat) :
    (limiter.attempt client now).2 =
      match limiter.client? client with
      | none => some true
      | some rate => (rate.attempt limiter.config now).2 :=
  snd_attemptIn limiter.config client now limiter.clients

/-- Whether a client is worth remembering. -/
def isLive (limiter : Limiter) (now : Nat) (rate : ClientRate) : Bool :=
  rate.isBlocked now || rate.isActive limiter.config.window now

/-- Forgets the clients that are neither locked out nor active, and says how many. -/
def sweep (limiter : Limiter) (now : Nat) : Limiter × Nat :=
  let clients := limiter.clients.filter fun entry => limiter.isLive now entry.2
  ({ limiter with clients }, limiter.clients.length - clients.length)

/-- Forgets a client. -/
def reset (limiter : Limiter) (client : String) : Limiter :=
  { limiter with clients := limiter.clients.filter (·.1 ≠ client) }

/-- Counts the clients. -/
def stats (limiter : Limiter) (now : Nat) : LimiterStats :=
  { total := limiter.clients.length
    blocked := limiter.clients.countP fun entry => entry.2.isBlocked now
    active := limiter.clients.countP fun entry => entry.2.isActive limiter.config.window now }

end Limiter

end CardGate
