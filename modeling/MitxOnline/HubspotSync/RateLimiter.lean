import Mathlib.Data.Rat.Floor
import MitxOnline.Lib.SlidingWindow
import MitxOnline.Lib.Trace

/-!
# The rate limiter for HubSpot calls (`hubspot_sync/rate_limiter.py`)

A worker that wants to call HubSpot runs a script in Redis that claims a slot: a time at which the call
may be made. The script runs atomically, so claims come one after the other. Times are rational
numbers of seconds.
-/

namespace MitxOnline

open SlidingWindow

/-- The arguments of the script that do not change from claim to claim, in seconds. -/
structure RateLimit where
  window : ℚ
  maxReq : ℕ
  minDelay : ℚ
  window_nonneg : 0 ≤ window
  maxReq_pos : 0 < maxReq
  minDelay_nonneg : 0 ≤ minDelay

/-- The key in Redis: the claimed slots and when the key expires. -/
structure SlotKey where
  slots : SortedSet ℚ
  expiresAt : Option ℚ

/-- The key is past its expiry. -/
def SlotKey.expired (key : SlotKey) (now : ℚ) : Bool := key.expiresAt.any fun t => decide (t < now)

/-- The slots that Redis still has. -/
def SlotKey.present (key : SlotKey) (now : ℚ) : SortedSet ℚ :=
  if key.expired now then SortedSet.empty else key.slots

/-- The slots after the cleanup at the start of the script. -/
def SlotKey.live (limit : RateLimit) (key : SlotKey) (now : ℚ) : SortedSet ℚ :=
  (key.present now).removeUpTo (now - limit.window)

/-- `target`, from the slots that are left. A limit is positive, so a full window has an oldest and a
last slot. -/
def targetSlot (limit : RateLimit) (slots : SortedSet ℚ) (now : ℚ) : ℚ :=
  if slots.card < limit.maxReq then
    match slots.highest with
    | some last => max now (last + limit.minDelay)
    | none => now
  else
    match slots.lowest, slots.highest with
    | some oldest, some last => max (max (oldest + limit.window) (last + limit.minDelay)) now
    | _, _ => now

/-- `_RATE_LIMIT_LUA`: the key it leaves and the wait it returns, in milliseconds. -/
def rateLimitLua (limit : RateLimit) (key : SlotKey) (now : ℚ) : SlotKey × ℚ :=
  let target := targetSlot limit (key.live limit now) now
  let waitMs := (target - now) * 1000
  (⟨(key.live limit now).add target, some (now + (⌈limit.window⌉ + 1))⟩,
    if waitMs < 0 then 0 else waitMs)

/-- The key, and the slots that were handed out so far, newest first. -/
structure RateLimiter where
  key : SlotKey
  issued : List ℚ

/-- Nothing claimed yet. -/
def RateLimiter.start : RateLimiter := ⟨⟨SortedSet.empty, none⟩, []⟩

/-- One claim: the slot is the time of the claim and the wait. -/
def RateLimiter.claim (limit : RateLimit) (s : RateLimiter) (now : ℚ) : RateLimiter :=
  let result := rateLimitLua limit s.key now
  ⟨result.1, (now + result.2 / 1000) :: s.issued⟩

/-- The key has what the script needs to know at this claim: an expired key held no slot that counts,
an empty one leaves out no slot within the delay, and if the window is full then its oldest slot is as
good as its `maxReq`-th newest. -/
structure RateLimiter.Remembers (limit : RateLimit) (s : RateLimiter) (now : ℚ) : Prop where
  expired : s.key.expired now = true → ∀ t ∈ s.issued, t + limit.window ≤ now
  emptied : (s.key.live limit now).scores = [] → ∀ t ∈ s.issued, t + limit.minDelay ≤ now
  overflow : ∀ oldest ∈ (s.key.live limit now).lowest, ∀ last ∈ (s.key.live limit now).highest,
    ∀ t ∈ (s.key.live limit now).scores.reverse[limit.maxReq - 1]?,
      t = oldest ∨ t + limit.window ≤ last + limit.minDelay

end MitxOnline
