import Mathlib.Tactic.Linarith
import MitxOnline.HubspotSync.RateLimiter
import MitxOnline.Lib.SlidingWindow

/-!
# What the rate limiter needs to remember

The slots that were handed out are those of the key, and older ones that no longer count. As long as
that is so, a new slot is far enough after the newest slot and after the `maxReq`-th newest.
-/

namespace MitxOnline

open SlidingWindow

variable {limit : RateLimit} {s : RateLimiter} {slots : SortedSet ℚ} {now clock t : ℚ}

/-! ## The target -/

/-- A target is not in the past. -/
theorem now_le_targetSlot : now ≤ targetSlot limit slots now := by
  unfold targetSlot
  split_ifs
  · split
    · exact le_max_left _ _
    · exact le_rfl
  · split
    · exact le_max_right _ _
    · exact le_rfl

/-- A target is after the last slot of the key. -/
theorem highest_le_targetSlot {last : ℚ} (h : slots.highest = some last) :
    last + limit.minDelay ≤ targetSlot limit slots now := by
  unfold targetSlot
  split_ifs with hcard
  · rw [h]
    exact le_max_right _ _
  · cases hlowest : slots.lowest with
    | none =>
      have hnil : slots.scores = [] := List.head?_eq_none_iff.mp hlowest
      rw [SortedSet.highest, hnil] at h
      cases h
    | some oldest =>
      rw [h]
      exact (le_max_right _ _).trans (le_max_left _ _)

/-- If the window is full, a target is a window after the oldest slot. -/
theorem lowest_le_targetSlot {oldest last : ℚ} (hlowest : slots.lowest = some oldest)
    (hhighest : slots.highest = some last) (hcard : limit.maxReq ≤ slots.card) :
    oldest + limit.window ≤ targetSlot limit slots now := by
  unfold targetSlot
  rw [if_neg (not_lt.mpr hcard), hlowest, hhighest]
  exact (le_max_left _ _).trans (le_max_left _ _)

/-- Every slot of the key is at most the target. -/
theorem le_targetSlot (h : t ∈ slots.scores) : t ≤ targetSlot limit slots now := by
  cases hhighest : slots.highest with
  | none =>
    rw [SortedSet.highest_none hhighest] at h
    cases h
  | some last =>
    calc t ≤ last := SortedSet.le_highest hhighest t h
      _ ≤ last + limit.minDelay := le_add_of_nonneg_right limit.minDelay_nonneg
      _ ≤ targetSlot limit slots now := highest_le_targetSlot hhighest

/-- The slot that a claim hands out is the target. -/
theorem RateLimiter.claim_issued :
    (s.claim limit now).issued = targetSlot limit (s.key.live limit now) now :: s.issued := by
  have hnow : now ≤ targetSlot limit (s.key.live limit now) now := now_le_targetSlot
  simp only [RateLimiter.claim, rateLimitLua]
  rw [if_neg (by linarith), mul_div_cancel_right₀ _ (by norm_num), add_sub_cancel]

theorem RateLimiter.claim_scores :
    (s.claim limit now).key.slots.scores =
      (s.key.live limit now).scores ++ [targetSlot limit (s.key.live limit now) now] :=
  SortedSet.add_of_highest fun _ ht => le_targetSlot ht

/-! ## The invariant -/

/-- The slots handed out are paced, and those that the key does not have are at least a window old. -/
structure RateLimiter.Keeps (limit : RateLimit) (s : RateLimiter) (clock : ℚ) : Prop where
  paced : Paced limit.window limit.minDelay limit.maxReq s.issued
  stored : ∃ old, s.issued = s.key.slots.scores.reverse ++ old ∧ ∀ t ∈ old, t + limit.window ≤ clock

theorem RateLimiter.start_keeps (clock : ℚ) : RateLimiter.start.Keeps limit clock where
  paced := trivial
  stored := ⟨[], rfl, fun _ ht => absurd ht List.not_mem_nil⟩

/-- The cleanup only forgets slots that are at least a window old. -/
theorem RateLimiter.Keeps.live (hs : s.Keeps limit clock) (hnow : clock ≤ now)
    (hr : s.Remembers limit now) :
    ∃ old, s.issued = (s.key.live limit now).scores.reverse ++ old ∧
      ∀ t ∈ old, t + limit.window ≤ now := by
  obtain ⟨old, hissued, hold⟩ := hs.stored
  cases hexpired : s.key.expired now with
  | true =>
    have hlive : (s.key.live limit now).scores = [] := by
      simp [SlotKey.live, SlotKey.present, hexpired, SortedSet.empty, SortedSet.removeUpTo]
    exact ⟨s.issued, by rw [hlive]; rfl, hr.expired hexpired⟩
  | false =>
    have hlive : s.key.live limit now = s.key.slots.removeUpTo (now - limit.window) := by
      simp [SlotKey.live, SlotKey.present, hexpired]
    have hsplit := s.key.slots.filter_append_removeUpTo (now - limit.window)
    refine ⟨(s.key.slots.scores.filter fun t => decide (t ≤ now - limit.window)).reverse ++ old, ?_, ?_⟩
    · rw [hlive, ← List.append_assoc, ← List.reverse_append, ← hsplit]
      exact hissued
    · intro t ht
      rcases List.mem_append.mp ht with ht | ht
      · have hle := of_decide_eq_true (List.mem_filter.mp (List.mem_reverse.mp ht)).2
        exact le_sub_iff_add_le.mp hle
      · exact (hold t ht).trans hnow

/-- The new slot is `minDelay` after the newest one. -/
theorem RateLimiter.Keeps.delay_le (hr : s.Remembers limit now) {old : List ℚ}
    (hissued : s.issued = (s.key.live limit now).scores.reverse ++ old) (ht : t ∈ s.issued.head?) :
    t + limit.minDelay ≤ targetSlot limit (s.key.live limit now) now := by
  cases hhighest : (s.key.live limit now).highest with
  | none =>
    have hnil := SortedSet.highest_none hhighest
    exact (hr.emptied hnil t (List.mem_of_mem_head? ht)).trans now_le_targetSlot
  | some last =>
    have hhead : (s.key.live limit now).scores.reverse.head? = some last := by
      rw [List.head?_reverse]
      exact hhighest
    rw [hissued, List.head?_append, hhead] at ht
    obtain rfl : last = t := Option.some.inj ht
    exact highest_le_targetSlot hhighest

/-- The new slot is a window after the `maxReq`-th newest one. -/
theorem RateLimiter.Keeps.window_le (hr : s.Remembers limit now) {old : List ℚ}
    (hissued : s.issued = (s.key.live limit now).scores.reverse ++ old)
    (hold : ∀ t ∈ old, t + limit.window ≤ now) (ht : t ∈ s.issued[limit.maxReq - 1]?) :
    t + limit.window ≤ targetSlot limit (s.key.live limit now) now := by
  have hpos := limit.maxReq_pos
  rw [hissued] at ht
  by_cases hcard : limit.maxReq ≤ (s.key.live limit now).card
  · -- the slot is one of the key
    have hlt : limit.maxReq - 1 < (s.key.live limit now).scores.reverse.length := by
      rw [List.length_reverse]
      exact (Nat.sub_lt hpos Nat.one_pos).trans_le hcard
    rw [List.getElem?_append_left hlt] at ht
    have hne : (s.key.live limit now).scores ≠ [] := by
      intro hnil
      rw [hnil] at hlt
      cases hlt
    obtain ⟨oldest, hlowest⟩ : ∃ oldest, (s.key.live limit now).lowest = some oldest :=
      ⟨_, List.head?_eq_some_head hne⟩
    obtain ⟨last, hhighest⟩ : ∃ last, (s.key.live limit now).highest = some last :=
      ⟨_, List.getLast?_eq_some_getLast hne⟩
    rcases hr.overflow oldest hlowest last hhighest t ht with rfl | hle
    · exact lowest_le_targetSlot hlowest hhighest hcard
    · exact hle.trans (highest_le_targetSlot hhighest)
  · -- the key has fewer slots, so this one is an older one
    have hge : (s.key.live limit now).scores.reverse.length ≤ limit.maxReq - 1 := by
      rw [List.length_reverse]
      exact Nat.le_sub_one_of_lt (not_le.mp hcard)
    rw [List.getElem?_append_right hge] at ht
    exact (hold t (List.mem_of_getElem? ht)).trans now_le_targetSlot

/-- A claim at which the key has what is needed keeps the invariant. -/
theorem RateLimiter.Keeps.claim (hs : s.Keeps limit clock) (hnow : clock ≤ now)
    (hr : s.Remembers limit now) : (s.claim limit now).Keeps limit now := by
  obtain ⟨old, hissued, hold⟩ := hs.live hnow hr
  constructor
  · rw [RateLimiter.claim_issued]
    refine ⟨?_, ?_, hs.paced⟩
    · intro t ht
      exact RateLimiter.Keeps.delay_le hr hissued ht
    · intro t ht
      exact RateLimiter.Keeps.window_le hr hissued hold ht
  · refine ⟨old, ?_, hold⟩
    rw [RateLimiter.claim_issued, RateLimiter.claim_scores, List.reverse_append, hissued]
    rfl

/-- The invariant along a run. -/
theorem RateLimiter.Keeps.run {times : List ℚ} (hs : s.Keeps limit clock)
    (hsorted : (clock :: times).Pairwise (· ≤ ·))
    (hr : Trace.Along (RateLimiter.claim limit) (RateLimiter.Remembers limit) s times) :
    ∃ clock', (Trace.run (RateLimiter.claim limit) s times).Keeps limit clock' := by
  induction times generalizing s clock with
  | nil => exact ⟨clock, hs⟩
  | cons now times ih =>
    obtain ⟨hle, hrest⟩ := List.pairwise_cons.mp hsorted
    exact ih (hs.claim (hle now (List.mem_cons_self ..)) hr.1) hrest hr.2

/-! ## Runs -/

/-- In a run in which the key has what is needed at every claim, every half-open interval of one window
holds at most `maxReq` slots and any two slots are `minDelay` apart. -/
theorem rateLimiter_limits (limit : RateLimit) (times : List ℚ) (hsorted : times.Pairwise (· ≤ ·))
    (hr : Trace.Along (RateLimiter.claim limit) (RateLimiter.Remembers limit) RateLimiter.start times) :
    let slots := (Trace.run (RateLimiter.claim limit) RateLimiter.start times).issued
    AtMost limit.window limit.maxReq slots ∧ Spaced limit.minDelay slots := by
  intro slots
  have hkeeps : ∃ clock, (Trace.run (RateLimiter.claim limit) RateLimiter.start times).Keeps limit clock := by
    cases times with
    | nil => exact ⟨0, RateLimiter.start_keeps 0⟩
    | cons now times =>
      refine (RateLimiter.start_keeps now).run ?_ hr
      refine List.pairwise_cons.mpr ⟨fun t ht => ?_, hsorted⟩
      rcases List.mem_cons.mp ht with rfl | ht
      · exact le_rfl
      · exact (List.pairwise_cons.mp hsorted).1 t ht
  obtain ⟨clock, hkeeps⟩ := hkeeps
  exact ⟨hkeeps.paced.atMost limit.minDelay_nonneg limit.maxReq_pos,
    hkeeps.paced.spaced limit.minDelay_nonneg⟩

/-- Two calls a second, a quarter of a second apart. -/
def twoPerSecond : RateLimit := ⟨1, 2, 1 / 4, by norm_num, by norm_num, by norm_num⟩

/-- A burst of three claims, and one after a pause: the slots are 0, 1/4, 1 and 2. -/
theorem rateLimiter_limits_burst :
    (Trace.run (RateLimiter.claim twoPerSecond) RateLimiter.start [0, 0, 0, 2]).issued =
        [2, 1, 1 / 4, 0] ∧
      AtMost 1 2
        (Trace.run (RateLimiter.claim twoPerSecond) RateLimiter.start [0, 0, 0, 2]).issued := by
  refine ⟨by decide +kernel, (rateLimiter_limits twoPerSecond [0, 0, 0, 2] (by decide +kernel) ?_).1⟩
  refine ⟨⟨?_, ?_, ?_⟩, ⟨?_, ?_, ?_⟩, ⟨?_, ?_, ?_⟩, ⟨?_, ?_, ?_⟩, trivial⟩
  all_goals decide +kernel

/-- One call a second, no delay. -/
def onePerSecond : RateLimit := ⟨1, 1, 0, by norm_num, by norm_num, by norm_num⟩

/-- The third of three claims at one time gets the slot of the second: the window is counted from the
oldest slot of the key, which has two. -/
theorem not_rateLimiter_limits :
    ¬ ∀ (limit : RateLimit) (times : List ℚ), times.Pairwise (· ≤ ·) →
      let slots := (Trace.run (RateLimiter.claim limit) RateLimiter.start times).issued
      AtMost limit.window limit.maxReq slots ∧ Spaced limit.minDelay slots := by
  intro hall
  have hissued : (Trace.run (RateLimiter.claim onePerSecond) RateLimiter.start [0, 0, 0]).issued =
      [1, 1, 0] := by
    decide +kernel
  have hlimits := hall onePerSecond [0, 0, 0] (by decide +kernel)
  dsimp only at hlimits
  rw [hissued] at hlimits
  have hcount := (hlimits.1 1).1
  revert hcount
  decide +kernel

end MitxOnline
