import AtreoAgent.Machine.Run
import AtreoAgent.Machine.Table
import AtreoAgent.Machine.TokenBucket
import Mathlib.Algebra.Order.Ring.Rat
import Mathlib.Data.Rat.Cast.Order

/-! The limiter of requests per source (`ratelimit`). Each key has a token bucket, filled
when it is asked for a token. What the bucket of a key holds at a time decides every later
answer for the key, and reaping idle buckets changes it for no key. Times and durations are
in nanoseconds. -/
namespace Ratelimit

open Machine TokenBucket

/-- `Time.Sub`, which stops at the least and the greatest duration. -/
def sub (t u : Int) : Int := max (-2 ^ 63) (min (2 ^ 63 - 1) (t - u))

def seconds (d : Int) : ℚ := d / 10 ^ 9

structure Bucket where
  tokens : ℚ
  lastFill : Int
  deriving DecidableEq

structure Limiter where
  perMinute : Int
  positive : 0 < perMinute
  buckets : AList fun _ : String => Bucket

/-- `New`: a limit that is not positive stands for the default. -/
def new (perMinute : Int) : Limiter :=
  if h : perMinute ≤ 0 then ⟨5, by decide, ∅⟩ else ⟨perMinute, by omega, ∅⟩

namespace Limiter

variable (l : Limiter)

def cap : ℚ := l.perMinute

def rate : ℚ := l.perMinute / 60

def put (key : String) (b : Bucket) : Limiter := { l with buckets := l.buckets.insert key b }

def allow (now : Int) (key : String) : Bool × Limiter :=
  let b : Bucket := match l.buckets.lookup key with
    | none => ⟨l.perMinute, now⟩
    | some b =>
        let elapsed := seconds (sub now b.lastFill)
        let tokens := b.tokens + elapsed * (l.perMinute / 60)
        ⟨if (l.perMinute : ℚ) < tokens then l.perMinute else tokens, now⟩
  if b.tokens < 1 then (false, l.put key b)
  else (true, l.put key { b with tokens := b.tokens - 1 })

/-- `Reap`: the buckets that were not asked for longer than `maxIdle` are dropped. -/
def reap (now : Int) (maxIdle : Int) : Limiter :=
  let idle := l.buckets.entries.filter fun e => maxIdle < sub now e.2.lastFill
  { l with buckets := (idle.map (·.1)).foldl (fun m key => m.erase key) l.buckets }

/-- What the bucket of a key holds at a time. A key without a bucket gets a full one. -/
def level (key : String) (now : Int) : ℚ :=
  match l.buckets.lookup key with
  | none => l.cap
  | some b => refill l.cap l.rate b.tokens (seconds (sub now b.lastFill))

/-- No bucket is overdrawn, overfull or filled in the future. -/
def Sound (now : Int) : Prop :=
  ∀ key b, l.buckets.lookup key = some b → 0 ≤ b.tokens ∧ b.tokens ≤ l.cap ∧ b.lastFill ≤ now

section Buckets

variable {l} {now later : Int} {key other : String} {maxIdle : Int}

theorem cap_pos : 0 < l.cap := Int.cast_pos.mpr l.positive

theorem rate_pos : 0 < l.rate := div_pos cap_pos (by norm_num)

theorem cap_eq : l.cap = 60 * l.rate := by
  rw [rate, mul_div_cancel₀ _ (by norm_num)]
  rfl

/-- A minute fills a bucket. -/
theorem cap_le_flow {elapsed : ℚ} (h : 60 ≤ elapsed) : l.cap ≤ elapsed * l.rate := by
  rw [cap_eq]
  exact mul_le_mul_of_nonneg_right h rate_pos.le

theorem seconds_add (d e : Int) : seconds (d + e) = seconds d + seconds e := by
  rw [seconds, Int.cast_add, add_div, seconds, seconds]

theorem seconds_mono {d e : Int} (h : d ≤ e) : seconds d ≤ seconds e :=
  div_le_div_of_nonneg_right (Int.cast_le.mpr h) (by norm_num)

theorem seconds_nonneg {d : Int} (h : 0 ≤ d) : 0 ≤ seconds d := by
  have hZero : seconds 0 = 0 := by simp [seconds]
  rw [← hZero]
  exact seconds_mono h

theorem seconds_minute {d : Int} (h : 60 * 10 ^ 9 ≤ d) : 60 ≤ seconds d := by
  have hMinute : seconds (60 * 10 ^ 9) = 60 := by norm_num [seconds]
  rw [← hMinute]
  exact seconds_mono h

theorem flow_nonneg {d : Int} (h : 0 ≤ d) : 0 ≤ seconds d * l.rate :=
  mul_nonneg (seconds_nonneg h) rate_pos.le

/-- A bucket is full long before a duration reaches the greatest one. -/
theorem refill_sub {tokens : ℚ} {t u : Int} (hTokens : 0 ≤ tokens) (h : u ≤ t) :
    refill l.cap l.rate tokens (seconds (sub t u)) =
      refill l.cap l.rate tokens (seconds (t - u)) := by
  by_cases hFits : t - u ≤ 2 ^ 63 - 1
  · have hSub : sub t u = t - u := by
      rw [sub]
      omega
    rw [hSub]
  · have hSub : 60 * 10 ^ 9 ≤ sub t u := by
      rw [sub]
      omega
    have hLong : 60 * 10 ^ 9 ≤ t - u := by omega
    rw [refill_eq_cap hTokens (cap_le_flow (seconds_minute hSub)),
      refill_eq_cap hTokens (cap_le_flow (seconds_minute hLong))]

theorem level_of_none (h : l.buckets.lookup key = none) (now : Int) : l.level key now = l.cap := by
  rw [level, h]

theorem level_of_some {b : Bucket} (h : l.buckets.lookup key = some b) (now : Int) :
    l.level key now = refill l.cap l.rate b.tokens (seconds (sub now b.lastFill)) := by
  rw [level, h]

theorem level_le : l.level key now ≤ l.cap := by
  rw [level]
  split
  · exact le_refl _
  · exact refill_le

theorem Sound.level_eq (h : l.Sound now) (hLater : now ≤ later) {b : Bucket}
    (hBucket : l.buckets.lookup key = some b) :
    l.level key later = refill l.cap l.rate b.tokens (seconds (later - b.lastFill)) := by
  obtain ⟨hTokens, _, hPast⟩ := h key b hBucket
  rw [level_of_some hBucket, refill_sub hTokens (hPast.trans hLater)]

theorem Sound.level_nonneg (h : l.Sound now) (hLater : now ≤ later) : 0 ≤ l.level key later := by
  cases hBucket : l.buckets.lookup key with
  | none =>
      rw [level_of_none hBucket]
      exact cap_pos.le
  | some b =>
      obtain ⟨hTokens, _, hPast⟩ := h key b hBucket
      have hFlow : 0 ≤ seconds (later - b.lastFill) * l.rate := flow_nonneg (by omega)
      rw [h.level_eq hLater hBucket]
      exact refill_nonneg cap_pos.le hTokens hFlow

/-- From one time to a later one a bucket is only filled. -/
theorem Sound.level_later (h : l.Sound now) (hLater : now ≤ later) :
    l.level key later = refill l.cap l.rate (l.level key now) (seconds (later - now)) := by
  have hFlow : 0 ≤ seconds (later - now) * l.rate := flow_nonneg (by omega)
  cases hBucket : l.buckets.lookup key with
  | none => rw [level_of_none hBucket, level_of_none hBucket, refill_cap hFlow]
  | some b =>
      have hSplit : later - b.lastFill = now - b.lastFill + (later - now) := by omega
      rw [h.level_eq hLater hBucket, h.level_eq (le_refl now) hBucket, refill_refill hFlow,
        ← seconds_add, ← hSplit]

/-- A call of `Allow` asks the bucket of the key for a token and leaves the other buckets. -/
theorem allow_eq (l : Limiter) (now : Int) (key : String) :
    l.allow now key =
      (enough (l.level key now), l.put key ⟨spend (l.level key now), now⟩) := by
  have hFill : (match l.buckets.lookup key with
      | none => (⟨l.perMinute, now⟩ : Bucket)
      | some b =>
          let elapsed := seconds (sub now b.lastFill)
          let tokens := b.tokens + elapsed * (l.perMinute / 60)
          ⟨if (l.perMinute : ℚ) < tokens then l.perMinute else tokens, now⟩) =
      ⟨l.level key now, now⟩ := by
    rw [level]
    split
    · rfl
    · rw [refill, min_def_lt]
      rfl
  rw [allow, hFill]
  by_cases hEnough : l.level key now < 1
  · have hNot : enough (l.level key now) = false := decide_eq_false (not_le.mpr hEnough)
    rw [if_pos hEnough, spend, hNot, if_neg Bool.false_ne_true]
  · have hYes : enough (l.level key now) = true := decide_eq_true (not_lt.mp hEnough)
    rw [if_neg hEnough, spend, hYes, if_pos rfl]

theorem level_put (b : Bucket) (key other : String) (now : Int) :
    (l.put key b).level other now =
      if other = key then refill l.cap l.rate b.tokens (seconds (sub now b.lastFill))
      else l.level other now := by
  split
  next hKey =>
    subst hKey
    exact level_of_some (l := l.put other b) (AList.lookup_insert l.buckets) now
  next hKey =>
    have hOther : (l.put key b).buckets.lookup other = l.buckets.lookup other :=
      AList.lookup_insert_ne hKey
    rw [level, level, hOther]
    rfl

/-- Right after a call the bucket holds what the call left. -/
theorem level_allow_self (l : Limiter) (now : Int) (key : String) :
    (l.allow now key).2.level key now = spend (l.level key now) := by
  have hNoTime : seconds (sub now now) = 0 := by simp [sub, seconds]
  rw [allow_eq, level_put, if_pos rfl, hNoTime, refill_zero (spend_le.trans level_le)]

theorem level_allow_ne (h : other ≠ key) : (l.allow now key).2.level other later = l.level other later := by
  rw [allow_eq, level_put, if_neg h]

theorem lookup_reap (now : Int) (maxIdle : Int) (key : String) :
    (l.reap now maxIdle).buckets.lookup key =
      (l.buckets.lookup key).filter fun b => sub now b.lastFill ≤ maxIdle := by
  rw [reap, Table.lookup_foldl_erase]
  have hIdle : key ∈ (l.buckets.entries.filter fun e => maxIdle < sub now e.2.lastFill).map (·.1) ↔
      ∃ b, l.buckets.lookup key = some b ∧ maxIdle < sub now b.lastFill := by
    rw [List.mem_map]
    constructor
    · rintro ⟨⟨_, b⟩, hEntry, rfl⟩
      obtain ⟨hMem, hLong⟩ := List.mem_filter.mp hEntry
      exact ⟨b, AList.mem_lookup_iff.mpr hMem, of_decide_eq_true hLong⟩
    · rintro ⟨b, hBucket, hLong⟩
      exact ⟨⟨key, b⟩, List.mem_filter.mpr ⟨AList.mem_lookup_iff.mp hBucket, decide_eq_true hLong⟩,
        rfl⟩
  simp only [hIdle]
  cases hBucket : l.buckets.lookup key with
  | none => simp
  | some b =>
      by_cases hLong : maxIdle < sub now b.lastFill
      · rw [if_pos ⟨b, rfl, hLong⟩, Option.filter_some_neg (by simpa using hLong)]
      · rw [if_neg (by simpa using hLong), Option.filter_some_pos (by simpa using hLong)]

/-- A bucket that is reaped would be full from then on. -/
theorem Sound.level_reap (h : l.Sound now) (hLater : now ≤ later) (hIdle : 60 * 10 ^ 9 ≤ maxIdle)
    {t : Int} (hAfter : t ≤ later) : (l.reap t maxIdle).level key later = l.level key later := by
  cases hBucket : l.buckets.lookup key with
  | none =>
      have hReaped : (l.reap t maxIdle).buckets.lookup key = none := by
        rw [lookup_reap, hBucket]
        rfl
      rw [level_of_none hReaped, level_of_none hBucket]
      rfl
  | some b =>
      by_cases hKept : sub t b.lastFill ≤ maxIdle
      · have hReaped : (l.reap t maxIdle).buckets.lookup key = some b := by
          rw [lookup_reap, hBucket, Option.filter_some_pos (by simpa using hKept)]
        rw [level_of_some hReaped, level_of_some hBucket]
        rfl
      · have hReaped : (l.reap t maxIdle).buckets.lookup key = none := by
          rw [lookup_reap, hBucket, Option.filter_some_neg (by simpa using hKept)]
        have hLong : 60 * 10 ^ 9 ≤ later - b.lastFill := by
          rw [sub] at hKept
          omega
        rw [level_of_none hReaped, h.level_eq hLater hBucket,
          refill_eq_cap (h key b hBucket).1 (cap_le_flow (seconds_minute hLong))]
        rfl

theorem sound_new (perMinute : Int) (now : Int) : (new perMinute).Sound now := by
  intro key b hBucket
  rw [new] at hBucket
  split at hBucket <;> cases hBucket

theorem Sound.mono (h : l.Sound now) (hLater : now ≤ later) : l.Sound later := by
  intro key b hBucket
  obtain ⟨hTokens, hCap, hPast⟩ := h key b hBucket
  exact ⟨hTokens, hCap, hPast.trans hLater⟩

theorem Sound.allow (h : l.Sound now) (hLater : now ≤ later) : (l.allow later key).2.Sound later := by
  intro other b hBucket
  rw [allow_eq, put] at hBucket ⊢
  by_cases hKey : other = key
  · subst hKey
    rw [AList.lookup_insert, Option.some_inj] at hBucket
    subst hBucket
    exact ⟨spend_nonneg (h.level_nonneg hLater), spend_le.trans level_le, le_refl later⟩
  · rw [AList.lookup_insert_ne hKey] at hBucket
    exact h.mono hLater other b hBucket

theorem Sound.reap (h : l.Sound now) (hLater : now ≤ later) : (l.reap later maxIdle).Sound later := by
  intro key b hBucket
  rw [lookup_reap] at hBucket
  exact h.mono hLater key b (Option.eq_some_of_filter_eq_some hBucket)

end Buckets

end Limiter

/-- A call of the limiter at the time the clock shows. -/
inductive Call
  | allow (key : String)
  | reap (maxIdle : Int)
  deriving DecidableEq

structure Event where
  time : Int
  call : Call
  deriving DecidableEq

def Event.isAllow (e : Event) : Bool :=
  match e.call with
  | .allow _ => true
  | .reap _ => false

def Limiter.handle (l : Limiter) (e : Event) : Limiter :=
  match e.call with
  | .allow key => (l.allow e.time key).2
  | .reap maxIdle => l.reap e.time maxIdle

/-- What the calls of `Allow` return, in their order. -/
def answers : Limiter → List Event → List Bool
  | _, [] => []
  | l, e :: es =>
      match e.call with
      | .allow key => (l.allow e.time key).1 :: answers (l.handle e) es
      | .reap _ => answers (l.handle e) es

/-- A call for the key is allowed between two times, given in seconds. -/
def allowsIn (key : String) (opens closes : ℚ) (l : Limiter) (e : Event) : Bool :=
  match e.call with
  | .allow k => k = key && (l.allow e.time k).1 && (opens ≤ seconds e.time && seconds e.time ≤ closes)
  | .reap _ => false

/-- Buckets are only reaped after a minute. -/
def Event.Patient (e : Event) : Prop := ∀ maxIdle, e.call = .reap maxIdle → 60 * 10 ^ 9 ≤ maxIdle

section Runs

open Limiter

variable {l : Limiter} {now : Int} {e : Event}

theorem Limiter.Sound.handle (h : l.Sound now) (hLater : now ≤ e.time) : (l.handle e).Sound e.time := by
  rw [Limiter.handle]
  split
  · exact h.allow hLater
  · exact h.reap hLater

theorem handle_perMinute (l : Limiter) (e : Event) : (l.handle e).perMinute = l.perMinute := by
  rw [Limiter.handle]
  split
  · rw [allow_eq, put]
  · rw [reap]

theorem handle_cap (l : Limiter) (e : Event) : (l.handle e).cap = l.cap := by
  rw [cap, cap, handle_perMinute]

theorem handle_rate (l : Limiter) (e : Event) : (l.handle e).rate = l.rate := by
  rw [rate, rate, handle_perMinute]

/-- What an event takes from the allowance of a key. -/
theorem allowance_handle (key : String) {opens closes : ℚ} (hWindow : opens ≤ closes)
    (h : l.Sound now) (hLater : now ≤ e.time) (hPatient : e.Patient) :
    allowance l.cap l.rate opens closes (seconds e.time) ((l.handle e).level key e.time) +
        (if allowsIn key opens closes l e then 1 else 0) ≤
      allowance l.cap l.rate opens closes (seconds now) (l.level key now) := by
  have hWait : allowance l.cap l.rate opens closes (seconds e.time) (l.level key e.time) ≤
      allowance l.cap l.rate opens closes (seconds now) (l.level key now) := by
    have hElapsed : seconds (e.time - now) = seconds e.time - seconds now := by
      rw [eq_sub_iff_add_eq, ← seconds_add, Int.sub_add_cancel]
    have hFlow : l.level key e.time ≤ l.level key now + seconds (e.time - now) * l.rate := by
      rw [h.level_later hLater]
      exact refill_le_add
    rw [hElapsed] at hFlow
    exact allowance_wait cap_pos.le rate_pos.le hWindow (seconds_mono hLater)
      (h.level_nonneg (le_refl now)) level_le hFlow
  refine le_trans ?_ hWait
  cases hCall : e.call with
  | reap maxIdle =>
      have hSame : (l.reap e.time maxIdle).level key e.time = l.level key e.time :=
        h.level_reap hLater (hPatient maxIdle hCall) (le_refl e.time)
      simp only [Limiter.handle, allowsIn, hCall, hSame]
      simp
  | allow k =>
      simp only [Limiter.handle, allowsIn, hCall, Bool.and_eq_true, decide_eq_true_eq]
      by_cases hKey : k = key
      · subst hKey
        rw [level_allow_self]
        simpa only [allow_eq, true_and] using allowance_spend
      · rw [level_allow_ne (Ne.symm hKey), if_neg fun hAll => hKey hAll.1.1, add_zero]

/-- The calls of a run that are allowed in a window are paid from the allowance. -/
theorem length_occurrences_le (key : String) {opens closes : ℚ} (hWindow : opens ≤ closes)
    {events : List Event} (h : l.Sound now) (hLater : ∀ e ∈ events, now ≤ e.time)
    (hOrder : events.Pairwise fun e f => e.time ≤ f.time) (hPatient : ∀ e ∈ events, e.Patient) :
    ((occurrences handle (allowsIn key opens closes) l events).length : ℚ) ≤
      allowance l.cap l.rate opens closes (seconds now) (l.level key now) := by
  induction events generalizing l now with
  | nil =>
      rw [occurrences, List.length_nil, Nat.cast_zero]
      exact allowance_nonneg cap_pos.le rate_pos.le hWindow (h.level_nonneg (le_refl now))
  | cons e events ih =>
      obtain ⟨hNext, hRest⟩ := List.pairwise_cons.mp hOrder
      have hNow := hLater e List.mem_cons_self
      have hPaid := allowance_handle key hWindow h hNow (hPatient e List.mem_cons_self)
      have hLeft := ih (h.handle hNow) hNext hRest fun f hf => hPatient f (List.mem_cons_of_mem e hf)
      rw [handle_cap, handle_rate] at hLeft
      rw [occurrences]
      split_ifs at hPaid ⊢ with hAllowed
      · rw [List.length_cons, Nat.cast_succ]
        exact (add_le_add_left hLeft 1).trans hPaid
      · exact hLeft.trans ((add_zero _).symm.le.trans hPaid)

/-- Two limiters whose buckets hold the same from now on. -/
structure Alike (now : Int) (l m : Limiter) : Prop where
  perMinute : l.perMinute = m.perMinute
  level : ∀ key later, now ≤ later → l.level key later = m.level key later

theorem Alike.allow {m : Limiter} (h : Alike now l m) {later : Int} (hLater : now ≤ later)
    (key : String) :
    (l.allow later key).1 = (m.allow later key).1 ∧
      Alike later (l.allow later key).2 (m.allow later key).2 := by
  have hLevel := h.level key later hLater
  have hCap : l.cap = m.cap := by rw [cap, cap, h.perMinute]
  have hRate : l.rate = m.rate := by rw [rate, rate, h.perMinute]
  rw [allow_eq, allow_eq, hLevel]
  refine ⟨rfl, h.perMinute, ?_⟩
  intro other t ht
  rw [level_put, level_put, hCap, hRate, h.level other t (hLater.trans ht)]

/-- Reaping patiently is not seen in the answers. -/
theorem answers_filter {m : Limiter} {events : List Event} (h : l.Sound now) (hAlike : Alike now l m)
    (hLater : ∀ e ∈ events, now ≤ e.time) (hOrder : events.Pairwise fun e f => e.time ≤ f.time)
    (hPatient : ∀ e ∈ events, e.Patient) :
    answers l events = answers m (events.filter Event.isAllow) := by
  induction events generalizing l m now with
  | nil => rfl
  | cons e events ih =>
      obtain ⟨hNext, hRest⟩ := List.pairwise_cons.mp hOrder
      have hNow := hLater e List.mem_cons_self
      have hAfter : ∀ f ∈ events, f.Patient := fun f hf => hPatient f (List.mem_cons_of_mem e hf)
      cases hCall : e.call with
      | allow key =>
          obtain ⟨hAnswer, hThen⟩ := hAlike.allow hNow key
          have hKeep : e.isAllow = true := by rw [Event.isAllow, hCall]
          have hRun := ih (h.allow hNow) hThen hNext hRest hAfter
          rw [List.filter_cons_of_pos hKeep]
          simp only [answers, hCall, Limiter.handle, hAnswer, hRun]
      | reap maxIdle =>
          have hDrop : ¬e.isAllow = true := by
            rw [Event.isAllow, hCall]
            exact Bool.false_ne_true
          have hThen : Alike e.time (l.reap e.time maxIdle) m := by
            refine ⟨hAlike.perMinute, fun key later hTime => ?_⟩
            have hSince := hNow.trans hTime
            rw [h.level_reap hSince (hPatient e List.mem_cons_self maxIdle hCall) hTime]
            exact hAlike.level key later hSince
          rw [List.filter_cons_of_neg hDrop, ← ih (h.reap hNow) hThen hNext hRest hAfter]
          simp only [answers, hCall, Limiter.handle]

theorem new_perMinute {perMinute : Int} (h : 0 < perMinute) : (new perMinute).perMinute = perMinute := by
  rw [new, dif_neg (not_le.mpr h)]

/-- In every window of some seconds a key is allowed no more calls than the limit and what
the window adds to it. Reaping buckets that have been idle for a minute changes no answer. -/
theorem rate_holds_over_every_window {perMinute : Int} (hPositive : 0 < perMinute)
    {events : List Event} (hOrder : events.Pairwise fun e f => e.time ≤ f.time)
    (hPatient : ∀ e ∈ events, e.Patient) :
    (∀ (key : String) (opens length : ℚ), 0 ≤ length →
      ((occurrences handle (allowsIn key opens (opens + length)) (new perMinute) events).length : ℚ) ≤
        perMinute + length * perMinute / 60) ∧
    answers (new perMinute) events = answers (new perMinute) (events.filter Event.isAllow) := by
  obtain ⟨start, hStart⟩ : ∃ start : Int, ∀ e ∈ events, start ≤ e.time := by
    cases events with
    | nil => exact ⟨0, fun e he => absurd he List.not_mem_nil⟩
    | cons first rest =>
        refine ⟨first.time, fun e he => ?_⟩
        rcases List.mem_cons.mp he with rfl | he
        · exact le_refl _
        · exact (List.pairwise_cons.mp hOrder).1 e he
  have hSound := sound_new perMinute start
  constructor
  · intro key opens length hLength
    have hWindow : opens ≤ opens + length := le_add_of_nonneg_right hLength
    have hCap : (new perMinute).cap = perMinute := by rw [cap, new_perMinute hPositive]
    have hRate : (new perMinute).rate = perMinute / 60 := by rw [rate, new_perMinute hPositive]
    calc ((occurrences handle (allowsIn key opens (opens + length)) (new perMinute) events).length : ℚ)
      _ ≤ allowance (new perMinute).cap (new perMinute).rate opens (opens + length) (seconds start)
            ((new perMinute).level key start) :=
          length_occurrences_le key hWindow hSound hStart hOrder hPatient
      _ ≤ (new perMinute).cap + (opens + length - opens) * (new perMinute).rate :=
          allowance_le cap_pos.le rate_pos.le hWindow level_le
      _ = perMinute + length * perMinute / 60 := by
          rw [hCap, hRate, add_sub_cancel_left, mul_div_assoc]
  · exact answers_filter hSound ⟨rfl, fun _ _ _ => rfl⟩ hStart hOrder hPatient

/-- A key asked twice in a second, then again after its bucket was reaped. -/
def sampleEvents : List Event :=
  [⟨0, .allow "192.0.2.7"⟩, ⟨10 ^ 9, .allow "192.0.2.7"⟩, ⟨62 * 10 ^ 9, .reap (60 * 10 ^ 9)⟩,
    ⟨62 * 10 ^ 9, .allow "192.0.2.7"⟩]

theorem rate_holds_for_sample :
    answers (new 1) sampleEvents = [true, false, true] ∧
    ((occurrences handle (allowsIn "192.0.2.7" 0 (0 + 30)) (new 1) sampleEvents).length : ℚ) ≤
      (1 : Int) + 30 * (1 : Int) / 60 ∧
    answers (new 1) sampleEvents = answers (new 1) (sampleEvents.filter Event.isAllow) := by
  have hOrder : sampleEvents.Pairwise fun e f => e.time ≤ f.time := by decide
  have hPatient : ∀ e ∈ sampleEvents, e.Patient := by
    simp [sampleEvents, Event.Patient]
  obtain ⟨hWindow, hReap⟩ := rate_holds_over_every_window (by decide : (0 : Int) < 1) hOrder hPatient
  exact ⟨by decide +kernel, hWindow "192.0.2.7" 0 30 (by norm_num), hReap⟩

end Runs

end Ratelimit
