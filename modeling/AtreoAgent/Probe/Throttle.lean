import AtreoAgent.Ratelimit.Limiter

/-! The limit on requests to the probe server (`allow`, `reapBuckets`). Each source has a leaky
bucket: a request adds to it, and time takes from it. A source is answered as if it had a token
bucket to itself, and nobody else asked and nothing was reaped. -/
namespace Probe

open Machine TokenBucket Ratelimit

def capacity : ℚ := 10

def leakPerSec : ℚ := 1

/-- Five minutes. -/
def maxIdle : Int := 5 * 60 * 10 ^ 9

structure Bucket where
  tokens : ℚ
  updatedAt : Int
  deriving DecidableEq

/-- What is in a bucket after it has leaked. -/
def Bucket.leaked (b : Bucket) (now : Int) : ℚ :=
  let elapsed := seconds (sub now b.updatedAt)
  let elapsed := if elapsed < 0 then 0 else elapsed
  let tokens := b.tokens - elapsed * leakPerSec
  if tokens < 0 then 0 else tokens

abbrev Buckets : Type := AList fun _ : String => Bucket

namespace Buckets

/-- A source without a bucket gets an empty one. -/
def allow (bs : Buckets) (now : Int) (host : String) : Bool × Buckets :=
  let b := (bs.lookup host).getD ⟨0, now⟩
  let tokens := b.leaked now
  if capacity < tokens + 1 then (false, bs.insert host ⟨tokens, now⟩)
  else (true, bs.insert host ⟨tokens + 1, now⟩)

def reapBuckets (bs : Buckets) (now : Int) : Buckets :=
  Table.dropIf (fun b : Bucket => maxIdle < sub now b.updatedAt) bs

end Buckets

/-- A request of a source, or a tick of the reaper. -/
inductive Call
  | request (host : String)
  | reap
  deriving DecidableEq

structure Event where
  time : Int
  call : Call
  deriving DecidableEq

def Buckets.handle (bs : Buckets) (e : Event) : Buckets :=
  match e.call with
  | .request host => (bs.allow e.time host).2
  | .reap => bs.reapBuckets e.time

/-- What a source is answered, in the order of its requests. -/
def answersTo (host : String) : Buckets → List Event → List Bool
  | _, [] => []
  | bs, e :: es =>
      if e.call = .request host then (bs.allow e.time host).1 :: answersTo host (bs.handle e) es
      else answersTo host (bs.handle e) es

/-! The lone bucket of one source. -/

structure Lone where
  level : ℚ
  time : Int

namespace Lone

def held (b : Lone) (now : Int) : ℚ := refill capacity leakPerSec b.level (seconds (now - b.time))

def ask (b : Lone) (now : Int) : Bool × Lone := (enough (b.held now), ⟨spend (b.held now), now⟩)

def answers : Lone → List Int → List Bool
  | _, [] => []
  | b, t :: ts => (b.ask t).1 :: answers (b.ask t).2 ts

end Lone

def timesOf (host : String) (es : List Event) : List Int :=
  (es.filter fun e => e.call = .request host).map (·.time)

theorem seconds_ten : seconds (10 * 10 ^ 9) = capacity := by norm_num [capacity, seconds]

namespace Lone

variable {b : Lone} {now later : Int}

theorem flow_nonneg {d : Int} (h : 0 ≤ d) : 0 ≤ seconds d * leakPerSec :=
  mul_nonneg (Limiter.seconds_nonneg h) zero_le_one

theorem held_nonneg (hLevel : 0 ≤ b.level) (h : b.time ≤ now) : 0 ≤ b.held now :=
  refill_nonneg (by norm_num [capacity]) hLevel (flow_nonneg (by omega))

/-- A full bucket stays full until it is asked. -/
theorem held_later (h : now ≤ later) (hFull : b.held now = capacity) : b.held later = capacity := by
  have hSplit : later - b.time = now - b.time + (later - now) := by omega
  have hFlow : 0 ≤ seconds (later - now) * leakPerSec := flow_nonneg (by omega)
  rw [held, hSplit, Limiter.seconds_add, ← refill_refill hFlow]
  rw [held] at hFull
  rw [hFull, refill_cap hFlow]

/-- Ten seconds fill a bucket. -/
theorem held_of_idle (hLevel : 0 ≤ b.level) (h : 10 * 10 ^ 9 ≤ now - b.time) :
    b.held now = capacity := by
  refine refill_eq_cap hLevel ?_
  rw [leakPerSec, mul_one, ← seconds_ten]
  exact Limiter.seconds_mono h

end Lone

/-- A leaky bucket is a token bucket seen from the other side. -/
theorem leaked_eq {b : Bucket} {now : Int} (hFull : b.tokens ≤ capacity) (hPast : b.updatedAt ≤ now) :
    b.leaked now = capacity - (Lone.mk (capacity - b.tokens) b.updatedAt).held now := by
  have hElapsed : 0 ≤ seconds (sub now b.updatedAt) := by
    refine Limiter.seconds_nonneg ?_
    rw [sub]
    omega
  have hLeak : b.leaked now = max 0 (b.tokens - seconds (sub now b.updatedAt)) := by
    simp only [Bucket.leaked, if_neg (not_lt.mpr hElapsed), leakPerSec, mul_one]
    rw [max_comm, max_def_lt]
  have hHeld : (Lone.mk (capacity - b.tokens) b.updatedAt).held now =
      min capacity (capacity - (b.tokens - seconds (now - b.updatedAt))) := by
    rw [Lone.held, refill, leakPerSec, mul_one]
    congr 1
    dsimp only
    linarith
  by_cases hShort : now - b.updatedAt ≤ 2 ^ 63 - 1
  · have hSub : sub now b.updatedAt = now - b.updatedAt := by
      rw [sub]
      omega
    rw [hLeak, hHeld, hSub]
    rcases le_total 0 (b.tokens - seconds (now - b.updatedAt)) with hLeft | hLeft
    · rw [max_eq_right hLeft, min_eq_right (sub_le_self _ hLeft), sub_sub_cancel]
    · rw [max_eq_left hLeft, min_eq_left (by linarith), sub_self]
  · -- the difference of the times is cut off, long after the bucket is empty
    have hLong : 10 * 10 ^ 9 ≤ sub now b.updatedAt := by
      rw [sub]
      omega
    have hEmpty : capacity ≤ seconds (sub now b.updatedAt) := by
      rw [← seconds_ten]
      exact Limiter.seconds_mono hLong
    have hIdle : (Lone.mk (capacity - b.tokens) b.updatedAt).held now = capacity :=
      Lone.held_of_idle (sub_nonneg.mpr hFull) (by dsimp only; omega)
    rw [hLeak, hIdle, sub_self, max_eq_left]
    linarith

/-- The bucket of a source, as far as it is kept, and its lone bucket. -/
structure Alike (host : String) (now : Int) (bs : Buckets) (l : Lone) : Prop where
  past : l.time ≤ now
  level : 0 ≤ l.level
  unknown : bs.lookup host = none → l.held now = capacity
  known : ∀ b, bs.lookup host = some b →
    b.tokens ≤ capacity ∧ l = ⟨capacity - b.tokens, b.updatedAt⟩

namespace Alike

variable {host : String} {now : Int} {bs : Buckets} {l : Lone}

theorem later (h : Alike host now bs l) {later : Int} (hLater : now ≤ later) :
    Alike host later bs l where
  past := h.past.trans hLater
  level := h.level
  unknown hNone := Lone.held_later hLater (h.unknown hNone)
  known := h.known

/-- What the bucket holds and what the lone bucket holds make up the capacity. -/
theorem leaked (h : Alike host now bs l) :
    ((bs.lookup host).getD ⟨0, now⟩).leaked now = capacity - l.held now := by
  cases hBucket : bs.lookup host with
  | none =>
      have hZero : seconds (sub now now) = 0 := by simp [sub, seconds]
      simp [h.unknown hBucket, Bucket.leaked, hZero]
  | some b =>
      obtain ⟨hFull, rfl⟩ := h.known b hBucket
      exact leaked_eq hFull h.past

theorem allow_eq (h : Alike host now bs l) :
    bs.allow now host = (enough (l.held now), bs.insert host ⟨capacity - spend (l.held now), now⟩) := by
  by_cases hEnough : 1 ≤ l.held now
  · have hTaken : capacity - l.held now + 1 = capacity - (l.held now - 1) := by linarith
    have hRoom : ¬ capacity < capacity - (l.held now - 1) := by linarith
    have hYes : enough (l.held now) = true := decide_eq_true hEnough
    simp only [Buckets.allow, h.leaked, hTaken, if_neg hRoom, spend, hYes, if_true]
  · have hRoom : capacity < capacity - l.held now + 1 := by linarith
    have hNo : enough (l.held now) = false := decide_eq_false hEnough
    simp only [Buckets.allow, h.leaked, if_pos hRoom, spend, hNo, Bool.false_eq_true, if_false]

theorem request (h : Alike host now bs l) :
    (bs.allow now host).1 = (l.ask now).1 ∧ Alike host now (bs.allow now host).2 (l.ask now).2 := by
  have hNonneg : 0 ≤ spend (l.held now) := spend_nonneg (Lone.held_nonneg h.level h.past)
  rw [h.allow_eq]
  refine ⟨rfl, le_refl now, hNonneg, fun hNone => ?_, fun b hb => ?_⟩
  · rw [AList.lookup_insert] at hNone
    cases hNone
  · rw [AList.lookup_insert, Option.some.injEq] at hb
    subst hb
    exact ⟨sub_le_self _ hNonneg, by rw [sub_sub_cancel]; rfl⟩

theorem other (h : Alike host now bs l) {source : String} (hOther : host ≠ source) :
    Alike host now (bs.allow now source).2 l := by
  have hSame : (bs.allow now source).2.lookup host = bs.lookup host := by
    simp only [Buckets.allow]
    split <;> exact AList.lookup_insert_ne hOther
  exact ⟨h.past, h.level, fun hNone => h.unknown (hSame.symm.trans hNone),
    fun b hb => h.known b (hSame.symm.trans hb)⟩

/-- A bucket that is dropped has been empty for long. -/
theorem reap (h : Alike host now bs l) : Alike host now (bs.reapBuckets now) l := by
  have hLookup : (bs.reapBuckets now).lookup host = (bs.lookup host).filter fun b =>
      !decide (maxIdle < sub now b.updatedAt) := Table.lookup_dropIf _ _ _
  refine ⟨h.past, h.level, fun hNone => ?_, fun b hb => ?_⟩
  · cases hBucket : bs.lookup host with
    | none => exact h.unknown hBucket
    | some b =>
        obtain ⟨_, rfl⟩ := h.known b hBucket
        rw [hLookup, hBucket] at hNone
        have hIdle : maxIdle < sub now b.updatedAt := by
          by_contra hKept
          simp [Option.filter, hKept] at hNone
        refine Lone.held_of_idle h.level ?_
        rw [maxIdle, sub] at hIdle
        dsimp only
        omega
  · rw [hLookup] at hb
    exact h.known b (Option.eq_some_of_filter_eq_some hb)

end Alike

theorem answersTo_eq {host : String} {now : Int} {bs : Buckets} {l : Lone} {es : List Event}
    (h : Alike host now bs l) (hLater : ∀ e ∈ es, now ≤ e.time)
    (hOrder : es.Pairwise fun e f => e.time ≤ f.time) :
    answersTo host bs es = l.answers (timesOf host es) := by
  induction es generalizing now bs l with
  | nil => rfl
  | cons e es ih =>
      obtain ⟨hNext, hRest⟩ := List.pairwise_cons.mp hOrder
      have hNow := h.later (hLater e List.mem_cons_self)
      by_cases hCall : e.call = .request host
      · obtain ⟨hAnswer, hThen⟩ := hNow.request
        have hTimes : timesOf host (e :: es) = e.time :: timesOf host es := by
          simp [timesOf, hCall]
        rw [answersTo, if_pos hCall, hTimes, Lone.answers, hAnswer, Buckets.handle, hCall]
        exact congrArg _ (ih hThen hNext hRest)
      · have hTimes : timesOf host (e :: es) = timesOf host es := by simp [timesOf, hCall]
        have hThen : Alike host e.time (bs.handle e) l := by
          rw [Buckets.handle]
          cases hKind : e.call with
          | request source =>
              exact hNow.other fun hSame => hCall (by rw [hKind, hSame])
          | reap => exact hNow.reap
        rw [answersTo, if_neg hCall, hTimes]
        exact ih hThen hNext hRest

/-- Whoever else asks and whatever the reaper drops, a source gets the answers of a token bucket
of its own, which holds ten tokens and gets one a second. -/
theorem answers_as_lone_bucket {start : Int} {events : List Event}
    (hStart : ∀ e ∈ events, start ≤ e.time)
    (hOrder : events.Pairwise fun e f => e.time ≤ f.time) (host : String) :
    answersTo host (∅ : AList fun _ : String => Bucket) events =
      (Lone.mk capacity start).answers (timesOf host events) := by
  refine answersTo_eq ⟨le_refl start, by norm_num [capacity], fun _ => ?_, fun b hb => ?_⟩ hStart hOrder
  · have hNoTime : seconds (start - start) = 0 := by simp [seconds]
    rw [Lone.held, hNoTime, refill_zero (le_refl capacity)]
  · cases hb

/-- Eleven requests at once, then the reaper and one more. -/
def sampleEvents : List Event :=
  List.replicate 11 ⟨0, .request "192.168.1.7"⟩ ++
    [⟨1, .request "192.168.1.8"⟩, ⟨301 * 10 ^ 9, .reap⟩, ⟨301 * 10 ^ 9, .request "192.168.1.7"⟩]

theorem answers_as_lone_bucket_sample :
    answersTo "192.168.1.7" (∅ : AList fun _ : String => Bucket) sampleEvents =
      (Lone.mk capacity 0).answers (timesOf "192.168.1.7" sampleEvents) := by
  refine answers_as_lone_bucket ?_ ?_ _
  · simp [sampleEvents]
  · decide

example : (Lone.mk capacity 0).answers (timesOf "192.168.1.7" sampleEvents) =
    List.replicate 10 true ++ [false, true] := by decide +kernel

end Probe
