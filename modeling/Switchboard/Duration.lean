/-!
# Durations

A length of time as a machine holds it: whole seconds that fit a word, and the
nanoseconds of the second that is not whole. A duration is multiplied part by
part, with a carry from the nanoseconds to the seconds; a product that does not
fit is cut off at the longest duration. Read as a number of nanoseconds, all of
this is the arithmetic of natural numbers up to that length.

## Main definitions

* `Duration`: Seconds and nanoseconds.
* `Duration.inNanos`, `Duration.millis`: The length as a number.
* `Duration.ofMillis`: The duration of a number of milliseconds.
* `Duration.longest`: The longest duration.
* `Duration.shorter`: The shorter one of two durations.
* `Duration.times?`, `Duration.times`: A multiple, if it fits and cut off.

## Theorems

* `Duration.inNanos_inj`: A duration is determined by its length.
* `Duration.inNanos_ofMillis`: Milliseconds are told exactly up to the longest duration.
* `Duration.inNanos_shorter`: The shorter one has the smaller length.
* `Duration.inNanos_times`: A multiple has the multiplied length, up to the longest duration.
* `Duration.inNanos_times_ofMillis`: A multiple of milliseconds is cut off once.
-/

namespace Switchboard

/-- A length of time. -/
structure Duration where
  /-- The whole seconds. -/
  seconds : Nat
  /-- The nanoseconds beyond them. -/
  nanos : Nat
  seconds_lt : seconds < Nat.pow 2 64
  nanos_lt : nanos < 1000000000
  deriving DecidableEq

namespace Duration

/-- The length in nanoseconds. -/
def inNanos (d : Duration) : Nat :=
  d.seconds * 1000000000 + d.nanos

/-- The whole milliseconds of a duration. -/
def millis (d : Duration) : Nat :=
  d.seconds * 1000 + d.nanos / 1000000

/-- The longest duration. -/
def longest : Duration :=
  ⟨Nat.pow 2 64 - 1, 999999999, by decide, by decide⟩

/-- The duration of a number of milliseconds, or the longest one. -/
def ofMillis (ms : Nat) : Duration :=
  if h : ms / 1000 < Nat.pow 2 64 then
    ⟨ms / 1000, ms % 1000 * 1000000, h, by omega⟩
  else longest

/-- Whether a duration is shorter than another one. -/
def before (a b : Duration) : Bool :=
  a.seconds < b.seconds || (a.seconds == b.seconds && a.nanos < b.nanos)

/-- The shorter one of two durations. -/
def shorter (a b : Duration) : Duration :=
  if b.before a then b else a

/-- A multiple of a duration, if its seconds fit. -/
def times? (d : Duration) (k : UInt32) : Option Duration :=
  let nanos := d.nanos * k.toNat
  let seconds := d.seconds * k.toNat + nanos / 1000000000
  if h : seconds < Nat.pow 2 64 then
    some ⟨seconds, nanos % 1000000000, h, Nat.mod_lt _ (by decide)⟩
  else none

/-- A multiple of a duration, or the longest one. -/
def times (d : Duration) (k : UInt32) : Duration :=
  (d.times? k).getD longest

theorem inNanos_longest : longest.inNanos = Nat.pow 2 64 * 1000000000 - 1 := by decide

theorem millis_longest : longest.millis = Nat.pow 2 64 * 1000 - 1 := by decide

theorem inNanos_le_longest (d : Duration) : d.inNanos ≤ longest.inNanos := by
  have hseconds := d.seconds_lt
  have hnanos := d.nanos_lt
  rw [inNanos_longest, inNanos]
  omega

theorem inNanos_inj {a b : Duration} : a.inNanos = b.inNanos ↔ a = b := by
  refine ⟨fun h => ?_, fun h => by rw [h]⟩
  have ha := a.nanos_lt
  have hb := b.nanos_lt
  rcases a with ⟨sa, na, _, _⟩
  rcases b with ⟨sb, nb, _, _⟩
  simp only [inNanos] at h ha hb
  obtain rfl : sa = sb := by omega
  obtain rfl : na = nb := by omega
  rfl

theorem millis_eq (d : Duration) : d.millis = d.inNanos / 1000000 := by
  rw [millis, inNanos]
  omega

theorem inNanos_ofMillis (ms : Nat) :
    (ofMillis ms).inNanos = min (ms * 1000000) longest.inNanos := by
  rw [ofMillis]
  split
  case isTrue h =>
    have hfits : ms * 1000000 ≤ longest.inNanos := by
      rw [inNanos_longest]
      omega
    rw [Nat.min_eq_left hfits]
    dsimp only [inNanos]
    omega
  case isFalse h =>
    have hover : longest.inNanos ≤ ms * 1000000 := by
      rw [inNanos_longest]
      omega
    rw [Nat.min_eq_right hover]

theorem before_iff (a b : Duration) : a.before b = true ↔ a.inNanos < b.inNanos := by
  have ha := a.nanos_lt
  have hb := b.nanos_lt
  simp only [before, inNanos, Bool.or_eq_true, Bool.and_eq_true, decide_eq_true_eq, beq_iff_eq]
  omega

theorem inNanos_shorter (a b : Duration) :
    (a.shorter b).inNanos = min a.inNanos b.inNanos := by
  have hbefore := before_iff b a
  rw [shorter]
  split
  case isTrue h => rw [Nat.min_eq_right (Nat.le_of_lt (hbefore.1 h))]
  case isFalse h => rw [Nat.min_eq_left (Nat.le_of_not_lt fun hlt => h (hbefore.2 hlt))]

/-- The nanoseconds that make a whole second are carried, so no part of a multiple is lost. -/
theorem inNanos_times (d : Duration) (k : UInt32) :
    (d.times k).inNanos = min (d.inNanos * k.toNat) longest.inNanos := by
  have hproduct : d.inNanos * k.toNat =
      (d.seconds * k.toNat) * 1000000000 + d.nanos * k.toNat := by
    rw [inNanos, Nat.add_mul, Nat.mul_right_comm]
  rw [times, times?, hproduct, inNanos_longest]
  generalize d.seconds * k.toNat = seconds
  split
  case isTrue h =>
    dsimp only [Option.getD_some, inNanos]
    omega
  case isFalse h =>
    rw [Option.getD_none, inNanos_longest]
    omega

theorem millis_shorter (a b : Duration) : (a.shorter b).millis = min a.millis b.millis := by
  rw [millis_eq, inNanos_shorter, millis_eq a, millis_eq b]
  rcases Nat.le_total a.inNanos b.inNanos with h | h
  · rw [Nat.min_eq_left h, Nat.min_eq_left (Nat.div_le_div_right h)]
  · rw [Nat.min_eq_right h, Nat.min_eq_right (Nat.div_le_div_right h)]

/-- A duration of whole milliseconds, cut off or not, has as many of them as fit. -/
theorem millis_of_inNanos {d : Duration} {ms : Nat}
    (h : d.inNanos = min (ms * 1000000) longest.inNanos) : d.millis = min ms longest.millis := by
  rw [millis_eq, millis_eq longest, h]
  generalize longest.inNanos = most
  rcases Nat.le_total (ms * 1000000) most with hle | hle
  · rw [Nat.min_eq_left hle]
    omega
  · rw [Nat.min_eq_right hle]
    omega

/-- A first duration that is cut off stays so: its multiple is no shorter. -/
theorem inNanos_times_ofMillis (ms : Nat) {k : UInt32} (hk : 0 < k.toNat) :
    ((ofMillis ms).times k).inNanos = min (ms * k.toNat * 1000000) longest.inNanos := by
  have hcut : longest.inNanos ≤ longest.inNanos * k.toNat := Nat.le_mul_of_pos_right _ hk
  rw [inNanos_times, inNanos_ofMillis, ← Nat.mul_min_mul_right, Nat.mul_right_comm,
    Nat.min_assoc, Nat.min_eq_right hcut]

end Duration

end Switchboard
