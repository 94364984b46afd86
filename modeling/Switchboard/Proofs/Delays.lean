import Switchboard.Settings.Reader

/-!
# Delays

How long an operation waits before it is tried again. The delay is computed on
machine durations, with a factor made by a shift, a product that is cut off and
a comparison of seconds and nanoseconds. Told as a number it is the first delay
doubled with every attempt, up to the limit: no cut shows, because the limit is
a duration itself. From this follows that delays never get shorter.

A policy made of settings has a limit that is not below the first delay, and
settings that are read from a text have delays that fit a word, which a
duration can tell. All delays are then between the first one and the limit.

## Main definitions

* `Settings.WordSized`: The numbers for retries fit their words.
* `RetryPolicy.patient`: Settings that call for a delay beyond the longest duration.

## Theorems

* `RetryPolicy.inNanos_backoff_mono`: A later delay is not shorter.
* `RetryPolicy.inNanos_backoff_ofMillis`: Delays are whole milliseconds.
* `Settings.read?_wordSized`: Settings that are read from a text fit their words.
* `Settings.le_delayAfter`: No delay is shorter than the first one of the settings.
* `RetryPolicy.backoff_exact`: Delays double exactly, up to the limit, for every policy and for
  every policy that is made of settings.
-/

namespace Switchboard

namespace RetryPolicy

theorem doublings_mono {n m : Nat} (h : n ≤ m) :
    Nat.pow 2 (min (n - 1) maxDoublings) ≤ Nat.pow 2 (min (m - 1) maxDoublings) :=
  Nat.pow_le_pow_right (by decide) (by omega)

theorem inNanos_backoff_mono (base most : Duration) {n m : Nat} (h : n ≤ m) :
    (backoff base most n).inNanos ≤ (backoff base most m).inNanos := by
  have hproduct := Nat.mul_le_mul_left base.inNanos (doublings_mono h)
  rw [inNanos_backoff, inNanos_backoff]
  omega

theorem delayAfter_of_le {p : RetryPolicy} (hmost : p.maxDelay ≤ Duration.longest.millis)
    (n : Nat) :
    p.delayAfter n = min (p.baseDelay * Nat.pow 2 (min (n - 1) maxDoublings)) p.maxDelay := by
  rw [delayAfter_eq, Nat.min_assoc, Nat.min_eq_right hmost]

theorem delayAfter_mono (p : RetryPolicy) {n m : Nat} (h : n ≤ m) :
    p.delayAfter n ≤ p.delayAfter m := by
  rw [delayAfter, delayAfter, Duration.millis_eq, Duration.millis_eq]
  exact Nat.div_le_div_right (inNanos_backoff_mono _ _ h)

/-- No part of a millisecond is lost when the delay is told in milliseconds. -/
theorem inNanos_backoff_ofMillis {p : RetryPolicy} (hmost : p.maxDelay ≤ Duration.longest.millis)
    (n : Nat) :
    (backoff (.ofMillis p.baseDelay) (.ofMillis p.maxDelay) n).inNanos =
      p.delayAfter n * 1000000 := by
  have hfits : p.maxDelay * 1000000 ≤ Duration.longest.inNanos := by
    rw [Duration.millis_eq] at hmost
    exact (Nat.le_div_iff_mul_le (by decide)).1 hmost
  rw [delayAfter_of_le hmost, backoff, Duration.inNanos_shorter,
    Duration.inNanos_times_ofMillis p.baseDelay (factor_pos n), Duration.inNanos_ofMillis,
    factor_toNat, Nat.min_eq_left hfits, Nat.min_assoc, Nat.min_eq_right hfits,
    Nat.mul_min_mul_right]

end RetryPolicy

namespace Settings

/-- The numbers for retries fit their words. -/
structure WordSized (s : Settings) : Prop where
  attempts : s.retry.maxAttempts < Nat.pow 2 32
  base : s.retry.baseDelay < Nat.pow 2 64
  most : s.retry.maxDelay < Nat.pow 2 64

theorem word_lt {bound n : Nat} {v : Toml} (h : word bound v = some n) : n < bound := by
  rw [word.eq_def] at h
  split at h
  case h_1 k =>
    split at h
    case isTrue hk => exact Option.some.inj h ▸ hk
    case isFalse => cases h
  case h_2 => cases h

/-- A field holds what its value or its usual value does. -/
theorem field_holds {α : Type} {P : α → Prop} {source : Source} {key : String} {position : Nat}
    {read : Toml → Option α} {missing x : α} (hmissing : P missing)
    (hread : ∀ v x, read v = some x → P x)
    (h : field source key position read missing = some x) : P x := by
  rw [field] at h
  split at h
  case h_1 v _ => exact hread v x h
  case h_2 => exact Option.some.inj h ▸ hmissing

theorem retryOf_fits {v : Toml} {retry : RetrySettings} (h : retryOf v = some retry) :
    retry.maxAttempts < Nat.pow 2 32 ∧ retry.baseDelay < Nat.pow 2 64 ∧
      retry.maxDelay < Nat.pow 2 64 := by
  simp only [retryOf, bind, Option.bind_eq_some_iff, Option.some.injEq] at h
  obtain ⟨source, -, attempts, hattempts, base, hbase, most, hmost, rfl⟩ := h
  exact ⟨field_holds (P := (· < Nat.pow 2 32)) (by decide) (fun _ _ => word_lt) hattempts,
    field_holds (P := (· < Nat.pow 2 64)) (by decide) (fun _ _ => word_lt) hbase,
    field_holds (P := (· < Nat.pow 2 64)) (by decide) (fun _ _ => word_lt) hmost⟩

theorem ofToml_wordSized {members : List (String × Toml)} {s : Settings}
    (h : ofToml members = some s) : s.WordSized := by
  simp only [ofToml, bind, Option.bind_eq_some_iff, Option.some.injEq] at h
  obtain ⟨retry, hretry, provider, -, maxToolCalls, -, rfl⟩ := h
  obtain ⟨hattempts, hbase, hmost⟩ := field_holds (by decide) (fun _ _ => retryOf_fits) hretry
  exact ⟨hattempts, hbase, hmost⟩

theorem read?_wordSized {text : String} {s : Settings} (h : read? text = some s) :
    s.WordSized := by
  obtain ⟨members, -, hmembers⟩ := Option.bind_eq_some_iff.1 h
  exact ofToml_wordSized hmembers

/-- The limit of the policy of settings is told exactly by a duration. -/
theorem retryPolicy_maxDelay_le {s : Settings} (hs : s.WordSized) :
    s.retryPolicy.maxDelay ≤ Duration.longest.millis := by
  have hbase := hs.base
  have hmost := hs.most
  rw [retryPolicy, Duration.millis_longest]
  dsimp only
  omega

theorem le_delayAfter {s : Settings} (hs : s.WordSized) (n : Nat) :
    s.retry.baseDelay ≤ s.retryPolicy.delayAfter n := by
  have hpos : 0 < Nat.pow 2 (min (n - 1) RetryPolicy.maxDoublings) := Nat.pow_pos (by decide)
  rw [RetryPolicy.delayAfter_of_le (retryPolicy_maxDelay_le hs)]
  exact Nat.le_min.2 ⟨Nat.le_mul_of_pos_right _ hpos, s.baseDelay_le_maxDelay⟩

end Settings

namespace RetryPolicy

/-- A delay is the first one doubled with every attempt but the first, sixteen times at the most,
    and cut at the limit, in exact numbers; it never gets shorter and never exceeds the limit. The
    delays of a policy in milliseconds are such delays, to the nanosecond. The policy that
    settings install, which fit their words whenever they are read from a text, allows an attempt
    and has delays between the first delay and the larger one of the two delays of the settings. -/
theorem backoff_exact :
    (∀ (base most : Duration) (n : Nat),
      (backoff base most n).inNanos =
          min (base.inNanos * Nat.pow 2 (min (n - 1) 16)) most.inNanos ∧
        (backoff base most n).inNanos ≤ most.inNanos ∧
        ∀ m, n ≤ m → (backoff base most n).inNanos ≤ (backoff base most m).inNanos) ∧
    (∀ p : RetryPolicy, p.maxDelay ≤ Duration.longest.millis → ∀ n,
      p.delayAfter n = min (p.baseDelay * Nat.pow 2 (min (n - 1) 16)) p.maxDelay ∧
        (backoff (.ofMillis p.baseDelay) (.ofMillis p.maxDelay) n).inNanos =
          p.delayAfter n * 1000000 ∧
        p.delayAfter n ≤ p.maxDelay ∧ ∀ m, n ≤ m → p.delayAfter n ≤ p.delayAfter m) ∧
    (∀ (text : String) (s : Settings), Settings.read? text = some s → s.WordSized) ∧
    ∀ (s : Settings) (config : ServerConfig), s.WordSized →
      1 ≤ (s.applyTo config).retry.maxAttempts ∧
        ∀ n, s.retry.baseDelay ≤ (s.applyTo config).retry.delayAfter n ∧
          (s.applyTo config).retry.delayAfter n ≤ max s.retry.maxDelay s.retry.baseDelay := by
  refine ⟨fun base most n => ⟨inNanos_backoff base most n, ?_, fun m hnm => ?_⟩,
    fun p hmost n => ⟨delayAfter_of_le hmost n, inNanos_backoff_ofMillis hmost n,
      p.delayAfter_le n, fun m => p.delayAfter_mono⟩,
    fun text s => Settings.read?_wordSized, fun s config hs => ⟨s.retryPolicy_attempts, ?_⟩⟩
  · rw [inNanos_backoff]
    exact Nat.min_le_right _ _
  · exact inNanos_backoff_mono base most hnm
  · intro n
    exact ⟨Settings.le_delayAfter hs n, delayAfter_le s.retryPolicy n⟩

/-- Settings of no attempt, and of a first delay that is longer than the longest one. -/
def patient : Settings :=
  ⟨⟨0, 9223372036854775807, 8000⟩, ⟨.echo, 25⟩, none⟩

/-- The settings are read from a text; the product for the last attempt number does not fit a
    duration, and the delay is still the one that exact numbers give. -/
theorem patient_backoff_exact :
    Settings.read? "[retry]\nmax_attempts = 0\nbase_delay_ms = 9223372036854775807\n" =
        some patient ∧
      patient.WordSized ∧
      ((Duration.ofMillis 9223372036854775807).times? (factor 4294967295)).isNone = true ∧
      patient.retryPolicy.delayAfter 4294967295 =
        min (9223372036854775807 * Nat.pow 2 16) 9223372036854775807 ∧
      1 ≤ (patient.applyTo .standard).retry.maxAttempts ∧
      9223372036854775807 ≤ (patient.applyTo .standard).retry.delayAfter 0 := by
  obtain ⟨-, hpolicy, hread, hinstalled⟩ := backoff_exact
  have htext : Settings.read?
      "[retry]\nmax_attempts = 0\nbase_delay_ms = 9223372036854775807\n" = some patient := by
    decide +kernel
  have hwords : patient.WordSized := hread _ _ htext
  obtain ⟨hattempts, hdelays⟩ := hinstalled patient .standard hwords
  exact ⟨htext, hwords, by decide, (hpolicy patient.retryPolicy (by decide) 4294967295).1,
    hattempts, (hdelays 0).1⟩

end RetryPolicy

end Switchboard
