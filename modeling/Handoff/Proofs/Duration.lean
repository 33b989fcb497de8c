import Handoff.Duration
/-!
# Durations as numbers

A duration stands for a number of nanoseconds, and every number up to that of the longest duration
for one.  Its multiples are those of the number, as far as they are durations: neither the
nanoseconds nor what they carry into the seconds wraps.
-/

namespace Handoff

namespace Duration

theorem toNanos_max : max.toNanos + 1 = UInt64.size * nanosPerSecond := by decide

theorem toNanos_ofNanos (nanos : Nat) : (ofNanos nanos).toNanos = min nanos max.toNanos := by
  have hmax := toNanos_max
  have hparts := Nat.div_add_mod' nanos nanosPerSecond
  unfold ofNanos
  split
  · next hfits =>
    have hsecs : (UInt64.ofNat (nanos / nanosPerSecond)).toNat = nanos / nanosPerSecond :=
      UInt64.toNat_ofNat_of_lt' hfits
    have hbelow : nanos < UInt64.size * nanosPerSecond :=
      (Nat.div_lt_iff_lt_mul (by decide)).1 hfits
    rw [toNanos, hsecs, hparts]
    omega
  · next hover =>
    have habove : UInt64.size * nanosPerSecond ≤ nanos :=
      (Nat.le_div_iff_mul_le (by decide)).1 (Nat.not_lt.1 hover)
    omega

theorem toNat_nanosTimes (d : Duration) (count : UInt32) :
    (d.nanosTimes count).toNat = d.nanos * count.toNat := by
  have hnanos : d.nanos < nanosPerSecond := d.nanos_lt
  have hword : d.nanos < UInt64.size := Nat.lt_trans hnanos (by decide)
  have hproduct : d.nanos * count.toNat < UInt64.size :=
    calc d.nanos * count.toNat
        ≤ nanosPerSecond * UInt32.size :=
          Nat.mul_le_mul (Nat.le_of_lt hnanos) (Nat.le_of_lt count.toNat_lt)
      _ < UInt64.size := by decide
  rw [nanosTimes, UInt64.toNat_mul, UInt64.toNat_ofNat_of_lt' hword, UInt32.toNat_toUInt64]
  exact Nat.mod_eq_of_lt hproduct

theorem product?_bind_sum? (a b carry : UInt64) :
    ((product? a b).bind fun product => sum? product carry) =
      if a.toNat * b.toNat + carry.toNat < UInt64.size then
        some (UInt64.ofNat (a.toNat * b.toNat + carry.toNat))
      else none := by
  by_cases hproduct : a.toNat * b.toNat < UInt64.size
  · have hword : (a * b).toNat = a.toNat * b.toNat :=
      (UInt64.toNat_mul a b).trans (Nat.mod_eq_of_lt hproduct)
    rw [product?, if_pos hproduct, Option.bind_some, sum?, hword, UInt64.ofNat_add,
      UInt64.ofNat_mul, UInt64.ofNat_toNat, UInt64.ofNat_toNat, UInt64.ofNat_toNat]
  · rw [product?, if_neg hproduct, Option.bind_none,
      if_neg fun hsum => hproduct (Nat.lt_of_le_of_lt (Nat.le_add_right _ _) hsum)]

/-- The multiplication with a carry is that of the whole span. -/
theorem times_eq_ofNanos (d : Duration) (count : UInt32) :
    d.times count = ofNanos (d.toNanos * count.toNat) := by
  have hproduct : d.toNanos * count.toNat =
      d.nanos * count.toNat + d.secs.toNat * count.toNat * nanosPerSecond := by
    rw [toNanos, Nat.add_mul, Nat.mul_right_comm, Nat.add_comm]
  have hsecs : d.toNanos * count.toNat / nanosPerSecond =
      d.secs.toNat * count.toNat + d.nanos * count.toNat / nanosPerSecond := by
    rw [hproduct, Nat.add_mul_div_right _ _ (by decide), Nat.add_comm]
  have hnanos : d.toNanos * count.toNat % nanosPerSecond =
      d.nanos * count.toNat % nanosPerSecond := by
    rw [hproduct, Nat.add_mul_mod_self_right]
  have hcarry : (d.nanosTimes count / UInt64.ofNat nanosPerSecond).toNat =
      d.nanos * count.toNat / nanosPerSecond := by
    rw [UInt64.toNat_div, toNat_nanosTimes, UInt64.toNat_ofNat_of_lt' (by decide)]
  simp only [times, ofNanos, product?_bind_sum?, UInt32.toNat_toUInt64, hcarry, toNat_nanosTimes,
    hsecs, hnanos]
  split
  · next hsome =>
    split at hsome
    · next hfits =>
      cases hsome
      rw [if_pos hfits]
    · cases hsome
  · next hnone =>
    split at hnone
    · cases hnone
    · next hover => rw [if_neg hover]

/-- A multiple is exact as long as it is a span, and else it is the longest span. -/
theorem toNanos_times (d : Duration) (count : UInt32) :
    (d.times count).toNanos = min (d.toNanos * count.toNat) max.toNanos := by
  rw [times_eq_ofNanos, toNanos_ofNanos]

theorem toNanos_div (d : Duration) : d.toNanos / nanosPerSecond = d.secs.toNat := by
  rw [toNanos, Nat.add_comm, Nat.add_mul_div_right _ _ (by decide), Nat.div_eq_of_lt d.nanos_lt,
    Nat.zero_add]

theorem toNanos_mod (d : Duration) : d.toNanos % nanosPerSecond = d.nanos := by
  rw [toNanos, Nat.add_comm, Nat.add_mul_mod_self_right, Nat.mod_eq_of_lt d.nanos_lt]

theorem toNanos_injective : Function.Injective toNanos := by
  intro a b h
  have hsecs : a.secs = b.secs := by
    rw [← UInt64.toNat_inj, ← toNanos_div, ← toNanos_div, h]
  have hnanos : a.nanos = b.nanos := by
    rw [← toNanos_mod, ← toNanos_mod, h]
  cases a
  cases b
  cases hsecs
  cases hnanos
  rfl

theorem toNanos_le_max (d : Duration) : d.toNanos ≤ max.toNanos := by
  have hbound : d.toNanos < UInt64.size * nanosPerSecond := by
    rw [← Nat.div_lt_iff_lt_mul (by decide), toNanos_div]
    exact d.secs.toNat_lt
  have hmax := toNanos_max
  omega

theorem exists_toNanos_iff {nanos : Nat} :
    (∃ d : Duration, d.toNanos = nanos) ↔ nanos ≤ max.toNanos := by
  constructor
  · rintro ⟨d, rfl⟩
    exact d.toNanos_le_max
  · intro h
    exact ⟨ofNanos nanos, by rw [toNanos_ofNanos, Nat.min_eq_left h]⟩

end Duration

end Handoff
