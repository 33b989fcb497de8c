import Handoff.Plan
import Handoff.Proofs.Duration
/-!
# How long the producer waits for a plan

The wait is a multiple of the time limit of one command.  It is the exact multiple or, where that is
no duration, the longest duration, so a longer limit or a longer plan never makes it shorter.
-/

namespace Handoff

namespace Plan

variable {plan : Plan}

theorem toNat_slots (plan : Plan) :
    plan.slots.toNat = min (max plan.commands.length 1) slotMax := by
  have hmost : min (max plan.commands.length 1) slotMax < UInt32.size :=
    Nat.lt_of_le_of_lt (Nat.min_le_right _ _) (by decide)
  exact UInt32.toNat_ofNat_of_lt' hmost

theorem toNat_slots_of_lt (h : plan.commands.length < UInt32.size) :
    plan.slots.toNat = max plan.commands.length 1 := by
  have hfits : max plan.commands.length 1 ≤ slotMax :=
    Nat.max_le.2 ⟨Nat.le_of_lt_succ h, by decide⟩
  rw [toNat_slots, Nat.min_eq_left hfits]

theorem slots_pos (plan : Plan) : 0 < plan.slots.toNat := by
  have hmax : 0 < slotMax := by decide
  rw [toNat_slots]
  omega

theorem toNat_slots_mono {other : Plan} (h : plan.commands.length ≤ other.commands.length) :
    plan.slots.toNat ≤ other.slots.toNat := by
  rw [toNat_slots, toNat_slots]
  omega

theorem toNanos_producerTimeout (plan : Plan) (limit : Duration) :
    (plan.producerTimeout limit).toNanos =
      min (limit.toNanos * plan.slots.toNat) Duration.max.toNanos :=
  limit.toNanos_times plan.slots

theorem le_producerTimeout (plan : Plan) (limit : Duration) :
    limit.toNanos ≤ (plan.producerTimeout limit).toNanos := by
  rw [toNanos_producerTimeout]
  exact Nat.le_min.2 ⟨Nat.le_mul_of_pos_right _ plan.slots_pos, limit.toNanos_le_max⟩

theorem producerTimeout_mono {other : Plan} {limit longer : Duration}
    (hcount : plan.commands.length ≤ other.commands.length)
    (hlimit : limit.toNanos ≤ longer.toNanos) :
    (plan.producerTimeout limit).toNanos ≤ (other.producerTimeout longer).toNanos := by
  have hproduct := Nat.mul_le_mul hlimit (toNat_slots_mono hcount)
  rw [toNanos_producerTimeout, toNanos_producerTimeout]
  omega

/-- The wait for a plan is the limit times the number of commands, or the limit itself for a plan
without commands, whenever that is a duration, and else the longest one.  It is no shorter than the
limit, and for a longer limit or more commands it is no shorter either. -/
theorem producerTimeout_exact (plan : Plan) (limit : Duration)
    (hcount : plan.commands.length < UInt32.size) :
    (∀ exact : Duration, exact.toNanos = limit.toNanos * max plan.commands.length 1 →
      plan.producerTimeout limit = exact) ∧
    ((¬∃ exact : Duration, exact.toNanos = limit.toNanos * max plan.commands.length 1) →
      ∀ other : Duration, other.toNanos ≤ (plan.producerTimeout limit).toNanos) ∧
    limit.toNanos ≤ (plan.producerTimeout limit).toNanos ∧
    ∀ (longer : Duration) (other : Plan), limit.toNanos ≤ longer.toNanos →
      plan.commands.length ≤ other.commands.length →
      (plan.producerTimeout limit).toNanos ≤ (other.producerTimeout longer).toNanos := by
  have hwait := plan.toNanos_producerTimeout limit
  rw [toNat_slots_of_lt hcount] at hwait
  refine ⟨fun exact hexact => ?_, fun hover other => ?_, plan.le_producerTimeout limit,
    fun longer other hlimit hmore => producerTimeout_mono hmore hlimit⟩
  · apply Duration.toNanos_injective
    rw [hwait, ← hexact, Nat.min_eq_left exact.toNanos_le_max]
  · rw [Duration.exists_toNanos_iff, Nat.not_le] at hover
    rw [hwait, Nat.min_eq_right (Nat.le_of_lt hover)]
    exact other.toNanos_le_max

def threefold : Plan :=
  { Plan.empty with
    commands := [⟨["lint"], StringMap.empty⟩, ⟨[], StringMap.empty⟩, ⟨["test"], StringMap.empty⟩] }

/-- Three times so long a limit carries two seconds and just fits into 64 bits; with one second more
it is the carry that does not. -/
theorem producerTimeout_exact_at_carry :
    threefold.commands.length < UInt32.size ∧
      threefold.producerTimeout ⟨6148914691236517204, 999999999, by decide⟩ =
        ⟨18446744073709551614, 999999997, by decide⟩ ∧
      ∀ other : Duration, other.toNanos ≤
        (threefold.producerTimeout ⟨6148914691236517205, 999999999, by decide⟩).toNanos := by
  have hcount : threefold.commands.length < UInt32.size := by decide
  obtain ⟨hexact, -⟩ := producerTimeout_exact threefold ⟨6148914691236517204, 999999999, by decide⟩
    hcount
  obtain ⟨-, hover, -⟩ := producerTimeout_exact threefold
    ⟨6148914691236517205, 999999999, by decide⟩ hcount
  refine ⟨hcount, hexact _ (by decide), hover ?_⟩
  rw [Duration.exists_toNanos_iff]
  decide

end Plan

end Handoff
