import Mathlib.Algebra.Group.Nat.Defs
import Mathlib.Data.List.Nodup
import WsGateway.Links

/-!
# Instance ids

The ids of responses come from one counter, which starts anew when its 64 bits are used up. Those
that it hands out one after another are `Links.instanceIds`, and no two of them are the same while
there are at most `2 ^ 64` (`Links.nodup_instanceIds`).
-/

namespace WsGateway

namespace Links

/-- The ids that are handed out one after another, from the first one on. -/
def instanceIds (first : UInt64) (n : Nat) : List UInt64 :=
  (List.range n).map fun i => first + UInt64.ofNat i

@[simp] theorem length_instanceIds (first : UInt64) (n : Nat) :
    (instanceIds first n).length = n := by
  rw [instanceIds, List.length_map, List.length_range]

/-- Ids are handed out one after the other, so a stretch of them is two stretches. -/
theorem instanceIds_append (first : UInt64) (n m : Nat) :
    instanceIds first (n + m) =
      instanceIds first n ++ instanceIds (first + UInt64.ofNat n) m := by
  simp only [instanceIds, List.range_add, List.map_append, List.map_map]
  congr 1
  refine List.map_congr_left fun i _ => ?_
  show first + UInt64.ofNat (n + i) = first + UInt64.ofNat n + UInt64.ofNat i
  rw [UInt64.ofNat_add, UInt64.add_assoc]

theorem instanceIds_succ (first : UInt64) (n : Nat) :
    instanceIds first (n + 1) = instanceIds first n ++ [first + UInt64.ofNat n] := by
  rw [instanceIds, List.range_succ, List.map_append]
  rfl

/-- **Ids do not repeat** while the counter has not gone through all of them. -/
theorem nodup_instanceIds (first : UInt64) {n : Nat} (hn : n ≤ 2 ^ 64) :
    (instanceIds first n).Nodup := by
  refine List.Nodup.map_on ?_ List.nodup_range
  intro i hi j hj heq
  rw [List.mem_range] at hi hj
  have hnat := congrArg UInt64.toNat (UInt64.add_right_inj first |>.mp heq)
  rw [UInt64.toNat_ofNat', UInt64.toNat_ofNat', Nat.mod_eq_of_lt (by omega),
    Nat.mod_eq_of_lt (by omega)] at hnat
  exact hnat

end Links

end WsGateway
