import SpriteField.Workload.Field
import Mathlib.Data.Nat.Periodic
import Mathlib.Tactic

/-!
# Who moves when

In a frame those entities move whose ids leave the remainder of the frame.  So over as many frames
in a row as there are remainders, every entity moves exactly once.
-/

namespace SpriteField.Workload

variable {s : Settings} {frame id : Nat}

theorem Settings.stride_pos (s : Settings) : 0 < s.stride :=
  Nat.lt_of_lt_of_le Nat.one_pos (Nat.le_max_right _ _)

/-- The quotient, rounded up, as the number of multiples below. -/
theorem lt_ceilDiv_iff {stride : Nat} (hstride : 0 < stride) (n k : Nat) :
    k < (n + stride - 1) / stride ↔ k * stride < n := by
  rw [Nat.lt_iff_add_one_le, Nat.le_div_iff_mul_le hstride, Nat.succ_mul]
  omega

theorem mem_movers : id ∈ movers s frame ↔ id < s.total ∧ id % s.stride = frame % s.stride := by
  have hphase : frame % s.stride < s.stride := Nat.mod_lt _ s.stride_pos
  have hceil := lt_ceilDiv_iff s.stride_pos (s.total - frame % s.stride)
  simp only [movers, List.mem_map, List.mem_range]
  constructor
  · rintro ⟨k, hk, rfl⟩
    have hlt := (hceil k).mp hk
    refine ⟨by omega, ?_⟩
    rw [Nat.add_mul_mod_self_right, Nat.mod_eq_of_lt hphase]
  · rintro ⟨hid, hmod⟩
    have hsplit := Nat.mod_add_div' id s.stride
    rw [hmod] at hsplit
    exact ⟨id / s.stride, (hceil _).mpr (by omega), hsplit⟩

theorem nodup_movers (s : Settings) (frame : Nat) : (movers s frame).Nodup := by
  refine List.nodup_range.map ?_
  intro k k' heq
  exact Nat.eq_of_mul_eq_mul_right s.stride_pos (Nat.add_left_cancel heq)

theorem length_movers (s : Settings) (frame : Nat) : (movers s frame).length =
    ((Finset.range s.total).filter fun id => id % s.stride = frame % s.stride).card := by
  rw [← List.toFinset_card_of_nodup (nodup_movers s frame)]
  congr 1
  ext id
  rw [List.mem_toFinset, mem_movers, Finset.mem_filter, Finset.mem_range]

/-- Of as many frames in a row as there are remainders, one has the remainder of the id. -/
theorem sum_count_movers (first : Nat) (hid : id < s.total) :
    ∑ frame ∈ Finset.Ico first (first + s.stride), (movers s frame).count id = 1 := by
  have hcount : ∀ frame, (movers s frame).count id =
      if id % s.stride = frame % s.stride then 1 else 0 := by
    intro frame
    rw [(nodup_movers s frame).count, if_congr mem_movers rfl rfl]
    simp [hid]
  have hperiodic : Function.Periodic (fun frame => id % s.stride = frame % s.stride) s.stride := by
    intro frame
    simp
  calc ∑ frame ∈ Finset.Ico first (first + s.stride), (movers s frame).count id
      = ((Finset.Ico first (first + s.stride)).filter
          fun frame => id % s.stride = frame % s.stride).card := by
        rw [Finset.card_filter]
        exact Finset.sum_congr rfl fun frame _ => hcount frame
    _ = s.stride.count fun frame => id % s.stride = frame % s.stride :=
        Nat.filter_Ico_card_eq_of_periodic first s.stride _ hperiodic
    _ = ((Finset.range s.stride).filter fun frame => id % s.stride = frame % s.stride).card :=
        Nat.count_eq_card_filter_range _ _
    _ = ({id % s.stride} : Finset Nat).card := by
        congr 1
        ext frame
        have hphase : id % s.stride < s.stride := Nat.mod_lt _ s.stride_pos
        rw [Finset.mem_filter, Finset.mem_range, Finset.mem_singleton]
        constructor
        · rintro ⟨hlt, heq⟩
          rw [heq, Nat.mod_eq_of_lt hlt]
        · rintro rfl
          exact ⟨hphase, (Nat.mod_mod _ _).symm⟩
    _ = 1 := Finset.card_singleton _

end SpriteField.Workload
