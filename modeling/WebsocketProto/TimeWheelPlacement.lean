import WebsocketProto.TimeWheel

/-! Where a task lies in the wheel. A task of the near lists stands in the list of its
due tick; a task of level `k` stands in the list that is cascaded at its `turn`, the
last multiple of the level's span before it is due. -/
namespace WebsocketProto.TimeWheel

/-- The ticks that one list of level `k` covers. -/
def span (k : Nat) : Int := 2 ^ (TIME_NEAR_SHIFT + k * TIME_LEVEL_SHIFT)

/-- The tick at which the list of a task at level `k` is cascaded. -/
def turn (k : Nat) (expire : Int) : Int := expire / span k * span k

theorem span_pos (k : Nat) : 0 < span k := Int.pow_pos (by decide)

theorem span_succ (k : Nat) : span (k + 1) = 64 * span k := by
  have exponent : TIME_NEAR_SHIFT + (k + 1) * TIME_LEVEL_SHIFT =
      TIME_NEAR_SHIFT + k * TIME_LEVEL_SHIFT + 6 := by
    simp only [TIME_LEVEL_SHIFT]; omega
  rw [span, exponent, Int.pow_add, Int.mul_comm]
  rfl

theorem span_dvd {j k : Nat} (finer : j ≤ k) : span j ∣ span k := by
  induction finer with
  | refl => exact Int.dvd_refl _
  | step _ ih =>
    rw [Nat.succ_eq_add_one, span_succ]
    exact Int.dvd_trans ih (Int.dvd_mul_left _ _)

theorem turn_le (k : Nat) (expire : Int) : turn k expire ≤ expire :=
  Int.ediv_mul_le expire (Int.ne_of_gt (span_pos k))

theorem lt_turn_add (k : Nat) (expire : Int) : expire < turn k expire + span k := by
  have bound := Int.lt_ediv_add_one_mul_self expire (span_pos k)
  rw [Int.add_mul, Int.one_mul] at bound
  exact bound

theorem index_eq (v : Int) (k : Nat) : (INDEX v k : Int) = v / span k % 64 :=
  Int.toNat_of_nonneg (Int.emod_nonneg _ (by decide))

theorem index_lt (v : Int) (k : Nat) : INDEX v k < 64 := by
  have bound := Int.emod_lt_of_pos (v / span k) (show (0 : Int) < 64 by decide)
  have := index_eq v k
  omega

theorem nearIndex_eq (v : Int) : (nearIndex v : Int) = v % 256 :=
  Int.toNat_of_nonneg (Int.emod_nonneg _ (by decide))

theorem nearIndex_lt (v : Int) : nearIndex v < 256 := by
  have := nearIndex_eq v
  omega

theorem offset_eq (k : Nat) : OFFSET k = 256 + k * 64 := rfl

/-- The list of a task comes up at a tick only when the tick is its turn. -/
theorem turn_eq_iff (k : Nat) (t expire : Int) (behind : t ≤ turn k expire)
    (ahead : turn k expire < t + span (k + 1)) :
    turn k expire = t ↔ t % span k = 0 ∧ INDEX expire k = INDEX t k := by
  have positive := span_pos k
  constructor
  · rintro rfl
    have whole : turn k expire / span k = expire / span k :=
      Int.mul_ediv_cancel _ (Int.ne_of_gt positive)
    refine ⟨Int.mul_emod_left _ _, ?_⟩
    have left := index_eq expire k
    have right := index_eq (turn k expire) k
    rw [whole] at right
    omega
  · rintro ⟨aligned, same⟩
    have tick : t = t / span k * span k :=
      (Int.ediv_mul_cancel_of_emod_eq_zero aligned).symm
    rw [span_succ, turn, tick, ← Int.add_mul] at ahead
    rw [turn, tick] at behind
    have low := Int.le_of_mul_le_mul_right behind positive
    have high := Int.lt_of_mul_lt_mul_right ahead (Int.le_of_lt positive)
    have left := index_eq expire k
    have right := index_eq t k
    have quotient : expire / span k = t / span k := by omega
    rw [turn, quotient, ← tick]

theorem aligned_succ (k : Nat) (t : Int) :
    t % span (k + 1) = 0 ↔ t % span k = 0 ∧ INDEX t k = 0 := by
  have positive := span_pos k
  have index := index_eq t k
  constructor
  · intro aligned
    obtain ⟨rounds, rfl⟩ := Int.dvd_of_emod_eq_zero aligned
    rw [span_succ, Int.mul_comm 64, Int.mul_assoc] at index ⊢
    rw [Int.mul_ediv_cancel_left _ (Int.ne_of_gt positive)] at index
    exact ⟨Int.mul_emod_right _ _, by omega⟩
  · rintro ⟨aligned, zero⟩
    obtain ⟨rounds, rfl⟩ := Int.dvd_of_emod_eq_zero aligned
    rw [Int.mul_ediv_cancel_left _ (Int.ne_of_gt positive)] at index
    obtain ⟨circles, rfl⟩ := Int.dvd_of_emod_eq_zero (show rounds % 64 = 0 by omega)
    rw [span_succ, ← Int.mul_assoc, Int.mul_comm (span k)]
    exact Int.mul_emod_right _ _

/-- A task in list `idx` of the wheel at tick `t`: below level `upto` its list does not
come up at `t` any more. -/
inductive Placed (upto : Nat) (t : Int) (idx : Nat) (expire due : Int) : Prop where
  | near (list : idx = nearIndex due) (behind : t ≤ due) (ahead : due < t + TIME_NEAR)
  | level (k : Nat) (named : k < LEVEL) (list : idx = OFFSET k + INDEX expire k)
      (same : due = expire) (behind : t ≤ turn k expire)
      (ahead : turn k expire < t + span (k + 1)) (settled : k < upto → t < turn k expire)

theorem Placed.behind_due (placed : Placed upto t idx expire due) : t ≤ due := by
  rcases placed with ⟨_, behind, _⟩ | ⟨k, _, _, rfl, behind, _, _⟩
  · exact behind
  · exact Int.le_trans behind (turn_le k due)

/-- Level `k` is settled when its list that comes up at `t` holds the task no more. -/
theorem Placed.next (placed : Placed upto t idx expire due)
    (moved : t % span upto = 0 → idx ≠ OFFSET upto + INDEX t upto) :
    Placed (upto + 1) t idx expire due := by
  rcases placed with ⟨list, behind, ahead⟩ | ⟨k, named, list, same, behind, ahead, settled⟩
  · exact .near list behind ahead
  · refine .level k named list same behind ahead ?_
    intro below
    by_cases lower : k < upto
    · exact settled lower
    · obtain rfl : k = upto := by omega
      refine Int.lt_iff_le_and_ne.mpr ⟨behind, fun due_now => ?_⟩
      obtain ⟨aligned, index⟩ := (turn_eq_iff k t expire behind ahead).mp due_now.symm
      exact moved aligned (by rw [list, index])

theorem Placed.of_unaligned (placed : Placed upto t idx expire due)
    (unaligned : t % span upto ≠ 0) : Placed LEVEL t idx expire due := by
  rcases placed with ⟨list, behind, ahead⟩ | ⟨k, named, list, same, behind, ahead, settled⟩
  · exact .near list behind ahead
  · refine .level k named list same behind ahead fun _ => ?_
    by_cases lower : k < upto
    · exact settled lower
    · refine Int.lt_iff_le_and_ne.mpr ⟨behind, fun due_now => unaligned ?_⟩
      have aligned := ((turn_eq_iff k t expire behind ahead).mp due_now.symm).1
      exact Int.emod_eq_zero_of_dvd
        (Int.dvd_trans (span_dvd (Nat.le_of_not_lt lower)) (Int.dvd_of_emod_eq_zero aligned))

/-- At the end of a tick a task that is not in the tick's list keeps its place. -/
theorem Placed.advance (placed : Placed LEVEL t idx expire due) (other : idx ≠ nearIndex t) :
    Placed 0 (t + 1) idx expire due := by
  rcases placed with ⟨list, behind, ahead⟩ | ⟨k, named, list, same, behind, ahead, settled⟩
  · have later : due ≠ t := fun now => other (by rw [list, now])
    exact .near list (by omega) (by omega)
  · exact .level k named list same (settled named) (by omega)
      fun below => absurd below (Nat.not_lt_zero k)

/-- What the tick's list holds is due at the tick. -/
theorem Placed.due_of_near (placed : Placed upto t (nearIndex t) expire due) : due = t := by
  rcases placed with ⟨list, behind, ahead⟩ | ⟨k, _, list, _⟩
  · have left := nearIndex_eq t
    have right := nearIndex_eq due
    simp only [TIME_NEAR, TIME_NEAR_SHIFT] at ahead
    omega
  · have := nearIndex_lt t
    rw [offset_eq] at list
    omega

/-- What a cascaded list holds is due at the expiry of its node, within its span. -/
theorem Placed.of_cascaded (placed : Placed upto t (OFFSET k + INDEX t k) expire due)
    (aligned : t % span k = 0) : due = expire ∧ t ≤ expire ∧ expire < t + span k := by
  rcases placed with ⟨list, _, _⟩ | ⟨k', _, list, same, behind, ahead, _⟩
  · have := nearIndex_lt due
    rw [offset_eq] at list
    omega
  · have here := index_lt t k
    have there := index_lt expire k'
    rw [offset_eq, offset_eq] at list
    obtain rfl : k' = k := by omega
    have now := (turn_eq_iff k' t expire behind ahead).mpr ⟨aligned, by omega⟩
    have low := turn_le k' expire
    have high := lt_turn_add k' expire
    exact ⟨same, by omega, by omega⟩

theorem placed_level (k : Nat) (named : k < LEVEL) (t expire : Int) (far : span k ≤ expire - t)
    (inside : expire - t < span (k + 1)) :
    Placed upto t (OFFSET k + INDEX expire k) expire (max expire t) := by
  have low := turn_le k expire
  have high := lt_turn_add k expire
  have positive := span_pos k
  exact .level k named rfl (by omega) (by omega) (by omega) fun _ => by omega

/-- Whatever list `add_node` chooses, no later tick misses the task. -/
theorem place_placed (upto : Nat) (t expire : Int) :
    Placed upto t (place t expire).1 (place t expire).2 (max (place t expire).2 t) := by
  have spans : span 0 = 2 ^ 8 ∧ span 1 = 2 ^ 14 ∧ span 2 = 2 ^ 20 ∧ span 3 = 2 ^ 26 ∧
    span 4 = 2 ^ 32 := by decide
  obtain ⟨span0, span1, span2, span3, span4⟩ := spans
  simp only [place, TIME_NEAR, TIME_NEAR_SHIFT, TIME_LEVEL_SHIFT]
  split
  · rename_i near
    have due : max expire t = expire := by omega
    exact .near (by rw [due]) (by omega) (by simp only [TIME_NEAR, TIME_NEAR_SHIFT]; omega)
  split
  · exact placed_level 0 (by decide) t expire (by omega) (show _ < span 1 by omega)
  split
  · exact placed_level 1 (by decide) t expire (by omega) (show _ < span 2 by omega)
  split
  · exact placed_level 2 (by decide) t expire (by omega) (show _ < span 3 by omega)
  split
  · have due : max expire t = t := by omega
    exact .near (by rw [due]) (by omega) (by simp only [TIME_NEAR, TIME_NEAR_SHIFT]; omega)
  · refine placed_level 3 (by decide) t _ ?_ ?_
    · split <;> omega
    · show _ < span 4
      split <;> omega

theorem place_expire (t expire : Int) (near : expire - t ≤ 2 ^ 32 - 1) :
    (place t expire).2 = expire := by
  have unclamped : ¬ expire - t > 2 ^ 32 - 1 := by omega
  simp only [place, unclamped, ↓reduceIte]
  split <;> [rfl; split <;> [rfl; split <;> [rfl; split <;> [rfl; split <;> rfl]]]]

theorem Placed.lt_slots (placed : Placed upto t idx expire due) : idx < slots := by
  have all := slots_eq
  rcases placed with ⟨list, _, _⟩ | ⟨k, named, list, _⟩
  · have := nearIndex_lt due
    omega
  · have := index_lt expire k
    simp only [LEVEL] at named
    rw [offset_eq] at list
    omega

theorem place_lt (t expire : Int) : (place t expire).1 < slots :=
  (place_placed 0 t expire).lt_slots

end WebsocketProto.TimeWheel
