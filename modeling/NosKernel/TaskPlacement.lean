import Mathlib.Data.List.Range

/-!
Task placement, `Task::SelectNextTaskQueue` in `kernel/task.cpp`. The loop walks
the 64 bits of `GetRunningCpus() & CpuAffinity`, skips the task's current
queue, and keeps the candidate whose `GetSwitchContextCounter()` is lowest,
replacing it only on a strictly lower counter. Queues are named by the index of
the CPU that owns them, so the current queue is an index or `none` for null.
-/

namespace NosKernel.TaskPlacement

/-- Bit `i` of a `ulong` mask, tested as `mask & ((ulong)1 << i)`. -/
def bitSet (mask : BitVec 64) (i : Nat) : Bool := mask &&& (1#64 <<< i) != 0

/-- One iteration of the loop, at bit `i`, with the candidate `best` so far. -/
def selectStep (cpuMask : BitVec 64) (taskQueue : Option Nat) (counter : Nat → Nat)
    (best : Option Nat) (i : Nat) : Option Nat :=
  if bitSet cpuMask i then
    if some i = taskQueue then best
    else
      match best with
      | none => some i
      | some b => if counter b > counter i then some i else some b
  else best

/-- `Task::SelectNextTaskQueue`: the CPU whose queue receives the task, or `none`
for a null queue. -/
def selectNextTaskQueue (runningCpus cpuAffinity : BitVec 64) (taskQueue : Option Nat)
    (counter : Nat → Nat) : Option Nat :=
  let cpuMask := runningCpus &&& cpuAffinity
  if cpuMask ≠ 0 then (List.range 64).foldl (selectStep cpuMask taskQueue counter) none
  else none

/-- The CPUs the task may go to: a bit below 64 set in the mask, and a queue
other than the task's current one. -/
def Eligible (cpuMask : BitVec 64) (taskQueue : Option Nat) (i : Nat) : Prop :=
  i < 64 ∧ cpuMask.getLsbD i = true ∧ taskQueue ≠ some i

/-- `b` is an eligible CPU with the lowest counter of all eligible CPUs, and the
least index among those with that counter. -/
def LeastLoaded (E : Nat → Prop) (counter : Nat → Nat) (b : Nat) : Prop :=
  E b ∧ (∀ j, E j → counter b ≤ counter j) ∧ (∀ j < b, E j → counter b < counter j)

theorem LeastLoaded.unique {E : Nat → Prop} {counter : Nat → Nat} {b b' : Nat}
    (h : LeastLoaded E counter b) (h' : LeastLoaded E counter b') : b = b' := by
  rcases Nat.lt_trichotomy b b' with hlt | heq | hgt
  · exact absurd (h.2.1 b' h'.1) (Nat.not_le_of_lt (h'.2.2 b hlt h.1))
  · exact heq
  · exact absurd (h'.2.1 b h.1) (Nat.not_le_of_lt (h.2.2 b' hgt h'.1))

/-- `b` has the lowest counter among the eligible CPUs below `k`, and no eligible
CPU below `b` has that counter. -/
def LeastBelow (E : Nat → Prop) (counter : Nat → Nat) (k b : Nat) : Prop :=
  b < k ∧ E b ∧ (∀ j < k, E j → counter b ≤ counter j) ∧ (∀ j < b, E j → counter b < counter j)

theorem bitSet_iff (mask : BitVec 64) {i : Nat} (hi : i < 64) :
    bitSet mask i = mask.getLsbD i := by
  have hpow : BitVec.twoPow 64 i ≠ 0#64 := by
    intro h
    have := congrArg BitVec.toNat h
    rw [BitVec.toNat_twoPow, Nat.mod_eq_of_lt (Nat.pow_lt_pow_right Nat.one_lt_two hi)] at this
    exact (Nat.two_pow_pos i).ne' this
  have htwo : (1#64 <<< i) = BitVec.twoPow 64 i := rfl
  rw [bitSet, htwo, BitVec.and_twoPow]
  cases mask.getLsbD i <;> simp [hpow]

variable {cpuMask : BitVec 64} {taskQueue : Option Nat} {counter : Nat → Nat}

theorem selectStep_of_not_eligible {k : Nat} (hk : k < 64)
    (h : ¬Eligible cpuMask taskQueue k) (best : Option Nat) :
    selectStep cpuMask taskQueue counter best k = best := by
  simp only [Eligible, hk, true_and, not_and, not_not] at h
  unfold selectStep
  rw [bitSet_iff cpuMask hk]
  split_ifs with hbit heq
  · rfl
  · exact absurd (h hbit) (Ne.symm heq)
  · rfl

theorem selectStep_of_eligible {k : Nat} (h : Eligible cpuMask taskQueue k)
    (best : Option Nat) :
    selectStep cpuMask taskQueue counter best k = match best with
      | none => some k
      | some b => if counter b > counter k then some k else some b := by
  obtain ⟨hk, hbit, hq⟩ := h
  simp only [selectStep, bitSet_iff cpuMask hk, hbit, if_true, if_neg (Ne.symm hq)]

theorem foldl_selectStep {k : Nat} (hk : k ≤ 64) :
    ((List.range k).foldl (selectStep cpuMask taskQueue counter) none = none ↔
        ∀ j < k, ¬Eligible cpuMask taskQueue j) ∧
      ∀ b, (List.range k).foldl (selectStep cpuMask taskQueue counter) none = some b →
        LeastBelow (Eligible cpuMask taskQueue) counter k b := by
  induction k with
  | zero => simp
  | succ k ih =>
      obtain ⟨hnone, hsome⟩ := ih (by omega)
      rw [List.range_succ, List.foldl_append, List.foldl_cons, List.foldl_nil]
      generalize hr : (List.range k).foldl (selectStep cpuMask taskQueue counter) none = r at *
      have hlt : ∀ j, j < k + 1 ↔ j < k ∨ j = k := fun j => Nat.lt_succ_iff_lt_or_eq
      by_cases hE : Eligible cpuMask taskQueue k
      · rw [selectStep_of_eligible hE]
        cases r with
        | none =>
            have hno := hnone.mp rfl
            refine ⟨⟨fun h => (by cases h), fun h => absurd hE (h k (by omega))⟩, fun b hb => ?_⟩
            cases hb
            refine ⟨by omega, hE, fun j hj hEj => ?_, fun j hj hEj => absurd hEj (hno j hj)⟩
            rcases (hlt j).mp hj with hj | rfl
            · exact absurd hEj (hno j hj)
            · exact le_refl _
        | some b =>
            obtain ⟨hbk, hEb, hmin, hleast⟩ := hsome b rfl
            dsimp only
            refine ⟨⟨fun h => (by split_ifs at h), fun h => absurd hE (h k (by omega))⟩,
              fun b' hb' => ?_⟩
            split_ifs at hb' with hgt
            · cases hb'
              refine ⟨by omega, hE, fun j hj hEj => ?_, fun j hj hEj => ?_⟩
              · rcases (hlt j).mp hj with hj | rfl
                · exact le_trans (Nat.le_of_lt hgt) (hmin j hj hEj)
                · exact le_refl _
              · exact lt_of_lt_of_le hgt (hmin j hj hEj)
            · cases hb'
              refine ⟨by omega, hEb, fun j hj hEj => ?_, hleast⟩
              rcases (hlt j).mp hj with hj | rfl
              · exact hmin j hj hEj
              · exact Nat.le_of_not_lt hgt
      · rw [selectStep_of_not_eligible (by omega) hE]
        refine ⟨hnone.trans ⟨fun h j hj => ?_, fun h j hj => h j (by omega)⟩, fun b hb => ?_⟩
        · rcases (hlt j).mp hj with hj | rfl
          · exact h j hj
          · exact hE
        · obtain ⟨hbk, hEb, hmin, hleast⟩ := hsome b hb
          refine ⟨by omega, hEb, fun j hj hEj => ?_, hleast⟩
          rcases (hlt j).mp hj with hj | rfl
          · exact hmin j hj hEj
          · exact absurd hEj hE

theorem selectNextTaskQueue_eq_none_iff (runningCpus cpuAffinity : BitVec 64)
    (taskQueue : Option Nat) (counter : Nat → Nat) :
    selectNextTaskQueue runningCpus cpuAffinity taskQueue counter = none ↔
      ∀ i, ¬Eligible (runningCpus &&& cpuAffinity) taskQueue i := by
  unfold selectNextTaskQueue
  by_cases hm : runningCpus &&& cpuAffinity = 0
  · simp [Eligible, hm]
  · rw [if_pos hm, (@foldl_selectStep (runningCpus &&& cpuAffinity) taskQueue counter 64
      (le_refl 64)).1]
    exact ⟨fun h j hj => h j hj.1 hj, fun h j _ => h j⟩

theorem selectNextTaskQueue_leastLoaded {runningCpus cpuAffinity : BitVec 64}
    {taskQueue : Option Nat} {counter : Nat → Nat} {b : Nat}
    (h : selectNextTaskQueue runningCpus cpuAffinity taskQueue counter = some b) :
    LeastLoaded (Eligible (runningCpus &&& cpuAffinity) taskQueue) counter b := by
  unfold selectNextTaskQueue at h
  dsimp only at h
  split_ifs at h
  obtain ⟨_, hEb, hmin, hlt⟩ :=
    (@foldl_selectStep (runningCpus &&& cpuAffinity) taskQueue counter 64 (le_refl 64)).2 b h
  exact ⟨hEb, fun j hEj => hmin j hEj.1 hEj, hlt⟩

/-- `SelectNextTaskQueue` returns null exactly when no CPU is eligible, and
otherwise the queue of the eligible CPU with the lowest switch counter, the
lowest index on ties. -/
theorem selectNextTaskQueue_spec (runningCpus cpuAffinity : BitVec 64)
    (taskQueue : Option Nat) (counter : Nat → Nat) :
    (selectNextTaskQueue runningCpus cpuAffinity taskQueue counter = none ↔
      ∀ i, ¬Eligible (runningCpus &&& cpuAffinity) taskQueue i) ∧
    ∀ b, selectNextTaskQueue runningCpus cpuAffinity taskQueue counter = some b ↔
      LeastLoaded (Eligible (runningCpus &&& cpuAffinity) taskQueue) counter b := by
  refine ⟨selectNextTaskQueue_eq_none_iff _ _ _ _, fun b => ⟨selectNextTaskQueue_leastLoaded,
    fun hb => ?_⟩⟩
  cases hr : selectNextTaskQueue runningCpus cpuAffinity taskQueue counter with
  | none => exact absurd hb.1 ((selectNextTaskQueue_eq_none_iff _ _ _ _).mp hr b)
  | some b' => rw [(selectNextTaskQueue_leastLoaded hr).unique hb]

end NosKernel.TaskPlacement
