import NosKernel.TaskPlacement

/-!
The IPI test of `BpStartup` in `kernel/main.cpp`. The BP reads
`GetRunningCpus()` once, walks its 64 bits, and sends an IPI to every running
CPU but itself; the receiving stub bumps that CPU's ack counter. So each other
running CPU is acknowledged exactly once, and no other CPU at all.
-/

namespace NosKernel.IpiBroadcast

open NosKernel.TaskPlacement

/-- Modelled from the spec: `CpuTable::SendIPI(target)` (not in the excerpt)
raises the IPI on the target, whose stub bumps its ack counter by one. -/
def sendIpi (ack : Nat → Nat) (target : Nat) : Nat → Nat :=
  Function.update ack target (ack target + 1)

/-- One iteration of the loop of `BpStartup`, at bit `i`. -/
def ipiStep (cpuMask : BitVec 64) (self : Nat) (ack : Nat → Nat) (i : Nat) : Nat → Nat :=
  if bitSet cpuMask i then
    if i ≠ self then sendIpi ack i else ack
  else ack

/-- The IPI loop of `BpStartup` over the `8 * sizeof(ulong)` bits of the
running mask, sent by the CPU of index `self`. -/
def ipiTest (cpuMask : BitVec 64) (self : Nat) (ack : Nat → Nat) : Nat → Nat :=
  (List.range 64).foldl (ipiStep cpuMask self) ack

theorem ipiStep_apply {cpuMask : BitVec 64} {self i : Nat} (hi : i < 64) (ack : Nat → Nat)
    (j : Nat) :
    ipiStep cpuMask self ack i j =
      ack j + if i = j ∧ cpuMask.getLsbD i = true ∧ i ≠ self then 1 else 0 := by
  unfold ipiStep sendIpi
  rw [bitSet_iff cpuMask hi]
  by_cases hij : i = j
  · subst hij
    split_ifs <;> simp_all
  · have hc : ¬(i = j ∧ cpuMask.getLsbD i = true ∧ i ≠ self) := fun h => hij h.1
    rw [if_neg hc]
    split_ifs <;> simp [Function.update_apply, Ne.symm hij]

theorem foldl_ipiStep {cpuMask : BitVec 64} {self k : Nat} (hk : k ≤ 64) (ack : Nat → Nat)
    (j : Nat) :
    (List.range k).foldl (ipiStep cpuMask self) ack j =
      ack j + if j < k ∧ cpuMask.getLsbD j = true ∧ j ≠ self then 1 else 0 := by
  induction k with
  | zero => simp
  | succ k ih =>
      rw [List.range_succ, List.foldl_append, List.foldl_cons, List.foldl_nil,
        ipiStep_apply (by omega), ih (by omega)]
      by_cases hjk : j = k
      · subst hjk
        simp
      · have hlt : j < k + 1 ↔ j < k := by omega
        simp [hjk, Ne.symm hjk, hlt]

/-- After the loop, each running CPU other than the BP has been acknowledged
exactly once more, and every other counter is unchanged. -/
theorem ipiTest_ack (cpuMask : BitVec 64) (self : Nat) (ack : Nat → Nat) (j : Nat) :
    ipiTest cpuMask self ack j =
      ack j + if j < 64 ∧ cpuMask.getLsbD j = true ∧ j ≠ self then 1 else 0 :=
  foldl_ipiStep (le_refl 64) ack j

example : ipiTest 0b1111#64 0 (fun _ => 0) 3 = 1 ∧ ipiTest 0b1111#64 0 (fun _ => 0) 0 = 0 := by
  decide

end NosKernel.IpiBroadcast
