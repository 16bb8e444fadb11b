import Mathlib.Data.Nat.Bitwise

/-!
`Task::GetCurrentTask` in `kernel/task.cpp`. Each task stack is a block of
`StackSize` bytes aligned to its size, with a `struct Stack` header at its
base holding two magics and a pointer back to the task. The current task is
found from `rsp` alone: masking off the low bits gives the block's base, and the
header there names the task once its magics, the task's own magic and the range
of `rsp` are checked; a failed check returns null. Addresses and magics are
`ulong`s, so every computation is on 64-bit words.
-/

namespace NosKernel.CurrentTask

/-- The header at the base of a task stack. -/
structure StackHeader (τ : Type) where
  magic1 : BitVec 64
  task : τ
  magic2 : BitVec 64

/-- What `GetCurrentTask` reads that the excerpt leaves to `task.h` and
`Const`: `StackSize`, the offsets of `StackBottom` and `StackTop` in
`struct Stack`, `Const::PageSize`, and the three magics. -/
structure StackLayout where
  stackSize : BitVec 64
  stackBottom : BitVec 64
  stackTop : BitVec 64
  pageSize : BitVec 64
  stackMagic1 : BitVec 64
  stackMagic2 : BitVec 64
  taskMagic : BitVec 64

/-- Memory as `GetCurrentTask` reads it: the header at an address, and the
`Magic` field of a task. -/
structure Memory (τ : Type) where
  stackAt : BitVec 64 → StackHeader τ
  magicOf : τ → BitVec 64

variable {τ : Type}

/-- `rsp & ~(StackSize - 1)`: the base of the block holding `rsp`. -/
def stackBase (K : StackLayout) (rsp : BitVec 64) : BitVec 64 := rsp &&& ~~~(K.stackSize - 1)

/-- `Task::GetCurrentTask` with `GetRsp() = rsp`; `none` is `nullptr`. -/
def getCurrentTask (K : StackLayout) (mem : Memory τ) (rsp : BitVec 64) : Option τ :=
  let stack := stackBase K rsp
  let header := mem.stackAt stack
  if header.magic1 ≠ K.stackMagic1 then none
  else if header.magic2 ≠ K.stackMagic2 then none
  else if rsp < stack + K.stackBottom + K.pageSize then none
  else if rsp > stack + K.stackTop then none
  else if mem.magicOf header.task ≠ K.taskMagic then none
  else some header.task

theorem testBit_div_mul_two_pow (x k i : Nat) :
    (x / 2 ^ k * 2 ^ k).testBit i = (decide (k ≤ i) && x.testBit i) := by
  rw [← Nat.shiftRight_eq_div_pow, ← Nat.shiftLeft_eq, Nat.testBit_shiftLeft,
    Nat.testBit_shiftRight]
  by_cases h : k ≤ i
  · simp [h, Nat.sub_add_cancel h]
  · simp [h]

theorem stackBase_toNat (K : StackLayout) {k : Nat} (hS : K.stackSize.toNat = 2 ^ k)
    (rsp : BitVec 64) : (stackBase K rsp).toNat = rsp.toNat / 2 ^ k * 2 ^ k := by
  have hk : 2 ^ k < 2 ^ 64 := hS ▸ K.stackSize.isLt
  have hpos := Nat.two_pow_pos k
  have hmask : (~~~(K.stackSize - 1)).toNat = 2 ^ 64 - (2 ^ k - 1 + 1) := by
    rw [BitVec.toNat_not, BitVec.toNat_sub, hS]
    simp
    generalize 2 ^ k = m at *
    omega
  apply Nat.eq_of_testBit_eq
  intro i
  rw [stackBase, testBit_div_mul_two_pow, BitVec.toNat_and, Nat.testBit_and, hmask,
    Nat.testBit_two_pow_sub_succ (by omega), Nat.testBit_two_pow_sub_one]
  by_cases hi : i < 64
  · by_cases hki : k ≤ i
    · simp [hi, hki]
    · simp [hi, hki, show i < k by omega]
  · have : rsp.toNat.testBit i = false :=
      Nat.testBit_eq_false_of_lt (lt_of_lt_of_le rsp.isLt (Nat.pow_le_pow_right Nat.two_pos
        (by omega)))
    simp [this]

theorem stackBase_eq (K : StackLayout) (hS : K.stackSize.toNat.isPowerOfTwo) {b rsp : BitVec 64}
    (hb : b.toNat % K.stackSize.toNat = 0) (hlo : b ≤ rsp)
    (hhi : rsp.toNat < b.toNat + K.stackSize.toNat) : stackBase K rsp = b := by
  obtain ⟨k, hk⟩ := hS
  rw [hk] at hb hhi
  have hb' : b.toNat / 2 ^ k * 2 ^ k = b.toNat := Nat.div_mul_cancel (Nat.dvd_of_mod_eq_zero hb)
  have hlo' : b.toNat ≤ rsp.toNat := hlo
  apply BitVec.eq_of_toNat_eq
  rw [stackBase_toNat K hk, Nat.div_eq_of_lt_le (hb'.symm ▸ hlo')
    (by rw [Nat.add_one_mul, hb']; exact hhi), hb']

/-- For a power-of-two `StackSize` and an `rsp` in an aligned block whose header
is intact and names a task with an intact magic, `GetCurrentTask` finds that
block's base, and returns its task exactly when `rsp` lies between the guard
page above `StackBottom` and `StackTop`, and null otherwise. -/
theorem getCurrentTask_spec (K : StackLayout) (mem : Memory τ)
    (hS : K.stackSize.toNat.isPowerOfTwo) (b rsp : BitVec 64) (T : τ)
    (hb : b.toNat % K.stackSize.toNat = 0) (hlo : b ≤ rsp)
    (hhi : rsp.toNat < b.toNat + K.stackSize.toNat)
    (hmagic1 : (mem.stackAt b).magic1 = K.stackMagic1)
    (hmagic2 : (mem.stackAt b).magic2 = K.stackMagic2)
    (htask : (mem.stackAt b).task = T) (hmagic : mem.magicOf T = K.taskMagic) :
    rsp &&& ~~~(K.stackSize - 1) = b ∧
    getCurrentTask K mem rsp =
      if b + K.stackBottom + K.pageSize ≤ rsp ∧ rsp ≤ b + K.stackTop then some T else none := by
  have hbase := stackBase_eq K hS hb hlo hhi
  refine ⟨hbase, ?_⟩
  simp only [getCurrentTask, hbase, hmagic1, hmagic2, htask, hmagic, ne_eq, not_true_eq_false,
    if_false, gt_iff_lt]
  by_cases h1 : rsp < b + K.stackBottom + K.pageSize
  · simp [h1, BitVec.not_le.mpr h1]
  · by_cases h2 : b + K.stackTop < rsp
    · simp [h1, h2, BitVec.not_le.mpr h2]
    · simp [h1, h2, BitVec.not_lt.mp h1, BitVec.not_lt.mp h2]

theorem getCurrentTask_spec_inside_and_guard :
    let K : StackLayout := ⟨8192, 24, 8192, 4096, 0x5354414b31, 0x5354414b32, 0x5441534b⟩
    let mem : Memory Nat := ⟨fun a => if a = 0x10000 then ⟨0x5354414b31, 7, 0x5354414b32⟩
      else ⟨0, 0, 0⟩, fun _ => 0x5441534b⟩
    getCurrentTask K mem 0x11800 = some 7 ∧ getCurrentTask K mem 0x11000 = none ∧
    ((0x11800 : BitVec 64) &&& ~~~(K.stackSize - 1) = 0x10000 ∧
      getCurrentTask K mem 0x11800 =
        if 0x10000 + K.stackBottom + K.pageSize ≤ (0x11800 : BitVec 64) ∧
          (0x11800 : BitVec 64) ≤ 0x10000 + K.stackTop then some 7 else none) ∧
    ((0x11000 : BitVec 64) &&& ~~~(K.stackSize - 1) = 0x10000 ∧
      getCurrentTask K mem 0x11000 =
        if 0x10000 + K.stackBottom + K.pageSize ≤ (0x11000 : BitVec 64) ∧
          (0x11000 : BitVec 64) ≤ 0x10000 + K.stackTop then some 7 else none) :=
  ⟨by decide, by decide,
    getCurrentTask_spec _ _ ⟨13, by decide⟩ 0x10000 0x11800 7 (by decide) (by decide) (by decide)
      rfl rfl rfl rfl,
    getCurrentTask_spec _ _ ⟨13, by decide⟩ 0x10000 0x11000 7 (by decide) (by decide) (by decide)
      rfl rfl rfl rfl⟩

end NosKernel.CurrentTask
