import Mathlib.Logic.Function.Basic
import Mathlib.Data.List.Nodup
import NosKernel.Runs

/-!
Boot-stack allocation of `kernel/main.cpp`. Every CPU, the BP in `Main` and
each AP in `ApMain`, begins with `ALLOC_CPU_STACK()`: `AtomicReadAndInc` returns
the old `StackIndex` and increments it, an index at or past `MaxCpus` panics,
and otherwise `rsp` is loaded with the top of `Stack[index]`. The increment is
the only shared step; the check and `SetRsp` touch the CPU alone, so the CPUs'
steps may interleave in any order.
-/

namespace NosKernel.CpuStackAllocation

/-- Where a CPU is in `ALLOC_CPU_STACK()`: before it, after `AtomicReadAndInc`
holding the old `StackIndex`, with `rsp` loaded with `&Stack[index][CpuStackSize]`,
or in `Panic("Can't allocate stack for cpu")`. -/
inductive Phase
  | start
  | indexed (index : Nat)
  | running (rsp : Nat)
  | panicked
  deriving DecidableEq

/-- The static array `Stack[MaxCpus][CpuStackSize]`, placed at `base`. -/
structure Pool where
  base : Nat
  maxCpus : Nat
  cpuStackSize : Nat

/-- `&Stack[index][CpuStackSize]`: the top of slot `index`. -/
def Pool.top (P : Pool) (index : Nat) : Nat :=
  P.base + index * P.cpuStackSize + P.cpuStackSize

/-- The bytes of `Stack[index]`. -/
def Pool.InSlot (P : Pool) (index addr : Nat) : Prop :=
  P.base + index * P.cpuStackSize ≤ addr ∧ addr < P.base + (index + 1) * P.cpuStackSize

theorem Pool.inSlot_disjoint (P : Pool) {i j : Nat} (hij : i ≠ j) (addr : Nat) :
    ¬(P.InSlot i addr ∧ P.InSlot j addr) := by
  rintro ⟨⟨hi1, hi2⟩, hj1, hj2⟩
  rcases Nat.lt_or_gt_of_ne hij with h | h
  · have := Nat.mul_le_mul_right P.cpuStackSize (show i + 1 ≤ j by omega)
    omega
  · have := Nat.mul_le_mul_right P.cpuStackSize (show j + 1 ≤ i by omega)
    omega

/-- The shared counter and every CPU's phase. `order`, the CPUs in the order of
their increments, is ghost state. -/
structure Boot where
  stackIndex : Nat
  phase : Nat → Phase
  order : List Nat

/-- One CPU's step: `AtomicReadAndInc(&StackIndex)`, or the index check
followed by `Panic` or `SetRsp`. -/
inductive Action
  | readAndInc (cpu : Nat)
  | check (cpu : Nat)

/-- The step of an action, or `none` when the CPU is not at its point. -/
def step (P : Pool) (s : Boot) : Action → Option Boot
  | .readAndInc c =>
      if s.phase c = .start then
        some ⟨s.stackIndex + 1, Function.update s.phase c (.indexed s.stackIndex), s.order ++ [c]⟩
      else none
  | .check c =>
      match s.phase c with
      | .indexed index =>
          let next := if P.maxCpus ≤ index then Phase.panicked else .running (P.top index)
          some { s with phase := Function.update s.phase c next }
      | _ => none

/-- No CPU has started, `StackIndex` is zero. -/
def init : Boot := ⟨0, fun _ => .start, []⟩

/-- The states some interleaving of the CPUs' steps reaches. -/
inductive Reachable (P : Pool) : Boot → Prop
  | init : Reachable P init
  | step {s s' : Boot} {a : Action} : Reachable P s → step P s a = some s' → Reachable P s'

theorem reachable_foldlM {P : Pool} {s : Boot} (h : Reachable P s) (as : List Action)
    (hrun : (as.foldlM (step P) s).isSome) : Reachable P ((as.foldlM (step P) s).getD s) :=
  Runs.foldlM_getD_induction _ (fun _ _ _ hs hstep => .step hs hstep) as h hrun

/-- The `i`-th CPU to increment is at the phase its index allows. -/
def PhaseOf (P : Pool) (i : Nat) : Phase → Prop
  | .indexed index => index = i
  | .running rsp => i < P.maxCpus ∧ rsp = P.top i
  | .panicked => P.maxCpus ≤ i
  | .start => False

/-- The invariant: the counter is the number of increments, no CPU increments
twice, a CPU has left `start` exactly when it has incremented, and the `i`-th
to increment is at a phase its index `i` allows. -/
structure Allocated (P : Pool) (s : Boot) : Prop where
  stackIndex_eq : s.stackIndex = s.order.length
  nodup : s.order.Nodup
  start_iff : ∀ c, s.phase c = .start ↔ c ∉ s.order
  phaseOf : ∀ i c, s.order[i]? = some c → PhaseOf P i (s.phase c)

theorem allocated_init (P : Pool) : Allocated P init :=
  ⟨rfl, List.nodup_nil, fun _ => by simp [init], fun i c h => by simp [init] at h⟩

theorem lt_length_of_getElem? {l : List Nat} {i c : Nat} (h : l[i]? = some c) :
    i < l.length := by
  by_contra hle
  rw [List.getElem?_eq_none (Nat.le_of_not_lt hle)] at h
  cases h

theorem Allocated.index_unique {P : Pool} {s : Boot} (ha : Allocated P s) {i j c : Nat}
    (hi : s.order[i]? = some c) (hj : s.order[j]? = some c) : i = j :=
  List.getElem?_inj (lt_length_of_getElem? hi) ha.nodup (hi.trans hj.symm)

theorem allocated_step {P : Pool} {s s' : Boot} {a : Action} (ha : Allocated P s)
    (h : step P s a = some s') : Allocated P s' := by
  cases a with
  | readAndInc c =>
      obtain ⟨hstart, h⟩ := Option.ite_none_right_eq_some.mp h
      cases h
      have hc : c ∉ s.order := (ha.start_iff c).mp hstart
      refine ⟨by simp [ha.stackIndex_eq], ?_, fun d => ?_, fun i d hd => ?_⟩
      · exact List.nodup_append.mpr ⟨ha.nodup, List.nodup_singleton c,
          List.disjoint_singleton.mpr hc⟩
      · by_cases hdc : d = c
        · subst hdc
          simp
        · simp [Function.update_apply, hdc, ha.start_iff d]
      · by_cases hlt : i < s.order.length
        · rw [List.getElem?_append_left hlt] at hd
          have hdc : d ≠ c := fun hdc => hc (hdc ▸ List.getElem?_mem hd)
          simpa [Function.update_apply, hdc] using ha.phaseOf i d hd
        · rw [List.getElem?_append_right (Nat.le_of_not_lt hlt)] at hd
          have hi : i - s.order.length = 0 := by
            by_contra hne
            rw [List.getElem?_eq_none (by simp; omega)] at hd
            cases hd
          simp only [hi, List.getElem?_cons_zero, Option.some.injEq] at hd
          subst hd
          simp [PhaseOf, ha.stackIndex_eq]
          omega
  | check c =>
      simp only [step] at h
      split at h
      · rename_i index hindexed
        cases h
        have hmem : c ∈ s.order := (ha.start_iff c).not_left.mp (by simp [hindexed])
        obtain ⟨i, hi⟩ := List.getElem?_of_mem hmem
        have hidx : index = i := by simpa [hindexed, PhaseOf] using ha.phaseOf i c hi
        subst hidx
        refine ⟨ha.stackIndex_eq, ha.nodup, fun d => ?_, fun j d hd => ?_⟩
        · by_cases hdc : d = c
          · subst hdc
            simp only [Function.update_apply, if_true, hmem, not_true_eq_false, iff_false]
            split <;> simp
          · simp [Function.update_apply, hdc, ha.start_iff d]
        · by_cases hdc : d = c
          · subst hdc
            have := ha.index_unique hi hd
            subst this
            simp only [Function.update_apply, if_true]
            split <;> simp [PhaseOf] <;> omega
          · simpa [Function.update_apply, hdc] using ha.phaseOf j d hd
      · cases h

theorem Reachable.allocated {P : Pool} {s : Boot} (h : Reachable P s) : Allocated P s := by
  induction h with
  | init => exact allocated_init P
  | step _ hstep ih => exact allocated_step ih hstep

end NosKernel.CpuStackAllocation
