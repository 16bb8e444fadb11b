import NosKernel.TaskRegistry
import NosKernel.TaskPlacement

/-!
Starting a task, `Task::PrepareStart` and `Task::Start` in `kernel/task.cpp`.
`PrepareStart` allocates the task's stack and registers the task in the task
table, undoing the allocation when the table is full. `Start` then writes the
first frame on the new stack, marks the task waiting, picks a queue with
`SelectNextTaskQueue` and inserts the task there. The pick may be null, and
`Start` inserts into it without a check: `Fault.nullQueue` is that call.
-/

namespace NosKernel.TaskStart

open NosKernel.RefCounting NosKernel.ObjectTableMap NosKernel.TaskRegistry
  NosKernel.TaskPlacement

/-- `Task::State`. -/
inductive TaskState
  | new
  | waiting
  | running
  | exited
  deriving DecidableEq

/-- The fields of a task that `Start`, `Run` and `Exit` read or write, besides its
`Pid` and its counter, which the task table keeps. Addresses are `Nat`s; `none`
is `nullptr`. -/
structure TaskFields (τ : Type) where
  stack : Option Nat
  function : Option Nat
  ctx : Nat
  rsp : Nat
  state : TaskState
  startTime : Nat
  cpuAffinity : BitVec 64
  taskQueue : Option Nat

/-- `Task::Task`: everything null or zero, state `0`, affinity all ones. -/
def TaskFields.fresh : TaskFields τ :=
  ⟨none, none, 0, 0, .new, 0, ~~~0, none⟩

/-- A 64-bit word of memory: a plain value, or the address of a task object. -/
inductive Word (τ : Type)
  | value (n : Nat)
  | task (t : τ)
  deriving DecidableEq

/-- What `Start` uses that the excerpt leaves to headers: the offset of `StackTop`
in `struct Stack`, `sizeof(Context)`, `&Task::Exec`, and the offsets of `Rdi` and
`Rflags` in `Context`. The two registers are distinct words of the context, and
the context and the return address above it fit below `StackTop`. -/
structure FrameLayout where
  stackTop : Nat
  contextSize : Nat
  execAddress : Nat
  rdiOffset : Nat
  rflagsOffset : Nat
  rdiOffset_lt : rdiOffset < contextSize
  rflagsOffset_lt : rflagsOffset < contextSize
  rdiOffset_ne : rdiOffset ≠ rflagsOffset
  frame_fits : contextSize + 8 ≤ stackTop

/-- The task table, the tasks, memory as one word per address, and each CPU's
run queue with its switch counter. -/
structure Kernel (τ : Type) where
  registry : Registry τ
  tasks : τ → TaskFields τ
  memory : Nat → Word τ
  queues : Nat → List τ
  switchCounter : Nat → Nat
  runningCpus : BitVec 64
  bugOn : Bool

/-- A call that dereferences a null pointer: `taskQueue->Insert(this)` with a
null `taskQueue`. -/
inductive Fault
  | nullQueue
  deriving DecidableEq

variable {τ : Type} [DecidableEq τ]

/-- Modelled from the spec: `TaskQueue::Insert` (not in the excerpt) appends the
task to the queue, sets the task's queue back-pointer, and takes the queue's
reference on it. -/
def queueInsert (k : Kernel τ) (cpu : Nat) (t : τ) : Kernel τ :=
  { k with
    registry := { k.registry with counters := k.registry.counters.get t }
    queues := Function.update k.queues cpu (k.queues cpu ++ [t])
    tasks := Function.update k.tasks t { k.tasks t with taskQueue := some cpu } }

@[simp] theorem queueInsert_keeps (k : Kernel τ) (cpu : Nat) (t : τ) :
    (queueInsert k cpu t).registry = { k.registry with counters := k.registry.counters.get t } ∧
    (queueInsert k cpu t).memory = k.memory ∧ (queueInsert k cpu t).bugOn = k.bugOn :=
  ⟨rfl, rfl, rfl⟩

@[simp] theorem queueInsert_tasks (k : Kernel τ) (cpu : Nat) (t u : τ) :
    (queueInsert k cpu t).tasks u =
      if u = t then { k.tasks t with taskQueue := some cpu } else k.tasks u := by
  simp [queueInsert, Function.update_apply]

@[simp] theorem queueInsert_queues (k : Kernel τ) (cpu : Nat) (t : τ) (i : Nat) :
    (queueInsert k cpu t).queues i = if i = cpu then k.queues cpu ++ [t] else k.queues i := by
  simp [queueInsert, Function.update_apply]

/-- A kernel with an empty task table of `L` over fresh tasks each held once,
zeroed memory, empty queues, and zero switch counters. -/
def Kernel.fresh (L : Layout τ) (runningCpus : BitVec 64) : Kernel τ :=
  ⟨init L fun _ => 1, fun _ => .fresh, fun _ => .value 0, fun _ => [], fun _ => 0, runningCpus,
    false⟩

/-- `Task::SetCpuAffinity`. -/
def setCpuAffinity (k : Kernel τ) (t : τ) (affinity : BitVec 64) : Kernel τ :=
  { k with tasks := Function.update k.tasks t { k.tasks t with cpuAffinity := affinity } }

@[simp] theorem setCpuAffinity_tasks (k : Kernel τ) (t : τ) (affinity : BitVec 64) (u : τ) :
    (setCpuAffinity k t affinity).tasks u =
      if u = t then { k.tasks t with cpuAffinity := affinity } else k.tasks u := by
  simp [setCpuAffinity, Function.update_apply]

@[simp] theorem setCpuAffinity_keeps (k : Kernel τ) (t : τ) (affinity : BitVec 64) :
    (setCpuAffinity k t affinity).registry = k.registry ∧
    (setCpuAffinity k t affinity).queues = k.queues ∧
    (setCpuAffinity k t affinity).bugOn = k.bugOn :=
  ⟨rfl, rfl, rfl⟩

/-- `Task::PrepareStart`: `stack` is what `new struct Stack(this)` returned. -/
def prepareStart (L : Layout τ) (stack : Option Nat) (k : Kernel τ) (t : τ)
    (func ctx : Nat) : Bool × Kernel τ :=
  let f := k.tasks t
  let k := { k with bugOn := k.bugOn || f.stack.isSome || f.function.isSome }
  match stack with
  | none => (false, { k with tasks := Function.update k.tasks t { f with stack := none } })
  | some addr =>
      let r := TaskRegistry.insert L k.registry t
      if r.1 then
        let f' := { f with stack := some addr, function := some func, ctx := ctx }
        (true, { k with registry := r.2, tasks := Function.update k.tasks t f' })
      else
        let f' := { f with stack := none }
        (false, { k with registry := r.2, tasks := Function.update k.tasks t f' })

/-- `Stdlib::MemSet(p, 0, n)`: every word in `[p, p + n)` zeroed. -/
def memSet (memory : Nat → Word τ) (p n : Nat) : Nat → Word τ :=
  fun a => if p ≤ a ∧ a < p + n then .value 0 else memory a

/-- The frame setup of `Task::Start`: `*(--rsp) = &Task::Exec` just below
`StackTop`, the `Context` below it zeroed with `Rdi = this` and `Rflags = 1 << 9`,
`Rsp` at that context, the start time, and `State = Waiting`. -/
def setupFrame (F : FrameLayout) (now : Nat) (k : Kernel τ) (t : τ) : Kernel τ :=
  let f := k.tasks t
  let rsp := f.stack.getD 0 + F.stackTop - 8
  let regs := rsp - F.contextSize
  let memory := memSet (Function.update k.memory rsp (.value F.execAddress)) regs F.contextSize
  let memory := Function.update memory (regs + F.rdiOffset) (.task t)
  let memory := Function.update memory (regs + F.rflagsOffset) (.value (1 <<< 9))
  { k with
    memory := memory
    tasks := Function.update k.tasks t { f with rsp := regs, startTime := now, state := .waiting } }

/-- `Task::Start`, at boot time `now`. -/
def start (L : Layout τ) (F : FrameLayout) (stack : Option Nat) (now : Nat) (k : Kernel τ)
    (t : τ) (func ctx : Nat) : Except Fault (Bool × Kernel τ) :=
  let r := prepareStart L stack k t func ctx
  if !r.1 then .ok (false, r.2)
  else
    let k := setupFrame F now r.2 t
    let f := k.tasks t
    match selectNextTaskQueue k.runningCpus f.cpuAffinity f.taskQueue k.switchCounter with
    | none => .error .nullQueue
    | some cpu => .ok (true, queueInsert k cpu t)

variable {L : Layout τ} {stack : Option Nat} {k : Kernel τ} {t : τ} {func ctx : Nat}

theorem prepareStart_true_iff :
    (prepareStart L stack k t func ctx).1 = true ↔
      stack.isSome ∧ (TaskRegistry.insert L k.registry t).1 = true := by
  unfold prepareStart
  cases stack with
  | none => simp
  | some addr =>
      dsimp only
      split <;> simp_all

theorem prepareStart_of_true (h : (prepareStart L stack k t func ctx).1 = true) :
    (prepareStart L stack k t func ctx).2.registry = (TaskRegistry.insert L k.registry t).2 ∧
      ∃ addr, stack = some addr ∧ (prepareStart L stack k t func ctx).2.tasks t =
        { k.tasks t with stack := some addr, function := some func, ctx := ctx } := by
  unfold prepareStart at h ⊢
  cases stack with
  | none => simp at h
  | some addr =>
      dsimp only
      split <;> simp_all

theorem prepareStart_of_false (h : (prepareStart L stack k t func ctx).1 = false) :
    ((prepareStart L stack k t func ctx).2.registry = k.registry ∨
      ((TaskRegistry.insert L k.registry t).1 = false ∧
        (prepareStart L stack k t func ctx).2.registry = (TaskRegistry.insert L k.registry t).2)) ∧
    (prepareStart L stack k t func ctx).2.tasks t = { k.tasks t with stack := none } := by
  unfold prepareStart at h ⊢
  cases stack with
  | none => simp
  | some addr =>
      dsimp only
      split <;> simp_all

theorem prepareStart_keeps (L : Layout τ) (stack : Option Nat) (k : Kernel τ) (t : τ)
    (func ctx : Nat) :
    (prepareStart L stack k t func ctx).2.runningCpus = k.runningCpus ∧
    (prepareStart L stack k t func ctx).2.queues = k.queues ∧
    (prepareStart L stack k t func ctx).2.switchCounter = k.switchCounter ∧
    ((prepareStart L stack k t func ctx).2.tasks t).cpuAffinity = (k.tasks t).cpuAffinity ∧
    ((prepareStart L stack k t func ctx).2.tasks t).taskQueue = (k.tasks t).taskQueue ∧
    ((prepareStart L stack k t func ctx).2.tasks t).state = (k.tasks t).state ∧
    (∀ u, u ≠ t → (prepareStart L stack k t func ctx).2.tasks u = k.tasks u) ∧
    (prepareStart L stack k t func ctx).2.bugOn =
      (k.bugOn || (k.tasks t).stack.isSome || (k.tasks t).function.isSome) := by
  unfold prepareStart
  cases stack with
  | none => simp +contextual [Function.update_apply]
  | some addr =>
      dsimp only
      split <;> simp +contextual [Function.update_apply]

@[simp] theorem prepareStart_memory (L : Layout τ) (stack : Option Nat) (k : Kernel τ) (t : τ)
    (func ctx : Nat) : (prepareStart L stack k t func ctx).2.memory = k.memory := by
  unfold prepareStart
  cases stack with
  | none => rfl
  | some addr =>
      dsimp only
      split <;> rfl

variable {F : FrameLayout} {now : Nat}

theorem start_of_prepare_false (h : (prepareStart L stack k t func ctx).1 = false) :
    start L F stack now k t func ctx = .ok (false, (prepareStart L stack k t func ctx).2) := by
  simp [start, h]

@[simp] theorem setupFrame_tasks_self (F : FrameLayout) (now : Nat) (k : Kernel τ) (t : τ) :
    (setupFrame F now k t).tasks t = { k.tasks t with
      rsp := (k.tasks t).stack.getD 0 + F.stackTop - 8 - F.contextSize
      startTime := now
      state := .waiting } := by
  simp [setupFrame]

theorem setupFrame_tasks_ne (F : FrameLayout) (now : Nat) (k : Kernel τ) {t u : τ} (hu : u ≠ t) :
    (setupFrame F now k t).tasks u = k.tasks u := by
  simp [setupFrame, hu]

@[simp] theorem setupFrame_keeps (F : FrameLayout) (now : Nat) (k : Kernel τ) (t : τ) :
    (setupFrame F now k t).registry = k.registry ∧ (setupFrame F now k t).queues = k.queues ∧
    (setupFrame F now k t).runningCpus = k.runningCpus ∧
    (setupFrame F now k t).switchCounter = k.switchCounter ∧
    (setupFrame F now k t).bugOn = k.bugOn :=
  ⟨rfl, rfl, rfl, rfl, rfl⟩

theorem setupFrame_memory (F : FrameLayout) (now : Nat) (k : Kernel τ) (t : τ) (a : Nat) :
    (setupFrame F now k t).memory a =
      let regs := (k.tasks t).stack.getD 0 + F.stackTop - 8 - F.contextSize
      if a = regs + F.rflagsOffset then .value (1 <<< 9)
      else if a = regs + F.rdiOffset then .task t
      else if regs ≤ a ∧ a < regs + F.contextSize then .value 0
      else if a = regs + F.contextSize then .value F.execAddress
      else k.memory a := by
  have := F.frame_fits
  simp only [setupFrame, memSet, Function.update_apply]
  split_ifs <;> first | rfl | (exfalso; omega)

theorem start_of_prepare_true (h : (prepareStart L stack k t func ctx).1 = true) :
    start L F stack now k t func ctx =
      match selectNextTaskQueue k.runningCpus (k.tasks t).cpuAffinity (k.tasks t).taskQueue
          k.switchCounter with
      | none => .error .nullQueue
      | some cpu => .ok (true,
          queueInsert (setupFrame F now (prepareStart L stack k t func ctx).2 t) cpu t) := by
  obtain ⟨hrun, -, hsw, haff, htq, -⟩ := prepareStart_keeps L stack k t func ctx
  simp only [start, h, Bool.not_true, Bool.false_eq_true, if_false, setupFrame_tasks_self,
    setupFrame_keeps]
  rw [hrun, hsw, haff, htq]

theorem start_eq_ok_false {k' : Kernel τ}
    (h : start L F stack now k t func ctx = .ok (false, k')) :
    (prepareStart L stack k t func ctx).1 = false ∧ k' = (prepareStart L stack k t func ctx).2 := by
  cases hp : (prepareStart L stack k t func ctx).1 with
  | false => simpa [start_of_prepare_false hp, eq_comm] using h
  | true =>
      rw [start_of_prepare_true hp] at h
      split at h <;> simp at h

theorem start_eq_ok_true {k' : Kernel τ}
    (h : start L F stack now k t func ctx = .ok (true, k')) :
    (prepareStart L stack k t func ctx).1 = true ∧
      ∃ i, selectNextTaskQueue k.runningCpus (k.tasks t).cpuAffinity (k.tasks t).taskQueue
          k.switchCounter = some i ∧
        k' = queueInsert (setupFrame F now (prepareStart L stack k t func ctx).2 t) i t := by
  cases hp : (prepareStart L stack k t func ctx).1 with
  | false => simp [start_of_prepare_false hp] at h
  | true =>
      rw [start_of_prepare_true hp] at h
      split at h
      · simp at h
      · simp only [Except.ok.injEq, Prod.mk.injEq, true_and] at h
        exact ⟨rfl, _, ‹_›, h.symm⟩

/-- `Start` faults on a null queue exactly when the stack was allocated, the
task table took the task, and no CPU is eligible for it. -/
theorem start_eq_nullQueue_iff :
    start L F stack now k t func ctx = .error .nullQueue ↔
      stack.isSome ∧ (TaskRegistry.insert L k.registry t).1 = true ∧
        ∀ i, ¬Eligible (k.runningCpus &&& (k.tasks t).cpuAffinity) (k.tasks t).taskQueue i := by
  rw [← selectNextTaskQueue_eq_none_iff, ← and_assoc, ← prepareStart_true_iff]
  cases hp : (prepareStart L stack k t func ctx).1 with
  | false => simp [start_of_prepare_false hp]
  | true =>
      rw [start_of_prepare_true hp]
      cases selectNextTaskQueue k.runningCpus (k.tasks t).cpuAffinity (k.tasks t).taskQueue
        k.switchCounter <;> simp

section
variable {ext : τ → Nat}

/-- A `Start` that returns false leaves the task table, every counter value, the
queues and the task's fields as they were, but for `Stack`, which it sets to
null. -/
theorem start_ok_false (hi : TableInv L ext k.registry) {k' : Kernel τ}
    (h : start L F stack now k t func ctx = .ok (false, k')) :
    k'.registry.taskObjectTable = k.registry.taskObjectTable ∧
      k'.registry.taskList = k.registry.taskList ∧ k'.registry.pid = k.registry.pid ∧
      k'.registry.lookups = k.registry.lookups ∧
      (∀ u, k'.registry.counters.refCounter u = k.registry.counters.refCounter u) ∧
      k'.tasks t = { k.tasks t with stack := none } ∧ k'.queues = k.queues := by
  obtain ⟨hp, rfl⟩ := start_eq_ok_false h
  obtain ⟨hreg, htask⟩ := prepareStart_of_false hp
  obtain ⟨-, hq, -⟩ := prepareStart_keeps L stack k t func ctx
  rcases hreg with hreg | ⟨hf, hreg⟩
  · simp [hreg, htask, hq]
  · rw [insert_eq_of_false hi hf] at hreg
    simp [hreg, htask, hq]

theorem start_ok_false_nomem_and_full :
    let L : Layout Nat := ⟨1, id, 2, 18446744073709551615, by decide, by decide⟩
    let F : FrameLayout := ⟨8192, 160, 0x100000, 112, 136, by decide, by decide, by decide,
      by decide⟩
    let k := Kernel.fresh L 1
    let kfull : Kernel Nat := { k with registry :=
      (TaskRegistry.insert L (TaskRegistry.insert L (TaskRegistry.init L fun _ => 1) 0).2 1).2 }
    let k₁ := (prepareStart L none k 0 0x100100 0).2
    let k₂ := (prepareStart L (some 0x200000) kfull 2 0x100100 0).2
    (TableInv L (fun _ => 1) k.registry ∧ start L F none 0 k 0 0x100100 0 = .ok (false, k₁) ∧
      (k₁.registry.taskObjectTable = k.registry.taskObjectTable ∧
      k₁.registry.taskList = k.registry.taskList ∧ k₁.registry.pid = k.registry.pid ∧
      k₁.registry.lookups = k.registry.lookups ∧
      (∀ u, k₁.registry.counters.refCounter u = k.registry.counters.refCounter u) ∧
      k₁.tasks 0 = { k.tasks 0 with stack := none } ∧ k₁.queues = k.queues)) ∧
    ((TaskRegistry.insert L kfull.registry 2).1 = false ∧ TableInv L (fun _ => 1) kfull.registry ∧
      start L F (some 0x200000) 0 kfull 2 0x100100 0 = .ok (false, k₂) ∧
      (k₂.registry.taskObjectTable = kfull.registry.taskObjectTable ∧
      k₂.registry.taskList = kfull.registry.taskList ∧ k₂.registry.pid = kfull.registry.pid ∧
      k₂.registry.lookups = kfull.registry.lookups ∧
      (∀ u, k₂.registry.counters.refCounter u = kfull.registry.counters.refCounter u) ∧
      k₂.tasks 2 = { kfull.tasks 2 with stack := none } ∧ k₂.queues = kfull.queues)) := by
  dsimp only
  refine ⟨⟨tableInv_init, ?nomem, start_ok_false tableInv_init ?nomem⟩,
    ⟨by decide, ?inv, ?full, start_ok_false ?inv ?full⟩⟩
  case nomem => exact start_of_prepare_false rfl
  case inv => exact Reachable.tableInv (.insert (.insert .init (by decide)) (by decide))
  case full => exact start_of_prepare_false (by decide)

end

/-- `Start` of a fresh task pinned to no CPU (affinity `0`), with only the BP
running, registers the task and then reaches `taskQueue->Insert(this)` with the
null queue that `SelectNextTaskQueue` returns. -/
theorem start_inserts_into_null_queue :
    let L : Layout Nat := ⟨1, id, 2, 18446744073709551615, by decide, by decide⟩
    start L ⟨8192, 160, 0x100000, 112, 136, by decide, by decide, by decide, by decide⟩
      (some 0x200000) 0 (setCpuAffinity (Kernel.fresh L 1) 0 0) 0 0x100100 0 =
      .error .nullQueue := by
  rfl

end NosKernel.TaskStart
