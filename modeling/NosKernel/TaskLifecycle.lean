import NosKernel.TaskStart

/-!
Tasks while the kernel boots, in `kernel/task.cpp`: `Task::Start`, `Task::Run`
(the first task of a CPU, run on the CPU's own call), `Task::Exit`, `Task::Put`
with `Task::Release`, and `Task::SetCpuAffinity`, called in any order while
other CPUs come up and switch context. `Run` is cut at the call of
`Function(Ctx)`, so that anything may happen while the function runs, and
`Exit` at its call of `Schedule()`, which never returns to the task.

A task's references are held by its owner, by the task table (two, while it is
registered) and by the queue its back-pointer names (one). Over every run in
which no `Start` faults, the task table keeps its invariant over the owners'
and the queues' references, a registered task sits in a queue, once, in the one
its back-pointer names, a queued task that is no longer registered has exited,
and no `BugOn` fires: in particular the last `Put` of a task finds it in no
table and no queue.
-/

namespace NosKernel.TaskLifecycle

open NosKernel.RefCounting NosKernel.TaskRegistry NosKernel.TaskPlacement NosKernel.TaskStart

variable {τ : Type} [DecidableEq τ]

/-- `Task::Release`, run by the `Put` that drops the last reference:
`BugOn(TaskQueue != nullptr)`, then the stack is freed. -/
def release (k : Kernel τ) (t : τ) : Kernel τ :=
  { k with
    bugOn := k.bugOn || (k.tasks t).taskQueue.isSome
    tasks := Function.update k.tasks t { k.tasks t with stack := none } }

/-- `Task::Put`. -/
def put (k : Kernel τ) (t : τ) : Kernel τ :=
  let k' := { k with registry := { k.registry with counters := k.registry.counters.put t } }
  if k.registry.counters.refCounter t = 1 then release k' t else k'

/-- Modelled from the spec: `TaskQueue::Remove` (not in the excerpt) unlinks the
task, clears its queue back-pointer, and drops the queue's reference. -/
def queueRemove (k : Kernel τ) (cpu : Nat) (t : τ) : Kernel τ :=
  put { k with
    queues := Function.update k.queues cpu ((k.queues cpu).erase t)
    tasks := Function.update k.tasks t { k.tasks t with taskQueue := none } } t

/-- `TaskTable::Remove(this)`, whose second `Put` releases the task when no one
else holds it. -/
def tableRemove (L : Layout τ) (k : Kernel τ) (t : τ) : Kernel τ :=
  let k' := { k with registry := TaskRegistry.remove L k.registry t }
  if k.registry.counters.refCounter t = 2 then release k' t else k'

/-- `Task::Run` up to the call of `Function(Ctx)`: `PrepareStart`, the start
time, state `Running`, and `taskQueue.Insert(this)` on the queue of CPU `cpu`.
`SetRsp` moves the CPU onto the new stack and changes no task field. -/
def runBegin (L : Layout τ) (stack : Option Nat) (now : Nat) (k : Kernel τ) (t : τ)
    (func ctx cpu : Nat) : Bool × Kernel τ :=
  let r := prepareStart L stack k t func ctx
  if !r.1 then (false, r.2)
  else
    let f := { r.2.tasks t with startTime := now, state := .running }
    (true, queueInsert { r.2 with tasks := Function.update r.2.tasks t f } cpu t)

/-- `Task::Run` once `Function(Ctx)` has returned: `taskQueue.Remove(this)` and
`TaskTable::Remove(this)`. -/
def runEnd (L : Layout τ) (k : Kernel τ) (t : τ) (cpu : Nat) : Kernel τ :=
  tableRemove L (queueRemove k cpu t) t

/-- `Task::Exit` up to `Schedule()`: `State = Exited`, then
`TaskTable::Remove(this)`. The task stays in its queue, which still holds it. -/
def exit (L : Layout τ) (k : Kernel τ) (t : τ) : Kernel τ :=
  tableRemove L { k with tasks := Function.update k.tasks t { k.tasks t with state := .exited } } t

@[simp] theorem release_tasks (k : Kernel τ) (t u : τ) :
    (release k t).tasks u = if u = t then { k.tasks t with stack := none } else k.tasks u := by
  simp [release, Function.update_apply]

@[simp] theorem release_keeps (k : Kernel τ) (t : τ) :
    (release k t).registry = k.registry ∧ (release k t).queues = k.queues ∧
    (release k t).bugOn = (k.bugOn || (k.tasks t).taskQueue.isSome) :=
  ⟨rfl, rfl, rfl⟩

theorem put_of_ne (k : Kernel τ) {t : τ} (h : k.registry.counters.refCounter t ≠ 1) :
    put k t = { k with registry := { k.registry with counters := k.registry.counters.put t } } :=
  if_neg h

theorem tableRemove_of_ne (L : Layout τ) (k : Kernel τ) {t : τ}
    (h : k.registry.counters.refCounter t ≠ 2) :
    tableRemove L k t = { k with registry := TaskRegistry.remove L k.registry t } :=
  if_neg h

/-- The kernel states reached from fresh tasks, each held once by its owner,
and an empty task table. `ext` counts the references the owners still hold;
an owner calls on its task only while it holds it, and starts it only once;
`Exit` is called by a registered task on itself. -/
inductive Reachable (L : Layout τ) (F : FrameLayout) : (τ → Nat) → Kernel τ → Prop
  | fresh (runningCpus : BitVec 64) : Reachable L F (fun _ => 1) (Kernel.fresh L runningCpus)
  | setCpuAffinity {ext : τ → Nat} {k : Kernel τ} (t : τ) (affinity : BitVec 64) :
      Reachable L F ext k → 0 < ext t → Reachable L F ext (setCpuAffinity k t affinity)
  | start {ext : τ → Nat} {k k' : Kernel τ} {t : τ} {stack : Option Nat} {now func ctx : Nat}
      {b : Bool} :
      Reachable L F ext k → 0 < ext t → (k.tasks t).stack = none →
      start L F stack now k t func ctx = .ok (b, k') → Reachable L F ext k'
  | runBegin {ext : τ → Nat} {k : Kernel τ} {t : τ} {stack : Option Nat} {now func ctx cpu : Nat} :
      Reachable L F ext k → 0 < ext t → (k.tasks t).stack = none →
      Reachable L F ext (runBegin L stack now k t func ctx cpu).2
  | runEnd {ext : τ → Nat} {k : Kernel τ} {t : τ} {cpu : Nat} :
      Reachable L F ext k → (k.tasks t).state = .running → (k.tasks t).taskQueue = some cpu →
      Reachable L F ext (runEnd L k t cpu)
  | exit {ext : τ → Nat} {k : Kernel τ} {t : τ} :
      Reachable L F ext k → Registered k.registry t → Reachable L F ext (exit L k t)
  | put {ext : τ → Nat} {k : Kernel τ} {t : τ} :
      Reachable L F ext k → 0 < ext t → Reachable L F (Function.update ext t (ext t - 1)) (put k t)
  | cpus {ext : τ → Nat} {k : Kernel τ} (runningCpus : BitVec 64) (switchCounter : Nat → Nat) :
      Reachable L F ext k →
      Reachable L F ext { k with runningCpus := runningCpus, switchCounter := switchCounter }

/-- The reference the queues hold on a task: one while its back-pointer is set. -/
def queueRefs (k : Kernel τ) (t : τ) : Nat := if (k.tasks t).taskQueue.isSome then 1 else 0

/-- What the invariant asks of one task: a registered task is queued and waiting
or running; a queued task has its stack and function, and is registered or has
exited; a task its owner still holds that has no stack has no function and no
queue; and the task sits once in the queue its back-pointer names and in no
other. -/
structure TaskInv (ext : τ → Nat) (k : Kernel τ) (t : τ) : Prop where
  registered_queued : Registered k.registry t → (k.tasks t).taskQueue.isSome ∧
    ((k.tasks t).state = .waiting ∨ (k.tasks t).state = .running)
  queued : (k.tasks t).taskQueue.isSome → (k.tasks t).stack.isSome ∧
    (k.tasks t).function.isSome ∧ (Registered k.registry t ∨ (k.tasks t).state = .exited)
  unstarted : 0 < ext t → (k.tasks t).stack = none →
    (k.tasks t).function = none ∧ (k.tasks t).taskQueue = none
  queue_count : ∀ i, (k.queues i).count t = if (k.tasks t).taskQueue = some i then 1 else 0

/-- The invariant of those runs: the task table keeps its invariant over the
owners' and the queues' references, every task keeps `TaskInv`, every `Lookup`
has been put, and no `BugOn` has fired. -/
structure KernelInv (L : Layout τ) (ext : τ → Nat) (k : Kernel τ) : Prop where
  tableInv : TableInv L (fun u => ext u + queueRefs k u) k.registry
  taskInv : ∀ t, TaskInv ext k t
  lookups_nil : k.registry.lookups = []
  bugOn_false : k.bugOn = false

variable {L : Layout τ} {ext : τ → Nat} {k : Kernel τ} {t : τ}

theorem TaskInv.frame {ext' : τ → Nat} {k' : Kernel τ} {u : τ} (h : TaskInv ext k u)
    (he : ext' u ≤ ext u) (hreg : Registered k'.registry u ↔ Registered k.registry u)
    (hq : ∀ i, (k'.queues i).count u = (k.queues i).count u)
    (ht : (k'.tasks u).stack = (k.tasks u).stack ∧ (k'.tasks u).function = (k.tasks u).function ∧
      (k'.tasks u).taskQueue = (k.tasks u).taskQueue ∧ (k'.tasks u).state = (k.tasks u).state) :
    TaskInv ext' k' u := by
  obtain ⟨h1, h2, h3, h4⟩ := ht
  refine ⟨?_, ?_, fun hpos => ?_, fun i => ?_⟩ <;> simp only [h1, h2, h3, h4, hreg, hq]
  · exact h.registered_queued
  · exact h.queued
  · exact h.unstarted (by omega)
  · exact h.queue_count i

theorem KernelInv.refCounter_eq (hk : KernelInv L ext k) (t : τ) :
    k.registry.counters.refCounter t =
      ext t + queueRefs k t + (if Registered k.registry t then 2 else 0) := by
  simp [hk.tableInv.refCounter_eq, hk.lookups_nil]

theorem kernelInv_fresh (runningCpus : BitVec 64) :
    KernelInv L (fun _ => 1) (Kernel.fresh L runningCpus) where
  tableInv := tableInv_init.of_ext_eq fun _ => by simp [queueRefs, Kernel.fresh, TaskFields.fresh]
  taskInv _ := ⟨by simp [Kernel.fresh, Registered, init], by simp [Kernel.fresh, TaskFields.fresh],
    by simp [Kernel.fresh, TaskFields.fresh], by simp [Kernel.fresh, TaskFields.fresh]⟩
  lookups_nil := rfl
  bugOn_false := rfl

theorem KernelInv.setCpuAffinity_step (hk : KernelInv L ext k) (t : τ) (affinity : BitVec 64) :
    KernelInv L ext (setCpuAffinity k t affinity) where
  tableInv := hk.tableInv.of_ext_eq fun u => by
    by_cases hu : u = t <;> simp [queueRefs, hu]
  taskInv u := (hk.taskInv u).frame le_rfl Iff.rfl (fun _ => rfl) (by
    by_cases hu : u = t <;> simp [hu])
  lookups_nil := hk.lookups_nil
  bugOn_false := hk.bugOn_false

theorem KernelInv.release_step (hk : KernelInv L ext k) (hq : (k.tasks t).taskQueue = none)
    (he : ext t = 0) : KernelInv L ext (release k t) where
  tableInv := hk.tableInv.of_ext_eq fun u => by
    by_cases hu : u = t <;> simp [queueRefs, hu]
  taskInv u := by
    by_cases hu : u = t
    · subst hu
      have h := hk.taskInv u
      refine ⟨?_, fun h => ?_, fun hpos => absurd he (by omega), fun i => ?_⟩ <;>
        simp only [release_tasks, if_true, release_keeps] at *
      · exact h.registered_queued
      · simp [hq] at h
      · exact h.queue_count i
    · exact (hk.taskInv u).frame le_rfl Iff.rfl (fun _ => rfl) (by simp [hu])
  lookups_nil := hk.lookups_nil
  bugOn_false := by simp [hk.bugOn_false, hq]

theorem KernelInv.put_step (hk : KernelInv L ext k) (hext : 0 < ext t) :
    KernelInv L (Function.update ext t (ext t - 1)) (put k t) := by
  have hk' : KernelInv L (Function.update ext t (ext t - 1))
      { k with registry := { k.registry with counters := k.registry.counters.put t } } := by
    refine ⟨(tableInv_put hk.tableInv (by omega)).of_ext_eq fun u => ?_, fun u =>
      (hk.taskInv u).frame ?_ Iff.rfl (fun _ => rfl) ⟨rfl, rfl, rfl, rfl⟩, hk.lookups_nil,
      hk.bugOn_false⟩ <;> by_cases hu : u = t
    · subst hu
      simp only [Function.update_same, queueRefs]
      omega
    · simp [hu, queueRefs]
    · subst hu
      simp
    · simp [hu]
  unfold put
  split
  · have hrc := hk.refCounter_eq t
    have hq : (k.tasks t).taskQueue = none := by
      by_contra hq
      simp only [queueRefs, Option.isSome_iff_ne_none.mpr hq, if_true] at hrc
      split_ifs at hrc <;> omega
    have hnot : ¬Registered k.registry t := fun ht =>
      absurd ((hk.taskInv t).registered_queued ht).1 (by simp [hq])
    simp only [queueRefs, hq, hnot, Option.isSome_none, if_false] at hrc
    exact hk'.release_step hq (by simp only [Function.update_same]; omega)
  · exact hk'

section
variable {stack : Option Nat} {func ctx : Nat}
variable (hk : KernelInv L ext k) (hext : 0 < ext t) (hs : (k.tasks t).stack = none)
include hk hext hs

theorem KernelInv.not_registered : ¬Registered k.registry t := fun ht =>
  absurd ((hk.taskInv t).registered_queued ht).1 (by simp [(hk.taskInv t).unstarted hext hs])

theorem KernelInv.prepareStart_false (hp : (prepareStart L stack k t func ctx).1 = false) :
    KernelInv L ext (prepareStart L stack k t func ctx).2 := by
  obtain ⟨hreg, htask⟩ := prepareStart_of_false hp
  obtain ⟨-, hq, -, -, -, -, hne, hbug⟩ := prepareStart_keeps L stack k t func ctx
  obtain ⟨hfun, -⟩ := (hk.taskInv t).unstarted hext hs
  have htasks : (prepareStart L stack k t func ctx).2.tasks = k.tasks := by
    funext u
    by_cases hu : u = t
    · subst hu
      rw [htask, ← hs]
    · exact hne u hu
  have hinv :
      TableInv L (fun u => ext u + queueRefs k u) (prepareStart L stack k t func ctx).2.registry ∧
      (∀ u, Registered (prepareStart L stack k t func ctx).2.registry u ↔ Registered k.registry u) ∧
      (prepareStart L stack k t func ctx).2.registry.lookups = [] := by
    rcases hreg with hreg | ⟨hf, hreg⟩ <;> rw [hreg]
    · exact ⟨hk.tableInv, fun _ => Iff.rfl, hk.lookups_nil⟩
    · exact ⟨tableInv_insert hk.tableInv (hk.not_registered hext hs),
        fun u => by simp [registered_insert_iff hk.tableInv, hf], by
          rw [insert_lookups, hk.lookups_nil]⟩
  refine ⟨hinv.1.of_ext_eq fun u => by simp [queueRefs, htasks], fun u => ?_, hinv.2.2,
    by simp [hbug, hk.bugOn_false, hs, hfun]⟩
  exact (hk.taskInv u).frame le_rfl (hinv.2.1 u) (by simp [hq]) (by simp [htasks])

theorem KernelInv.enqueue (k₁ : Kernel τ) (hins : (TaskRegistry.insert L k.registry t).1 = true)
    (hreg : k₁.registry = (TaskRegistry.insert L k.registry t).2) (hq : k₁.queues = k.queues)
    (hb : k₁.bugOn = false) (hne : ∀ u, u ≠ t → k₁.tasks u = k.tasks u)
    (hf : (k₁.tasks t).stack.isSome ∧ (k₁.tasks t).function.isSome ∧
      (k₁.tasks t).taskQueue = none ∧
      ((k₁.tasks t).state = .waiting ∨ (k₁.tasks t).state = .running)) (i : Nat) :
    KernelInv L ext (queueInsert k₁ i t) := by
  obtain ⟨hfs, hff, hfq, hfst⟩ := hf
  have htq := ((hk.taskInv t).unstarted hext hs).2
  have hnot := hk.not_registered hext hs
  have hregt : Registered (TaskRegistry.insert L k.registry t).2 t := registered_of_insert_true hins
  refine ⟨?_, fun u => ?_, by simp [hreg, insert_lookups, hk.lookups_nil], by simp [hb]⟩
  · show TableInv L _ { k₁.registry with counters := k₁.registry.counters.get t }
    rw [hreg]
    refine (tableInv_get (tableInv_insert hk.tableInv hnot) t).of_ext_eq fun u => ?_
    by_cases hu : u = t
    · subst hu
      simp [queueRefs, htq]
    · simp [queueRefs, hu, hne u hu]
  by_cases hu : u = t
  · subst hu
    have h0 : ∀ j, (k.queues j).count u = 0 := fun j => by simp [(hk.taskInv u).queue_count, htq]
    refine ⟨fun _ => by simp [hfst], fun _ => by simp [hfs, hff, hreg, hregt],
      by simp [Option.isSome_iff_ne_none.mp hfs], fun j => ?_⟩
    by_cases hj : j = i
    · simp [hj, hq, h0]
    · simp [hj, Ne.symm hj, hq, h0]
  · refine (hk.taskInv u).frame le_rfl ?_ (fun j => ?_) (by simp [hu, hne u hu])
    · simp [hreg, registered_insert_iff hk.tableInv, hins, hu]
    · by_cases hj : j = i <;> simp [hj, hq, List.count_singleton, Ne.symm hu]

end

theorem KernelInv.start_step (hk : KernelInv L ext k) (hext : 0 < ext t)
    (hs : (k.tasks t).stack = none) {F : FrameLayout} {stack : Option Nat} {now func ctx : Nat}
    {b : Bool} {k' : Kernel τ} (h : start L F stack now k t func ctx = .ok (b, k')) :
    KernelInv L ext k' := by
  cases b with
  | false =>
      obtain ⟨hp, rfl⟩ := start_eq_ok_false h
      exact hk.prepareStart_false hext hs hp
  | true =>
      obtain ⟨hp, i, -, rfl⟩ := start_eq_ok_true h
      obtain ⟨hreg, addr, -, htask⟩ := prepareStart_of_true hp
      obtain ⟨-, hq, -, -, -, -, hne, hbug⟩ := prepareStart_keeps L stack k t func ctx
      obtain ⟨hfun, htq⟩ := (hk.taskInv t).unstarted hext hs
      exact hk.enqueue hext hs _ (prepareStart_true_iff.mp hp).2 (by simp [hreg]) (by simp [hq])
        (by simp [hbug, hk.bugOn_false, hs, hfun])
        (fun u hu => by rw [setupFrame_tasks_ne _ _ _ hu, hne u hu]) (by simp [htask, htq]) i

theorem KernelInv.runBegin_step (hk : KernelInv L ext k) (hext : 0 < ext t)
    (hs : (k.tasks t).stack = none) (stack : Option Nat) (now func ctx cpu : Nat) :
    KernelInv L ext (runBegin L stack now k t func ctx cpu).2 := by
  cases hp : (prepareStart L stack k t func ctx).1 with
  | false =>
      simpa [runBegin, hp] using hk.prepareStart_false hext hs hp
  | true =>
      obtain ⟨hreg, addr, -, htask⟩ := prepareStart_of_true hp
      obtain ⟨-, hq, -, -, -, -, hne, hbug⟩ := prepareStart_keeps L stack k t func ctx
      obtain ⟨hfun, htq⟩ := (hk.taskInv t).unstarted hext hs
      simpa [runBegin, hp] using hk.enqueue hext hs { (prepareStart L stack k t func ctx).2 with
          tasks := Function.update (prepareStart L stack k t func ctx).2.tasks t
            { (prepareStart L stack k t func ctx).2.tasks t with
              startTime := now, state := .running } }
        (prepareStart_true_iff.mp hp).2 hreg hq (by simp [hbug, hk.bugOn_false, hs, hfun])
        (fun u hu => by simp [hu, hne u hu]) (by simp [htask, htq]) cpu

theorem KernelInv.runEnd_step (hk : KernelInv L ext k) {cpu : Nat}
    (hst : (k.tasks t).state = .running) (hq : (k.tasks t).taskQueue = some cpu) :
    KernelInv L ext (runEnd L k t cpu) := by
  have h := hk.taskInv t
  obtain ⟨hstack, -, hreg⟩ := h.queued (by simp [hq])
  have ht : Registered k.registry t := hreg.resolve_right (by simp [hst])
  have hrc := hk.refCounter_eq t
  simp only [queueRefs, hq, Option.isSome_some, if_true, ht] at hrc
  let k₁ : Kernel τ := { k with
    registry := { k.registry with counters := k.registry.counters.put t }
    queues := Function.update k.queues cpu ((k.queues cpu).erase t)
    tasks := Function.update k.tasks t { k.tasks t with taskQueue := none } }
  have hrem : queueRemove k cpu t = k₁ :=
    put_of_ne _ (show k.registry.counters.refCounter t ≠ 1 by omega)
  have ht₁ : Registered k₁.registry t := ht
  have hk₂ : KernelInv L ext { k₁ with registry := TaskRegistry.remove L k₁.registry t } := by
    refine ⟨tableInv_remove ((tableInv_put hk.tableInv (by simp [queueRefs, hq])).of_ext_eq
      fun u => ?_) ht₁, fun u => ?_, hk.lookups_nil, hk.bugOn_false⟩ <;> by_cases hu : u = t
    · subst hu
      simp [k₁, queueRefs, hq]
    · simp [k₁, queueRefs, hu]
    · subst hu
      refine ⟨fun h' => absurd ((registered_remove_iff ht₁ u).mp h').1 (· rfl), fun h' => ?_,
        fun _ h' => ?_, fun j => ?_⟩
      · simp [k₁] at h'
      · simp [k₁, Option.isSome_iff_ne_none.mp hstack] at h'
      · by_cases hj : j = cpu
        · simp [k₁, Function.update_apply, hj, List.count_erase_self, h.queue_count, hq]
        · simp [k₁, Function.update_apply, hj, h.queue_count, hq, Ne.symm hj]
    · refine (hk.taskInv u).frame le_rfl (by simp [k₁, registered_remove_iff ht₁, hu])
        (fun j => ?_) (by simp [k₁, hu])
      by_cases hj : j = cpu <;> simp [k₁, Function.update_apply, hj, List.count_erase_of_ne hu]
  rw [runEnd, hrem]
  unfold tableRemove
  split
  · exact hk₂.release_step (by simp [k₁]) (by simp [k₁] at *; omega)
  · exact hk₂

theorem KernelInv.exit_step (hk : KernelInv L ext k) (ht : Registered k.registry t) :
    KernelInv L ext (exit L k t) := by
  have h := hk.taskInv t
  have hqs := (h.registered_queued ht).1
  obtain ⟨hstack, hfun, -⟩ := h.queued hqs
  have hrc := hk.refCounter_eq t
  simp only [queueRefs, hqs, if_true, ht] at hrc
  rw [exit, tableRemove_of_ne]
  swap
  · show k.registry.counters.refCounter t ≠ 2
    omega
  refine ⟨(tableInv_remove hk.tableInv ht).of_ext_eq fun u => ?_, fun u => ?_, hk.lookups_nil,
    hk.bugOn_false⟩ <;> by_cases hu : u = t
  · subst hu
    simp [queueRefs]
  · simp [queueRefs, hu]
  · subst hu
    refine ⟨fun h' => absurd ((registered_remove_iff ht u).mp h').1 (· rfl), fun _ => ?_,
      fun _ h' => ?_, fun j => ?_⟩
    · simp [hstack, hfun]
    · simp [Option.isSome_iff_ne_none.mp hstack] at h'
    · simpa using h.queue_count j
  · exact (hk.taskInv u).frame le_rfl (by simp [registered_remove_iff ht, hu]) (fun _ => rfl)
      (by simp [hu])

variable {F : FrameLayout}

theorem Reachable.kernelInv (h : Reachable L F ext k) : KernelInv L ext k := by
  induction h with
  | fresh runningCpus => exact kernelInv_fresh runningCpus
  | setCpuAffinity t affinity _ _ ih => exact ih.setCpuAffinity_step t affinity
  | start _ hext hs hstart ih => exact ih.start_step hext hs hstart
  | @runBegin _ _ _ stack now func ctx cpu _ hext hs ih =>
      exact ih.runBegin_step hext hs stack now func ctx cpu
  | runEnd _ hst hq ih => exact ih.runEnd_step hst hq
  | exit _ ht ih => exact ih.exit_step ht
  | put _ hext ih => exact ih.put_step hext
  | cpus _ _ _ ih =>
      exact ⟨ih.tableInv, fun u => (ih.taskInv u).frame le_rfl Iff.rfl (fun _ => rfl)
        ⟨rfl, rfl, rfl, rfl⟩, ih.lookups_nil, ih.bugOn_false⟩

/-- Over every run of `Start`, `Run`, `Exit`, `Put` and `SetCpuAffinity` in
which no `Start` faults: no `BugOn` fires; a registered task is waiting or
running in a queue, and a queued task that is no longer registered has exited;
a task sits once in the queue its back-pointer names and in no other, and in
none when it has no queue; its counter is its owner's references, two while it
is registered and one while it is queued; and when the counter is zero the task
is in no table and no queue. -/
theorem taskLifecycle_sound (h : Reachable L F ext k) (t : τ) :
    k.bugOn = false ∧ k.registry.bugOn = false ∧
      (Registered k.registry t → (k.tasks t).taskQueue.isSome ∧
        ((k.tasks t).state = .waiting ∨ (k.tasks t).state = .running)) ∧
      ((k.tasks t).taskQueue.isSome → Registered k.registry t ∨ (k.tasks t).state = .exited) ∧
      (∀ i, (k.tasks t).taskQueue = some i →
        (k.queues i).count t = 1 ∧ ∀ j, j ≠ i → t ∉ k.queues j) ∧
      ((k.tasks t).taskQueue = none → ∀ i, t ∉ k.queues i) ∧
      k.registry.counters.refCounter t = ext t + (if Registered k.registry t then 2 else 0) +
        (if (k.tasks t).taskQueue.isSome then 1 else 0) ∧
      (k.registry.counters.refCounter t = 0 →
        ¬Registered k.registry t ∧ (k.tasks t).taskQueue = none) := by
  have hk := h.kernelInv
  have ht := hk.taskInv t
  have hrc : k.registry.counters.refCounter t = ext t + (if Registered k.registry t then 2 else 0) +
      (if (k.tasks t).taskQueue.isSome then 1 else 0) := by
    rw [hk.refCounter_eq, queueRefs]
    split_ifs <;> omega
  refine ⟨hk.bugOn_false, hk.tableInv.bugOn_false, ht.registered_queued,
    fun hq => (ht.queued hq).2.2, fun i hi => ?_, fun hnone i => ?_, hrc, fun h0 => ?_⟩
  · refine ⟨by simp [ht.queue_count, hi], fun j hj => ?_⟩
    rw [← List.count_eq_zero, ht.queue_count, hi]
    simp [Ne.symm hj]
  · rw [← List.count_eq_zero, ht.queue_count, hnone]
    simp
  · rw [h0] at hrc
    have hnot : ¬Registered k.registry t := fun hreg => by
      rw [if_pos hreg] at hrc
      split_ifs at hrc <;> omega
    have hq : ¬(k.tasks t).taskQueue.isSome := fun hq => by
      rw [if_neg hnot, if_pos hq] at hrc
      omega
    exact ⟨hnot, by simpa using hq⟩

theorem taskLifecycle_sound_exited :
    let L : Layout Nat := ⟨1, id, 2, 18446744073709551615, by decide, by decide⟩
    let F : FrameLayout := ⟨8192, 160, 0x100000, 112, 136, by decide, by decide, by decide,
      by decide⟩
    let k₁ := queueInsert
      (setupFrame F 0 (prepareStart L (some 0x200000) (Kernel.fresh L 1) 0 0x100100 0).2 0) 0 0
    let k := put (exit L k₁ 0) 0
    let ext : Nat → Nat := Function.update (fun _ => 1) 0 0
    Reachable L F ext k ∧ (k.tasks 0).state = .exited ∧ (k.tasks 0).taskQueue = some 0 ∧
      ¬Registered k.registry 0 ∧ k.registry.counters.refCounter 0 = 1 ∧
      (k.bugOn = false ∧ k.registry.bugOn = false ∧
      (Registered k.registry 0 → (k.tasks 0).taskQueue.isSome ∧
        ((k.tasks 0).state = .waiting ∨ (k.tasks 0).state = .running)) ∧
      ((k.tasks 0).taskQueue.isSome → Registered k.registry 0 ∨ (k.tasks 0).state = .exited) ∧
      (∀ i, (k.tasks 0).taskQueue = some i →
        (k.queues i).count 0 = 1 ∧ ∀ j, j ≠ i → 0 ∉ k.queues j) ∧
      ((k.tasks 0).taskQueue = none → ∀ i, 0 ∉ k.queues i) ∧
      k.registry.counters.refCounter 0 = ext 0 + (if Registered k.registry 0 then 2 else 0) +
        (if (k.tasks 0).taskQueue.isSome then 1 else 0) ∧
      (k.registry.counters.refCounter 0 = 0 →
        ¬Registered k.registry 0 ∧ (k.tasks 0).taskQueue = none)) := by
  intro L F k₁ k ext
  have hstart : start L F (some 0x200000) 0 (Kernel.fresh L 1) 0 0x100100 0 = .ok (true, k₁) := by
    have hsel : selectNextTaskQueue (Kernel.fresh L 1).runningCpus
        ((Kernel.fresh L 1).tasks 0).cpuAffinity ((Kernel.fresh L 1).tasks 0).taskQueue
        (Kernel.fresh L 1).switchCounter = some 0 := by decide
    rw [start_of_prepare_true (by decide), hsel]
  have hk : Reachable L F ext k :=
    .put (.exit (.start (.fresh 1) (by decide) rfl hstart) (by decide)) (by decide)
  exact ⟨hk, by decide, by decide, by decide, by decide, taskLifecycle_sound hk 0⟩

end NosKernel.TaskLifecycle
