import NosKernel.TaskRegistry
import NosKernel.Runs

/-!
Concurrent calls of the task table, `TaskTable::Insert`, `Remove` and `Lookup` in
`kernel/task.cpp`, on any number of CPUs. `Insert` and `Remove` are not one
atomic section: each runs the locked section of `TaskObjectTable`, writes or
reads `task->Pid`, takes or drops the task's reference, and links or unlinks the
task under its bucket's lock, as separate steps between which other CPUs run.

The owner of a task makes its calls one at a time, so where it is inside a call
is a `Phase`. `TaskOk` says where each reference of a task is: in its slot, in
its bucket, held by the call in flight, or by a `Lookup` caller. It holds in
every interleaving, so no `BugOn` fires, every task a bucket links is alive, a
registered task is found through its pid whatever runs beside it, and between
calls the table is in the sequential invariant `TableInv`.
-/

namespace NosKernel.TaskTableInterleaving

open NosKernel.RefCounting NosKernel.ObjectTableMap NosKernel.TaskRegistry

/-- Where the owner of a task is in its calls of the task table. `out`: in no
slot and no bucket, with no call in flight. In `Insert`: `scanning` after
`object->Get()` in `TaskObjectTable.Insert`, before its locked scan; `full` when
the scan found no null slot, before `object->Put()`; `stored pid` when the scan
stored the task in slot `pid`, before `task->Pid = pid`; `pidSet` before
`task->Get()`; `linking` before the append under the bucket's lock; and
`registered` once `Insert` has returned true. In `Remove`: `cleared object` once
the locked section of `TaskObjectTable.Remove(task->Pid)` has nulled the slot,
which held `object`, before `object->Put()`; `unlinking` before the unlink under
the bucket's lock; and `putting` before `task->Put()`. -/
inductive Phase (τ : Type)
  | out
  | scanning
  | full
  | stored (pid : Nat)
  | pidSet
  | linking
  | registered
  | cleared (object : Option τ)
  | unlinking
  | putting
  deriving DecidableEq

variable {τ : Type}

/-- The phases in which a slot of the object table holds the task. -/
def Phase.inSlot : Phase τ → Bool
  | .stored _ | .pidSet | .linking | .registered => true
  | _ => false

/-- The phases after `task->Pid` is written and before its slot is nulled. -/
def Phase.hasPid : Phase τ → Bool
  | .pidSet | .linking | .registered => true
  | _ => false

/-- The phases in which the task is linked in its bucket. -/
def Phase.inBucket : Phase τ → Bool
  | .registered | .cleared _ | .unlinking => true
  | _ => false

/-- The references on the task that its slot, its bucket link and the call in
flight hold. -/
def Phase.held : Phase τ → Nat
  | .out => 0
  | .scanning | .full | .stored _ | .pidSet => 1
  | .linking | .registered | .cleared (some _) => 2
  | .cleared none | .unlinking | .putting => 1

theorem Phase.one_le_held_of_inSlot {p : Phase τ} (h : p.inSlot = true) : 1 ≤ p.held := by
  cases p <;> simp_all [Phase.inSlot, Phase.held]

theorem Phase.one_le_held_of_inBucket {p : Phase τ} (h : p.inBucket = true) : 1 ≤ p.held := by
  cases p with
  | cleared o => cases o <;> simp [Phase.held]
  | _ => simp_all [Phase.inBucket, Phase.held]

/-- The task table, and where each task's owner is in its calls. -/
structure Table (τ : Type) where
  reg : Registry τ
  phase : τ → Phase τ

/-- One step of one CPU. `insert`: `TaskTable::Insert(task)` calls
`TaskObjectTable.Insert(task)`, whose `object->Get()` this is; `scan`: its
locked scan; `insertPut`: on a full object table, `object->Put()`, and `Insert`
returns false; `setPid`: `if (pid == InvalidObjectId) return false; task->Pid =
pid;`; `get`: `task->Get()`; `link`: under `Lock[i]`,
`BugOn(!task->TableListEntry.IsEmpty())` and the append, and `Insert` returns
true. `remove`: `TaskTable::Remove(task)` calls
`TaskObjectTable.Remove(task->Pid)`, up to the end of its locked section;
`removePut`: its `object->Put()`; `unlink`: under `Lock[i]`,
`BugOn(task->TableListEntry.IsEmpty())` and the unlink; `put`: `task->Put()` at
the end of `Remove`. `lookup`: `TaskTable::Lookup(pid)`, the object table's
lookup, one locked section; `putLookup`: `task->Put()` by a caller that got
`task` from `Lookup`. -/
inductive Action (τ : Type)
  | insert (task : τ)
  | scan (task : τ)
  | insertPut (task : τ)
  | setPid (task : τ)
  | get (task : τ)
  | link (task : τ)
  | remove (task : τ)
  | removePut (task : τ)
  | unlink (task : τ)
  | put (task : τ)
  | lookup (pid : Nat)
  | putLookup (task : τ)

variable [DecidableEq τ]

/-- The owner of `t` moves to phase `p`. -/
def Table.moveTo (s : Table τ) (reg : Registry τ) (t : τ) (p : Phase τ) : Table τ :=
  ⟨reg, Function.update s.phase t p⟩

/-- The step of an action, or `none` when no CPU is at the point it needs. -/
def step (L : Layout τ) (s : Table τ) : Action τ → Option (Table τ)
  | .insert t =>
      if s.phase t = .out then
        some (s.moveTo { s.reg with counters := s.reg.counters.get t } t .scanning)
      else none
  | .scan t =>
      if s.phase t = .scanning then
        match insertLocked s.reg.taskObjectTable t with
        | some (pid, T) => some (s.moveTo { s.reg with taskObjectTable := T } t (.stored pid))
        | none => some (s.moveTo s.reg t .full)
      else none
  | .insertPut t =>
      if s.phase t = .full then
        some (s.moveTo { s.reg with counters := s.reg.counters.put t } t .out)
      else none
  | .setPid t =>
      match s.phase t with
      | .stored pid =>
          if pid = L.invalidObjectId then some (s.moveTo s.reg t .out)
          else some (s.moveTo { s.reg with pid := Function.update s.reg.pid t pid } t .pidSet)
      | _ => none
  | .get t =>
      if s.phase t = .pidSet then
        some (s.moveTo { s.reg with counters := s.reg.counters.get t } t .linking)
      else none
  | .link t =>
      if s.phase t = .linking then
        some (s.moveTo { s.reg with
          bugOn := s.reg.bugOn || linked L s.reg t
          taskList := Function.update s.reg.taskList (L.bucket t)
            (s.reg.taskList (L.bucket t) ++ [t]) } t .registered)
      else none
  | .remove t =>
      if s.phase t = .registered then
        if s.reg.taskObjectTable.size ≤ s.reg.pid t then some (s.moveTo s.reg t (.cleared none))
        else
          let r := removeLocked s.reg.taskObjectTable (s.reg.pid t)
          some (s.moveTo { s.reg with taskObjectTable := r.2 } t (.cleared r.1))
      else none
  | .removePut t =>
      match s.phase t with
      | .cleared (some o) =>
          some (s.moveTo { s.reg with counters := s.reg.counters.put o } t .unlinking)
      | .cleared none => some (s.moveTo s.reg t .unlinking)
      | _ => none
  | .unlink t =>
      if s.phase t = .unlinking then
        some (s.moveTo { s.reg with
          bugOn := s.reg.bugOn || !linked L s.reg t
          taskList := fun i => (s.reg.taskList i).erase t } t .putting)
      else none
  | .put t =>
      if s.phase t = .putting then
        some (s.moveTo { s.reg with counters := s.reg.counters.put t } t .out)
      else none
  | .lookup pid => some ⟨(TaskRegistry.lookup s.reg pid).2, s.phase⟩
  | .putLookup t =>
      if t ∈ s.reg.lookups then some ⟨putLookup s.reg t, s.phase⟩ else none

/-- An empty task table over tasks of which the owners hold `ext t` references. -/
def init (L : Layout τ) (ext : τ → Nat) : Table τ := ⟨TaskRegistry.init L ext, fun _ => .out⟩

/-- The states some interleaving reaches, where an owner calls `Insert` only on a
task it holds. -/
inductive Reachable (L : Layout τ) (ext : τ → Nat) : Table τ → Prop
  | init : Reachable L ext (init L ext)
  | step {s s' : Table τ} {a : Action τ} : Reachable L ext s → (∀ t, a = .insert t → 0 < ext t) →
      step L s a = some s' → Reachable L ext s'

@[simp] theorem moveTo_reg (s : Table τ) (reg : Registry τ) (t : τ) (p : Phase τ) :
    (s.moveTo reg t p).reg = reg := rfl

@[simp] theorem moveTo_phase (s : Table τ) (reg : Registry τ) (t u : τ) (p : Phase τ) :
    (s.moveTo reg t p).phase u = if u = t then p else s.phase u := by
  simp [Table.moveTo, Function.update_apply]

@[simp] theorem moveTo_phase_self (s : Table τ) (reg : Registry τ) (t : τ) (p : Phase τ) :
    (s.moveTo reg t p).phase t = p := by
  simp

/-- What holds of one task in every interleaving: the slots and the bucket that
hold it are the ones its phase names, the slot it was stored in and, once its pid
is written, its pid's slot hold it, a `Remove` in flight took it out of its own
slot, and its counter is its owners' references, those its phase names, and the
`Lookup` results not yet put. -/
structure TaskOk (L : Layout τ) (ext : τ → Nat) (s : Table τ) (t : τ) : Prop where
  slot_count : s.reg.taskObjectTable.objectArray.count (some t) =
    if (s.phase t).inSlot then 1 else 0
  slot_stored : ∀ pid, s.phase t = .stored pid → s.reg.taskObjectTable.slot pid = some t
  slot_pid : (s.phase t).hasPid = true → s.reg.taskObjectTable.slot (s.reg.pid t) = some t
  bucket_count : ∀ i, (s.reg.taskList i).count t =
    if i = L.bucket t ∧ (s.phase t).inBucket = true then 1 else 0
  cleared_self : ∀ object, s.phase t = .cleared object → object = some t
  refCounter_eq : s.reg.counters.refCounter t =
    (ext t : Int) + ((s.phase t).held : Int) + (s.reg.lookups.count t : Int)

/-- The invariant of the interleaving: every task is `TaskOk`, the object table
keeps its size, and no `BugOn` has fired. -/
structure Consistent (L : Layout τ) (ext : τ → Nat) (s : Table τ) : Prop where
  size_eq : s.reg.taskObjectTable.size = L.maxTasks
  task_ok : ∀ t, TaskOk L ext s t
  bugOn_false : s.reg.bugOn = false
  counters_bugOn_false : s.reg.counters.bugOn = false

variable {L : Layout τ} {ext : τ → Nat} {s s' : Table τ}

theorem consistent_init : Consistent L ext (init L ext) := by
  refine ⟨by simp [init, TaskRegistry.init], fun t => ⟨?_, ?_, ?_, ?_, ?_, ?_⟩, rfl, rfl⟩ <;>
    simp [init, TaskRegistry.init, Phase.inSlot, Phase.hasPid, Phase.inBucket, Phase.held,
      ObjectTable.fresh, List.count_replicate]

theorem TaskOk.frame {u : τ} (h : TaskOk L ext s u) (hphase : s'.phase u = s.phase u)
    (hcount : s'.reg.taskObjectTable.objectArray.count (some u) =
      s.reg.taskObjectTable.objectArray.count (some u))
    (hslot : ∀ p, s.reg.taskObjectTable.slot p = some u →
      s'.reg.taskObjectTable.slot p = some u)
    (hpid : s'.reg.pid u = s.reg.pid u)
    (hbucket : ∀ i, (s'.reg.taskList i).count u = (s.reg.taskList i).count u)
    (hrc : s'.reg.counters.refCounter u - (s'.reg.lookups.count u : Int) =
      s.reg.counters.refCounter u - (s.reg.lookups.count u : Int)) :
    TaskOk L ext s' u := by
  refine ⟨?_, fun p hp => ?_, fun hp => ?_, fun i => ?_, fun o ho => ?_, ?_⟩
  · rw [hcount, hphase]
    exact h.slot_count
  · rw [hphase] at hp
    exact hslot p (h.slot_stored p hp)
  · rw [hphase] at hp
    rw [hpid]
    exact hslot _ (h.slot_pid hp)
  · rw [hbucket, hphase]
    exact h.bucket_count i
  · rw [hphase] at ho
    exact h.cleared_self o ho
  · have := h.refCounter_eq
    rw [hphase]
    omega

theorem Consistent.of_owner (t : τ) (hc : Consistent L ext s)
    (hsize : s'.reg.taskObjectTable.size = s.reg.taskObjectTable.size)
    (hbug : s'.reg.bugOn = false) (hcbug : s'.reg.counters.bugOn = false)
    (hlookups : s'.reg.lookups = s.reg.lookups) (ht : TaskOk L ext s' t)
    (hphase : ∀ u, u ≠ t → s'.phase u = s.phase u)
    (hcount : ∀ u, u ≠ t → s'.reg.taskObjectTable.objectArray.count (some u) =
      s.reg.taskObjectTable.objectArray.count (some u))
    (hslot : ∀ u, u ≠ t → ∀ p, s.reg.taskObjectTable.slot p = some u →
      s'.reg.taskObjectTable.slot p = some u)
    (hpid : ∀ u, u ≠ t → s'.reg.pid u = s.reg.pid u)
    (hbucket : ∀ u, u ≠ t → ∀ i, (s'.reg.taskList i).count u = (s.reg.taskList i).count u)
    (hrc : ∀ u, u ≠ t → s'.reg.counters.refCounter u = s.reg.counters.refCounter u) :
    Consistent L ext s' := by
  refine ⟨hsize.trans hc.size_eq, fun u => ?_, hbug, hcbug⟩
  by_cases hu : u = t
  · exact hu ▸ ht
  · exact (hc.task_ok u).frame (hphase u hu) (hcount u hu) (hslot u hu) (hpid u hu)
      (hbucket u hu) (by rw [hrc u hu, hlookups])

theorem linked_eq_true_iff {reg : Registry τ} {t : τ} :
    linked L reg t = true ↔ ∃ i < L.taskListSize, t ∈ reg.taskList i := by
  simp only [linked, List.any_eq_true, List.mem_range, List.contains, List.elem_eq_mem,
    decide_eq_true_eq, exists_prop]

variable {t : τ}

theorem TaskOk.mem_taskList {i : Nat} (h : TaskOk L ext s t) (hmem : t ∈ s.reg.taskList i) :
    i = L.bucket t ∧ (s.phase t).inBucket = true := by
  have hpos := List.count_pos_iff.mpr hmem
  rw [h.bucket_count i] at hpos
  by_contra hb
  simp [hb] at hpos

theorem TaskOk.inSlot_of_slot {pid : Nat} (h : TaskOk L ext s t)
    (hslot : s.reg.taskObjectTable.slot pid = some t) : (s.phase t).inSlot = true := by
  have hcount := ObjectTable.count_pos_of_slot hslot rfl
  by_contra hne
  simp [h.slot_count, hne] at hcount

theorem TaskOk.linked_eq (h : TaskOk L ext s t) : linked L s.reg t = (s.phase t).inBucket := by
  rw [Bool.eq_iff_iff, linked_eq_true_iff]
  constructor
  · rintro ⟨i, -, hmem⟩
    exact (h.mem_taskList hmem).2
  · intro hb
    refine ⟨L.bucket t, L.bucket_lt t, List.count_pos_iff.mp ?_⟩
    simp [h.bucket_count, hb]

theorem TaskOk.le_refCounter (h : TaskOk L ext s t) :
    (ext t : Int) + ((s.phase t).held : Int) ≤ s.reg.counters.refCounter t := by
  have := h.refCounter_eq
  omega

theorem TaskOk.one_le_refCounter_of_slot {pid : Nat} (h : TaskOk L ext s t)
    (hslot : s.reg.taskObjectTable.slot pid = some t) : 1 ≤ s.reg.counters.refCounter t := by
  have := Phase.one_le_held_of_inSlot (h.inSlot_of_slot hslot)
  have := h.le_refCounter
  omega

theorem Consistent.of_counters {c : Counters τ} {p : Phase τ} (hc : Consistent L ext s)
    (hcbug : c.bugOn = false)
    (hrc : c.refCounter t + (s.phase t).held = s.reg.counters.refCounter t + p.held)
    (hrc' : ∀ u, u ≠ t → c.refCounter u = s.reg.counters.refCounter u)
    (hslot : p.inSlot = (s.phase t).inSlot) (hpid : p.hasPid = (s.phase t).hasPid)
    (hbucket : p.inBucket = (s.phase t).inBucket) (hstored : ∀ pid, p ≠ .stored pid)
    (hcleared : ∀ o, p ≠ .cleared o) :
    Consistent L ext (s.moveTo { s.reg with counters := c } t p) := by
  have ho := hc.task_ok t
  refine hc.of_owner t rfl hc.bugOn_false hcbug rfl
    ⟨?_, fun q hq => ?_, fun hq => ?_, fun i => ?_, fun o hq => ?_, ?_⟩
    (fun u hu => by simp [hu]) (fun _ _ => rfl) (fun _ _ _ h => h) (fun _ _ => rfl)
    (fun _ _ _ => rfl) hrc'
  · simpa [hslot] using ho.slot_count
  · exact absurd (by simpa using hq) (hstored q)
  · simp only [moveTo_phase_self, hpid] at hq
    exact ho.slot_pid hq
  · simpa [hbucket] using ho.bucket_count i
  · exact absurd (by simpa using hq) (hcleared o)
  · have := ho.refCounter_eq
    simp only [moveTo_reg, moveTo_phase_self]
    omega

theorem Consistent.insert (hc : Consistent L ext s) (hout : s.phase t = .out)
    (hext : 0 < ext t) :
    Consistent L ext (s.moveTo { s.reg with counters := s.reg.counters.get t } t .scanning) := by
  have := (hc.task_ok t).le_refCounter
  refine hc.of_counters ?_ ?_ (fun u hu => by simp [hu]) ?_ ?_ ?_ (by simp) (by simp) <;>
    simp [hout, hc.counters_bugOn_false, Phase.held, Phase.inSlot, Phase.hasPid,
      Phase.inBucket] at this ⊢
  omega

theorem Consistent.scan_stored {pid : Nat} {T : ObjectTable τ} (hc : Consistent L ext s)
    (hscan : s.phase t = .scanning) (hins : insertLocked s.reg.taskObjectTable t = some (pid, T)) :
    Consistent L ext (s.moveTo { s.reg with taskObjectTable := T } t (.stored pid)) := by
  obtain ⟨hlt, hfree, -, rfl⟩ := insertLocked_eq_some hins
  have ho := hc.task_ok t
  refine hc.of_owner t (by simp) hc.bugOn_false hc.counters_bugOn_false rfl
    ⟨?_, fun q hq => ?_, fun hq => ?_, fun i => ?_, fun o hq => ?_, ?_⟩
    (fun u hu => by simp [hu]) (fun u hu => ?_) (fun u hu q hq => ?_) (fun _ _ => rfl)
    (fun _ _ _ => rfl) (fun _ _ => rfl)
  · have h1 := ObjectTable.count_setSlot hlt (some t) (some t)
    have h0 := ho.slot_count
    simp only [hfree, hscan, Phase.inSlot, reduceCtorEq, if_false, if_true] at h1 h0
    simp [Phase.inSlot]
    omega
  · simp only [moveTo_phase_self, Phase.stored.injEq] at hq
    subst hq
    simp [ObjectTable.slot_setSlot, hlt]
  · simp [Phase.hasPid] at hq
  · simpa [hscan, Phase.inBucket] using ho.bucket_count i
  · simp at hq
  · simpa [hscan, Phase.held] using ho.refCounter_eq
  · have h1 := ObjectTable.count_setSlot hlt (some t) (some u)
    simp only [hfree, reduceCtorEq, if_false, Option.some.injEq, Ne.symm hu, Nat.add_zero] at h1
    simpa using h1
  · have hq' : q ≠ pid := by
      rintro rfl
      rw [hfree] at hq
      cases hq
    simp [ObjectTable.slot_setSlot, Ne.symm hq', hq]

theorem Consistent.scan_full (hc : Consistent L ext s) (hscan : s.phase t = .scanning) :
    Consistent L ext (s.moveTo s.reg t .full) :=
  hc.of_counters hc.counters_bugOn_false (by simp [hscan, Phase.held]) (fun _ _ => rfl)
    (by simp [hscan, Phase.inSlot]) (by simp [hscan, Phase.hasPid])
    (by simp [hscan, Phase.inBucket]) (by simp) (by simp)

theorem Consistent.insertPut (hc : Consistent L ext s) (hfull : s.phase t = .full) :
    Consistent L ext (s.moveTo { s.reg with counters := s.reg.counters.put t } t .out) := by
  have := (hc.task_ok t).le_refCounter
  refine hc.of_counters ?_ ?_ (fun u hu => by simp [hu]) ?_ ?_ ?_ (by simp) (by simp) <;>
    simp [hfull, hc.counters_bugOn_false, Phase.held, Phase.inSlot, Phase.hasPid,
      Phase.inBucket] at this ⊢
  omega

theorem Consistent.setPid {pid : Nat} (hc : Consistent L ext s)
    (hstored : s.phase t = .stored pid) :
    Consistent L ext
      (s.moveTo { s.reg with pid := Function.update s.reg.pid t pid } t .pidSet) := by
  have ho := hc.task_ok t
  refine hc.of_owner t rfl hc.bugOn_false hc.counters_bugOn_false rfl
    ⟨?_, fun q hq => ?_, fun _ => ?_, fun i => ?_, fun o hq => ?_, ?_⟩
    (fun u hu => by simp [hu]) (fun _ _ => rfl) (fun _ _ _ h => h) (fun u hu => by simp [hu])
    (fun _ _ _ => rfl) (fun _ _ => rfl)
  · simpa [hstored, Phase.inSlot] using ho.slot_count
  · simp at hq
  · simpa using ho.slot_stored pid hstored
  · simpa [hstored, Phase.inBucket] using ho.bucket_count i
  · simp at hq
  · simpa [hstored, Phase.held] using ho.refCounter_eq

theorem Consistent.ne_invalidObjectId {pid : Nat} (hc : Consistent L ext s)
    (hstored : s.phase t = .stored pid) : pid ≠ L.invalidObjectId := by
  have hlt := ObjectTable.lt_size_of_slot_eq_some ((hc.task_ok t).slot_stored pid hstored)
  have := L.maxTasks_le
  rw [hc.size_eq] at hlt
  omega

theorem Consistent.get (hc : Consistent L ext s) (hpid : s.phase t = .pidSet) :
    Consistent L ext (s.moveTo { s.reg with counters := s.reg.counters.get t } t .linking) := by
  have := (hc.task_ok t).le_refCounter
  refine hc.of_counters ?_ ?_ (fun u hu => by simp [hu]) ?_ ?_ ?_ (by simp) (by simp) <;>
    simp [hpid, hc.counters_bugOn_false, Phase.held, Phase.inSlot, Phase.hasPid,
      Phase.inBucket] at this ⊢ <;>
  omega

theorem Consistent.link (hc : Consistent L ext s) (hlinking : s.phase t = .linking) :
    Consistent L ext (s.moveTo { s.reg with
      bugOn := s.reg.bugOn || linked L s.reg t
      taskList := Function.update s.reg.taskList (L.bucket t)
        (s.reg.taskList (L.bucket t) ++ [t]) } t .registered) := by
  have ho := hc.task_ok t
  refine hc.of_owner t rfl ?_ hc.counters_bugOn_false rfl
    ⟨?_, fun q hq => ?_, fun _ => ?_, fun i => ?_, fun o hq => ?_, ?_⟩
    (fun u hu => by simp [hu]) (fun _ _ => rfl) (fun _ _ _ h => h) (fun _ _ => rfl)
    (fun u hu i => ?_) (fun _ _ => rfl)
  · simp [hc.bugOn_false, ho.linked_eq, hlinking, Phase.inBucket]
  · simpa [hlinking, Phase.inSlot] using ho.slot_count
  · simp at hq
  · simpa using ho.slot_pid (by simp [hlinking, Phase.hasPid])
  · have h0 := ho.bucket_count i
    simp only [hlinking, Phase.inBucket, Bool.false_eq_true, and_false, if_false] at h0
    by_cases hi : i = L.bucket t
    · subst hi
      simp [h0, Phase.inBucket]
    · simp [Function.update_noteq hi, h0, hi]
  · simp at hq
  · simpa [hlinking, Phase.held] using ho.refCounter_eq
  · by_cases hi : i = L.bucket t
    · subst hi
      simp [List.count_cons_of_ne hu]
    · simp [Function.update_noteq hi]

theorem Consistent.remove (hc : Consistent L ext s) (hreg : s.phase t = .registered) :
    Consistent L ext (s.moveTo
      { s.reg with taskObjectTable := s.reg.taskObjectTable.setSlot (s.reg.pid t) none } t
      (.cleared (s.reg.taskObjectTable.slot (s.reg.pid t)))) := by
  have ho := hc.task_ok t
  have hslot := ho.slot_pid (by simp [hreg, Phase.hasPid])
  have hlt := ObjectTable.lt_size_of_slot_eq_some hslot
  refine hc.of_owner t (by simp) hc.bugOn_false hc.counters_bugOn_false rfl
    ⟨?_, fun q hq => ?_, fun hq => ?_, fun i => ?_, fun o hq => ?_, ?_⟩
    (fun u hu => by simp [hu]) (fun u hu => ?_) (fun u hu q hq => ?_) (fun _ _ => rfl)
    (fun _ _ _ => rfl) (fun _ _ => rfl)
  · have h1 := ObjectTable.count_setSlot hlt none (some t)
    have h0 := ho.slot_count
    simp only [hslot, hreg, Phase.inSlot, reduceCtorEq, if_false, if_true] at h1 h0
    simp [Phase.inSlot]
    omega
  · simp at hq
  · simp [Phase.hasPid] at hq
  · simpa [hreg, Phase.inBucket] using ho.bucket_count i
  · simp only [moveTo_phase_self, Phase.cleared.injEq] at hq
    rw [← hq, hslot]
  · simpa [hreg, hslot, Phase.held] using ho.refCounter_eq
  · have h1 := ObjectTable.count_setSlot hlt none (some u)
    simp only [hslot, reduceCtorEq, if_false, Option.some.injEq, Ne.symm hu, Nat.add_zero] at h1
    simpa using h1
  · have hq' : q ≠ s.reg.pid t := by
      rintro rfl
      rw [hslot] at hq
      exact hu (Option.some.inj hq).symm
    simp [ObjectTable.slot_setSlot, Ne.symm hq', hq]

theorem Consistent.removePut (hc : Consistent L ext s) (hcl : s.phase t = .cleared (some t)) :
    Consistent L ext (s.moveTo { s.reg with counters := s.reg.counters.put t } t .unlinking) := by
  have := (hc.task_ok t).le_refCounter
  refine hc.of_counters ?_ ?_ (fun u hu => by simp [hu]) ?_ ?_ ?_ (by simp) (by simp) <;>
    simp [hcl, hc.counters_bugOn_false, Phase.held, Phase.inSlot, Phase.hasPid,
      Phase.inBucket] at this ⊢ <;>
  omega

theorem Consistent.unlink (hc : Consistent L ext s) (hunl : s.phase t = .unlinking) :
    Consistent L ext (s.moveTo { s.reg with
      bugOn := s.reg.bugOn || !linked L s.reg t
      taskList := fun i => (s.reg.taskList i).erase t } t .putting) := by
  have ho := hc.task_ok t
  refine hc.of_owner t rfl ?_ hc.counters_bugOn_false rfl
    ⟨?_, fun q hq => ?_, fun hq => ?_, fun i => ?_, fun o hq => ?_, ?_⟩
    (fun u hu => by simp [hu]) (fun _ _ => rfl) (fun _ _ _ h => h) (fun _ _ => rfl)
    (fun u hu i => by simp [List.count_erase_of_ne hu]) (fun _ _ => rfl)
  · simp [hc.bugOn_false, ho.linked_eq, hunl, Phase.inBucket]
  · simpa [hunl, Phase.inSlot] using ho.slot_count
  · simp at hq
  · simp [Phase.hasPid] at hq
  · have h0 := ho.bucket_count i
    simp only [hunl, Phase.inBucket, and_true] at h0
    simp only [moveTo_reg, moveTo_phase_self, List.count_erase_self, h0]
    split_ifs <;> simp_all [Phase.inBucket]
  · simp at hq
  · simpa [hunl, Phase.held] using ho.refCounter_eq

theorem Consistent.put (hc : Consistent L ext s) (hput : s.phase t = .putting) :
    Consistent L ext (s.moveTo { s.reg with counters := s.reg.counters.put t } t .out) := by
  have := (hc.task_ok t).le_refCounter
  refine hc.of_counters ?_ ?_ (fun u hu => by simp [hu]) ?_ ?_ ?_ (by simp) (by simp) <;>
    simp [hput, hc.counters_bugOn_false, Phase.held, Phase.inSlot, Phase.hasPid,
      Phase.inBucket] at this ⊢
  omega

theorem Consistent.lookup (hc : Consistent L ext s) (pid : Nat) :
    Consistent L ext ⟨(TaskRegistry.lookup s.reg pid).2, s.phase⟩ := by
  rw [lookup_eq]
  cases hslot : s.reg.taskObjectTable.slot pid with
  | none => exact hc
  | some o =>
      have hpos := (hc.task_ok o).one_le_refCounter_of_slot hslot
      refine ⟨hc.size_eq, fun u => (hc.task_ok u).frame rfl rfl (fun _ h => h) rfl
        (fun _ => rfl) ?_, hc.bugOn_false, ?_⟩
      · by_cases hu : u = o
        · subst hu
          simp only [Counters.get_refCounter, ↓reduceIte, Option.toList_some,
            List.singleton_append, List.count_cons_self]
          omega
        · simp [hu, Ne.symm hu]
      · simp [hc.counters_bugOn_false]
        omega

theorem Consistent.putLookup (hc : Consistent L ext s) (hmem : t ∈ s.reg.lookups) :
    Consistent L ext ⟨putLookup s.reg t, s.phase⟩ := by
  have hpos := List.count_pos_iff.mpr hmem
  have hle := (hc.task_ok t).le_refCounter
  refine ⟨hc.size_eq, fun u => (hc.task_ok u).frame rfl rfl (fun _ h => h) rfl
    (fun _ => rfl) ?_, hc.bugOn_false, ?_⟩
  · by_cases hu : u = t
    · subst hu
      simp [TaskRegistry.putLookup]
      omega
    · simp [TaskRegistry.putLookup, hu, List.count_erase_of_ne hu]
  · have := (hc.task_ok t).refCounter_eq
    simp [TaskRegistry.putLookup, hc.counters_bugOn_false]
    omega

theorem consistent_of_step {a : Action τ} (hc : Consistent L ext s)
    (hins : ∀ t, a = .insert t → 0 < ext t) (h : step L s a = some s') :
    Consistent L ext s' := by
  cases a with
  | insert t =>
      obtain ⟨hout, h⟩ := Option.ite_none_right_eq_some.mp h
      cases h
      exact hc.insert hout (hins t rfl)
  | scan t =>
      obtain ⟨hscan, h⟩ := Option.ite_none_right_eq_some.mp h
      split at h
      · cases h
        exact hc.scan_stored hscan ‹_›
      · cases h
        exact hc.scan_full hscan
  | insertPut t =>
      obtain ⟨hfull, h⟩ := Option.ite_none_right_eq_some.mp h
      cases h
      exact hc.insertPut hfull
  | setPid t =>
      simp only [step] at h
      split at h
      · rename_i pid hstored
        split at h
        · exact absurd ‹_› (hc.ne_invalidObjectId hstored)
        · cases h
          exact hc.setPid hstored
      · cases h
  | get t =>
      obtain ⟨hpid, h⟩ := Option.ite_none_right_eq_some.mp h
      cases h
      exact hc.get hpid
  | link t =>
      obtain ⟨hlinking, h⟩ := Option.ite_none_right_eq_some.mp h
      cases h
      exact hc.link hlinking
  | remove t =>
      obtain ⟨hreg, h⟩ := Option.ite_none_right_eq_some.mp h
      have hlt := ObjectTable.lt_size_of_slot_eq_some
        ((hc.task_ok t).slot_pid (by simp [hreg, Phase.hasPid]))
      split at h
      · exact absurd hlt (Nat.not_lt.mpr ‹_›)
      · cases h
        exact hc.remove hreg
  | removePut t =>
      simp only [step] at h
      split at h
      · rename_i o hcl
        cases (hc.task_ok t).cleared_self _ hcl
        cases h
        exact hc.removePut hcl
      · cases (hc.task_ok t).cleared_self _ ‹_›
      · cases h
  | unlink t =>
      obtain ⟨hunl, h⟩ := Option.ite_none_right_eq_some.mp h
      cases h
      exact hc.unlink hunl
  | put t =>
      obtain ⟨hput, h⟩ := Option.ite_none_right_eq_some.mp h
      cases h
      exact hc.put hput
  | lookup pid =>
      cases h
      exact hc.lookup pid
  | putLookup t =>
      obtain ⟨hmem, h⟩ := Option.ite_none_right_eq_some.mp h
      cases h
      exact hc.putLookup hmem

theorem reachable_foldlM (hext : ∀ t, 0 < ext t) (h : Reachable L ext s) (as : List (Action τ))
    (hrun : (as.foldlM (step L) s).isSome) : Reachable L ext ((as.foldlM (step L) s).getD s) :=
  Runs.foldlM_getD_induction _ (fun _ _ _ hs hstep => .step hs (fun t _ => hext t) hstep) as h hrun

theorem Reachable.consistent (h : Reachable L ext s) : Consistent L ext s := by
  induction h with
  | init => exact consistent_init
  | step _ hins hstep ih => exact consistent_of_step ih hins hstep

/-- In every interleaving of `Insert`, `Remove`, `Lookup` and the puts of
`Lookup` callers, no `BugOn` fires; a task's counter is its owner's references,
those of the call in flight and the `Lookup` results not yet put; a bucket links
only tasks that hash to it and are alive; and a registered task is found through
its pid, whatever the other CPUs are doing. -/
theorem taskTable_interleaving_sound (h : Reachable L ext s) :
    s.reg.bugOn = false ∧ s.reg.counters.bugOn = false ∧
    (∀ t, s.reg.counters.refCounter t =
      (ext t : Int) + ((s.phase t).held : Int) + (s.reg.lookups.count t : Int)) ∧
    (∀ t i, t ∈ s.reg.taskList i → i = L.bucket t ∧ 0 < s.reg.counters.refCounter t) ∧
    (∀ t, s.phase t = .registered → (TaskRegistry.lookup s.reg (s.reg.pid t)).1 = some t) := by
  have hc := h.consistent
  refine ⟨hc.bugOn_false, hc.counters_bugOn_false, fun t => (hc.task_ok t).refCounter_eq,
    fun t i hmem => ?_, fun t hreg => ?_⟩
  · obtain ⟨hi, hb⟩ := (hc.task_ok t).mem_taskList hmem
    have := Phase.one_le_held_of_inBucket hb
    have := (hc.task_ok t).le_refCounter
    exact ⟨hi, by omega⟩
  · rw [lookup_eq]
    exact (hc.task_ok t).slot_pid (by simp [hreg, Phase.hasPid])

theorem taskTable_interleaving_sound_midInsert :
    let L : Layout Nat := ⟨1, id, 2, 18446744073709551615, by decide, by decide⟩
    let s := ([.insert 0, .scan 0, .setPid 0, .get 0, .link 0, .insert 1, .scan 1, .lookup 0].foldlM
      (step L) (init L fun _ => 1)).getD (init L fun _ => 1)
    Reachable L (fun _ => 1) s ∧ s.phase 0 = .registered ∧ s.phase 1 = .stored 1 ∧
    s.reg.lookups = [0] ∧ s.reg.counters.refCounter 0 = 4 ∧
    (s.reg.bugOn = false ∧ s.reg.counters.bugOn = false ∧
    (∀ t, s.reg.counters.refCounter t =
      ((1 : Nat) : Int) + ((s.phase t).held : Int) + (s.reg.lookups.count t : Int)) ∧
    (∀ t i, t ∈ s.reg.taskList i → i = L.bucket t ∧ 0 < s.reg.counters.refCounter t) ∧
    (∀ t, s.phase t = .registered → (TaskRegistry.lookup s.reg (s.reg.pid t)).1 = some t)) :=
  ⟨reachable_foldlM (fun _ => Nat.one_pos) .init _ rfl, by decide, by decide, by decide, by decide,
    taskTable_interleaving_sound (reachable_foldlM (fun _ => Nat.one_pos) .init _ rfl)⟩

/-- Between calls, when every owner is outside the task table or has registered
its task, the concurrent table is a state of the sequential model: the registered
tasks are those whose owners' `Insert` returned true, and `TableInv` holds. -/
theorem taskTable_quiescent_tableInv (h : Reachable L ext s)
    (hq : ∀ u, s.phase u = .out ∨ s.phase u = .registered) :
    (∀ u, Registered s.reg u ↔ s.phase u = .registered) ∧ TableInv L ext s.reg := by
  have hc := h.consistent
  have hreg : ∀ u, Registered s.reg u ↔ s.phase u = .registered := fun u => by
    refine ⟨fun hr => (hq u).resolve_left fun hout => ?_, fun hu =>
      (hc.task_ok u).slot_pid (by simp [hu, Phase.hasPid])⟩
    simpa [hout, Phase.inSlot] using (hc.task_ok u).inSlot_of_slot hr
  refine ⟨hreg, hc.size_eq, fun u => ?_, fun u i => ?_, fun u => ?_, hc.bugOn_false⟩ <;>
    rcases hq u with hu | hu <;>
    simp [hreg, hu, (hc.task_ok u).slot_count, (hc.task_ok u).bucket_count,
      (hc.task_ok u).refCounter_eq, Phase.inSlot, Phase.inBucket, Phase.held]

theorem taskTable_quiescent_tableInv_registered :
    let L : Layout (Fin 2) := ⟨1, Fin.val, 2, 18446744073709551615, by decide, by decide⟩
    let s := ([.insert 0, .scan 0, .setPid 0, .get 0, .link 0, .insert 1, .scan 1, .setPid 1,
      .get 1, .link 1, .remove 1, .removePut 1, .unlink 1, .put 1].foldlM
      (step L) (init L fun _ => 1)).getD (init L fun _ => 1)
    Reachable L (fun _ => 1) s ∧ s.phase 0 = .registered ∧ s.reg.pid 1 = 1 ∧
    (∀ u, s.phase u = .out ∨ s.phase u = .registered) ∧
    ((∀ u, Registered s.reg u ↔ s.phase u = .registered) ∧ TableInv L (fun _ => 1) s.reg) := by
  intro L s
  have hs : Reachable L (fun _ => 1) s := reachable_foldlM (fun _ => Nat.one_pos) .init _ rfl
  exact ⟨hs, by decide, by decide, by decide, taskTable_quiescent_tableInv hs (by decide)⟩

end NosKernel.TaskTableInterleaving
