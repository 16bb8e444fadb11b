import NosKernel.TaskTableInterleaving

/-!
The two models of `TaskTable` in `kernel/task.cpp` agree. `TaskRegistry` runs each
of `Insert`, `Remove` and `Lookup` as one function; `TaskTableInterleaving` cuts
them into the steps other CPUs can run between. Run back to back, the steps of
one call compute the sequential call, so every state of the sequential model is
the table of an interleaving, with the owners of its registered tasks between
calls and every other owner out.
-/

namespace NosKernel.TaskTableSerial

open NosKernel.ObjectTableMap NosKernel.TaskTableInterleaving
open NosKernel.TaskRegistry hiding Reachable init insert remove lookup putLookup

variable {τ : Type}

theorem not_registered_init {L : Layout τ} {ext : τ → Nat} (u : τ) :
    ¬Registered (TaskRegistry.init L ext) u := by
  simp [Registered, TaskRegistry.init]

variable [DecidableEq τ]

/-- The steps `as`, run one after another with no other step between them. -/
def runActions (L : Layout τ) : Table τ → List (Action τ) → Option (Table τ)
  | s, [] => some s
  | s, a :: as => (step L s a).bind fun s' => runActions L s' as

/-- The steps of a `TaskTable::Insert(task)` that gets a pid. -/
def insertCall (t : τ) : List (Action τ) := [.insert t, .scan t, .setPid t, .get t, .link t]

/-- The steps of a `TaskTable::Insert(task)` that finds the object table full. -/
def insertFullCall (t : τ) : List (Action τ) := [.insert t, .scan t, .insertPut t]

/-- The steps of `TaskTable::Remove(task)`. -/
def removeCall (t : τ) : List (Action τ) := [.remove t, .removePut t, .unlink t, .put t]

variable {L : Layout τ} {ext : τ → Nat} {s s' : Table τ} {t : τ}

theorem reachable_runActions {as : List (Action τ)} (h : Reachable L ext s)
    (hins : ∀ t, .insert t ∈ as → 0 < ext t) (hrun : runActions L s as = some s') :
    Reachable L ext s' := by
  induction as generalizing s with
  | nil => cases hrun; exact h
  | cons a as ih =>
      obtain ⟨s₁, hs₁, hrun⟩ := Option.bind_eq_some.mp hrun
      exact ih (.step h (fun t ha => hins t (ha ▸ List.mem_cons_self _ _)) hs₁)
        (fun t ht => hins t (List.mem_cons_of_mem _ ht)) hrun

theorem runActions_insertCall {pid : Nat} {T : ObjectTable τ}
    (hsize : s.reg.taskObjectTable.size = L.maxTasks) (hout : s.phase t = .out)
    (h : insertLocked s.reg.taskObjectTable t = some (pid, T)) :
    (TaskRegistry.insert L s.reg t).1 = true ∧
    runActions L s (insertCall t) =
      some ⟨(TaskRegistry.insert L s.reg t).2, Function.update s.phase t .registered⟩ := by
  have hne : pid ≠ L.invalidObjectId := by
    have := (insertLocked_eq_some h).1
    have := L.maxTasks_le
    omega
  simp [runActions, insertCall, step, Table.moveTo, hout, h, hne, TaskRegistry.insert,
    insert_of_insertLocked_some h, linked]

theorem runActions_insertFullCall (hout : s.phase t = .out)
    (h : insertLocked s.reg.taskObjectTable t = none) :
    (TaskRegistry.insert L s.reg t).1 = false ∧
    runActions L s (insertFullCall t) = some ⟨(TaskRegistry.insert L s.reg t).2, s.phase⟩ := by
  have hph : Function.update s.phase t .out = s.phase := Function.update_eq_self_iff.mpr hout.symm
  simp [runActions, insertFullCall, step, Table.moveTo, hout, h, insert_eq_of_full h, hph]

theorem runActions_removeCall (hreg : s.phase t = .registered) :
    runActions L s (removeCall t) =
      some ⟨TaskRegistry.remove L s.reg t, Function.update s.phase t .out⟩ := by
  by_cases hle : s.reg.taskObjectTable.size ≤ s.reg.pid t
  · simp [runActions, removeCall, step, Table.moveTo, hreg, hle, TaskRegistry.remove,
      ObjectTableMap.remove, linked]
  · cases hslot : s.reg.taskObjectTable.slot (s.reg.pid t) <;>
      simp [runActions, removeCall, step, Table.moveTo, hreg, hle, hslot, TaskRegistry.remove,
        ObjectTableMap.remove, removeLocked, linked]

theorem serial_step_insert {r : Registry τ} (hext : ∀ t, 0 < ext t) (hr : TableInv L ext r)
    (hs : Reachable L ext s) (hreg : s.reg = r)
    (hph : ∀ u, s.phase u = if Registered r u then .registered else .out) (hnot : ¬Registered r t) :
    ∃ s', Reachable L ext s' ∧ s'.reg = (TaskRegistry.insert L r t).2 ∧
      ∀ u, s'.phase u =
        if Registered (TaskRegistry.insert L r t).2 u then .registered else .out := by
  subst hreg
  have hout : s.phase t = .out := by rw [hph, if_neg hnot]
  cases hl : insertLocked s.reg.taskObjectTable t with
  | some r =>
      obtain ⟨pid, T⟩ := r
      obtain ⟨hok, hrun⟩ := runActions_insertCall hs.consistent.size_eq hout hl
      refine ⟨_, reachable_runActions hs (fun t' _ => hext t') hrun, rfl,
        fun u => ?_⟩
      by_cases hu : u = t
      · subst hu
        simp [registered_insert_iff hr, hok]
      · simp [Function.update_noteq hu, registered_insert_iff hr, hu, hph u]
  | none =>
      obtain ⟨hok, hrun⟩ := runActions_insertFullCall hout hl
      refine ⟨_, reachable_runActions hs (fun t' _ => hext t') hrun, rfl,
        fun u => ?_⟩
      simp [registered_insert_iff hr, hok, hph u]

/-- Each state of the sequential model of `TaskTable`, reached by whole calls
from an empty table, is the table of an interleaving that ran each call's steps
back to back, in which the owners of the registered tasks are between calls and
every other owner is out. With `taskTable_quiescent_tableInv`, the sequential
states are exactly the quiescent ones that such serial runs reach. -/
theorem sequential_refines_interleaving (hext : ∀ t, 0 < ext t) {r : Registry τ}
    (h : TaskRegistry.Reachable L ext r) :
    ∃ s, Reachable L ext s ∧ s.reg = r ∧
      ∀ u, s.phase u = if Registered r u then .registered else .out := by
  induction h with
  | init =>
      exact ⟨TaskTableInterleaving.init L ext, .init, rfl, fun u => by
        simp [TaskTableInterleaving.init, not_registered_init u]⟩
  | insert hr hnot ih =>
      obtain ⟨s, hs, hreg, hph⟩ := ih
      exact serial_step_insert hext hr.tableInv hs hreg hph hnot
  | @remove r t _ ht ih =>
      obtain ⟨s, hs, rfl, hph⟩ := ih
      have hreg : s.phase t = .registered := by rw [hph, if_pos ht]
      refine ⟨_, reachable_runActions hs (by simp [removeCall]) (runActions_removeCall hreg), rfl,
        fun u => ?_⟩
      by_cases hu : u = t
      · subst hu
        simp [registered_remove_iff ht]
      · simp [Function.update_noteq hu, registered_remove_iff ht, hu, hph u]
  | @lookup r pid _ ih =>
      obtain ⟨s, hs, rfl, hph⟩ := ih
      refine ⟨_, .step hs (by simp) (rfl : step L s (.lookup pid) = some _), rfl, fun u => ?_⟩
      simp [hph u, Registered, lookup_eq]
  | @putLookup r t _ hmem ih =>
      obtain ⟨s, hs, rfl, hph⟩ := ih
      have hstep : step L s (.putLookup t) = some ⟨TaskRegistry.putLookup s.reg t, s.phase⟩ :=
        if_pos hmem
      refine ⟨_, .step hs (by simp) hstep, rfl, fun u => ?_⟩
      simp [hph u, Registered, TaskRegistry.putLookup]

theorem sequential_refines_interleaving_insert :
    let L : Layout Nat := ⟨1, id, 2, 18446744073709551615, by decide, by decide⟩
    let r := (TaskRegistry.insert L (TaskRegistry.init L fun _ => 1) 0).2
    (∀ t : Nat, 0 < (fun _ => 1) t) ∧ TaskRegistry.Reachable L (fun _ => 1) r ∧
    ∃ s, Reachable L (fun _ => 1) s ∧ s.reg = r ∧
      ∀ u, s.phase u = if Registered r u then .registered else .out :=
  ⟨fun _ => Nat.one_pos, .insert .init (not_registered_init 0),
    sequential_refines_interleaving (fun _ => Nat.one_pos) (.insert .init (not_registered_init 0))⟩

end NosKernel.TaskTableSerial
