import NosKernel.ObjectTableMap

/-!
The task table of `kernel/task.cpp`: `TaskTable::Insert`, `Remove`, `Lookup`
and the destructor, over an embedded object table that hands out pids and an
array of hash buckets of tasks. The calls touch two fields of each task, its
`Pid` and its reference counter, which the state keeps next to the table.

`TableInv` is the registration invariant: a task is registered when the slot
of its pid holds it, it then sits exactly once in its own bucket and in no
other, and its counter is the references held outside the table, plus two for
the table, plus the `Lookup` results not yet put. It holds in every state
reached from an empty table by registering unregistered tasks, removing
registered ones, looking up pids and putting the results.
-/

namespace NosKernel.TaskRegistry

open NosKernel.RefCounting NosKernel.ObjectTableMap

/-- What the excerpt leaves to headers and to `Stdlib`: `ArraySize(TaskList)`,
`HashPtr`, `ArraySize(ObjectArray)` of the embedded `TaskObjectTable`, and
`InvalidObjectId`. A C++ array is never empty, and a `ulong` slot index never
reaches `InvalidObjectId`. -/
structure Layout (τ : Type) where
  taskListSize : Nat
  hashPtr : τ → Nat
  maxTasks : Nat
  invalidObjectId : Nat
  taskListSize_pos : 0 < taskListSize
  maxTasks_le : maxTasks ≤ invalidObjectId

variable {τ : Type}

/-- The bucket `HashPtr(task) % ArraySize(TaskList)` of a task. -/
def Layout.bucket (L : Layout τ) (t : τ) : Nat := L.hashPtr t % L.taskListSize

theorem Layout.bucket_lt (L : Layout τ) (t : τ) : L.bucket t < L.taskListSize :=
  Nat.mod_lt _ L.taskListSize_pos

/-- The task table with the task fields its calls touch. `bugOn` records a
`BugOn` on a task's `TableListEntry`; `lookups`, the `Lookup` results not yet
put, is ghost state. -/
structure Registry (τ : Type) where
  taskObjectTable : ObjectTable τ
  taskList : Nat → List τ
  pid : τ → Nat
  counters : Counters τ
  bugOn : Bool
  lookups : List τ

/-- A task is registered when the pid table's slot at its `Pid` holds it. -/
def Registered (s : Registry τ) (t : τ) : Prop := s.taskObjectTable.slot (s.pid t) = some t

@[simp] theorem registered_with_counters (s : Registry τ) (c : Counters τ) (t : τ) :
    Registered { s with counters := c } t ↔ Registered s t :=
  Iff.rfl

variable [DecidableEq τ]

instance (s : Registry τ) (t : τ) : Decidable (Registered s t) :=
  inferInstanceAs (Decidable (_ = _))

/-- `!task->TableListEntry.IsEmpty()`: the task is linked into one of the buckets. -/
def linked (L : Layout τ) (s : Registry τ) (t : τ) : Bool :=
  (List.range L.taskListSize).any fun i => (s.taskList i).contains t

/-- An empty table of `maxTasks` pids and `taskListSize` buckets, over freshly
constructed tasks (`Pid = InvalidObjectId`) of which `ext t` references are held. -/
def init (L : Layout τ) (ext : τ → Nat) : Registry τ where
  taskObjectTable := ObjectTable.fresh L.maxTasks
  taskList := fun _ => []
  pid := fun _ => L.invalidObjectId
  counters := ⟨fun t => ext t, fun _ => 0, false⟩
  bugOn := false
  lookups := []

/-- `TaskTable::Insert`: a pid from the object table (which takes one
reference), then `task->Get()` and the append to the task's bucket. -/
def insert (L : Layout τ) (s : Registry τ) (task : τ) : Bool × Registry τ :=
  let r := ObjectTableMap.insert L.invalidObjectId s.taskObjectTable s.counters task
  if r.1 = L.invalidObjectId then
    (false, { s with taskObjectTable := r.2.1, counters := r.2.2 })
  else
    (true, { s with
      taskObjectTable := r.2.1
      pid := Function.update s.pid task r.1
      counters := r.2.2.get task
      bugOn := s.bugOn || linked L s task
      taskList := Function.update s.taskList (L.bucket task)
        (s.taskList (L.bucket task) ++ [task]) })

/-- `TaskTable::Remove`: release the pid (dropping the object table's
reference), unlink the task's list entry, and `task->Put()`. The task's `Pid`
field is left as it was. -/
def remove (L : Layout τ) (s : Registry τ) (task : τ) : Registry τ :=
  let r := ObjectTableMap.remove s.taskObjectTable s.counters (s.pid task)
  { s with
    taskObjectTable := r.1
    bugOn := s.bugOn || !linked L s task
    taskList := fun i => (s.taskList i).erase task
    counters := r.2.put task }

/-- `TaskTable::Lookup`: the object table's lookup, which takes a reference. -/
def lookup (s : Registry τ) (pid : Nat) : Option τ × Registry τ :=
  let r := ObjectTableMap.lookup s.taskObjectTable s.counters pid
  (r.1, { s with counters := r.2, lookups := r.1.toList ++ s.lookups })

/-- `task->Put()` by the caller that got `task` from `Lookup`. -/
def putLookup (s : Registry τ) (task : τ) : Registry τ :=
  { s with counters := s.counters.put task, lookups := s.lookups.erase task }

/-- `TaskTable::~TaskTable`, which puts every task of every bucket, followed
by the destructor of the embedded `TaskObjectTable`. -/
def destroy (L : Layout τ) (s : Registry τ) : Registry τ :=
  let c := (List.range L.taskListSize).foldl
    (fun c i => (s.taskList i).foldl Counters.put c) s.counters
  let r := ObjectTableMap.destroy s.taskObjectTable c
  { s with taskObjectTable := r.1, taskList := fun _ => [], counters := r.2 }

/-- The states reached from an empty table by the calls the kernel makes:
`Insert` of an unregistered task (`Task::PrepareStart`), `Remove` of a
registered one (`Task::Exit`, `Task::Run`), `Lookup`, and `Put` of its results. -/
inductive Reachable (L : Layout τ) (ext : τ → Nat) : Registry τ → Prop
  | init : Reachable L ext (init L ext)
  | insert {s : Registry τ} {t : τ} : Reachable L ext s → ¬Registered s t →
      Reachable L ext (insert L s t).2
  | remove {s : Registry τ} {t : τ} : Reachable L ext s → Registered s t →
      Reachable L ext (remove L s t)
  | lookup {s : Registry τ} {pid : Nat} : Reachable L ext s →
      Reachable L ext (lookup s pid).2
  | putLookup {s : Registry τ} {t : τ} : Reachable L ext s → t ∈ s.lookups →
      Reachable L ext (putLookup s t)

/-- The registration invariant: the pid table has its size; a registered task
is held by exactly one slot, sits exactly once in its own bucket and in no
other; an unregistered task is in no slot and no bucket; each counter is the
`ext` references held outside the table, two for a registered task, and one per
`Lookup` result not yet put; and no `BugOn` on a list entry has fired. -/
structure TableInv (L : Layout τ) (ext : τ → Nat) (s : Registry τ) : Prop where
  size_eq : s.taskObjectTable.size = L.maxTasks
  slot_count : ∀ t, s.taskObjectTable.objectArray.count (some t) =
    if Registered s t then 1 else 0
  bucket_count : ∀ t i, (s.taskList i).count t =
    if i = L.bucket t ∧ Registered s t then 1 else 0
  refCounter_eq : ∀ t, s.counters.refCounter t =
    (ext t : Int) + (if Registered s t then 2 else 0) + (s.lookups.count t : Int)
  bugOn_false : s.bugOn = false

variable {L : Layout τ} {ext : τ → Nat} {s : Registry τ}

theorem tableInv_init : TableInv L ext (init L ext) := by
  have hreg : ∀ t, ¬Registered (init L ext) t := by simp [Registered, init]
  refine ⟨by simp [init], fun t => ?_, fun t i => ?_, fun t => ?_, rfl⟩
  · rw [if_neg (hreg t)]
    simp [init, ObjectTable.fresh, List.count_replicate]
  · rw [if_neg (fun h => hreg t h.2)]
    rfl
  · rw [if_neg (hreg t)]
    simp [init]

theorem TableInv.linked_iff (hi : TableInv L ext s) (t : τ) :
    linked L s t = true ↔ Registered s t := by
  simp only [linked, List.any_eq_true, List.mem_range, List.contains, List.elem_eq_mem,
    decide_eq_true_eq]
  constructor
  · rintro ⟨i, -, hmem⟩
    have := hi.bucket_count t i
    have := List.count_pos_iff.mpr hmem
    split_ifs at * with h
    · exact h.2
    · omega
  · intro hreg
    refine ⟨L.bucket t, L.bucket_lt t, List.count_pos_iff.mp ?_⟩
    simp [hi.bucket_count, hreg]

theorem insert_eq_of_free (hi : TableInv L ext s) {t : τ} {i : Nat} {T : ObjectTable τ}
    (h : insertLocked s.taskObjectTable t = some (i, T)) :
    insert L s t = (true, { s with
      taskObjectTable := T
      pid := Function.update s.pid t i
      counters := (s.counters.get t).get t
      bugOn := s.bugOn || linked L s t
      taskList := Function.update s.taskList (L.bucket t)
        (s.taskList (L.bucket t) ++ [t]) }) := by
  have hlt := (insertLocked_eq_some h).1
  have hne : i ≠ L.invalidObjectId := by
    have := hi.size_eq
    have := L.maxTasks_le
    omega
  simp [insert, ObjectTableMap.insert_of_insertLocked_some h, hne]

theorem insert_eq_of_full {t : τ} (h : insertLocked s.taskObjectTable t = none) :
    insert L s t = (false, { s with counters := (s.counters.get t).put t }) := by
  simp [insert, ObjectTableMap.insert_of_insertLocked_none h]

theorem insert_eq_of_false (hi : TableInv L ext s) {t : τ} (h : (insert L s t).1 = false) :
    (insert L s t).2 = { s with counters := (s.counters.get t).put t } := by
  cases hl : insertLocked s.taskObjectTable t with
  | none => rw [insert_eq_of_full hl]
  | some r => rw [insert_eq_of_free hi hl] at h; cases h

theorem registered_of_insert_true {t : τ} (h : (insert L s t).1 = true) :
    Registered (insert L s t).2 t := by
  cases hl : insertLocked s.taskObjectTable t with
  | none => simp [insert_eq_of_full hl] at h
  | some r =>
      obtain ⟨i, T⟩ := r
      obtain ⟨hlt, -, -, rfl⟩ := insertLocked_eq_some hl
      have hne : i ≠ L.invalidObjectId := by
        intro heq
        simp [insert, ObjectTableMap.insert_of_insertLocked_some hl, heq] at h
      simp [insert, ObjectTableMap.insert_of_insertLocked_some hl, hne, Registered,
        ObjectTable.slot_setSlot, hlt]

theorem insert_lookups (L : Layout τ) (s : Registry τ) (t : τ) :
    (insert L s t).2.lookups = s.lookups := by
  unfold insert
  dsimp only
  split <;> rfl

theorem registered_insert_iff (hi : TableInv L ext s) {t : τ} (u : τ) :
    Registered (insert L s t).2 u ↔ (u = t ∧ (insert L s t).1 = true) ∨ Registered s u := by
  cases h : insertLocked s.taskObjectTable t with
  | none => simp [insert_eq_of_full h, Registered]
  | some r =>
      obtain ⟨i, T⟩ := r
      obtain ⟨hlt, hfree, -, rfl⟩ := insertLocked_eq_some h
      simp only [insert_eq_of_free hi h, Registered, ObjectTable.slot_setSlot,
        Function.update_apply, and_true]
      by_cases hu : u = t
      · subst hu
        simp [hlt]
      · simp only [hu, if_false, false_or]
        by_cases hpu : i = s.pid u
        · rw [if_pos ⟨hpu, hlt⟩, ← hpu, hfree]
          simp [Ne.symm hu]
        · rw [if_neg fun h => hpu h.1]

theorem tableInv_insert (hi : TableInv L ext s) {t : τ} (hnot : ¬Registered s t) :
    TableInv L ext (insert L s t).2 := by
  cases h : insertLocked s.taskObjectTable t with
  | none =>
      rw [insert_eq_of_full h]
      refine ⟨hi.size_eq, hi.slot_count, hi.bucket_count, fun u => ?_, hi.bugOn_false⟩
      have := hi.refCounter_eq u
      simp only [Registered] at this ⊢
      simp only [Counters.put_refCounter, Counters.get_refCounter]
      omega
  | some r =>
      obtain ⟨i, T⟩ := r
      rw [insert_eq_of_free hi h]
      obtain ⟨hlt, hfree, -, rfl⟩ := insertLocked_eq_some h
      have hslot0 : s.taskObjectTable.objectArray.count (some t) = 0 := by
        simpa [hnot] using hi.slot_count t
      dsimp only
      set s' : Registry τ := { s with
        taskObjectTable := s.taskObjectTable.setSlot i (some t)
        pid := Function.update s.pid t i
        counters := (s.counters.get t).get t
        bugOn := s.bugOn || linked L s t
        taskList := Function.update s.taskList (L.bucket t) (s.taskList (L.bucket t) ++ [t]) }
      have hreg : ∀ u, Registered s' u ↔ u = t ∨ Registered s u := fun u => by
        simpa [insert_eq_of_free hi h] using registered_insert_iff (L := L) hi (t := t) u
      refine ⟨by simpa using hi.size_eq, fun u => ?_, fun u j => ?_, fun u => ?_, ?_⟩
      · have := ObjectTable.count_setSlot hlt (some t) (some u)
        rw [hfree] at this
        rw [if_congr (hreg u) rfl rfl]
        by_cases hu : u = t
        · subst hu
          simp only [reduceCtorEq, if_false, if_true, true_or] at this ⊢
          omega
        · simpa [hu, Ne.symm hu, hi.slot_count u] using this
      · rw [if_congr (and_congr_right_iff.mpr fun _ => hreg u) rfl rfl]
        have happ : (s'.taskList j).count u = (s.taskList j).count u +
            if j = L.bucket t ∧ t = u then 1 else 0 := by
          simp only [s', Function.update_apply]
          split_ifs <;> simp_all [List.count_append, List.count_singleton]
        rw [happ, hi.bucket_count]
        by_cases hu : u = t
        · subst hu
          simp [hnot]
        · simp [hu, Ne.symm hu]
      · rw [if_congr (hreg u) rfl rfl]
        have := hi.refCounter_eq u
        simp only [Counters.get_refCounter]
        by_cases hu : u = t
        · subst hu
          simp only [hnot, if_false] at this
          simp only [if_true, true_or]
          omega
        · simp only [hu, if_false, false_or]
          omega
      · simp [hi.bugOn_false, (hi.linked_iff t).not.mpr hnot]

theorem remove_eq_of_registered {t : τ} (ht : Registered s t) :
    remove L s t = { s with
      taskObjectTable := s.taskObjectTable.setSlot (s.pid t) none
      bugOn := s.bugOn || !linked L s t
      taskList := fun i => (s.taskList i).erase t
      counters := (s.counters.put t).put t } := by
  simp [remove, ObjectTableMap.remove_of_slot_some ht]

theorem registered_remove_iff {t : τ} (ht : Registered s t) (u : τ) :
    Registered (remove L s t) u ↔ u ≠ t ∧ Registered s u := by
  have hlt := ObjectTable.lt_size_of_slot_eq_some ht
  simp only [remove_eq_of_registered ht, Registered, ObjectTable.slot_setSlot]
  by_cases hpu : s.pid t = s.pid u
  · rw [if_pos ⟨hpu, hlt⟩, ← hpu, ht]
    simp only [reduceCtorEq, false_iff, not_and, Option.some.injEq]
    exact fun hne heq => hne heq.symm
  · rw [if_neg fun h => hpu h.1]
    exact ⟨fun hu => ⟨fun h => hpu (h ▸ rfl), hu⟩, fun h => h.2⟩

theorem tableInv_remove (hi : TableInv L ext s) {t : τ} (ht : Registered s t) :
    TableInv L ext (remove L s t) := by
  rw [remove_eq_of_registered ht]
  have hlt := ObjectTable.lt_size_of_slot_eq_some ht
  set s' : Registry τ := { s with
    taskObjectTable := s.taskObjectTable.setSlot (s.pid t) none
    bugOn := s.bugOn || !linked L s t
    taskList := fun i => (s.taskList i).erase t
    counters := (s.counters.put t).put t }
  have hreg : ∀ u, Registered s' u ↔ u ≠ t ∧ Registered s u := fun u => by
    simpa [remove_eq_of_registered ht] using registered_remove_iff (L := L) ht u
  refine ⟨by simpa using hi.size_eq, fun u => ?_, fun u j => ?_, fun u => ?_, ?_⟩
  · have := ObjectTable.count_setSlot hlt none (some u)
    have ht' : s.taskObjectTable.slot (s.pid t) = some t := ht
    rw [ht'] at this
    rw [if_congr (hreg u) rfl rfl]
    have hc := hi.slot_count u
    by_cases hu : u = t
    · subst hu
      simp only [if_true, reduceCtorEq, if_false, ht] at this hc ⊢
      simp only [ne_eq, not_true_eq_false, false_and, if_false]
      omega
    · simp only [Option.some.injEq, Ne.symm hu, if_false, reduceCtorEq, Nat.add_zero] at this
      simp [s', hu, ← hc, this]
  · rw [if_congr (and_congr_right_iff.mpr fun _ => hreg u) rfl rfl]
    simp only [s', List.count_erase, beq_iff_eq, hi.bucket_count]
    by_cases hu : u = t
    · subst hu
      split_ifs <;> simp_all
    · simp [hu, Ne.symm hu]
  · rw [if_congr (hreg u) rfl rfl]
    have := hi.refCounter_eq u
    simp only [s', Counters.put_refCounter]
    by_cases hu : u = t
    · subst hu
      simp only [ht, if_true] at this
      simp only [if_true, ne_eq, not_true_eq_false, false_and, if_false]
      omega
    · simp only [hu, if_false, ne_eq, not_false_eq_true, true_and]
      omega
  · simp [s', hi.bugOn_false, (hi.linked_iff t).mpr ht]

theorem lookup_eq (pid : Nat) :
    lookup s pid = (s.taskObjectTable.slot pid, { s with
      counters := match s.taskObjectTable.slot pid with
        | some u => s.counters.get u
        | none => s.counters
      lookups := (s.taskObjectTable.slot pid).toList ++ s.lookups }) := by
  cases h : s.taskObjectTable.slot pid <;> simp [lookup, lookup_eq_slot, h]

theorem tableInv_lookup (hi : TableInv L ext s) (pid : Nat) :
    TableInv L ext (lookup s pid).2 := by
  rw [lookup_eq]
  cases hslot : s.taskObjectTable.slot pid with
  | none => exact ⟨hi.size_eq, hi.slot_count, hi.bucket_count, hi.refCounter_eq, hi.bugOn_false⟩
  | some u =>
      refine ⟨hi.size_eq, hi.slot_count, hi.bucket_count, fun v => ?_, hi.bugOn_false⟩
      have := hi.refCounter_eq v
      simp only [Registered] at this ⊢
      simp only [Counters.get_refCounter, Option.toList_some, List.singleton_append,
        List.count_cons, beq_iff_eq]
      by_cases hv : v = u
      · subst hv
        simp only [if_true]
        push_cast
        omega
      · simp only [hv, Ne.symm hv, if_false]
        omega

theorem tableInv_putLookup (hi : TableInv L ext s) {t : τ} (ht : t ∈ s.lookups) :
    TableInv L ext (putLookup s t) := by
  refine ⟨hi.size_eq, hi.slot_count, hi.bucket_count, fun u => ?_, hi.bugOn_false⟩
  have := hi.refCounter_eq u
  have hpos := List.count_pos_iff.mpr ht
  simp only [Registered, putLookup] at this ⊢
  simp only [Counters.put_refCounter, List.count_erase, beq_iff_eq]
  by_cases hu : u = t
  · subst hu
    simp only [if_true]
    omega
  · simp only [hu, Ne.symm hu, if_false]
    omega

theorem TableInv.of_ext_eq (hi : TableInv L ext s) {ext' : τ → Nat} (h : ∀ u, ext' u = ext u) :
    TableInv L ext' s :=
  (funext h : ext' = ext) ▸ hi

theorem TableInv.with_counters (hi : TableInv L ext s) {ext' : τ → Nat} {c : Counters τ}
    (h : ∀ u, c.refCounter u - ext' u = s.counters.refCounter u - ext u) :
    TableInv L ext' { s with counters := c } := by
  refine ⟨hi.size_eq, hi.slot_count, hi.bucket_count, fun u => ?_, hi.bugOn_false⟩
  have h₁ := hi.refCounter_eq u
  have h₂ := h u
  change c.refCounter u = (ext' u : Int) + (if Registered s u then 2 else 0) + s.lookups.count u
  omega

theorem tableInv_put (hi : TableInv L ext s) {t : τ} (hpos : 0 < ext t) :
    TableInv L (Function.update ext t (ext t - 1)) { s with counters := s.counters.put t } :=
  hi.with_counters fun u => by
    by_cases hu : u = t
    · subst hu
      simp only [Counters.put_refCounter, Function.update_same, if_true]
      omega
    · simp [hu]

theorem tableInv_get (hi : TableInv L ext s) (t : τ) :
    TableInv L (Function.update ext t (ext t + 1)) { s with counters := s.counters.get t } :=
  hi.with_counters fun u => by
    by_cases hu : u = t
    · subst hu
      simp only [Counters.get_refCounter, Function.update_same, if_true]
      omega
    · simp [hu]

theorem Reachable.tableInv (h : Reachable L ext s) : TableInv L ext s := by
  induction h with
  | init => exact tableInv_init
  | insert _ hnot ih => exact tableInv_insert ih hnot
  | remove _ hreg ih => exact tableInv_remove ih hreg
  | lookup _ ih => exact tableInv_lookup ih _
  | putLookup _ hmem ih => exact tableInv_putLookup ih hmem

theorem foldl_buckets_refCounter (f : Nat → List τ) {t : τ} {k m : Nat}
    (hf : ∀ i, (f i).count t = if i = k then m else 0) (n : Nat) (c : Counters τ) :
    ((List.range n).foldl (fun c i => (f i).foldl Counters.put c) c).refCounter t =
      c.refCounter t - (if k < n then m else 0) := by
  induction n with
  | zero => simp
  | succ n ih =>
      rw [List.range_succ, List.foldl_append, List.foldl_cons, List.foldl_nil,
        foldl_put_refCounter, ih, hf]
      split_ifs <;> omega

theorem TableInv.destroy_refCounter (hi : TableInv L ext s) (t : τ) :
    (destroy L s).counters.refCounter t =
      s.counters.refCounter t - (if Registered s t then 2 else 0) := by
  have hf : ∀ i, (s.taskList i).count t =
      if i = L.bucket t then (if Registered s t then 1 else 0) else 0 := by
    intro i
    rw [hi.bucket_count]
    split_ifs <;> simp_all
  simp only [destroy, ObjectTableMap.destroy, foldl_put_refCounter, count_filterMap_id,
    hi.slot_count, foldl_buckets_refCounter s.taskList hf, L.bucket_lt, if_true]
  split_ifs <;> simp
  omega

/-- In every state reached from an empty task table, a task is linked in its own
bucket exactly when the slot of its pid holds it, in no other bucket, and
`Lookup` of its pid returns it; its counter is the outside references plus two
while registered plus the `Lookup` results not yet put; `Insert` adds two on
success and nothing on failure, `Remove` drops two, and the two destructors drop
two per registered task, so a registered task keeps at least two references. -/
theorem taskTable_registration_sound (L : Layout τ) (ext : τ → Nat) {s : Registry τ}
    (h : Reachable L ext s) :
    (∀ t, (t ∈ s.taskList (L.bucket t) ↔ s.taskObjectTable.slot (s.pid t) = some t) ∧
      (∀ i, t ∈ s.taskList i → i = L.bucket t) ∧
      (Registered s t → (lookup s (s.pid t)).1 = some t)) ∧
    (∀ t, s.counters.refCounter t =
      (ext t : Int) + (if Registered s t then 2 else 0) + (s.lookups.count t : Int)) ∧
    (∀ t, ¬Registered s t → (insert L s t).2.counters.refCounter t =
      s.counters.refCounter t + if (insert L s t).1 then 2 else 0) ∧
    (∀ t, Registered s t → (remove L s t).counters.refCounter t = s.counters.refCounter t - 2) ∧
    (∀ t, (destroy L s).counters.refCounter t =
      s.counters.refCounter t - if Registered s t then 2 else 0) ∧
    (∀ t, Registered s t → 2 ≤ s.counters.refCounter t) := by
  have hi := h.tableInv
  refine ⟨fun t => ⟨?_, fun i hmem => ?_, fun hreg => ?_⟩, hi.refCounter_eq, fun t hnot => ?_,
    fun t hreg => ?_, hi.destroy_refCounter, fun t hreg => ?_⟩
  · rw [← List.count_pos_iff, hi.bucket_count]
    simp only [true_and]
    split_ifs with hreg <;> simp [Registered] at * <;> assumption
  · have := hi.bucket_count t i
    have := List.count_pos_iff.mpr hmem
    split_ifs at * with hb
    · exact hb.1
    · omega
  · rw [lookup_eq]
    exact hreg
  · cases hl : insertLocked s.taskObjectTable t with
    | none => simp [insert_eq_of_full hl]
    | some r => simp [insert_eq_of_free hi hl]; omega
  · simp [remove_eq_of_registered hreg]
    omega
  · have := hi.refCounter_eq t
    simp only [hreg, if_true] at this
    omega

theorem taskTable_registration_sound_two :
    let L : Layout Nat := ⟨1, id, 2, 18446744073709551615, by decide, by decide⟩
    let s := (lookup (insert L (insert L (init L fun _ => 1) 0).2 1).2 0).2
    Reachable L (fun _ => 1) s ∧ Registered s 0 ∧ Registered s 1 ∧ s.lookups = [0] ∧
    ((∀ t, (t ∈ s.taskList (L.bucket t) ↔ s.taskObjectTable.slot (s.pid t) = some t) ∧
      (∀ i, t ∈ s.taskList i → i = L.bucket t) ∧
      (Registered s t → (lookup s (s.pid t)).1 = some t)) ∧
    (∀ t, s.counters.refCounter t =
      ((1 : Nat) : Int) + (if Registered s t then 2 else 0) + (s.lookups.count t : Int)) ∧
    (∀ t, ¬Registered s t → (insert L s t).2.counters.refCounter t =
      s.counters.refCounter t + if (insert L s t).1 then 2 else 0) ∧
    (∀ t, Registered s t → (remove L s t).counters.refCounter t = s.counters.refCounter t - 2) ∧
    (∀ t, (destroy L s).counters.refCounter t =
      s.counters.refCounter t - if Registered s t then 2 else 0) ∧
    (∀ t, Registered s t → 2 ≤ s.counters.refCounter t)) :=
  ⟨.lookup (.insert (.insert .init (by decide)) (by decide)), by decide, by decide, by decide,
    taskTable_registration_sound _ _ (.lookup (.insert (.insert .init (by decide)) (by decide)))⟩

/-- `Remove` leaves the removed task's `Pid` in place: register task `0`, remove
it, and register task `1`, which takes the freed pid `0`. Task `0` is then
unregistered but still carries pid `0`, the pid of task `1`, and `Lookup`
through it reaches task `1`. -/
theorem remove_keeps_stale_pid :
    let L : Layout Nat := ⟨1, id, 2, 18446744073709551615, by decide, by decide⟩
    let s := (insert L (remove L (insert L (init L fun _ => 1) 0).2 0) 1).2
    Reachable L (fun _ => 1) s ∧ ¬Registered s 0 ∧ s.pid 0 = 0 ∧ s.pid 1 = 0 ∧
      s.pid 0 ≠ L.invalidObjectId ∧ (lookup s (s.pid 0)).1 = some 1 := by
  intro L s
  refine ⟨.insert (.remove (.insert .init ?_) ?_) ?_, ?_⟩ <;> decide

end NosKernel.TaskRegistry
