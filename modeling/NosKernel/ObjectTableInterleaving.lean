import NosKernel.ObjectTableMap
import NosKernel.Runs

/-!
Concurrent use of the object table. Any number of CPUs call
`ObjectTable::Insert`, `Remove` and `Lookup` at once, while holders of
references call `Task::Get` and `Task::Put`. The atomic steps are the locked
sections and the reference operations outside them: `Insert` takes its
reference, scans under the lock, and on a full table gives the reference back;
`Remove` nulls the slot under the lock and drops the reference after it;
`Lookup` reads the slot and takes a reference in one locked section.

Every reference held outside the table is a `Frame`, tagged with the point its
holder has reached. `Counted` says that each object's counter is the number of
slots and frames that hold it; it holds in every reachable state, so no
`BugOn` of `Get` or `Put` fires and the release runs once, when the last
reference goes.
-/

namespace NosKernel.ObjectTableInterleaving

open NosKernel.RefCounting NosKernel.ObjectTableMap

/-- A reference held outside the table, with the point its holder has reached:
`holder` for the creator, a `Lookup` result not yet put or any other owner;
`inserting` for an `Insert` between `object->Get()` and its locked scan;
`insertFailed` for an `Insert` whose scan found no null slot, before its
`object->Put()`; `removing` for a `Remove` that nulled the slot holding `o`,
before its `object->Put()`. -/
inductive Frame (α : Type)
  | holder (o : α)
  | inserting (o : α)
  | insertFailed (o : α)
  | removing (o : α)
  deriving DecidableEq

variable {α : Type}

@[simp] def Frame.obj : Frame α → α
  | .holder o | .inserting o | .insertFailed o | .removing o => o

/-- The table, the counters, and the references in flight on all CPUs. The set
of constructed objects and `log`, each call whose locked section has run with
the value the call returns, in the order of the locked sections, are ghost
state. -/
structure Machine (α : Type) where
  table : ObjectTable α
  counters : Counters α
  frames : List (Frame α)
  created : α → Bool
  log : List (Op α × Ret α)

/-- One atomic step of some CPU: `new Task()` (the counter set to one, held by
the creator); `Task::Get` and `Task::Put` by a holder; `object->Get()` at the
start of `Insert`, its locked scan, and its compensating `object->Put()` on a
full table; `Remove` up to the end of its locked section, and its
`object->Put()`; `Lookup`, one locked section. -/
inductive Action (α : Type)
  | new (o : α)
  | get (o : α)
  | put (o : α)
  | insert (o : α)
  | insertScan (o : α)
  | insertPut (o : α)
  | remove (objectId : Nat)
  | removePut (o : α)
  | lookup (objectId : Nat)

variable [DecidableEq α]

/-- The step of an action, or `none` when no CPU is at the point it needs. The
value a call returns is fixed by its locked section: the id the scan stores the
object at, or `InvalidObjectId` when it finds no null slot, which the call
returns after its `Put`; and the object `Lookup` takes a reference on. -/
def step (InvalidObjectId : Nat) (s : Machine α) : Action α → Option (Machine α)
  | .new o =>
      if s.created o then none
      else some { s with counters := s.counters.construct o, frames := .holder o :: s.frames,
                         created := Function.update s.created o true }
  | .get o =>
      if .holder o ∈ s.frames then
        some { s with counters := s.counters.get o, frames := .holder o :: s.frames }
      else none
  | .put o =>
      if .holder o ∈ s.frames then
        some { s with counters := s.counters.put o, frames := s.frames.erase (.holder o) }
      else none
  | .insert o =>
      if .holder o ∈ s.frames then
        some { s with counters := s.counters.get o, frames := .inserting o :: s.frames }
      else none
  | .insertScan o =>
      if .inserting o ∈ s.frames then
        match insertLocked s.table o with
        | some (objectId, t') =>
            some { s with table := t', frames := s.frames.erase (.inserting o),
                          log := s.log ++ [(.insert o, .objectId objectId)] }
        | none =>
            some { s with frames := .insertFailed o :: s.frames.erase (.inserting o),
                          log := s.log ++ [(.insert o, .objectId InvalidObjectId)] }
      else none
  | .insertPut o =>
      if .insertFailed o ∈ s.frames then
        some { s with counters := s.counters.put o, frames := s.frames.erase (.insertFailed o) }
      else none
  | .remove i =>
      if s.table.size ≤ i then some { s with log := s.log ++ [(.remove i, .done)] }
      else
        match removeLocked s.table i with
        | (some o, t') => some { s with table := t', frames := .removing o :: s.frames,
                                        log := s.log ++ [(.remove i, .done)] }
        | (none, t') => some { s with table := t', log := s.log ++ [(.remove i, .done)] }
  | .removePut o =>
      if .removing o ∈ s.frames then
        some { s with counters := s.counters.put o, frames := s.frames.erase (.removing o) }
      else none
  | .lookup i =>
      if s.table.size ≤ i then some { s with log := s.log ++ [(.lookup i, .object none)] }
      else
        match s.table.slot i with
        | some o => some { s with counters := s.counters.get o, frames := .holder o :: s.frames,
                                  log := s.log ++ [(.lookup i, .object (some o))] }
        | none => some { s with log := s.log ++ [(.lookup i, .object none)] }

/-- A fresh table of `N` slots, before any object is constructed. -/
def init (N : Nat) : Machine α :=
  ⟨ObjectTable.fresh N, ⟨fun _ => 0, fun _ => 0, false⟩, [], fun _ => false, []⟩

/-- The states some interleaving of steps reaches from a fresh table. -/
inductive Reachable (N InvalidObjectId : Nat) : Machine α → Prop
  | init : Reachable N InvalidObjectId (init N)
  | step {s s' : Machine α} {a : Action α} : Reachable N InvalidObjectId s →
      step InvalidObjectId s a = some s' → Reachable N InvalidObjectId s'

theorem reachable_foldlM {N InvalidObjectId : Nat} {s : Machine α}
    (h : Reachable N InvalidObjectId s) (as : List (Action α))
    (hrun : (as.foldlM (step InvalidObjectId) s).isSome) :
    Reachable N InvalidObjectId ((as.foldlM (step InvalidObjectId) s).getD s) :=
  Runs.foldlM_getD_induction _ (fun _ _ _ hs hstep => .step hs hstep) as h hrun

/-- The references held on `o`: one per slot holding it, one per frame. -/
def refs (t : ObjectTable α) (fs : List (Frame α)) (o : α) : Nat :=
  t.objectArray.count (some o) + (fs.map Frame.obj).count o

theorem refs_cons (t : ObjectTable α) (fs : List (Frame α)) (f : Frame α) (o : α) :
    refs t (f :: fs) o = refs t fs o + if f.obj = o then 1 else 0 := by
  simp only [refs, List.map_cons, List.count_cons, beq_iff_eq]
  omega

theorem refs_erase {t : ObjectTable α} {fs : List (Frame α)} {f : Frame α} (h : f ∈ fs)
    (o : α) : refs t fs o = refs t (fs.erase f) o + if f.obj = o then 1 else 0 := by
  rw [← refs_cons]
  simp only [refs, ((List.perm_cons_erase h).map Frame.obj).count_eq]

theorem refs_pos_of_frame {t : ObjectTable α} {fs : List (Frame α)} {f : Frame α}
    (h : f ∈ fs) : 0 < refs t fs f.obj := by
  rw [refs_erase h]
  simp

theorem refs_setSlot {t : ObjectTable α} {i : Nat} (h : i < t.size) (v : Option α)
    (fs : List (Frame α)) (o : α) :
    refs (t.setSlot i v) fs o + (if t.slot i = some o then 1 else 0) =
      refs t fs o + if v = some o then 1 else 0 := by
  have := ObjectTable.count_setSlot h v (some o)
  simp only [refs]
  omega

theorem refs_pos_of_slot {t : ObjectTable α} {i : Nat} {o : α} (h : t.slot i = some o)
    (fs : List (Frame α)) : 0 < refs t fs o := by
  have hi : i < t.size := by
    by_contra hle
    rw [ObjectTable.slot_eq_none_of_le (Nat.le_of_not_lt hle)] at h
    cases h
  have hmem : some o ∈ t.objectArray := by
    rw [← h, ObjectTable.slot_eq_getElem hi]
    exact List.getElem_mem hi
  have := List.count_pos_iff.mpr hmem
  simp only [refs]
  omega

/-- The invariant of the interleaving: every object's counter is the number of
references held on it, no `BugOn` has fired, an object has been released once
exactly when it was constructed and no reference is left, and an object not yet
constructed is held nowhere. -/
structure Counted (s : Machine α) : Prop where
  refCounter_eq : ∀ o, s.counters.refCounter o = refs s.table s.frames o
  bugOn_false : s.counters.bugOn = false
  released_eq : ∀ o, s.counters.released o =
    if s.created o = true ∧ refs s.table s.frames o = 0 then 1 else 0
  refs_of_not_created : ∀ o, s.created o = false → refs s.table s.frames o = 0

theorem counted_init (N : Nat) : Counted (init N : Machine α) := by
  have hrefs : ∀ o, refs (ObjectTable.fresh N : ObjectTable α) [] o = 0 := by
    intro o
    simp [refs, init, ObjectTable.fresh, List.count_replicate]
  exact ⟨fun o => by simp [init, hrefs o], rfl, fun o => by simp [init], fun o _ => hrefs o⟩

variable {s s' : Machine α} {o : α}

theorem Counted.of_get (hc : Counted s) (hpos : 0 < refs s.table s.frames o)
    (hrefs : ∀ p, refs s'.table s'.frames p = refs s.table s.frames p + if o = p then 1 else 0)
    (hcnt : s'.counters = s.counters.get o) (hcr : s'.created = s.created) : Counted s' := by
  refine ⟨fun p => ?_, ?_, fun p => ?_, fun p hp => ?_⟩
  · by_cases hp : o = p
    · subst hp
      simp [hcnt, hc.refCounter_eq, hrefs]
    · simp [hcnt, hc.refCounter_eq, hrefs, hp, Ne.symm hp]
  · simp only [hcnt, Counters.get_bugOn, hc.bugOn_false, hc.refCounter_eq]
    simp only [Bool.false_or, decide_eq_false_iff_not, not_le]
    omega
  · by_cases hp : o = p
    · subst hp
      simp [hcnt, hc.released_eq, hrefs, Nat.pos_iff_ne_zero.mp hpos]
    · simp [hcnt, hc.released_eq, hrefs, hcr, hp]
  · have h0 := hc.refs_of_not_created p (hcr ▸ hp)
    have hop : o ≠ p := fun h => by subst h; omega
    simp [hrefs, h0, hop]

theorem Counted.of_put (hc : Counted s) (hpos : 0 < refs s.table s.frames o)
    (hrefs : ∀ p, refs s.table s.frames p = refs s'.table s'.frames p + if o = p then 1 else 0)
    (hcnt : s'.counters = s.counters.put o) (hcr : s'.created = s.created) : Counted s' := by
  have hcreated : s.created o = true := by
    by_contra hn
    have := hc.refs_of_not_created o (by simpa using hn)
    omega
  refine ⟨fun p => ?_, ?_, fun p => ?_, fun p hp => ?_⟩
  · have := hrefs p
    by_cases hp : o = p
    · subst hp
      simp only [hcnt, Counters.put_refCounter, hc.refCounter_eq, if_true] at this ⊢
      omega
    · simp [hcnt, hc.refCounter_eq, this, hp, Ne.symm hp]
  · simp only [hcnt, Counters.put_bugOn, hc.bugOn_false, hc.refCounter_eq]
    simp only [Bool.false_or, decide_eq_false_iff_not, not_le]
    omega
  · have := hrefs p
    by_cases hp : o = p
    · subst hp
      simp only [hcnt, Counters.put_released, hc.released_eq, hc.refCounter_eq, hcr, hcreated,
        if_true, true_and] at this ⊢
      split_ifs <;> omega
    · simp [hcnt, hc.released_eq, this, hcr, hp, Ne.symm hp]
  · have hop : o ≠ p := fun h => by subst h; simp [hcr, hcreated] at hp
    have := hrefs p
    simp only [hop, if_false, Nat.add_zero] at this
    rw [← this]
    exact hc.refs_of_not_created p (hcr ▸ hp)

theorem Counted.of_move (hc : Counted s)
    (hrefs : ∀ p, refs s'.table s'.frames p = refs s.table s.frames p)
    (hcnt : s'.counters = s.counters) (hcr : s'.created = s.created) : Counted s' :=
  ⟨fun p => by rw [hcnt, hrefs, hc.refCounter_eq], by rw [hcnt, hc.bugOn_false],
    fun p => by rw [hcnt, hrefs, hcr, hc.released_eq],
    fun p hp => by rw [hrefs]; exact hc.refs_of_not_created p (hcr ▸ hp)⟩

theorem counted_step {InvalidObjectId : Nat} {a : Action α} (hc : Counted s)
    (h : step InvalidObjectId s a = some s') :
    Counted s' := by
  cases a with
  | new o =>
      obtain ⟨hnew, h⟩ := Option.ite_none_left_eq_some.mp h
      cases h
      have hnew : s.created o = false := by simpa using hnew
      have h0 := hc.refs_of_not_created o hnew
      refine ⟨fun p => ?_, hc.bugOn_false, fun p => ?_, fun p hp => ?_⟩
      · by_cases hp : o = p
        · subst hp
          simp [refs_cons, h0]
        · simp [refs_cons, hp, Ne.symm hp, hc.refCounter_eq]
      · by_cases hp : o = p
        · subst hp
          simp [refs_cons, hc.released_eq, h0, hnew]
        · simp [refs_cons, hc.released_eq, hp, Ne.symm hp]
      · have hop : o ≠ p := fun h => by subst h; simp at hp
        simp only [Function.update_apply, Ne.symm hop, if_false] at hp
        simp [refs_cons, hop, hc.refs_of_not_created p hp]
  | get o | insert o =>
      obtain ⟨hmem, h⟩ := Option.ite_none_right_eq_some.mp h
      cases h
      exact hc.of_get (refs_pos_of_frame hmem) (fun p => refs_cons _ _ _ p) rfl rfl
  | put o | insertPut o | removePut o =>
      obtain ⟨hmem, h⟩ := Option.ite_none_right_eq_some.mp h
      cases h
      exact hc.of_put (refs_pos_of_frame hmem) (fun p => refs_erase hmem p) rfl rfl
  | insertScan o =>
      obtain ⟨hmem, h⟩ := Option.ite_none_right_eq_some.mp h
      split at h
      · rename_i i t' heq
        cases h
        obtain ⟨hlt, hfree, -, rfl⟩ := insertLocked_eq_some heq
        refine hc.of_move (fun p => ?_) rfl rfl
        have h1 := refs_setSlot hlt (some o) (s.frames.erase (.inserting o)) p
        have h2 : refs s.table s.frames p = _ + _ := refs_erase hmem p
        simp only [hfree, Option.some.injEq, Frame.obj, reduceCtorEq, if_false,
          Nat.add_zero] at h1 h2
        dsimp only
        omega
      · cases h
        refine hc.of_move (fun p => ?_) rfl rfl
        rw [refs_cons, refs_erase hmem p]
        rfl
  | remove i =>
      simp only [step] at h
      split at h
      · cases h
        exact hc.of_move (fun p => rfl) rfl rfl
      · have hlt := Nat.lt_of_not_le ‹_›
        simp only [removeLocked] at h
        split at h
        · rename_i o t' heq
          obtain ⟨hslot, rfl⟩ := Prod.mk.inj heq
          cases h
          refine hc.of_move (fun p => ?_) rfl rfl
          have h1 := refs_setSlot hlt none s.frames p
          simp only [hslot, Option.some.injEq] at h1
          rw [refs_cons]
          split_ifs at h1 ⊢ <;> simp_all
        · rename_i t' heq
          obtain ⟨hslot, rfl⟩ := Prod.mk.inj heq
          cases h
          exact hc.of_move (fun p => by simpa [hslot] using refs_setSlot hlt none s.frames p)
            rfl rfl
  | lookup i =>
      simp only [step] at h
      split at h
      · cases h
        exact hc.of_move (fun p => rfl) rfl rfl
      · split at h
        · rename_i o hslot
          cases h
          exact hc.of_get (refs_pos_of_slot hslot _) (fun p => refs_cons _ _ _ p) rfl rfl
        · cases h
          exact hc.of_move (fun p => rfl) rfl rfl

variable {N InvalidObjectId : Nat}

theorem Reachable.counted (h : Reachable N InvalidObjectId s) : Counted s := by
  induction h with
  | init => exact counted_init N
  | step _ hstep ih => exact counted_step ih hstep

/-- In every interleaving of table calls and reference operations, on any number
of CPUs: each object's counter is the number of references held on it, one per
slot and one per frame; it is positive while the object is in a slot or held;
no `BugOn` of `Get` or `Put` has fired; and an object has been released exactly
once when it was constructed and its last reference is gone, never otherwise. -/
theorem objectTable_refcount_sound (h : Reachable N InvalidObjectId s) :
    (∀ o, s.counters.refCounter o = refs s.table s.frames o) ∧
    (∀ o, (some o ∈ s.table.objectArray ∨ Frame.holder o ∈ s.frames) →
      0 < s.counters.refCounter o) ∧
    s.counters.bugOn = false ∧
    (∀ o, s.counters.released o =
      if s.created o = true ∧ refs s.table s.frames o = 0 then 1 else 0) := by
  have hc := h.counted
  refine ⟨hc.refCounter_eq, fun o ho => ?_, hc.bugOn_false, hc.released_eq⟩
  have hpos : 0 < refs s.table s.frames o := by
    rcases ho with hslot | hframe
    · have := List.count_pos_iff.mpr hslot
      simp only [refs]
      omega
    · exact refs_pos_of_frame hframe
  rw [hc.refCounter_eq]
  exact Int.ofNat_pos.mpr hpos

theorem objectTable_refcount_sound_release :
    let s := ([.new 0, .insert 0, .insertScan 0, .lookup 0, .put 0, .remove 0, .removePut 0,
      .put 0].foldlM (step 4096) (init 1 : Machine Nat)).getD (init 1)
    Reachable 1 4096 s ∧ s.counters.refCounter 0 = 0 ∧ s.counters.released 0 = 1 ∧
    ((∀ o, s.counters.refCounter o = refs s.table s.frames o) ∧
      (∀ o, (some o ∈ s.table.objectArray ∨ Frame.holder o ∈ s.frames) →
        0 < s.counters.refCounter o) ∧
      s.counters.bugOn = false ∧
      (∀ o, s.counters.released o =
        if s.created o = true ∧ refs s.table s.frames o = 0 then 1 else 0)) :=
  ⟨reachable_foldlM .init _ rfl, by decide, by decide,
    objectTable_refcount_sound (reachable_foldlM .init _ rfl)⟩

/-! ### The map under any interleaving

The slots change only in the locked sections, and each locked section changes
them as the sequential call does and returns what it returns, so every
interleaving is the run of the calls in the order of their locked sections. -/

/-- The call whose locked section an action is. -/
def Action.call : Action α → Option (Op α)
  | .insertScan o => some (.insert o)
  | .remove i => some (.remove i)
  | .lookup i => some (.lookup i)
  | _ => none

theorem step_table_log {a : Action α} (h : step InvalidObjectId s a = some s') :
    match a.call with
    | none => s'.table = s.table ∧ s'.log = s.log
    | some op => s'.table = (exec InvalidObjectId (s.table, s.counters) op).2.1 ∧
        s'.log = s.log ++ [(op, (exec InvalidObjectId (s.table, s.counters) op).1)] := by
  cases a with
  | insertScan o =>
      simp only [step] at h
      split_ifs at h
      simp only [Action.call, exec]
      rcases hl : insertLocked s.table o with _ | ⟨i, t'⟩ <;>
        simp only [hl, Option.some.injEq] at h <;> rw [← h]
      · simp [insert_of_insertLocked_none hl]
      · simp [insert_of_insertLocked_some hl]
  | remove i =>
      simp only [step] at h
      simp only [Action.call, exec, remove]
      split_ifs at h ⊢
      · simp [← Option.some.inj h]
      · rcases hr : removeLocked s.table i with ⟨_ | o, t'⟩ <;>
          simp only [hr, Option.some.injEq] at h ⊢ <;> simp [← h]
  | lookup i =>
      simp only [step] at h
      simp only [Action.call, exec, lookup]
      split_ifs at h ⊢
      · simp [← Option.some.inj h]
      · split at h <;> rename_i heq <;> simp [← Option.some.inj h, heq]
  | _ =>
      simp only [step] at h
      split_ifs at h
      simp [← Option.some.inj h, Action.call]

theorem Reachable.size (h : Reachable N InvalidObjectId s) : s.table.size = N := by
  induction h with
  | init => exact ObjectTable.size_fresh N
  | @step s s' a _ hstep ih =>
      have := step_table_log hstep
      cases hcall : a.call with
      | none => rw [hcall] at this; rw [this.1, ih]
      | some op => rw [hcall] at this; rw [this.1, exec_size, ih]

theorem Reachable.log_run (c : Counters α) (h : Reachable N InvalidObjectId s) :
    (run InvalidObjectId (ObjectTable.fresh N, c) (s.log.map Prod.fst)).1 =
        s.log.map Prod.snd ∧
      (run InvalidObjectId (ObjectTable.fresh N, c) (s.log.map Prod.fst)).2.1 = s.table := by
  induction h with
  | init => exact ⟨rfl, rfl⟩
  | @step s s' a _ hstep ih =>
      have hlog := step_table_log hstep
      cases hcall : a.call with
      | none =>
          rw [hcall] at hlog
          rw [hlog.1, hlog.2]
          exact ih
      | some op =>
          rw [hcall] at hlog
          rw [hlog.1, hlog.2]
          simp only [List.map_append, List.map_cons, List.map_nil]
          rw [run_append]
          obtain ⟨ih1, ih2⟩ := ih
          generalize run InvalidObjectId (ObjectTable.fresh N, c) (s.log.map Prod.fst) = R
            at ih1 ih2 ⊢
          obtain ⟨rs, t, c'⟩ := R
          obtain ⟨hret, htab⟩ := exec_counters_irrel InvalidObjectId s.table c' s.counters op
          subst ih1 ih2
          exact ⟨by rw [← hret], htab⟩

/-- Every sequence of calls on a fresh table of `N` slots behaves as the partial
map of `MapStep`, starting from the empty map. Under any interleaving of calls
and reference operations, the calls in the order of their locked sections,
with the values they return, are a run of `MapStep` from the empty map that
ends at the table's slots; and each step either leaves the slots and the log
alone or is one call of `MapStep`, whose return it appends to the log. -/
theorem objectTable_refines_map (N InvalidObjectId : Nat) (c : Counters α) :
    (∀ ops : List (Op α), MapRun N InvalidObjectId ⟨fun _ => none, c.refCounter⟩ ops
      (run InvalidObjectId (ObjectTable.fresh N, c) ops).1
      (toMapState (run InvalidObjectId (ObjectTable.fresh N, c) ops).2)) ∧
    ∀ s : Machine α, Reachable N InvalidObjectId s →
      (∃ refs : α → Int, MapRun N InvalidObjectId ⟨fun _ => none, c.refCounter⟩
        (s.log.map Prod.fst) (s.log.map Prod.snd) ⟨s.table.slot, refs⟩) ∧
      ∀ a s', step InvalidObjectId s a = some s' → match a.call with
        | none => s'.table = s.table ∧ s'.log = s.log
        | some op => ∃ r refs', s'.log = s.log ++ [(op, r)] ∧ MapStep N InvalidObjectId
            ⟨s.table.slot, s.counters.refCounter⟩ op r ⟨s'.table.slot, refs'⟩ := by
  refine ⟨run_fresh_mapRun N InvalidObjectId c, fun s hs => ⟨?_, fun a s' hstep => ?_⟩⟩
  · obtain ⟨hret, htable⟩ := hs.log_run c
    have hrun := run_fresh_mapRun N InvalidObjectId c (s.log.map Prod.fst)
    rw [hret, toMapState, htable] at hrun
    exact ⟨_, hrun⟩
  · have hlog := step_table_log hstep
    cases hcall : a.call with
    | none => simpa [hcall] using hlog
    | some op =>
        rw [hcall] at hlog
        have hmap := exec_mapStep InvalidObjectId (s.table, s.counters) op
        rw [hs.size] at hmap
        exact ⟨_, _, hlog.2, by simpa [toMapState, hlog.1] using hmap⟩

end NosKernel.ObjectTableInterleaving
