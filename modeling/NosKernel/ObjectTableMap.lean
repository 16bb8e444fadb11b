import Mathlib.Data.List.GetD
import NosKernel.RefCounting

/-!
The object table of `kernel/object_table.cpp`: a fixed array of slots from an
id to an object. Each call is modelled by its locked section, which the
interleaving model reuses as it is, wrapped in the reference operations the
call makes outside the lock. Read as the spec reads it, the table is a partial
map from the ids below its size to objects; `MapStep` says what each call does
to that map and to the reference counts, and `objectTable_refines_map` shows
that every sequence of calls from a fresh table does exactly that.
-/

namespace NosKernel.ObjectTableMap

open NosKernel.RefCounting

/-- `ObjectTable`: the slots of `ObjectArray`, `none` standing for `nullptr`. -/
structure ObjectTable (α : Type) where
  objectArray : List (Option α)

variable {α : Type}

namespace ObjectTable

/-- `ObjectTable::ObjectTable`: all `size` slots null. -/
def fresh (size : Nat) : ObjectTable α := ⟨List.replicate size none⟩

/-- `Stdlib::ArraySize(ObjectArray)`. -/
def size (t : ObjectTable α) : Nat := t.objectArray.length

/-- `ObjectArray[objectId]`, null past the end. -/
def slot (t : ObjectTable α) (objectId : Nat) : Option α :=
  t.objectArray.getD objectId none

/-- `ObjectArray[objectId] = v`. -/
def setSlot (t : ObjectTable α) (objectId : Nat) (v : Option α) : ObjectTable α :=
  ⟨t.objectArray.set objectId v⟩

@[simp] theorem size_fresh (size : Nat) : (fresh size : ObjectTable α).size = size := by
  simp [fresh, ObjectTable.size]

@[simp] theorem slot_fresh (size objectId : Nat) :
    (fresh size : ObjectTable α).slot objectId = none := by
  simp only [fresh, slot, List.getD_eq_getElem?_getD, List.getElem?_replicate]
  split <;> rfl

@[simp] theorem size_setSlot (t : ObjectTable α) (objectId : Nat) (v : Option α) :
    (t.setSlot objectId v).size = t.size := by
  simp [setSlot, ObjectTable.size]

theorem slot_eq_none_of_le {t : ObjectTable α} {objectId : Nat} (h : t.size ≤ objectId) :
    t.slot objectId = none := by
  simp [slot, ObjectTable.size, List.getD_eq_getElem?_getD, List.getElem?_eq_none h] at *

theorem lt_size_of_slot_eq_some {t : ObjectTable α} {i : Nat} {o : α}
    (h : t.slot i = some o) : i < t.size := by
  by_contra hle
  rw [slot_eq_none_of_le (Nat.le_of_not_lt hle)] at h
  cases h

theorem slot_eq_getElem {t : ObjectTable α} {i : Nat} (h : i < t.size) :
    t.slot i = t.objectArray[i] :=
  List.getD_eq_getElem _ _ h

theorem count_pos_of_slot [DecidableEq α] {t : ObjectTable α} {i : Nat} {x : Option α}
    (h : t.slot i = x) (hx : x.isSome) : 0 < t.objectArray.count x := by
  have hi : i < t.size := by
    by_contra hle
    rw [slot_eq_none_of_le (Nat.le_of_not_lt hle)] at h
    simp [← h] at hx
  rw [← h, slot_eq_getElem hi]
  exact List.count_pos_iff.mpr (List.getElem_mem hi)

theorem count_setSlot [DecidableEq α] {t : ObjectTable α} {i : Nat} (h : i < t.size)
    (v x : Option α) :
    (t.setSlot i v).objectArray.count x + (if t.slot i = x then 1 else 0) =
      t.objectArray.count x + (if v = x then 1 else 0) := by
  have hle := List.boole_getElem_le_countP (· == x) t.objectArray i h
  rw [setSlot, List.count_set _ _ _ _ h, slot_eq_getElem h, List.count_eq_countP]
  simp only [beq_iff_eq] at hle ⊢
  omega

theorem slot_setSlot (t : ObjectTable α) (i j : Nat) (v : Option α) :
    (t.setSlot i v).slot j = if i = j ∧ i < t.size then v else t.slot j := by
  simp only [slot, setSlot, ObjectTable.size, List.getD_eq_getElem?_getD, List.getElem?_set]
  by_cases hij : i = j
  · subst hij
    by_cases hi : i < t.objectArray.length
    · simp [hi]
    · simp [hi, List.getElem?_eq_none (Nat.le_of_not_lt hi)]
  · simp [hij]

end ObjectTable

/-- The scan of `ObjectTable::Insert`: the index of the first null slot. -/
def firstNull : List (Option α) → Option Nat
  | [] => none
  | none :: _ => some 0
  | some _ :: rest => (firstNull rest).map (· + 1)

theorem firstNull_eq_some {l : List (Option α)} {i : Nat} (h : firstNull l = some i) :
    i < l.length ∧ l.getD i none = none ∧ ∀ j < i, l.getD j none ≠ none := by
  induction l generalizing i with
  | nil => simp [firstNull] at h
  | cons x l ih =>
      cases x with
      | none =>
          simp only [firstNull, Option.some.injEq] at h
          subst h
          simp
      | some a =>
          simp only [firstNull, Option.map_eq_some'] at h
          obtain ⟨k, hk, rfl⟩ := h
          obtain ⟨hlt, hnull, hleast⟩ := ih hk
          refine ⟨by simpa using hlt, by simpa using hnull, fun j hj => ?_⟩
          cases j with
          | zero => simp
          | succ j => simpa using hleast j (by omega)

theorem firstNull_eq_none {l : List (Option α)} (h : firstNull l = none) :
    ∀ j < l.length, l.getD j none ≠ none := by
  induction l with
  | nil => simp
  | cons x l ih =>
      cases x with
      | none => simp [firstNull] at h
      | some a =>
          simp only [firstNull, Option.map_eq_none'] at h
          intro j hj
          cases j with
          | zero => simp
          | succ j => simpa using ih h j (by simpa using hj)

/-- The locked section of `ObjectTable::Insert`: store the object in the first
null slot and return its index. -/
def insertLocked (t : ObjectTable α) (o : α) : Option (Nat × ObjectTable α) :=
  (firstNull t.objectArray).map fun objectId => (objectId, t.setSlot objectId (some o))

/-- The locked section of `ObjectTable::Remove`: read the slot and null it. -/
def removeLocked (t : ObjectTable α) (objectId : Nat) : Option α × ObjectTable α :=
  (t.slot objectId, t.setSlot objectId none)

theorem insertLocked_eq_some {t : ObjectTable α} {o : α} {objectId : Nat}
    {t' : ObjectTable α} (h : insertLocked t o = some (objectId, t')) :
    objectId < t.size ∧ t.slot objectId = none ∧ (∀ j < objectId, t.slot j ≠ none) ∧
      t' = t.setSlot objectId (some o) := by
  simp only [insertLocked, Option.map_eq_some', Prod.mk.injEq] at h
  obtain ⟨i, hi, rfl, rfl⟩ := h
  exact ⟨(firstNull_eq_some hi).1, (firstNull_eq_some hi).2.1, (firstNull_eq_some hi).2.2, rfl⟩

theorem insertLocked_eq_none {t : ObjectTable α} {o : α} (h : insertLocked t o = none) :
    ∀ j < t.size, t.slot j ≠ none := by
  simp only [insertLocked, Option.map_eq_none'] at h
  exact firstNull_eq_none h

theorem slot_setSlot_eq_update {t : ObjectTable α} {i : Nat} (h : i < t.size) (v : Option α) :
    (t.setSlot i v).slot = Function.update t.slot i v := by
  funext j
  rw [ObjectTable.slot_setSlot, Function.update_apply]
  by_cases hij : j = i
  · simp [hij, h]
  · simp [hij, Ne.symm hij]

variable [DecidableEq α]

/-- `ObjectTable::Insert`: `object->Get()`, the locked scan, and on a full table
`object->Put()` and `InvalidObjectId`. -/
def insert (InvalidObjectId : Nat) (t : ObjectTable α) (c : Counters α) (o : α) :
    Nat × ObjectTable α × Counters α :=
  match insertLocked t o with
  | some (objectId, t') => (objectId, t', c.get o)
  | none => (InvalidObjectId, t, (c.get o).put o)

/-- `ObjectTable::Remove`: ids past the end are ignored; the reference the slot
held is dropped after the lock is released. -/
def remove (t : ObjectTable α) (c : Counters α) (objectId : Nat) :
    ObjectTable α × Counters α :=
  if t.size ≤ objectId then (t, c)
  else
    match removeLocked t objectId with
    | (some o, t') => (t', c.put o)
    | (none, t') => (t', c)

/-- `ObjectTable::Lookup`: the reference is taken under the lock, before the
object is returned. -/
def lookup (t : ObjectTable α) (c : Counters α) (objectId : Nat) : Option α × Counters α :=
  if t.size ≤ objectId then (none, c)
  else
    match t.slot objectId with
    | some o => (some o, c.get o)
    | none => (none, c)

theorem insert_of_insertLocked_some {InvalidObjectId : Nat} {t t' : ObjectTable α}
    {c : Counters α} {o : α} {i : Nat} (h : insertLocked t o = some (i, t')) :
    insert InvalidObjectId t c o = (i, t', c.get o) := by
  simp [insert, h]

theorem insert_of_insertLocked_none {InvalidObjectId : Nat} {t : ObjectTable α}
    {c : Counters α} {o : α} (h : insertLocked t o = none) :
    insert InvalidObjectId t c o = (InvalidObjectId, t, (c.get o).put o) := by
  simp [insert, h]

theorem remove_of_slot_some {t : ObjectTable α} {c : Counters α} {i : Nat} {o : α}
    (h : t.slot i = some o) : remove t c i = (t.setSlot i none, c.put o) := by
  have hlt : ¬t.size ≤ i := Nat.not_le_of_lt (ObjectTable.lt_size_of_slot_eq_some h)
  simp [remove, hlt, removeLocked, h]

theorem lookup_eq_slot (t : ObjectTable α) (c : Counters α) (i : Nat) :
    lookup t c i = (t.slot i, match t.slot i with
      | some o => c.get o
      | none => c) := by
  by_cases hle : t.size ≤ i
  · simp [lookup, hle, ObjectTable.slot_eq_none_of_le hle]
  · simp only [lookup, hle, if_false]
    cases t.slot i <;> rfl

theorem count_filterMap_id (l : List (Option α)) (o : α) :
    (l.filterMap id).count o = l.count (some o) := by
  induction l with
  | nil => rfl
  | cons x l ih =>
      cases x with
      | none => simpa using ih
      | some a => by_cases h : a = o <;> simp [List.count_cons, h, ih]

/-- `ObjectTable::~ObjectTable`: null every slot and drop the reference it held. -/
def destroy (t : ObjectTable α) (c : Counters α) : ObjectTable α × Counters α :=
  (ObjectTable.fresh t.size, (t.objectArray.filterMap id).foldl Counters.put c)

/-! ### The partial map the table stands for -/

/-- A call of the table. -/
inductive Op (α : Type)
  | insert (o : α)
  | remove (objectId : Nat)
  | lookup (objectId : Nat)

/-- What a call returns. -/
inductive Ret (α : Type)
  | objectId (id : Nat)
  | done
  | object (o : Option α)

/-- The table and the reference counts as the spec reads them: a partial map
from ids to objects, and the count of every object. -/
structure MapState (α : Type) where
  map : Nat → Option α
  refs : α → Int

/-- The spec of one call on a table of `N` slots: `Insert` fills the least free
id and takes a reference, or on a full map returns `InvalidObjectId` and
changes nothing; `Remove` deletes an id in the map and drops the reference;
`Lookup` returns the object of an id in the map with a new reference. -/
inductive MapStep (N InvalidObjectId : Nat) :
    MapState α → Op α → Ret α → MapState α → Prop
  | insert {m : MapState α} {o : α} {i : Nat} (hlt : i < N) (hfree : m.map i = none)
      (hleast : ∀ j < i, m.map j ≠ none) :
      MapStep N InvalidObjectId m (.insert o) (.objectId i)
        ⟨Function.update m.map i (some o), Function.update m.refs o (m.refs o + 1)⟩
  | insertFull {m : MapState α} {o : α} (hfull : ∀ j < N, m.map j ≠ none) :
      MapStep N InvalidObjectId m (.insert o) (.objectId InvalidObjectId) m
  | remove {m : MapState α} {o : α} {i : Nat} (hlt : i < N) (hin : m.map i = some o) :
      MapStep N InvalidObjectId m (.remove i) .done
        ⟨Function.update m.map i none, Function.update m.refs o (m.refs o - 1)⟩
  | removeAbsent {m : MapState α} {i : Nat} (h : N ≤ i ∨ m.map i = none) :
      MapStep N InvalidObjectId m (.remove i) .done m
  | lookup {m : MapState α} {o : α} {i : Nat} (hlt : i < N) (hin : m.map i = some o) :
      MapStep N InvalidObjectId m (.lookup i) (.object (some o))
        ⟨m.map, Function.update m.refs o (m.refs o + 1)⟩
  | lookupAbsent {m : MapState α} {i : Nat} (h : N ≤ i ∨ m.map i = none) :
      MapStep N InvalidObjectId m (.lookup i) (.object none) m

/-- A sequence of calls read through `MapStep`, with what each returned. -/
inductive MapRun (N InvalidObjectId : Nat) :
    MapState α → List (Op α) → List (Ret α) → MapState α → Prop
  | nil {m : MapState α} : MapRun N InvalidObjectId m [] [] m
  | cons {m m' m'' : MapState α} {op : Op α} {r : Ret α} {ops : List (Op α)}
      {rs : List (Ret α)} :
      MapStep N InvalidObjectId m op r m' → MapRun N InvalidObjectId m' ops rs m'' →
      MapRun N InvalidObjectId m (op :: ops) (r :: rs) m''

/-- The map and the counts that a table and its counters stand for. -/
def toMapState (s : ObjectTable α × Counters α) : MapState α := ⟨s.1.slot, s.2.refCounter⟩

/-- One call on the table and the counters, with what it returns. -/
def exec (InvalidObjectId : Nat) (s : ObjectTable α × Counters α) :
    Op α → Ret α × (ObjectTable α × Counters α)
  | .insert o =>
      let r := insert InvalidObjectId s.1 s.2 o
      (.objectId r.1, r.2)
  | .remove i => (.done, remove s.1 s.2 i)
  | .lookup i =>
      let r := lookup s.1 s.2 i
      (.object r.1, (s.1, r.2))

/-- A sequence of calls, with what each returned. -/
def run (InvalidObjectId : Nat) (s : ObjectTable α × Counters α) :
    List (Op α) → List (Ret α) × (ObjectTable α × Counters α)
  | [] => ([], s)
  | op :: ops =>
      let r := exec InvalidObjectId s op
      let rest := run InvalidObjectId r.2 ops
      (r.1 :: rest.1, rest.2)

theorem exec_size (InvalidObjectId : Nat) (s : ObjectTable α × Counters α) (op : Op α) :
    (exec InvalidObjectId s op).2.1.size = s.1.size := by
  obtain ⟨t, c⟩ := s
  cases op with
  | insert o =>
      simp only [exec, insert]
      cases h : insertLocked t o with
      | none => rfl
      | some r =>
          obtain ⟨i, t'⟩ := r
          rw [(insertLocked_eq_some h).2.2.2]
          simp
  | remove i =>
      simp only [exec, remove]
      split
      · rfl
      · cases hi : t.slot i <;> simp [removeLocked, hi]
  | lookup i => rfl

/-- Every call does to the map and the counts what `MapStep` says. -/
theorem exec_mapStep (InvalidObjectId : Nat) (s : ObjectTable α × Counters α) (op : Op α) :
    MapStep s.1.size InvalidObjectId (toMapState s) op (exec InvalidObjectId s op).1
      (toMapState (exec InvalidObjectId s op).2) := by
  obtain ⟨t, c⟩ := s
  cases op with
  | insert o =>
      simp only [exec, insert]
      cases h : insertLocked t o with
      | none =>
          have hrefs : ((c.get o).put o).refCounter = c.refCounter := by
            funext p
            simp
          simpa [toMapState, hrefs] using
            (MapStep.insertFull (insertLocked_eq_none h) : MapStep t.size InvalidObjectId
              (toMapState (t, c)) (.insert o) _ _)
      | some r =>
          obtain ⟨i, t'⟩ := r
          obtain ⟨hlt, hfree, hleast, rfl⟩ := insertLocked_eq_some h
          simpa [toMapState, slot_setSlot_eq_update hlt, Counters.get] using
            (MapStep.insert hlt hfree hleast : MapStep t.size InvalidObjectId
              (toMapState (t, c)) (.insert o) _ _)
  | remove i =>
      simp only [exec, remove]
      by_cases hle : t.size ≤ i
      · simpa [hle] using (MapStep.removeAbsent (Or.inl hle) :
          MapStep t.size InvalidObjectId (toMapState (t, c)) (.remove i) _ _)
      · have hlt : i < t.size := Nat.lt_of_not_le hle
        cases hi : t.slot i with
        | none =>
            have hsame : Function.update t.slot i none = t.slot :=
              Function.update_eq_self_iff.mpr hi.symm
            simpa [hle, removeLocked, hi, toMapState, slot_setSlot_eq_update hlt, hsame] using
              (MapStep.removeAbsent (Or.inr hi) :
                MapStep t.size InvalidObjectId (toMapState (t, c)) (.remove i) _ _)
        | some o =>
            simpa [hle, removeLocked, hi, toMapState, slot_setSlot_eq_update hlt,
              Counters.put] using
              (MapStep.remove hlt hi : MapStep t.size InvalidObjectId
                (toMapState (t, c)) (.remove i) _ _)
  | lookup i =>
      simp only [exec, lookup]
      by_cases hle : t.size ≤ i
      · simpa [hle] using (MapStep.lookupAbsent (Or.inl hle) :
          MapStep t.size InvalidObjectId (toMapState (t, c)) (.lookup i) _ _)
      · cases hi : t.slot i with
        | none =>
            simpa [hle, hi] using (MapStep.lookupAbsent (Or.inr hi) :
              MapStep t.size InvalidObjectId (toMapState (t, c)) (.lookup i) _ _)
        | some o =>
            simpa [hle, hi, toMapState, Counters.get] using
              (MapStep.lookup (Nat.lt_of_not_le hle) hi : MapStep t.size InvalidObjectId
                (toMapState (t, c)) (.lookup i) _ _)

theorem run_mapRun (InvalidObjectId : Nat) (ops : List (Op α))
    (s : ObjectTable α × Counters α) :
    MapRun s.1.size InvalidObjectId (toMapState s) ops (run InvalidObjectId s ops).1
      (toMapState (run InvalidObjectId s ops).2) := by
  induction ops generalizing s with
  | nil => exact .nil
  | cons op ops ih =>
      have hrest := ih (exec InvalidObjectId s op).2
      rw [exec_size] at hrest
      exact .cons (exec_mapStep InvalidObjectId s op) hrest

theorem run_fresh_mapRun (N InvalidObjectId : Nat) (c : Counters α) (ops : List (Op α)) :
    MapRun N InvalidObjectId ⟨fun _ => none, c.refCounter⟩ ops
      (run InvalidObjectId (ObjectTable.fresh N, c) ops).1
      (toMapState (run InvalidObjectId (ObjectTable.fresh N, c) ops).2) := by
  have hinit : toMapState (ObjectTable.fresh N, c) = ⟨fun _ => none, c.refCounter⟩ := by
    simp only [toMapState, MapState.mk.injEq, and_true]
    funext i
    exact ObjectTable.slot_fresh N i
  simpa [hinit] using run_mapRun InvalidObjectId ops (ObjectTable.fresh N, c)

theorem exec_counters_irrel (InvalidObjectId : Nat) (t : ObjectTable α) (c c' : Counters α)
    (op : Op α) : (exec InvalidObjectId (t, c) op).1 = (exec InvalidObjectId (t, c') op).1 ∧
      (exec InvalidObjectId (t, c) op).2.1 = (exec InvalidObjectId (t, c') op).2.1 := by
  cases op with
  | insert o =>
      simp only [exec, insert]
      cases insertLocked t o <;> simp
  | remove i =>
      simp only [exec, remove]
      split
      · simp
      · obtain ⟨o, t'⟩ := removeLocked t i
        cases o <;> simp
  | lookup i =>
      simp only [exec, lookup]
      split
      · simp
      · cases t.slot i <;> simp

theorem run_append (InvalidObjectId : Nat) (s : ObjectTable α × Counters α) (ops : List (Op α))
    (op : Op α) :
    run InvalidObjectId s (ops ++ [op]) =
      ((run InvalidObjectId s ops).1 ++ [(exec InvalidObjectId (run InvalidObjectId s ops).2 op).1],
        (exec InvalidObjectId (run InvalidObjectId s ops).2 op).2) := by
  induction ops generalizing s with
  | nil => rfl
  | cons op' ops ih => simp [run, ih]

end NosKernel.ObjectTableMap
