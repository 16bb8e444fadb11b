import Mathlib.Logic.Function.Basic
import Mathlib.Data.List.Count

/-!
Reference counting of kernel objects, after `Task::Get`, `Task::Put` and
`Task::Release` in `kernel/task.cpp`. The store keeps, for every object, its
`RefCounter`, how many times the object has been released (`Release()`
followed by `delete this`), and whether a `BugOn(RefCounter.Get() <= 0)` has
fired.
-/

namespace NosKernel.RefCounting

/-- The reference-count state of all objects of type `α`. -/
structure Counters (α : Type) where
  refCounter : α → Int
  released : α → Nat
  bugOn : Bool

variable {α : Type} [DecidableEq α]

namespace Counters

/-- `Task::Task`: `RefCounter.Set(1)` on a freshly constructed object. -/
def construct (c : Counters α) (o : α) : Counters α :=
  { c with refCounter := Function.update c.refCounter o 1 }

/-- `Task::Get`: `BugOn(RefCounter.Get() <= 0)`, then `RefCounter.Inc()`. -/
def get (c : Counters α) (o : α) : Counters α :=
  { c with
    refCounter := Function.update c.refCounter o (c.refCounter o + 1)
    bugOn := c.bugOn || decide (c.refCounter o ≤ 0) }

/-- `Task::Put`: the same check, then `RefCounter.DecAndTest()`; the object is
released when the counter reaches zero. -/
def put (c : Counters α) (o : α) : Counters α :=
  { refCounter := Function.update c.refCounter o (c.refCounter o - 1)
    released := if c.refCounter o - 1 = 0 then
        Function.update c.released o (c.released o + 1)
      else c.released
    bugOn := c.bugOn || decide (c.refCounter o ≤ 0) }

@[simp] theorem construct_refCounter (c : Counters α) (o p : α) :
    (construct c o).refCounter p = if p = o then 1 else c.refCounter p := by
  by_cases h : p = o <;> simp [construct, h]

@[simp] theorem construct_released (c : Counters α) (o : α) :
    (construct c o).released = c.released := rfl

@[simp] theorem construct_bugOn (c : Counters α) (o : α) :
    (construct c o).bugOn = c.bugOn := rfl

@[simp] theorem get_refCounter (c : Counters α) (o p : α) :
    (get c o).refCounter p = c.refCounter p + if p = o then 1 else 0 := by
  by_cases h : p = o <;> simp [get, h]

@[simp] theorem get_released (c : Counters α) (o : α) :
    (get c o).released = c.released := rfl

@[simp] theorem get_bugOn (c : Counters α) (o : α) :
    (get c o).bugOn = (c.bugOn || decide (c.refCounter o ≤ 0)) := rfl

@[simp] theorem put_refCounter (c : Counters α) (o p : α) :
    (put c o).refCounter p = c.refCounter p - if p = o then 1 else 0 := by
  by_cases h : p = o <;> simp [put, h]

@[simp] theorem put_released (c : Counters α) (o p : α) :
    (put c o).released p =
      c.released p + if p = o ∧ c.refCounter o = 1 then 1 else 0 := by
  by_cases h : p = o
  · subst h
    by_cases h1 : c.refCounter p = 1
    · simp [put, h1]
    · have h2 : c.refCounter p - 1 ≠ 0 := by omega
      simp [put, h1, h2]
  · by_cases h1 : c.refCounter o - 1 = 0 <;> simp [put, h, h1]

@[simp] theorem put_bugOn (c : Counters α) (o : α) :
    (put c o).bugOn = (c.bugOn || decide (c.refCounter o ≤ 0)) := rfl

end Counters

open Counters

theorem foldl_put_refCounter (l : List α) (c : Counters α) (p : α) :
    (l.foldl put c).refCounter p = c.refCounter p - l.count p := by
  induction l generalizing c with
  | nil => simp
  | cons o l ih =>
      rw [List.foldl_cons, ih, put_refCounter, List.count_cons]
      by_cases h : p = o <;> simp [h, Ne.symm, beq_iff_eq]
      omega

end NosKernel.RefCounting
