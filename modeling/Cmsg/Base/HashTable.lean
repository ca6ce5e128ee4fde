import Mathlib.Logic.Function.Basic

/-! # Hash tables by their lookups

A hash table is modelled by what a lookup returns for every key. Iteration
over a table has no order of its own, so the bulk operations act on each entry
separately: `foreach` rewrites every value, `foreachRemove` drops the entries
that meet a test. -/
namespace Cmsg.Base

variable {κ α β : Type _}

/-- A hash table, given by its lookup function. -/
structure HashTable (κ α : Type _) where
  lookup : κ → Option α

namespace HashTable

@[ext] theorem ext {t u : HashTable κ α} (h : ∀ k, t.lookup k = u.lookup k) : t = u := by
  cases t; cases u; simpa using funext h

/-- The table without entries. -/
def empty : HashTable κ α := ⟨fun _ => none⟩

/-- Rewrites every value of the table. -/
def foreach (f : κ → α → β) (t : HashTable κ α) : HashTable κ β :=
  ⟨fun k => (t.lookup k).map (f k)⟩

/-- Drops the entries that meet the test. -/
def foreachRemove (p : κ → α → Bool) (t : HashTable κ α) : HashTable κ α :=
  ⟨fun k => (t.lookup k).filter fun a => !p k a⟩

@[simp] theorem lookup_empty (k : κ) : (empty : HashTable κ α).lookup k = none := rfl

@[simp] theorem lookup_foreach (f : κ → α → β) (t : HashTable κ α) (k : κ) :
    (t.foreach f).lookup k = (t.lookup k).map (f k) := rfl

@[simp] theorem lookup_foreachRemove (p : κ → α → Bool) (t : HashTable κ α) (k : κ) :
    (t.foreachRemove p).lookup k = (t.lookup k).filter fun a => !p k a := rfl

variable [DecidableEq κ]

/-- Sets the value under a key. -/
def insert (t : HashTable κ α) (k : κ) (a : α) : HashTable κ α :=
  ⟨fun j => if j = k then some a else t.lookup j⟩

/-- Drops the entry of a key, if there is one. -/
def remove (t : HashTable κ α) (k : κ) : HashTable κ α :=
  ⟨fun j => if j = k then none else t.lookup j⟩

theorem lookup_insert (t : HashTable κ α) (k j : κ) (a : α) :
    (t.insert k a).lookup j = if j = k then some a else t.lookup j := rfl

theorem lookup_remove (t : HashTable κ α) (k j : κ) :
    (t.remove k).lookup j = if j = k then none else t.lookup j := rfl

@[simp] theorem lookup_insert_self (t : HashTable κ α) (k : κ) (a : α) :
    (t.insert k a).lookup k = some a := by
  simp [lookup_insert]

@[simp] theorem lookup_insert_of_ne (t : HashTable κ α) {k j : κ} (h : j ≠ k) (a : α) :
    (t.insert k a).lookup j = t.lookup j := by
  simp [lookup_insert, h]

@[simp] theorem lookup_remove_self (t : HashTable κ α) (k : κ) :
    (t.remove k).lookup k = none := by
  simp [lookup_remove]

@[simp] theorem lookup_remove_of_ne (t : HashTable κ α) {k j : κ} (h : j ≠ k) :
    (t.remove k).lookup j = t.lookup j := by
  simp [lookup_remove, h]

end HashTable
end Cmsg.Base
