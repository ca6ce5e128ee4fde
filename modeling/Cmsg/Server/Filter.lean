import Cmsg.Base.HashTable
import Cmsg.Server.Service

/-! # The queue filters of a server

`queue_filter_hash_table` holds one entry for every method of the service from
`cmsg_queue_filter_init` on. The entries are rewritten but never added or
removed, which the structure `FilterTable` records. -/
namespace Cmsg.Server
open Cmsg.Base

inductive QueueFilterType
  | process
  | drop
  | queue
  | error
deriving DecidableEq, Repr

inductive QueueState
  | enabled
  | toDisabled
  | disabled
deriving DecidableEq, Repr

/-- The filter hash table of a service with the given method names. -/
structure FilterTable (names : List CString) where
  table : HashTable CString QueueFilterType
  known : ∀ m, (table.lookup m).isSome ↔ m ∈ names

variable {names : List CString}

@[ext] theorem FilterTable.ext {F G : FilterTable names}
    (h : ∀ m, F.table.lookup m = G.table.lookup m) : F = G := by
  obtain ⟨t, _⟩ := F
  obtain ⟨u, _⟩ := G
  have : t = u := HashTable.ext h
  subst this
  rfl

/-- The table after the entries of `ms` have been inserted. -/
def filterInsertAll (ms : List CString) : HashTable CString QueueFilterType :=
  ms.foldl (fun t m => t.insert m .process) .empty

theorem lookup_filterInsertAll (ms : List CString) (m : CString) :
    (filterInsertAll ms).lookup m = if m ∈ ms then some .process else none := by
  have h : ∀ (ms : List CString) (t : HashTable CString QueueFilterType),
      (ms.foldl (fun t m => t.insert m .process) t).lookup m =
        if m ∈ ms then some .process else t.lookup m := by
    intro ms
    induction ms with
    | nil => simp
    | cons a ms ih =>
      intro t
      rw [List.foldl_cons, ih, HashTable.lookup_insert]
      by_cases hm : m ∈ ms <;> by_cases ha : m = a <;> simp [hm, ha]
  rw [filterInsertAll, h, HashTable.lookup_empty]

/-- `cmsg_queue_filter_init` -/
def queueFilterInit (names : List CString) : FilterTable names where
  table := filterInsertAll names
  known m := by
    rw [lookup_filterInsertAll]
    split <;> simp_all

/-- Overwrites the type of an entry that is in the table. -/
def FilterTable.setType (F : FilterTable names) (method : CString) (t : QueueFilterType)
    (h : (F.table.lookup method).isSome) : FilterTable names where
  table := F.table.insert method t
  known m := by
    rw [HashTable.lookup_insert]
    split
    · next he => simpa [he] using (F.known method).mp h
    · exact F.known m

/-- `cmsg_queue_filter_set`; the flag tells `CMSG_RET_OK` from `CMSG_RET_ERR`. -/
def queueFilterSet (F : FilterTable names) (method : CString) (t : QueueFilterType) :
    FilterTable names × Bool :=
  if h : (F.table.lookup method).isSome then (F.setType method t h, true) else (F, false)

/-- `cmsg_queue_filter_clear` -/
def queueFilterClear (F : FilterTable names) (method : CString) : FilterTable names × Bool :=
  queueFilterSet F method .process

/-- `cmsg_queue_filter_set_all`: the loop over the methods of the descriptor. -/
def queueFilterSetAll (F : FilterTable names) (t : QueueFilterType) : FilterTable names :=
  names.foldl (fun F m => (queueFilterSet F m t).1) F

/-- `cmsg_queue_filter_clear_all` -/
def queueFilterClearAll (F : FilterTable names) : FilterTable names :=
  queueFilterSetAll F .process

/-- `cmsg_queue_filter_lookup` -/
def queueFilterLookup (F : FilterTable names) (method : CString) : QueueFilterType :=
  (F.table.lookup method).getD .error

/-- `cmsg_queue_filter_get_type`: the queueing state that the filters ask for. -/
def queueFilterGetType (F : FilterTable names) : QueueState :=
  names.foldl (fun type m => if F.table.lookup m = some .queue then .enabled else type) .disabled

/-! ## What the operations leave in the table -/

theorem lookup_queueFilterSet (F : FilterTable names) (method m : CString) (t : QueueFilterType) :
    (queueFilterSet F method t).1.table.lookup m =
      if m = method ∧ m ∈ names then some t else F.table.lookup m := by
  unfold queueFilterSet
  by_cases h : (F.table.lookup method).isSome
  · have hm := (F.known method).mp h
    rw [dif_pos h]
    simp only [FilterTable.setType, HashTable.lookup_insert]
    by_cases he : m = method
    · subst he
      simp [hm]
    · simp [he]
  · have hm := mt (F.known method).mpr h
    rw [dif_neg h]
    by_cases he : m = method
    · subst he
      simp [hm]
    · simp [he]

theorem lookup_queueFilterSetAll (F : FilterTable names) (t : QueueFilterType) (m : CString) :
    (queueFilterSetAll F t).table.lookup m = if m ∈ names then some t else none := by
  have h : ∀ (ms : List CString) (F : FilterTable names), (∀ a ∈ ms, a ∈ names) →
      (ms.foldl (fun F m => (queueFilterSet F m t).1) F).table.lookup m =
        if m ∈ ms then some t else F.table.lookup m := by
    intro ms
    induction ms with
    | nil => simp
    | cons a ms ih =>
      intro F hsub
      rw [List.foldl_cons, ih _ fun b hb => hsub b (by simp [hb]), lookup_queueFilterSet]
      have ha := hsub a (by simp)
      by_cases hm : m ∈ ms <;> by_cases he : m = a <;> simp_all
  rw [queueFilterSetAll, h names F fun _ h => h]
  by_cases hm : m ∈ names
  · simp [hm]
  · have hn := mt (F.known m).mp hm
    simpa [hm] using hn

theorem queueFilterLookup_eq {F : FilterTable names} {m : CString} {t : QueueFilterType}
    (ht : t ≠ .error) : queueFilterLookup F m = t ↔ F.table.lookup m = some t := by
  unfold queueFilterLookup
  cases h : F.table.lookup m with
  | none => simpa using ht.symm
  | some u => simp

theorem queueFilterLookup_setAll (F : FilterTable names) (t : QueueFilterType) {m : CString}
    (hm : m ∈ names) : queueFilterLookup (queueFilterSetAll F t) m = t := by
  simp [queueFilterLookup, lookup_queueFilterSetAll, hm]

/-- Some method is set to be queued. -/
def FilterTable.Queues (F : FilterTable names) : Prop :=
  ∃ m, F.table.lookup m = some .queue

/-- The filters ask for `ENABLED` when one of them queues, else for `DISABLED`. -/
theorem queueFilterGetType_cases (F : FilterTable names) :
    (F.Queues ∧ queueFilterGetType F = .enabled) ∨
      (¬ F.Queues ∧ queueFilterGetType F = .disabled) := by
  have h : ∀ (ms : List CString) (type : QueueState),
      ms.foldl (fun type m => if F.table.lookup m = some .queue then .enabled else type) type =
        if ∃ m ∈ ms, F.table.lookup m = some .queue then .enabled else type := by
    intro ms
    induction ms with
    | nil => simp
    | cons a ms ih =>
      intro type
      rw [List.foldl_cons, ih]
      by_cases ha : F.table.lookup a = some .queue <;> simp [ha]
  rw [queueFilterGetType, h]
  by_cases hq : ∃ m ∈ names, F.table.lookup m = some .queue
  · obtain ⟨m, hm, hl⟩ := hq
    exact .inl ⟨⟨m, hl⟩, if_pos ⟨m, hm, hl⟩⟩
  · refine .inr ⟨?_, if_neg hq⟩
    rintro ⟨m, hl⟩
    exact hq ⟨m, (F.known m).mp (by simp [hl]), hl⟩

/-- Setting the filter of `method` to `t` leaves some method queued: this one, or
one that already is. -/
def FilterTable.KeepsQueue (F : FilterTable names) (method : CString) (t : QueueFilterType) : Prop :=
  (t = .queue ∧ method ∈ names) ∨ ∃ m, m ≠ method ∧ F.table.lookup m = some .queue

theorem queues_queueFilterSet (F : FilterTable names) (method : CString) (t : QueueFilterType) :
    (queueFilterSet F method t).1.Queues ↔ F.KeepsQueue method t := by
  constructor
  · rintro ⟨m, hm⟩
    rw [lookup_queueFilterSet] at hm
    split at hm
    · next h => exact .inl ⟨Option.some.inj hm, h.1 ▸ h.2⟩
    · next h =>
      refine .inr ⟨m, fun he => h ⟨he, ?_⟩, hm⟩
      exact (F.known m).mp (by simp [hm])
  · rintro (⟨rfl, hm⟩ | ⟨m, hne, hm⟩)
    · exact ⟨method, by simp [lookup_queueFilterSet, hm]⟩
    · exact ⟨m, by simp [lookup_queueFilterSet, hne, hm]⟩

theorem not_queues_setAll (F : FilterTable names) {t : QueueFilterType} (ht : t ≠ .queue) :
    ¬ (queueFilterSetAll F t).Queues := by
  rintro ⟨m, hm⟩
  rw [lookup_queueFilterSetAll] at hm
  split at hm
  · exact ht (Option.some.inj hm)
  · cases hm

end Cmsg.Server
