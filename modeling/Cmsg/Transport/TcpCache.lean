import Mathlib.Data.List.Induction
import Mathlib.Data.List.Nodup

/-! # The cache of TCP connections

The cache tells which addresses are not worth a connection. It has a fixed number of entries,
and its last one is never used. -/
namespace Cmsg.TcpCache

def tcpConnectionCacheSize : Nat := 24

structure TcpConnectionCacheEntry where
  present : Bool
  address : UInt32
  deriving DecidableEq

/-- `tcp_connection_cache`: the entries in use, of those that there is room for. -/
structure TcpConnectionCache where
  entries : List TcpConnectionCacheEntry
  fits : entries.length ≤ tcpConnectionCacheSize

/-- `cmsg_transport_tcp_cache_init`. -/
def tcpCacheInit : TcpConnectionCache := ⟨[], Nat.zero_le _⟩

/-- The loop of `cmsg_transport_tcp_cache_set`: the entries once one of the address is set, if
there is one. -/
def setEntry (address : UInt32) (present : Bool) :
    List TcpConnectionCacheEntry → Option (List TcpConnectionCacheEntry)
  | [] => none
  | entry :: entries =>
    if entry.address = address then some ({ entry with present } :: entries)
    else (setEntry address present entries).map (entry :: ·)

theorem length_setEntry {address : UInt32} {present : Bool}
    {entries entries' : List TcpConnectionCacheEntry}
    (h : setEntry address present entries = some entries') : entries'.length = entries.length := by
  induction entries generalizing entries' with
  | nil => cases h
  | cons entry entries ih =>
    rw [setEntry] at h
    split at h
    · obtain rfl := Option.some.inj h
      rfl
    · obtain ⟨rest, hrest, rfl⟩ := Option.map_eq_some_iff.mp h
      rw [List.length_cons, List.length_cons, ih hrest]

/-- The entries that `cmsg_transport_tcp_cache_set` leaves. -/
def setEntries (address : UInt32) (present : Bool) (entries : List TcpConnectionCacheEntry) :
    List TcpConnectionCacheEntry :=
  match setEntry address present entries with
  | some entries => entries
  | none =>
    if entries.length < tcpConnectionCacheSize - 1 then entries ++ [⟨present, address⟩]
    else entries

theorem setEntries_fits (address : UInt32) (present : Bool)
    {entries : List TcpConnectionCacheEntry} (h : entries.length ≤ tcpConnectionCacheSize) :
    (setEntries address present entries).length ≤ tcpConnectionCacheSize := by
  unfold setEntries
  cases hset : setEntry address present entries with
  | some entries' => exact (length_setEntry hset).symm ▸ h
  | none =>
    dsimp only
    split
    · rw [List.length_append, List.length_singleton]
      unfold tcpConnectionCacheSize at *
      omega
    · exact h

/-- `cmsg_transport_tcp_cache_set`. -/
def tcpCacheSet (cache : TcpConnectionCache) (address : UInt32) (present : Bool) :
    TcpConnectionCache :=
  ⟨setEntries address present cache.entries, setEntries_fits address present cache.fits⟩

/-- `cmsg_transport_tcp_cache_should_connect`. -/
def tcpCacheShouldConnect (cache : TcpConnectionCache) (address : UInt32) : Bool :=
  match cache.entries.find? (·.address = address) with
  | some entry => entry.present
  | none => true

/-! ## The calls -/

/-- The addresses that were set, each with the value. -/
abbrev CacheCalls := List (UInt32 × Bool)

def cacheAfter (calls : CacheCalls) : TcpConnectionCache :=
  calls.foldl (fun cache call => tcpCacheSet cache call.1 call.2) tcpCacheInit

/-- The value that was most recently set for the address. -/
def lastSet (calls : CacheCalls) (address : UInt32) : Option Bool :=
  (calls.reverse.find? (·.1 = address)).map Prod.snd

/-- What a client asks the cache for. -/
def CacheLaw (calls : CacheCalls) : Prop :=
  ∀ address, tcpCacheShouldConnect (cacheAfter calls) address =
    (lastSet calls address).getD true

/-- The addresses in the order in which they were first set. -/
def firstSet (calls : CacheCalls) : List UInt32 :=
  calls.foldl (fun seen call => if call.1 ∈ seen then seen else seen ++ [call.1]) []

/-- The addresses that get an entry. -/
def cachedAddresses (calls : CacheCalls) : List UInt32 :=
  (firstSet calls).take (tcpConnectionCacheSize - 1)

theorem lastSet_snoc (calls : CacheCalls) (a : UInt32) (v : Bool) (b : UInt32) :
    lastSet (calls ++ [(a, v)]) b = if a = b then some v else lastSet calls b := by
  unfold lastSet
  rw [List.reverse_append, List.reverse_singleton, List.singleton_append, List.find?_cons]
  by_cases h : a = b <;> simp [h]

theorem firstSet_snoc (calls : CacheCalls) (a : UInt32) (v : Bool) :
    firstSet (calls ++ [(a, v)]) =
      if a ∈ firstSet calls then firstSet calls else firstSet calls ++ [a] := by
  unfold firstSet
  rw [List.foldl_append, List.foldl_cons, List.foldl_nil]

theorem cacheAfter_snoc (calls : CacheCalls) (a : UInt32) (v : Bool) :
    (cacheAfter (calls ++ [(a, v)])).entries = setEntries a v (cacheAfter calls).entries := by
  unfold cacheAfter
  rw [List.foldl_append]
  rfl

theorem nodup_firstSet (calls : CacheCalls) : (firstSet calls).Nodup := by
  induction calls using List.reverseRecOn with
  | nil => exact List.nodup_nil
  | append_singleton calls call ih =>
    rw [firstSet_snoc]
    split
    · exact ih
    · next hnew =>
      rw [List.nodup_append]
      refine ⟨ih, List.nodup_singleton _, ?_⟩
      intro b hb c hc he
      rw [List.mem_singleton.mp hc] at he
      exact hnew (he ▸ hb)

theorem nodup_cachedAddresses (calls : CacheCalls) : (cachedAddresses calls).Nodup :=
  (nodup_firstSet calls).sublist (List.take_sublist _ _)

theorem cachedAddresses_snoc_of_mem {calls : CacheCalls} {a : UInt32} (h : a ∈ firstSet calls)
    (v : Bool) : cachedAddresses (calls ++ [(a, v)]) = cachedAddresses calls := by
  rw [cachedAddresses, firstSet_snoc, if_pos h, cachedAddresses]

/-- A new address gets an entry while there is room. -/
theorem cachedAddresses_snoc_new {calls : CacheCalls} {a : UInt32} (h : a ∉ firstSet calls)
    (v : Bool) : cachedAddresses (calls ++ [(a, v)]) =
      if (cachedAddresses calls).length < tcpConnectionCacheSize - 1 then cachedAddresses calls ++ [a]
      else cachedAddresses calls := by
  unfold cachedAddresses
  rw [firstSet_snoc, if_neg h, List.length_take]
  by_cases hroom : (firstSet calls).length < tcpConnectionCacheSize - 1
  · have hlong : (firstSet calls ++ [a]).length ≤ tcpConnectionCacheSize - 1 := by
      rw [List.length_append, List.length_singleton]
      omega
    rw [if_pos (by omega), List.take_of_length_le hlong, List.take_of_length_le (by omega)]
  · rw [if_neg (by omega), List.take_append_of_le_length (by omega)]

/-- An address that has no entry came when all entries were taken. -/
theorem cachedAddresses_full {calls : CacheCalls} {a : UInt32} (h : a ∈ firstSet calls)
    (hcached : a ∉ cachedAddresses calls) :
    ¬ (cachedAddresses calls).length < tcpConnectionCacheSize - 1 := by
  intro hlt
  rw [cachedAddresses, List.length_take] at hlt
  rw [cachedAddresses, List.take_of_length_le (by omega)] at hcached
  exact hcached h

/-! ## The entries -/

/-- The entry of an address, given the values. -/
def entryOf (value : UInt32 → Option Bool) (a : UInt32) : TcpConnectionCacheEntry :=
  ⟨(value a).getD true, a⟩

@[simp] theorem address_entryOf (value : UInt32 → Option Bool) (a : UInt32) :
    (entryOf value a).address = a := rfl

theorem setEntry_of_not_mem {value : UInt32 → Option Bool} {addresses : List UInt32} {a : UInt32}
    (h : a ∉ addresses) (v : Bool) : setEntry a v (addresses.map (entryOf value)) = none := by
  induction addresses with
  | nil => rfl
  | cons b addresses ih =>
    rw [List.mem_cons, not_or] at h
    rw [List.map_cons, setEntry, address_entryOf, if_neg (Ne.symm h.1), ih h.2]
    rfl

theorem setEntry_of_mem {value value' : UInt32 → Option Bool} {addresses : List UInt32}
    {a : UInt32} {v : Bool} (hnodup : addresses.Nodup) (h : a ∈ addresses)
    (hset : value' a = some v) (hkeep : ∀ b, b ≠ a → value' b = value b) :
    setEntry a v (addresses.map (entryOf value)) = some (addresses.map (entryOf value')) := by
  induction addresses with
  | nil => cases h
  | cons b addresses ih =>
    obtain ⟨hb, hrest⟩ := List.nodup_cons.mp hnodup
    rw [List.map_cons, List.map_cons, setEntry, address_entryOf]
    by_cases he : b = a
    · subst he
      rw [if_pos rfl]
      have hothers : addresses.map (entryOf value) = addresses.map (entryOf value') := by
        refine List.map_congr_left fun c hc => ?_
        rw [entryOf, entryOf, hkeep c fun he => hb (he ▸ hc)]
      rw [hothers]
      unfold entryOf
      rw [hset]
      rfl
    · rw [if_neg he, ih hrest ((List.mem_cons.mp h).resolve_left (Ne.symm he)), entryOf, entryOf,
        hkeep b he]
      rfl

/-- The entries are those of the addresses that came first, with their last values. -/
theorem entries_cacheAfter (calls : CacheCalls) :
    (cacheAfter calls).entries = (cachedAddresses calls).map (entryOf (lastSet calls)) := by
  induction calls using List.reverseRecOn with
  | nil => rfl
  | append_singleton calls call ih =>
    obtain ⟨a, v⟩ := call
    have hlast : lastSet (calls ++ [(a, v)]) a = some v := by rw [lastSet_snoc, if_pos rfl]
    have hkeep : ∀ b, b ≠ a → lastSet (calls ++ [(a, v)]) b = lastSet calls b := by
      intro b hb
      rw [lastSet_snoc, if_neg (Ne.symm hb)]
    have hsame : ∀ addresses : List UInt32, a ∉ addresses →
        addresses.map (entryOf (lastSet (calls ++ [(a, v)]))) =
          addresses.map (entryOf (lastSet calls)) := by
      intro addresses ha
      refine List.map_congr_left fun b hb => ?_
      rw [entryOf, entryOf, hkeep b fun he => ha (he ▸ hb)]
    rw [cacheAfter_snoc, ih, setEntries]
    by_cases hcached : a ∈ cachedAddresses calls
    · have hmem : a ∈ firstSet calls := List.mem_of_mem_take hcached
      rw [setEntry_of_mem (nodup_cachedAddresses calls) hcached hlast hkeep,
        cachedAddresses_snoc_of_mem hmem]
    · rw [setEntry_of_not_mem hcached]
      dsimp only
      rw [List.length_map, ← hsame _ hcached]
      by_cases hmem : a ∈ firstSet calls
      · rw [if_neg (cachedAddresses_full hmem hcached), cachedAddresses_snoc_of_mem hmem]
      · rw [cachedAddresses_snoc_new hmem]
        split
        · rw [List.map_append, List.map_singleton, entryOf, hlast]
          rfl
        · rfl

/-- The look-up finds the entry of an address that has one. -/
theorem shouldConnect_cacheAfter (calls : CacheCalls) (a : UInt32) :
    tcpCacheShouldConnect (cacheAfter calls) a =
      if a ∈ cachedAddresses calls then (lastSet calls a).getD true else true := by
  unfold tcpCacheShouldConnect
  rw [entries_cacheAfter]
  generalize cachedAddresses calls = addresses
  induction addresses with
  | nil => rfl
  | cons b addresses ih =>
    rw [List.map_cons, List.find?_cons, address_entryOf]
    by_cases he : b = a
    · rw [he, decide_eq_true rfl, if_pos List.mem_cons_self]
      rfl
    · rw [decide_eq_false he]
      dsimp only
      rw [ih]
      simp only [List.mem_cons, Ne.symm he, false_or]

/-- **The cache law** holds exactly when the addresses that came too late for an entry are not
known to be unavailable. -/
theorem cacheLaw_iff (calls : CacheCalls) :
    CacheLaw calls ↔ ∀ a, a ∉ cachedAddresses calls → lastSet calls a ≠ some false := by
  refine forall_congr' fun a => ?_
  rw [shouldConnect_cacheAfter]
  by_cases hcached : a ∈ cachedAddresses calls
  · rw [if_pos hcached]
    exact ⟨fun _ h => absurd hcached h, fun _ => rfl⟩
  · rw [if_neg hcached]
    cases lastSet calls a with
    | none => simp
    | some present => cases present <;> simp [hcached]

/-- The last of 24 addresses is not available. -/
theorem last_address_not_cached :
    let calls : CacheCalls := (List.range 24).map fun i => (UInt32.ofNat i, false)
    (firstSet calls).length ≤ tcpConnectionCacheSize ∧ ¬ CacheLaw calls := by
  refine ⟨by decide, fun h => ?_⟩
  have h := h 23
  revert h
  decide

end Cmsg.TcpCache
