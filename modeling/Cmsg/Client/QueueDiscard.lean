import Mathlib.Data.List.Flatten
import Mathlib.Data.List.Induction
import Mathlib.Data.List.Nodup
import Mathlib.Order.Basic
import Cmsg.Client.SendQueue
import Cmsg.Transport.Overlay

/-! # Discarding queued messages

Messages to a transport are taken out of a send queue by turning the queue round once: each
entry is popped at the tail and pushed at the head again where it stays. -/
namespace Cmsg.Client
open Cmsg.Base

/-- `cmsg_send_queue_entry`, at its address, with the addresses of its buffer and of its
transport. -/
structure QueueEntry where
  address : Nat
  queueBuffer : Nat
  transport : Nat
  message : SendQueueEntry

/-- The blocks of memory of an entry, in the order in which they are freed. -/
def QueueEntry.blocks (entry : QueueEntry) : List Nat := [entry.queueBuffer, entry.address]

/-- A `GQueue` of messages from its head to its tail. Its length is a `guint`, and each message
has memory of its own. -/
structure SendQueue where
  entries : List QueueEntry
  length_lt : entries.length < word32
  distinct : (entries.flatMap QueueEntry.blocks).Nodup

def SendQueue.empty : SendQueue := ⟨[], by decide, .nil⟩

/-- Two calls of `CMSG_CALLOC` gave the memory of the entry: none of it is in use. -/
structure SendQueue.Fresh (queue : SendQueue) (entry : QueueEntry) : Prop where
  apart : entry.queueBuffer ≠ entry.address
  unused : ∀ e ∈ queue.entries, ∀ block ∈ e.blocks, block ∉ entry.blocks

theorem SendQueue.Fresh.distinct {queue : SendQueue} {entry : QueueEntry}
    (h : queue.Fresh entry) : ((entry :: queue.entries).flatMap QueueEntry.blocks).Nodup := by
  rw [List.flatMap_cons, List.nodup_append']
  refine ⟨by simp [QueueEntry.blocks, h.apart], queue.distinct, fun block hnew hold => ?_⟩
  obtain ⟨e, he, hblock⟩ := List.mem_flatMap.mp hold
  exact h.unused e he block hblock hnew

/-- `cmsg_send_queue_push`, where both allocations succeed. -/
def SendQueue.push (queue : SendQueue) (entry : QueueEntry)
    (hlt : queue.entries.length + 1 < word32) (hfresh : queue.Fresh entry) : SendQueue :=
  { entries := entry :: queue.entries, length_lt := hlt, distinct := hfresh.distinct }

/-- `g_queue_pop_tail` -/
def queuePopTail (queue : List QueueEntry) : Option (QueueEntry × List QueueEntry) :=
  queue.getLast?.map fun entry => (entry, queue.dropLast)

section
variable (transportAt : Nat → Overlay.CmsgTransport) (transport : Nat)
variable (methodName : Option CString) (exact : Bool)

/-- The condition of the loop, which reads the transports at their addresses. -/
def entryFound (entry : QueueEntry) : Bool :=
  (exact && entry.transport == transport ||
    !exact && Overlay.transportCompare (transportAt entry.transport) (transportAt transport)) &&
  methodName.all (entry.message.methodName == ·)

/-- The loop of `_cmsg_send_queue_free_all_by_transport_method`, with the blocks that were freed
so far. -/
def freeLoop : Nat → List QueueEntry × List Nat → List QueueEntry × List Nat
  | 0, r => r
  | i + 1, (queue, freed) =>
    match queuePopTail queue with
    | none => freeLoop i (queue, freed)
    | some (entry, queue) =>
      if entryFound transportAt transport methodName exact entry then
        freeLoop i (queue, freed ++ entry.blocks)
      else freeLoop i (entry :: queue, freed)

/-! ## The loop -/

theorem queuePopTail_append (queue : List QueueEntry) (entry : QueueEntry) :
    queuePopTail (queue ++ [entry]) = some (entry, queue) := by
  simp [queuePopTail]

/-- What was looked at stands at the head, what was not at the tail. -/
theorem freeLoop_append (pending : List QueueEntry) (kept : List QueueEntry) (freed : List Nat) :
    freeLoop transportAt transport methodName exact pending.length (kept ++ pending, freed) =
      (pending.filter (fun e => !entryFound transportAt transport methodName exact e) ++ kept,
        freed ++ (pending.reverse.filter (entryFound transportAt transport methodName exact)).flatMap
          QueueEntry.blocks) := by
  induction pending using List.reverseRecOn generalizing kept freed with
  | nil => simp [freeLoop]
  | append_singleton pending entry ih =>
    rw [List.length_append, List.length_singleton, freeLoop, ← List.append_assoc,
      queuePopTail_append]
    dsimp only
    cases hfound : entryFound transportAt transport methodName exact entry with
    | true =>
      rw [if_pos rfl, ih]
      simp [hfound]
    | false =>
      rw [if_neg Bool.false_ne_true, ← List.cons_append, ih]
      simp [hfound]

/-- The loop for as many entries as there are. -/
theorem freeLoop_eq (queue : List QueueEntry) :
    freeLoop transportAt transport methodName exact queue.length (queue, []) =
      (queue.filter (fun e => !entryFound transportAt transport methodName exact e),
        (queue.reverse.filter (entryFound transportAt transport methodName exact)).flatMap
          QueueEntry.blocks) := by
  have h := freeLoop_append transportAt transport methodName exact queue [] []
  rwa [List.nil_append, List.append_nil, List.nil_append] at h

/-- The loop over a whole queue, whose length is read once. -/
def freeAllLoop (queue : SendQueue) : List QueueEntry × List Nat :=
  freeLoop transportAt transport methodName exact (wrap32 queue.entries.length) (queue.entries, [])

theorem freeAllLoop_eq (queue : SendQueue) :
    freeAllLoop transportAt transport methodName exact queue =
      (queue.entries.filter (fun e => !entryFound transportAt transport methodName exact e),
        (queue.entries.reverse.filter
          (entryFound transportAt transport methodName exact)).flatMap QueueEntry.blocks) := by
  unfold freeAllLoop
  rw [wrap32_of_lt queue.length_lt, freeLoop_eq]

theorem freeAllLoop_sublist (queue : SendQueue) :
    (freeAllLoop transportAt transport methodName exact queue).1.Sublist queue.entries := by
  rw [freeAllLoop_eq]
  exact List.filter_sublist

/-- The blocks that are freed are those of the messages that were found. -/
theorem mem_freeAllLoop {queue : SendQueue} {block : Nat} :
    block ∈ (freeAllLoop transportAt transport methodName exact queue).2 ↔
      ∃ e ∈ queue.entries, entryFound transportAt transport methodName exact e = true ∧
        block ∈ e.blocks := by
  rw [freeAllLoop_eq, List.mem_flatMap]
  refine exists_congr fun e => ?_
  rw [List.mem_filter, List.mem_reverse, and_assoc]

/-- Nothing is freed twice. -/
theorem nodup_freeAllLoop (queue : SendQueue) :
    (freeAllLoop transportAt transport methodName exact queue).2.Nodup := by
  rw [freeAllLoop_eq, List.filter_reverse, ((List.reverse_perm _).flatMap_right _).nodup_iff]
  exact queue.distinct.sublist (List.filter_sublist.flatMap _)

/-- `_cmsg_send_queue_free_all_by_transport_method`: the queue that is left, and the blocks that
were freed. -/
def sendQueueFreeAllByTransportMethod (queue : SendQueue) : SendQueue × List Nat :=
  ({ entries := (freeAllLoop transportAt transport methodName exact queue).1
     length_lt :=
      (freeAllLoop_sublist transportAt transport methodName exact queue).length_le.trans_lt
        queue.length_lt
     distinct :=
      queue.distinct.sublist
        ((freeAllLoop_sublist transportAt transport methodName exact queue).flatMap _) },
    (freeAllLoop transportAt transport methodName exact queue).2)

/-! ## What is discarded -/

/-- The message is for the transport, itself or one that compares to it, and for the method. -/
def Matches (entry : QueueEntry) : Prop :=
  (exact = true ∧ entry.transport = transport ∨ exact = false ∧
    Overlay.transportCompare (transportAt entry.transport) (transportAt transport) = true) ∧
  ∀ name, methodName = some name → entry.message.methodName = name

theorem entryFound_iff (entry : QueueEntry) :
    entryFound transportAt transport methodName exact entry = true ↔
      Matches transportAt transport methodName exact entry := by
  unfold entryFound Matches
  cases exact <;> cases methodName <;> simp

instance : DecidablePred (Matches transportAt transport methodName exact) := fun entry =>
  decidable_of_iff _ (entryFound_iff transportAt transport methodName exact entry)

/-- The messages that do not match are left in their order, the memory of the others is freed
once, and no other memory. -/
structure DiscardsMatching (queue : SendQueue) (r : SendQueue × List Nat) : Prop where
  left : r.1.entries =
    queue.entries.filter fun e => ¬ Matches transportAt transport methodName exact e
  freed : ∀ e ∈ queue.entries, Matches transportAt transport methodName exact e →
    ∀ block ∈ e.blocks, r.2.count block = 1
  notFreed : ∀ block ∈ r.2, ∃ e ∈ queue.entries,
    Matches transportAt transport methodName exact e ∧ block ∈ e.blocks

/-- **Discarding** takes the messages that match out of the queue, and only these. -/
theorem sendQueueFreeAllByTransportMethod_discards (queue : SendQueue) :
    DiscardsMatching transportAt transport methodName exact queue
      (sendQueueFreeAllByTransportMethod transportAt transport methodName exact queue) := by
  have hloop := freeAllLoop_eq transportAt transport methodName exact queue
  have hfound := entryFound_iff transportAt transport methodName exact
  constructor
  · show (freeAllLoop transportAt transport methodName exact queue).1 = _
    rw [hloop]
    refine List.filter_congr fun e _ => ?_
    rw [Bool.eq_iff_iff, decide_eq_true_iff, ← hfound, Bool.not_eq_true', Bool.not_eq_true]
  · intro e he hmatch block hblock
    refine List.count_eq_one_of_mem (nodup_freeAllLoop transportAt transport methodName exact queue) ?_
    exact (mem_freeAllLoop transportAt transport methodName exact).mpr
      ⟨e, he, (hfound e).mpr hmatch, hblock⟩
  · intro block hblock
    obtain ⟨e, he, hmatch, hmem⟩ :=
      (mem_freeAllLoop transportAt transport methodName exact).mp hblock
    exact ⟨e, he, (hfound e).mp hmatch, hmem⟩

end

/-! ## The queue of a client -/

/-- The messages in the order in which the thread that processes the queue takes them. -/
def SendQueue.messages (queue : SendQueue) : List SendQueueEntry :=
  queue.entries.reverse.map (·.message)

/-- What a client's send queue keeps when a message could not be sent: all its messages have one
transport. -/
theorem freeAllByTransport_messages (transportAt : Nat → Overlay.CmsgTransport) (transport : Nat)
    (client : SendClient) {queue : SendQueue}
    (h : ∀ e ∈ queue.entries, Overlay.transportCompare (transportAt e.transport)
      (transportAt transport) = client.comparable) :
    (sendQueueFreeAllByTransportMethod transportAt transport none false queue).1.messages =
      sendQueueFreeAllByTransport client queue.messages := by
  have hloop := sendQueueFreeLoop_append (fun _ => client.comparable) queue.messages []
  rw [List.append_nil, List.nil_append] at hloop
  unfold sendQueueFreeAllByTransport
  rw [hloop]
  show (freeAllLoop transportAt transport none false queue).1.reverse.map (·.message) = _
  rw [freeAllLoop_eq]
  unfold SendQueue.messages
  rw [List.filter_map, ← List.filter_reverse]
  refine congrArg _ (List.filter_congr fun e he => ?_)
  have hcompare := h e (List.mem_reverse.mp he)
  simp [entryFound, hcompare]

section
variable {transportAt : Nat → Overlay.CmsgTransport} {transport : Nat} {client : SendClient}

/-- The queue of a client as its calls leave it, beside the list of messages that `sendStep`
has for it. -/
inductive QueueOf (transportAt : Nat → Overlay.CmsgTransport) (transport : Nat)
    (client : SendClient) : SendQueue → List SendQueueEntry → Prop
  | empty : QueueOf transportAt transport client .empty sendQueueInit.queue
  | push {queue : SendQueue} {messages : List SendQueueEntry} {entry : QueueEntry}
      (h : QueueOf transportAt transport client queue messages)
      (hlt : queue.entries.length + 1 < word32) (hfresh : queue.Fresh entry)
      (htransport : entry.transport = transport) :
      QueueOf transportAt transport client (queue.push entry hlt hfresh)
        (sendQueuePush messages entry.message true).1
  | pop {queue queue' : SendQueue} {messages messages' : List SendQueueEntry}
      {message : SendQueueEntry} {entry : QueueEntry}
      (h : QueueOf transportAt transport client queue messages)
      (hpop : queuePopTail queue.entries = some (entry, queue'.entries))
      (hmessages : messages = message :: messages') :
      QueueOf transportAt transport client queue' messages'
  | freeAll {queue : SendQueue} {messages : List SendQueueEntry}
      (h : QueueOf transportAt transport client queue messages) :
      QueueOf transportAt transport client
        (sendQueueFreeAllByTransportMethod transportAt transport none false queue).1
        (sendQueueFreeAllByTransport client messages)

/-- Every message of a client's queue is for the transport of the client. -/
theorem QueueOf.transport_eq {queue : SendQueue} {messages : List SendQueueEntry}
    (h : QueueOf transportAt transport client queue messages) :
    ∀ e ∈ queue.entries, e.transport = transport := by
  induction h with
  | empty => exact fun _ he => absurd he List.not_mem_nil
  | push _ _ _ htransport ih => exact List.forall_mem_cons.mpr ⟨htransport, ih⟩
  | pop _ hpop _ ih =>
    obtain ⟨_, _, he⟩ := Option.map_eq_some_iff.mp hpop
    intro e hmem
    rw [← (Prod.mk.inj he).2] at hmem
    exact ih e (List.dropLast_subset _ hmem)
  | @freeAll queue _ _ ih =>
    exact fun e he => ih e ((freeAllLoop_sublist _ _ _ _ queue).subset he)

/-- The queue in memory holds the messages that `sendStep` has, in their order. -/
theorem QueueOf.messages_eq (hcompare : Overlay.transportCompare (transportAt transport)
    (transportAt transport) = client.comparable) {queue : SendQueue}
    {messages : List SendQueueEntry} (h : QueueOf transportAt transport client queue messages) :
    queue.messages = messages := by
  induction h with
  | empty => rfl
  | @push queue messages entry _ hlt hfresh _ ih =>
    calc (queue.push entry hlt hfresh).messages
        = (entry :: queue.entries).reverse.map (·.message) := rfl
      _ = queue.messages ++ [entry.message] := by
        rw [List.reverse_cons, List.map_append]
        rfl
      _ = messages ++ [entry.message] := by rw [ih]
  | @pop queue queue' messages messages' message entry _ hpop hmessages ih =>
    obtain ⟨last, hlast, he⟩ := Option.map_eq_some_iff.mp hpop
    obtain ⟨rfl, hrest⟩ := Prod.mk.inj he
    have hentries : queue.entries = queue'.entries ++ [last] := by
      rw [← hrest]
      exact (List.dropLast_append_getLast? last hlast).symm
    have hqueue : queue.messages = last.message :: queue'.messages := by
      unfold SendQueue.messages
      rw [hentries, List.reverse_append]
      rfl
    rw [hqueue, hmessages] at ih
    exact (List.cons.inj ih).2
  | @freeAll queue messages hqueue ih =>
    rw [← ih]
    refine freeAllByTransport_messages transportAt transport client fun e he => ?_
    rw [hqueue.transport_eq e he]
    exact hcompare

end

end Cmsg.Client
