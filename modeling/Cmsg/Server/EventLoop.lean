import Mathlib.Data.List.Nodup
import Cmsg.Base.Runs

/-! # Servers in an event loop

The accept thread of a server and the callbacks with which `cmsg_glib_helpers.c`
and `cmsg_liboop_helpers.c` watch its sockets, one access to shared state at a
time. The thread hands sockets over through a queue and an eventfd; the loop keeps
the sockets that it watches in a hash table. Descriptors are given out again once
they are closed, also while the loop is between closing one and forgetting it.
The model ends where the server is destroyed. What a glib server that was not stopped
watches then stays attached to its context, which would call back with the server. -/
namespace Cmsg.Server
open Cmsg.Base.Runs

/-- Which of the two helpers runs the server. -/
inductive LoopHelper
  | glib
  | liboop
deriving DecidableEq, Repr

/-- Where `cmsg_server_accept_thread` is. It can only be cancelled in `poll`. -/
inductive AcceptPoint
  | polling
  /-- it has accepted a socket -/
  | accepted (newfd : Nat)
  /-- it has put it in the queue -/
  | pushed
  | cancelled
deriving DecidableEq, Repr

/-- Where the thread of the loop is. -/
inductive LoopPoint
  | waiting
  /-- in `cmsg_glib_server_accepted`, the notification being cleared -/
  | accepting
  /-- in `cmsg_glib_server_read`, which closes before it removes -/
  | closed (sd : Nat)
  /-- in `cmsg_liboop_server_read`, which removes before it closes -/
  | removed (sd : Nat)
  /-- in `g_hash_table_foreach_remove` -/
  | stopping
  | stopped
  /-- in `cmsg_server_accept_thread_deinit`, the thread being joined -/
  | freeing
  | destroyed
deriving DecidableEq, Repr

structure EventLoop where
  acceptSdEventfd : Nat
  acceptSdQueue : List Nat
  /-- the counter of the eventfd -/
  counter : Nat
  /-- the keys of the hash table: every descriptor with a source -/
  sockets : List Nat
  /-- the descriptors of the server that are open -/
  descriptors : List Nat
  thread : AcceptPoint
  loop : LoopPoint
  /-- a descriptor was read from or closed that is not an open one of the server,
  or a source was put in the place of another -/
  fault : Bool
deriving DecidableEq, Repr

inductive LoopInput
  /-- `cmsg_server_accept` returns a descriptor -/
  | accept (newfd : Nat)
  | push
  | notify
  /-- the source of the eventfd is dispatched -/
  | accepted
  /-- the next `g_async_queue_try_pop` -/
  | pop
  /-- the source of a socket is dispatched; `cmsg_server_receive` fails or not -/
  | read (sd : Nat) (fails : Bool)
  /-- the rest of the callback for a socket that failed -/
  | finish
  /-- `cmsg_glib_server_processing_stop` -/
  | stop
  /-- the entry that `g_hash_table_foreach_remove` comes to next -/
  | clear (sd : Nat)
  | cleared
  /-- `cmsg_server_accept_thread_deinit` -/
  | deinit
  /-- `_clear_accept_sd_queue` for the next entry -/
  | free
  | freed
deriving DecidableEq, Repr

/-- What becomes of a socket: it is accepted, and then it gets a source or is
closed with the queue. -/
inductive SocketFate
  | accepted
  | watched
  | freed
deriving DecidableEq, Repr

structure LoopOutput where
  fate : SocketFate
  fd : Nat
deriving DecidableEq, Repr

namespace EventLoop

/-- After `cmsg_server_accept_thread_init` and `_cmsg_glib_server_processing_start`. -/
def start (acceptSdEventfd : Nat) : EventLoop where
  acceptSdEventfd
  acceptSdQueue := []
  counter := 0
  sockets := [acceptSdEventfd]
  descriptors := [acceptSdEventfd]
  thread := .polling
  loop := .waiting
  fault := false

/-- `close`, as `cmsg_server_close_accepted_socket` and others use it. -/
def close (s : EventLoop) (fd : Nat) : EventLoop :=
  { s with
    descriptors := s.descriptors.erase fd
    fault := s.fault || decide (fd ∉ s.descriptors) }

/-- `g_hash_table_insert` of a descriptor and its new source. -/
def insert (s : EventLoop) (fd : Nat) : EventLoop :=
  { s with
    sockets := fd :: s.sockets.erase fd
    fault := s.fault || decide (fd ∈ s.sockets) }

/-- `g_hash_table_remove` -/
def remove (s : EventLoop) (fd : Nat) : EventLoop := { s with sockets := s.sockets.erase fd }

/-- `cmsg_server_receive` on a socket. -/
def receive (s : EventLoop) (fd : Nat) : EventLoop :=
  { s with fault := s.fault || decide (fd ∉ s.descriptors) }

/-- What the helper does first with a socket that failed. -/
def beginClose (helper : LoopHelper) (s : EventLoop) (sd : Nat) : EventLoop :=
  match helper with
  | .glib => { s.close sd with loop := .closed sd }
  | .liboop => { s.remove sd with loop := .removed sd }

/-- Only `cmsg_glib_subscriber_deinit` ends the accept thread of a server whose
processing was not stopped before. -/
def canDeinit (helper : LoopHelper) (s : EventLoop) : Bool :=
  s.loop == .stopped || (helper == .glib && s.loop == .waiting)

/-- One access of the accept thread or of the loop. -/
def step (helper : LoopHelper) : Machine EventLoop LoopInput LoopOutput
  | s, .accept newfd =>
    if s.thread = .polling ∧ newfd ∉ s.descriptors then
      some ({ s with thread := .accepted newfd, descriptors := newfd :: s.descriptors },
        [⟨.accepted, newfd⟩])
    else none
  | s, .push =>
    match s.thread with
    | .accepted newfd =>
      some ({ s with thread := .pushed, acceptSdQueue := s.acceptSdQueue ++ [newfd] }, [])
    | _ => none
  | s, .notify =>
    if s.thread = .pushed then some ({ s with thread := .polling, counter := s.counter + 1 }, [])
    else none
  | s, .accepted =>
    if s.loop = .waiting ∧ 0 < s.counter ∧ s.acceptSdEventfd ∈ s.sockets then
      some ({ s with loop := .accepting, counter := 0 }, [])
    else none
  | s, .pop =>
    if s.loop = .accepting then
      match s.acceptSdQueue with
      | [] => some ({ s with loop := .waiting }, [])
      | newfd :: queue => some ({ s with acceptSdQueue := queue }.insert newfd, [⟨.watched, newfd⟩])
    else none
  | s, .read sd fails =>
    if s.loop = .waiting ∧ sd ∈ s.sockets ∧ sd ≠ s.acceptSdEventfd then
      some (if fails then beginClose helper (s.receive sd) sd else s.receive sd, [])
    else none
  | s, .finish =>
    match s.loop with
    | .closed sd => some ({ s.remove sd with loop := .waiting }, [])
    | .removed sd => some ({ s.close sd with loop := .waiting }, [])
    | _ => none
  | s, .stop => if s.loop = .waiting then some ({ s with loop := .stopping }, []) else none
  | s, .clear sd =>
    if s.loop = .stopping ∧ sd ∈ s.sockets then
      some (if sd = s.acceptSdEventfd then s.remove sd else (s.remove sd).close sd, [])
    else none
  | s, .cleared =>
    if s.loop = .stopping ∧ s.sockets = [] then some ({ s with loop := .stopped }, []) else none
  | s, .deinit =>
    if s.thread = .polling ∧ canDeinit helper s = true then
      some ({ s.close s.acceptSdEventfd with thread := .cancelled, loop := .freeing }, [])
    else none
  | s, .free =>
    match s.loop, s.acceptSdQueue with
    | .freeing, fd :: queue => some ({ s with acceptSdQueue := queue }.close fd, [⟨.freed, fd⟩])
    | _, _ => none
  | s, .freed =>
    if s.loop = .freeing ∧ s.acceptSdQueue = [] then some ({ s with loop := .destroyed }, [])
    else none

/-- What an access finds, and what it makes of the state. -/
inductive Stepped (helper : LoopHelper) (s : EventLoop) :
    LoopInput → EventLoop → List LoopOutput → Prop
  | accept {newfd : Nat} (thread : s.thread = .polling) (fresh : newfd ∉ s.descriptors) :
      Stepped helper s (.accept newfd)
        { s with thread := .accepted newfd, descriptors := newfd :: s.descriptors }
        [⟨.accepted, newfd⟩]
  | push {newfd : Nat} (thread : s.thread = .accepted newfd) :
      Stepped helper s .push
        { s with thread := .pushed, acceptSdQueue := s.acceptSdQueue ++ [newfd] } []
  | notify (thread : s.thread = .pushed) :
      Stepped helper s .notify { s with thread := .polling, counter := s.counter + 1 } []
  | accepted (loop : s.loop = .waiting) :
      Stepped helper s .accepted { s with loop := .accepting, counter := 0 } []
  | popLast (loop : s.loop = .accepting) (queue : s.acceptSdQueue = []) :
      Stepped helper s .pop { s with loop := .waiting } []
  | pop {newfd : Nat} {rest : List Nat} (loop : s.loop = .accepting)
      (queue : s.acceptSdQueue = newfd :: rest) :
      Stepped helper s .pop ({ s with acceptSdQueue := rest }.insert newfd) [⟨.watched, newfd⟩]
  | read {sd : Nat} (loop : s.loop = .waiting) (source : sd ∈ s.sockets)
      (socket : sd ≠ s.acceptSdEventfd) : Stepped helper s (.read sd false) (s.receive sd) []
  | readFails {sd : Nat} (loop : s.loop = .waiting) (source : sd ∈ s.sockets)
      (socket : sd ≠ s.acceptSdEventfd) :
      Stepped helper s (.read sd true) (beginClose helper (s.receive sd) sd) []
  | finishClosed {sd : Nat} (loop : s.loop = .closed sd) :
      Stepped helper s .finish { s.remove sd with loop := .waiting } []
  | finishRemoved {sd : Nat} (loop : s.loop = .removed sd) :
      Stepped helper s .finish { s.close sd with loop := .waiting } []
  | stop (loop : s.loop = .waiting) : Stepped helper s .stop { s with loop := .stopping } []
  | clearEvent (loop : s.loop = .stopping) :
      Stepped helper s (.clear s.acceptSdEventfd) (s.remove s.acceptSdEventfd) []
  | clear {sd : Nat} (loop : s.loop = .stopping) (source : sd ∈ s.sockets)
      (socket : sd ≠ s.acceptSdEventfd) :
      Stepped helper s (.clear sd) ((s.remove sd).close sd) []
  | cleared (loop : s.loop = .stopping) (sockets : s.sockets = []) :
      Stepped helper s .cleared { s with loop := .stopped } []
  | deinit (thread : s.thread = .polling) (loop : s.loop = .stopped ∨ s.loop = .waiting) :
      Stepped helper s .deinit
        { s.close s.acceptSdEventfd with thread := .cancelled, loop := .freeing } []
  | free {fd : Nat} {rest : List Nat} (loop : s.loop = .freeing)
      (queue : s.acceptSdQueue = fd :: rest) :
      Stepped helper s .free ({ s with acceptSdQueue := rest }.close fd) [⟨.freed, fd⟩]
  | freed (loop : s.loop = .freeing) (queue : s.acceptSdQueue = []) :
      Stepped helper s .freed { s with loop := .destroyed } []

theorem stepped_of_step {helper : LoopHelper} {s s' : EventLoop} {i : LoopInput}
    {o : List LoopOutput} (hs : step helper s i = some (s', o)) : Stepped helper s i s' o := by
  cases i with
  | accept newfd =>
    simp only [step, Option.ite_none_right_eq_some, Option.some.injEq, Prod.mk.injEq] at hs
    obtain ⟨⟨hthread, hnew⟩, rfl, rfl⟩ := hs
    exact .accept hthread hnew
  | push =>
    cases hthread : s.thread with
    | accepted newfd =>
      simp only [step, hthread, Option.some.injEq, Prod.mk.injEq] at hs
      obtain ⟨rfl, rfl⟩ := hs
      exact .push hthread
    | _ => simp [step, hthread] at hs
  | notify =>
    simp only [step, Option.ite_none_right_eq_some, Option.some.injEq, Prod.mk.injEq] at hs
    obtain ⟨hthread, rfl, rfl⟩ := hs
    exact .notify hthread
  | accepted =>
    simp only [step, Option.ite_none_right_eq_some, Option.some.injEq, Prod.mk.injEq] at hs
    obtain ⟨⟨hloop, -, -⟩, rfl, rfl⟩ := hs
    exact .accepted hloop
  | pop =>
    simp only [step, Option.ite_none_right_eq_some] at hs
    obtain ⟨hloop, hs⟩ := hs
    cases hqueue : s.acceptSdQueue with
    | nil =>
      rw [hqueue] at hs
      cases hs
      simpa only [hqueue] using Stepped.popLast hloop hqueue
    | cons newfd queue =>
      rw [hqueue] at hs
      cases hs
      exact .pop hloop hqueue
  | read sd fails =>
    simp only [step, Option.ite_none_right_eq_some, Option.some.injEq, Prod.mk.injEq] at hs
    obtain ⟨⟨hloop, hsd, hne⟩, rfl, rfl⟩ := hs
    cases fails with
    | false => exact .read hloop hsd hne
    | true => exact .readFails hloop hsd hne
  | finish =>
    cases hloop : s.loop with
    | closed sd =>
      simp only [step, hloop, Option.some.injEq, Prod.mk.injEq] at hs
      obtain ⟨rfl, rfl⟩ := hs
      exact .finishClosed hloop
    | removed sd =>
      simp only [step, hloop, Option.some.injEq, Prod.mk.injEq] at hs
      obtain ⟨rfl, rfl⟩ := hs
      exact .finishRemoved hloop
    | _ => simp [step, hloop] at hs
  | stop =>
    simp only [step, Option.ite_none_right_eq_some, Option.some.injEq, Prod.mk.injEq] at hs
    obtain ⟨hloop, rfl, rfl⟩ := hs
    exact .stop hloop
  | clear sd =>
    simp only [step, Option.ite_none_right_eq_some, Option.some.injEq, Prod.mk.injEq] at hs
    obtain ⟨⟨hloop, hsd⟩, rfl, rfl⟩ := hs
    by_cases hne : sd = s.acceptSdEventfd
    · subst hne
      rw [if_pos rfl]
      exact .clearEvent hloop
    · rw [if_neg hne]
      exact .clear hloop hsd hne
  | cleared =>
    simp only [step, Option.ite_none_right_eq_some, Option.some.injEq, Prod.mk.injEq] at hs
    obtain ⟨⟨hloop, hempty⟩, rfl, rfl⟩ := hs
    exact .cleared hloop hempty
  | deinit =>
    simp only [step, Option.ite_none_right_eq_some, Option.some.injEq, Prod.mk.injEq] at hs
    obtain ⟨⟨hthread, hcan⟩, rfl, rfl⟩ := hs
    have hloop : s.loop = .stopped ∨ helper = .glib ∧ s.loop = .waiting := by
      simpa [canDeinit] using hcan
    exact .deinit hthread (hloop.imp_right And.right)
  | free =>
    simp only [step] at hs
    split at hs
    · next hloop hqueue =>
      cases hs
      exact .free hloop hqueue
    · cases hs
  | freed =>
    simp only [step, Option.ite_none_right_eq_some, Option.some.injEq, Prod.mk.injEq] at hs
    obtain ⟨⟨hloop, hempty⟩, rfl, rfl⟩ := hs
    exact .freed hloop hempty

/-! ## Whose the descriptors are -/

/-- The socket that the accept thread has not passed on yet. -/
def inHand (s : EventLoop) : List Nat :=
  match s.thread with
  | .accepted newfd => [newfd]
  | _ => []

/-- The socket that is closed but still in the table. -/
def gone (s : EventLoop) : List Nat :=
  match s.loop with
  | .closed sd => [sd]
  | _ => []

/-- The socket that is out of the table but not closed yet. -/
def leaving (s : EventLoop) : List Nat :=
  match s.loop with
  | .removed sd => [sd]
  | _ => []

structure Inv (s : EventLoop) : Prop where
  /-- every open socket is in exactly one place -/
  balance : ∀ fd, fd ≠ s.acceptSdEventfd → s.descriptors.count fd + s.gone.count fd =
    s.inHand.count fd + s.acceptSdQueue.count fd + s.sockets.count fd + s.leaving.count fd
  event_open : s.acceptSdEventfd ∈ s.descriptors ↔ s.thread ≠ .cancelled
  open_nodup : s.descriptors.Nodup
  sockets_nodup : s.sockets.Nodup
  gone_mem : ∀ fd ∈ s.gone, fd ∈ s.sockets
  not_event : ∀ fd ∈ s.inHand ++ s.acceptSdQueue ++ s.gone ++ s.leaving, fd ≠ s.acceptSdEventfd
  /-- what is queued has been or will be notified -/
  wakes : s.loop = .waiting ∨ s.gone ≠ [] ∨ s.leaving ≠ [] →
    s.acceptSdQueue ≠ [] → 0 < s.counter ∨ s.thread = .pushed
  source : s.loop = .waiting ∨ s.loop = .accepting ∨ s.gone ≠ [] ∨ s.leaving ≠ [] →
    s.acceptSdEventfd ∈ s.sockets
  joined : s.thread = .cancelled ↔ s.loop = .freeing ∨ s.loop = .destroyed
  emptied : s.loop = .stopped → s.sockets = []
  freed : s.loop = .destroyed → s.acceptSdQueue = []
  sound : s.fault = false

theorem inv_start (fd : Nat) : (start fd).Inv where
  balance _ _ := by simp [start, gone, inHand, leaving]
  event_open := by simp [start]
  open_nodup := by simp [start]
  sockets_nodup := by simp [start]
  gone_mem := by simp [start, gone]
  not_event := by simp [start, inHand, gone, leaving]
  wakes := by simp [start]
  source := by simp [start]
  joined := by simp [start]
  emptied := by simp [start]
  freed := by simp [start]
  sound := rfl

/-! ## One access at a time -/

theorem count_erase_add {l : List Nat} {x : Nat} (h : x ∈ l) (y : Nat) :
    (l.erase x).count y + [x].count y = l.count y := by
  have hpos := List.count_pos_iff.mpr h
  rw [List.count_erase, List.count_singleton]
  by_cases he : x = y
  · subst he
    simp only [BEq.rfl, if_true]
    omega
  · have hne : (x == y) = false := beq_eq_false_iff_ne.mpr he
    simp [hne]

section
variable {s : EventLoop}

/-- A socket that has a source is open, and nowhere else. -/
theorem Inv.socket_open (h : s.Inv) (hgone : s.gone = []) {sd : Nat} (hsd : sd ∈ s.sockets)
    (hne : sd ≠ s.acceptSdEventfd) : sd ∈ s.descriptors := by
  have hb := h.balance sd hne
  have hpos := List.count_pos_iff.mpr hsd
  rw [hgone, List.count_nil] at hb
  exact List.count_pos_iff.mp (by omega)

theorem Inv.count_le (h : s.Inv) (fd : Nat) : s.descriptors.count fd ≤ 1 :=
  List.nodup_iff_count_le_one.mp h.open_nodup fd

theorem inv_accept (h : s.Inv) {newfd : Nat} (hthread : s.thread = .polling)
    (hnew : newfd ∉ s.descriptors) :
    Inv { s with thread := .accepted newfd, descriptors := newfd :: s.descriptors } where
  balance fd hfd := by
    have hb := h.balance fd hfd
    simp only [inHand, hthread, List.count_nil] at hb
    simp only [inHand, gone, leaving, List.count_cons, List.count_nil] at hb ⊢
    omega
  event_open := by simp [h.event_open, hthread]
  open_nodup := List.nodup_cons.mpr ⟨hnew, h.open_nodup⟩
  sockets_nodup := h.sockets_nodup
  gone_mem := h.gone_mem
  not_event := by
    have hne : newfd ≠ s.acceptSdEventfd := by
      intro he
      exact hnew (he ▸ h.event_open.mpr (by simp [hthread]))
    have hold := h.not_event
    simp only [inHand, hthread, List.nil_append] at hold
    simp only [inHand, List.append_assoc, List.cons_append, List.nil_append, List.forall_mem_cons]
    exact ⟨hne, by simpa [gone, leaving] using hold⟩
  wakes hl hq := by
    have := h.wakes hl hq
    simpa [hthread] using this
  source := h.source
  joined := by simpa [hthread] using h.joined
  emptied := h.emptied
  freed := h.freed
  sound := h.sound

theorem inv_push (h : s.Inv) {newfd : Nat} (hthread : s.thread = .accepted newfd) :
    Inv { s with thread := .pushed, acceptSdQueue := s.acceptSdQueue ++ [newfd] } where
  balance fd hfd := by
    have hb := h.balance fd hfd
    simp only [inHand, hthread] at hb
    simp only [inHand, gone, leaving, List.count_append, List.count_nil] at hb ⊢
    omega
  event_open := by simp [h.event_open, hthread]
  open_nodup := h.open_nodup
  sockets_nodup := h.sockets_nodup
  gone_mem := h.gone_mem
  not_event := by
    have hold := h.not_event
    simp only [inHand, hthread, List.mem_append, List.mem_singleton] at hold
    intro fd hfd
    apply hold
    simp only [inHand, List.mem_append, List.mem_singleton, List.not_mem_nil, false_or] at hfd
    have hgone : fd ∈ s.gone ∨ fd ∈ s.leaving ∨ fd ∈ s.acceptSdQueue ∨ fd = newfd := by
      simpa [gone, leaving, or_comm, or_assoc, or_left_comm] using hfd
    tauto
  wakes _ _ := .inr rfl
  source := h.source
  joined := by simpa [hthread] using h.joined
  emptied := h.emptied
  freed hl := absurd (h.joined.mpr (.inr hl)) (by simp [hthread])
  sound := h.sound

theorem inv_notify (h : s.Inv) (hthread : s.thread = .pushed) :
    Inv { s with thread := .polling, counter := s.counter + 1 } where
  balance fd hfd := by
    have hb := h.balance fd hfd
    simp only [inHand, hthread] at hb
    exact hb
  event_open := by simp [h.event_open, hthread]
  open_nodup := h.open_nodup
  sockets_nodup := h.sockets_nodup
  gone_mem := h.gone_mem
  not_event := by
    have hold := h.not_event
    simp only [inHand, hthread] at hold
    exact hold
  wakes _ _ := .inl (Nat.succ_pos _)
  source := h.source
  joined := by simpa [hthread] using h.joined
  emptied := h.emptied
  freed := h.freed
  sound := h.sound

/-- From one point of the loop to another, with no socket being closed at either. -/
theorem Inv.move (h : s.Inv) (hgone : s.gone = []) (hleaving : s.leaving = []) (counter : Nat)
    {loop : LoopPoint} (hclosed : ∀ sd, loop ≠ .closed sd) (hremoved : ∀ sd, loop ≠ .removed sd)
    (hwaiting : loop = .waiting → s.acceptSdQueue = [])
    (hsource : loop = .waiting ∨ loop = .accepting → s.acceptSdEventfd ∈ s.sockets)
    (hjoined : s.thread = .cancelled ↔ loop = .freeing ∨ loop = .destroyed)
    (hstopped : loop = .stopped → s.sockets = [])
    (hdestroyed : loop = .destroyed → s.acceptSdQueue = []) :
    Inv { s with loop, counter } := by
  have hgone' : gone { s with loop, counter } = [] := by
    cases loop with
    | closed sd => exact absurd rfl (hclosed sd)
    | _ => rfl
  have hleaving' : leaving { s with loop, counter } = [] := by
    cases loop with
    | removed sd => exact absurd rfl (hremoved sd)
    | _ => rfl
  exact {
    balance := by
      intro fd hfd
      have hb := h.balance fd hfd
      rw [hgone, hleaving] at hb
      rw [hgone', hleaving']
      exact hb
    event_open := h.event_open
    open_nodup := h.open_nodup
    sockets_nodup := h.sockets_nodup
    gone_mem := by simp [hgone']
    not_event := by
      have hold := h.not_event
      rw [hgone, hleaving] at hold
      rw [hgone', hleaving']
      exact hold
    wakes := by
      intro hl hq
      simp only [hgone', hleaving', ne_eq, not_true, or_false] at hl
      exact absurd (hwaiting hl) hq
    source := by
      intro hl
      simp only [hgone', hleaving', ne_eq, not_true, or_false] at hl
      exact hsource hl
    joined := hjoined
    emptied := hstopped
    freed := hdestroyed
    sound := h.sound }

theorem inv_accepted (h : s.Inv) (hloop : s.loop = .waiting) :
    Inv { s with loop := .accepting, counter := 0 } :=
  h.move (by simp [gone, hloop]) (by simp [leaving, hloop]) 0 (by simp) (by simp) (by simp)
    (fun _ => h.source (.inl hloop)) (by simpa [hloop] using h.joined) (by simp) (by simp)

/-- A queued socket has no source yet. -/
theorem Inv.queued_fresh (h : s.Inv) (hgone : s.gone = []) {fd : Nat}
    (hfd : fd ∈ s.acceptSdQueue) : fd ∉ s.sockets := by
  have hb := h.balance fd (h.not_event fd (by simp [hfd]))
  have hle := h.count_le fd
  have hpos := List.count_pos_iff.mpr hfd
  rw [hgone, List.count_nil] at hb
  exact List.count_eq_zero.mp (by omega)

theorem inv_pop_nil (h : s.Inv) (hloop : s.loop = .accepting) (hqueue : s.acceptSdQueue = []) :
    Inv { s with loop := .waiting } :=
  h.move (by simp [gone, hloop]) (by simp [leaving, hloop]) s.counter (by simp) (by simp)
    (fun _ => hqueue) (fun _ => h.source (.inr (.inl hloop))) (by simpa [hloop] using h.joined)
    (by simp) (by simp)

theorem inv_pop_cons (h : s.Inv) (hloop : s.loop = .accepting) {newfd : Nat} {queue : List Nat}
    (hqueue : s.acceptSdQueue = newfd :: queue) :
    Inv ({ s with acceptSdQueue := queue }.insert newfd) := by
  have hgone : s.gone = [] := by simp [gone, hloop]
  have hfresh : newfd ∉ s.sockets := h.queued_fresh hgone (by simp [hqueue])
  have hinsert : { s with acceptSdQueue := queue }.insert newfd =
      { s with acceptSdQueue := queue, sockets := newfd :: s.sockets } := by
    simp [insert, hfresh, List.erase_of_not_mem]
  rw [hinsert]
  exact {
    balance := by
      intro fd hfd
      have hb := h.balance fd hfd
      simp only [gone, leaving, inHand, hloop, hqueue, List.count_cons] at hb ⊢
      omega
    event_open := h.event_open
    open_nodup := h.open_nodup
    sockets_nodup := List.nodup_cons.mpr ⟨hfresh, h.sockets_nodup⟩
    gone_mem := by simp [gone, hloop]
    not_event := by
      intro fd hfd
      apply h.not_event fd
      simp only [gone, leaving, inHand, hloop, hqueue, List.mem_append, List.mem_cons] at hfd ⊢
      tauto
    wakes := by simp [gone, leaving, hloop]
    source := fun hl => List.mem_cons_of_mem _ (h.source hl)
    joined := h.joined
    emptied := by simp [hloop]
    freed := by simp [hloop]
    sound := h.sound }

/-- Reading from a socket that has a source. -/
theorem Inv.receive_eq (h : s.Inv) (hloop : s.loop = .waiting) {sd : Nat} (hsd : sd ∈ s.sockets)
    (hne : sd ≠ s.acceptSdEventfd) : s.receive sd = s := by
  have hopen := h.socket_open (by simp [gone, hloop]) hsd hne
  simp [receive, hopen]

theorem inv_close (h : s.Inv) (hloop : s.loop = .waiting) {sd : Nat} (hsd : sd ∈ s.sockets)
    (hne : sd ≠ s.acceptSdEventfd) : Inv { s.close sd with loop := .closed sd } where
  balance fd hfd := by
    have he := count_erase_add (h.socket_open (by simp [gone, hloop]) hsd hne) fd
    have hb := h.balance fd hfd
    simp only [gone, leaving, hloop, List.count_nil] at hb
    simp only [close, gone, leaving, inHand, List.count_nil] at hb ⊢
    omega
  event_open := by
    simp only [close, ← h.event_open]
    exact List.mem_erase_of_ne (Ne.symm hne)
  open_nodup := h.open_nodup.erase sd
  sockets_nodup := h.sockets_nodup
  gone_mem := by simpa [gone, close] using hsd
  not_event := by
    intro fd hfd
    have hold := h.not_event fd
    simp only [close, gone, leaving, inHand, hloop, List.mem_append, List.mem_singleton] at hfd hold
    have hcases : fd = sd ∨ fd ∈ s.inHand ∨ fd ∈ s.acceptSdQueue := by
      simp only [inHand]
      tauto
    cases hcases with
    | inl he => exact he ▸ hne
    | inr hr => exact hold (by simp only [inHand] at hr; tauto)
  wakes _ := h.wakes (.inl hloop)
  source _ := h.source (.inl hloop)
  joined := by simpa [close, hloop] using h.joined
  emptied := by simp [close]
  freed := by simp [close]
  sound := by simp [close, h.sound, h.socket_open (by simp [gone, hloop]) hsd hne]

theorem inv_remove (h : s.Inv) (hloop : s.loop = .waiting) {sd : Nat} (hsd : sd ∈ s.sockets)
    (hne : sd ≠ s.acceptSdEventfd) : Inv { s.remove sd with loop := .removed sd } where
  balance fd hfd := by
    have he := count_erase_add hsd fd
    have hb := h.balance fd hfd
    simp only [gone, leaving, hloop, List.count_nil] at hb
    simp only [remove, gone, leaving, inHand, List.count_nil] at hb ⊢
    omega
  event_open := h.event_open
  open_nodup := h.open_nodup
  sockets_nodup := h.sockets_nodup.erase sd
  gone_mem := by simp [gone]
  not_event := by
    intro fd hfd
    have hold := h.not_event fd
    simp only [remove, gone, leaving, inHand, hloop, List.mem_append,
      List.mem_singleton] at hfd hold
    have hcases : fd = sd ∨ fd ∈ s.inHand ∨ fd ∈ s.acceptSdQueue := by
      simp only [inHand]
      tauto
    cases hcases with
    | inl he => exact he ▸ hne
    | inr hr => exact hold (by simp only [inHand] at hr; tauto)
  wakes _ := h.wakes (.inl hloop)
  source _ := (List.mem_erase_of_ne (Ne.symm hne)).mpr (h.source (.inl hloop))
  joined := by simpa [remove, hloop] using h.joined
  emptied := by simp [remove]
  freed := by simp [remove]
  sound := h.sound

/-- The rest of the callback of glib: the descriptor may belong to a new socket by
now, but that one is not in the table yet. -/
theorem inv_finish_closed (h : s.Inv) {sd : Nat} (hloop : s.loop = .closed sd) :
    Inv { s.remove sd with loop := .waiting } where
  balance fd hfd := by
    have he := count_erase_add (h.gone_mem sd (by simp [gone, hloop])) fd
    have hb := h.balance fd hfd
    simp only [gone, leaving, hloop, List.count_nil] at hb
    simp only [remove, gone, leaving, inHand, List.count_nil] at hb ⊢
    omega
  event_open := h.event_open
  open_nodup := h.open_nodup
  sockets_nodup := h.sockets_nodup.erase sd
  gone_mem := by simp [gone]
  not_event fd hfd := by
    have hold := h.not_event fd
    simp only [remove, gone, leaving, inHand, hloop, List.mem_append] at hfd hold
    exact hold (by simp at hfd ⊢; tauto)
  wakes _ := h.wakes (.inr (.inl (by simp [gone, hloop])))
  source _ := by
    have hne : sd ≠ s.acceptSdEventfd := h.not_event sd (by simp [gone, hloop])
    exact (List.mem_erase_of_ne (Ne.symm hne)).mpr
      (h.source (.inr (.inr (.inl (by simp [gone, hloop])))))
  joined := by simpa [remove, hloop] using h.joined
  emptied := by simp [remove]
  freed := by simp [remove]
  sound := h.sound

theorem inv_finish_removed (h : s.Inv) {sd : Nat} (hloop : s.loop = .removed sd) :
    Inv { s.close sd with loop := .waiting } := by
  have hne : sd ≠ s.acceptSdEventfd := h.not_event sd (by simp [leaving, hloop])
  have hopen : sd ∈ s.descriptors := by
    have hb := h.balance sd hne
    simp only [gone, leaving, hloop, List.count_singleton_self, List.count_nil] at hb
    exact List.count_pos_iff.mp (by omega)
  exact {
    balance := by
      intro fd hfd
      have he := count_erase_add hopen fd
      have hb := h.balance fd hfd
      simp only [gone, leaving, hloop, List.count_nil] at hb
      simp only [close, gone, leaving, inHand, List.count_nil] at hb ⊢
      omega
    event_open := by
      simp only [close, ← h.event_open]
      exact List.mem_erase_of_ne (Ne.symm hne)
    open_nodup := h.open_nodup.erase sd
    sockets_nodup := h.sockets_nodup
    gone_mem := by simp [gone]
    not_event := by
      intro fd hfd
      have hold := h.not_event fd
      simp only [close, gone, leaving, inHand, hloop, List.mem_append] at hfd hold
      exact hold (by simp at hfd ⊢; tauto)
    wakes := fun _ => h.wakes (.inr (.inr (by simp [leaving, hloop])))
    source := fun _ => h.source (.inr (.inr (.inr (by simp [leaving, hloop]))))
    joined := by simpa [close, hloop] using h.joined
    emptied := by simp [close]
    freed := by simp [close]
    sound := by simp [close, h.sound, hopen] }

theorem inv_stop (h : s.Inv) (hloop : s.loop = .waiting) : Inv { s with loop := .stopping } :=
  h.move (by simp [gone, hloop]) (by simp [leaving, hloop]) s.counter (by simp) (by simp) (by simp)
    (by simp) (by simpa [hloop] using h.joined) (by simp) (by simp)

theorem inv_clear_event (h : s.Inv) (hloop : s.loop = .stopping) :
    Inv (s.remove s.acceptSdEventfd) where
  balance fd hfd := by
    have hb := h.balance fd hfd
    have hne : (s.acceptSdEventfd == fd) = false := beq_eq_false_iff_ne.mpr (Ne.symm hfd)
    simp only [remove, List.count_erase, hne, Bool.false_eq_true, if_false]
    exact hb
  event_open := h.event_open
  open_nodup := h.open_nodup
  sockets_nodup := h.sockets_nodup.erase _
  gone_mem := by simp [gone, remove, hloop]
  not_event := h.not_event
  wakes := h.wakes
  source := by simp [gone, leaving, remove, hloop]
  joined := h.joined
  emptied := by simp [remove, hloop]
  freed := h.freed
  sound := h.sound

theorem inv_clear (h : s.Inv) (hloop : s.loop = .stopping) {sd : Nat} (hsd : sd ∈ s.sockets)
    (hne : sd ≠ s.acceptSdEventfd) : Inv ((s.remove sd).close sd) := by
  have hopen := h.socket_open (by simp [gone, hloop]) hsd hne
  exact {
    balance := by
      intro fd hfd
      have he := count_erase_add hopen fd
      have he' := count_erase_add hsd fd
      have hb := h.balance fd hfd
      simp only [gone, leaving, hloop, List.count_nil] at hb
      simp only [close, remove, gone, leaving, inHand, hloop, List.count_nil] at hb ⊢
      omega
    event_open := by
      simp only [close, remove, ← h.event_open]
      exact List.mem_erase_of_ne (Ne.symm hne)
    open_nodup := h.open_nodup.erase sd
    sockets_nodup := h.sockets_nodup.erase sd
    gone_mem := by simp [gone, close, remove, hloop]
    not_event := h.not_event
    wakes := by simp [gone, leaving, close, remove, hloop]
    source := by simp [gone, leaving, close, remove, hloop]
    joined := h.joined
    emptied := by simp [close, remove, hloop]
    freed := h.freed
    sound := by simp [close, remove, h.sound, hopen] }

theorem inv_cleared (h : s.Inv) (hloop : s.loop = .stopping) (hempty : s.sockets = []) :
    Inv { s with loop := .stopped } :=
  h.move (by simp [gone, hloop]) (by simp [leaving, hloop]) s.counter (by simp) (by simp) (by simp)
    (by simp) (by simpa [hloop] using h.joined) (fun _ => hempty) (by simp)

theorem inv_deinit (h : s.Inv) (hthread : s.thread = .polling)
    (hloop : s.loop = .stopped ∨ s.loop = .waiting) :
    Inv { s.close s.acceptSdEventfd with thread := .cancelled, loop := .freeing } := by
  have hopen : s.acceptSdEventfd ∈ s.descriptors := h.event_open.mpr (by simp [hthread])
  have hgone : s.gone = [] := by cases hloop with
    | inl hl | inr hl => simp [gone, hl]
  have hleaving : s.leaving = [] := by cases hloop with
    | inl hl | inr hl => simp [leaving, hl]
  exact {
    balance := by
      intro fd hfd
      have hb := h.balance fd hfd
      have hne : (s.acceptSdEventfd == fd) = false := beq_eq_false_iff_ne.mpr (Ne.symm hfd)
      rw [hgone, hleaving] at hb
      simp only [inHand, hthread] at hb
      simp only [close, gone, leaving, inHand, List.count_erase, hne, Bool.false_eq_true, if_false]
      exact hb
    event_open := by
      simpa [close] using h.open_nodup.not_mem_erase
    open_nodup := h.open_nodup.erase _
    sockets_nodup := h.sockets_nodup
    gone_mem := by simp [gone]
    not_event := by
      intro fd hfd
      refine h.not_event fd ?_
      simp only [close, gone, leaving, inHand, List.append_nil, List.nil_append] at hfd
      simp [hfd]
    wakes := by simp [gone, leaving]
    source := by simp [gone, leaving]
    joined := by simp
    emptied := by simp
    freed := by simp
    sound := by simp [close, h.sound, hopen] }

theorem inv_free (h : s.Inv) (hloop : s.loop = .freeing) {fd : Nat} {queue : List Nat}
    (hqueue : s.acceptSdQueue = fd :: queue) :
    Inv ({ s with acceptSdQueue := queue }.close fd) := by
  have hne : fd ≠ s.acceptSdEventfd := h.not_event fd (by simp [hqueue])
  have hopen : fd ∈ s.descriptors := by
    have hb := h.balance fd hne
    have hpos : 0 < s.acceptSdQueue.count fd := List.count_pos_iff.mpr (by simp [hqueue])
    simp only [gone, hloop, List.count_nil] at hb
    exact List.count_pos_iff.mp (by omega)
  exact {
    balance := by
      intro x hx
      have he := count_erase_add hopen x
      have hb := h.balance x hx
      rw [hqueue, ← List.singleton_append, List.count_append] at hb
      simp only [gone, leaving, inHand, hloop, List.count_nil] at hb
      simp only [close, gone, leaving, inHand, hloop, List.count_nil] at hb ⊢
      omega
    event_open := by
      simp only [close, ← h.event_open]
      exact List.mem_erase_of_ne (Ne.symm hne)
    open_nodup := h.open_nodup.erase fd
    sockets_nodup := h.sockets_nodup
    gone_mem := h.gone_mem
    not_event := by
      intro x hx
      apply h.not_event x
      simp only [close, gone, leaving, inHand, hloop, hqueue, List.mem_append,
        List.mem_cons] at hx ⊢
      tauto
    wakes := by simp [gone, leaving, close, hloop]
    source := by simp [gone, leaving, close, hloop]
    joined := h.joined
    emptied := by simp [close, hloop]
    freed := by simp [close, hloop]
    sound := by simp [close, h.sound, hopen] }

theorem inv_freed (h : s.Inv) (hloop : s.loop = .freeing) (hempty : s.acceptSdQueue = []) :
    Inv { s with loop := .destroyed } :=
  h.move (by simp [gone, hloop]) (by simp [leaving, hloop]) s.counter (by simp) (by simp) (by simp)
    (by simp) (by simpa [hloop] using h.joined) (by simp) (fun _ => hempty)

end

/-! ## Runs -/

theorem inv_step {helper : LoopHelper} {s s' : EventLoop} {i : LoopInput} {o : List LoopOutput}
    (h : s.Inv) (hs : Stepped helper s i s' o) : s'.Inv := by
  cases hs with
  | accept hthread hnew => exact inv_accept h hthread hnew
  | push hthread => exact inv_push h hthread
  | notify hthread => exact inv_notify h hthread
  | accepted hloop => exact inv_accepted h hloop
  | popLast hloop hqueue => exact inv_pop_nil h hloop hqueue
  | pop hloop hqueue => exact inv_pop_cons h hloop hqueue
  | read hloop hsd hne =>
    rw [h.receive_eq hloop hsd hne]
    exact h
  | readFails hloop hsd hne =>
    rw [h.receive_eq hloop hsd hne]
    cases helper with
    | glib => exact inv_close h hloop hsd hne
    | liboop => exact inv_remove h hloop hsd hne
  | finishClosed hloop => exact inv_finish_closed h hloop
  | finishRemoved hloop => exact inv_finish_removed h hloop
  | stop hloop => exact inv_stop h hloop
  | clearEvent hloop => exact inv_clear_event h hloop
  | clear hloop hsd hne => exact inv_clear h hloop hsd hne
  | cleared hloop hempty => exact inv_cleared h hloop hempty
  | deinit hthread hloop => exact inv_deinit h hthread hloop
  | free hloop hqueue => exact inv_free h hloop hqueue
  | freed hloop hempty => exact inv_freed h hloop hempty

/-- The sockets of a fate, in order. -/
def fated (fate : SocketFate) (os : List LoopOutput) : List Nat :=
  (os.filter fun o => o.fate = fate).map LoopOutput.fd

@[simp] theorem fated_snoc (fate : SocketFate) (os : List LoopOutput) (o : LoopOutput) :
    fated fate (os ++ [o]) = fated fate os ++ if o.fate = fate then [o.fd] else [] := by
  unfold fated
  rw [List.filter_append, List.map_append]
  by_cases h : o.fate = fate <;> simp [h]

/-- The server is being taken down, and nothing is taken from the queue any more. -/
def Ended (s : EventLoop) : Prop := s.loop = .freeing ∨ s.loop = .destroyed

/-- Nothing has a source once the processing was stopped. -/
def Stopped (s : EventLoop) : Prop :=
  s.loop = .stopping ∨ s.sockets = [] ∧ (s.loop = .stopped ∨ s.Ended)

/-- The accepted sockets go the same way in the order in which they were accepted. -/
structure Ordered (s : EventLoop) (ops : List LoopInput) (os : List LoopOutput) : Prop where
  order : fated .accepted os = fated .watched os ++ fated .freed os ++ s.acceptSdQueue ++ s.inHand
  freed_late : ¬ s.Ended → fated .freed os = []
  stopped : .stop ∈ ops → s.Stopped

section
variable {helper : LoopHelper} {s s' : EventLoop} {ops : List LoopInput} {os : List LoopOutput}
  {i : LoopInput}

theorem Ordered.stop_mem (h : Ordered s ops os) (hi : i ≠ .stop) (hm : .stop ∈ ops ++ [i]) :
    s.Stopped := by
  refine h.stopped ?_
  cases List.mem_append.mp hm with
  | inl hm => exact hm
  | inr hm => exact absurd (List.mem_singleton.mp hm).symm hi

/-- A loop that dispatches sources was not stopped. -/
theorem not_stopped (hloop : s.loop = .waiting ∨ s.loop = .accepting ∨
    (∃ sd, s.loop = .closed sd) ∨ ∃ sd, s.loop = .removed sd) : ¬ s.Stopped := by
  intro h
  have hcases : s.loop = .stopping ∨ s.loop = .stopped ∨ s.loop = .freeing ∨
      s.loop = .destroyed := by
    cases h with
    | inl h => exact .inl h
    | inr h => exact .inr (h.2.imp_right id)
  obtain hl | hl | ⟨sd, hl⟩ | ⟨sd, hl⟩ := hloop <;> simp [hl] at hcases

/-- An access that moves no socket. -/
theorem Ordered.keep (h : Ordered s ops os) (hqueue : s'.acceptSdQueue = s.acceptSdQueue)
    (hhand : s'.inHand = s.inHand) (hended : s.Ended → s'.Ended)
    (hstopped : .stop ∈ ops ++ [i] → s'.Stopped) : Ordered s' (ops ++ [i]) (os ++ []) := by
  rw [List.append_nil]
  refine ⟨?_, fun hn => h.freed_late fun he => hn (hended he), hstopped⟩
  rw [hqueue, hhand]
  exact h.order

theorem ordered_step (hinv : s.Inv) (h : Ordered s ops os) {o : List LoopOutput}
    (hs : Stepped helper s i s' o) : Ordered s' (ops ++ [i]) (os ++ o) := by
  cases hs with
  | accept hthread _ =>
    have horder := h.order
    simp only [inHand, hthread] at horder
    refine ⟨?_, fun hn => ?_, h.stop_mem (by simp)⟩
    · simp [inHand, horder]
    · simpa using h.freed_late hn
  | push hthread =>
    have horder := h.order
    simp only [inHand, hthread] at horder
    refine ⟨?_, fun hn => ?_, h.stop_mem (by simp)⟩
    · simpa [inHand] using horder
    · simpa using h.freed_late hn
  | notify hthread =>
    exact h.keep rfl (by simp [inHand, hthread]) id (h.stop_mem (by simp))
  | accepted hloop =>
    exact h.keep rfl rfl (by simp [Ended, hloop])
      fun hm => absurd (h.stop_mem (by simp) hm) (not_stopped (.inl hloop))
  | popLast hloop _ =>
    exact h.keep rfl rfl (by simp [Ended, hloop])
      fun hm => absurd (h.stop_mem (by simp) hm) (not_stopped (.inr (.inl hloop)))
  | pop hloop hqueue =>
    have horder := h.order
    have hfreed : fated .freed os = [] := h.freed_late (by simp [Ended, hloop])
    rw [hfreed, hqueue] at horder
    refine ⟨?_, fun _ => ?_,
      fun hm => absurd (h.stop_mem (by simp) hm) (not_stopped (.inr (.inl hloop)))⟩
    · simpa [insert, inHand, hfreed] using horder
    · simpa using hfreed
  | read hloop _ _ => exact h.keep rfl rfl id (h.stop_mem (by simp))
  | readFails hloop _ _ =>
    cases helper with
    | glib =>
      exact h.keep rfl rfl (by simp [Ended, hloop])
        fun hm => absurd (h.stop_mem (by simp) hm) (not_stopped (.inl hloop))
    | liboop =>
      exact h.keep rfl rfl (by simp [Ended, hloop])
        fun hm => absurd (h.stop_mem (by simp) hm) (not_stopped (.inl hloop))
  | finishClosed hloop =>
    exact h.keep rfl rfl (by simp [Ended, hloop])
      fun hm => absurd (h.stop_mem (by simp) hm) (not_stopped (.inr (.inr (.inl ⟨_, hloop⟩))))
  | finishRemoved hloop =>
    exact h.keep rfl rfl (by simp [Ended, hloop])
      fun hm => absurd (h.stop_mem (by simp) hm) (not_stopped (.inr (.inr (.inr ⟨_, hloop⟩))))
  | stop hloop => exact h.keep rfl rfl (by simp [Ended, hloop]) fun _ => .inl rfl
  | clearEvent hloop => exact h.keep rfl rfl id fun _ => .inl hloop
  | clear hloop _ _ => exact h.keep rfl rfl id fun _ => .inl hloop
  | cleared hloop hempty =>
    exact h.keep rfl rfl (by simp [Ended, hloop]) fun _ => .inr ⟨hempty, .inl rfl⟩
  | deinit hthread hloop =>
    refine h.keep rfl (by simp [inHand, hthread]) (fun _ => .inl rfl) fun hm => ?_
    have hold := h.stop_mem (by simp) hm
    cases hloop with
    | inl hl => exact .inr ⟨hinv.emptied hl, .inr (.inl rfl)⟩
    | inr hl => exact absurd hold (not_stopped (.inl hl))
  | free hloop hqueue =>
    have horder := h.order
    have hcancelled : s.thread = .cancelled := hinv.joined.mpr (.inl hloop)
    simp only [hqueue, inHand, hcancelled] at horder
    refine ⟨?_, fun hn => absurd (Or.inl hloop) hn, h.stop_mem (by simp)⟩
    simpa [close, inHand, hcancelled] using horder
  | freed hloop _ =>
    refine h.keep rfl rfl (fun _ => .inr rfl) fun hm => ?_
    have hold := h.stop_mem (by simp) hm
    cases hold with
    | inl hl => simp [hloop] at hl
    | inr hr => exact .inr ⟨hr.1, .inr (.inr rfl)⟩

theorem exec_inv_ordered {fd : Nat} (hrun : exec (step helper) (start fd) ops = some (s, os)) :
    s.Inv ∧ Ordered s ops os := by
  refine exec_track (R := fun s ops os => s.Inv ∧ Ordered s ops os)
    (fun s ops os i s' o h hs => ?_) ⟨inv_start fd, ?_⟩ hrun
  · have hstepped := stepped_of_step hs
    exact ⟨inv_step h.1 hstepped, ordered_step h.1 h.2 hstepped⟩
  · exact ⟨rfl, fun _ => rfl, by simp⟩

/-- **Servers in an event loop.** However the accept thread and the loop run between
each other: no descriptor is read from or closed that is not an open one of the
server, and no source is lost; a loop that has nothing to do watches exactly the open
descriptors, so no accepted socket is forgotten; sockets are watched in the order in
which they were accepted; and at the end of a server whose processing was stopped
everything is closed, while one that was not leaves open the sockets it watched. -/
theorem event_loop_run {fd : Nat} (hrun : exec (step helper) (start fd) ops = some (s, os)) :
    s.fault = false ∧
    (s.loop = .waiting → s.thread = .polling → s.counter = 0 →
      ∀ x, x ∈ s.descriptors ↔ x ∈ s.sockets) ∧
    fated .accepted os = fated .watched os ++ fated .freed os ++ s.acceptSdQueue ++ s.inHand ∧
    (s.loop = .destroyed → .stop ∈ ops → s.descriptors = []) ∧
    (s.loop = .destroyed → ∀ x, x ∈ s.descriptors ↔ x ∈ s.sockets ∧ x ≠ s.acceptSdEventfd) := by
  obtain ⟨h, ho⟩ := exec_inv_ordered hrun
  have hends : s.loop = .destroyed →
      ∀ x, x ∈ s.descriptors ↔ x ∈ s.sockets ∧ x ≠ s.acceptSdEventfd := by
    intro hl x
    have hcancelled : s.thread = .cancelled := h.joined.mpr (.inr hl)
    by_cases hx : x = s.acceptSdEventfd
    · subst hx
      simp [h.event_open, hcancelled]
    · have hb := h.balance x hx
      simp only [gone, leaving, hl, inHand, hcancelled, h.freed hl, List.count_nil] at hb
      rw [← List.count_pos_iff, ← List.count_pos_iff]
      simp only [hx, ne_eq, not_false_eq_true, and_true]
      omega
  refine ⟨h.sound, fun hloop hthread hcounter x => ?_, ho.order, fun hl hstop => ?_, hends⟩
  · have hqueue : s.acceptSdQueue = [] := by
      by_contra hne
      have hwake := h.wakes (.inl hloop) hne
      simp [hcounter, hthread] at hwake
    by_cases hx : x = s.acceptSdEventfd
    · subst hx
      simp [h.event_open, hthread, h.source (.inl hloop)]
    · have hb := h.balance x hx
      simp only [gone, leaving, hloop, inHand, hthread, hqueue, List.count_nil] at hb
      rw [← List.count_pos_iff, ← List.count_pos_iff]
      omega
  · have hsockets : s.sockets = [] := by
      cases ho.stopped hstop with
      | inl hs => simp [hl] at hs
      | inr hs => exact hs.1
    refine List.eq_nil_iff_forall_not_mem.mpr fun x hx => ?_
    simpa [hsockets] using (hends hl x).mp hx

/-- A socket is accepted and watched; its descriptor is closed by glib and given to
the next socket before it is out of the table. -/
def reuseRun : List LoopInput :=
  [.accept 4, .push, .notify, .accepted, .pop, .pop, .read 4 true, .accept 4, .push, .finish,
    .notify, .accepted, .pop, .pop]

theorem event_loop_run_reuse : ∃ s os, exec (step .glib) (start 3) reuseRun = some (s, os) ∧
    s.fault = false ∧ (∀ x, x ∈ s.descriptors ↔ x ∈ s.sockets) ∧ s.descriptors = [4, 3] := by
  refine ⟨_, _, rfl, ?_⟩
  have hrun : exec (step .glib) (start 3) reuseRun = some (_, _) := rfl
  have h := event_loop_run hrun
  exact ⟨h.1, h.2.1 rfl rfl rfl, rfl⟩

end

end EventLoop
end Cmsg.Server
