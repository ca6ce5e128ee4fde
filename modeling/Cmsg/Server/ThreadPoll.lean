import Mathlib.Data.Finset.Max
import Cmsg.Base.Runs
import Cmsg.Server.SocketTrace

/-! # Polling in the thread of a server

`cmsg_server_thread_receive_poll` and the accept thread, one access at a time: while a poll
goes through the descriptors the accept thread can accept sockets, also with a descriptor that
the poll has just closed. -/
namespace Cmsg.Server
open Cmsg.Base.Runs

/-! ## Sets of descriptors -/

def fdSetSize : Nat := 1024

/-- An `fd_set` has a bit for each of the first `FD_SETSIZE` descriptors. -/
structure FdSet where
  fds : Finset Nat
  lt_size : ∀ fd ∈ fds, fd < fdSetSize

namespace FdSet

instance : Membership Nat FdSet := ⟨fun s fd => fd ∈ s.fds⟩

instance (fd : Nat) (s : FdSet) : Decidable (fd ∈ s) := inferInstanceAs (Decidable (fd ∈ s.fds))

/-- `FD_ZERO` -/
def zero : FdSet := ⟨∅, by simp⟩

/-- `FD_SET`, as far as it writes to the set. -/
def set (s : FdSet) (fd : Nat) : FdSet :=
  if h : fd < fdSetSize then ⟨insert fd s.fds, Finset.forall_mem_insert _ _ _ |>.mpr ⟨h, s.lt_size⟩⟩
  else s

/-- `FD_CLR` -/
def clr (s : FdSet) (fd : Nat) : FdSet :=
  ⟨s.fds.erase fd, fun x hx => s.lt_size x (Finset.mem_of_mem_erase hx)⟩

def union (s t : FdSet) : FdSet :=
  ⟨s.fds ∪ t.fds, fun x hx => (Finset.mem_union.mp hx).elim (s.lt_size x) (t.lt_size x)⟩

/-- What `select` leaves of a set. -/
def filter (s : FdSet) (p : Nat → Bool) : FdSet :=
  ⟨s.fds.filter (p ·), fun x hx => s.lt_size x (Finset.mem_filter.mp hx).1⟩

@[simp] theorem mem_zero (fd : Nat) : fd ∉ zero := Finset.notMem_empty fd

theorem mem_set {s : FdSet} {fd x : Nat} (h : fd < fdSetSize) : x ∈ s.set fd ↔ x = fd ∨ x ∈ s := by
  unfold set
  rw [dif_pos h]
  exact Finset.mem_insert

@[simp] theorem mem_clr {s : FdSet} {fd x : Nat} : x ∈ s.clr fd ↔ x ≠ fd ∧ x ∈ s :=
  Finset.mem_erase

@[simp] theorem mem_filter {s : FdSet} {p : Nat → Bool} {x : Nat} :
    x ∈ s.filter p ↔ x ∈ s ∧ p x = true :=
  Finset.mem_filter

/-- The loop that looks for the largest descriptor from `fd` on downwards. -/
def largest (s : FdSet) : (fd : Nat) → Option Nat
  | 0 => if 0 ∈ s then some 0 else none
  | fd + 1 => if fd + 1 ∈ s then some (fd + 1) else s.largest fd

theorem le_largest {s : FdSet} {x : Nat} (hx : x ∈ s) :
    ∀ {fd : Nat}, x ≤ fd → ∃ top, s.largest fd = some top ∧ x ≤ top
  | 0, hle => by
    obtain rfl := Nat.le_zero.mp hle
    exact ⟨0, if_pos hx, le_rfl⟩
  | fd + 1, hle => by
    unfold largest
    split
    · exact ⟨fd + 1, rfl, hle⟩
    · next hnot =>
      have hne : x ≠ fd + 1 := fun h => hnot (h ▸ hx)
      exact le_largest hx (by omega)

end FdSet

/-! ## The poll -/

/-- `cmsg_server_accept_thread_info` -/
structure AcceptThreadInfo where
  acceptSdEventfd : Nat
  acceptSdQueue : List Nat

/-- A poll that goes through the descriptors after `select`. -/
structure ThreadScan where
  readFds : FdSet
  nfds : Nat
  fd : Nat
  checkFdmax : Bool
  /-- `fd` was closed and is still in the set. -/
  clearing : Bool

structure ThreadPoll where
  info : AcceptThreadInfo
  masterFdset : FdSet
  fdmax : Nat
  scan : Option ThreadScan
  /-- What was done with the accepted sockets. -/
  trace : List (SocketEvent Unit)
  /-- An `FD_SET` wrote outside its set. What it did to the memory there is not followed. -/
  overrun : Bool

inductive ThreadInput
  /-- The accept thread gets a socket and puts it in the queue. -/
  | accept (newfd : Nat)
  /-- The poll starts: `select` fails, or it finds these of the descriptors ready. -/
  | select (ready : Option (Finset Nat))
  /-- The next access of the poll. A socket from which it receives gives an error or not. -/
  | scan (fails : Bool)

namespace ThreadPoll

/-- As `cmsg_server_thread_task` sets it up. -/
def start (acceptSdEventfd : Nat) : ThreadPoll :=
  { info := ⟨acceptSdEventfd, []⟩
    masterFdset := FdSet.zero.set acceptSdEventfd
    fdmax := acceptSdEventfd
    scan := none
    trace := []
    overrun := decide (fdSetSize ≤ acceptSdEventfd) }

/-- To the next descriptor. -/
def next (s : ThreadPoll) (sc : ThreadScan) : ThreadPoll :=
  { s with scan := some { sc with fd := sc.fd + 1 } }

def clear (s : ThreadPoll) (sc : ThreadScan) : ThreadPoll :=
  { s with
    masterFdset := s.masterFdset.clr sc.fd
    scan := some { sc with fd := sc.fd + 1, checkFdmax := true, clearing := false } }

def finish (s : ThreadPoll) (sc : ThreadScan) : ThreadPoll :=
  { s with
    fdmax := if sc.checkFdmax then (s.masterFdset.largest s.fdmax).getD s.fdmax else s.fdmax
    scan := none }

def take (s : ThreadPoll) (newfd : Nat) (queue : List Nat) : ThreadPoll :=
  { s with
    info := { s.info with acceptSdQueue := queue }
    masterFdset := s.masterFdset.set newfd
    fdmax := max newfd s.fdmax
    trace := s.trace ++ [⟨(), newfd, .taken⟩]
    overrun := s.overrun || decide (fdSetSize ≤ newfd) }

def receive (s : ThreadPoll) (sc : ThreadScan) : ThreadPoll :=
  { s with trace := s.trace ++ [⟨(), sc.fd, .received⟩] }

/-- `cmsg_server_close_accepted_socket` -/
def closeAccepted (s : ThreadPoll) (sc : ThreadScan) : ThreadPoll :=
  { s with
    trace := s.trace ++ [⟨(), sc.fd, .closed⟩]
    scan := some { sc with clearing := true } }

def scanStep (s : ThreadPoll) (sc : ThreadScan) (fails : Bool) : ThreadPoll :=
  if sc.clearing then s.clear sc
  else if sc.nfds < sc.fd then s.finish sc
  else if sc.fd ∉ sc.readFds then s.next sc
  else if sc.fd = s.info.acceptSdEventfd then
    match s.info.acceptSdQueue with
    | [] => s.next sc
    | newfd :: queue => s.take newfd queue
  else if fails then (s.receive sc).closeAccepted sc
  else (s.receive sc).next sc

/-- `select` on the master set. With no descriptor ready the poll returns at once. -/
def select (s : ThreadPoll) (ready : Option (Finset Nat)) : ThreadPoll :=
  match ready with
  | none => s
  | some ready =>
    let readFds := s.masterFdset.filter fun fd => fd ≤ s.fdmax ∧ fd ∈ ready
    if readFds.fds = ∅ then s
    else { s with scan := some ⟨readFds, s.fdmax, 0, false, false⟩ }

/-- `accept` gives a descriptor that no open socket has. -/
def step : Machine ThreadPoll ThreadInput Empty
  | s, .accept newfd =>
    if socketStatus s.trace newfd = .free then
      some ({ s with
        info := { s.info with acceptSdQueue := s.info.acceptSdQueue ++ [newfd] }
        trace := s.trace ++ [⟨(), newfd, .accepted⟩] }, [])
    else none
  | s, .select ready => if s.scan.isNone then some (s.select ready, []) else none
  | s, .scan fails => s.scan.map fun sc => (s.scanStep sc fails, [])

/-- The descriptor that was closed and is not yet out of the set. -/
def closing (s : ThreadPoll) : Option Nat :=
  s.scan.bind fun sc => if sc.clearing then some sc.fd else none

/-! ## What the set is for -/

/-- The set has the accept event descriptor and the sockets that were taken from the queue and
not closed since, but for one between its close and its `FD_CLR`. -/
structure Kept (s : ThreadPoll) : Prop where
  inBounds : s.overrun = false
  master : s.closing = none → ∀ fd, fd ∈ s.masterFdset ↔
    fd = s.info.acceptSdEventfd ∨ StillOpen ⟨(), fd, .taken⟩ s.trace
  fdmax : ∀ fd ∈ s.masterFdset, fd ≤ s.fdmax
  received : ReceivedWhileOpen s.trace
  closed : ClosedOnce s.trace

/-- The descriptor that the next access of the poll takes from the queue. -/
def taking (s : ThreadPoll) : Option Nat :=
  s.scan.bind fun sc =>
    if sc.clearing = false ∧ sc.fd ≤ sc.nfds ∧ sc.fd ∈ sc.readFds ∧
      sc.fd = s.info.acceptSdEventfd then s.info.acceptSdQueue.head? else none

/-- A descriptor that is taken from the queue has a bit in the set. -/
def InBounds (s : ThreadPoll) : ThreadInput → Prop
  | .scan _ => ∀ newfd, s.taking = some newfd → newfd < fdSetSize
  | _ => True

/-- The descriptors that the poll still gets to and takes for ready. -/
def Ahead (sc : ThreadScan) (fd : Nat) : Prop :=
  fd ∈ sc.readFds ∧ sc.fd ≤ fd ∧ (sc.clearing = true → fd ≠ sc.fd)

structure Inv (s : ThreadPoll) : Prop where
  inBounds : s.overrun = false
  accounted : Accounted (fun _ => s.info.acceptSdQueue) s.trace
  master : ∀ fd, fd ∈ s.masterFdset ↔ fd = s.info.acceptSdEventfd ∨
    socketStatus s.trace fd = .held () ∨ s.closing = some fd
  fdmax : ∀ fd ∈ s.masterFdset, fd ≤ s.fdmax
  ahead : ∀ sc, s.scan = some sc → ∀ fd, Ahead sc fd →
    fd = s.info.acceptSdEventfd ∨ socketStatus s.trace fd = .held ()
  closing : ∀ fd, s.closing = some fd →
    fd ≠ s.info.acceptSdEventfd ∧ socketStatus s.trace fd ≠ .held ()

theorem Inv.kept {s : ThreadPoll} (h : s.Inv) : s.Kept := by
  refine ⟨h.inBounds, fun hclosing fd => ?_, h.fdmax, h.accounted.orderly.receivedWhileOpen,
    h.accounted.orderly.closedOnce⟩
  rw [h.master, h.accounted.orderly.held_iff]
  simp [hclosing]

theorem inv_start {eventfd : Nat} (h : eventfd < fdSetSize) : (start eventfd).Inv where
  inBounds := decide_eq_false (Nat.not_le.mpr h)
  accounted := ⟨.nil, by simp [start, socketStatus], by simp [start]⟩
  master fd := by simp [start, FdSet.mem_set h, closing, socketStatus]
  fdmax fd hfd := by
    simp only [start, FdSet.mem_set h, FdSet.mem_zero, or_false] at hfd
    exact hfd.le
  ahead sc hsc := by cases hsc
  closing fd hfd := by cases hfd

/-! ## One access at a time -/

section
variable {s : ThreadPoll} {sc : ThreadScan}

theorem closing_of_scan (hsc : s.scan = some sc) :
    s.closing = if sc.clearing then some sc.fd else none := by
  simp [closing, hsc]

theorem closing_next (hclear : sc.clearing = false) : (s.next sc).closing = none := by
  simp [closing, next, hclear]

theorem closing_clear : (s.clear sc).closing = none := rfl

theorem closing_finish : (s.finish sc).closing = none := rfl

theorem closing_receive : (s.receive sc).closing = s.closing := rfl

theorem closing_closeAccepted : (s.closeAccepted sc).closing = some sc.fd := rfl

/-- The invariant where no socket is between its close and its `FD_CLR`. -/
theorem inv_of_closing (hclosing : s.closing = none) (hbounds : s.overrun = false)
    (haccounted : Accounted (fun _ => s.info.acceptSdQueue) s.trace)
    (hmaster : ∀ fd, fd ∈ s.masterFdset ↔
      fd = s.info.acceptSdEventfd ∨ socketStatus s.trace fd = .held ())
    (hfdmax : ∀ fd ∈ s.masterFdset, fd ≤ s.fdmax)
    (hahead : ∀ sc, s.scan = some sc → ∀ fd, Ahead sc fd → fd ∈ s.masterFdset) : s.Inv where
  inBounds := hbounds
  accounted := haccounted
  master fd := by simp [hmaster, hclosing]
  fdmax := hfdmax
  ahead sc hsc fd hfd := (hmaster fd).mp (hahead sc hsc fd hfd)
  closing fd hfd := by simp [hclosing] at hfd

theorem Inv.mem_iff (h : s.Inv) (hclosing : s.closing = none) (fd : Nat) :
    fd ∈ s.masterFdset ↔ fd = s.info.acceptSdEventfd ∨ socketStatus s.trace fd = .held () := by
  simp [h.master, hclosing]

theorem Inv.mem_of_ahead (h : s.Inv) (hsc : s.scan = some sc) {fd : Nat} (hfd : Ahead sc fd) :
    fd ∈ s.masterFdset := by
  rw [h.master, ← or_assoc]
  exact .inl (h.ahead sc hsc fd hfd)

theorem inv_accept (h : s.Inv) {newfd : Nat} (hfree : socketStatus s.trace newfd = .free) :
    Inv { s with
      info := { s.info with acceptSdQueue := s.info.acceptSdQueue ++ [newfd] }
      trace := s.trace ++ [⟨(), newfd, .accepted⟩] } where
  inBounds := h.inBounds
  accounted := h.accounted.accept hfree rfl (by simp)
  master fd := by
    rw [held_accept hfree]
    exact h.master fd
  fdmax := h.fdmax
  ahead sc hsc fd hfd := by
    rw [held_accept hfree]
    exact h.ahead sc hsc fd hfd
  closing fd hfd := by
    rw [Ne, Ne, held_accept hfree]
    exact h.closing fd hfd

theorem inv_select (h : s.Inv) (hscan : s.scan = none) (ready : Option (Finset Nat)) :
    (s.select ready).Inv := by
  have hnone : s.closing = none := by simp [closing, hscan]
  unfold select
  split
  · exact h
  dsimp only
  split
  · exact h
  · refine inv_of_closing rfl h.inBounds h.accounted (h.mem_iff hnone) h.fdmax ?_
    rintro sc hsc fd ⟨hmem, -⟩
    obtain rfl := Option.some.inj hsc
    exact (FdSet.mem_filter.mp hmem).1

theorem inv_next (h : s.Inv) (hsc : s.scan = some sc) (hclear : sc.clearing = false) :
    (s.next sc).Inv := by
  have hnone : s.closing = none := by simp [closing_of_scan hsc, hclear]
  refine inv_of_closing (closing_next hclear) h.inBounds h.accounted (h.mem_iff hnone) h.fdmax ?_
  rintro sc' hsc' fd ⟨hmem, hle, -⟩
  obtain rfl := Option.some.inj hsc'
  exact h.mem_of_ahead hsc ⟨hmem, Nat.le_of_succ_le hle, by simp [hclear]⟩

theorem inv_clear (h : s.Inv) (hsc : s.scan = some sc) (hclear : sc.clearing = true) :
    (s.clear sc).Inv := by
  have hsome : s.closing = some sc.fd := by simp [closing_of_scan hsc, hclear]
  obtain ⟨hevent, hheld⟩ := h.closing sc.fd hsome
  refine inv_of_closing closing_clear h.inBounds h.accounted (fun fd => ?_) ?_ ?_
  · simp only [clear, FdSet.mem_clr, h.master, hsome]
    by_cases hfd : fd = sc.fd
    · subst hfd
      simp [hevent, hheld]
    · simp [hfd, Ne.symm hfd]
  · intro fd hfd
    exact h.fdmax fd (FdSet.mem_clr.mp hfd).2
  · rintro sc' hsc' fd ⟨hmem, hle, -⟩
    obtain rfl := Option.some.inj hsc'
    have hne : fd ≠ sc.fd := Nat.ne_of_gt hle
    exact FdSet.mem_clr.mpr ⟨hne, h.mem_of_ahead hsc ⟨hmem, Nat.le_of_succ_le hle, fun _ => hne⟩⟩

theorem inv_finish (h : s.Inv) (hsc : s.scan = some sc) (hclear : sc.clearing = false) :
    (s.finish sc).Inv := by
  have hnone : s.closing = none := by simp [closing_of_scan hsc, hclear]
  refine inv_of_closing closing_finish h.inBounds h.accounted (h.mem_iff hnone) ?_ ?_
  · intro fd (hfd : fd ∈ s.masterFdset)
    obtain ⟨top, htop, hle⟩ := FdSet.le_largest hfd (h.fdmax fd hfd)
    simp only [finish, htop, Option.getD_some]
    split
    · exact hle
    · exact h.fdmax fd hfd
  · intro sc' hsc'
    cases hsc'

theorem inv_take (h : s.Inv) (hsc : s.scan = some sc) (hclear : sc.clearing = false)
    {newfd : Nat} {queue : List Nat} (hqueue : s.info.acceptSdQueue = newfd :: queue)
    (hlt : newfd < fdSetSize) : (s.take newfd queue).Inv := by
  have hnone : s.closing = none := by simp [closing_of_scan hsc, hclear]
  have hqueued : socketStatus s.trace newfd = .queued () :=
    (h.accounted.queued () newfd).mp (by simp [hqueue])
  refine inv_of_closing hnone ?_ (h.accounted.take hqueue (by simp)) (fun fd => ?_) ?_ ?_
  · simp [take, h.inBounds, hlt]
  · simp only [take, FdSet.mem_set hlt, held_take hqueued, h.mem_iff hnone]
    tauto
  · intro fd hfd
    rcases (FdSet.mem_set hlt).mp hfd with rfl | hfd
    · exact le_max_left _ _
    · exact (h.fdmax fd hfd).trans (le_max_right _ _)
  · intro sc' hsc' fd hfd
    exact (FdSet.mem_set hlt).mpr (.inr (h.mem_of_ahead hsc' hfd))

theorem inv_receive (h : s.Inv) (hheld : socketStatus s.trace sc.fd = .held ()) :
    (s.receive sc).Inv := by
  have hsame := held_receive hheld
  refine ⟨h.inBounds, h.accounted.receive hheld, fun fd => ?_, h.fdmax, ?_, ?_⟩
  · rw [closing_receive, receive, hsame]
    exact h.master fd
  · rw [receive, hsame]
    exact h.ahead
  · rw [closing_receive, receive, hsame]
    exact h.closing

theorem inv_closeAccepted (h : s.Inv) (hsc : s.scan = some sc) (hclear : sc.clearing = false)
    (hheld : socketStatus s.trace sc.fd = .held ()) (hevent : sc.fd ≠ s.info.acceptSdEventfd) :
    (s.closeAccepted sc).Inv := by
  have hnone : s.closing = none := by simp [closing_of_scan hsc, hclear]
  refine ⟨h.inBounds, h.accounted.close hheld, fun fd => ?_, h.fdmax, ?_, ?_⟩
  · rw [closing_closeAccepted]
    simp only [closeAccepted, held_close, h.mem_iff hnone]
    by_cases hfd : fd = sc.fd
    · simp [hfd, hheld]
    · simp [hfd, Ne.symm hfd]
  · rintro sc' hsc' fd ⟨hmem, hle, hne⟩
    obtain rfl := Option.some.inj hsc'
    have hfd : fd ≠ sc.fd := hne rfl
    rcases h.ahead sc hsc fd ⟨hmem, hle, fun _ => hfd⟩ with heq | hheld'
    · exact .inl heq
    · exact .inr (held_close.mpr ⟨hfd, hheld'⟩)
  · intro fd hfd
    rw [closing_closeAccepted] at hfd
    obtain rfl := Option.some.inj hfd
    exact ⟨hevent, fun hheld' => (held_close.mp hheld').1 rfl⟩

theorem inv_scanStep (h : s.Inv) (hsc : s.scan = some sc) (fails : Bool)
    (htake : ∀ newfd, s.taking = some newfd → newfd < fdSetSize) : (s.scanStep sc fails).Inv := by
  unfold scanStep
  cases hclear : sc.clearing with
  | true => exact inv_clear h hsc hclear
  | false =>
    rw [if_neg Bool.false_ne_true]
    split
    · exact inv_finish h hsc hclear
    next hle =>
    split
    · exact inv_next h hsc hclear
    next hmem =>
    have hahead : Ahead sc sc.fd := ⟨not_not.mp hmem, le_rfl, by simp [hclear]⟩
    split
    · next hevent =>
      split
      · exact inv_next h hsc hclear
      · next newfd queue hqueue =>
        refine inv_take h hsc hclear hqueue (htake newfd ?_)
        rw [taking, hsc, Option.bind_some, if_pos ⟨hclear, not_lt.mp hle, hahead.1, hevent⟩, hqueue]
        rfl
    · next hevent =>
      have hheld := (h.ahead sc hsc sc.fd hahead).resolve_left hevent
      have hreceive := inv_receive h hheld
      split
      · refine inv_closeAccepted hreceive hsc hclear ?_ hevent
        rw [receive, held_receive hheld]
        exact hheld
      · exact inv_next hreceive hsc hclear

end

theorem inv_step {s s' : ThreadPoll} {i : ThreadInput} {o : List Empty} (h : s.Inv)
    (htake : s.InBounds i) (hs : step s i = some (s', o)) : s'.Inv := by
  cases i with
  | accept newfd =>
    simp only [step, Option.ite_none_right_eq_some, Option.some.injEq, Prod.mk.injEq] at hs
    obtain ⟨hfree, rfl, -⟩ := hs
    exact inv_accept h hfree
  | select ready =>
    simp only [step, Option.isNone_iff_eq_none, Option.ite_none_right_eq_some, Option.some.injEq,
      Prod.mk.injEq] at hs
    obtain ⟨hscan, rfl, -⟩ := hs
    exact inv_select h hscan ready
  | scan fails =>
    simp only [step, Option.map_eq_some_iff, Prod.mk.injEq] at hs
    obtain ⟨sc, hsc, rfl, -⟩ := hs
    exact inv_scanStep h hsc fails htake

/-- What is taken from the queue has no bit in the set. -/
theorem overrun_of_taking {s : ThreadPoll} {newfd : Nat} (htake : s.taking = some newfd)
    (hle : fdSetSize ≤ newfd) (fails : Bool) :
    ∃ s' o, step s (.scan fails) = some (s', o) ∧ s'.overrun = true := by
  simp only [taking, Option.bind_eq_some_iff, Option.ite_none_right_eq_some] at htake
  obtain ⟨sc, hsc, ⟨hclear, hnfds, hmem, hevent⟩, hhead⟩ := htake
  obtain ⟨queue, hqueue⟩ := List.head?_eq_some_iff.mp hhead
  refine ⟨s.scanStep sc fails, [], by simp [step, hsc], ?_⟩
  have hstep : s.scanStep sc fails = s.take newfd queue := by
    rw [scanStep, hclear, if_neg Bool.false_ne_true, if_neg (not_lt.mpr hnfds),
      if_neg (not_not.mpr hmem), if_pos hevent, hqueue]
  simp [hstep, take, hle]

/-- **The polls of a thread keep the set.** They do so in a run exactly when the event
descriptor and every socket that they take from the queue is below `FD_SETSIZE`. -/
theorem always_kept_iff (eventfd : Nat) (inputs : List ThreadInput) :
    Always step Kept (start eventfd) inputs ↔
      eventfd < fdSetSize ∧ Guarded step InBounds (start eventfd) inputs := by
  have hiff : ∀ heventfd : eventfd < fdSetSize, Always step Kept (start eventfd) inputs ↔
      Guarded step InBounds (start eventfd) inputs := fun heventfd =>
    always_iff_guarded (A := fun _ => True) (fun _ => Inv.kept)
      (fun _ _ _ _ hinv _ htake hs => inv_step hinv htake hs)
      (fun s i _ _ hnot => by
        cases i with
        | accept newfd => exact absurd trivial hnot
        | select ready => exact absurd trivial hnot
        | scan fails =>
          simp only [InBounds, not_forall, not_lt] at hnot
          obtain ⟨newfd, htake, hle⟩ := hnot
          obtain ⟨s', o, hs, hover⟩ := overrun_of_taking htake hle fails
          exact ⟨s', o, hs, fun hkept => by simp [hkept.inBounds] at hover⟩)
      (inv_start heventfd) inputs (by simp)
  constructor
  · intro h
    have hstart := (h [] inputs rfl (start eventfd) [] rfl).inBounds
    have heventfd : eventfd < fdSetSize := not_le.mp (of_decide_eq_false hstart)
    exact ⟨heventfd, (hiff heventfd).mp h⟩
  · rintro ⟨heventfd, hguard⟩
    exact (hiff heventfd).mpr hguard

end ThreadPoll
end Cmsg.Server
