import Cmsg.Server.ThreadPoll

/-! # Polling a list of servers

`cmsg_server_receive_poll_list`. One set of ready descriptors is shared by all servers of the
list, whose sets are updated one after the other; their accept threads go on in the meantime,
and while no traversal has the mutex of the list it can be changed. -/
namespace Cmsg.Server
open Cmsg.Base.Runs

/-- The fields of `cmsg_server` that the poll reads and writes. -/
structure ListServer where
  info : AcceptThreadInfo
  acceptedFdset : FdSet
  acceptedFdmax : Int

/-- The second traversal of the list. -/
structure ListScan (ι : Type) where
  readFds : FdSet
  fdmax : Int
  /-- The server that is looked at, and those after it. -/
  nodes : List ι
  fd : Nat
  /-- `fd` was closed and is still in the set of the server. -/
  clearing : Bool

inductive ListPhase (ι : Type)
  | idle
  | waiting (readFds : FdSet) (fdmax : Int)
  | scanning (sc : ListScan ι)

/-- The servers of a process, of which some are in the list. -/
structure ListPoll (ι : Type) where
  serverList : List ι
  server : ι → ListServer
  phase : ListPhase ι
  trace : List (SocketEvent ι)
  overrun : Bool

inductive ListInput (ι : Type)
  | accept (server : ι) (newfd : Nat)
  /-- The list is changed, which takes its mutex. -/
  | change (serverList : List ι)
  /-- The poll starts with the first traversal. -/
  | collect
  | select (ready : Option (Finset Nat))
  | scan (fails : Bool)

namespace ListPoll

section
variable {ι : Type}

/-- As `cmsg_server_create` sets the servers up. -/
def start (acceptSdEventfd : ι → Nat) (serverList : List ι) : ListPoll ι :=
  { serverList := serverList
    server := fun i => ⟨⟨acceptSdEventfd i, []⟩, FdSet.zero, 0⟩
    phase := .idle
    trace := []
    overrun := false }

/-- What the first traversal collects from one server. -/
def collectServer (server : ListServer) (acc : FdSet × Int) : FdSet × Int :=
  let readFds := acc.1.set server.info.acceptSdEventfd
  let fdmax := max acc.2 server.info.acceptSdEventfd
  (readFds.union (server.acceptedFdset.filter fun fd => fd ≤ server.acceptedFdmax),
    max fdmax server.acceptedFdmax)

def collected (s : ListPoll ι) : FdSet × Int :=
  s.serverList.foldl (fun acc i => collectServer (s.server i) acc) (FdSet.zero, 0)

def collect (s : ListPoll ι) : ListPoll ι :=
  if s.serverList = [] then s
  else
    { s with
      phase := .waiting s.collected.1 s.collected.2
      overrun := s.overrun ||
        s.serverList.any fun i => fdSetSize ≤ (s.server i).info.acceptSdEventfd }

def select (s : ListPoll ι) (readFds : FdSet) (fdmax : Int) (ready : Option (Finset Nat)) :
    ListPoll ι :=
  match ready with
  | none => { s with phase := .idle }
  | some ready =>
    let readFds := readFds.filter fun fd => fd ≤ fdmax ∧ fd ∈ ready
    if readFds.fds = ∅ then { s with phase := .idle }
    else { s with phase := .scanning ⟨readFds, fdmax, s.serverList, 0, false⟩ }

def next (s : ListPoll ι) (sc : ListScan ι) : ListPoll ι :=
  { s with phase := .scanning { sc with fd := sc.fd + 1 } }

/-- The descriptor is not looked at for the servers that follow. -/
def drop (s : ListPoll ι) (sc : ListScan ι) : ListPoll ι :=
  { s with phase := .scanning { sc with readFds := sc.readFds.clr sc.fd, fd := sc.fd + 1 } }

def nextServer (s : ListPoll ι) (sc : ListScan ι) (nodes : List ι) : ListPoll ι :=
  { s with phase := .scanning { sc with nodes := nodes, fd := 0 } }

def receive (s : ListPoll ι) (sc : ListScan ι) (i : ι) : ListPoll ι :=
  { s with trace := s.trace ++ [⟨i, sc.fd, .received⟩] }

/-- `cmsg_server_close_accepted_socket` -/
def closeAccepted (s : ListPoll ι) (sc : ListScan ι) (i : ι) : ListPoll ι :=
  { s with
    trace := s.trace ++ [⟨i, sc.fd, .closed⟩]
    phase := .scanning { sc with clearing := true } }

section
variable [DecidableEq ι]

def accept (s : ListPoll ι) (i : ι) (newfd : Nat) : ListPoll ι :=
  let server := s.server i
  { s with
    server := Function.update s.server i
      { server with
        info := { server.info with acceptSdQueue := server.info.acceptSdQueue ++ [newfd] } }
    trace := s.trace ++ [⟨i, newfd, .accepted⟩] }

def take (s : ListPoll ι) (i : ι) (newfd : Nat) (queue : List Nat) : ListPoll ι :=
  let server := s.server i
  { s with
    server := Function.update s.server i
      { info := { server.info with acceptSdQueue := queue }
        acceptedFdset := server.acceptedFdset.set newfd
        acceptedFdmax := max server.acceptedFdmax newfd }
    trace := s.trace ++ [⟨i, newfd, .taken⟩]
    overrun := s.overrun || decide (fdSetSize ≤ newfd) }

def clear (s : ListPoll ι) (sc : ListScan ι) (i : ι) : ListPoll ι :=
  let server := s.server i
  { s with
    server := Function.update s.server i
      { server with
        acceptedFdset := server.acceptedFdset.clr sc.fd
        acceptedFdmax :=
          if server.acceptedFdmax = sc.fd then server.acceptedFdmax - 1
          else server.acceptedFdmax }
    phase := .scanning
      { sc with readFds := sc.readFds.clr sc.fd, fd := sc.fd + 1, clearing := false } }

def scanStep (s : ListPoll ι) (sc : ListScan ι) (fails : Bool) : ListPoll ι :=
  match sc.nodes with
  | [] => { s with phase := .idle }
  | i :: nodes =>
    if sc.clearing then s.clear sc i
    else if sc.fdmax < sc.fd then s.nextServer sc nodes
    else if sc.fd ∉ sc.readFds then s.next sc
    else if sc.fd = (s.server i).info.acceptSdEventfd then
      match (s.server i).info.acceptSdQueue with
      | [] => s.next sc
      | newfd :: queue => s.take i newfd queue
    else if sc.fd ∉ (s.server i).acceptedFdset then s.next sc
    else if fails then (s.receive sc i).closeAccepted sc i
    else (s.receive sc i).drop sc

/-- `accept` gives a descriptor that no open socket has. -/
def step : Machine (ListPoll ι) (ListInput ι) Empty
  | s, .accept i newfd =>
    if socketStatus s.trace newfd = .free then some (s.accept i newfd, []) else none
  | s, .change serverList =>
    match s.phase with
    | .scanning _ => none
    | _ => some ({ s with serverList := serverList }, [])
  | s, .collect =>
    match s.phase with
    | .idle => some (s.collect, [])
    | _ => none
  | s, .select ready =>
    match s.phase with
    | .waiting readFds fdmax => some (s.select readFds fdmax ready, [])
    | _ => none
  | s, .scan fails =>
    match s.phase with
    | .scanning sc => some (s.scanStep sc fails, [])
    | _ => none

end

/-- The server and the socket that was closed and is not yet out of its set. -/
def closing (s : ListPoll ι) : Option (ι × Nat) :=
  match s.phase with
  | .scanning sc => if sc.clearing then sc.nodes.head?.map (·, sc.fd) else none
  | _ => none

/-- The descriptor that the next access of the poll takes from the queue of a server. -/
def taking (s : ListPoll ι) : Option Nat :=
  match s.phase with
  | .scanning sc => sc.nodes.head?.bind fun i =>
      if sc.clearing = false ∧ sc.fd ≤ sc.fdmax ∧ sc.fd ∈ sc.readFds ∧
        sc.fd = (s.server i).info.acceptSdEventfd then (s.server i).info.acceptSdQueue.head?
      else none
  | _ => none

/-- A descriptor that is put in a set has a bit there: the event descriptors that the first
traversal collects, and what is taken from a queue. -/
def InBounds (s : ListPoll ι) : ListInput ι → Prop
  | .collect =>
    match s.phase with
    | .idle => ∀ i ∈ s.serverList, (s.server i).info.acceptSdEventfd < fdSetSize
    | _ => True
  | .scan _ => ∀ newfd, s.taking = some newfd → newfd < fdSetSize
  | _ => True

/-! ## What the sets are for -/

/-- Each set has the sockets that its server took from its queue and did not close since, but
for one between its close and its `FD_CLR`. -/
structure Kept (s : ListPoll ι) : Prop where
  inBounds : s.overrun = false
  accepted : s.closing = none → ∀ i fd,
    fd ∈ (s.server i).acceptedFdset ↔ StillOpen ⟨i, fd, .taken⟩ s.trace
  fdmax : ∀ i, ∀ fd ∈ (s.server i).acceptedFdset, (fd : Int) ≤ (s.server i).acceptedFdmax
  received : ReceivedWhileOpen s.trace
  closed : ClosedOnce s.trace

structure Inv (s : ListPoll ι) : Prop where
  inBounds : s.overrun = false
  accounted : Accounted (fun i => (s.server i).info.acceptSdQueue) s.trace
  accepted : ∀ i fd, fd ∈ (s.server i).acceptedFdset ↔
    socketStatus s.trace fd = .held i ∨ s.closing = some (i, fd)
  fdmax : ∀ i, ∀ fd ∈ (s.server i).acceptedFdset, (fd : Int) ≤ (s.server i).acceptedFdmax
  closing : ∀ i fd, s.closing = some (i, fd) → socketStatus s.trace fd ≠ .held i

theorem Inv.kept {s : ListPoll ι} (h : s.Inv) : s.Kept := by
  refine ⟨h.inBounds, fun hclosing i fd => ?_, h.fdmax, h.accounted.orderly.receivedWhileOpen,
    h.accounted.orderly.closedOnce⟩
  rw [h.accepted, h.accounted.orderly.held_iff]
  simp [hclosing]

theorem inv_start (eventfd : ι → Nat) (serverList : List ι) : (start eventfd serverList).Inv where
  inBounds := rfl
  accounted := ⟨.nil, by simp [start, socketStatus], by simp [start]⟩
  accepted i fd := by simp [start, closing, socketStatus]
  fdmax i fd hfd := absurd hfd (FdSet.mem_zero fd)
  closing i fd hfd := by cases hfd

/-! ## One access at a time -/

section
variable {s : ListPoll ι} {sc : ListScan ι} {i : ι} {nodes : List ι}

theorem closing_of_scanning (hphase : s.phase = .scanning sc) (hnodes : sc.nodes = i :: nodes) :
    s.closing = if sc.clearing then some (i, sc.fd) else none := by
  simp [closing, hphase, hnodes]

/-- A change of the phase alone keeps the invariant where no socket is between its close and
its `FD_CLR`. -/
theorem inv_phase (h : s.Inv) (hclosing : s.closing = none) {phase : ListPhase ι}
    (hclosing' : closing { s with phase := phase } = none) : Inv { s with phase := phase } := by
  refine ⟨h.inBounds, h.accounted, ?_, h.fdmax, fun i fd hfd => ?_⟩
  · rw [hclosing', ← hclosing]
    exact h.accepted
  · rw [hclosing'] at hfd
    cases hfd

theorem closing_scanning (sc : ListScan ι) (hclear : sc.clearing = false) :
    closing { s with phase := .scanning sc } = none := by
  simp [closing, hclear]

theorem inv_change (h : s.Inv) (serverList : List ι) : Inv { s with serverList := serverList } :=
  ⟨h.inBounds, h.accounted, h.accepted, h.fdmax, h.closing⟩

theorem inv_receive (h : s.Inv) (hheld : socketStatus s.trace sc.fd = .held i) :
    (s.receive sc i).Inv := by
  have hsame := held_receive hheld
  have hclosing : (s.receive sc i).closing = s.closing := rfl
  refine ⟨h.inBounds, h.accounted.receive hheld, ?_, h.fdmax, ?_⟩
  · rw [hclosing, receive, hsame]
    exact h.accepted
  · rw [hclosing, receive, hsame]
    exact h.closing

theorem inv_closeAccepted (h : s.Inv) (hclosing : s.closing = none) (hnodes : sc.nodes = i :: nodes)
    (hheld : socketStatus s.trace sc.fd = .held i) : (s.closeAccepted sc i).Inv := by
  have hclosing' : (s.closeAccepted sc i).closing = some (i, sc.fd) := by
    simp [closeAccepted, closing, hnodes]
  refine ⟨h.inBounds, h.accounted.close hheld, fun j fd => ?_, h.fdmax, fun j fd hfd => ?_⟩
  · have hold := h.accepted j fd
    simp only [hclosing, reduceCtorEq, or_false] at hold
    rw [hclosing']
    simp only [closeAccepted, held_close, hold, Option.some.injEq, Prod.mk.injEq]
    by_cases hfd : fd = sc.fd
    · subst hfd
      simp [hheld]
    · simp [hfd, Ne.symm hfd]
  · simp only [hclosing', Option.some.injEq, Prod.mk.injEq] at hfd
    exact fun hheld' => (held_close.mp hheld').1 hfd.2.symm

theorem inv_select (h : s.Inv) {readFds : FdSet} {fdmax : Int}
    (hphase : s.phase = .waiting readFds fdmax) (ready : Option (Finset Nat)) :
    (s.select readFds fdmax ready).Inv := by
  have hclosing : s.closing = none := by simp [closing, hphase]
  unfold select
  split
  · exact inv_phase h hclosing rfl
  dsimp only
  split
  · exact inv_phase h hclosing rfl
  · exact inv_phase h hclosing rfl

theorem inv_collect (h : s.Inv) (hphase : s.phase = .idle)
    (hbounds : ∀ i ∈ s.serverList, (s.server i).info.acceptSdEventfd < fdSetSize) :
    s.collect.Inv := by
  have hclosing : s.closing = none := by simp [closing, hphase]
  unfold collect
  split
  · exact h
  · have hwaiting : Inv { s with phase := .waiting s.collected.1 s.collected.2 } :=
      inv_phase h hclosing rfl
    refine ⟨?_, hwaiting.accounted, hwaiting.accepted, hwaiting.fdmax, hwaiting.closing⟩
    simpa [h.inBounds] using hbounds

section
variable [DecidableEq ι]

theorem inv_accept (h : s.Inv) (i : ι) {newfd : Nat} (hfree : socketStatus s.trace newfd = .free) :
    (s.accept i newfd).Inv := by
  have hset : ∀ j, ((s.accept i newfd).server j).acceptedFdset = (s.server j).acceptedFdset ∧
      ((s.accept i newfd).server j).acceptedFdmax = (s.server j).acceptedFdmax := by
    intro j
    by_cases hj : j = i
    · subst hj
      simp [accept]
    · simp [accept, hj]
  have hclosing : (s.accept i newfd).closing = s.closing := rfl
  refine ⟨h.inBounds, h.accounted.accept (i := i) hfree ?_ ?_, fun j fd => ?_, fun j fd hfd => ?_,
    fun j fd hfd => ?_⟩
  · simp [accept]
  · intro j hj
    simp [accept, hj]
  · rw [(hset j).1, hclosing, accept, held_accept hfree]
    exact h.accepted j fd
  · rw [(hset j).2]
    exact h.fdmax j fd ((hset j).1 ▸ hfd)
  · rw [accept, Ne, held_accept hfree]
    exact h.closing j fd hfd

theorem inv_take (h : s.Inv) (hclosing : s.closing = none) {newfd : Nat} {queue : List Nat}
    (hqueue : (s.server i).info.acceptSdQueue = newfd :: queue) (hlt : newfd < fdSetSize) :
    (s.take i newfd queue).Inv := by
  have hclosing' : (s.take i newfd queue).closing = none := hclosing
  have hqueued : socketStatus s.trace newfd = .queued i :=
    (h.accounted.queued i newfd).mp (by simp [hqueue])
  refine ⟨?_, h.accounted.take (i := i) ?_ ?_, fun j fd => ?_, fun j fd hfd => ?_,
    fun j fd hfd => ?_⟩
  · simp [take, h.inBounds, hlt]
  · simpa [take] using hqueue
  · intro j hj
    simp [take, hj]
  · have hold := h.accepted j fd
    simp only [hclosing, reduceCtorEq, or_false] at hold
    simp only [hclosing', reduceCtorEq, or_false]
    rw [take, held_take hqueued]
    by_cases hj : j = i
    · subst hj
      simp [FdSet.mem_set hlt, hold]
    · simp [hj, hold]
  · by_cases hj : j = i
    · subst hj
      simp only [take, Function.update_self, FdSet.mem_set hlt] at hfd ⊢
      rcases hfd with rfl | hfd
      · exact le_max_right _ _
      · exact (h.fdmax j fd hfd).trans (le_max_left _ _)
    · simp only [take, Function.update_of_ne hj] at hfd ⊢
      exact h.fdmax j fd hfd
  · simp [hclosing'] at hfd

theorem inv_clear (h : s.Inv) (hphase : s.phase = .scanning sc) (hnodes : sc.nodes = i :: nodes)
    (hclear : sc.clearing = true) : (s.clear sc i).Inv := by
  have hclosing : s.closing = some (i, sc.fd) := by
    rw [closing_of_scanning hphase hnodes, if_pos hclear]
  have hclosing' : (s.clear sc i).closing = none := rfl
  have hheld := h.closing i sc.fd hclosing
  refine ⟨h.inBounds, ?_, fun j fd => ?_, fun j fd hfd => ?_, fun j fd hfd => ?_⟩
  · have hqueue : (fun j => ((s.clear sc i).server j).info.acceptSdQueue) =
        fun j => (s.server j).info.acceptSdQueue := by
      funext j
      by_cases hj : j = i
      · subst hj
        simp [clear]
      · simp [clear, hj]
    rw [hqueue]
    exact h.accounted
  · have hold := h.accepted j fd
    rw [hclosing] at hold
    simp only [hclosing', reduceCtorEq, or_false]
    by_cases hj : j = i
    · subst hj
      by_cases hfd : fd = sc.fd
      · subst hfd
        simpa [clear] using hheld
      · simpa [clear, hfd, Ne.symm hfd] using hold
    · simpa [clear, hj, Ne.symm hj] using hold
  · by_cases hj : j = i
    · subst hj
      simp only [clear, Function.update_self, FdSet.mem_clr] at hfd ⊢
      have hle := h.fdmax j fd hfd.2
      split
      · omega
      · exact hle
    · simp only [clear, Function.update_of_ne hj] at hfd ⊢
      exact h.fdmax j fd hfd
  · simp [hclosing'] at hfd

theorem inv_scanStep (h : s.Inv) (hphase : s.phase = .scanning sc) (fails : Bool)
    (htake : ∀ newfd, s.taking = some newfd → newfd < fdSetSize) : (s.scanStep sc fails).Inv := by
  unfold scanStep
  split
  · next hnodes => exact inv_phase h (by simp [closing, hphase, hnodes]) rfl
  next i nodes hnodes =>
  cases hclear : sc.clearing with
  | true => exact inv_clear h hphase hnodes hclear
  | false =>
    have hclosing : s.closing = none := by simp [closing_of_scanning hphase hnodes, hclear]
    have hnext : (s.next sc).Inv := inv_phase h hclosing (closing_scanning _ hclear)
    rw [if_neg Bool.false_ne_true]
    split
    · exact inv_phase h hclosing (closing_scanning _ hclear)
    next hle =>
    split
    · exact hnext
    next hmem =>
    split
    · next hevent =>
      split
      · exact hnext
      · next newfd queue hqueue =>
        refine inv_take h hclosing hqueue (htake newfd ?_)
        have hat : sc.clearing = false ∧ (sc.fd : Int) ≤ sc.fdmax ∧ sc.fd ∈ sc.readFds ∧
            sc.fd = (s.server i).info.acceptSdEventfd :=
          ⟨hclear, not_lt.mp hle, not_not.mp hmem, hevent⟩
        simp only [taking, hphase, hnodes, List.head?_cons, Option.bind_some]
        rw [if_pos hat, hqueue]
        rfl
    split
    · exact hnext
    · next haccepted =>
      have hheld : socketStatus s.trace sc.fd = .held i := by
        simpa [hclosing] using (h.accepted i sc.fd).mp (not_not.mp haccepted)
      have hreceive := inv_receive h hheld
      split
      · refine inv_closeAccepted hreceive hclosing hnodes ?_
        rw [receive, held_receive hheld]
        exact hheld
      · exact inv_phase hreceive hclosing (closing_scanning _ hclear)

end
end

variable [DecidableEq ι]

theorem inv_step {s s' : ListPoll ι} {i : ListInput ι} {o : List Empty} (h : s.Inv)
    (hbounds : s.InBounds i) (hs : step s i = some (s', o)) : s'.Inv := by
  cases i with
  | accept i newfd =>
    simp only [step, Option.ite_none_right_eq_some, Option.some.injEq, Prod.mk.injEq] at hs
    obtain ⟨hfree, rfl, -⟩ := hs
    exact inv_accept h i hfree
  | change serverList =>
    cases hphase : s.phase with
    | scanning sc => simp [step, hphase] at hs
    | idle | waiting =>
      simp only [step, hphase, Option.some.injEq, Prod.mk.injEq] at hs
      obtain ⟨rfl, -⟩ := hs
      exact hphase ▸ inv_change h serverList
  | collect =>
    cases hphase : s.phase with
    | idle =>
      simp only [step, hphase, Option.some.injEq, Prod.mk.injEq] at hs
      obtain ⟨rfl, -⟩ := hs
      simp only [InBounds, hphase] at hbounds
      exact inv_collect h hphase hbounds
    | waiting | scanning => simp [step, hphase] at hs
  | select ready =>
    cases hphase : s.phase with
    | waiting readFds fdmax =>
      simp only [step, hphase, Option.some.injEq, Prod.mk.injEq] at hs
      obtain ⟨rfl, -⟩ := hs
      exact inv_select h hphase ready
    | idle | scanning => simp [step, hphase] at hs
  | scan fails =>
    cases hphase : s.phase with
    | scanning sc =>
      simp only [step, hphase, Option.some.injEq, Prod.mk.injEq] at hs
      obtain ⟨rfl, -⟩ := hs
      exact inv_scanStep h hphase fails hbounds
    | idle | waiting => simp [step, hphase] at hs

theorem overrun_of_not_inBounds {s : ListPoll ι} {i : ListInput ι} (h : ¬ s.InBounds i) :
    ∃ s' o, step s i = some (s', o) ∧ s'.overrun = true := by
  cases i with
  | accept | change | select => exact absurd trivial h
  | collect =>
    cases hphase : s.phase with
    | waiting | scanning => simp [InBounds, hphase] at h
    | idle =>
      simp only [InBounds, hphase, not_forall, not_lt] at h
      obtain ⟨i, hmem, hle⟩ := h
      refine ⟨s.collect, [], by simp [step, hphase], ?_⟩
      rw [collect, if_neg (List.ne_nil_of_mem hmem)]
      simp only [Bool.or_eq_true, List.any_eq_true, decide_eq_true_eq]
      exact .inr ⟨i, hmem, hle⟩
  | scan fails =>
    simp only [InBounds, not_forall, not_lt] at h
    obtain ⟨newfd, htake, hle⟩ := h
    cases hphase : s.phase with
    | idle | waiting => simp [taking, hphase] at htake
    | scanning sc =>
      simp only [taking, hphase, Option.bind_eq_some_iff, Option.ite_none_right_eq_some] at htake
      obtain ⟨i, hhead, ⟨hclear, hfdmax, hmem, hevent⟩, hqueued⟩ := htake
      obtain ⟨nodes, hnodes⟩ := List.head?_eq_some_iff.mp hhead
      obtain ⟨queue, hqueue⟩ := List.head?_eq_some_iff.mp hqueued
      refine ⟨s.scanStep sc fails, [], by simp [step, hphase], ?_⟩
      have hstep : s.scanStep sc fails = s.take i newfd queue := by
        rw [scanStep, hnodes]
        dsimp only
        rw [hclear, if_neg Bool.false_ne_true, if_neg (not_lt.mpr hfdmax),
          if_neg (not_not.mpr hmem), if_pos hevent, hqueue]
      simp [hstep, take, hle]

/-- **The polls of a list keep the sets.** They do so in a run exactly when the event
descriptors that they collect and every socket that they take from a queue are below
`FD_SETSIZE`. -/
theorem always_listKept_iff (eventfd : ι → Nat) (serverList : List ι)
    (inputs : List (ListInput ι)) :
    Always step Kept (start eventfd serverList) inputs ↔
      Guarded step InBounds (start eventfd serverList) inputs :=
  always_iff_guarded (A := fun _ => True) (fun _ => Inv.kept)
    (fun _ _ _ _ hinv _ hbounds hs => inv_step hinv hbounds hs)
    (fun s i _ _ hnot => by
      obtain ⟨s', o, hs, hover⟩ := overrun_of_not_inBounds hnot
      exact ⟨s', o, hs, fun hkept => by simp [hkept.inBounds] at hover⟩)
    (inv_start eventfd serverList) inputs (by simp)

end
end ListPoll

/-! ## Both polls -/

/-- **The sets of the polls.** Along every run of polls in the thread of a server, and of polls
of a list of servers, whatever the accept threads do in the meantime, the sets are the open
sockets that were taken, below the maxima, and sockets are received from and closed properly,
exactly as long as no descriptor is put in a set that has no bit for it. -/
theorem poll_sets_iff {ι : Type} [DecidableEq ι] (eventfd : Nat) (inputs : List ThreadInput)
    (eventfds : ι → Nat) (serverList : List ι) (listInputs : List (ListInput ι)) :
    (Always ThreadPoll.step ThreadPoll.Kept (ThreadPoll.start eventfd) inputs ↔
      eventfd < fdSetSize ∧
        Guarded ThreadPoll.step ThreadPoll.InBounds (ThreadPoll.start eventfd) inputs) ∧
    (Always ListPoll.step ListPoll.Kept (ListPoll.start eventfds serverList) listInputs ↔
      Guarded ListPoll.step ListPoll.InBounds (ListPoll.start eventfds serverList) listInputs) :=
  ⟨ThreadPoll.always_kept_iff eventfd inputs,
    ListPoll.always_listKept_iff eventfds serverList listInputs⟩

/-- The accept thread gets the socket 1024, and a poll takes it. -/
def highRun : List ThreadInput :=
  [.accept 1024, .select (some {3}), .scan false, .scan false, .scan false, .scan false,
    .scan false, .scan false]

/-- The socket is open after the poll, and not in the set. -/
theorem high_descriptor_missing : ∃ t,
    exec ThreadPoll.step (ThreadPoll.start 3) highRun = some (t, []) ∧ t.scan = none ∧
      StillOpen ⟨(), 1024, .taken⟩ t.trace ∧ 1024 ∉ t.masterFdset ∧ ¬ t.Kept := by
  refine ⟨_, rfl, rfl, ⟨[⟨(), 1024, .accepted⟩], [], rfl, by simp⟩, ?_, fun hkept => ?_⟩
  · decide
  · cases hkept.inBounds

end Cmsg.Server
