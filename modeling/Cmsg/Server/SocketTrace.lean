import Mathlib.Data.List.Induction
import Mathlib.Data.List.Nodup
import Mathlib.Logic.Function.Basic
import Mathlib.Tactic.Push

/-! # The life of accepted sockets

What a process does with the sockets that its servers accept, as a list of events: a socket is
accepted and put in the queue of a server, taken from the queue, received from any number of
times, and closed, after which its descriptor can be given to another one. -/
namespace Cmsg.Server

inductive SocketAction
  | accepted
  | taken
  | received
  | closed
deriving DecidableEq, Repr

structure SocketEvent (ι : Type) where
  server : ι
  fd : Nat
  action : SocketAction
deriving DecidableEq, Repr

/-- Whose a descriptor is: of no accepted socket, of one in the queue of a server, or of one
that a server has taken. -/
inductive SocketStatus (ι : Type)
  | free
  | queued (server : ι)
  | held (server : ι)
deriving DecidableEq, Repr

section
variable {ι : Type}

/-- What its event makes of a descriptor. -/
def SocketEvent.status (e : SocketEvent ι) : SocketStatus ι :=
  match e.action with
  | .accepted => .queued e.server
  | .taken => .held e.server
  | .received => .held e.server
  | .closed => .free

def socketStatus (trace : List (SocketEvent ι)) : Nat → SocketStatus ι :=
  trace.foldl (fun status e => Function.update status e.fd e.status) fun _ => .free

/-- The status in which an event finds its descriptor. -/
def SocketEvent.Allowed (status : Nat → SocketStatus ι) (e : SocketEvent ι) : Prop :=
  match e.action with
  | .accepted => status e.fd = .free
  | .taken => status e.fd = .queued e.server
  | .received => status e.fd = .held e.server
  | .closed => status e.fd = .held e.server

inductive Orderly : List (SocketEvent ι) → Prop
  | nil : Orderly []
  | snoc {trace : List (SocketEvent ι)} {e : SocketEvent ι} (before : Orderly trace)
      (last : e.Allowed (socketStatus trace)) : Orderly (trace ++ [e])

theorem socketStatus_snoc (trace : List (SocketEvent ι)) (e : SocketEvent ι) :
    socketStatus (trace ++ [e]) = Function.update (socketStatus trace) e.fd e.status := by
  unfold socketStatus
  rw [List.foldl_append]
  rfl

theorem orderly_snoc {trace : List (SocketEvent ι)} {e : SocketEvent ι} :
    Orderly (trace ++ [e]) ↔ Orderly trace ∧ e.Allowed (socketStatus trace) := by
  constructor
  · intro h
    generalize hall : trace ++ [e] = all at h
    cases h with
    | nil => simp at hall
    | snoc before last =>
      obtain ⟨rfl, he⟩ := List.append_inj' hall rfl
      obtain rfl := List.singleton_inj.mp he
      exact ⟨before, last⟩
  · rintro ⟨before, last⟩
    exact .snoc before last

theorem Orderly.split {before after : List (SocketEvent ι)} {e : SocketEvent ι}
    (h : Orderly (before ++ e :: after)) : Orderly before ∧ e.Allowed (socketStatus before) := by
  induction after using List.reverseRecOn with
  | nil => exact orderly_snoc.mp h
  | append_singleton after last ih =>
    have hassoc : before ++ e :: (after ++ [last]) = (before ++ e :: after) ++ [last] := by simp
    rw [hassoc] at h
    exact ih (orderly_snoc.mp h).1

/-! ## Which sockets are held after an event -/

section
variable {trace : List (SocketEvent ι)} {i j : ι} {fd x : Nat}

theorem held_accept (hfree : socketStatus trace fd = .free) :
    socketStatus (trace ++ [⟨i, fd, .accepted⟩]) x = .held j ↔ socketStatus trace x = .held j := by
  rw [socketStatus_snoc]
  by_cases hx : x = fd
  · simp [hx, hfree, SocketEvent.status]
  · simp [hx]

theorem held_take (hqueued : socketStatus trace fd = .queued i) :
    socketStatus (trace ++ [⟨i, fd, .taken⟩]) x = .held j ↔
      x = fd ∧ j = i ∨ socketStatus trace x = .held j := by
  rw [socketStatus_snoc]
  by_cases hx : x = fd
  · simp [hx, hqueued, SocketEvent.status, eq_comm]
  · simp [hx]

theorem held_receive (hheld : socketStatus trace fd = .held i) :
    socketStatus (trace ++ [⟨i, fd, .received⟩]) = socketStatus trace := by
  rw [socketStatus_snoc]
  exact Function.update_eq_self_iff.mpr hheld.symm

theorem held_close : socketStatus (trace ++ [⟨i, fd, .closed⟩]) x = .held j ↔
    x ≠ fd ∧ socketStatus trace x = .held j := by
  rw [socketStatus_snoc]
  by_cases hx : x = fd
  · simp [hx, SocketEvent.status]
  · simp [hx]

end

/-! ## What happened and was not undone -/

/-- The event happened, and its descriptor was not closed since. -/
def StillOpen (e : SocketEvent ι) (trace : List (SocketEvent ι)) : Prop :=
  ∃ before after, trace = before ++ e :: after ∧
    ∀ later ∈ after, later.fd = e.fd → later.action ≠ .closed

theorem stillOpen_snoc {e last : SocketEvent ι} {trace : List (SocketEvent ι)} :
    StillOpen e (trace ++ [last]) ↔
      last = e ∨ StillOpen e trace ∧ (last.fd = e.fd → last.action ≠ .closed) := by
  constructor
  · rintro ⟨before, after, hsplit, hlater⟩
    rcases List.eq_nil_or_concat after with rfl | ⟨after, last', rfl⟩
    · obtain ⟨-, he⟩ := List.append_inj' hsplit rfl
      exact .inl (List.singleton_inj.mp he)
    · have hassoc : before ++ e :: after.concat last' = (before ++ e :: after) ++ [last'] := by
        simp
      obtain ⟨rfl, he⟩ := List.append_inj' (hsplit.trans hassoc) rfl
      obtain rfl := List.singleton_inj.mp he
      refine .inr ⟨⟨before, after, rfl, fun later hmem => hlater later ?_⟩, hlater last ?_⟩
      · simp [hmem]
      · simp
  · rintro (rfl | ⟨⟨before, after, rfl, hlater⟩, hlast⟩)
    · exact ⟨trace, [], rfl, by simp⟩
    · refine ⟨before, after ++ [last], by simp, fun later hmem => ?_⟩
      rcases List.mem_append.mp hmem with hmem | hmem
      · exact hlater later hmem
      · obtain rfl := List.mem_singleton.mp hmem
        exact hlast

theorem Orderly.held_iff {trace : List (SocketEvent ι)} (h : Orderly trace) (i : ι) (fd : Nat) :
    socketStatus trace fd = .held i ↔ StillOpen ⟨i, fd, .taken⟩ trace := by
  induction h with
  | nil => simp [socketStatus, StillOpen]
  | @snoc trace e _ last ih =>
    obtain ⟨j, fd', action⟩ := e
    rw [socketStatus_snoc, stillOpen_snoc, ← ih]
    by_cases hfd : fd = fd'
    · subst hfd
      cases action <;> simp_all [SocketEvent.status, SocketEvent.Allowed, eq_comm]
    · cases action <;> simp_all [Function.update_of_ne, eq_comm]

theorem Orderly.open_iff {trace : List (SocketEvent ι)} (h : Orderly trace) (i : ι) (fd : Nat) :
    (socketStatus trace fd = .queued i ∨ socketStatus trace fd = .held i) ↔
      StillOpen ⟨i, fd, .accepted⟩ trace := by
  induction h with
  | nil => simp [socketStatus, StillOpen]
  | @snoc trace e _ last ih =>
    obtain ⟨j, fd', action⟩ := e
    rw [socketStatus_snoc, stillOpen_snoc, ← ih]
    by_cases hfd : fd = fd'
    · subst hfd
      cases action <;> simp_all [SocketEvent.status, SocketEvent.Allowed, eq_comm]
    · cases action <;> simp_all [Function.update_of_ne, eq_comm]

/-- A socket is received from only by the server that accepted it, and while it is open. -/
def ReceivedWhileOpen (trace : List (SocketEvent ι)) : Prop :=
  ∀ before e after, trace = before ++ e :: after → e.action = .received →
    StillOpen ⟨e.server, e.fd, .accepted⟩ before

/-- A descriptor that is closed twice was given to another accepted socket in between. -/
def ClosedOnce (trace : List (SocketEvent ι)) : Prop :=
  ∀ before e between e' after, trace = (before ++ e :: between) ++ e' :: after →
    e.action = .closed → e'.action = .closed → e'.fd = e.fd →
    ∃ again ∈ between, again.fd = e.fd ∧ again.action = .accepted

theorem Orderly.receivedWhileOpen {trace : List (SocketEvent ι)} (h : Orderly trace) :
    ReceivedWhileOpen trace := by
  rintro before e after rfl haction
  obtain ⟨hbefore, hallowed⟩ := h.split
  refine (hbefore.open_iff e.server e.fd).mp (.inr ?_)
  simpa only [SocketEvent.Allowed, haction] using hallowed

theorem Orderly.closedOnce {trace : List (SocketEvent ι)} (h : Orderly trace) :
    ClosedOnce trace := by
  rintro before e between e' after rfl hclosed hclosed' hfd
  obtain ⟨hbefore, hallowed⟩ := h.split
  have hheld : socketStatus (before ++ e :: between) e'.fd = .held e'.server := by
    simpa only [SocketEvent.Allowed, hclosed'] using hallowed
  -- The socket that `e'` closes was accepted and not closed up to there, so after `e`.
  obtain ⟨p, q, hsplit, hlater⟩ := (hbefore.open_iff e'.server e'.fd).mp (.inr hheld)
  have hmem : e ∉ q := fun hmem => hlater e hmem hfd.symm hclosed
  rcases List.append_eq_append_iff.mp hsplit with ⟨r, rfl, hr⟩ | ⟨r, rfl, hr⟩
  · cases r with
    | nil =>
      obtain ⟨rfl, -⟩ := List.cons.inj hr
      cases hclosed
    | cons first r =>
      obtain ⟨rfl, rfl⟩ := List.cons.inj hr
      exact ⟨⟨e'.server, e'.fd, .accepted⟩, by simp, hfd, rfl⟩
  · cases r with
    | nil =>
      obtain ⟨rfl, -⟩ := List.cons.inj hr
      cases hclosed
    | cons first r =>
      obtain ⟨rfl, rfl⟩ := List.cons.inj hr
      exact absurd (by simp) hmem

/-! ## The queues of the servers -/

/-- The queues hold what was accepted and not yet taken, and every event was allowed. -/
structure Accounted (queue : ι → List Nat) (trace : List (SocketEvent ι)) : Prop where
  orderly : Orderly trace
  queued : ∀ i fd, fd ∈ queue i ↔ socketStatus trace fd = .queued i
  nodup : ∀ i, (queue i).Nodup

namespace Accounted
variable {queue queue' : ι → List Nat} {trace : List (SocketEvent ι)} {i : ι} {fd : Nat}

theorem accept (h : Accounted queue trace) (hfree : socketStatus trace fd = .free)
    (hat : queue' i = queue i ++ [fd]) (hother : ∀ j, j ≠ i → queue' j = queue j) :
    Accounted queue' (trace ++ [⟨i, fd, .accepted⟩]) := by
  have hnew : fd ∉ queue i := by simp [h.queued, hfree]
  refine ⟨.snoc h.orderly hfree, fun j x => ?_, fun j => ?_⟩
  · rw [socketStatus_snoc]
    by_cases hj : j = i
    · subst hj
      by_cases hx : x = fd
      · simp [hx, hat, SocketEvent.status]
      · simp [hx, hat, h.queued]
    · rw [hother j hj, h.queued]
      by_cases hx : x = fd
      · simp [hx, hfree, SocketEvent.status, Ne.symm hj]
      · simp [hx]
  · by_cases hj : j = i
    · rw [hj, hat]
      refine List.nodup_append.mpr ⟨h.nodup i, List.nodup_singleton fd, ?_⟩
      rintro x hx y hy rfl
      exact hnew (List.mem_singleton.mp hy ▸ hx)
    · rw [hother j hj]
      exact h.nodup j

theorem take (h : Accounted queue trace) (hat : queue i = fd :: queue' i)
    (hother : ∀ j, j ≠ i → queue' j = queue j) :
    Accounted queue' (trace ++ [⟨i, fd, .taken⟩]) := by
  have hqueued : socketStatus trace fd = .queued i := (h.queued i fd).mp (by simp [hat])
  have hnodup := h.nodup i
  rw [hat, List.nodup_cons] at hnodup
  refine ⟨.snoc h.orderly hqueued, fun j x => ?_, fun j => ?_⟩
  · rw [socketStatus_snoc]
    by_cases hx : x = fd
    · subst hx
      have hnot : x ∉ queue' j := by
        by_cases hj : j = i
        · exact hj ▸ hnodup.1
        · simp [hother j hj, h.queued, hqueued, Ne.symm hj]
      simp [hnot, SocketEvent.status]
    · rw [Function.update_of_ne hx, ← h.queued]
      by_cases hj : j = i
      · simp [hj, hat, hx]
      · rw [hother j hj]
  · by_cases hj : j = i
    · exact hj ▸ hnodup.2
    · exact hother j hj ▸ h.nodup j

/-- An event on a socket that was taken leaves the queues alone. -/
theorem keep (h : Accounted queue trace) {e : SocketEvent ι} (hfd : e.fd = fd)
    (hheld : socketStatus trace fd = .held i) (he : e.Allowed (socketStatus trace))
    (hstatus : ∀ j, e.status ≠ .queued j) : Accounted queue (trace ++ [e]) := by
  subst hfd
  refine ⟨.snoc h.orderly he, fun j x => ?_, h.nodup⟩
  rw [socketStatus_snoc, h.queued]
  by_cases hx : x = e.fd
  · simp [hx, hheld, hstatus j]
  · simp [hx]

theorem receive (h : Accounted queue trace) (hheld : socketStatus trace fd = .held i) :
    Accounted queue (trace ++ [⟨i, fd, .received⟩]) :=
  h.keep rfl hheld hheld (by simp [SocketEvent.status])

theorem close (h : Accounted queue trace) (hheld : socketStatus trace fd = .held i) :
    Accounted queue (trace ++ [⟨i, fd, .closed⟩]) :=
  h.keep rfl hheld hheld (by simp [SocketEvent.status])

end Accounted
end

end Cmsg.Server
