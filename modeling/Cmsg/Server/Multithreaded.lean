import Cmsg.Base.Runs
import Cmsg.Base.Bytes

/-! # Shutting a multithreaded server down

Every thread that is created for a server is counted by its creator, after it was
created, and takes itself from the count under the same mutex as its last access to
the information of the server. `mtStep` takes the sections under the mutex and the
creations of threads one at a time. A receive thread that is gone before it is
counted takes the place of the accept thread in the count. -/
namespace Cmsg.Server
open Cmsg.Base Cmsg.Base.Runs

/-- `cmsg_pthread_multithreaded_server_init`, up to its return. -/
inductive InitStage
  | create | count | returned | failed
  deriving DecidableEq

/-- The accept thread, whose last access is its exit. -/
inductive AcceptStage
  | absent | looping | counting | done
  deriving DecidableEq

/-- `cmsg_pthread_multithreaded_server_destroy`: it waits for the threads, or has left
its loop and destroys the server and frees the information. -/
inductive DestroyStage
  | absent | waiting | destroying
  deriving DecidableEq

/-- `cmsg_pthread_multithreaded_server_info`, and the threads. A receive thread is known
by its socket. -/
structure MtServer where
  numThreads : Nat
  exiting : Bool
  init : InitStage
  accept : AcceptStage
  receiving : List Nat
  destroy : DestroyStage
  deriving DecidableEq

inductive MtAction
  /-- The creation of the accept thread, and its count. -/
  | createAccept (succeeds : Bool)
  | countAccept
  /-- The accept thread makes a receive thread for the socket, and counts it. -/
  | createReceive (socket : Nat) (succeeds : Bool)
  | countReceive
  | acceptExit
  /-- A receive thread receives, and closes its socket and exits. -/
  | serve (socket : Nat)
  | receiveExit (socket : Nat)
  /-- The server is to be shut down, and the count is looked at. -/
  | shutdown
  | testCount

/-- Threads are numbered by positive values of `pid_t`. -/
def threadsMax : Nat := 2147483647

def mtInit : MtServer := ⟨0, false, .create, .absent, [], .absent⟩

/-- The threads that were created and have not made their last access. -/
def MtServer.live (s : MtServer) : Nat :=
  (if s.accept = .looping ∨ s.accept = .counting then 1 else 0) + s.receiving.length

/-- `pthread_create` succeeds. -/
def MtServer.creates (s : MtServer) (succeeds : Bool) : Prop :=
  succeeds = true ∧ s.live + 1 ≤ threadsMax

instance (s : MtServer) (succeeds : Bool) : Decidable (s.creates succeeds) :=
  inferInstanceAs (Decidable (_ ∧ _))

/-- `cmsg_pthread_multithreaded_thread_exit` -/
def threadExit (s : MtServer) : MtServer := { s with numThreads := sub32 s.numThreads 1 }

def mtStep : Machine MtServer MtAction Empty
  | s, .createAccept succeeds =>
    if s.init ≠ .create then none
    else if s.creates succeeds then some ({ s with init := .count, accept := .looping }, [])
    else some ({ s with init := .failed }, [])
  | s, .countAccept =>
    if s.init ≠ .count then none
    else some ({ s with init := .returned, numThreads := wrap32 (s.numThreads + 1) }, [])
  | s, .createReceive socket succeeds =>
    if s.accept ≠ .looping then none
    else if s.creates succeeds then
      some ({ s with accept := .counting, receiving := socket :: s.receiving }, [])
    else some (s, [])
  | s, .countReceive =>
    if s.accept ≠ .counting then none
    else some ({ s with accept := .looping, numThreads := wrap32 (s.numThreads + 1) }, [])
  | s, .acceptExit =>
    if s.accept ≠ .looping ∨ s.exiting = false then none
    else some ({ threadExit s with accept := .done }, [])
  | s, .serve socket => if socket ∈ s.receiving then some (s, []) else none
  | s, .receiveExit socket =>
    if socket ∈ s.receiving then
      some ({ threadExit s with receiving := s.receiving.erase socket }, [])
    else none
  | s, .shutdown =>
    if s.init ≠ .returned ∨ s.destroy ≠ .absent then none
    else some ({ s with exiting := true, destroy := .waiting }, [])
  | s, .testCount =>
    if s.destroy ≠ .waiting then none
    else if s.numThreads ≠ 0 then some (s, [])
    else some ({ s with destroy := .destroying }, [])

/-! ## The count -/

/-- The threads that were created and are yet to be counted. -/
def MtServer.uncounted (s : MtServer) : Nat :=
  (if s.init = .count then 1 else 0) + (if s.accept = .counting then 1 else 0)

/-- The server is destroyed, and the information freed, only when every thread has made
its last access. -/
def DestroysLast (s : MtServer) : Prop := s.destroy = .destroying → s.live = 0

/-- The count, as a 32-bit word, is that of the threads that were counted. -/
structure MtInv (s : MtServer) : Prop where
  count : wrap32 (s.numThreads + s.uncounted) = wrap32 s.live
  word : s.numThreads < word32
  bounded : s.live ≤ threadsMax
  fresh : s.init = .create → s.accept = .absent
  returned : s.destroy ≠ .absent → s.init = .returned
  last : DestroysLast s

/-- The server that is shut down does not look at the count while the accept thread is
about to count a receive thread and every receive thread, that one included, is gone. -/
def NotGoneUncounted (s : MtServer) : MtAction → Prop
  | .testCount => s.destroy = .waiting → ¬ (s.accept = .counting ∧ s.receiving = [])
  | _ => True

/-- A creator counts one of the uncounted threads. -/
theorem wrap32_counted (n u : Nat) : wrap32 (wrap32 (n + 1) + u) = wrap32 (n + (u + 1)) := by
  simp only [wrap32, word32]
  omega

/-- One more thread, uncounted. -/
theorem wrap32_created {n u l : Nat} (h : wrap32 (n + u) = wrap32 l) :
    wrap32 (n + (u + 1)) = wrap32 (l + 1) := by
  simp only [wrap32, word32] at h ⊢
  omega

/-- A thread takes itself from the count, or back below zero. -/
theorem wrap32_exited {n u l : Nat} (hn : n < word32) (h : wrap32 (n + u) = wrap32 (l + 1)) :
    wrap32 (sub32 n 1 + u) = wrap32 l := by
  simp only [wrap32, sub32, word32] at h hn ⊢
  omega

theorem mtInv_init : MtInv mtInit :=
  ⟨rfl, by decide, by decide, fun _ => rfl, fun h => absurd rfl h, fun h => nomatch h⟩

/-! ## One step -/

section
variable {s s' : MtServer} {o : List Empty}

theorem mtInv_createAccept (h : MtInv s) (hi : s.init = .create) (hc : s.live + 1 ≤ threadsMax) :
    MtInv { s with init := .count, accept := .looping } := by
  obtain ⟨hcount, hword, _, hfresh, hret, hlast⟩ := h
  have ha := hfresh hi
  have hl : MtServer.live { s with init := .count, accept := .looping } = s.live + 1 := by
    simp [MtServer.live, ha]
    omega
  have hu : MtServer.uncounted { s with init := .count, accept := .looping } = s.uncounted + 1 := by
    simp [MtServer.uncounted, ha, hi]
  have hd : s.destroy = .absent := by
    by_contra hne
    cases hi.symm.trans (hret hne)
  refine ⟨?_, hword, ?_, (fun h => nomatch h), fun hne => absurd hd hne, fun h => ?_⟩
  · rw [hl, hu]
    exact wrap32_created hcount
  · rw [hl]
    exact hc
  · rw [hd] at h
    cases h

theorem mtInv_createFailed (h : MtInv s) (hi : s.init = .create) :
    MtInv { s with init := .failed } := by
  obtain ⟨hcount, hword, hbound, _, hret, hlast⟩ := h
  have hu : MtServer.uncounted { s with init := .failed } = s.uncounted := by
    simp [MtServer.uncounted, hi]
  refine ⟨?_, hword, hbound, (fun h => nomatch h), fun hne => ?_, hlast⟩
  · rw [hu]
    exact hcount
  · cases hi.symm.trans (hret hne)

theorem mtInv_countAccept (h : MtInv s) (hi : s.init = .count) :
    MtInv { s with init := .returned, numThreads := wrap32 (s.numThreads + 1) } := by
  obtain ⟨hcount, _, hbound, _, _, hlast⟩ := h
  have hu : s.uncounted =
      MtServer.uncounted { s with init := .returned, numThreads := wrap32 (s.numThreads + 1) } + 1 := by
    simp only [MtServer.uncounted, hi, if_true, reduceCtorEq, if_false]
    omega
  rw [hu] at hcount
  refine ⟨?_, wrap32_lt _, hbound, (fun h => nomatch h), fun _ => rfl, hlast⟩
  rw [wrap32_counted]
  exact hcount

theorem mtInv_createReceive (h : MtInv s) (ha : s.accept = .looping)
    (hc : s.live + 1 ≤ threadsMax) (socket : Nat) :
    MtInv { s with accept := .counting, receiving := socket :: s.receiving } := by
  obtain ⟨hcount, hword, _, hfresh, hret, hlast⟩ := h
  have hl : MtServer.live { s with accept := .counting, receiving := socket :: s.receiving } =
      s.live + 1 := by
    simp [MtServer.live, ha]
    omega
  have hu : MtServer.uncounted { s with accept := .counting, receiving := socket :: s.receiving } =
      s.uncounted + 1 := by
    simp [MtServer.uncounted, ha]
  refine ⟨?_, hword, ?_, fun hi => ?_, hret, fun hd => ?_⟩
  · rw [hl, hu]
    exact wrap32_created hcount
  · rw [hl]
    exact hc
  · rw [hfresh hi] at ha
    cases ha
  · -- the accept thread is live, so the server is not being destroyed
    have := hlast hd
    simp [MtServer.live, ha] at this

theorem mtInv_countReceive (h : MtInv s) (ha : s.accept = .counting) :
    MtInv { s with accept := .looping, numThreads := wrap32 (s.numThreads + 1) } := by
  obtain ⟨hcount, _, hbound, hfresh, hret, hlast⟩ := h
  have hl : MtServer.live { s with accept := .looping, numThreads := wrap32 (s.numThreads + 1) } =
      s.live := by
    simp [MtServer.live, ha]
  have hu : s.uncounted =
      MtServer.uncounted { s with accept := .looping, numThreads := wrap32 (s.numThreads + 1) } + 1 := by
    simp [MtServer.uncounted, ha]
  rw [hu] at hcount
  refine ⟨?_, wrap32_lt _, ?_, fun hi => ?_, hret, fun hd => ?_⟩
  · rw [hl, wrap32_counted]
    exact hcount
  · rw [hl]
    exact hbound
  · rw [hfresh hi] at ha
    cases ha
  · rw [hl]
    exact hlast hd

theorem mtInv_acceptExit (h : MtInv s) (ha : s.accept = .looping) :
    MtInv { threadExit s with accept := .done } := by
  obtain ⟨hcount, hword, hbound, hfresh, hret, hlast⟩ := h
  have hl : s.live = MtServer.live { threadExit s with accept := .done } + 1 := by
    simp [MtServer.live, threadExit, ha]
    omega
  have hu : MtServer.uncounted { threadExit s with accept := .done } = s.uncounted := by
    simp [MtServer.uncounted, threadExit, ha]
  rw [hl] at hcount
  refine ⟨?_, sub32_lt _ _, by omega, fun hi => ?_, hret, fun hd => ?_⟩
  · rw [hu]
    exact wrap32_exited hword hcount
  · rw [hfresh hi] at ha
    cases ha
  · have := hlast hd
    omega

theorem mtInv_receiveExit (h : MtInv s) {socket : Nat} (hm : socket ∈ s.receiving) :
    MtInv { threadExit s with receiving := s.receiving.erase socket } := by
  obtain ⟨hcount, hword, hbound, hfresh, hret, hlast⟩ := h
  have hlen := List.length_erase_of_mem hm
  have hpos := List.length_pos_of_mem hm
  have hl : s.live =
      MtServer.live { threadExit s with receiving := s.receiving.erase socket } + 1 := by
    show (if s.accept = .looping ∨ s.accept = .counting then 1 else 0) + s.receiving.length =
      (if s.accept = .looping ∨ s.accept = .counting then 1 else 0) +
        (s.receiving.erase socket).length + 1
    omega
  rw [hl] at hcount
  refine ⟨wrap32_exited hword hcount, sub32_lt _ _, by omega, hfresh, hret, fun hd => ?_⟩
  have := hlast hd
  omega

/-- The count is zero: every thread is gone, or the accept thread is about to count a
thread that is. -/
theorem live_of_count_zero (h : MtInv s) (hd : s.destroy ≠ .absent) (hz : s.numThreads = 0) :
    s.live = 0 ∨ s.accept = .counting ∧ s.receiving = [] := by
  obtain ⟨hcount, _, hbound, _, hret, _⟩ := h
  have hu : s.uncounted = if s.accept = .counting then 1 else 0 := by
    simp [MtServer.uncounted, hret hd]
  rw [hz, hu, Nat.zero_add] at hcount
  have hlive : wrap32 s.live = s.live :=
    wrap32_of_lt (Nat.lt_of_le_of_lt hbound (by decide))
  rw [hlive] at hcount
  by_cases ha : s.accept = .counting
  · right
    refine ⟨ha, List.length_eq_zero_iff.mp ?_⟩
    have hone : wrap32 1 = 1 := rfl
    simp only [ha, if_true, hone, MtServer.live, or_true] at hcount
    omega
  · left
    simpa [ha, wrap32] using hcount.symm

theorem mtInv_testCount (h : MtInv s) (hd : s.destroy = .waiting) (hz : s.numThreads = 0)
    (hc : ¬ (s.accept = .counting ∧ s.receiving = [])) :
    MtInv { s with destroy := .destroying } := by
  have hne : s.destroy ≠ .absent := by simp [hd]
  have hlive := (live_of_count_zero h hne hz).resolve_right hc
  obtain ⟨hcount, hword, hbound, hfresh, hret, _⟩ := h
  exact ⟨hcount, hword, hbound, hfresh, fun _ => hret hne, fun _ => hlive⟩

/-- Where the condition fails the count is zero and the accept thread is not gone. -/
theorem testCount_early (h : MtInv s) (hd : s.destroy = .waiting)
    (hc : s.accept = .counting ∧ s.receiving = []) :
    mtStep s .testCount = some ({ s with destroy := .destroying }, []) ∧
      ¬ DestroysLast { s with destroy := .destroying } := by
  obtain ⟨ha, hr⟩ := hc
  have hz : s.numThreads = 0 := by
    have hcount := h.count
    have hword := h.word
    simp only [MtServer.uncounted, MtServer.live, h.returned (by simp [hd]), ha, hr, reduceCtorEq,
      if_true, if_false, or_true, List.length_nil] at hcount
    simp only [wrap32, word32] at hcount hword
    omega
  refine ⟨by simp [mtStep, hd, hz], fun hlast => ?_⟩
  have := hlast rfl
  simp [MtServer.live, ha] at this

theorem mtInv_step (h : MtInv s) {action : MtAction} (hc : NotGoneUncounted s action)
    (hs : mtStep s action = some (s', o)) : MtInv s' := by
  cases action with
  | createAccept succeeds =>
    simp only [mtStep, Option.ite_none_left_eq_some, not_not] at hs
    obtain ⟨hi, hs⟩ := hs
    split at hs
    · next hcr =>
      obtain ⟨rfl, -⟩ := Prod.mk.inj (Option.some.inj hs)
      exact mtInv_createAccept h hi hcr.2
    · obtain ⟨rfl, -⟩ := Prod.mk.inj (Option.some.inj hs)
      exact mtInv_createFailed h hi
  | countAccept =>
    simp only [mtStep, Option.ite_none_left_eq_some, not_not, Option.some.injEq,
      Prod.mk.injEq] at hs
    obtain ⟨hi, rfl, -⟩ := hs
    exact mtInv_countAccept h hi
  | createReceive socket succeeds =>
    simp only [mtStep, Option.ite_none_left_eq_some, not_not] at hs
    obtain ⟨ha, hs⟩ := hs
    split at hs
    · next hcr =>
      obtain ⟨rfl, -⟩ := Prod.mk.inj (Option.some.inj hs)
      exact mtInv_createReceive h ha hcr.2 socket
    · obtain ⟨rfl, -⟩ := Prod.mk.inj (Option.some.inj hs)
      exact h
  | countReceive =>
    simp only [mtStep, Option.ite_none_left_eq_some, not_not, Option.some.injEq,
      Prod.mk.injEq] at hs
    obtain ⟨ha, rfl, -⟩ := hs
    exact mtInv_countReceive h ha
  | acceptExit =>
    simp only [mtStep, Option.ite_none_left_eq_some, not_or, not_not, Option.some.injEq,
      Prod.mk.injEq] at hs
    obtain ⟨⟨ha, _⟩, rfl, -⟩ := hs
    exact mtInv_acceptExit h ha
  | serve socket =>
    simp only [mtStep, Option.ite_none_right_eq_some, Option.some.injEq, Prod.mk.injEq] at hs
    obtain ⟨_, rfl, -⟩ := hs
    exact h
  | receiveExit socket =>
    simp only [mtStep, Option.ite_none_right_eq_some, Option.some.injEq, Prod.mk.injEq] at hs
    obtain ⟨hm, rfl, -⟩ := hs
    exact mtInv_receiveExit h hm
  | shutdown =>
    simp only [mtStep, Option.ite_none_left_eq_some, not_or, not_not, Option.some.injEq,
      Prod.mk.injEq] at hs
    obtain ⟨⟨hi, _⟩, rfl, -⟩ := hs
    exact ⟨h.count, h.word, h.bounded, h.fresh, fun _ => hi, fun hd => nomatch hd⟩
  | testCount =>
    simp only [mtStep, Option.ite_none_left_eq_some, not_not] at hs
    obtain ⟨hd, hs⟩ := hs
    split at hs
    · obtain ⟨rfl, -⟩ := Prod.mk.inj (Option.some.inj hs)
      exact h
    · next hz =>
      obtain ⟨rfl, -⟩ := Prod.mk.inj (Option.some.inj hs)
      exact mtInv_testCount h hd (not_not.mp hz) (hc hd)

end

/-! ## Whole runs -/

/-- **The server is destroyed last**, all along a run, exactly when the count is never
looked at while the accept thread is about to count a thread and all receive threads
are gone. -/
theorem destroys_last_iff (actions : List MtAction) :
    Always mtStep DestroysLast mtInit actions ↔ Guarded mtStep NotGoneUncounted mtInit actions := by
  refine always_iff_guarded (A := fun _ => True) (I := MtInv) ?_ ?_ ?_ mtInv_init actions
    fun _ _ => trivial
  · exact fun s h => h.last
  · exact fun s action s' o h _ hc hs => mtInv_step h hc hs
  · intro s action h _ hc
    cases action with
    | testCount =>
      obtain ⟨hd, hgone⟩ := Classical.not_imp.mp hc
      obtain ⟨hs, hlast⟩ := testCount_early h hd (not_not.mp hgone)
      exact ⟨_, _, hs, hlast⟩
    | _ => exact absurd trivial hc

/-- A connection is closed as soon as it was made: its thread exits before the accept
thread counts it, and the server is destroyed under the accept thread. -/
theorem uncounted_thread_hides_accept : ∃ (actions : List MtAction) (s : MtServer),
    exec mtStep mtInit actions = some (s, []) ∧ s.destroy = .destroying ∧ s.accept = .counting ∧
      ¬ DestroysLast s :=
  ⟨[.createAccept true, .countAccept, .createReceive 5 true, .serve 5, .receiveExit 5, .shutdown,
    .testCount], _, rfl, rfl, rfl, fun h => nomatch h rfl⟩

end Cmsg.Server
