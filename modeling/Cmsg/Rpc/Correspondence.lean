import Mathlib.Logic.Function.Basic
import Cmsg.Base.Runs
import Cmsg.Rpc.RoundTrip

/-! # Replies and the requests that they answer

Any number of threads invoke methods through one client. A reply does not say
which request it answers, so what a client reads is the reply to its own request
only as long as nothing else is left on the connection. Replies that are longer
than their headers announce leave something. Without such replies every
invocation reads the reply to its own request, and whatever goes wrong closes the
connection before the next request is sent. -/
namespace Cmsg.Rpc
open Cmsg.Base Cmsg.Base.Runs Cmsg.Wire Cmsg.Client

variable {Msg : Type}

/-! ## The threads, the client and its connections -/

/-- Where a thread is in `cmsg_client_invoke`, and with which of all invocations. -/
inductive Pc
  | idle
  | invoking (request : Nat)
  | sending (request : Nat)
  | receiving (request : Nat)
deriving DecidableEq, Repr

/-- A thread between locking and unlocking `invoke_mutex`. -/
def Pc.holds : Pc → Bool
  | .idle | .invoking _ => false
  | .sending _ | .receiving _ => true

/-- One connection: the requests that the server has not handled yet, and the bytes
of its replies that are on their way and that have arrived. Each byte is marked
with the request that it is sent for, which the client cannot see. -/
structure Wire where
  pending : List Nat
  flying : List (Nat × UInt8)
  arrived : List (Nat × UInt8)
deriving DecidableEq, Repr

def Wire.empty : Wire := ⟨[], [], []⟩

/-- The threads, the client and all connections that it ever made. The last of them
is number `connections`. -/
structure System where
  state : ClientState
  connections : Nat
  wires : Nat → Wire
  mutex : Option Nat
  pc : Nat → Pc
  invocations : Nat

def System.init : System where
  state := .init
  connections := 0
  wires _ := .empty
  mutex := none
  pc _ := .idle
  invocations := 0

def System.current (s : System) : Wire := s.wires s.connections

def System.setWire (s : System) (c : Nat) (w : Wire) : System :=
  { s with wires := Function.update s.wires c w }

def System.setPc (s : System) (thread : Nat) (pc : Pc) : System :=
  { s with pc := Function.update s.pc thread pc }

/-- `pthread_mutex_unlock`, and the thread returns from `cmsg_client_invoke` -/
def System.unlock (s : System) (thread : Nat) : System :=
  { s.setPc thread .idle with mutex := none }

/-- What the client does on behalf of a request. The server can come to handle a
request of which it got any bytes. -/
def System.carry (request : Nat) (s : System) : Traffic → System
  | .connect => { s with connections := s.connections + 1 }.setWire (s.connections + 1) .empty
  | .sent _ => s.setWire s.connections { s.current with pending := s.current.pending ++ [request] }
  | .close => s

/-! ## Their steps -/

/-- How the calls of a receive function end. -/
structure RecvOutcome where
  peekCode : PeekCode
  headerErrno : Option RecvErrno
  bodyErrno : Option RecvErrno
  calloc : Nat → Bool

/-- A step of a thread, of the server or of the network. -/
inductive Step
  | invoke (thread : Nat)
  | lock (thread : Nat)
  | send (thread : Nat) (calloc : Nat → Bool) (methodName : CString) (input : Client.Input)
      (first second : Attempt)
  | receive (thread : Nat) (outcome : RecvOutcome)
  | serve (connection : Nat) (reply : Option (List UInt8))
  | deliver (connection n : Nat)

/-- The server replies, or an invocation returns, without or after receiving. -/
inductive Outcome (Msg : Type)
  | replied (request : Nat) (bytes : List UInt8)
  | failed (request : Nat) (ret : RetCode)
  | received (request : Nat) (a : Arrival) (v : Invoked Msg)

/-- The server handles the oldest request of a connection, with a reply or without. -/
def System.serve (s : System) (c : Nat) (reply : Option (List UInt8)) :
    Option (System × List (Outcome Msg)) :=
  let w := s.wires c
  match w.pending, reply with
  | [], _ => none
  | _ :: pending, none => some (s.setWire c { w with pending }, [])
  | request :: pending, some bytes =>
    some (s.setWire c { w with pending, flying := w.flying ++ bytes.map (request, ·) },
      [.replied request bytes])

/-- `cmsg_client_invoke_send` -/
def System.invokeSend (s : System) (thread request : Nat) (calloc : Nat → Bool)
    (methodName : CString) (input : Client.Input) (first second : Attempt) :
    System × List (Outcome Msg) :=
  match createPacket calloc methodName input with
  | none => (s.unlock thread, [.failed request .err])
  | some packet =>
    let (ret, state, traffic) := bufferSendRetryOnce s.state first second packet
    let s := { traffic.foldl (System.carry request) s with state }
    if ret = .ok then (s.setPc thread (.receiving request), [])
    else (s.unlock thread, [.failed request ret])

/-- `cmsg_client_invoke_recv` at the moment when it has received all it will -/
def System.invokeRecv (d : Descriptor Msg) (s : System) (thread request : Nat) (a : Arrival) :
    System × List (Outcome Msg) :=
  let (received, n) := clientRecv d a
  let v := Client.invokeRecv d received
  let s := s.setWire s.connections { s.current with arrived := s.current.arrived.drop n }
  let s := if v.closed then { s with state := .closed } else s
  (s.unlock thread, [.received request a v])

/-- The bytes that have arrived, without their marks. -/
def Wire.stream (w : Wire) : List UInt8 := w.arrived.map (·.2)

def step (d : Descriptor Msg) : Machine System Step (Outcome Msg)
  | s, .invoke thread =>
    if s.pc thread = .idle then
      some ({ s.setPc thread (.invoking s.invocations) with invocations := s.invocations + 1 }, [])
    else none
  | s, .lock thread =>
    match s.pc thread with
    | .invoking request =>
      if s.mutex = none then
        some ({ s.setPc thread (.sending request) with mutex := some thread }, [])
      else none
    | _ => none
  | s, .send thread calloc methodName input first second =>
    match s.pc thread with
    | .sending request =>
      some (s.invokeSend thread request calloc methodName input first second)
    | _ => none
  | s, .receive thread outcome =>
    match s.pc thread with
    | .receiving request =>
      if h : outcome.peekCode = .success → headerSize ≤ s.current.stream.length then
        some (s.invokeRecv d thread request ⟨s.current.stream, outcome.peekCode, h,
          outcome.headerErrno, outcome.bodyErrno, outcome.calloc⟩)
      else none
    | _ => none
  | s, .serve c reply => s.serve c reply
  | s, .deliver c n =>
    let w := s.wires c
    some (s.setWire c { w with flying := w.flying.drop n, arrived := w.arrived ++ w.flying.take n },
      [])

/-! ## What the client leaves on a connection -/

theorem headerProcess_of_front {front bytes : List UInt8} (h : front <+: bytes)
    (hlong : headerSize ≤ front.length) :
    headerProcess (ofBytes front zeroed) = headerProcess (ofBytes bytes zeroed) := by
  refine headerProcess_congr fun p hp => ?_
  obtain ⟨rest, rfl⟩ := h
  rw [ofBytes, ofBytes, List.getElem?_append_left (Nat.lt_of_lt_of_le hp hlong)]

-- the length that an error of `recv` is taken for
def errorLen : Nat := 0xffffffff

/-- A reply is no longer than its header announces, if it has a header at all. -/
def Framed (bytes : List UInt8) : Prop :=
  ∀ header, headerSize ≤ bytes.length → headerProcess (ofBytes bytes zeroed) = some header →
    bytes.length ≤ headerSize + bodyLen header ∧ bodyLen header ≠ errorLen

theorem receiveAnnounced_kept (d : Descriptor Msg) (a : Arrival) (header : Header)
    (hlong : headerSize ≤ a.stream.length) (hlen : bodyLen header ≠ errorLen)
    (h : (Client.invokeRecv d (receiveAnnounced d a header).1).closed = false) :
    headerSize + bodyLen header ≤ (receiveAnnounced d a header).2 ∧
      (receiveAnnounced d a header).2 ≤ a.stream.length := by
  have hlt : bodyLen header < word32 := sub32_lt _ _
  unfold receiveAnnounced at h ⊢
  dsimp only at h ⊢
  split at h
  · next h0 =>
    rw [if_pos h0, h0]
    exact ⟨Nat.le_refl _, hlong⟩
  · next h0 =>
    split at h
    · cases h
    · next hcalloc =>
      split at h
      · next hnbytes =>
        rw [if_neg h0, if_neg hcalloc, if_pos hnbytes]
        have hle := recvCount_le_length (a.stream.drop headerSize) (bodyLen header)
        rw [List.length_drop] at hle
        refine ⟨Nat.add_le_add_left ?_ _, by show headerSize + _ ≤ _; omega⟩
        unfold Arrival.nbytes at hnbytes
        cases herrno : a.bodyErrno with
        | none =>
          rw [herrno] at hnbytes
          calc bodyLen header
            _ = wrap32 (recvCount (a.stream.drop headerSize) (bodyLen header)) :=
              ((toInt32_inj (wrap32_lt _) hlt).mp hnbytes).symm
            _ ≤ recvCount (a.stream.drop headerSize) (bodyLen header) := wrap32_le _
        | some errno =>
          rw [herrno] at hnbytes
          exact absurd ((toInt32_inj (by decide) hlt).mp (show toInt32 errorLen = _ from hnbytes)).symm
            hlen
      · cases h

/-- A client that keeps its connection has received all that a header announces. -/
theorem clientRecv_kept (d : Descriptor Msg) (a : Arrival)
    (h : (Client.invokeRecv d (clientRecv d a).1).closed = false) :
    headerSize ≤ a.stream.length ∧
      ∃ header, headerProcess (ofBytes a.stream zeroed) = some header ∧
        (bodyLen header ≠ errorLen → headerSize + bodyLen header ≤ (clientRecv d a).2 ∧
          (clientRecv d a).2 ≤ a.stream.length) := by
  by_cases hpeek : a.peekCode = .success
  · refine ⟨a.peeked hpeek, ?_⟩
    unfold clientRecv at h ⊢
    rw [if_neg (not_not.mpr hpeek)] at h ⊢
    cases herrno : a.headerErrno with
    | some errno =>
      rw [herrno] at h
      cases errno with
      | connreset => cases h
      | other => cases h
    | none =>
      rw [herrno] at h
      dsimp only at h ⊢
      cases hp : headerProcess (ofBytes a.stream zeroed) with
      | none =>
        rw [hp] at h
        cases h
      | some header =>
        rw [hp] at h
        dsimp only at h ⊢
        refine ⟨header, rfl, fun hlen => ?_⟩
        exact receiveAnnounced_kept d a header (a.peeked hpeek) hlen h
  · unfold clientRecv at h
    rw [if_pos hpeek] at h
    cases hcode : a.peekCode with
    | success => exact absurd hcode hpeek
    | connectionClosed | connectionReset | timeout =>
      rw [hcode] at h
      cases h

/-! ## What sending does -/

theorem System.carry_keeps (request : Nat) (s : System) (t : Traffic) :
    (s.carry request t).pc = s.pc ∧ (s.carry request t).mutex = s.mutex := by
  cases t with
  | connect | sent | close => exact ⟨rfl, rfl⟩

theorem System.carryAll_keeps (request : Nat) (traffic : List Traffic) (s : System) :
    (traffic.foldl (System.carry request) s).pc = s.pc ∧
      (traffic.foldl (System.carry request) s).mutex = s.mutex := by
  induction traffic generalizing s with
  | nil => exact ⟨rfl, rfl⟩
  | cons t traffic ih =>
    obtain ⟨hpc, hmutex⟩ := s.carry_keeps request t
    obtain ⟨hpc', hmutex'⟩ := ih (s.carry request t)
    exact ⟨hpc'.trans hpc, hmutex'.trans hmutex⟩

theorem System.current_setWire (s : System) (w : Wire) :
    (s.setWire s.connections w).current = w := Function.update_self ..

/-- A connection on which nothing was sent before has one request after a send. -/
theorem System.carry_sent_current {s : System} (h : s.current = .empty) (request : Nat)
    (bytes : List UInt8) : (s.carry request (.sent bytes)).current = ⟨[request], [], []⟩ := by
  rw [System.carry, s.current_setWire, h]
  rfl

theorem System.carry_connect_current (s : System) (request : Nat) :
    (s.carry request .connect).current = .empty := Function.update_self ..

theorem clientConnect_spec (state : ClientState) (connects : Bool) :
    (state = .connected ∧ clientConnect state connects = (.connected, [])) ∨
      (state ≠ .connected ∧ clientConnect state connects = (.connected, [.connect])) ∨
      (state ≠ .connected ∧ clientConnect state connects = (.failed, [])) := by
  unfold clientConnect
  split
  · next h => exact .inl ⟨h, by rw [h]⟩
  · next h =>
    split
    · exact .inr (.inl ⟨h, rfl⟩)
    · exact .inr (.inr ⟨h, rfl⟩)

/-- The traffic of a call that succeeds ends with the send that succeeded, on a
connection that was there before or that is new. -/
def SendsOn (state : ClientState) (traffic : List Traffic) : Prop :=
  ∃ bytes, (state = .connected ∧ traffic = [.sent bytes]) ∨
    ∃ front, traffic = front ++ [.connect, .sent bytes]

/-- After a send failed on a connection: the rest of the call. -/
theorem resend_spec (state : ClientState) (connected : List Traffic) (bytes : List UInt8)
    (second : Attempt) (buffer : List UInt8) :
    let r : RetCode × ClientState × List Traffic :=
      let (state, reconnected) := clientConnect .closed second.connects
      let traffic := connected ++ [.sent bytes, .close] ++ reconnected
      if state = .connected then
        let (sendRet, bytes) := clientTransportSend second.cut buffer
        if sendRet < toInt32 buffer.length then
          (.err, .failed, traffic ++ [.sent bytes, .close])
        else (.ok, state, traffic ++ [.sent bytes])
      else (.closed, state, traffic)
    (r.1 = .ok → r.2.1 = .connected ∧ SendsOn state r.2.2) ∧ (r.1 ≠ .ok → r.2.1 ≠ .connected) := by
  intro r
  unfold r
  rcases clientConnect_spec .closed second.connects with ⟨hc, _⟩ | ⟨_, hc⟩ | ⟨_, hc⟩
  · cases hc
  · rw [hc]
    dsimp only
    rw [if_pos rfl]
    split
    · exact ⟨fun h => absurd h (by simp), fun _ => by simp⟩
    · refine ⟨fun _ => ⟨rfl, (clientTransportSend second.cut buffer).2,
        .inr ⟨connected ++ [.sent bytes, .close], ?_⟩⟩, fun h => absurd rfl h⟩
      rw [List.append_assoc]
      rfl
  · rw [hc]
    dsimp only
    rw [if_neg (by simp)]
    exact ⟨fun h => absurd h (by simp), fun _ => by simp⟩

theorem bufferSendRetryOnce_spec (state : ClientState) (first second : Attempt)
    (buffer : List UInt8) :
    let r := bufferSendRetryOnce state first second buffer
    (r.1 = .ok → r.2.1 = .connected ∧ SendsOn state r.2.2) ∧
      (r.1 ≠ .ok → r.2.1 ≠ .connected) := by
  intro r
  unfold r bufferSendRetryOnce
  rcases clientConnect_spec state first.connects with ⟨hs, hc⟩ | ⟨_, hc⟩ | ⟨_, hc⟩
  · rw [hc]
    dsimp only
    rw [if_neg (not_not.mpr rfl)]
    split
    · exact resend_spec state [] _ second buffer
    · exact ⟨fun _ => ⟨rfl, (clientTransportSend first.cut buffer).2, .inl ⟨hs, rfl⟩⟩,
        fun h => absurd rfl h⟩
  · rw [hc]
    dsimp only
    rw [if_neg (not_not.mpr rfl)]
    split
    · exact resend_spec state [.connect] _ second buffer
    · exact ⟨fun _ => ⟨rfl, (clientTransportSend first.cut buffer).2, .inr ⟨[], rfl⟩⟩,
        fun h => absurd rfl h⟩
  · rw [hc]
    dsimp only
    rw [if_pos (by simp)]
    exact ⟨fun h => absurd h (by simp), fun _ => by simp⟩

/-- **After a call that succeeds** the connection has this request and nothing else. -/
theorem System.carryAll_current {s : System} (hquiet : s.state = .connected → s.current = .empty)
    (request : Nat) {traffic : List Traffic} (h : SendsOn s.state traffic) :
    (traffic.foldl (System.carry request) s).current = ⟨[request], [], []⟩ := by
  obtain ⟨bytes, ⟨hs, rfl⟩ | ⟨front, rfl⟩⟩ := h
  · exact System.carry_sent_current (hquiet hs) request bytes
  · rw [List.foldl_append]
    exact System.carry_sent_current (System.carry_connect_current _ request) request bytes

/-! ## One exchange after the other -/

/-- A connection that carries one request: it waits, the server had no reply to it,
or its reply is on the way. -/
inductive Exchange (outcomes : List (Outcome Msg)) (request : Nat) (w : Wire) : Prop
  | waiting (h : w = ⟨[request], [], []⟩)
  | unanswered (h : w = .empty)
  | answered (bytes : List UInt8) (pending : w.pending = []) (framed : Framed bytes)
      (replied : .replied request bytes ∈ outcomes)
      (carried : w.arrived ++ w.flying = bytes.map (request, ·))

/-- Only one thread sends and receives. While it receives, the connection carries its
request alone, and when none does there is nothing on the connection. -/
structure Inv (s : System) (outcomes : List (Outcome Msg)) : Prop where
  holder : ∀ thread, (s.pc thread).holds = true → s.mutex = some thread
  exchange : ∀ thread request, s.pc thread = .receiving request →
    s.state = .connected ∧ Exchange outcomes request s.current
  quiet : (∀ thread request, s.pc thread ≠ .receiving request) → s.state = .connected →
    s.current = .empty

/-- What an invocation reads is the beginning of the reply to its own request, and
all of it unless the invocation fails and closes the connection. -/
def Answered (outcomes : List (Outcome Msg)) (request : Nat) (a : Arrival) (v : Invoked Msg) :
    Prop :=
  (a.stream = [] ∨ ∃ bytes, .replied request bytes ∈ outcomes ∧ a.stream <+: bytes) ∧
    (v.closed = false → .replied request a.stream ∈ outcomes)

/-- Every reply that an invocation returns is the one to its own request. -/
def Corresponds (d : Descriptor Msg) (outcomes : List (Outcome Msg)) : Prop :=
  ∀ request a v, .received request a v ∈ outcomes →
    v = Client.invokeRecv d (clientRecv d a).1 ∧ Answered outcomes request a v

theorem inv_init : Inv System.init ([] : List (Outcome Msg)) where
  holder thread h := by cases h
  exchange thread request h := by cases h
  quiet _ _ := rfl

theorem Exchange.mono {outcomes : List (Outcome Msg)} {request : Nat} {w : Wire}
    (h : Exchange outcomes request w) (more : List (Outcome Msg)) :
    Exchange (outcomes ++ more) request w := by
  cases h with
  | waiting h => exact .waiting h
  | unanswered h => exact .unanswered h
  | answered bytes pending framed replied carried =>
    exact .answered bytes pending framed (List.mem_append_left _ replied) carried

theorem Answered.mono {outcomes : List (Outcome Msg)} {request : Nat} {a : Arrival} {v : Invoked Msg}
    (h : Answered outcomes request a v) (more : List (Outcome Msg)) :
    Answered (outcomes ++ more) request a v := by
  obtain ⟨hstream, hkept⟩ := h
  refine ⟨?_, fun hv => List.mem_append_left _ (hkept hv)⟩
  rcases hstream with hnil | ⟨bytes, hmem, hp⟩
  · exact .inl hnil
  · exact .inr ⟨bytes, List.mem_append_left _ hmem, hp⟩

/-! ## The server and the network -/

theorem System.current_setWire_of_ne (s : System) {c : Nat} (h : s.connections ≠ c) (w : Wire) :
    (s.setWire c w).current = s.current := Function.update_of_ne h ..

section
variable {s : System} {outcomes : List (Outcome Msg)}

/-- A connection changes, in a way that exchanges allow. -/
theorem Inv.setWire (h : Inv s outcomes) {c : Nat} {w : Wire} {more : List (Outcome Msg)}
    (hw : c = s.connections → (∀ request, Exchange outcomes request s.current →
      Exchange (outcomes ++ more) request w) ∧ (s.current = .empty → w = .empty)) :
    Inv (s.setWire c w) (outcomes ++ more) := by
  refine ⟨h.holder, fun thread request hpc => ?_, fun hnone hstate => ?_⟩
  · obtain ⟨hstate, hexchange⟩ := h.exchange thread request hpc
    refine ⟨hstate, ?_⟩
    by_cases hc : c = s.connections
    · obtain ⟨hcarries, _⟩ := hw hc
      rw [hc, s.current_setWire]
      exact hcarries request hexchange
    · rw [s.current_setWire_of_ne (Ne.symm hc)]
      exact hexchange.mono more
  · have hquiet := h.quiet hnone hstate
    by_cases hc : c = s.connections
    · obtain ⟨_, hempty⟩ := hw hc
      rw [hc, s.current_setWire]
      exact hempty hquiet
    · rw [s.current_setWire_of_ne (Ne.symm hc)]
      exact hquiet

theorem Inv.deliver (h : Inv s outcomes) (c n : Nat) :
    Inv (s.setWire c { s.wires c with
      flying := (s.wires c).flying.drop n
      arrived := (s.wires c).arrived ++ (s.wires c).flying.take n }) (outcomes ++ []) := by
  refine h.setWire ?_
  intro hc
  rw [hc]
  refine ⟨fun request hexchange => ?_, fun hempty => ?_⟩
  · rw [List.append_nil]
    cases hexchange with
    | waiting hw =>
      rw [System.current] at hw
      rw [hw, List.drop_nil, List.take_nil]
      exact .waiting rfl
    | unanswered hw =>
      rw [System.current] at hw
      rw [hw, Wire.empty, List.drop_nil, List.take_nil]
      exact .unanswered rfl
    | answered bytes pending framed replied carried =>
      refine .answered bytes pending framed replied ?_
      rw [List.append_assoc, List.take_append_drop]
      exact carried
  · rw [System.current] at hempty
    rw [hempty, Wire.empty, List.drop_nil, List.take_nil]
    rfl

/-- The server answers the request that it has. -/
theorem Inv.serve (h : Inv s outcomes) {c : Nat} {reply : Option (List UInt8)} {s' : System}
    {more : List (Outcome Msg)} (hreply : ∀ bytes, reply = some bytes → Framed bytes)
    (hs : s.serve c reply = some (s', more)) : Inv s' (outcomes ++ more) := by
  unfold System.serve at hs
  dsimp only at hs
  cases hpending : (s.wires c).pending with
  | nil =>
    rw [hpending] at hs
    cases hs
  | cons first rest =>
    rw [hpending] at hs
    -- of all exchanges only the one that waits has a request to handle
    have hwaits : c = s.connections → (∀ request, Exchange outcomes request s.current →
        s.wires c = ⟨[request], [], []⟩ ∧ first = request ∧ rest = []) ∧ s.current ≠ .empty := by
      intro hc
      rw [hc] at hpending ⊢
      refine ⟨fun request hexchange => ?_, fun hempty => ?_⟩
      · cases hexchange with
        | waiting hw =>
          have hw' : (s.wires s.connections).pending = [request] := congrArg Wire.pending hw
          rw [hpending] at hw'
          exact ⟨hw, (List.cons.inj hw').1, (List.cons.inj hw').2⟩
        | unanswered hw =>
          have hw' : (s.wires s.connections).pending = [] := congrArg Wire.pending hw
          rw [hpending] at hw'
          cases hw'
        | answered bytes pending =>
          have hw' : (s.wires s.connections).pending = [] := pending
          rw [hpending] at hw'
          cases hw'
      · have hw' : (s.wires s.connections).pending = [] := congrArg Wire.pending hempty
        rw [hpending] at hw'
        cases hw'
    cases reply with
    | none =>
      obtain ⟨rfl, rfl⟩ := Prod.mk.inj (Option.some.inj hs)
      refine h.setWire fun hc => ⟨fun request hexchange => ?_, fun hempty => ?_⟩
      · obtain ⟨hw, _, rfl⟩ := (hwaits hc).1 request hexchange
        rw [hw]
        exact .unanswered rfl
      · exact absurd hempty (hwaits hc).2
    | some bytes =>
      obtain ⟨rfl, rfl⟩ := Prod.mk.inj (Option.some.inj hs)
      refine h.setWire fun hc => ⟨fun request hexchange => ?_, fun hempty => ?_⟩
      · obtain ⟨hw, rfl, rfl⟩ := (hwaits hc).1 request hexchange
        rw [hw]
        exact .answered bytes rfl (hreply bytes rfl)
          (List.mem_append_right _ (List.mem_singleton.mpr rfl)) rfl
      · exact absurd hempty (hwaits hc).2

/-! ## The threads -/

theorem System.pc_setPc (thread thread' : Nat) (pc : Pc) :
    (s.setPc thread pc).pc thread' = if thread' = thread then pc else s.pc thread' :=
  Function.update_apply ..

/-- A thread that leaves the locked part leaves nothing on the connection. -/
theorem Inv.unlock {thread : Nat} (hholder : ∀ t, (s.pc t).holds = true → t = thread)
    (hquiet : s.state = .connected → s.current = .empty) : Inv (s.unlock thread) outcomes := by
  have hnone : ∀ t, ((s.unlock thread).pc t).holds = false := by
    intro t
    show ((s.setPc thread .idle).pc t).holds = false
    rw [System.pc_setPc]
    split
    · rfl
    · next ht =>
      by_contra hn
      exact ht (hholder t (Bool.of_not_eq_false hn))
  refine ⟨fun t ht => ?_, fun t request ht => ?_, fun _ => hquiet⟩
  · rw [hnone] at ht
    cases ht
  · have hh := hnone t
    rw [ht] at hh
    cases hh

theorem Inv.holder_eq (h : Inv s outcomes) {thread : Nat} (hpc : (s.pc thread).holds = true) :
    ∀ t, (s.pc t).holds = true → t = thread := by
  intro t ht
  have hmutex := h.holder thread hpc
  rw [h.holder t ht] at hmutex
  exact Option.some.inj hmutex

/-- A thread that does not receive, neither before nor after. -/
theorem Inv.move (h : Inv s outcomes) {thread n : Nat} {pc : Pc} {mutex : Option Nat}
    (hold : ∀ request, s.pc thread ≠ .receiving request) (hnew : ∀ request, pc ≠ .receiving request)
    (hholder : ∀ t, ((s.setPc thread pc).pc t).holds = true → mutex = some t) :
    Inv { s.setPc thread pc with mutex, invocations := n } outcomes := by
  have hsame : ∀ t request, (s.setPc thread pc).pc t = .receiving request ↔
      s.pc t = .receiving request := by
    intro t request
    rw [System.pc_setPc]
    split
    · next ht =>
      rw [ht]
      exact ⟨fun he => absurd he (hnew request), fun he => absurd he (hold request)⟩
    · exact Iff.rfl
  refine ⟨hholder, fun t request ht => ?_, fun hnone => ?_⟩
  · exact h.exchange t request ((hsame t request).mp ht)
  · exact h.quiet fun t request ht => hnone t request ((hsame t request).mpr ht)

theorem Inv.invoke (h : Inv s outcomes) {thread request n : Nat} (hpc : s.pc thread = .idle) :
    Inv { s.setPc thread (.invoking request) with invocations := n } outcomes := by
  refine h.move (by simp [hpc]) (by simp) fun t ht => ?_
  rw [System.pc_setPc] at ht
  split at ht
  · cases ht
  · exact h.holder t ht

theorem Inv.lock (h : Inv s outcomes) {thread request : Nat} (hpc : s.pc thread = .invoking request)
    (hfree : s.mutex = none) :
    Inv { s.setPc thread (.sending request) with mutex := some thread } outcomes := by
  refine h.move (by simp [hpc]) (by simp) fun t ht => ?_
  rw [System.pc_setPc] at ht
  split at ht
  · next he => rw [he]
  · next he =>
    have hmutex := h.holder t ht
    rw [hfree] at hmutex
    cases hmutex

/-- While a thread sends there is nothing on the connection. -/
theorem Inv.quiet_of_sending (h : Inv s outcomes) {thread request : Nat}
    (hpc : s.pc thread = .sending request) : s.state = .connected → s.current = .empty := by
  refine h.quiet fun t r ht => ?_
  have hsame := h.holder_eq (show (s.pc thread).holds = true by rw [hpc]; rfl) t
    (show (s.pc t).holds = true by rw [ht]; rfl)
  rw [hsame, hpc] at ht
  cases ht

/-- The thread that holds the mutex has sent its request. -/
theorem Inv.receiving {thread request : Nat} (hholder : ∀ t, (s.pc t).holds = true → t = thread)
    (hmutex : s.mutex = some thread) (hstate : s.state = .connected)
    (hcurrent : s.current = ⟨[request], [], []⟩) :
    Inv (s.setPc thread (.receiving request)) outcomes := by
  refine ⟨fun t ht => ?_, fun t request' ht => ?_, fun hnone => ?_⟩
  · rw [System.pc_setPc] at ht
    split at ht
    · next he =>
      rw [he]
      exact hmutex
    · rw [hholder t ht]
      exact hmutex
  · rw [System.pc_setPc] at ht
    split at ht
    · obtain rfl := Pc.receiving.inj ht
      exact ⟨hstate, .waiting hcurrent⟩
    · next he => exact absurd (hholder t (by rw [ht]; rfl)) he
  · refine absurd ?_ (hnone thread request)
    rw [System.pc_setPc, if_pos rfl]

theorem Inv.send (h : Inv s outcomes) {thread request : Nat} (hpc : s.pc thread = .sending request)
    (calloc : Nat → Bool) (methodName : CString) (input : Client.Input) (first second : Attempt) :
    let r : System × List (Outcome Msg) :=
      s.invokeSend thread request calloc methodName input first second
    Inv r.1 (outcomes ++ r.2) ∧ ∀ request' a v, .received request' a v ∉ r.2 := by
  intro r
  have hholds : (s.pc thread).holds = true := by
    rw [hpc]
    rfl
  have hholder := h.holder_eq hholds
  have hquiet := h.quiet_of_sending hpc
  unfold r System.invokeSend
  split
  · exact ⟨Inv.unlock hholder hquiet, by simp⟩
  · next packet _ =>
    obtain ⟨hok, hfailed⟩ := bufferSendRetryOnce_spec s.state first second packet
    obtain ⟨hpcs, hmutex⟩ := System.carryAll_keeps request
      (bufferSendRetryOnce s.state first second packet).2.2 s
    dsimp only
    split
    · next hret =>
      obtain ⟨hconnected, hsends⟩ := hok hret
      refine ⟨Inv.receiving (fun t ht => hholder t ?_) ?_ hconnected ?_, by simp⟩
      · rw [← hpcs]
        exact ht
      · exact hmutex.trans (h.holder thread hholds)
      · exact System.carryAll_current hquiet request hsends
    · next hret =>
      refine ⟨Inv.unlock (fun t ht => hholder t ?_) fun hstate => absurd hstate (hfailed hret),
        by simp⟩
      rw [← hpcs]
      exact ht

/-- The bytes that have arrived are the beginning of the reply, and the client keeps
the connection only if they are the whole reply and it takes them all. -/
theorem Exchange.kept {request : Nat} {w : Wire} (h : Exchange outcomes request w)
    (d : Descriptor Msg) {a : Arrival} (ha : a.stream = w.stream) :
    Answered outcomes request a (Client.invokeRecv d (clientRecv d a).1) ∧
      ((Client.invokeRecv d (clientRecv d a).1).closed = false →
        { w with arrived := w.arrived.drop (clientRecv d a).2 } = Wire.empty) := by
  have hnothing : w.arrived = [] → Answered outcomes request a
      (Client.invokeRecv d (clientRecv d a).1) ∧
      ((Client.invokeRecv d (clientRecv d a).1).closed = false →
        { w with arrived := w.arrived.drop (clientRecv d a).2 } = Wire.empty) := by
    intro hw
    have hstream : a.stream = [] := by
      rw [ha, Wire.stream, hw]
      rfl
    have hclosed : (Client.invokeRecv d (clientRecv d a).1).closed ≠ false := by
      intro hv
      have hlong := (clientRecv_kept d a hv).1
      rw [hstream] at hlong
      cases hlong
    exact ⟨⟨.inl hstream, fun hv => absurd hv hclosed⟩, fun hv => absurd hv hclosed⟩
  cases h with
  | waiting hw => exact hnothing (congrArg Wire.arrived hw)
  | unanswered hw => exact hnothing (congrArg Wire.arrived hw)
  | answered bytes pending framed replied carried =>
    have hbytes : a.stream ++ w.flying.map (·.2) = bytes := by
      rw [ha, Wire.stream, ← List.map_append, carried, List.map_map]
      exact List.map_id bytes
    have hfront : a.stream <+: bytes := ⟨_, hbytes⟩
    have hwhole : (Client.invokeRecv d (clientRecv d a).1).closed = false →
        a.stream = bytes ∧ a.stream.length ≤ (clientRecv d a).2 := by
      intro hv
      obtain ⟨hlong, header, hp, htakes⟩ := clientRecv_kept d a hv
      rw [headerProcess_of_front hfront hlong] at hp
      obtain ⟨hle, hlen⟩ := framed header (Nat.le_trans hlong hfront.length_le) hp
      obtain ⟨htaken, hthere⟩ := htakes hlen
      have hshort := hfront.length_le
      exact ⟨hfront.eq_of_length (by omega), by omega⟩
    refine ⟨⟨.inr ⟨bytes, replied, hfront⟩, fun hv => ?_⟩, fun hv => ?_⟩
    · rw [(hwhole hv).1]
      exact replied
    · obtain ⟨hall, htakes⟩ := hwhole hv
      have hflying : w.flying = [] := by
        rw [hall] at hbytes
        exact List.map_eq_nil_iff.mp (List.self_eq_append_right.mp hbytes.symm)
      have harrived : w.arrived.length ≤ (clientRecv d a).2 := by
        rw [ha, Wire.stream, List.length_map] at htakes
        exact htakes
      rw [pending, hflying, List.drop_of_length_le harrived]
      rfl

theorem Inv.receive (h : Inv s outcomes) (d : Descriptor Msg) {thread request : Nat}
    (hpc : s.pc thread = .receiving request) {a : Arrival} (ha : a.stream = s.current.stream) :
    let r := s.invokeRecv d thread request a
    Inv r.1 (outcomes ++ r.2) ∧ ∀ request' a' v, .received request' a' v ∈ r.2 →
      v = Client.invokeRecv d (clientRecv d a').1 ∧ Answered outcomes request' a' v := by
  intro r
  have hholder := h.holder_eq (show (s.pc thread).holds = true by rw [hpc]; rfl)
  obtain ⟨_, hexchange⟩ := h.exchange thread request hpc
  obtain ⟨hanswered, hempty⟩ := hexchange.kept d ha
  refine ⟨?_, fun request' a' v hmem => ?_⟩
  · unfold r System.invokeRecv
    dsimp only
    split
    · exact Inv.unlock hholder fun hstate => by cases hstate
    · next hopen =>
      refine Inv.unlock hholder fun _ => ?_
      rw [s.current_setWire]
      exact hempty (Bool.eq_false_iff.mpr hopen)
  · obtain ⟨rfl, rfl, rfl⟩ := Outcome.received.inj (List.mem_singleton.mp hmem)
    exact ⟨rfl, hanswered⟩

end

/-! ## Runs -/

/-- The replies of the server are framed. -/
def Step.Framed : Step → Prop
  | .serve _ (some bytes) => Rpc.Framed bytes
  | _ => True

theorem Corresponds.extend {d : Descriptor Msg} {outcomes more : List (Outcome Msg)}
    (h : Corresponds d outcomes)
    (hmore : ∀ request a v, .received request a v ∈ more →
      v = Client.invokeRecv d (clientRecv d a).1 ∧ Answered outcomes request a v) :
    Corresponds d (outcomes ++ more) := by
  intro request a v hmem
  rcases List.mem_append.mp hmem with hmem | hmem
  · obtain ⟨hv, hanswered⟩ := h request a v hmem
    exact ⟨hv, hanswered.mono more⟩
  · obtain ⟨hv, hanswered⟩ := hmore request a v hmem
    exact ⟨hv, hanswered.mono more⟩

/-- One step keeps the connection in order. -/
theorem inv_step {d : Descriptor Msg} {s s' : System} {outcomes more : List (Outcome Msg)}
    {input : Step} (h : Inv s outcomes) (hc : Corresponds d outcomes) (hi : input.Framed)
    (hs : step d s input = some (s', more)) :
    Inv s' (outcomes ++ more) ∧ Corresponds d (outcomes ++ more) := by
  have hsame : ∀ {t : System}, Inv t outcomes →
      Inv t (outcomes ++ []) ∧ Corresponds d (outcomes ++ []) := by
    intro t ht
    rw [List.append_nil]
    exact ⟨ht, hc⟩
  cases input with
  | invoke thread =>
    simp only [step] at hs
    split at hs
    · next hpc =>
      obtain ⟨rfl, rfl⟩ := Prod.mk.inj (Option.some.inj hs)
      exact hsame (h.invoke hpc)
    · cases hs
  | lock thread =>
    simp only [step] at hs
    split at hs
    · next request hpc =>
      split at hs
      · next hfree =>
        obtain ⟨rfl, rfl⟩ := Prod.mk.inj (Option.some.inj hs)
        exact hsame (h.lock hpc hfree)
      · cases hs
    · cases hs
  | send thread calloc methodName input first second =>
    simp only [step] at hs
    split at hs
    · next request hpc =>
      obtain ⟨rfl, rfl⟩ := Prod.mk.inj (Option.some.inj hs)
      obtain ⟨hinv, hnone⟩ := h.send hpc calloc methodName input first second
      exact ⟨hinv, hc.extend fun request' a v hmem => absurd hmem (hnone request' a v)⟩
    · cases hs
  | receive thread outcome =>
    simp only [step] at hs
    split at hs
    · next request hpc =>
      split at hs
      · next hpeeked =>
        obtain ⟨rfl, rfl⟩ := Prod.mk.inj (Option.some.inj hs)
        obtain ⟨hinv, hanswered⟩ := h.receive d hpc (a := ⟨s.current.stream, outcome.peekCode,
          hpeeked, outcome.headerErrno, outcome.bodyErrno, outcome.calloc⟩) rfl
        exact ⟨hinv, hc.extend hanswered⟩
      · cases hs
    · cases hs
  | serve c reply =>
    have hframed : ∀ bytes, reply = some bytes → Framed bytes := by
      intro bytes hb
      rw [hb] at hi
      exact hi
    refine ⟨h.serve hframed hs, hc.extend fun request a v hmem => ?_⟩
    simp only [step, System.serve] at hs
    split at hs
    · cases hs
    · obtain ⟨_, rfl⟩ := Prod.mk.inj (Option.some.inj hs)
      cases hmem
    · obtain ⟨_, rfl⟩ := Prod.mk.inj (Option.some.inj hs)
      cases List.mem_singleton.mp hmem
  | deliver c n =>
    obtain ⟨rfl, rfl⟩ := Prod.mk.inj (Option.some.inj hs)
    exact ⟨h.deliver c n, (hsame h).2⟩

/-- **Replies correspond to requests.** In every run in which the replies of the
server are framed, what an invocation returns is read from the reply to its own
request, whatever else happens. -/
theorem replies_correspond (d : Descriptor Msg) {inputs : List Step} {s : System}
    {outcomes : List (Outcome Msg)} (hi : ∀ input ∈ inputs, input.Framed)
    (he : exec (step d) System.init inputs = some (s, outcomes)) : Corresponds d outcomes := by
  have hrun := exec_track_guarded (C := fun _ input => input.Framed)
    (R := fun s _ outcomes => Inv s outcomes ∧ Corresponds d outcomes)
    (fun s _ outcomes input s' more hR hC hs => inv_step hR.1 hR.2 hC hs)
    ⟨inv_init, fun request a v hmem => by cases hmem⟩
    (guarded_of_forall fun input hmem _ => hi input hmem) he
  exact hrun.2

/-! ## A reply that is too long -/

/-- All is received without an error. -/
def RecvOutcome.undisturbed : RecvOutcome := ⟨.success, none, none, fun _ => true⟩

/-- A thread invokes a method and sends an empty message. -/
def sampleCall (thread : Nat) : List Step :=
  [.invoke thread, .lock thread,
    .send thread (fun _ => true) Server.sampleName ⟨0, []⟩ ⟨true, none⟩ ⟨true, none⟩]

def emptyReply (status : StatusCode) : List UInt8 := headerCreate .methodReply 0 0 status

/-- Whose outcome it is, what the server replied or the invocation found on the
connection, and for an invocation what it returns and whether it closes the connection. -/
def Outcome.summary : Outcome Msg → Nat × List UInt8 × Option (RetCode × Bool)
  | .replied request bytes => (request, bytes, none)
  | .failed request ret => (request, [], some (ret, true))
  | .received request a v => (request, a.stream, some (v.ret, v.closed))

/-- A request, and the reply that it was queued. -/
theorem replies_correspond_sample : ∃ s outcomes,
    exec (step sampleDescriptor) System.init (sampleCall 0 ++
      [.serve 1 (some (emptyReply .serviceQueued)), .deliver 1 16, .receive 0 .undisturbed]) =
        some (s, outcomes) ∧
      outcomes.map Outcome.summary = [(0, emptyReply .serviceQueued, none),
        (0, emptyReply .serviceQueued, some (.queued, false))] ∧
      Corresponds sampleDescriptor outcomes := by
  have hrun : (exec (step sampleDescriptor) System.init (sampleCall 0 ++
      [.serve 1 (some (emptyReply .serviceQueued)), .deliver 1 16, .receive 0 .undisturbed])).map
        (fun r => r.2.map Outcome.summary) = some [(0, emptyReply .serviceQueued, none),
          (0, emptyReply .serviceQueued, some (.queued, false))] := by
    decide
  obtain ⟨⟨s, outcomes⟩, he, hsummary⟩ := Option.map_eq_some_iff.mp hrun
  refine ⟨s, outcomes, he, hsummary, replies_correspond sampleDescriptor ?_ he⟩
  have hframed : Framed (emptyReply .serviceQueued) := by
    intro header _ hp
    obtain ⟨header', hp', _, hheader, hmessage, _⟩ := headerProcess_headerCreate
      (holds_ofBytes (emptyReply .serviceQueued) zeroed) (by intro word; simp)
    rw [hp] at hp'
    obtain rfl := Option.some.inj hp'
    have hbody : bodyLen header = 0 := by
      rw [bodyLen, Header.dynLen, hheader, hmessage]
      decide
    rw [hbody]
    exact ⟨Nat.le_refl _, by decide⟩
  intro input hmem
  simp only [sampleCall, List.cons_append, List.nil_append, List.mem_cons, List.not_mem_nil,
    or_false] at hmem
  rcases hmem with rfl | rfl | rfl | rfl | rfl | rfl
  · trivial
  · trivial
  · trivial
  · exact hframed
  · trivial
  · trivial

/-- The header of a reply with twelve bytes behind it that the header does not announce. -/
def overlongReply : List UInt8 := emptyReply .serviceQueued ++ (emptyReply .success).take 12

/-- Two requests, each answered by one reply, of which the first is too long. -/
def overlongRun : List Step :=
  sampleCall 0 ++ [.serve 1 (some overlongReply), .deliver 1 28, .receive 0 .undisturbed] ++
    sampleCall 1 ++
    [.serve 1 (some (emptyReply .serviceFailed)), .deliver 1 16, .receive 1 .undisturbed]

/-- What the second invocation finds. -/
def mixedStream : List UInt8 := (emptyReply .success).take 12 ++ emptyReply .serviceFailed

/-- The server sends one reply to each request, the first with twelve bytes too many. The
next invocation reads these with the first word of the reply to it: what is then the
header of a reply says that it succeeded, where the server said that it failed. -/
theorem overlong_reply_mixes : ∃ s outcomes,
    exec (step sampleDescriptor) System.init overlongRun = some (s, outcomes) ∧
      outcomes.map Outcome.summary =
        [(0, overlongReply, none), (0, overlongReply, some (.queued, false)),
          (1, emptyReply .serviceFailed, none), (1, mixedStream, some (.ok, false))] ∧
      ¬ Corresponds sampleDescriptor outcomes := by
  have hrun : (exec (step sampleDescriptor) System.init overlongRun).map
        (fun r => r.2.map Outcome.summary) =
      some [(0, overlongReply, none), (0, overlongReply, some (.queued, false)),
        (1, emptyReply .serviceFailed, none), (1, mixedStream, some (.ok, false))] := by
    decide +kernel
  obtain ⟨⟨s, outcomes⟩, he, hsummary⟩ := Option.map_eq_some_iff.mp hrun
  refine ⟨s, outcomes, he, hsummary, fun hc => ?_⟩
  have hlast : (1, mixedStream, some (RetCode.ok, false)) ∈ outcomes.map Outcome.summary := by
    rw [hsummary]
    simp
  obtain ⟨outcome, hmem, hreceived⟩ := List.mem_map.mp hlast
  cases outcome with
  | replied request bytes => cases hreceived
  | failed request ret => cases hreceived
  | received request a v =>
    simp only [Outcome.summary, Prod.mk.injEq, Option.some.injEq] at hreceived
    obtain ⟨rfl, hstream, _, hv⟩ := hreceived
    have hreplied : Outcome.summary (.replied 1 a.stream) ∈ outcomes.map Outcome.summary :=
      List.mem_map_of_mem ((hc _ a v hmem).2.2 hv)
    rw [hsummary, hstream, Outcome.summary] at hreplied
    revert hreplied
    decide +kernel

end Cmsg.Rpc
