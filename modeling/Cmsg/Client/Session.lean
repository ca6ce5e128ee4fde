import Cmsg.Base.Runs
import Cmsg.Client.Send
import Cmsg.Crypto.Frames

/-! # The connections of an encrypted client

The client starts every connection with a nonce and resets its association when
it closes one. A call meets connects, allocations, ciphers and sends that may
fail. The frames that are given to the transport are kept for each connection. -/
namespace Cmsg.Client
open Cmsg.Base Cmsg.Base.Runs Cmsg.Wire Cmsg.Crypto

variable {K : Type}

/-! ## The state -/

/-- A frame that is given to `client_send`, and whether it was sent as a whole. -/
structure SentFrame where
  frame : List UInt8
  sent : Bool
deriving DecidableEq

/-- A client with its association: the frames of the connection of its socket, if
there is one, and those of its earlier connections. -/
structure Session (K : Type) where
  state : ClientState
  socket : Option (List SentFrame)
  cryptoSa : SecurityAssociation K
  past : List (List SentFrame)
deriving DecidableEq

namespace Session

/-- A client after `cmsg_client_crypto_enable` -/
def create (sa : SecurityAssociation K) : Session K := ⟨.init, none, sa, []⟩

/-! ## What a send meets -/

/-- The allocations, the nonce that `RAND_bytes` writes, and which sends succeed. -/
structure SendEnv where
  nonceCalloc : Bool
  nonce : Option Nonce
  nonceSent : Bool
  calloc : Bool
  payloadSent : Bool

/-- `transport->tport_funcs.socket_close` -/
def socketClose (s : Session K) : Session K :=
  { s with socket := none, past := s.past ++ s.socket.toList }

/-- `_cmsg_client_connect`, given whether the transport connects -/
def clientConnect (s : Session K) (connects : Bool) : Session K :=
  if s.state = .connected then s
  else if connects then { socketClose s with state := .connected, socket := some [] }
  else { socketClose s with state := .failed }

/-- `cmsg_client_close_wrapper` -/
def closeWrapper (s : Session K) : Session K :=
  { socketClose s with cryptoSa := { s.cryptoSa with ctxInInit := false } }

/-- `transport->tport_funcs.client_send`: the number of bytes, or -1. -/
def clientSend (s : Session K) (frame : List UInt8) (sent : Bool) : Session K × Int :=
  match s.socket with
  | none => (s, -1)
  | some frames =>
    ({ s with socket := some (frames ++ [⟨frame, sent⟩]) }, if sent then frame.length else -1)

section
variable (cipher : Cipher K) (saDeriveFunc : Derive K)

/-- The start of `cmsg_client_transport_send`, and whether it goes on. -/
def sendNonce (e : SendEnv) (s : Session K) : Session K × Bool :=
  match cryptoCreateNonce saDeriveFunc s.cryptoSa e.nonceCalloc e.nonce with
  | (none, sa) => ({ s with cryptoSa := sa }, false)
  | (some nonce, sa) =>
    let r := clientSend { s with cryptoSa := sa } nonce e.nonceSent
    (r.1, decide (0 ≤ r.2))

/-- The end of `cmsg_client_transport_send` -/
def sendPayload (e : SendEnv) (s : Session K) (buffer : List UInt8) : Session K × Int :=
  if e.calloc = false then (s, RetCode.err.toInt)
  else match cryptoEncrypt cipher s.cryptoSa buffer (toInt32 buffer.length) with
    | none => (s, RetCode.err.toInt)
    | some frame =>
      let r := clientSend s frame e.payloadSent
      (r.1, if r.2 = frame.length then toInt32 buffer.length else r.2)

/-- `cmsg_client_transport_send` -/
def clientTransportSend (e : SendEnv) (s : Session K) (buffer : List UInt8) : Session K × Int :=
  let r := if s.cryptoSa.ctxInInit then (s, true) else sendNonce saDeriveFunc e s
  if r.2 then sendPayload cipher e r.1 buffer else (r.1, RetCode.err.toInt)

/-- `_cmsg_client_buffer_send_retry_once` -/
def bufferSendRetryOnce (connects : Bool) (e : SendEnv) (reconnects : Bool) (e' : SendEnv)
    (s : Session K) (buffer : List UInt8) : Session K × RetCode :=
  let s₁ := clientConnect s connects
  if s₁.state ≠ .connected then (s₁, .closed)
  else
    let r := clientTransportSend cipher saDeriveFunc e s₁ buffer
    if r.2 < toInt32 buffer.length then
      let s₂ := clientConnect (closeWrapper { r.1 with state := .closed }) reconnects
      if s₂.state = .connected then
        let r' := clientTransportSend cipher saDeriveFunc e' s₂ buffer
        if r'.2 < toInt32 buffer.length then
          (closeWrapper { r'.1 with state := .failed }, .err)
        else (r'.1, .ok)
      else (s₂, .closed)
    else (r.1, .ok)

/-- `_cmsg_client_buffer_send` -/
def bufferSend (connects : Bool) (e : SendEnv) (s : Session K) (buffer : List UInt8) :
    Session K × RetCode :=
  let s₁ := clientConnect s connects
  if s₁.state ≠ .connected then (s₁, .closed)
  else
    let r := clientTransportSend cipher saDeriveFunc e s₁ buffer
    if r.2 < toInt32 buffer.length then (closeWrapper { r.1 with state := .failed }, .err)
    else (r.1, .ok)

/-! ## Runs -/

/-- The calls of the thread that uses the client. A receive that fails closes the
connection, in `cmsg_client_invoke_recv`, or only its socket, in
`_cmsg_client_receive_encrypted`. -/
inductive Call
  | bufferSendRetryOnce (connects : Bool) (e : SendEnv) (reconnects : Bool) (e' : SendEnv)
      (buffer : List UInt8)
  | bufferSend (connects : Bool) (e : SendEnv) (buffer : List UInt8)
  | connect (connects : Bool)
  | recvCloses
  | recvClosesSocket

def step (s : Session K) : Call → Option (Session K × List Unit)
  | .bufferSendRetryOnce connects e reconnects e' buffer =>
    some ((bufferSendRetryOnce cipher saDeriveFunc connects e reconnects e' s buffer).1, [])
  | .bufferSend connects e buffer =>
    some ((bufferSend cipher saDeriveFunc connects e s buffer).1, [])
  | .connect connects => some (clientConnect s connects, [])
  | .recvCloses => some (closeWrapper { s with state := .closed }, [])
  | .recvClosesSocket => some (socketClose s, [])

end

/-! ## Framing -/

/-- What is sent on a connection: a nonce and then payloads, every frame of its
announced length, and nothing behind a frame that was not sent as a whole. -/
structure WellFramed (frames : List SentFrame) : Prop where
  first : ∀ x, frames.head? = some x → frameType x.frame = cryptoTypeNonce
  later : ∀ x ∈ frames.tail, frameType x.frame = cryptoTypePayload
  length : ∀ x ∈ frames, LengthExact x.frame
  complete : ∀ x ∈ frames.dropLast, x.sent = true

/-- The earlier connections of a client and the one that it has. -/
def connections (s : Session K) : List (List SentFrame) := s.past ++ s.socket.toList

/-- The state between two calls. -/
structure Framed (s : Session K) : Prop where
  connections : ∀ frames ∈ s.connections, WellFramed frames
  complete : ∀ frames, s.socket = some frames → ∀ x ∈ frames, x.sent = true
  derived : ∀ frames, s.socket = some frames → (s.cryptoSa.ctxInInit = true ↔ frames ≠ [])
  idle : s.state ≠ .connected → s.socket = none ∧ s.cryptoSa.ctxInInit = false

/-- A derivation that succeeds marks both contexts as initialised. -/
def Marks (saDeriveFunc : Derive K) : Prop :=
  ∀ sa nonce, (saDeriveFunc sa nonce).1 = true →
    (saDeriveFunc sa nonce).2.ctxInInit = true ∧ (saDeriveFunc sa nonce).2.ctxOutInit = true

theorem wellFramed_nil : WellFramed [] where
  first _ h := by cases h
  later _ h := by cases h
  length _ h := by cases h
  complete _ h := by cases h

theorem wellFramed_nonce {frame : List UInt8} (htype : frameType frame = cryptoTypeNonce)
    (hlength : LengthExact frame) (sent : Bool) : WellFramed [⟨frame, sent⟩] where
  first x h := by
    obtain rfl := Option.some.inj h
    exact htype
  later _ h := by cases h
  length x h := by
    obtain rfl := List.mem_singleton.mp h
    exact hlength
  complete _ h := by cases h

theorem WellFramed.snoc {frames : List SentFrame} (h : WellFramed frames) (hne : frames ≠ [])
    (hsent : ∀ x ∈ frames, x.sent = true) {frame : List UInt8}
    (htype : frameType frame = cryptoTypePayload) (hlength : LengthExact frame) (sent : Bool) :
    WellFramed (frames ++ [⟨frame, sent⟩]) := by
  obtain ⟨x, rest, rfl⟩ := List.exists_cons_of_ne_nil hne
  refine ⟨fun y hy => h.first y hy, fun y hy => ?_, fun y hy => ?_, fun y hy => ?_⟩
  · rcases List.mem_append.mp hy with hy | hy
    · exact h.later y hy
    · obtain rfl := List.mem_singleton.mp hy
      exact htype
  · rcases List.mem_append.mp hy with hy | hy
    · exact h.length y hy
    · obtain rfl := List.mem_singleton.mp hy
      exact hlength
  · rw [List.dropLast_concat] at hy
    exact hsent y hy

/-! ## What each function keeps -/

theorem connections_closeWrapper (s : Session K) :
    (closeWrapper s).connections = s.connections := by
  simp [closeWrapper, socketClose, Session.connections]

theorem connections_socketClose (s : Session K) : (socketClose s).connections = s.connections := by
  simp [socketClose, Session.connections]

theorem framed_closeWrapper {s : Session K} (h : ∀ frames ∈ s.connections, WellFramed frames) :
    Framed (closeWrapper s) where
  connections := by
    rw [connections_closeWrapper]
    exact h
  complete _ hs := by cases hs
  derived _ hs := by cases hs
  idle _ := ⟨rfl, rfl⟩

theorem framed_socketClose {s : Session K} (h : Framed s) : Framed (socketClose s) where
  connections := by
    rw [connections_socketClose]
    exact h.connections
  complete _ hs := by cases hs
  derived _ hs := by cases hs
  idle hstate := ⟨rfl, (h.idle hstate).2⟩

theorem framed_clientConnect {s : Session K} (h : Framed s) (connects : Bool) :
    Framed (clientConnect s connects) := by
  unfold clientConnect
  split
  · exact h
  · next hstate =>
    obtain ⟨hsocket, hctx⟩ := h.idle hstate
    split
    · refine ⟨fun frames hmem => ?_, fun frames hs => ?_, fun frames hs => ?_, fun hne => ?_⟩
      · rcases List.mem_append.mp hmem with hmem | hmem
        · exact (framed_socketClose h).connections frames (List.mem_append_left _ hmem)
        · obtain rfl := List.mem_singleton.mp hmem
          exact wellFramed_nil
      · obtain rfl := Option.some.inj hs
        exact fun _ hx => by cases hx
      · obtain rfl := Option.some.inj hs
        simp [socketClose, hctx]
      · exact absurd rfl hne
    · refine ⟨(framed_socketClose h).connections, fun _ hs => ?_, fun _ hs => ?_, fun _ => ?_⟩
      · cases hs
      · cases hs
      · exact ⟨rfl, hctx⟩

section
variable {cipher : Cipher K} {saDeriveFunc : Derive K} {s : Session K} {buffer : List UInt8}

/-- A nonce is sent on a new connection, or the send is over. -/
theorem sendNonce_spec (hmarks : Marks saDeriveFunc) (h : Framed s)
    (hctx : s.cryptoSa.ctxInInit = false) (hstate : s.state = .connected) (e : SendEnv) :
    let r := sendNonce saDeriveFunc e s
    (∀ frames ∈ r.1.connections, WellFramed frames) ∧
      (r.2 = true → Framed r.1 ∧ r.1.cryptoSa.ctxInInit = true ∧ r.1.state = .connected) := by
  intro r
  unfold r sendNonce
  rcases hc : cryptoCreateNonce saDeriveFunc s.cryptoSa e.nonceCalloc e.nonce with ⟨_ | nonce, sa⟩
  · exact ⟨h.connections, fun hr => by cases hr⟩
  obtain ⟨htype, hlength, _⟩ := cryptoCreateNonce_frame hc
  obtain ⟨bytes, hderive, _⟩ := cryptoCreateNonce_eq_some hc
  have hmarked : sa.ctxInInit = true := by
    have hsa := hmarks s.cryptoSa (ofBytes bytes.val zeroed) (by rw [hderive])
    rw [hderive] at hsa
    exact hsa.1
  unfold clientSend
  cases hsocket : s.socket with
  | none =>
    refine ⟨?_, fun hr => ?_⟩
    · have hconnections := h.connections
      simpa [connections, hsocket] using hconnections
    · simp at hr
  | some frames =>
    -- the connection is a new one
    have hnil : frames = [] := by
      by_contra hne
      have hderived := (h.derived frames hsocket).mpr hne
      rw [hctx] at hderived
      cases hderived
    subst hnil
    have hconnections : ∀ frames ∈ s.past ++ [[⟨nonce, e.nonceSent⟩]], WellFramed frames := by
      intro frames hmem
      rcases List.mem_append.mp hmem with hmem | hmem
      · exact h.connections frames (List.mem_append_left _ hmem)
      · obtain rfl := List.mem_singleton.mp hmem
        exact wellFramed_nonce htype hlength _
    refine ⟨hconnections, fun hr => ⟨⟨hconnections, ?_, ?_, ?_⟩, hmarked, hstate⟩⟩
    · intro frames hs x hx
      obtain rfl := Option.some.inj hs
      obtain rfl := List.mem_singleton.mp hx
      by_contra hsent
      simp [hsent] at hr
    · intro frames hs
      obtain rfl := Option.some.inj hs
      simp [hmarked]
    · intro hne
      exact absurd hstate hne

/-- A failed send is fewer bytes than any. -/
theorem err_lt_length (hlt : buffer.length < 2 ^ 31) :
    RetCode.err.toInt < toInt32 buffer.length := by
  have herr : RetCode.err.toInt = -1 := rfl
  rw [toInt32_of_lt hlt]
  omega

/-- A payload is sent behind a nonce, or the caller sees that the send failed. -/
theorem sendPayload_spec (h : Framed s) (hctx : s.cryptoSa.ctxInInit = true)
    (hstate : s.state = .connected) (hlt : buffer.length < 2 ^ 31) (e : SendEnv) :
    let r := sendPayload cipher e s buffer
    (∀ frames ∈ r.1.connections, WellFramed frames) ∧
      (¬ r.2 < toInt32 buffer.length → Framed r.1) := by
  intro r
  have hfails := err_lt_length hlt
  unfold r sendPayload
  split
  · exact ⟨h.connections, fun hr => absurd hfails hr⟩
  · split
    · exact ⟨h.connections, fun hr => absurd hfails hr⟩
    · next frame hframe =>
      obtain ⟨htype, hlength, _⟩ := cryptoEncrypt_frame hframe
      have hother : ¬ ((-1 : Int) = frame.length) := by omega
      unfold clientSend
      cases hsocket : s.socket with
      | none =>
        dsimp only
        rw [if_neg hother]
        refine ⟨?_, fun hr => absurd hfails hr⟩
        have hconnections := h.connections
        simpa [connections, hsocket] using hconnections
      | some frames =>
        have hne := (h.derived frames hsocket).mp hctx
        have hframed := h.connections frames
          (List.mem_append_right _ (by rw [hsocket]; exact List.mem_singleton_self _))
        have hsnoc := hframed.snoc hne (h.complete frames hsocket) htype hlength e.payloadSent
        have hconnections : ∀ frames' ∈ s.past ++ [frames ++ [⟨frame, e.payloadSent⟩]],
            WellFramed frames' := by
          intro frames' hmem
          rcases List.mem_append.mp hmem with hmem | hmem
          · exact h.connections frames' (List.mem_append_left _ hmem)
          · obtain rfl := List.mem_singleton.mp hmem
            exact hsnoc
        refine ⟨hconnections, fun hr => ⟨hconnections, ?_, ?_, ?_⟩⟩
        · intro frames' hs x hx
          obtain rfl := Option.some.inj hs
          rcases List.mem_append.mp hx with hx | hx
          · exact h.complete frames hsocket x hx
          · obtain rfl := List.mem_singleton.mp hx
            by_contra hsent
            refine hr ?_
            dsimp only
            rw [if_neg hsent, if_neg hother]
            exact hfails
        · intro frames' hs
          obtain rfl := Option.some.inj hs
          simp [hctx]
        · intro hne'
          exact absurd hstate hne'

theorem clientTransportSend_spec (hmarks : Marks saDeriveFunc) (h : Framed s)
    (hstate : s.state = .connected) (hlt : buffer.length < 2 ^ 31) (e : SendEnv) :
    let r := clientTransportSend cipher saDeriveFunc e s buffer
    (∀ frames ∈ r.1.connections, WellFramed frames) ∧
      (¬ r.2 < toInt32 buffer.length → Framed r.1) := by
  intro r
  have hfails := err_lt_length hlt
  unfold r clientTransportSend
  cases hctx : s.cryptoSa.ctxInInit with
  | true => exact sendPayload_spec h hctx hstate hlt e
  | false =>
    obtain ⟨hconnections, hgoes⟩ := sendNonce_spec hmarks h hctx hstate e
    rw [if_neg Bool.false_ne_true]
    dsimp only
    cases hr : (sendNonce saDeriveFunc e s).2 with
    | false =>
      rw [if_neg Bool.false_ne_true]
      exact ⟨hconnections, fun hr => absurd hfails hr⟩
    | true =>
      rw [if_pos rfl]
      obtain ⟨hframed, hctx', hstate'⟩ := hgoes hr
      exact sendPayload_spec hframed hctx' hstate' hlt e

theorem framed_bufferSend (hmarks : Marks saDeriveFunc) (h : Framed s)
    (hlt : buffer.length < 2 ^ 31) (connects : Bool) (e : SendEnv) :
    Framed (bufferSend cipher saDeriveFunc connects e s buffer).1 := by
  have hconnect := framed_clientConnect h connects
  unfold bufferSend
  dsimp only
  split
  · exact hconnect
  · next hstate =>
    obtain ⟨hconnections, hgoes⟩ := @clientTransportSend_spec _ cipher _ _ buffer hmarks hconnect
      (not_not.mp hstate) hlt e
    split
    · exact framed_closeWrapper hconnections
    · next hr => exact hgoes hr

theorem framed_bufferSendRetryOnce (hmarks : Marks saDeriveFunc) (h : Framed s)
    (hlt : buffer.length < 2 ^ 31) (connects : Bool) (e : SendEnv) (reconnects : Bool)
    (e' : SendEnv) :
    Framed (bufferSendRetryOnce cipher saDeriveFunc connects e reconnects e' s buffer).1 := by
  have hconnect := framed_clientConnect h connects
  unfold bufferSendRetryOnce
  dsimp only
  split
  · exact hconnect
  · next hstate =>
    obtain ⟨hconnections, hgoes⟩ := @clientTransportSend_spec _ cipher _ _ buffer hmarks hconnect
      (not_not.mp hstate) hlt e
    split
    · -- the connection is closed, and the packet is sent on a new one
      have hclosed := framed_closeWrapper (s := { (clientTransportSend cipher saDeriveFunc e
        (clientConnect s connects) buffer).1 with state := .closed }) hconnections
      have hreconnect := framed_clientConnect hclosed reconnects
      split
      · next hstate' =>
        obtain ⟨hconnections', hgoes'⟩ := @clientTransportSend_spec _ cipher _ _ buffer hmarks
          hreconnect hstate' hlt e'
        split
        · exact framed_closeWrapper hconnections'
        · next hr => exact hgoes' hr
      · exact hreconnect
    · next hr => exact hgoes hr

/-- The buffers whose size is an `int`. -/
def Call.Sized : Call → Prop
  | .bufferSendRetryOnce _ _ _ _ buffer => buffer.length < 2 ^ 31
  | .bufferSend _ _ buffer => buffer.length < 2 ^ 31
  | _ => True

/-- **A step** keeps the framing of every connection. -/
theorem framed_step (hmarks : Marks saDeriveFunc) (h : Framed s) {call : Call}
    (hcall : call.Sized) {s' : Session K} {o : List Unit}
    (hs : step cipher saDeriveFunc s call = some (s', o)) : Framed s' := by
  cases call with
  | bufferSendRetryOnce connects e reconnects e' buffer =>
    obtain ⟨rfl, _⟩ := Prod.mk.inj (Option.some.inj hs)
    exact framed_bufferSendRetryOnce hmarks h hcall connects e reconnects e'
  | bufferSend connects e buffer =>
    obtain ⟨rfl, _⟩ := Prod.mk.inj (Option.some.inj hs)
    exact framed_bufferSend hmarks h hcall connects e
  | connect connects =>
    obtain ⟨rfl, _⟩ := Prod.mk.inj (Option.some.inj hs)
    exact framed_clientConnect h connects
  | recvCloses =>
    obtain ⟨rfl, _⟩ := Prod.mk.inj (Option.some.inj hs)
    exact framed_closeWrapper h.connections
  | recvClosesSocket =>
    obtain ⟨rfl, _⟩ := Prod.mk.inj (Option.some.inj hs)
    exact framed_socketClose h

theorem framed_create {sa : SecurityAssociation K} (hctx : sa.ctxInInit = false) :
    Framed (create sa) where
  connections _ hmem := by cases hmem
  complete _ hs := by cases hs
  derived _ hs := by cases hs
  idle _ := ⟨rfl, hctx⟩

end

end Session
end Cmsg.Client
