import Cmsg.Client.Session
import Cmsg.Server.Session

/-! # Secure sessions

What the client sends on each of its connections, what the server decrypts on
each of its own, and what a frame carries from one to the other. -/
namespace Cmsg.Rpc
open Cmsg.Base Cmsg.Base.Runs Cmsg.Wire Cmsg.Client Cmsg.Server Cmsg.Crypto

variable {K : Type}

/-- The cipher decrypts what it encrypts. -/
def Inverts (cipher : Cipher K) : Prop :=
  ∀ key (plaintext : List UInt8) ciphertext,
    cipher.encrypt key plaintext.length plaintext = some ciphertext →
      cipher.decrypt key ciphertext.length ciphertext = some plaintext

/-- Every connection of the client starts with a nonce, goes on with payloads,
and every frame is of the length that it announces. -/
def ClientFrames (cipher : Cipher K) (saDeriveFunc : Derive K) : Prop :=
  ∀ (sa : SecurityAssociation K) (calls : List Session.Call) (s : Session K) (os : List Unit),
    sa.ctxInInit = false → (∀ call ∈ calls, call.Sized) →
      exec (Session.step cipher saDeriveFunc) (.create sa) calls = some (s, os) →
      ∀ frames ∈ s.connections, Session.WellFramed frames

/-- The server decrypts nothing on a connection that has not derived a key. -/
def ServerDecrypts (cipher : Cipher K) (saDeriveFunc : Derive K) : Prop :=
  ∀ (calls : List (Sessions.Call K)) (s : Sessions K) (os : List Decrypted),
    Guarded (Sessions.step cipher saDeriveFunc) (Sessions.Call.Waiting saDeriveFunc) .create
      calls →
    exec (Sessions.step cipher saDeriveFunc) .create calls = some (s, os) →
      ∀ d ∈ os, d.derived = true

/-- A frame is received as a whole, and decrypted to what was encrypted. -/
def FramesDecrypt (cipher : Cipher K) (saDeriveFunc : Derive K) : Prop :=
  ∀ (sa : SecurityAssociation K) (plaintext frame : List UInt8),
    cryptoEncrypt cipher sa plaintext plaintext.length = some frame →
    ∀ (receiver : SecurityAssociation K) (m : Memory), receiver.keydata = sa.keydata →
      ¬ (receiver.server = true ∧ receiver.ctxOutInit = false) → Holds m 0 frame →
      cryptoParseHeader m = frame.length ∧
        (Crypto.cryptoDecrypt cipher saDeriveFunc receiver m
          (toInt32 (cryptoParseHeader m))).plaintext = some plaintext

theorem clientFrames {cipher : Cipher K} {saDeriveFunc : Derive K}
    (hmarks : Session.Marks saDeriveFunc) : ClientFrames cipher saDeriveFunc := by
  intro sa calls s os hctx hsized he
  have hguarded : Guarded (Session.step cipher saDeriveFunc) (fun _ call => call.Sized)
      (.create sa) calls := guarded_of_forall fun call hcall _ => hsized call hcall
  have hframed : s.Framed := exec_invariant_guarded
    (fun s call s' o hs hcall hstep => Session.framed_step hmarks hs hcall hstep)
    (Session.framed_create hctx) hguarded he
  exact hframed.connections

theorem serverDecrypts (cipher : Cipher K) (saDeriveFunc : Derive K) :
    ServerDecrypts cipher saDeriveFunc := by
  intro calls s os hguarded he
  have hderived : s.Derived ∧ ∀ d ∈ os, d.derived = true :=
    exec_track_guarded (R := fun s _ os => s.Derived ∧ ∀ d ∈ os, d.derived = true)
      (fun s _ os call s' o hs hcall hstep => by
        obtain ⟨hs', ho⟩ := Sessions.derived_step hs.1 hcall hstep
        refine ⟨hs', fun d hd => ?_⟩
        rcases List.mem_append.mp hd with hd | hd
        · exact hs.2 d hd
        · exact ho d hd)
      ⟨fun _ _ hsa => (by cases hsa), fun _ hd => (by cases hd)⟩ hguarded he
  exact hderived.2

/-- **Secure sessions are framed** in every run of calls with buffers whose size is
an `int`, on a server whose associations wait for a nonce until one derives a key. -/
theorem secureSession_framed {cipher : Cipher K} {saDeriveFunc saDeriveFunc' : Derive K}
    (hmarks : Session.Marks saDeriveFunc) (hinverts : Inverts cipher) :
    ClientFrames cipher saDeriveFunc ∧ ServerDecrypts cipher saDeriveFunc' ∧
      FramesDecrypt cipher saDeriveFunc' :=
  ⟨clientFrames hmarks, serverDecrypts cipher saDeriveFunc',
    fun _ _ _ h _ _ hkey hready hm => cryptoDecrypt_cryptoEncrypt hinverts h saDeriveFunc' hkey
      hready hm⟩

/-! ## Sample sessions -/

theorem plainEncrypt_length {n : Int} {bytes ciphertext : List UInt8}
    (h : (if 0 ≤ n ∧ bytes.length < 2 ^ 30 then some bytes else none) = some ciphertext) :
    ciphertext.length < 2 ^ 31 + 32 := by
  split at h
  · obtain rfl := Option.some.inj h
    omega
  · cases h

theorem plainDecrypt_length {bytes plaintext : List UInt8}
    (h : (if bytes.length < 2 ^ 30 then some bytes else none) = some plaintext) :
    plaintext.length < 2 ^ 31 := by
  split at h
  · obtain rfl := Option.some.inj h
    omega
  · cases h

-- a cipher that leaves everything as it is
def plainCipher : Cipher Unit where
  encrypt _ n bytes := if 0 ≤ n ∧ bytes.length < 2 ^ 30 then some bytes else none
  decrypt _ _ bytes := if bytes.length < 2 ^ 30 then some bytes else none
  encrypt_length h := plainEncrypt_length h
  decrypt_length h := plainDecrypt_length h

/-- A derivation that marks both contexts, and then succeeds or not. -/
def markingDerive (ok : Bool) : Derive Unit := fun sa _ =>
  (ok, { sa with ctxOutInit := true, ctxInInit := true })

theorem secureSession_framed_sample :
    ClientFrames plainCipher (markingDerive true) ∧
      ServerDecrypts plainCipher (markingDerive true) ∧
      FramesDecrypt plainCipher (markingDerive true) := by
  refine secureSession_framed (fun _ _ _ => ⟨rfl, rfl⟩) fun key plaintext ciphertext h => ?_
  unfold plainCipher at h ⊢
  dsimp only at h ⊢
  split at h
  · next hlt =>
    obtain rfl := Option.some.inj h
    exact if_pos hlt.2
  · cases h

/-- Everything but the nonce goes well. -/
def sampleEnv (nonce : Option Nonce) : Session.SendEnv := ⟨true, nonce, true, true, true⟩

def sampleNonce : Nonce := ⟨List.replicate nonceSize 7, by decide⟩

/-- A buffer whose size is not an `int`: that the derivation failed is not seen. -/
theorem bufferSend_unseen {buffer : List UInt8} (hlen : buffer.length = 2 ^ 31) :
    Session.bufferSend plainCipher (markingDerive false) true (sampleEnv (some sampleNonce))
        (.create ⟨false, false, false, ()⟩) buffer =
      (⟨.connected, some [], ⟨false, true, true, ()⟩, []⟩, .ok) := by
  have hsend : Session.clientTransportSend plainCipher (markingDerive false)
      (sampleEnv (some sampleNonce)) ⟨.connected, some [], ⟨false, false, false, ()⟩, []⟩ buffer =
      (⟨.connected, some [], ⟨false, true, true, ()⟩, []⟩, -1) := rfl
  have hconnect : Session.clientConnect
      (.create ⟨false, false, false, ()⟩ : Session Unit) true =
      ⟨.connected, some [], ⟨false, false, false, ()⟩, []⟩ := rfl
  unfold Session.bufferSend
  dsimp only
  rw [hconnect, if_neg (by simp), hsend, hlen]
  rfl

/-- A derivation that fails but marks the contexts: a payload is the first frame of
a connection after a buffer whose size is not an `int`, and a server decrypts with
an association that was not derived. -/
theorem failed_derivation_is_used :
    (∃ s, exec (Session.step plainCipher (markingDerive false)) (.create ⟨false, false, false, ()⟩)
        [.bufferSend true (sampleEnv (some sampleNonce)) (List.replicate (2 ^ 31) 0),
          .bufferSend true (sampleEnv none) [1]] = some (s, []) ∧
      ¬ ∀ frames ∈ s.connections, Session.WellFramed frames) ∧
    (exec (Sessions.step plainCipher (markingDerive false)) .create
        [.accept 3 (some ⟨true, false, false, ()⟩),
          .receive 3 (ofBytes (secureFrame 76 cryptoTypeNonce sampleNonce.val) zeroed) 76,
          .receive 3 (ofBytes (secureFrame 13 cryptoTypePayload [1]) zeroed) 13]).map Prod.snd =
      some [⟨3, false⟩] := by
  constructor
  · have hfirst := @bufferSend_unseen (List.replicate (2 ^ 31) 0) List.length_replicate
    have hsecond : (Session.bufferSend plainCipher (markingDerive false) true (sampleEnv none)
        ⟨.connected, some [], ⟨false, true, true, ()⟩, []⟩ [1]).1 =
        ⟨.connected, some [⟨secureFrame 13 cryptoTypePayload [1], true⟩],
          ⟨false, true, true, ()⟩, []⟩ := by decide
    refine ⟨_, exec_cons.mpr ⟨_, _, _, rfl, exec_cons.mpr ⟨_, _, _, rfl, rfl, rfl⟩, rfl⟩, ?_⟩
    rw [hfirst, hsecond]
    intro hframed
    have hnonce := (hframed _ (List.mem_singleton_self _)).first _ rfl
    exact absurd hnonce (by decide)
  · decide

end Cmsg.Rpc
