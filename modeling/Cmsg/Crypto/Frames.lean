import Cmsg.Base.Layout
import Cmsg.Client.Encrypted

/-! # Secure frames

`cmsg_crypto_encrypt`, `cmsg_crypto_decrypt` and `cmsg_crypto_create_nonce`, with
what they make of the security association. The cipher and the callback that
derives a key are parameters. -/
namespace Cmsg.Crypto
open Cmsg.Base Cmsg.Wire Cmsg.Client

variable {K : Type}

/-! ## Security associations -/

/-- `cmsg_crypto_sa` with its key -/
structure SecurityAssociation (K : Type) where
  server : Bool
  ctxOutInit : Bool
  ctxInInit : Bool
  keydata : K
deriving DecidableEq

/-- The calls of a cipher with a key, on as many bytes as an `int` says. A call
fails or returns bytes. A ciphertext is what an update and a final call give, of
an `int` and at most a block. -/
structure Cipher (K : Type) where
  encrypt : K → Int → List UInt8 → Option (List UInt8)
  decrypt : K → Int → List UInt8 → Option (List UInt8)
  encrypt_length : ∀ {key n bytes ciphertext}, encrypt key n bytes = some ciphertext →
    ciphertext.length < 2 ^ 31 + 32
  decrypt_length : ∀ {key n bytes plaintext}, decrypt key n bytes = some plaintext →
    plaintext.length < 2 ^ 31

/-- `crypto_sa_derive_func_t`: whether it succeeds, and what it leaves in the
association it is given together with a nonce. -/
abbrev Derive (K : Type) := SecurityAssociation K → Memory → Bool × SecurityAssociation K

/-- `NONCE_SIZE` -/
def nonceSize : Nat := 64

/-- What `RAND_bytes` writes. -/
abbrev Nonce := { bytes : List UInt8 // bytes.length = nonceSize }

/-! ## The functions -/

/-- A secure header and what follows it. -/
def secureFrame (length type : Nat) (bytes : List UInt8) : List UInt8 :=
  toBe32 cryptoMagic ++ (toBe32 length ++ (toBe32 type ++ bytes))

/-- `cmsg_crypto_encrypt`; `none` stands for a negative length. -/
def cryptoEncrypt (cipher : Cipher K) (sa : SecurityAssociation K) (inbuf : List UInt8)
    (length : Int) : Option (List UInt8) :=
  match cipher.encrypt sa.keydata length inbuf with
  | none => none
  | some ciphertext =>
    let outLength := ciphertext.length + secureHeaderSize
    if toInt32 outLength < 0 then none
    else some (secureFrame outLength cryptoTypePayload ciphertext)

/-- What `cmsg_crypto_decrypt` returns (`none` stands for -1), what it leaves in
the association, whether it derived a key, and whether it decrypted. -/
structure Decryption (K : Type) where
  plaintext : Option (List UInt8)
  sa : SecurityAssociation K
  derived : Bool
  decrypted : Bool

/-- `cmsg_crypto_decrypt` -/
def cryptoDecrypt (cipher : Cipher K) (saDeriveFunc : Derive K) (sa : SecurityAssociation K)
    (inbuf : Memory) (length : Int) : Decryption K :=
  let type := be32 inbuf 8
  let bytesRemaining := length - secureHeaderSize
  if sa.server = true ∧ sa.ctxOutInit = false then
    if type = cryptoTypeNonce then
      let r := saDeriveFunc sa fun i => inbuf (secureHeaderSize + i)
      ⟨if r.1 then some [] else none, r.2, r.1, false⟩
    else ⟨none, sa, false, false⟩
  else if type = cryptoTypePayload then
    ⟨cipher.decrypt sa.keydata bytesRemaining (slice inbuf secureHeaderSize bytesRemaining.toNat),
      sa, false, true⟩
  else ⟨none, sa, false, false⟩

/-- `cmsg_crypto_create_nonce`, given whether the buffer is allocated and what
`RAND_bytes` writes, if it succeeds. -/
def cryptoCreateNonce (saDeriveFunc : Derive K) (sa : SecurityAssociation K) (calloc : Bool)
    (nonce : Option Nonce) : Option (List UInt8) × SecurityAssociation K :=
  if calloc = false then (none, sa)
  else match nonce with
    | none => (none, sa)
    | some nonce =>
      let r := saDeriveFunc sa (ofBytes nonce.val zeroed)
      if r.1 then
        (some (secureFrame (secureHeaderSize + nonceSize) cryptoTypeNonce nonce.val), r.2)
      else (none, r.2)

/-- The association, as the receive functions use it. -/
def SecurityAssociation.cryptoSa (sa : SecurityAssociation K) (cipher : Cipher K) : CryptoSa where
  server := sa.server
  ctxOutInit := sa.ctxOutInit
  evpDecrypt := cipher.decrypt sa.keydata
  length_lt := cipher.decrypt_length

/-- What the receive functions are given is what this function returns. -/
theorem cryptoDecrypt_plaintext (cipher : Cipher K) (saDeriveFunc : Derive K)
    (sa : SecurityAssociation K) (inbuf : Memory) (length : Int) :
    (cryptoDecrypt cipher saDeriveFunc sa inbuf length).plaintext =
      Client.cryptoDecrypt (some (sa.cryptoSa cipher))
        (some fun _ nonce => (saDeriveFunc sa nonce).1) inbuf length := by
  unfold cryptoDecrypt Client.cryptoDecrypt SecurityAssociation.cryptoSa
  dsimp only
  split
  · split
    · next htype => simp only [htype, true_and]
    · next htype => rw [if_neg fun h => htype h.1]
  · split
    · rfl
    · rfl

/-! ## Frames -/

/-- The type of a frame. -/
def frameType (frame : List UInt8) : Nat := be32 (ofBytes frame zeroed) 8

/-- The length that a frame announces is its own. -/
def LengthExact (frame : List UInt8) : Prop :=
  cryptoParseHeader (ofBytes frame zeroed) = frame.length

theorem length_secureFrame (length type : Nat) (bytes : List UInt8) :
    (secureFrame length type bytes).length = bytes.length + secureHeaderSize := by
  simp only [secureFrame, List.length_append, length_toBe32, secureHeaderSize]
  omega

section
variable {m : Memory} {length type : Nat} {bytes : List UInt8}

theorem holds_secureFrame (hm : Holds m 0 (secureFrame length type bytes))
    (hlength : length < word32) (htype : type < word32) :
    be32 m 0 = cryptoMagic ∧ be32 m 4 = length ∧ be32 m 8 = type ∧
      Holds m secureHeaderSize bytes := by
  obtain ⟨h₀, hm⟩ := hm.append
  obtain ⟨h₁, hm⟩ := hm.append
  obtain ⟨h₂, hm⟩ := hm.append
  exact ⟨h₀.be32_of_lt (by decide), h₁.be32_of_lt hlength, h₂.be32_of_lt htype, hm⟩

theorem parse_secureFrame (hm : Holds m 0 (secureFrame length type bytes)) (hpos : 0 < length)
    (hlength : length < word32) (htype : type < word32) : cryptoParseHeader m = length := by
  obtain ⟨hmagic, hword, _, _⟩ := holds_secureFrame hm hlength htype
  rw [cryptoParseHeader, hmagic, hword, if_neg (by omega)]

end

section
variable {cipher : Cipher K} {sa : SecurityAssociation K} {inbuf frame : List UInt8} {n : Int}

theorem cryptoEncrypt_eq_some (h : cryptoEncrypt cipher sa inbuf n = some frame) :
    ∃ ciphertext, cipher.encrypt sa.keydata n inbuf = some ciphertext ∧
      ciphertext.length + secureHeaderSize < 2 ^ 31 ∧
      frame = secureFrame (ciphertext.length + secureHeaderSize) cryptoTypePayload ciphertext := by
  unfold cryptoEncrypt at h
  cases hc : cipher.encrypt sa.keydata n inbuf with
  | none =>
    rw [hc] at h
    cases h
  | some ciphertext =>
    rw [hc] at h
    dsimp only at h
    split at h
    · cases h
    · next hpos =>
      refine ⟨ciphertext, rfl, ?_, (Option.some.inj h).symm⟩
      by_contra hbig
      have hlt := cipher.encrypt_length hc
      have hsize : secureHeaderSize = 12 := rfl
      exact hpos (toInt32_neg (by omega) (by simp only [word32]; omega))

/-- **A payload frame** is of its type and of its length, which is an `int`. -/
theorem cryptoEncrypt_frame (h : cryptoEncrypt cipher sa inbuf n = some frame) :
    frameType frame = cryptoTypePayload ∧ LengthExact frame ∧ frame.length < 2 ^ 31 := by
  obtain ⟨ciphertext, _, hlt, rfl⟩ := cryptoEncrypt_eq_some h
  have hholds := holds_ofBytes
    (secureFrame (ciphertext.length + secureHeaderSize) cryptoTypePayload ciphertext) zeroed
  have hword : ciphertext.length + secureHeaderSize < word32 := lt_word32 hlt
  obtain ⟨_, _, htype, _⟩ := holds_secureFrame hholds hword (by decide)
  refine ⟨htype, ?_, by rw [length_secureFrame]; exact hlt⟩
  rw [LengthExact, length_secureFrame]
  exact parse_secureFrame hholds (Nat.add_pos_right _ (by decide)) hword (by decide)

/-- A frame is decrypted to its plaintext by an association with the same key. -/
theorem cryptoDecrypt_cryptoEncrypt
    (hinverts : ∀ key (plaintext : List UInt8) ciphertext,
      cipher.encrypt key plaintext.length plaintext = some ciphertext →
        cipher.decrypt key ciphertext.length ciphertext = some plaintext)
    (h : cryptoEncrypt cipher sa inbuf inbuf.length = some frame) (saDeriveFunc : Derive K)
    {receiver : SecurityAssociation K} (hkey : receiver.keydata = sa.keydata)
    (hready : ¬ (receiver.server = true ∧ receiver.ctxOutInit = false)) {m : Memory}
    (hm : Holds m 0 frame) :
    cryptoParseHeader m = frame.length ∧
      (cryptoDecrypt cipher saDeriveFunc receiver m (toInt32 (cryptoParseHeader m))).plaintext =
        some inbuf := by
  obtain ⟨ciphertext, hc, hlt, rfl⟩ := cryptoEncrypt_eq_some h
  have hword : ciphertext.length + secureHeaderSize < word32 := lt_word32 hlt
  have hparse := parse_secureFrame hm (Nat.add_pos_right _ (by decide)) hword (by decide)
  obtain ⟨_, _, htype, hbytes⟩ := holds_secureFrame hm hword (by decide)
  have hremaining : ((ciphertext.length + secureHeaderSize : Nat) : Int) - secureHeaderSize =
      ciphertext.length := by omega
  refine ⟨by rw [hparse, length_secureFrame], ?_⟩
  rw [hparse, toInt32_of_lt hlt, cryptoDecrypt_plaintext]
  have hready' : ¬ ((receiver.cryptoSa cipher).server = true ∧
      (receiver.cryptoSa cipher).ctxOutInit = false) := hready
  rw [Client.cryptoDecrypt_payload hready' htype hbytes.slice _ hremaining]
  show cipher.decrypt receiver.keydata ciphertext.length ciphertext = some inbuf
  rw [hkey]
  exact hinverts _ _ _ hc

end

section
variable {saDeriveFunc : Derive K} {sa sa' : SecurityAssociation K} {calloc : Bool}
  {nonce : Option Nonce} {frame : List UInt8}

/-- A nonce is created after a derivation that succeeded. -/
theorem cryptoCreateNonce_eq_some
    (h : cryptoCreateNonce saDeriveFunc sa calloc nonce = (some frame, sa')) :
    ∃ bytes : Nonce, saDeriveFunc sa (ofBytes bytes.val zeroed) = (true, sa') ∧
      frame = secureFrame (secureHeaderSize + nonceSize) cryptoTypeNonce bytes.val := by
  unfold cryptoCreateNonce at h
  split at h
  · cases h
  · split at h
    · cases h
    · next bytes =>
      dsimp only at h
      split at h
      · next hok =>
        obtain ⟨hframe, hsa⟩ := Prod.mk.inj h
        exact ⟨bytes, Prod.ext hok hsa, (Option.some.inj hframe).symm⟩
      · cases h

/-- **A nonce frame** is of its type and of its length. -/
theorem cryptoCreateNonce_frame
    (h : cryptoCreateNonce saDeriveFunc sa calloc nonce = (some frame, sa')) :
    frameType frame = cryptoTypeNonce ∧ LengthExact frame ∧ frame.length < 2 ^ 31 := by
  obtain ⟨bytes, _, rfl⟩ := cryptoCreateNonce_eq_some h
  have hholds := holds_ofBytes
    (secureFrame (secureHeaderSize + nonceSize) cryptoTypeNonce bytes.val) zeroed
  obtain ⟨_, _, htype, _⟩ := holds_secureFrame hholds (by decide) (by decide)
  have hlength : (secureFrame (secureHeaderSize + nonceSize) cryptoTypeNonce bytes.val).length =
      secureHeaderSize + nonceSize := by
    rw [length_secureFrame, bytes.property, Nat.add_comm]
  refine ⟨htype, ?_, by rw [hlength]; decide⟩
  rw [LengthExact, hlength]
  exact parse_secureFrame hholds (by decide) (by decide) (by decide)

end
end Cmsg.Crypto
