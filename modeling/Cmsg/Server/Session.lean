import Cmsg.Base.Runs
import Cmsg.Crypto.Frames

/-! # The associations of an encrypted server

The server keeps a security association for every socket that it accepted. It
derives the key of one from the nonce that arrives, and decrypts what comes after
it. A derivation that has succeeded since a socket was accepted is kept beside
the table. -/
namespace Cmsg.Server
open Cmsg.Base Cmsg.Base.Runs Cmsg.Wire Cmsg.Client Cmsg.Crypto

variable {K : Type}

/-! ## The table -/

/-- `crypto_sa_hash_table`, and the sockets whose connection has derived a key. -/
structure Sessions (K : Type) where
  saTable : Int → Option (SecurityAssociation K)
  derivedOn : Int → Bool

/-- A payload that is decrypted, and whether the connection has derived a key. -/
structure Decrypted where
  socket : Int
  derived : Bool
deriving DecidableEq, Repr

namespace Sessions

/-- A server after `cmsg_server_crypto_enable` -/
def create : Sessions K := ⟨fun _ => none, fun _ => false⟩

/-- `cmsg_server_accept`, given what `crypto_sa_create_func` returns. A connection
without an association is closed. -/
def accept (s : Sessions K) (sock : Int) (created : Option (SecurityAssociation K)) : Sessions K :=
  match created with
  | none => s
  | some sa =>
    ⟨Function.update s.saTable sock (some sa), Function.update s.derivedOn sock false⟩

/-- `cmsg_server_close_accepted_socket` -/
def closeAcceptedSocket (s : Sessions K) (sock : Int) : Sessions K :=
  { s with saTable := Function.update s.saTable sock none }

/-- `cmsg_server_receive_encrypted`, with the frame that it receives -/
def receiveEncrypted (cipher : Cipher K) (saDeriveFunc : Derive K) (s : Sessions K) (sock : Int)
    (inbuf : Memory) (length : Int) : Sessions K × List Decrypted :=
  match s.saTable sock with
  | none => (s, [])
  | some sa =>
    let r := Crypto.cryptoDecrypt cipher saDeriveFunc sa inbuf length
    (⟨Function.update s.saTable sock (some r.sa),
      if r.derived then Function.update s.derivedOn sock true else s.derivedOn⟩,
      if r.decrypted then [⟨sock, s.derivedOn sock⟩] else [])

/-! ## Runs -/

/-- What happens to the sockets of a server. Any bytes may arrive. -/
inductive Call (K : Type)
  | accept (sock : Int) (created : Option (SecurityAssociation K))
  | receive (sock : Int) (inbuf : Memory) (length : Int)
  | close (sock : Int)

def step (cipher : Cipher K) (saDeriveFunc : Derive K) (s : Sessions K) :
    Call K → Option (Sessions K × List Decrypted)
  | .accept sock created => some (s.accept sock created, [])
  | .receive sock inbuf length => some (receiveEncrypted cipher saDeriveFunc s sock inbuf length)
  | .close sock => some (s.closeAcceptedSocket sock, [])

/-- An association of a server that waits for a nonce. -/
def Waits (sa : SecurityAssociation K) : Prop := sa.server = true ∧ sa.ctxOutInit = false

/-- An association is created to wait for a nonce, and one that still waits is not
changed into another by a derivation that fails. -/
def Call.Waiting (saDeriveFunc : Derive K) (s : Sessions K) : Call K → Prop
  | .accept _ created => ∀ sa, created = some sa → Waits sa
  | .receive sock inbuf _ => ∀ sa, s.saTable sock = some sa → Waits sa →
      let r := saDeriveFunc sa fun i => inbuf (secureHeaderSize + i)
      be32 inbuf 8 = cryptoTypeNonce → r.1 = false → Waits r.2
  | .close _ => True

/-! ## What is decrypted -/

/-- An association waits for a nonce, or its connection has derived a key. -/
def Derived (s : Sessions K) : Prop :=
  ∀ sock sa, s.saTable sock = some sa → Waits sa ∨ s.derivedOn sock = true

section
variable {cipher : Cipher K} {saDeriveFunc : Derive K} {sa : SecurityAssociation K}

/-- An association that waits: a nonce that is not refused derives a key, and
nothing is decrypted. -/
theorem cryptoDecrypt_waits (hwaits : Waits sa) (inbuf : Memory) (length : Int) :
    let r := Crypto.cryptoDecrypt cipher saDeriveFunc sa inbuf length
    let derived := saDeriveFunc sa fun i => inbuf (secureHeaderSize + i)
    r.decrypted = false ∧
      (be32 inbuf 8 = cryptoTypeNonce ∧ r.sa = derived.2 ∧ r.derived = derived.1 ∨
        r.sa = sa ∧ r.derived = false) := by
  intro r derived
  have hif : sa.server = true ∧ sa.ctxOutInit = false := hwaits
  unfold r Crypto.cryptoDecrypt
  dsimp only
  rw [if_pos hif]
  split
  · next htype => exact ⟨rfl, .inl ⟨htype, rfl, rfl⟩⟩
  · exact ⟨rfl, .inr ⟨rfl, rfl⟩⟩

theorem derived_update {s : Sessions K} (h : s.Derived) {sock : Int}
    {sa' : Option (SecurityAssociation K)} {derivedOn : Int → Bool}
    (hother : ∀ sock', sock' ≠ sock → derivedOn sock' = s.derivedOn sock')
    (hsock : ∀ sa, sa' = some sa → Waits sa ∨ derivedOn sock = true) :
    Derived ⟨Function.update s.saTable sock sa', derivedOn⟩ := by
  intro sock' sa hsa
  dsimp only at hsa
  by_cases hsocket : sock' = sock
  · subst hsocket
    rw [Function.update_self] at hsa
    exact hsock sa hsa
  · rw [Function.update_of_ne hsocket] at hsa
    dsimp only
    rw [hother sock' hsocket]
    exact h sock' sa hsa

/-- A frame that is received keeps the invariant, and is decrypted only on a
connection that has derived a key. -/
theorem derived_receiveEncrypted {s : Sessions K} (h : s.Derived) {sock : Int} {inbuf : Memory}
    {length : Int} (hcall : Call.Waiting saDeriveFunc s (.receive sock inbuf length)) :
    let r := receiveEncrypted cipher saDeriveFunc s sock inbuf length
    r.1.Derived ∧ ∀ d ∈ r.2, d.derived = true := by
  intro r
  unfold r receiveEncrypted
  cases hsa : s.saTable sock with
  | none => exact ⟨h, fun _ hd => by cases hd⟩
  | some sa =>
    dsimp only
    rcases h sock sa hsa with hwaits | hderived
    · obtain ⟨hdecrypted, hderives⟩ :=
        @cryptoDecrypt_waits _ cipher saDeriveFunc sa hwaits inbuf length
      rw [hdecrypted, if_neg Bool.false_ne_true]
      refine ⟨?_, fun _ hd => by cases hd⟩
      rcases hderives with ⟨htype, hsa', hok⟩ | ⟨hsa', hok⟩
      · rw [hsa', hok]
        cases hr : (saDeriveFunc sa fun i => inbuf (secureHeaderSize + i)).1 with
        | true =>
          rw [if_pos rfl]
          refine derived_update h (fun sock' hne => Function.update_of_ne hne _ _) fun _ _ => ?_
          exact .inr (Function.update_self _ _ _)
        | false =>
          rw [if_neg Bool.false_ne_true]
          refine derived_update h (fun _ _ => rfl) fun sa' hsome => .inl ?_
          obtain rfl := Option.some.inj hsome
          exact hcall sa hsa hwaits htype hr
      · rw [hsa', hok, if_neg Bool.false_ne_true]
        refine derived_update h (fun _ _ => rfl) fun sa' hsome => .inl ?_
        obtain rfl := Option.some.inj hsome
        exact hwaits
    · refine ⟨derived_update h (fun sock' hne => ?_) fun _ _ => .inr ?_, fun d hd => ?_⟩
      · split
        · exact Function.update_of_ne hne _ _
        · rfl
      · split
        · exact Function.update_self _ _ _
        · exact hderived
      · split at hd
        · obtain rfl := List.mem_singleton.mp hd
          exact hderived
        · cases hd

/-- **A step** keeps the invariant, and what it decrypts is of a connection that
has derived a key. -/
theorem derived_step {s s' : Sessions K} (h : s.Derived) {call : Call K} {o : List Decrypted}
    (hcall : call.Waiting saDeriveFunc s)
    (hs : step cipher saDeriveFunc s call = some (s', o)) :
    s'.Derived ∧ ∀ d ∈ o, d.derived = true := by
  cases call with
  | accept sock created =>
    obtain ⟨rfl, rfl⟩ := Prod.mk.inj (Option.some.inj hs)
    refine ⟨?_, fun _ hd => by cases hd⟩
    cases created with
    | none => exact h
    | some sa =>
      refine derived_update h (fun sock' hne => Function.update_of_ne hne _ _) fun sa' hsome => ?_
      exact .inl (hcall sa' hsome)
  | receive sock inbuf length =>
    have hstep := @derived_receiveEncrypted _ cipher saDeriveFunc s h sock inbuf length hcall
    rw [Option.some.inj hs] at hstep
    exact hstep
  | close sock =>
    obtain ⟨rfl, rfl⟩ := Prod.mk.inj (Option.some.inj hs)
    exact ⟨derived_update h (fun _ _ => rfl) fun _ hsome => (by cases hsome),
      fun _ hd => by cases hd⟩

end
end Sessions
end Cmsg.Server
