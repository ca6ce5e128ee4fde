import Cmsg.Base.Files
import Cmsg.Base.Runs
import Cmsg.Proxy.Strings
import Cmsg.Wire.Header
import Mathlib.Data.List.Induction

/-! # Messages in files

`cmsg_dump_msg_to_file` writes a message to a temporary file that then takes the name of
the file. API calls that are answered from the file read it meanwhile: `access`, `stat`,
`fopen` and `fread` are separate steps, and dumps go on between them. -/
namespace Cmsg.Message
open Cmsg.Base Cmsg.Base.Runs Cmsg.Wire
open Cmsg.Proxy (cstr)

/-- `cmsg_pack_msg` and `protobuf_c_message_unpack`. -/
structure MessageCodec (M : Type) where
  pack : M → Option (List UInt8)
  unpack : List UInt8 → Option M

def tmpFileName (fileName : CString) : CString := fileName ++ cstr ".tmp"

/-! ## Dumping -/

/-- Where a process is in `cmsg_dump_msg_to_file`. -/
inductive Dump (M : Type)
  | idle
  | opened (fileName : CString) (file : Nat) (msg : M)
  /-- What the stream was given; not all of it has to be in the file yet. -/
  | written (fileName : CString) (file : Nat) (msg : M) (data : List UInt8) (ret : RetCode)
  | closed (fileName : CString) (file : Nat) (msg : M) (ret : RetCode)

def Dump.fileName {M : Type} : Dump M → Option CString
  | .idle => none
  | .opened fileName _ _ | .written fileName _ _ _ _ | .closed fileName _ _ _ => some fileName

def Dump.file {M : Type} : Dump M → Option Nat
  | .idle => none
  | .opened _ file _ | .written _ file _ _ _ | .closed _ file _ _ => some file

/-- The files, and the processes that dump to them. -/
structure DumpSystem (M : Type) where
  files : Files CString
  dump : Nat → Dump M

/-- The steps. How much `fwrite` takes, how much of it is in the file after a write of the
stream's buffer or after `fclose`, and whether `rename` succeeds is up to the system; a
process may end at any point. -/
inductive DumpStep (M : Type)
  | fopen (w : Nat) (fileName : CString) (msg : M) (opens : Bool)
  | fwrite (w : Nat) (len : Nat)
  | flush (w : Nat) (n : Nat)
  | fclose (w : Nat) (n : Nat)
  | rename (w : Nat) (succeeds : Bool)
  | exit (w : Nat)

/-- A dump that took the name of the file, with the message and what is in the file of it,
and the return of a dump. -/
inductive DumpEvent (M : Type)
  | replaced (fileName : CString) (msg : M) (content : List UInt8)
  | returned (fileName : CString) (ret : RetCode)

variable {M : Type}

def DumpSystem.setDump (s : DumpSystem M) (w : Nat) (d : Dump M) : DumpSystem M :=
  { s with dump := fun v => if v = w then d else s.dump v }

/-- The part of `cmsg_dump_msg_to_file` around `fwrite`: what the stream is given, and
what is going to be returned. -/
def fwriteMsg (codec : MessageCodec M) (msg : M) (len : Nat) : List UInt8 × RetCode :=
  match codec.pack msg with
  | none => ([], .err)
  | some packedData =>
    (packedData.take len, if (packedData.take len).length = packedData.length then .ok else .err)

/-- One step of `cmsg_dump_msg_to_file` of a process. -/
def dumpStep (codec : MessageCodec M) : Machine (DumpSystem M) (DumpStep M) (DumpEvent M) :=
  fun s step =>
    match step with
    | .fopen w fileName msg opens =>
      match s.dump w with
      | .idle =>
        if opens then
          let (files, file) := s.files.create (tmpFileName fileName)
          some ({ s with files }.setDump w (.opened fileName file msg), [])
        else some (s, [.returned fileName .err])
      | _ => none
    | .fwrite w len =>
      match s.dump w with
      | .opened fileName file msg =>
        let (data, ret) := fwriteMsg codec msg len
        some (s.setDump w (.written fileName file msg data ret), [])
      | _ => none
    | .flush w n =>
      match s.dump w with
      | .written _ file _ data _ =>
        some ({ s with files := s.files.setContent file (data.take n) }, [])
      | _ => none
    | .fclose w n =>
      match s.dump w with
      | .written fileName file msg data ret =>
        some ({ s with files := s.files.setContent file (data.take n) }.setDump w
          (.closed fileName file msg ret), [])
      | _ => none
    | .rename w succeeds =>
      match s.dump w with
      | .closed fileName _ msg ret =>
        match succeeds, s.files.read (tmpFileName fileName) with
        | true, some content =>
          some ({ s with files := s.files.rename (tmpFileName fileName) fileName }.setDump w .idle,
            [.replaced fileName msg content, .returned fileName ret])
        | _, _ => some (s.setDump w .idle, [.returned fileName ret])
      | _ => none
    | .exit w => some (s.setDump w .idle, [])

/-! ## Reading -/

/-- `cmsg_get_msg_from_file`, with the files as they are at its `stat`, its `fopen` and its
`fread`. -/
def getMsgFromFile (codec : MessageCodec M) (atStat atOpen atRead : Files CString)
    (fileName : CString) : Option M :=
  match atStat.named fileName, atOpen.named fileName with
  | some statted, some file =>
    let size := (atStat.content statted).length
    let packedData := (atRead.content file).take size
    if packedData.length = size then codec.unpack packedData else none
  | _, _ => none

/-- `cmsg_api_file_response`, with the files at its `access` also. -/
def fileResponse (codec : MessageCodec M) (antResponse : Option M)
    (atAccess atStat atOpen atRead : Files CString) (filename : CString) : RetCode × Option M :=
  match atAccess.named filename with
  | none => (.ok, antResponse)
  | some _ =>
    match getMsgFromFile codec atStat atOpen atRead filename with
    | some msg => (.ok, some msg)
    | none => (.err, none)

/-! ## What is assumed of the dumps -/

/-- Dumps are made to the files given, and not at the same time to one of them. -/
def Apart (targets : CString → Prop) (s : DumpSystem M) (step : DumpStep M) : Prop :=
  match step with
  | .fopen _ fileName _ _ => targets fileName ∧ ∀ v, (s.dump v).fileName ≠ some fileName
  | _ => True

/-- Where a process goes on with its dump, or ends it. -/
def GoesOn (d d' : Dump M) : Prop :=
  d'.fileName = none ∨ d'.fileName = d.fileName ∧ d'.file = d.file

/-- What a step does to the files, by the process that makes it. -/
inductive DumpEffect (s : DumpSystem M) (step : DumpStep M) :
    DumpSystem M → List (DumpEvent M) → Prop
  | stays (g : CString) (ret : RetCode) : DumpEffect s step s [.returned g ret]
  | opens (w : Nat) (g : CString) (msg : M) (h : step = .fopen w g msg true) :
    DumpEffect s step ({ s with files := (s.files.create (tmpFileName g)).1 }.setDump w
      (.opened g (s.files.create (tmpFileName g)).2 msg)) []
  | moves (w : Nat) (d : Dump M) (h : GoesOn (s.dump w) d) (o : List (DumpEvent M))
    (ho : ∀ g m c, .replaced g m c ∉ o) : DumpEffect s step (s.setDump w d) o
  | stores (w i : Nat) (bytes : List UInt8) (hfile : (s.dump w).file = some i) (d : Dump M)
    (h : GoesOn (s.dump w) d) :
    DumpEffect s step ({ s with files := s.files.setContent i bytes }.setDump w d) []
  | replaces (w : Nat) (g : CString) (file : Nat) (msg : M) (ret : RetCode) (c : List UInt8)
    (h : s.dump w = .closed g file msg ret) (hc : s.files.read (tmpFileName g) = some c) :
    DumpEffect s step ({ s with files := s.files.rename (tmpFileName g) g }.setDump w .idle)
      [.replaced g msg c, .returned g ret]

theorem setDump_self (s : DumpSystem M) (w : Nat) : s.setDump w (s.dump w) = s := by
  have hdump : (fun v => if v = w then s.dump w else s.dump v) = s.dump := by
    funext v
    split
    · next hv => rw [hv]
    · rfl
  rw [DumpSystem.setDump, hdump]

theorem dumpStep_effect {codec : MessageCodec M} {s t : DumpSystem M} {step : DumpStep M}
    {o : List (DumpEvent M)} (h : dumpStep codec s step = some (t, o)) : DumpEffect s step t o := by
  cases step with
  | fopen w g msg opens =>
    simp only [dumpStep] at h
    cases hw : s.dump w with
    | idle =>
      rw [hw] at h
      cases opens with
      | true =>
        cases h
        exact .opens w g msg rfl
      | false =>
        cases h
        exact .stays g .err
    | opened | written | closed =>
      rw [hw] at h
      cases h
  | fwrite w len =>
    simp only [dumpStep] at h
    cases hw : s.dump w with
    | opened g file msg =>
      rw [hw] at h
      cases h
      exact .moves w _ (.inr (by rw [hw]; exact ⟨rfl, rfl⟩)) [] (by simp)
    | idle | written | closed =>
      rw [hw] at h
      cases h
  | flush w n =>
    simp only [dumpStep] at h
    cases hw : s.dump w with
    | written g file msg data ret =>
      rw [hw] at h
      cases h
      have hkeeps := setDump_self { s with files := s.files.setContent file (data.take n) } w
      rw [← hkeeps]
      exact .stores w file (data.take n) (by rw [hw]; rfl) (s.dump w) (.inr ⟨rfl, rfl⟩)
    | idle | opened | closed =>
      rw [hw] at h
      cases h
  | fclose w n =>
    simp only [dumpStep] at h
    cases hw : s.dump w with
    | written g file msg data ret =>
      rw [hw] at h
      cases h
      exact .stores w file (data.take n) (by rw [hw]; rfl) _ (.inr (by rw [hw]; exact ⟨rfl, rfl⟩))
    | idle | opened | closed =>
      rw [hw] at h
      cases h
  | rename w succeeds =>
    simp only [dumpStep] at h
    cases hw : s.dump w with
    | closed g file msg ret =>
      rw [hw] at h
      dsimp only at h
      split at h
      · next c hc =>
        cases h
        exact .replaces w g file msg ret c hw hc
      · cases h
        exact .moves w .idle (.inl rfl) _ (by simp)
    | idle | opened | written =>
      rw [hw] at h
      cases h
  | exit w =>
    cases h
    exact .moves w .idle (.inl rfl) [] (by simp)

/-! ## What each step keeps -/

/-- No file that is dumped to is the temporary file of another. -/
def Separate (targets : CString → Prop) : Prop :=
  ∀ g g', targets g → targets g' → g' ≠ tmpFileName g

/-- The file that a process dumps to has the temporary name of its own. -/
structure DumpInv (targets : CString → Prop) (s : DumpSystem M) : Prop where
  wf : s.files.WellFormed
  own : ∀ {w g i}, (s.dump w).fileName = some g → (s.dump w).file = some i →
    targets g ∧ s.files.named (tmpFileName g) = some i
  apart : ∀ {w v g}, (s.dump w).fileName = some g → (s.dump v).fileName = some g → w = v

/-- The file is there and has no temporary name. -/
def Settled (targets : CString → Prop) (s : DumpSystem M) (i : Nat) : Prop :=
  i < s.files.next ∧ ∀ g, targets g → s.files.named (tmpFileName g) ≠ some i

theorem fileName_isSome {d : Dump M} {i : Nat} (h : d.file = some i) :
    ∃ g, d.fileName = some g := by
  cases d with
  | idle => cases h
  | opened g | written g | closed g => exact ⟨g, rfl⟩

section
variable {targets : CString → Prop} {s t : DumpSystem M} {w : Nat} {d : Dump M} {i : Nat}

theorem dump_setDump (s : DumpSystem M) (w v : Nat) (d : Dump M) :
    (s.setDump w d).dump v = if v = w then d else s.dump v := rfl

@[simp] theorem files_setDump (s : DumpSystem M) (w : Nat) (d : Dump M) :
    (s.setDump w d).files = s.files := rfl

theorem tmpFileName_injective {g g' : CString} (h : tmpFileName g = tmpFileName g') : g = g' :=
  List.append_cancel_right h

/-- A process that goes on has the names that it had. -/
theorem GoesOn.names {d d' : Dump M} (h : GoesOn d d') {g : CString} (hg : d'.fileName = some g) :
    d.fileName = some g ∧ d'.file = d.file := by
  obtain hnone | ⟨hname, hfile⟩ := h
  · rw [hnone] at hg
    cases hg
  · exact ⟨hname ▸ hg, hfile⟩

/-- Only the step of a process itself changes what its dump is about. -/
theorem DumpInv.goesOn (h : DumpInv targets s) {files : Files CString} (hwf : files.WellFormed)
    (hnamed : ∀ {v g j}, (s.dump v).fileName = some g → (s.dump v).file = some j → v ≠ w ∨
      (∃ g', d.fileName = some g') → files.named (tmpFileName g) = some j)
    (hd : GoesOn (s.dump w) d) : DumpInv targets ({ s with files }.setDump w d) where
  wf := hwf
  own := by
    intro v g j hg hj
    rw [dump_setDump] at hg hj
    split at hg
    · next hv =>
      rw [if_pos hv] at hj
      obtain ⟨hname, hfile⟩ := hd.names hg
      rw [hfile] at hj
      exact ⟨(h.own hname hj).1, hnamed hname hj (.inr ⟨g, hg⟩)⟩
    · next hv =>
      rw [if_neg hv] at hj
      exact ⟨(h.own hg hj).1, hnamed hg hj (.inl hv)⟩
  apart := by
    intro v u g hv hu
    rw [dump_setDump] at hv hu
    split at hv
    · next hvw =>
      split at hu
      · next huw => rw [hvw, huw]
      · rw [hvw]
        exact h.apart (hd.names hv).1 hu
    · split at hu
      · next huw =>
        rw [huw]
        exact h.apart hv (hd.names hu).1
      · exact h.apart hv hu

theorem DumpInv.opens (h : DumpInv targets s) {g : CString} (hg : targets g)
    (hfree : ∀ v, (s.dump v).fileName ≠ some g) (msg : M) :
    DumpInv targets ({ s with files := (s.files.create (tmpFileName g)).1 }.setDump w
      (.opened g (s.files.create (tmpFileName g)).2 msg)) where
  wf := (h.wf.create _).1
  own := by
    intro v g' j hv hj
    rw [dump_setDump] at hv hj
    rw [files_setDump, Files.named_create]
    split at hv
    · next hvw =>
      rw [if_pos hvw] at hj
      cases hv
      cases hj
      exact ⟨hg, if_pos rfl⟩
    · next hvw =>
      rw [if_neg hvw] at hj
      obtain ⟨htarget, hnamed⟩ := h.own hv hj
      refine ⟨htarget, ?_⟩
      rw [if_neg]
      · exact hnamed
      · intro htmp
        rw [tmpFileName_injective htmp] at hv
        exact hfree v hv
  apart := by
    intro v u g' hv hu
    rw [dump_setDump] at hv hu
    split at hv
    · next hvw =>
      cases hv
      split at hu
      · next huw => rw [hvw, huw]
      · exact absurd hu (hfree u)
    · split at hu
      · cases hu
        exact absurd hv (hfree v)
      · exact h.apart hv hu

theorem dumpInv_step (hsep : Separate targets) {codec : MessageCodec M} {step : DumpStep M}
    {o : List (DumpEvent M)} (h : DumpInv targets s) (hC : Apart targets s step)
    (hs : dumpStep codec s step = some (t, o)) : DumpInv targets t := by
  cases dumpStep_effect hs with
  | stays => exact h
  | opens w g msg hstep =>
    subst hstep
    exact h.opens hC.1 hC.2 msg
  | moves w d hd => exact h.goesOn h.wf (fun hg hj _ => (h.own hg hj).2) hd
  | stores w i bytes hfile d hd =>
    exact h.goesOn (h.wf.setContent i bytes) (fun hg hj _ => (h.own hg hj).2) hd
  | replaces w g file msg ret c hw hc =>
    have hname : (s.dump w).fileName = some g := by rw [hw]; rfl
    have htarget : targets g := (h.own hname (by rw [hw]; rfl)).1
    refine h.goesOn (h.wf.rename _ _) (fun {v g' j} hg hj hor => ?_) (.inl rfl)
    obtain ⟨htarget', hnamed⟩ := h.own hg hj
    have hne : tmpFileName g' ≠ tmpFileName g := by
      intro htmp
      obtain hv | ⟨g'', hidle⟩ := hor
      · exact hv (h.apart hg (tmpFileName_injective htmp ▸ hname))
      · cases hidle
    rw [Files.named_rename_other (fun he => hsep g' g htarget' htarget he.symm) hne]
    exact hnamed

/-- A file that has no temporary name is not written to any more. -/
theorem settled_step (hsep : Separate targets) {codec : MessageCodec M} {step : DumpStep M}
    {o : List (DumpEvent M)} (h : DumpInv targets s) (hC : Apart targets s step)
    (hs : dumpStep codec s step = some (t, o)) (hi : Settled targets s i) :
    Settled targets t i ∧ t.files.content i = s.files.content i := by
  obtain ⟨hlt, htmp⟩ := hi
  cases dumpStep_effect hs with
  | stays => exact ⟨⟨hlt, htmp⟩, rfl⟩
  | opens w g msg hstep =>
    subst hstep
    refine ⟨⟨Nat.lt_of_lt_of_le hlt (Files.next_create _ _), fun g' hg' hnamed => ?_⟩,
      Files.content_create_ne hlt (htmp g hC.1)⟩
    rw [files_setDump, Files.named_create] at hnamed
    split at hnamed
    · exact Files.create_snd_ne hlt (htmp g hC.1) (Option.some.inj hnamed)
    · exact htmp g' hg' hnamed
  | moves w d hd => exact ⟨⟨hlt, htmp⟩, rfl⟩
  | stores w j bytes hfile d hd =>
    obtain ⟨g, hg⟩ := fileName_isSome hfile
    obtain ⟨htarget, hnamed⟩ := h.own hg hfile
    refine ⟨⟨hlt, htmp⟩, Files.content_setContent_ne ?_ bytes⟩
    rintro rfl
    exact htmp g htarget hnamed
  | replaces w g file msg ret c hw hc =>
    refine ⟨⟨by simpa using hlt, fun g' hg' hnamed => ?_⟩, by simp⟩
    have hname : (s.dump w).fileName = some g := by rw [hw]; rfl
    have htarget : targets g := (h.own hname (by rw [hw]; rfl)).1
    obtain ⟨he, -⟩ | hold := Files.named_rename hnamed
    · exact hsep g' g hg' htarget he.symm
    · exact htmp g' hg' hold

end

/-! ## What a reader finds -/

/-- The content of a file after the events. -/
def afterEvents (fileName : CString) (content : Option (List UInt8)) (o : List (DumpEvent M)) :
    Option (List UInt8) :=
  o.foldl (fun content e =>
    match e with
    | .replaced g _ c => if g = fileName then some c else content
    | .returned _ _ => content) content

/-- The last dump to a file that took its name: its message, and what is in the file. -/
def lastDump (fileName : CString) (o : List (DumpEvent M)) : Option (M × List UInt8) :=
  o.foldl (fun last e =>
    match e with
    | .replaced g m c => if g = fileName then some (m, c) else last
    | .returned _ _ => last) none

/-- The file of the name stays, unless a dump replaces it; then it has the content that
was written to the temporary file. -/
structure Follows (f : CString) (s t : DumpSystem M) (o : List (DumpEvent M)) : Prop where
  read : t.files.read f = afterEvents f (s.files.read f) o
  named : (∀ m c, .replaced f m c ∉ o) → t.files.named f = s.files.named f
  present : (s.files.named f).isSome → (t.files.named f).isSome

section
variable {targets : CString → Prop} {s t : DumpSystem M} {f : CString}

theorem afterEvents_of_not_replaced {content : Option (List UInt8)} {o : List (DumpEvent M)}
    (h : ∀ m c, .replaced f m c ∉ o) : afterEvents f content o = content := by
  induction o generalizing content with
  | nil => rfl
  | cons e o ih =>
    have hrest : ∀ m c, .replaced f m c ∉ o := fun m c hc => h m c (List.mem_cons_of_mem _ hc)
    cases e with
    | returned => exact ih hrest
    | replaced g m c =>
      have hne : g ≠ f := by
        rintro rfl
        exact h m c List.mem_cons_self
      show afterEvents f (if g = f then some c else content) o = content
      rw [if_neg hne]
      exact ih hrest

/-- The content of the file is that of the last dump. -/
theorem afterEvents_of_lastDump {o : List (DumpEvent M)} {m : M} {c : List UInt8}
    (h : lastDump f o = some (m, c)) (content : Option (List UInt8)) :
    afterEvents f content o = some c := by
  induction o using List.reverseRecOn with
  | nil => cases h
  | append_singleton o e ih =>
    rw [lastDump, List.foldl_append] at h
    rw [afterEvents, List.foldl_append]
    cases e with
    | returned => exact ih h
    | replaced g m' c' =>
      dsimp only [List.foldl_cons, List.foldl_nil] at h ⊢
      by_cases hg : g = f
      · rw [if_pos hg] at h ⊢
        rw [(Prod.mk.inj (Option.some.inj h)).2]
      · rw [if_neg hg] at h ⊢
        exact ih h

theorem settled_of_named (hsep : Separate targets) (h : DumpInv targets s) (hf : targets f)
    {i : Nat} (hi : s.files.named f = some i) : Settled targets s i :=
  ⟨h.wf.lt hi, fun g hg hnamed => hsep g f hg hf (h.wf.inj hi hnamed)⟩

theorem follows_step (hsep : Separate targets) {codec : MessageCodec M} {step : DumpStep M}
    {o : List (DumpEvent M)} (h : DumpInv targets s) (hC : Apart targets s step)
    (hs : dumpStep codec s step = some (t, o)) (hf : targets f) : Follows f s t o := by
  have hread : t.files.named f = s.files.named f → t.files.read f = s.files.read f := by
    intro hnamed
    unfold Files.read
    rw [hnamed]
    cases hi : s.files.named f with
    | none => rfl
    | some i =>
      have hsettled := settled_of_named hsep h hf hi
      rw [Option.map_some, Option.map_some, (settled_step hsep h hC hs hsettled).2]
  have hkeeps : t.files.named f = s.files.named f → (∀ m c, .replaced f m c ∉ o) →
      Follows f s t o := by
    intro hnamed ho
    exact ⟨by rw [hread hnamed, afterEvents_of_not_replaced ho], fun _ => hnamed,
      fun hp => hnamed ▸ hp⟩
  cases dumpStep_effect hs with
  | stays => exact hkeeps rfl (by simp)
  | opens w g msg hstep =>
    subst hstep
    refine hkeeps ?_ (by simp)
    rw [files_setDump, Files.named_create, if_neg (hsep g f hC.1 hf)]
  | moves w d hd o ho => exact hkeeps rfl (ho f)
  | stores => exact hkeeps rfl (by simp)
  | replaces w g file msg ret c hw hc =>
    have htarget : targets g := (h.own (by rw [hw]; rfl) (by rw [hw]; rfl)).1
    by_cases hgf : g = f
    · subst hgf
      obtain ⟨i, hi, hci⟩ := Option.map_eq_some_iff.mp hc
      have hnew := Files.named_rename_new (m := g) hi
      refine ⟨?_, fun ho => absurd List.mem_cons_self (ho msg c), fun _ => ?_⟩
      · rw [files_setDump, Files.read, hnew, Files.content_rename, Option.map_some, hci]
        simp [afterEvents]
      · rw [files_setDump, hnew]
        rfl
    · refine hkeeps ?_ (by simp [Ne.symm hgf])
      rw [files_setDump, Files.named_rename_other (Ne.symm hgf) (hsep g f htarget hf)]

theorem Follows.trans {u : DumpSystem M} {o o' : List (DumpEvent M)} (h : Follows f s t o)
    (h' : Follows f t u o') : Follows f s u (o ++ o') where
  read := by rw [h'.read, h.read, afterEvents, afterEvents, afterEvents, List.foldl_append]
  named ho := by
    rw [h'.named fun m c hc => ho m c (List.mem_append_right _ hc),
      h.named fun m c hc => ho m c (List.mem_append_left _ hc)]
  present hp := h'.present (h.present hp)

/-- What a run of dumps does to a file, and to a file that is open. -/
structure RunsOn (targets : CString → Prop) (f : CString) (s t : DumpSystem M)
    (o : List (DumpEvent M)) : Prop where
  inv : DumpInv targets t
  follows : Follows f s t o
  settled : ∀ i, Settled targets s i →
    Settled targets t i ∧ t.files.content i = s.files.content i

theorem runsOn_exec (hsep : Separate targets) {codec : MessageCodec M} (h : DumpInv targets s)
    (hf : targets f) {ops : List (DumpStep M)} {o : List (DumpEvent M)}
    (hC : Guarded (dumpStep codec) (Apart targets) s ops)
    (he : exec (dumpStep codec) s ops = some (t, o)) : RunsOn targets f s t o := by
  refine exec_track_guarded (R := fun t _ o => RunsOn targets f s t o) ?_ ?_ hC he
  · intro u _ o step u' o' hR hstep hs
    refine ⟨dumpInv_step hsep hR.inv hstep hs,
      hR.follows.trans (follows_step hsep hR.inv hstep hs hf), fun i hi => ?_⟩
    obtain ⟨hi', hcontent⟩ := hR.settled i hi
    obtain ⟨hi'', hcontent'⟩ := settled_step hsep hR.inv hstep hs hi'
    exact ⟨hi'', hcontent'.trans hcontent⟩
  · exact ⟨h, ⟨rfl, fun _ => rfl, id⟩, fun i hi => ⟨hi, rfl⟩⟩

end

/-! ## What is in the files -/

/-- The data is the beginning of the packed message; it is all of it where `fwrite` took all
of it and all of it was in the file when `fclose` returned. -/
def Begins (codec : MessageCodec M) (msg : M) (data : List UInt8) : Prop :=
  data <+: (codec.pack msg).getD []

/-- What the data of each process, and of each dump that ended, is the beginning of. -/
structure Accounts (codec : MessageCodec M) (s : DumpSystem M) (o : List (DumpEvent M)) :
    Prop where
  written : ∀ {w g i m data ret}, s.dump w = .written g i m data ret → Begins codec m data
  closed : ∀ {w g i m ret}, s.dump w = .closed g i m ret → Begins codec m (s.files.content i)
  replaced : ∀ {g m c}, .replaced g m c ∈ o → Begins codec m c

section
variable {codec : MessageCodec M} {targets : CString → Prop} {s t : DumpSystem M}
variable {o o' : List (DumpEvent M)} {step : DumpStep M}

theorem DumpInv.file_ne (h : DumpInv targets s) {v w i j : Nat} (hvw : v ≠ w)
    (hv : (s.dump v).file = some i) (hw : (s.dump w).file = some j) : i ≠ j := by
  rintro rfl
  obtain ⟨g, hg⟩ := fileName_isSome hv
  obtain ⟨g', hg'⟩ := fileName_isSome hw
  have htmp := h.wf.inj (h.own hg hv).2 (h.own hg' hw).2
  rw [tmpFileName_injective htmp] at hg
  exact hvw (h.apart hg hg')

/-- A step of a process that leaves the files of the others. -/
theorem Accounts.move (h : Accounts codec s o) {files : Files CString} {w : Nat} {d : Dump M}
    (hcontent : ∀ v g i m ret, v ≠ w → s.dump v = .closed g i m ret →
      files.content i = s.files.content i)
    (hwritten : ∀ g i m data ret, d = .written g i m data ret → Begins codec m data)
    (hclosed : ∀ g i m ret, d = .closed g i m ret → Begins codec m (files.content i))
    (hreplaced : ∀ g m c, .replaced g m c ∈ o' → Begins codec m c) :
    Accounts codec ({ s with files }.setDump w d) (o ++ o') where
  written := by
    intro v g i m data ret hv
    rw [dump_setDump] at hv
    split at hv
    · exact hwritten g i m data ret hv
    · exact h.written hv
  closed := by
    intro v g i m ret hv
    rw [dump_setDump] at hv
    rw [files_setDump]
    split at hv
    · exact hclosed g i m ret hv
    · next hvw =>
      rw [hcontent v g i m ret hvw hv]
      exact h.closed hv
  replaced := by
    intro g m c hc
    cases List.mem_append.mp hc with
    | inl hc => exact h.replaced hc
    | inr hc => exact hreplaced g m c hc

theorem accounts_step (hinv : DumpInv targets s) (h : Accounts codec s o)
    (hapart : Apart targets s step) (hs : dumpStep codec s step = some (t, o')) :
    Accounts codec t (o ++ o') := by
  cases step with
  | fopen w g msg opens =>
    simp only [dumpStep] at hs
    cases hw : s.dump w with
    | idle =>
      rw [hw] at hs
      cases opens with
      | false =>
        cases hs
        exact ⟨h.written, h.closed, fun hc => h.replaced (by simpa using hc)⟩
      | true =>
        cases hs
        refine h.move ?_ (by simp) (by simp) (by simp)
        intro v g' i m ret _ hv
        have hname : (s.dump v).fileName = some g' := by rw [hv]; rfl
        obtain ⟨-, hnamed⟩ := hinv.own hname (by rw [hv]; rfl)
        refine Files.content_create_ne (hinv.wf.lt hnamed) fun htmp => ?_
        rw [tmpFileName_injective (hinv.wf.inj hnamed htmp)] at hname
        exact hapart.2 v hname
    | opened | written | closed =>
      rw [hw] at hs
      cases hs
  | fwrite w len =>
    simp only [dumpStep] at hs
    cases hw : s.dump w with
    | opened g file msg =>
      rw [hw] at hs
      cases hs
      refine h.move (fun _ _ _ _ _ _ _ => rfl) ?_ (by simp) (by simp)
      intro g' i m data ret hd
      cases hd
      unfold Begins fwriteMsg
      cases codec.pack msg with
      | none => exact List.nil_prefix
      | some packedData => exact List.take_prefix len packedData
    | idle | written | closed =>
      rw [hw] at hs
      cases hs
  | flush w n =>
    simp only [dumpStep] at hs
    cases hw : s.dump w with
    | written g file msg data ret =>
      rw [hw] at hs
      cases hs
      have hself := setDump_self { s with files := s.files.setContent file (data.take n) } w
      rw [← hself]
      refine h.move ?_ (fun g' i m data' ret' hd => h.written hd) (fun g' i m ret' hd => ?_)
        (by simp)
      · intro v g' i m ret' hvw hv
        exact Files.content_setContent_ne
          (hinv.file_ne hvw (by rw [hv]; rfl) (by rw [hw]; rfl)) _
      · rw [hw] at hd
        cases hd
    | idle | opened | closed =>
      rw [hw] at hs
      cases hs
  | fclose w n =>
    simp only [dumpStep] at hs
    cases hw : s.dump w with
    | written g file msg data ret =>
      rw [hw] at hs
      cases hs
      refine h.move ?_ (by simp) (fun g' i m ret' hd => ?_) (by simp)
      · intro v g' i m ret' hvw hv
        exact Files.content_setContent_ne
          (hinv.file_ne hvw (by rw [hv]; rfl) (by rw [hw]; rfl)) _
      · cases hd
        simp only [Files.setContent, if_true]
        exact (List.take_prefix n data).trans (h.written hw)
    | idle | opened | closed =>
      rw [hw] at hs
      cases hs
  | rename w succeeds =>
    simp only [dumpStep] at hs
    cases hw : s.dump w with
    | closed g file msg ret =>
      rw [hw] at hs
      dsimp only at hs
      split at hs
      · next c hc =>
        cases hs
        refine h.move (fun _ _ _ _ _ _ _ => by rw [Files.content_rename]) (by simp) (by simp)
          (fun g' m c' hc' => ?_)
        obtain ⟨rfl, rfl, rfl⟩ : g' = g ∧ m = msg ∧ c' = c := by simpa using hc'
        obtain ⟨-, hnamed⟩ := hinv.own (w := w) (by rw [hw]; rfl) (by rw [hw]; rfl)
        rw [Files.read, hnamed, Option.map_some, Option.some.injEq] at hc
        rw [← hc]
        exact h.closed hw
      · cases hs
        have hsame : ∀ v g i m ret, v ≠ w → s.dump v = .closed g i m ret →
            s.files.content i = s.files.content i := fun _ _ _ _ _ _ _ => rfl
        exact h.move hsame (by simp) (by simp) (by simp)
    | idle | opened | written =>
      rw [hw] at hs
      cases hs
  | exit w =>
    cases hs
    have hsame : ∀ v g i m ret, v ≠ w → s.dump v = .closed g i m ret →
        s.files.content i = s.files.content i := fun _ _ _ _ _ _ _ => rfl
    exact h.move hsame (by simp) (by simp) (by simp)

end

/-! ## Reading while dumps go on -/

/-- What `fread` leaves of the file for `protobuf_c_message_unpack`: as many bytes as the
file had at the `stat`. -/
def unpackPrefix (codec : MessageCodec M) (atStat atOpen : List UInt8) : Option M :=
  if atStat.length ≤ atOpen.length then codec.unpack (atOpen.take atStat.length) else none

def responseOf (msg : Option M) : RetCode × Option M :=
  match msg with
  | some msg => (.ok, some msg)
  | none => (.err, none)

theorem getMsgFromFile_eq {codec : MessageCodec M} {atStat atOpen atRead : Files CString}
    {f : CString} {c₁ c₂ : List UInt8} (h₁ : atStat.read f = some c₁) {i : Nat}
    (h₂ : atOpen.named f = some i) (h₃ : atRead.content i = c₂) :
    getMsgFromFile codec atStat atOpen atRead f = unpackPrefix codec c₁ c₂ := by
  obtain ⟨j, hj, hc₁⟩ := Option.map_eq_some_iff.mp h₁
  unfold getMsgFromFile unpackPrefix
  rw [hj, h₂]
  dsimp only
  rw [hc₁, h₃, List.length_take]
  by_cases hle : c₁.length ≤ c₂.length
  · rw [if_pos hle, if_pos (Nat.min_eq_left hle)]
  · rw [if_neg hle, if_neg]
    intro hmin
    exact hle (hmin ▸ Nat.min_le_right _ _)

section
variable {codec : MessageCodec M} {targets : CString → Prop} {f : CString}
variable {s s₀ s₁ s₂ s₃ : DumpSystem M} {ops₀ ops₁ ops₂ ops₃ : List (DumpStep M)}
variable {o₀ o₁ o₂ o₃ : List (DumpEvent M)}

theorem dumpInv_idle (hwf : s.files.WellFormed) (hidle : ∀ w, s.dump w = .idle) :
    DumpInv targets s where
  wf := hwf
  own := by
    intro w g i hg
    rw [hidle] at hg
    cases hg
  apart := by
    intro w v g hg
    rw [hidle] at hg
    cases hg

theorem accounts_idle (hidle : ∀ w, s.dump w = .idle) : Accounts codec s [] where
  written := by
    intro w g i m data ret hw
    rw [hidle] at hw
    cases hw
  closed := by
    intro w g i m ret hw
    rw [hidle] at hw
    cases hw
  replaced := by
    intro g m c hc
    cases hc

theorem accounts_exec (hsep : Separate targets) (hwf : s.files.WellFormed)
    (hidle : ∀ w, s.dump w = .idle) (hC : Guarded (dumpStep codec) (Apart targets) s ops₀)
    (he : exec (dumpStep codec) s ops₀ = some (s₀, o₀)) : Accounts codec s₀ o₀ := by
  refine (exec_track_guarded (R := fun t _ o => DumpInv targets t ∧ Accounts codec t o)
    ?_ ⟨dumpInv_idle hwf hidle, accounts_idle hidle⟩ hC he).2
  intro u _ o step u' o' hR hstep hs
  exact ⟨dumpInv_step hsep hR.1 hstep hs, accounts_step hR.1 hR.2 hstep hs⟩

/-- A file that is there stays there, with the content of the last dump. -/
theorem RunsOn.present {t : DumpSystem M} {o : List (DumpEvent M)} (h : RunsOn targets f s t o)
    {c : List UInt8} (hc : s.files.read f = some c) :
    ∃ i c', t.files.named f = some i ∧ t.files.content i = c' ∧
      afterEvents f (some c) o = some c' := by
  obtain ⟨j, hj, -⟩ := Option.map_eq_some_iff.mp hc
  obtain ⟨i, hi⟩ := Option.isSome_iff_exists.mp (h.follows.present (by rw [hj]; rfl))
  refine ⟨i, _, hi, rfl, ?_⟩
  have hread := h.follows.read
  rw [hc, Files.read, hi, Option.map_some] at hread
  exact hread.symm

/-- What an API call that is answered from a file gets while dumps go on before its
`access` and up to its `stat`, its `fopen` and its `fread`: the content at the `fopen` as
far as it was long at the `stat`, each the content of a dump that had ended, and so the
beginning of its packed message. Where no dump ends between those two, and the file of the
last dump has all of its message, it is this message. -/
theorem file_response_run (hsep : Separate targets) (hf : targets f)
    (hwf : s.files.WellFormed) (hidle : ∀ w, s.dump w = .idle)
    (hC : Guarded (dumpStep codec) (Apart targets) s (ops₀ ++ ops₁ ++ (ops₂ ++ ops₃)))
    (h₀ : exec (dumpStep codec) s ops₀ = some (s₀, o₀))
    (h₁ : exec (dumpStep codec) s₀ ops₁ = some (s₁, o₁))
    (h₂ : exec (dumpStep codec) s₁ ops₂ = some (s₂, o₂))
    (h₃ : exec (dumpStep codec) s₂ ops₃ = some (s₃, o₃)) (antResponse : Option M)
    {c₀ : List UInt8} (hpresent : s₀.files.read f = some c₀) :
    ∃ c₁ c₂, afterEvents f (some c₀) o₁ = some c₁ ∧ afterEvents f (some c₁) o₂ = some c₂ ∧
      fileResponse codec antResponse s₀.files s₁.files s₂.files s₃.files f =
        responseOf (unpackPrefix codec c₁ c₂) ∧
      (∀ m c, .replaced f m c ∈ o₀ ++ o₁ ++ o₂ → Begins codec m c) ∧
      ((∀ m data, codec.pack m = some data → codec.unpack data = some m) →
        (∀ m c, .replaced f m c ∉ o₂) →
        ∀ m c, lastDump f (o₀ ++ o₁) = some (m, c) → codec.pack m = some c →
          fileResponse codec antResponse s₀.files s₁.files s₂.files s₃.files f =
            (.ok, some m)) := by
  have h₀₁ := exec_append.mpr ⟨s₀, o₀, o₁, h₀, h₁, rfl⟩
  have h₀₂ := exec_append.mpr ⟨s₁, o₀ ++ o₁, o₂, h₀₁, h₂, rfl⟩
  have hC' := hC
  rw [← List.append_assoc] at hC'
  have hC₀₂ := (guarded_append.mp hC').1
  obtain ⟨hC₀₁, hrest⟩ := guarded_append.mp hC
  obtain ⟨hC₀, hC₁⟩ := guarded_append.mp hC₀₁
  obtain ⟨hC₂, hC₃⟩ := guarded_append.mp (hrest s₁ _ h₀₁)
  have hrun₀ := runsOn_exec hsep (dumpInv_idle hwf hidle) hf hC₀ h₀
  have hrun₁ := runsOn_exec hsep hrun₀.inv hf (hC₁ s₀ o₀ h₀) h₁
  have hrun₂ := runsOn_exec hsep hrun₁.inv hf hC₂ h₂
  have hrun₃ := runsOn_exec hsep hrun₂.inv hf (hC₃ s₂ o₂ h₂) h₃
  obtain ⟨i, c₁, hi, hci, hc₁⟩ := hrun₁.present hpresent
  have hread₁ : s₁.files.read f = some c₁ := by rw [Files.read, hi, Option.map_some, hci]
  obtain ⟨j, c₂, hj, hcj, hc₂⟩ := hrun₂.present hread₁
  have hsettled := settled_of_named hsep hrun₂.inv hf hj
  have hget : getMsgFromFile codec s₁.files s₂.files s₃.files f = unpackPrefix codec c₁ c₂ :=
    getMsgFromFile_eq hread₁ hj ((hrun₃.settled j hsettled).2.trans hcj)
  have hresponse : fileResponse codec antResponse s₀.files s₁.files s₂.files s₃.files f =
      responseOf (unpackPrefix codec c₁ c₂) := by
    obtain ⟨k, hk, -⟩ := Option.map_eq_some_iff.mp hpresent
    unfold fileResponse
    rw [hk, hget]
    rfl
  refine ⟨c₁, c₂, hc₁, hc₂, hresponse, ?_, fun hcodec hnone m c hlast hpack => ?_⟩
  · exact fun m c hc => (accounts_exec hsep hwf hidle hC₀₂ h₀₂).replaced hc
  · have hsame : c₂ = c₁ := by
      rw [afterEvents_of_not_replaced hnone] at hc₂
      exact (Option.some.inj hc₂).symm
    have hread : afterEvents f (s.files.read f) (o₀ ++ o₁) = some c₁ := by
      rw [← (hrun₀.follows.trans hrun₁.follows).read, hread₁]
    rw [afterEvents_of_lastDump hlast, Option.some.injEq] at hread
    rw [hresponse, hsame, unpackPrefix, if_pos (Nat.le_refl _), List.take_length, ← hread,
      hcodec m c hpack]
    rfl

end

/-! ## Dumps during a call -/

/-- Messages that are their own packed data. -/
def bytesCodec : MessageCodec (List UInt8) where
  pack := some
  unpack := some

def noFiles : DumpSystem (List UInt8) := ⟨⟨fun _ => none, fun _ => [], 0⟩, fun _ => .idle⟩

def statusOnly : CString → Prop := (· = cstr "status")

theorem statusOnly_separate : Separate statusOnly := by
  rintro _ _ rfl rfl
  decide +kernel

/-- A dump that nothing fails but `fwrite`, which takes only so many bytes. -/
def statusDump (w : Nat) (msg : List UInt8) (len : Nat) : List (DumpStep (List UInt8)) :=
  [.fopen w (cstr "status") msg true, .fwrite w len, .fclose w len, .rename w true]

theorem statusDump_idle {s t : DumpSystem (List UInt8)} {w len : Nat} {msg : List UInt8}
    {o : List (DumpEvent (List UInt8))} (hidle : ∀ v, s.dump v = .idle)
    (he : exec (dumpStep bytesCodec) s (statusDump w msg len) = some (t, o)) (v : Nat) :
    t.dump v = .idle := by
  obtain ⟨s₁, o₁, _, h₁, he, -⟩ := exec_cons.mp he
  obtain ⟨s₂, o₂, _, h₂, he, -⟩ := exec_cons.mp he
  obtain ⟨s₃, o₃, _, h₃, he, -⟩ := exec_cons.mp he
  obtain ⟨s₄, o₄, _, h₄, he, -⟩ := exec_cons.mp he
  cases he
  simp only [dumpStep, hidle w, if_true, Option.some.injEq, Prod.mk.injEq] at h₁
  obtain ⟨rfl, -⟩ := h₁
  simp only [dumpStep, dump_setDump, if_true, Option.some.injEq, Prod.mk.injEq] at h₂
  obtain ⟨rfl, -⟩ := h₂
  simp only [dumpStep, dump_setDump, if_true, Option.some.injEq, Prod.mk.injEq] at h₃
  obtain ⟨rfl, -⟩ := h₃
  have hends : ∀ u : DumpSystem (List UInt8), (∀ v, v ≠ w → u.dump v = .idle) →
      (u.setDump w .idle).dump v = .idle := by
    intro u hu
    rw [dump_setDump]
    split
    · rfl
    · next hv => exact hu v hv
  simp only [dumpStep, dump_setDump, if_true] at h₄
  split at h₄ <;>
  · cases h₄
    refine hends _ fun v hv => ?_
    simp [dump_setDump, hv, hidle]

/-- Dumps one after the other are not at the same time. -/
theorem statusDump_apart {s : DumpSystem (List UInt8)} (hidle : ∀ v, s.dump v = .idle)
    (w : Nat) (msg : List UInt8) (len : Nat) {rest : List (DumpStep (List UInt8))}
    (hrest : ∀ t, (∀ v, t.dump v = .idle) →
      Guarded (dumpStep bytesCodec) (Apart statusOnly) t rest) :
    Guarded (dumpStep bytesCodec) (Apart statusOnly) s (statusDump w msg len ++ rest) := by
  refine guarded_append.mpr ⟨?_, fun t o he => hrest t (statusDump_idle hidle he)⟩
  refine guarded_cons.mpr ⟨⟨rfl, fun v hv => ?_⟩, fun t o _ => guarded_of_forall ?_⟩
  · rw [hidle] at hv
    cases hv
  · simp [Apart]

/-- The state and the events of a run. -/
def runFrom (s : DumpSystem (List UInt8)) (ops : List (DumpStep (List UInt8))) :
    DumpSystem (List UInt8) × List (DumpEvent (List UInt8)) :=
  (exec (dumpStep bytesCodec) s ops).getD (s, [])

theorem exec_runFrom {s : DumpSystem (List UInt8)} {ops : List (DumpStep (List UInt8))}
    (h : (exec (dumpStep bytesCodec) s ops).isSome) :
    exec (dumpStep bytesCodec) s ops = some ((runFrom s ops).1, (runFrom s ops).2) := by
  obtain ⟨r, hr⟩ := Option.isSome_iff_exists.mp h
  rw [runFrom, hr]
  rfl

/-- What a call gets while the dumps go on. -/
def CallGets (ops₀ ops₁ ops₂ ops₃ : List (DumpStep (List UInt8))) (msg : List UInt8) : Prop :=
  ∃ s₀ s₁ s₂ s₃ o₀ o₁ o₂ o₃,
    exec (dumpStep bytesCodec) noFiles ops₀ = some (s₀, o₀) ∧
    exec (dumpStep bytesCodec) s₀ ops₁ = some (s₁, o₁) ∧
    exec (dumpStep bytesCodec) s₁ ops₂ = some (s₂, o₂) ∧
    exec (dumpStep bytesCodec) s₂ ops₃ = some (s₃, o₃) ∧
    fileResponse bytesCodec none s₀.files s₁.files s₂.files s₃.files (cstr "status") =
      (.ok, some msg)

/-- A dump that ends between the `stat` and the `fopen` makes the call get the beginning of
a newer message. One that is only written then, and ends before the `fread`, does not, also
where the dump before the last was cut off. -/
theorem file_response_run_status :
    CallGets (statusDump 0 [1, 2] 2) ((statusDump 1 [3, 4, 5] 3).take 2)
      ((statusDump 1 [3, 4, 5] 3).drop 2) (statusDump 2 [6] 1) [3, 4] ∧
    CallGets (statusDump 0 [1, 2] 1) (statusDump 1 [3, 4, 5] 3)
      ((statusDump 2 [6] 1).take 2) ((statusDump 2 [6] 1).drop 2) [3, 4, 5] := by
  have hwf : noFiles.files.WellFormed := { lt := nofun, inj := nofun }
  have hidle : ∀ w, noFiles.dump w = .idle := fun _ => rfl
  have happart : ∀ len, Guarded (dumpStep bytesCodec) (Apart statusOnly) noFiles
      (statusDump 0 [1, 2] len ++ (statusDump 1 [3, 4, 5] 3 ++ (statusDump 2 [6] 1 ++ []))) :=
    fun len => statusDump_apart hidle 0 _ len fun _ h₁ => statusDump_apart h₁ 1 _ 3 fun _ h₂ =>
      statusDump_apart h₂ 2 _ 1 fun _ _ => guarded_nil _ _ _
  constructor
  · let r₀ := runFrom noFiles (statusDump 0 [1, 2] 2)
    let r₁ := runFrom r₀.1 ((statusDump 1 [3, 4, 5] 3).take 2)
    let r₂ := runFrom r₁.1 ((statusDump 1 [3, 4, 5] 3).drop 2)
    have h₀ : exec (dumpStep bytesCodec) _ _ = some (r₀.1, r₀.2) :=
      exec_runFrom (by decide +kernel)
    have h₁ : exec (dumpStep bytesCodec) _ _ = some (r₁.1, r₁.2) :=
      exec_runFrom (by decide +kernel)
    have h₂ : exec (dumpStep bytesCodec) _ _ = some (r₂.1, r₂.2) :=
      exec_runFrom (by decide +kernel)
    have h₃ : exec (dumpStep bytesCodec) r₂.1 (statusDump 2 [6] 1) = some (_, _) :=
      exec_runFrom (by decide +kernel)
    have hread : r₀.1.files.read (cstr "status") = some [1, 2] := by decide +kernel
    obtain ⟨c₁, c₂, hc₁, hc₂, hgets, -⟩ := file_response_run statusOnly_separate rfl hwf hidle
      (happart 2) h₀ h₁ h₂ h₃ none hread
    have hstat : afterEvents (cstr "status") (some [1, 2]) r₁.2 = some [1, 2] := by decide +kernel
    have hopen : afterEvents (cstr "status") (some [1, 2]) r₂.2 = some [3, 4, 5] := by
      decide +kernel
    cases hstat.symm.trans hc₁
    cases hopen.symm.trans hc₂
    exact ⟨_, _, _, _, _, _, _, _, h₀, h₁, h₂, h₃, hgets⟩
  · let r₀ := runFrom noFiles (statusDump 0 [1, 2] 1)
    let r₁ := runFrom r₀.1 (statusDump 1 [3, 4, 5] 3)
    let r₂ := runFrom r₁.1 ((statusDump 2 [6] 1).take 2)
    have h₀ : exec (dumpStep bytesCodec) _ _ = some (r₀.1, r₀.2) :=
      exec_runFrom (by decide +kernel)
    have h₁ : exec (dumpStep bytesCodec) _ _ = some (r₁.1, r₁.2) :=
      exec_runFrom (by decide +kernel)
    have h₂ : exec (dumpStep bytesCodec) _ _ = some (r₂.1, r₂.2) :=
      exec_runFrom (by decide +kernel)
    have h₃ : exec (dumpStep bytesCodec) r₂.1 ((statusDump 2 [6] 1).drop 2) = some (_, _) :=
      exec_runFrom (by decide +kernel)
    have hread : r₀.1.files.read (cstr "status") = some [1] := by decide +kernel
    obtain ⟨_, _, -, -, -, -, hlast⟩ := file_response_run statusOnly_separate rfl hwf hidle
      (happart 1) h₀ h₁ h₂ h₃ none hread
    have hnone : r₂.2.isEmpty := by decide +kernel
    have hmsg : lastDump (cstr "status") (r₀.2 ++ r₁.2) = some ([3, 4, 5], [3, 4, 5]) := by
      decide +kernel
    refine ⟨_, _, _, _, _, _, _, _, h₀, h₁, h₂, h₃, ?_⟩
    refine hlast (fun _ _ h => h.symm) (fun m c hc => ?_) _ _ hmsg rfl
    rw [List.isEmpty_iff.mp hnone] at hc
    cases hc

end Cmsg.Message
