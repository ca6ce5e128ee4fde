import Cmsg.Server.Lookup
import Cmsg.Server.Queue
import Cmsg.Wire.TlvGrammar

/-! # The parser of TLV headers against its grammar

The runs of the loop of `cmsg_tlv_header_process` are given without fuel: every
run ends, with the one result that the function returns. Against the table of a
service the function accepts the sequences of method headers that name methods,
and nothing else, and leaves the index and the name of the last one. -/
namespace Cmsg.Server
open Cmsg.Base Cmsg.Wire

/-! ## Runs of the loop -/

/-- The rounds of the loop from `buf` with `extra` bytes left, up to the result. -/
inductive TlvRuns (lookup : CString → Nat) (m : Memory) :
    Nat → Nat → TlvRequest → TlvResult → Prop
  | leaves {buf extra : Nat} {request : TlvRequest} (hmin : ¬ tlvSize 0 ≤ extra) :
      TlvRuns lookup m buf extra request ⟨if extra = 0 then .ok else .err, request, []⟩
  | refuses {buf extra : Nat} {request : TlvRequest} (hmin : tlvSize 0 ≤ extra)
      (hret : (tlvRound lookup m buf extra request).ret ≠ .ok) :
      TlvRuns lookup m buf extra request
        { tlvRound lookup m buf extra request with
          inspected := span buf 8 ++ (tlvRound lookup m buf extra request).inspected }
  | goesOn {buf extra : Nat} {request : TlvRequest} {q : TlvResult} (hmin : tlvSize 0 ≤ extra)
      (hret : (tlvRound lookup m buf extra request).ret = .ok)
      (hrest : TlvRuns lookup m (buf + wrap32 (tlvSize (be32 m (buf + 4))))
        (extra - wrap32 (tlvSize (be32 m (buf + 4)))) (tlvRound lookup m buf extra request).request q) :
      TlvRuns lookup m buf extra request
        { q with inspected := span buf 8 ++ (tlvRound lookup m buf extra request).inspected ++
            q.inspected }

section
variable {lookup : CString → Nat} {m : Memory}

/-- A round that goes on takes a header of more than eight bytes, all of them
among those that were left. -/
theorem tlvRound_ok {buf extra : Nat} {request : TlvRequest}
    (h : (tlvRound lookup m buf extra request).ret = .ok) :
    be32 m buf = tlvMethodType ∧ be32 m (buf + 4) ≤ maxNameLength ∧ 0 < be32 m (buf + 4) ∧
      8 + be32 m (buf + 4) ≤ extra ∧
      wrap32 (tlvSize (be32 m (buf + 4))) = 8 + be32 m (buf + 4) := by
  unfold tlvRound at h
  split at h
  · next htotal =>
    split at h
    · next htype =>
      have hmax := ((tlvMethod_spec lookup m buf (be32 m (buf + 4)) request).2.1 h).1
      have hpos : 0 < be32 m (buf + 4) := by
        refine Nat.pos_of_ne_zero fun h0 => ?_
        rw [tlvMethod, if_pos (.inl h0)] at h
        cases h
      rw [wrap32_tlvSize hmax] at htotal
      exact ⟨htype, hmax, hpos, htotal, wrap32_tlvSize hmax⟩
    · cases h
  · cases h

/-- The rounds end, however long the lengths are that the sender announces. -/
theorem tlvLoop_runs (fuel : Nat) : ∀ (buf extra : Nat) (request : TlvRequest), extra ≤ fuel →
    TlvRuns lookup m buf extra request (tlvLoop lookup m fuel buf extra request) := by
  induction fuel with
  | zero =>
    intro buf extra request hfuel
    obtain rfl : extra = 0 := Nat.le_zero.mp hfuel
    exact .leaves (Nat.not_le.mpr (Nat.lt_add_right 0 (show 0 < 8 by omega)))
  | succ fuel ih =>
    intro buf extra request hfuel
    unfold tlvLoop
    by_cases hmin : tlvSize 0 ≤ extra
    · rw [if_pos hmin]
      dsimp only
      rw [← tlvRound]
      by_cases hret : (tlvRound lookup m buf extra request).ret = .ok
      · obtain ⟨_, _, _, hle, hsize⟩ := tlvRound_ok hret
        rw [hret]
        refine .goesOn hmin hret (ih _ _ _ ?_)
        omega
      · have hrefused := @TlvRuns.refuses lookup m buf _ request hmin hret
        split
        · next hok => exact absurd hok hret
        · exact hrefused
    · rw [if_neg hmin]
      exact .leaves hmin

/-- A run has one result. -/
theorem TlvRuns.unique {buf extra : Nat} {request : TlvRequest} {r r' : TlvResult}
    (h : TlvRuns lookup m buf extra request r) (h' : TlvRuns lookup m buf extra request r') :
    r = r' := by
  induction h generalizing r' with
  | leaves hmin =>
    cases h' with
    | leaves _ => rfl
    | refuses hmin' _ => exact absurd hmin' hmin
    | goesOn hmin' _ _ => exact absurd hmin' hmin
  | refuses hmin hret =>
    cases h' with
    | leaves hmin' => exact absurd hmin hmin'
    | refuses _ _ => rfl
    | goesOn _ hret' _ => exact absurd hret' hret
  | goesOn hmin hret _ ih =>
    cases h' with
    | leaves hmin' => exact absurd hmin hmin'
    | refuses _ hret' => exact absurd hret hret'
    | goesOn _ _ hrest' => rw [ih hrest']

/-! ## The request after the last header -/

/-- A value that holds a string of an allowed length. -/
structure Terminated (value : List UInt8) : Prop where
  pos : 0 < value.length
  length_le : value.length ≤ maxNameLength
  first : value.head? ≠ some 0
  last : value.getLast? = some 0

theorem names_iff_terminated {value : List UInt8} :
    Names lookup value ↔ Terminated value ∧ lookup (nameOf value) ≠ undefinedMethod :=
  ⟨fun h => ⟨⟨h.pos, h.length_le, h.first, h.last⟩, h.known⟩,
    fun ⟨h, hknown⟩ => ⟨h.pos, h.length_le, h.first, h.last, hknown⟩⟩

/-- The name is copied whole: it ends within the longest value. -/
theorem nameOf_length_lt {value : List UInt8} (h : Terminated value) :
    (nameOf value).length < value.length := by
  have hm : Holds (ofBytes value fun _ => 0) 0 value := holds_ofBytes value _
  rw [← cString_eq_nameOf hm]
  refine length_cString_lt h.pos ?_
  have hlast := (Holds.last hm h.pos).symm.trans h.last
  exact Option.some.inj hlast

/-- What a string names decides, and a string that names a method is copied whole. -/
theorem tlvMethod_terminated {buf : Nat} {value : List UInt8} (hm : Holds m (buf + 8) value)
    (hv : Terminated value) (request : TlvRequest) :
    (tlvMethod lookup m buf value.length request).ret =
        (if lookup (nameOf value) = undefinedMethod then .methodNotFound else .ok) ∧
      (lookup (nameOf value) ≠ undefinedMethod →
        (tlvMethod lookup m buf value.length request).request =
          ⟨lookup (nameOf value), nameOf value⟩) := by
  obtain ⟨inspected, heq⟩ :=
    @tlvMethod_string lookup m buf value hm hv.pos hv.length_le hv.first hv.last request
  have hshort : (nameOf value).length ≤ maxNameLength - 1 :=
    Nat.le_sub_one_of_lt (Nat.lt_of_lt_of_le (nameOf_length_lt hv) hv.length_le)
  rw [List.take_of_length_le hshort] at heq
  rw [heq]
  by_cases hunknown : lookup (nameOf value) = undefinedMethod
  · rw [if_pos hunknown, if_pos hunknown]
    exact ⟨rfl, fun hknown => absurd hunknown hknown⟩
  · rw [if_neg hunknown, if_neg hunknown]
    exact ⟨rfl, fun _ => rfl⟩

/-- A run over a header with a string ends where the string names no method, and goes on
behind it where it names one. -/
theorem TlvRuns.header {buf : Nat} {value rest : List UInt8} {request : TlvRequest} {r : TlvResult}
    (hm : Holds m buf (methodHeader value ++ rest)) (hv : Terminated value)
    (h : TlvRuns lookup m buf (methodHeader value ++ rest).length request r) :
    (lookup (nameOf value) = undefinedMethod ∧ r.ret = .methodNotFound) ∨
      (lookup (nameOf value) ≠ undefinedMethod ∧
        ∃ q, TlvRuns lookup m (buf + (methodHeader value).length) rest.length
          ⟨lookup (nameOf value), nameOf value⟩ q ∧ r.ret = q.ret ∧ r.request = q.request) := by
  obtain ⟨htype, hlength, hvalue⟩ := methodHeader_holds hm.append.1 hv.length_le
  have hsize : wrap32 (tlvSize (be32 m (buf + 4))) = (methodHeader value).length := by
    rw [hlength, wrap32_tlvSize hv.length_le, length_methodHeader]
  have hround : tlvRound lookup m buf (methodHeader value ++ rest).length request =
      tlvMethod lookup m buf value.length request := by
    rw [tlvRound, hsize, List.length_append, if_pos (Nat.le_add_right _ _), if_pos htype, hlength]
  obtain ⟨hret, hrequest⟩ := @tlvMethod_terminated lookup m buf value hvalue hv request
  rw [← hround] at hret hrequest
  cases h with
  | leaves hmin =>
    refine absurd ?_ hmin
    rw [List.length_append, length_methodHeader, tlvSize]
    omega
  | refuses _ hrefused =>
    split at hret
    · next hunknown => exact .inl ⟨hunknown, hret⟩
    · exact absurd hret hrefused
  | goesOn _ hok hrest =>
    rw [hok] at hret
    split at hret
    · cases hret
    · next hknown =>
      rw [hsize, hrequest hknown, List.length_append, Nat.add_sub_cancel_left] at hrest
      exact .inr ⟨hknown, _, hrest, rfl, rfl⟩

/-- The request that a sequence of headers leaves. -/
def namedLast (lookup : CString → Nat) (request : TlvRequest) (values : List (List UInt8)) :
    TlvRequest :=
  values.foldl (fun _ value => ⟨lookup (nameOf value), nameOf value⟩) request

/-- A run over headers that name methods accepts them all. -/
theorem TlvRuns.headers (values : List (List UInt8)) :
    ∀ {buf : Nat} {request : TlvRequest} {r : TlvResult}, Holds m buf (methodHeaders values) →
      (∀ value ∈ values, Names lookup value) →
      TlvRuns lookup m buf (methodHeaders values).length request r →
      r.ret = .ok ∧ r.request = namedLast lookup request values := by
  induction values with
  | nil =>
    intro buf request r _ _ h
    cases h with
    | leaves _ => exact ⟨rfl, rfl⟩
    | refuses hmin _ => exact absurd hmin (Nat.not_succ_le_zero 7)
    | goesOn hmin _ _ => exact absurd hmin (Nat.not_succ_le_zero 7)
  | cons value values ih =>
    intro buf request r hm hvalues h
    rw [methodHeaders_cons] at hm h
    obtain ⟨hv, hknown⟩ := names_iff_terminated.mp (hvalues value List.mem_cons_self)
    rcases h.header hm hv with ⟨hunknown, _⟩ | ⟨_, q, hq, hret, hrequest⟩
    · exact absurd hunknown hknown
    · obtain ⟨hok, hlast⟩ :=
        ih hm.append.2 (fun v hmem => hvalues v (List.mem_cons_of_mem _ hmem)) hq
      exact ⟨hret.trans hok, hrequest.trans hlast⟩

/-! ## A method that is not known -/

/-- Without an error the value holds a string. -/
theorem terminated_of_tlvMethod {buf : Nat} {value : List UInt8} (hm : Holds m (buf + 8) value)
    {request : TlvRequest} (hret : (tlvMethod lookup m buf value.length request).ret ≠ .err) :
    Terminated value := by
  unfold tlvMethod at hret
  dsimp only at hret
  split at hret
  · exact absurd rfl hret
  · next hlen =>
    have hpos : 0 < value.length := by omega
    split at hret
    · exact absurd rfl hret
    · next hfirst =>
      split at hret
      · exact absurd rfl hret
      · next hlast =>
        refine ⟨hpos, by omega, ?_, ?_⟩
        · rw [Holds.first hm (List.ne_nil_of_length_pos hpos)]
          exact fun h => hfirst (Option.some.inj h)
        · rw [Holds.last hm hpos]
          exact congrArg some (not_not.mp hlast)

/-- A round without an error reads a header with a string. -/
theorem tlvRound_header {buf : Nat} {bytes : List UInt8} {request : TlvRequest}
    (hm : Holds m buf bytes) (hmin : tlvSize 0 ≤ bytes.length)
    (hret : (tlvRound lookup m buf bytes.length request).ret ≠ .err) :
    ∃ value rest, bytes = methodHeader value ++ rest ∧ Terminated value ∧
      (tlvRound lookup m buf bytes.length request).ret =
        (if lookup (nameOf value) = undefinedMethod then .methodNotFound else .ok) ∧
      wrap32 (tlvSize (be32 m (buf + 4))) = (methodHeader value).length := by
  unfold tlvRound at hret ⊢
  split at hret
  · next htotal =>
    split at hret
    · next htype =>
      have hfields := Holds.fields hm hmin
      rw [htype] at hfields
      have hmax : be32 m (buf + 4) ≤ maxNameLength := by
        by_contra hgt
        exact hret (by rw [tlvMethod, if_pos (.inr (Nat.lt_of_not_le hgt))])
      rw [wrap32_tlvSize hmax] at htotal
      have htake : ((bytes.drop 8).take (be32 m (buf + 4))).length = be32 m (buf + 4) := by
        rw [List.length_take, List.length_drop, Nat.min_eq_left (by omega)]
      have hvalue : Holds m (buf + 8) ((bytes.drop 8).take (be32 m (buf + 4))) := by
        rw [← hfields] at hm
        exact hm.append.2.append.2.front (List.take_prefix _ _)
      rw [if_pos (show wrap32 (tlvSize (be32 m (buf + 4))) ≤ bytes.length by
        rw [wrap32_tlvSize hmax]; exact htotal), if_pos htype]
      rw [← htake] at hret
      have hstring := terminated_of_tlvMethod hvalue hret
      refine ⟨_, (bytes.drop 8).drop (be32 m (buf + 4)), ?_, hstring, ?_, ?_⟩
      · rw [methodHeader, htake, List.append_assoc, List.append_assoc, List.take_append_drop]
        exact hfields.symm
      · have hdecides := @tlvMethod_terminated lookup m buf _ hvalue hstring request
        rw [htake] at hdecides
        exact hdecides.1
      · rw [length_methodHeader, htake, wrap32_tlvSize hmax]
    · exact absurd rfl hret
  · exact absurd rfl hret

/-- Headers that name methods, and then one that names none. -/
def ReachesUnknown (lookup : CString → Nat) (bytes : List UInt8) : Prop :=
  ∃ values value rest, bytes = methodHeaders values ++ (methodHeader value ++ rest) ∧
    (∀ v ∈ values, Names lookup v) ∧ Terminated value ∧ lookup (nameOf value) = undefinedMethod

theorem TlvRuns.reachesUnknown {buf extra : Nat} {request : TlvRequest} {r : TlvResult}
    (h : TlvRuns lookup m buf extra request r) :
    ∀ {bytes : List UInt8}, Holds m buf bytes → bytes.length = extra →
      r.ret = .methodNotFound → ReachesUnknown lookup bytes := by
  induction h with
  | leaves hmin =>
    intro bytes _ _ hret
    dsimp only at hret
    split at hret
    · cases hret
    · cases hret
  | refuses hmin hrefused =>
    intro bytes hm hlen hret
    subst hlen
    dsimp only at hret
    obtain ⟨value, rest, hbytes, hv, hdecides, _⟩ :=
      tlvRound_header hm hmin (by rw [hret]; exact fun h => (by cases h))
    rw [hret] at hdecides
    split at hdecides
    · next hunknown => exact ⟨[], value, rest, hbytes, fun _ h => (by cases h), hv, hunknown⟩
    · cases hdecides
  | goesOn hmin hok _ ih =>
    intro bytes hm hlen hret
    subst hlen
    obtain ⟨value, rest, rfl, hv, hdecides, hsize⟩ :=
      tlvRound_header hm hmin (by rw [hok]; exact fun h => (by cases h))
    rw [hok] at hdecides
    rw [hsize] at ih
    split at hdecides
    · cases hdecides
    · next hknown =>
      obtain ⟨values, value', rest', rfl, hvalues, hunknown⟩ :=
        ih hm.append.2 (by rw [List.length_append, Nat.add_sub_cancel_left]) hret
      refine ⟨value :: values, value', rest', (List.append_assoc _ _ _).symm, fun v hmem => ?_,
        hunknown⟩
      rcases List.mem_cons.mp hmem with rfl | hmem
      · exact names_iff_terminated.mpr ⟨hv, hknown⟩
      · exact hvalues v hmem

/-- A run over headers that name methods ends at the one that names none. -/
theorem TlvRuns.unknown {value rest : List UInt8} (hv : Terminated value)
    (hunknown : lookup (nameOf value) = undefinedMethod) (values : List (List UInt8)) :
    ∀ {buf extra : Nat} {request : TlvRequest} {r : TlvResult},
      Holds m buf (methodHeaders values ++ (methodHeader value ++ rest)) →
      (methodHeaders values ++ (methodHeader value ++ rest)).length = extra →
      (∀ v ∈ values, Names lookup v) → TlvRuns lookup m buf extra request r →
      r.ret = .methodNotFound := by
  induction values with
  | nil =>
    intro buf extra request r hm hlen _ h
    subst hlen
    rcases h.header hm hv with ⟨_, hret⟩ | ⟨hknown, _⟩
    · exact hret
    · exact absurd hunknown hknown
  | cons first values ih =>
    intro buf extra request r hm hlen hvalues h
    subst hlen
    rw [methodHeaders_cons, List.append_assoc] at hm h
    obtain ⟨hstring, hknown⟩ := names_iff_terminated.mp (hvalues first List.mem_cons_self)
    rcases h.header hm hstring with ⟨hnone, _⟩ | ⟨_, q, hq, hret, _⟩
    · exact absurd hnone hknown
    · exact hret.trans
        (ih hm.append.2 rfl (fun v hmem => hvalues v (List.mem_cons_of_mem _ hmem)) hq)

/-- **What is not found**: a method that a header names behind headers that name some. -/
theorem tlvHeaderProcess_methodNotFound_iff {buf extra : Nat} (request : TlvRequest) :
    (tlvHeaderProcess lookup m buf extra request).ret = .methodNotFound ↔
      ReachesUnknown lookup (slice m buf extra) := by
  have hruns : TlvRuns lookup m buf extra request
      (tlvHeaderProcess lookup m buf extra request) := by
    rw [tlvHeaderProcess_eq]
    exact tlvLoop_runs extra buf extra request (Nat.le_refl _)
  constructor
  · intro hret
    exact hruns.reachesUnknown (holds_slice m buf extra) (length_slice m buf extra) hret
  · intro ⟨values, value, rest, hslice, hvalues, hv, hunknown⟩
    have hholds := holds_slice m buf extra
    have hlength := length_slice m buf extra
    rw [hslice] at hholds hlength
    exact TlvRuns.unknown hv hunknown values hholds hlength hvalues hruns

end

/-! ## The methods of a service -/

variable {Msg : Type}

/-- A value of 1 to 128 bytes that starts with a name of a method of the service and
ends with a terminator. -/
structure NamesMethod (svc : Service Msg) (value : List UInt8) : Prop where
  pos : 1 ≤ value.length
  length_le : value.length ≤ 128
  first : value.head? ≠ some 0
  last : value.getLast? = some 0
  known : ∃ i : Fin svc.nMethods, (svc.methods.get i).name = nameOf value

/-- The index is that of the method with this name. -/
theorem getMethodIndexByName_eq {svc : Service Msg} (hsorted : svc.Sorted) {name : CString}
    {i : Fin svc.nMethods} (h : (svc.methods.get i).name = name) :
    svc.getMethodIndexByName name = i := by
  rw [← h]
  exact hsorted.getMethodIndexByName i

theorem names_iff {svc : Service Msg} (hsorted : svc.Sorted) {value : List UInt8} :
    Names svc.getMethodIndexByName value ↔ NamesMethod svc value := by
  constructor
  · intro hv
    have hlt := svc.getMethodIndexByName_lt _ hv.known
    exact ⟨hv.pos, hv.length_le, hv.first, hv.last, ⟨_, hlt⟩,
      Service.name_of_getMethodIndexByName rfl⟩
  · intro hv
    obtain ⟨i, hname⟩ := hv.known
    refine ⟨hv.pos, hv.length_le, hv.first, hv.last, ?_⟩
    rw [getMethodIndexByName_eq hsorted hname]
    exact Nat.ne_of_lt (Nat.lt_trans i.isLt svc.methods_lt)

/-- **The parser of the headers**: it ends, inspects the announced bytes only and depends
on no others, accepts exactly the sequences of headers that name methods, and leaves the
last method's index and name. -/
theorem tlvHeaderProcess_exact (svc : Service Msg) (hsorted : svc.Sorted) (m : Memory) (buf : Nat)
    {extra : Nat} (hextra : extra < word32) (request : TlvRequest) :
    let r := tlvHeaderProcess svc.getMethodIndexByName m buf extra request
    (∀ r', TlvRuns svc.getMethodIndexByName m buf extra request r' ↔ r' = r) ∧
      (∀ p ∈ r.inspected, buf ≤ p ∧ p < buf + extra) ∧
      (∀ m' : Memory, (∀ i < extra, m' (buf + i) = m (buf + i)) →
        let r' := tlvHeaderProcess svc.getMethodIndexByName m' buf extra request
        r'.ret = r.ret ∧ r'.request = r.request) ∧
      (r.ret = .ok ↔ ∃ values, slice m buf extra = methodHeaders values ∧
        ∀ value ∈ values, NamesMethod svc value) ∧
      ∀ values value, slice m buf extra = methodHeaders (values ++ [value]) →
        (∀ v ∈ values ++ [value], NamesMethod svc v) →
        ∃ i : Fin svc.nMethods, (svc.methods.get i).name = nameOf value ∧
          r.request = ⟨i, nameOf value⟩ := by
  intro r
  have hruns : TlvRuns svc.getMethodIndexByName m buf extra request r := by
    rw [show r = _ from tlvHeaderProcess_eq _ m buf extra request]
    exact tlvLoop_runs extra buf extra request (Nat.le_refl _)
  have hholds : Holds m buf (slice m buf extra) := holds_slice m buf extra
  have hlength : (slice m buf extra).length = extra := length_slice m buf extra
  refine ⟨fun r' => ⟨fun h => h.unique hruns, fun h => h ▸ hruns⟩,
    (tlvHeaderProcess_spec _ m buf request hextra).1,
    fun m' hm' => tlvHeaderProcess_congr _ request hextra hm', ?_, ?_⟩
  · have hiff := @tlvHeaderProcess_ok_iff svc.getMethodIndexByName m buf _ request hholds
    rw [hlength] at hiff
    simp only [← names_iff hsorted]
    exact hiff
  · intro values value hslice hvalues
    obtain ⟨i, hname⟩ := (hvalues value (List.mem_append_right _ List.mem_cons_self)).known
    refine ⟨i, hname, ?_⟩
    rw [hslice] at hholds hlength
    rw [← hlength] at hruns
    have hlast := (TlvRuns.headers _ hholds (fun v hv => (names_iff hsorted).mpr (hvalues v hv))
      hruns).2
    rw [hlast, namedLast, List.foldl_append, List.foldl_cons, List.foldl_nil,
      getMethodIndexByName_eq hsorted hname]

theorem sampleService_sorted : sampleService.Sorted where
  distinct := List.nodup_cons.mpr ⟨List.not_mem_nil, List.nodup_nil⟩
  perm := List.Perm.refl _
  ordered p q hpq hq := by
    have : sampleService.nMethods = 1 := rfl
    omega

theorem tlvHeaderProcess_exact_sample :
    let m := ofBytes (methodHeader (sampleName ++ [0])) fun _ => 0
    let r := tlvHeaderProcess sampleService.getMethodIndexByName m 0
      (methodHeader (sampleName ++ [0])).length .init
    r.ret = .ok ∧ r.request = ⟨0, sampleName⟩ := by
  intro m r
  have hslice : slice m 0 (methodHeader (sampleName ++ [0])).length =
      methodHeaders ([] ++ [sampleName ++ [0]]) := (holds_ofBytes _ _).slice
  have hvalues : ∀ v ∈ [] ++ [sampleName ++ [0]], NamesMethod sampleService v := by
    intro v hv
    obtain rfl := List.mem_singleton.mp hv
    exact ⟨by decide, by decide, by decide, by decide, ⟨0, by decide⟩, by decide⟩
  obtain ⟨_, _, _, hok, hlast⟩ := tlvHeaderProcess_exact sampleService sampleService_sorted m 0
    (show (methodHeader (sampleName ++ [0])).length < word32 by decide) .init
  obtain ⟨i, _, hrequest⟩ := hlast [] (sampleName ++ [0]) hslice hvalues
  refine ⟨hok.mpr ⟨_, hslice, hvalues⟩, ?_⟩
  have hi : i.val = 0 := Nat.lt_one_iff.mp i.isLt
  rw [show r.request = _ from hrequest, hi]
  decide

end Cmsg.Server
