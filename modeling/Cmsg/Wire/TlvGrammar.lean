import Cmsg.Base.Layout
import Cmsg.Wire.Tlv

/-! # What TLV headers are accepted

`cmsg_tlv_header_process` accepts a sequence of method headers that name known
methods and fill the announced size. Over bytes that were received only in part,
the loop leaves them exactly where it meets a header that is cut short. -/
namespace Cmsg.Wire
open Cmsg.Base

/-! ## Method headers -/

/-- The method header with this value. -/
def methodHeader (value : List UInt8) : List UInt8 :=
  toBe32 tlvMethodType ++ (toBe32 value.length ++ value)

def methodHeaders (values : List (List UInt8)) : List UInt8 := values.flatMap methodHeader

/-- The C string that a value starts with. -/
def nameOf (value : List UInt8) : CString := value.takeWhile (· != 0)

/-- A value that ends a string of a known method. -/
structure Names (lookup : CString → Nat) (value : List UInt8) : Prop where
  pos : 0 < value.length
  length_le : value.length ≤ maxNameLength
  first : value.head? ≠ some 0
  last : value.getLast? = some 0
  known : lookup (nameOf value) ≠ undefinedMethod

/-- The method that the last header names; `index` where there is no header. -/
def lastNamed (lookup : CString → Nat) (index : Nat) : List (List UInt8) → Nat
  | [] => index
  | value :: values => lastNamed lookup (lookup (nameOf value)) values

/-- Bytes that end within a header of the announced size: in its first eight
bytes, or in a value of an allowed length that does not start with a terminator. -/
def CutShort (extra : Nat) (bytes : List UInt8) : Prop :=
  tlvSize 0 ≤ extra ∧ (bytes.length < tlvSize 0 ∨
    ∃ len value, bytes = toBe32 tlvMethodType ++ (toBe32 len ++ value) ∧ 0 < len ∧
      len ≤ maxNameLength ∧ tlvSize len ≤ extra ∧ value.length < len ∧ value.head? ≠ some 0)

theorem length_methodHeader (value : List UInt8) :
    (methodHeader value).length = 8 + value.length := by
  simp only [methodHeader, List.length_append, length_toBe32]
  omega

@[simp] theorem methodHeaders_nil : methodHeaders [] = [] := rfl

@[simp] theorem methodHeaders_cons (value : List UInt8) (values : List (List UInt8)) :
    methodHeaders (value :: values) = methodHeader value ++ methodHeaders values := rfl

section
variable {lookup : CString → Nat} {m : Memory}

/-! ## One header -/

theorem cString_eq_nameOf {pos : Nat} {value : List UInt8} (hm : Holds m pos value) :
    cString m pos value.length = nameOf value := by
  rw [cString, hm.slice, nameOf]

theorem Holds.first {pos : Nat} {bytes : List UInt8} (hm : Holds m pos bytes)
    (hne : bytes ≠ []) : bytes.head? = some (m pos) := by
  obtain ⟨b, rest, rfl⟩ := List.exists_cons_of_ne_nil hne
  have hb := hm 0 (by simp)
  rw [Nat.add_zero] at hb
  rw [hb]
  rfl

theorem Holds.last {pos : Nat} {bytes : List UInt8} (hm : Holds m pos bytes)
    (hpos : 0 < bytes.length) : bytes.getLast? = some (m (pos + bytes.length - 1)) := by
  have hb := hm (bytes.length - 1) (by omega)
  rw [show pos + bytes.length - 1 = pos + (bytes.length - 1) by omega, hb,
    List.getLast?_eq_getElem?, List.getElem?_eq_getElem (by omega)]

/-- The fields of a header. -/
theorem methodHeader_holds {buf : Nat} {value : List UInt8} (hm : Holds m buf (methodHeader value))
    (hv : value.length ≤ maxNameLength) :
    be32 m buf = tlvMethodType ∧ be32 m (buf + 4) = value.length ∧ Holds m (buf + 8) value := by
  have hword : maxNameLength < word32 := by
    unfold maxNameLength word32
    omega
  obtain ⟨htype, hm⟩ := hm.append
  obtain ⟨hlength, hvalue⟩ := hm.append
  exact ⟨htype.be32_of_lt (Nat.lt_trans (Nat.zero_lt_succ 127) hword),
    hlength.be32_of_lt (Nat.lt_of_le_of_lt hv hword), hvalue⟩

/-- The fields of a header, and what follows them. -/
theorem Holds.fields {buf : Nat} {bytes : List UInt8} (hm : Holds m buf bytes)
    (hlen : 8 ≤ bytes.length) :
    toBe32 (be32 m buf) ++ (toBe32 (be32 m (buf + 4)) ++ bytes.drop 8) = bytes := by
  have hdrop : Holds m (buf + 4) (bytes.drop 4) := by
    rw [← List.take_append_drop 4 bytes] at hm
    have h4 := hm.append.2
    rwa [List.length_take, Nat.min_eq_left (by omega)] at h4
  have h8 := hdrop.word_append (by rw [List.length_drop]; omega)
  rw [List.drop_drop] at h8
  rw [h8]
  exact hm.word_append (by omega)

/-- What a string of an allowed length makes of the request. -/
theorem tlvMethod_string {buf : Nat} {value : List UInt8} (hm : Holds m (buf + 8) value)
    (hpos : 0 < value.length) (hmax : value.length ≤ maxNameLength) (hhead : value.head? ≠ some 0)
    (hlast : value.getLast? = some 0) (request : TlvRequest) :
    ∃ inspected, tlvMethod lookup m buf value.length request =
      if lookup (nameOf value) = undefinedMethod then
        ⟨.methodNotFound, { request with methodIndex := lookup (nameOf value) }, inspected⟩
      else ⟨.ok, ⟨lookup (nameOf value), (nameOf value).take (maxNameLength - 1)⟩, inspected⟩ := by
  have hlen : ¬ (value.length = 0 ∨ maxNameLength < value.length) := by omega
  have hfirst : ¬ m (buf + 8) = 0 := fun h0 =>
    hhead (by rw [Holds.first hm (List.ne_nil_of_length_pos hpos), h0])
  have hend : m (buf + 8 + value.length - 1) = 0 :=
    Option.some.inj ((Holds.last hm hpos).symm.trans hlast)
  unfold tlvMethod
  dsimp only
  rw [if_neg hlen, if_neg hfirst, if_neg (not_not.mpr hend), cString_eq_nameOf hm]
  exact ⟨_, rfl⟩

/-- A value that names a method is accepted. -/
theorem tlvMethod_names {buf : Nat} {value : List UInt8} (hm : Holds m (buf + 8) value)
    (hv : Names lookup value) (request : TlvRequest) :
    (tlvMethod lookup m buf value.length request).ret = .ok ∧
      (tlvMethod lookup m buf value.length request).request.methodIndex =
        lookup (nameOf value) := by
  obtain ⟨inspected, heq⟩ :=
    @tlvMethod_string lookup m buf value hm hv.pos hv.length_le hv.first hv.last request
  rw [heq, if_neg hv.known]
  exact ⟨rfl, rfl⟩

/-- The value of a header runs out, names a method, or is refused. -/
theorem tlvMethod_cases {buf : Nat} {bytes : List UInt8} (hm : Holds m (buf + 8) bytes)
    (len : Nat) (request : TlvRequest) :
    (0 < len ∧ len ≤ maxNameLength ∧ bytes.length < len ∧ bytes.head? ≠ some 0) ∨
      (len ≤ bytes.length ∧ Names lookup (bytes.take len)) ∨
      ((tlvMethod lookup m buf len request).ret ≠ .ok ∧
        ∀ p ∈ (tlvMethod lookup m buf len request).inspected, p < buf + 8 + bytes.length) := by
  obtain ⟨hinspected, _, _⟩ := tlvMethod_spec lookup m buf len request
  by_cases hlen : len = 0 ∨ maxNameLength < len
  · have hr : tlvMethod lookup m buf len request = ⟨.err, request, []⟩ := if_pos hlen
    exact .inr (.inr (by simp [hr]))
  obtain ⟨h0, hmax⟩ := not_or.mp hlen
  by_cases hzero : m (buf + 8) = 0
  · have hr : tlvMethod lookup m buf len request = ⟨.err, request, [buf + 8]⟩ := by
      unfold tlvMethod
      dsimp only
      rw [if_neg hlen, if_pos hzero]
    by_cases hne : bytes = []
    · refine .inl ⟨by omega, by omega, ?_, ?_⟩
      · rw [hne, List.length_nil]
        omega
      · simp [hne]
    · have hpos := List.length_pos_iff.mpr hne
      refine .inr (.inr ⟨by simp [hr], fun p hp => ?_⟩)
      rw [hr] at hp
      have := List.mem_singleton.mp hp
      omega
  by_cases hcut : bytes.length < len
  · refine .inl ⟨by omega, by omega, hcut, fun hfirst => hzero ?_⟩
    have hne : bytes ≠ [] := fun hnil => by simp [hnil] at hfirst
    exact Option.some.inj ((Holds.first hm hne).symm.trans hfirst)
  have hle := Nat.le_of_not_lt hcut
  have htake : (bytes.take len).length = len := by
    rw [List.length_take, Nat.min_eq_left hle]
  have hvalue : Holds m (buf + 8) (bytes.take len) := hm.front (List.take_prefix _ _)
  have hpos : 0 < (bytes.take len).length := by omega
  have hin : ∀ p ∈ (tlvMethod lookup m buf len request).inspected, p < buf + 8 + bytes.length := by
    intro p hp
    have := hinspected p hp
    omega
  by_cases hret : (tlvMethod lookup m buf len request).ret = .ok
  · refine .inr (.inl ⟨hle, hpos, by omega, ?_, ?_, ?_⟩)
    · rw [Holds.first hvalue (List.ne_nil_of_length_pos hpos)]
      exact fun h => hzero (Option.some.inj h)
    · rw [Holds.last hvalue hpos, htake]
      by_contra hlast
      have hr : (tlvMethod lookup m buf len request).ret = .err := by
        unfold tlvMethod
        dsimp only
        rw [if_neg hlen, if_neg hzero, if_pos fun h => hlast (by rw [h])]
      rw [hr] at hret
      cases hret
    · rw [← cString_eq_nameOf hvalue, htake]
      intro hknown
      have hr : (tlvMethod lookup m buf len request).ret ≠ .ok := by
        unfold tlvMethod
        dsimp only
        rw [if_neg hlen, if_neg hzero, if_pos hknown]
        split
        · simp
        · simp
      exact hr hret
  · exact .inr (.inr ⟨hret, hin⟩)

/-! ## The loop over the headers -/

/-- One round over a header that names a method. -/
theorem tlvLoop_header {buf extra : Nat} {value : List UInt8} (hm : Holds m buf (methodHeader value))
    (hv : Names lookup value) (hle : (methodHeader value).length ≤ extra) (fuel : Nat)
    (request : TlvRequest) :
    ∃ request', request'.methodIndex = lookup (nameOf value) ∧
      let next := buf + (methodHeader value).length
      let r := tlvLoop lookup m (fuel + 1) buf extra request
      let q := tlvLoop lookup m fuel next (extra - (methodHeader value).length) request'
      r.ret = q.ret ∧ r.request = q.request ∧ (∀ p ∈ q.inspected, p ∈ r.inspected) ∧
        ∀ p ∈ r.inspected, p < next ∨ p ∈ q.inspected := by
  obtain ⟨htype', hlength', hvalue⟩ := methodHeader_holds hm hv.length_le
  obtain ⟨hret, hindex⟩ := tlvMethod_names hvalue hv request
  obtain ⟨hinspected, _, _⟩ := tlvMethod_spec lookup m buf value.length request
  rw [length_methodHeader] at hle ⊢
  refine ⟨_, hindex, ?_⟩
  have hr : tlvLoop lookup m (fuel + 1) buf extra request =
      let r := tlvMethod lookup m buf value.length request
      let q := tlvLoop lookup m fuel (buf + (8 + value.length)) (extra - (8 + value.length))
        r.request
      { q with inspected := span buf 8 ++ r.inspected ++ q.inspected } := by
    rw [tlvLoop, if_pos (show tlvSize 0 ≤ extra from Nat.le_trans (Nat.le_add_right 8 _) hle)]
    dsimp only
    rw [hlength', wrap32_tlvSize hv.length_le, if_pos hle, if_pos htype', hret]
  rw [hr]
  refine ⟨rfl, rfl, fun p hp => List.mem_append_right _ hp, fun p hp => ?_⟩
  rcases List.mem_append.mp hp with hp | hp
  · left
    rcases List.mem_append.mp hp with hp | hp
    · have := mem_span.mp hp
      omega
    · have := hinspected p hp
      omega
  · exact .inr hp

/-- The rounds over headers that name methods. -/
theorem tlvLoop_headers (values : List (List UInt8)) :
    ∀ {buf extra fuel : Nat} (request : TlvRequest), Holds m buf (methodHeaders values) →
      (∀ value ∈ values, Names lookup value) → (methodHeaders values).length ≤ extra →
      extra ≤ fuel →
      ∃ fuel' request', extra - (methodHeaders values).length ≤ fuel' ∧
        request'.methodIndex = lastNamed lookup request.methodIndex values ∧
        let next := buf + (methodHeaders values).length
        let r := tlvLoop lookup m fuel buf extra request
        let q := tlvLoop lookup m fuel' next (extra - (methodHeaders values).length) request'
        r.ret = q.ret ∧ r.request = q.request ∧ (∀ p ∈ q.inspected, p ∈ r.inspected) ∧
          ∀ p ∈ r.inspected, p < next ∨ p ∈ q.inspected := by
  induction values with
  | nil =>
    intro buf extra fuel request _ _ _ hfuel
    exact ⟨fuel, request, hfuel, rfl, rfl, rfl, fun _ hp => hp, fun _ hp => .inr hp⟩
  | cons value values ih =>
    intro buf extra fuel request hm hvalues hle hfuel
    rw [methodHeaders_cons] at hm hle
    obtain ⟨hhead, htail⟩ := hm.append
    rw [List.length_append] at hle
    have hlen := length_methodHeader value
    obtain ⟨fuel, rfl⟩ : ∃ n, fuel = n + 1 := Nat.exists_eq_succ_of_ne_zero (by omega)
    obtain ⟨request₁, hindex₁, hret₁, hreq₁, hsub₁, hin₁⟩ :=
      tlvLoop_header hhead (hvalues value List.mem_cons_self) (Nat.le_of_add_right_le hle) fuel
        request
    obtain ⟨fuel₂, request₂, hfuel₂, hindex₂, hret₂, hreq₂, hsub₂, hin₂⟩ :=
      ih request₁ htail (fun v hv => hvalues v (List.mem_cons_of_mem _ hv))
        (show (methodHeaders values).length ≤ extra - (methodHeader value).length by omega)
        (show extra - (methodHeader value).length ≤ fuel by omega)
    rw [methodHeaders_cons, List.length_append, ← Nat.add_assoc, ← Nat.sub_sub]
    refine ⟨fuel₂, request₂, hfuel₂, by rw [hindex₂, hindex₁, lastNamed], hret₁.trans hret₂,
      hreq₁.trans hreq₂, fun p hp => hsub₁ p (hsub₂ p hp), fun p hp => ?_⟩
    rcases hin₁ p hp with h | h
    · exact .inl (Nat.lt_of_lt_of_le h (Nat.le_add_right _ _))
    · exact hin₂ p h

/-- What a round makes of a header before it goes on. -/
def tlvRound (lookup : CString → Nat) (m : Memory) (buf extra : Nat) (request : TlvRequest) :
    TlvResult :=
  if wrap32 (tlvSize (be32 m (buf + 4))) ≤ extra then
    if be32 m buf = tlvMethodType then tlvMethod lookup m buf (be32 m (buf + 4)) request
    else ⟨.err, request, []⟩
  else ⟨.err, request, []⟩

theorem tlvLoop_round {buf extra : Nat} (hmin : tlvSize 0 ≤ extra) (fuel : Nat)
    (request : TlvRequest) :
    let r := tlvLoop lookup m (fuel + 1) buf extra request
    (∀ p ∈ span buf 8 ++ (tlvRound lookup m buf extra request).inspected, p ∈ r.inspected) ∧
      ((tlvRound lookup m buf extra request).ret ≠ .ok → r.ret ≠ .ok ∧
        r.inspected = span buf 8 ++ (tlvRound lookup m buf extra request).inspected) := by
  intro r
  unfold r
  rw [tlvLoop, if_pos hmin]
  dsimp only
  rw [← tlvRound]
  cases hret : (tlvRound lookup m buf extra request).ret with
  | ok => exact ⟨fun p hp => List.mem_append_left _ hp, fun h => absurd rfl h⟩
  | _ => exact ⟨fun p hp => hp, fun h => ⟨by simp, rfl⟩⟩

/-- The loop leaves the bytes where a header is cut short. -/
theorem tlvLoop_cutShort {buf extra : Nat} {bytes : List UInt8} (hm : Holds m buf bytes)
    (hcut : CutShort extra bytes) (fuel : Nat) (request : TlvRequest) :
    ∃ p ∈ (tlvLoop lookup m (fuel + 1) buf extra request).inspected, buf + bytes.length ≤ p := by
  obtain ⟨hmin, hcut⟩ := hcut
  obtain ⟨hseen, _⟩ := @tlvLoop_round lookup m buf extra hmin fuel request
  have hsize : tlvSize 0 = 8 := rfl
  rcases hcut with hshort | ⟨len, value, rfl, hpos, hmax, htotal, hvalue, hfirst⟩
  · refine ⟨buf + 7, hseen _ (List.mem_append_left _ ?_), by omega⟩
    exact mem_span.mpr ⟨by omega, by omega⟩
  · obtain ⟨htype, hm⟩ := hm.append
    obtain ⟨hlength, hm⟩ := hm.append
    have htype' : be32 m buf = tlvMethodType := htype.be32_of_lt (by decide)
    have hlength' : be32 m (buf + 4) = len :=
      hlength.be32_of_lt (Nat.lt_of_le_of_lt hmax (by decide))
    have hround : tlvRound lookup m buf extra request = tlvMethod lookup m buf len request := by
      rw [tlvRound, hlength', wrap32_tlvSize hmax, if_pos (show 8 + len ≤ extra from htotal),
        if_pos htype']
    rw [hround] at hseen
    have hlen : ¬ (len = 0 ∨ maxNameLength < len) := by omega
    simp only [List.length_append, length_toBe32]
    by_cases hne : value = []
    · -- the value starts at the end of the bytes
      refine ⟨buf + 8, hseen _ (List.mem_append_right _ ?_), by simp [hne]⟩
      unfold tlvMethod
      dsimp only
      rw [if_neg hlen]
      split
      · simp
      · split
        · simp
        · split
          · simp
          · simp
    · have hne' : ¬ m (buf + 8) = 0 := fun h0 => hfirst (by
        rw [Holds.first hm hne]
        exact congrArg some h0)
      refine ⟨buf + 8 + len - 1, hseen _ (List.mem_append_right _ ?_), by omega⟩
      unfold tlvMethod
      dsimp only
      rw [if_neg hlen, if_neg hne']
      split
      · simp
      · split
        · simp
        · simp

/-- Bytes that a header is read from: a header that is cut short, an end that
does not leave the bytes, or a header that names a method. -/
theorem tlvLoop_cases {buf extra : Nat} {bytes : List UInt8} (hm : Holds m buf bytes) (fuel : Nat)
    (request : TlvRequest) :
    let r := tlvLoop lookup m (fuel + 1) buf extra request
    CutShort extra bytes ∨
      ((∀ p ∈ r.inspected, p < buf + bytes.length) ∧ (r.ret = .ok → extra = 0)) ∨
      ∃ value rest, bytes = methodHeader value ++ rest ∧ Names lookup value ∧
        (methodHeader value).length ≤ extra := by
  intro r
  have hsize : tlvSize 0 = 8 := rfl
  by_cases hmin : tlvSize 0 ≤ extra
  · by_cases hshort : bytes.length < tlvSize 0
    · exact .inl ⟨hmin, .inl hshort⟩
    obtain ⟨_, hrefused⟩ := @tlvLoop_round lookup m buf extra hmin fuel request
    -- an error in this round is the last of what is inspected
    have hend : (tlvRound lookup m buf extra request).ret ≠ .ok →
        (∀ p ∈ (tlvRound lookup m buf extra request).inspected, p < buf + bytes.length) →
        (∀ p ∈ r.inspected, p < buf + bytes.length) ∧ (r.ret = .ok → extra = 0) := by
      intro hne hin
      obtain ⟨hret, hinspected⟩ := hrefused hne
      refine ⟨fun p hp => ?_, fun hok => absurd hok hret⟩
      rw [hinspected] at hp
      rcases List.mem_append.mp hp with hp | hp
      · have := mem_span.mp hp
        omega
      · exact hin p hp
    by_cases htotal : wrap32 (tlvSize (be32 m (buf + 4))) ≤ extra
    · by_cases htype : be32 m buf = tlvMethodType
      · have hround : tlvRound lookup m buf extra request =
            tlvMethod lookup m buf (be32 m (buf + 4)) request := by
          rw [tlvRound, if_pos htotal, if_pos htype]
        have hbytes : toBe32 tlvMethodType ++ (toBe32 (be32 m (buf + 4)) ++ bytes.drop 8) =
            bytes := by
          rw [← htype]
          exact Holds.fields hm (Nat.le_of_not_lt hshort)
        rw [← hbytes] at hm
        rcases @tlvMethod_cases lookup m buf (bytes.drop 8) hm.append.2.append.2
          (be32 m (buf + 4)) request with
          ⟨hpos, hmax, hcut, hfirst⟩ | ⟨hle, hnames⟩ | ⟨hret, hin⟩
        · rw [wrap32_tlvSize hmax] at htotal
          exact .inl ⟨hmin, .inr ⟨_, _, hbytes.symm, hpos, hmax, htotal, hcut, hfirst⟩⟩
        · have htake : ((bytes.drop 8).take (be32 m (buf + 4))).length = be32 m (buf + 4) := by
            rw [List.length_take, Nat.min_eq_left hle]
          have hmax := hnames.length_le
          rw [htake] at hmax
          rw [wrap32_tlvSize hmax] at htotal
          refine .inr (.inr ⟨_, (bytes.drop 8).drop (be32 m (buf + 4)), ?_, hnames, ?_⟩)
          · rw [methodHeader, htake, List.append_assoc, List.append_assoc, List.take_append_drop]
            exact hbytes.symm
          · rw [length_methodHeader, htake]
            exact htotal
        · rw [List.length_drop] at hin
          refine .inr (.inl (hend (by rwa [hround]) fun p hp => ?_))
          rw [hround] at hp
          have := hin p hp
          omega
      · refine .inr (.inl (hend ?_ ?_))
        · rw [tlvRound, if_pos htotal, if_neg htype]
          simp
        · rw [tlvRound, if_pos htotal, if_neg htype]
          simp
    · refine .inr (.inl (hend ?_ ?_))
      · rw [tlvRound, if_neg htotal]
        simp
      · rw [tlvRound, if_neg htotal]
        simp
  · have hr : r = ⟨if extra = 0 then .ok else .err, request, []⟩ := by
      unfold r
      rw [tlvLoop, if_neg hmin]
    rw [hr]
    refine .inr (.inl ⟨fun p hp => (by cases hp), fun hret => ?_⟩)
    by_contra h0
    simp [h0] at hret

/-- What the loop makes of any bytes: headers that name methods, and then either
one that is cut short, or an end that does not leave the bytes. -/
theorem tlvLoop_reads (fuel : Nat) :
    ∀ {buf extra : Nat} {bytes : List UInt8} (request : TlvRequest), Holds m buf bytes →
      extra ≤ fuel →
      ∃ values rest, bytes = methodHeaders values ++ rest ∧
        (∀ value ∈ values, Names lookup value) ∧ (methodHeaders values).length ≤ extra ∧
        (CutShort (extra - (methodHeaders values).length) rest ∨
          let r := tlvLoop lookup m fuel buf extra request
          (∀ p ∈ r.inspected, p < buf + bytes.length) ∧
            (r.ret = .ok → (methodHeaders values).length = extra)) := by
  induction fuel with
  | zero =>
    intro buf extra bytes request _ hfuel
    obtain rfl : extra = 0 := Nat.le_zero.mp hfuel
    refine ⟨[], bytes, rfl, fun _ h => (by cases h), Nat.le_refl _, .inr ?_⟩
    rw [tlvLoop_zero]
    exact ⟨fun _ h => (by cases h), fun _ => rfl⟩
  | succ fuel ih =>
    intro buf extra bytes request hm hfuel
    rcases @tlvLoop_cases lookup m buf extra bytes hm fuel request with
      hcut | hend | ⟨value, rest, rfl, hnames, hle⟩
    · exact ⟨[], bytes, rfl, fun _ h => (by cases h), Nat.zero_le _, .inl hcut⟩
    · exact ⟨[], bytes, rfl, fun _ h => (by cases h), Nat.zero_le _,
        .inr ⟨hend.1, fun hret => (hend.2 hret).symm⟩⟩
    · obtain ⟨hhead, htail⟩ := hm.append
      have hlen := length_methodHeader value
      obtain ⟨request', _, hret, _, _, hin⟩ := tlvLoop_header hhead hnames hle fuel request
      obtain ⟨values, rest, rfl, hvalues, hle', hreads⟩ :=
        ih request' htail (show extra - (methodHeader value).length ≤ fuel by omega)
      refine ⟨value :: values, rest, (List.append_assoc _ _ _).symm, fun v hv => ?_, ?_, ?_⟩
      · rcases List.mem_cons.mp hv with rfl | hv
        · exact hnames
        · exact hvalues v hv
      · rw [methodHeaders_cons, List.length_append]
        omega
      · rw [methodHeaders_cons, List.length_append, ← Nat.sub_sub]
        refine hreads.imp_right fun ⟨hin', hend⟩ => ⟨fun p hp => ?_, fun hok => ?_⟩
        · rw [List.length_append, ← Nat.add_assoc]
          rcases hin p hp with h | h
          · exact Nat.lt_of_lt_of_le h (Nat.le_add_right _ _)
          · exact hin' p h
        · have := hend (hret.symm.trans hok)
          omega

/-! ## All headers -/

theorem tlvHeaderProcess_eq (lookup : CString → Nat) (m : Memory) (buf extra : Nat)
    (request : TlvRequest) :
    tlvHeaderProcess lookup m buf extra request = tlvLoop lookup m extra buf extra request := by
  unfold tlvHeaderProcess
  split
  · next h0 =>
    rw [h0]
    exact (tlvLoop_zero lookup m 0 buf request).symm
  · rfl

/-- Headers that name methods and fill the announced size are accepted. -/
theorem tlvHeaderProcess_headers {buf : Nat} {values : List (List UInt8)} (request : TlvRequest)
    (hm : Holds m buf (methodHeaders values)) (hvalues : ∀ value ∈ values, Names lookup value) :
    let r := tlvHeaderProcess lookup m buf (methodHeaders values).length request
    r.ret = .ok ∧ r.request.methodIndex = lastNamed lookup request.methodIndex values ∧
      ∀ p ∈ r.inspected, p < buf + (methodHeaders values).length := by
  intro r
  obtain ⟨fuel, request', _, hindex, hret, hreq, _, hin⟩ :=
    tlvLoop_headers values request hm hvalues (Nat.le_refl _) (Nat.le_refl _)
  rw [Nat.sub_self, tlvLoop_zero] at hret hreq hin
  rw [show r = _ from tlvHeaderProcess_eq lookup m buf _ request, hret, hreq]
  exact ⟨rfl, hindex, fun p hp => (hin p hp).resolve_right (by simp)⟩

/-- A header that is cut short, behind some that name methods. -/
theorem tlvHeaderProcess_cutShort {buf extra : Nat} {values : List (List UInt8)}
    {rest : List UInt8} (request : TlvRequest) (hm : Holds m buf (methodHeaders values ++ rest))
    (hvalues : ∀ value ∈ values, Names lookup value) (hle : (methodHeaders values).length ≤ extra)
    (hcut : CutShort (extra - (methodHeaders values).length) rest) :
    ∃ p ∈ (tlvHeaderProcess lookup m buf extra request).inspected,
      buf + (methodHeaders values ++ rest).length ≤ p := by
  obtain ⟨hhead, htail⟩ := hm.append
  obtain ⟨fuel, request', hfuel, _, _, _, hsub, _⟩ :=
    tlvLoop_headers values request hhead hvalues hle (Nat.le_refl _)
  have hmin : 8 ≤ extra - (methodHeaders values).length := hcut.1
  obtain ⟨fuel, rfl⟩ : ∃ n, fuel = n + 1 := Nat.exists_eq_succ_of_ne_zero (by omega)
  obtain ⟨p, hp, hge⟩ := @tlvLoop_cutShort lookup m _ _ rest htail hcut fuel request'
  rw [tlvHeaderProcess_eq, List.length_append, ← Nat.add_assoc]
  exact ⟨p, hsub p hp, hge⟩

theorem not_cutShort {extra : Nat} {bytes : List UInt8} (h : extra ≤ bytes.length) :
    ¬ CutShort extra bytes := by
  have hsize : tlvSize 0 = 8 := rfl
  refine fun ⟨hmin, hcut⟩ => ?_
  rcases hcut with hshort | ⟨len, value, rfl, _, _, htotal, hvalue, _⟩
  · omega
  · have hsize' : tlvSize len = 8 + len := rfl
    simp only [List.length_append, length_toBe32] at h
    omega

/-- **What is accepted**: headers that were received as a whole, if they all name
methods. -/
theorem tlvHeaderProcess_ok_iff {buf : Nat} {bytes : List UInt8} (request : TlvRequest)
    (hm : Holds m buf bytes) :
    (tlvHeaderProcess lookup m buf bytes.length request).ret = .ok ↔
      ∃ values, bytes = methodHeaders values ∧ ∀ value ∈ values, Names lookup value := by
  constructor
  · intro hok
    rw [tlvHeaderProcess_eq] at hok
    obtain ⟨values, rest, rfl, hvalues, _, hreads⟩ :=
      @tlvLoop_reads lookup m bytes.length buf bytes.length bytes request hm (Nat.le_refl _)
    rcases hreads with hcut | ⟨_, hend⟩
    · exact absurd hcut (not_cutShort (by rw [List.length_append]; omega))
    · have hlen := hend hok
      rw [List.length_append, Nat.left_eq_add] at hlen
      rw [List.eq_nil_of_length_eq_zero hlen, List.append_nil]
      exact ⟨values, rfl, hvalues⟩
  · intro ⟨values, h, hvalues⟩
    subst h
    exact (tlvHeaderProcess_headers request hm hvalues).1

end
end Cmsg.Wire
