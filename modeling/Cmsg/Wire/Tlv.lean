import Cmsg.Wire.Header

/-! # TLV headers

`cmsg_tlv_header_process` walks over the headers that follow the fixed one. It
is used by servers and clients, so the method table is a parameter: `lookup`
gives the index of a name, or `UNDEFINED_METHOD`. Beside its result the model
returns every position of the buffer that the function inspects. -/
namespace Cmsg.Wire
open Cmsg.Base

/-- `CMSG_TLV_METHOD_TYPE` -/
def tlvMethodType : Nat := 0

/-- The C string at `pos`, given a terminator within `n` bytes. -/
def cString (m : Memory) (pos n : Nat) : CString := (slice m pos n).takeWhile (· != 0)

/-- The part of a `cmsg_server_request` that the headers fill in. -/
structure TlvRequest where
  methodIndex : Nat
  methodNameRecvd : CString
deriving DecidableEq, Repr

/-- The request before any header was processed. -/
def TlvRequest.init : TlvRequest := ⟨undefinedMethod, []⟩

/-- A result of `cmsg_tlv_header_process` and the positions it inspected. -/
structure TlvResult where
  ret : RetCode
  request : TlvRequest
  inspected : List Nat
deriving DecidableEq, Repr

/-- What a method header of `len` bytes of value makes of the request. -/
def tlvMethod (lookup : CString → Nat) (m : Memory) (buf len : Nat) (request : TlvRequest) :
    TlvResult :=
  let method := buf + 8
  if len = 0 ∨ maxNameLength < len then ⟨.err, request, []⟩
  else if m method = 0 then ⟨.err, request, [method]⟩
  else if m (method + len - 1) ≠ 0 then ⟨.err, request, [method, method + len - 1]⟩
  else
    let name := cString m method len
    let inspected := method :: (method + len - 1) :: span method (name.length + 1)
    if lookup name = undefinedMethod then
      ⟨.methodNotFound, { request with methodIndex := lookup name }, inspected⟩
    else ⟨.ok, ⟨lookup name, name.take (maxNameLength - 1)⟩, inspected⟩

/-- The loop over the headers. A header that is accepted takes more than eight
bytes, so as much fuel as there are bytes is enough. -/
def tlvLoop (lookup : CString → Nat) (m : Memory) :
    (fuel buf extraHeaderSize : Nat) → TlvRequest → TlvResult
  | 0, _, extraHeaderSize, request => ⟨if extraHeaderSize = 0 then .ok else .err, request, []⟩
  | fuel + 1, buf, extraHeaderSize, request =>
    if tlvSize 0 ≤ extraHeaderSize then
      let len := be32 m (buf + 4)
      let total := wrap32 (tlvSize len)
      let r : TlvResult :=
        if total ≤ extraHeaderSize then
          if be32 m buf = tlvMethodType then tlvMethod lookup m buf len request
          else ⟨.err, request, []⟩
        else ⟨.err, request, []⟩
      match r.ret with
      | .ok =>
        let q := tlvLoop lookup m fuel (buf + total) (extraHeaderSize - total) r.request
        { q with inspected := span buf 8 ++ r.inspected ++ q.inspected }
      | _ => { r with inspected := span buf 8 ++ r.inspected }
    else ⟨if extraHeaderSize = 0 then .ok else .err, request, []⟩

/-- `cmsg_tlv_header_process` -/
def tlvHeaderProcess (lookup : CString → Nat) (m : Memory) (buf extraHeaderSize : Nat)
    (request : TlvRequest) : TlvResult :=
  if extraHeaderSize = 0 then ⟨.ok, request, []⟩
  else tlvLoop lookup m extraHeaderSize buf extraHeaderSize request

section
variable {lookup : CString → Nat} {m : Memory}

/-! ## What is inspected -/

theorem length_cString_lt {pos n : Nat} (hn : 0 < n) (h : m (pos + n - 1) = 0) :
    (cString m pos n).length < n := by
  unfold cString
  by_contra hge
  have hall : (slice m pos n).takeWhile (· != 0) = slice m pos n := by
    refine (List.takeWhile_prefix _).eq_of_length ?_
    have hle := (List.takeWhile_prefix (l := slice m pos n) (p := (· != 0))).length_le
    rw [length_slice] at hle ⊢
    omega
  have hlast : m (pos + (n - 1)) ∈ slice m pos n :=
    List.mem_map.mpr ⟨n - 1, List.mem_range.mpr (by omega), rfl⟩
  rw [← hall] at hlast
  have hne := List.all_eq_true.mp List.all_takeWhile _ hlast
  rw [show pos + (n - 1) = pos + n - 1 by omega, h] at hne
  simp at hne

/-- The name that memory holds has no terminator in it. -/
theorem ne_zero_of_lt_cString {m : Memory} {pos n j : Nat} (hj : j < (cString m pos n).length) :
    m (pos + j) ≠ 0 := by
  have hle := List.takeWhile_prefix (l := slice m pos n) (· != 0)
  have hj' : j < (slice m pos n).length := Nat.lt_of_lt_of_le hj hle.length_le
  have hget : (cString m pos n)[j] = m (pos + j) := by
    refine (hle.getElem hj).trans ?_
    simp [slice]
  have hmem := List.getElem_mem hj
  have hne := List.all_eq_true.mp List.all_takeWhile _ hmem
  rw [hget] at hne
  simpa using hne

/-- The index that was found is that of a terminated name behind `buf`. -/
def NameFrom (lookup : CString → Nat) (m : Memory) (buf : Nat) (request : TlvRequest) : Prop :=
  request.methodIndex ≠ undefinedMethod ∧ ∃ pos len, buf + 8 ≤ pos ∧ 0 < len ∧
    len ≤ maxNameLength ∧ m pos ≠ 0 ∧ m (pos + len - 1) = 0 ∧
    request.methodIndex = lookup (cString m pos len)

theorem NameFrom.mono {buf buf' : Nat} {request : TlvRequest}
    (h : NameFrom lookup m buf' request) (hle : buf ≤ buf') : NameFrom lookup m buf request := by
  obtain ⟨hdefined, pos, len, hpos, hrest⟩ := h
  exact ⟨hdefined, pos, len, by omega, hrest⟩

/-- A method header: refused, unknown, or accepted with the index of a method. -/
theorem tlvMethod_spec (lookup : CString → Nat) (m : Memory) (buf len : Nat)
    (request : TlvRequest) :
    let r := tlvMethod lookup m buf len request
    (∀ p ∈ r.inspected, len ≤ maxNameLength ∧ buf + 8 ≤ p ∧ p < buf + 8 + len) ∧
      (r.ret = .ok → len ≤ maxNameLength ∧ NameFrom lookup m buf r.request) ∧
      (r.ret = .ok ∨ r.ret = .err ∨ r.ret = .methodNotFound) := by
  intro r
  unfold r tlvMethod
  dsimp only
  split
  · exact ⟨by simp, by simp, by simp⟩
  · next hlen =>
    obtain ⟨h0, hlt⟩ := not_or.mp hlen
    have hpos : 0 < len := Nat.pos_of_ne_zero h0
    have hmax : len ≤ maxNameLength := Nat.le_of_not_lt hlt
    split
    · refine ⟨fun p hp => ⟨hmax, ?_⟩, by simp, by simp⟩
      rw [List.mem_singleton.mp hp]
      omega
    · next hfirst =>
      split
      · refine ⟨fun p hp => ⟨hmax, ?_⟩, by simp, by simp⟩
        simp only [List.mem_cons, List.not_mem_nil, or_false] at hp
        omega
      · next hlast =>
        have hname := length_cString_lt hpos (not_not.mp hlast)
        have hinspected : ∀ p ∈ (buf + 8) :: (buf + 8 + len - 1) ::
            span (buf + 8) ((cString m (buf + 8) len).length + 1),
            len ≤ maxNameLength ∧ buf + 8 ≤ p ∧ p < buf + 8 + len := by
          intro p hp
          simp only [List.mem_cons, mem_span] at hp
          omega
        split
        · exact ⟨hinspected, by simp, by simp⟩
        · next hfound =>
          exact ⟨hinspected, fun _ => ⟨hmax, hfound, _, len, Nat.le_refl _, hpos, hmax, hfirst,
            not_not.mp hlast, rfl⟩, by simp⟩

/-- The size of a header that is accepted does not wrap. -/
theorem wrap32_tlvSize {len : Nat} (h : len ≤ maxNameLength) :
    wrap32 (tlvSize len) = 8 + len :=
  wrap32_of_lt (Nat.lt_of_le_of_lt (Nat.add_le_add_left h 8) (by decide))

/-- The loop inspects nothing but the bytes it was told of, and when it succeeds
over any byte it has found a method. -/
theorem tlvLoop_spec (lookup : CString → Nat) (m : Memory) (fuel : Nat) :
    ∀ (buf extra : Nat) (request : TlvRequest), extra < word32 →
      let r := tlvLoop lookup m fuel buf extra request
      (∀ p ∈ r.inspected, buf ≤ p ∧ p < buf + extra) ∧
        (r.ret = .ok → extra = 0 ∧ r.request = request ∨ NameFrom lookup m buf r.request) ∧
        (r.ret = .ok ∨ r.ret = .err ∨ r.ret = .methodNotFound) := by
  induction fuel with
  | zero =>
    intro buf extra request _
    unfold tlvLoop
    by_cases h0 : extra = 0
    · simp [h0]
    · simp [h0]
  | succ fuel ih =>
    intro buf extra request hlt r
    unfold r tlvLoop
    split
    · next hmin =>
      have hmin' : 8 ≤ extra := hmin
      have hspan : ∀ p ∈ span buf 8, buf ≤ p ∧ p < buf + extra := by
        intro p hp
        rw [mem_span] at hp
        omega
      by_cases htotal : wrap32 (tlvSize (be32 m (buf + 4))) ≤ extra
      · by_cases htype : be32 m buf = tlvMethodType
        · obtain ⟨hinspected, hok, hret⟩ := tlvMethod_spec lookup m buf (be32 m (buf + 4)) request
          simp only [if_pos htotal, if_pos htype]
          have hin : ∀ p ∈ span buf 8 ++
              (tlvMethod lookup m buf (be32 m (buf + 4)) request).inspected,
              buf ≤ p ∧ p < buf + extra := by
            intro p hp
            rcases List.mem_append.mp hp with hp | hp
            · exact hspan p hp
            · obtain ⟨hlen, hlow, hhigh⟩ := hinspected p hp
              rw [wrap32_tlvSize hlen] at htotal
              omega
          split
          · next hr =>
            obtain ⟨hlen, hfound⟩ := hok hr
            rw [wrap32_tlvSize hlen] at htotal ⊢
            obtain ⟨hrest, hend, hrets⟩ := ih (buf + (8 + be32 m (buf + 4)))
              (extra - (8 + be32 m (buf + 4)))
              (tlvMethod lookup m buf (be32 m (buf + 4)) request).request (by omega)
            refine ⟨fun p hp => ?_, fun hret => .inr ?_, hrets⟩
            · rcases List.mem_append.mp hp with hp | hp
              · exact hin p hp
              · have := hrest p hp
                omega
            · rcases hend hret with ⟨_, hreq⟩ | hfound'
              · rw [hreq]
                exact hfound
              · exact hfound'.mono (by omega)
          · next hne => exact ⟨hin, fun hret => absurd hret hne, hret⟩
        · simp only [if_pos htotal, if_neg htype]
          exact ⟨by simpa using hspan, by simp, by simp⟩
      · simp only [if_neg htotal]
        exact ⟨by simpa using hspan, by simp, by simp⟩
    · by_cases h0 : extra = 0
      · simp [h0]
      · simp [h0]

/-- Where nothing is left the loop is over. -/
theorem tlvLoop_zero (lookup : CString → Nat) (m : Memory) (fuel buf : Nat) (request : TlvRequest) :
    tlvLoop lookup m fuel buf 0 request = ⟨.ok, request, []⟩ := by
  cases fuel with
  | zero => rfl
  | succ fuel =>
    unfold tlvLoop
    rw [if_neg (show ¬ tlvSize 0 ≤ 0 by decide), if_pos rfl]

/-- More fuel than there are bytes makes no difference. -/
theorem tlvLoop_fuel (lookup : CString → Nat) (m : Memory) (fuel : Nat) :
    ∀ (fuel' buf extra : Nat) (request : TlvRequest), extra ≤ fuel → extra ≤ fuel' →
      tlvLoop lookup m fuel buf extra request = tlvLoop lookup m fuel' buf extra request := by
  induction fuel with
  | zero =>
    intro fuel' buf extra request h _
    obtain rfl : extra = 0 := Nat.le_zero.mp h
    rw [tlvLoop_zero, tlvLoop_zero]
  | succ fuel ih =>
    intro fuel' buf extra request h h'
    cases fuel' with
    | zero =>
      obtain rfl : extra = 0 := Nat.le_zero.mp h'
      rw [tlvLoop_zero, tlvLoop_zero]
    | succ fuel' =>
      unfold tlvLoop
      split
      · next hmin =>
        have hmin' : 8 ≤ extra := hmin
        by_cases htotal : wrap32 (tlvSize (be32 m (buf + 4))) ≤ extra
        · by_cases htype : be32 m buf = tlvMethodType
          · simp only [if_pos htotal, if_pos htype]
            obtain ⟨_, hok, _⟩ := tlvMethod_spec lookup m buf (be32 m (buf + 4)) request
            split
            · next hr =>
              rw [wrap32_tlvSize (hok hr).1, ih fuel' _ _ _ (by omega) (by omega)]
            · rfl
          · simp only [if_pos htotal, if_neg htype]
        · simp only [if_neg htotal]
      · rfl

/-- `cmsg_tlv_header_process` inspects nothing outside the headers it is given,
and succeeds without finding a method only where there are none. -/
theorem tlvHeaderProcess_spec (lookup : CString → Nat) (m : Memory) (buf : Nat) {extra : Nat}
    (request : TlvRequest) (hlt : extra < word32) :
    let r := tlvHeaderProcess lookup m buf extra request
    (∀ p ∈ r.inspected, buf ≤ p ∧ p < buf + extra) ∧
      (r.ret = .ok → extra = 0 ∧ r.request = request ∨ NameFrom lookup m buf r.request) ∧
      (r.ret = .ok ∨ r.ret = .err ∨ r.ret = .methodNotFound) := by
  intro r
  unfold r tlvHeaderProcess
  split
  · next h0 => exact ⟨by simp, fun _ => .inl ⟨h0, rfl⟩, by simp⟩
  · exact tlvLoop_spec lookup m extra buf extra request hlt

theorem tlvHeaderProcess_zero (lookup : CString → Nat) (m : Memory) (buf : Nat)
    (request : TlvRequest) : tlvHeaderProcess lookup m buf 0 request = ⟨.ok, request, []⟩ := rfl

/-- Too few bytes for any header. -/
theorem tlvHeaderProcess_short (lookup : CString → Nat) (m : Memory) (buf : Nat) {extra : Nat}
    (request : TlvRequest) (h0 : extra ≠ 0) (h8 : extra < 8) :
    tlvHeaderProcess lookup m buf extra request = ⟨.err, request, []⟩ := by
  obtain ⟨n, rfl⟩ := Nat.exists_eq_succ_of_ne_zero h0
  unfold tlvHeaderProcess tlvLoop
  have hmin : ¬ tlvSize 0 ≤ n.succ := Nat.not_le.mpr h8
  rw [if_neg h0, if_neg hmin, if_neg h0]

/-! ## What is inspected decides -/

/-- A name that ends within its `n` bytes is made of the bytes up to its terminator. -/
theorem cString_congr {m m' : Memory} {pos n : Nat} (hlt : (cString m pos n).length < n)
    (h : ∀ p ∈ span pos ((cString m pos n).length + 1), m p = m' p) :
    cString m pos n = cString m' pos n := by
  generalize hk : (cString m pos n).length = k at hlt h
  have hsplit : ∀ m : Memory,
      slice m pos n = slice m pos (k + 1) ++ slice m (pos + (k + 1)) (n - (k + 1)) := by
    intro m
    rw [← slice_add, Nat.add_sub_cancel' hlt]
  have hsame : slice m pos (k + 1) = slice m' pos (k + 1) :=
    slice_congr fun i hi => h _ (mem_span.mpr ⟨by omega, by omega⟩)
  unfold cString at hk ⊢
  rw [hsplit m, List.takeWhile_append] at hk
  split at hk
  · -- the terminator is among the first `k + 1` bytes
    rw [List.length_append, length_slice] at hk
    omega
  · next hshort =>
    rw [hsplit m, hsplit m', List.takeWhile_append, List.takeWhile_append, ← hsame,
      if_neg hshort, if_neg hshort]

theorem tlvMethod_local (lookup : CString → Nat) {m m' : Memory} {buf len : Nat}
    (request : TlvRequest)
    (h : ∀ p ∈ (tlvMethod lookup m buf len request).inspected, m p = m' p) :
    tlvMethod lookup m buf len request = tlvMethod lookup m' buf len request := by
  unfold tlvMethod at h ⊢
  dsimp only at h ⊢
  by_cases hlen : len = 0 ∨ maxNameLength < len
  · rw [if_pos hlen, if_pos hlen]
  rw [if_neg hlen] at h
  rw [if_neg hlen, if_neg hlen]
  by_cases hfirst : m (buf + 8) = 0
  · rw [if_pos hfirst] at h
    rw [if_pos hfirst, if_pos ((h _ (List.mem_singleton.mpr rfl)).symm.trans hfirst)]
  rw [if_neg hfirst] at h
  by_cases hlast : m (buf + 8 + len - 1) = 0
  · rw [if_neg (not_not.mpr hlast)] at h
    have hin : ∀ p ∈ (buf + 8) :: (buf + 8 + len - 1) ::
        span (buf + 8) ((cString m (buf + 8) len).length + 1), m p = m' p := by
      split at h
      · exact h
      · exact h
    have hpos : 0 < len := Nat.pos_of_ne_zero (not_or.mp hlen).1
    have hname : cString m (buf + 8) len = cString m' (buf + 8) len :=
      cString_congr (length_cString_lt hpos hlast) fun p hp => hin p (by simp [hp])
    have hfirst' : m' (buf + 8) ≠ 0 := fun h0 => hfirst ((hin _ (by simp)).trans h0)
    have hlast' : m' (buf + 8 + len - 1) = 0 := (hin _ (by simp)).symm.trans hlast
    rw [if_neg hfirst, if_neg hfirst', if_neg (not_not.mpr hlast), if_neg (not_not.mpr hlast'),
      hname]
  · rw [if_pos hlast] at h
    have hfirst' : m' (buf + 8) ≠ 0 := fun h0 => hfirst ((h _ (by simp)).trans h0)
    have hlast' : m' (buf + 8 + len - 1) ≠ 0 := fun h0 => hlast ((h _ (by simp)).trans h0)
    rw [if_neg hfirst, if_neg hfirst', if_pos hlast, if_pos hlast']

/-- The first header and what the loop makes of it, as the positions allow. -/
theorem tlvLoop_local (lookup : CString → Nat) {m m' : Memory} (fuel : Nat) :
    ∀ (buf extra : Nat) (request : TlvRequest),
      (∀ p ∈ (tlvLoop lookup m fuel buf extra request).inspected, m p = m' p) →
      tlvLoop lookup m fuel buf extra request = tlvLoop lookup m' fuel buf extra request := by
  induction fuel with
  | zero => exact fun _ _ _ _ => rfl
  | succ fuel ih =>
    intro buf extra request h
    unfold tlvLoop at h ⊢
    by_cases hmin : tlvSize 0 ≤ extra
    · rw [if_pos hmin] at h
      rw [if_pos hmin, if_pos hmin]
      dsimp only at h ⊢
      generalize hr : (if wrap32 (tlvSize (be32 m (buf + 4))) ≤ extra then
        if be32 m buf = tlvMethodType then tlvMethod lookup m buf (be32 m (buf + 4)) request
        else ⟨.err, request, []⟩
        else (⟨.err, request, []⟩ : TlvResult)) = r at h ⊢
      have hin : (∀ p ∈ span buf 8, m p = m' p) ∧ ∀ p ∈ r.inspected, m p = m' p := by
        split at h
        · exact ⟨fun p hp => h p (by simp only [List.mem_append]; exact .inl (.inl hp)),
            fun p hp => h p (by simp only [List.mem_append]; exact .inl (.inr hp))⟩
        · exact ⟨fun p hp => h p (List.mem_append_left _ hp),
            fun p hp => h p (List.mem_append_right _ hp)⟩
      have htype : be32 m buf = be32 m' buf :=
        be32_congr fun i hi => hin.1 _ (mem_span.mpr ⟨by omega, by omega⟩)
      have hlen : be32 m (buf + 4) = be32 m' (buf + 4) :=
        be32_congr fun i hi => hin.1 _ (mem_span.mpr ⟨by omega, by omega⟩)
      have hsame : (if wrap32 (tlvSize (be32 m' (buf + 4))) ≤ extra then
          if be32 m' buf = tlvMethodType then tlvMethod lookup m' buf (be32 m' (buf + 4)) request
          else ⟨.err, request, []⟩
          else (⟨.err, request, []⟩ : TlvResult)) = r := by
        rw [← htype, ← hlen, ← hr]
        by_cases htotal : wrap32 (tlvSize (be32 m (buf + 4))) ≤ extra
        · by_cases hmethod : be32 m buf = tlvMethodType
          · rw [if_pos htotal, if_pos hmethod] at hr
            rw [if_pos htotal, if_pos htotal, if_pos hmethod, if_pos hmethod]
            exact (tlvMethod_local lookup request fun p hp => hin.2 p (hr ▸ hp)).symm
          · rw [if_pos htotal, if_pos htotal, if_neg hmethod, if_neg hmethod]
        · rw [if_neg htotal, if_neg htotal]
      rw [hsame, ← hlen]
      split
      · next hok =>
        rw [hok] at h
        rw [ih _ _ _ fun p hp => h p (List.mem_append_right _ hp)]
      · rfl
    · rw [if_neg hmin, if_neg hmin]

/-- The positions that are inspected decide the result: memory that holds the same there
gives the same. -/
theorem tlvHeaderProcess_local (lookup : CString → Nat) {m m' : Memory} {buf extra : Nat}
    (request : TlvRequest)
    (h : ∀ p ∈ (tlvHeaderProcess lookup m buf extra request).inspected, m p = m' p) :
    tlvHeaderProcess lookup m buf extra request =
      tlvHeaderProcess lookup m' buf extra request := by
  unfold tlvHeaderProcess at h ⊢
  by_cases h0 : extra = 0
  · rw [if_pos h0, if_pos h0]
  · rw [if_neg h0] at h
    rw [if_neg h0, if_neg h0]
    exact tlvLoop_local lookup extra buf extra request h

/-! ## Where the headers lie -/

theorem tlvMethod_congr (lookup : CString → Nat) {m m' : Memory} {buf buf' len : Nat}
    (request : TlvRequest) (h : ∀ i, i < 8 + len → m (buf + i) = m' (buf' + i)) :
    (tlvMethod lookup m buf len request).ret = (tlvMethod lookup m' buf' len request).ret ∧
      (tlvMethod lookup m buf len request).request =
        (tlvMethod lookup m' buf' len request).request := by
  unfold tlvMethod
  dsimp only
  split
  · exact ⟨rfl, rfl⟩
  · next hlen =>
    have hpos : 0 < len := Nat.pos_of_ne_zero (not_or.mp hlen).1
    have hname : cString m (buf + 8) len = cString m' (buf' + 8) len := by
      rw [cString, cString, slice_congr fun i hi => ?_]
      rw [Nat.add_assoc, Nat.add_assoc]
      exact h _ (by omega)
    have hlast : m (buf + 8 + len - 1) = m' (buf' + 8 + len - 1) := by
      rw [show buf + 8 + len - 1 = buf + (8 + len - 1) by omega,
        show buf' + 8 + len - 1 = buf' + (8 + len - 1) by omega]
      exact h _ (by omega)
    rw [h 8 (by omega), hlast, hname]
    split
    · exact ⟨rfl, rfl⟩
    · split
      · exact ⟨rfl, rfl⟩
      · split
        · exact ⟨rfl, rfl⟩
        · exact ⟨rfl, rfl⟩

/-- The same headers give the same result wherever they lie. -/
theorem tlvLoop_congr (lookup : CString → Nat) {m m' : Memory} (fuel : Nat) :
    ∀ (buf buf' extra : Nat) (request : TlvRequest), extra < word32 →
      (∀ i, i < extra → m (buf + i) = m' (buf' + i)) →
      (tlvLoop lookup m fuel buf extra request).ret =
          (tlvLoop lookup m' fuel buf' extra request).ret ∧
        (tlvLoop lookup m fuel buf extra request).request =
          (tlvLoop lookup m' fuel buf' extra request).request := by
  induction fuel with
  | zero =>
    intro buf buf' extra request _ _
    exact ⟨rfl, rfl⟩
  | succ fuel ih =>
    intro buf buf' extra request hlt h
    unfold tlvLoop
    split
    · next hmin =>
      have hmin' : 8 ≤ extra := hmin
      have hlen : be32 m (buf + 4) = be32 m' (buf' + 4) := be32_congr fun i hi => by
        rw [Nat.add_assoc, Nat.add_assoc]
        exact h _ (by omega)
      have htype : be32 m buf = be32 m' buf' := be32_congr fun i hi => h i (by omega)
      rw [hlen, htype]
      by_cases htotal : wrap32 (tlvSize (be32 m' (buf' + 4))) ≤ extra
      · by_cases hmethod : be32 m' buf' = tlvMethodType
        · simp only [if_pos htotal, if_pos hmethod]
          obtain ⟨_, hok, _⟩ := tlvMethod_spec lookup m buf (be32 m' (buf' + 4)) request
          by_cases hmax : be32 m' (buf' + 4) ≤ maxNameLength
          · have hsize := wrap32_tlvSize hmax
            rw [hsize] at htotal
            obtain ⟨hret, hrequest⟩ := tlvMethod_congr lookup request
              (fun i (hi : i < 8 + be32 m' (buf' + 4)) => h i (by omega))
            rw [hret, hrequest]
            split
            · rw [hsize]
              refine ih _ _ _ _ (by omega) fun i hi => ?_
              rw [Nat.add_assoc buf, Nat.add_assoc buf']
              exact h (8 + be32 m' (buf' + 4) + i) (by omega)
            · exact ⟨rfl, rfl⟩
          · have hrefused : ∀ (m : Memory) (buf : Nat),
                tlvMethod lookup m buf (be32 m' (buf' + 4)) request = ⟨.err, request, []⟩ :=
              fun m buf => if_pos (.inr (Nat.lt_of_not_le hmax))
            simp only [hrefused]
            exact ⟨trivial, trivial⟩
        · simp only [if_pos htotal, if_neg hmethod]
          exact ⟨trivial, trivial⟩
      · simp only [if_neg htotal]
        exact ⟨trivial, trivial⟩
    · exact ⟨rfl, rfl⟩

theorem tlvHeaderProcess_congr (lookup : CString → Nat) {m m' : Memory} {buf buf' extra : Nat}
    (request : TlvRequest) (hlt : extra < word32)
    (h : ∀ i, i < extra → m (buf + i) = m' (buf' + i)) :
    (tlvHeaderProcess lookup m buf extra request).ret =
        (tlvHeaderProcess lookup m' buf' extra request).ret ∧
      (tlvHeaderProcess lookup m buf extra request).request =
        (tlvHeaderProcess lookup m' buf' extra request).request := by
  unfold tlvHeaderProcess
  split
  · exact ⟨rfl, rfl⟩
  · exact tlvLoop_congr lookup extra buf buf' extra request hlt h

theorem tlvMethod_request (lookup : CString → Nat) (m : Memory) (buf len : Nat)
    (request request' : TlvRequest) :
    (tlvMethod lookup m buf len request).ret = (tlvMethod lookup m buf len request').ret ∧
      ((tlvMethod lookup m buf len request).ret = .ok →
        (tlvMethod lookup m buf len request).request =
          (tlvMethod lookup m buf len request').request) := by
  unfold tlvMethod
  dsimp only
  split
  · exact ⟨rfl, fun hok => (by cases hok)⟩
  · split
    · exact ⟨rfl, fun hok => (by cases hok)⟩
    · split
      · exact ⟨rfl, fun hok => (by cases hok)⟩
      · split
        · exact ⟨rfl, fun hok => (by cases hok)⟩
        · exact ⟨rfl, fun _ => rfl⟩

/-- The request that is there before decides nothing but the case without headers. -/
theorem tlvLoop_request (lookup : CString → Nat) (m : Memory) (fuel buf extra : Nat)
    (request request' : TlvRequest) :
    (tlvLoop lookup m fuel buf extra request).ret = (tlvLoop lookup m fuel buf extra request').ret ∧
      ((tlvLoop lookup m fuel buf extra request).ret = .ok → extra ≠ 0 →
        (tlvLoop lookup m fuel buf extra request).request =
          (tlvLoop lookup m fuel buf extra request').request) := by
  cases fuel with
  | zero =>
    unfold tlvLoop
    refine ⟨rfl, fun hok hne => ?_⟩
    dsimp only at hok
    rw [if_neg hne] at hok
    cases hok
  | succ fuel =>
    unfold tlvLoop
    split
    · by_cases htotal : wrap32 (tlvSize (be32 m (buf + 4))) ≤ extra
      · by_cases hmethod : be32 m buf = tlvMethodType
        · simp only [if_pos htotal, if_pos hmethod]
          obtain ⟨hret, hrequest⟩ := tlvMethod_request lookup m buf (be32 m (buf + 4)) request request'
          by_cases hok : (tlvMethod lookup m buf (be32 m (buf + 4)) request).ret = .ok
          · rw [hrequest hok, ← hret, hok]
            exact ⟨rfl, fun _ _ => rfl⟩
          · split
            · next h => exact absurd h hok
            · split
              · next h => exact absurd (hret.trans h) hok
              · exact ⟨hret, fun h => absurd h hok⟩
        · simp only [if_pos htotal, if_neg hmethod]
          exact ⟨trivial, fun hok => by cases hok⟩
      · simp only [if_neg htotal]
        exact ⟨trivial, fun hok => by cases hok⟩
    · refine ⟨rfl, fun hok hne => ?_⟩
      dsimp only at hok
      rw [if_neg hne] at hok
      cases hok

theorem tlvHeaderProcess_request (lookup : CString → Nat) (m : Memory) (buf extra : Nat)
    (request request' : TlvRequest) :
    (tlvHeaderProcess lookup m buf extra request).ret =
        (tlvHeaderProcess lookup m buf extra request').ret ∧
      ((tlvHeaderProcess lookup m buf extra request).ret = .ok → extra ≠ 0 →
        (tlvHeaderProcess lookup m buf extra request).request =
          (tlvHeaderProcess lookup m buf extra request').request) := by
  unfold tlvHeaderProcess
  split
  · next h0 => exact ⟨rfl, fun _ hne => absurd h0 hne⟩
  · exact tlvLoop_request lookup m extra buf extra request request'

/-- A header that is refused leaves the request, or the index of a method is unknown. -/
theorem tlvMethod_methodIndex (lookup : CString → Nat) (m : Memory) (buf len : Nat)
    (request request' : TlvRequest) :
    ((tlvMethod lookup m buf len request).request = request ∧
        (tlvMethod lookup m buf len request').request = request') ∨
      (tlvMethod lookup m buf len request).request.methodIndex =
        (tlvMethod lookup m buf len request').request.methodIndex := by
  unfold tlvMethod
  dsimp only
  split
  · exact .inl ⟨rfl, rfl⟩
  · split
    · exact .inl ⟨rfl, rfl⟩
    · split
      · exact .inl ⟨rfl, rfl⟩
      · split
        · exact .inr rfl
        · exact .inr rfl

/-- The index that the headers leave is the one that was there before, or does not
depend on it. -/
theorem tlvLoop_methodIndex (lookup : CString → Nat) (m : Memory) (fuel buf extra : Nat)
    (request request' : TlvRequest) :
    ((tlvLoop lookup m fuel buf extra request).request = request ∧
        (tlvLoop lookup m fuel buf extra request').request = request') ∨
      (tlvLoop lookup m fuel buf extra request).request.methodIndex =
        (tlvLoop lookup m fuel buf extra request').request.methodIndex := by
  cases fuel with
  | zero => exact .inl ⟨rfl, rfl⟩
  | succ fuel =>
    unfold tlvLoop
    split
    · by_cases htotal : wrap32 (tlvSize (be32 m (buf + 4))) ≤ extra
      · by_cases hmethod : be32 m buf = tlvMethodType
        · simp only [if_pos htotal, if_pos hmethod]
          obtain ⟨hret, hrequest⟩ := tlvMethod_request lookup m buf (be32 m (buf + 4)) request request'
          by_cases hok : (tlvMethod lookup m buf (be32 m (buf + 4)) request).ret = .ok
          · rw [hrequest hok, ← hret, hok]
            exact .inr rfl
          · split
            · next h => exact absurd h hok
            · split
              · next h => exact absurd (hret.trans h) hok
              · exact tlvMethod_methodIndex lookup m buf _ request request'
        · simp only [if_pos htotal, if_neg hmethod]
          exact .inl ⟨trivial, trivial⟩
      · simp only [if_neg htotal]
        exact .inl ⟨trivial, trivial⟩
    · exact .inl ⟨rfl, rfl⟩

theorem tlvHeaderProcess_methodIndex (lookup : CString → Nat) (m : Memory) (buf extra : Nat)
    (request request' : TlvRequest) :
    ((tlvHeaderProcess lookup m buf extra request).request = request ∧
        (tlvHeaderProcess lookup m buf extra request').request = request') ∨
      (tlvHeaderProcess lookup m buf extra request).request.methodIndex =
        (tlvHeaderProcess lookup m buf extra request').request.methodIndex := by
  unfold tlvHeaderProcess
  split
  · exact .inl ⟨rfl, rfl⟩
  · exact tlvLoop_methodIndex lookup m extra buf extra request request'

/-- Headers that are accepted end soon after the last byte that is not zero. -/
theorem tlvLoop_bounded (lookup : CString → Nat) {m : Memory} {limit : Nat}
    (hzero : ∀ p, limit ≤ p → m p = 0) (fuel : Nat) :
    ∀ (buf extra : Nat) (request : TlvRequest),
      (tlvLoop lookup m fuel buf extra request).ret = .ok →
        extra = 0 ∨ buf + extra < limit + (8 + maxNameLength) := by
  induction fuel with
  | zero =>
    intro buf extra request h
    unfold tlvLoop at h
    split at h
    · next h0 => exact .inl h0
    · cases h
  | succ fuel ih =>
    intro buf extra request h
    unfold tlvLoop at h
    split at h
    · by_cases htotal : wrap32 (tlvSize (be32 m (buf + 4))) ≤ extra
      · by_cases hmethod : be32 m buf = tlvMethodType
        · simp only [if_pos htotal, if_pos hmethod] at h
          obtain ⟨_, hok, _⟩ := tlvMethod_spec lookup m buf (be32 m (buf + 4)) request
          split at h
          · next hret =>
            obtain ⟨hmax, _, _, _, _, _⟩ := hok hret
            rw [wrap32_tlvSize hmax] at htotal h
            -- a header with a length lies before the zeros
            have hbuf : buf + 4 < limit := by
              by_contra hge
              have hlen : be32 m (buf + 4) = 0 := by
                rw [be32, hzero _ (by omega), hzero _ (by omega), hzero _ (by omega),
                  hzero _ (by omega)]
                rfl
              rw [hlen] at hret
              cases hret
            rcases ih _ _ _ h with h0 | hlt
            · exact .inr (by omega)
            · exact .inr (by omega)
          · next hne => exact absurd h hne
        · simp only [if_pos htotal, if_neg hmethod] at h
          cases h
      · simp only [if_neg htotal] at h
        cases h
    · split at h
      · next h0 => exact .inl h0
      · cases h

theorem tlvHeaderProcess_bounded (lookup : CString → Nat) {m : Memory} {limit buf extra : Nat}
    (hzero : ∀ p, limit ≤ p → m p = 0) (request : TlvRequest)
    (h : (tlvHeaderProcess lookup m buf extra request).ret = .ok) :
    extra = 0 ∨ buf + extra < limit + (8 + maxNameLength) := by
  unfold tlvHeaderProcess at h
  split at h
  · next h0 => exact .inl h0
  · exact tlvLoop_bounded lookup hzero extra buf extra request h

end
end Cmsg.Wire
