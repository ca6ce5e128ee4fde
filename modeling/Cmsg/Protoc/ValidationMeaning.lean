import Cmsg.Protoc.Validation

/-! # What the generated validation functions decide

The function of a message type returns `true` exactly for the messages that meet
the constraints, and otherwise leaves the text of the first constraint that fails
in `err_str`, in the order of the fields and with sub-messages gone through where
they stand. The induction is on the message; within a message it is on the
fields that are still to be checked. -/
namespace Cmsg.Protoc
open Cmsg.Base Cmsg.Base.Search
open Cmsg.Proxy (cstr)

variable {S : Schema} {env : Platform}

/-! ## Schemas whose C compiles -/

/-- A schema whose generated C compiles and links, and whose error messages are what
they are in a C string literal too, and formats without arguments. -/
structure WellFormed (S : Schema) : Prop where
  /-- sub-messages with a validation function are plain pointers to types that have one -/
  subMessages : ∀ t, ∀ f ∈ S.fields t, f.validation = none → ∀ sub, f.type = .message sub →
    messageHasValidation S sub = true → (S.descriptor sub).nested = false ∧ f.singular = true
  integers : ∀ t, ∀ f ∈ S.fields t, ∀ v, f.validation = some v →
    v.intGe.isSome ∨ v.intLe.isSome → f.type = .integer ∧ f.singular = true
  strings : ∀ t, ∀ f ∈ S.fields t, ∀ v, f.validation = some v →
    v.stringFormat.isSome → f.type = .string ∧ f.singular = true
  distinct : ∀ t u, messageHasValidation S t = true → messageHasValidation S u = true →
    (S.descriptor t).nested = false → (S.descriptor u).nested = false →
    validateName S t = validateName S u → t = u
  formats : ∀ t, ∀ f ∈ S.fields t, ∀ v, f.validation = some v →
    ∃ text, expandFormat v.suppliedMessage = some text
  /-- no quote, backslash or newline -/
  literals : ∀ t, ∀ f ∈ S.fields t, ∀ v, f.validation = some v →
    ∀ c ∈ v.suppliedMessage, c ≠ 0x22 ∧ c ≠ 0x5c ∧ c ≠ 0x0a

/-- A pointer to a message of the type, with fields of their types. -/
def Conforms (S : Schema) : Value → Fin S.n → Prop
  | .null, _ => True
  | .msg field, t => ∀ f ∈ S.fields t, f.singular = true →
    (f.type = .integer → ∃ v, field f.name = .int v) ∧
    (f.type = .string → ∃ s, field f.name = .str s) ∧
    (∀ sub, f.type = .message sub → Conforms S (field f.name) sub)
  | _, _ => False

/-- One field of a message meets what the schema says of it. -/
def FieldValid (env : Platform) (S : Schema) (f : Field S.n) (value : Value) : Prop :=
  (∀ v, f.validation = some v → v.Holds env value) ∧
    (f.validation = none → ∀ sub, f.type = .message sub → Valid env S value sub)

theorem valid_msg {field : CString → Value} {t : Fin S.n} :
    Valid env S (.msg field) t ↔ ∀ f ∈ S.fields t, FieldValid env S f (field f.name) := Iff.rfl

/-- The text of the first constraint that a message fails. -/
inductive FirstFailure (env : Platform) (S : Schema) : Value → Fin S.n → CString → Prop
  | field {field : CString → Value} {t : Fin S.n} {pre post : List (Field S.n)} {f : Field S.n}
      {v : FieldValidation} {text : CString} (split : S.fields t = pre ++ f :: post)
      (before : ∀ g ∈ pre, FieldValid env S g (field g.name)) (option : f.validation = some v)
      (fails : ¬ v.Holds env (field f.name)) (format : expandFormat v.suppliedMessage = some text) :
      FirstFailure env S (.msg field) t text
  | subMessage {field : CString → Value} {t : Fin S.n} {pre post : List (Field S.n)}
      {f : Field S.n} {sub : Fin S.n} {text : CString} (split : S.fields t = pre ++ f :: post)
      (before : ∀ g ∈ pre, FieldValid env S g (field g.name)) (plain : f.validation = none)
      (type : f.type = .message sub) (fails : FirstFailure env S (field f.name) sub text) :
      FirstFailure env S (.msg field) t text

theorem FirstFailure.not_valid {m : Value} {t : Fin S.n} {text : CString}
    (h : FirstFailure env S m t text) : ¬ Valid env S m t := by
  induction h with
  | field split _ option fails _ =>
    intro hv
    exact fails ((valid_msg.mp hv _ (by simp [split])).1 _ option)
  | subMessage split _ plain type _ ih =>
    intro hv
    exact ih ((valid_msg.mp hv _ (by simp [split])).2 plain _ type)

/-! ## Types without a validation function -/

theorem messageHasValidation_iff {t : Fin S.n} :
    messageHasValidation S t = true ↔ Finds S.edges t :=
  finds_iff (fun a => List.mem_finRange a) t

/-- A field with an option gives its type a validation function. -/
theorem has_of_option {t : Fin S.n} {f : Field S.n} {v : FieldValidation} (hf : f ∈ S.fields t)
    (hv : f.validation = some v) : messageHasValidation S t = true := by
  have hgoal : f.edge = .goal := by simp [Field.edge, hv]
  exact messageHasValidation_iff.mpr ⟨t, .refl, List.mem_map.mpr ⟨f, hf, hgoal⟩⟩

/-- So does a sub-message with a validation function. -/
theorem has_of_subMessage {t sub : Fin S.n} {f : Field S.n} (hf : f ∈ S.fields t)
    (hv : f.validation = none) (ht : f.type = .message sub)
    (hs : messageHasValidation S sub = true) : messageHasValidation S t = true := by
  have hnode : f.edge = .node sub := by simp [Field.edge, hv, ht]
  have hl : Leads S.edges t sub := List.mem_map.mpr ⟨f, hf, hnode⟩
  exact messageHasValidation_iff.mpr ((messageHasValidation_iff.mp hs).head hl)

/-- Every message of a type without a validation function meets the constraints. -/
theorem valid_of_not_has {m : Value} {t : Fin S.n} (h : messageHasValidation S t ≠ true) :
    Valid env S m t := by
  induction m generalizing t with
  | msg field ih =>
    intro f hf
    refine ⟨fun v hv => absurd (has_of_option hf hv) h, fun hv sub ht => ?_⟩
    exact ih f.name fun hs => h (has_of_subMessage hf hv ht hs)
  | _ => trivial

/-! ## One check -/

/-- What a check says of the value that it is given. -/
def Check.Holds (env : Platform) (value : Value) : Check → Prop
  | .intGe k => ∀ i, value = .int i → k ≤ toInt64 i
  | .intLe k => ∀ i, value = .int i → toInt64 i ≤ k
  | .ipAddress => ∀ s, value = .str (some s) → StringFormat.ipAddress.Matches env s
  | .utcTimestamp => ∀ s, value = .str (some s) → StringFormat.utcTimestamp.Matches env s
  | .macAddress => ∀ s, value = .str (some s) → StringFormat.macAddress.Matches env s

/-- The value is an argument of the type that the check takes. -/
def Check.Takes (value : Value) : Check → Prop
  | .intGe _ | .intLe _ => ∃ i, value = .int i
  | _ => ∃ s, value = .str s

theorem holds_iff_checks {v : FieldValidation} {value : Value} :
    v.Holds env value ↔ ∀ c ∈ v.checks, c.Holds env value := by
  have hfmt : ∀ fmt : StringFormat,
      fmt.check.Holds env value ↔ ∀ s, value = .str (some s) → fmt.Matches env s := by
    intro fmt
    cases fmt <;> exact Iff.rfl
  constructor
  · intro h c hc
    simp only [FieldValidation.checks, List.mem_append, Option.mem_toList,
      Option.map_eq_some_iff] at hc
    obtain (⟨k, hk, rfl⟩ | ⟨k, hk, rfl⟩) | ⟨fmt, hk, rfl⟩ := hc
    · exact h.ge k hk
    · exact h.le k hk
    · exact (hfmt fmt).mpr (h.format fmt hk)
  · intro h
    refine ⟨fun k hk => h (.intGe k) ?_, fun k hk => h (.intLe k) ?_,
      fun fmt hk => (hfmt fmt).mp (h fmt.check ?_)⟩
    all_goals simp [FieldValidation.checks, hk]

/-- A check of a library function that fails reports the text it is given. -/
theorem reportFailure_supplied {own message text : CString} (err : ErrStr)
    (h : expandFormat message = some text) :
    reportFailure own (some message) err = some (false, err.map (snprintf text)) := by
  cases err with
  | none => rfl
  | some buf => simp [reportFailure, h]

theorem call_of_holds {c : Check} {value : Value} {name message : CString} {err : ErrStr}
    (ht : c.Takes value) (hc : c.Holds env value) :
    c.call env name (some message) err value = some (true, err) := by
  cases c with
  | intGe k =>
    obtain ⟨i, rfl⟩ := ht
    have hk : ¬ toInt64 i < k := Int.not_lt.mpr (hc i rfl)
    simp [Check.call, validateIntGe, hk]
  | intLe k =>
    obtain ⟨i, rfl⟩ := ht
    have hk : ¬ toInt64 i > k := Int.not_lt.mpr (hc i rfl)
    simp [Check.call, validateIntLe, hk]
  | ipAddress =>
    obtain ⟨s, rfl⟩ := ht
    cases s with
    | none => rfl
    | some s =>
      have hs : env.inetPton4 s = true ∨ env.inetPton6 s = true := hc s rfl
      cases hs with
      | inl h4 => simp [Check.call, validateIpAddress, h4]
      | inr h6 => simp [Check.call, validateIpAddress, h6]
  | utcTimestamp =>
    obtain ⟨s, rfl⟩ := ht
    cases s with
    | none => rfl
    | some s =>
      have hs : env.strptime s = some [] := hc s rfl
      simp [Check.call, validateUtcTimestamp, hs]
  | macAddress =>
    obtain ⟨s, rfl⟩ := ht
    cases s with
    | none => rfl
    | some s =>
      have hs : env.utlstrMacAddressValidate s = true := hc s rfl
      simp [Check.call, validateMacAddress, hs]

theorem call_of_not_holds {c : Check} {value : Value} {name message text : CString} {err : ErrStr}
    (ht : c.Takes value) (hc : ¬ c.Holds env value) (hf : expandFormat message = some text) :
    c.call env name (some message) err value = some (false, err.map (snprintf text)) := by
  cases c with
  | intGe k =>
    obtain ⟨i, rfl⟩ := ht
    have hk : toInt64 i < k := by
      refine Int.not_le.mp fun hle => hc fun j hj => ?_
      cases hj
      exact hle
    simp [Check.call, validateIntGe, hk, reportFailure_supplied err hf]
  | intLe k =>
    obtain ⟨i, rfl⟩ := ht
    have hk : toInt64 i > k := by
      refine Int.not_le.mp fun hle => hc fun j hj => ?_
      cases hj
      exact hle
    simp [Check.call, validateIntLe, hk, reportFailure_supplied err hf]
  | ipAddress =>
    obtain ⟨s, rfl⟩ := ht
    cases s with
    | none => exact absurd (fun s hs => by cases hs) hc
    | some s =>
      have h4 : env.inetPton4 s = false := by
        refine Bool.eq_false_iff.mpr fun h => hc fun s' hs => ?_
        cases hs
        exact .inl h
      have h6 : env.inetPton6 s = false := by
        refine Bool.eq_false_iff.mpr fun h => hc fun s' hs => ?_
        cases hs
        exact .inr h
      simp [Check.call, validateIpAddress, h4, h6, reportFailure_supplied err hf]
  | utcTimestamp =>
    obtain ⟨s, rfl⟩ := ht
    cases s with
    | none => exact absurd (fun s hs => by cases hs) hc
    | some s =>
      have hs : env.strptime s ≠ some [] := by
        intro h
        refine hc fun s' hs => ?_
        cases hs
        exact h
      simp [Check.call, validateUtcTimestamp, hs, reportFailure_supplied err hf]
  | macAddress =>
    obtain ⟨s, rfl⟩ := ht
    cases s with
    | none => exact absurd (fun s hs => by cases hs) hc
    | some s =>
      have hs : env.utlstrMacAddressValidate s = false := by
        refine Bool.eq_false_iff.mpr fun h => hc fun s' hs => ?_
        cases hs
        exact h
      simp [Check.call, validateMacAddress, hs, reportFailure_supplied err hf]

/-! ## One field -/

/-- The checks of one field in a row: on to the rest, or out with the text. -/
theorem runBody_checks (env : Platform) {field : CString → Value}
    (call : CString → CString → ErrStr → Option (Bool × ErrStr)) {name message text : CString}
    (hf : expandFormat message = some text) (rest : List Statement) (err : ErrStr)
    (checks : List Check) (ht : ∀ c ∈ checks, c.Takes (field name)) :
    ((∀ c ∈ checks, c.Holds env (field name)) ∧
      runBody env field call (checks.map (.check · name message) ++ rest) err =
        runBody env field call rest err) ∨
    ((¬ ∀ c ∈ checks, c.Holds env (field name)) ∧
      runBody env field call (checks.map (.check · name message) ++ rest) err =
        some (false, err.map (snprintf text))) := by
  induction checks with
  | nil => exact .inl ⟨by simp, rfl⟩
  | cons c checks ih =>
    have htc : c.Takes (field name) := ht c (by simp)
    by_cases hc : c.Holds env (field name)
    · have hcall : c.call env name (some message) err (field name) = some (true, err) :=
        call_of_holds htc hc
      simp only [List.map_cons, List.cons_append, runBody, hcall, List.forall_mem_cons, hc,
        true_and]
      exact ih fun c' hc' => ht c' (by simp [hc'])
    · right
      refine ⟨fun hall => hc (hall c (by simp)), ?_⟩
      simp only [List.map_cons, List.cons_append, runBody, call_of_not_holds htc hc hf]

/-- What a finished call of a validation function leaves behind. -/
def Decided (env : Platform) (S : Schema) (m : Value) (t : Fin S.n) (err : ErrStr)
    (result : Option (Bool × ErrStr)) : Prop :=
  (Valid env S m t ∧ result = some (true, err)) ∨
    ∃ text, FirstFailure env S m t text ∧ result = some (false, err.map (snprintf text))

/-- A field of a conforming message is a proper argument of its checks. -/
theorem takes_of_conforms (hS : WellFormed S) {field : CString → Value} {t : Fin S.n}
    (hm : Conforms S (.msg field) t) {f : Field S.n} (hf : f ∈ S.fields t) {v : FieldValidation}
    (hv : f.validation = some v) : ∀ c ∈ v.checks, c.Takes (field f.name) := by
  intro c hc
  simp only [FieldValidation.checks, List.mem_append, Option.mem_toList,
    Option.map_eq_some_iff] at hc
  obtain (⟨k, hk, rfl⟩ | ⟨k, hk, rfl⟩) | ⟨fmt, hk, rfl⟩ := hc
  · obtain ⟨ht, hs⟩ := hS.integers t f hf v hv (.inl (by simp [hk]))
    exact (hm f hf hs).1 ht
  · obtain ⟨ht, hs⟩ := hS.integers t f hf v hv (.inr (by simp [hk]))
    exact (hm f hf hs).1 ht
  · obtain ⟨ht, hs⟩ := hS.strings t f hf v hv (by simp [hk])
    obtain ⟨s, hval⟩ := (hm f hf hs).2.1 ht
    cases fmt <;> exact ⟨s, hval⟩

/-- The statements of one field: either the field is as it should be and the rest
runs, or the function returns with the text of the first failure in it. -/
theorem runBody_field (hS : WellFormed S) {field : CString → Value} {t : Fin S.n}
    (hm : Conforms S (.msg field) t)
    {call : CString → CString → ErrStr → Option (Bool × ErrStr)}
    (hcall : ∀ name sub err, Conforms S (field name) sub → (S.descriptor sub).nested = false →
      messageHasValidation S sub = true →
      Decided env S (field name) sub err (call name (validateName S sub) err))
    {pre post : List (Field S.n)} {f : Field S.n} (split : S.fields t = pre ++ f :: post)
    (before : ∀ g ∈ pre, FieldValid env S g (field g.name)) (rest : List Statement)
    (err : ErrStr) :
    (FieldValid env S f (field f.name) ∧
      runBody env field call (generateFieldValidation S f ++ rest) err =
        runBody env field call rest err) ∨
    ∃ text, FirstFailure env S (.msg field) t text ∧
      runBody env field call (generateFieldValidation S f ++ rest) err =
        some (false, err.map (snprintf text)) := by
  have hf : f ∈ S.fields t := by simp [split]
  cases hv : f.validation with
  | some v =>
    obtain ⟨text, htext⟩ := hS.formats t f hf v hv
    simp only [generateFieldValidation, hv]
    refine (runBody_checks env call htext rest err v.checks
      (takes_of_conforms hS hm hf hv)).imp ?_ ?_
    · intro h
      refine ⟨⟨fun v' hv' => ?_, fun hn => by simp [hv] at hn⟩, h.2⟩
      cases hv.symm.trans hv'
      exact holds_iff_checks.mpr h.1
    · intro h
      have hfails : ¬ v.Holds env (field f.name) := fun hh => h.1 (holds_iff_checks.mp hh)
      exact ⟨text, .field split before hv hfails htext, h.2⟩
  | none =>
    have hnone : ∀ v, f.validation = some v → v.Holds env (field f.name) := by simp [hv]
    cases ht : f.type with
    | message sub =>
      simp only [generateFieldValidation, hv, ht]
      by_cases hs : messageHasValidation S sub = true
      · obtain ⟨hnested, hsingular⟩ := hS.subMessages t f hf hv sub ht hs
        have hconf : Conforms S (field f.name) sub := (hm f hf hsingular).2.2 sub ht
        have hvalid : Valid env S (field f.name) sub → FieldValid env S f (field f.name) := by
          intro h
          refine ⟨hnone, fun _ sub' ht' => ?_⟩
          cases ht.symm.trans ht'
          exact h
        rw [if_pos hs]
        have hd := hcall f.name sub err hconf hnested hs
        cases hval : field f.name with
        | null =>
          rw [← hval]
          refine .inl ⟨hvalid (by simp [hval, Valid]), ?_⟩
          simp only [List.cons_append, List.nil_append, runBody, hval]
        | msg inner =>
          rw [← hval]
          refine hd.imp ?_ ?_
          · intro h
            refine ⟨hvalid h.1, ?_⟩
            simp only [List.cons_append, List.nil_append, runBody, hval, h.2]
          · intro h
            obtain ⟨text, hfirst, hrun⟩ := h
            refine ⟨text, .subMessage split before hv ht hfirst, ?_⟩
            simp only [List.cons_append, List.nil_append, runBody, hval, hrun]
        | _ =>
          rw [hval] at hconf
          exact hconf.elim
      · rw [if_neg hs]
        refine .inl ⟨⟨hnone, fun _ sub' ht' => ?_⟩, rfl⟩
        cases ht.symm.trans ht'
        exact valid_of_not_has hs
    | _ =>
      refine .inl ⟨⟨hnone, fun _ sub' ht' => by simp [ht] at ht'⟩, ?_⟩
      simp [generateFieldValidation, hv, ht]

/-- The statements of all the fields that are left. -/
theorem runBody_fields (hS : WellFormed S) {field : CString → Value} {t : Fin S.n}
    (hm : Conforms S (.msg field) t)
    {call : CString → CString → ErrStr → Option (Bool × ErrStr)}
    (hcall : ∀ name sub err, Conforms S (field name) sub → (S.descriptor sub).nested = false →
      messageHasValidation S sub = true →
      Decided env S (field name) sub err (call name (validateName S sub) err))
    (err : ErrStr) (post : List (Field S.n)) :
    ∀ pre, S.fields t = pre ++ post → (∀ g ∈ pre, FieldValid env S g (field g.name)) →
      Decided env S (.msg field) t err
        (runBody env field call (post.flatMap (generateFieldValidation S)) err) := by
  induction post with
  | nil =>
    intro pre split before
    refine .inl ⟨valid_msg.mpr ?_, rfl⟩
    rw [split, List.append_nil]
    exact before
  | cons f post ih =>
    intro pre split before
    rw [List.flatMap_cons]
    cases runBody_field hS hm hcall split before (post.flatMap (generateFieldValidation S)) err with
    | inl h =>
      rw [h.2]
      refine ih (pre ++ [f]) (by simp [split]) fun g hg => ?_
      cases List.mem_append.mp hg with
      | inl hg => exact before g hg
      | inr hg =>
        cases List.mem_singleton.mp hg
        exact h.1
    | inr h => exact .inr h

/-! ## The whole program -/

/-- A table with distinct keys is looked up under one of them. -/
theorem lookup_map {α κ ν : Type _} [BEq κ] [LawfulBEq κ] {key : α → κ} {value : α → ν} {a : α} :
    ∀ {l : List α}, a ∈ l → (∀ b ∈ l, key b = key a → b = a) →
      (l.map fun b => (key b, value b)).lookup (key a) = some (value a)
  | b :: l, ha, hinj => by
    rw [List.map_cons, List.lookup_cons]
    by_cases hk : key b = key a
    · cases hinj b (by simp) hk
      simp
    · have hne : (key a == key b) = false := beq_eq_false_iff_ne.mpr fun e => hk e.symm
      rw [hne]
      have hmem : a ∈ l := (List.mem_cons.mp ha).resolve_left fun e => hk (by rw [e])
      exact lookup_map hmem fun c hc => hinj c (by simp [hc])

/-- Every type with a validation function is found under its name. -/
theorem lookup_validateName (hS : WellFormed S) {t : Fin S.n}
    (htop : (S.descriptor t).nested = false) (hval : messageHasValidation S t = true) :
    (generateValidationDefinitions S).lookup (validateName S t) =
      some (generateFieldsValidation S t) := by
  refine lookup_map (by simp [htop, hval]) fun u hu he => ?_
  obtain ⟨hutop, huval⟩ : (S.descriptor u).nested = false ∧ messageHasValidation S u = true := by
    simpa using hu
  exact hS.distinct u t huval hval hutop htop he

/-- A generated function decides whether a message meets the constraints. -/
theorem callFunction_decided (hS : WellFormed S) {m : Value} :
    ∀ {t : Fin S.n}, (S.descriptor t).nested = false → messageHasValidation S t = true →
      Conforms S m t → ∀ err, Decided env S m t err
        (callFunction env (generateValidationDefinitions S) m (validateName S t) err) := by
  induction m with
  | null =>
    intro t htop hval _ err
    refine .inl ⟨trivial, ?_⟩
    simp only [callFunction, lookup_validateName hS htop hval, Option.map_some]
  | msg field ih =>
    intro t htop hval hm err
    simp only [callFunction, lookup_validateName hS htop hval]
    refine runBody_fields hS hm (fun name sub err hc hn hh => ?_) err (S.fields t) [] rfl (by simp)
    exact ih name hn hh hc err
  | int _ | str _ | other =>
    intro t _ _ hm
    exact hm.elim

/-- The generated validation functions mean what the schema says: on a message of
its type a function returns, with `true` and `err_str` untouched if the message
meets the constraints, and otherwise with `false` and the text of the first
constraint that fails. -/
theorem generated_validation_exact (env : Platform) (hS : WellFormed S) {t : Fin S.n}
    (htop : (S.descriptor t).nested = false) (hval : messageHasValidation S t = true) {m : Value}
    (hm : Conforms S m t) (err : ErrStr) :
    ∃ passed err', callFunction env (generateValidationDefinitions S) m (validateName S t) err =
        some (passed, err') ∧
      (passed = true ↔ Valid env S m t) ∧ (passed = true → err' = err) ∧
      (passed = false → ∃ text, FirstFailure env S m t text ∧ err' = err.map (snprintf text)) := by
  cases (callFunction_decided hS htop hval hm err : Decided env S m t err _) with
  | inl h => exact ⟨true, err, h.2, by simp [h.1], by simp, by simp⟩
  | inr h =>
    obtain ⟨text, hfirst, hrun⟩ := h
    exact ⟨false, _, hrun, by simp [hfirst.not_valid], by simp, fun _ => ⟨text, hfirst, rfl⟩⟩

/-! A recursive message type with a constrained sub-message, for tests. -/

def levelField : Field 2 :=
  ⟨cstr "level", .integer, true, some ⟨some 10, some 50, none, some (cstr "bad level")⟩⟩

def nextField : Field 2 := ⟨cstr "next", .message 0, true, none⟩

def innerField : Field 2 := ⟨cstr "inner", .message 1, true, none⟩

def sampleFields : Fin 2 → List (Field 2)
  | 0 => [nextField, innerField]
  | 1 => [levelField]

def sampleSchema : Schema where
  n := 2
  descriptor t := ⟨if t = 0 then cstr "cmsg.outer" else cstr "cmsg.inner", false, sampleFields t⟩

def sampleType : Fin sampleSchema.n := (0 : Fin 2)

/-- Of its fields only the level has an option. -/
theorem sampleFields_cases (t : Fin 2) {f : Field 2} (hf : f ∈ sampleFields t) :
    f = levelField ∨ f.validation = none ∧ f.singular = true := by
  revert t f
  simp [sampleFields, nextField, innerField]

theorem sampleSchema_wellFormed : WellFormed sampleSchema where
  subMessages := by
    intro t f hf hv _ _ _
    cases sampleFields_cases t hf with
    | inl h =>
      rw [h] at hv
      cases hv
    | inr h => exact ⟨rfl, h.2⟩
  integers := by
    intro t f hf v hv _
    cases sampleFields_cases t hf with
    | inl h =>
      rw [h]
      exact ⟨rfl, rfl⟩
    | inr h => cases h.1.symm.trans hv
  strings := by
    intro t f hf v hv hs
    cases sampleFields_cases t hf with
    | inl h =>
      rw [h] at hv
      cases hv
      cases hs
    | inr h => cases h.1.symm.trans hv
  distinct := by
    intro t u _ _ _ _
    revert t u
    decide +kernel
  formats := by
    intro t f hf v hv
    cases sampleFields_cases t hf with
    | inl h =>
      rw [h] at hv
      cases hv
      exact ⟨cstr "bad level", by decide +kernel⟩
    | inr h => cases h.1.symm.trans hv
  literals := by
    intro t f hf v hv
    cases sampleFields_cases t hf with
    | inl h =>
      rw [h] at hv
      cases hv
      decide +kernel
    | inr h => cases h.1.symm.trans hv

def sampleFieldValue (name : CString) : Value :=
  if name = cstr "inner" then .msg fun _ => .int 60 else .null

/-- A message with no next one, whose inner message has the level 60. -/
def sampleMessage : Value := .msg sampleFieldValue

theorem sampleFieldValue_next : sampleFieldValue (cstr "next") = .null := if_neg (by decide +kernel)

theorem sampleMessage_conforms : Conforms sampleSchema sampleMessage sampleType := by
  intro f hf _
  have hmem : f ∈ [nextField, innerField] := hf
  cases List.mem_pair.mp hmem with
  | inl h =>
    subst h
    refine ⟨fun h => (by cases h), fun h => (by cases h), fun sub _ => ?_⟩
    exact sampleFieldValue_next ▸ (trivial : Conforms sampleSchema .null sub)
  | inr h =>
    subst h
    refine ⟨fun h => (by cases h), fun h => (by cases h), fun sub hsub => ?_⟩
    cases hsub
    intro g hg _
    have hmem' : g ∈ [levelField] := hg
    cases List.mem_singleton.mp hmem'
    exact ⟨fun _ => ⟨60, rfl⟩, fun h => (by cases h), fun _ h => (by cases h)⟩

/-- Without the platform's functions, which this schema does not need. -/
def samplePlatform : Platform := ⟨fun _ => false, fun _ => false, fun _ => none, fun _ => false⟩

theorem generated_validation_exact_sample :
    ∃ passed err', callFunction samplePlatform (generateValidationDefinitions sampleSchema)
        sampleMessage (validateName sampleSchema sampleType) (some (List.replicate 12 0xff)) =
        some (passed, err') ∧
      (passed = true ↔ Valid samplePlatform sampleSchema sampleMessage sampleType) ∧
      (passed = true → err' = some (List.replicate 12 0xff)) ∧
      (passed = false → ∃ text,
        FirstFailure samplePlatform sampleSchema sampleMessage sampleType text ∧
          err' = (some (List.replicate 12 0xff) : ErrStr).map (snprintf text)) :=
  generated_validation_exact samplePlatform sampleSchema_wellFormed rfl (by decide +kernel)
    sampleMessage_conforms _

example : callFunction samplePlatform (generateValidationDefinitions sampleSchema) sampleMessage
    (validateName sampleSchema sampleType) (some (List.replicate 12 0xff)) =
    some (false, some (cstr "bad level" ++ [0, 0xff, 0xff])) := by decide +kernel

end Cmsg.Protoc
