import Cmsg.Sld.ApiRuns

/-! # That listeners catch up

From every state that is reached, the threads of the process alone bring a listener up to
date: the event server receives what is on the way and writes to the descriptors, and the
thread of the listener, which looks at its queue only when its descriptor says so, never
sleeps while events wait. -/
namespace Cmsg.Sld.Api
open Cmsg.Base Cmsg.Base.Runs

variable {Config UserData Action : Type}

/-- The steps of the threads. -/
def Delivery (s : System UserData) : Input Config Action → Prop
  | .receive _ => True
  | .eventfdWrite => True
  | .process info => ∃ entry, s.lookup info = some entry ∧ 0 < entry.eventfd
  | .pop _ => True
  | _ => False

variable {p : Process} {app : Application Config UserData Action}
  {I : List Wait.SlEvent → UserData → Prop} {names : List CString} {s s' t : System UserData}
  {log log' log'' : List Handled} {entry : SlInfo UserData} {info : Nat}

/-- A run of deliveries; the daemon has no part in it. -/
structure Delivers (p : Process) (app : Application Config UserData Action)
    (I : List Wait.SlEvent → UserData → Prop) (names : List CString) (s : System UserData)
    (log : List Handled) (s' : System UserData) (log' : List Handled) : Prop where
  run : ∃ inputs o, Guarded (step p app) Delivery s inputs ∧
    exec (step p app) s inputs = some (s', o) ∧ log' = log ++ o
  daemon : s'.daemon = s.daemon
  inv : SystemInv p app I names s' log'

theorem delivers_refl (h : SystemInv p app I names s log) : Delivers p app I names s log s log :=
  ⟨⟨[], [], guarded_nil _ _ _, rfl, (List.append_nil log).symm⟩, rfl, h⟩

theorem Delivers.trans (h : Delivers p app I names s log s' log')
    (h' : Delivers p app I names s' log' t log'') : Delivers p app I names s log t log'' := by
  obtain ⟨inputs, o, hguard, he, hlog⟩ := h.run
  obtain ⟨inputs', o', hguard', he', hlog'⟩ := h'.run
  refine ⟨⟨inputs ++ inputs', o ++ o', ?_, ?_, ?_⟩, h'.daemon.trans h.daemon, h'.inv⟩
  · refine guarded_append.mpr ⟨hguard, fun t₁ os ht => ?_⟩
    obtain ⟨rfl, _⟩ := Prod.mk.inj (Option.some.inj (he.symm.trans ht))
    exact hguard'
  · exact exec_append.mpr ⟨s', o, o', he, he', rfl⟩
  · rw [hlog', hlog, List.append_assoc]

theorem listened_of_delivery {i : Input Config Action} (h : Delivery s i) : listened [i] = [] := by
  cases i with
  | listen serviceName config => exact h.elim
  | unlisten info => rfl
  | request k sends => rfl
  | requestLost k => rfl
  | other op sends => rfl
  | receive client => rfl
  | eventfdWrite => rfl
  | process info => rfl
  | pop info => rfl
  | application info action => rfl

theorem delivers_step (h : SystemInv p app I names s log) (hkeeps : Keeps app I)
    (hcount : names.length ≤ 2 ^ 32) {i : Input Config Action} {o : List Handled}
    (hi : Delivery s i) (hs : step p app s i = some (s', o)) (hdaemon : s'.daemon = s.daemon) :
    Delivers p app I names s log s' (log ++ o) := by
  have hnone := listened_of_delivery hi
  have hstep := systemInv_step (i := i) hkeeps h (by rwa [hnone, List.append_nil])
    (fun op sends hop => ?_) hs
  · rw [hnone, List.append_nil] at hstep
    refine ⟨⟨[i], o, ?_, ?_, rfl⟩, hdaemon, hstep⟩
    · exact guarded_cons.mpr ⟨hi, fun _ _ _ => guarded_nil _ _ _⟩
    · exact exec_cons.mpr ⟨s', o, [], hs, rfl, (List.append_nil o).symm⟩
  · rw [hop] at hi
    exact hi.elim

/-! ## Entries -/

theorem lookup_modify {f : SlInfo UserData → SlInfo UserData}
    (hinfo : ∀ entry, (f entry).info = entry.info) (info info' : Nat) :
    (s.modify info f).lookup info' =
      (s.lookup info').map fun entry => if entry.info == info then f entry else entry := by
  unfold System.lookup System.modify
  rw [List.find?_map]
  refine congrArg _ (congrArg (List.find? · s.listenerList) (funext fun entry => ?_))
  rw [Function.comp_apply]
  split
  · rw [hinfo]
  · rfl

/-- What does not change about a listener: its registration, and a part `g` of its user data. -/
def SlInfo.fixed {γ : Type} (g : UserData → γ) (entry : SlInfo UserData) : Registration × γ :=
  (entry.registration, g entry.userData)

section
variable {γ : Type} {g : UserData → γ} {fixed : Registration × γ}

/-- A listener that is there. -/
def Present (g : UserData → γ) (s : System UserData) (info : Nat) (fixed : Registration × γ) :
    Prop :=
  ∃ entry, s.lookup info = some entry ∧ entry.fixed g = fixed

theorem Present.modify (h : Present g s info fixed) {f : SlInfo UserData → SlInfo UserData}
    (hinfo : ∀ entry, (f entry).info = entry.info)
    (hfixed : ∀ entry, (f entry).fixed g = entry.fixed g) (info' : Nat) :
    Present g (s.modify info' f) info fixed := by
  obtain ⟨entry, hentry, hr⟩ := h
  refine ⟨if entry.info == info' then f entry else entry, ?_, ?_⟩
  · rw [lookup_modify hinfo, hentry]
    rfl
  · split
    · rw [hfixed, hr]
    · exact hr

/-! ## The event server -/

theorem step_eventfdWrite {next : Nat} {toWrite : List Nat} (hwrite : s.toWrite = next :: toWrite) :
    step p app s .eventfdWrite =
      some (({ s with toWrite } : System UserData).modify next fun entry =>
        { entry with eventfd := entry.eventfd + 1 }, []) := by
  simp only [step]
  rw [hwrite]

/-- The event server writes to the descriptors. -/
theorem delivers_writes (hkeeps : Keeps app I) (hcount : names.length ≤ 2 ^ 32)
    (toWrite : List Nat) : ∀ {s : System UserData}, SystemInv p app I names s log →
      Present g s info fixed → s.toWrite = toWrite →
      ∃ t, Delivers p app I names s log t log ∧ t.toWrite = [] ∧ t.connections = s.connections ∧
        Present g t info fixed := by
  induction toWrite with
  | nil => exact fun h hpresent hwrite => ⟨_, delivers_refl h, hwrite, rfl, hpresent⟩
  | cons next toWrite ih =>
    intro s h hpresent hwrite
    have hone := delivers_step h hkeeps hcount (i := .eventfdWrite) trivial
      (step_eventfdWrite hwrite) rfl
    rw [List.append_nil] at hone
    have hthere : Present g (({ s with toWrite } : System UserData).modify next fun entry =>
        { entry with eventfd := entry.eventfd + 1 }) info fixed :=
      Present.modify (s := { s with toWrite })
        (f := fun entry => { entry with eventfd := entry.eventfd + 1 }) hpresent
        (fun _ => rfl) (fun _ => rfl) next
    obtain ⟨t, hrest, hnone, hconnections, hpresent'⟩ := ih hone.inv hthere rfl
    exact ⟨t, hone.trans hrest, hnone, hconnections, hpresent'⟩

theorem lookup_map {f : SlInfo UserData → SlInfo UserData}
    (hinfo : ∀ entry, (f entry).info = entry.info) (l : List (SlInfo UserData)) (info : Nat) :
    (l.map f).find? (fun entry => entry.info == info) =
      (l.find? fun entry => entry.info == info).map f := by
  rw [List.find?_map]
  refine congrArg _ (congrArg (List.find? · l) (funext fun entry => ?_))
  rw [Function.comp_apply, hinfo]

theorem pushed_info (g : UserData → γ) (id : UInt32) (event : Wait.SlEvent)
    (entry : SlInfo UserData) :
    (pushed id event entry).info = entry.info ∧
      (pushed id event entry).fixed g = entry.fixed g := by
  unfold pushed
  split
  · exact ⟨rfl, rfl⟩
  · exact ⟨rfl, rfl⟩

/-- The next message on a connection to the event server can be received. -/
theorem receive_some (h : SystemInv p app I names s log) (hpresent : Present g s info fixed)
    (hnowrite : s.toWrite = []) {client : Nat} {connection : Connection}
    (hc : s.connections[client]? = some connection) (ht : connection.transport = p.eventServer)
    (hlt : connection.received < (s.sent client connection).length) :
    ∃ id listenerList, s.receive p client = some (s.advance client connection id listenerList) ∧
      Present g (s.advance client connection id listenerList) info fixed := by
  obtain ⟨entry, hentry, hr⟩ := hpresent
  have hsome := List.getElem?_eq_getElem hlt
  obtain ⟨_, hcopies⟩ := h.sent hc (List.getElem_mem hlt)
  obtain ⟨transport, htransport, _⟩ := transportInfoToTransport_of_copies hcopies
  have hnotempty : s.listenerList.isEmpty = false := by
    cases hl : s.listenerList with
    | nil =>
      rw [System.lookup, hl] at hentry
      cases hentry
    | cons entry entries => rfl
  have hreceive : s.receive p client = (notifyListener s.listenerList
      ((s.sent client connection)[connection.received]).subject
      ((s.sent client connection)[connection.received]).isAdded).map (s.advance client connection
        ((s.sent client connection)[connection.received]).subject.id) := by
    unfold System.receive
    rw [hc]
    dsimp only
    rw [if_pos ⟨ht, hnotempty, by rw [hnowrite]; rfl⟩, hsome]
  generalize (s.sent client connection)[connection.received] = change at *
  cases hnotify : notifyListener s.listenerList change.subject change.isAdded with
  | none =>
    unfold notifyListener at hnotify
    rw [htransport] at hnotify
    split at hnotify
    · cases hnotify
    · cases hnotify
  | some listenerList =>
    rw [hnotify] at hreceive
    refine ⟨change.subject.id, listenerList, hreceive, ?_⟩
    cases notifyListener_eq hnotify with
    | inl hpushed =>
      obtain ⟨event, _, rfl⟩ := hpushed
      refine ⟨pushed change.subject.id event entry, ?_, (pushed_info g _ _ _).2.trans hr⟩
      show (s.listenerList.map (pushed change.subject.id event)).find? _ = _
      rw [lookup_map fun entry => (pushed_info g _ _ entry).1]
      exact congrArg (Option.map _) hentry
    | inr hsame =>
      rw [hsame.2]
      exact ⟨entry, hentry, hr⟩

/-- The event server receives all that is on the way on a connection. -/
theorem delivers_receives (hkeeps : Keeps app I) (hcount : names.length ≤ 2 ^ 32) {client : Nat}
    (left : Nat) : ∀ {s : System UserData} {connection : Connection},
      SystemInv p app I names s log → Present g s info fixed →
      s.connections[client]? = some connection → connection.transport = p.eventServer →
      (s.sent client connection).length - connection.received = left →
      ∃ t connection', Delivers p app I names s log t log ∧ t.toWrite = [] ∧
        t.connections[client]? = some connection' ∧ connection'.transport = p.eventServer ∧
        connection'.received = (t.sent client connection').length ∧
        Present g t info fixed := by
  induction left with
  | zero =>
    intro s connection h hpresent hc ht hleft
    obtain ⟨t, hwrites, hnone, hconnections, hpresent'⟩ :=
      delivers_writes hkeeps hcount s.toWrite h hpresent rfl
    have hsent : t.sent client connection = s.sent client connection := by
      unfold System.sent
      rw [hwrites.daemon]
    refine ⟨t, connection, hwrites, hnone, by rw [hconnections, hc], ht, ?_, hpresent'⟩
    have hle := h.received client connection hc
    rw [hsent]
    omega
  | succ left ih =>
    intro s connection h hpresent hc ht hleft
    obtain ⟨t, hwrites, hnone, hconnections, hpresent'⟩ :=
      delivers_writes hkeeps hcount s.toWrite h hpresent rfl
    have hsent : t.sent client connection = s.sent client connection := by
      unfold System.sent
      rw [hwrites.daemon]
    have hc' : t.connections[client]? = some connection := by rw [hconnections, hc]
    obtain ⟨id, listenerList, hreceive, hthere⟩ := receive_some hwrites.inv hpresent' hnone hc' ht
      (by rw [hsent]; omega)
    have hone := delivers_step hwrites.inv hkeeps hcount (i := .receive client) (o := []) trivial
      (congrArg (Option.map fun s => (s, [])) hreceive) rfl
    rw [List.append_nil] at hone
    have hleft' : ((t.advance client connection id listenerList).sent client
        { connection with received := connection.received + 1 }).length -
          (connection.received + 1) = left := by
      have hsame : (t.advance client connection id listenerList).sent client
          { connection with received := connection.received + 1 } = t.sent client connection := rfl
      rw [hsame, hsent]
      omega
    obtain ⟨u, connection', hrest, hnone', hc'', ht', hall, hpresent''⟩ :=
      ih hone.inv hthere (advance_getElem?_self hc' id listenerList) ht hleft'
    exact ⟨u, connection', (hwrites.trans hone).trans hrest, hnone', hc'', ht', hall, hpresent''⟩

/-! ## The thread of a listener -/

theorem step_pop (hentry : s.lookup info = some entry) (hprocessing : entry.processing = true)
    (app : Application Config UserData Action) :
    step p app s (.pop info) = some (s.pop app entry) := by
  simp only [step]
  rw [hentry]
  dsimp only
  rw [if_pos hprocessing]

/-- The loop handles all that is queued, as long as no handler ends it. -/
theorem delivers_pops (hkeeps : Keeps app I) (hcount : names.length ≤ 2 ^ 32)
    (hnever : ∀ userData event, (app.handler userData event).2 = true)
    (hg : ∀ userData event, g (app.handler userData event).1 = g userData)
    (queue : List Wait.SlEvent) : ∀ {s : System UserData} {log : List Handled}
      {entry : SlInfo UserData}, SystemInv p app I names s log → s.lookup info = some entry →
      entry.processing = true → entry.queue = queue → entry.fixed g = fixed →
      ∃ t log' entry', Delivers p app I names s log t log' ∧ t.connections = s.connections ∧
        t.lookup info = some entry' ∧ entry'.fixed g = fixed ∧ entry'.queue = [] := by
  induction queue with
  | nil => exact fun h hentry _ hq hfixed =>
      ⟨_, _, _, delivers_refl h, rfl, hentry, hfixed, hq⟩
  | cons event queue ih =>
    intro s log entry h hentry hprocessing hq hfixed
    obtain ⟨_, hinfo⟩ := lookup_some hentry
    have hstep := step_pop (p := p) hentry hprocessing app
    have hpop : s.pop app entry = (s.modify entry.info fun old =>
        { old with
          queue, userData := (app.handler entry.userData event).1
          processing := (app.handler entry.userData event).2
          stopped := !(app.handler entry.userData event).2 }, [⟨entry.info, event⟩]) := by
      rw [System.pop, hq]
    rw [hpop] at hstep
    have hone := delivers_step h hkeeps hcount (i := .pop info) trivial hstep rfl
    have hnext := lookup_modify (s := s) (f := fun old : SlInfo UserData =>
      { old with
        queue, userData := (app.handler entry.userData event).1
        processing := (app.handler entry.userData event).2
        stopped := !(app.handler entry.userData event).2 }) (fun _ => rfl) entry.info info
    rw [hentry] at hnext
    simp only [Option.map_some, beq_self_eq_true, if_true] at hnext
    have hfixed' : (entry.registration, g (app.handler entry.userData event).1) = fixed := by
      rw [hg]
      exact hfixed
    obtain ⟨t, log', entry', hrest, hconnections, hentry', hfixed'', hempty⟩ :=
      ih hone.inv hnext (hnever _ _) rfl hfixed'
    exact ⟨t, log', entry', hone.trans hrest, hconnections, hentry', hfixed'', hempty⟩

/-- The thread is woken for what is queued, and handles it. -/
theorem delivers_queue (hkeeps : Keeps app I) (hcount : names.length ≤ 2 ^ 32)
    (hnever : ∀ userData event, (app.handler userData event).2 = true)
    (hg : ∀ userData event, g (app.handler userData event).1 = g userData)
    (h : SystemInv p app I names s log) (hpresent : Present g s info fixed)
    (hnowrite : s.toWrite = []) :
    ∃ t log' entry', Delivers p app I names s log t log' ∧ t.connections = s.connections ∧
      t.lookup info = some entry' ∧ entry'.fixed g = fixed ∧ entry'.queue = [] := by
  obtain ⟨entry, hentry, hfixed⟩ := hpresent
  obtain ⟨hmem, hinfo⟩ := lookup_some hentry
  cases hprocessing : entry.processing with
  | true =>
    exact delivers_pops hkeeps hcount hnever hg entry.queue h hentry hprocessing rfl hfixed
  | false =>
    cases hq : entry.queue with
    | nil => exact ⟨s, log, entry, delivers_refl h, rfl, hentry, hfixed, hq⟩
    | cons event queue =>
      have hinv := h.entries entry hmem
      have hwoken : 0 < entry.eventfd := by
        cases hinv.wakes (by rw [hq]; exact List.cons_ne_nil _ _) with
        | inl hfd => exact hfd
        | inr hother =>
          rw [hnowrite, hprocessing] at hother
          have hstopped : entry.stopped = true := by simpa using hother
          obtain ⟨userData, event, hret⟩ := hinv.stops hstopped
          rw [hnever] at hret
          cases hret
      have hstep : step p app s (.process info) = some (s.modify info fun entry =>
          { entry with eventfd := 0, processing := true, stopped := false }, []) := by
        simp only [step]
        rw [hentry]
        dsimp only
        rw [hprocessing]
        rfl
      have hone := delivers_step h hkeeps hcount (i := .process info) ⟨entry, hentry, hwoken⟩
        hstep rfl
      have hnext := lookup_modify (s := s) (f := fun entry : SlInfo UserData =>
        { entry with eventfd := 0, processing := true, stopped := false }) (fun _ => rfl) info info
      rw [hentry] at hnext
      simp only [Option.map_some, hinfo, beq_self_eq_true, if_true] at hnext
      obtain ⟨t, log', entry', hrest, hconnections, hentry', hfixed', hempty⟩ :=
        delivers_pops hkeeps hcount hnever hg entry.queue hone.inv hnext rfl rfl hfixed
      exact ⟨t, log', entry', hone.trans hrest, hconnections, hentry', hfixed', hempty⟩

/-! ## Catching up -/

/-- The daemon has the registration of a listener. -/
def Registered (p : Process) (s : System UserData) (entry : SlInfo UserData) : Prop :=
  ∃ l ∈ listenersOf s.daemon entry.serviceName, l.id = entry.id ∧
    ∃ connection, s.connections[l.client]? = some connection ∧ connection.transport = p.eventServer

/-- The deliveries bring a listener up to date. -/
theorem delivers_upToDate (hkeeps : Keeps app I) (hcount : names.length ≤ 2 ^ 32)
    (hnever : ∀ userData event, (app.handler userData event).2 = true)
    (hg : ∀ userData event, g (app.handler userData event).1 = g userData)
    (h : SystemInv p app I names s log) (hmem : entry ∈ s.listenerList)
    (hregistered : Registered p s entry) :
    ∃ t log' entry', Delivers p app I names s log t log' ∧ entry' ∈ t.listenerList ∧
      entry'.info = entry.info ∧ entry'.fixed g = entry.fixed g ∧ UpToDate p t entry' ∧
      entry'.queue = [] := by
  obtain ⟨l, hl, hid, connection, hc, ht⟩ := hregistered
  have hentry : s.lookup entry.info = some entry := by
    obtain ⟨found, hfound⟩ := Option.isSome_iff_exists.mp (List.find?_isSome
      (p := fun other : SlInfo UserData => other.info == entry.info).mpr
        ⟨entry, hmem, beq_self_eq_true _⟩)
    obtain ⟨hfoundMem, hinfo⟩ := lookup_some (s := s) hfound
    rw [System.lookup, hfound, List.inj_on_of_nodup_map h.distinct hfoundMem hmem hinfo]
  obtain ⟨t, connection', hreceives, hnowrite, hc', ht', hall, hpresent⟩ :=
    delivers_receives hkeeps hcount _ h (g := g) ⟨entry, hentry, rfl⟩ hc ht rfl
  obtain ⟨u, log', entry', hqueue, hconnections, hentry', hfixed, hempty⟩ :=
    delivers_queue hkeeps hcount hnever hg hreceives.inv hpresent hnowrite
  obtain ⟨hmem', hinfo'⟩ := lookup_some hentry'
  have hsame : entry'.registration = entry.registration := (Prod.mk.inj hfixed).1
  have hname : entry'.serviceName = entry.serviceName := (Registration.mk.inj hsame).1
  refine ⟨u, log', entry', hreceives.trans hqueue, hmem', hinfo', hfixed, ?_, hempty⟩
  refine ⟨l, ?_, ?_, connection', by rw [hconnections, hc'], ht', ?_⟩
  · rw [hname, hqueue.daemon, hreceives.daemon]
    exact hl
  · rw [hid]
    exact (Registration.mk.inj hsame).2.symm
  · rw [hall]
    unfold System.sent
    rw [hqueue.daemon]

end
end Cmsg.Sld.Api
