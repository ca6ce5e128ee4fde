import Cmsg.Transport.Info

/-! # Waiting for a server

`cmsg_service_listener_wait_for_tcp_server` polls until its handler stops the processing of
events; `cmsg_service_listener_wait_for_unix_server` processes what there is once there is
something. Both are followed with a clock that does not advance while events are processed,
so that only the arrival of events and the time-outs matter. -/
namespace Cmsg.Sld.Wait
open Cmsg.Base

/-! ## Events -/

/-- `cmsg_sl_event` -/
structure SlEvent where
  added : Bool
  transport : Transport

/-- Events that are pushed at one time, in nanoseconds since the call. They are popped
together. -/
structure Burst where
  time : Nat
  events : List SlEvent
  events_ne : events ≠ []

/-- The events that the daemon sends for a service, in the order of their arrival. -/
structure Arrivals where
  bursts : List Burst
  sorted : bursts.Pairwise fun a b => a.time < b.time

/-- The loop of `cmsg_service_listener_event_queue_process`, with the user data of the
handler. -/
def eventQueueProcess {UserData : Type} (handler : UserData → SlEvent → UserData × Bool) :
    UserData → List SlEvent → UserData × Bool
  | userData, [] => (userData, true)
  | userData, event :: queue =>
    let (userData, ret) := handler userData event
    if ret then eventQueueProcess handler userData queue else (userData, false)

/-- What became of a wait: an overflow, a wait without end, or a result and the time. -/
inductive Outcome
  | undefined
  | blocks
  | returns (found : Bool) (time : Nat)
deriving DecidableEq, Repr

/-! ## Tcp servers -/

/-- The test of `cmsg_sl_listener_tcp_wait_cb`, on the bytes where an IPv4 address lies. -/
def tcpFound (addr : UInt32) (event : SlEvent) : Bool :=
  match event.transport with
  | .tcp _ sockaddr _ => sockaddr.sinAddr == addr
  | .unix _ _ => false

/-- `cmsg_sl_listener_tcp_wait_cb` -/
def tcpWaitCb (addr : UInt32) (userData : Unit) (event : SlEvent) : Unit × Bool :=
  (userData, !tcpFound addr event)

/-- What is subtracted from the time to wait at a time of the clock, which showed `start` at
the call: the milliseconds since then, with the nanoseconds rounded towards zero. -/
def elapsed (start now : Nat) : Int :=
  (((start + now) / 1000000000 : Nat) - (start / 1000000000 : Nat) : Int) * 1000 +
    Int.tdiv (((start + now) % 1000000000 : Nat) - (start % 1000000000 : Nat) : Int) 1000000

/-- The loop of `cmsg_service_listener_wait_for_tcp_server`. -/
def tcpWaitLoop (addr : UInt32) (start : Nat) : (timeToWait : Int) → (now : Nat) →
    List Burst → Outcome
  | timeToWait, now, [] => .returns false (now + (timeToWait * 1000000).toNat)
  | timeToWait, now, burst :: bursts =>
    if 0 < timeToWait then
      if (burst.time : Int) < now + timeToWait * 1000000 then
        if (eventQueueProcess (tcpWaitCb addr) () burst.events).2 then
          tcpWaitLoop addr start (timeToWait - elapsed start burst.time) burst.time bursts
        else .returns true burst.time
      else .returns false (now + (timeToWait * 1000000).toNat)
    else .returns false now

/-- `cmsg_service_listener_wait_for_tcp_server`. The product of two `int`s can overflow. -/
def waitForTcpServer (addr : UInt32) (start : Nat) (seconds : Int) (a : Arrivals) : Outcome :=
  if -2 ^ 31 ≤ seconds * 1000 ∧ seconds * 1000 < 2 ^ 31 then
    tcpWaitLoop addr start (seconds * 1000) 0 a.bursts
  else .undefined

/-! ## Unix servers -/

/-- `cmsg_sl_listener_unix_wait_cb`: the result is that of the last event. -/
def unixWaitCb (_ret : Bool) (event : SlEvent) : Bool × Bool :=
  match event.transport with
  | .unix _ _ => (true, true)
  | .tcp _ _ _ => (false, true)

/-- `cmsg_service_listener_wait_for_unix_server`. `select` fails for a negative time. -/
def waitForUnixServer (seconds : Int) (a : Arrivals) : Outcome :=
  match a.bursts with
  | [] => if seconds = -1 then .blocks else .returns false (seconds * 1000000000).toNat
  | burst :: _ =>
    if seconds = -1 ∨ (0 ≤ seconds ∧ (burst.time = 0 ∨ burst.time < seconds * 1000000000)) then
      .returns (eventQueueProcess unixWaitCb false burst.events).1 burst.time
    else .returns false (seconds * 1000000000).toNat

/-! ## What the functions are for -/

/-- The server with this IPv4 address was added. -/
def TcpWanted (addr : UInt32) (event : SlEvent) : Prop :=
  event.added = true ∧ ∃ oneWay sockaddr dev,
    event.transport = .tcp oneWay sockaddr dev ∧ sockaddr.ipAddr = .ipv4 addr

/-- A unix server was added. -/
def UnixWanted (event : SlEvent) : Prop :=
  event.added = true ∧ ∃ oneWay path, event.transport = .unix oneWay path

/-- Before the time has elapsed; for 0, what is there at the call. -/
def InTime (seconds : Int) (time : Nat) : Prop :=
  seconds = -1 ∨ (seconds = 0 ∧ time = 0) ∨ (time : Int) < seconds * 1000000000

def Burst.Holds (wanted : SlEvent → Prop) (burst : Burst) : Prop :=
  ∃ event ∈ burst.events, wanted event

/-- No event that is waited for arrives in time. -/
def NeverArrives (wanted : SlEvent → Prop) (seconds : Int) (a : Arrivals) : Prop :=
  ∀ burst ∈ a.bursts, InTime seconds burst.time → ¬ burst.Holds wanted

/-- The wait ends with success only once an event that is waited for has arrived in time, and
without success only if there is none; it does not end for -1, and does not take time for 0. -/
def Waits (wanted : SlEvent → Prop) (seconds : Int) (a : Arrivals) : Outcome → Prop
  | .undefined => False
  | .blocks => seconds = -1 ∧ NeverArrives wanted seconds a
  | .returns true time => (seconds = 0 → time = 0) ∧
      ∃ burst ∈ a.bursts, burst.time ≤ time ∧ InTime seconds burst.time ∧ burst.Holds wanted
  | .returns false time => (seconds = 0 → time = 0) ∧ seconds ≠ -1 ∧ NeverArrives wanted seconds a

theorem InTime.mono {seconds : Int} {t t' : Nat} (h : InTime seconds t') (hle : t ≤ t') :
    InTime seconds t := by
  rcases h with h | ⟨h, h0⟩ | h
  · exact .inl h
  · exact .inr (.inl ⟨h, by omega⟩)
  · exact .inr (.inr (by omega))

theorem eq_zero_of_inTime {seconds : Int} {time : Nat} (h : InTime seconds time)
    (h0 : seconds = 0) : time = 0 := by
  subst h0
  rcases h with h | ⟨_, h⟩ | h
  · cases h
  · exact h
  · omega

/-! ## The loop over the bursts -/

/-- The events of the burst stop the loop. -/
def Stops (addr : UInt32) (burst : Burst) : Prop := burst.Holds fun event => tcpFound addr event = true

/-- All that is subtracted at the bursts. -/
def totalElapsed (start : Nat) (bursts : List Burst) : Int :=
  bursts.foldr (fun burst total => elapsed start burst.time + total) 0

/-- Every burst arrives before the poll that waits for it is given up: the time that is left
after some bursts is what was left at first, less what had elapsed at each of them. -/
def InBudget (start : Nat) (timeToWait : Int) (now : Nat) (bursts : List Burst) : Prop :=
  ∀ before burst after, bursts = before ++ burst :: after →
    (burst.time : Int) < ((before.map (·.time)).getLastD now : Nat) +
      (timeToWait - totalElapsed start before) * 1000000

/-- The burst is the first one that stops the loop, and the loop gets that far. -/
def Reached (addr : UInt32) (start : Nat) (timeToWait : Int) (now : Nat) (bursts : List Burst)
    (burst : Burst) : Prop :=
  ∃ before after, bursts = before ++ burst :: after ∧ (∀ b ∈ before, ¬ Stops addr b) ∧
    Stops addr burst ∧ InBudget start timeToWait now (before ++ [burst])

section
variable {addr : UInt32} {start : Nat}

theorem eventQueueProcess_tcp (events : List SlEvent) :
    (eventQueueProcess (tcpWaitCb addr) () events).2 = true ↔
      ∀ event ∈ events, ¬ tcpFound addr event = true := by
  induction events with
  | nil => simp [eventQueueProcess]
  | cons event events ih =>
    cases hfound : tcpFound addr event with
    | true =>
      have hstep : eventQueueProcess (tcpWaitCb addr) () (event :: events) = ((), false) := by
        rw [eventQueueProcess, tcpWaitCb, hfound]
        rfl
      simp [hstep, hfound]
    | false =>
      have hstep : eventQueueProcess (tcpWaitCb addr) () (event :: events) =
          eventQueueProcess (tcpWaitCb addr) () events := by
        rw [eventQueueProcess, tcpWaitCb, hfound]
        rfl
      rw [hstep, ih]
      simp [hfound]

theorem stops_iff (burst : Burst) :
    Stops addr burst ↔ ¬ (eventQueueProcess (tcpWaitCb addr) () burst.events).2 = true := by
  rw [eventQueueProcess_tcp]
  unfold Stops Burst.Holds
  push Not
  rfl

@[simp] theorem totalElapsed_nil : totalElapsed start [] = 0 := rfl

theorem totalElapsed_cons (burst : Burst) (bursts : List Burst) :
    totalElapsed start (burst :: bursts) =
      elapsed start burst.time + totalElapsed start bursts := rfl

theorem inBudget_cons {timeToWait : Int} {now : Nat} {burst : Burst} {bursts : List Burst} :
    InBudget start timeToWait now (burst :: bursts) ↔
      (burst.time : Int) < now + timeToWait * 1000000 ∧
        InBudget start (timeToWait - elapsed start burst.time) burst.time bursts := by
  constructor
  · intro h
    refine ⟨by simpa using h [] burst bursts rfl, fun before b after hsplit => ?_⟩
    have hb := h (burst :: before) b after (by rw [hsplit]; rfl)
    rw [List.map_cons, List.getLastD_cons, totalElapsed_cons] at hb
    rw [Int.sub_sub]
    exact hb
  · rintro ⟨hfirst, hrest⟩ before b after hsplit
    cases before with
    | nil =>
      obtain ⟨rfl, rfl⟩ := List.cons.inj hsplit
      simpa using hfirst
    | cons b' before =>
      obtain ⟨rfl, htail⟩ := List.cons.inj hsplit
      have hb := hrest before b after htail
      rw [List.map_cons, List.getLastD_cons, totalElapsed_cons, ← Int.sub_sub]
      exact hb

theorem not_reached_nil {timeToWait : Int} {now : Nat} {burst : Burst} :
    ¬ Reached addr start timeToWait now [] burst := by
  rintro ⟨before, after, h, _⟩
  cases before with
  | nil => cases h
  | cons b before => cases h

theorem reached_cons {timeToWait : Int} {now : Nat} {first burst : Burst} {bursts : List Burst} :
    Reached addr start timeToWait now (first :: bursts) burst ↔
      (first.time : Int) < now + timeToWait * 1000000 ∧
        ((Stops addr first ∧ burst = first) ∨ (¬ Stops addr first ∧
          Reached addr start (timeToWait - elapsed start first.time) first.time bursts burst)) := by
  constructor
  · rintro ⟨before, after, hsplit, hbefore, hstops, hbudget⟩
    cases before with
    | nil =>
      obtain ⟨rfl, rfl⟩ := List.cons.inj hsplit
      exact ⟨(inBudget_cons.mp hbudget).1, .inl ⟨hstops, rfl⟩⟩
    | cons b before =>
      obtain ⟨rfl, rfl⟩ := List.cons.inj hsplit
      obtain ⟨hfirst, hrest⟩ := inBudget_cons.mp hbudget
      exact ⟨hfirst, .inr ⟨hbefore _ List.mem_cons_self,
        before, after, rfl, fun b hb => hbefore b (List.mem_cons_of_mem _ hb), hstops, hrest⟩⟩
  · rintro ⟨hfirst, ⟨hstops, rfl⟩ | ⟨hgoes, before, after, rfl, hbefore, hstops, hbudget⟩⟩
    · refine ⟨[], bursts, rfl, fun b hb => (by cases hb), hstops, ?_⟩
      refine inBudget_cons.mpr ⟨hfirst, fun before b after h => ?_⟩
      cases before with
      | nil => cases h
      | cons b' before => cases h
    · refine ⟨first :: before, after, rfl, fun b hb => ?_, hstops,
        inBudget_cons.mpr ⟨hfirst, hbudget⟩⟩
      rcases List.mem_cons.mp hb with rfl | hb
      · exact hgoes
      · exact hbefore b hb

/-- The loop ends with success at the burst that is reached, and without it if there is none. -/
theorem tcpWaitLoop_spec (bursts : List Burst) : ∀ (timeToWait : Int) (now : Nat),
    bursts.Pairwise (fun a b => a.time < b.time) → (∀ b ∈ bursts, now ≤ b.time) →
    (∀ burst, Reached addr start timeToWait now bursts burst →
      tcpWaitLoop addr start timeToWait now bursts = .returns true burst.time) ∧
    ((∀ burst, ¬ Reached addr start timeToWait now bursts burst) →
      ∃ time, tcpWaitLoop addr start timeToWait now bursts = .returns false time ∧
        (timeToWait ≤ 0 → time = now)) := by
  induction bursts with
  | nil =>
    intro timeToWait now _ _
    exact ⟨fun burst h => absurd h not_reached_nil, fun _ => ⟨_, rfl, fun h => by omega⟩⟩
  | cons first bursts ih =>
    intro timeToWait now hsorted hnow
    obtain ⟨hlater, hsorted⟩ := List.pairwise_cons.mp hsorted
    have hfirst := hnow first List.mem_cons_self
    unfold tcpWaitLoop
    by_cases hleft : 0 < timeToWait
    · rw [if_pos hleft]
      by_cases hwakes : (first.time : Int) < now + timeToWait * 1000000
      · rw [if_pos hwakes]
        by_cases hstops : Stops addr first
        · rw [if_neg ((stops_iff first).mp hstops)]
          refine ⟨fun burst h => ?_, fun h => absurd (reached_cons.mpr ⟨hwakes, .inl ⟨hstops, rfl⟩⟩)
            (h first)⟩
          rcases (reached_cons.mp h).2 with ⟨_, rfl⟩ | ⟨hgoes, _⟩
          · rfl
          · exact absurd hstops hgoes
        · rw [if_pos (not_not.mp (mt (stops_iff first).mpr hstops))]
          obtain ⟨hfound, hnone⟩ := ih (timeToWait - elapsed start first.time) first.time hsorted
            fun b hb => Nat.le_of_lt (hlater b hb)
          refine ⟨fun burst h => ?_, fun h => ?_⟩
          · rcases (reached_cons.mp h).2 with ⟨hs, _⟩ | ⟨_, hreached⟩
            · exact absurd hs hstops
            · exact hfound burst hreached
          · obtain ⟨time, htime, _⟩ := hnone fun burst hb =>
              h burst (reached_cons.mpr ⟨hwakes, .inr ⟨hstops, hb⟩⟩)
            exact ⟨time, htime, fun hle => by omega⟩
      · rw [if_neg hwakes]
        exact ⟨fun burst h => absurd (reached_cons.mp h).1 hwakes, fun _ =>
          ⟨_, rfl, fun hle => by omega⟩⟩
    · rw [if_neg hleft]
      refine ⟨fun burst h => ?_, fun _ => ⟨_, rfl, fun _ => rfl⟩⟩
      have := (reached_cons.mp h).1
      omega

end

/-! ## When the functions wait for what they are asked for -/

/-- The product does not overflow, and the loop gets to the first burst that stops it exactly
when there is something to find: the burst then has the event, and in time. -/
def TcpMeets (addr : UInt32) (start : Nat) (seconds : Int) (a : Arrivals) : Prop :=
  (-2 ^ 31 ≤ seconds * 1000 ∧ seconds * 1000 < 2 ^ 31) ∧
    ((∃ burst, Reached addr start (seconds * 1000) 0 a.bursts burst ∧
        InTime seconds burst.time ∧ burst.Holds (TcpWanted addr)) ∨
      ((∀ burst, ¬ Reached addr start (seconds * 1000) 0 a.bursts burst) ∧ seconds ≠ -1 ∧
        NeverArrives (TcpWanted addr) seconds a))

theorem stops_of_wanted {addr : UInt32} {burst : Burst} (h : burst.Holds (TcpWanted addr)) :
    Stops addr burst := by
  obtain ⟨event, hmem, _, oneWay, sockaddr, dev, htransport, haddr⟩ := h
  refine ⟨event, hmem, ?_⟩
  show tcpFound addr event = true
  unfold tcpFound
  rw [htransport]
  cases sockaddr with
  | inet port addr' =>
    obtain rfl := IpAddr.ipv4.inj haddr
    exact beq_self_eq_true _
  | inet6 port flowinfo addr' scopeId => cases haddr

theorem waits_tcp_iff (addr : UInt32) (start : Nat) (seconds : Int) (a : Arrivals) :
    Waits (TcpWanted addr) seconds a (waitForTcpServer addr start seconds a) ↔
      TcpMeets addr start seconds a := by
  unfold waitForTcpServer TcpMeets
  by_cases hfits : -2 ^ 31 ≤ seconds * 1000 ∧ seconds * 1000 < 2 ^ 31
  · rw [if_pos hfits]
    obtain ⟨hfound, hnone⟩ := @tcpWaitLoop_spec addr start a.bursts (seconds * 1000) 0 a.sorted
      fun b _ => Nat.zero_le _
    by_cases hreached : ∃ burst, Reached addr start (seconds * 1000) 0 a.bursts burst
    · obtain ⟨burst, hburst⟩ := hreached
      rw [hfound burst hburst]
      have ⟨before, after, hsplit, hbefore, _, _⟩ := hburst
      constructor
      · rintro ⟨_, wanted, hmem, hle, hintime, hholds⟩
        -- a wanted event at this time or before it is in this burst
        have hsame : wanted = burst := by
          have hsorted := a.sorted
          rw [hsplit] at hmem hsorted
          obtain ⟨_, hright, _⟩ := List.pairwise_append.mp hsorted
          rcases List.mem_append.mp hmem with hin | hin
          · exact absurd (stops_of_wanted hholds) (hbefore wanted hin)
          · rcases List.mem_cons.mp hin with rfl | hin
            · rfl
            · have := (List.pairwise_cons.mp hright).1 wanted hin
              omega
        subst hsame
        exact ⟨hfits, .inl ⟨wanted, hburst, hintime, hholds⟩⟩
      · rintro ⟨_, ⟨burst', hburst', hintime, hholds⟩ | ⟨hnot, _⟩⟩
        · have hsame := (hfound burst' hburst').symm.trans (hfound burst hburst)
          have htime : burst'.time = burst.time := by
            injection hsame
          obtain ⟨before', after', hsplit', _⟩ := hburst'
          refine ⟨fun h0 => htime ▸ eq_zero_of_inTime hintime h0, burst', ?_, Nat.le_of_eq htime,
            hintime, hholds⟩
          rw [hsplit']
          exact List.mem_append_right _ List.mem_cons_self
        · exact absurd hburst (hnot burst)
    · have hnot : ∀ burst, ¬ Reached addr start (seconds * 1000) 0 a.bursts burst :=
        fun burst h => hreached ⟨burst, h⟩
      obtain ⟨time, htime, hzero⟩ := hnone hnot
      rw [htime]
      constructor
      · rintro ⟨_, hne, hnever⟩
        exact ⟨hfits, .inr ⟨hnot, hne, hnever⟩⟩
      · rintro ⟨_, ⟨burst, h, _⟩ | ⟨_, hne, hnever⟩⟩
        · exact absurd h (hnot burst)
        · exact ⟨fun h0 => hzero (by omega), hne, hnever⟩
  · rw [if_neg hfits]
    exact iff_of_false id fun h => hfits h.1

/-- The last event of the burst is about a unix server. -/
def EndsUnix (burst : Burst) : Prop :=
  ∃ oneWay path, (burst.events.getLast burst.events_ne).transport = .unix oneWay path

/-- Where the first burst arrives in time, either it has the event and ends with one about a
unix server, or it does not end so and there is nothing to find. -/
def UnixMeets (seconds : Int) (a : Arrivals) : Prop :=
  ∀ burst, a.bursts.head? = some burst → InTime seconds burst.time →
    (EndsUnix burst ∧ burst.Holds UnixWanted) ∨
      (¬ EndsUnix burst ∧ seconds ≠ -1 ∧ NeverArrives UnixWanted seconds a)

theorem eventQueueProcess_unix (events : List SlEvent) : ∀ (ret : Bool) (hne : events ≠ []),
    (eventQueueProcess unixWaitCb ret events).1 = true ↔
      ∃ oneWay path, (events.getLast hne).transport = .unix oneWay path := by
  induction events with
  | nil => exact fun _ hne => absurd rfl hne
  | cons event events ih =>
    intro ret hne
    have hstep : eventQueueProcess unixWaitCb ret (event :: events) =
        eventQueueProcess unixWaitCb (unixWaitCb ret event).1 events := by
      rw [eventQueueProcess]
      unfold unixWaitCb
      cases event.transport with
      | unix oneWay path => rfl
      | tcp oneWay sockaddr dev => rfl
    rw [hstep]
    cases events with
    | nil =>
      rw [List.getLast_singleton]
      unfold unixWaitCb
      cases event.transport with
      | unix oneWay path => exact iff_of_true rfl ⟨oneWay, path, rfl⟩
      | tcp oneWay sockaddr dev =>
        exact iff_of_false Bool.false_ne_true fun ⟨_, _, h⟩ => (by cases h)
    | cons next events =>
      rw [ih _ (List.cons_ne_nil next events), List.getLast_cons (List.cons_ne_nil next events)]

theorem inTime_iff (seconds : Int) (time : Nat) : InTime seconds time ↔
    seconds = -1 ∨ (0 ≤ seconds ∧ (time = 0 ∨ (time : Int) < seconds * 1000000000)) := by
  unfold InTime
  omega

theorem waits_unix_iff (seconds : Int) (a : Arrivals) :
    Waits UnixWanted seconds a (waitForUnixServer seconds a) ↔ UnixMeets seconds a := by
  obtain ⟨bursts, hsorted⟩ := a
  cases bursts with
  | nil =>
    refine iff_of_true ?_ fun burst h => (by cases h)
    have hnever : NeverArrives UnixWanted seconds ⟨[], hsorted⟩ := fun burst h => (by cases h)
    unfold waitForUnixServer
    dsimp only
    split
    · next h => exact ⟨h, hnever⟩
    · next h => exact ⟨fun h0 => by rw [h0]; rfl, h, hnever⟩
  | cons burst bursts =>
    have hfirst : ∀ b ∈ burst :: bursts, burst.time ≤ b.time := by
      intro b hb
      rcases List.mem_cons.mp hb with rfl | hb
      · exact Nat.le_refl _
      · exact Nat.le_of_lt ((List.pairwise_cons.mp hsorted).1 b hb)
    have hends := eventQueueProcess_unix burst.events false burst.events_ne
    unfold waitForUnixServer UnixMeets
    simp only [List.head?_cons, Option.some.injEq, forall_eq']
    by_cases hintime : InTime seconds burst.time
    · rw [if_pos ((inTime_iff seconds burst.time).mp hintime)]
      refine Iff.trans ?_ (forall_prop_of_true hintime).symm
      cases hret : (eventQueueProcess unixWaitCb false burst.events).1 with
      | true =>
        have hunix : EndsUnix burst := hends.mp hret
        constructor
        · rintro ⟨_, wanted, hmem, hle, _, hholds⟩
          have hsame : wanted = burst := by
            rcases List.mem_cons.mp hmem with rfl | hmem
            · rfl
            · have := (List.pairwise_cons.mp hsorted).1 wanted hmem
              omega
          exact .inl ⟨hunix, hsame ▸ hholds⟩
        · rintro (⟨_, hholds⟩ | ⟨hnot, _⟩)
          · exact ⟨eq_zero_of_inTime hintime, burst, List.mem_cons_self, Nat.le_refl _, hintime,
              hholds⟩
          · exact absurd hunix hnot
      | false =>
        have hnot : ¬ EndsUnix burst := by
          intro h
          have hret' := hends.mpr h
          rw [hret] at hret'
          cases hret'
        constructor
        · rintro ⟨_, hne, hnever⟩
          exact .inr ⟨hnot, hne, hnever⟩
        · rintro (⟨hunix, _⟩ | ⟨_, hne, hnever⟩)
          · exact absurd hunix hnot
          · exact ⟨eq_zero_of_inTime hintime, hne, hnever⟩
    · rw [if_neg (mt (inTime_iff seconds burst.time).mpr hintime)]
      refine iff_of_true ⟨fun h0 => by rw [h0]; rfl, fun h => hintime (.inl h), ?_⟩
        fun h => absurd h hintime
      intro b hb hb' _
      exact hintime (hb'.mono (hfirst b hb))

/-- **Waiting for a server**: both functions, for every arrival of events, every state of the
clock and every time-out. -/
theorem wait_for_server_iff (addr : UInt32) (start : Nat) (seconds : Int) (a : Arrivals) :
    (Waits (TcpWanted addr) seconds a (waitForTcpServer addr start seconds a) ↔
      TcpMeets addr start seconds a) ∧
    (Waits UnixWanted seconds a (waitForUnixServer seconds a) ↔ UnixMeets seconds a) :=
  ⟨waits_tcp_iff addr start seconds a, waits_unix_iff seconds a⟩

/-- One event, at the time of the call. -/
def oneEvent (event : SlEvent) : Arrivals where
  bursts := [⟨0, [event], List.cons_ne_nil event []⟩]
  sorted := List.pairwise_singleton _ _

/-- The removal of a server ends the wait for it with success, and a wait without a limit for
a tcp server does not wait at all. -/
theorem removal_ends_wait :
    (¬ ∀ (addr : UInt32) (start : Nat) (seconds : Int) (a : Arrivals),
      Waits (TcpWanted addr) seconds a (waitForTcpServer addr start seconds a)) ∧
    (¬ ∀ (seconds : Int) (a : Arrivals),
      Waits UnixWanted seconds a (waitForUnixServer seconds a)) ∧
    waitForTcpServer 7 0 1 (oneEvent ⟨false, .tcp false (.inet 0 7) []⟩) = .returns true 0 ∧
    waitForUnixServer 1 (oneEvent ⟨false, .unix false []⟩) = .returns true 0 ∧
    waitForTcpServer 7 0 (-1) (oneEvent ⟨true, .tcp false (.inet 0 7) []⟩) = .returns false 0 := by
  have htcp : waitForTcpServer 7 0 1 (oneEvent ⟨false, .tcp false (.inet 0 7) []⟩) =
      .returns true 0 := by decide
  have hunix : waitForUnixServer 1 (oneEvent ⟨false, .unix false []⟩) = .returns true 0 := by decide
  refine ⟨fun h => ?_, fun h => ?_, htcp, hunix, by decide⟩
  · have hwaits := h 7 0 1 (oneEvent ⟨false, .tcp false (.inet 0 7) []⟩)
    rw [htcp] at hwaits
    obtain ⟨_, burst, hburst, _, _, event, hevent, hadded, _⟩ := hwaits
    obtain rfl := List.mem_singleton.mp hburst
    obtain rfl := List.mem_singleton.mp hevent
    cases hadded
  · have hwaits := h 1 (oneEvent ⟨false, .unix false []⟩)
    rw [hunix] at hwaits
    obtain ⟨_, burst, hburst, _, _, event, hevent, hadded, _⟩ := hwaits
    obtain rfl := List.mem_singleton.mp hburst
    obtain rfl := List.mem_singleton.mp hevent
    cases hadded

end Cmsg.Sld.Wait
