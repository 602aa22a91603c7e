import NfcStack.Lib.Run
import NfcStack.Lib.Monitor
import NfcStack.CardEmulation.HostNfcF

/- To whom the packets of an NFC-F reader go. A packet is accepted for the service that it
   is resolved to; it is owed to that service until it is sent or the activation ends, and
   the reader is owed nothing but the answers of the service that was given the last packet.

   What is proved:
     1. `delivers_iff`: a callback sends what is owed, to whom it is owed, and returns,
        exactly if a packet accepted during a transfer is for the active service, a service
        connects only to the packet that waits for it, and a message names whom to reply to.
     2. `packets_delivered`: a run does so in every step if and only if every step of it meets
        that condition.
     3. `stale_packet_sent`: a packet is sent to its service after the activation has ended, and
        the next packet after such a late connection makes the callback throw. -/
namespace NfcStack.CardEmulation.HostNfcF
open NfcStack.Lib

/-! ## What should be sent -/

/-- What is owed. -/
structure Duty where
  /-- The packet accepted in this activation that is not sent yet. -/
  awaiting : Option (Service × List UInt8)
  /-- To whom the last packet of this activation was sent. -/
  last : Option Messenger
  /-- The binder of each service since its last connection. -/
  binderOf : Service → Option Nat

def Duty.init : Duty := { awaiting := none, last := none, binderOf := fun _ => none }

/-- The packet that a callback accepts, with the service it is resolved to: that of its NFCID2,
or else the active one, if it is the one enabled. -/
def acceptedFor (c : State) : Event → Option (Service × List UInt8)
  | .hostEmulationData data resolveNfcid2 _ =>
    if c.state = .w4Service then none
    else
      match (findNfcid2 data).bind resolveNfcid2 with
      | some info =>
        if c.enabledFgServiceName = some info.component then
          some (⟨userOf info.uid, info.component⟩, data)
        else none
      | none =>
        if c.enabledFgServiceName = c.activeServiceName then
          c.activeService.map fun active => (active.owner, data)
        else none
  | _ => none

/-- What a callback changes before it sends anything: a packet is accepted, the activation
ends, a service connects. -/
def Duty.begin (d : Duty) (c : State) (e : Event) : Duty :=
  match e with
  | .hostEmulationData _ _ _ => { d with awaiting := (acceptedFor c e).or d.awaiting }
  | .hostEmulationDeactivated => { d with awaiting := none, last := none }
  | .nfcDisabled => { d with awaiting := none, last := none }
  | .userSwitched => { d with awaiting := none, last := none }
  | .serviceConnected owner binder =>
    { d with binderOf := Function.update d.binderOf owner (some binder) }
  | _ => d

/-- A packet goes to the messenger of its service, once; an answer comes from the service that
was given the last packet. -/
def nextObs (e : Event) (d : Duty) : Obs → Option Duty
  | .commandPacket service data =>
    if d.awaiting = some (service.owner, data) ∧ d.binderOf service.owner = some service.binder then
      some { d with awaiting := none, last := some service }
    else none
  | .sendData _ =>
    match e with
    | .message _ _ replyTo =>
      if replyTo.isSome ∧ d.last.map Messenger.binder = replyTo then some d else none
    | _ => none
  | _ => some d

def watched (p : State × Duty) (e : Event) : Option (State × Duty) :=
  (step p.1 e).bind fun c => (watch (nextObs e) (p.2.begin p.1 e) c.out).map fun d => (c, d)

def Delivers (p : State × Duty) (e : Event) : Prop := (watched p e).isSome = true

instance (p : State × Duty) (e : Event) : Decidable (Delivers p e) := by
  unfold Delivers
  infer_instance

/-- A packet accepted during a transfer is for the active service, since its last connection;
a service connects only if no packet is pending or one that waits for it in this activation;
a message to an active service names whom to reply to. -/
def Sensible (p : State × Duty) (e : Event) : Prop :=
  match e with
  | .hostEmulationData _ _ _ =>
    p.1.state = .xfer → ∀ accepted, acceptedFor p.1 e = some accepted →
      ∃ active, p.1.activeService = some active ∧ active.owner = accepted.1 ∧
        p.2.binderOf accepted.1 = some active.binder
  | .serviceConnected owner _ =>
    p.1.pendingPacket = none ∨ p.2.awaiting.map Prod.fst = some owner
  | .message _ _ replyTo => p.1.activeService = none ∨ replyTo.isSome = true
  | _ => True

/-! ## The invariant -/

structure Settled (c : State) (d : Duty) : Prop where
  active : c.activeService = d.last
  activeName : c.activeServiceName = c.activeService.map fun active => active.owner.component
  idle : c.state = .idle → c.serviceBound = false ∧ c.activeService = none
  waiting : c.state = .w4Service →
    c.activeService = none ∧ ∃ service packet,
      d.awaiting = some (service, packet) ∧ c.pendingPacket = some packet
  owed : c.state ≠ .w4Service → d.awaiting = none
  pending : c.state = .xfer → c.pendingPacket = none

theorem settled_init : Settled State.init Duty.init :=
  ⟨rfl, rfl, fun _ => ⟨rfl, rfl⟩, nofun, fun _ => rfl, nofun⟩

section
variable {c : State} {d : Duty} {e : Event}

def Obs.free : Obs → Bool
  | .commandPacket _ _ => false
  | .sendData _ => false
  | _ => true

theorem watch_free {items : List Obs} (h : ∀ o ∈ items, o.free = true) :
    watch (nextObs e) d items = some d := by
  induction items with
  | nil => rfl
  | cons o items ih =>
    have ho : nextObs e d o = some d := by
      have hfree := h o List.mem_cons_self
      cases o with
      | commandPacket service data => cases hfree
      | sendData data => cases hfree
      | _ => rfl
    change (nextObs e d o).bind _ = _
    rw [ho]
    exact ih fun o ho => h o (List.mem_cons_of_mem _ ho)

/-- What a callback does that sends neither packets nor answers. -/
structure Quiet (c c' : State) : Prop where
  out : ∀ o ∈ c'.out, o ∈ c.out ∨ o.free = true
  enabled : c'.enabledFgServiceName = c.enabledFgServiceName
  active : c'.activeService = c.activeService
  activeName : c'.activeServiceName = c.activeServiceName
  state : c'.state = c.state
  pending : c'.pendingPacket = c.pendingPacket
  bound : c'.serviceBound = true → c.serviceBound = true

theorem Quiet.refl (c : State) : Quiet c c :=
  ⟨fun _ h => Or.inl h, rfl, rfl, rfl, rfl, rfl, fun h => h⟩

theorem quiet_emit {o : Obs} (ho : o.free = true) (c : State) : Quiet c (c.emit o) := by
  refine ⟨fun o' ho' => ?_, rfl, rfl, rfl, rfl, rfl, fun h => h⟩
  rcases List.mem_append.mp ho' with h | h
  · exact Or.inl h
  · rw [List.mem_singleton.mp h]
    exact Or.inr ho

theorem Quiet.trans {c c' c'' : State} (h : Quiet c c') (h' : Quiet c' c'') : Quiet c c'' := by
  refine ⟨fun o ho => ?_, h'.enabled.trans h.enabled, h'.active.trans h.active,
    h'.activeName.trans h.activeName, h'.state.trans h.state, h'.pending.trans h.pending,
    fun hb => h.bound (h'.bound hb)⟩
  rcases h'.out o ho with h' | h'
  · exact h.out o h'
  · exact Or.inr h'

theorem quiet_sendDeactivate (c : State) (reason : Int) :
    Quiet c (sendDeactivateToActiveServiceLocked c reason) := by
  unfold sendDeactivateToActiveServiceLocked
  split
  · exact Quiet.refl c
  · exact quiet_emit rfl c

theorem quiet_unbind (c : State) :
    Quiet c (unbindServiceIfNeededLocked c) ∧ (unbindServiceIfNeededLocked c).serviceBound = false := by
  unfold unbindServiceIfNeededLocked
  split
  · have h := quiet_emit (o := .unbindService) rfl c
    exact ⟨⟨h.out, rfl, rfl, rfl, rfl, rfl, nofun⟩, rfl⟩
  · next hb => exact ⟨Quiet.refl c, Bool.eq_false_of_not_eq_true hb⟩

theorem endActivation_fields (c : State) :
    (∀ o ∈ (endActivation c).out, o ∈ c.out ∨ o.free = true) ∧
    (endActivation c).activeService = none ∧ (endActivation c).activeServiceName = none ∧
    (endActivation c).state = .idle ∧ (endActivation c).serviceBound = false := by
  unfold endActivation
  dsimp only
  obtain ⟨u, hu⟩ : ∃ u, u = { sendDeactivateToActiveServiceLocked c DEACTIVATION_LINK_LOSS with
      activeService := none, activeServiceName := none } := ⟨_, rfl⟩
  rw [← hu]
  obtain ⟨hquiet, hbound⟩ := quiet_unbind u
  refine ⟨fun o ho => ?_, ?_, ?_, rfl, hbound⟩
  · rcases hquiet.out o ho with h | h
    · rw [hu] at h
      exact (quiet_sendDeactivate c DEACTIVATION_LINK_LOSS).out o h
    · exact Or.inr h
  · rw [hquiet.active, hu]
  · rw [hquiet.activeName, hu]

/-! ## One callback -/

/-- A callback that is lawful leads on, one that is not is caught. -/
def Decided (p : State × Duty) (e : Event) : Prop :=
  (Sensible p e ∧ ∃ q, watched p e = some q ∧ Settled q.1 q.2) ∨ (¬ Sensible p e ∧ watched p e = none)

theorem decided_free {c' : State} (hsensible : Sensible (c, d) e) (hstep : step c e = some c')
    (hout : ∀ o ∈ c'.out, o.free = true) (hsettled : Settled c' (d.begin c e)) :
    Decided (c, d) e := by
  refine Or.inl ⟨hsensible, (c', d.begin c e), ?_, hsettled⟩
  unfold watched
  rw [show step (c, d).1 e = some c' from hstep]
  exact (congrArg (Option.map _) (watch_free hout)).trans rfl

/-- The callbacks that end the activation; two of them forget the enabled service besides. -/
theorem decided_ended {f : State → State}
    (hf : ∀ u, (f u).out = u.out ∧ (f u).activeService = u.activeService ∧
      (f u).activeServiceName = u.activeServiceName ∧ (f u).state = u.state ∧
      (f u).serviceBound = u.serviceBound)
    (hsensible : Sensible (c, d) e) (hstep : step c e = some (f (endActivation { c with out := [] })))
    (hbegin : d.begin c e = { d with awaiting := none, last := none }) : Decided (c, d) e := by
  obtain ⟨hout, hactive, hname, hstate, hbound⟩ := endActivation_fields { c with out := [] }
  obtain ⟨hfout, hfactive, hfname, hfstate, hfbound⟩ := hf (endActivation { c with out := [] })
  rw [hactive] at hfactive
  rw [hname] at hfname
  rw [hstate] at hfstate
  refine decided_free hsensible hstep (fun o ho => ?_) ?_
  · rw [hfout] at ho
    exact (hout o ho).resolve_left nofun
  · rw [hbegin]
    refine ⟨hfactive, ?_, fun _ => ⟨hfbound.trans hbound, hfactive⟩, fun h => ?_, fun _ => rfl,
      fun h => ?_⟩
    · rw [hfname, hfactive]
      rfl
    · exact absurd (hfstate.symm.trans h) (by decide)
    · exact absurd (hfstate.symm.trans h) (by decide)

theorem Settled.quiet {c' : State} (h : Settled c d) (hq : Quiet c c') : Settled c' d := by
  refine ⟨hq.active.trans h.active, ?_, fun hs => ?_, fun hs => ?_, fun hs => ?_, fun hs => ?_⟩
  · rw [hq.activeName, hq.active]
    exact h.activeName
  · rw [hq.state] at hs
    refine ⟨Bool.eq_false_of_not_eq_true fun hb => ?_, hq.active.trans (h.idle hs).2⟩
    exact Bool.false_ne_true ((h.idle hs).1.symm.trans (hq.bound hb))
  · rw [hq.active, hq.pending]
    exact h.waiting (hq.state.symm.trans hs)
  · rw [hq.state] at hs
    exact h.owed hs
  · exact hq.pending.trans (h.pending (hq.state.symm.trans hs))

theorem settled_cleared (h : Settled c d) : Settled { c with out := [] } d :=
  ⟨h.active, h.activeName, h.idle, h.waiting, h.owed, h.pending⟩

theorem decided_enabledChanged (h : Settled c d) (userId : Int) (service : Option ComponentName) :
    Decided (c, d) (.enabledForegroundNfcFServiceChanged userId service) := by
  obtain ⟨u, hu⟩ : ∃ u, u = { c with
      enabledFgServiceUserId := userId, enabledFgServiceName := service, out := [] } := ⟨_, rfl⟩
  have hsettled : Settled u d := by
    rw [hu]
    exact ⟨h.active, h.activeName, h.idle, h.waiting, h.owed, h.pending⟩
  have hquiet : ∃ c', step c (.enabledForegroundNfcFServiceChanged userId service) = some c' ∧
      Quiet u c' := by
    change ∃ c', some (onEnabledForegroundNfcFServiceChanged _ userId service) = some c' ∧ _
    refine ⟨_, rfl, ?_⟩
    unfold onEnabledForegroundNfcFServiceChanged
    dsimp only
    rw [← hu]
    split
    · exact (quiet_sendDeactivate u _).trans (quiet_unbind _).1
    · exact Quiet.refl u
  obtain ⟨c', hstep, hquiet⟩ := hquiet
  refine decided_free trivial hstep (fun o ho => ?_) (hsettled.quiet hquiet)
  refine (hquiet.out o ho).resolve_left fun h => ?_
  rw [hu] at h
  cases h

theorem decided_disconnected (h : Settled c d) : Decided (c, d) .serviceDisconnected := by
  have hquiet : Quiet { c with out := [] } (onServiceDisconnected { c with out := [] }) :=
    ⟨fun _ h => Or.inl h, rfl, rfl, rfl, rfl, rfl, nofun⟩
  exact decided_free trivial rfl nofun ((settled_cleared h).quiet hquiet)

/-- A packet that is sent decides the callback: it goes to whom it is owed or is caught. -/
theorem watched_packet {c' : State} {m : Messenger} {data : List UInt8}
    (hstep : step c e = some (c'.emit (.commandPacket m data))) (hout : c'.out = []) :
    watched (c, d) e =
      if (d.begin c e).awaiting = some (m.owner, data) ∧
          (d.begin c e).binderOf m.owner = some m.binder then
        some (c'.emit (.commandPacket m data),
          { d.begin c e with awaiting := none, last := some m })
      else none := by
  have hwatch : watch (nextObs e) (d.begin c e) (c'.emit (.commandPacket m data)).out =
      nextObs e (d.begin c e) (.commandPacket m data) := by
    change watch (nextObs e) (d.begin c e) (c'.out ++ [_]) = _
    rw [hout]
    change (nextObs e (d.begin c e) _).bind _ = _
    cases nextObs e (d.begin c e) (.commandPacket m data) with
    | none => rfl
    | some d' => rfl
  unfold watched
  rw [show step (c, d).1 e = some (c'.emit (.commandPacket m data)) from hstep, Option.bind_some,
    hwatch, nextObs]
  split
  · rfl
  · rfl

/-! ## A packet of the reader -/

theorem data_cases (h : Settled c d) {data : List UInt8}
    {resolveNfcid2 : List Char → Option NfcFServiceInfo} {bind : BindResult}
    (he : e = .hostEmulationData data resolveNfcid2 bind) :
    (acceptedFor c e = none ∧ step c e = some { c with out := [] }) ∨
    ∃ service : Service, acceptedFor c e = some (service, data) ∧
      ((c.state = .idle ∧ step c e =
          startTransfer { c with out := [] } service.userId service.component data bind) ∨
        (c.state = .xfer ∧ step c e =
          sendDataToServiceLocked { c with out := [] } c.activeService data)) := by
  subst he
  unfold acceptedFor
  change (_ ∧ onHostEmulationData _ _ _ _ = _) ∨ ∃ service, _ ∧
    ((_ ∧ onHostEmulationData _ _ _ _ = _) ∨ (_ ∧ onHostEmulationData _ _ _ _ = _))
  unfold onHostEmulationData
  dsimp only
  cases hresolved : (findNfcid2 data).bind resolveNfcid2 with
  | none =>
    dsimp only [Option.map_none, Option.none_or]
    have hname := h.activeName
    cases hactive : c.activeService with
    | none =>
      rw [hactive] at hname
      rw [hname]
      refine Or.inl ⟨?_, rfl⟩
      split
      · rfl
      · split <;> rfl
    | some active =>
      rw [hactive] at hname
      rw [hname]
      dsimp only [Option.map_some]
      by_cases henabled : c.enabledFgServiceName = some active.owner.component
      · -- only a transfer has an active service
        have hstate : c.state = .xfer := by
          cases hs : c.state with
          | idle => exact absurd (hactive.symm.trans (h.idle hs).2) nofun
          | w4Service => exact absurd (hactive.symm.trans (h.waiting hs).1) nofun
          | xfer => rfl
        rw [hstate, if_neg (by decide), if_pos henabled, if_neg (fun hne => hne henabled)]
        exact Or.inr ⟨active.owner, rfl, Or.inr ⟨rfl, rfl⟩⟩
      · rw [if_pos henabled, if_neg henabled]
        exact Or.inl ⟨ite_self _, rfl⟩
  | some info =>
    dsimp only [Option.map_some, Option.some_or]
    by_cases henabled : c.enabledFgServiceName = some info.component
    · have hne : ¬ c.enabledFgServiceName ≠ some info.component := fun hne => hne henabled
      rw [if_pos henabled, if_neg hne]
      cases hs : c.state with
      | idle => exact Or.inr ⟨_, rfl, Or.inl ⟨rfl, rfl⟩⟩
      | w4Service => exact Or.inl ⟨rfl, rfl⟩
      | xfer => exact Or.inr ⟨_, rfl, Or.inr ⟨rfl, rfl⟩⟩
    · rw [if_neg henabled, if_pos henabled]
      exact Or.inl ⟨ite_self _, rfl⟩

theorem startTransfer_idle (hbound : c.serviceBound = false) (userId : Int)
    (service : ComponentName) (data : List UInt8) (bind : BindResult) :
    ∃ c', startTransfer c userId service data bind = some c' ∧
      c'.out = c.out ++ [.bindService ⟨userId, service⟩] ∧ c'.activeService = c.activeService ∧
      c'.activeServiceName = c.activeServiceName ∧ c'.state = .w4Service ∧
      c'.pendingPacket = some data := by
  have hnotbound : ¬ c.serviceBound = true := by rw [hbound]; exact Bool.false_ne_true
  have hunbind : unbindServiceIfNeededLocked c = c := if_neg hnotbound
  refine ⟨{ bindServiceLocked c userId service bind with
    pendingPacket := some data, state := .w4Service }, ?_, ?_⟩
  · unfold startTransfer bindServiceIfNeededLocked
    rw [if_neg hnotbound]
    rfl
  · unfold bindServiceLocked
    rw [hunbind]
    cases bind with
    | bound => exact ⟨rfl, rfl, rfl, rfl, rfl⟩
    | refused => exact ⟨rfl, rfl, rfl, rfl, rfl⟩
    | securityException => exact ⟨rfl, rfl, rfl, rfl, rfl⟩

theorem decided_data (h : Settled c d) (data : List UInt8)
    (resolveNfcid2 : List Char → Option NfcFServiceInfo) (bind : BindResult) :
    Decided (c, d) (.hostEmulationData data resolveNfcid2 bind) := by
  obtain ⟨e, he⟩ : ∃ e, e = Event.hostEmulationData data resolveNfcid2 bind := ⟨_, rfl⟩
  have hbegin : d.begin c e = { d with awaiting := (acceptedFor c e).or d.awaiting } := by
    rw [he]
    rfl
  have hsensible : Sensible (c, d) e ↔ (c.state = .xfer → ∀ accepted,
      acceptedFor c e = some accepted → ∃ active, c.activeService = some active ∧
        active.owner = accepted.1 ∧ d.binderOf accepted.1 = some active.binder) := by
    rw [he]
    exact Iff.rfl
  rw [← he]
  rcases data_cases h he with ⟨hnone, hstep⟩ | ⟨service, haccepted, ⟨hidle, hstep⟩ | ⟨hxfer, hstep⟩⟩
  · -- not accepted
    refine decided_free (hsensible.mpr fun _ accepted hacc => ?_) hstep nofun ?_
    · rw [hnone] at hacc
      cases hacc
    · rw [hbegin, hnone, Option.none_or]
      exact settled_cleared h
  · obtain ⟨c', hc', hout, hactive, hname, hstate, hpending⟩ :=
      startTransfer_idle (c := { c with out := [] }) (h.idle hidle).1 service.userId
        service.component data bind
    rw [hc'] at hstep
    refine decided_free (hsensible.mpr fun hx => ?_) hstep (fun o ho => ?_) ?_
    · rw [hidle] at hx
      cases hx
    · rw [hout] at ho
      rw [List.mem_singleton.mp ho]
      rfl
    · rw [hbegin, haccepted, Option.some_or]
      refine ⟨hactive.trans h.active, ?_, fun hs => ?_, fun _ => ?_, fun hs => ?_, fun hs => ?_⟩
      · rw [hname, hactive]
        exact h.activeName
      · exact absurd (hstate.symm.trans hs) (by decide)
      · exact ⟨hactive.trans (h.idle hidle).2, service, data, rfl, hpending⟩
      · exact absurd hstate hs
      · exact absurd (hstate.symm.trans hs) (by decide)
  · unfold sendDataToServiceLocked at hstep
    dsimp only at hstep
    rw [if_neg (fun hne => hne rfl)] at hstep
    cases hactive : c.activeService with
    | none =>
      -- the callback throws
      have hthrows : step c e = none := by
        rw [hstep]
        exact congrArg (Option.map _) hactive
      refine Or.inr ⟨fun hok => ?_, ?_⟩
      · obtain ⟨active, hsome, -⟩ := hsensible.mp hok hxfer _ haccepted
        rw [hactive] at hsome
        cases hsome
      · unfold watched
        rw [show step (c, d).1 e = none from hthrows]
        rfl
    | some active =>
      have hsend : step c e =
          some ({ c with out := [] }.emit (.commandPacket active data)) := by
        rw [hstep]
        exact congrArg (Option.map _) hactive
      have hwatched := watched_packet (d := d) hsend rfl
      have hawaiting : (d.begin c e).awaiting = some (service, data) := by
        rw [hbegin, haccepted]
        rfl
      have hbinder : (d.begin c e).binderOf = d.binderOf := by rw [hbegin]
      rw [hawaiting, hbinder] at hwatched
      by_cases howner : active.owner = service ∧ d.binderOf service = some active.binder
      · obtain ⟨rfl, hb⟩ := howner
        refine Or.inl ⟨hsensible.mpr fun _ accepted hacc => ?_, _,
          hwatched.trans (if_pos ⟨rfl, hb⟩), ?_⟩
        · rw [haccepted] at hacc
          cases hacc
          exact ⟨active, hactive, rfl, hb⟩
        · refine ⟨hactive, h.activeName, fun hs => ?_, fun hs => ?_, fun _ => rfl, h.pending⟩
          · exact absurd (hxfer.symm.trans hs) (by decide)
          · exact absurd (hxfer.symm.trans hs) (by decide)
      · refine Or.inr ⟨fun hok => howner ?_, hwatched.trans (if_neg fun hgood => howner ?_)⟩
        · obtain ⟨active', hsome, howner', hb⟩ := hsensible.mp hok hxfer _ haccepted
          obtain rfl : active = active' := Option.some.inj (hactive.symm.trans hsome)
          exact ⟨howner', hb⟩
        · obtain ⟨hs, hb⟩ := hgood
          obtain ⟨hs, -⟩ := Prod.mk.inj (Option.some.inj hs)
          rw [← hs] at hb
          exact ⟨hs.symm, by rw [hs]; rw [← hs]; exact hb⟩

/-! ## A connection and a message -/

theorem decided_connected (h : Settled c d) (owner : Service) (binder : Nat) :
    Decided (c, d) (.serviceConnected owner binder) := by
  have hbegin : d.begin c (.serviceConnected owner binder) =
      { d with binderOf := Function.update d.binderOf owner (some binder) } := rfl
  obtain ⟨u, hu⟩ : ∃ u, u = { c with
      out := []
      service := some ⟨c.messengers, binder, owner⟩
      serviceBound := true
      serviceName := some owner.component
      state := .xfer
      messengers := c.messengers + 1 } := ⟨_, rfl⟩
  cases hpending : c.pendingPacket with
  | none =>
    have hstep : step c (.serviceConnected owner binder) = some u := by
      simp only [step, handle, onServiceConnected, hpending, hu]
    refine decided_free (Or.inl hpending) hstep (by rw [hu]; intro o ho; cases ho) ?_
    rw [hbegin, hu]
    refine ⟨h.active, h.activeName, (fun hs => by cases hs), (fun hs => by cases hs), fun _ => h.owed fun hs => ?_, fun _ => hpending⟩
    obtain ⟨-, service, packet, -, hp⟩ := h.waiting hs
    rw [hpending] at hp
    cases hp
  | some packet =>
    have hstep : step c (.serviceConnected owner binder) =
        (sendDataToServiceLocked u u.service packet).map fun c => { c with pendingPacket := none } := by
      simp only [step, handle, onServiceConnected, hpending, hu]
    -- no transfer goes on, so there is no active service
    have hactive : c.activeService = none := by
      cases hs : c.state with
      | idle => exact (h.idle hs).2
      | w4Service => exact (h.waiting hs).1
      | xfer => exact absurd ((h.pending hs).symm.trans hpending) (Option.some_ne_none packet).symm
    obtain ⟨m, hm⟩ : ∃ m : Messenger, m = ⟨c.messengers, binder, owner⟩ := ⟨_, rfl⟩
    have hsend : step c (.serviceConnected owner binder) =
        some (State.emit { u with
          activeService := some m, activeServiceName := some owner.component, pendingPacket := none }
            (.commandPacket m packet)) := by
      rw [hstep, hu]
      unfold sendDataToServiceLocked sendDeactivateToActiveServiceLocked
      dsimp only
      rw [hactive, if_pos (fun hn => by cases hn), ← hm]
      rfl
    have hwatched := watched_packet (d := d) hsend (by rw [hu])
    have howner : m.owner = owner := by rw [hm]
    have hbinder : (d.begin c (.serviceConnected owner binder)).binderOf m.owner = some m.binder := by
      rw [hbegin, hm]
      exact Function.update_self ..
    have hawaiting : (d.begin c (.serviceConnected owner binder)).awaiting = d.awaiting := rfl
    rw [hbinder, hawaiting, howner] at hwatched
    have hiff : Sensible (c, d) (.serviceConnected owner binder) ↔
        d.awaiting = some (owner, packet) := by
      constructor
      · rintro (hp | hfst)
        · exact absurd (hpending.symm.trans hp) (Option.some_ne_none packet)
        · obtain ⟨⟨service, data⟩, hsome, rfl⟩ := Option.map_eq_some_iff.mp hfst
          have hw4 : c.state = .w4Service := by
            by_contra hne
            exact absurd ((h.owed hne).symm.trans hsome) (Option.some_ne_none _).symm
          obtain ⟨-, service', packet', hsome', hp⟩ := h.waiting hw4
          rw [hsome] at hsome' ⊢
          cases hsome'
          rw [hpending] at hp
          rw [Option.some.inj hp]
      · intro hsome
        exact Or.inr (by rw [show (c, d).2.awaiting = some (owner, packet) from hsome]; rfl)
    by_cases hgood : d.awaiting = some (owner, packet)
    · refine Or.inl ⟨hiff.mpr hgood, _, hwatched.trans (if_pos ⟨hgood, rfl⟩), ?_⟩
      refine ⟨rfl, ?_, ?_, ?_, fun _ => rfl, fun _ => rfl⟩
      · change some owner.component = some m.owner.component
        rw [howner]
      · rw [hu]
        intro hs
        cases hs
      · rw [hu]
        intro hs
        cases hs
    · exact Or.inr ⟨fun hok => hgood (hiff.mp hok), hwatched.trans (if_neg fun hg => hgood hg.1)⟩

theorem decided_message (h : Settled c d) (what : Int) (data : Option (List UInt8))
    (replyTo : Option Nat) : Decided (c, d) (.message what data replyTo) := by
  obtain ⟨e, he⟩ : ∃ e, e = Event.message what data replyTo := ⟨_, rfl⟩
  obtain ⟨u, hu⟩ : ∃ u, u = { c with out := [] } := ⟨_, rfl⟩
  have hstep : step c e = handleMessage u what data replyTo := by rw [he, hu]; rfl
  have hbegin : d.begin c e = d := by rw [he]; rfl
  have hsensible : Sensible (c, d) e ↔ (c.activeService = none ∨ replyTo.isSome = true) := by
    rw [he]
    exact Iff.rfl
  have hsettled : Settled u d := by rw [hu]; exact settled_cleared h
  have hactiveu : u.activeService = c.activeService := by rw [hu]
  have hclear : step c e = some u → Sensible (c, d) e → Decided (c, d) e :=
    fun hst hok => decided_free hok hst (by rw [hu]; exact nofun) (by rw [hbegin]; exact hsettled)
  unfold handleMessage at hstep
  rw [hactiveu] at hstep
  rw [← he]
  cases hactive : c.activeService with
  | none =>
    rw [hactive] at hstep
    exact hclear hstep (hsensible.mpr (Or.inl hactive))
  | some active =>
    rw [hactive] at hstep
    dsimp only at hstep
    cases replyTo with
    | none =>
      refine Or.inr ⟨fun hok => ?_, ?_⟩
      · rcases hsensible.mp hok with hnone | hsome
        · exact absurd (hactive.symm.trans hnone) nofun
        · cases hsome
      · unfold watched
        rw [show step (c, d).1 e = none from hstep]
        rfl
    | some binder =>
      have hok : Sensible (c, d) e := hsensible.mpr (Or.inr rfl)
      rw [Option.map_some] at hstep
      cases data with
      | none => exact hclear hstep hok
      | some data =>
        dsimp only at hstep
        split at hstep
        · next hvalid =>
          -- an answer of the active service, which was given the last packet
          refine Or.inl ⟨hok, (u.emit (.sendData data), d), ?_, ?_⟩
          · unfold watched
            rw [show step (c, d).1 e = some (u.emit (.sendData data)) from hstep,
              Option.bind_some, show Duty.begin (c, d).2 (c, d).1 e = d from hbegin]
            have hnext : nextObs e d (.sendData data) = some d := by
              rw [he]
              refine if_pos ⟨rfl, ?_⟩
              rw [← h.active, hactive, hvalid.1]
              rfl
            rw [show (u.emit (.sendData data)).out = [.sendData data] by rw [hu]; rfl]
            change Option.map _ ((nextObs e d (.sendData data)).bind _) = _
            rw [hnext]
            rfl
          · exact ⟨hsettled.active, hsettled.activeName, hsettled.idle, hsettled.waiting,
              hsettled.owed, hsettled.pending⟩
        · exact hclear hstep hok

/-! ## The run -/

theorem decided (h : Settled c d) (e : Event) : Decided (c, d) e := by
  cases e with
  | enabledForegroundNfcFServiceChanged userId service => exact decided_enabledChanged h userId service
  | hostEmulationData data resolveNfcid2 bind => exact decided_data h data resolveNfcid2 bind
  | hostEmulationDeactivated =>
    exact @decided_ended c d _ id (fun _ => ⟨rfl, rfl, rfl, rfl, rfl⟩) trivial rfl rfl
  | nfcDisabled =>
    exact @decided_ended c d _ (fun u => { u with enabledFgServiceName := none })
      (fun _ => ⟨rfl, rfl, rfl, rfl, rfl⟩) trivial rfl rfl
  | userSwitched =>
    exact @decided_ended c d _ (fun u => { u with enabledFgServiceName := none })
      (fun _ => ⟨rfl, rfl, rfl, rfl, rfl⟩) trivial rfl rfl
  | serviceConnected owner binder => exact decided_connected h owner binder
  | serviceDisconnected => exact decided_disconnected h
  | message what data replyTo => exact decided_message h what data replyTo

theorem delivers_iff (h : Settled c d) (e : Event) : Delivers (c, d) e ↔ Sensible (c, d) e := by
  unfold Delivers
  rcases decided h e with ⟨hok, q, hq, -⟩ | ⟨hbad, hnone⟩
  · rw [hq]
    exact ⟨fun _ => hok, fun _ => rfl⟩
  · rw [hnone]
    exact ⟨nofun, fun hok => absurd hok hbad⟩

end

/-- Every callback of a run sends each packet to its service, once and in its activation,
forwards no answer but those of the service given the last packet, and returns, if and only
if every callback of it comes in order. -/
theorem packets_delivered (es : List Event) :
    StepsOk watched Delivers (State.init, Duty.init) es ↔
      StepsOk watched Sensible (State.init, Duty.init) es := by
  refine @stepsOk_iff (State × Duty) Event watched Delivers Sensible (fun p => Settled p.1 p.2)
    (fun p e h => delivers_iff h e) (fun p e q h _ hq => ?_) es _ settled_init
  rcases decided h e with ⟨-, q', hq', hsettled⟩ | ⟨-, hnone⟩
  · rw [show watched p e = some q' from hq'] at hq
    cases hq
    exact hsettled
  · rw [show watched p e = none from hnone] at hq
    cases hq

def demoService : ComponentName := ⟨"com.example.transit", "CardService"⟩

def demoPacket : List UInt8 := [0x10, 0x06, 0x02, 0xFE, 0, 0, 0, 0, 0, 1, 1, 0x09, 0, 1, 0x80, 0]

/-- The service is enabled, and its first packet waits for it. -/
def demoStart : List Event :=
  [.enabledForegroundNfcFServiceChanged 0 (some demoService),
    .hostEmulationData demoPacket (fun _ => some ⟨demoService, 10057⟩) .bound]

theorem stale_packet_sent :
    (run step State.init (demoStart ++
        [.hostEmulationDeactivated, .serviceConnected ⟨0, demoService⟩ 7])).map State.out =
      some [.commandPacket ⟨0, 7, ⟨0, demoService⟩⟩ demoPacket] ∧
    ¬ StepsOk watched Delivers (State.init, Duty.init) (demoStart ++
        [.hostEmulationDeactivated, .serviceConnected ⟨0, demoService⟩ 7]) ∧
    run step State.init (demoStart ++ [.serviceConnected ⟨0, demoService⟩ 7, .serviceDisconnected,
        .hostEmulationDeactivated, .serviceConnected ⟨0, demoService⟩ 8,
        .hostEmulationData demoPacket (fun _ => some ⟨demoService, 10057⟩) .bound]) = none := by
  refine ⟨by decide +kernel, by decide +kernel, rfl⟩

end NfcStack.CardEmulation.HostNfcF
