import NfcStack.CardEmulation.HostEmulation

/-
  What handling polling frames can do to the manager.

  `onPollingLoopDetected` is a loop of binds, sends and bookkeeping. `Polls`
  lists the moves it is made of; a predicate that each of them keeps is kept by
  the whole call (`Polls.detected`), and by the sending of the frames that waited
  for a connection (`Polls.waiting`).
-/
namespace NfcStack.CardEmulation.Hce

/-! ## The connection map -/

variable {key : ComponentNameAndUser}

theorem Connections.mem_of_get {conns : Connections}
    {messenger : Option Messenger} (h : conns.get key = some messenger) :
    (key, messenger) ∈ conns := by
  obtain ⟨entry, hfind, rfl⟩ := Option.map_eq_some_iff.mp h
  have hkey : entry.1 = key := by simpa using List.find?_some hfind
  rw [← hkey]
  exact List.mem_of_find?_eq_some hfind

theorem Connections.mem_remove {conns : Connections}
    {entry : ComponentNameAndUser × Option Messenger} :
    entry ∈ conns.remove key ↔ entry ∈ conns ∧ entry.1 ≠ key := by
  simp [Connections.remove]

theorem Connections.mem_put {conns : Connections}
    {messenger : Option Messenger} {entry : ComponentNameAndUser × Option Messenger}
    (h : entry ∈ conns.put key messenger) : entry = (key, messenger) ∨ entry ∈ conns := by
  rcases List.mem_cons.mp h with h | h
  · exact .inl h
  · exact .inr (Connections.mem_remove.mp h).1

/-! ## Who is connected -/

def Knows (hem : Hem) (key : ComponentNameAndUser) (service : Messenger) : Prop :=
  (hem.paymentServiceName = some key.componentName ∧ hem.paymentServiceUserId = key.userId ∧
    hem.paymentService = some service) ∨
  (key, some service) ∈ hem.connections

variable {service : Messenger}

/-- A bind that returns a messenger changes nothing. -/
theorem bind_some {env : Env} {hem : Hem}
    (h : (bindServiceIfNeededLocked env hem key).1 = some service) :
    Knows hem key service ∧ (bindServiceIfNeededLocked env hem key).2 = hem := by
  unfold bindServiceIfNeededLocked at h ⊢
  split at h
  next hpay =>
    rw [if_pos hpay]
    exact ⟨.inl ⟨hpay.1, hpay.2, h⟩, rfl⟩
  next hpay =>
    rw [if_neg hpay]
    split at h
    next => exact absurd h (by simp)
    next hpref =>
      rw [if_neg hpref]
      split at h
      next messenger hget =>
        obtain rfl : messenger = service := by simpa using h
        exact ⟨.inr (Connections.mem_of_get hget), rfl⟩
      next => exact absurd h (by simp)

theorem bindPayment_knows {env : Env} {hem : Hem} {bound key : ComponentNameAndUser}
    (h : Knows (bindPaymentServiceLocked env hem bound) key service) :
    Knows hem key service := by
  have hname : (bindPaymentServiceLocked env hem bound).paymentServiceName = none := by
    unfold bindPaymentServiceLocked; dsimp only; split <;> rfl
  have hconns : (bindPaymentServiceLocked env hem bound).connections =
      (unbindPaymentServiceLocked env hem).connections.put bound none := by
    unfold bindPaymentServiceLocked; dsimp only; split <;> rfl
  rcases h with ⟨h, -, -⟩ | h
  · rw [hname] at h
    exact absurd h (by simp)
  · rw [hconns] at h
    rcases Connections.mem_put h with h | h
    · exact absurd (congrArg Prod.snd h) (by simp)
    · refine .inr ?_
      unfold unbindPaymentServiceLocked at h
      dsimp only at h
      split at h
      · exact (Connections.mem_remove.mp h).1
      · exact h

theorem bind_knows {env : Env} {hem : Hem} {bound key : ComponentNameAndUser}
    (h : Knows (bindServiceIfNeededLocked env hem bound).2 key service) :
    Knows hem key service := by
  unfold bindServiceIfNeededLocked at h
  split at h
  next => exact h
  next =>
    split at h
    next => exact bindPayment_knows h
    next =>
      split at h
      next => exact h
      next =>
        rcases h with h | h
        · exact .inl h
        · rcases Connections.mem_put h with h | h
          · exact absurd (congrArg Prod.snd h) (by simp)
          · exact .inr h

/-- `b` is `a` but for what is bound, and knows no service that `a` does not. -/
def Rebound (a b : Hem) : Prop :=
  b = { a with
    connections := b.connections
    paymentService := b.paymentService
    paymentServiceBound := b.paymentServiceBound
    paymentServiceName := b.paymentServiceName
    paymentServiceUserId := b.paymentServiceUserId
    lastBoundPaymentServiceName := b.lastBoundPaymentServiceName } ∧
  ∀ key service, Knows b key service → Knows a key service

theorem Rebound.refl (hem : Hem) : Rebound hem hem := ⟨rfl, fun _ _ h => h⟩

theorem unbindPayment_rebound (env : Env) (hem : Hem) :
    Rebound hem (unbindPaymentServiceLocked env hem) := by
  refine ⟨rfl, fun key service h => ?_⟩
  rcases h with ⟨h, -, -⟩ | h
  · exact absurd h (by simp [unbindPaymentServiceLocked])
  · refine .inr ?_
    unfold unbindPaymentServiceLocked at h
    dsimp only at h
    split at h
    · exact (Connections.mem_remove.mp h).1
    · exact h

theorem bindPayment_rebound (env : Env) (hem : Hem) (key : ComponentNameAndUser) :
    Rebound hem (bindPaymentServiceLocked env hem key) := by
  refine ⟨?_, fun _ _ h => bindPayment_knows h⟩
  unfold bindPaymentServiceLocked
  dsimp only
  split <;> rfl

theorem rebind_rebound (env : Env) (hem : Hem) : Rebound hem (rebindPaymentService env hem) := by
  unfold rebindPaymentService
  split
  · exact bindPayment_rebound env hem _
  · exact .refl hem

theorem rebindIfPayment_rebound (env : Env) (service : Messenger) (hem : Hem) :
    Rebound hem (rebindIfPayment env service hem) := by
  unfold rebindIfPayment
  split
  · exact rebind_rebound env hem
  · exact .refl hem

theorem bind_rebound (env : Env) (hem : Hem) (key : ComponentNameAndUser) :
    Rebound hem (bindServiceIfNeededLocked env hem key).2 := by
  refine ⟨?_, fun _ _ h => bind_knows h⟩
  unfold bindServiceIfNeededLocked
  split
  next => rfl
  next =>
    split
    next => exact (bindPayment_rebound env hem key).1
    next => split <;> rfl

theorem unbindInactive_rebound (env : Env) (hem : Hem) :
    Rebound hem (unbindInactiveServicesLocked env hem) := by
  refine ⟨rfl, fun key service h => ?_⟩
  rcases h with h | h
  · exact .inl h
  · exact .inr (List.mem_filter.mp h).1

theorem remove_rebound (hem : Hem) (key : ComponentNameAndUser) :
    Rebound hem { hem with connections := hem.connections.remove key } := by
  refine ⟨rfl, fun key service h => ?_⟩
  rcases h with h | h
  · exact .inl h
  · exact .inr (Connections.mem_remove.mp h).1

/-! ## What a send does -/

def farewell (hem : Hem) (service : Messenger) : List Item :=
  match hem.activeService with
  | some active => if active = service then [] else [.deselected active .deselected]
  | none => []

theorem sendDeactivate_farewell {hem : Hem} {service : Messenger}
    (h : hem.activeService ≠ some service) :
    sendDeactivateToActiveServiceLocked .deselected hem =
      { hem with trace := hem.trace ++ farewell hem service } := by
  unfold sendDeactivateToActiveServiceLocked farewell
  cases hactive : hem.activeService with
  | none => simp [← hactive]
  | some active =>
    have hne : active ≠ service := fun heq => h (by rw [hactive, heq])
    simp [emit, hne, hactive]

theorem sendData_spec (env : Env) (service : Messenger) (apdu : Apdu) (hem : Hem) :
    ∃ name, Rebound
      { hem with
        state := .xfer
        activeService := some service
        activeServiceName := name
        trace := hem.trace ++ farewell hem service ++ [.command service apdu] }
      (sendDataToServiceLocked env service apdu hem) := by
  have hactive : ∃ name, (if hem.activeService = some service then { hem with state := .xfer }
      else setActiveService service
        (sendDeactivateToActiveServiceLocked .deselected { hem with state := .xfer })) =
      { hem with
        state := .xfer
        activeService := some service
        activeServiceName := name
        trace := hem.trace ++ farewell hem service } := by
    split
    next hact =>
      have hsame : farewell hem service = [] := by simp [farewell, hact]
      exact ⟨hem.activeServiceName, by rw [hsame, List.append_nil, ← hact]⟩
    next hact =>
      rw [@sendDeactivate_farewell { hem with state := .xfer } service hact]
      exact ⟨_, rfl⟩
  obtain ⟨name, hname⟩ := hactive
  refine ⟨name, ?_⟩
  unfold sendDataToServiceLocked
  dsimp only
  rw [hname]
  cases env.alive service
  · exact rebindIfPayment_rebound env service _
  · exact .refl _

/-- What a send of frames leaves, with the exit granted when the service is dead. -/
def framesSent (env : Env) (service : Messenger) (fs : List PollingFrame)
    (name : Option ComponentName) (hem : Hem) : Hem :=
  { hem with
    state := if hem.state = .idle then .pollingLoop else hem.state
    activeService := some service
    activeServiceName := name
    enableObserveModeAfterTransaction :=
      hem.enableObserveModeAfterTransaction || !env.alive service
    enableObserveModeOnFieldOff := hem.enableObserveModeOnFieldOff || !env.alive service
    trace := hem.trace ++ .frames service fs ::
      if env.alive service then [] else [.setObserveMode false] }

theorem sendPolling_spec (env : Env) (service : Messenger) (fs : List PollingFrame) (hem : Hem) :
    ∃ name, Rebound (framesSent env service fs name hem)
      (sendPollingFramesToServiceLocked env service fs hem) := by
  have hactive : ∃ name, (if hem.activeService = some service then hem
      else setActiveService service hem) =
      { hem with activeService := some service, activeServiceName := name } := by
    split
    next hact => exact ⟨hem.activeServiceName, by rw [← hact]⟩
    next => exact ⟨_, rfl⟩
  obtain ⟨name, hname⟩ := hactive
  refine ⟨name, ?_⟩
  have hwake : (if hem.state = .idle then
      { hem with
        activeService := some service, activeServiceName := name, state := .pollingLoop }
      else { hem with activeService := some service, activeServiceName := name }) =
      { hem with
        activeService := some service, activeServiceName := name
        state := if hem.state = .idle then .pollingLoop else hem.state } := by
    split <;> rfl
  unfold sendPollingFramesToServiceLocked framesSent
  dsimp only
  rw [hname]
  dsimp only
  rw [hwake]
  cases env.alive service
  · simpa [allowOneTransaction, emit] using rebindIfPayment_rebound env service _
  · simpa [emit] using Rebound.refl _

/-! ## The moves -/

def Quiet (a b : Hem) : Prop :=
  b = { a with
    pendingPollingLoopFrames := b.pendingPollingLoopFrames
    unprocessedPollingFrames := b.unprocessedPollingFrames
    pollingFramesToSend := b.pollingFramesToSend
    pollingLoopState := b.pollingLoopState
    firmwareExitFrame := b.firmwareExitFrame
    autoDisable := b.autoDisable
    autoDisablePosted := b.autoDisablePosted
    returnToIdlePosted := b.returnToIdlePosted
    unbindInactivePosted := b.unbindInactivePosted }

/-- The frames that are kept until it is known where the loop goes. -/
def plain (frames : List PollingFrame) : List PollingFrame :=
  frames.filter fun frame => frame.type ≠ .f ∧ frame.type ≠ .unknown

def arriving (hem : Hem) (frames : List PollingFrame) : List PollingFrame :=
  if hem.unprocessedPollingFrames = none then plain frames else []

/-- With `frames` the polling loop is over, so the pending frames are delivered. -/
def LoopOver (hem : Hem) (frames : List PollingFrame) : Prop :=
  hem.pollingLoopState = .deliveringToPreferred ∨
  hem.pollingLoopState = .evaluatingPollingLoop ∧
    loopIsOver 0 0 0 0 (hem.pendingPollingLoopFrames.getD [] ++ arriving hem frames) = true

/-- A service that `hem` sends some of `frames`, or of the pending ones, to. -/
def Candidate (env : Env) (frames : List PollingFrame) (hem : Hem)
    (key : ComponentNameAndUser) : Prop :=
  env.preferredForPollingLoop = some key ∧ LoopOver hem frames ∨
  hem.unprocessedPollingFrames = none ∧ ∃ frame ∈ frames,
    env.preferredForPollingLoop = some key ∧ frame.type = .f ∨
    frame.type = .unknown ∧ match env.filterService frame.data with
      | none => env.preferredForPollingLoop = some key
      | some info => info.isOnHost = true ∧ info.key = key

/-- An exit from observe mode can be granted: a frame is one to auto-transact
on, nobody is there to get the pending ones, or a service that gets some has died. -/
def Grants (env : Env) (frames : List PollingFrame) (hem : Hem) : Prop :=
  (hem.unprocessedPollingFrames = none ∧ ∃ frame ∈ frames, frame.type = .unknown ∧
    ∃ info, env.filterService frame.data = some info ∧
      env.shouldAutoTransact info frame.data = true) ∨
  env.preferredForPollingLoop = none ∧ LoopOver hem frames ∨
  ∃ key service, Candidate env frames hem key ∧ Knows hem key service ∧
    env.alive service = false

structure Polls (env : Env) (frames : List PollingFrame) (hem : Hem) (P : Hem → Prop) :
    Prop where
  quiet : ∀ {a b : Hem}, Quiet a b → P a → P b
  wake : ∀ {a : Hem}, a.state = .idle → P a → P { a with state := .pollingLoop }
  allow : ∀ {a : Hem}, Grants env frames hem → P a → P (allowOneTransaction a)
  transact : ∀ {a : Hem} (frame : PollingFrame), Grants env frames hem → P a →
    P (autoTransact frame a)
  bind : ∀ {a : Hem} {key : ComponentNameAndUser}, P a → P (bindServiceIfNeededLocked env a key).2
  send : ∀ {a : Hem} {key : ComponentNameAndUser} {service : Messenger} {fs : List PollingFrame},
    Candidate env frames hem key → Knows a key service → P a →
    P (sendPollingFramesToServiceLocked env service fs a)

/-! ## How far the loop has come -/

/-- After the frames `done`: what is known of the fields that decide where the
frames go. -/
structure Track (hem : Hem) (done : List PollingFrame) (a : Hem) : Prop where
  waits : a.unprocessedPollingFrames = none → hem.unprocessedPollingFrames = none
  loop : a.pollingLoopState = hem.pollingLoopState ∨ a.pollingLoopState = .filterMatched
  pending : ∃ pre, pre <+: done ∧ (a.unprocessedPollingFrames = none → pre = done) ∧
    a.pendingPollingLoopFrames.getD [] =
      hem.pendingPollingLoopFrames.getD [] ++ arriving hem pre

theorem loopIsOver_append {xs : List PollingFrame} (ys : List PollingFrame) :
    ∀ {a b on off : Nat}, loopIsOver a b on off xs = true →
      loopIsOver a b on off (xs ++ ys) = true := by
  induction xs with
  | nil => exact fun h => absurd h Bool.false_ne_true
  | cons frame rest ih =>
    intro a b on off h
    unfold loopIsOver at h
    rw [List.cons_append]
    unfold loopIsOver
    cases htype : frame.type <;> rw [htype] at h <;> dsimp only at h ⊢
    · split at h
      next hlim => rw [if_pos hlim]
      next hlim =>
        rw [if_neg hlim]
        exact ih h
    · split at h
      next hlim => rw [if_pos hlim]
      next hlim =>
        rw [if_neg hlim]
        exact ih h
    · exact ih h
    · exact ih h
    · split at h
      next hlim => rw [if_pos hlim]
      next hlim =>
        rw [if_neg hlim]
        exact ih h
    · exact ih h

theorem arriving_mono {hem : Hem} {pre done : List PollingFrame} (h : pre <+: done) :
    arriving hem pre <+: arriving hem done := by
  unfold arriving
  split
  · exact h.filter _
  · exact List.prefix_rfl

/-- A delivery at the end of the loop is one that `LoopOver` announces. -/
theorem Track.loopOver {hem a : Hem} {frames : List PollingFrame} (h : Track hem frames a)
    (hend : a.pollingLoopState = .deliveringToPreferred ∨
      a.pollingLoopState = .evaluatingPollingLoop ∧
        loopIsOver 0 0 0 0 (a.pendingPollingLoopFrames.getD []) = true) : LoopOver hem frames := by
  rcases h.loop with hloop | hloop
  · rw [hloop] at hend
    rcases hend with hend | ⟨hstate, hover⟩
    · exact .inl hend
    · obtain ⟨pre, hpre, -, hpending⟩ := h.pending
      obtain ⟨rest, hrest⟩ := @arriving_mono hem pre frames hpre
      refine .inr ⟨hstate, ?_⟩
      rw [← hrest, ← List.append_assoc, ← hpending]
      exact loopIsOver_append rest hover
  · rw [hloop] at hend
    rcases hend with hend | ⟨hend, -⟩
    · exact absurd hend (by decide)
    · exact absurd hend (by decide)

theorem sendPolling_loop (env : Env) (service : Messenger) (fs : List PollingFrame) (a : Hem) :
    (sendPollingFramesToServiceLocked env service fs a).unprocessedPollingFrames =
        a.unprocessedPollingFrames ∧
      (sendPollingFramesToServiceLocked env service fs a).pollingLoopState = a.pollingLoopState ∧
      (sendPollingFramesToServiceLocked env service fs a).pendingPollingLoopFrames =
        a.pendingPollingLoopFrames := by
  obtain ⟨name, hreb⟩ := sendPolling_spec env service fs a
  rw [hreb.1]
  exact ⟨rfl, rfl, rfl⟩

theorem sendFrames_loop (env : Env) (service : Option Messenger) (name : ComponentName)
    (fs : List PollingFrame) (a : Hem) :
    (sendFramesToServiceLocked env service name fs a).pollingLoopState = a.pollingLoopState ∧
      (sendFramesToServiceLocked env service name fs a).pendingPollingLoopFrames =
        a.pendingPollingLoopFrames := by
  cases service with
  | none =>
    unfold sendFramesToServiceLocked
    dsimp only
    split <;> exact ⟨rfl, rfl⟩
  | some service =>
    have hsent := (sendPolling_loop env service fs a).2
    unfold sendFramesToServiceLocked
    dsimp only
    split <;> exact hsent

theorem bind_loop (env : Env) (key : ComponentNameAndUser) (a : Hem) :
    (bindServiceIfNeededLocked env a key).2.pollingLoopState = a.pollingLoopState ∧
      (bindServiceIfNeededLocked env a key).2.pendingPollingLoopFrames =
        a.pendingPollingLoopFrames := by
  rw [(bind_rebound env a key).1]
  exact ⟨rfl, rfl⟩

theorem sendPreferred_loop (env : Env) (fs : List PollingFrame) (a : Hem) :
    ((sendToPreferred env fs a).getD a).pollingLoopState = a.pollingLoopState ∧
      ((sendToPreferred env fs a).getD a).pendingPollingLoopFrames =
        a.pendingPollingLoopFrames := by
  unfold sendToPreferred
  split
  next => exact ⟨rfl, rfl⟩
  next key _ =>
    obtain ⟨hstate, hpending⟩ := sendFrames_loop env (bindServiceIfNeededLocked env a key).1
      key.componentName fs (bindServiceIfNeededLocked env a key).2
    obtain ⟨hstate', hpending'⟩ := bind_loop env key a
    exact ⟨hstate.trans hstate', hpending.trans hpending'⟩

theorem autoTransact_loop (frame : PollingFrame) (a : Hem) :
    (autoTransact frame a).pollingLoopState = a.pollingLoopState ∧
      (autoTransact frame a).pendingPollingLoopFrames = a.pendingPollingLoopFrames := by
  unfold autoTransact
  split <;> exact ⟨rfl, rfl⟩

/-- A frame that is not pending adds nothing to what arrives. -/
theorem Track.served {hem a b : Hem} {done : List PollingFrame} {frame : PollingFrame}
    (h : Track hem done a) (hnone : a.unprocessedPollingFrames = none)
    (htype : frame.type = .f ∨ frame.type = .unknown)
    (hloop : b.pollingLoopState = a.pollingLoopState ∨ b.pollingLoopState = .filterMatched)
    (hpending : b.pendingPollingLoopFrames = a.pendingPollingLoopFrames) :
    Track hem (done ++ [frame]) b := by
  obtain ⟨pre, -, hpre, heq⟩ := h.pending
  have hplain : plain [frame] = [] := by
    rcases htype with htype | htype <;> simp [plain, htype]
  refine ⟨fun _ => h.waits hnone, ?_, done ++ [frame], List.prefix_rfl, fun _ => rfl, ?_⟩
  · rcases hloop with hloop | hloop
    · rw [hloop]
      exact h.loop
    · exact .inr hloop
  · rw [hpending, heq, hpre hnone]
    have happend : plain (done ++ [frame]) = plain done := by
      unfold plain at hplain ⊢
      rw [List.filter_append, hplain, List.append_nil]
    rw [arriving, arriving, happend]

theorem Track.process {env : Env} {hem a : Hem} {done : List PollingFrame} (frame : PollingFrame)
    (h : Track hem done a) : Track hem (done ++ [frame]) (processFrame env a frame) := by
  unfold processFrame
  split
  next frames hsome =>
    obtain ⟨pre, hpre, -, heq⟩ := h.pending
    exact ⟨fun hnone => absurd hnone (by simp), h.loop,
      pre, hpre.trans (List.prefix_append _ _), fun hnone => absurd hnone (by simp), heq⟩
  next hnone =>
    split
    next htype =>
      obtain ⟨hstate, hpending⟩ := sendPreferred_loop env [frame] a
      exact h.served hnone (.inl htype) (.inl hstate) hpending
    next htype =>
      split
      next =>
        obtain ⟨hstate, hpending⟩ := sendPreferred_loop env [frame] a
        exact h.served hnone (.inr htype) (.inl hstate) hpending
      next info _ =>
        have hauto : ∀ c : Bool,
            (if c then autoTransact frame a else a).pollingLoopState = a.pollingLoopState ∧
            (if c then autoTransact frame a else a).pendingPollingLoopFrames =
              a.pendingPollingLoopFrames := by
          intro c
          cases c
          · exact ⟨rfl, rfl⟩
          · exact autoTransact_loop frame a
        obtain ⟨hstate, hpending⟩ := hauto (env.shouldAutoTransact info frame.data)
        dsimp only
        split
        next =>
          obtain ⟨hsent, hsent'⟩ := sendFrames_loop env (bindServiceIfNeededLocked env
            (if env.shouldAutoTransact info frame.data then autoTransact frame a else a)
              info.key).1 info.component [frame]
            { (bindServiceIfNeededLocked env
                (if env.shouldAutoTransact info frame.data then autoTransact frame a else a)
                info.key).2 with pollingLoopState := .filterMatched }
          exact h.served hnone (.inr htype) (.inr hsent)
            ((hsent'.trans (bind_loop env info.key _).2).trans hpending)
        next => exact h.served hnone (.inr htype) (.inl hstate) hpending
    next hf hunknown =>
      obtain ⟨pre, -, hpre, heq⟩ := h.pending
      refine ⟨fun _ => h.waits hnone, h.loop, done ++ [frame], List.prefix_rfl, fun _ => rfl, ?_⟩
      have hplain : plain [frame] = [frame] := by
        simp only [plain, List.filter_cons, List.filter_nil]
        rw [if_pos (decide_eq_true ⟨hf, hunknown⟩)]
      have happend : plain (done ++ [frame]) = plain done ++ [frame] := by
        unfold plain at hplain ⊢
        rw [List.filter_append, hplain]
      dsimp only [Option.getD_some]
      rw [heq, hpre hnone, arriving, arriving, if_pos (h.waits hnone), if_pos (h.waits hnone),
        happend, List.append_assoc]

/-! ## The whole call -/

variable {env : Env} {frames : List PollingFrame} {hem : Hem} {P : Hem → Prop}

theorem Knows.quiet {a b : Hem}
    (h : Knows a key service) (hq : Quiet a b) : Knows b key service := by
  rw [hq]
  exact h

namespace Polls

variable {a : Hem}

/-- The runnable that `sendFramesToServiceLocked` posts in the end. -/
theorem watch (h : Polls env frames hem P) {c : Bool} (hP : P a) :
    P (if c then { a with autoDisable := true, autoDisablePosted := true } else a) := by
  cases c
  · exact hP
  · exact h.quiet rfl hP

variable {fs : List PollingFrame}

section
variable (h : Polls env frames hem P)
include h

theorem sendFrames {key : ComponentNameAndUser}
    {service : Option Messenger} (hcand : Candidate env frames hem key)
    (hknows : ∀ m, service = some m → Knows a key m) (hP : P a) :
    P (sendFramesToServiceLocked env service key.componentName fs a) := by
  cases service with
  | some m => exact h.watch (h.send hcand (hknows m rfl) hP)
  | none => exact h.watch (h.quiet rfl hP)

/-- A bind, some bookkeeping and a send to what the bind returned. -/
theorem bindAndSend {a mid : Hem} {key : ComponentNameAndUser}
    (hcand : Candidate env frames hem key) (hP : P a)
    (hmid : Quiet (bindServiceIfNeededLocked env a key).2 mid) :
    P (sendFramesToServiceLocked env (bindServiceIfNeededLocked env a key).1
      key.componentName fs mid) := by
  refine h.sendFrames hcand (fun m hm => ?_) (h.quiet hmid (h.bind hP))
  obtain ⟨hknows, hsame⟩ := bind_some hm
  rw [hsame] at hmid
  exact hknows.quiet hmid

theorem sendPreferred {a sent : Hem}
    (hcand : ∀ key, env.preferredForPollingLoop = some key → Candidate env frames hem key)
    (hP : P a) (hsent : sendToPreferred env fs a = some sent) : P sent := by
  unfold sendToPreferred at hsent
  split at hsent
  next => exact absurd hsent (by simp)
  next key hkey =>
    obtain rfl := Option.some.inj hsent
    exact h.bindAndSend (hcand key hkey) hP rfl

theorem sendPreferred_getD
    (hcand : ∀ key, env.preferredForPollingLoop = some key → Candidate env frames hem key)
    (hP : P a) : P ((sendToPreferred env fs a).getD a) := by
  cases hsent : sendToPreferred env fs a with
  | none => exact hP
  | some sent => exact h.sendPreferred hcand hP hsent

theorem filtered {frame : PollingFrame}
    {info : ApduServiceInfo} (hnone : hem.unprocessedPollingFrames = none) (hmem : frame ∈ frames)
    (htype : frame.type = .unknown) (hinfo : env.filterService frame.data = some info) (hP : P a) :
    P (if info.isOnHost then
      sendFramesToServiceLocked env (bindServiceIfNeededLocked env
        (if env.shouldAutoTransact info frame.data then autoTransact frame a else a)
          info.key).1 info.component [frame]
        { (bindServiceIfNeededLocked env
            (if env.shouldAutoTransact info frame.data then autoTransact frame a else a)
            info.key).2 with pollingLoopState := .filterMatched }
      else if env.shouldAutoTransact info frame.data then autoTransact frame a else a) := by
  have hauto : P (if env.shouldAutoTransact info frame.data then autoTransact frame a
      else a) := by
    split
    next hauto =>
      exact h.transact frame (.inl ⟨hnone, frame, hmem, htype, info, hinfo, hauto⟩) hP
    next => exact hP
  split
  next honHost =>
    refine h.bindAndSend (.inr ⟨hnone, frame, hmem, .inr ⟨htype, ?_⟩⟩) hauto rfl
    rw [hinfo]
    exact ⟨honHost, rfl⟩
  next => exact hauto

theorem process {done : List PollingFrame}
    {frame : PollingFrame} (htrack : Track hem done a) (hmem : frame ∈ frames) (hP : P a) :
    P (processFrame env a frame) := by
  unfold processFrame
  split
  next => exact h.quiet rfl hP
  next hnone =>
    have hnone' := htrack.waits hnone
    split
    next htype =>
      exact h.sendPreferred_getD
        (fun key hkey => .inr ⟨hnone', frame, hmem, .inl ⟨hkey, htype⟩⟩) hP
    next htype =>
      split
      next hinfo =>
        refine h.sendPreferred_getD
          (fun key hkey => .inr ⟨hnone', frame, hmem, .inr ⟨htype, ?_⟩⟩) hP
        rw [hinfo]
        exact hkey
      next info hinfo => exact h.filtered hnone' hmem htype hinfo hP
    next => exact h.quiet rfl hP

theorem wakeUp (hP : P a) :
    P (if a.state = .idle then { a with state := .pollingLoop } else a) := by
  split
  next hidle => exact h.wake hidle hP
  next => exact hP

theorem begin (hP : P a) :
    P (beginPollingLoop frames a) := by
  have hsched : P (if frames.getLast?.map PollingFrame.type = some .off then
      { rescheduleInactivityChecks a with
        returnToIdlePosted := (rescheduleInactivityChecks a).returnToIdlePosted + 1 }
      else rescheduleInactivityChecks a) := by
    split
    · exact h.quiet (a := a) rfl hP
    · exact h.quiet (a := a) rfl hP
  exact h.quiet rfl (h.wakeUp hsched)

theorem deliver {pending : List PollingFrame}
    (hover : a.pollingLoopState = .deliveringToPreferred → LoopOver hem frames) (hP : P a) :
    P (deliverPending env pending a) := by
  unfold deliverPending
  split
  next hstate =>
    have hover := hover hstate
    cases hsent : sendToPreferred env pending a with
    | some sent =>
      exact h.quiet (a := sent) rfl
        (h.sendPreferred (fun key hkey => .inl ⟨hkey, hover⟩) hP hsent)
    | none =>
      refine h.allow (.inr (.inl ⟨?_, hover⟩)) hP
      unfold sendToPreferred at hsent
      split at hsent
      next hnone => exact hnone
      next => exact absurd hsent (by simp)
  next => exact hP

theorem finish (htrack : Track hem frames a) (hP : P a) :
    P (endPollingLoop env a) := by
  unfold endPollingLoop
  dsimp only
  refine h.deliver (fun hstate => htrack.loopOver ?_) ?_
  · split at hstate
    next hcond => exact .inr ⟨hcond.1, hcond.2.2⟩
    next => exact .inl hstate
  · split
    · exact h.quiet (a := a) rfl hP
    · exact h.quiet (a := a) rfl hP

theorem fold (rest : List PollingFrame) :
    ∀ {done : List PollingFrame} {a : Hem}, (∀ f ∈ rest, f ∈ frames) → Track hem done a → P a →
      Track hem (done ++ rest) (rest.foldl (processFrame env) a) ∧
        P (rest.foldl (processFrame env) a) := by
  induction rest with
  | nil =>
    intro done a _ htrack hP
    rw [List.append_nil]
    exact ⟨htrack, hP⟩
  | cons frame rest ih =>
    intro done a hsub htrack hP
    have hrest := ih (fun f hf => hsub f (List.mem_cons_of_mem _ hf)) (htrack.process frame)
      (h.process htrack (hsub frame List.mem_cons_self) hP)
    rw [List.append_assoc] at hrest
    exact hrest

end

end Polls

theorem track_begin (frames : List PollingFrame) (hem : Hem) :
    Track hem [] (beginPollingLoop frames hem) := by
  have hsame : (beginPollingLoop frames hem).unprocessedPollingFrames =
        hem.unprocessedPollingFrames ∧
      (beginPollingLoop frames hem).pollingLoopState = hem.pollingLoopState ∧
      (beginPollingLoop frames hem).pendingPollingLoopFrames =
        some (hem.pendingPollingLoopFrames.getD []) := by
    unfold beginPollingLoop
    dsimp only
    split <;> split <;> exact ⟨rfl, rfl, rfl⟩
  obtain ⟨hunprocessed, hstate, hpending⟩ := hsame
  refine ⟨fun h => hunprocessed ▸ h, .inl hstate, [], List.prefix_rfl, fun _ => rfl, ?_⟩
  rw [hpending, Option.getD_some]
  simp [arriving, plain]

/-- A predicate that every move keeps is kept by the whole call. -/
theorem Polls.detected (h : Polls env frames hem P) (hP : P hem) :
    P (onPollingLoopDetected env frames hem) := by
  obtain ⟨htrack, hP⟩ := h.fold frames (fun _ hf => hf) (track_begin frames hem) (h.begin hP)
  exact h.finish htrack hP

def waitingFrames (hem : Hem) (name : ComponentName) : Option (List PollingFrame) :=
  (hem.pollingFramesToSend.bind fun toSend => toSend.find? fun entry => entry.1 = name).map Prod.snd

/-- What is left once they are sent: the state the unprocessed frames come to. -/
def afterWaiting (env : Env) (service : Messenger) (name : ComponentName)
    (fs : List PollingFrame) (hem : Hem) : Hem :=
  let sent := sendPollingFramesToServiceLocked env service fs hem
  { sent with
    pollingFramesToSend :=
      sent.pollingFramesToSend.map (List.filter fun entry => entry.1 ≠ name)
    unprocessedPollingFrames := none }

/-- The same for a connection callback, given what the send of the frames that
waited does. -/
theorem Polls.waiting {service : Messenger} {name : ComponentName}
    (h : ∀ fs, waitingFrames hem name = some fs →
      Polls env (hem.unprocessedPollingFrames.getD []) (afterWaiting env service name fs hem) P)
    (hsend : ∀ fs, waitingFrames hem name = some fs →
      P (sendPollingFramesToServiceLocked env service fs hem)) (hP : P hem) :
    P (sendWaitingFrames env service name hem) := by
  unfold sendWaitingFrames
  split
  next => exact hP
  next entry hentry =>
    have hwait : waitingFrames hem name = some entry.2 := by rw [waitingFrames, hentry]; rfl
    have hpolls := h entry.2 hwait
    have hsent := hsend entry.2 hwait
    have hrest := (sendPolling_loop env service entry.2 hem).1
    dsimp only
    split
    next frames hframes =>
      rw [hrest] at hframes
      rw [hframes] at hpolls
      exact hpolls.detected (hpolls.quiet
        (a := sendPollingFramesToServiceLocked env service entry.2 hem) rfl hsent)
    next =>
      exact hpolls.quiet (a := sendPollingFramesToServiceLocked env service entry.2 hem) rfl hsent

/-! ## Callbacks in terms of the state they find -/

def resumed (hem : Hem) : Hem := { hem with unprocessedPollingFrames := none }

/-- `a` decides about frames as `b` does, and knows no service that `b` does not. -/
def Decides (a b : Hem) : Prop :=
  a.unprocessedPollingFrames = b.unprocessedPollingFrames ∧
  a.pollingLoopState = b.pollingLoopState ∧
  a.pendingPollingLoopFrames = b.pendingPollingLoopFrames ∧
  ∀ key service, Knows a key service → Knows b key service

theorem loopOver_of {a b : Hem} (h : Decides a b) (hover : LoopOver a frames) :
    LoopOver b frames := by
  obtain ⟨hwait, hstate, hpending, -⟩ := h
  unfold LoopOver arriving at *
  rwa [← hwait, ← hstate, ← hpending]

theorem candidate_of {a b : Hem} {key : ComponentNameAndUser} (h : Decides a b)
    (hcand : Candidate env frames a key) : Candidate env frames b key := by
  rcases hcand with ⟨hkey, hover⟩ | ⟨hnone, hframe⟩
  · exact .inl ⟨hkey, loopOver_of h hover⟩
  · exact .inr ⟨h.1 ▸ hnone, hframe⟩

theorem grants_of {a b : Hem} (h : Decides a b) (hgrants : Grants env frames a) :
    Grants env frames b := by
  rcases hgrants with ⟨hnone, hframe⟩ | ⟨hpref, hover⟩ | ⟨key, service, hcand, hknows, hdead⟩
  · exact .inl ⟨h.1 ▸ hnone, hframe⟩
  · exact .inr (.inl ⟨hpref, loopOver_of h hover⟩)
  · exact .inr (.inr ⟨key, service, candidate_of h hcand, h.2.2.2 key service hknows, hdead⟩)

theorem afterWaiting_decides (env : Env) (service : Messenger) (name : ComponentName)
    (fs : List PollingFrame) (hem : Hem) :
    Decides (afterWaiting env service name fs hem) (resumed hem) := by
  obtain ⟨sentName, hreb⟩ := sendPolling_spec env service fs hem
  obtain ⟨-, hstate, hpending⟩ := sendPolling_loop env service fs hem
  exact ⟨rfl, hstate, hpending, fun key m h => hreb.2 key m h⟩

def KnownBy (hem a : Hem) : Prop := ∀ key service, Knows a key service → Knows hem key service

theorem KnownBy.rebound {hem a b : Hem} (h : KnownBy hem a) (hreb : Rebound a b) : KnownBy hem b :=
  fun key service hknows => h key service (hreb.2 key service hknows)

theorem knownBy_sendPolling {env : Env} {service : Messenger} {fs : List PollingFrame}
    {hem a : Hem} (h : KnownBy hem a) :
    KnownBy hem (sendPollingFramesToServiceLocked env service fs a) := by
  obtain ⟨name, hreb⟩ := sendPolling_spec env service fs a
  exact KnownBy.rebound (a := framesSent env service fs name a) h hreb

end NfcStack.CardEmulation.Hce
