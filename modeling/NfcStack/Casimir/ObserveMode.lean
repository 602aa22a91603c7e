import NfcStack.Lib.Run
import NfcStack.Lib.Monitor
import NfcStack.Casimir.PollFrames

/- The observe mode across exit frames. `poll_command` remembers the mode at every
   frame that matches an exit frame, also at one that comes during a suspension,
   when the mode is already `Disable`; `tick` then restores that.

   What is proved:
     1. `remembers_step`: a step keeps the mode the host set last, in force or
        remembered, when no frame matches during a suspension.
     2. `rematch_breaks`, `broken_stays`: a frame that matches during a suspension
        is announced as a second suspension, and no later step takes it back.
     3. `observe_mode_restored`: a run restores the mode of the host, with its
        notifications in turn, exactly when no frame matches during a suspension.
     4. `mode_lost`: two matching frames, and the mode stays disabled. -/
namespace NfcStack.Casimir
open NfcStack.Lib

/-! ## What the host sees -/

def Event.hostMode : Event → Option UInt8
  | .setMode mode => some (if mode = modeDisable then modeDisable else maskAllOn)
  | .setTech techMask => some techMask
  | _ => none

def hostNext (host : UInt8) (e : Event) : UInt8 := e.hostMode.getD host

/-- The mode the host set last; a new controller does not observe. -/
def hostMode (es : List Event) : UInt8 := es.foldl hostNext modeDisable

/-- Suspended and resumed notifications alternate, starting with suspended; a host
command that sets the mode ends a suspension without a notification. -/
def nextNtf : Bool → Packet → Option Bool
  | suspended, .passiveObserverSuspended _ _ => if suspended then none else some true
  | suspended, .passiveObserverResumed => if suspended then some false else none
  | _, .passiveObserveModeResponse _ => some false
  | suspended, _ => some suspended

/-- The mode is the one of the host unless a suspension is in progress, and the
notifications came in turn. -/
structure Restores (host : UInt8) (c : State) : Prop where
  mode : c.passiveObserveMode = if c.exitFrameStartTime.isSome then modeDisable else host
  alternate : (watch nextNtf false c.sent).isSome

/-- The event is no polling frame that matches an exit frame during a suspension. -/
def SingleMatch (c : State) : Event → Prop
  | .polled cmd _ => c.rfState = .discovery → c.exitFrameStartTime.isSome →
      c.hasExitFrame cmd.data cmd.technology = false
  | _ => True

instance (c : State) (e : Event) : Decidable (SingleMatch c e) := by
  unfold SingleMatch
  split <;> infer_instance

structure Remembers (c : State) (host : UInt8) : Prop where
  mode : c.passiveObserveMode = if c.exitFrameStartTime.isSome then modeDisable else host
  last : c.exitFrameStartTime.isSome → c.lastObserveModeState = some host
  told : watch nextNtf false c.sent = some c.exitFrameStartTime.isSome

theorem Remembers.restores {c : State} {host : UInt8} (h : Remembers c host) :
    Restores host c := by
  refine ⟨h.mode, ?_⟩
  rw [h.told]
  rfl

theorem remembers_new (id : UInt16) (params : ConfigParameters) (now : Nat) :
    Remembers (State.new id params now) (hostMode []) :=
  ⟨rfl, fun h => (by cases h), rfl⟩

section Steps
variable {c d : State} {host : UInt8}

/-! ## Packets that are no notification -/

def Packet.isQuiet : Packet → Bool
  | .passiveObserverSuspended _ _ => false
  | .passiveObserverResumed => false
  | .passiveObserveModeResponse _ => false
  | _ => true

theorem nextNtf_quiet {p : Packet} (hp : p.isQuiet = true) (b : Bool) :
    nextNtf b p = some b := by
  cases p with
  | passiveObserveModeResponse _ => cases hp
  | passiveObserverSuspended _ _ => cases hp
  | passiveObserverResumed => cases hp
  | setPassiveObserverExitFrameResponse _ => cases b <;> rfl
  | pollingLoop _ => cases b <;> rfl
  | nfcAPollResponse _ _ _ _ _ => cases b <;> rfl
  | poll _ => cases b <;> rfl

theorem Remembers.send (h : Remembers c host) {p : Packet} (hp : p.isQuiet = true) :
    Remembers (c.send p) host :=
  ⟨h.mode, h.last, watch_append_one h.told (nextNtf_quiet hp _)⟩

/-! ## One step -/

theorem remembers_set (h : Remembers c host) (mode : UInt8) :
    Remembers ({ c with
      passiveObserveMode := mode
      lastObserveModeState := none
      exitFrameStartTime := none }.send (.passiveObserveModeResponse .ok)) mode :=
  ⟨rfl, fun hs => (by cases hs), watch_append_one h.told (by cases c.exitFrameStartTime <;> rfl)⟩

theorem remembers_setExitFrames (h : Remembers c host) {timeout : UInt16}
    {frames : List ExitFrameEntry}
    (hd : androidSetPassiveObserverExitFrames c timeout frames = some d) : Remembers d host := by
  unfold androidSetPassiveObserverExitFrames at hd
  split at hd
  · obtain ⟨exitFrames, -, rfl⟩ := Option.map_eq_some_iff.mp hd
    exact (⟨h.mode, h.last, h.told⟩ : Remembers { c with
      exitFrameTimeout := timeout.toNat, exitFrames := exitFrames } host).send rfl
  · cases hd
    exact h.send rfl

variable {cmd : PollCommand} {now : Nat}

theorem suspend_spec (hd : suspend c cmd now = some d) :
    ∃ type, d = { c with
      lastObserveModeState := some c.passiveObserveMode
      passiveObserveMode := modeDisable
      exitFrameStartTime := some now
      sent := c.sent ++ [.passiveObserverSuspended type cmd.data] } := by
  unfold suspend sendSuspended at hd
  split at hd
  · cases hd
  · next type _ =>
    split at hd
    · cases hd
      exact ⟨type, rfl⟩
    · cases hd

theorem remembers_suspend (h : Remembers c host) (hs : c.exitFrameStartTime = none)
    (hd : suspend c cmd now = some d) : Remembers d host := by
  obtain ⟨type, rfl⟩ := suspend_spec hd
  have hmode : c.passiveObserveMode = host := by
    rw [h.mode, hs]
    rfl
  have htold : watch nextNtf false c.sent = some false := by
    rw [h.told, hs]
    rfl
  exact ⟨rfl, fun _ => congrArg some hmode, watch_append_one htold rfl⟩

/-- After the check for exit frames a polling frame says nothing more about the mode. -/
theorem pollCommand_spec (hd : pollCommand c cmd now = some d) :
    c.rfState ≠ .discovery ∧ d = c ∨
    c.rfState = .discovery ∧ ∃ u,
      (if c.hasExitFrame cmd.data cmd.technology then suspend c cmd now else some c) = some u ∧
      ∃ v, sendPollingLoop u cmd now = some v ∧ d = respond v cmd := by
  unfold pollCommand at hd
  split at hd
  · next hrf =>
    cases hd
    exact Or.inl ⟨hrf, rfl⟩
  · next hrf =>
    obtain ⟨u, hu, hd⟩ := Option.bind_eq_some_iff.mp hd
    obtain ⟨v, hv, rfl⟩ := Option.map_eq_some_iff.mp hd
    exact Or.inr ⟨not_not.mp hrf, u, hu, v, hv, rfl⟩

theorem remembers_sendPollingLoop (h : Remembers c host)
    (hd : sendPollingLoop c cmd now = some d) : Remembers d host := by
  unfold sendPollingLoop at hd
  split at hd
  · cases hd
    exact h.send rfl
  · cases hd

theorem remembers_respond (h : Remembers c host) (cmd : PollCommand) :
    Remembers (respond c cmd) host := by
  unfold respond
  split
  · exact h
  · split
    · split
      · exact h.send rfl
      · exact h
    · exact h

theorem remembers_pollCommand (h : Remembers c host)
    (hok : SingleMatch c (.polled cmd now)) (hd : pollCommand c cmd now = some d) :
    Remembers d host := by
  rcases pollCommand_spec hd with ⟨-, rfl⟩ | ⟨hrf, u, hu, v, hv, rfl⟩
  · exact h
  · have hu' : Remembers u host := by
      split at hu
      · next hmatch =>
        cases hs : c.exitFrameStartTime with
        | none => exact remembers_suspend h hs hu
        | some since =>
          rw [hok hrf (by rw [hs]; rfl)] at hmatch
          cases hmatch
      · cases hu
        exact h
    exact remembers_respond (remembers_sendPollingLoop hu' hv) cmd

theorem remembers_resume (h : Remembers c host) (now : Nat) : Remembers (resume c now) host := by
  unfold resume
  split
  · exact h
  · next since hs =>
    split
    · have hlast : c.lastObserveModeState = some host := h.last (by rw [hs]; rfl)
      have htold : watch nextNtf false c.sent = some true := by
        rw [h.told, hs]
        rfl
      refine ⟨?_, fun hn => (by cases hn), watch_append_one htold rfl⟩
      show c.lastObserveModeState.getD maskAllOn = host
      rw [hlast]
      rfl
    · exact h

theorem remembers_sendPoll (h : Remembers c host) (config : RfTechnologyAndMode) :
    Remembers (sendPoll c config) host := by
  unfold sendPoll
  split
  · exact h
  · exact h.send rfl

theorem remembers_sendPolls (configs : List RfTechnologyAndMode) :
    ∀ {c : State}, Remembers c host → Remembers (configs.foldl sendPoll c) host := by
  induction configs with
  | nil => exact fun h => h
  | cons config configs ih => exact fun h => ih (remembers_sendPoll h config)

theorem remembers_tick (h : Remembers c host) (now : Nat) : Remembers (tick c now) host := by
  unfold tick
  split
  · exact h
  · exact remembers_sendPolls _ (remembers_resume h now)

theorem remembers_step {e : Event} (h : Remembers c host) (hok : SingleMatch c e)
    (hd : step c e = some d) : Remembers d (hostNext host e) := by
  cases e with
  | setMode mode =>
    cases hd
    exact remembers_set h _
  | setTech techMask =>
    cases hd
    exact remembers_set h techMask
  | setExitFrames timeout frames => exact remembers_setExitFrames h hd
  | polled cmd now => exact remembers_pollCommand h hok hd
  | tick now =>
    cases hd
    exact remembers_tick h now
  | rf rfState discoverConfiguration =>
    cases hd
    exact ⟨h.mode, h.last, h.told⟩

/-! ## A second match -/

def Broken (c : State) : Prop := watch nextNtf false c.sent = none

theorem Broken.grows (h : Broken c) (hd : c.sent <+: d.sent) : Broken d := by
  obtain ⟨items, hitems⟩ := hd
  rw [Broken, ← hitems]
  exact watch_broken h

theorem sent_send (p : Packet) : c.sent <+: (c.send p).sent := List.prefix_append _ _

theorem sent_respond (cmd : PollCommand) : c.sent <+: (respond c cmd).sent := by
  unfold respond
  split
  · exact List.prefix_rfl
  · split
    · split
      · exact sent_send _
      · exact List.prefix_rfl
    · exact List.prefix_rfl

theorem sent_sendPollingLoop (hd : sendPollingLoop c cmd now = some d) : c.sent <+: d.sent := by
  unfold sendPollingLoop at hd
  split at hd
  · cases hd
    exact sent_send _
  · cases hd

theorem sent_resume (now : Nat) : c.sent <+: (resume c now).sent := by
  unfold resume
  split
  · exact List.prefix_rfl
  · split
    · exact List.prefix_append _ _
    · exact List.prefix_rfl

theorem sent_sendPolls (configs : List RfTechnologyAndMode) :
    ∀ {c : State}, c.sent <+: (configs.foldl sendPoll c).sent := by
  induction configs with
  | nil => exact List.prefix_rfl
  | cons config configs ih =>
    intro c
    refine List.IsPrefix.trans ?_ ih
    unfold sendPoll
    split
    · exact List.prefix_rfl
    · exact sent_send _

theorem sent_grows {e : Event} (hd : step c e = some d) : c.sent <+: d.sent := by
  cases e with
  | setMode mode =>
    cases hd
    exact List.prefix_append _ _
  | setTech techMask =>
    cases hd
    exact List.prefix_append _ _
  | setExitFrames timeout frames =>
    simp only [step, androidSetPassiveObserverExitFrames] at hd
    split at hd
    · obtain ⟨exitFrames, -, rfl⟩ := Option.map_eq_some_iff.mp hd
      exact List.prefix_append _ _
    · cases hd
      exact sent_send _
  | polled cmd now =>
    rcases pollCommand_spec hd with ⟨-, rfl⟩ | ⟨-, u, hu, v, hv, rfl⟩
    · exact List.prefix_rfl
    · have hcu : c.sent <+: u.sent := by
        split at hu
        · obtain ⟨type, rfl⟩ := suspend_spec hu
          exact List.prefix_append _ _
        · cases hu
          exact List.prefix_rfl
      exact (hcu.trans (sent_sendPollingLoop hv)).trans (sent_respond cmd)
  | tick now =>
    cases hd
    unfold tick
    split
    · exact List.prefix_rfl
    · exact (sent_resume now).trans (sent_sendPolls _)
  | rf rfState discoverConfiguration =>
    cases hd
    exact List.prefix_rfl

theorem broken_stays {e : Event} (h : Broken c) (hd : step c e = some d) : Broken d :=
  h.grows (sent_grows hd)

/-- A frame that matches during a suspension is announced as a second suspension. -/
theorem rematch_breaks {e : Event} (h : Remembers c host) (hok : ¬ SingleMatch c e)
    (hd : step c e = some d) : Broken d := by
  cases e with
  | polled cmd now =>
    obtain ⟨hrf, hs, hmatch⟩ : c.rfState = .discovery ∧ c.exitFrameStartTime.isSome = true ∧
        c.hasExitFrame cmd.data cmd.technology = true := by
      simpa [SingleMatch] using hok
    rcases pollCommand_spec hd with ⟨hne, -⟩ | ⟨-, u, hu, v, hv, rfl⟩
    · exact absurd hrf hne
    · rw [if_pos hmatch] at hu
      obtain ⟨type, rfl⟩ := suspend_spec hu
      have htold : watch nextNtf false c.sent = some true := by rw [h.told, hs]
      have hbroken : Broken { c with
          lastObserveModeState := some c.passiveObserveMode
          passiveObserveMode := modeDisable
          exitFrameStartTime := some now
          sent := c.sent ++ [.passiveObserverSuspended type cmd.data] } :=
        (watch_append htold).trans rfl
      exact hbroken.grows ((sent_sendPollingLoop hv).trans (sent_respond cmd))
  | setMode _ => exact absurd trivial hok
  | setTech _ => exact absurd trivial hok
  | setExitFrames _ _ => exact absurd trivial hok
  | tick _ => exact absurd trivial hok
  | rf _ _ => exact absurd trivial hok

end Steps

/-! ## Runs -/

theorem observe_mode_restored (id : UInt16) (params : ConfigParameters) (now : Nat)
    (es : List Event) (c : State) (hrun : run step (State.new id params now) es = some c) :
    Restores (hostMode es) c ↔ StepsOk step SingleMatch (State.new id params now) es := by
  have hexact := @run_exact State Event UInt8 step SingleMatch hostNext Remembers Broken
    (fun _ _ _ _ h hok hd => remembers_step h hok hd)
    (fun _ _ _ _ h hok hd => rematch_breaks h hok hd)
    (fun _ _ _ h hd => broken_stays h hd) es _ _ _ (remembers_new id params now) hrun
  rcases hexact with ⟨hsteps, hc⟩ | ⟨hsteps, hc⟩
  · exact ⟨fun _ => hsteps, fun _ => hc.restores⟩
  · refine ⟨fun h => ?_, fun h => absurd h hsteps⟩
    have hsome := h.alternate
    rw [hc] at hsome
    cases hsome

def annotation : PollCommand :=
  { sender := 1, technology := .nfcA, format := .short, powerLevel := 255, payload := [0x12] }

/-- Observe mode on, an exit frame for the annotation with a timeout of 100 ms, and discovery. -/
def observing : List Event :=
  [.setMode 1, .setExitFrames 100 [{ qualifierType := 0x00, fieldValue := [0x01, 0x12, 0xFF] }],
    .rf .discovery [.nfcAPassiveListenMode]]

def newController : State :=
  State.new 0 { laNfcid1 := [0x08, 0, 0, 0], laSelInfo := 0x60, laBitFrameSdd := 0x10 } 0

/-- One annotation, a tick during the suspension and a tick that ends it. -/
def matchedOnce : List Event :=
  observing ++ [.polled annotation 1000000, .tick 50000000, .tick 200000000]

theorem observe_mode_restored_once :
    ∃ c, run step newController matchedOnce = some c ∧ Restores (hostMode matchedOnce) c := by
  obtain ⟨c, hc⟩ : ∃ c, run step newController matchedOnce = some c :=
    Option.isSome_iff_exists.mp (by decide +kernel)
  exact ⟨c, hc, (observe_mode_restored 0 _ 0 matchedOnce c hc).mpr (by decide +kernel)⟩

/-- The annotation comes again during the suspension. -/
def matchedTwice : List Event :=
  observing ++ [.polled annotation 1000000, .polled annotation 2000000, .tick 200000000]

/-- The suspension is over and the host observes all technologies; the mode is disabled. -/
theorem mode_lost : ∃ c, run step newController matchedTwice = some c ∧
    hostMode matchedTwice = maskAllOn ∧ c.exitFrameStartTime = none ∧
    c.passiveObserveMode = modeDisable ∧ ¬ Restores (hostMode matchedTwice) c := by
  have hlost : (run step newController matchedTwice).any (fun c =>
      c.exitFrameStartTime == none && c.passiveObserveMode == modeDisable) = true := by
    decide +kernel
  obtain ⟨c, hc, hstate⟩ := (Option.any_eq_true _ _).mp hlost
  rw [Bool.and_eq_true, beq_iff_eq, beq_iff_eq] at hstate
  refine ⟨c, hc, rfl, hstate.1, hstate.2, fun h => ?_⟩
  have hmode := h.mode
  rw [hstate.1, hstate.2] at hmode
  exact absurd hmode (by decide)

end NfcStack.Casimir
