import NfcStack.Lib.Run

/- The task timers of the GKI (`gki_time.cc`: `GKI_start_timer`, `GKI_stop_timer`,
   `GKI_timer_update`, `gki_adjust_timer_count`). Ticks are collected in
   `OSTicksTilExp` and only taken off the timers when the nearest deadline is
   reached; `OSNumOrigTicks - OSTicksTilExp` are the ticks collected so far, and a
   timer started in between is given that many more.

   What is proved:
     1. `timerInv_start`, `timerInv_stop`, `timerInv_update`: each call keeps what
        the counts of the timers say about their deadlines.
     2. `update_signals`: an update signals exactly the timers that it makes due.
     3. `task_timers_exact`: over every run, no running timer is overdue,
        `OSTicksTilExp` is at most the time left of each, an update signals a timer
        exactly if it reaches its deadline, stops it if it is one-shot and else
        arms it again, and nothing but its own start and stop changes it before.

   `now`, `armed` and `request` are history: the ticks since the start, and for each
   timer when it was last armed and for how many ticks; `signals` are the events
   sent to the tasks. Counts are integers: the runs are those in which the collected
   ticks fit in 32 bits. Timers of a task that was shut down are not serviced.
   `OSWaitTmr` is always 0, and updates are not nested. -/
namespace NfcStack.Gki
open NfcStack.Lib

/-! ## The code -/

abbrev gkiNumTimers : Nat := 3
abbrev gkiMaxInt32 : Int := 0x7fffffff
abbrev gkiNoNewTmrsStarted : Int := 0x7fffffff
def gkiDelayStopSysTick : Nat := 10

abbrev TimerIx (tasks : Nat) := Fin tasks × Fin gkiNumTimers

structure TaskTimers (tasks : Nat) where
  osTicks : UInt32 := 0
  osTicksTilExp : Int := 0
  osTicksTilStop : Nat := 0
  osNumOrigTicks : Int := 0
  osTaskTmr : TimerIx tasks → Int := fun _ => 0
  osTaskTmrR : TimerIx tasks → Int := fun _ => 0
  osRdyTbl : Fin tasks → Bool := fun _ => true
  pTickCb : Bool := false
  systemTickRunning : Bool := false
  now : Nat := 0
  armed : TimerIx tasks → Nat := fun _ => 0
  request : TimerIx tasks → Int := fun _ => 0
  signals : List (TimerIx tasks × Nat) := []

section Code
variable {tasks : Nat}

def gkiTimersIsTimerRunning (s : TaskTimers tasks) : Bool := decide (∃ x, s.osTaskTmr x ≠ 0)

def gkiAdjustTimerCount (s : TaskTimers tasks) (ticks : Int) : TaskTimers tasks :=
  if ticks > 0 ∧
      (s.osNumOrigTicks = 0 ∨ (ticks < s.osTicksTilExp ∧ s.osTicksTilExp > 0)) then
    { s with
      osNumOrigTicks := s.osNumOrigTicks - s.osTicksTilExp + ticks
      osTicksTilExp := ticks }
  else s

/-- The first timer starts the system tick, or keeps it from being stopped. -/
def startSystemTick (s : TaskTimers tasks) : TaskTimers tasks :=
  if gkiTimersIsTimerRunning s then s
  else if s.osTicksTilStop = 0 then
    { s with systemTickRunning := if s.pTickCb then true else s.systemTickRunning }
  else { s with osTicksTilStop := 0 }

/-- The timer `x` is given a count, and a count to start again with. -/
def TaskTimers.arm (s : TaskTimers tasks) (x : TimerIx tasks) (count reload ticks : Int) :
    TaskTimers tasks :=
  { s with
    osTaskTmrR := Function.update s.osTaskTmrR x reload
    osTaskTmr := Function.update s.osTaskTmr x count
    armed := Function.update s.armed x s.now
    request := Function.update s.request x ticks }

def TaskTimers.disarm (s : TaskTimers tasks) (x : TimerIx tasks) : TaskTimers tasks :=
  { s with
    osTaskTmrR := Function.update s.osTaskTmrR x 0
    osTaskTmr := Function.update s.osTaskTmr x 0 }

/-- The timer a task means, if both numbers are good. -/
def timerIx (tasks : Nat) (taskId tnum : UInt8) : Option (TimerIx tasks) :=
  if h : taskId.toNat < tasks ∧ tnum.toNat < gkiNumTimers then
    some (⟨taskId.toNat, h.1⟩, ⟨tnum.toNat, h.2⟩)
  else none

def atLeastOne (ticks : Int) : Int := if ticks ≤ 0 then 1 else ticks

/-- The sum, or the largest number if it does not fit. -/
def addTicks (a b : Int) : Int := if a + b > gkiMaxInt32 then gkiMaxInt32 else a + b

/-- `GKI_start_timer`, called by the task `taskId`. -/
def gkiStartTimer (s : TaskTimers tasks) (taskId tnum : UInt8) (ticks : Int)
    (isContinuous : Bool) : TaskTimers tasks :=
  if ¬ taskId.toNat < tasks then s
  else
    let ticks := atLeastOne ticks
    let reload := if isContinuous then ticks else 0
    let s := startSystemTick s
    match timerIx tasks taskId tnum with
    | none => s
    | some x =>
      gkiAdjustTimerCount
        (s.arm x (addTicks ticks (s.osNumOrigTicks - s.osTicksTilExp)) reload ticks) ticks

/-- With no timer left, the system tick is stopped after a while. -/
def stopSystemTick (s : TaskTimers tasks) : TaskTimers tasks :=
  if ¬ gkiTimersIsTimerRunning s ∧ s.pTickCb ∧ s.systemTickRunning ∧ s.osTicksTilStop = 0 then
    { s with osTicksTilStop := gkiDelayStopSysTick }
  else s

/-- `GKI_stop_timer`, called by the task `taskId`. -/
def gkiStopTimer (s : TaskTimers tasks) (taskId tnum : UInt8) : TaskTimers tasks :=
  match timerIx tasks taskId tnum with
  | none => stopSystemTick s
  | some x => stopSystemTick (s.disarm x)

/-- All timers, in the order in which they are serviced. -/
def timersInOrder (tasks : Nat) : List (TimerIx tasks) :=
  (List.finRange tasks).flatMap fun t => (List.finRange gkiNumTimers).map fun i => (t, i)

/-- The timer is running and `ticks` make it due. -/
def TaskTimers.expires (s : TaskTimers tasks) (ticks : Int) (x : TimerIx tasks) : Bool :=
  s.osRdyTbl x.1 && decide (s.osTaskTmr x > 0) && decide (s.osTaskTmr x - ticks ≤ 0)

/-- The count of a timer after `ticks` are taken off. -/
def TaskTimers.served (s : TaskTimers tasks) (ticks : Int) (x : TimerIx tasks) : Int :=
  if s.osRdyTbl x.1 then
    if s.osTaskTmr x > 0 then
      if s.osTaskTmr x - ticks ≤ 0 then s.osTaskTmrR x else s.osTaskTmr x - ticks
    else s.osTaskTmr x
  else s.osTaskTmr x

/-- The smallest count of a running timer, as the loop finds it. -/
def TaskTimers.nextExpiration (s : TaskTimers tasks) : Int :=
  (timersInOrder tasks).foldl
    (fun next x =>
      if s.osRdyTbl x.1 ∧ s.osTaskTmr x > 0 ∧ s.osTaskTmr x < next then s.osTaskTmr x else next)
    gkiNoNewTmrsStarted

/-- The collected ticks are taken off the timers. -/
def serviceTimers (s : TaskTimers tasks) : TaskTimers tasks :=
  let orig := s.osNumOrigTicks - s.osTicksTilExp
  let t := { s with
    osTaskTmr := s.served orig
    armed := fun x => if s.expires orig x then s.now else s.armed x
    signals := s.signals ++ ((timersInOrder tasks).filter (s.expires orig)).map (·, s.now) }
  let next := if t.nextExpiration < gkiNoNewTmrsStarted then t.nextExpiration else 0
  { t with osTicksTilExp := next, osNumOrigTicks := next }

def gkiTimerUpdate (s : TaskTimers tasks) (ticks : Nat) : TaskTimers tasks :=
  let s := { s with
    osTicks := s.osTicks + UInt32.ofNat ticks
    osTicksTilExp := s.osTicksTilExp - ticks
    now := s.now + ticks }
  if s.osTicksTilStop ≠ 0 ∧ s.osTicksTilStop ≤ ticks then
    { s with
      systemTickRunning := if s.pTickCb then false else s.systemTickRunning
      osTicksTilStop := 0 }
  else
    let s := { s with osTicksTilStop := s.osTicksTilStop - ticks }
    if s.osTicksTilExp > 0 then s else serviceTimers s

end Code

inductive TimerEvent where
  | start (taskId tnum : UInt8) (ticks : Int) (isContinuous : Bool)
  | stop (taskId tnum : UInt8)
  | update (ticks : Nat)
  deriving DecidableEq, Repr

def TaskTimers.step {tasks : Nat} (s : TaskTimers tasks) : TimerEvent → Option (TaskTimers tasks)
  | .start taskId tnum ticks isContinuous =>
    some (gkiStartTimer s taskId tnum ticks isContinuous)
  | .stop taskId tnum => some (gkiStopTimer s taskId tnum)
  | .update ticks => some (gkiTimerUpdate s ticks)

def TaskTimers.init {tasks : Nat} (ready : Fin tasks → Bool) (tickCb : Bool) : TaskTimers tasks :=
  { osRdyTbl := ready, pTickCb := tickCb }

/-! ## Deadlines -/

namespace TaskTimers
variable {tasks : Nat}

def Running (s : TaskTimers tasks) (x : TimerIx tasks) : Prop :=
  s.osRdyTbl x.1 = true ∧ 0 < s.osTaskTmr x

/-- The ticks collected since they were last taken off the timers. -/
def collected (s : TaskTimers tasks) : Int := s.osNumOrigTicks - s.osTicksTilExp

def due (s : TaskTimers tasks) (x : TimerIx tasks) : Int := s.armed x + s.request x

end TaskTimers

/-- What the counts say. A running timer is at least `OSNumOrigTicks` away from the
last time ticks were taken off; with nothing to wait for, only a timer of the
largest count may be running. -/
structure TimerInv {tasks : Nat} (s : TaskTimers tasks) : Prop where
  collected : 0 ≤ s.collected
  orig : 0 ≤ s.osNumOrigTicks
  count : ∀ x, 0 ≤ s.osTaskTmr x ∧ 0 ≤ s.osTaskTmrR x
  reach : ∀ x, s.Running x → s.osNumOrigTicks ≤ s.osTaskTmr x
  longest : s.osNumOrigTicks = 0 → ∀ x, s.Running x → gkiMaxInt32 ≤ s.osTaskTmr x
  idle : s.osTicksTilStop ≠ 0 → ∀ x, s.osTaskTmr x = 0
  left : ∀ x, s.Running x → s.osTaskTmr x - s.collected = s.due x - s.now
  pending : ∀ x, s.Running x → s.collected < s.osTaskTmr x
  reload : ∀ x, s.osTaskTmrR x = 0 ∨ s.osTaskTmrR x = s.request x

/-- The collected ticks, and a count that starts from them, fit in 32 bits. -/
def NoOverflow {tasks : Nat} (s : TaskTimers tasks) : TimerEvent → Prop
  | .start _ _ ticks _ => atLeastOne ticks + s.collected ≤ gkiMaxInt32
  | .stop _ _ => True
  | .update ticks => s.collected + ticks ≤ gkiMaxInt32

instance {tasks : Nat} (s : TaskTimers tasks) (e : TimerEvent) : Decidable (NoOverflow s e) := by
  unfold NoOverflow
  split <;> infer_instance

section Steps
variable {tasks : Nat} {s t : TaskTimers tasks}

theorem atLeastOne_pos (ticks : Int) : 0 < atLeastOne ticks := by
  unfold atLeastOne
  split <;> omega

theorem TimerInv.congr (h : TimerInv s) (hE : t.osTicksTilExp = s.osTicksTilExp)
    (hO : t.osNumOrigTicks = s.osNumOrigTicks) (hT : t.osTaskTmr = s.osTaskTmr)
    (hR : t.osTaskTmrR = s.osTaskTmrR) (hready : t.osRdyTbl = s.osRdyTbl) (hnow : t.now = s.now)
    (harmed : t.armed = s.armed) (hreq : t.request = s.request)
    (hidle : t.osTicksTilStop ≠ 0 → ∀ x, s.osTaskTmr x = 0) : TimerInv t := by
  have hcoll : t.collected = s.collected := by
    unfold TaskTimers.collected
    rw [hE, hO]
  have hrun : ∀ x, t.Running x ↔ s.Running x := by
    intro x
    unfold TaskTimers.Running
    rw [hready, hT]
  have hdue : ∀ x, t.due x = s.due x := by
    intro x
    unfold TaskTimers.due
    rw [harmed, hreq]
  refine ⟨?_, ?_, ?_, ?_, ?_, ?_, ?_, ?_, ?_⟩
  · rw [hcoll]
    exact h.collected
  · rw [hO]
    exact h.orig
  · rw [hT, hR]
    exact h.count
  · intro x hx
    rw [hO, hT]
    exact h.reach x ((hrun x).mp hx)
  · intro h0 x hx
    rw [hO] at h0
    rw [hT]
    exact h.longest h0 x ((hrun x).mp hx)
  · intro hne x
    rw [hT]
    exact hidle hne x
  · intro x hx
    rw [hT, hcoll, hdue, hnow]
    exact h.left x ((hrun x).mp hx)
  · intro x hx
    rw [hT, hcoll]
    exact h.pending x ((hrun x).mp hx)
  · intro x
    rw [hR, hreq]
    exact h.reload x

theorem running_none (h : gkiTimersIsTimerRunning s = false) (x : TimerIx tasks) :
    s.osTaskTmr x = 0 := by
  unfold gkiTimersIsTimerRunning at h
  rw [decide_eq_false_iff_not, not_exists] at h
  exact not_not.mp (h x)

theorem startSystemTick_eq (h : TimerInv s) :
    ∃ b, startSystemTick s = { s with osTicksTilStop := 0, systemTickRunning := b } := by
  unfold startSystemTick
  by_cases hrun : gkiTimersIsTimerRunning s = true
  · rw [if_pos hrun]
    have hstop : s.osTicksTilStop = 0 := by
      by_contra hne
      have hall := h.idle hne
      simp [gkiTimersIsTimerRunning, hall] at hrun
    exact ⟨s.systemTickRunning, by rw [← hstop]⟩
  · rw [if_neg hrun]
    by_cases hstop : s.osTicksTilStop = 0
    · rw [if_pos hstop]
      exact ⟨_, by rw [← hstop]⟩
    · rw [if_neg hstop]
      exact ⟨_, rfl⟩

section Arm
variable {x : TimerIx tasks} {reload ticks : Int}

theorem addTicks_eq (hfits : ticks + s.collected ≤ gkiMaxInt32) :
    addTicks ticks s.collected = ticks + s.collected := by
  unfold addTicks
  rw [if_neg (not_lt.mpr hfits)]

theorem adjust_counters (hpos : 0 < ticks) :
    (gkiAdjustTimerCount s ticks).collected = s.collected ∧
    ((gkiAdjustTimerCount s ticks).osNumOrigTicks = s.osNumOrigTicks ∧ s.osNumOrigTicks ≠ 0 ∧
        s.osTicksTilExp ≤ ticks ∨
      (gkiAdjustTimerCount s ticks).osNumOrigTicks = s.collected + ticks ∧
        (s.osNumOrigTicks = 0 ∨ ticks < s.osTicksTilExp)) := by
  unfold gkiAdjustTimerCount TaskTimers.collected
  split
  · rename_i hcond
    refine ⟨by dsimp only; omega, .inr ⟨rfl, ?_⟩⟩
    exact hcond.2.imp_right And.left
  · rename_i hcond
    rw [not_and, not_or, not_and, not_lt] at hcond
    obtain ⟨hne, hexp⟩ := hcond hpos
    refine ⟨rfl, .inl ⟨rfl, hne, ?_⟩⟩
    by_contra hlt
    have := hexp (by omega)
    omega

theorem adjust_frame (s : TaskTimers tasks) (ticks : Int) :
    ∃ o e, gkiAdjustTimerCount s ticks = { s with osNumOrigTicks := o, osTicksTilExp := e } := by
  unfold gkiAdjustTimerCount
  split
  · exact ⟨_, _, rfl⟩
  · exact ⟨_, _, rfl⟩

theorem timerInv_arm (h : TimerInv s) (hstop : s.osTicksTilStop = 0) (hpos : 0 < ticks)
    (hfits : ticks + s.collected ≤ gkiMaxInt32) (hreload : reload = 0 ∨ reload = ticks) :
    TimerInv (gkiAdjustTimerCount (s.arm x (addTicks ticks s.collected) reload ticks) ticks) := by
  rw [addTicks_eq hfits]
  obtain ⟨hcoll, horig⟩ := adjust_counters
    (s := s.arm x (ticks + s.collected) reload ticks) hpos
  obtain ⟨o, e, heq⟩ := adjust_frame (s.arm x (ticks + s.collected) reload ticks) ticks
  rw [heq] at hcoll horig ⊢
  replace hcoll : o - e = s.collected := hcoll
  replace horig : o = s.osNumOrigTicks ∧ s.osNumOrigTicks ≠ 0 ∧ s.osTicksTilExp ≤ ticks ∨
      o = s.collected + ticks ∧ (s.osNumOrigTicks = 0 ∨ ticks < s.osTicksTilExp) := horig
  have hc := h.collected
  have ho := h.orig
  have hsum : s.osNumOrigTicks = s.collected + s.osTicksTilExp := by
    unfold TaskTimers.collected
    omega
  -- the count of `x` is new, all others are as before
  have hcount : ∀ y, (y = x ∧ Function.update s.osTaskTmr x (ticks + s.collected) y =
        ticks + s.collected) ∨
      (y ≠ x ∧ Function.update s.osTaskTmr x (ticks + s.collected) y = s.osTaskTmr y) := by
    intro y
    by_cases hy : y = x
    · exact .inl ⟨hy, by rw [hy, Function.update_self]⟩
    · exact .inr ⟨hy, Function.update_of_ne hy _ _⟩
  refine ⟨?_, ?_, ?_, ?_, ?_, ?_, ?_, ?_, ?_⟩
  · show 0 ≤ o - e
    omega
  · show 0 ≤ o
    omega
  · intro y
    refine ⟨?_, ?_⟩
    · show 0 ≤ Function.update s.osTaskTmr x (ticks + s.collected) y
      have := (h.count y).1
      rcases hcount y with ⟨-, hy⟩ | ⟨-, hy⟩ <;> omega
    · show 0 ≤ Function.update s.osTaskTmrR x reload y
      by_cases hy : y = x
      · rw [hy, Function.update_self]
        omega
      · rw [Function.update_of_ne hy]
        exact (h.count y).2
  · intro y hrun
    show o ≤ Function.update s.osTaskTmr x (ticks + s.collected) y
    rcases hcount y with ⟨-, hy⟩ | ⟨hne, hy⟩
    · omega
    · have hold : s.Running y := ⟨hrun.1, hy ▸ hrun.2⟩
      have hreach := h.reach y hold
      rw [hy]
      rcases horig with ⟨rfl, -⟩ | ⟨rfl, h0 | hlt⟩
      · exact hreach
      · have := h.longest h0 y hold
        omega
      · omega
  · intro h0 y hrun
    exfalso
    replace h0 : o = 0 := h0
    rcases horig with ⟨rfl, hne, -⟩ | ⟨rfl, -⟩
    · exact hne h0
    · omega
  · intro hne
    exact absurd hstop hne
  · intro y hrun
    show Function.update s.osTaskTmr x (ticks + s.collected) y - (o - e) =
      ((Function.update s.armed x s.now y : Nat) : Int) + Function.update s.request x ticks y - s.now
    rcases hcount y with ⟨rfl, hy⟩ | ⟨hne, hy⟩
    · rw [hy, hcoll, Function.update_self, Function.update_self]
      omega
    · have hold : s.Running y := ⟨hrun.1, hy ▸ hrun.2⟩
      rw [hy, hcoll, Function.update_of_ne hne, Function.update_of_ne hne]
      exact h.left y hold
  · intro y hrun
    show o - e < Function.update s.osTaskTmr x (ticks + s.collected) y
    rcases hcount y with ⟨-, hy⟩ | ⟨hne, hy⟩
    · omega
    · have hold : s.Running y := ⟨hrun.1, hy ▸ hrun.2⟩
      rw [hcoll, hy]
      exact h.pending y hold
  · intro y
    show Function.update s.osTaskTmrR x reload y = 0 ∨
      Function.update s.osTaskTmrR x reload y = Function.update s.request x ticks y
    by_cases hy : y = x
    · rw [hy, Function.update_self, Function.update_self]
      exact hreload
    · rw [Function.update_of_ne hy, Function.update_of_ne hy]
      exact h.reload y

end Arm

theorem timerInv_start (h : TimerInv s) (taskId tnum : UInt8) (ticks : Int) (isContinuous : Bool)
    (hok : NoOverflow s (.start taskId tnum ticks isContinuous)) :
    TimerInv (gkiStartTimer s taskId tnum ticks isContinuous) := by
  unfold gkiStartTimer
  split
  · exact h
  · obtain ⟨b, hb⟩ := startSystemTick_eq h
    have hu : TimerInv { s with osTicksTilStop := 0, systemTickRunning := b } :=
      h.congr rfl rfl rfl rfl rfl rfl rfl rfl fun hne => absurd rfl hne
    rw [hb]
    dsimp only
    cases timerIx tasks taskId tnum with
    | none => exact hu
    | some x =>
      refine timerInv_arm hu rfl (atLeastOne_pos ticks) hok ?_
      cases isContinuous with
      | false => exact .inl rfl
      | true => exact .inr rfl

theorem timerInv_disarm (h : TimerInv s) (x : TimerIx tasks) : TimerInv (s.disarm x) := by
  -- a timer that runs afterwards is another one and ran before
  have hrun : ∀ y, (s.disarm x).Running y → y ≠ x ∧ s.Running y ∧
      (s.disarm x).osTaskTmr y = s.osTaskTmr y := by
    intro y hy
    have hne : y ≠ x := by
      rintro rfl
      have hpos := hy.2
      simp [TaskTimers.disarm] at hpos
    have heq : (s.disarm x).osTaskTmr y = s.osTaskTmr y := Function.update_of_ne hne _ _
    exact ⟨hne, ⟨hy.1, heq ▸ hy.2⟩, heq⟩
  refine ⟨h.collected, h.orig, ?_, ?_, ?_, ?_, ?_, ?_, ?_⟩
  · intro y
    by_cases hy : y = x
    · simp [TaskTimers.disarm, hy]
    · simpa [TaskTimers.disarm, hy] using h.count y
  · intro y hy
    obtain ⟨-, hold, heq⟩ := hrun y hy
    rw [heq]
    exact h.reach y hold
  · intro h0 y hy
    obtain ⟨-, hold, heq⟩ := hrun y hy
    rw [heq]
    exact h.longest h0 y hold
  · intro hne y
    by_cases hy : y = x
    · simp [TaskTimers.disarm, hy]
    · simpa [TaskTimers.disarm, hy] using h.idle hne y
  · intro y hy
    obtain ⟨-, hold, heq⟩ := hrun y hy
    rw [heq]
    exact h.left y hold
  · intro y hy
    obtain ⟨-, hold, heq⟩ := hrun y hy
    rw [heq]
    exact h.pending y hold
  · intro y
    by_cases hy : y = x
    · simp [TaskTimers.disarm, hy]
    · simpa [TaskTimers.disarm, hy] using h.reload y

theorem timerInv_stopSystemTick (h : TimerInv s) : TimerInv (stopSystemTick s) := by
  unfold stopSystemTick
  split
  · rename_i hcond
    refine h.congr rfl rfl rfl rfl rfl rfl rfl rfl fun _ => ?_
    exact running_none (by simpa using hcond.1)
  · exact h

theorem timerInv_stop (h : TimerInv s) (taskId tnum : UInt8) :
    TimerInv (gkiStopTimer s taskId tnum) := by
  unfold gkiStopTimer
  cases timerIx tasks taskId tnum with
  | none => exact timerInv_stopSystemTick h
  | some x => exact timerInv_stopSystemTick (timerInv_disarm h x)

/-! ## Updates -/

theorem mem_timersInOrder (x : TimerIx tasks) : x ∈ timersInOrder tasks := by
  unfold timersInOrder
  rw [List.mem_flatMap]
  exact ⟨x.1, List.mem_finRange _, List.mem_map.mpr ⟨x.2, List.mem_finRange _, rfl⟩⟩

theorem timersInOrder_nodup : (timersInOrder tasks).Nodup := by
  unfold timersInOrder
  rw [List.nodup_flatMap]
  refine ⟨?_, ?_⟩
  · intro t _
    exact (List.nodup_finRange _).map fun i j hij => (Prod.mk.inj hij).2
  · apply (List.nodup_finRange tasks).pairwise_of_forall_ne
    intro a _ b _ hab
    simp only [Function.onFun, List.disjoint_left, List.mem_map, not_exists, not_and]
    rintro x ⟨i, -, rfl⟩ j - heq
    exact hab (Prod.mk.inj heq).1.symm

theorem nextExpiration_spec (s : TaskTimers tasks) :
    s.nextExpiration ≤ gkiNoNewTmrsStarted ∧ 0 < s.nextExpiration ∧
      ∀ x, s.Running x → s.nextExpiration ≤ s.osTaskTmr x := by
  -- over the timers looked at so far, from any value
  have hloop : ∀ (l : List (TimerIx tasks)) (next : Int), 0 < next →
      let r := l.foldl (fun next x =>
        if s.osRdyTbl x.1 ∧ s.osTaskTmr x > 0 ∧ s.osTaskTmr x < next then s.osTaskTmr x else next)
        next
      r ≤ next ∧ 0 < r ∧ ∀ x ∈ l, s.Running x → r ≤ s.osTaskTmr x := by
    intro l
    induction l with
    | nil => exact fun next hpos => ⟨le_rfl, hpos, by simp⟩
    | cons y l ih =>
      intro next hpos
      by_cases hy : s.osRdyTbl y.1 ∧ s.osTaskTmr y > 0 ∧ s.osTaskTmr y < next
      · obtain ⟨hle, hr, hall⟩ := ih (s.osTaskTmr y) hy.2.1
        rw [List.foldl_cons, if_pos hy]
        refine ⟨hle.trans hy.2.2.le, hr, ?_⟩
        intro x hx hrun
        rcases List.mem_cons.mp hx with rfl | hx
        · exact hle
        · exact hall x hx hrun
      · obtain ⟨hle, hr, hall⟩ := ih next hpos
        rw [List.foldl_cons, if_neg hy]
        refine ⟨hle, hr, ?_⟩
        intro x hx hrun
        rcases List.mem_cons.mp hx with rfl | hx
        · have hnot : ¬ s.osTaskTmr x < next := fun hlt => hy ⟨hrun.1, hrun.2, hlt⟩
          exact hle.trans (not_lt.mp hnot)
        · exact hall x hx hrun
  obtain ⟨hle, hpos, hall⟩ := hloop (timersInOrder tasks) gkiNoNewTmrsStarted (by decide)
  exact ⟨hle, hpos, fun x hx => hall x (mem_timersInOrder x) hx⟩

theorem expires_iff (ticks : Int) (x : TimerIx tasks) :
    s.expires ticks x = true ↔ s.Running x ∧ s.osTaskTmr x ≤ ticks := by
  unfold TaskTimers.expires TaskTimers.Running
  rw [Bool.and_eq_true, Bool.and_eq_true, decide_eq_true_iff, decide_eq_true_iff]
  constructor
  · rintro ⟨⟨hready, hpos⟩, hle⟩
    exact ⟨⟨hready, hpos⟩, by omega⟩
  · rintro ⟨⟨hready, hpos⟩, hle⟩
    exact ⟨⟨hready, hpos⟩, by omega⟩

variable {x : TimerIx tasks}

theorem served_running {ticks : Int} (h : s.Running x) :
    s.served ticks x = if s.osTaskTmr x ≤ ticks then s.osTaskTmrR x else s.osTaskTmr x - ticks := by
  unfold TaskTimers.served
  rw [if_pos h.1, if_pos h.2]
  by_cases hle : s.osTaskTmr x ≤ ticks
  · rw [if_pos hle, if_pos (by omega)]
  · rw [if_neg hle, if_neg (by omega)]

theorem served_not_running {ticks : Int} (h : ¬ s.Running x) :
    s.served ticks x = s.osTaskTmr x := by
  unfold TaskTimers.served
  split
  · rename_i hready
    rw [if_neg (fun hpos => h ⟨hready, hpos⟩)]
  · rfl

theorem running_of_service (h : (serviceTimers s).Running x) : s.Running x := by
  by_contra hnot
  have hpos : 0 < s.served s.collected x := h.2
  rw [served_not_running hnot] at hpos
  exact hnot ⟨h.1, hpos⟩

theorem timerInv_service
    (hcount : ∀ x, 0 ≤ s.osTaskTmr x ∧ 0 ≤ s.osTaskTmrR x)
    (hidle : s.osTicksTilStop ≠ 0 → ∀ x, s.osTaskTmr x = 0)
    (hleft : ∀ x, s.Running x → s.osTaskTmr x - s.collected = s.due x - s.now)
    (hreload : ∀ x, s.osTaskTmrR x = 0 ∨ s.osTaskTmrR x = s.request x) :
    TimerInv (serviceTimers s) := by
  obtain ⟨hmax, hnext, hall⟩ := nextExpiration_spec { s with osTaskTmr := s.served s.collected }
  -- the two counters are the smallest count, or 0
  have hzero : (serviceTimers s).collected = 0 := sub_self _
  have horig : (serviceTimers s).osNumOrigTicks =
      if TaskTimers.nextExpiration { s with osTaskTmr := s.served s.collected } <
        gkiNoNewTmrsStarted then
        TaskTimers.nextExpiration { s with osTaskTmr := s.served s.collected } else 0 := rfl
  have hreach : ∀ x, (serviceTimers s).Running x →
      TaskTimers.nextExpiration { s with osTaskTmr := s.served s.collected } ≤
        s.served s.collected x := fun x hx => hall x hx
  refine ⟨?_, ?_, ?_, ?_, ?_, ?_, ?_, ?_, hreload⟩
  · rw [hzero]
  · rw [horig]
    split <;> omega
  · intro x
    refine ⟨?_, (hcount x).2⟩
    show 0 ≤ s.served s.collected x
    by_cases hx : s.Running x
    · rw [served_running hx]
      split
      · exact (hcount x).2
      · omega
    · rw [served_not_running hx]
      exact (hcount x).1
  · intro x hx
    have hle := hreach x hx
    have hpos := hx.2
    rw [horig]
    show _ ≤ s.served s.collected x
    split
    · exact hle
    · exact hpos.le
  · intro h0 x hx
    rw [horig] at h0
    have hle := hreach x hx
    show gkiMaxInt32 ≤ s.served s.collected x
    split at h0
    · omega
    · simp only [gkiNoNewTmrsStarted, gkiMaxInt32] at *
      omega
  · intro hne x
    have h0 := hidle hne x
    show s.served s.collected x = 0
    rw [served_not_running]
    · exact h0
    · intro hx
      have hpos := hx.2
      omega
  · intro x hx
    have hold := running_of_service hx
    have hpos : 0 < s.served s.collected x := hx.2
    have hl := hleft x hold
    rw [hzero]
    show s.served s.collected x - 0 =
      ((if s.expires s.collected x then s.now else s.armed x : Nat) : Int) + s.request x - s.now
    rw [served_running hold] at hpos ⊢
    by_cases hexp : s.osTaskTmr x ≤ s.collected
    · -- armed again, with the count it was started with
      rw [if_pos hexp] at hpos ⊢
      rw [if_pos ((expires_iff _ x).mpr ⟨hold, hexp⟩)]
      rcases hreload x with h0 | hr <;> omega
    · rw [if_neg hexp, if_neg (fun he => hexp ((expires_iff _ x).mp he).2)]
      unfold TaskTimers.due at hl
      omega
  · intro x hx
    rw [hzero]
    exact hx.2

/-- The state in which `GKI_timer_update` looks at the counters. -/
def TaskTimers.elapse (s : TaskTimers tasks) (ticks : Nat) : TaskTimers tasks :=
  { s with
    osTicks := s.osTicks + UInt32.ofNat ticks
    osTicksTilExp := s.osTicksTilExp - ticks
    now := s.now + ticks
    osTicksTilStop := s.osTicksTilStop - ticks }

theorem elapse_collected (s : TaskTimers tasks) (ticks : Nat) :
    (s.elapse ticks).collected = s.collected + ticks := by
  show s.osNumOrigTicks - (s.osTicksTilExp - ticks) = s.osNumOrigTicks - s.osTicksTilExp + ticks
  omega

theorem elapse_running {ticks : Nat} :
    (s.elapse ticks).Running x ↔ s.Running x := Iff.rfl

theorem update_cases (h : TimerInv s) (ticks : Nat) :
    ((∀ x, s.osTaskTmr x = 0) ∧ ∃ b, gkiTimerUpdate s ticks =
      { s.elapse ticks with osTicksTilStop := 0, systemTickRunning := b }) ∨
    (ticks < s.osTicksTilExp ∧ gkiTimerUpdate s ticks = s.elapse ticks) ∨
    (s.osTicksTilExp ≤ ticks ∧ gkiTimerUpdate s ticks = serviceTimers (s.elapse ticks)) := by
  unfold gkiTimerUpdate
  dsimp only
  split
  · rename_i hstop
    exact .inl ⟨h.idle hstop.1, _, rfl⟩
  · split
    · rename_i hexp
      exact .inr (.inl ⟨by omega, rfl⟩)
    · rename_i hexp
      exact .inr (.inr ⟨by omega, rfl⟩)

theorem elapse_left (h : TimerInv s) (ticks : Nat) (x : TimerIx tasks) (hx : s.Running x) :
    s.osTaskTmr x - (s.elapse ticks).collected = s.due x - (s.now + ticks : Nat) := by
  have hl := h.left x hx
  rw [elapse_collected]
  push_cast
  omega

theorem timerInv_update (h : TimerInv s) (ticks : Nat) : TimerInv (gkiTimerUpdate s ticks) := by
  have hc := h.collected
  have hcoll : 0 ≤ (s.elapse ticks).collected := by
    rw [elapse_collected]
    omega
  rcases update_cases h ticks with ⟨hnone, b, heq⟩ | ⟨hlt, heq⟩ | ⟨-, heq⟩
  · -- no timer is running
    have hno : ∀ (u : TaskTimers tasks) x, u.osTaskTmr = s.osTaskTmr → ¬ u.Running x := by
      intro u x hu hx
      have hpos := hx.2
      rw [hu, hnone x] at hpos
      exact lt_irrefl _ hpos
    rw [heq]
    refine ⟨hcoll, h.orig, h.count, ?_, ?_, ?_, ?_, ?_, h.reload⟩
    · exact fun x hx => absurd hx (hno _ x rfl)
    · exact fun _ x hx => absurd hx (hno _ x rfl)
    · exact fun hne => absurd rfl hne
    · exact fun x hx => absurd hx (hno _ x rfl)
    · exact fun x hx => absurd hx (hno _ x rfl)
  · rw [heq]
    refine ⟨hcoll, h.orig, h.count, h.reach, h.longest, ?_, ?_, ?_, h.reload⟩
    · intro hne
      apply h.idle
      intro h0
      apply hne
      show s.osTicksTilStop - ticks = 0
      omega
    · exact elapse_left h ticks
    · intro x hx
      have hreach := h.reach x hx
      show (s.elapse ticks).collected < s.osTaskTmr x
      rw [elapse_collected]
      unfold TaskTimers.collected
      omega
  · rw [heq]
    apply timerInv_service (s := s.elapse ticks) h.count
    · intro hne
      apply h.idle
      intro h0
      apply hne
      show s.osTicksTilStop - ticks = 0
      omega
    · exact elapse_left h ticks
    · exact h.reload

theorem update_signals (h : TimerInv s) (ticks : Nat) :
    ∃ new : List (TimerIx tasks), new.Nodup ∧
      (gkiTimerUpdate s ticks).signals = s.signals ++ new.map (·, s.now + ticks) ∧
      ∀ x, x ∈ new ↔ s.Running x ∧ s.due x ≤ s.now + ticks := by
  -- a running timer is due exactly if the ticks collected by then reach its count
  have hdue : ∀ x, s.Running x →
      (s.due x ≤ s.now + ticks ↔ s.osTaskTmr x ≤ s.collected + ticks) := by
    intro x hx
    have hl := h.left x hx
    constructor <;> intro hle <;> omega
  have hsame : (∀ x, s.Running x → s.collected + ticks < s.osTaskTmr x) →
      (gkiTimerUpdate s ticks).signals = s.signals →
      ∃ new : List (TimerIx tasks), new.Nodup ∧
        (gkiTimerUpdate s ticks).signals = s.signals ++ new.map (·, s.now + ticks) ∧
        ∀ x, x ∈ new ↔ s.Running x ∧ s.due x ≤ s.now + ticks := by
    intro hno hsig
    refine ⟨[], List.nodup_nil, by rw [hsig, List.map_nil, List.append_nil], ?_⟩
    intro x
    simp only [List.not_mem_nil, false_iff, not_and]
    intro hx hle
    rw [hdue x hx] at hle
    exact absurd (hno x hx) (not_lt.mpr hle)
  rcases update_cases h ticks with ⟨hnone, b, heq⟩ | ⟨hlt, heq⟩ | ⟨-, heq⟩
  · refine hsame ?_ (by rw [heq]; rfl)
    intro x hx
    have hpos := hx.2
    rw [hnone x] at hpos
    exact absurd hpos (lt_irrefl _)
  · refine hsame ?_ (by rw [heq]; rfl)
    intro x hx
    have hreach := h.reach x hx
    unfold TaskTimers.collected
    omega
  · refine ⟨(timersInOrder tasks).filter ((s.elapse ticks).expires (s.elapse ticks).collected),
      timersInOrder_nodup.filter _, by rw [heq]; rfl, ?_⟩
    intro x
    rw [List.mem_filter, expires_iff, elapse_running, elapse_collected]
    constructor
    · rintro ⟨-, hx, hle⟩
      exact ⟨hx, (hdue x hx).mpr hle⟩
    · rintro ⟨hx, hle⟩
      exact ⟨mem_timersInOrder x, hx, (hdue x hx).mp hle⟩

end Steps

/-! ## Runs -/

/-- The timer goes on running as it was armed. -/
def Kept {tasks : Nat} (s t : TaskTimers tasks) (x : TimerIx tasks) : Prop :=
  t.Running x ∧ t.armed x = s.armed x ∧ t.request x = s.request x ∧
    t.osTaskTmrR x = s.osTaskTmrR x

def TimerEvent.Concerns {tasks : Nat} (x : TimerIx tasks) : TimerEvent → Prop
  | .start taskId tnum _ _ => timerIx tasks taskId tnum = some x
  | .stop taskId tnum => timerIx tasks taskId tnum = some x
  | .update _ => False

/-- What the call `e` does to the timers of the state `s`. -/
structure Exact {tasks : Nat} (s : TaskTimers tasks) (e : TimerEvent) (t : TaskTimers tasks) :
    Prop where
  /-- An update signals the running timers whose time it reaches; nothing else signals. -/
  signals : ∃ new : List (TimerIx tasks), new.Nodup ∧
    t.signals = s.signals ++ new.map (·, t.now) ∧
    ∀ x, x ∈ new ↔ ∃ ticks, e = .update ticks ∧ s.Running x ∧ s.due x ≤ s.now + ticks
  oneShot : ∀ ticks x, e = .update ticks → s.Running x → s.due x ≤ s.now + ticks →
    s.osTaskTmrR x = 0 → t.osTaskTmr x = 0
  continuous : ∀ ticks x, e = .update ticks → s.Running x → s.due x ≤ s.now + ticks →
    s.osTaskTmrR x ≠ 0 → t.Running x ∧ t.due x = t.now + s.request x ∧
      t.osTaskTmrR x = s.osTaskTmrR x
  kept : ∀ x, s.Running x → ¬ e.Concerns x →
    (∀ ticks, e = .update ticks → s.now + ticks < s.due x) → Kept s t x
  started : ∀ taskId tnum ticks isContinuous x, e = .start taskId tnum ticks isContinuous →
    timerIx tasks taskId tnum = some x → s.osRdyTbl x.1 = true →
    t.Running x ∧ t.due x = s.now + atLeastOne ticks ∧
      t.osTaskTmrR x = if isContinuous then atLeastOne ticks else 0
  stopped : ∀ taskId tnum x, e = .stop taskId tnum → timerIx tasks taskId tnum = some x →
    t.osTaskTmr x = 0

section Runs
variable {tasks : Nat} {s t : TaskTimers tasks}

theorem timerIx_task {taskId tnum : UInt8} {x : TimerIx tasks}
    (h : timerIx tasks taskId tnum = some x) : taskId.toNat < tasks := by
  unfold timerIx at h
  split at h
  · rename_i hlt
    exact hlt.1
  · cases h

theorem start_eq (h : TimerInv s) {taskId tnum : UInt8} {ticks : Int} {isContinuous : Bool}
    {x : TimerIx tasks} (hx : timerIx tasks taskId tnum = some x)
    (hok : NoOverflow s (.start taskId tnum ticks isContinuous)) :
    ∃ b o e, gkiStartTimer s taskId tnum ticks isContinuous =
      { s.arm x (atLeastOne ticks + s.collected) (if isContinuous then atLeastOne ticks else 0)
          (atLeastOne ticks) with
        osTicksTilStop := 0, systemTickRunning := b, osNumOrigTicks := o, osTicksTilExp := e } := by
  obtain ⟨b, hb⟩ := startSystemTick_eq h
  unfold gkiStartTimer
  rw [if_neg (not_not.mpr (timerIx_task hx)), hb, hx]
  dsimp only
  have hadd : addTicks (atLeastOne ticks) (s.osNumOrigTicks - s.osTicksTilExp) =
      atLeastOne ticks + s.collected := addTicks_eq hok
  rw [hadd]
  obtain ⟨o, e, heq⟩ := adjust_frame
    (TaskTimers.arm { s with osTicksTilStop := 0, systemTickRunning := b } x
      (atLeastOne ticks + s.collected) (if isContinuous then atLeastOne ticks else 0)
      (atLeastOne ticks)) (atLeastOne ticks)
  exact ⟨b, o, e, heq⟩

theorem exact_start (h : TimerInv s) {taskId tnum : UInt8} {ticks : Int} {isContinuous : Bool}
    (hok : NoOverflow s (.start taskId tnum ticks isContinuous)) :
    Exact s (.start taskId tnum ticks isContinuous)
      (gkiStartTimer s taskId tnum ticks isContinuous) := by
  have hc := h.collected
  have hpos := atLeastOne_pos ticks
  cases hx : timerIx tasks taskId tnum with
  | none =>
    -- at most the system tick is started
    obtain ⟨b, c, heq⟩ : ∃ b c, gkiStartTimer s taskId tnum ticks isContinuous =
        { s with osTicksTilStop := b, systemTickRunning := c } := by
      obtain ⟨b, hb⟩ := startSystemTick_eq h
      unfold gkiStartTimer
      rw [hx, hb]
      split
      · exact ⟨_, _, rfl⟩
      · exact ⟨_, _, rfl⟩
    rw [heq]
    refine ⟨⟨[], List.nodup_nil, by simp, by simp⟩, by simp, by simp, ?_, ?_, by simp⟩
    · exact fun x hrun _ _ => ⟨hrun, rfl, rfl, rfl⟩
    · intro taskId' tnum' ticks' c' x he hx'
      cases he
      rw [hx] at hx'
      cases hx'
  | some x =>
    obtain ⟨b, o, e, heq⟩ := start_eq h hx hok
    rw [heq]
    refine ⟨⟨[], List.nodup_nil, by simp [TaskTimers.arm], by simp⟩, by simp, by simp, ?_, ?_,
      by simp⟩
    · intro y hrun hconcerns _
      have hne : y ≠ x := by
        rintro rfl
        exact hconcerns hx
      refine ⟨⟨hrun.1, ?_⟩, Function.update_of_ne hne _ _, Function.update_of_ne hne _ _,
        Function.update_of_ne hne _ _⟩
      show 0 < Function.update s.osTaskTmr x _ y
      rw [Function.update_of_ne hne]
      exact hrun.2
    · intro taskId' tnum' ticks' c' y he hy hready
      cases he
      rw [hx] at hy
      obtain rfl := Option.some.inj hy
      refine ⟨⟨hready, ?_⟩, ?_, Function.update_self ..⟩
      · show 0 < Function.update s.osTaskTmr x _ x
        rw [Function.update_self]
        omega
      · show ((Function.update s.armed x s.now x : Nat) : Int) + Function.update s.request x _ x = _
        rw [Function.update_self, Function.update_self]

theorem exact_stop {taskId tnum : UInt8} :
    Exact s (.stop taskId tnum) (gkiStopTimer s taskId tnum) := by
  have hframe : ∀ u : TaskTimers tasks, ∃ b, stopSystemTick u = { u with osTicksTilStop := b } := by
    intro u
    unfold stopSystemTick
    split
    · exact ⟨_, rfl⟩
    · exact ⟨_, rfl⟩
  unfold gkiStopTimer
  cases hx : timerIx tasks taskId tnum with
  | none =>
    obtain ⟨b, heq⟩ := hframe s
    dsimp only
    rw [heq]
    refine ⟨⟨[], List.nodup_nil, by simp, by simp⟩, by simp, by simp, ?_, by simp, ?_⟩
    · exact fun x hrun _ _ => ⟨hrun, rfl, rfl, rfl⟩
    · intro taskId' tnum' x he hx'
      cases he
      rw [hx] at hx'
      cases hx'
  | some x =>
    obtain ⟨b, heq⟩ := hframe (s.disarm x)
    dsimp only
    rw [heq]
    refine ⟨⟨[], List.nodup_nil, by simp [TaskTimers.disarm], by simp⟩, by simp, by simp, ?_,
      by simp, ?_⟩
    · intro y hrun hconcerns _
      have hne : y ≠ x := by
        rintro rfl
        exact hconcerns hx
      refine ⟨⟨hrun.1, ?_⟩, rfl, rfl, Function.update_of_ne hne _ _⟩
      show 0 < Function.update s.osTaskTmr x _ y
      rw [Function.update_of_ne hne]
      exact hrun.2
    · intro taskId' tnum' y he hy
      cases he
      rw [hx] at hy
      obtain rfl := Option.some.inj hy
      exact Function.update_self ..

theorem update_running (h : TimerInv s) (ticks : Nat) {x : TimerIx tasks} (hx : s.Running x) :
    (s.now + ticks < s.due x ∧ Kept s (gkiTimerUpdate s ticks) x) ∨
    (s.due x ≤ s.now + ticks ∧ gkiTimerUpdate s ticks = serviceTimers (s.elapse ticks) ∧
      (gkiTimerUpdate s ticks).osTaskTmr x = s.osTaskTmrR x ∧
      (gkiTimerUpdate s ticks).armed x = s.now + ticks) := by
  have hl := h.left x hx
  rcases update_cases h ticks with ⟨hnone, -⟩ | ⟨hlt, heq⟩ | ⟨-, heq⟩
  · have hpos := hx.2
    rw [hnone x] at hpos
    exact absurd hpos (lt_irrefl _)
  · have hreach := h.reach x hx
    refine .inl ⟨?_, ?_⟩
    · unfold TaskTimers.collected at hl
      omega
    · rw [heq]
      exact ⟨hx, rfl, rfl, rfl⟩
  · have hserved : (serviceTimers (s.elapse ticks)).osTaskTmr x =
        if s.osTaskTmr x ≤ s.collected + ticks then s.osTaskTmrR x
        else s.osTaskTmr x - (s.collected + ticks) := by
      rw [← elapse_collected]
      exact served_running (s := s.elapse ticks) hx
    have harmed : (serviceTimers (s.elapse ticks)).armed x =
        if (s.elapse ticks).expires (s.elapse ticks).collected x then s.now + ticks
        else s.armed x := rfl
    rw [heq]
    by_cases hexp : s.osTaskTmr x ≤ s.collected + ticks
    · rw [if_pos hexp] at hserved
      have hexpires : (s.elapse ticks).expires (s.elapse ticks).collected x = true := by
        rw [expires_iff, elapse_collected]
        exact ⟨hx, hexp⟩
      rw [if_pos hexpires] at harmed
      exact .inr ⟨by omega, rfl, hserved, harmed⟩
    · rw [if_neg hexp] at hserved
      rw [if_neg] at harmed
      · refine .inl ⟨by omega, ⟨⟨hx.1, ?_⟩, harmed, rfl, rfl⟩⟩
        rw [hserved]
        omega
      · intro hexpires
        rw [expires_iff, elapse_collected] at hexpires
        exact hexp hexpires.2

theorem exact_update (h : TimerInv s) (ticks : Nat) :
    Exact s (.update ticks) (gkiTimerUpdate s ticks) := by
  have hnow : (gkiTimerUpdate s ticks).now = s.now + ticks := by
    rcases update_cases h ticks with ⟨-, b, heq⟩ | ⟨-, heq⟩ | ⟨-, heq⟩ <;> rw [heq] <;> rfl
  refine ⟨?_, ?_, ?_, ?_, by simp, by simp⟩
  · obtain ⟨new, hnodup, hsig, hmem⟩ := update_signals h ticks
    refine ⟨new, hnodup, by rw [hsig, hnow], ?_⟩
    intro x
    rw [hmem x]
    constructor
    · exact fun hx => ⟨ticks, rfl, hx⟩
    · rintro ⟨ticks', he, hx⟩
      cases he
      exact hx
  · intro ticks' x he hx hle hzero
    cases he
    rcases update_running h ticks hx with ⟨hlt, -⟩ | ⟨-, -, hcount, -⟩
    · exact absurd hle (not_le.mpr hlt)
    · rw [hcount, hzero]
  · intro ticks' x he hx hle hne
    cases he
    rcases update_running h ticks hx with ⟨hlt, -⟩ | ⟨-, heq, hcount, harmed⟩
    · exact absurd hle (not_le.mpr hlt)
    · have hready : (gkiTimerUpdate s ticks).osRdyTbl x.1 = true := by
        rw [heq]
        exact hx.1
      have hreq : (gkiTimerUpdate s ticks).request x = s.request x := by
        rw [heq]
        rfl
      have hrel : (gkiTimerUpdate s ticks).osTaskTmrR x = s.osTaskTmrR x := by
        rw [heq]
        rfl
      refine ⟨⟨hready, ?_⟩, ?_, hrel⟩
      · have hpos := (h.count x).2
        rw [hcount]
        omega
      · unfold TaskTimers.due
        rw [harmed, hreq, hnow]
  · intro x hx _ hlt
    rcases update_running h ticks hx with ⟨-, hkept⟩ | ⟨hle, -⟩
    · exact hkept
    · exact absurd hle (not_le.mpr (hlt ticks rfl))

theorem timers_step {e : TimerEvent} (h : TimerInv s) (hok : NoOverflow s e)
    (hs : s.step e = some t) : TimerInv t ∧ Exact s e t := by
  cases e with
  | start taskId tnum ticks isContinuous =>
    obtain rfl := Option.some.inj hs
    exact ⟨timerInv_start h taskId tnum ticks isContinuous hok, exact_start h hok⟩
  | stop taskId tnum =>
    obtain rfl := Option.some.inj hs
    exact ⟨timerInv_stop h taskId tnum, exact_stop⟩
  | update ticks =>
    obtain rfl := Option.some.inj hs
    exact ⟨timerInv_update h ticks, exact_update h ticks⟩

theorem timerInv_init (ready : Fin tasks → Bool) (tickCb : Bool) :
    TimerInv (TaskTimers.init ready tickCb) := by
  have hno : ∀ x, ¬ (TaskTimers.init ready tickCb).Running x := fun x hx => lt_irrefl _ hx.2
  exact ⟨le_rfl, le_rfl, fun _ => ⟨le_rfl, le_rfl⟩, fun x hx => absurd hx (hno x),
    fun _ x hx => absurd hx (hno x), fun _ _ => rfl, fun x hx => absurd hx (hno x),
    fun x hx => absurd hx (hno x), fun _ => .inl rfl⟩

end Runs

theorem task_timers_exact (tasks : Nat) (ready : Fin tasks → Bool) (tickCb : Bool)
    (es : List TimerEvent) (s : TaskTimers tasks)
    (hok : StepsOk TaskTimers.step NoOverflow (TaskTimers.init ready tickCb) es)
    (hrun : run TaskTimers.step (TaskTimers.init ready tickCb) es = some s) :
    (∀ x, s.Running x → s.now < s.due x ∧ s.osTaskTmr x - s.collected = s.due x - s.now ∧
      s.osTicksTilExp ≤ s.osTaskTmr x - s.collected) ∧
    ∀ e t, NoOverflow s e → s.step e = some t → Exact s e t := by
  have hinv := @run_keeps_of_step _ _ TaskTimers.step NoOverflow TimerInv
    (fun _ _ _ h hno hs => (timers_step h hno hs).1) es _ _ (timerInv_init ready tickCb) hok hrun
  refine ⟨?_, fun e t hno hs => (timers_step hinv hno hs).2⟩
  intro x hx
  have hl := hinv.left x hx
  have hp := hinv.pending x hx
  have hr := hinv.reach x hx
  refine ⟨by omega, hl, ?_⟩
  unfold TaskTimers.collected
  omega

/-- A timer of 5 ticks is started 3 ticks into one of 10: it is signalled by the
update that reaches tick 8, and not by the one before. -/
theorem task_timers_exact_started_between :
    ∃ s t : TaskTimers 1, run TaskTimers.step (TaskTimers.init (fun _ => true) false)
        [.start 0 0 10 false, .update 3, .start 0 1 5 false, .update 4] = some s ∧
      s.signals = [] ∧ s.step (.update 1) = some t ∧ ((0, 1), 8) ∈ t.signals := by
  refine ⟨_, _, rfl, by decide, rfl, ?_⟩
  obtain ⟨new, -, hsig, hmem⟩ := ((task_timers_exact 1 (fun _ => true) false
    [.start 0 0 10 false, .update 3, .start 0 1 5 false, .update 4] _ (by decide) rfl).2
    (.update 1) _ (by decide) rfl).signals
  rw [hsig]
  apply List.mem_append_right
  have hin : (0, 1) ∈ new := (hmem (0, 1)).mpr ⟨1, rfl, ⟨by decide, by decide⟩, by decide⟩
  exact List.mem_map.mpr ⟨(0, 1), hin, rfl⟩

end NfcStack.Gki
