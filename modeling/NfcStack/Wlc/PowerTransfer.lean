import NfcStack.Lib.Run
import NfcStack.Lib.Monitor
import NfcStack.Wlc.NfcCharging

/- Power transfers against the requests of the listener. `checkWlcCtlMsg` puts the
   limit of the duration on the request field, and its test of the power adjustment
   holds of every byte; the checks read fields of a payload without a look at its
   length.

   What is proved:
     1. `checkWlcStaiMsg_isSome`, `checkWlcCapMsg_isSome`, `checkWlcCtlMsg_isSome`:
        which messages the checks take without an exception.
     2. `tracks_step`: the fields that a transfer uses are those of the record
        accepted last, since the transfer before it.
     3. `power_as_asked`: over every run, no check throws and power is transferred as
        asked, exactly when the messages are formed and the fields of a record that is
        acted on are within their limits.
     4. `power_unasked`: a record that asks for no power, with a duration of 0x1F,
        starts a transfer with that duration. -/
namespace NfcStack.Wlc
open NfcStack.Lib NfcStack.Ndef NfcStack.Framework

/-! ## What the listener asks for -/

def cntOf (p : Bytes) : Nat := (p.getD 0 0 &&& 0x7).toNat
def requestOf (p : Bytes) : Nat := ((p.getD 1 0 &&& 0xC0) >>> 6).toNat
def durationOf (p : Bytes) : Nat := ((p.getD 1 0 &&& 0x3e) >>> 1).toNat
def powerAdjOf (p : Bytes) : Int := signed (p.getD 2 0)

/-- The record asks for power, the transfer has its duration, limited to 0x13, and its
adjustment, 0 unless it is in -10..20. -/
def AsAsked (p : Bytes) (powerAdjReq : Int) (wptTime : Nat) : Prop :=
  requestOf p = 1 ∧ wptTime = min (durationOf p) 0x13 ∧
    powerAdjReq = if -10 ≤ powerAdjOf p ∧ powerAdjOf p ≤ 20 then powerAdjOf p else 0

instance (p : Bytes) (powerAdjReq : Int) (wptTime : Nat) :
    Decidable (AsAsked p powerAdjReq wptTime) := inferInstanceAs (Decidable (_ ∧ _ ∧ _))

/-- The counter of the record accepted last, and the record that no transfer answered
yet, if its counter was new. -/
structure Ledger where
  counter : Option Nat
  pending : Option Bytes

/-- A transfer in negotiated mode answers the pending record. -/
def nextObs (l : Ledger) : Obs → Option Ledger
  | .accepted p => some
      { counter := some (cntOf p), pending := if l.counter = some (cntOf p) then none else some p }
  | .startWlcPowerTransfer .handleWpt powerAdjReq wptTime =>
    match l.pending with
    | some p => if AsAsked p powerAdjReq wptTime then some { l with pending := none } else none
    | none => none
  | .ended => some { counter := none, pending := none }
  | _ => some l

def ledger (c : State) : Option Ledger := watch nextObs { counter := none, pending := none } c.trace

/-- The event is one in which a message is checked. -/
def Event.checks : Event → Bool
  | .tagDiscovered _ _ => true
  | .watchdog _ _ => true
  | _ => false

/-- No check throws, and every transfer so far was asked for. -/
def Lawful (c : State) (e : Event) : Prop :=
  (e.checks = true → (step c e).isSome = true) ∧
    (step c e).all (fun d => (ledger d).isSome) = true

instance (c : State) (e : Event) : Decidable (Lawful c e) :=
  inferInstanceAs (Decidable ((_ → _) ∧ _))

/-! ## Formed messages -/

/-- There is a byte for every field that the control byte announces. -/
def StaiFormed : Bytes → Prop
  | [] => False
  | controlByte :: rest =>
    (staiFields.map Prod.fst).countP (fun mask => controlByte &&& mask = mask) ≤ rest.length

def RestFormed (rest : List NdefRecord) : Prop :=
  ∀ r ∈ rest, r.type = WLCSTAI → StaiFormed r.payload

def CapFormed : List NdefRecord → Prop
  | [] => True
  | first :: rest => first.type = WLCCAP → 2 ≤ first.payload.length ∧
      (first.payload.getD 1 0 &&& 0xC0 ≠ 0xC0 → 6 ≤ first.payload.length ∧ RestFormed rest)

def CtlFormed : List NdefRecord → Prop
  | [] => True
  | first :: rest => first.type = WLCCTL → 6 ≤ first.payload.length ∧ RestFormed rest

/-- The duration is not above its limit and the adjustment is in its range. -/
def Within (p : Bytes) : Prop := durationOf p ≤ 0x13 ∧ -10 ≤ powerAdjOf p ∧ powerAdjOf p ≤ 20

instance : DecidablePred Within := fun _ => inferInstanceAs (Decidable (_ ∧ _ ∧ _))

/-- What the step may read, and what it may act on: the record acted on is the one whose
payload was read last. -/
def Fits (c : State) (ndef : Option (List NdefRecord)) : Prop :=
  match c.wlcState with
  | .readCap => c.mFirstOccurrence = false → ∀ msg ∈ ndef, CapFormed msg
  | .readCtl => ∀ msg ∈ ndef, CtlFormed msg
  | .handleWpt => Within (c.mNdefPayload.getD [])
  | _ => True

def Sensible (c : State) : Event → Prop
  | .tagDiscovered ndefMsg _ => c.nfcChargingMode = false → ∀ msg ∈ ndefMsg, CapFormed msg
  | .watchdog ndef _ => c.mWatchdogWlc.any Watchdog.running = true → Fits c ndef
  | _ => True

section Checks
variable {c d e : State}

/-! ## When a check throws -/

theorem staiFields_isSome (payload : Bytes) (controlByte : UInt8)
    (fields : List (UInt8 × (State → Int → State))) : ∀ (c : State) (pos : Nat),
    pos < payload.length →
    ((fields.foldlM (staiField payload controlByte) (c, pos)).isSome = true ↔
      pos + (fields.map Prod.fst).countP (fun mask => controlByte &&& mask = mask)
        < payload.length) := by
  induction fields with
  | nil =>
    intro c pos hpos
    exact ⟨fun _ => hpos, fun _ => rfl⟩
  | cons field fields ih =>
    intro c pos hpos
    rw [List.foldlM_cons, List.map_cons, List.countP_cons]
    by_cases hset : controlByte &&& field.1 = field.1
    · rw [staiField, if_pos ⟨hset, hpos⟩, if_pos (decide_eq_true hset)]
      by_cases hnext : pos + 1 < payload.length
      · rw [List.getElem?_eq_getElem hnext]
        refine (ih _ (pos + 1) hnext).trans ?_
        rw [show ∀ n, pos + 1 + n = pos + (n + 1) by omega]
      · rw [List.getElem?_eq_none (by omega)]
        refine ⟨fun h => (by cases h), fun h => ?_⟩
        exact absurd h (by omega)
    · rw [staiField, if_neg (fun h => hset h.1), if_neg (by rw [decide_eq_true_eq]; exact hset)]
      exact ih c pos hpos

theorem checkWlcStaiMsg_isSome (c : State) (payload : Bytes) :
    (checkWlcStaiMsg c payload).isSome = true ↔ StaiFormed payload := by
  cases payload with
  | nil => exact ⟨fun h => (by cases h), fun h => h.elim⟩
  | cons controlByte rest =>
    have hfields := staiFields_isSome (controlByte :: rest) controlByte staiFields c 0
      (Nat.succ_pos _)
    unfold checkWlcStaiMsg StaiFormed
    rw [List.getElem?_cons_zero, Option.bind_some, Option.isSome_map, hfields, Nat.zero_add,
      List.length_cons, Nat.lt_succ_iff]

/-- The records behind the first are read without an exception when each of them is. -/
theorem foldlM_isSome {f : State → NdefRecord → Option State} {ok : NdefRecord → Prop}
    (hf : ∀ c r, (f c r).isSome = true ↔ ok r) (rest : List NdefRecord) :
    ∀ c, (rest.foldlM f c).isSome = true ↔ ∀ r ∈ rest, ok r := by
  induction rest with
  | nil => exact fun c => ⟨fun _ _ h => (by cases h), fun _ => rfl⟩
  | cons r rest ih =>
    intro c
    rw [List.foldlM_cons, List.forall_mem_cons, ← hf c r]
    cases h : f c r with
    | none => exact ⟨fun h => (by cases h), fun h => (by cases h.1)⟩
    | some d => exact (ih d).trans ⟨fun h => ⟨rfl, h⟩, fun h => h.2⟩

theorem capRecord_isSome (c : State) (r : NdefRecord) :
    (capRecord c r).isSome = true ↔ (r.type = WLCSTAI → StaiFormed r.payload) := by
  unfold capRecord
  dsimp only
  split
  · next hstai =>
    rw [checkWlcStaiMsg_isSome]
    exact ⟨fun h _ => h, fun h => h hstai⟩
  · next hstai =>
    split
    · exact ⟨fun _ h => absurd h hstai, fun _ => rfl⟩
    · exact ⟨fun _ h => absurd h hstai, fun _ => rfl⟩

theorem ctlRecord_isSome (c : State) (r : NdefRecord) :
    (ctlRecord c r).isSome = true ↔ (r.type = WLCSTAI → StaiFormed r.payload) := by
  unfold ctlRecord
  dsimp only
  split
  · next hstai =>
    rw [checkWlcStaiMsg_isSome]
    exact ⟨fun h _ => h, fun h => h hstai⟩
  · next hstai => exact ⟨fun _ h => absurd h hstai, fun _ => rfl⟩

theorem checkWlcCapMsg_isSome (c : State) (msg : List NdefRecord) :
    (checkWlcCapMsg c (some msg)).isSome = true ↔ CapFormed msg := by
  cases msg with
  | nil => exact ⟨fun _ => trivial, fun _ => rfl⟩
  | cons first rest =>
    unfold checkWlcCapMsg CapFormed
    dsimp only
    by_cases htype : first.type = WLCCAP
    · rw [if_neg (not_not.mpr htype)]
      rcases hp : first.payload with _ | ⟨b0, _ | ⟨b1, payload⟩⟩
      · exact ⟨fun h => (by cases h), fun h => absurd (h htype).1 (by simp)⟩
      · exact ⟨fun h => (by cases h), fun h => absurd (h htype).1 (by simp)⟩
      · dsimp only
        by_cases hmode : b1 &&& 0xC0 = 0xC0
        · rw [if_pos hmode]
          exact ⟨fun _ _ => ⟨by simp, fun h => absurd hmode h⟩, fun _ => rfl⟩
        · rw [if_neg hmode]
          rcases payload with _ | ⟨b2, _ | ⟨b3, _ | ⟨b4, _ | ⟨b5, payload⟩⟩⟩⟩
          case cons.cons.cons.cons =>
            rw [Option.isSome_map, foldlM_isSome capRecord_isSome]
            exact ⟨fun h _ => ⟨by simp, fun _ => ⟨by simp, h⟩⟩,
              fun h => ((h htype).2 hmode).2⟩
          all_goals
            exact ⟨fun h => (by cases h), fun h => absurd ((h htype).2 hmode).1 (by simp)⟩
    · rw [if_pos htype]
      exact ⟨fun _ h => absurd h htype, fun _ => rfl⟩

theorem checkWlcCtlMsg_isSome (c : State) (msg : List NdefRecord) :
    (checkWlcCtlMsg c (some msg)).isSome = true ↔ CtlFormed msg := by
  cases msg with
  | nil => exact ⟨fun _ => trivial, fun _ => rfl⟩
  | cons first rest =>
    unfold checkWlcCtlMsg CtlFormed
    dsimp only
    by_cases htype : first.type = WLCCTL
    · rw [if_neg (not_not.mpr htype)]
      rcases hp : first.payload with
        _ | ⟨b0, _ | ⟨b1, _ | ⟨b2, _ | ⟨b3, _ | ⟨b4, _ | ⟨b5, payload⟩⟩⟩⟩⟩⟩
      case cons.cons.cons.cons.cons.cons =>
        rw [Option.isSome_map, foldlM_isSome ctlRecord_isSome]
        exact ⟨fun h _ => ⟨by simp, h⟩, fun h => (h htype).2⟩
      all_goals exact ⟨fun h => (by cases h), fun h => absurd (h htype).1 (by simp)⟩
    · rw [if_pos htype]
      exact ⟨fun _ h => absurd h htype, fun _ => rfl⟩

/-! ## What the checks leave alone -/

theorem ledger_emit (c : State) (obs : Obs) :
    ledger (c.emit obs) = (ledger c).bind fun l => nextObs l obs := by
  unfold ledger watch State.emit
  rw [List.foldlM_append]
  cases List.foldlM nextObs { counter := none, pending := none } c.trace with
  | none => rfl
  | some l =>
    change (nextObs l obs).bind some = nextObs l obs
    cases nextObs l obs <;> rfl

structure ReadFrom (c : State) (p : Bytes) : Prop where
  payload : c.mNdefPayload = some p
  cnt : c.ctlCntNew = cntOf p
  request : c.ctlWptReq =
    if 0x13 < durationOf p then 0x13 else if 1 < requestOf p then 0 else requestOf p
  duration : c.ctlWptDuration = durationOf p
  powerAdj : c.ctlPowerAdjReq = powerAdjOf p

structure Frame (c d : State) : Prop where
  state : d.wlcState = c.wlcState
  cnt : d.mCnt = c.mCnt
  retry : d.mNwccRetry = c.mNwccRetry
  watchdog : d.mWatchdogWlc = c.mWatchdogWlc
  mode : d.nfcChargingMode = c.nfcChargingMode
  ledger : ledger d = ledger c

theorem Frame.refl (c : State) : Frame c c := ⟨rfl, rfl, rfl, rfl, rfl, rfl⟩

theorem Frame.trans (h : Frame c d) (h' : Frame d e) : Frame c e :=
  ⟨h'.state.trans h.state, h'.cnt.trans h.cnt, h'.retry.trans h.retry,
    h'.watchdog.trans h.watchdog, h'.mode.trans h.mode, h'.ledger.trans h.ledger⟩

structure Keeps (c d : State) : Prop extends Frame c d where
  read : ∀ p, ReadFrom c p → ReadFrom d p

theorem Keeps.refl (c : State) : Keeps c c := ⟨Frame.refl c, fun _ h => h⟩

theorem Keeps.trans (h : Keeps c d) (h' : Keeps d e) : Keeps c e :=
  ⟨h.toFrame.trans h'.toFrame, fun p hp => h'.read p (h.read p hp)⟩

theorem keeps_foldlM {α σ : Type} {f : σ → α → Option σ} {view : σ → State}
    {xs : List α} (hf : ∀ s x t, x ∈ xs → f s x = some t → Keeps (view s) (view t)) :
    ∀ {s t : σ}, xs.foldlM f s = some t → Keeps (view s) (view t) := by
  induction xs with
  | nil =>
    intro s t h
    cases h
    exact Keeps.refl _
  | cons x xs ih =>
    intro s t h
    rw [List.foldlM_cons] at h
    obtain ⟨u, hu, h⟩ := Option.bind_eq_some_iff.mp h
    exact (hf s x u List.mem_cons_self hu).trans
      (ih (fun s y t hy => hf s y t (List.mem_cons_of_mem _ hy)) h)

/-- The setters of WLC_STAI only touch the levels. -/
theorem keeps_staiFields {field : UInt8 × (State → Int → State)} (hf : field ∈ staiFields)
    (c : State) (v : Int) : Keeps c (field.2 c v) := by
  unfold staiFields at hf
  simp only [List.mem_cons, List.not_mem_nil, or_false] at hf
  rcases hf with rfl | rfl | rfl | rfl | rfl
  all_goals exact ⟨⟨rfl, rfl, rfl, rfl, rfl, rfl⟩, fun p h => ⟨h.1, h.2, h.3, h.4, h.5⟩⟩

theorem keeps_checkWlcStaiMsg {payload : Bytes} (h : checkWlcStaiMsg c payload = some d) :
    Keeps c d := by
  unfold checkWlcStaiMsg at h
  obtain ⟨controlByte, -, h⟩ := Option.bind_eq_some_iff.mp h
  obtain ⟨s, hs, rfl⟩ := Option.map_eq_some_iff.mp h
  refine @keeps_foldlM (UInt8 × (State → Int → State)) (State × Nat) _ Prod.fst _ ?_ _ _ hs
  intro s field t hfield ht
  unfold staiField at ht
  split at ht
  · obtain ⟨b, -, rfl⟩ := Option.map_eq_some_iff.mp ht
    exact keeps_staiFields hfield s.1 _
  · cases ht
    exact Keeps.refl _

theorem keeps_capRecord {r : NdefRecord} (h : capRecord c r = some d) : Keeps c d := by
  have hset : Keeps c { c with mNdefType := some r.type, mNdefPayload2 := some r.payload } :=
    ⟨⟨rfl, rfl, rfl, rfl, rfl, rfl⟩, fun p h => ⟨h.1, h.2, h.3, h.4, h.5⟩⟩
  unfold capRecord at h
  dsimp only at h
  split at h
  · exact hset.trans (keeps_checkWlcStaiMsg h)
  · split at h
    · cases h
      exact ⟨⟨rfl, rfl, rfl, rfl, rfl, rfl⟩, fun p h => ⟨h.1, h.2, h.3, h.4, h.5⟩⟩
    · cases h
      exact hset

theorem keeps_ctlRecord {r : NdefRecord} (h : ctlRecord c r = some d) : Keeps c d := by
  have hset : Keeps c { c with mNdefType := some r.type, mNdefPayload2 := some r.payload } :=
    ⟨⟨rfl, rfl, rfl, rfl, rfl, rfl⟩, fun p h => ⟨h.1, h.2, h.3, h.4, h.5⟩⟩
  unfold ctlRecord at h
  dsimp only at h
  split at h
  · exact hset.trans (keeps_checkWlcStaiMsg h)
  · cases h
    exact hset

theorem ledger_onWlcData (c : State) : ledger c.onWlcData = ledger c := by
  unfold State.onWlcData
  rw [ledger_emit]
  cases ledger c <;> rfl

theorem keeps_reportBattery (c : State) : Keeps c (reportBattery c) := by
  unfold reportBattery
  split
  · exact ⟨⟨rfl, rfl, rfl, rfl, rfl, ledger_onWlcData c⟩, fun p h => ⟨h.1, h.2, h.3, h.4, h.5⟩⟩
  · exact Keeps.refl c

theorem frame_checkWlcCapMsg {msg : Option (List NdefRecord)} {valid : Bool}
    (h : checkWlcCapMsg c msg = some (d, valid)) : Frame c d := by
  cases msg with
  | none =>
    cases h
    exact (keeps_reportBattery c).toFrame
  | some msg =>
    cases msg with
    | nil =>
      cases h
      exact ⟨rfl, rfl, rfl, rfl, rfl, rfl⟩
    | cons first rest =>
      unfold checkWlcCapMsg at h
      dsimp only at h
      split at h
      · cases h
        exact ⟨rfl, rfl, rfl, rfl, rfl, rfl⟩
      · split at h
        · split at h
          · cases h
            exact ⟨rfl, rfl, rfl, rfl, rfl, rfl⟩
          · split at h
            · obtain ⟨u, hu, heq⟩ := Option.map_eq_some_iff.mp h
              obtain ⟨rfl, -⟩ := Prod.mk.inj heq
              have hrest := @keeps_foldlM _ _ _ id _ (fun s r t _ ht => keeps_capRecord ht) _ _ hu
              have hlast := keeps_reportBattery { u with nfcChargingOnGoing := true }
              refine Frame.trans ?_ (hrest.toFrame.trans (Frame.trans ?_ hlast.toFrame))
              · exact ⟨rfl, rfl, rfl, rfl, rfl, rfl⟩
              · exact ⟨rfl, rfl, rfl, rfl, rfl, rfl⟩
            · cases h
        · cases h

/-- A valid WLC_CTL leaves its fields behind. -/
theorem readFrom_ctlFields {b0 b1 b2 b3 b4 b5 : UInt8} {payload : Bytes}
    (hp : c.mNdefPayload = some (b0 :: b1 :: b2 :: b3 :: b4 :: b5 :: payload)) :
    ReadFrom (ctlFields c b0 b1 b2 b3 b5) (b0 :: b1 :: b2 :: b3 :: b4 :: b5 :: payload) := by
  -- every byte is at most 20 or at least -10
  have hadj : (if signed b2 ≤ 0x14 ∨ -10 ≤ signed b2 then signed b2 else 0) = signed b2 :=
    if_pos (by omega)
  unfold ctlFields
  dsimp only
  split
  · exact ⟨hp, rfl, rfl, rfl, hadj⟩
  · exact ⟨hp, rfl, rfl, rfl, hadj⟩

theorem frame_ctlFields (c : State) (b0 b1 b2 b3 b5 : UInt8) :
    Frame c (ctlFields c b0 b1 b2 b3 b5) := by
  unfold ctlFields
  dsimp only
  split
  · exact ⟨rfl, rfl, rfl, rfl, rfl, rfl⟩
  · exact ⟨rfl, rfl, rfl, rfl, rfl, rfl⟩

theorem checkWlcCtlMsg_spec {msg : List NdefRecord} {valid : Bool}
    (h : checkWlcCtlMsg c (some msg) = some (d, valid)) :
    Frame c d ∧ (valid = true → ∃ p, ReadFrom d p) := by
  cases msg with
  | nil =>
    cases h
    exact ⟨Frame.refl c, fun h => (by cases h)⟩
  | cons first rest =>
    unfold checkWlcCtlMsg at h
    dsimp only at h
    split at h
    · cases h
      exact ⟨⟨rfl, rfl, rfl, rfl, rfl, rfl⟩, fun h => (by cases h)⟩
    · split at h
      · next b0 b1 b2 b3 b4 b5 payload hp =>
        obtain ⟨u, hu, heq⟩ := Option.map_eq_some_iff.mp h
        obtain ⟨rfl, -⟩ := Prod.mk.inj heq
        have hrest := @keeps_foldlM _ _ _ id _ (fun s r t _ ht => keeps_ctlRecord ht) _ _ hu
        have hkeeps := hrest.trans (keeps_reportBattery u)
        have hfirst : Frame c { c with
            mNdefType := some first.type, mNdefPayload := some first.payload } :=
          ⟨rfl, rfl, rfl, rfl, rfl, rfl⟩
        refine ⟨hfirst.trans ((frame_ctlFields _ b0 b1 b2 b3 b5).trans hkeeps.toFrame),
          fun _ => ?_⟩
        exact ⟨_, hkeeps.read _ (readFrom_ctlFields (congrArg some hp))⟩
      · cases h

end Checks

section Machine
variable {c d : State} {l : Ledger}

/-! ## The invariant -/

/-- The states between the acceptance of a record and its transfer. -/
def Acting (wlcState : WlcState) : Prop :=
  wlcState = .readConf ∨ wlcState = .checkWpt ∨ wlcState = .handleWpt

/-- The record acted on is pending, and the counter is that of the record accepted last. -/
structure Steady (c : State) (l : Ledger) : Prop where
  ledger : ledger c = some l
  counter : c.mCnt = l.counter.elim (-1) fun n => (n : Int)
  retry : c.mNwccRetry ≤ 3
  mode : c.nfcChargingMode = true
  pending : Acting c.wlcState → ∃ p, l.pending = some p ∧ ReadFrom c p
  asked : c.wlcState = .handleWpt → c.ctlWptReq ≠ 0

/-- Between the sessions only the counter matters. -/
structure Tracks (c : State) : Prop where
  ledger : (ledger c).isSome = true
  counter : ∀ l, Wlc.ledger c = some l → c.mCnt = l.counter.elim (-1) fun n => (n : Int)
  retry : c.mNwccRetry ≤ 3
  session : c.mWatchdogWlc.isSome = true → ∃ l, Steady c l

theorem Steady.tracks (h : Steady c l) : Tracks c := by
  refine ⟨?_, fun l' hl' => ?_, h.retry, fun _ => ⟨l, h⟩⟩
  · rw [h.ledger]
    rfl
  · rw [h.ledger] at hl'
    cases hl'
    exact h.counter

theorem tracks_new : Tracks State.new :=
  ⟨rfl, fun l hl => (by cases hl; rfl), Nat.zero_le _, fun h => (by cases h)⟩

/-- The step accepts no record and starts no transfer, and does not go on to one. -/
structure Still (c d : State) : Prop where
  cnt : d.mCnt = c.mCnt
  retry : c.mNwccRetry ≤ 3 → d.mNwccRetry ≤ 3
  mode : d.nfcChargingMode = c.nfcChargingMode
  ledger : ledger d = ledger c
  idle : ¬ Acting d.wlcState

theorem Steady.still (h : Steady c l) (hs : Still c d) : Steady d l := by
  refine ⟨hs.ledger.trans h.ledger, hs.cnt.trans h.counter, hs.retry h.retry,
    hs.mode.trans h.mode, fun hact => absurd hact hs.idle, fun hst => ?_⟩
  exact absurd (Or.inr (Or.inr hst)) hs.idle

theorem Frame.still {e : State} (h : Frame c d) (h' : Still d e) : Still c e :=
  ⟨h'.cnt.trans h.cnt, fun hr => h'.retry (h.retry ▸ hr), h'.mode.trans h.mode,
    h'.ledger.trans h.ledger, h'.idle⟩

theorem ledger_quiet {obs : Obs} (hq : ∀ l, nextObs l obs = some l) :
    ledger (c.emit obs) = ledger c := by
  rw [ledger_emit]
  cases ledger c with
  | none => rfl
  | some l => exact hq l

/-! ## The handlers -/

theorem still_absent (h : ¬ Acting c.wlcState) : Still c c.absent :=
  ⟨rfl, fun hr => hr, rfl, rfl, h⟩

theorem still_chooseMode (c : State) (multiTag : Bool) : Still c (chooseMode c multiTag).1 := by
  unfold chooseMode
  split
  · refine ⟨rfl, fun hr => hr, rfl, ?_, fun h => (by rcases h with h | h | h <;> cases h)⟩
    exact ledger_onWlcData _
  · split
    · exact ⟨rfl, fun hr => hr, rfl, rfl, fun h => (by rcases h with h | h | h <;> cases h)⟩
    · exact ⟨rfl, fun hr => hr, rfl, rfl, fun h => (by rcases h with h | h | h <;> cases h)⟩

variable {ndef : Option (List NdefRecord)} {multiTag : Bool}

theorem still_handleReadCap {wt : Int}
    (hst : c.wlcState = .readCap) (h : handleReadCap c ndef multiTag = some (d, wt)) :
    Still c d := by
  unfold handleReadCap at h
  dsimp only at h
  obtain ⟨u, hu⟩ : ∃ u, u = if c.mLastState ≠ CONNECTED_CHARGING then
      ({ c with mLastState := CONNECTED_CHARGING }.setDeviceState CONNECTED_CHARGING).onWlcData
    else c := ⟨_, rfl⟩
  have hframe : Frame c u := by
    rw [hu]
    split
    · exact ⟨rfl, rfl, rfl, rfl, rfl, ledger_onWlcData _⟩
    · exact Frame.refl c
  have hidle : ¬ Acting c.wlcState := by
    rw [hst]
    rintro (h | h | h) <;> cases h
  rw [← hu] at h
  split at h
  · split at h
    · cases h
      exact hframe.still (still_absent (hframe.state ▸ hidle))
    · obtain ⟨rfl, -⟩ := Prod.mk.inj (Option.some.inj h)
      have hch := still_chooseMode { u with mFirstOccurrence := false } multiTag
      exact hframe.still ⟨hch.cnt, hch.retry, hch.mode, hch.ledger, hch.idle⟩
  · split at h
    · cases h
      exact hframe.still ⟨rfl, fun hr => hr, rfl, rfl, hframe.state ▸ hidle⟩
    · next msg =>
      obtain ⟨⟨v, valid⟩, hv, heq⟩ := Option.map_eq_some_iff.mp h
      have hset : Frame u { u with mNdefMessage := some msg } := ⟨rfl, rfl, rfl, rfl, rfl, rfl⟩
      have huv : Frame u v := hset.trans (frame_checkWlcCapMsg hv)
      refine (hframe.trans huv).still ?_
      dsimp only at heq
      split at heq
      · obtain ⟨rfl, -⟩ := Prod.mk.inj heq
        exact still_chooseMode v multiTag
      · obtain ⟨rfl, -⟩ := Prod.mk.inj heq
        exact still_absent ((hframe.trans huv).state ▸ hidle)

theorem still_handleNegoWait (c : State) : Still c (handleNegoWait c).1 := by
  unfold handleNegoWait
  split
  · split
    · exact ⟨rfl, fun hr => hr, rfl, rfl, fun h => (by rcases h with h | h | h <;> cases h)⟩
    · exact ⟨rfl, fun hr => hr, rfl, rfl, fun h => (by rcases h with h | h | h <;> cases h)⟩
  · exact ⟨rfl, fun hr => hr, rfl, rfl, fun h => (by rcases h with h | h | h <;> cases h)⟩

theorem still_retryCtl (hst : ¬ Acting c.wlcState) : Still c (retryCtl c).1 := by
  unfold retryCtl
  split
  · next hlt => exact ⟨rfl, fun _ => hlt, rfl, rfl, hst⟩
  · split
    · exact ⟨rfl, fun _ => Nat.zero_le _, rfl, rfl, hst⟩
    · exact ⟨rfl, fun hr => hr, rfl, rfl, hst⟩

/-- A record that is accepted with a new counter is pending. -/
theorem steady_acceptCtl {p : Bytes} (h : Steady c l) (hp : ReadFrom c p)
    (hnew : l.counter ≠ some (cntOf p)) : ∃ l', Steady (acceptCtl c).1 l' := by
  have hledger : ledger ({ c with mNwccRetry := 0, mCnt := c.ctlCntNew }.emit
      (.accepted (c.mNdefPayload.getD []))) =
      some { counter := some (cntOf p), pending := some p } := by
    rw [ledger_emit, show ledger { c with mNwccRetry := 0, mCnt := c.ctlCntNew } = some l from
      h.ledger, Option.bind_some, hp.payload, Option.getD_some, nextObs, if_neg hnew]
  have hread : ReadFrom ({ c with mNwccRetry := 0, mCnt := c.ctlCntNew }.emit
      (.accepted (c.mNdefPayload.getD []))) p := ⟨hp.1, hp.2, hp.3, hp.4, hp.5⟩
  have hcnt : (c.ctlCntNew : Int) = (cntOf p : Int) := by rw [hp.cnt]
  refine ⟨{ counter := some (cntOf p), pending := some p }, ?_⟩
  unfold acceptCtl
  dsimp only
  split
  · exact ⟨hledger, hcnt, Nat.zero_le _, h.mode,
      fun _ => ⟨p, rfl, hread.1, hread.2, hread.3, hread.4, hread.5⟩, fun hs => (by cases hs)⟩
  · exact ⟨hledger, hcnt, Nat.zero_le _, h.mode,
      fun _ => ⟨p, rfl, hread.1, hread.2, hread.3, hread.4, hread.5⟩, fun hs => (by cases hs)⟩

theorem steady_judgeCtl {valid : Bool} (h : Steady c l) (hst : ¬ Acting c.wlcState)
    (hread : valid = true → ∃ p, ReadFrom c p) : ∃ l', Steady (judgeCtl c valid).1 l' := by
  unfold judgeCtl
  split
  · exact ⟨l, h.still (still_retryCtl hst)⟩
  · next hvalid =>
    obtain ⟨p, hp⟩ := hread (by simpa using hvalid)
    have hcnt := hp.cnt
    have hcounter := h.counter
    split
    · next hfirst =>
      refine steady_acceptCtl h hp fun hsame => ?_
      rw [hfirst, hsame] at hcounter
      exact absurd hcounter (by simp only [Option.elim]; omega)
    · split
      · rw [if_pos h.retry]
        exact ⟨l, h.still (still_retryCtl hst)⟩
      · next hne =>
        refine steady_acceptCtl h hp fun hsame => hne ?_
        rw [hcounter, hsame, hcnt]
        rfl

theorem steady_handleReadCtl {wt : Int} (h : Steady c l)
    (hst : c.wlcState = .readCtl) (hd : handleReadCtl c ndef = some (d, wt)) :
    ∃ l', Steady d l' := by
  have hidle : ¬ Acting c.wlcState := by
    rw [hst]
    rintro (h | h | h) <;> cases h
  unfold handleReadCtl at hd
  dsimp only at hd
  split at hd
  · cases hd
    exact ⟨l, h.still ⟨rfl, fun hr => hr, rfl, rfl, hidle⟩⟩
  · next msg =>
    obtain ⟨⟨v, valid⟩, hv, heq⟩ := Option.map_eq_some_iff.mp hd
    obtain ⟨hframe, hread⟩ := checkWlcCtlMsg_spec hv
    obtain rfl : (judgeCtl v valid).1 = d := congrArg Prod.fst heq
    have hv' : ¬ Acting v.wlcState := by
      rw [hframe.state]
      exact hidle
    refine steady_judgeCtl (l := l) ?_ hv' hread
    exact h.still ⟨hframe.cnt, fun hr => hframe.retry.trans_le hr, hframe.mode, hframe.ledger, hv'⟩

theorem steady_handleCheckWpt (h : Steady c l) (hst : c.wlcState = .checkWpt) :
    Steady (handleCheckWpt c).1 l := by
  unfold handleCheckWpt
  split
  · refine h.still ?_
    dsimp only
    split
    · exact ⟨rfl, fun hr => hr, rfl, ledger_quiet fun _ => rfl,
        fun h => (by rcases h with h | h | h <;> cases h)⟩
    · exact ⟨rfl, fun hr => hr, rfl, rfl, fun h => (by rcases h with h | h | h <;> cases h)⟩
  · next hreq =>
    obtain ⟨p, hp, hread⟩ := h.pending (Or.inr (Or.inl hst))
    exact ⟨h.ledger, h.counter, h.retry, h.mode,
      fun _ => ⟨p, hp, hread.1, hread.2, hread.3, hread.4, hread.5⟩, fun _ => hreq⟩

/-- Within the limits, and only there, the transfer is the one that was asked for. -/
theorem asAsked_iff {p : Bytes} (hp : ReadFrom c p) (hreq : c.ctlWptReq ≠ 0) :
    AsAsked p c.ctlPowerAdjReq c.ctlWptDuration ↔ Within p := by
  have hr := hp.request
  rw [AsAsked, Within, hp.powerAdj, hp.duration]
  constructor
  · intro ⟨_, hdur, hadj⟩
    refine ⟨by omega, ?_⟩
    by_contra hout
    rw [if_neg hout] at hadj
    omega
  · intro ⟨hdur, hadj⟩
    rw [if_neg (by omega)] at hr
    refine ⟨?_, by omega, (if_pos hadj).symm⟩
    split at hr <;> omega

theorem ledger_handleWpt (h : Steady c l) (hst : c.wlcState = .handleWpt) :
    ledger (c.emit (.startWlcPowerTransfer .handleWpt c.ctlPowerAdjReq c.ctlWptDuration)) =
      if Within (c.mNdefPayload.getD []) then some { l with pending := none } else none := by
  obtain ⟨p, hp, hread⟩ := h.pending (Or.inr (Or.inr hst))
  rw [ledger_emit, h.ledger, Option.bind_some, nextObs, hp, hread.payload, Option.getD_some]
  by_cases hin : Within p
  · rw [if_pos hin]
    exact if_pos ((asAsked_iff hread (h.asked hst)).mpr hin)
  · rw [if_neg hin]
    exact if_neg fun ha => hin ((asAsked_iff hread (h.asked hst)).mp ha)

theorem steady_handle {wt : Int}
    (h : Steady c l) (hfits : Fits c ndef) (hd : handleWLCState c ndef multiTag = some (d, wt)) :
    ∃ l', Steady d l' := by
  unfold handleWLCState at hd
  split at hd
  case h_1 hst => exact ⟨l, h.still (still_handleReadCap hst hd)⟩
  case h_2 hst =>
    cases hd
    exact ⟨l, h.still ⟨rfl, fun hr => hr, rfl, @ledger_quiet (c.goto .readCap) _ fun _ => rfl,
      fun h => (by rcases h with h | h | h <;> cases h)⟩⟩
  case h_3 hst =>
    obtain rfl : (handleNegoWait c).1 = d := congrArg Prod.fst (Option.some.inj hd)
    exact ⟨l, h.still (still_handleNegoWait c)⟩
  case h_4 hst =>
    cases hd
    exact ⟨l, h.still ⟨rfl, fun hr => hr, rfl, @ledger_quiet c _ fun _ => rfl,
      fun h => (by rcases h with h | h | h <;> cases h)⟩⟩
  case h_5 hst => exact steady_handleReadCtl h hst hd
  case h_6 hst =>
    -- the pending record stays pending while the read confirmation is written
    cases hd
    obtain ⟨p, hp, hread⟩ := h.pending (Or.inl hst)
    refine ⟨l, (@ledger_quiet c _ fun _ => rfl).trans h.ledger, h.counter, h.retry, h.mode,
      fun _ => ⟨p, hp, hread.1, hread.2, hread.3, hread.4, hread.5⟩, fun hs => ?_⟩
    cases hs
  case h_7 hst =>
    obtain rfl : (handleCheckWpt c).1 = d := congrArg Prod.fst (Option.some.inj hd)
    exact ⟨l, steady_handleCheckWpt h hst⟩
  case h_8 hst =>
    cases hd
    have hin : Within (c.mNdefPayload.getD []) := by
      unfold Fits at hfits
      rw [hst] at hfits
      exact hfits
    have hledger := ledger_handleWpt h hst
    rw [if_pos hin] at hledger
    exact ⟨{ l with pending := none }, hledger, h.counter, h.retry, h.mode,
      fun hact => (by rcases hact with h | h | h <;> cases h), fun hs => (by cases hs)⟩
  case h_9 hst =>
    split at hd
    · cases hd
      exact ⟨l, h.still ⟨rfl, fun hr => hr, rfl, rfl,
        fun h => (by rcases h with h | h | h <;> cases h)⟩⟩
    · cases hd
      exact ⟨l, h.still ⟨rfl, fun hr => hr, rfl, rfl,
        fun h => (by rcases h with h | h | h <;> cases h)⟩⟩
  case h_10 hst =>
    cases hd
    exact ⟨l, h.still ⟨rfl, fun hr => hr, rfl, @ledger_quiet c _ fun _ => rfl,
      fun h => (by rcases h with h | h | h <;> cases h)⟩⟩
  case h_11 hst =>
    cases hd
    exact ⟨l, h.still ⟨rfl, fun hr => hr, rfl, rfl,
      fun h => (by rcases h with h | h | h <;> cases h)⟩⟩
  case h_12 hst =>
    cases hd
    exact ⟨l, h.still ⟨rfl, fun hr => hr, rfl, rfl,
      fun h => (by rcases h with h | h | h <;> cases h)⟩⟩

/-! ## One step -/

theorem tracks_endRun (h : Tracks c) : Tracks (endRun c) := by
  obtain ⟨l, hl⟩ := Option.isSome_iff_exists.mp h.ledger
  have hledger : ledger (endRun c) = some { counter := none, pending := none } := by
    obtain ⟨info, htrace⟩ : ∃ info,
        (endRun c).trace = (c.trace ++ [.wlcData info]) ++ [.ended] := ⟨_, rfl⟩
    unfold ledger at hl ⊢
    rw [htrace]
    exact watch_append_one (watch_append_one hl rfl) rfl
  refine ⟨?_, fun l' hl' => ?_, h.retry, fun hw => (by cases hw)⟩
  · rw [hledger]
    rfl
  · rw [hledger] at hl'
    cases hl'
    rfl

theorem tracks_watchdog (h : Tracks c)
    (hs : Sensible c (.watchdog ndef multiTag)) (hd : watchdogStep c ndef multiTag = some d) :
    Tracks d := by
  unfold watchdogStep at hd
  split at hd
  · cases hd
    exact h
  · next w hw =>
    split at hd
    · next hrun =>
      obtain ⟨⟨u, wt⟩, hu, rfl⟩ := Option.map_eq_some_iff.mp hd
      obtain ⟨l, hl⟩ := h.session (by rw [hw]; rfl)
      have hfits : Fits c ndef := hs (by rw [hw]; exact hrun)
      obtain ⟨l', hl'⟩ := steady_handle hl hfits hu
      refine Steady.tracks (l := l') ⟨hl'.ledger, hl'.counter, hl'.retry, hl'.mode,
        fun hact => ?_, hl'.asked⟩
      obtain ⟨p, hp, hread⟩ := hl'.pending hact
      exact ⟨p, hp, hread.1, hread.2, hread.3, hread.4, hread.5⟩
    · cases hd
      exact tracks_endRun h

theorem tracks_tagDiscovered {ndefMsg : Option (List NdefRecord)} {enableWlc : Bool}
    (h : Tracks c) (hd : tagDiscovered c ndefMsg enableWlc = some d) : Tracks d := by
  unfold tagDiscovered at hd
  split at hd
  · cases hd
    exact h
  · next hmode =>
    obtain ⟨⟨u, valid⟩, hu, rfl⟩ := Option.map_eq_some_iff.mp hd
    have hframe := frame_checkWlcCapMsg hu
    -- no session is on: it would have the charging mode set
    have hwatchdog : u.mWatchdogWlc = none := by
      rw [hframe.watchdog, ← Option.not_isSome_iff_eq_none]
      intro hw
      obtain ⟨l, hl⟩ := h.session hw
      exact hmode hl.mode
    obtain ⟨l, hl⟩ := Option.isSome_iff_exists.mp h.ledger
    have hledger : ledger u = some l := hframe.ledger.trans hl
    have hcounter : u.mCnt = l.counter.elim (-1) fun n => (n : Int) :=
      hframe.cnt.trans (h.counter l hl)
    have hretry : u.mNwccRetry ≤ 3 := hframe.retry.trans_le h.retry
    have hu : Tracks u := by
      refine ⟨?_, fun l' hl' => ?_, hretry, fun hw => ?_⟩
      · rw [hledger]
        rfl
      · rw [hledger] at hl'
        cases hl'
        exact hcounter
      · rw [hwatchdog] at hw
        cases hw
    dsimp only
    split
    · cases enableWlc with
      | false => exact hu
      | true =>
        exact Steady.tracks (l := l) ⟨hledger, hcounter, hretry, rfl,
          fun hact => (by rcases hact with h | h | h <;> cases h), fun hs => (by cases hs)⟩
    · exact hu

theorem tracks_interrupt {wlcState : WlcState} (h : Tracks c) (hst : ¬ Acting wlcState)
    (hd : interrupt c wlcState = some d) : Tracks d := by
  obtain ⟨w, hw, rfl⟩ := Option.map_eq_some_iff.mp hd
  obtain ⟨l, hl⟩ := h.session (by rw [hw]; rfl)
  exact Steady.tracks (hl.still ⟨rfl, fun hr => hr, rfl, rfl, hst⟩)

theorem tracks_onWlcStopped {wptEndCondition : Nat} (h : Tracks c)
    (hd : onWlcStopped c wptEndCondition = some d) : Tracks d := by
  unfold onWlcStopped at hd
  split at hd
  · refine tracks_interrupt h ?_ hd
    split <;> (rintro (h | h | h) <;> cases h)
  · refine tracks_interrupt h ?_ hd
    split <;> (rintro (h | h | h) <;> cases h)
  · refine tracks_interrupt h ?_ hd
    rintro (h | h | h) <;> cases h

theorem tracks_step {e : Event} (h : Tracks c) (hs : Sensible c e) (hd : step c e = some d) :
    Tracks d := by
  cases e with
  | tagDiscovered ndefMsg enableWlc => exact tracks_tagDiscovered h hd
  | watchdog ndef multiTag => exact tracks_watchdog h hs hd
  | wlcStopped wptEndCondition => exact tracks_onWlcStopped h hd
  | endpointRemoved =>
    refine tracks_interrupt h ?_ hd
    rintro (h | h | h) <;> cases h

/-! ## What the steps take -/

theorem handleReadCap_isSome (c : State) (ndef : Option (List NdefRecord)) (multiTag : Bool) :
    (handleReadCap c ndef multiTag).isSome = true ↔
      (c.mFirstOccurrence = false → ∀ msg ∈ ndef, CapFormed msg) := by
  unfold handleReadCap
  dsimp only
  have hfirst : ∀ u, (u = if c.mLastState ≠ CONNECTED_CHARGING then
      ({ c with mLastState := CONNECTED_CHARGING }.setDeviceState CONNECTED_CHARGING).onWlcData
      else c) → u.mFirstOccurrence = c.mFirstOccurrence := by
    intro u hu
    rw [hu]
    split <;> rfl
  obtain ⟨u, hu⟩ : ∃ u, u = if c.mLastState ≠ CONNECTED_CHARGING then
      ({ c with mLastState := CONNECTED_CHARGING }.setDeviceState CONNECTED_CHARGING).onWlcData
    else c := ⟨_, rfl⟩
  rw [← hu, ← hfirst u hu]
  cases hf : u.mFirstOccurrence with
  | true =>
    refine ⟨fun _ h => (by cases h), fun _ => ?_⟩
    cases u.mNdefMessage <;> rfl
  | false =>
    cases ndef with
    | none => exact ⟨fun _ _ msg h => (by cases h), fun _ => rfl⟩
    | some msg =>
      refine (Iff.of_eq (congrArg (· = true) Option.isSome_map)).trans ?_
      rw [checkWlcCapMsg_isSome]
      exact ⟨fun h _ m hm => (by cases hm; exact h), fun h => h rfl msg rfl⟩

theorem handleReadCtl_isSome (c : State) (ndef : Option (List NdefRecord)) :
    (handleReadCtl c ndef).isSome = true ↔ ∀ msg ∈ ndef, CtlFormed msg := by
  unfold handleReadCtl
  cases ndef with
  | none => exact ⟨fun _ msg h => (by cases h), fun _ => rfl⟩
  | some msg =>
    dsimp only
    rw [Option.isSome_map, checkWlcCtlMsg_isSome]
    exact ⟨fun h m hm => (by cases hm; exact h), fun h => h msg rfl⟩

/-- A round of the state machine with what it can read. -/
theorem handle_isSome (hfits : Fits c ndef) (multiTag : Bool) :
    (handleWLCState c ndef multiTag).isSome = true := by
  unfold Fits at hfits
  unfold handleWLCState
  split
  case h_1 hst =>
    rw [hst] at hfits
    exact (handleReadCap_isSome c ndef multiTag).mpr hfits
  case h_5 hst =>
    rw [hst] at hfits
    exact (handleReadCtl_isSome c ndef).mpr hfits
  case h_9 => split <;> rfl
  all_goals rfl

theorem tagDiscovered_isSome (c : State) (ndefMsg : Option (List NdefRecord)) (enableWlc : Bool) :
    (tagDiscovered c ndefMsg enableWlc).isSome = true ↔
      (c.nfcChargingMode = false → ∀ msg ∈ ndefMsg, CapFormed msg) := by
  unfold tagDiscovered
  cases c.nfcChargingMode with
  | true => exact ⟨fun _ h => (by cases h), fun _ => rfl⟩
  | false =>
    rw [if_neg Bool.false_ne_true, Option.isSome_map]
    cases ndefMsg with
    | none => exact ⟨fun _ _ msg h => (by cases h), fun _ => rfl⟩
    | some msg =>
      rw [checkWlcCapMsg_isSome]
      exact ⟨fun h _ m hm => (by cases hm; exact h), fun h => h rfl msg rfl⟩

/-- A lawful round fits: the check returned, or the transfer was asked for. -/
theorem fits_of_lawful (h : Steady c l) (hsome : (handleWLCState c ndef multiTag).isSome = true)
    (hall : ∀ r, handleWLCState c ndef multiTag = some r → (ledger r.1).isSome = true) :
    Fits c ndef := by
  unfold Fits
  split
  case h_1 hst =>
    unfold handleWLCState at hsome
    rw [hst] at hsome
    exact (handleReadCap_isSome c ndef multiTag).mp hsome
  case h_2 hst =>
    unfold handleWLCState at hsome
    rw [hst] at hsome
    exact (handleReadCtl_isSome c ndef).mp hsome
  case h_3 hst =>
    unfold handleWLCState at hall
    rw [hst] at hall
    have hledger : (ledger (c.emit
        (.startWlcPowerTransfer .handleWpt c.ctlPowerAdjReq c.ctlWptDuration))).isSome = true :=
      hall _ rfl
    rw [ledger_handleWpt h hst] at hledger
    by_contra hin
    rw [if_neg hin] at hledger
    cases hledger
  case h_4 => trivial

theorem lawful_iff {e : Event} (h : Tracks c) : Lawful c e ↔ Sensible c e := by
  constructor
  · intro ⟨hsome, hall⟩
    cases e with
    | tagDiscovered ndefMsg enableWlc =>
      exact (tagDiscovered_isSome c ndefMsg enableWlc).mp (hsome rfl)
    | watchdog ndef multiTag =>
      intro hrun
      have hsome := hsome rfl
      obtain ⟨w, hw, hrun⟩ := (Option.any_eq_true _ _).mp hrun
      obtain ⟨l, hl⟩ := h.session (by rw [hw]; rfl)
      simp only [step, watchdogStep, hw, hrun, if_true] at hsome hall
      rw [Option.isSome_map] at hsome
      refine fits_of_lawful hl hsome fun r hr => ?_
      rw [hr] at hall
      exact hall
    | wlcStopped _ => exact trivial
    | endpointRemoved => exact trivial
  · intro hs
    refine ⟨fun hchecks => ?_, ?_⟩
    · cases e with
      | tagDiscovered ndefMsg enableWlc => exact (tagDiscovered_isSome c ndefMsg enableWlc).mpr hs
      | watchdog ndef multiTag =>
        show (watchdogStep c ndef multiTag).isSome = true
        unfold watchdogStep
        split
        · rfl
        · next w hw =>
          split
          · next hrun =>
            rw [Option.isSome_map]
            exact handle_isSome (hs (by rw [hw]; exact hrun)) multiTag
          · rfl
      | wlcStopped _ => cases hchecks
      | endpointRemoved => cases hchecks
    · cases hd : step c e with
      | none => rfl
      | some d => exact (tracks_step h hs hd).ledger

end Machine

/-! ## Runs -/

theorem power_as_asked (es : List Event) :
    StepsOk step Lawful State.new es ↔ StepsOk step Sensible State.new es :=
  @stepsOk_iff State Event step Lawful Sensible Tracks (fun _ _ h => lawful_iff h)
    (fun _ _ _ h hlaw hd => tracks_step h ((lawful_iff h).mp hlaw) hd) es State.new tracks_new

/-- WLC_CAP of a listener that negotiates. -/
def capMsg : List NdefRecord := [⟨1, WLCCAP, [], [0x10, 0x40, 0, 0, 0, 0], rfl⟩]

/-- WLC_CTL with counter 1, no request for power and a duration of 0x1F. -/
def ctlPayload : Bytes := [0x01, 0x3E, 0, 0, 0, 0]

def unaskedRun : List Event :=
  [.tagDiscovered (some capMsg) true, .watchdog none false, .watchdog none false,
    .watchdog none false, .watchdog (some [⟨1, WLCCTL, [], ctlPayload, rfl⟩]) false,
    .watchdog none false, .watchdog none false]

theorem power_unasked : requestOf ctlPayload = 0 ∧
    (∃ c, run step State.new unaskedRun = some c ∧
      .startWlcPowerTransfer .handleWpt 0 0x1F ∈ c.trace) ∧
    ¬ StepsOk step Lawful State.new unaskedRun := by
  have hlast : (run step State.new unaskedRun).any (fun c =>
      decide (.startWlcPowerTransfer .handleWpt 0 0x1F ∈ c.trace)) = true := by decide +kernel
  obtain ⟨c, hc, hmem⟩ := (Option.any_eq_true _ _).mp hlast
  exact ⟨by decide, ⟨c, hc, of_decide_eq_true hmem⟩, by decide +kernel⟩

end NfcStack.Wlc
