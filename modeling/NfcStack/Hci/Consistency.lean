import NfcStack.Hci.Steps

/- The gate and pipe tables agree in every reachable state of the HCI task, as
   long as no step takes one of three branches.

   What is proved:
     1. `tables_consistent`: in every run whose steps all meet `tablesPolicy`,
        every state reached is `Consistent`.
     2. `notify_zero_inconsistent`: without it they do not agree. A host that
        announces a pipe with id 0 leaves a bit set for a free block.

   The three branches: a pipe with id 0 is added to a gate of the table; a pipe
   above the dynamic range that is in use is added to another gate, so that two
   gates list it; a static pipe that does not fit releases a gate that has
   pipes, and they are taken over, unlisted, when the gate comes back. -/
namespace NfcStack.Hci
open NfcStack.Lib

/-- A step adds pipes only where `PlaceOk` holds, and releases no gate that has pipes. -/
def tablesPolicy : Policy where
  add pipes pipeId localGate _ := decide (PlaceOk pipes pipeId localGate)
  alloc _ := true
  drop := false
  register _ _ := true
  forget := true

theorem unused_of_mask {t : Tab} (h : t.Ok) {g : GateIx} (h0 : (t.gate g).gateId ≠ 0)
    (hmask : (t.gate g).pipeInxMask = 0) : Unused t (t.gate g).gateId := by
  intro i hi
  have hbit : (t.gate g).pipeInxMask.getLsbD i = true :=
    (h.index g _ (DynGate.key_eq_some.mpr ⟨h0, rfl⟩) i).mpr hi
  rw [hmask] at hbit
  simp at hbit

section Kept
variable {P : Policy}
  (hadd : ∀ pipes pipeId localGate destGate, P.add pipes pipeId localGate destGate = true →
    PlaceOk pipes pipeId localGate) (hdrop : P.drop = false)
include hadd hdrop

theorem tables_kept : Kept P fun t => Base t ∧ t.Ok where
  base h := h.1
  other {t t'} h hn hg hp hm hc h1 h0 := by
    refine ⟨(base_kept P).other h.1 hn hg hp hm hc h1 h0, ?_⟩
    unfold Tab.Ok
    rw [hg, hp]
    exact h.2
  pipeState i state h hs := ⟨(base_kept P).pipeState i state h.1 hs, setPipeState_ok h.2 i state⟩
  release t pipeId h := ⟨(base_kept P).release t pipeId h.1, releasePipe_ok h.2 pipeId⟩
  add destHost h hP := ⟨(base_kept P).add destHost h.1 hP,
    addPipeToGate_ok h.2 (hadd _ _ _ _ hP) destHost _⟩
  addStatic destHost h hs hP := ⟨(base_kept P).addStatic destHost h.1 hs hP,
    addPipeToStaticGate_ok h.2 (hadd _ _ _ _ hP) (.inr hs.symm) destHost _⟩
  alloc h hgate hby ha := ⟨(base_kept P).alloc h.1 hgate hby ha, allocGate_ok h.2 hgate ha⟩
  own h h0 hh hP hr := ⟨(base_kept P).own h.1 h0 hh hP hr, setOwner_ok h.2 _ _⟩
  drop {t gateId} h hd := by
    refine ⟨(base_kept P).drop h.1 hd, ?_⟩
    apply releaseGate_ok h.2
    rcases hd with htrue | hun | ⟨g, rfl, h0, hmask⟩
    · rw [hdrop] at htrue
      cases htrue
    · exact hun
    · exact unused_of_mask h.2 h0 hmask
  register h hlen hP hr := by
    refine ⟨(base_kept P).register h.1 hlen hP hr, ?_⟩
    unfold Tab.Ok
    rw [(registerApp_tables hr).1, (registerApp_tables hr).2]
    exact h.2
  forget x h hf := ⟨(base_kept P).forget x h.1 hf, h.2⟩
  silence x h hf := ⟨(base_kept P).silence x h.1 hf, h.2⟩

end Kept

theorem tables_init (sessionId : Bytes) : (Task.init sessionId).cb.toTab.Ok where
  pipeIds _ _ _ h := by cases h
  gateIds _ _ _ h := by cases h
  index _ _ h := by cases h
  high _ _ h := by cases h
  gateLow _ _ h := by cases h
  homed _ _ h := by cases h

theorem tables_consistent (sessionId : Bytes) (es : List Event) (s : Task)
    (hok : StepsOk Task.step (Allows tablesPolicy) (Task.init sessionId) es)
    (hrun : run Task.step (Task.init sessionId) es = some s) : Consistent s.cb.cfg :=
  (run_keeps (tables_kept (fun _ _ _ _ => of_decide_eq_true) rfl)
    ⟨base_init sessionId, tables_init sessionId⟩ hok hrun).2.consistent

def quietEnv : Env := ⟨[], true, true, [], [], []⟩

/-- The connection comes up, and the UICC announces pipe `pipe` to the connectivity gate. -/
def uiccAnnounces (pipe : UInt8) : List Event :=
  [.connCreated 0x20, .data 0x81 0x12 [0x02, 0x41, 0x01, 0x41, pipe] quietEnv]

theorem tables_consistent_announced :
    ∃ s, run Task.step (Task.init []) (uiccAnnounces 0x21) = some s ∧
      (s.cb.cfg.dynPipes 0).pipeId = 0x21 ∧ Consistent s.cb.cfg := by
  obtain ⟨s, hs⟩ : ∃ s, run Task.step (Task.init []) (uiccAnnounces 0x21) = some s := ⟨_, rfl⟩
  refine ⟨s, hs, ?_, tables_consistent [] _ s (by decide +kernel) hs⟩
  obtain rfl := Option.some.inj hs
  decide +kernel

theorem notify_zero_inconsistent :
    ∃ s, run Task.step (Task.init []) (uiccAnnounces 0) = some s ∧ ¬ Consistent s.cb.cfg := by
  obtain ⟨s, hs⟩ : ∃ s, run Task.step (Task.init []) (uiccAnnounces 0) = some s := ⟨_, rfl⟩
  have hread : (run Task.step (Task.init []) (uiccAnnounces 0)).map (fun s =>
      ((s.cb.cfg.dynGates 0).gateId, (s.cb.cfg.dynGates 0).pipeInxMask,
        (s.cb.cfg.dynPipes 0).pipeId)) = some (0x41, 1, 0) := by decide +kernel
  rw [hs, Option.map_some, Option.some.injEq, Prod.mk.injEq, Prod.mk.injEq] at hread
  obtain ⟨hgate, hmask, hpipe⟩ := hread
  refine ⟨s, hs, ?_⟩
  intro h
  obtain ⟨_, h0, _⟩ := (h.masks 0 (by rw [hgate]; decide) 0).mp (by rw [hmask]; decide)
  exact h0 hpipe

end NfcStack.Hci
