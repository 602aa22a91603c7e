import NfcStack.Hci.Consistency

/- The applications of the HCI task: registration by name, and what a
   deregistration takes away.

   What is proved:
     1. `run_apps`, `keys_unique`: in every reachable state names, gate ids and pipe ids are
        distinct.
     2. `deregisterApp_untouched`, `deregisterApp_removes`: removing an application
        leaves every name, gate and pipe of another one alone, and it is gone
        once the host controller has answered each deletion of its pipes.
     3. `apps_separate_iff`: a name gets its own handle, and its own application is
        removed, exactly when no registered name that starts with it stands
        before its own entry and the pipes on its gates can be deleted.

   The requested name is compared over its own length only, so it also matches
   the entry of every longer name that starts with it. -/
namespace NfcStack.Hci
open NfcStack.Lib

/-! ## What every run keeps -/

def anyPolicy : Policy where
  add _ _ _ _ := true
  alloc _ := true
  drop := true
  register _ _ := true
  forget := true

theorem serveOk_any (cb : HciCb) : serveOk anyPolicy cb := by
  have hall : ∀ (es : List Unit) (cb : HciCb), StepsOk (fun cb (_ : Unit) => apiTurn cb)
      (fun cb _ => turnOk anyPolicy cb = true) cb es := by
    intro es
    induction es with
    | nil => intro cb; trivial
    | cons e es ih =>
      intro cb
      refine ⟨?_, fun t _ => ih t⟩
      show turnOk anyPolicy cb = true
      unfold turnOk
      split
      · simp
      · rename_i request _ _
        obtain ⟨r, hr⟩ := request
        cases r <;> simp [requestOk, anyPolicy]
  exact hall _ cb

theorem allows_any (s : Task) (e : Event) : Allows anyPolicy s e := by
  cases e with
  | call r => trivial
  | deliver => exact fun r _ => serveOk_any _
  | checkQueue => exact serveOk_any _
  | timeout => exact ⟨by simp [anyPolicy], fun cb _ => serveOk_any cb⟩
  | connCreated b => trivial
  | data header message payload env =>
    refine .inr ?_
    split_ifs
    · unfold cmdOk
      split <;> simp [anyPolicy]
    · unfold rspOk
      split <;> simp [anyPolicy]

theorem stepsOk_any (es : List Event) : ∀ s, StepsOk Task.step (Allows anyPolicy) s es := by
  induction es with
  | nil => intro s; trivial
  | cons e es ih => exact fun s => ⟨allows_any s e, fun t _ => ih t⟩

/-- Names, gate ids and pipe ids are distinct, and where gate ids start. -/
structure AppsOk (t : Tab) : Prop where
  base : Base t
  gateLow : ∀ g, (t.gate g).gateId ≠ 0 → nfaHciFirstHostSpecificGenericGate ≤ (t.gate g).gateId
  pipeIds : Distinct fun i => (t.pipe i).key
  names : ∀ x y, t.cfg.regAppNames x ≠ [] → t.cfg.regAppNames x = t.cfg.regAppNames y → x = y
  nameLen : ∀ x, (t.cfg.regAppNames x).length < nfaMaxHciAppNameLen

section Pipes
variable {t t' : Tab}

theorem Fewer.distinct (hf : Fewer t t') (h : Distinct fun i => (t.pipe i).key) :
    Distinct fun i => (t'.pipe i).key := by
  have hkey : ∀ i k, (t'.pipe i).key = some k → (t.pipe i).key = some k := by
    intro i k hk
    rw [← hf.pipes i (DynPipe.key_eq_some.mp hk).1]
    exact hk
  intro i j k hi hj
  exact h i j k (hkey i k hi) (hkey j k hj)

theorem distinct_setPipe (h : Distinct fun i => (t.pipe i).key) (i : PipeIx) {x : DynPipe}
    (hx : x.pipeId ≠ 0 → ∀ j, j ≠ i → (t.pipe j).pipeId ≠ x.pipeId) :
    Distinct fun j => ((t.setPipe i x).pipe j).key := by
  have hkeys : (fun j => ((t.setPipe i x).pipe j).key) =
      Function.update (fun j => (t.pipe j).key) i x.key :=
    Function.comp_update DynPipe.key t.cfg.dynPipes i x
  rw [hkeys]
  match hxk : x.key with
  | none => exact h.update_none i
  | some k =>
    apply h.update_some i k
    obtain ⟨h0, rfl⟩ := DynPipe.key_eq_some.mp hxk
    intro j hj hjk
    exact hx h0 j hj (DynPipe.key_eq_some.mp hjk).2

theorem takePipe_distinct {pipeId : UInt8} {r : Option PipeIx}
    (h : Distinct fun i => (t.pipe i).key)
    (hgone : pipeId ≠ 0 → ∀ j, (t.pipe j).pipeId ≠ pipeId)
    (ht : nfaHciuAllocPipe.takePipe pipeId t = (r, t')) :
    (Distinct fun i => (t'.pipe i).key) ∧ ∀ i ∈ r, ∀ x : DynPipe, x.pipeId = pipeId →
      Distinct fun j => ((t'.setPipe i x).pipe j).key := by
  unfold nfaHciuAllocPipe.takePipe at ht
  split at ht
  · obtain ⟨rfl, rfl⟩ := Prod.mk.inj ht
    exact ⟨h, fun i hi => by cases hi⟩
  · rename_i i hi
    obtain ⟨rfl, rfl⟩ := Prod.mk.inj ht
    refine ⟨distinct_setPipe h i fun h0 j _ => hgone h0 j, ?_⟩
    intro i' hi' x hx
    cases hi'
    have heq : ((t.setPipe i { t.pipe i with pipeId := pipeId }).nvWrite.setPipe i x).pipe =
        (t.setPipe i x).pipe := by
      funext j
      simp [Tab.setPipe, Tab.nvWrite, Tab.pipe]
    rw [heq]
    exact distinct_setPipe h i fun h0 j _ => hx ▸ hgone (hx ▸ h0) j

/-- Handing out a block keeps the ids distinct, also when the pipe is written to it. -/
theorem allocPipe_distinct {pipeId : UInt8} {r : Option PipeIx}
    (h : Distinct fun i => (t.pipe i).key) (ha : nfaHciuAllocPipe t pipeId = (r, t')) :
    (Distinct fun i => (t'.pipe i).key) ∧ ∀ i ∈ r, ∀ x : DynPipe, x.pipeId = pipeId →
      Distinct fun j => ((t'.setPipe i x).pipe j).key := by
  unfold nfaHciuAllocPipe at ha
  split at ha
  · rename_i i0 hi0
    have hid := findPipe_some hi0
    split at ha
    · -- a pipe above the dynamic range keeps its block
      obtain ⟨rfl, rfl⟩ := Prod.mk.inj ha
      refine ⟨h, ?_⟩
      intro i hi x hx
      cases hi
      apply distinct_setPipe h i0
      intro h0 j hj hjid
      have hj' : (t.pipe j).key = some pipeId :=
        DynPipe.key_eq_some.mpr ⟨hjid ▸ h0, hjid.trans hx⟩
      exact hj (h j i0 pipeId hj' (DynPipe.key_eq_some.mpr ⟨hid ▸ hx ▸ h0, hid⟩))
    · rename_i hlast
      exact takePipe_distinct ((releasePipe_fewer t pipeId).distinct h)
        (fun h0 => releasePipe_gone h h0 hlast) ha
  · rename_i hnone
    exact takePipe_distinct h (fun _ => findPipe_none.mp hnone) ha

theorem addPipeToGate_distinct (h : Distinct fun i => (t.pipe i).key)
    (pipeId localGate destHost destGate : UInt8) :
    Distinct fun i =>
      ((nfaHciuAddPipeToGate t pipeId localGate destHost destGate).2.pipe i).key := by
  unfold nfaHciuAddPipeToGate
  split
  · exact h
  · split
    · rename_i t' ha
      exact (allocPipe_distinct h ha).1
    · rename_i i t' ha
      exact (allocPipe_distinct h ha).2 i rfl _ rfl

theorem addPipeToStaticGate_distinct (h : Distinct fun i => (t.pipe i).key)
    (localGate pipeId destHost destGate : UInt8) :
    Distinct fun i =>
      ((nfaHciuAddPipeToStaticGate t localGate pipeId destHost destGate).2.pipe i).key := by
  unfold nfaHciuAddPipeToStaticGate
  split
  · rename_i t' ha
    exact (allocPipe_distinct h ha).1
  · rename_i i t' ha
    dsimp only
    split_ifs
    all_goals exact (allocPipe_distinct h ha).2 i rfl _ rfl

theorem allocPipe_names (t : Tab) (pipeId : UInt8) :
    (nfaHciuAllocPipe t pipeId).2.cfg.regAppNames = t.cfg.regAppNames := by
  have htake : ∀ t1 : Tab, (nfaHciuAllocPipe.takePipe pipeId t1).2.cfg.regAppNames =
      t1.cfg.regAppNames := by
    intro t1
    unfold nfaHciuAllocPipe.takePipe
    split <;> rfl
  unfold nfaHciuAllocPipe
  split
  · split
    · rfl
    · rw [htake]
      exact (releasePipe_fewer t pipeId).names
  · exact htake t

theorem addPipeToGate_names (t : Tab) (pipeId localGate destHost destGate : UInt8) :
    (nfaHciuAddPipeToGate t pipeId localGate destHost destGate).2.cfg.regAppNames =
      t.cfg.regAppNames := by
  have ha := allocPipe_names t pipeId
  unfold nfaHciuAddPipeToGate
  split
  · rfl
  · split
    all_goals
      rename_i heq
      rw [heq] at ha
      exact ha

theorem addPipeToStaticGate_names (t : Tab) (localGate pipeId destHost destGate : UInt8) :
    (nfaHciuAddPipeToStaticGate t localGate pipeId destHost destGate).2.cfg.regAppNames =
      t.cfg.regAppNames := by
  have ha := allocPipe_names t pipeId
  unfold nfaHciuAddPipeToStaticGate
  split
  · rename_i heq
    rw [heq] at ha
    exact ha
  · rename_i heq
    rw [heq] at ha
    dsimp only
    split <;> exact ha

end Pipes

section Kept
variable {t t' : Tab}

/-- Gates, pipes and names may change, as long as what is in use was there before. -/
theorem AppsOk.congr (h : AppsOk t) (hb : Base t') (hg : ∀ g, (t'.gate g).gateId = (t.gate g).gateId)
    (hp : Distinct fun i => (t'.pipe i).key) (hn : t'.cfg.regAppNames = t.cfg.regAppNames) :
    AppsOk t' where
  base := hb
  gateLow g := hg g ▸ h.gateLow g
  pipeIds := hp
  names := hn ▸ h.names
  nameLen := hn ▸ h.nameLen

theorem AppsOk.fewer (h : AppsOk t) (hf : Fewer t t') : AppsOk t' :=
  h.congr (h.base.congr fun g => ⟨hf.ids g, hf.owners g⟩) hf.ids (hf.distinct h.pipeIds) hf.names

theorem registerApp_apps (h : AppsOk t) {name : Bytes} {b : Bool} {x : AppIx} {reused : Bool}
    (hlen : name.length < nfaMaxHciAppNameLen)
    (hr : registerApp t name b = some (x, reused, t')) : AppsOk t' := by
  have hbase := (base_kept anyPolicy).register h.base hlen rfl hr
  have htables := registerApp_tables hr
  unfold registerApp at hr
  split at hr
  · simp only [Option.some.injEq, Prod.mk.injEq] at hr
    obtain ⟨-, -, rfl⟩ := hr
    exact h.congr hbase (fun _ => rfl) h.pipeIds rfl
  · rename_i hnone
    rw [Option.map_eq_some_iff] at hr
    obtain ⟨y, hy, hpair⟩ := hr
    simp only [Prod.mk.injEq] at hpair
    obtain ⟨rfl, -, rfl⟩ := hpair
    have hcopy : copyName name = name := by
      unfold copyName
      apply List.take_of_length_le
      omega
    have hnew : ∀ z, t.cfg.regAppNames z ≠ [] → t.cfg.regAppNames z ≠ name := by
      intro z hz heq
      unfold findApp at hnone
      rw [firstSlot_eq_none] at hnone
      have := hnone z
      rw [heq] at this hz
      rw [bne_iff_ne.mpr hz, Bool.true_and, Bool.eq_false_iff] at this
      exact this (List.isPrefixOf_iff_prefix.mpr (List.prefix_refl name))
    refine ⟨hbase, h.gateLow, h.pipeIds, ?_, ?_⟩
    · intro u v hu huv
      simp only [Tab.enroll, Tab.setCback, Tab.nvWrite, Tab.setName, hcopy] at hu huv
      rcases eq_or_ne u y with rfl | huy
      · rcases eq_or_ne v u with rfl | hvu
        · rfl
        · rw [Function.update_self] at hu huv
          rw [Function.update_of_ne hvu] at huv
          exact absurd huv.symm (hnew v (huv ▸ hu))
      · rw [Function.update_of_ne huy] at hu huv
        rcases eq_or_ne v y with rfl | hvy
        · rw [Function.update_self] at huv
          exact absurd huv (hnew u hu)
        · rw [Function.update_of_ne hvy] at huv
          exact h.names u v hu huv
    · intro z
      simp only [Tab.enroll, Tab.setCback, Tab.nvWrite, Tab.setName, hcopy]
      rcases eq_or_ne z y with rfl | hzy
      · rw [Function.update_self]
        exact hlen
      · rw [Function.update_of_ne hzy]
        exact h.nameLen z

theorem apps_kept : Kept anyPolicy AppsOk where
  base h := h.base
  other {t t'} h hn hg hp hm hc h1 h0 := by
    apply h.congr ((base_kept anyPolicy).other h.base hn hg hp hm hc h1 h0) _ _ hn
    · intro g
      simp [Tab.gate, hg]
    · have hpipes : t'.pipe = t.pipe := by
        funext i
        simp [Tab.pipe, hp]
      rw [hpipes]
      exact h.pipeIds
  pipeState {t} i state h hs := by
    apply h.congr ((base_kept anyPolicy).pipeState i state h.base hs) (fun _ => rfl) _ rfl
    apply distinct_setPipe h.pipeIds i
    intro h0 j hj hjid
    exact hj (h.pipeIds j i _ (DynPipe.key_eq_some.mpr ⟨hjid ▸ h0, hjid⟩)
      (DynPipe.key_eq_some.mpr ⟨h0, rfl⟩))
  release t pipeId h := h.fewer (releasePipe_fewer t pipeId)
  add {t pipeId localGate destGate} destHost h hP :=
    h.congr ((base_kept anyPolicy).add destHost h.base hP)
      (fun g => (addPipeToGate_gates t pipeId localGate destHost destGate g).1)
      (addPipeToGate_distinct h.pipeIds _ _ _ _) (addPipeToGate_names _ _ _ _ _)
  addStatic {t pipeId localGate destGate} destHost h hs hP :=
    h.congr ((base_kept anyPolicy).addStatic destHost h.base hs hP)
      (fun g => (addPipeToStaticGate_gates t pipeId localGate destHost destGate g).1)
      (addPipeToStaticGate_distinct h.pipeIds _ _ _ _) (addPipeToStaticGate_names _ _ _ _ _)
  alloc {t gateId handle g t'} h hgate hby ha := by
    have hbase := (base_kept anyPolicy).alloc h.base hgate hby ha
    rcases allocGate_cases hgate ha with ⟨rfl, -, -⟩ | ⟨id, hid, -, -, htake⟩
    · exact h
    · unfold takeGate at htake
      rw [Option.map_eq_some_iff] at htake
      obtain ⟨g0, -, hpair⟩ := htake
      obtain ⟨rfl, rfl⟩ := Prod.mk.inj hpair
      refine ⟨hbase, ?_, h.pipeIds, h.names, h.nameLen⟩
      intro g' h0
      rcases eq_or_ne g' g0 with rfl | hne
      · simpa [Tab.gate, Tab.setGate, Tab.nvWrite] using hid
      · simp only [Tab.gate, Tab.setGate, Tab.nvWrite, Function.update_of_ne hne] at h0 ⊢
        exact h.gateLow g' h0
  own {t g handle} h h0 hh hP hr := by
    apply h.congr ((base_kept anyPolicy).own h.base h0 hh hP hr) _ h.pipeIds rfl
    intro g'
    rcases eq_or_ne g' g with rfl | hne
    · simp [Tab.gate, Tab.setOwner, Tab.setGate]
    · simp [Tab.gate, Tab.setOwner, Tab.setGate, hne]
  drop {t gateId} h hd := by
    have hbase := (base_kept anyPolicy).drop h.base hd
    unfold nfaHciuReleaseGate at hbase ⊢
    split at hbase
    · exact h
    · rename_i g _
      refine ⟨hbase, ?_, h.pipeIds, h.names, h.nameLen⟩
      intro g' h0
      rcases eq_or_ne g' g with rfl | hne
      · simp [Tab.gate, Tab.setGate, Tab.nvWrite, DynGate.free] at h0
      · simp only [Tab.gate, Tab.setGate, Tab.nvWrite, Function.update_of_ne hne] at h0 ⊢
        exact h.gateLow g' h0
  register h hlen _ hr := registerApp_apps h hlen hr
  forget {t} x h hf := by
    refine ⟨(base_kept anyPolicy).forget x h.base hf, h.gateLow, h.pipeIds, ?_, ?_⟩
    · intro u v hu huv
      simp only [Tab.setCback, Tab.setName] at hu huv
      rcases eq_or_ne u x with rfl | hux
      · rw [Function.update_self] at hu
        exact absurd rfl hu
      · rw [Function.update_of_ne hux] at hu huv
        rcases eq_or_ne v x with rfl | hvx
        · rw [Function.update_self] at huv
          exact absurd huv hu
        · rw [Function.update_of_ne hvx] at huv
          exact h.names u v hu huv
    · intro z
      simp only [Tab.setCback, Tab.setName]
      rcases eq_or_ne z x with rfl | hzx
      · rw [Function.update_self]
        exact Nat.zero_lt_succ _
      · rw [Function.update_of_ne hzx]
        exact h.nameLen z
  silence x h hf := ⟨(base_kept anyPolicy).silence x h.base hf, h.gateLow, h.pipeIds, h.names, h.nameLen⟩

end Kept

theorem run_apps {sessionId : Bytes} {es : List Event} {s : Task}
    (hrun : run Task.step (Task.init sessionId) es = some s) : AppsOk s.cb.toTab := by
  have hinit : AppsOk (Task.init sessionId).cb.toTab := by
    refine ⟨base_init sessionId, fun g h0 => absurd rfl h0, ?_, fun x _ h0 => absurd rfl h0, ?_⟩
    · intro i j k hi
      cases hi
    · intro x
      exact Nat.zero_lt_succ _
  exact run_keeps apps_kept hinit (stepsOk_any es _) hrun

/-! ## Removing an application -/

theorem appHandle_ne_zero (x : AppIx) : appHandle x ≠ 0 := by
  revert x
  decide

theorem appHandle_inj {x y : AppIx} (h : appHandle x = appHandle y) : x = y := by
  revert x y
  decide

theorem appHandle_index (x : AppIx) : (appHandle x &&& nfaHandleMask).toNat = x.val := by
  revert x
  decide

def OwnGate (t : Tab) (x : AppIx) (g : GateIx) : Prop := (t.gate g).gateOwner = appHandle x

def OwnPipe (t : Tab) (x : AppIx) (i : PipeIx) : Prop :=
  (t.pipe i).pipeId ≠ 0 ∧ ∃ g, OwnGate t x g ∧ (t.gate g).gateId = (t.pipe i).localGate

structure Untouched (t t' : Tab) (x : AppIx) : Prop where
  names : ∀ y, y ≠ x → t'.cfg.regAppNames y = t.cfg.regAppNames y
  cbacks : ∀ y, y ≠ x → t'.pAppCback y = t.pAppCback y
  gates : ∀ g, ¬ OwnGate t x g → t'.gate g = t.gate g
  pipes : ∀ i, ¬ OwnPipe t x i → t'.pipe i = t.pipe i
  idMgmt : t'.cfg.idMgmtMask = t.cfg.idMgmtMask

structure Removed (t t' : Tab) (x : AppIx) : Prop extends Untouched t t' x where
  name : t'.cfg.regAppNames x = []
  cback : t'.pAppCback x = false
  ownGates : ∀ g, OwnGate t x g → t'.gate g = DynGate.free
  ownPipes : ∀ i, OwnPipe t x i → (t'.pipe i).pipeId = 0

section Deregister
variable {t : Tab}

variable {x : AppIx}

theorem AppsOk.own_in_use (h : AppsOk t) {g : GateIx} (hg : OwnGate t x g) :
    (t.gate g).gateId ≠ 0 := by
  intro h0
  exact appHandle_ne_zero x (hg ▸ h.base.unowned g h0)

theorem Base.findGate (h : Base t) {g : GateIx} (h0 : (t.gate g).gateId ≠ 0) :
    nfaHciuFindGateByGid t (t.gate g).gateId = some g := by
  match hf : nfaHciuFindGateByGid t (t.gate g).gateId with
  | none => exact absurd rfl (findGate_none.mp hf g)
  | some g' =>
    have hid := findGate_some hf
    rw [h.gateIds g' g _ (DynGate.key_eq_some.mpr ⟨hid ▸ h0, hid⟩)
      (DynGate.key_eq_some.mpr ⟨h0, rfl⟩)]

theorem releaseGates_spec {p : DynGate → Bool} (hp : p DynGate.free = false) (n : Nat) :
    ∀ {t : Tab}, Base t → (∀ g, p (t.gate g) = true → (t.gate g).gateId ≠ 0) →
      (Finset.univ.filter fun g => p (t.gate g) = true).card < n →
      ∃ t', releaseGates (fun t => firstSlot fun g => p (t.gate g)) n t = some t' ∧
        (∀ g, t'.gate g = if p (t.gate g) then DynGate.free else t.gate g) ∧
        t'.cfg.regAppNames = t.cfg.regAppNames ∧ t'.pAppCback = t.pAppCback ∧
        t'.pipe = t.pipe ∧ t'.cfg.idMgmtMask = t.cfg.idMgmtMask := by
  induction n with
  | zero =>
    intro t _ _ hcard
    exact absurd hcard (Nat.not_lt_zero _)
  | succ n ih =>
    intro t hB hin hcard
    unfold releaseGates
    cases hfind : firstSlot fun g => p (t.gate g) with
    | none =>
      rw [firstSlot_eq_none] at hfind
      refine ⟨t, rfl, ?_, rfl, rfl, rfl, rfl⟩
      intro g
      rw [hfind g]
      rfl
    | some g0 =>
      have hg0 : p (t.gate g0) = true := firstSlot_holds hfind
      have hrel : nfaHciuReleaseGate t (t.gate g0).gateId = (t.setGate g0 DynGate.free).nvWrite := by
        unfold nfaHciuReleaseGate
        rw [hB.findGate (hin g0 hg0)]
      have hgate : ∀ g, (t.setGate g0 DynGate.free).nvWrite.gate g =
          if g = g0 then DynGate.free else t.gate g := by
        intro g
        split
        · rename_i heq
          rw [heq]
          simp [Tab.gate, Tab.setGate, Tab.nvWrite]
        · rename_i hne
          simp [Tab.gate, Tab.setGate, Tab.nvWrite, hne]
      have hB' : Base (t.setGate g0 DynGate.free).nvWrite := by
        apply Base.nvWrite
        apply hB.setGate g0
        · intro k hk
          cases hk
        · intro _
          rfl
      have hsub : (Finset.univ.filter fun g =>
          p ((t.setGate g0 DynGate.free).nvWrite.gate g) = true) =
            (Finset.univ.filter fun g => p (t.gate g) = true).erase g0 := by
        ext g
        rw [Finset.mem_filter, Finset.mem_erase, Finset.mem_filter, hgate g]
        by_cases heq : g = g0
        · simp [heq, hp]
        · simp [heq]
      have hmem : g0 ∈ Finset.univ.filter fun g => p (t.gate g) = true :=
        Finset.mem_filter.mpr ⟨Finset.mem_univ g0, hg0⟩
      obtain ⟨t', ht', hgates, hrest⟩ := ih hB' (by
        intro g hg
        rw [hgate g] at hg ⊢
        by_cases heq : g = g0
        · rw [if_pos heq, hp] at hg
          cases hg
        · rw [if_neg heq] at hg ⊢
          exact hin g hg) (by
        rw [hsub, Finset.card_erase_of_mem hmem]
        have hpos := Finset.card_pos.mpr ⟨g0, hmem⟩
        omega)
      refine ⟨t', ?_, ?_, hrest⟩
      · dsimp only
        rw [hrel]
        exact ht'
      · intro g
        rw [hgates g, hgate g]
        by_cases heq : g = g0
        · simp [heq, hp, hg0]
        · simp [heq]

theorem releaseOwnGates (h : AppsOk t) (x : AppIx) {p : DynGate → Bool}
    (hp : ∀ d, p d = true → d.gateOwner = appHandle x) :
    ∃ t', releaseGates (fun t => firstSlot fun g => p (t.gate g)) (nfaHciMaxGateCb + 1) t =
        some t' ∧ (∀ g, t'.gate g = if p (t.gate g) then DynGate.free else t.gate g) ∧
      t'.cfg.regAppNames = t.cfg.regAppNames ∧ t'.pAppCback = t.pAppCback ∧
      t'.pipe = t.pipe ∧ t'.cfg.idMgmtMask = t.cfg.idMgmtMask := by
  have hfree : p DynGate.free = false := by
    rw [Bool.eq_false_iff]
    intro htrue
    exact appHandle_ne_zero x (hp _ htrue).symm
  apply releaseGates_spec hfree _ h.base
  · intro g hg
    exact h.own_in_use (hp _ hg)
  · have hle := Finset.card_le_univ (Finset.univ.filter fun g => p (t.gate g) = true)
    rw [Fintype.card_fin] at hle
    omega

variable {i : PipeIx}

theorem findPipeWith_some {use : DynPipe → Bool} (huse : ∀ p, use p = true → p.pipeId ≠ 0)
    (hf : findPipeWith t use (fun g => g.gateOwner == appHandle x) = some i) :
    OwnPipe t x i ∧ use (t.pipe i) = true := by
  have hholds := firstSlot_holds hf
  rw [Bool.and_eq_true] at hholds
  obtain ⟨hu, hm⟩ := hholds
  split at hm
  · cases hm
  · rename_i g hg
    exact ⟨⟨huse _ hu, g, beq_iff_eq.mp hm, findGate_some hg⟩, hu⟩

theorem findPipeWith_none (h : AppsOk t) {use : DynPipe → Bool}
    (hf : findPipeWith t use (fun g => g.gateOwner == appHandle x) = none) (i : PipeIx)
    (hown : OwnPipe t x i) : use (t.pipe i) = false := by
  obtain ⟨-, g, hg, hid⟩ := hown
  unfold findPipeWith at hf
  rw [firstSlot_eq_none] at hf
  have hi := hf i
  rw [← hid, h.base.findGate (h.own_in_use hg)] at hi
  have howner : ((t.gate g).gateOwner == appHandle x) = true := beq_iff_eq.mpr hg
  dsimp only at hi
  rw [howner, Bool.and_true] at hi
  exact hi

theorem Untouched.refl (t : Tab) (x : AppIx) : Untouched t t x :=
  ⟨fun _ _ => rfl, fun _ _ => rfl, fun _ _ => rfl, fun _ _ => rfl, rfl⟩

theorem removed_of_released {t' : Tab} (hnone : ∀ i, ¬ OwnPipe t x i) (hgates : ∀ g, t'.gate g =
      if (t.gate g).gateOwner == appHandle x then DynGate.free else t.gate g)
    (hnames : t'.cfg.regAppNames = t.cfg.regAppNames) (hcb : t'.pAppCback = t.pAppCback)
    (hpipes : t'.pipe = t.pipe) (hid : t'.cfg.idMgmtMask = t.cfg.idMgmtMask) :
    Removed t ((t'.setName x []).setCback x false).nvWrite x where
  names y hy := by simp [Tab.setName, Tab.setCback, Tab.nvWrite, hy, hnames]
  cbacks y hy := by simp [Tab.setName, Tab.setCback, Tab.nvWrite, hy, hcb]
  gates g hg := by
    show t'.gate g = t.gate g
    rw [hgates g, if_neg (by simpa [OwnGate] using hg)]
  pipes i _ := congrFun hpipes i
  idMgmt := hid
  name := by simp [Tab.setName, Tab.setCback, Tab.nvWrite]
  cback := by simp [Tab.setCback, Tab.nvWrite]
  ownGates g hg := by
    show t'.gate g = DynGate.free
    rw [hgates g, if_pos (by simpa [OwnGate] using hg)]
  ownPipes i hi := absurd hi (hnone i)

variable {cb : HciCb}

theorem deregisterApp_alone (h : AppsOk cb.toTab)
    (hin : cb.appInUse = appHandle x) (hnone : ∀ i, ¬ OwnPipe cb.toTab x i) :
    ∃ cb', deregisterApp cb x = some cb' ∧ Removed cb.toTab cb'.toTab x := by
  have hfind : nfaHciuFindPipeByOwner cb.toTab (appHandle x) = none := by
    match hf : nfaHciuFindPipeByOwner cb.toTab (appHandle x) with
    | none => rfl
    | some i => exact absurd (findPipeWith_some (by simp) hf).1 (hnone i)
  obtain ⟨t', ht', hgates, hnames, hcb, hpipes, hid⟩ :=
    releaseOwnGates h x fun d (hd : (d.gateOwner == appHandle x) = true) => by simpa using hd
  refine ⟨deregistered cb ((t'.setName x []).setCback x false), ?_,
    removed_of_released hnone hgates hnames hcb hpipes hid⟩
  unfold deregisterApp
  rw [hin, hfind, if_pos (by rfl)]
  rw [show releaseGates (nfaHciuFindGateByOwner · (appHandle x)) (nfaHciMaxGateCb + 1) cb.toTab =
    some t' from ht']
  rfl

/-- Whatever the deregistration of `x` does, it returns and leaves the rest alone. -/
theorem deregisterApp_untouched (h : AppsOk cb.toTab) (hin : cb.appInUse = appHandle x) :
    ∃ cb', deregisterApp cb x = some cb' ∧ Untouched cb.toTab cb'.toTab x := by
  by_cases hnone : nfaHciuFindPipeByOwner cb.toTab (appHandle x) = none
  · obtain ⟨cb', hd, hrem⟩ := deregisterApp_alone h hin (by
      intro i hi
      have := findPipeWith_none h hnone i hi
      exact hi.1 (by simpa using this))
    exact ⟨cb', hd, hrem.toUntouched⟩
  · unfold deregisterApp
    rw [hin, if_neg (by simpa using hnone)]
    split
    · obtain ⟨t', ht', hgates, hnames, hcb, hpipes, hid⟩ :=
        releaseOwnGates h x fun d
          (hd : (d.gateOwner == appHandle x && d.pipeInxMask == 0) = true) => by
            rw [Bool.and_eq_true] at hd
            simpa using hd.1
      refine ⟨deregistered cb (t'.setCback x false), ?_, ?_⟩
      · rw [show releaseGates (nfaHciuFindGateWithNopipesByOwner · (appHandle x))
          (nfaHciMaxGateCb + 1) cb.toTab = some t' from ht']
        rfl
      · refine ⟨fun y _ => congrFun hnames y, ?_, ?_, fun i _ => congrFun hpipes i, hid⟩
        · intro y hy
          simp [deregistered, Tab.setCback, Tab.nvWrite, hy, hcb]
        · intro g hg
          show t'.gate g = cb.gate g
          have hne : ¬ ((cb.gate g).gateOwner == appHandle x && (cb.gate g).pipeInxMask == 0) = true := by
            rw [Bool.and_eq_true, beq_iff_eq]
            exact fun hboth => hg hboth.1
          rw [hgates g, if_neg hne]
    · refine ⟨_, rfl, ?_⟩
      rw [sendDelete_toTab]
      exact Untouched.refl _ x

/-- An application with pipes asks for the deletion of one that can be deleted, or is kept if there is none. -/
theorem deregisterApp_owner (h : AppsOk cb.toTab)
    (hin : cb.appInUse = appHandle x) (hsome : ∃ i, OwnPipe cb.toTab x i) :
    (∃ i, OwnPipe cb.toTab x i ∧ usableBy (nfaHciuIsActiveHost cb) (cb.pipe i) = true ∧
      deregisterApp cb x =
        some (nfaHciuSendDeletePipeCmd { cb with hciState := .appDeregister } (cb.pipe i).pipeId)) ∨
    (∀ i, OwnPipe cb.toTab x i → usableBy (nfaHciuIsActiveHost cb) (cb.pipe i) = false) ∧
      ∃ t', t'.cfg.regAppNames = cb.cfg.regAppNames ∧ deregisterApp cb x = some (deregistered cb t') := by
  obtain ⟨j, hj⟩ := hsome
  have hfound : nfaHciuFindPipeByOwner cb.toTab (appHandle x) ≠ none := by
    intro hnone
    have := findPipeWith_none h hnone j hj
    exact hj.1 (by simpa using this)
  unfold deregisterApp
  rw [hin, if_neg (by simpa using hfound)]
  cases hactive : nfaHciuFindActivePipeByOwner cb.toTab (nfaHciuIsActiveHost cb) (appHandle x) with
  | some i =>
    obtain ⟨hown, huse⟩ := findPipeWith_some (by
      intro p hp
      unfold usableBy at hp
      simp only [Bool.and_eq_true, bne_iff_ne] at hp
      exact hp.1.1.1) hactive
    exact .inl ⟨i, hown, huse, rfl⟩
  | none =>
    obtain ⟨t', ht', -, hnames, -⟩ := releaseOwnGates h x fun d
      (hd : (d.gateOwner == appHandle x && d.pipeInxMask == 0) = true) => by
        rw [Bool.and_eq_true] at hd
        simpa using hd.1
    refine .inr ⟨fun i hi => findPipeWith_none h hactive i hi, t'.setCback x false, hnames, ?_⟩
    dsimp only
    rw [show releaseGates (nfaHciuFindGateWithNopipesByOwner · (appHandle x)) (nfaHciMaxGateCb + 1)
      cb.toTab = some t' from ht']
    rfl

/-- A pipe of `x` is released: it is gone, and the rest of `x` is still there. -/
structure PipeReleased (t t' : Tab) (x : AppIx) (i : PipeIx) : Prop where
  names : t'.cfg.regAppNames = t.cfg.regAppNames
  cbacks : t'.pAppCback = t.pAppCback
  owners : ∀ g, (t'.gate g).gateOwner = (t.gate g).gateOwner
  ids : ∀ g, (t'.gate g).gateId = (t.gate g).gateId
  gates : ∀ g, ¬ OwnGate t x g → t'.gate g = t.gate g
  pipe : (t'.pipe i).pipeId = 0
  pipes : ∀ j, j ≠ i → t'.pipe j = t.pipe j
  idMgmt : t'.cfg.idMgmtMask = t.cfg.idMgmtMask

theorem releasePipe_own (h : AppsOk t) (hown : OwnPipe t x i)
    (hdyn : (t.pipe i).pipeId ≤ nfaHciLastDynamicPipe) :
    PipeReleased t (nfaHciuReleasePipe t (t.pipe i).pipeId).2 x i := by
  obtain ⟨h0, g, hg, hid⟩ := hown
  have hfind : nfaHciuFindPipeByPid t (t.pipe i).pipeId = some i := by
    match hf : nfaHciuFindPipeByPid t (t.pipe i).pipeId with
    | none => exact absurd rfl (findPipe_none.mp hf i)
    | some j =>
      have hj := findPipe_some hf
      rw [h.pipeIds j i _ (DynPipe.key_eq_some.mpr ⟨hj ▸ h0, hj⟩)
        (DynPipe.key_eq_some.mpr ⟨h0, rfl⟩)]
  have hin := h.own_in_use hg
  have hstatic : (t.pipe i).localGate ≠ nfaHciIdentityManagementGate := by
    intro heq
    have hlow := h.gateLow g hin
    rw [hid, heq] at hlow
    exact absurd hlow (by decide)
  have hrel : (nfaHciuReleasePipe t (t.pipe i).pipeId).2 =
      ((t.setGate g { t.gate g with pipeInxMask := clearBit (t.gate g).pipeInxMask i }).setPipe i
        DynPipe.free).nvWrite := by
    unfold nfaHciuReleasePipe
    rw [hfind]
    dsimp only
    rw [if_neg (UInt8.not_lt.mpr hdyn), if_neg hstatic, ← hid, h.base.findGate hin]
  rw [hrel]
  have hother : ∀ g', g' ≠ g → ((t.setGate g { t.gate g with
      pipeInxMask := clearBit (t.gate g).pipeInxMask i }).setPipe i DynPipe.free).nvWrite.gate g' =
        t.gate g' := by
    intro g' hne
    simp [Tab.gate, Tab.setGate, Tab.setPipe, Tab.nvWrite, hne]
  refine ⟨rfl, rfl, ?_, ?_, ?_, ?_, ?_, rfl⟩
  · intro g'
    rcases eq_or_ne g' g with rfl | hne
    · simp [Tab.gate, Tab.setGate, Tab.setPipe, Tab.nvWrite]
    · rw [hother g' hne]
  · intro g'
    rcases eq_or_ne g' g with rfl | hne
    · simp [Tab.gate, Tab.setGate, Tab.setPipe, Tab.nvWrite]
    · rw [hother g' hne]
  · intro g' hg'
    apply hother g'
    rintro rfl
    exact hg' hg
  · simp [Tab.pipe, Tab.setPipe, Tab.nvWrite, DynPipe.free]
  · intro j hj
    simp [Tab.pipe, Tab.setPipe, Tab.setGate, Tab.nvWrite, hj]

theorem PipeReleased.ownPipe {t' : Tab} (hr : PipeReleased t t' x i)
    (j : PipeIx) : OwnPipe t' x j ↔ OwnPipe t x j ∧ j ≠ i := by
  unfold OwnPipe OwnGate
  simp only [hr.owners, hr.ids]
  rcases eq_or_ne j i with rfl | hne
  · simp [hr.pipe]
  · simp [hr.pipes j hne, hne]

theorem PipeReleased.removed {t' t'' : Tab}
    (hr : PipeReleased t t' x i) (hown : OwnPipe t x i) (h : Removed t' t'' x) :
    Removed t t'' x where
  names y hy := (h.names y hy).trans (congrFun hr.names y)
  cbacks y hy := (h.cbacks y hy).trans (congrFun hr.cbacks y)
  gates g hg := by
    rw [h.gates g (by unfold OwnGate; rw [hr.owners]; exact hg), hr.gates g hg]
  pipes j hj := by
    have hne : j ≠ i := by
      rintro rfl
      exact hj hown
    rw [h.pipes j fun hj' => hj ((hr.ownPipe j).mp hj').1, hr.pipes j hne]
  idMgmt := h.idMgmt.trans hr.idMgmt
  name := h.name
  cback := h.cback
  ownGates g hg := h.ownGates g (by unfold OwnGate; rw [hr.owners]; exact hg)
  ownPipes j hj := by
    rcases eq_or_ne j i with rfl | hne
    · rw [h.pipes j fun hj' => ((hr.ownPipe j).mp hj').2 rfl]
      exact hr.pipe
    · exact h.ownPipes j ((hr.ownPipe j).mpr ⟨hj, hne⟩)

/-- The host controller answers a command on the administration pipe with ANY_OK. -/
def answered (env : Env) (cb : HciCb) : Option HciCb := connData cb 0x81 0x80 [] env

/-- The deletions of a deregistration are answered, `n` of them at most. -/
def settle (env : Env) : Nat → HciCb → Option HciCb
  | 0, cb => some cb
  | n + 1, cb => if cb.hciState = .appDeregister then (answered env cb).bind (settle env n) else some cb

theorem apiDeregister_goesOn (hin : cb.appInUse = appHandle x) :
    nfaHciApiDeregister cb none = deregisterApp { cb with rspTimer := false } x := by
  have hindex : (cb.appInUse &&& nfaHandleMask).toNat = x.val := by
    rw [hin, appHandle_index]
  unfold nfaHciApiDeregister
  dsimp only
  rw [dif_pos (hindex ▸ x.isLt)]
  congr 1
  exact Fin.ext hindex

/-- The answer to the deletion of a pipe: it is released and the deregistration goes on. -/
theorem answered_delete (env : Env) (pipe : UInt8)
    (hin : cb.appInUse = appHandle x) (hbuf : nciDataHdrSize + 2 < cb.buffSize.toNat)
    (hdyn : pipe ≤ nfaHciLastDynamicPipe) :
    ∃ cb1, (nfaHciuSendDeletePipeCmd { cb with hciState := .appDeregister } pipe).hciState =
        .appDeregister ∧
      answered env (nfaHciuSendDeletePipeCmd { cb with hciState := .appDeregister } pipe) =
        deregisterApp cb1 x ∧ cb1.toTab = (nfaHciuReleasePipe cb.toTab pipe).2 ∧
      cb1.appInUse = appHandle x ∧ cb1.buffSize = cb.buffSize ∧ cb1.activeHost = cb.activeHost := by
  obtain ⟨cb0, hcb0⟩ : ∃ cb0 : HciCb, cb0 = { cb with
      cmdSent := nfaHciAdmDeletePipe
      hciState := .appDeregister
      rspTimer := true
      pipeInUse := pipe } := ⟨_, rfl⟩
  have hsend : nfaHciuSendDeletePipeCmd { cb with hciState := .appDeregister } pipe = cb0 := by
    unfold nfaHciuSendDeletePipeCmd sendCmd
    rw [if_neg (UInt8.not_lt.mpr hdyn), if_neg (Nat.not_le.mpr hbuf), hcb0]
    rfl
  have hrsp : answered env cb0 =
      nfaHciApiDeregister (cb0.mapTab fun t => (nfaHciuReleasePipe t cb0.pipeInUse).2) none := by
    rw [hcb0]
    rfl
  have hin0 : (cb0.mapTab fun t => (nfaHciuReleasePipe t cb0.pipeInUse).2).appInUse =
      appHandle x := by
    rw [hcb0]
    exact hin
  rw [hsend, hrsp, apiDeregister_goesOn hin0]
  refine ⟨_, by rw [hcb0], rfl, ?_, hin0, ?_, ?_⟩
  all_goals
    rw [hcb0]
    rfl

/-- What a released pipe leaves of the pipes of `x`, and of what the deregistration goes by. -/
theorem answered_asks (env : Env) (h : AppsOk cb.toTab)
    (hin : cb.appInUse = appHandle x) (hbuf : nciDataHdrSize + 2 < cb.buffSize.toNat)
    (hi : OwnPipe cb.toTab x i) (huse : usableBy (nfaHciuIsActiveHost cb) (cb.pipe i) = true) :
    ∃ cb1, (∀ n, settle env (n + 1)
        (nfaHciuSendDeletePipeCmd { cb with hciState := .appDeregister } (cb.pipe i).pipeId) =
          (deregisterApp cb1 x).bind (settle env n)) ∧
      PipeReleased cb.toTab cb1.toTab x i ∧ AppsOk cb1.toTab ∧ cb1.appInUse = appHandle x ∧
      cb1.buffSize = cb.buffSize ∧ nfaHciuIsActiveHost cb1 = nfaHciuIsActiveHost cb := by
  have huse' := huse
  unfold usableBy at huse'
  simp only [Bool.and_eq_true, decide_eq_true_eq] at huse'
  have hdyn : (cb.pipe i).pipeId ≤ nfaHciLastDynamicPipe := huse'.1.2
  obtain ⟨cb1, hstate, hans, htab, hin1, hbuf1, hhost⟩ := answered_delete env _ hin hbuf hdyn
  have hrel := releasePipe_own h hi hdyn
  rw [← htab] at hrel
  refine ⟨cb1, ?_, hrel, htab ▸ h.fewer (releasePipe_fewer _ _), hin1, hbuf1, ?_⟩
  · intro n
    rw [settle, if_pos hstate, hans]
  · funext host
    simp [nfaHciuIsActiveHost, hhost]

/-- When every pipe of `x` can be deleted and every deletion is answered, `x` is removed. -/
theorem deregisterApp_removes (env : Env) (n : Nat) :
    ∀ {cb : HciCb}, AppsOk cb.toTab → cb.appInUse = appHandle x →
      nciDataHdrSize + 2 < cb.buffSize.toNat →
      (∀ i, OwnPipe cb.toTab x i → usableBy (nfaHciuIsActiveHost cb) (cb.pipe i) = true) →
      {i | OwnPipe cb.toTab x i}.ncard ≤ n →
      ∃ k cb', (deregisterApp cb x).bind (settle env k) = some cb' ∧ Removed cb.toTab cb'.toTab x := by
  induction n with
  | zero =>
    intro cb h hin _ _ hcard
    have hnone : ∀ i, ¬ OwnPipe cb.toTab x i := by
      have hempty := (Set.ncard_eq_zero (Set.toFinite _)).mp (Nat.le_zero.mp hcard)
      intro i hi
      have hmem : i ∈ {i | OwnPipe cb.toTab x i} := hi
      rw [hempty] at hmem
      exact hmem
    obtain ⟨cb', hd, hrem⟩ := deregisterApp_alone h hin hnone
    exact ⟨0, cb', by rw [hd]; rfl, hrem⟩
  | succ n ih =>
    intro cb h hin hbuf husable hcard
    by_cases hsome : ∃ i, OwnPipe cb.toTab x i
    · rcases deregisterApp_owner h hin hsome with ⟨i, hi, huse, hd⟩ | ⟨hno, -⟩
      · obtain ⟨cb1, hsettle, hrel, hok, hin1, hbuf1, hactive⟩ := answered_asks env h hin hbuf hi huse
        obtain ⟨k, cb', hrun, hrem⟩ := @ih cb1 hok hin1 (hbuf1 ▸ hbuf) (by
          intro j hj
          obtain ⟨hj', hne⟩ := (hrel.ownPipe j).mp hj
          rw [hactive, hrel.pipes j hne]
          exact husable j hj') (by
          have hset : {j | OwnPipe cb1.toTab x j} = {j | OwnPipe cb.toTab x j} \ {i} := by
            ext j
            exact hrel.ownPipe j
          have hcard' := Set.ncard_sdiff_singleton_add_one
            (show i ∈ {j | OwnPipe cb.toTab x j} from hi) (Set.toFinite _)
          rw [hset]
          omega)
        refine ⟨k + 1, cb', ?_, hrel.removed hi hrem⟩
        rw [hd, Option.bind_some, hsettle]
        exact hrun
      · obtain ⟨i, hi⟩ := hsome
        exact absurd ((husable i hi).symm.trans (hno i hi)) Bool.noConfusion
    · obtain ⟨cb', hd, hrem⟩ := deregisterApp_alone h hin fun i hi => hsome ⟨i, hi⟩
      exact ⟨0, cb', by rw [hd]; rfl, hrem⟩

theorem deregisterApp_named (env : Env) {x : AppIx} (n : Nat) : ∀ {cb cb' : HciCb}, AppsOk cb.toTab →
    cb.appInUse = appHandle x → nciDataHdrSize + 2 < cb.buffSize.toNat →
    (∃ i, OwnPipe cb.toTab x i ∧ usableBy (nfaHciuIsActiveHost cb) (cb.pipe i) = false) →
    (deregisterApp cb x).bind (settle env n) = some cb' →
    cb'.cfg.regAppNames x = cb.cfg.regAppNames x := by
  induction n with
  | zero =>
    intro cb cb' h hin _ hkept hrun
    obtain ⟨j, hj, -⟩ := hkept
    rcases deregisterApp_owner h hin ⟨j, hj⟩ with ⟨i, -, -, hd⟩ | ⟨-, t', hnames, hd⟩
    · rw [hd] at hrun
      obtain rfl := Option.some.inj hrun
      rw [sendDelete_toTab]
    · rw [hd] at hrun
      obtain rfl := Option.some.inj hrun
      exact congrFun hnames x
  | succ n ih =>
    intro cb cb' h hin hbuf hkept hrun
    obtain ⟨j, hj, hno⟩ := hkept
    rcases deregisterApp_owner h hin ⟨j, hj⟩ with ⟨i, hi, huse, hd⟩ | ⟨-, t', hnames, hd⟩
    · obtain ⟨cb1, hsettle, hrel, hok, hin1, hbuf1, hactive⟩ := answered_asks env h hin hbuf hi huse
      have hne : j ≠ i := by
        rintro rfl
        exact absurd (huse.symm.trans hno) Bool.noConfusion
      rw [hd, Option.bind_some, hsettle] at hrun
      rw [ih hok hin1 (hbuf1 ▸ hbuf) ⟨j, (hrel.ownPipe j).mpr ⟨hj, hne⟩, by rw [hactive, hrel.pipes j hne, hno]⟩
        hrun]
      exact congrFun hrel.names x
    · -- the deregistration has ended, so nothing more is answered
      have hend : (deregistered cb t').hciState ≠ .appDeregister := by
        unfold deregistered
        dsimp only
        split
        · decide
        · assumption
      rw [hd, Option.bind_some, settle, if_neg hend] at hrun
      obtain rfl := Option.some.inj hrun
      exact congrFun hnames x

end Deregister

/-! ## Names -/

/-- What the requests with this name promise: it has one handle, no other
application is given it, and removing it removes its own application only. -/
structure Separate (cb : HciCb) (name : Bytes) : Prop where
  own : ∀ x b, cb.cfg.regAppNames x = name → (nfaHciApiRegister cb name b).1 = some (appHandle x)
  fresh : (∀ x, cb.cfg.regAppNames x ≠ name) → ∀ b handle,
    (nfaHciApiRegister cb name b).1 = some handle →
      ∃ x, cb.cfg.regAppNames x = [] ∧ handle = appHandle x ∧
        (nfaHciApiRegister cb name b).2.cfg.regAppNames =
          Function.update cb.cfg.regAppNames x name
  other : ∀ y b, cb.cfg.regAppNames y ≠ [] → cb.cfg.regAppNames y ≠ name →
    (nfaHciApiRegister cb name b).1 ≠ some (appHandle y)
  untouched : ∀ x, cb.cfg.regAppNames x = name →
    ∃ cb', nfaHciApiDeregister cb (some name) = some cb' ∧ Untouched cb.toTab cb'.toTab x
  removed : ∀ x env, cb.cfg.regAppNames x = name → nciDataHdrSize + 2 < cb.buffSize.toNat →
    ∃ k cb', (nfaHciApiDeregister cb (some name)).bind (settle env k) = some cb' ∧
      Removed cb.toTab cb'.toTab x

/-- The name is stored as it is, and the first registered name that starts with
it is the name itself. -/
def SafeName (t : Tab) (name : Bytes) : Prop :=
  name ≠ [] ∧ (name.length < nfaMaxHciAppNameLen ∨ ∀ x, t.cfg.regAppNames x ≠ []) ∧
    ∀ y, t.cfg.regAppNames y ≠ [] → name <+: t.cfg.regAppNames y →
      ∃ x, x ≤ y ∧ t.cfg.regAppNames x = name

instance (t : Tab) (name : Bytes) : Decidable (SafeName t name) := by
  unfold SafeName
  infer_instance

/-- Every pipe on the gates of the name's application can be deleted, where commands can be sent at all. -/
def Deletable (cb : HciCb) (name : Bytes) : Prop :=
  nciDataHdrSize + 2 < cb.buffSize.toNat → ∀ x i, cb.cfg.regAppNames x = name → OwnPipe cb.toTab x i →
    usableBy (nfaHciuIsActiveHost cb) (cb.pipe i) = true

section Names
variable {cb : HciCb} {name : Bytes}

variable {x : AppIx}

theorem findApp_some {t : Tab} (h : findApp t name = some x) :
    t.cfg.regAppNames x ≠ [] ∧ name <+: t.cfg.regAppNames x := by
  have hholds := firstSlot_holds h
  rw [Bool.and_eq_true, bne_iff_ne, List.isPrefixOf_iff_prefix] at hholds
  exact hholds

theorem findApp_none {t : Tab} (h : findApp t name = none) (x : AppIx)
    (hx : t.cfg.regAppNames x ≠ []) : ¬ name <+: t.cfg.regAppNames x := by
  unfold findApp at h
  rw [firstSlot_eq_none] at h
  have hx' := h x
  rw [bne_iff_ne.mpr hx, Bool.true_and, Bool.eq_false_iff] at hx'
  exact fun hpre => hx' (List.isPrefixOf_iff_prefix.mpr hpre)

/-- A registered name that starts with `name` stands at or behind the entry found. -/
theorem findApp_first {t : Tab} {x y : AppIx} (h : findApp t name = some x)
    (hy : t.cfg.regAppNames y ≠ []) (hpre : name <+: t.cfg.regAppNames y) : x ≤ y := by
  by_contra hlt
  have hfirst := firstSlot_first h y (not_le.mp hlt)
  rw [bne_iff_ne.mpr hy, Bool.true_and, Bool.eq_false_iff] at hfirst
  exact hfirst (List.isPrefixOf_iff_prefix.mpr hpre)

theorem register_found (h : findApp cb.toTab name = some x) (b : Bool) :
    (nfaHciApiRegister cb name b).1 = some (appHandle x) := by
  unfold nfaHciApiRegister registerApp
  rw [h]

theorem register_new (h : findApp cb.toTab name = none) (b : Bool) :
    (∃ x, cb.cfg.regAppNames x = [] ∧ (nfaHciApiRegister cb name b).1 = some (appHandle x) ∧
      (nfaHciApiRegister cb name b).2.cfg.regAppNames =
        Function.update cb.cfg.regAppNames x (copyName name)) ∨
    (∀ x, cb.cfg.regAppNames x ≠ []) ∧ (nfaHciApiRegister cb name b).1 = none := by
  unfold nfaHciApiRegister registerApp
  rw [h]
  match hfree : firstSlot fun x => cb.toTab.cfg.regAppNames x == [] with
  | none =>
    rw [firstSlot_eq_none] at hfree
    refine .inr ⟨fun x hx => ?_, rfl⟩
    exact Bool.false_ne_true ((hfree x).symm.trans (beq_iff_eq.mpr hx))
  | some x => exact .inl ⟨x, by simpa using firstSlot_holds hfree, rfl, rfl⟩

theorem SafeName.found (h : SafeName cb.toTab name)
    (hf : findApp cb.toTab name = some x) : cb.cfg.regAppNames x = name := by
  obtain ⟨hx, hpre⟩ := findApp_some hf
  obtain ⟨y, hyx, hy⟩ := h.2.2 x hx hpre
  have hxy : x ≤ y := findApp_first hf (by rw [hy]; exact h.1) (by rw [hy])
  rw [le_antisymm hxy hyx]
  exact hy

theorem SafeName.find (hok : AppsOk cb.toTab) (h : SafeName cb.toTab name)
    (hx : cb.cfg.regAppNames x = name) : findApp cb.toTab name = some x := by
  have hne : cb.cfg.regAppNames x ≠ [] := hx ▸ h.1
  match hf : findApp cb.toTab name with
  | none => exact absurd (by rw [hx]) (findApp_none hf x hne)
  | some y =>
    have hy := h.found hf
    rw [hok.names y x (by rw [hy]; exact h.1) (hy.trans hx.symm)]

theorem SafeName.deregister (hok : AppsOk cb.toTab) (h : SafeName cb.toTab name)
    (hx : cb.cfg.regAppNames x = name) :
    nfaHciApiDeregister cb (some name) = deregisterApp { cb with appInUse := appHandle x } x := by
  unfold nfaHciApiDeregister
  dsimp only
  rw [h.find hok hx]

theorem separate_of_safe (hok : AppsOk cb.toTab) (h : SafeName cb.toTab name) (hdel : Deletable cb name) :
    Separate cb name := by
  have hnew : (∀ x, cb.cfg.regAppNames x ≠ name) → findApp cb.toTab name = none := by
    intro hall
    match hf : findApp cb.toTab name with
    | none => rfl
    | some y => exact absurd (h.found hf) (hall y)
  refine ⟨fun x b hx => register_found (h.find hok hx) b, ?_, ?_, ?_, ?_⟩
  · intro hall b handle hreg
    rcases register_new (hnew hall) b with ⟨x, hfree, hhandle, hnames⟩ | ⟨-, hnone⟩
    · have hcopy : copyName name = name := by
        unfold copyName
        apply List.take_of_length_le
        have hlen := h.2.1.resolve_right fun hfull => hfull x hfree
        omega
      rw [hhandle, Option.some.injEq] at hreg
      rw [hcopy] at hnames
      exact ⟨x, hfree, hreg.symm, hnames⟩
    · rw [hnone] at hreg
      cases hreg
  · intro y b hy hyname hreg
    match hf : findApp cb.toTab name with
    | some x =>
      rw [register_found hf b, Option.some.injEq] at hreg
      exact hyname (appHandle_inj hreg ▸ h.found hf)
    | none =>
      rcases register_new hf b with ⟨x, hfree, hhandle, -⟩ | ⟨-, hnone⟩
      · rw [hhandle, Option.some.injEq] at hreg
        exact hy (appHandle_inj hreg ▸ hfree)
      · rw [hnone] at hreg
        cases hreg
  · intro x hx
    rw [h.deregister hok hx]
    exact deregisterApp_untouched hok rfl
  · intro x env hx hbuf
    rw [h.deregister hok hx]
    exact deregisterApp_removes env _ hok rfl hbuf (fun i hi => hdel hbuf x i hx hi) le_rfl

theorem safe_of_separate (hok : AppsOk cb.toTab) (h : Separate cb name) :
    SafeName cb.toTab name := by
  -- the entry found belongs to the name, if there is one
  have hfound : ∀ x, findApp cb.toTab name = some x → cb.cfg.regAppNames x = name := by
    intro x hf
    have hreg := register_found hf false
    by_contra hne
    exact h.other x false (findApp_some hf).1 hne hreg
  have hempty : name ≠ [] := by
    rintro rfl
    match hf : findApp cb.toTab [] with
    | some x => exact (findApp_some hf).1 (hfound x hf)
    | none =>
      -- then every entry is free, and they would all have one handle
      have hall : ∀ x, cb.cfg.regAppNames x = [] := by
        intro x
        by_contra hx
        exact findApp_none hf x hx List.nil_prefix
      have h0 := h.own 0 false (hall 0)
      rw [h.own 1 false (hall 1), Option.some.injEq] at h0
      exact absurd (appHandle_inj h0) (by decide)
  refine ⟨hempty, ?_, ?_⟩
  · by_contra hno
    obtain ⟨hlong, hfull⟩ := not_or.mp hno
    have habsent : ∀ x, cb.cfg.regAppNames x ≠ name := by
      intro x hx
      exact hlong (hx ▸ hok.nameLen x)
    have hnone : findApp cb.toTab name = none := by
      match hf : findApp cb.toTab name with
      | none => rfl
      | some x => exact absurd (hfound x hf) (habsent x)
    rcases register_new hnone false with ⟨x, hfree, hhandle, hnames⟩ | ⟨hall, -⟩
    · obtain ⟨y, -, heq, hstored⟩ := h.fresh habsent false _ hhandle
      rw [appHandle_inj heq, hstored] at hnames
      have hcopy := congrFun hnames y
      rw [Function.update_self, Function.update_self] at hcopy
      have hlen := congrArg List.length hcopy
      unfold copyName at hlen
      rw [List.length_take] at hlen
      simp only [nfaMaxHciAppNameLen] at hlen hlong
      omega
    · exact hfull hall
  · intro y hy hpre
    match hf : findApp cb.toTab name with
    | none => exact absurd hpre (findApp_none hf y hy)
    | some x => exact ⟨x, findApp_first hf hy hpre, hfound x hf⟩

theorem deletable_of_separate (hok : AppsOk cb.toTab) (h : Separate cb name) : Deletable cb name := by
  have hsafe := safe_of_separate hok h
  intro hbuf x i hx hi
  by_contra hno
  obtain ⟨k, cb', hrun, hrem⟩ := h.removed x quietEnv hx hbuf
  rw [hsafe.deregister hok hx] at hrun
  have hkept := @deregisterApp_named quietEnv x k { cb with appInUse := appHandle x } cb' hok rfl hbuf
    ⟨i, hi, Bool.eq_false_iff.mpr hno⟩ hrun
  rw [hrem.name] at hkept
  exact hsafe.1 (hx.symm.trans hkept.symm)

end Names

theorem apps_separate_iff (sessionId : Bytes) (es : List Event) (s : Task)
    (hrun : run Task.step (Task.init sessionId) es = some s) (name : Bytes) :
    Separate s.cb name ↔ SafeName s.cb.toTab name ∧ Deletable s.cb name :=
  ⟨fun h => ⟨safe_of_separate (run_apps hrun) h, deletable_of_separate (run_apps hrun) h⟩,
    fun h => separate_of_safe (run_apps hrun) h.1 h.2⟩

def registers (name : Bytes) : List Event :=
  .connCreated 0x20 :: List.replicate 6 (.data 0x81 0x80 [] quietEnv) ++
    [.call (.register 0 name false), .deliver]

/-- With "ab" registered, "ac" is a separate application. -/
theorem apps_separate_iff_ac :
    ∃ s, run Task.step (Task.init []) (registers [0x61, 0x62]) = some s ∧
      s.cb.cfg.regAppNames 0 = [0x61, 0x62] ∧ Separate s.cb [0x61, 0x63] := by
  obtain ⟨s, hs⟩ : ∃ s, run Task.step (Task.init []) (registers [0x61, 0x62]) = some s := ⟨_, rfl⟩
  have hread : (run Task.step (Task.init []) (registers [0x61, 0x62])).map (fun s =>
      (s.cb.cfg.regAppNames 0, decide (SafeName s.cb.toTab [0x61, 0x63] ∧
        ∀ x, s.cb.cfg.regAppNames x ≠ [0x61, 0x63]))) = some ([0x61, 0x62], true) := by decide +kernel
  rw [hs, Option.map_some, Option.some.injEq, Prod.mk.injEq] at hread
  obtain ⟨hsafe, habsent⟩ := of_decide_eq_true hread.2
  exact ⟨s, hs, hread.1,
    (apps_separate_iff [] _ s hs _).mpr ⟨hsafe, fun _ x _ hx => absurd hx (habsent x)⟩⟩

/-- With "ab" registered, "a" is given the handle of "ab". -/
theorem shorter_name_not_separate :
    ∃ s, run Task.step (Task.init []) (registers [0x61, 0x62]) = some s ∧
      s.cb.cfg.regAppNames 0 = [0x61, 0x62] ∧
      (nfaHciApiRegister s.cb [0x61] false).1 = some (appHandle 0) ∧ ¬ Separate s.cb [0x61] := by
  obtain ⟨s, hs⟩ : ∃ s, run Task.step (Task.init []) (registers [0x61, 0x62]) = some s := ⟨_, rfl⟩
  have hread : (run Task.step (Task.init []) (registers [0x61, 0x62])).map (fun s =>
      (s.cb.cfg.regAppNames 0, (nfaHciApiRegister s.cb [0x61] false).1)) =
        some ([0x61, 0x62], some (appHandle 0)) := by decide +kernel
  rw [hs, Option.map_some, Option.some.injEq, Prod.mk.injEq] at hread
  refine ⟨s, hs, hread.1, hread.2, ?_⟩
  intro h
  exact h.other 0 false (by rw [hread.1]; decide) (by rw [hread.1]; decide) hread.2

/-- Whatever comes, names, gate ids and pipe ids stay unique; a gate in use has an id of the host-specific
gates on, and a free one no owner. -/
theorem keys_unique {sessionId : Bytes} {es : List Event} {s : Task}
    (hrun : run Task.step (Task.init sessionId) es = some s) :
    (∀ x y, s.cb.cfg.regAppNames x ≠ [] → s.cb.cfg.regAppNames x = s.cb.cfg.regAppNames y → x = y) ∧
      (Distinct fun g => (s.cb.gate g).key) ∧ (Distinct fun i => (s.cb.pipe i).key) ∧
      ∀ g, ((s.cb.gate g).gateId ≠ 0 → nfaHciFirstHostSpecificGenericGate ≤ (s.cb.gate g).gateId) ∧
        ((s.cb.gate g).gateId = 0 → (s.cb.gate g).gateOwner = 0) :=
  have h := run_apps hrun
  ⟨h.names, h.base.gateIds, h.pipeIds, fun g => ⟨h.gateLow g, h.base.unowned g⟩⟩

theorem keys_unique_ab : ∃ s, run Task.step (Task.init []) (registers [0x61, 0x62]) = some s ∧
    Distinct fun i => (s.cb.pipe i).key := by
  obtain ⟨s, hs⟩ : ∃ s, run Task.step (Task.init []) (registers [0x61, 0x62]) = some s := ⟨_, rfl⟩
  exact ⟨s, hs, (keys_unique hs).2.2.1⟩

end NfcStack.Hci
