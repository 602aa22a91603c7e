import NfcStack.Nfa.DmDiscover

/- What a step of RF discovery does on behalf of the reader or of a module that has been
   told of an activation is a `Reaction`: it sets fields that belong to checks, and asks for
   deactivations. What a deactivation keeps, a reaction keeps.

   What is proved:
     1. `Reaction.keeps`: the induction over a reaction.
     2. `reaction_rfDeactivate`, `reaction_endSleepWakeup`, `reaction_notifyActivation`: the
        reactions of a step, and when they ask for a deactivation. -/
namespace NfcStack.Nfa.Discovery

section Fields
variable (cb : Cb) (state : RfState) (env : Env)

@[simp] theorem newState_unanswered : (newState cb state).unanswered = cb.unanswered := by
  unfold newState finishStop relExclRfControlAndNotify report
  dsimp only
  split_ifs <;> rfl

@[simp] theorem newState_w4Rsp : (newState cb state).w4Rsp = cb.w4Rsp := by
  unfold newState finishStop relExclRfControlAndNotify report
  dsimp only
  split_ifs <;> rfl

@[simp] theorem newState_w4Ntf : (newState cb state).w4Ntf = cb.w4Ntf := by
  unfold newState finishStop relExclRfControlAndNotify report
  dsimp only
  split_ifs <;> rfl

@[simp] theorem newState_state : (newState cb state).state = state := by
  unfold newState finishStop relExclRfControlAndNotify report
  dsimp only
  split_ifs <;> rfl

theorem newState_of_ne {cb : Cb} {state : RfState} (h : state ≠ .idle) :
    newState cb state = { cb with state := state, ntfDue := false } := by
  unfold newState
  exact if_neg fun hidle => h hidle.1

theorem newState_of_w4Rsp {cb : Cb} (h : cb.w4Rsp = true) (state : RfState) :
    newState cb state = { cb with state := state, ntfDue := false } := by
  unfold newState
  refine if_neg fun hidle => ?_
  have hrsp : cb.w4Rsp = false := hidle.2
  rw [h] at hrsp
  cases hrsp

@[simp] theorem notifyStarted_unanswered (ok : Bool) : (notifyStarted cb ok).unanswered = cb.unanswered := by
  unfold notifyStarted
  split <;> rfl

@[simp] theorem notifyStarted_w4Rsp (ok : Bool) : (notifyStarted cb ok).w4Rsp = cb.w4Rsp := by
  unfold notifyStarted
  split <;> rfl

@[simp] theorem startRfDiscover_state : (startRfDiscover env cb).state = cb.state := by
  have hset : ∀ c : Cb,
      (if c.protocol ≠ .kovio ∨ c.kovioTle = false then { c with protocol := .invalid } else c).state = c.state := by
    intro c
    split <;> rfl
  unfold startRfDiscover notifyStarted
  split
  · rfl
  · rw [hset]
    split_ifs <;> rfl

@[simp] theorem notifyDeactivation_unanswered : (notifyDeactivation cb).unanswered = cb.unanswered := by
  unfold notifyDeactivation
  split <;> rfl

@[simp] theorem notifyDeactivation_w4Rsp : (notifyDeactivation cb).w4Rsp = cb.w4Rsp := by
  unfold notifyDeactivation
  split <;> rfl

@[simp] theorem notifyDeactivation_stopping : (notifyDeactivation cb).stopping = cb.stopping := by
  unfold notifyDeactivation
  split <;> rfl

@[simp] theorem sendUnlessW4Rsp_state (type : DeactType) : (sendUnlessW4Rsp cb type).state = cb.state := by
  unfold sendUnlessW4Rsp
  split <;> rfl

end Fields

/-! ## Stopping -/

def stopFields (cb : Cb) : Bool × Bool × List Report := (cb.stopping, cb.exclActive, cb.reported)

theorem stopFields_sendDeactivateCmd (cb : Cb) (type : DeactType) :
    stopFields (sendDeactivateCmd cb type).2 = stopFields cb := by
  unfold sendDeactivateCmd forceToIdle
  rw [newState_of_w4Rsp rfl]
  split_ifs <;> rfl

theorem stopFields_sendUnlessW4Rsp (cb : Cb) (type : DeactType) : stopFields (sendUnlessW4Rsp cb type) = stopFields cb := by
  unfold sendUnlessW4Rsp
  split <;> rfl

/-- A deactivation that is asked for does not end a stop. -/
theorem stopFields_deactivateCmd (cb : Cb) (type : DeactType) : stopFields (deactivateCmd cb type) = stopFields cb := by
  unfold deactivateCmd hostSelectDeactivate
  dsimp only
  split
  case h_2 => split <;> rfl
  case h_4 => split_ifs <;> first | rfl | exact stopFields_sendUnlessW4Rsp _ _
  case h_5 => split_ifs <;> first | rfl | exact stopFields_sendDeactivateCmd _ _
  all_goals first | rfl | exact stopFields_sendUnlessW4Rsp _ _ | exact stopFields_sendDeactivateCmd _ _

/-! ## Reactions -/

/-- `b` is `a` but for what belongs to the checks of a tag. -/
def Frame (a b : Cb) : Prop :=
  ∃ checking protocol deactPending pendingDeactType kovioTle mifarePcTle presCheck, b = { a with
    checking := checking
    protocol := protocol
    deactPending := deactPending
    pendingDeactType := pendingDeactType
    kovioTle := kovioTle
    mifarePcTle := mifarePcTle
    presCheck := presCheck }

theorem frame_refl (cb : Cb) : Frame cb cb := ⟨_, _, _, _, _, _, _, rfl⟩

theorem frame_notifyDeactivation (cb : Cb) : Frame cb (notifyDeactivation cb) := by
  unfold notifyDeactivation
  split
  · exact frame_refl cb
  · exact ⟨_, _, _, _, _, _, _, rfl⟩

@[simp] theorem notifyDeactivation_deactPending (cb : Cb) : (notifyDeactivation cb).deactPending = cb.deactPending := by
  unfold notifyDeactivation
  split <;> rfl

/-- From `a` to `b` by setting fields of the checks and, if it is asked for, by deactivations. -/
inductive Reaction (asks : Prop) (a : Cb) : Cb → Prop where
  | refl : Reaction asks a a
  | frame {b c : Cb} (h : Reaction asks a b) (hf : Frame b c)
      (hp : c.deactPending = true → b.deactPending = true ∨ asks) : Reaction asks a c
  | deactivate {b : Cb} (h : Reaction asks a b) (type : DeactType) (ha : asks) : Reaction asks a (deactivateCmd b type)

namespace Reaction
variable {asks : Prop} {a b c : Cb} {env : Env}

theorem trans (hab : Reaction asks a b) (hbc : Reaction asks b c) : Reaction asks a c := by
  induction hbc with
  | refl => exact hab
  | frame _ hf hp ih => exact ih.frame hf hp
  | deactivate _ type ha ih => exact ih.deactivate type ha

theorem of_frame (h : Frame a b) (hp : b.deactPending = true → a.deactPending = true ∨ asks) : Reaction asks a b :=
  refl.frame h hp

theorem notifyDeactivation (h : Reaction asks a b) : Reaction asks a (notifyDeactivation b) := by
  refine h.frame (frame_notifyDeactivation b) fun hb => .inl ?_
  rwa [notifyDeactivation_deactPending] at hb

/-- What setting the fields of the checks and a deactivation keep, a reaction keeps. -/
theorem keeps {P : Cb → Prop} (hf : ∀ {b c}, Frame b c → P b → P c)
    (hd : asks → ∀ {b} (type), P b → P (deactivateCmd b type)) (h : Reaction asks a b) (ha : P a) : P b := by
  induction h with
  | refl => exact ha
  | frame _ hbc _ ih => exact hf hbc ih
  | deactivate _ type hasks ih => exact hd hasks type ih

/-- A reaction leaves a deactivation to be carried out only if one has been asked for. -/
theorem pending (h : Reaction asks a b) (ha : a.deactPending = true → asks) : b.deactPending = true → asks := by
  induction h with
  | refl => exact ha
  | frame _ _ hp ih => exact fun h => (hp h).elim ih id
  | deactivate _ _ hasks => exact fun _ => hasks

theorem stopFields_eq (h : Reaction asks a b) : stopFields b = stopFields a := by
  refine h.keeps (P := fun c => stopFields c = stopFields a) ?_ ?_ rfl
  · rintro _ _ ⟨_, _, _, _, _, _, _, rfl⟩ h
    exact h
  · intro _ _ type h
    rw [stopFields_deactivateCmd]
    exact h

end Reaction

section Reactions
variable {asks : Prop} {env : Env}

theorem reaction_rfDeactivateWith {timeout : Cb → Cb} (ht : ∀ cb, Reaction asks cb (timeout cb)) (ha : asks) (cb : Cb)
    (type : DeactType) : Reaction asks cb (rfDeactivateWith timeout cb type).2 := by
  have hset : Reaction asks cb (if cb.checking = false ∧ cb.presCheck = .idle then { cb with presCheck := .none } else cb) := by
    split
    · exact .of_frame ⟨_, _, _, _, _, _, _, rfl⟩ .inl
    · exact .refl
  obtain ⟨cb₁, hcb₁⟩ : ∃ cb₁, cb₁ = if cb.checking = false ∧ cb.presCheck = .idle then { cb with presCheck := .none } else cb :=
    ⟨_, rfl⟩
  rw [← hcb₁] at hset
  refine hset.trans ?_
  unfold rfDeactivateWith
  rw [← hcb₁]
  dsimp only
  have htle : Reaction asks cb₁ (timeout { cb₁ with kovioTle := false }) :=
    (Reaction.of_frame ⟨_, _, _, _, _, _, _, rfl⟩ .inl).trans (ht _)
  split
  · exact .refl
  · split
    · split
      · exact htle
      · exact .refl
    · refine Reaction.deactivate ?_ _ ha
      split
      · exact htle
      · exact .refl
    · exact .refl
    · exact .refl
  · exact Reaction.refl.deactivate _ ha

theorem reaction_tellReader (cb : Cb) (ok : Bool) (ha : env.rwCback = true ∧ ok = false → asks) :
    Reaction asks cb (tellReader env cb ok) := by
  unfold tellReader
  split
  case isTrue h => exact reaction_rfDeactivateWith (fun _ => Reaction.refl.notifyDeactivation) (ha h) cb .discovery
  case isFalse => exact .refl

theorem reaction_runPending (cb : Cb) (ha : cb.deactPending = true → asks) : Reaction asks cb (runPending cb) := by
  unfold runPending
  split
  case isTrue h =>
    exact Reaction.deactivate (b := { cb with deactPending := false })
      (.of_frame ⟨_, _, _, _, _, _, _, rfl⟩ fun hb => nomatch hb) _ (ha h)
  case isFalse => exact .refl

/-- The reader is told, and then a deactivation that has waited is carried out. -/
theorem reaction_told (cb : Cb) (ok : Bool) (htell : env.rwCback = true ∧ ok = false → asks)
    (hpend : cb.deactPending = true → asks) : Reaction asks cb (runPending (tellReader env cb ok)) := by
  refine (reaction_tellReader cb ok htell).trans (reaction_runPending _ ?_)
  by_cases h : env.rwCback = true ∧ ok = false
  · exact fun _ => htell h
  · unfold tellReader
    rw [if_neg h]
    exact hpend

theorem reaction_reportKovio (cb : Cb) (ok : Bool) (htell : env.rwCback = true ∧ ok = false → asks)
    (hpend : cb.deactPending = true → asks) : Reaction asks cb (reportKovioPresenceCheck env cb ok) := by
  unfold reportKovioPresenceCheck
  split
  · exact (Reaction.of_frame ⟨_, _, _, _, _, _, _, rfl⟩ .inl).trans (reaction_told _ ok htell hpend)
  · exact .refl

theorem reaction_kovioTimeout (cb : Cb) (htell : env.rwCback = true → asks) (hpend : cb.deactPending = true → asks) :
    Reaction asks cb (kovioTimeoutCback env cb) := by
  unfold kovioTimeoutCback
  dsimp only
  have hreport := reaction_reportKovio cb false (fun h => htell h.1) hpend
  split
  · exact hreport.frame ⟨_, _, _, _, _, _, _, rfl⟩ .inl
  · exact hreport.notifyDeactivation

theorem reaction_rfDeactivate (ha : asks) (cb : Cb) (type : DeactType) : Reaction asks cb (rfDeactivate env cb type).2 :=
  reaction_rfDeactivateWith (fun cb => reaction_kovioTimeout cb (fun _ => ha) fun _ => ha) ha cb type

theorem reaction_endSleepWakeup (cb : Cb) (ok : Bool) (htell : env.rwCback = true ∧ ok = false → asks)
    (hpend : cb.deactPending = true → asks) (hstart : cb.presCheck = .start → ok = false → asks) :
    Reaction asks cb (endSleepWakeup env cb ok) := by
  unfold endSleepWakeup
  split
  · exact .refl
  split
  · dsimp only
    split
    case isTrue h =>
      have ha : asks := hstart h.2.1 h.2.2
      exact (Reaction.of_frame ⟨_, _, _, _, _, _, _, rfl⟩ fun _ => .inr ha).trans (reaction_runPending _ fun _ => ha)
    case isFalse =>
      refine Reaction.trans (.of_frame ?_ ?_) (reaction_told _ ok htell ?_)
      · split_ifs <;> exact ⟨_, _, _, _, _, _, _, rfl⟩
      · split_ifs <;> first | exact .inl | exact nofun
      · split_ifs <;> first | exact hpend | exact nofun
  · exact .refl

/-- The end of a check, whatever it leads to. -/
theorem reaction_checked (cb : Cb) (ok : Bool) : Reaction True cb (endSleepWakeup env cb ok) :=
  reaction_endSleepWakeup cb ok (fun _ => trivial) (fun _ => trivial) fun _ _ => trivial

theorem reaction_handleKovio (cb : Cb) (htell : env.rwCback = true → asks) (hpend : cb.deactPending = true → asks) :
    Reaction asks cb (handleKovioActivation env cb).2 := by
  unfold handleKovioActivation
  split
  · exact reaction_reportKovio cb env.sameTag (fun h => htell h.1) hpend
  · exact .of_frame ⟨_, _, _, _, _, _, _, rfl⟩ .inl

theorem reaction_tellActivated (cb : Cb) (ha : env.actCback = true → asks) : Reaction asks cb (tellActivated env cb) := by
  unfold tellActivated
  split
  case isTrue h => exact reaction_rfDeactivate (ha h) cb .discovery
  case isFalse => exact .refl

def Accepts (env : Env) (cb : Cb) : Prop := cb.exclInUse = true ∨ env.matched = true

theorem notifyActivation_failed {cb : Cb} {a : Activation} (h : (notifyActivation env cb a).1 = false) :
    ¬ Accepts env cb ∧ Frame cb (notifyActivation env cb a).2 := by
  unfold notifyActivation at h ⊢
  split at h
  case isTrue => split at h <;> exact nomatch h
  case isFalse hexcl =>
    rw [if_neg hexcl]
    split at h
    case isTrue hee =>
      rw [if_pos hee]
      split at h
      case isTrue => exact nomatch h
      case isFalse hm =>
        rw [if_neg hm]
        exact ⟨not_or.mpr ⟨hexcl, hm⟩, frame_refl cb⟩
    case isFalse hee =>
      rw [if_neg hee]
      split at h
      case isTrue => exact nomatch h
      case isFalse hm =>
        rw [if_neg hm]
        exact ⟨not_or.mpr ⟨hexcl, hm⟩, _, _, _, _, _, _, _, rfl⟩

/-- A deactivation is asked for when something has been activated: by the module that is told of it, by the reader, or
by a request that has waited for the end of a check. -/
def Asks (env : Env) (cb : Cb) : Prop := env.actCback = true ∨ env.rwCback = true ∨ cb.deactPending = true

theorem reaction_notifyActivation (cb : Cb) (a : Activation) (ha : Asks env cb → asks) :
    Reaction asks cb (notifyActivation env cb a).2 := by
  have hact : env.actCback = true → asks := fun h => ha (.inl h)
  have htell : env.rwCback = true → asks := fun h => ha (.inr (.inl h))
  have hpend : cb.deactPending = true → asks := fun h => ha (.inr (.inr h))
  have hkovio : Reaction asks cb (handleKovioActivation env { cb with protocol := a.protocol }).2 :=
    (Reaction.of_frame ⟨_, _, _, _, _, _, _, rfl⟩ .inl).trans (reaction_handleKovio _ htell hpend)
  have hset : Reaction asks cb { cb with protocol := a.protocol } := .of_frame ⟨_, _, _, _, _, _, _, rfl⟩ .inl
  unfold notifyActivation
  split
  · dsimp only
    split
    · dsimp only
      split
      · exact hkovio
      · exact hkovio.trans (reaction_tellActivated _ hact)
    · exact hset.trans (reaction_tellActivated _ hact)
  split
  · split
    · exact (Reaction.of_frame ⟨_, _, _, _, _, _, _, rfl⟩ .inl).trans (reaction_tellActivated _ hact)
    · exact .refl
  split
  · dsimp only
    split
    · split
      · exact hkovio
      · exact hkovio.trans (reaction_tellActivated _ hact)
    · split
      · exact hset
      · exact hset.trans (reaction_tellActivated _ hact)
  · exact .of_frame ⟨_, _, _, _, _, _, _, rfl⟩ .inl

theorem reaction_endIdleCheck (cb : Cb) (a : Activation) (ha : Asks env cb → asks) :
    Reaction asks cb (endIdleCheck env cb a) := by
  have htell : env.rwCback = true → asks := fun h => ha (.inr (.inl h))
  have hpend : cb.deactPending = true → asks := fun h => ha (.inr (.inr h))
  unfold endIdleCheck
  dsimp only
  refine Reaction.frame ?_ ⟨_, _, _, _, _, _, _, rfl⟩ .inl
  split
  · exact (Reaction.of_frame ⟨_, _, _, _, _, _, _, rfl⟩ .inl).trans
      (reaction_endSleepWakeup _ false (fun h => htell h.1) hpend nofun)
  · have hend : Reaction asks cb (endSleepWakeup env cb true) := reaction_endSleepWakeup cb true nofun hpend nofun
    refine hend.trans (reaction_notifyActivation _ a fun h => ?_)
    rcases h with h | h | h
    · exact ha (.inl h)
    · exact htell h
    · exact hend.pending hpend h

end Reactions

/-- A deactivation to idle is accepted unless the controller is idle. -/
theorem rfDeactivateWith_idle {cb : Cb} (timeout : Cb → Cb) (h : cb.state ≠ .idle) :
    (rfDeactivateWith timeout cb .idle).1 = true := by
  have hstate : (if cb.checking = false ∧ cb.presCheck = .idle then { cb with presCheck := .none } else cb).state = cb.state := by
    split <;> rfl
  unfold rfDeactivateWith
  dsimp only
  rw [hstate]
  split
  case h_1 hs => exact absurd hs h
  · rfl
  · rfl

/-- The response is to the oldest command. -/
theorem step_discoverRsp {cb t : Cb} {env : Env} {ok : Bool} (ht : step cb (env, .discoverRsp ok) = some t) :
    ∃ rest, cb.unanswered = .discover :: rest ∧ t = smExecute env { cb with unanswered := rest } (.discoverRsp ok) := by
  unfold step at ht
  dsimp only at ht
  split at ht
  · exact ⟨_, ‹_›, (Option.some.inj ht).symm⟩
  · cases ht

theorem step_deactivateRsp {cb t : Cb} {env : Env} {ok : Bool} (ht : step cb (env, .deactivateRsp ok) = some t) :
    ∃ type rest, cb.unanswered = .deactivate type :: rest ∧
      t = smExecute env { cb with unanswered := rest } (.deactivateRsp ok) := by
  unfold step at ht
  dsimp only at ht
  split at ht
  · exact ⟨_, _, ‹_›, (Option.some.inj ht).symm⟩
  · cases ht

/-- There is a technology to discover, and a module asks for what is activated. -/
def quiet : Env := ⟨true, false, false, true, false, false, false, false, false⟩

end NfcStack.Nfa.Discovery
