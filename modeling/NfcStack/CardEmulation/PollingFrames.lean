import NfcStack.CardEmulation.HcePolling

/-
  Where polling frames wait.

  A frame that has arrived is sent at once, or waits in one of three buffers of
  `HostEmulationManager`: for the connection of the service it was assigned to
  (`mPollingFramesToSend`), for any connection before it is looked at
  (`mUnprocessedPollingFrames`), or until the loop shows that no filter will
  match (`mPendingPollingLoopFrames`). Frames are told apart by their place in the
  order of arrival, as two frames may be equal.

  What is proved:
    1. `processFrame_got` — one turn of the loop over the frames of a batch puts the
       frame in one place and leaves the others where they are.
    2. `frames_kept_once` — in a run between two returns to the idle state whose
       steps deliver the pending frames only to a preferred service that is
       connected, or when no others wait, every frame is in one place, and each
       place keeps the order.
    3. `frame_lost` — a frame that arrives while the pending ones wait for the
       preferred service is lost.

  A frame counts as delivered when it is sent, also to a service that has died.
-/
namespace NfcStack.CardEmulation.Hce
open NfcStack.Lib

def sentFrames (trace : List Item) : List (List PollingFrame) :=
  trace.filterMap fun item =>
    match item with
    | .frames _ frames => some frames
    | _ => none

/-! ## The setting of a polling loop -/

structure Setting where
  preferred : ComponentNameAndUser
  filter : List UInt8 → Option ApduServiceInfo
  onHost : ∀ data info, filter data = some info → info.isOnHost = true

def Setting.target (set : Setting) (frame : PollingFrame) : ComponentName :=
  match frame.type, set.filter frame.data with
  | .unknown, some info => info.component
  | _, _ => set.preferred.componentName

structure Setting.Governs (set : Setting) (env : Env) : Prop where
  preferred : env.preferredForPollingLoop = some set.preferred
  filter : ∀ data, env.filterService data = set.filter data

/-! ## Places -/

/-- The places `idx` in the order of arrival are those of `frames`. -/
def At (arrived : List PollingFrame) (idx : List Nat) (frames : List PollingFrame) : Prop :=
  List.Forall₂ (fun i frame => arrived[i]? = some frame) idx frames

def InOrder (idx : List Nat) : Prop := idx.Pairwise (· < ·)

/-- Where the frames are, by their places in the order of arrival. -/
structure Placement where
  delivered : List (List Nat)
  toSend : List (ComponentName × List Nat)
  pending : List Nat
  unprocessed : List Nat

/-- Every frame that has arrived since `start` is in exactly one place, and a frame that waits
for a service waits for the one it is assigned to. The order is kept inside each message and
each list, not from one message to the next. -/
structure Placed (set : Setting) (start : Hem) (arrived : List PollingFrame) (hem : Hem)
    (p : Placement) : Prop where
  delivered : ∃ since, sentFrames hem.trace = sentFrames start.trace ++ since ∧
    List.Forall₂ (At arrived) p.delivered since
  toSend : List.Forall₂ (fun idx entry => idx.1 = entry.1 ∧ At arrived idx.2 entry.2)
    p.toSend (hem.pollingFramesToSend.getD [])
  pending : At arrived p.pending (hem.pendingPollingLoopFrames.getD [])
  unprocessed : At arrived p.unprocessed (hem.unprocessedPollingFrames.getD [])
  once : (p.delivered.flatten ++ p.toSend.flatMap Prod.snd ++ p.pending ++ p.unprocessed).Perm
    (List.range arrived.length)
  deliveredInOrder : ∀ idx ∈ p.delivered, InOrder idx
  toSendInOrder : ∀ entry ∈ p.toSend, InOrder entry.2
  pendingInOrder : InOrder p.pending
  unprocessedInOrder : InOrder p.unprocessed
  assigned : ∀ entry ∈ p.toSend, ∀ i ∈ entry.2, ∀ frame, arrived[i]? = some frame →
    set.target frame = entry.1

/-! ## The runs -/

/-- The payment service, if it is connected, has not died, and no bind of it is to come. -/
def PaymentSteady (env : Env) (hem : Hem) : Prop :=
  (hem.paymentServiceBound = true ∨ env.preferredPaymentService = none) ∧
    ∀ service, hem.paymentService = some service → env.alive service = true

def Connected (env : Env) (hem : Hem) (key : ComponentNameAndUser) : Prop :=
  (bindServiceIfNeededLocked env hem key).1 ≠ none

/-- Where handling `frames` ends the loop, the preferred service is connected and stays so,
or nothing else waits and none of the frames is sent before the pending ones. -/
def Delivers (set : Setting) (env : Env) (frames : List PollingFrame) (hem : Hem) : Prop :=
  LoopOver hem frames →
    (Connected env hem set.preferred ∧ PaymentSteady env hem) ∨
    (hem.unprocessedPollingFrames = none ∧ waitingFrames hem set.preferred.componentName = none ∧
      ∀ frame ∈ frames, frame.type ≠ .f ∧ frame.type ≠ .unknown)

/-- The state in which the frames kept unprocessed are handled, once those that waited for the
service `name` have been sent. -/
def reinjected (name : ComponentName) (hem : Hem) : Hem :=
  { hem with
    pollingFramesToSend := hem.pollingFramesToSend.map (List.filter fun entry => entry.1 ≠ name)
    unprocessedPollingFrames := none }

/-- A batch of frames or a connection, in a setting that does not change; no service
disconnects and no binding dies. -/
def Governed (set : Setting) : Env × Event → Prop
  | (env, .pollingLoop _) | (env, .connected _) | (env, .paymentConnected _) => set.Governs env
  | _ => False

/-- What is handled in the step delivers the pending frames as they should be. -/
def DeliversIn (set : Setting) (hem : Hem) : Env × Event → Prop
  | (env, .pollingLoop frames) => Delivers set env frames hem
  | (env, .connected service) =>
    waitingFrames hem service.service.componentName ≠ none →
      Delivers set env (hem.unprocessedPollingFrames.getD [])
        (reinjected service.service.componentName (register service hem))
  | (env, .paymentConnected service) =>
    waitingFrames hem service.service.componentName ≠ none →
      Delivers set env (hem.unprocessedPollingFrames.getD [])
        (reinjected service.service.componentName (registerPayment service hem))
  | _ => True

def arrivals (es : List (Env × Event)) : List PollingFrame :=
  es.flatMap fun e =>
    match e.2 with
    | .pollingLoop frames => frames
    | _ => []

/-! ## Lists by places -/

theorem At.extend {arrived : List PollingFrame} {idx : List Nat} {frames : List PollingFrame}
    (h : At arrived idx frames) (more : List PollingFrame) : At (arrived ++ more) idx frames := by
  apply List.Forall₂.imp _ h
  intro i frame hi
  obtain ⟨hlt, -⟩ := List.getElem?_eq_some_iff.mp hi
  rw [List.getElem?_append_left hlt, hi]

theorem At.append {arrived : List PollingFrame} {idx idx' : List Nat}
    {frames frames' : List PollingFrame} (h : At arrived idx frames) (h' : At arrived idx' frames') :
    At arrived (idx ++ idx') (frames ++ frames') := List.rel_append h h'

theorem InOrder.append {idx idx' : List Nat} (h : InOrder idx) (h' : InOrder idx')
    (hlt : ∀ i ∈ idx, ∀ j ∈ idx', i < j) : InOrder (idx ++ idx') :=
  List.pairwise_append.mpr ⟨h, h', hlt⟩

def addTo {α : Type} (name : ComponentName) (xs : List α) (waiting : List (ComponentName × List α)) :
    List (ComponentName × List α) :=
  if waiting.any fun entry => entry.1 = name then
    waiting.map fun entry => if entry.1 = name then (entry.1, entry.2 ++ xs) else entry
  else (name, xs) :: waiting

theorem addPollingFrames_eq (name : ComponentName) (frames : List PollingFrame)
    (toSend : List (ComponentName × List PollingFrame)) :
    addPollingFrames name frames toSend = addTo name frames toSend := rfl

section
variable {α : Type} {name : ComponentName} {xs : List α}

variable {waiting : List (ComponentName × List α)}

theorem mem_addTo {entry : ComponentName × List α} (h : entry ∈ addTo name xs waiting) :
    entry ∈ waiting ∨ entry = (name, xs) ∨ ∃ old, (name, old) ∈ waiting ∧
      entry = (name, old ++ xs) := by
  unfold addTo at h
  split at h
  · obtain ⟨old, hold, rfl⟩ := List.mem_map.mp h
    split
    next hname => exact .inr (.inr ⟨old.2, hname ▸ hold, by rw [hname]⟩)
    next => exact .inl hold
  · rcases List.mem_cons.mp h with h | h
    · exact .inr (.inl h)
    · exact .inl h

theorem keys_addTo
    (h : (waiting.map Prod.fst).Nodup) : ((addTo name xs waiting).map Prod.fst).Nodup := by
  unfold addTo
  split
  · rw [List.map_map]
    have hsame : (Prod.fst ∘ fun entry : ComponentName × List α =>
        if entry.1 = name then (entry.1, entry.2 ++ xs) else entry) = Prod.fst := by
      funext entry
      simp only [Function.comp_apply]
      split <;> rfl
    rw [hsame]
    exact h
  next hnot =>
    refine List.nodup_cons.mpr ⟨?_, h⟩
    intro hmem
    obtain ⟨entry, hentry, hname⟩ := List.mem_map.mp hmem
    exact hnot (List.any_eq_true.mpr ⟨entry, hentry, by simpa using hname⟩)

theorem addTo_perm {waiting : List (ComponentName × List α)}
    (h : (waiting.map Prod.fst).Nodup) :
    ((addTo name xs waiting).flatMap Prod.snd).Perm (waiting.flatMap Prod.snd ++ xs) := by
  unfold addTo
  split
  next hany =>
    induction waiting with
    | nil => simp at hany
    | cons entry waiting ih =>
      obtain ⟨hnew, hrest⟩ := List.nodup_cons.mp h
      rw [List.map_cons, List.flatMap_cons, List.flatMap_cons]
      by_cases hname : entry.1 = name
      · -- the other entries are of other services
        have hkept : ∀ other ∈ waiting,
            (if other.1 = name then (other.1, other.2 ++ xs) else other) = id other := by
          intro other hother
          rw [if_neg]
          · rfl
          · intro heq
            exact hnew (hname ▸ heq ▸ List.mem_map_of_mem hother)
        rw [List.map_congr_left hkept, List.map_id, if_pos hname, List.append_assoc,
          List.append_assoc]
        exact List.Perm.append_left _ List.perm_append_comm
      · rw [if_neg hname, List.append_assoc]
        apply List.Perm.append_left
        apply ih hrest
        rw [List.any_cons, decide_eq_false hname, Bool.false_or] at hany
        exact hany
  next =>
    rw [List.flatMap_cons]
    exact List.perm_append_comm

variable {left : List (ComponentName × List α)}

theorem addTo_forall₂ {β : Type} {R : List α → List β → Prop} {ys : List β}
    (hR : ∀ a b, R a b → R (a ++ xs) (b ++ ys)) (hxs : R xs ys)
    {right : List (ComponentName × List β)}
    (h : List.Forall₂ (fun a b => a.1 = b.1 ∧ R a.2 b.2) left right) :
    List.Forall₂ (fun a b => a.1 = b.1 ∧ R a.2 b.2) (addTo name xs left) (addTo name ys right) := by
  have hany : (left.any fun entry => entry.1 = name) = right.any fun entry => entry.1 = name := by
    induction h with
    | nil => rfl
    | cons hab _ ih => rw [List.any_cons, List.any_cons, hab.1, ih]
  have hmap : List.Forall₂ (fun a b => a.1 = b.1 ∧ R a.2 b.2)
      (left.map fun entry => if entry.1 = name then (entry.1, entry.2 ++ xs) else entry)
      (right.map fun entry => if entry.1 = name then (entry.1, entry.2 ++ ys) else entry) := by
    clear hany
    induction h with
    | nil => exact .nil
    | @cons a b _ _ hab _ ih =>
      rw [List.map_cons, List.map_cons]
      refine .cons ?_ ih
      by_cases hname : b.1 = name
      · rw [if_pos hname, if_pos (hab.1.trans hname)]
        exact ⟨hab.1, hR _ _ hab.2⟩
      · rw [if_neg hname, if_neg (fun heq => hname (hab.1.symm.trans heq))]
        exact hab
  unfold addTo
  rw [hany]
  split
  · exact hmap
  · exact .cons ⟨rfl, hxs⟩ h

theorem filter_perm (h : (waiting.map Prod.fst).Nodup) {entry : ComponentName × List α}
    (hfind : waiting.find? (fun entry => entry.1 = name) = some entry) :
    (waiting.flatMap Prod.snd).Perm
      ((waiting.filter fun entry => entry.1 ≠ name).flatMap Prod.snd ++ entry.2) := by
  induction waiting with
  | nil => cases hfind
  | cons first waiting ih =>
    obtain ⟨hnew, hrest⟩ := List.nodup_cons.mp h
    rw [List.find?_cons] at hfind
    by_cases hname : first.1 = name
    · simp only [hname, decide_true] at hfind
      obtain rfl := Option.some.inj hfind
      have hkept : (waiting.filter fun entry => entry.1 ≠ name) = waiting := by
        apply List.filter_eq_self.mpr
        intro other hother
        have hne : other.1 ≠ name := by
          intro heq
          exact hnew (hname ▸ heq ▸ List.mem_map_of_mem hother)
        simpa using hne
      rw [List.filter_cons_of_neg (by simp [hname]), hkept, List.flatMap_cons]
      exact List.perm_append_comm
    · simp only [hname, decide_false] at hfind
      rw [List.filter_cons_of_pos (by simp [hname]), List.flatMap_cons, List.flatMap_cons,
        List.append_assoc]
      exact List.Perm.append_left _ (ih hrest hfind)

theorem find?_forall₂ {β : Type} {R : List α → List β → Prop}
    {right : List (ComponentName × List β)}
    (h : List.Forall₂ (fun a b => a.1 = b.1 ∧ R a.2 b.2) left right) {b : ComponentName × List β}
    (hfind : right.find? (fun entry => entry.1 = name) = some b) :
    ∃ a, left.find? (fun entry => entry.1 = name) = some a ∧ a ∈ left ∧ R a.2 b.2 := by
  induction h with
  | nil => cases hfind
  | @cons first second _ _ hab _ ih =>
    rw [List.find?_cons] at hfind ⊢
    rw [hab.1]
    by_cases hname : second.1 = name
    · simp only [hname, decide_true] at hfind ⊢
      obtain rfl := Option.some.inj hfind
      exact ⟨first, rfl, List.mem_cons_self, hab.2⟩
    · simp only [hname, decide_false] at hfind ⊢
      obtain ⟨a, ha, hmem, hR⟩ := ih hfind
      exact ⟨a, ha, List.mem_cons_of_mem _ hmem, hR⟩

theorem filter_forall₂ {β : Type} {R : List α → List β → Prop}
    {right : List (ComponentName × List β)}
    (h : List.Forall₂ (fun a b => a.1 = b.1 ∧ R a.2 b.2) left right) :
    List.Forall₂ (fun a b => a.1 = b.1 ∧ R a.2 b.2)
      (left.filter fun entry => entry.1 ≠ name) (right.filter fun entry => entry.1 ≠ name) := by
  induction h with
  | nil => exact .nil
  | @cons first second _ _ hab _ ih =>
    by_cases hname : second.1 = name
    · rw [List.filter_cons_of_neg (by simp [hab.1, hname]),
        List.filter_cons_of_neg (by simp [hname])]
      exact ih
    · rw [List.filter_cons_of_pos (by simp [hab.1, hname]),
        List.filter_cons_of_pos (by simp [hname])]
      exact .cons hab ih

end

theorem At.mem {arrived : List PollingFrame} {idx : List Nat} {frames : List PollingFrame}
    (h : At arrived idx frames) {i : Nat} (hi : i ∈ idx) :
    ∃ frame ∈ frames, arrived[i]? = some frame := by
  induction h with
  | nil => cases hi
  | cons hfirst _ ih =>
    rcases List.mem_cons.mp hi with rfl | hi
    · exact ⟨_, List.mem_cons_self, hfirst⟩
    · obtain ⟨frame, hmem, hframe⟩ := ih hi
      exact ⟨frame, List.mem_cons_of_mem _ hmem, hframe⟩

theorem waitingFrames_none {hem : Hem} {name : ComponentName} :
    waitingFrames hem name = none ↔
      ∀ entry ∈ hem.pollingFramesToSend.getD [], entry.1 ≠ name := by
  unfold waitingFrames
  cases hem.pollingFramesToSend with
  | none => simp
  | some toSend => simp

/-! ## The frames that have been looked at -/

/-- The first `k` frames are in one place each, and none of them is unprocessed. -/
structure FramesKept (set : Setting) (start : Hem) (arrived : List PollingFrame) (k : Nat) (hem : Hem)
    (p : Placement) : Prop where
  delivered : ∃ since, sentFrames hem.trace = sentFrames start.trace ++ since ∧
    List.Forall₂ (At arrived) p.delivered since
  toSend : List.Forall₂ (fun idx entry => idx.1 = entry.1 ∧ At arrived idx.2 entry.2)
    p.toSend (hem.pollingFramesToSend.getD [])
  pending : At arrived p.pending (hem.pendingPollingLoopFrames.getD [])
  keys : (p.toSend.map Prod.fst).Nodup
  once : (p.delivered.flatten ++ p.toSend.flatMap Prod.snd ++ p.pending).Perm (List.range k)
  deliveredInOrder : ∀ idx ∈ p.delivered, InOrder idx
  toSendInOrder : ∀ entry ∈ p.toSend, InOrder entry.2
  pendingInOrder : InOrder p.pending
  assigned : ∀ entry ∈ p.toSend, ∀ i ∈ entry.2, ∀ frame, arrived[i]? = some frame →
    set.target frame = entry.1
  pendingPlain : ∀ frame ∈ hem.pendingPollingLoopFrames.getD [],
    set.target frame = set.preferred.componentName

structure SameFrames (a b : Hem) : Prop where
  sent : sentFrames b.trace = sentFrames a.trace
  toSend : b.pollingFramesToSend = a.pollingFramesToSend
  pending : b.pendingPollingLoopFrames.getD [] = a.pendingPollingLoopFrames.getD []

section
variable {set : Setting} {start : Hem} {arrived : List PollingFrame} {k : Nat} {hem : Hem}
  {p : Placement}

variable {b : Hem}

theorem FramesKept.same (h : FramesKept set start arrived k hem p) (hsame : SameFrames hem b) :
    FramesKept set start arrived k b p where
  delivered := by rw [hsame.sent]; exact h.delivered
  toSend := by rw [hsame.toSend]; exact h.toSend
  pending := by rw [hsame.pending]; exact h.pending
  keys := h.keys
  once := h.once
  deliveredInOrder := h.deliveredInOrder
  toSendInOrder := h.toSendInOrder
  pendingInOrder := h.pendingInOrder
  assigned := h.assigned
  pendingPlain := by rw [hsame.pending]; exact h.pendingPlain

theorem FramesKept.mem_lt (h : FramesKept set start arrived k hem p) {i : Nat}
    (hmem : i ∈ p.delivered.flatten ++ p.toSend.flatMap Prod.snd ++ p.pending) : i < k :=
  List.mem_range.mp (h.once.mem_iff.mp hmem)

theorem FramesKept.extend (h : FramesKept set start arrived k hem p) (hk : k ≤ arrived.length)
    (more : List PollingFrame) : FramesKept set start (arrived ++ more) k hem p where
  delivered := by
    obtain ⟨since, hsent, hat⟩ := h.delivered
    exact ⟨since, hsent, hat.imp fun _ _ hat => hat.extend more⟩
  toSend := h.toSend.imp fun _ _ hat => ⟨hat.1, hat.2.extend more⟩
  pending := h.pending.extend more
  keys := h.keys
  once := h.once
  deliveredInOrder := h.deliveredInOrder
  toSendInOrder := h.toSendInOrder
  pendingInOrder := h.pendingInOrder
  assigned := by
    intro entry hentry i hi frame hframe
    have hlt : i < k := by
      apply h.mem_lt
      apply List.mem_append_left
      apply List.mem_append_right
      exact List.mem_flatMap.mpr ⟨entry, hentry, hi⟩
    rw [List.getElem?_append_left (by omega)] at hframe
    exact h.assigned entry hentry i hi frame hframe
  pendingPlain := h.pendingPlain

theorem FramesKept.count (h : FramesKept set start arrived k hem p) (i : Nat) :
    p.delivered.flatten.count i + (p.toSend.flatMap Prod.snd).count i + p.pending.count i =
      (List.range k).count i := by
  rw [← List.count_append, ← List.count_append]
  exact h.once.count_eq i

variable {frame : PollingFrame}

section
variable (h : FramesKept set start arrived k hem p)
include h

/-- A frame that is looked at, and not sent, is assigned to a service or kept pending. -/
theorem FramesKept.sendFrame (hframe : arrived[k]? = some frame)
    (hsent : sentFrames b.trace = sentFrames hem.trace ++ [[frame]])
    (htoSend : b.pollingFramesToSend = hem.pollingFramesToSend)
    (hpending : b.pendingPollingLoopFrames = hem.pendingPollingLoopFrames) :
    FramesKept set start arrived (k + 1) b { p with delivered := p.delivered ++ [[k]] } where
  delivered := by
    obtain ⟨since, hsince, hat⟩ := h.delivered
    refine ⟨since ++ [[frame]], by rw [hsent, hsince, List.append_assoc], ?_⟩
    exact List.rel_append hat (.cons (.cons hframe .nil) .nil)
  toSend := by rw [htoSend]; exact h.toSend
  pending := by rw [hpending]; exact h.pending
  keys := h.keys
  once := by
    apply List.perm_iff_count.mpr
    intro i
    have hcount := h.count i
    simp only [List.flatten_append, List.flatten_singleton, List.count_append, List.range_succ]
    omega
  deliveredInOrder := by
    intro idx hidx
    rcases List.mem_append.mp hidx with hidx | hidx
    · exact h.deliveredInOrder idx hidx
    · rw [List.mem_singleton.mp hidx]
      exact List.pairwise_singleton _ _
  toSendInOrder := h.toSendInOrder
  pendingInOrder := h.pendingInOrder
  assigned := h.assigned
  pendingPlain := by rw [hpending]; exact h.pendingPlain

theorem FramesKept.waitFrame
    (hframe : arrived[k]? = some frame) (hsent : sentFrames b.trace = sentFrames hem.trace)
    (htoSend : b.pollingFramesToSend =
      some (addPollingFrames (set.target frame) [frame] (hem.pollingFramesToSend.getD [])))
    (hpending : b.pendingPollingLoopFrames = hem.pendingPollingLoopFrames) :
    FramesKept set start arrived (k + 1) b
      { p with toSend := addTo (set.target frame) [k] p.toSend } where
  delivered := by rw [hsent]; exact h.delivered
  toSend := by
    rw [htoSend, Option.getD_some, addPollingFrames_eq]
    exact addTo_forall₂ (fun _ _ hab => hab.append (.cons hframe .nil)) (.cons hframe .nil) h.toSend
  pending := by rw [hpending]; exact h.pending
  keys := keys_addTo h.keys
  once := by
    apply List.perm_iff_count.mpr
    intro i
    have hcount := h.count i
    have hadd := (@addTo_perm _ (set.target frame) [k] _ h.keys).count_eq i
    simp only [List.count_append, List.range_succ] at hadd ⊢
    omega
  deliveredInOrder := h.deliveredInOrder
  toSendInOrder := by
    intro entry hentry
    rcases mem_addTo hentry with hentry | rfl | ⟨old, hold, rfl⟩
    · exact h.toSendInOrder entry hentry
    · exact List.pairwise_singleton _ _
    · apply InOrder.append (h.toSendInOrder _ hold) (List.pairwise_singleton _ _)
      intro i hi j hj
      rw [List.mem_singleton.mp hj]
      apply h.mem_lt
      apply List.mem_append_left
      apply List.mem_append_right
      exact List.mem_flatMap.mpr ⟨_, hold, hi⟩
  pendingInOrder := h.pendingInOrder
  assigned := by
    -- the frame at place `k` is the one that is added
    have hnew : ∀ other, arrived[k]? = some other → set.target other = set.target frame := by
      intro other hother
      rw [hframe] at hother
      rw [Option.some.inj hother]
    intro entry hentry i hi other hother
    rcases mem_addTo hentry with hentry | rfl | ⟨old, hold, rfl⟩
    · exact h.assigned entry hentry i hi other hother
    · rw [List.mem_singleton.mp hi] at hother
      exact hnew other hother
    · rcases List.mem_append.mp hi with hi | hi
      · exact h.assigned _ hold i hi other hother
      · rw [List.mem_singleton.mp hi] at hother
        exact hnew other hother
  pendingPlain := by rw [hpending]; exact h.pendingPlain

theorem FramesKept.keepFrame
    (hframe : arrived[k]? = some frame) (hplain : set.target frame = set.preferred.componentName)
    (hsent : sentFrames b.trace = sentFrames hem.trace)
    (htoSend : b.pollingFramesToSend = hem.pollingFramesToSend)
    (hpending : b.pendingPollingLoopFrames =
      some (hem.pendingPollingLoopFrames.getD [] ++ [frame])) :
    FramesKept set start arrived (k + 1) b { p with pending := p.pending ++ [k] } where
  delivered := by rw [hsent]; exact h.delivered
  toSend := by rw [htoSend]; exact h.toSend
  pending := by
    rw [hpending, Option.getD_some]
    exact h.pending.append (.cons hframe .nil)
  keys := h.keys
  once := by
    apply List.perm_iff_count.mpr
    intro i
    have hcount := h.count i
    simp only [List.count_append, List.range_succ]
    omega
  deliveredInOrder := h.deliveredInOrder
  toSendInOrder := h.toSendInOrder
  pendingInOrder := by
    apply InOrder.append h.pendingInOrder (List.pairwise_singleton _ _)
    intro i hi j hj
    rw [List.mem_singleton.mp hj]
    exact h.mem_lt (List.mem_append_right _ hi)
  assigned := h.assigned
  pendingPlain := by
    rw [hpending, Option.getD_some]
    intro other hother
    rcases List.mem_append.mp hother with hother | hother
    · exact h.pendingPlain other hother
    · rw [List.mem_singleton.mp hother]
      exact hplain

theorem FramesKept.sendPending
    (hsent : sentFrames b.trace = sentFrames hem.trace ++ [hem.pendingPollingLoopFrames.getD []])
    (htoSend : b.pollingFramesToSend = hem.pollingFramesToSend)
    (hpending : b.pendingPollingLoopFrames = none) :
    FramesKept set start arrived k b
      { p with delivered := p.delivered ++ [p.pending], pending := [] } where
  delivered := by
    obtain ⟨since, hsince, hat⟩ := h.delivered
    refine ⟨since ++ [_], by rw [hsent, hsince, List.append_assoc], ?_⟩
    exact List.rel_append hat (.cons h.pending .nil)
  toSend := by rw [htoSend]; exact h.toSend
  pending := by rw [hpending]; exact .nil
  keys := h.keys
  once := by
    apply List.perm_iff_count.mpr
    intro i
    have hcount := h.count i
    simp only [List.flatten_append, List.flatten_singleton, List.count_append, List.count_nil]
    omega
  deliveredInOrder := by
    intro idx hidx
    rcases List.mem_append.mp hidx with hidx | hidx
    · exact h.deliveredInOrder idx hidx
    · rw [List.mem_singleton.mp hidx]
      exact h.pendingInOrder
  toSendInOrder := h.toSendInOrder
  pendingInOrder := List.Pairwise.nil
  assigned := h.assigned
  pendingPlain := by rw [hpending]; simp

theorem FramesKept.not_waiting {name : ComponentName}
    (hnone : waitingFrames hem name = none) : ∀ entry ∈ p.toSend, entry.1 ≠ name := by
  have hall := h.toSend
  have hnot := waitingFrames_none.mp hnone
  generalize hem.pollingFramesToSend.getD [] = toSend at hall hnot
  generalize p.toSend = idx at hall
  induction hall with
  | nil => simp
  | @cons first second _ _ hab _ ih =>
    intro entry hentry
    rcases List.mem_cons.mp hentry with rfl | hentry
    · rw [hab.1]
      exact hnot second List.mem_cons_self
    · exact ih (fun other hother => hnot other (List.mem_cons_of_mem _ hother)) entry hentry

/-- The pending frames wait for the preferred service, when no others do. -/
theorem FramesKept.waitPending (hnone : waitingFrames hem set.preferred.componentName = none)
    (hsent : sentFrames b.trace = sentFrames hem.trace) (htoSend : b.pollingFramesToSend =
      some (addPollingFrames set.preferred.componentName (hem.pendingPollingLoopFrames.getD [])
        (hem.pollingFramesToSend.getD []))) (hpending : b.pendingPollingLoopFrames = none) :
    FramesKept set start arrived k b
      { p with
        toSend := addTo set.preferred.componentName p.pending p.toSend, pending := [] } where
  delivered := by rw [hsent]; exact h.delivered
  toSend := by
    rw [htoSend, Option.getD_some, addPollingFrames_eq]
    exact addTo_forall₂ (fun _ _ hab => hab.append h.pending) h.pending h.toSend
  pending := by rw [hpending]; exact .nil
  keys := keys_addTo h.keys
  once := by
    apply List.perm_iff_count.mpr
    intro i
    have hcount := h.count i
    have hadd := (@addTo_perm _ set.preferred.componentName p.pending _ h.keys).count_eq i
    simp only [List.count_append, List.count_nil] at hadd ⊢
    omega
  deliveredInOrder := h.deliveredInOrder
  toSendInOrder := by
    intro entry hentry
    rcases mem_addTo hentry with hentry | rfl | ⟨old, hold, rfl⟩
    · exact h.toSendInOrder entry hentry
    · exact h.pendingInOrder
    · exact absurd rfl (h.not_waiting hnone _ hold)
  pendingInOrder := List.Pairwise.nil
  assigned := by
    have hplain : ∀ i ∈ p.pending, ∀ frame, arrived[i]? = some frame →
        set.target frame = set.preferred.componentName := by
      intro i hi frame hframe
      obtain ⟨other, hother, hat⟩ := h.pending.mem hi
      rw [hframe] at hat
      rw [Option.some.inj hat]
      exact h.pendingPlain other hother
    intro entry hentry i hi frame hframe
    rcases mem_addTo hentry with hentry | rfl | ⟨old, hold, rfl⟩
    · exact h.assigned entry hentry i hi frame hframe
    · exact hplain i hi frame hframe
    · exact absurd rfl (h.not_waiting hnone _ hold)
  pendingPlain := by rw [hpending]; simp

theorem FramesKept.sendWaiting {name : ComponentName}
    {frames : List PollingFrame} (hwaiting : waitingFrames hem name = some frames)
    (hsent : sentFrames b.trace = sentFrames hem.trace ++ [frames])
    (htoSend : b.pollingFramesToSend =
      hem.pollingFramesToSend.map (List.filter fun entry => entry.1 ≠ name))
    (hpending : b.pendingPollingLoopFrames = hem.pendingPollingLoopFrames) :
    ∃ p', FramesKept set start arrived k b p' := by
  obtain ⟨entry, hentry, rfl⟩ := Option.map_eq_some_iff.mp hwaiting
  obtain ⟨toSend, hsome, hfind⟩ := Option.bind_eq_some_iff.mp hentry
  have hall := h.toSend
  rw [hsome, Option.getD_some] at hall
  obtain ⟨idx, hidx, hmem, hat⟩ := find?_forall₂ hall hfind
  refine ⟨{ p with
    delivered := p.delivered ++ [idx.2]
    toSend := p.toSend.filter fun entry => entry.1 ≠ name }, ?_⟩
  constructor
  · obtain ⟨since, hsince, hdelivered⟩ := h.delivered
    refine ⟨since ++ [entry.2], by rw [hsent, hsince, List.append_assoc], ?_⟩
    exact List.rel_append hdelivered (.cons hat .nil)
  · rw [htoSend, hsome, Option.map_some, Option.getD_some]
    exact filter_forall₂ hall
  · rw [hpending]
    exact h.pending
  · exact h.keys.sublist (List.filter_sublist.map _)
  · apply List.perm_iff_count.mpr
    intro i
    have hcount := h.count i
    have hfilter := (filter_perm h.keys hidx).count_eq i
    simp only [List.flatten_append, List.flatten_singleton, List.count_append] at hfilter ⊢
    omega
  · intro other hother
    rcases List.mem_append.mp hother with hother | hother
    · exact h.deliveredInOrder other hother
    · rw [List.mem_singleton.mp hother]
      exact h.toSendInOrder idx hmem
  · exact fun other hother => h.toSendInOrder other (List.mem_filter.mp hother).1
  · exact h.pendingInOrder
  · exact fun other hother => h.assigned other (List.mem_filter.mp hother).1
  · rw [hpending]
    exact h.pendingPlain

end

end

/-! ## What a send does to the frames -/

theorem sentFrames_append (xs ys : List Item) :
    sentFrames (xs ++ ys) = sentFrames xs ++ sentFrames ys := List.filterMap_append

section
variable (env : Env) (hem : Hem)

theorem bind_same (key : ComponentNameAndUser) :
    SameFrames hem (bindServiceIfNeededLocked env hem key).2 ∧
      (bindServiceIfNeededLocked env hem key).2.unprocessedPollingFrames =
        hem.unprocessedPollingFrames := by
  rw [(bind_rebound env hem key).1]
  exact ⟨⟨rfl, rfl, rfl⟩, rfl⟩

theorem sendPolling_sent (service : Messenger) (frames : List PollingFrame) :
    sentFrames (sendPollingFramesToServiceLocked env service frames hem).trace =
        sentFrames hem.trace ++ [frames] ∧
      (sendPollingFramesToServiceLocked env service frames hem).pollingFramesToSend =
        hem.pollingFramesToSend := by
  obtain ⟨name, hreb⟩ := sendPolling_spec env service frames hem
  rw [hreb.1]
  refine ⟨?_, rfl⟩
  dsimp only [framesSent]
  rw [sentFrames_append]
  cases env.alive service <;> rfl

theorem sendFrames_some (service : Messenger) (name : ComponentName) (frames : List PollingFrame) :
    let sent := sendFramesToServiceLocked env (some service) name frames hem
    sentFrames sent.trace = sentFrames hem.trace ++ [frames] ∧
      sent.pollingFramesToSend = hem.pollingFramesToSend ∧
      sent.pendingPollingLoopFrames = hem.pendingPollingLoopFrames ∧
      sent.unprocessedPollingFrames = hem.unprocessedPollingFrames := by
  obtain ⟨hsent, htoSend⟩ := sendPolling_sent env hem service frames
  obtain ⟨hunprocessed, -, hpending⟩ := sendPolling_loop env service frames hem
  unfold sendFramesToServiceLocked
  dsimp only
  split <;> exact ⟨hsent, htoSend, hpending, hunprocessed⟩

/-- Without one they wait, and those kept unprocessed are forgotten. -/
theorem sendFrames_none (name : ComponentName) (frames : List PollingFrame) :
    let kept := sendFramesToServiceLocked env none name frames hem
    sentFrames kept.trace = sentFrames hem.trace ∧
      kept.pollingFramesToSend =
        some (addPollingFrames name frames (hem.pollingFramesToSend.getD [])) ∧
      kept.pendingPollingLoopFrames = hem.pendingPollingLoopFrames ∧
      kept.unprocessedPollingFrames = some [] := by
  unfold sendFramesToServiceLocked
  dsimp only
  split <;> exact ⟨rfl, rfl, rfl, rfl⟩

theorem sendData_same (service : Messenger) (apdu : Apdu) :
    SameFrames hem (sendDataToServiceLocked env service apdu hem) ∧
      (sendDataToServiceLocked env service apdu hem).unprocessedPollingFrames =
        hem.unprocessedPollingFrames := by
  have hfarewell : sentFrames (farewell hem service) = [] := by
    unfold farewell
    split
    · split <;> rfl
    · rfl
  obtain ⟨name, hreb⟩ := sendData_spec env service apdu hem
  rw [hreb.1]
  refine ⟨⟨?_, rfl, rfl⟩, rfl⟩
  dsimp only
  rw [sentFrames_append, sentFrames_append, hfarewell, List.append_nil]
  exact List.append_nil _

theorem autoTransact_same (frame : PollingFrame) :
    SameFrames hem (autoTransact frame hem) ∧
      (autoTransact frame hem).unprocessedPollingFrames = hem.unprocessedPollingFrames := by
  have hallow : sentFrames (allowOneTransaction hem).trace = sentFrames hem.trace := by
    change sentFrames (hem.trace ++ [.setObserveMode false]) = _
    rw [sentFrames_append]
    exact List.append_nil _
  unfold autoTransact
  split
  · exact ⟨⟨rfl, rfl, rfl⟩, rfl⟩
  · exact ⟨⟨hallow, rfl, rfl⟩, rfl⟩

end

theorem SameFrames.trans {a b c : Hem} (h : SameFrames a b) (h' : SameFrames b c) :
    SameFrames a c :=
  ⟨h'.sent.trans h.sent, h'.toSend.trans h.toSend, h'.pending.trans h.pending⟩

/-! ## The loop over the frames -/

/-- The first `m` frames of `arrived` have come: those that have been looked at are in one place
each, and the rest are kept unprocessed. -/
def Got (set : Setting) (start : Hem) (arrived : List PollingFrame) (m : Nat) (hem : Hem) : Prop :=
  ∃ k p, FramesKept set start arrived k hem p ∧ k ≤ m ∧
    hem.unprocessedPollingFrames.getD [] = (arrived.take m).drop k ∧
    (hem.unprocessedPollingFrames = none → k = m)

section
variable {set : Setting} {start : Hem} {arrived : List PollingFrame} {m : Nat} {env : Env}
  {hem : Hem}

theorem Got.same (h : Got set start arrived m hem) {b : Hem} (hsame : SameFrames hem b)
    (hunprocessed : b.unprocessedPollingFrames = hem.unprocessedPollingFrames) :
    Got set start arrived m b := by
  obtain ⟨k, p, hheld, hk, hrest, hnone⟩ := h
  refine ⟨k, p, hheld.same hsame, hk, ?_, ?_⟩
  · rw [hunprocessed]
    exact hrest
  · rw [hunprocessed]
    exact hnone

theorem Got.of_held {p : Placement} (h : FramesKept set start arrived m hem p)
    (hunprocessed : hem.unprocessedPollingFrames.getD [] = []) : Got set start arrived m hem := by
  refine ⟨m, p, h, Nat.le_refl m, ?_, fun _ => rfl⟩
  rw [hunprocessed, List.drop_eq_nil_of_le (List.length_take_le m arrived)]

variable {frame : PollingFrame}

/-- A frame goes to a service: it is sent, or waits for the connection. -/
theorem frame_sent {p : Placement} (h : FramesKept set start arrived m hem p)
    (hframe : arrived[m]? = some frame) {a : Hem} (hsame : SameFrames hem a)
    (hnone : a.unprocessedPollingFrames = none) (service : Option Messenger) :
    Got set start arrived (m + 1)
      (sendFramesToServiceLocked env service (set.target frame) [frame] a) := by
  have hheld := h.same hsame
  cases service with
  | some service =>
    obtain ⟨hsent, htoSend, hpending, hunprocessed⟩ :=
      sendFrames_some env a service (set.target frame) [frame]
    apply Got.of_held (hheld.sendFrame hframe hsent htoSend hpending)
    rw [hunprocessed, hnone]
    rfl
  | none =>
    obtain ⟨hsent, htoSend, hpending, hunprocessed⟩ :=
      sendFrames_none env a (set.target frame) [frame]
    apply Got.of_held (hheld.waitFrame hframe hsent htoSend hpending)
    rw [hunprocessed]
    rfl

theorem frame_preferred (hgov : set.Governs env) {p : Placement}
    (h : FramesKept set start arrived m hem p)
    (hframe : arrived[m]? = some frame) (hnone : hem.unprocessedPollingFrames = none)
    (htarget : set.target frame = set.preferred.componentName) :
    Got set start arrived (m + 1) ((sendToPreferred env [frame] hem).getD hem) := by
  unfold sendToPreferred
  rw [hgov.preferred, Option.getD_some, ← htarget]
  obtain ⟨hsame, hunprocessed⟩ := bind_same env hem set.preferred
  exact frame_sent h hframe hsame (hunprocessed.trans hnone) _

theorem processFrame_got (hgov : set.Governs env) (h : Got set start arrived m hem)
    (hframe : arrived[m]? = some frame) :
    Got set start arrived (m + 1) (processFrame env hem frame) := by
  obtain ⟨k, p, hheld, hk, hrest, hlooked⟩ := h
  obtain ⟨hlt, -⟩ := List.getElem?_eq_some_iff.mp hframe
  unfold processFrame
  cases hunprocessed : hem.unprocessedPollingFrames with
  | some frames =>
    refine ⟨k, p, hheld.same ⟨rfl, rfl, rfl⟩, by omega, ?_, fun hno => by cases hno⟩
    rw [hunprocessed, Option.getD_some] at hrest
    dsimp only
    rw [Option.getD_some, hrest, List.take_add_one, hframe,
      List.drop_append_of_le_length (by rw [List.length_take]; omega)]
    rfl
  | none =>
    obtain rfl := hlooked hunprocessed
    dsimp only
    cases htype : frame.type with
    | f =>
      apply frame_preferred hgov hheld hframe hunprocessed
      simp [Setting.target, htype]
    | unknown =>
      dsimp only
      rw [hgov.filter]
      cases hfilter : set.filter frame.data with
      | none =>
        apply frame_preferred hgov hheld hframe hunprocessed
        simp [Setting.target, hfilter]
      | some info =>
        have htarget : set.target frame = info.component := by
          simp [Setting.target, htype, hfilter]
        dsimp only
        rw [if_pos (set.onHost _ _ hfilter), ← htarget]
        have hauto : SameFrames hem
            (if env.shouldAutoTransact info frame.data then autoTransact frame hem else hem) ∧
            (if env.shouldAutoTransact info frame.data then autoTransact frame hem
              else hem).unprocessedPollingFrames = none := by
          obtain ⟨hsame, hkept⟩ := autoTransact_same hem frame
          split
          · exact ⟨hsame, hkept.trans hunprocessed⟩
          · exact ⟨⟨rfl, rfl, rfl⟩, hunprocessed⟩
        obtain ⟨hsame, hkept⟩ := bind_same env
          (if env.shouldAutoTransact info frame.data then autoTransact frame hem else hem) info.key
        have hall := hauto.1.trans hsame
        apply frame_sent hheld hframe
        · exact ⟨hall.sent, hall.toSend, hall.pending⟩
        · exact hkept.trans hauto.2
    | a | b | on | off =>
      dsimp only
      refine Got.of_held (hheld.keepFrame hframe ?_ rfl rfl rfl) ?_
      · simp [Setting.target, htype]
      · rfl

theorem fold_got (hgov : set.Governs env) (frames : List PollingFrame) :
    ∀ {m : Nat} {hem : Hem}, Got set start arrived m hem →
      (∀ j frame, frames[j]? = some frame → arrived[m + j]? = some frame) →
      Got set start arrived (m + frames.length) (frames.foldl (processFrame env) hem) := by
  induction frames with
  | nil => exact fun h _ => h
  | cons frame frames ih =>
    intro m hem h hframes
    have hfirst := processFrame_got hgov h (hframes 0 frame rfl)
    have hrest := ih hfirst fun j other hother => by
      rw [Nat.add_assoc, Nat.add_comm 1]
      exact hframes (j + 1) other hother
    rw [List.length_cons, Nat.add_comm frames.length, ← Nat.add_assoc]
    exact hrest

theorem begin_same (frames : List PollingFrame) (hem : Hem) :
    SameFrames hem (beginPollingLoop frames hem) ∧
      (beginPollingLoop frames hem).unprocessedPollingFrames = hem.unprocessedPollingFrames := by
  unfold beginPollingLoop
  dsimp only
  split <;> split <;> exact ⟨⟨rfl, rfl, rfl⟩, rfl⟩

/-! ## The preferred service stays connected -/

theorem Connections.get_put_ne {conns : Connections} {key other : ComponentNameAndUser}
    {messenger : Option Messenger} (h : key ≠ other) :
    (conns.put other messenger).get key = conns.get key := by
  unfold Connections.get Connections.put Connections.remove
  rw [List.find?_cons_of_neg (by simpa using h.symm), List.find?_filter]
  congr 2
  funext entry
  by_cases hkey : entry.1 = key
  · simp [hkey, h]
  · simp [hkey]

theorem bind_congr {a b : Hem} (key : ComponentNameAndUser)
    (hname : b.paymentServiceName = a.paymentServiceName)
    (huser : b.paymentServiceUserId = a.paymentServiceUserId)
    (hservice : b.paymentService = a.paymentService)
    (hbound : b.paymentServiceBound = a.paymentServiceBound)
    (hconns : b.connections = a.connections) :
    (bindServiceIfNeededLocked env b key).1 = (bindServiceIfNeededLocked env a key).1 := by
  unfold bindServiceIfNeededLocked
  rw [hname, huser, hservice, hbound, hconns]
  split
  · rfl
  · split
    · rfl
    · split <;> rfl

theorem Connected.congr {key : ComponentNameAndUser} {a b : Hem} (h : Connected env a key)
    (hname : b.paymentServiceName = a.paymentServiceName)
    (huser : b.paymentServiceUserId = a.paymentServiceUserId)
    (hservice : b.paymentService = a.paymentService)
    (hbound : b.paymentServiceBound = a.paymentServiceBound)
    (hconns : b.connections = a.connections) : Connected env b key := by
  unfold Connected
  rw [bind_congr key hname huser hservice hbound hconns]
  exact h

def Stays (env : Env) (key : ComponentNameAndUser) (hem : Hem) : Prop :=
  Connected env hem key ∧ PaymentSteady env hem

theorem Stays.congr {key : ComponentNameAndUser} {a b : Hem} (h : Stays env key a)
    (hname : b.paymentServiceName = a.paymentServiceName)
    (huser : b.paymentServiceUserId = a.paymentServiceUserId)
    (hservice : b.paymentService = a.paymentService)
    (hbound : b.paymentServiceBound = a.paymentServiceBound)
    (hconns : b.connections = a.connections) : Stays env key b := by
  obtain ⟨hconnected, hsteady⟩ := h
  refine ⟨hconnected.congr hname huser hservice hbound hconns, ?_⟩
  unfold PaymentSteady
  rw [hbound, hservice]
  exact hsteady

theorem Stays.bind {key other : ComponentNameAndUser} {a : Hem} (h : Stays env key a) :
    Stays env key (bindServiceIfNeededLocked env a other).2 := by
  obtain ⟨hconnected, hbound, halive⟩ := h
  unfold bindServiceIfNeededLocked
  split
  next => exact ⟨hconnected, hbound, halive⟩
  next hother =>
    split
    next hpay =>
      rcases hbound with hbound | hbound
      · rw [hbound] at hpay
        exact absurd hpay.1 (by decide)
      · rw [hbound] at hpay
        exact absurd hpay.2 (by simp)
    next hpay =>
      split
      next => exact ⟨hconnected, hbound, halive⟩
      next hget =>
        refine ⟨?_, hbound, halive⟩
        -- had it been asked for `key`, the bind would have returned its messenger
        have hne : key ≠ other := by
          intro heq
          apply hconnected
          unfold bindServiceIfNeededLocked
          rw [heq, if_neg hother, if_neg hpay]
          split
          next messenger hsome => exact absurd hsome (hget messenger)
          next => rfl
        change Connected env { a with connections := a.connections.put other none } key
        unfold Connected bindServiceIfNeededLocked at hconnected ⊢
        dsimp only
        rw [Connections.get_put_ne hne]
        split
        next hpaid =>
          rw [if_pos hpaid] at hconnected
          exact hconnected
        next hpaid =>
          rw [if_neg hpaid] at hconnected
          split
          next hpref =>
            rw [if_pos hpref] at hconnected
            exact absurd rfl hconnected
          next hpref =>
            rw [if_neg hpref] at hconnected
            split at hconnected
            next messenger hsome =>
              dsimp only
              exact hconnected
            next => exact absurd rfl hconnected

theorem Stays.send {key : ComponentNameAndUser} {a : Hem} (h : Stays env key a)
    (service : Messenger) (frames : List PollingFrame) :
    Stays env key (sendPollingFramesToServiceLocked env service frames a) := by
  obtain ⟨hconnected, hbound, halive⟩ := h
  -- every state on the way has what is bound from `a`
  let Same (b : Hem) : Prop := b.paymentServiceName = a.paymentServiceName ∧
    b.paymentServiceUserId = a.paymentServiceUserId ∧ b.paymentService = a.paymentService ∧
    b.paymentServiceBound = a.paymentServiceBound ∧ b.connections = a.connections
  have hset : Same (if a.activeService = some service then a else setActiveService service a) := by
    split <;> exact ⟨rfl, rfl, rfl, rfl, rfl⟩
  have hwake : ∀ b, Same b →
      Same (if b.state = .idle then { b with state := .pollingLoop } else b) := by
    intro b hb
    split <;> exact hb
  have hsend : ∀ b, Same b →
      Same (if env.alive service then emit b (.frames service frames)
        else rebindIfPayment env service (allowOneTransaction (emit b (.frames service frames)))) := by
    intro b hb
    split
    next => exact hb
    next hdead =>
      unfold rebindIfPayment
      rw [if_neg]
      · exact hb
      · intro hpay
        exact hdead (halive service (hb.2.2.1.symm.trans hpay))
  have hall := hsend _ (hwake _ hset)
  exact Stays.congr ⟨hconnected, hbound, halive⟩ hall.1 hall.2.1 hall.2.2.1 hall.2.2.2.1
    hall.2.2.2.2

theorem polls_stays (key : ComponentNameAndUser) (frames : List PollingFrame) (hem : Hem)
    (Q : Prop) : Polls env frames hem fun a => Q → Stays env key a where
  quiet := by
    intro a b hquiet ha hQ
    rw [hquiet]
    exact (ha hQ).congr rfl rfl rfl rfl rfl
  wake := fun _ ha hQ => (ha hQ).congr rfl rfl rfl rfl rfl
  allow := fun _ ha hQ => (ha hQ).congr rfl rfl rfl rfl rfl
  transact := by
    intro a frame _ ha hQ
    unfold autoTransact
    split <;> exact (ha hQ).congr rfl rfl rfl rfl rfl
  bind := fun ha hQ => (ha hQ).bind
  send := fun _ _ ha hQ => (ha hQ).send _ _

/-- Frames that are all kept pending change neither of the other buffers. -/
theorem fold_plain (frames : List PollingFrame) :
    ∀ {a : Hem}, a.unprocessedPollingFrames = none →
      (∀ frame ∈ frames, frame.type ≠ .f ∧ frame.type ≠ .unknown) →
      (frames.foldl (processFrame env) a).unprocessedPollingFrames = none ∧
        (frames.foldl (processFrame env) a).pollingFramesToSend = a.pollingFramesToSend := by
  induction frames with
  | nil => exact fun h _ => ⟨h, rfl⟩
  | cons frame frames ih =>
    intro a hnone hplain
    obtain ⟨hf, hunknown⟩ := hplain frame List.mem_cons_self
    have hfirst : (processFrame env a frame).unprocessedPollingFrames = none ∧
        (processFrame env a frame).pollingFramesToSend = a.pollingFramesToSend := by
      unfold processFrame
      rw [hnone]
      dsimp only
      cases htype : frame.type with
      | f => exact absurd htype hf
      | unknown => exact absurd htype hunknown
      | a | b | on | off => exact ⟨rfl, rfl⟩
    obtain ⟨hunprocessed, htoSend⟩ := ih hfirst.1
      fun other hother => hplain other (List.mem_cons_of_mem _ hother)
    exact ⟨hunprocessed, htoSend.trans hfirst.2⟩

/-! ## The end of the loop -/

theorem deliver_got (hgov : set.Governs env) (h : Got set start arrived m hem)
    (hend : hem.pollingLoopState = .deliveringToPreferred →
      Connected env hem set.preferred ∨ (hem.unprocessedPollingFrames = none ∧
        waitingFrames hem set.preferred.componentName = none)) :
    Got set start arrived m
      (deliverPending env (hem.pendingPollingLoopFrames.getD []) hem) := by
  unfold deliverPending
  split
  next hstate =>
    unfold sendToPreferred
    rw [hgov.preferred]
    dsimp only
    obtain ⟨k, p, hheld, hk, hrest, hlooked⟩ := h
    cases hservice : (bindServiceIfNeededLocked env hem set.preferred).1 with
    | some service =>
      rw [(bind_some hservice).2]
      obtain ⟨hsent, htoSend, -, hunprocessed⟩ := sendFrames_some env hem service
        set.preferred.componentName (hem.pendingPollingLoopFrames.getD [])
      exact ⟨k, _, hheld.sendPending hsent htoSend rfl, hk, hunprocessed.symm ▸ hrest,
        fun hnone => hlooked (hunprocessed.symm.trans hnone)⟩
    | none =>
      rcases hend hstate with hconnected | ⟨hnone, hwaiting⟩
      · exact absurd hservice hconnected
      · obtain rfl := hlooked hnone
        obtain ⟨hbind, -⟩ := bind_same env hem set.preferred
        obtain ⟨hsent, htoSend, -, hunprocessed⟩ := sendFrames_none env
          (bindServiceIfNeededLocked env hem set.preferred).2 set.preferred.componentName
          (hem.pendingPollingLoopFrames.getD [])
        rw [hbind.toSend] at htoSend
        refine Got.of_held (hheld.waitPending hwaiting (hsent.trans hbind.sent) htoSend rfl) ?_
        dsimp only
        rw [hunprocessed]
        rfl
  next => exact h

theorem detected_got (hgov : set.Governs env) (h : Got set start arrived m hem)
    {frames : List PollingFrame}
    (hframes : ∀ j frame, frames[j]? = some frame → arrived[m + j]? = some frame)
    (hdelivers : Delivers set env frames hem) :
    Got set start arrived (m + frames.length) (onPollingLoopDetected env frames hem) := by
  obtain ⟨hbegin, hunprocessed⟩ := begin_same frames hem
  have hpolls := @polls_stays env set.preferred frames hem
    (Connected env hem set.preferred ∧ PaymentSteady env hem)
  obtain ⟨htrack, hstays⟩ := hpolls.fold frames (fun _ hf => hf) (track_begin frames hem)
    (hpolls.begin fun hstart => hstart)
  have hloop := fold_got hgov frames (h.same hbegin hunprocessed) hframes
  unfold onPollingLoopDetected endPollingLoop
  dsimp only
  -- where the loop is over the preferred service is still connected, or nobody waits
  have hdone : LoopOver hem frames →
      Connected env (frames.foldl (processFrame env) (beginPollingLoop frames hem))
        set.preferred ∨
      ((frames.foldl (processFrame env)
          (beginPollingLoop frames hem)).unprocessedPollingFrames = none ∧
        waitingFrames (frames.foldl (processFrame env) (beginPollingLoop frames hem))
          set.preferred.componentName = none) := by
    intro hover
    rcases hdelivers hover with hconnected | ⟨hnone, hwaiting, hplain⟩
    · exact .inl (hstays hconnected).1
    · obtain ⟨hkept, htoSend⟩ := @fold_plain env frames _ (hunprocessed.trans hnone) hplain
      refine .inr ⟨hkept, ?_⟩
      unfold waitingFrames
      rw [htoSend, hbegin.toSend]
      exact hwaiting
  rw [List.nil_append] at htrack
  generalize frames.foldl (processFrame env) (beginPollingLoop frames hem) = a at *
  split
  next hcond =>
    refine deliver_got hgov (hloop.same ⟨rfl, rfl, rfl⟩ rfl) ?_
    intro _
    rcases hdone (htrack.loopOver (.inr ⟨hcond.1, hcond.2.2⟩)) with hconnected | hnone
    · exact .inl (hconnected.congr rfl rfl rfl rfl rfl)
    · exact .inr hnone
  next =>
    refine deliver_got hgov (hloop.same ⟨rfl, rfl, rfl⟩ rfl) ?_
    intro hstate
    rcases hdone (htrack.loopOver (.inl hstate)) with hconnected | hnone
    · exact .inl (hconnected.congr rfl rfl rfl rfl rfl)
    · exact .inr hnone

/-- The frames that waited for a service are sent, and those kept unprocessed are handled. -/
theorem waiting_got (hgov : set.Governs env) (h : Got set start arrived m hem)
    (hm : m ≤ arrived.length) (service : Messenger) {name : ComponentName}
    (hdelivers : waitingFrames hem name ≠ none →
      Delivers set env (hem.unprocessedPollingFrames.getD []) (reinjected name hem)) :
    Got set start arrived m (sendWaitingFrames env service name hem) := by
  obtain ⟨k, p, hheld, hk, hrest, hlooked⟩ := h
  unfold sendWaitingFrames
  split
  next => exact ⟨k, p, hheld, hk, hrest, hlooked⟩
  next entry hentry =>
    have hwaiting : waitingFrames hem name = some entry.2 := by
      rw [waitingFrames, hentry]
      rfl
    have hdelivers := hdelivers (by rw [hwaiting]; simp)
    obtain ⟨hsent, htoSend⟩ := sendPolling_sent env hem service entry.2
    obtain ⟨hunprocessed, hstate, hpending⟩ := sendPolling_loop env service entry.2 hem
    -- what was sent is in one place, whatever becomes of the frames kept unprocessed
    have hafter : ∀ unprocessed, ∃ p', FramesKept set start arrived k
        { sendPollingFramesToServiceLocked env service entry.2 hem with
          pollingFramesToSend := (sendPollingFramesToServiceLocked env service entry.2
            hem).pollingFramesToSend.map (List.filter fun entry => entry.1 ≠ name)
          unprocessedPollingFrames := unprocessed } p' := by
      intro unprocessed
      refine hheld.sendWaiting hwaiting hsent ?_ hpending
      dsimp only
      rw [htoSend]
    dsimp only
    rw [hunprocessed]
    cases hframes : hem.unprocessedPollingFrames with
    | none =>
      obtain ⟨p', hheld'⟩ := hafter none
      obtain rfl := hlooked hframes
      dsimp only
      exact Got.of_held (hheld'.same ⟨rfl, rfl, rfl⟩) rfl
    | some frames =>
      obtain ⟨p', hheld'⟩ := hafter none
      rw [hframes, Option.getD_some] at hrest hdelivers
      dsimp only
      have hlength : k + frames.length = m := by
        rw [hrest, List.length_drop, List.length_take]
        omega
      rw [← hlength]
      apply detected_got hgov (Got.of_held hheld' rfl)
      · intro j frame hframe
        rw [hrest, List.getElem?_drop, List.getElem?_take] at hframe
        split at hframe
        · exact hframe
        · cases hframe
      · intro hover
        have hover : LoopOver (reinjected name hem) frames :=
          loopOver_of (afterWaiting_decides env service name entry.2 hem) hover
        rcases hdelivers hover with hstays | ⟨-, hnone, hplain⟩
        · have hsend := Stays.send (@Stays.congr env _ _ hem hstays rfl rfl rfl rfl rfl)
            service entry.2
          exact .inl (hsend.congr rfl rfl rfl rfl rfl)
        · refine .inr ⟨rfl, ?_, hplain⟩
          unfold waitingFrames at hnone ⊢
          dsimp only
          rw [htoSend]
          exact hnone

end

/-! ## The runs -/

section
variable {set : Setting} {start : Hem}

theorem step_got {arrived : List PollingFrame} {hem : Hem} {e : Env × Event}
    (h : Got set start arrived arrived.length hem) (hgov : Governed set e)
    (hdelivers : DeliversIn set hem e) :
    ∃ next, step hem e = some next ∧
      Got set start (arrived ++ arrivals [e]) (arrived ++ arrivals [e]).length next := by
  obtain ⟨env, event⟩ := e
  cases event with
  | pollingLoop frames =>
    obtain ⟨k, p, hheld, hk, hrest, hlooked⟩ := h
    have hextended : Got set start (arrived ++ frames) arrived.length hem := by
      refine ⟨k, p, hheld.extend hk frames, hk, ?_, hlooked⟩
      rw [List.take_left, hrest, List.take_length]
    have harrivals : arrivals [(env, .pollingLoop frames)] = frames := List.append_nil frames
    rw [harrivals, List.length_append]
    refine ⟨_, rfl, detected_got hgov hextended ?_ hdelivers⟩
    intro j frame hframe
    rw [List.getElem?_append_right (by omega), Nat.add_sub_cancel_left]
    exact hframe
  | connected service =>
    have harrivals : arrivals [(env, .connected service)] = [] := rfl
    rw [harrivals, List.append_nil]
    refine ⟨_, rfl, ?_⟩
    unfold serviceConnected
    split
    · exact h
    · split
      · exact h.same ⟨rfl, rfl, rfl⟩ rfl
      · split
        next apdu _ =>
          obtain ⟨hsame, hkept⟩ := sendData_same env (register service hem) service apdu
          exact h.same ⟨hsame.sent, hsame.toSend, hsame.pending⟩ hkept
        next =>
          exact @waiting_got set start arrived _ env (register service hem) hgov
            (h.same ⟨rfl, rfl, rfl⟩ rfl) (Nat.le_refl _) service _ hdelivers
  | paymentConnected service =>
    have harrivals : arrivals [(env, .paymentConnected service)] = [] := rfl
    rw [harrivals, List.append_nil]
    refine ⟨_, rfl, ?_⟩
    unfold paymentServiceConnected
    split
    · exact h
    · exact @waiting_got set start arrived _ env (registerPayment service hem) hgov
        (h.same ⟨rfl, rfl, rfl⟩ rfl) (Nat.le_refl _) service _ hdelivers
  | _ => exact absurd hgov id

theorem Got.placed {arrived : List PollingFrame} {hem : Hem}
    (h : Got set start arrived arrived.length hem) : ∃ p, Placed set start arrived hem p := by
  obtain ⟨k, p, hheld, hk, hrest, -⟩ := h
  rw [List.take_length] at hrest
  refine ⟨{ p with unprocessed := List.range' k (arrived.length - k) }, hheld.delivered,
    hheld.toSend, hheld.pending, ?_, ?_, hheld.deliveredInOrder, hheld.toSendInOrder,
    hheld.pendingInOrder, List.pairwise_lt_range', hheld.assigned⟩
  · rw [hrest]
    apply List.forall₂_iff_get.mpr
    refine ⟨by simp, fun i _ h => ?_⟩
    rw [List.length_drop] at h
    simp
  · have hsplit : List.range arrived.length =
        List.range k ++ List.range' k (arrived.length - k) := by
      have happend := @List.range'_append_1 0 k (arrived.length - k)
      rw [Nat.zero_add, Nat.add_sub_cancel' hk] at happend
      rw [List.range_eq_range', List.range_eq_range', happend]
    rw [hsplit]
    exact hheld.once.append_right _

theorem frames_kept_once {hem : Hem} {es : List (Env × Event)}
    (hok : StepsOk step (fun hem e => Governed set e ∧ DeliversIn set hem e)
      (returnToIdleState hem) es) :
    ∃ final p, run step (returnToIdleState hem) es = some final ∧
      Placed set hem (arrivals es) final p := by
  have hstart : Got set hem [] 0 (returnToIdleState hem) := by
    refine Got.of_held (p := ⟨[], [], [], []⟩) ?_ rfl
    exact ⟨⟨[], (List.append_nil _).symm, .nil⟩, .nil, .nil, List.nodup_nil, .refl _, by simp,
      by simp, List.Pairwise.nil, by simp, by simp [returnToIdleState]⟩
  obtain ⟨final, hrun, hgot⟩ := @run_simulates _ _ (List PollingFrame) step _
    (fun arrived e => arrived ++ arrivals [e])
    (fun state arrived => Got set hem arrived arrived.length state)
    (fun state arrived e h he => step_got h he.1 he.2) es _ [] hstart hok
  have harrivals : ∀ (es : List (Env × Event)) (arrived : List PollingFrame),
      es.foldl (fun arrived e => arrived ++ arrivals [e]) arrived = arrived ++ arrivals es := by
    intro es
    induction es with
    | nil => exact fun arrived => (List.append_nil arrived).symm
    | cons e es ih =>
      intro arrived
      rw [List.foldl_cons, ih, List.append_assoc]
      simp [arrivals]
  rw [harrivals, List.nil_append] at hgot
  obtain ⟨p, hplaced⟩ := hgot.placed
  exact ⟨final, p, hrun, hplaced⟩

end

/-! ## A frame that is lost -/

def preferredOnly : Setting := ⟨⟨0, 1⟩, fun _ => none, fun _ _ h => by cases h⟩

def preferredEnv : Env where
  preferredService := some ⟨0, 1⟩
  preferredOnHost := true
  preferredPaymentService := none
  resolveAid := fun _ => none
  isSecureNfcEnabled := false
  isDeviceLocked := false
  isScreenOn := true
  binds := fun _ => true
  unbinds := true
  alive := fun _ => true
  matching := fun _ => []
  resolvePollingLoopFilterConflict := fun _ => none
  shouldAutoTransact := fun _ _ => false
  autoDisableObserveMode := false
  isObserveModeEnabled := true
  arePackagesInForeground := false
  adapterOn := true

theorem preferredEnv_governed : preferredOnly.Governs preferredEnv := ⟨rfl, fun _ => rfl⟩

/-- A field that goes on and off twice, and a frame of type A before the service connects. -/
def onOffThenA : List (Env × Event) :=
  [(preferredEnv, .pollingLoop [⟨.on, []⟩, ⟨.on, []⟩, ⟨.off, []⟩, ⟨.off, []⟩]),
   (preferredEnv, .pollingLoop [⟨.a, [0x26]⟩])]

theorem frame_lost :
    (∀ e ∈ onOffThenA, Governed preferredOnly e) ∧
    ∃ final, run step (returnToIdleState init) onOffThenA = some final ∧
      sentFrames final.trace = [] ∧
      final.pollingFramesToSend = some [(1, [⟨.on, []⟩, ⟨.on, []⟩, ⟨.off, []⟩, ⟨.off, []⟩])] ∧
      final.pendingPollingLoopFrames = none ∧ final.unprocessedPollingFrames = some [] ∧
      ¬ ∃ p, Placed preferredOnly init (arrivals onOffThenA) final p := by
  refine ⟨?_, _, rfl, by decide, by decide, by decide, by decide, ?_⟩
  · intro e he
    rcases List.mem_cons.mp he with rfl | he
    · exact preferredEnv_governed
    · rw [List.mem_singleton.mp he]
      exact preferredEnv_governed
  · intro ⟨p, hp⟩
    have hcount := hp.once.length_eq
    obtain ⟨since, hsince, hdelivered⟩ := hp.delivered
    obtain rfl : since = [] := hsince.symm
    have hnone := List.forall₂_nil_right_iff.mp hdelivered
    have hpending := List.forall₂_nil_right_iff.mp hp.pending
    have hunprocessed := List.forall₂_nil_right_iff.mp hp.unprocessed
    obtain ⟨entry, rest, hentry, hrest, hsame⟩ := List.forall₂_cons_right_iff.mp hp.toSend
    have hlength := hentry.2.length_eq
    rw [hnone, hpending, hunprocessed, hsame, List.forall₂_nil_right_iff.mp hrest] at hcount
    simp [hlength] at hcount
    revert hcount
    decide

/-- A frame for the preferred service waits for its connection, the next one is kept
unprocessed, and both are handled when it connects. -/
def frameThenConnected : List (Env × Event) :=
  [(preferredEnv, .pollingLoop [⟨.f, [0x00]⟩, ⟨.a, [0x26]⟩]),
   (preferredEnv, .connected ⟨⟨0, 1⟩, 0⟩)]

theorem frames_kept_once_connected :
    ∃ final p, run step (returnToIdleState init) frameThenConnected = some final ∧
      Placed preferredOnly init (arrivals frameThenConnected) final p := by
  apply frames_kept_once
  refine ⟨⟨preferredEnv_governed, ?_⟩, ?_⟩
  · intro hover
    rcases hover with hover | ⟨-, hover⟩ <;> exact absurd hover (by decide)
  · intro next hnext
    obtain rfl := Option.some.inj hnext
    refine ⟨⟨preferredEnv_governed, ?_⟩, fun _ _ => trivial⟩
    intro _ hover
    rcases hover with hover | ⟨-, hover⟩ <;> exact absurd hover (by decide)

end NfcStack.CardEmulation.Hce
