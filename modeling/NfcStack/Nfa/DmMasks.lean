import Mathlib

/- The masks of RF discovery: what `nfa_dm_start_rf_discover` makes of the entries that the
   modules have registered (`nfa_dm_add_rf_discover`, `nfa_dm_delete_rf_discover`).

   The loop carries three masks from entry to entry: the mask of the discovery, and the poll
   and the listen mask of the entry, which a free entry takes over from the one before it.

   What is proved, for a table in which the free entries have nothing to add:
     1. `collect_used`: the free entries make no difference.
     2. `follows_collect`: the mask is the union of what was selected, less ISO-DEP on NFC-A where
        a Type 1 or Type 2 listener takes it.
     3. `masks_of_used`: both, for the table that any calls leave; `masks_without_delete`: for
        calls that delete none. -/
namespace NfcStack.Nfa.DiscMasks

/-! ## The code -/

abbrev DiscMask := BitVec 32

def maskPoll : DiscMask := 0x0000FFFF
def maskLaT1t : DiscMask := 0x00010000
def maskLaT2t : DiscMask := 0x00020000
def maskLaIsoDep : DiscMask := 0x00040000
def maskLbIsoDep : DiscMask := 0x00100000
def maskLfT3t : DiscMask := 0x00200000
def maskLBPrime : DiscMask := 0x02000000

/-- `NFA_DM_DISC_MASK_LA_T1T | NFA_DM_DISC_MASK_LA_T2T`. -/
def maskLaType12 : DiscMask := maskLaT1t ||| maskLaT2t

/-- All that can be listened to on NFC-A. -/
def maskLa : DiscMask := maskLaT1t ||| maskLaT2t ||| maskLaIsoDep

def discNumEntries : Nat := 8
def discFlagsNotify : UInt16 := 0x0010
def handleInvalid : UInt16 := 0xFFFF

/-- `tNFA_DM_DISC_ENTRY`, with a number for the callback. -/
structure DiscEntry where
  inUse : Bool := false
  discCback : Option Nat := none
  discFlags : UInt16 := 0
  hostId : UInt8 := 0
  requestedDiscMask : DiscMask := 0
  selectedDiscMask : DiscMask := 0
  deriving DecidableEq, Repr

/-- `listen_RT`: the hosts that own the technologies. -/
structure ListenRt where
  nfcA : UInt8
  nfcB : UInt8
  nfcF : UInt8
  nfcBp : UInt8

structure Pass where
  disc : DiscMask
  poll : DiscMask
  listen : DiscMask
  deriving DecidableEq, Repr

section Loop
variable (rt : ListenRt)

def pollMask (s : Pass) (e : DiscEntry) : DiscMask :=
  if e.inUse then e.requestedDiscMask &&& maskPoll &&& ~~~(s.disc &&& maskPoll) else s.poll

/-- `listen_mask` before what others listen to is cleared. -/
def listenMask (s : Pass) (e : DiscEntry) : DiscMask :=
  -- the `else` of the source belongs to the test of `in_use`, not to that of the host
  let nfcA :=
    if e.inUse then if e.hostId = rt.nfcA then e.requestedDiscMask &&& maskLa else 0
    else s.listen ||| (e.requestedDiscMask &&& maskLaIsoDep)
  let nfcF := nfcA ||| (e.requestedDiscMask &&& maskLbIsoDep) ||| (e.requestedDiscMask &&& maskLfT3t)
  if e.hostId = rt.nfcBp then nfcF ||| (e.requestedDiscMask &&& maskLBPrime) else nfcF

/-- Another module is listening T1T or T2T. -/
def clearTaken (disc listen : DiscMask) : DiscMask :=
  if disc &&& maskLaType12 ≠ 0 then listen &&& ~~~maskLa else listen

/-- T1T and T2T have priority on NFC-A. -/
def giveWay (disc listen : DiscMask) : DiscMask :=
  if disc &&& maskLaIsoDep ≠ 0 ∧ listen &&& maskLaType12 ≠ 0 then disc &&& ~~~maskLaIsoDep else disc

def entryPass (s : Pass) (e : DiscEntry) : Pass × DiscEntry :=
  let poll := pollMask s e
  let listen := clearTaken s.disc (listenMask rt s e)
  let selected := poll ||| listen
  (⟨giveWay s.disc listen ||| selected, poll, listen⟩, { e with selectedDiscMask := selected })

def collect : Pass → List DiscEntry → Pass × List DiscEntry
  | s, [] => (s, [])
  | s, e :: es =>
    let (s', e') := entryPass rt s e
    let (last, es') := collect s' es
    (last, e' :: es')

end Loop

structure DiscCb where
  entry : List DiscEntry
  size : entry.length = discNumEntries

theorem length_collect (rt : ListenRt) (s : Pass) (es : List DiscEntry) : (collect rt s es).2.length = es.length := by
  induction es generalizing s with
  | nil => rfl
  | cons e es ih => simp [collect, ih]

/-- The entries as they are left, and `dm_disc_mask` of `nfa_dm_start_rf_discover`, when nobody has exclusive control.
`poll_mask` and `listen_mask` have no values before the loop, which may be any. -/
def startRfDiscover (cb : DiscCb) (rt : ListenRt) (poll listen : DiscMask) : DiscMask × DiscCb :=
  let r := collect rt ⟨0, poll, listen⟩ cb.entry
  (r.1.disc, ⟨r.2, (length_collect rt _ _).trans cb.size⟩)

/-- The loop of `nfa_dm_add_rf_discover`: the entries before the one that is taken, that one, and those behind it. -/
def addLoop (discMask : DiscMask) (hostId : UInt8) (cback : Option Nat) : List DiscEntry → Option (List DiscEntry × Nat)
  | [] => none
  | e :: es =>
    if ¬ e.inUse then
      some ({ e with
        inUse := true, requestedDiscMask := discMask, hostId := hostId, discCback := cback,
        discFlags := discFlagsNotify } :: es, 0)
    else if hostId &&& 0x80 = 0x80 ∧ e.hostId = hostId then
      some ({ e with requestedDiscMask := discMask, discCback := cback, discFlags := discFlagsNotify } :: es, 0)
    else (addLoop discMask hostId cback es).map fun r => (e :: r.1, r.2 + 1)

theorem length_addLoop {discMask : DiscMask} {hostId : UInt8} {cback : Option Nat} {es : List DiscEntry}
    {r : List DiscEntry × Nat} (h : addLoop discMask hostId cback es = some r) : r.1.length = es.length := by
  induction es generalizing r with
  | nil => cases h
  | cons e es ih =>
    rw [addLoop] at h
    split at h
    · obtain rfl := Option.some.inj h
      rfl
    · split at h
      · obtain rfl := Option.some.inj h
        rfl
      · obtain ⟨q, hq, rfl⟩ := Option.map_eq_some_iff.mp h
        simp [ih hq]

/-- `nfa_dm_add_rf_discover`. -/
def addRfDiscover (cb : DiscCb) (discMask : DiscMask) (hostId : UInt8) (cback : Option Nat) : DiscCb × UInt16 :=
  match h : addLoop discMask hostId cback cb.entry with
  | none => (cb, handleInvalid)
  | some r => (⟨r.1, (length_addLoop h).trans cb.size⟩, UInt16.ofNat r.2)

/-- `nfa_dm_delete_rf_discover`. -/
def deleteRfDiscover (cb : DiscCb) (handle : UInt16) : DiscCb :=
  if handle.toNat < discNumEntries then
    ⟨cb.entry.modify handle.toNat fun e => { e with inUse := false }, by rw [List.length_modify, cb.size]⟩
  else cb

inductive DiscCall where
  | add (discMask : DiscMask) (hostId : UInt8) (cback : Option Nat)
  | delete (handle : UInt16)
  | start (rt : ListenRt) (poll listen : DiscMask)

def DiscCb.call (cb : DiscCb) : DiscCall → DiscCb
  | .add discMask hostId cback => (addRfDiscover cb discMask hostId cback).1
  | .delete handle => deleteRfDiscover cb handle
  | .start rt poll listen => (startRfDiscover cb rt poll listen).2

/-- The table as the control block is cleared. -/
def DiscCb.init : DiscCb := ⟨List.replicate discNumEntries {}, List.length_replicate⟩

def DiscCb.run (calls : List DiscCall) : DiscCb := calls.foldl DiscCb.call DiscCb.init

/-! ## Masks -/

section Bits
variable {a b c t : DiscMask}

theorem and_eq_zero_of_or (h : a ||| b = b) (hb : b &&& t = 0) : a &&& t = 0 := by
  ext i hi
  have h1 := congrArg (·[i]) h
  have h2 := congrArg (·[i]) hb
  simp at h1 h2 ⊢
  grind

theorem or_or_of_or (ha : a ||| b = b) (hc : c ||| b = b) : b ||| (a ||| c) = b := by
  rw [BitVec.or_comm, BitVec.or_assoc, hc, ha]

theorem and_or_of_or (h : a ||| b = b) : a &&& t ||| b = b := by
  ext i hi
  have h1 := congrArg (·[i]) h
  simp at h1 ⊢
  grind

-- the lemma of the library is about `0#32`, which simp does not find in the numeral
theorem or_eq_zero : a ||| b = 0 ↔ a = 0 ∧ b = 0 := BitVec.or_eq_zero_iff

end Bits

/-! ## One entry -/

/-- What a free entry still requests and the loop takes up. -/
def leftover (rt : ListenRt) (e : DiscEntry) : DiscMask :=
  e.requestedDiscMask &&&
    (maskLaIsoDep ||| maskLbIsoDep ||| maskLfT3t ||| if e.hostId = rt.nfcBp then maskLBPrime else 0)

/-- The masks of the last entry are in the mask of the discovery. -/
structure Absorbed (s : Pass) : Prop where
  poll : s.poll ||| s.disc = s.disc
  listen : s.listen ||| s.disc = s.disc

section Entry
variable {rt : ListenRt} {s : Pass} {e : DiscEntry}

theorem listenMask_free (hfree : e.inUse = false) (h : leftover rt e = 0) : listenMask rt s e = s.listen := by
  unfold leftover at h
  simp only [BitVec.and_or_distrib_left, or_eq_zero] at h
  obtain ⟨⟨⟨hiso, hlb⟩, hlf⟩, hbp⟩ := h
  unfold listenMask
  simp only [hfree, Bool.false_eq_true, if_false, hiso, hlb, hlf]
  split
  case isTrue hhost =>
    rw [if_pos hhost] at hbp
    simp [hbp]
  case isFalse => simp

theorem clearTaken_absorbed {disc listen : DiscMask} (h : listen ||| disc = disc) :
    clearTaken disc listen ||| disc = disc := by
  unfold clearTaken
  split
  · exact and_or_of_or h
  · exact h

theorem giveWay_absorbed {disc listen : DiscMask} (h : listen ||| disc = disc) :
    giveWay disc (clearTaken disc listen) = disc := by
  have hnone : clearTaken disc listen &&& maskLaType12 = 0 := by
    unfold clearTaken
    split
    case isTrue =>
      rw [BitVec.and_assoc, show ~~~maskLa &&& maskLaType12 = 0 by decide]
      simp
    case isFalse hdisc => exact and_eq_zero_of_or h (not_not.mp hdisc)
  rw [giveWay, if_neg (fun hc => hc.2 hnone)]

theorem entryPass_free (hfree : e.inUse = false) (h : leftover rt e = 0) (hs : Absorbed s) :
    (entryPass rt s e).1.disc = s.disc ∧ Absorbed (entryPass rt s e).1 := by
  have hpoll : pollMask s e = s.poll := by simp [pollMask, hfree]
  have hdisc : (entryPass rt s e).1.disc = s.disc := by
    simp only [entryPass, listenMask_free hfree h, hpoll, giveWay_absorbed hs.listen]
    exact or_or_of_or hs.poll (clearTaken_absorbed hs.listen)
  refine ⟨hdisc, ?_, ?_⟩
  · rw [hdisc]
    simpa only [entryPass, hpoll] using hs.poll
  · rw [hdisc]
    simpa only [entryPass, listenMask_free hfree h] using clearTaken_absorbed hs.listen

theorem entryPass_used (hused : e.inUse = true) (s' : Pass) (hs : s'.disc = s.disc) :
    entryPass rt s' e = entryPass rt s e := by
  have hpoll : pollMask s' e = pollMask s e := by simp [pollMask, hused, hs]
  have hlisten : listenMask rt s' e = listenMask rt s e := by simp [listenMask, hused]
  simp only [entryPass, hpoll, hlisten, hs]

theorem absorbed_entryPass : Absorbed (entryPass rt s e).1 := by
  constructor
  · ext i hi
    simp [entryPass]
    grind
  · ext i hi
    simp [entryPass]
    grind

@[simp] theorem entryPass_inUse : (entryPass rt s e).2.inUse = e.inUse := rfl
@[simp] theorem entryPass_requested : (entryPass rt s e).2.requestedDiscMask = e.requestedDiscMask := rfl
@[simp] theorem entryPass_hostId : (entryPass rt s e).2.hostId = e.hostId := rfl

end Entry

/-! ## Free entries -/

/-- Every free entry has one in use before it and nothing left over. -/
def Settled (rt : ListenRt) : Bool → List DiscEntry → Prop
  | _, [] => True
  | seen, e :: es =>
    if e.inUse then Settled rt true es else seen = true ∧ leftover rt e = 0 ∧ Settled rt seen es

instance decidableSettled (rt : ListenRt) : ∀ seen es, Decidable (Settled rt seen es)
  | _, [] => isTrue trivial
  | seen, e :: es =>
    have := decidableSettled rt true es
    have := decidableSettled rt seen es
    inferInstanceAs
      (Decidable (if e.inUse then Settled rt true es else seen = true ∧ leftover rt e = 0 ∧ Settled rt seen es))

section Free
variable {rt : ListenRt}

/-- The free entries make no difference, to the mask and to what is selected for the others. -/
theorem collect_used {seen : Bool} {es : List DiscEntry} (h : Settled rt seen es) {s s' : Pass}
    (hs : seen = true → Absorbed s) (hsame : s'.disc = s.disc) :
    (collect rt s' (es.filter (·.inUse))).1.disc = (collect rt s es).1.disc ∧
      (collect rt s' (es.filter (·.inUse))).2 = (collect rt s es).2.filter (·.inUse) := by
  induction es generalizing seen s s' with
  | nil => exact ⟨hsame, rfl⟩
  | cons e es ih =>
    rw [Settled] at h
    cases hused : e.inUse with
    | true =>
      rw [hused, if_pos rfl] at h
      have hnext := @ih _ h (entryPass rt s e).1 (entryPass rt s e).1 (fun _ => absorbed_entryPass) rfl
      rw [List.filter_cons_of_pos (by simpa using hused)]
      simp only [collect, entryPass_used hused s' hsame]
      rw [List.filter_cons_of_pos (by simpa using hused)]
      exact ⟨hnext.1, congrArg _ hnext.2⟩
    | false =>
      rw [hused, if_neg (by simp)] at h
      obtain ⟨rfl, hleft, hrest⟩ := h
      obtain ⟨hdisc, habs⟩ := entryPass_free hused hleft (hs rfl)
      have hnext := ih hrest (fun _ => habs) (hsame.trans hdisc.symm)
      rw [List.filter_cons_of_neg (by simpa using hused)]
      simp only [collect]
      rw [List.filter_cons_of_neg (by simpa using hused)]
      exact hnext

end Free

/-! ## Entries in use -/

def sumMasks : List DiscMask → DiscMask
  | [] => 0
  | m :: ms => m ||| sumMasks ms

theorem sumMasks_append (l m : List DiscMask) : sumMasks (l ++ m) = sumMasks l ||| sumMasks m := by
  induction l with
  | nil => simp [sumMasks]
  | cons a l ih => rw [List.cons_append, sumMasks, sumMasks, ih, BitVec.or_assoc]

theorem sumMasks_and (l : List DiscMask) (t : DiscMask) : sumMasks l &&& t = 0 ↔ ∀ m ∈ l, m &&& t = 0 := by
  induction l with
  | nil => simp [sumMasks]
  | cons a l ih => rw [sumMasks, BitVec.and_or_distrib_right, or_eq_zero, ih, List.forall_mem_cons]

/-- A Type 1 or Type 2 listener takes NFC-A. -/
def takesNfcA (m : DiscMask) : Bool := m &&& maskLaType12 != 0

/-- The union of what is selected, less ISO-DEP on NFC-A if the listener that takes NFC-A does without. -/
def agreed (selected : List DiscMask) : DiscMask :=
  match selected.find? takesNfcA with
  | some m => if m &&& maskLaIsoDep = 0 then sumMasks selected &&& ~~~maskLaIsoDep else sumMasks selected
  | none => sumMasks selected

section Agreed
variable {l : List DiscMask} {m : DiscMask}

theorem takesNfcA_eq_false : takesNfcA m = false ↔ m &&& maskLaType12 = 0 := by simp [takesNfcA]

theorem agreed_and {t : DiscMask} (ht : maskLaIsoDep &&& t = 0) : agreed l &&& t = sumMasks l &&& t := by
  have hoff : ∀ u : DiscMask, u &&& ~~~maskLaIsoDep &&& t = u &&& t := by
    intro u
    ext i hi
    have h1 := congrArg (·[i]) ht
    simp at h1 ⊢
    grind
  unfold agreed
  split
  · split
    · exact hoff _
    · rfl
  · rfl

theorem agreed_and_type12 : agreed l &&& maskLaType12 = 0 ↔ l.find? takesNfcA = none := by
  rw [agreed_and (by decide), sumMasks_and, List.find?_eq_none]
  simp only [Bool.not_eq_true, takesNfcA_eq_false]

theorem and_not_of_none (h : m &&& maskLaIsoDep = 0) : m &&& ~~~maskLaIsoDep = m := by
  ext i hi
  have h1 := congrArg (·[i]) h
  simp at h1 ⊢
  grind

theorem and_isoDep_of_some (h : m &&& maskLaIsoDep ≠ 0) : m &&& maskLaIsoDep = maskLaIsoDep := by
  have hbit : maskLaIsoDep = BitVec.twoPow 32 18 := by decide
  rw [hbit, BitVec.and_twoPow] at h ⊢
  split
  · rfl
  · simp_all

theorem and_not_or_of_some {a : DiscMask} (h : m &&& maskLaIsoDep ≠ 0) : a &&& ~~~maskLaIsoDep ||| m = a ||| m := by
  have hsome := and_isoDep_of_some h
  ext i hi
  have h1 := congrArg (·[i]) hsome
  simp at h1 ⊢
  grind

theorem agreed_taken (htaken : agreed l &&& maskLaType12 ≠ 0) (hm : m &&& maskLa = 0) :
    agreed (l ++ [m]) = agreed l ||| m := by
  have hiso : m &&& maskLaIsoDep = 0 := by
    rw [show maskLaIsoDep = maskLa &&& maskLaIsoDep by decide, ← BitVec.and_assoc, hm]
    simp
  obtain ⟨t, ht⟩ := Option.ne_none_iff_exists'.mp (mt agreed_and_type12.mpr htaken)
  have hsum : sumMasks (l ++ [m]) = sumMasks l ||| m := by simp [sumMasks_append, sumMasks]
  simp only [agreed, List.find?_append, ht, Option.some_or, hsum]
  split
  · rw [BitVec.and_or_distrib_right, and_not_of_none hiso]
  · rfl

/-- Until then, the listener that takes it makes ISO-DEP give way, unless it listens to it. -/
theorem agreed_free (hfree : agreed l &&& maskLaType12 = 0) :
    agreed (l ++ [m]) =
      (if agreed l &&& maskLaIsoDep ≠ 0 ∧ m &&& maskLaType12 ≠ 0 then agreed l &&& ~~~maskLaIsoDep else agreed l) ||| m := by
  have hnone := agreed_and_type12.mp hfree
  have hsum : sumMasks (l ++ [m]) = sumMasks l ||| m := by simp [sumMasks_append, sumMasks]
  have hall : agreed l = sumMasks l := by simp only [agreed, hnone]
  rw [hall]
  by_cases htakes : m &&& maskLaType12 = 0
  · have hlast : takesNfcA m = false := takesNfcA_eq_false.mpr htakes
    simp [agreed, List.find?_append, hnone, hlast, hsum, htakes]
  · have hlast : takesNfcA m = true := by simpa [takesNfcA] using htakes
    simp only [agreed, List.find?_append, hnone, Option.none_or, List.find?_cons_of_pos hlast, hsum, ne_eq, htakes,
      not_false_eq_true, and_true]
    by_cases hm : m &&& maskLaIsoDep = 0
    · have hoff : (sumMasks l ||| m) &&& ~~~maskLaIsoDep = sumMasks l &&& ~~~maskLaIsoDep ||| m := by
        rw [BitVec.and_or_distrib_right, and_not_of_none hm]
      rw [if_pos hm, hoff]
      split
      · rfl
      case isFalse hl => rw [and_not_of_none (not_not.mp hl)]
    · rw [if_neg hm]
      split
      case isTrue => rw [and_not_or_of_some hm]
      · rfl

end Agreed

section Used
variable {rt : ListenRt} {s : Pass} {e : DiscEntry}

theorem pollMask_and {t : DiscMask} (hused : e.inUse = true) (ht : maskPoll &&& t = 0) : pollMask s e &&& t = 0 := by
  unfold pollMask
  rw [if_pos hused]
  ext i hi
  have h1 := congrArg (·[i]) ht
  simp at h1 ⊢
  grind

theorem listenMask_and_poll (hused : e.inUse = true) : listenMask rt s e &&& maskPoll = 0 := by
  have hmask : ∀ u : DiscMask, u &&& maskPoll = 0 → e.requestedDiscMask &&& u &&& maskPoll = 0 := by
    intro u hu
    rw [BitVec.and_assoc, hu]
    simp
  have hla : (if e.hostId = rt.nfcA then e.requestedDiscMask &&& maskLa else 0) &&& maskPoll = 0 := by
    split
    · exact hmask _ (by decide)
    · decide
  unfold listenMask
  simp only [hused, if_true]
  split
  all_goals
    simp only [BitVec.and_or_distrib_right, or_eq_zero, hla, true_and]
    simp only [hmask _ (show maskLbIsoDep &&& maskPoll = 0 by decide), hmask _ (show maskLfT3t &&& maskPoll = 0 by decide),
      hmask _ (show maskLBPrime &&& maskPoll = 0 by decide), and_self]

theorem clearTaken_and {disc listen t : DiscMask} (h : listen &&& t = 0) : clearTaken disc listen &&& t = 0 := by
  unfold clearTaken
  split
  · ext i hi
    have h1 := congrArg (·[i]) h
    simp at h1 ⊢
    grind
  · exact h

theorem selected_and_poll (hused : e.inUse = true) :
    (entryPass rt s e).2.selectedDiscMask &&& maskPoll =
      e.requestedDiscMask &&& maskPoll &&& ~~~(s.disc &&& maskPoll) := by
  have hlisten : clearTaken s.disc (listenMask rt s e) &&& maskPoll = 0 := clearTaken_and (listenMask_and_poll hused)
  show (pollMask s e ||| clearTaken s.disc (listenMask rt s e)) &&& maskPoll = _
  rw [BitVec.and_or_distrib_right, hlisten, pollMask, if_pos hused]
  ext i hi
  simp
  grind

theorem disc_entryPass (hused : e.inUse = true) :
    (entryPass rt s e).1.disc =
      (if s.disc &&& maskLaType12 = 0 ∧ s.disc &&& maskLaIsoDep ≠ 0 ∧
          (entryPass rt s e).2.selectedDiscMask &&& maskLaType12 ≠ 0 then s.disc &&& ~~~maskLaIsoDep else s.disc) |||
        (entryPass rt s e).2.selectedDiscMask := by
  have hpoll : pollMask s e &&& maskLaType12 = 0 := pollMask_and hused (by decide)
  have hsel : (entryPass rt s e).2.selectedDiscMask &&& maskLaType12 =
      clearTaken s.disc (listenMask rt s e) &&& maskLaType12 := by
    show (pollMask s e ||| clearTaken s.disc (listenMask rt s e)) &&& maskLaType12 = _
    rw [BitVec.and_or_distrib_right, hpoll]
    simp
  show giveWay s.disc (clearTaken s.disc (listenMask rt s e)) ||| _ = _
  rw [hsel, giveWay]
  by_cases hdisc : s.disc &&& maskLaType12 = 0
  · simp only [hdisc, true_and]
    rfl
  · have hnone : clearTaken s.disc (listenMask rt s e) &&& maskLaType12 = 0 := by
      rw [clearTaken, if_pos hdisc, BitVec.and_assoc, show ~~~maskLa &&& maskLaType12 = 0 by decide]
      simp
    rw [if_neg (fun h => h.2 hnone), if_neg (fun h => hdisc h.1)]
    rfl

theorem selected_and_la (hused : e.inUse = true) (htaken : s.disc &&& maskLaType12 ≠ 0) :
    (entryPass rt s e).2.selectedDiscMask &&& maskLa = 0 := by
  show (pollMask s e ||| clearTaken s.disc (listenMask rt s e)) &&& maskLa = 0
  rw [BitVec.and_or_distrib_right, pollMask_and hused (by decide), clearTaken, if_pos htaken, BitVec.and_assoc,
    show ~~~maskLa &&& maskLa = 0 by decide]
  simp

theorem selected_and_isoDep (hused : e.inUse = true) (hhost : e.hostId = rt.nfcA)
    (hreq : e.requestedDiscMask &&& maskLaIsoDep ≠ 0) (hfree : s.disc &&& maskLaType12 = 0) :
    (entryPass rt s e).2.selectedDiscMask &&& maskLaIsoDep ≠ 0 := by
  intro hnone
  have hlisten : listenMask rt s e &&& maskLaIsoDep = 0 := by
    have : (pollMask s e ||| clearTaken s.disc (listenMask rt s e)) &&& maskLaIsoDep = 0 := hnone
    rw [BitVec.and_or_distrib_right, or_eq_zero, clearTaken, if_neg (not_not.mpr hfree)] at this
    exact this.2
  have hsub : maskLa &&& maskLaIsoDep = maskLaIsoDep := by decide
  unfold listenMask at hlisten
  simp only [hused, if_true, if_pos hhost] at hlisten
  apply hreq
  split at hlisten
  · simp only [BitVec.and_or_distrib_right, or_eq_zero, BitVec.and_assoc, hsub] at hlisten
    exact hlisten.1.1.1
  · simp only [BitVec.and_or_distrib_right, or_eq_zero, BitVec.and_assoc, hsub] at hlisten
    exact hlisten.1.1

end Used

/-- What the masks are behind entries in use that selected and requested so. -/
structure Follows (disc : DiscMask) (selected requested : List DiscMask) : Prop where
  sum : disc = agreed selected
  poll : disc &&& maskPoll = sumMasks requested &&& maskPoll

section Collect
variable {rt : ListenRt}

theorem follows_entryPass {s : Pass} {e : DiscEntry} {selected requested : List DiscMask}
    (h : Follows s.disc selected requested) (hused : e.inUse = true) :
    Follows (entryPass rt s e).1.disc (selected ++ [(entryPass rt s e).2.selectedDiscMask])
      (requested ++ [e.requestedDiscMask]) := by
  have hsel := @selected_and_poll rt s e hused
  have hdisc := @disc_entryPass rt s e hused
  constructor
  · rw [hdisc, h.sum]
    by_cases htaken : agreed selected &&& maskLaType12 = 0
    · rw [agreed_free htaken]
      simp only [htaken, true_and]
    · have hla := @selected_and_la rt s e hused (by rwa [h.sum])
      rw [agreed_taken htaken hla, if_neg (fun hc => htaken hc.1)]
  · have hpoll : ∀ c : Prop, [Decidable c] → (if c then s.disc &&& ~~~maskLaIsoDep else s.disc) &&& maskPoll =
        s.disc &&& maskPoll := by
      intro c _
      split
      · rw [BitVec.and_assoc, show ~~~maskLaIsoDep &&& maskPoll = maskPoll by decide]
      · rfl
    rw [hdisc, BitVec.and_or_distrib_right, hpoll, hsel, h.poll, sumMasks_append, BitVec.and_or_distrib_right]
    ext i hi
    simp [sumMasks]
    grind

theorem follows_collect {es : List DiscEntry} (hused : ∀ e ∈ es, e.inUse = true) {s : Pass}
    {selected requested : List DiscMask} (h : Follows s.disc selected requested) :
    Follows (collect rt s es).1.disc (selected ++ (collect rt s es).2.map (·.selectedDiscMask))
      (requested ++ (collect rt s es).2.map (·.requestedDiscMask)) := by
  induction es generalizing s selected requested with
  | nil => simpa [collect] using h
  | cons e es ih =>
    have hstep := @follows_entryPass rt _ _ _ _ h (hused e List.mem_cons_self)
    have := ih (fun x hx => hused x (List.mem_cons_of_mem _ hx)) hstep
    simpa [collect] using this

theorem collect_split {es : List DiscEntry} {s : Pass} {front back : List DiscEntry} {e : DiscEntry}
    (h : (collect rt s es).2 = front ++ e :: back) :
    ∃ front' e' back', es = front' ++ e' :: back' ∧ (collect rt s front').2 = front ∧
      e = (entryPass rt (collect rt s front').1 e').2 := by
  induction es generalizing s front with
  | nil => simp [collect] at h
  | cons x es ih =>
    simp only [collect] at h
    cases front with
    | nil =>
      obtain ⟨rfl, -⟩ := List.cons.inj h
      exact ⟨[], x, es, rfl, rfl, rfl⟩
    | cons f front =>
      obtain ⟨rfl, hrest⟩ := List.cons.inj h
      obtain ⟨front', e', back', rfl, rfl, rfl⟩ := ih hrest
      exact ⟨x :: front', e', back', rfl, rfl, rfl⟩

end Collect

/-! ## Tables that calls leave -/

theorem collect_frame (rt : ListenRt) (s : Pass) (es : List DiscEntry) :
    (collect rt s es).2.map (fun e => { e with selectedDiscMask := 0 }) =
      es.map fun e => { e with selectedDiscMask := 0 } := by
  induction es generalizing s with
  | nil => rfl
  | cons e es ih =>
    simp only [collect, List.map_cons, ih]
    rfl

/-- The entries in use stand before free ones that request nothing. -/
def Packed (es : List DiscEntry) : Prop :=
  ∃ used free, es = used ++ free ∧ (∀ e ∈ used, e.inUse = true) ∧
    ∀ e ∈ free, e.inUse = false ∧ e.requestedDiscMask = 0

theorem packed_addLoop {es : List DiscEntry} (h : Packed es) {discMask : DiscMask} {hostId : UInt8} {cback : Option Nat}
    {r : List DiscEntry × Nat} (hr : addLoop discMask hostId cback es = some r) : Packed r.1 := by
  obtain ⟨used, free, rfl, hused, hfree⟩ := h
  induction used generalizing r with
  | nil =>
    cases free with
    | nil => cases hr
    | cons e free =>
      obtain ⟨hin, -⟩ := hfree e List.mem_cons_self
      simp only [List.nil_append, addLoop, hin, Bool.false_eq_true, not_false_eq_true, if_true] at hr
      obtain rfl := Option.some.inj hr
      exact ⟨[_], free, rfl, by simp, fun x hx => hfree x (List.mem_cons_of_mem _ hx)⟩
  | cons e used ih =>
    have hin := hused e List.mem_cons_self
    have hrest : ∀ x ∈ used, x.inUse = true := fun x hx => hused x (List.mem_cons_of_mem _ hx)
    simp only [List.cons_append, addLoop, hin, not_true_eq_false, if_false] at hr
    split at hr
    · obtain rfl := Option.some.inj hr
      refine ⟨_ :: used, free, rfl, ?_, hfree⟩
      intro x hx
      rcases List.mem_cons.mp hx with rfl | hx
      · rfl
      · exact hrest x hx
    · obtain ⟨q, hq, rfl⟩ := Option.map_eq_some_iff.mp hr
      obtain ⟨used', free', hq', hused', hfree'⟩ := ih hq hrest
      refine ⟨e :: used', free', congrArg (e :: ·) hq', ?_, hfree'⟩
      intro x hx
      rcases List.mem_cons.mp hx with rfl | hx
      · exact hin
      · exact hused' x hx

theorem packed_collect {es : List DiscEntry} (h : Packed es) (rt : ListenRt) (s : Pass) :
    Packed (collect rt s es).2 := by
  obtain ⟨used, free, rfl, hused, hfree⟩ := h
  induction used generalizing s with
  | nil =>
    refine ⟨[], (collect rt s free).2, rfl, by simp, fun e he => ?_⟩
    have hmem := List.mem_map_of_mem (f := fun e : DiscEntry => { e with selectedDiscMask := 0 }) he
    rw [collect_frame] at hmem
    obtain ⟨x, hx, hsame⟩ := List.mem_map.mp hmem
    obtain ⟨hin, hreq⟩ := hfree x hx
    injection hsame with h1 _ _ _ h5 _
    exact ⟨h1 ▸ hin, h5 ▸ hreq⟩
  | cons e used ih =>
    have hrest := ih (entryPass rt s e).1 fun x hx => hused x (List.mem_cons_of_mem _ hx)
    obtain ⟨used', free', hshape, hused', hfree'⟩ := hrest
    refine ⟨(entryPass rt s e).2 :: used', free', congrArg ((entryPass rt s e).2 :: ·) hshape, ?_, hfree'⟩
    intro x hx
    rcases List.mem_cons.mp hx with rfl | hx
    · exact hused e List.mem_cons_self
    · exact hused' x hx

variable {calls : List DiscCall}

theorem packed_run (hcalls : ∀ handle, .delete handle ∉ calls) :
    Packed (DiscCb.run calls).entry := by
  have hstep : ∀ cb : DiscCb, ∀ c ∈ calls, Packed cb.entry → Packed (cb.call c).entry := by
    intro cb c hc hcb
    cases c with
    | delete handle => exact absurd hc (hcalls handle)
    | start rt poll listen => exact packed_collect hcb rt _
    | add discMask hostId cback =>
      unfold DiscCb.call addRfDiscover
      dsimp only
      split
      · exact hcb
      case h_2 hr => exact packed_addLoop hcb hr
  have hrun : ∀ (l : List DiscCall) (cb : DiscCb), (∀ c ∈ l, c ∈ calls) → Packed cb.entry →
      Packed (l.foldl DiscCb.call cb).entry := by
    intro l
    induction l with
    | nil => exact fun cb _ hcb => hcb
    | cons c l ih =>
      intro cb hl hcb
      exact ih (cb.call c) (fun x hx => hl x (List.mem_cons_of_mem _ hx)) (hstep cb c (hl c List.mem_cons_self) hcb)
  apply hrun calls DiscCb.init (fun c hc => hc)
  refine ⟨[], List.replicate discNumEntries {}, rfl, by simp, fun e he => ?_⟩
  obtain rfl := List.eq_of_mem_replicate he
  exact ⟨rfl, rfl⟩

/-- Without deletions the free entries have nothing to add, once a module has registered. -/
theorem settled_of_no_delete (hcalls : ∀ handle, .delete handle ∉ calls)
    (hany : ∃ e ∈ (DiscCb.run calls).entry, e.inUse = true) (rt : ListenRt) :
    Settled rt false (DiscCb.run calls).entry := by
  obtain ⟨used, free, hshape, hused, hfree⟩ := packed_run hcalls
  have htail : Settled rt true free := by
    clear hshape
    induction free with
    | nil => trivial
    | cons e free ih =>
      obtain ⟨hin, hreq⟩ := hfree e List.mem_cons_self
      rw [Settled, hin, if_neg (by simp)]
      exact ⟨rfl, by simp [leftover, hreq], ih fun x hx => hfree x (List.mem_cons_of_mem _ hx)⟩
  have hall : ∀ l : List DiscEntry, (∀ e ∈ l, e.inUse = true) → Settled rt true (l ++ free) := by
    intro l hl
    induction l with
    | nil => exact htail
    | cons e l ih =>
      rw [List.cons_append, Settled, hl e List.mem_cons_self, if_pos rfl]
      exact ih fun x hx => hl x (List.mem_cons_of_mem _ hx)
  rw [hshape] at hany ⊢
  cases used with
  | nil =>
    obtain ⟨e, he, hin⟩ := hany
    simp [(hfree e he).1] at hin
  | cons e used =>
    rw [List.cons_append, Settled, hused e List.mem_cons_self, if_pos rfl]
    exact hall used fun x hx => hused x (List.mem_cons_of_mem _ hx)

/-- The entries in use as `nfa_dm_start_rf_discover` leaves them. -/
def usedAfter (cb : DiscCb) (rt : ListenRt) (poll listen : DiscMask) : List DiscEntry :=
  (startRfDiscover cb rt poll listen).2.entry.filter (·.inUse)

/-- Without deletions, once a module has registered, neither the free entries nor the values that `poll_mask` and
`listen_mask` have before the loop make a difference, and the mask is the union of what is selected. -/
theorem masks_without_delete {calls : List DiscCall} (hcalls : ∀ handle, .delete handle ∉ calls)
    (hany : ∃ e ∈ (DiscCb.run calls).entry, e.inUse = true) (rt : ListenRt) (poll listen : DiscMask) :
    let used := collect rt ⟨0, 0, 0⟩ ((DiscCb.run calls).entry.filter (·.inUse))
    (startRfDiscover (DiscCb.run calls) rt poll listen).1 = used.1.disc ∧
      usedAfter (DiscCb.run calls) rt poll listen = used.2 ∧
      used.1.disc = agreed (used.2.map (·.selectedDiscMask)) := by
  have hall : ∀ e ∈ (DiscCb.run calls).entry.filter (·.inUse), e.inUse = true := fun e he => by
    simpa using (List.mem_filter.mp he).2
  obtain ⟨hdisc, hused⟩ := @collect_used rt _ _ (settled_of_no_delete hcalls hany rt) ⟨0, poll, listen⟩ ⟨0, 0, 0⟩
    (by simp) rfl
  have hfollows := @follows_collect rt _ hall ⟨0, 0, 0⟩ [] [] ⟨rfl, rfl⟩
  exact ⟨hdisc.symm, hused.symm, hfollows.sum⟩

theorem masks_without_delete_one :
    (startRfDiscover (DiscCb.run [.add 0x00040005 0x02 none]) ⟨0x02, 0, 0, 0⟩ 0xFFFFFFFF 0xFFFFFFFF).1 = 0x00040005 :=
  (masks_without_delete (by simp) (by decide) _ _ _).1

/-- Where the free entries have nothing to add: the mask of the discovery is the union of what the entries in use
select, less the ISO-DEP that a Type 1 or Type 2 listener on NFC-A makes give way; the other entries make no
difference; the poll bits of an entry are the requested ones that no earlier entry has requested; and the host of NFC-A
gets the ISO-DEP it requests unless such a listener takes NFC-A. -/
theorem masks_of_used (calls : List DiscCall) (rt : ListenRt) (poll listen : DiscMask)
    (h : Settled rt false (DiscCb.run calls).entry) :
    (startRfDiscover (DiscCb.run calls) rt poll listen).1 =
        agreed ((usedAfter (DiscCb.run calls) rt poll listen).map (·.selectedDiscMask)) ∧
      ((collect rt ⟨0, 0, 0⟩ ((DiscCb.run calls).entry.filter (·.inUse))).1.disc =
          (startRfDiscover (DiscCb.run calls) rt poll listen).1 ∧
        (collect rt ⟨0, 0, 0⟩ ((DiscCb.run calls).entry.filter (·.inUse))).2 =
          usedAfter (DiscCb.run calls) rt poll listen) ∧
      (∀ front e back, usedAfter (DiscCb.run calls) rt poll listen = front ++ e :: back →
        e.selectedDiscMask &&& maskPoll =
          e.requestedDiscMask &&& maskPoll &&& ~~~(sumMasks (front.map (·.requestedDiscMask)) &&& maskPoll)) ∧
      ∀ e ∈ usedAfter (DiscCb.run calls) rt poll listen, e.hostId = rt.nfcA →
        e.requestedDiscMask &&& maskLaIsoDep ≠ 0 →
        (∀ g ∈ usedAfter (DiscCb.run calls) rt poll listen, takesNfcA g.selectedDiscMask = false) →
          e.selectedDiscMask &&& maskLaIsoDep ≠ 0 ∧
            (startRfDiscover (DiscCb.run calls) rt poll listen).1 &&& maskLaIsoDep ≠ 0 := by
  set es := (DiscCb.run calls).entry with hes
  have hall : ∀ e ∈ es.filter (·.inUse), e.inUse = true := fun e he => by simpa using (List.mem_filter.mp he).2
  have hfree := @collect_used rt _ _ h ⟨0, poll, listen⟩ ⟨0, 0, 0⟩ (by simp) rfl
  have hused : usedAfter (DiscCb.run calls) rt poll listen = (collect rt ⟨0, 0, 0⟩ (es.filter (·.inUse))).2 :=
    hfree.2.symm
  have hdisc : (startRfDiscover (DiscCb.run calls) rt poll listen).1 =
      (collect rt ⟨0, 0, 0⟩ (es.filter (·.inUse))).1.disc := hfree.1.symm
  rw [hused, hdisc]
  have hstart : Follows (0 : DiscMask) [] [] := ⟨rfl, rfl⟩
  have hfollows := @follows_collect rt _ hall ⟨0, 0, 0⟩ _ _ hstart
  simp only [List.nil_append] at hfollows
  -- what an entry in use gets, from what stands before it
  have hat : ∀ front e back, (collect rt ⟨0, 0, 0⟩ (es.filter (·.inUse))).2 = front ++ e :: back →
      ∃ s e', e'.inUse = true ∧ e = (entryPass rt s e').2 ∧
        Follows s.disc (front.map (·.selectedDiscMask)) (front.map (·.requestedDiscMask)) := by
    intro front e back hsplit
    obtain ⟨front', e', back', heq, rfl, rfl⟩ := collect_split hsplit
    have hmem : ∀ x ∈ front' ++ e' :: back', x.inUse = true := heq ▸ hall
    refine ⟨_, e', hmem e' (by simp), rfl, ?_⟩
    have := @follows_collect rt _ (fun x hx => hmem x (List.mem_append_left _ hx)) ⟨0, 0, 0⟩ _ _ hstart
    simpa only [List.nil_append] using this
  refine ⟨hfollows.sum, ⟨rfl, rfl⟩, ?_, ?_⟩
  · intro front e back hsplit
    obtain ⟨s, e', hin, rfl, hbefore⟩ := hat front e back hsplit
    rw [selected_and_poll hin, hbefore.poll, entryPass_requested]
  · intro e he hhost hreq hnone
    obtain ⟨front, back, hsplit⟩ := List.append_of_mem he
    obtain ⟨s, e', hin, rfl, hbefore⟩ := hat front e back hsplit
    have hfront : s.disc &&& maskLaType12 = 0 := by
      rw [hbefore.sum, agreed_and_type12, List.find?_eq_none]
      intro m hm
      obtain ⟨g, hg, rfl⟩ := List.mem_map.mp hm
      simpa using hnone g (by rw [hsplit]; exact List.mem_append_left _ hg)
    have hsel := selected_and_isoDep hin hhost hreq hfront
    refine ⟨hsel, fun hzero => ?_⟩
    rw [hfollows.sum] at hzero
    have hkeep : (((collect rt ⟨0, 0, 0⟩ (es.filter (·.inUse))).2.map (·.selectedDiscMask)).find? takesNfcA) = none := by
      rw [List.find?_eq_none]
      intro m hm
      obtain ⟨g, hg, rfl⟩ := List.mem_map.mp hm
      simpa using hnone g hg
    simp only [agreed, hkeep] at hzero
    exact hsel ((sumMasks_and _ _).mp hzero _ (List.mem_map_of_mem he))

/-- A module that polls and listens, and one that only polls and has gone. -/
def twoCalls : List DiscCall := [.add 0x00040005 0x02 none, .add 0x0000000F 0x02 none, .delete 1]

theorem masks_of_used_two :
    Settled ⟨0x02, 0, 0, 0⟩ false (DiscCb.run twoCalls).entry ∧
      (startRfDiscover (DiscCb.run twoCalls) ⟨0x02, 0, 0, 0⟩ 0xFFFFFFFF 0xFFFFFFFF).1 = 0x00040005 := by
  have hsettled : Settled ⟨0x02, 0, 0, 0⟩ false (DiscCb.run twoCalls).entry := by
    decide
  refine ⟨hsettled, ?_⟩
  rw [(masks_of_used twoCalls ⟨0x02, 0, 0, 0⟩ 0xFFFFFFFF 0xFFFFFFFF hsettled).1]
  decide

/-- A Type 1 listener behind one of ISO-DEP: both are selected, and the mask has only the first. -/
theorem type1_over_isoDep :
    let cb := DiscCb.run [.add maskLaIsoDep 0 none, .add maskLaT1t 0 none]
    (startRfDiscover cb ⟨0, 0, 0, 0⟩ 0 0).1 = maskLaT1t ∧
      sumMasks ((usedAfter cb ⟨0, 0, 0, 0⟩ 0 0).map (·.selectedDiscMask)) = maskLaT1t ||| maskLaIsoDep := by
  decide

end NfcStack.Nfa.DiscMasks
