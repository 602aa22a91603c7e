import NfcStack.Nfa.EeBlocks

/- The AIDs of a block as the code stores them (`nfa_ee_act.cc`:
   `nfa_ee_api_add_aid`, `nfa_ee_api_remove_aid`, `nfa_ee_find_aid_offset`): a
   packed string of entries, `aid_cfg`, and four arrays beside it. An entry starts
   with a tag and the length of the AID, and its place is the sum of the lengths
   before it.

   What is proved:
     1. `readFrom`: the entries that the arrays hold. `entries_push`,
        `entries_remove`, `entries_modify`: what each change of the arrays does to
        them; `findLoop_eq`: the search of the code finds the first one.
     2. `view_addAid`, `view_removeAid`: on arrays that are packed, the handlers do
        what those of the control blocks (`apiAddAid`, `apiRemoveAid`) do, and the
        arrays stay packed.

   An array is a function of the index; what the code reads and writes outside of
   the memory it has allocated is not looked at. -/
namespace NfcStack.Nfa
open NfcStack.Lib

/-! ## Memory -/

def bytesAt (f : Nat → UInt8) (pos len : Nat) : Bytes := (List.range len).map fun i => f (pos + i)

def writeAt (f : Nat → UInt8) (pos : Nat) (bs : Bytes) : Nat → UInt8 := fun i =>
  if pos ≤ i then bs.getD (i - pos) (f i) else f i

/-- `GKI_shiftup`, to a place in front of the source. -/
def gkiShiftup (f : Nat → UInt8) (dest src len : Nat) : Nat → UInt8 := fun i =>
  if dest ≤ i ∧ i < dest + len then f (src + (i - dest)) else f i

def memset (f : Nat → UInt8) (len : Nat) : Nat → UInt8 := fun i => if i < len then 0 else f i

/-! ## The arrays -/

/-- `aid_cfg`, `aid_len`, `aid_pwr_cfg`, `aid_rt_info`, `aid_info` and `aid_entries`. -/
structure AidArrays where
  aidCfg : Nat → UInt8
  aidLen : Nat → UInt8
  aidPwrCfg : Nat → UInt8
  aidRtInfo : Nat → UInt8
  aidInfo : Nat → UInt8
  aidEntries : UInt8

abbrev nfaEeAidCfgTagName : UInt8 := 0x4F

/-- The sum of `n` lengths from the entry `xx` on. -/
def AidArrays.lenFrom (a : AidArrays) : Nat → Nat → Nat
  | 0, _ => 0
  | n + 1, xx => (a.aidLen xx).toNat + a.lenFrom n (xx + 1)

def AidArrays.findTotalAidLen (a : AidArrays) (startEntry : Nat) : Nat :=
  a.lenFrom (a.aidEntries.toNat - startEntry) startEntry

/-- The inner loop of `nfa_ee_find_aid_offset`, `n` entries from the entry `xx` on: the
offset and the entry. -/
def AidArrays.findLoop (a : AidArrays) (aid : Bytes) : Nat → Nat → Nat → Option (Nat × Nat)
  | 0, _, _ => none
  | n + 1, xx, offset =>
    if (a.aidCfg (offset + 1)).toNat = aid.length ∧ bytesAt a.aidCfg (offset + 2) aid.length = aid then
      some (offset, xx)
    else a.findLoop aid n (xx + 1) (offset + (a.aidLen xx).toNat)

/-- The loop of `nfa_ee_update_route_aid_size`. -/
def AidArrays.sizeLoop (a : AidArrays) : Nat → Nat → Nat → Nat
  | 0, _, _ => 0
  | n + 1, xx, offset =>
    (if a.aidRtInfo xx &&& nfaEeAeRoute ≠ 0 then 4 + (a.aidCfg (offset + 1)).toNat else 0) +
      a.sizeLoop n (xx + 1) (offset + (a.aidLen xx).toNat)

def AidArrays.routeAidSize (a : AidArrays) : Nat := a.sizeLoop a.aidEntries.toNat 0 0 % 2 ^ 16

/-- A new entry is written behind the others. -/
def AidArrays.push (a : AidArrays) (aid : Bytes) (powerState aidInfo : UInt8) : AidArrays :=
  let n := a.aidEntries.toNat
  { aidCfg := writeAt a.aidCfg (a.findTotalAidLen 0)
      (nfaEeAidCfgTagName :: UInt8.ofNat aid.length :: aid)
    aidLen := Function.update a.aidLen n (UInt8.ofNat (aid.length + 2))
    aidPwrCfg := Function.update a.aidPwrCfg n powerState
    aidRtInfo := Function.update a.aidRtInfo n nfaEeAeRoute
    aidInfo := Function.update a.aidInfo n aidInfo
    aidEntries := a.aidEntries + 1 }

/-- An entry that is there is marked as routed and gets a new qualifier. -/
def AidArrays.mark (a : AidArrays) (entry : Nat) (aidInfo : UInt8) : AidArrays :=
  { a with
    aidRtInfo := Function.update a.aidRtInfo entry (a.aidRtInfo entry ||| nfaEeAeRoute)
    aidInfo := Function.update a.aidInfo entry aidInfo }

/-- The mark is taken back; the qualifier is not. -/
def AidArrays.unmark (a : AidArrays) (entry : Nat) : AidArrays :=
  { a with aidRtInfo := Function.update a.aidRtInfo entry (a.aidRtInfo entry &&& ~~~nfaEeAeRoute) }

def AidArrays.setPower (a : AidArrays) (entry : Nat) (powerState : UInt8) : AidArrays :=
  { a with aidPwrCfg := Function.update a.aidPwrCfg entry powerState }

/-- An entry is removed; `aid_info` is not moved. -/
def AidArrays.remove (a : AidArrays) (offset entry : Nat) : AidArrays :=
  let n := a.aidEntries.toNat
  if entry + 1 < n then
    { a with
      aidCfg := gkiShiftup a.aidCfg offset (offset + (a.aidLen entry).toNat)
        (a.findTotalAidLen (entry + 1))
      aidLen := gkiShiftup a.aidLen entry (entry + 1) (n - entry)
      aidPwrCfg := gkiShiftup a.aidPwrCfg entry (entry + 1) (n - entry)
      aidRtInfo := gkiShiftup a.aidRtInfo entry (entry + 1) (n - entry)
      aidEntries := a.aidEntries - 1 }
  else { a with aidEntries := a.aidEntries - 1 }

/-- All entries are removed. The string is cleared for the size of the pointer to it. -/
def AidArrays.clear (env : EeEnv) (a : AidArrays) : AidArrays :=
  { a with
    aidCfg := memset a.aidCfg 8
    aidLen := memset a.aidLen (maxAidEntries env)
    aidPwrCfg := memset a.aidPwrCfg (maxAidEntries env)
    aidRtInfo := memset a.aidRtInfo (maxAidEntries env)
    aidEntries := 0 }

/-! ## The handlers -/

/-- The blocks, with their AIDs in arrays; the lists of AIDs of `ee` are not used. -/
structure AidDb where
  ee : Ee
  arrays : EcbIx → AidArrays

inductive AidStatus where
  | ok
  | bufferFull
  | semanticError
  | invalidParam
  deriving DecidableEq, Repr

def AidDb.setArrays (d : AidDb) (k : EcbIx) (a : AidArrays) : AidDb :=
  { d with arrays := Function.update d.arrays k a }

/-- `nfa_ee_find_aid_offset`: the block, the offset and the entry. -/
def AidDb.findAidOffset (d : AidDb) (aid : Bytes) : Option (EcbIx × Nat × Nat) :=
  d.ee.aidBlocks.findSome? fun k =>
    ((d.arrays k).findLoop aid (d.arrays k).aidEntries.toNat 0 0).map fun r => (k, r)

/-- The marks that `nfa_ee_api_add_aid` makes when it succeeded. -/
def aidMarks (s : Ee) (k : EcbIx) : Ee :=
  let s := (s.addFlags k flagAid).addCfged (ecbToMask k)
  match (List.finRange nfaEeNumEcbs).find? fun i => (s.ecb i).nfceeId == (s.ecb k).nfceeId with
  | some i => (s.addCfged (ecbToMask i)).addFlags i flagAid
  | none => s

/-- `nfa_ee_update_route_aid_size`. -/
def AidDb.updateRouteAidSize (d : AidDb) (k : EcbIx) : AidDb :=
  { d with ee := d.ee.setEcb k { d.ee.ecb k with sizeAid := (d.arrays k).routeAidSize } }

def AidDb.added (d : AidDb) (k : EcbIx) : AidDb :=
  ({ d with ee := aidMarks d.ee k } : AidDb).updateRouteAidSize k

/-- `nfa_ee_api_add_aid`: the status that is reported and the new state. -/
def AidDb.addAid (env : EeEnv) (d : AidDb) (k : EcbIx) (aid : Bytes) (powerState aidInfo : UInt8) :
    AidStatus × AidDb :=
  let a := d.arrays k
  match d.findAidOffset aid with
  | some (chk, _, entry) =>
    if chk = k then
      let marked := a.mark entry aidInfo
      if totalLmrtSize d.ee > env.lmrtSize.toNat then
        (.bufferFull, d.setArrays k (marked.unmark entry))
      else (.ok, (d.setArrays k (marked.setPower entry powerState)).added k)
    else (.semanticError, d)
  | none =>
    if aid.length + 2 + a.findTotalAidLen 0 > findMaxAidCfgLen env then (.bufferFull, d)
    else if a.aidEntries.toNat < maxAidEntries env then
      if (totalLmrtSize d.ee + 4 + aid.length) % 2 ^ 16 > env.lmrtSize.toNat then (.bufferFull, d)
      else (.ok, (d.setArrays k (a.push aid powerState aidInfo)).added k)
    else (.bufferFull, d)

def AidDb.removeAt (d : AidDb) (k : EcbIx) (offset entry : Nat) : AidDb :=
  let rtInfo := (d.arrays k).aidRtInfo entry
  let ee := if rtInfo &&& nfaEeAeRoute ≠ 0 then d.ee.addFlags k flagAid else d.ee
  let ee := if rtInfo &&& nfaEeAeVs ≠ 0 then ee.addFlags k flagVs else ee
  let d := ({ d with ee := ee.addCfged (ecbToMask k) } : AidDb).setArrays k
    ((d.arrays k).remove offset entry)
  d.updateRouteAidSize k

def AidDb.removeAll (env : EeEnv) (d : AidDb) : AidDb :=
  let cleared (k : EcbIx) : Prop := k = cb4Dh ∨ (d.arrays k).aidEntries ≠ 0
  let ee : Ee :=
    { d.ee with
      ecb := fun k => if cleared k then { d.ee.ecb k with sizeAid := 0 } else d.ee.ecb k
      eeCfged := ((List.finRange nfaEeNumEcbs).filter fun k =>
        k ≠ cb4Dh ∧ (d.arrays k).aidEntries ≠ 0).foldl (fun m k => m ||| ecbToMask k) d.ee.eeCfged }
  { ee := (ee.addFlags cb4Dh flagAid).addCfged (ecbToMask cb4Dh)
    arrays := fun k => if cleared k then (d.arrays k).clear env else d.arrays k }

def AidDb.removeAid (env : EeEnv) (d : AidDb) (aid : Bytes) : AidStatus × AidDb :=
  match d.findAidOffset aid with
  | some (k, offset, entry) => (.ok, d.removeAt k offset entry)
  | none => if aid = nfaRemoveAllAid then (.ok, d.removeAll env) else (.invalidParam, d)

/-! ## What the arrays hold -/

section Arrays
variable {a b : AidArrays}

/-- The entry `xx`, which is at `offset`. -/
def AidArrays.entryAt (a : AidArrays) (xx offset : Nat) : AidEntry where
  aid := bytesAt a.aidCfg (offset + 2) (a.aidCfg (offset + 1)).toNat
  pwrCfg := a.aidPwrCfg xx
  rtInfo := a.aidRtInfo xx

/-- The `n` entries from the entry `xx` on. -/
def AidArrays.readFrom (a : AidArrays) : Nat → Nat → Nat → List AidEntry
  | 0, _, _ => []
  | n + 1, xx, offset => a.entryAt xx offset :: a.readFrom n (xx + 1) (offset + (a.aidLen xx).toNat)

def AidArrays.entries (a : AidArrays) : List AidEntry := a.readFrom a.aidEntries.toNat 0 0

/-- Each length is the one of the AID with its tag and length. -/
def AidArrays.PackedFrom (a : AidArrays) : Nat → Nat → Nat → Prop
  | 0, _, _ => True
  | n + 1, xx, offset =>
    ((a.aidLen xx).toNat = (a.aidCfg (offset + 1)).toNat + 2 ∧ (a.aidCfg (offset + 1)).toNat ≤ 16) ∧
      a.PackedFrom n (xx + 1) (offset + (a.aidLen xx).toNat)

def AidArrays.Packed (a : AidArrays) : Prop := a.PackedFrom a.aidEntries.toNat 0 0

@[simp] theorem length_bytesAt (f : Nat → UInt8) (pos len : Nat) : (bytesAt f pos len).length = len := by
  simp [bytesAt]

theorem bytesAt_congr {f g : Nat → UInt8} {pos pos' len : Nat}
    (h : ∀ i, i < len → f (pos + i) = g (pos' + i)) : bytesAt f pos len = bytesAt g pos' len := by
  unfold bytesAt
  apply List.map_congr_left
  intro i hi
  exact h i (List.mem_range.mp hi)

theorem bytesAt_writeAt (f : Nat → UInt8) (pos : Nat) (front bs : Bytes) :
    bytesAt (writeAt f pos (front ++ bs)) (pos + front.length) bs.length = bs := by
  apply List.ext_getElem
  · simp
  · intro i hi hi'
    simp only [bytesAt, List.getElem_map, List.getElem_range, writeAt]
    rw [if_pos (by omega), List.getD_eq_getElem _ _ (by simp; omega)]
    rw [List.getElem_append_right (by omega)]
    congr 1
    omega

@[simp] theorem length_readFrom (a : AidArrays) (n : Nat) :
    ∀ xx offset, (a.readFrom n xx offset).length = n := by
  induction n with
  | zero => exact fun _ _ => rfl
  | succ n ih => exact fun xx offset => congrArg (· + 1) (ih _ _)

theorem length_entries (a : AidArrays) : a.entries.length = a.aidEntries.toNat := length_readFrom _ _ _ _

theorem readFrom_congr (n : Nat) : ∀ {xx xx' offset offset' : Nat},
    b.PackedFrom n xx' offset' →
    (∀ j, j < n → a.aidLen (xx + j) = b.aidLen (xx' + j) ∧
      a.aidPwrCfg (xx + j) = b.aidPwrCfg (xx' + j) ∧ a.aidRtInfo (xx + j) = b.aidRtInfo (xx' + j)) →
    (∀ p, p < b.lenFrom n xx' → a.aidCfg (offset + p) = b.aidCfg (offset' + p)) →
    a.readFrom n xx offset = b.readFrom n xx' offset' ∧ a.PackedFrom n xx offset ∧
      a.lenFrom n xx = b.lenFrom n xx' := by
  induction n with
  | zero => exact fun _ _ _ => ⟨rfl, trivial, rfl⟩
  | succ n ih =>
    intro xx xx' offset offset' hp hidx hcfg
    obtain ⟨⟨hlen, hsmall⟩, hrest⟩ := hp
    obtain ⟨hl, hpw, hrt⟩ := hidx 0 (Nat.succ_pos n)
    simp only [Nat.add_zero] at hl hpw hrt
    have htag : a.aidCfg (offset + 1) = b.aidCfg (offset' + 1) := by
      apply hcfg
      simp only [AidArrays.lenFrom]
      omega
    have hbytes : bytesAt a.aidCfg (offset + 2) (b.aidCfg (offset' + 1)).toNat =
        bytesAt b.aidCfg (offset' + 2) (b.aidCfg (offset' + 1)).toNat := by
      apply bytesAt_congr
      intro i hi
      have := hcfg (2 + i) (by simp only [AidArrays.lenFrom]; omega)
      rw [Nat.add_assoc, Nat.add_assoc]
      exact this
    have hentry : a.entryAt xx offset = b.entryAt xx' offset' := by
      unfold AidArrays.entryAt
      rw [htag, hbytes, hpw, hrt]
    obtain ⟨hread, hpacked, htotal⟩ := @ih (xx + 1) (xx' + 1) (offset + (b.aidLen xx').toNat)
      (offset' + (b.aidLen xx').toNat) hrest
      (fun j hj => by
        have := hidx (j + 1) (by omega)
        simpa only [Nat.add_assoc, Nat.add_comm 1 j] using this)
      (fun p hlt => by
        have := hcfg ((b.aidLen xx').toNat + p) (by simp only [AidArrays.lenFrom]; omega)
        simpa only [Nat.add_assoc] using this)
    refine ⟨?_, ⟨⟨?_, ?_⟩, ?_⟩, ?_⟩
    · rw [AidArrays.readFrom, AidArrays.readFrom, hl, hentry, hread]
    · rw [hl, htag, hlen]
    · rw [htag]
      exact hsmall
    · rw [hl]
      exact hpacked
    · rw [AidArrays.lenFrom, AidArrays.lenFrom, hl, htotal]

theorem readFrom_append (a : AidArrays) (m n : Nat) : ∀ xx offset,
    a.readFrom (m + n) xx offset =
      a.readFrom m xx offset ++ a.readFrom n (xx + m) (offset + a.lenFrom m xx) := by
  induction m with
  | zero => intro xx offset; simp [AidArrays.readFrom, AidArrays.lenFrom]
  | succ m ih =>
    intro xx offset
    rw [show m + 1 + n = (m + n) + 1 by omega, AidArrays.readFrom, AidArrays.readFrom, ih,
      AidArrays.lenFrom, List.cons_append, show xx + 1 + m = xx + (m + 1) by omega, Nat.add_assoc]

theorem packedFrom_append (a : AidArrays) (m n : Nat) : ∀ xx offset,
    a.PackedFrom (m + n) xx offset ↔
      a.PackedFrom m xx offset ∧ a.PackedFrom n (xx + m) (offset + a.lenFrom m xx) := by
  induction m with
  | zero => intro xx offset; simp [AidArrays.PackedFrom, AidArrays.lenFrom]
  | succ m ih =>
    intro xx offset
    rw [show m + 1 + n = (m + n) + 1 by omega, AidArrays.PackedFrom, AidArrays.PackedFrom, ih,
      AidArrays.lenFrom, show xx + 1 + m = xx + (m + 1) by omega, Nat.add_assoc]
    simp only [and_assoc]

theorem getElem?_readFrom (a : AidArrays) {n i : Nat} (hi : i < n) (xx offset : Nat) :
    (a.readFrom n xx offset)[i]? = some (a.entryAt (xx + i) (offset + a.lenFrom i xx)) := by
  obtain ⟨m, rfl⟩ : ∃ m, n = i + (m + 1) := ⟨n - i - 1, by omega⟩
  rw [readFrom_append, List.getElem?_append_right (by simp), length_readFrom, Nat.sub_self]
  rfl

/-- The search of the code finds the first entry with the AID. -/
theorem findLoop_eq (a : AidArrays) (aid : Bytes) (n : Nat) : ∀ xx offset,
    a.findLoop aid n xx offset =
      ((a.readFrom n xx offset).findIdx? fun e => decide (e.aid = aid)).map fun i =>
        (offset + a.lenFrom i xx, xx + i) := by
  induction n with
  | zero => exact fun _ _ => rfl
  | succ n ih =>
    intro xx offset
    have htest : ((a.aidCfg (offset + 1)).toNat = aid.length ∧
        bytesAt a.aidCfg (offset + 2) aid.length = aid) ↔ (a.entryAt xx offset).aid = aid := by
      constructor
      · rintro ⟨hlen, hbytes⟩
        unfold AidArrays.entryAt
        rw [hlen, hbytes]
      · intro h
        have hlen : (a.aidCfg (offset + 1)).toNat = aid.length := by
          rw [← h]
          exact (length_bytesAt _ _ _).symm
        refine ⟨hlen, ?_⟩
        rw [← hlen]
        exact h
    rw [AidArrays.findLoop, AidArrays.readFrom, List.findIdx?_cons]
    by_cases h : (a.entryAt xx offset).aid = aid
    · rw [if_pos (htest.mpr h), if_pos (by simpa using h)]
      rfl
    · rw [if_neg (mt htest.mp h), if_neg (by simpa using h), ih, Option.map_map]
      congr 1
      funext i
      simp only [Function.comp_apply, AidArrays.lenFrom]
      rw [Nat.add_assoc, Nat.add_assoc, Nat.add_comm 1 i]

theorem sizeLoop_eq (a : AidArrays) (n : Nat) : ∀ xx offset,
    a.sizeLoop n xx offset = ((a.readFrom n xx offset).map aidSize).sum := by
  induction n with
  | zero => exact fun _ _ => rfl
  | succ n ih =>
    intro xx offset
    rw [AidArrays.sizeLoop, AidArrays.readFrom, List.map_cons, List.sum_cons, ih]
    congr 1
    unfold aidSize AidArrays.entryAt
    rw [length_bytesAt]

theorem routeAidSize_eq (a : AidArrays) : a.routeAidSize = (a.entries.map aidSize).sum % 2 ^ 16 :=
  congrArg (· % 2 ^ 16) (sizeLoop_eq a _ _ _)

theorem lenFrom_eq (a : AidArrays) (n : Nat) : ∀ xx offset, a.PackedFrom n xx offset →
    a.lenFrom n xx = ((a.readFrom n xx offset).map AidEntry.aidLen).sum := by
  induction n with
  | zero => exact fun _ _ _ => rfl
  | succ n ih =>
    intro xx offset h
    rw [AidArrays.lenFrom, AidArrays.readFrom, List.map_cons, List.sum_cons, ih _ _ h.2, h.1.1]
    congr 1
    unfold AidEntry.aidLen AidArrays.entryAt
    rw [length_bytesAt]

theorem writeAt_before {f : Nat → UInt8} {pos : Nat} {bs : Bytes} {i : Nat} (h : i < pos) :
    writeAt f pos bs i = f i := if_neg (by omega)

/-- What a new entry does, the wrap of the number of entries apart. -/
theorem readFrom_push {aid : Bytes} (hp : a.Packed) (haid : aid.length ≤ 16) (powerState aidInfo : UInt8) :
    (a.push aid powerState aidInfo).readFrom (a.aidEntries.toNat + 1) 0 0 =
        a.entries ++ [⟨aid, powerState, nfaEeAeRoute⟩] ∧
      (a.push aid powerState aidInfo).PackedFrom (a.aidEntries.toNat + 1) 0 0 := by
  have hold : ∀ j, j < a.aidEntries.toNat → j ≠ a.aidEntries.toNat := fun j hj => by omega
  obtain ⟨hread, hpacked, hlen⟩ := @readFrom_congr (a.push aid powerState aidInfo) a
    a.aidEntries.toNat 0 0 0 0 hp
    (fun j hj => by
      simp only [AidArrays.push, Nat.zero_add, Function.update_of_ne (hold j hj), and_self])
    (fun p hlt => writeAt_before (by simpa [AidArrays.findTotalAidLen] using hlt))
  have htotal : a.lenFrom a.aidEntries.toNat 0 = a.findTotalAidLen 0 := rfl
  have hcfg : (a.push aid powerState aidInfo).aidCfg (a.findTotalAidLen 0 + 1) =
      UInt8.ofNat aid.length := by
    simp [AidArrays.push, writeAt]
  have hsmall : (UInt8.ofNat aid.length).toNat = aid.length :=
    UInt8.toNat_ofNat_of_lt (lt_of_le_of_lt haid (by decide))
  have hnew : (a.push aid powerState aidInfo).aidLen a.aidEntries.toNat =
      UInt8.ofNat (aid.length + 2) := Function.update_self _ _ _
  have hentry : (a.push aid powerState aidInfo).entryAt a.aidEntries.toNat (a.findTotalAidLen 0) =
      ⟨aid, powerState, nfaEeAeRoute⟩ := by
    unfold AidArrays.entryAt
    rw [hcfg, hsmall]
    congr 1
    · exact bytesAt_writeAt a.aidCfg _ [nfaEeAidCfgTagName, UInt8.ofNat aid.length] aid
    · exact Function.update_self _ _ _
    · exact Function.update_self _ _ _
  constructor
  · rw [readFrom_append, hread, hlen, htotal, Nat.zero_add, Nat.zero_add]
    unfold AidArrays.entries
    rw [AidArrays.readFrom, AidArrays.readFrom, hentry]
  · rw [packedFrom_append, hlen, htotal, Nat.zero_add, Nat.zero_add]
    refine ⟨hpacked, ⟨⟨?_, ?_⟩, trivial⟩⟩
    · rw [hnew, hcfg, hsmall]
      exact UInt8.toNat_ofNat_of_lt (lt_of_le_of_lt (Nat.add_le_add_right haid 2) (by decide))
    · rw [hcfg, hsmall]
      exact haid

theorem entries_push {aid : Bytes} (hp : a.Packed) (haid : aid.length ≤ 16)
    (powerState aidInfo : UInt8) :
    (a.push aid powerState aidInfo).entries =
        (a.entries ++ [(⟨aid, powerState, nfaEeAeRoute⟩ : AidEntry)]).take
          ((a.entries.length + 1) % 2 ^ 8) ∧
      (a.push aid powerState aidInfo).Packed := by
  obtain ⟨hread, hpacked⟩ := readFrom_push hp haid powerState aidInfo
  have hcount : (a.push aid powerState aidInfo).aidEntries.toNat = (a.aidEntries.toNat + 1) % 2 ^ 8 :=
    UInt8.toNat_add _ _
  have hlt := a.aidEntries.toNat_lt
  rw [length_entries]
  by_cases hwrap : a.aidEntries.toNat + 1 = 2 ^ 8
  · rw [hwrap, Nat.mod_self] at hcount ⊢
    unfold AidArrays.entries AidArrays.Packed
    rw [hcount]
    exact ⟨rfl, trivial⟩
  · rw [Nat.mod_eq_of_lt (by omega)] at hcount ⊢
    constructor
    · rw [List.take_of_length_le (by simp [length_entries]), ← hread, ← hcount]
      rfl
    · unfold AidArrays.Packed
      rw [hcount]
      exact hpacked

theorem gkiShiftup_inside {f : Nat → UInt8} {dest src len i : Nat} (h : i < len) :
    gkiShiftup f dest src len (dest + i) = f (src + i) := by
  unfold gkiShiftup
  rw [if_pos (by omega), Nat.add_sub_cancel_left]

theorem gkiShiftup_before {f : Nat → UInt8} {dest src len i : Nat} (h : i < dest) :
    gkiShiftup f dest src len i = f i := if_neg (by omega)

/-- The entries before the removed one and those behind it, which are moved up. -/
theorem readFrom_remove {entry m : Nat} (hn : a.aidEntries.toNat = entry + (1 + m))
    (hfront : a.PackedFrom entry 0 0)
    (hback : a.PackedFrom m (entry + 1) (a.lenFrom entry 0 + (a.aidLen entry).toNat)) :
    (a.remove (a.lenFrom entry 0) entry).readFrom (entry + m) 0 0 = a.readFrom entry 0 0 ++
        a.readFrom m (entry + 1) (a.lenFrom entry 0 + (a.aidLen entry).toNat) ∧
      (a.remove (a.lenFrom entry 0) entry).PackedFrom (entry + m) 0 0 := by
  by_cases hlast : entry + 1 < a.aidEntries.toNat
  · have htotal : a.findTotalAidLen (entry + 1) = a.lenFrom m (entry + 1) := by
      unfold AidArrays.findTotalAidLen
      rw [show a.aidEntries.toNat - (entry + 1) = m by omega]
    have hmoved : a.aidEntries.toNat - entry = m + 1 := by omega
    unfold AidArrays.remove
    rw [if_pos hlast, htotal, hmoved]
    obtain ⟨hreadF, hpackedF, hlenF⟩ := @readFrom_congr
      { a with
        aidCfg := gkiShiftup a.aidCfg (a.lenFrom entry 0) (a.lenFrom entry 0 + (a.aidLen entry).toNat)
          (a.lenFrom m (entry + 1))
        aidLen := gkiShiftup a.aidLen entry (entry + 1) (m + 1)
        aidPwrCfg := gkiShiftup a.aidPwrCfg entry (entry + 1) (m + 1)
        aidRtInfo := gkiShiftup a.aidRtInfo entry (entry + 1) (m + 1)
        aidEntries := a.aidEntries - 1 } a entry 0 0 0 0 hfront
      (fun j hj => by
        rw [← Nat.zero_add j] at hj
        exact ⟨gkiShiftup_before hj, gkiShiftup_before hj, gkiShiftup_before hj⟩)
      (fun p hlt => gkiShiftup_before (by rwa [Nat.zero_add]))
    obtain ⟨hreadB, hpackedB, -⟩ := @readFrom_congr
      { a with
        aidCfg := gkiShiftup a.aidCfg (a.lenFrom entry 0) (a.lenFrom entry 0 + (a.aidLen entry).toNat)
          (a.lenFrom m (entry + 1))
        aidLen := gkiShiftup a.aidLen entry (entry + 1) (m + 1)
        aidPwrCfg := gkiShiftup a.aidPwrCfg entry (entry + 1) (m + 1)
        aidRtInfo := gkiShiftup a.aidRtInfo entry (entry + 1) (m + 1)
        aidEntries := a.aidEntries - 1 } a m entry (entry + 1) (a.lenFrom entry 0) _ hback
      (fun j hj => by
        have hj' : j < m + 1 := by omega
        exact ⟨gkiShiftup_inside hj', gkiShiftup_inside hj', gkiShiftup_inside hj'⟩)
      (fun p hlt => gkiShiftup_inside hlt)
    rw [readFrom_append, packedFrom_append, hreadF, hlenF, Nat.zero_add, Nat.zero_add, hreadB]
    exact ⟨rfl, hpackedF, hpackedB⟩
  · have hm : m = 0 := by omega
    obtain ⟨hread, hpacked, -⟩ := @readFrom_congr { a with aidEntries := a.aidEntries - 1 } a entry
      0 0 0 0 hfront (fun _ _ => ⟨rfl, rfl, rfl⟩) (fun _ _ => rfl)
    unfold AidArrays.remove
    rw [if_neg hlast, hm, Nat.add_zero, hread]
    exact ⟨(List.append_nil _).symm, hpacked⟩

theorem remove_aidEntries (a : AidArrays) (offset entry : Nat) :
    (a.remove offset entry).aidEntries = a.aidEntries - 1 := by
  unfold AidArrays.remove
  dsimp only
  split <;> rfl

theorem remove_aidInfo (a : AidArrays) (offset entry : Nat) :
    (a.remove offset entry).aidInfo = a.aidInfo := by
  unfold AidArrays.remove
  dsimp only
  split <;> rfl

theorem entries_remove {entry : Nat} (hp : a.Packed) (hentry : entry < a.aidEntries.toNat) :
    (a.remove (a.lenFrom entry 0) entry).entries = a.entries.eraseIdx entry ∧
      (a.remove (a.lenFrom entry 0) entry).Packed := by
  obtain ⟨m, hm⟩ : ∃ m, a.aidEntries.toNat = entry + (1 + m) :=
    ⟨a.aidEntries.toNat - entry - 1, by omega⟩
  have hone : (1 : UInt8) ≤ a.aidEntries := by
    rw [UInt8.le_iff_toNat_le]
    show 1 ≤ a.aidEntries.toNat
    omega
  have hcount : (a.remove (a.lenFrom entry 0) entry).aidEntries.toNat = entry + m := by
    rw [remove_aidEntries, UInt8.toNat_sub_of_le _ _ hone]
    show a.aidEntries.toNat - 1 = _
    omega
  have herase : a.entries.eraseIdx entry = a.readFrom entry 0 0 ++
      a.readFrom m (entry + 1) (a.lenFrom entry 0 + (a.aidLen entry).toNat) := by
    unfold AidArrays.entries
    rw [hm, readFrom_append, List.eraseIdx_append_of_length_le (by simp), length_readFrom,
      Nat.sub_self, Nat.add_comm 1 m, AidArrays.readFrom, List.eraseIdx_cons_zero, Nat.zero_add,
      Nat.zero_add]
  unfold AidArrays.Packed at hp
  rw [hm, packedFrom_append, Nat.add_comm 1 m, AidArrays.PackedFrom, Nat.zero_add, Nat.zero_add] at hp
  obtain ⟨hfront, -, hback⟩ := hp
  obtain ⟨hread, hpacked⟩ := readFrom_remove hm hfront hback
  unfold AidArrays.Packed
  rw [herase, ← hread, hcount]
  refine ⟨?_, hpacked⟩
  unfold AidArrays.entries
  rw [hcount]

theorem entries_modify {entry : Nat} (hcfg : b.aidCfg = a.aidCfg) (hlen : b.aidLen = a.aidLen)
    (hcount : b.aidEntries = a.aidEntries)
    (hother : ∀ i, i ≠ entry → b.aidPwrCfg i = a.aidPwrCfg i ∧ b.aidRtInfo i = a.aidRtInfo i)
    {f : AidEntry → AidEntry}
    (hf : ∀ aid, f ⟨aid, a.aidPwrCfg entry, a.aidRtInfo entry⟩ =
      ⟨aid, b.aidPwrCfg entry, b.aidRtInfo entry⟩) (hp : a.Packed) :
    b.entries = a.entries.modify entry f ∧ b.Packed := by
  have hsum : ∀ n xx, b.lenFrom n xx = a.lenFrom n xx := by
    intro n
    induction n with
    | zero => exact fun _ => rfl
    | succ n ih =>
      intro xx
      rw [AidArrays.lenFrom, AidArrays.lenFrom, ih, hlen]
  have hpacked : ∀ n xx offset, a.PackedFrom n xx offset → b.PackedFrom n xx offset := by
    intro n
    induction n with
    | zero => exact fun _ _ _ => trivial
    | succ n ih =>
      intro xx offset h
      unfold AidArrays.PackedFrom
      rw [hcfg, hlen]
      exact ⟨h.1, ih _ _ h.2⟩
  constructor
  · apply List.ext_getElem?
    intro i
    rw [List.getElem?_modify]
    unfold AidArrays.entries
    rw [hcount]
    by_cases hi : i < a.aidEntries.toNat
    · rw [getElem?_readFrom b hi, getElem?_readFrom a hi, hsum]
      simp only [Nat.zero_add]
      congr 1
      dsimp only
      by_cases hie : entry = i
      · subst hie
        rw [if_pos rfl]
        unfold AidArrays.entryAt
        rw [hf, hcfg]
      · obtain ⟨hpw, hrt⟩ := hother i (Ne.symm hie)
        rw [if_neg hie]
        unfold AidArrays.entryAt
        rw [hcfg, hpw, hrt]
    · rw [List.getElem?_eq_none (by simpa using hi), List.getElem?_eq_none (by simpa using hi)]
      rfl
  · unfold AidArrays.Packed
    rw [hcount]
    exact hpacked _ _ _ hp

theorem entries_mark (hp : a.Packed) (entry : Nat) (aidInfo : UInt8) :
    (a.mark entry aidInfo).entries =
        a.entries.modify entry (fun e => { e with rtInfo := e.rtInfo ||| nfaEeAeRoute }) ∧
      (a.mark entry aidInfo).Packed :=
  entries_modify (a := a) (b := a.mark entry aidInfo) rfl rfl rfl (fun i hi => ⟨rfl, by simp [AidArrays.mark, hi]⟩)
    (fun aid => by simp [AidArrays.mark]) hp

theorem entries_unmark (hp : a.Packed) (entry : Nat) :
    (a.unmark entry).entries =
        a.entries.modify entry (fun e => { e with rtInfo := e.rtInfo &&& ~~~nfaEeAeRoute }) ∧
      (a.unmark entry).Packed :=
  entries_modify (a := a) (b := a.unmark entry) rfl rfl rfl (fun i hi => ⟨rfl, by simp [AidArrays.unmark, hi]⟩)
    (fun aid => by simp [AidArrays.unmark]) hp

theorem entries_setPower (hp : a.Packed) (entry : Nat) (powerState : UInt8) :
    (a.setPower entry powerState).entries =
        a.entries.modify entry (fun e => { e with pwrCfg := powerState }) ∧
      (a.setPower entry powerState).Packed :=
  entries_modify (a := a) (b := a.setPower entry powerState) rfl rfl rfl (fun i hi => ⟨by simp [AidArrays.setPower, hi], rfl⟩)
    (fun aid => by simp [AidArrays.setPower]) hp

end Arrays

/-! ## The blocks that the arrays stand for -/

def Ecb.withAids (cb : Ecb) (a : AidArrays) : Ecb :=
  { cb with aids := a.entries, aidInfo := a.aidInfo }

/-- The control blocks, with the AIDs of the arrays. -/
def AidDb.view (d : AidDb) : Ee := { d.ee with ecb := fun k => (d.ee.ecb k).withAids (d.arrays k) }

def AidDb.Packed (d : AidDb) : Prop := ∀ k, (d.arrays k).Packed

/-- An entry that was found is one of the blocks that are searched. -/
theorem findAidOffset_some {s : Ee} {aid : Bytes} {k : EcbIx} {i : Nat}
    (h : findAidOffset s aid = some (k, i)) :
    ∃ e, (s.ecb k).aids[i]? = some e ∧ e.aid = aid ∧ k ∈ s.aidBlocks := by
  unfold findAidOffset at h
  obtain ⟨j, hj, hfind⟩ := List.exists_of_findSome?_eq_some h
  obtain ⟨n, hn, hpair⟩ := Option.map_eq_some_iff.mp hfind
  obtain ⟨rfl, rfl⟩ := Prod.mk.inj hpair
  obtain ⟨hlt, he, -⟩ := List.findIdx?_eq_some_iff_getElem.mp hn
  exact ⟨(s.ecb j).aids[n], List.getElem?_eq_getElem hlt, by simpa using he, hj⟩

theorem findAidOffset_none {s : Ee} {aid : Bytes} (h : findAidOffset s aid = none) {k : EcbIx}
    (hk : k ∈ s.aidBlocks) : ∀ e ∈ (s.ecb k).aids, e.aid ≠ aid := by
  unfold findAidOffset at h
  have hnone := List.findSome?_eq_none_iff.mp h k hk
  intro e he
  simpa using List.findIdx?_eq_none_iff.mp (Option.map_eq_none_iff.mp hnone) e he

section View
variable {env : EeEnv} {d : AidDb} {k : EcbIx}

theorem view_totalLmrtSize (d : AidDb) : totalLmrtSize d.view = totalLmrtSize d.ee := rfl

theorem packed_setArrays {a : AidArrays} (h : d.Packed) (ha : a.Packed) : (d.setArrays k a).Packed := by
  intro j
  unfold AidDb.setArrays
  by_cases hj : j = k
  · rw [hj]
    simpa only [Function.update_self] using ha
  · simpa only [Function.update_of_ne hj] using h j

theorem view_findAidOffset (d : AidDb) (aid : Bytes) :
    d.findAidOffset aid =
      (findAidOffset d.view aid).map fun r => (r.1, (d.arrays r.1).lenFrom r.2 0, r.2) := by
  unfold AidDb.findAidOffset findAidOffset
  have hblocks : d.view.aidBlocks = d.ee.aidBlocks := rfl
  rw [hblocks]
  induction d.ee.aidBlocks with
  | nil => rfl
  | cons k ks ih =>
    rw [List.findSome?_cons, List.findSome?_cons, findLoop_eq, ih]
    have haids : (d.view.ecb k).aids = (d.arrays k).readFrom (d.arrays k).aidEntries.toNat 0 0 := rfl
    rw [haids]
    cases (((d.arrays k).readFrom (d.arrays k).aidEntries.toNat 0 0).findIdx? fun e =>
        decide (e.aid = aid)) with
    | none => rfl
    | some i => simp

theorem view_setArrays (d : AidDb) (k : EcbIx) (a : AidArrays) :
    (d.setArrays k a).view = d.view.setEcb k ((d.ee.ecb k).withAids a) := by
  have hecb : (d.setArrays k a).view.ecb =
      Function.update d.view.ecb k ((d.ee.ecb k).withAids a) := by
    funext j
    unfold AidDb.view AidDb.setArrays
    by_cases hj : j = k
    · rw [hj]
      simp only [Function.update_self]
    · simp only [Function.update_of_ne hj]
  exact congrArg (fun e => ({ d.ee with ecb := e } : Ee)) hecb

theorem view_updateRouteAidSize (d : AidDb) (k : EcbIx) :
    (d.updateRouteAidSize k).view = d.view.setEcb k (updateRouteAidSize (d.view.ecb k)) := by
  have hecb : (d.updateRouteAidSize k).view.ecb =
      Function.update d.view.ecb k (updateRouteAidSize (d.view.ecb k)) := by
    funext j
    unfold AidDb.view AidDb.updateRouteAidSize Ee.setEcb
    by_cases hj : j = k
    · rw [hj]
      simp only [Function.update_self, updateRouteAidSize, routeAidSize_eq, Ecb.withAids]
    · simp only [Function.update_of_ne hj]
  exact congrArg (fun e => ({ d.ee with ecb := e } : Ee)) hecb

theorem view_aidMarks (d : AidDb) (k : EcbIx) :
    ({ d with ee := aidMarks d.ee k } : AidDb).view = aidMarks d.view k := by
  unfold AidDb.view aidMarks
  dsimp only [Ee.addFlags, Ee.addCfged, Ecb.withAids]
  split <;> rfl

theorem view_added (d : AidDb) (k : EcbIx) : (d.added k).view = aidAdded d.view k := by
  unfold AidDb.added
  rw [view_updateRouteAidSize, view_aidMarks]
  rfl

/-- The size of the table depends on the sizes and the status of the blocks alone. -/
theorem totalLmrtSize_setEcb {s : Ee} {cb : Ecb} (hsize : cb.size = (s.ecb k).size)
    (hactive : cb.isActive = (s.ecb k).isActive) : totalLmrtSize (s.setEcb k cb) = totalLmrtSize s := by
  have hsizes : ∀ j, ((s.setEcb k cb).ecb j).size = (s.ecb j).size := by
    intro j
    unfold Ee.setEcb
    by_cases hj : j = k
    · rw [hj]
      simpa only [Function.update_self] using hsize
    · simp only [Function.update_of_ne hj]
  have hactives : ∀ j, ((s.setEcb k cb).ecb j).isActive = (s.ecb j).isActive := by
    intro j
    unfold Ee.setEcb
    by_cases hj : j = k
    · rw [hj]
      simpa only [Function.update_self] using hactive
    · simp only [Function.update_of_ne hj]
  have hblocks : (s.setEcb k cb).sizedBlocks = s.sizedBlocks := rfl
  unfold totalLmrtSize
  simp only [hsizes, hactives, hblocks]

theorem view_addAid (h : d.Packed) {aid : Bytes} (haid : aid.length ≤ 16)
    (powerState aidInfo : UInt8) :
    (d.addAid env k aid powerState aidInfo).2.view = apiAddAid env d.view k aid powerState aidInfo ∧
      (d.addAid env k aid powerState aidInfo).2.Packed := by
  unfold AidDb.addAid apiAddAid
  rw [view_findAidOffset]
  cases hfind : findAidOffset d.view aid with
  | some r =>
    obtain ⟨chk, entry⟩ := r
    dsimp only [Option.map_some]
    by_cases hchk : chk = k
    · obtain ⟨hmark, hmarked⟩ := entries_mark (h k) entry aidInfo
      rw [if_pos hchk, if_pos hchk, totalLmrtSize_setEcb, view_totalLmrtSize]
      · split
        · obtain ⟨hunmark, hpacked⟩ := entries_unmark hmarked entry
          refine ⟨?_, packed_setArrays h hpacked⟩
          rw [view_setArrays]
          unfold Ecb.withAids
          rw [hunmark, hmark]
          rfl
        · obtain ⟨hpower, hpacked⟩ := entries_setPower hmarked entry powerState
          refine ⟨?_, packed_setArrays h hpacked⟩
          rw [view_added, view_setArrays]
          unfold Ecb.withAids
          rw [hpower, hmark]
          rfl
      · rfl
      · rfl
    · rw [if_neg hchk, if_neg hchk]
      exact ⟨rfl, h⟩
  | none =>
    have hlen : (d.arrays k).findTotalAidLen 0 = findTotalAidLen (d.view.ecb k) :=
      lenFrom_eq _ _ _ _ (h k)
    have hcount : (d.arrays k).aidEntries.toNat = (d.view.ecb k).aids.length := (length_entries _).symm
    obtain ⟨hentries, hpacked⟩ := entries_push (h k) haid powerState aidInfo
    dsimp only [Option.map_none]
    rw [hlen, hcount, view_totalLmrtSize]
    split
    · exact ⟨rfl, h⟩
    · split
      · split
        · exact ⟨rfl, h⟩
        · refine ⟨?_, packed_setArrays h hpacked⟩
          rw [view_added, view_setArrays]
          congr 2
          unfold Ecb.withAids Ecb.pushAid
          rw [hentries, length_entries, ← hcount]
          rfl
      · exact ⟨rfl, h⟩

theorem setEcb_setEcb (s : Ee) (k : EcbIx) (x y : Ecb) : (s.setEcb k x).setEcb k y = s.setEcb k y := by
  simp [Ee.setEcb]

theorem setEcb_ecb (s : Ee) (k : EcbIx) (x : Ecb) : (s.setEcb k x).ecb k = x := by
  simp [Ee.setEcb]

theorem view_removeAt (h : d.Packed) {entry : Nat} {e : AidEntry}
    (he : (d.view.ecb k).aids[entry]? = some e) :
    (d.removeAt k ((d.arrays k).lenFrom entry 0) entry).view = removeAidAt d.view k entry e ∧
      (d.removeAt k ((d.arrays k).lenFrom entry 0) entry).Packed := by
  have hlt : entry < (d.arrays k).aidEntries.toNat := by
    rw [← length_entries]
    exact (List.getElem?_eq_some_iff.mp he).1
  have hrt : (d.arrays k).aidRtInfo entry = e.rtInfo := by
    have hget : (d.view.ecb k).aids[entry]? = _ := getElem?_readFrom (d.arrays k) hlt 0 0
    rw [he, Nat.zero_add] at hget
    rw [Option.some.inj hget]
    rfl
  obtain ⟨hentries, hpacked⟩ := entries_remove (h k) hlt
  refine ⟨?_, packed_setArrays h hpacked⟩
  unfold AidDb.removeAt removeAidAt
  rw [view_updateRouteAidSize, view_setArrays, setEcb_setEcb, setEcb_ecb, hrt]
  unfold Ecb.withAids
  rw [hentries, remove_aidInfo]
  dsimp only
  split <;> split <;> rfl

theorem view_removeAll (h : d.Packed) : (d.removeAll env).view = removeAllAids d.view ∧
    (d.removeAll env).Packed := by
  have hempty : ∀ k, (d.arrays k).aidEntries ≠ 0 ↔ (d.view.ecb k).aids ≠ [] := by
    intro k
    rw [Ne, Ne, ← List.length_eq_zero_iff, ← UInt8.toNat_inj]
    exact not_congr (by rw [show (d.view.ecb k).aids.length = _ from length_entries _]; rfl)
  have hfilter : ((List.finRange nfaEeNumEcbs).filter fun k =>
        k ≠ cb4Dh ∧ (d.arrays k).aidEntries ≠ 0) =
      (List.finRange nfaEeNumEcbs).filter fun k => k ≠ cb4Dh ∧ (d.view.ecb k).aids ≠ [] :=
    List.filter_congr fun k _ => decide_eq_decide.mpr (and_congr_right fun _ => hempty k)
  have hecb : (d.removeAll env).view.ecb = (removeAllAids d.view).ecb := by
    funext k
    unfold AidDb.view AidDb.removeAll removeAllAids
    dsimp only [Ee.addFlags, Ee.addCfged]
    by_cases hk : k = cb4Dh ∨ (d.arrays k).aidEntries ≠ 0
    · rw [if_pos hk, if_pos hk]
      exact (if_pos ((or_congr Iff.rfl (hempty k)).mp hk)).symm
    · rw [if_neg hk, if_neg hk]
      exact (if_neg (mt (or_congr Iff.rfl (hempty k)).mpr hk)).symm
  constructor
  · show ({ (d.removeAll env).view with ecb := (d.removeAll env).view.ecb } : Ee) = _
    rw [hecb]
    unfold AidDb.view AidDb.removeAll removeAllAids
    dsimp only [Ee.addFlags, Ee.addCfged]
    rw [hfilter]
    rfl
  · intro k
    unfold AidDb.removeAll
    dsimp only
    split
    · exact trivial
    · exact h k

theorem view_removeAid (h : d.Packed) (aid : Bytes) :
    (d.removeAid env aid).2.view = apiRemoveAid d.view aid ∧ (d.removeAid env aid).2.Packed := by
  unfold AidDb.removeAid apiRemoveAid
  rw [view_findAidOffset]
  cases hfind : findAidOffset d.view aid with
  | some r =>
    obtain ⟨k, entry⟩ := r
    obtain ⟨e, he, -⟩ := findAidOffset_some hfind
    dsimp only [Option.map_some]
    rw [he]
    exact view_removeAt h he
  | none =>
    dsimp only [Option.map_none]
    split
    · exact view_removeAll h
    · exact ⟨rfl, h⟩

end View

end NfcStack.Nfa
