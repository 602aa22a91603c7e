import NfcStack.Lib.Bytes

/- The configuration of the controller (`nfa_dm_check_set_config`). The device manager keeps
   a copy of some of the parameters of the controller. A list of TLVs is compared with the
   copies, and only what is new is sent.

   A parameter is kept either in a buffer of its length or in a buffer with the length of
   the present value beside it. The list is walked in place: for an internal caller the TLVs
   that are to be sent are moved to the front of the list. The list is sent by
   `NFC_SetConfig`, of which the allocation of the command buffer is a parameter.

   What is proved:
     1. `walk_spec`: what a walk over the list leaves of the copies and of the list.
     2. `parseTlvs_flatten`: TLVs that are put behind one another are read back. -/
namespace NfcStack.Nfa

open NfcStack.Lib

/-! ## Parameters -/

/-- How a parameter is kept: the size of its buffer, and whether a length stands beside it. -/
structure ParamSlot where
  maxLen : Nat
  hasLen : Bool
  deriving DecidableEq, Repr

abbrev nfaCeListenInfoMax : Nat := 5
abbrev nfcPmidLfT3tId1 : Nat := 0x40

def paramLenLfT3tId (nciVersion : Nat) : Nat := if nciVersion ≥ 0x20 then 0x12 else 0x0A

/-- The switch over the type: none for a parameter that is not kept. -/
def paramSlot (nciVersion : Nat) (type : UInt8) : Option ParamSlot :=
  match type.toNat with
  | 0x19 => some ⟨1, false⟩ -- NFC_PMID_PF_RC
  | 0x00 => some ⟨2, false⟩ -- NFC_PMID_TOTAL_DURATION
  | 0x30 => some ⟨1, true⟩ -- NFC_PMID_LA_BIT_FRAME_SDD
  | 0x31 => some ⟨1, true⟩ -- NFC_PMID_LA_PLATFORM_CONFIG
  | 0x32 => some ⟨1, true⟩ -- NFC_PMID_LA_SEL_INFO
  | 0x33 => some ⟨10, true⟩ -- NFC_PMID_LA_NFCID1
  | 0x59 => some ⟨50, true⟩ -- NFC_PMID_LA_HIST_BY
  | 0x38 => some ⟨1, true⟩ -- NFC_PMID_LB_SENSB_INFO
  | 0x39 => some ⟨4, true⟩ -- NFC_PMID_LB_NFCID0
  | 0x3A => some ⟨4, true⟩ -- NFC_PMID_LB_APPDATA
  | 0x3C => some ⟨1, true⟩ -- NFC_PMID_LB_ADC_FO
  | 0x80 => some ⟨1, true⟩ -- NFC_PMID_RF_FIELD_INFO
  | 0x5A => some ⟨58, true⟩ -- NFC_PMID_LB_H_INFO
  | 0x50 => some ⟨1, true⟩ -- NFC_PMID_LF_PROTOCOL
  | 0x53 => some ⟨2, true⟩ -- NFC_PMID_LF_T3T_FLAGS2
  | 0x51 => some ⟨8, false⟩ -- NFC_PMID_LF_T3T_PMM
  | 0x58 => some ⟨1, false⟩ -- NFC_PMID_FWI
  | t =>
    if nfcPmidLfT3tId1 ≤ t ∧ t < nfcPmidLfT3tId1 + nfaCeListenInfoMax then
      some ⟨paramLenLfT3tId nciVersion, false⟩
    else none

/-- `tNFA_DM_PARAMS`: the buffers and the lengths beside them, by the type. -/
structure DmParams where
  stored : UInt8 → Nat → UInt8
  curLen : UInt8 → Nat

/-- The first `len` bytes of a buffer. -/
def DmParams.bytes (p : DmParams) (type : UInt8) (len : Nat) : List UInt8 := (List.range len).map (p.stored type)

def DmParams.store (p : DmParams) (type : UInt8) (value : List UInt8) : DmParams :=
  { p with stored := Function.update p.stored type fun i => value.getD i (p.stored type i) }

structure ParamTlv where
  type : UInt8
  value : List UInt8
  deriving DecidableEq, Repr

def ParamTlv.bytes (t : ParamTlv) : List UInt8 := t.type :: UInt8.ofNat t.value.length :: t.value

/-- What the walk does with one TLV: the copies behind it, and whether it is to be sent. A value
that equals the copy is sent only if that is forced (`appl_dta_mode_flag && app_init`). -/
def checkParam (nciVersion : Nat) (forced : Bool) (p : DmParams) (t : ParamTlv) : DmParams × Bool :=
  match paramSlot nciVersion t.type with
  | none => (p, true)
  | some slot =>
    if t.value.length ≤ slot.maxLen then
      if slot.hasLen then
        if p.curLen t.type ≠ t.value.length then
          ({ p with curLen := Function.update p.curLen t.type t.value.length }.store t.type t.value, true)
        else if t.value ≠ p.bytes t.type t.value.length ∨ forced then (p.store t.type t.value, true)
        else (p, false)
      else if t.value.length = slot.maxLen then
        if t.value ≠ p.bytes t.type t.value.length ∨ forced then (p.store t.type t.value, true) else (p, false)
      else (p, false)
    else (p, false)

/-! ## The walk over the list -/

structure ConfigWalk where
  params : DmParams
  list : List UInt8
  xx : Nat
  updatedLen : Nat

def ConfigWalk.tlv (w : ConfigWalk) : ParamTlv :=
  ⟨w.list.getD w.xx 0, slice w.list (w.xx + 2) (w.list.getD (w.xx + 1) 0).toNat⟩

/-- One TLV: for an internal caller it is moved to the front. The two places can overlap, and the
`memcpy` is taken to copy the bytes that were there before, as a `memmove` does. -/
def ConfigWalk.step (nciVersion : Nat) (forced appInit : Bool) (w : ConfigWalk) : ConfigWalk :=
  let len := (w.list.getD (w.xx + 1) 0).toNat
  let (params, update) := checkParam nciVersion forced w.params w.tlv
  { params := params
    list := if update ∧ w.updatedLen ≠ w.xx ∧ ¬ appInit then
      blit w.list w.updatedLen (slice w.list w.xx (len + 2)) else w.list
    xx := w.xx + len + 2
    updatedLen := if update then w.updatedLen + (len + 2) else w.updatedLen }

/-- The loop: false if a TLV does not fit into the list. -/
def walkTlvs (nciVersion : Nat) (forced appInit : Bool) (tlvListLen : Nat) : Nat → ConfigWalk → ConfigWalk × Bool
  | 0, w => (w, true)
  | n + 1, w =>
    if w.xx + 2 ≤ tlvListLen then
      if w.xx + 2 + (w.list.getD (w.xx + 1) 0).toNat > tlvListLen then (w, false)
      else walkTlvs nciVersion forced appInit tlvListLen n (w.step nciVersion forced appInit)
    else (w, true)

/-! ## The command -/

/-- The TLVs of a list, and whether each fits into it. One byte behind the last TLV is left over. -/
def parseTlvs : Nat → List UInt8 → List ParamTlv × Bool
  | n + 1, type :: len :: rest =>
    if len.toNat > rest.length then ([], false)
    else
      let (ts, ok) := parseTlvs n (rest.drop len.toNat)
      (⟨type, rest.take len.toNat⟩ :: ts, ok)
  | _, _ => ([], true)

/-- The payload of a `CORE_SET_CONFIG` command: the length octet of the header, the number of
parameters and the parameters. -/
structure SetConfigCmd where
  lenOctet : UInt8
  num : UInt8
  tlvs : List UInt8
  deriving DecidableEq, Repr

/-- `NFC_SetConfig`: none if there is no buffer, or if a TLV does not fit. -/
def nfcSetConfig (hasBuf : Bool) (tlvs : List UInt8) : Option SetConfigCmd :=
  let (ts, ok) := parseTlvs tlvs.length tlvs
  if hasBuf ∧ ok then some ⟨UInt8.ofNat (tlvs.length + 1), UInt8.ofNat ts.length, tlvs⟩ else none

/-- The parameters that the controller reads: its payload has the length of the header. -/
def SetConfigCmd.received (c : SetConfigCmd) : List ParamTlv :=
  let payload := (c.num :: c.tlvs).take c.lenOctet.toNat
  (parseTlvs payload.tail.length payload.tail).1

/-! ## The control block -/

abbrev nfaDmSetconfigPendingMax : Nat := 32
abbrev nfaDtaDefaultMode : UInt32 := 0x01
abbrev nfaDtaHcefMode : UInt32 := 0x04

structure DmCb where
  params : DmParams
  setcfgPendingMask : BitVec 32
  setcfgPendingNum : Nat
  eDtaMode : UInt32

/-- The outcome of a call: the command that has been sent, and whether the status is OK. -/
structure SetConfigResult where
  cb : DmCb
  sent : Option SetConfigCmd
  ok : Bool

def DmCb.pending (cb : DmCb) (appInit : Bool) : DmCb :=
  let curBit := 1#32 <<< cb.setcfgPendingNum
  { cb with
    setcfgPendingMask := if appInit then cb.setcfgPendingMask ||| curBit else cb.setcfgPendingMask &&& ~~~curBit
    setcfgPendingNum := cb.setcfgPendingNum + 1 }

def DmCb.dtaSent (cb : DmCb) : DmCb :=
  if cb.eDtaMode &&& 0x0F = nfaDtaHcefMode then
    { cb with eDtaMode := (cb.eDtaMode &&& ~~~nfaDtaHcefMode) ||| nfaDtaDefaultMode }
  else cb

def DmCb.dtaDone (cb : DmCb) : DmCb :=
  if cb.eDtaMode &&& nfaDtaHcefMode = nfaDtaHcefMode then
    { cb with eDtaMode := cb.eDtaMode &&& ~~~nfaDtaHcefMode }
  else cb

/-- The end of a call: the command is sent and counted. -/
def sendSetConfig (cb : DmCb) (tlvs : List UInt8) (appInit hasBuf : Bool) : SetConfigResult :=
  match nfcSetConfig hasBuf tlvs with
  | some cmd => ⟨(cb.dtaSent.pending appInit).dtaDone, some cmd, true⟩
  | none => ⟨cb.dtaDone, none, false⟩

/-- `nfa_dm_check_set_config`. The flag is `appl_dta_mode_flag`. -/
def checkSetConfig (nciVersion : Nat) (dta : Bool) (cb : DmCb) (list : List UInt8) (appInit hasBuf : Bool) :
    SetConfigResult :=
  if cb.setcfgPendingNum ≥ nfaDmSetconfigPendingMax then ⟨cb, none, false⟩
  else
    let (w, ok) := walkTlvs nciVersion (dta && appInit) appInit list.length list.length ⟨cb.params, list, 0, 0⟩
    let cb := { cb with params := w.params }
    if ¬ ok then ⟨cb, none, false⟩
    else if ((w.updatedLen ≠ 0 ∨ appInit) ∧ (¬ dta ∨ cb.eDtaMode &&& 0x0F = nfaDtaHcefMode)) ∨ (dta ∧ appInit) then
      sendSetConfig cb (w.list.take w.updatedLen) appInit hasBuf
    else ⟨cb, none, true⟩

/-! ## What a walk does -/

/-- The TLVs of a list against the copies: the copies behind them, and those that are to be sent. -/
def checkAll (nciVersion : Nat) (forced : Bool) : DmParams → List ParamTlv → DmParams × List ParamTlv
  | p, [] => (p, [])
  | p, t :: ts =>
    let r := checkAll nciVersion forced (checkParam nciVersion forced p t).1 ts
    (r.1, if (checkParam nciVersion forced p t).2 then t :: r.2 else r.2)

section Walk
variable {nciVersion : Nat} {forced appInit : Bool} {w : ConfigWalk}

theorem parseTlvs_cons {n : Nat} {type len : UInt8} {rest : List UInt8} (h : len.toNat ≤ rest.length) :
    parseTlvs (n + 1) (type :: len :: rest) =
      (⟨type, rest.take len.toNat⟩ :: (parseTlvs n (rest.drop len.toNat)).1, (parseTlvs n (rest.drop len.toNat)).2) := by
  rw [parseTlvs, if_neg (by omega)]

theorem parseTlvs_short {n : Nat} {bytes : List UInt8} (h : bytes.length < 2) : parseTlvs n bytes = ([], true) := by
  rcases n with _ | n
  · rfl
  · rcases bytes with _ | ⟨a, _ | ⟨b, rest⟩⟩
    · rfl
    · rfl
    · simp at h

theorem parseTlvs_misfit {n : Nat} {type len : UInt8} {rest : List UInt8} (h : rest.length < len.toNat) :
    parseTlvs (n + 1) (type :: len :: rest) = ([], false) := by
  unfold parseTlvs
  rw [if_pos h]

theorem ConfigWalk.drop_xx (h : w.xx + 2 ≤ w.list.length) :
    w.list.drop w.xx = w.tlv.type :: w.list.getD (w.xx + 1) 0 :: w.list.drop (w.xx + 2) := by
  have h0 : w.xx < w.list.length := by omega
  have h1 : w.xx + 1 < w.list.length := by omega
  rw [List.drop_eq_getElem_cons h0, List.drop_eq_getElem_cons h1]
  unfold ConfigWalk.tlv
  rw [List.getD_eq_getElem _ _ h0, List.getD_eq_getElem _ _ h1]

theorem ConfigWalk.tlv_bytes (h : w.xx + 2 + (w.list.getD (w.xx + 1) 0).toNat ≤ w.list.length) :
    slice w.list w.xx ((w.list.getD (w.xx + 1) 0).toNat + 2) = w.tlv.bytes := by
  have hlen : w.tlv.value.length = (w.list.getD (w.xx + 1) 0).toNat := length_slice (by omega)
  unfold slice
  rw [w.drop_xx (by omega), Nat.add_comm, Nat.add_comm 2, List.take_succ_cons, List.take_succ_cons]
  unfold ParamTlv.bytes
  rw [hlen, UInt8.ofNat_toNat]
  rfl

theorem ConfigWalk.step_list (hle : w.updatedLen ≤ w.xx)
    (hfit : w.xx + 2 + (w.list.getD (w.xx + 1) 0).toNat ≤ w.list.length) :
    (w.step nciVersion forced appInit).list.length = w.list.length ∧
      (w.step nciVersion forced appInit).list.drop (w.step nciVersion forced appInit).xx =
        (w.list.drop (w.xx + 2)).drop (w.list.getD (w.xx + 1) 0).toNat ∧
      (appInit = true → (w.step nciVersion forced appInit).list = w.list) ∧
      (appInit = false → (w.step nciVersion forced appInit).list.take
          (w.step nciVersion forced appInit).updatedLen = w.list.take w.updatedLen ++
        if (checkParam nciVersion forced w.params w.tlv).2 then w.tlv.bytes else []) := by
  have hbytes := w.tlv_bytes hfit
  have hslice : (slice w.list w.xx ((w.list.getD (w.xx + 1) 0).toNat + 2)).length =
      (w.list.getD (w.xx + 1) 0).toNat + 2 := length_slice (by omega)
  have hdrop : w.list.drop (w.xx + (w.list.getD (w.xx + 1) 0).toNat + 2) =
      (w.list.drop (w.xx + 2)).drop (w.list.getD (w.xx + 1) 0).toNat := by
    rw [List.drop_drop]
    congr 1
    omega
  unfold ConfigWalk.step
  dsimp only
  generalize (w.list.getD (w.xx + 1) 0).toNat = len at *
  generalize checkParam nciVersion forced w.params w.tlv = r
  obtain ⟨params, update⟩ := r
  dsimp only
  cases update with
  | false =>
    simp only [Bool.false_eq_true, false_and, if_false]
    exact ⟨trivial, hdrop, fun _ => trivial, fun _ => (List.append_nil _).symm⟩
  | true =>
    simp only [true_and, if_true]
    split
    · rename_i hmove
      have hpre : (w.list.take w.updatedLen).length = w.updatedLen := by
        rw [List.length_take]
        omega
      refine ⟨length_blit (by rw [hslice]; omega), ?_, fun happ => absurd happ hmove.2, fun _ => ?_⟩
      · rw [← hdrop]
        unfold blit
        rw [hslice, List.drop_append, List.drop_eq_nil_of_le (by
          rw [List.length_append, hpre, hslice]; omega), List.nil_append, List.length_append, hpre, hslice,
          List.drop_drop]
        congr 1
        omega
      · unfold blit
        rw [List.take_append_of_le_length (by rw [List.length_append, hpre, hslice]),
          List.take_of_length_le (by rw [List.length_append, hpre, hslice]), hbytes]
    · rename_i hstay
      refine ⟨rfl, hdrop, fun _ => rfl, fun happ => ?_⟩
      have heq : w.updatedLen = w.xx := by
        by_contra hne
        exact hstay ⟨hne, by rw [happ]; nofun⟩
      rw [heq, List.take_add, ← hbytes]
      rfl

theorem walk_spec {len : Nat} (n : Nat) : ∀ {w : ConfigWalk}, w.list.length = len → w.updatedLen ≤ w.xx →
    (walkTlvs nciVersion forced appInit len n w).2 = (parseTlvs n (w.list.drop w.xx)).2 ∧
    (walkTlvs nciVersion forced appInit len n w).1.params =
      (checkAll nciVersion forced w.params (parseTlvs n (w.list.drop w.xx)).1).1 ∧
    (walkTlvs nciVersion forced appInit len n w).1.updatedLen = w.updatedLen +
      ((checkAll nciVersion forced w.params (parseTlvs n (w.list.drop w.xx)).1).2.flatMap ParamTlv.bytes).length ∧
    (appInit = true → (walkTlvs nciVersion forced appInit len n w).1.list = w.list) ∧
    (appInit = false → (walkTlvs nciVersion forced appInit len n w).1.list.take
        (walkTlvs nciVersion forced appInit len n w).1.updatedLen = w.list.take w.updatedLen ++
      (checkAll nciVersion forced w.params (parseTlvs n (w.list.drop w.xx)).1).2.flatMap ParamTlv.bytes) := by
  induction n with
  | zero =>
    intro w hlen hle
    unfold walkTlvs
    rw [parseTlvs]
    · exact ⟨rfl, rfl, rfl, fun _ => rfl, fun _ => (List.append_nil _).symm⟩
    · nofun
  | succ n ih =>
    intro w hlen hle
    rw [walkTlvs]
    by_cases hmore : w.xx + 2 ≤ len
    · rw [if_pos hmore, w.drop_xx (by omega)]
      by_cases hfit : w.xx + 2 + (w.list.getD (w.xx + 1) 0).toNat > len
      · rw [if_pos hfit, parseTlvs_misfit (by rw [List.length_drop]; omega)]
        exact ⟨rfl, rfl, rfl, fun _ => rfl, fun _ => (List.append_nil _).symm⟩
      · rw [if_neg hfit, parseTlvs_cons (by rw [List.length_drop]; omega)]
        obtain ⟨hlen', hdrop, happ, hint⟩ := @ConfigWalk.step_list nciVersion forced appInit w hle (by omega)
        have htlv : (⟨w.tlv.type, (w.list.drop (w.xx + 2)).take (w.list.getD (w.xx + 1) 0).toNat⟩ : ParamTlv) =
          w.tlv := rfl
        rw [htlv]
        have hbytes : w.tlv.bytes.length = (w.list.getD (w.xx + 1) 0).toNat + 2 := by
          rw [← w.tlv_bytes (by omega)]
          exact length_slice (by omega)
        obtain ⟨hok, hparams, hupd, hlist, htake⟩ := @ih (w.step nciVersion forced appInit) (hlen'.trans hlen) (by
          unfold ConfigWalk.step
          dsimp only
          split <;> omega)
        rw [hdrop] at hok hparams hupd htake
        have hp : (w.step nciVersion forced appInit).params = (checkParam nciVersion forced w.params w.tlv).1 := rfl
        have hu : (w.step nciVersion forced appInit).updatedLen =
            if (checkParam nciVersion forced w.params w.tlv).2 then
              w.updatedLen + ((w.list.getD (w.xx + 1) 0).toNat + 2) else w.updatedLen := rfl
        refine ⟨hok, ?_, ?_, fun h => (hlist h).trans (happ h), fun h => ?_⟩
        · rw [hparams, hp]
          rfl
        · rw [hupd, hp, hu]
          dsimp only [checkAll]
          split
          · rw [List.flatMap_cons, List.length_append, hbytes]
            omega
          · rfl
        · rw [htake h, hint h, hp]
          dsimp only [checkAll]
          split
          · rw [List.flatMap_cons, List.append_assoc]
          · rw [List.append_nil]
    · rw [if_neg hmore, parseTlvs_short (by rw [List.length_drop]; omega)]
      exact ⟨rfl, rfl, rfl, fun _ => rfl, fun _ => (List.append_nil _).symm⟩

/-! ## TLVs behind one another -/

/-- A TLV of which the length fits its octet. -/
def ParamTlv.Fits (t : ParamTlv) : Prop := t.value.length < 256

theorem parseTlvs_bytes_append {n : Nat} {t : ParamTlv} (ht : t.Fits) (rest : List UInt8) :
    parseTlvs (n + 1) (t.bytes ++ rest) = (t :: (parseTlvs n rest).1, (parseTlvs n rest).2) := by
  have hlen : (UInt8.ofNat t.value.length).toNat = t.value.length := UInt8.toNat_ofNat_of_lt' ht
  have hcons := @parseTlvs_cons n t.type (UInt8.ofNat t.value.length) (t.value ++ rest)
    (by rw [hlen, List.length_append]; omega)
  rw [hlen, List.take_left, List.drop_left] at hcons
  exact hcons

theorem parseTlvs_fits (n : Nat) : ∀ (bytes : List UInt8), ∀ t ∈ (parseTlvs n bytes).1, t.Fits := by
  induction n with
  | zero =>
    intro bytes t ht
    rw [parseTlvs] at ht
    · cases ht
    · nofun
  | succ n ih =>
    intro bytes t ht
    rcases Nat.lt_or_ge bytes.length 2 with hshort | hlong
    · rw [parseTlvs_short hshort] at ht
      cases ht
    · obtain ⟨type, len, rest, rfl⟩ : ∃ type len rest, bytes = type :: len :: rest := by
        rcases bytes with _ | ⟨a, _ | ⟨b, rest⟩⟩
        · simp at hlong
        · simp at hlong
        · exact ⟨a, b, rest, rfl⟩
      rcases Nat.lt_or_ge rest.length len.toNat with hmisfit | hfit
      · rw [parseTlvs_misfit hmisfit] at ht
        cases ht
      · rw [parseTlvs_cons hfit] at ht
        rcases List.mem_cons.mp ht with rfl | ht
        · have := len.toNat_lt
          show (rest.take len.toNat).length < 256
          rw [List.length_take]
          omega
        · exact ih _ t ht

theorem parseTlvs_flatten_append (us : List ParamTlv) : ∀ (n : Nat) (rest : List UInt8), (∀ t ∈ us, t.Fits) →
    parseTlvs (us.length + n) (us.flatMap ParamTlv.bytes ++ rest) =
      (us ++ (parseTlvs n rest).1, (parseTlvs n rest).2) := by
  induction us with
  | nil =>
    intro n rest _
    rw [List.length_nil, Nat.zero_add]
    rfl
  | cons u us ih =>
    intro n rest hus
    rw [List.flatMap_cons, List.append_assoc, List.length_cons, Nat.add_right_comm,
      parseTlvs_bytes_append (hus u List.mem_cons_self), ih n rest fun t ht => hus t (List.mem_cons_of_mem _ ht)]
    rfl

theorem length_le_tlvBytes (us : List ParamTlv) : us.length ≤ (us.flatMap ParamTlv.bytes).length := by
  induction us with
  | nil => exact Nat.le_refl 0
  | cons u us ih =>
    rw [List.flatMap_cons, List.length_append, List.length_cons]
    have : 0 < u.bytes.length := Nat.succ_pos _
    omega

theorem parseTlvs_flatten {us : List ParamTlv} (hus : ∀ t ∈ us, t.Fits) {n : Nat}
    (hn : (us.flatMap ParamTlv.bytes).length ≤ n) : parseTlvs n (us.flatMap ParamTlv.bytes) = (us, true) := by
  have hle := length_le_tlvBytes us
  have h := parseTlvs_flatten_append us (n - us.length) [] hus
  rw [List.append_nil, show us.length + (n - us.length) = n by omega, @parseTlvs_short (n - us.length) [] (by decide)] at h
  simpa using h

theorem parseTlvs_begins (n : Nat) : ∀ (bytes : List UInt8),
    ∃ tail, (parseTlvs n bytes).1.flatMap ParamTlv.bytes ++ tail = bytes := by
  induction n with
  | zero =>
    intro bytes
    rw [parseTlvs]
    · exact ⟨bytes, rfl⟩
    · nofun
  | succ n ih =>
    intro bytes
    rcases Nat.lt_or_ge bytes.length 2 with hshort | hlong
    · rw [parseTlvs_short hshort]
      exact ⟨bytes, rfl⟩
    · obtain ⟨type, len, rest, rfl⟩ : ∃ type len rest, bytes = type :: len :: rest := by
        rcases bytes with _ | ⟨a, _ | ⟨b, rest⟩⟩
        · simp at hlong
        · simp at hlong
        · exact ⟨a, b, rest, rfl⟩
      rcases Nat.lt_or_ge rest.length len.toNat with hmisfit | hfit
      · rw [parseTlvs_misfit hmisfit]
        exact ⟨_, rfl⟩
      · rw [parseTlvs_cons hfit, List.flatMap_cons]
        obtain ⟨tail, htail⟩ := ih (rest.drop len.toNat)
        refine ⟨tail, ?_⟩
        rw [List.append_assoc, htail]
        show type :: UInt8.ofNat (rest.take len.toNat).length :: (rest.take len.toNat ++ rest.drop len.toNat) = _
        rw [List.length_take, Nat.min_eq_left hfit, UInt8.ofNat_toNat, List.take_append_drop]

end Walk

end NfcStack.Nfa
