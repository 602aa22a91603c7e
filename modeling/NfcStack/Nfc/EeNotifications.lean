import NfcStack.Nfc.ControlBlock

/- Two notifications about NFCEEs, `nfc_ncif_proc_ee_action` and
   `nfc_ncif_proc_ee_discover_req`. A pointer is the bytes from it to the end of the
   notification, and `none` is a read behind that end.

   What is proved:
     1. `procEeAction_inside`: the action notification is read inside its bytes, whatever they are.
     2. `app_init_reported`: the values of the TLVs are reported, each cut to its field, if every
        TLV with another one behind it is read to its end.
     3. `discover_req_exact_iff`: the number of entries of a discovery request is right unless
        the notification ends before the entries it announces. -/
namespace NfcStack.Nfc

/-! ## The action of an NFCEE -/

def nciEeTrig7816Select : UInt8 := 0x00
def nciEeTrigRfProtocol : UInt8 := 0x01
def nciEeTrigRfTechnology : UInt8 := 0x02
def nciEeTrigAppInit : UInt8 := 0x10
def nciEeActTagAid : UInt8 := 0xC0
def nciEeActTagData : UInt8 := 0xC3
abbrev nfcMaxAidLen : Nat := 16
abbrev nfcMaxAppDataLen : Nat := 40
abbrev nfcTlSize : Nat := 2
def nfcStatusFailed : UInt8 := 0x03

/-- `tNFC_APP_INIT`, each array with its length. -/
structure AppInit where
  aid : Bytes
  data : Bytes
  deriving DecidableEq, Repr

/-- `tNFC_ACTION_DATA`; the members of the union lie side by side. -/
structure ActionData where
  trigger : UInt8
  protocol : UInt8
  technology : UInt8
  aid : Bytes
  appInit : AppInit
  deriving DecidableEq, Repr

def ActionData.zero : ActionData := ⟨0, 0, 0, [], ⟨[], []⟩⟩

def ActionData.of (trigger : UInt8) : ActionData := { ActionData.zero with trigger := trigger }

structure EeActionRevt where
  status : UInt8
  nfceeId : UInt8
  actData : ActionData
  deriving DecidableEq, Repr

/-- `STREAM_TO_ARRAY`: the bytes and what is behind them. -/
def streamToArray (p : Bytes) (len : Nat) : Option (Bytes × Bytes) :=
  if len ≤ p.length then some (p.take len, p.drop len) else none

/-- The size of the field for a tag. -/
def fieldSize (tag : UInt8) : Option Nat :=
  if tag = nciEeActTagAid then some nfcMaxAidLen
  else if tag = nciEeActTagData then some nfcMaxAppDataLen
  else none

/-- A value goes to the field of its tag. -/
def AppInit.put (app : AppInit) (tag : UInt8) (value : Bytes) : AppInit :=
  if tag = nciEeActTagAid then { app with aid := value } else { app with data := value }

/-- The loop of NCI_EE_TRIG_APP_INIT. The pointer passes over what is copied only. -/
def appInitLoop : Nat → Nat → Bytes → AppInit → Option AppInit
  | 0, _, _, _ => none
  | fuel + 1, dataLen, p, app =>
    if dataLen > nfcTlSize then
      match p with
      | tag :: len :: p =>
        let ulen := if len.toNat > dataLen - nfcTlSize then dataLen - nfcTlSize else len.toNat
        match fieldSize tag with
        | none => appInitLoop fuel (dataLen - nfcTlSize - ulen) p app
        | some size =>
          (streamToArray p (if ulen > size then size else ulen)).bind fun x =>
            appInitLoop fuel (dataLen - nfcTlSize - ulen) x.2 (app.put tag x.1)
      | _ => none
    else some app

/-- The `switch` over the trigger; `p` is behind the length of the supporting data. -/
def actionData (trigger : UInt8) (dataLen : Nat) (p : Bytes) : Option ActionData :=
  if trigger = nciEeTrig7816Select then
    (streamToArray p (if dataLen > nfcMaxAidLen then nfcMaxAidLen else dataLen)).map fun x =>
      { ActionData.of trigger with aid := x.1 }
  else if trigger = nciEeTrigRfProtocol then
    p.head?.map fun b => { ActionData.of trigger with protocol := b }
  else if trigger = nciEeTrigRfTechnology then
    p.head?.map fun b => { ActionData.of trigger with technology := b }
  else if trigger = nciEeTrigAppInit then
    (appInitLoop (dataLen + 1) dataLen p ActionData.zero.appInit).map fun app =>
      { ActionData.of trigger with appInit := app }
  else some (ActionData.of trigger)

/-- `nfc_ncif_proc_ee_action`, with what the response callback is told. -/
def nfcNcifProcEeAction (pRespCback : Bool) (ntf : Bytes) : Option (List EeActionRevt) :=
  if pRespCback then
    if ntf.length > 3 then
      match ntf with
      | nfceeId :: trigger :: len :: p =>
        let dataLen := if len.toNat > p.length then p.length else len.toNat
        (actionData trigger dataLen p).map fun act => [⟨nfcStatusOk, nfceeId, act⟩]
      | _ => none
    else some [⟨nfcStatusFailed, 0, ActionData.zero⟩]
  else some []

/-- A TLV of the supporting data, with a length of one byte. -/
structure EeTlv where
  tag : UInt8
  value : Bytes
  fits : value.length < 256
  deriving Repr

def EeTlv.bytes (t : EeTlv) : Bytes := t.tag :: UInt8.ofNat t.value.length :: t.value

def tlvBytes (ts : List EeTlv) : Bytes := ts.flatMap EeTlv.bytes

/-- The TLVs that are looked at: an empty one at the end is not. -/
def seen : List EeTlv → List EeTlv
  | [] => []
  | [t] => if t.value = [] then [] else [t]
  | t :: t' :: ts => t :: seen (t' :: ts)

/-- The value of the last TLV with this tag, cut to the size of its field. -/
def lastValue (tag : UInt8) (size : Nat) (fallback : Bytes) (ts : List EeTlv) : Bytes :=
  ((ts.reverse.find? fun t => t.tag == tag).map fun t => t.value.take size).getD fallback

/-- The pointer is behind the value when the TLV is done. -/
def EeTlv.Passed (t : EeTlv) : Prop :=
  t.value = [] ∨ ∃ size ∈ fieldSize t.tag, t.value.length ≤ size

section AppInit
variable {app : AppInit}

theorem streamToArray_some {p : Bytes} {len : Nat} (h : len ≤ p.length) :
    streamToArray p len = some (p.take len, p.drop len) := if_pos h

theorem lastValue_cons (tag : UInt8) (size : Nat) (fallback : Bytes) (t : EeTlv) (ts : List EeTlv) :
    lastValue tag size fallback (t :: ts) =
      lastValue tag size (if t.tag = tag then t.value.take size else fallback) ts := by
  unfold lastValue
  rw [List.reverse_cons, List.find?_append]
  cases ts.reverse.find? fun t => t.tag == tag with
  | some u => simp
  | none => by_cases h : t.tag = tag <;> simp [h]

theorem appInitLoop_inside (fuel : Nat) : ∀ {dataLen : Nat} {p : Bytes} {app : AppInit},
    dataLen ≤ p.length → dataLen < fuel → (appInitLoop fuel dataLen p app).isSome = true := by
  induction fuel with
  | zero =>
    intro dataLen p app _ hfuel
    omega
  | succ fuel ih =>
    intro dataLen p app hlen hfuel
    unfold appInitLoop
    split
    · next hmore =>
      change 2 < dataLen at hmore
      match p with
      | [] =>
        rw [List.length_nil] at hlen
        omega
      | [_] =>
        rw [List.length_singleton] at hlen
        omega
      | tag :: len :: p =>
        rw [List.length_cons, List.length_cons] at hlen
        dsimp only
        generalize hulen : (if len.toNat > dataLen - nfcTlSize then dataLen - nfcTlSize else len.toNat) = ulen
        have hle : ulen ≤ dataLen - 2 := by
          rw [← hulen]
          change (if len.toNat > dataLen - 2 then dataLen - 2 else len.toNat) ≤ _
          split <;> omega
        split
        · apply ih
          · change dataLen - 2 - ulen ≤ _
            omega
          · change dataLen - 2 - ulen < _
            omega
        · next size _ =>
          have hcopy : (if ulen > size then size else ulen) ≤ ulen := by split <;> omega
          rw [streamToArray_some (by omega), Option.bind_some]
          apply ih
          · rw [List.length_drop]
            change dataLen - 2 - ulen ≤ _
            omega
          · change dataLen - 2 - ulen < _
            omega
    · rfl

theorem procEeAction_inside (pRespCback : Bool) (ntf : Bytes) :
    (nfcNcifProcEeAction pRespCback ntf).isSome = true := by
  unfold nfcNcifProcEeAction
  split
  · split
    · next hlen =>
      match ntf with
      | [] | [_] | [_, _] =>
        simp only [List.length_cons, List.length_nil] at hlen
        omega
      | nfceeId :: trigger :: len :: p =>
        simp only [List.length_cons] at hlen
        dsimp only
        rw [Option.isSome_map]
        generalize hd : (if len.toNat > p.length then p.length else len.toNat) = dataLen
        have hle : dataLen ≤ p.length := by
          rw [← hd]
          split <;> omega
        have hhead : p.head?.isSome = true := by
          cases p with
          | nil =>
            rw [List.length_nil] at hlen
            omega
          | cons _ _ => rfl
        have hcopy : (if dataLen > nfcMaxAidLen then nfcMaxAidLen else dataLen) ≤ p.length := by
          split <;> omega
        unfold actionData
        rw [streamToArray_some hcopy]
        split
        · rfl
        · split
          · rw [Option.isSome_map, hhead]
          · split
            · rw [Option.isSome_map, hhead]
            · split
              · rw [Option.isSome_map]
                exact appInitLoop_inside _ hle (by omega)
              · rfl
    · rfl
  · rfl

theorem appInitLoop_stop {fuel dataLen : Nat} {p : Bytes} (h : dataLen ≤ 2) :
    appInitLoop (fuel + 1) dataLen p app = some app := by
  unfold appInitLoop
  rw [if_neg]
  change ¬ 2 < dataLen
  omega

/-- What is stored for one TLV. -/
def AppInit.take (app : AppInit) (t : EeTlv) : AppInit :=
  match fieldSize t.tag with
  | none => app
  | some size => app.put t.tag (t.value.take size)

theorem appInitLoop_tlv {fuel : Nat} (t : EeTlv) {rest : Bytes} {n : Nat}
    (hmore : 0 < t.value.length + n) :
    ∃ p, appInitLoop (fuel + 1) (t.bytes.length + n) (t.bytes ++ rest) app =
        appInitLoop fuel n p (app.take t) ∧ (t.Passed → p = rest) := by
  have hlen : (UInt8.ofNat t.value.length).toNat = t.value.length := UInt8.toNat_ofNat_of_lt' t.fits
  have hbytes : t.bytes.length = t.value.length + 2 := rfl
  have hgo : t.bytes.length + n > nfcTlSize := by
    change 2 < _
    omega
  have hulen : ¬ (UInt8.ofNat t.value.length).toNat > t.bytes.length + n - nfcTlSize := by
    rw [hlen]
    change ¬ t.bytes.length + n - 2 < _
    omega
  have hleft : t.bytes.length + n - nfcTlSize - (UInt8.ofNat t.value.length).toNat = n := by
    rw [hlen]
    change t.bytes.length + n - 2 - _ = _
    omega
  rw [appInitLoop.eq_def, show t.bytes ++ rest = t.tag :: UInt8.ofNat t.value.length :: (t.value ++ rest) from rfl]
  dsimp only
  rw [if_pos hgo, if_neg hulen, hleft]
  unfold AppInit.take EeTlv.Passed
  cases hsize : fieldSize t.tag with
  | none =>
    refine ⟨_, rfl, ?_⟩
    rintro (hempty | ⟨size, hno, _⟩)
    · rw [hempty, List.nil_append]
    · cases hno
  | some size =>
    dsimp only
    rw [hlen]
    have hcopy : (if t.value.length > size then size else t.value.length) = min t.value.length size := by
      split <;> omega
    rw [hcopy, streamToArray_some (by rw [List.length_append]; omega), Option.bind_some,
      List.take_append_of_le_length (Nat.min_le_left _ _)]
    have htake : t.value.take (min t.value.length size) = t.value.take size := by
      rw [Nat.min_comm, ← List.take_take, List.take_length]
    rw [htake]
    refine ⟨_, rfl, ?_⟩
    rintro (hempty | ⟨size', hsize', hfit⟩)
    · rw [hempty]
      simp
    · obtain rfl := Option.some.inj hsize'
      rw [Nat.min_eq_left hfit, List.drop_left]

theorem take_aid (app : AppInit) (t : EeTlv) :
    (app.take t).aid = if t.tag = nciEeActTagAid then t.value.take nfcMaxAidLen else app.aid := by
  unfold AppInit.take fieldSize AppInit.put
  split_ifs <;> rfl

theorem take_data (app : AppInit) (t : EeTlv) :
    (app.take t).data = if t.tag = nciEeActTagData then t.value.take nfcMaxAppDataLen else app.data := by
  unfold AppInit.take fieldSize AppInit.put
  by_cases haid : t.tag = nciEeActTagAid
  · simp [haid, show nciEeActTagAid ≠ nciEeActTagData by decide]
  · split_ifs <;> rfl

/-- The fields after the TLVs. -/
def AppInit.after (app : AppInit) (ts : List EeTlv) : AppInit :=
  ⟨lastValue nciEeActTagAid nfcMaxAidLen app.aid ts, lastValue nciEeActTagData nfcMaxAppDataLen app.data ts⟩

theorem AppInit.after_cons (t : EeTlv) (ts : List EeTlv) : app.after (t :: ts) = (app.take t).after ts := by
  unfold AppInit.after
  rw [lastValue_cons, lastValue_cons, take_aid, take_data]

theorem tlvBytes_cons (t : EeTlv) (ts : List EeTlv) : tlvBytes (t :: ts) = t.bytes ++ tlvBytes ts :=
  List.flatMap_cons

theorem appInitLoop_tlvs : ∀ (ts : List EeTlv) {fuel : Nat} {app : AppInit} {tail : Bytes},
    (∀ t ∈ (seen ts).dropLast, t.Passed) → (tlvBytes ts).length < fuel →
    appInitLoop fuel (tlvBytes ts).length (tlvBytes ts ++ tail) app = some (app.after (seen ts)) := by
  intro ts
  induction ts with
  | nil =>
    intro fuel app tail _ hfuel
    obtain ⟨fuel, rfl⟩ := Nat.exists_eq_add_one_of_ne_zero (Nat.ne_of_gt (Nat.zero_lt_of_lt hfuel))
    exact appInitLoop_stop (Nat.zero_le 2)
  | cons t ts ih =>
    intro fuel app tail hpassed hfuel
    obtain ⟨fuel, rfl⟩ := Nat.exists_eq_add_one_of_ne_zero (Nat.ne_of_gt (Nat.zero_lt_of_lt hfuel))
    rw [tlvBytes_cons, List.length_append] at hfuel ⊢
    rw [List.append_assoc]
    have hbytes : t.bytes.length = t.value.length + 2 := rfl
    match ts with
    | [] =>
      by_cases hempty : t.value = []
      · have hshort : t.bytes.length + (tlvBytes []).length ≤ 2 := by
          rw [hbytes, hempty]
          exact Nat.le_refl 2
        rw [appInitLoop_stop hshort]
        unfold seen
        rw [if_pos hempty]
        rfl
      · have hpos : 0 < t.value.length := List.length_pos_iff.mpr hempty
        obtain ⟨p, hp, -⟩ := @appInitLoop_tlv app fuel t (tlvBytes [] ++ tail) (tlvBytes []).length
          (by omega)
        rw [hp]
        obtain ⟨fuel, rfl⟩ := Nat.exists_eq_add_one_of_ne_zero (show fuel ≠ 0 by omega)
        rw [appInitLoop_stop (show (tlvBytes []).length ≤ 2 from Nat.zero_le 2)]
        unfold seen
        rw [if_neg hempty, AppInit.after_cons]
        rfl
    | t' :: ts =>
      have hmore : 0 < (tlvBytes (t' :: ts)).length := by
        rw [tlvBytes_cons, List.length_append]
        change 0 < t'.value.length + 2 + _
        omega
      obtain ⟨p, hp, hkept⟩ := @appInitLoop_tlv app fuel t (tlvBytes (t' :: ts) ++ tail)
        (tlvBytes (t' :: ts)).length (by omega)
      rw [hp, seen, AppInit.after_cons]
      rw [seen] at hpassed
      by_cases hnone : seen (t' :: ts) = []
      · -- only an empty TLV is left, and it is not looked at
        have hlast : ts = [] ∧ t'.value = [] := by
          match ts with
          | [] =>
            refine ⟨rfl, ?_⟩
            by_contra hne
            unfold seen at hnone
            rw [if_neg hne] at hnone
            cases hnone
          | u :: us => cases hnone
        have hshort : (tlvBytes (t' :: ts)).length ≤ 2 := by
          rw [hlast.1, tlvBytes_cons, List.length_append]
          change t'.value.length + 2 + 0 ≤ 2
          rw [hlast.2]
          exact Nat.le_refl 2
        obtain ⟨fuel, rfl⟩ := Nat.exists_eq_add_one_of_ne_zero (show fuel ≠ 0 by omega)
        rw [appInitLoop_stop hshort, hnone]
        rfl
      · rw [List.dropLast_cons_of_ne_nil hnone] at hpassed
        rw [hkept (hpassed t List.mem_cons_self)]
        exact ih (fun u hu => hpassed u (List.mem_cons_of_mem t hu)) (by omega)

end AppInit

theorem app_init_reported (nfceeId : UInt8) (ts : List EeTlv) (tail : Bytes)
    (hlen : (tlvBytes ts).length < 256) (hpassed : ∀ t ∈ (seen ts).dropLast, t.Passed) :
    ∃ r, nfcNcifProcEeAction true
        (nfceeId :: nciEeTrigAppInit :: UInt8.ofNat (tlvBytes ts).length :: (tlvBytes ts ++ tail)) = some [r] ∧
      r.actData.appInit.aid = lastValue nciEeActTagAid nfcMaxAidLen [] (seen ts) ∧
      r.actData.appInit.data = lastValue nciEeActTagData nfcMaxAppDataLen [] (seen ts) := by
  unfold nfcNcifProcEeAction
  rw [if_pos rfl]
  split
  · dsimp only
    rw [UInt8.toNat_ofNat_of_lt' hlen, if_neg (by rw [List.length_append]; omega)]
    have hloop := @appInitLoop_tlvs ts ((tlvBytes ts).length + 1) ⟨[], []⟩ tail hpassed (Nat.lt_succ_self _)
    unfold actionData
    rw [if_neg (by decide), if_neg (by decide), if_neg (by decide), if_pos rfl]
    rw [show ActionData.zero.appInit = ⟨[], []⟩ from rfl, hloop]
    exact ⟨_, rfl, rfl, rfl⟩
  · next hshort =>
    -- three bytes: there is no TLV to report
    have hnil : tlvBytes ts = [] := by
      apply List.eq_nil_of_length_eq_zero
      simp only [List.length_cons, List.length_append] at hshort
      omega
    match ts with
    | [] => exact ⟨_, rfl, rfl, rfl⟩
    | t :: ts =>
      rw [tlvBytes_cons] at hnil
      cases hnil

/-- An unknown TLV behind the AID and the data is no harm. -/
theorem app_init_reported_unknown_last :
    ∃ r, nfcNcifProcEeAction true [0x01, 0x10, 0x0A, 0xC3, 1, 7, 0xC0, 1, 9, 0x4F, 2, 5, 5] = some [r] ∧
      r.actData.appInit.aid = [9] ∧ r.actData.appInit.data = [7] :=
  app_init_reported 0x01 [⟨0xC3, [7], by decide⟩, ⟨0xC0, [9], by decide⟩, ⟨0x4F, [5, 5], by decide⟩] []
    (by decide) (by
      intro t ht
      have ht' : t = ⟨0xC3, [7], by decide⟩ ∨ t = ⟨0xC0, [9], by decide⟩ := by simpa [seen] using ht
      rcases ht' with rfl | rfl
      · exact .inr ⟨40, rfl, by decide⟩
      · exact .inr ⟨16, rfl, by decide⟩)

/-- The tags 0x4F and 0x53 are unknown: no AID and no data are reported. -/
theorem iso_tags_not_reported :
    (nfcNcifProcEeAction true [0x01, 0x10, 0x06, 0x4F, 1, 9, 0x53, 1, 7]).map
      (fun rs => rs.map fun r => (r.actData.appInit.aid, r.actData.appInit.data)) = some [([], [])] := by
  decide

/-! ## The discovery requests of NFCEEs -/

abbrev nfcMaxEeDiscEntries : Nat := 6
abbrev nfcEeDiscoverEntryLen : Nat := 5
def nfcEeDiscoverInfoLen : UInt8 := 3

structure EeDiscoverInfo where
  op : UInt8
  nfceeId : UInt8
  techNMode : UInt8
  protocol : UInt8
  deriving DecidableEq, Repr

structure EeDiscoverReqRevt where
  status : UInt8
  numInfo : UInt8
  info : List EeDiscoverInfo
  deriving DecidableEq, Repr

/-- The loop over the entries, with the ones decoded so far. An entry of the wrong length ends the
function without a report. -/
def discoverLoop : Nat → Nat → Bytes → List EeDiscoverInfo → Option (Option (List EeDiscoverInfo))
  | 0, _, _, info => some (some info)
  | u8 + 1, plen, p, info =>
    if plen ≥ nfcEeDiscoverEntryLen then
      match p with
      | op :: len :: p =>
        if len ≠ nfcEeDiscoverInfoLen then some none
        else
          match p with
          | nfceeId :: techNMode :: protocol :: p =>
            discoverLoop u8 (plen - nfcEeDiscoverEntryLen) p (info ++ [⟨op, nfceeId, techNMode, protocol⟩])
          | _ => none
      | _ => none
    else some (some info)

/-- `nfc_ncif_proc_ee_discover_req`; `stack` is what the array holds before. -/
def nfcNcifProcEeDiscoverReq (pRespCback : Bool) (stack : List EeDiscoverInfo) (ntf : Bytes) :
    Option (Option EeDiscoverReqRevt) :=
  match ntf with
  | [] => some none
  | num :: p =>
    if num.toNat > nfcMaxEeDiscEntries then some none
    else if pRespCback then
      (discoverLoop num.toNat p.length p []).map fun result => result.map fun info =>
        ⟨nfcStatusOk, num, info ++ stack.drop info.length⟩
    else some none

/-- The entries that are there, at most `n`. -/
def entriesOf : Nat → Bytes → List EeDiscoverInfo
  | n + 1, op :: _ :: nfceeId :: techNMode :: protocol :: p =>
    ⟨op, nfceeId, techNMode, protocol⟩ :: entriesOf n p
  | _, _ => []

/-- Each of the first `n` entries that is there has the right length. -/
def LengthsOk : Nat → Bytes → Prop
  | n + 1, _ :: len :: _ :: _ :: _ :: p => len = nfcEeDiscoverInfoLen ∧ LengthsOk n p
  | _, _ => True

/-- The report agrees with the notification: as many entries as are there, and these. -/
def ReportRight (ntf : Bytes) (r : EeDiscoverReqRevt) : Prop :=
  r.numInfo.toNat = (entriesOf (ntf.headD 0).toNat ntf.tail).length ∧
    r.info.take r.numInfo.toNat = entriesOf (ntf.headD 0).toNat ntf.tail

/-- All entries that are there are well-formed, and the announced ones are more. -/
def EndsEarly : Bytes → Prop
  | [] => False
  | num :: p => num.toNat ≤ nfcMaxEeDiscEntries ∧ LengthsOk num.toNat p ∧ p.length < num.toNat * nfcEeDiscoverEntryLen

section Discover

theorem discoverLoop_eq (n : Nat) : ∀ {p : Bytes} {info : List EeDiscoverInfo},
    (LengthsOk n p → discoverLoop n p.length p info = some (some (info ++ entriesOf n p))) ∧
      (¬ LengthsOk n p → discoverLoop n p.length p info = some none) := by
  induction n with
  | zero =>
    intro p info
    simp [discoverLoop, entriesOf, LengthsOk]
  | succ n ih =>
    intro p info
    match p with
    | [] | [_] | [_, _] | [_, _, _] | [_, _, _, _] =>
      simp [discoverLoop, entriesOf, LengthsOk, nfcEeDiscoverEntryLen]
    | op :: len :: nfceeId :: techNMode :: protocol :: p =>
      have hlen : (op :: len :: nfceeId :: techNMode :: protocol :: p).length = p.length + 5 := rfl
      have hgo : p.length + 5 ≥ nfcEeDiscoverEntryLen := by
        change 5 ≤ _
        omega
      rw [hlen, discoverLoop, if_pos hgo]
      dsimp only [LengthsOk, entriesOf]
      obtain ⟨hok, hbad⟩ := @ih p (info ++ [⟨op, nfceeId, techNMode, protocol⟩])
      by_cases h3 : len = nfcEeDiscoverInfoLen
      · rw [if_neg (not_not.mpr h3), Nat.add_sub_cancel]
        constructor
        · intro h
          rw [hok h.2, List.append_assoc]
          rfl
        · intro h
          exact hbad fun hl => h ⟨h3, hl⟩
      · rw [if_pos h3]
        exact ⟨fun h => absurd h.1 h3, fun _ => rfl⟩

theorem length_entriesOf (n : Nat) : ∀ (p : Bytes), (entriesOf n p).length = min n (p.length / 5) := by
  induction n with
  | zero =>
    intro p
    simp [entriesOf]
  | succ n ih =>
    intro p
    match p with
    | [] | [_] | [_, _] | [_, _, _] | [_, _, _, _] => simp [entriesOf]
    | op :: len :: nfceeId :: techNMode :: protocol :: p =>
      rw [entriesOf, List.length_cons, ih]
      simp only [List.length_cons]
      omega

end Discover

theorem discover_req_exact_iff (pRespCback : Bool) (stack : List EeDiscoverInfo) (ntf : Bytes) :
    (∃ result, nfcNcifProcEeDiscoverReq pRespCback stack ntf = some result ∧
      ∀ r ∈ result, ReportRight ntf r) ↔ ¬ (pRespCback = true ∧ EndsEarly ntf) := by
  match ntf with
  | [] => simp [nfcNcifProcEeDiscoverReq, EndsEarly]
  | num :: p =>
    unfold nfcNcifProcEeDiscoverReq EndsEarly
    dsimp only
    by_cases hmany : num.toNat > nfcMaxEeDiscEntries
    · rw [if_pos hmany]
      have hno : ¬ num.toNat ≤ nfcMaxEeDiscEntries := Nat.not_le.mpr hmany
      simp [hno]
    · rw [if_neg hmany]
      cases pRespCback with
      | false => simp
      | true =>
        rw [if_pos rfl]
        have hfew : num.toNat ≤ nfcMaxEeDiscEntries := Nat.not_lt.mp hmany
        obtain ⟨hok, hbad⟩ := @discoverLoop_eq num.toNat p []
        by_cases hl : LengthsOk num.toNat p
        · rw [hok hl, List.nil_append, Option.map_some]
          have hcount := length_entriesOf num.toNat p
          simp only [hfew, hl, true_and, Nat.not_lt]
          constructor
          · rintro ⟨result, hresult, hright⟩
            obtain rfl := Option.some.inj hresult
            have hnum : num.toNat = (entriesOf num.toNat p).length := (hright _ rfl).1
            change num.toNat * 5 ≤ p.length
            omega
          · intro hlong
            change num.toNat * 5 ≤ p.length at hlong
            have hnum : num.toNat = (entriesOf num.toNat p).length := by omega
            refine ⟨_, rfl, ?_⟩
            intro r hr
            obtain rfl := Option.some.inj hr
            refine ⟨hnum, ?_⟩
            change (entriesOf num.toNat p ++ _).take num.toNat = entriesOf num.toNat p
            rw [List.take_append_of_le_length (Nat.le_of_eq hnum)]
            exact List.take_of_length_le (Nat.le_of_eq hnum.symm)
        · rw [hbad hl]
          simp [hl]

/-- Two entries are announced and one is there: two are reported, and the second is what the array
held before. -/
theorem discover_req_stale_entry :
    nfcNcifProcEeDiscoverReq true (List.replicate 6 ⟨0xAA, 0xAA, 0xAA, 0xAA⟩) [2, 0, 3, 1, 2, 3] =
      some (some ⟨nfcStatusOk, 2,
        ⟨0, 1, 2, 3⟩ :: List.replicate 5 ⟨0xAA, 0xAA, 0xAA, 0xAA⟩⟩) ∧
    ¬ ReportRight [2, 0, 3, 1, 2, 3] ⟨nfcStatusOk, 2,
        ⟨0, 1, 2, 3⟩ :: List.replicate 5 ⟨0xAA, 0xAA, 0xAA, 0xAA⟩⟩ := by
  constructor
  · decide
  · intro h
    exact absurd h.1 (by decide)

end NfcStack.Nfc
