import NfcStack.Ndef.Walk

/- Validating an NDEF message (`ndef_utils.cc`: `NDEF_MsgValidate`).

   What is proved:
     1. `validateRec_ok`: what is known of a record that passes.
     2. `validateLoop_records`: a message that is accepted is an append of
        records, one with ME and that the last.
     3. `validateLoop_returns`: the validator itself reads inside of the message
        only and ends.
     4. `validated_walks`: on an accepted message every walker returns, and what
        it returns is the record, the count or the field. -/
namespace NfcStack.Ndef
open NfcStack.Lib

/-! ## The code -/

def ndefRtdValidStart : UInt8 := 0x20
def ndefRtdValidEnd : UInt8 := 0x7E

/-- Chunks: the first has a type name format of its own, the others are "unchanged"
and have no type or id. Returns whether the next record is inside of a chunk. -/
def checkChunk (allowChunks inChunk : Bool) (hdr typeLen idLen : UInt8) : Except NdefStatus Bool :=
  let tnf := hdr &&& ndefTnfMask
  if has hdr ndefCfMask then
    if !allowChunks then .error .msgUnexpectedChunk
    else if inChunk then
      if typeLen ≠ 0 ∨ idLen ≠ 0 ∨ tnf ≠ ndefTnfUnchanged then .error .msgInvalidChunk else .ok true
    else if tnf = ndefTnfUnchanged then .error .msgInvalidChunk
    else .ok true
  else if inChunk then
    if typeLen ≠ 0 ∨ idLen ≠ 0 ∨ tnf ≠ ndefTnfUnchanged then .error .msgInvalidChunk else .ok false
  else if tnf = ndefTnfUnchanged then .error .msgInvalidChunk
  else .ok false

/-- What the type name format asks of the lengths. -/
def checkLengths (hdr typeLen idLen : UInt8) (payloadLen : UInt32) : Except NdefStatus Unit :=
  let tnf := hdr &&& ndefTnfMask
  if tnf = ndefTnfEmpty ∧ (typeLen ≠ 0 ∨ idLen ≠ 0 ∨ payloadLen ≠ 0) then .error .msgInvalidEmptyRec
  else if tnf = ndefTnfUnknown ∧ typeLen ≠ 0 then .error .msgLengthMismatch
  else if tnf = ndefTnfExt ∧ typeLen = 0 then .error .msgLengthMismatch
  else .ok ()

/-- The characters of a well-known or external type. -/
def checkType (mem : Bytes) (msgLen : Nat) (h : RecHdr) : Option (Except NdefStatus Unit) :=
  let tnf := h.hdr &&& ndefTnfMask
  if tnf = ndefTnfExt ∨ tnf = ndefTnfWkt then
    if h.body + h.typeLen.toNat > msgLen then some (.error .msgTooShort)
    else (readBytes mem h.body h.typeLen.toNat).map fun bs =>
      if bs.any fun b => b < ndefRtdValidStart ∨ b > ndefRtdValidEnd then .error .msgInvalidType
      else .ok ()
  else some (.ok ())

/-- The body lies in the message. Returns where the next record starts. -/
def checkBody (msgLen : UInt32) (h : RecHdr) : Except NdefStatus Nat :=
  if h.bodyLen < h.payloadLen ∨ h.bodyLen > msgLen then .error .msgLengthMismatch
  else if h.body > h.body + h.bodyLen.toNat ∨ msgLen.toNat < h.body + h.bodyLen.toNat then
    .error .msgLengthMismatch
  else .ok (h.body + h.bodyLen.toNat)

def validateBody (mem : Bytes) (msgLen : UInt32) (allowChunks inChunk : Bool) (h : RecHdr) :
    Option (Except NdefStatus (Nat × Bool)) :=
  if ¬ has h.hdr ndefIlMask ∧ h.hdr &&& ndefTnfMask = ndefTnfEmpty then
    some (.error .msgInvalidEmptyRec)
  else
    match checkChunk allowChunks inChunk h.hdr h.typeLen h.idLen with
    | .error e => some (.error e)
    | .ok inChunk' =>
      match checkLengths h.hdr h.typeLen h.idLen h.payloadLen with
      | .error e => some (.error e)
      | .ok _ => (checkType mem msgLen.toNat h).map fun r =>
        r.bind fun _ => (checkBody msgLen h).map fun next => (next, inChunk')

/-- One record: its header byte, where the next one starts, and whether that one is
inside of a chunk. -/
def validateRec (mem : Bytes) (msgLen : UInt32) (allowChunks : Bool) (count : Nat) (inChunk : Bool)
    (p : Nat) : Option (Except NdefStatus (UInt8 × Nat × Bool)) :=
  if p + 3 > msgLen.toNat then some (.error .msgTooShort)
  else mem[p]?.bind fun hdr =>
    if hdr &&& ndefTnfMask = ndefTnfMask then some (.error .msgInvalidChunk)
    else if 0 < count ∧ has hdr ndefMbMask then some (.error .msgExtraMsgBegin)
    else mem[p + 1]?.bind fun typeLen =>
      if has hdr ndefCfMask ∧ has hdr ndefMbMask ∧ typeLen = 0 ∧
          hdr &&& ndefTnfMask ≠ ndefTnfUnknown then
        some (.error .msgInvalidChunk)
      else if ¬ has hdr ndefSrMask ∧ p + 2 + 4 > msgLen.toNat then some (.error .msgTooShort)
      else (readPayloadLen mem hdr (p + 2)).bind fun r =>
        if has hdr ndefIlMask ∧ r.2 + 1 > msgLen.toNat then some (.error .msgTooShort)
        else (readIdLen mem hdr r.2).bind fun r' =>
          (validateBody mem msgLen allowChunks inChunk ⟨hdr, typeLen, r.1, r'.1, r'.2⟩).map
            fun v => v.map fun x => (hdr, x.1, x.2)

def validateEnd (msgLen : UInt32) (hdr : UInt8) (p : Nat) : NdefStatus :=
  if ¬ has hdr ndefMeMask then .msgNoMsgEnd
  else if p ≠ msgLen.toNat then .msgLengthMismatch
  else .ok

def validateLoop (mem : Bytes) (msgLen : UInt32) (allowChunks : Bool) :
    Nat → Nat → Bool → Nat → Option NdefStatus
  | 0, _, _, _ => none
  | fuel + 1, count, inChunk, p =>
    if p < msgLen.toNat then
      (validateRec mem msgLen allowChunks count inChunk p).bind fun
        | .error e => some e
        | .ok (hdr, next, inChunk') =>
          if has hdr ndefMeMask then some (validateEnd msgLen hdr next)
          else validateLoop mem msgLen allowChunks fuel (count + 1) inChunk' next
    else some (validateEnd msgLen 0 p)

def ndefMsgValidate (pMsg : Option Bytes) (msgLen : UInt32) (allowChunks : Bool) :
    Option NdefStatus :=
  match pMsg with
  | none => some .msgTooShort
  | some mem =>
    if msgLen < 3 then some .msgTooShort
    else mem[0]?.bind fun hdr =>
      if ¬ has hdr ndefMbMask then some .msgNoMsgBegin
      else if hdr &&& ndefTnfMask = ndefTnfUnchanged then some .msgUnexpectedChunk
      else validateLoop mem msgLen allowChunks (msgLen.toNat + 1) 0 false 0

/-! ## A record that passes -/

/-- Chunks as the validator lets them pass: "unchanged" is inside of a chunk and nowhere
else, and has no type or id. Whether a chunk is still open at the end is not checked. -/
def Chunked (inChunk : Bool) : List Rec → Prop
  | [] => True
  | r :: rs => (r.tnf = ndefTnfUnchanged ↔ inChunk = true) ∧
      (inChunk = true → r.type = [] ∧ r.id = []) ∧ Chunked (decide r.cf) rs

theorem checkChunk_ok {allowChunks inChunk c : Bool} {hdr typeLen idLen : UInt8}
    (h : checkChunk allowChunks inChunk hdr typeLen idLen = .ok c) :
    c = decide (has hdr ndefCfMask) ∧
      (hdr &&& ndefTnfMask = ndefTnfUnchanged ↔ inChunk = true) ∧
      (inChunk = true → typeLen = 0 ∧ idLen = 0) := by
  simp only [checkChunk] at h
  split_ifs at h <;> simp_all

variable {msgLen : UInt32}

theorem checkBody_ok {h : RecHdr} {next : Nat} (hb : checkBody msgLen h = .ok next) :
    next = h.body + (h.payloadLen.toNat + h.typeLen.toNat + h.idLen.toNat) ∧
      next ≤ msgLen.toNat := by
  unfold checkBody at hb
  split_ifs at hb with h1 h2
  obtain ⟨hge, -⟩ := not_or.mp h1
  obtain ⟨-, hle⟩ := not_or.mp h2
  have hnext : h.body + h.bodyLen.toNat = next := Except.ok.inj hb
  -- no carry out of 32 bits: the sum is not less than its first part
  have hsum : h.bodyLen.toNat = h.payloadLen.toNat + h.typeLen.toNat + h.idLen.toNat := by
    have hp := h.payloadLen.toNat_lt
    have ht := h.typeLen.toNat_lt
    have hi := h.idLen.toNat_lt
    rw [UInt32.lt_iff_toNat_lt] at hge
    simp only [RecHdr.bodyLen, UInt32.toNat_add, UInt8.toNat_toUInt32] at hge ⊢
    omega
  omega

variable {mem : Bytes}

theorem validateBody_ok {allowChunks inChunk c : Bool} {h : RecHdr}
    {next : Nat} (hv : validateBody mem msgLen allowChunks inChunk h = some (.ok (next, c))) :
    checkChunk allowChunks inChunk h.hdr h.typeLen h.idLen = .ok c ∧ checkBody msgLen h = .ok next := by
  unfold validateBody at hv
  split at hv
  · cases hv
  · split at hv
    · cases hv
    · rename_i c' hchunk
      split at hv
      · cases hv
      · obtain ⟨r, -, hr⟩ := Option.map_eq_some_iff.mp hv
        cases r with
        | error e => cases hr
        | ok u =>
          cases hbody : checkBody msgLen h with
          | error e => simp [Except.bind, Except.map, hbody] at hr
          | ok n =>
            simp only [Except.bind, Except.map, hbody, Except.ok.injEq, Prod.mk.injEq] at hr
            obtain ⟨rfl, rfl⟩ := hr
            exact ⟨hchunk, rfl⟩

/-- What is known of a record that passes: its head can be read, its body lies in the
message, MB is on the first only, and the chunks are in order. -/
theorem validateRec_ok {allowChunks inChunk c : Bool} {count p : Nat} {hdr : UInt8} {next : Nat}
    (hv : validateRec mem msgLen allowChunks count inChunk p = some (.ok (hdr, next, c))) :
    ∃ h, readRecHdr mem p = some h ∧ h.hdr = hdr ∧ hdr &&& ndefTnfMask ≠ ndefTnfMask ∧
      (0 < count → ¬ has hdr ndefMbMask) ∧
      checkChunk allowChunks inChunk h.hdr h.typeLen h.idLen = .ok c ∧
      next = h.body + (h.payloadLen.toNat + h.typeLen.toNat + h.idLen.toNat) ∧
      next ≤ msgLen.toNat := by
  unfold validateRec at hv
  split at hv
  · cases hv
  · obtain ⟨hdr', hhdr, hv⟩ := Option.bind_eq_some_iff.mp hv
    split at hv
    · cases hv
    · rename_i htnf
      split at hv
      · cases hv
      · rename_i hmb
        obtain ⟨typeLen, htype, hv⟩ := Option.bind_eq_some_iff.mp hv
        split at hv
        · cases hv
        · split at hv
          · cases hv
          · obtain ⟨r, hpl, hv⟩ := Option.bind_eq_some_iff.mp hv
            split at hv
            · cases hv
            · obtain ⟨r', hid, hv⟩ := Option.bind_eq_some_iff.mp hv
              obtain ⟨v, hbody, hv⟩ := Option.map_eq_some_iff.mp hv
              cases v with
              | error e => cases hv
              | ok x =>
                obtain ⟨n, c'⟩ := x
                simp only [Except.map, Except.ok.injEq, Prod.mk.injEq] at hv
                obtain ⟨rfl, rfl, rfl⟩ := hv
                obtain ⟨hchunk, hb⟩ := validateBody_ok hbody
                obtain ⟨hnext, hle⟩ := checkBody_ok hb
                refine ⟨⟨hdr', typeLen, r.1, r'.1, r'.2⟩, ?_, rfl, htnf, ?_, hchunk, hnext, hle⟩
                · rw [readRecHdr, hhdr, Option.bind_some, htype, Option.bind_some, hpl,
                    Option.bind_some, hid, Option.map_some]
                · intro hc hm
                  exact hmb ⟨hc, hm⟩

/-! ## No error is `NDEF_OK` -/

variable {e : NdefStatus}

theorem checkChunk_error {allowChunks inChunk : Bool} {hdr typeLen idLen : UInt8}
    (h : checkChunk allowChunks inChunk hdr typeLen idLen = .error e) : e ≠ .ok := by
  simp only [checkChunk] at h
  split_ifs at h <;> cases h <;> decide

theorem checkLengths_error {hdr typeLen idLen : UInt8} {payloadLen : UInt32}
    (h : checkLengths hdr typeLen idLen payloadLen = .error e) : e ≠ .ok := by
  simp only [checkLengths] at h
  split_ifs at h <;> cases h <;> decide

theorem checkType_error {msgLen : Nat} {rh : RecHdr}
    (h : checkType mem msgLen rh = some (.error e)) : e ≠ .ok := by
  simp only [checkType] at h
  split_ifs at h
  · cases h
    decide
  · obtain ⟨bs, -, hbs⟩ := Option.map_eq_some_iff.mp h
    split_ifs at hbs
    cases hbs
    decide
  · cases h

theorem checkBody_error {rh : RecHdr} (h : checkBody msgLen rh = .error e) : e ≠ .ok := by
  simp only [checkBody] at h
  split_ifs at h <;> cases h <;> decide

theorem validateBody_error {allowChunks inChunk : Bool} {rh : RecHdr}
    (h : validateBody mem msgLen allowChunks inChunk rh = some (.error e)) :
    e ≠ .ok := by
  unfold validateBody at h
  split at h
  · cases h
    decide
  · split at h
    case h_1 e' hchunk =>
      cases h
      exact checkChunk_error hchunk
    case h_2 c hchunk =>
      split at h
      case h_1 e' hlen =>
        cases h
        exact checkLengths_error hlen
      case h_2 =>
        obtain ⟨r, hr, heq⟩ := Option.map_eq_some_iff.mp h
        cases r with
        | error e' =>
          cases heq
          exact checkType_error hr
        | ok u =>
          cases hbody : checkBody msgLen rh with
          | error e' =>
            simp only [Except.bind, Except.map, hbody] at heq
            cases heq
            exact checkBody_error hbody
          | ok n => simp [Except.bind, Except.map, hbody] at heq

theorem validateRec_error {allowChunks inChunk : Bool} {count p : Nat}
    (h : validateRec mem msgLen allowChunks count inChunk p = some (.error e)) : e ≠ .ok := by
  have hlit : ∀ {s : NdefStatus} {v : Option (Except NdefStatus (UInt8 × Nat × Bool))},
      v = some (.error s) → s ≠ .ok → v = some (.error e) → e ≠ .ok := by
    rintro s v rfl hs h
    cases h
    exact hs
  unfold validateRec at h
  split at h
  · exact hlit rfl (by decide) h
  · obtain ⟨hdr, -, h⟩ := Option.bind_eq_some_iff.mp h
    split at h
    · exact hlit rfl (by decide) h
    · split at h
      · exact hlit rfl (by decide) h
      · obtain ⟨typeLen, -, h⟩ := Option.bind_eq_some_iff.mp h
        split at h
        · exact hlit rfl (by decide) h
        · split at h
          · exact hlit rfl (by decide) h
          · obtain ⟨r, -, h⟩ := Option.bind_eq_some_iff.mp h
            split at h
            · exact hlit rfl (by decide) h
            · obtain ⟨r', -, h⟩ := Option.bind_eq_some_iff.mp h
              obtain ⟨v, hbody, hv⟩ := Option.map_eq_some_iff.mp h
              cases v with
              | error e' =>
                cases hv
                exact validateBody_error hbody
              | ok x => cases hv

/-! ## A message that is accepted -/

theorem validateEnd_ok {hdr : UInt8} {p : Nat}
    (h : validateEnd msgLen hdr p = .ok) : has hdr ndefMeMask ∧ p = msgLen.toNat := by
  unfold validateEnd at h
  split_ifs at h with h1 h2
  exact ⟨h1, not_not.mp h2⟩

/-- From a record on, an accepted message is records up to the end: ME is on the last of
them, and MB on none but the very first of the message. -/
theorem validateLoop_records (hlen : mem.length = msgLen.toNat) {allowChunks : Bool} :
    ∀ (fuel count : Nat) (inChunk : Bool) (p : Nat),
      validateLoop mem msgLen allowChunks fuel count inChunk p = some .ok →
      ∃ rs, mem.drop p = recsBytes rs ∧ EndsOnce rs ∧ Chunked inChunk rs ∧
        (∀ r ∈ rs, r.tnf ≠ ndefTnfMask) ∧
        (∀ r ∈ rs.tail, ¬ r.mb) ∧ (0 < count → ∀ r ∈ rs, ¬ r.mb) := by
  intro fuel
  induction fuel with
  | zero => intro _ _ _ h; cases h
  | succ fuel ih =>
    intro count inChunk p h
    rw [validateLoop] at h
    split at h
    · obtain ⟨v, hv, h⟩ := Option.bind_eq_some_iff.mp h
      cases v with
      | error e =>
        exact absurd (Option.some.inj h) (validateRec_error hv)
      | ok x =>
        obtain ⟨hdr, next, c⟩ := x
        obtain ⟨rh, hread, rfl, htnf, hmb, hchunk, hnext, hle⟩ := validateRec_ok hv
        obtain ⟨r, hrhdr, -, htype, hid, hpay, hbody, hdrop⟩ :=
          exists_rec_of_readRecHdr hread (by omega)
        have hend : next = p + r.bytes.length := by
          rw [r.length_bytes]
          omega
        obtain ⟨hc, htnf6, hempty⟩ := checkChunk_ok hchunk
        rw [← hrhdr] at htnf hmb hc htnf6
        have hhead : (r.tnf = ndefTnfUnchanged ↔ inChunk = true) ∧
            (inChunk = true → r.type = [] ∧ r.id = []) := by
          refine ⟨htnf6, fun hin => ?_⟩
          obtain ⟨ht0, hi0⟩ := hempty hin
          rw [ht0] at htype
          rw [hi0] at hid
          exact ⟨List.length_eq_zero_iff.mp htype, List.length_eq_zero_iff.mp hid⟩
        dsimp only at h
        rw [← hrhdr] at h
        split at h
        case isTrue hme =>
          obtain ⟨-, hp⟩ := validateEnd_ok (Option.some.inj h)
          refine ⟨[r], ?_, hme, ⟨hhead.1, hhead.2, trivial⟩, ?_, ?_, ?_⟩
          · rw [hdrop, ← hend, hp, ← hlen, List.drop_length]
            simp [recsBytes]
          · simpa [Rec.tnf] using htnf
          · simp
          · simpa using hmb
        case isFalse hme =>
          obtain ⟨rs, hrs, hends, hch, htnfs, -, hmbs⟩ := ih (count + 1) c next h
          have hmbs := hmbs (Nat.succ_pos count)
          refine ⟨r :: rs, ?_, ?_, ⟨hhead.1, hhead.2, ?_⟩, ?_, hmbs, ?_⟩
          · rw [hdrop, ← hend, hrs]
            simp [recsBytes]
          · cases rs with
            | nil => exact hends.elim
            | cons r' rs => exact ⟨hme, hends⟩
          · rw [← hc]
            exact hch
          · intro x hx
            rcases List.mem_cons.mp hx with rfl | hx
            · exact htnf
            · exact htnfs x hx
          · intro hcount x hx
            rcases List.mem_cons.mp hx with rfl | hx
            · exact hmb hcount
            · exact hmbs x hx
    · -- the end is reached without ME
      have : validateEnd msgLen 0 p = .msgNoMsgEnd := by
        rw [validateEnd, if_pos (by decide)]
      rw [this] at h
      cases h

/-! ## The validator returns -/

theorem get_of_lt {p : Nat} (h : p < mem.length) : ∃ b, mem[p]? = some b :=
  ⟨_, List.getElem?_eq_getElem h⟩

theorem readPayloadLen_returns {hdr : UInt8} {p : Nat} (h1 : p < mem.length)
    (h4 : ¬ has hdr ndefSrMask → p + 4 ≤ mem.length) : ∃ r, readPayloadLen mem hdr p = some r := by
  unfold readPayloadLen
  split
  case isTrue =>
    obtain ⟨b, hb⟩ := get_of_lt h1
    exact ⟨_, by rw [hb]; rfl⟩
  case isFalse hsr =>
    have hin := h4 hsr
    obtain ⟨b0, hb0⟩ := get_of_lt h1
    obtain ⟨b1, hb1⟩ := get_of_lt (show p + 1 < mem.length by omega)
    obtain ⟨b2, hb2⟩ := get_of_lt (show p + 2 < mem.length by omega)
    obtain ⟨b3, hb3⟩ := get_of_lt (show p + 3 < mem.length by omega)
    exact ⟨_, by rw [beStreamToUint32, hb0, hb1, hb2, hb3]; rfl⟩

theorem readIdLen_returns {hdr : UInt8} {p : Nat}
    (h : has hdr ndefIlMask → p < mem.length) : ∃ r, readIdLen mem hdr p = some r := by
  unfold readIdLen
  split
  case isTrue hil =>
    obtain ⟨b, hb⟩ := get_of_lt (h hil)
    exact ⟨_, by rw [hb]; rfl⟩
  case isFalse => exact ⟨_, rfl⟩

theorem validateBody_returns (hlen : mem.length = msgLen.toNat)
    (allowChunks inChunk : Bool) (h : RecHdr) :
    ∃ v, validateBody mem msgLen allowChunks inChunk h = some v := by
  have htype : ∃ v, checkType mem msgLen.toNat h = some v := by
    simp only [checkType]
    split
    · split
      · exact ⟨_, rfl⟩
      · rw [readBytes, if_pos (by omega)]
        exact ⟨_, rfl⟩
    · exact ⟨_, rfl⟩
  obtain ⟨v, hv⟩ := htype
  unfold validateBody
  split
  · exact ⟨_, rfl⟩
  · split
    · exact ⟨_, rfl⟩
    · split
      · exact ⟨_, rfl⟩
      · exact ⟨_, by rw [hv]; rfl⟩

theorem validateRec_returns (hlen : mem.length = msgLen.toNat)
    (allowChunks : Bool) (count : Nat) (inChunk : Bool) (p : Nat) :
    ∃ v, validateRec mem msgLen allowChunks count inChunk p = some v := by
  unfold validateRec
  split
  · exact ⟨_, rfl⟩
  case isFalse h3 =>
    obtain ⟨hdr, hhdr⟩ := get_of_lt (show p < mem.length by omega)
    obtain ⟨typeLen, htype⟩ := get_of_lt (show p + 1 < mem.length by omega)
    rw [hhdr, Option.bind_some]
    split
    · exact ⟨_, rfl⟩
    · split
      · exact ⟨_, rfl⟩
      · rw [htype, Option.bind_some]
        split
        · exact ⟨_, rfl⟩
        · split
          · exact ⟨_, rfl⟩
          case isFalse h4 =>
            have hpay : ¬ has hdr ndefSrMask → p + 2 + 4 ≤ mem.length := by
              intro hsr
              by_contra hlt
              exact h4 ⟨hsr, by omega⟩
            obtain ⟨r, hr⟩ := readPayloadLen_returns (by omega) hpay
            rw [hr, Option.bind_some]
            split
            · exact ⟨_, rfl⟩
            case isFalse h5 =>
              have hid : has hdr ndefIlMask → r.2 < mem.length := by
                intro hil
                by_contra hlt
                exact h5 ⟨hil, by omega⟩
              obtain ⟨r', hr'⟩ := readIdLen_returns hid
              obtain ⟨v, hv⟩ := validateBody_returns hlen allowChunks inChunk
                ⟨hdr, typeLen, r.1, r'.1, r'.2⟩
              exact ⟨_, by rw [hr', Option.bind_some, hv]; rfl⟩

theorem validateLoop_returns (hlen : mem.length = msgLen.toNat) (allowChunks : Bool) :
    ∀ (fuel count : Nat) (inChunk : Bool) (p : Nat), msgLen.toNat < p + fuel →
      0 < fuel → ∃ st, validateLoop mem msgLen allowChunks fuel count inChunk p = some st := by
  intro fuel
  induction fuel with
  | zero => intro _ _ _ _ h; omega
  | succ fuel ih =>
    intro count inChunk p hf _
    rw [validateLoop]
    split
    case isTrue hp =>
      obtain ⟨v, hv⟩ := validateRec_returns hlen allowChunks count inChunk p
      rw [hv, Option.bind_some]
      cases v with
      | error e => exact ⟨_, rfl⟩
      | ok x =>
        obtain ⟨hdr, next, c⟩ := x
        obtain ⟨rh, hread, -, -, -, -, hnext, hle⟩ := validateRec_ok hv
        obtain ⟨r, -, -, htype, hid, hpay, hbody, -⟩ := exists_rec_of_readRecHdr hread (by omega)
        have hthree := r.three_le_length
        rw [r.length_bytes] at hthree
        dsimp only
        split
        · exact ⟨_, rfl⟩
        · exact ih (count + 1) c next (by omega) (by omega)
    case isFalse => exact ⟨_, rfl⟩

/-! ## Validated messages are safe to walk -/

/-- MB is on the first record and no other, and ME on the last and no other. -/
def Marked (rs : List Rec) : Prop :=
  ∀ i (h : i < rs.length), ((rs.get ⟨i, h⟩).mb ↔ i = 0) ∧ ((rs.get ⟨i, h⟩).me ↔ i + 1 = rs.length)

theorem me_iff_of_endsOnce : ∀ {rs : List Rec}, EndsOnce rs → ∀ i (h : i < rs.length),
    ((rs.get ⟨i, h⟩).me ↔ i + 1 = rs.length)
  | [], he, _, _ => he.elim
  | r :: rs, he, i, hi => by
    rcases he.cases with ⟨rfl, hme⟩ | ⟨hne, hme, he⟩
    · obtain rfl : i = 0 := by simpa using hi
      simpa using hme
    · cases i with
      | zero =>
        have : 1 ≠ (r :: rs).length := by
          have := List.length_pos_iff.mpr hne
          simp only [List.length_cons]
          omega
        exact iff_of_false hme (by simpa using this)
      | succ i =>
        have := me_iff_of_endsOnce he i (by simpa using hi)
        simpa using this

theorem marked_of_endsOnce {rs : List Rec} (he : EndsOnce rs) (hmb : ∀ r ∈ rs.head?, r.mb)
    (htail : ∀ r ∈ rs.tail, ¬ r.mb) : Marked rs := by
  intro i hi
  refine ⟨?_, me_iff_of_endsOnce he i hi⟩
  cases rs with
  | nil => exact he.elim
  | cons r rs =>
    cases i with
    | zero => exact iff_of_true (hmb r rfl) rfl
    | succ i =>
      refine iff_of_false (htail _ ?_) (Nat.succ_ne_zero i)
      exact List.get_mem rs ⟨i, by simpa using hi⟩

theorem ndefMsgValidate_records (hlen : mem.length = msgLen.toNat)
    {allowChunks : Bool} (hok : ndefMsgValidate (some mem) msgLen allowChunks = some .ok) :
    ∃ rs, mem = recsBytes rs ∧ EndsOnce rs ∧ Marked rs ∧ Chunked false rs ∧
      ∀ r ∈ rs, r.tnf ≠ ndefTnfMask := by
  unfold ndefMsgValidate at hok
  dsimp only at hok
  split at hok
  · cases hok
  · obtain ⟨hdr, hhdr, hok⟩ := Option.bind_eq_some_iff.mp hok
    by_cases hmb : has hdr ndefMbMask
    case neg => rw [if_pos hmb] at hok; cases hok
    by_cases hunch : hdr &&& ndefTnfMask = ndefTnfUnchanged
    case pos => rw [if_neg (not_not.mpr hmb), if_pos hunch] at hok; cases hok
    rw [if_neg (not_not.mpr hmb), if_neg hunch] at hok
    obtain ⟨rs, hrs, he, hch, htnf, htail, -⟩ := validateLoop_records hlen _ 0 false 0 hok
    rw [List.drop_zero] at hrs
    refine ⟨rs, hrs, he, marked_of_endsOnce he ?_ htail, hch, htnf⟩
    cases rs with
    | nil => exact he.elim
    | cons r rs =>
      intro x hx
      obtain rfl : r = x := by simpa using hx
      have : r.hdr = hdr := by
        rw [hrs] at hhdr
        simpa [recsBytes, Rec.bytes, Rec.head] using hhdr
      rw [Rec.mb, this]
      exact hmb

/-- For every buffer the validator returns; and if it accepts, the buffer is a
non-empty list of records, MB on the first and ME on the last only, which every walker
finds. -/
theorem validated_walks (mem : Bytes) (msgLen : UInt32) (hlen : mem.length = msgLen.toNat)
    (allowChunks : Bool) :
    (∃ st, ndefMsgValidate (some mem) msgLen allowChunks = some st) ∧
      (ndefMsgValidate (some mem) msgLen allowChunks = some .ok →
        ∃ rs, rs ≠ [] ∧ rs.length < 0x80000000 ∧ mem = recsBytes rs ∧ Marked rs ∧ Walks mem rs) := by
  refine ⟨?_, fun hok => ?_⟩
  · unfold ndefMsgValidate
    dsimp only
    split
    · exact ⟨_, rfl⟩
    case isFalse h3 =>
      have hpos : 0 < mem.length := by
        rw [UInt32.lt_iff_toNat_lt] at h3
        simp at h3
        omega
      obtain ⟨hdr, hhdr⟩ := get_of_lt hpos
      rw [hhdr, Option.bind_some]
      split
      · exact ⟨_, rfl⟩
      · split
        · exact ⟨_, rfl⟩
        · exact validateLoop_returns hlen allowChunks _ 0 false 0 (by omega) (by omega)
  · obtain ⟨rs, hmem, he, hmark, -, -⟩ := ndefMsgValidate_records hlen hok
    have hlt := msgLen.toNat_lt
    have hrl : recsLen rs = mem.length := by rw [hmem]; rfl
    have hst : Stands mem 0 rs := ⟨[], [], by simpa using hmem, rfl, by omega⟩
    have hthree := length_le_recsLen rs
    refine ⟨rs, ?_, by omega, hmem, hmark, walks_of_records hst he⟩
    rintro rfl
    exact he

theorem validated_walks_two_records :
    ∃ rs, rs ≠ [] ∧ rs.length < 0x80000000 ∧
      [0x91, 1, 2, 0x54, 7, 8, 0x55, 0, 1, 9] = recsBytes rs ∧ Marked rs ∧
      Walks [0x91, 1, 2, 0x54, 7, 8, 0x55, 0, 1, 9] rs :=
  (validated_walks [0x91, 1, 2, 0x54, 7, 8, 0x55, 0, 1, 9] 10 rfl false).2 (by decide)

end NfcStack.Ndef
