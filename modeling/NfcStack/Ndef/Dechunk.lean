import NfcStack.Ndef.Validate
import NfcStack.Ndef.Refine

/- Copying a message and joining its chunks (`ndef_utils.cc`: `NDEF_MsgCopyAndDechunk`).

   What is proved:
     1. `addStep`, `appendStep`: what one turn of the loop does with a record that starts a
        logical record, and with one that goes on with it.
     2. `dechunkLoop_spec`: no turn writes more than it has read.
     3. `dechunks`: for every message that passes the validator the copy is the encoding of
        the logical records. -/
namespace NfcStack.Ndef
open NfcStack.Lib

/-! ## The code -/

/-- A field of the source as an argument: a null pointer, or bytes to be copied. -/
def fieldSrc (mem : Bytes) (ptr : Option Nat) (len : Nat) : Option Src :=
  match ptr with
  | none => some (.reserve len)
  | some p => (readBytes mem p len).map .bytes

def dechunkRec (src : Bytes) (maxOutLen pRec pPrevRec : Nat) (m : Msg) :
    Option (NdefStatus × Nat × Msg) :=
  (ndefRecGetType src pRec).bind fun (pType, tnf, typeLen) =>
  (ndefRecGetId src pRec).bind fun (pId, idLen) =>
  (ndefRecGetPayload src pRec).bind fun (pPay, payLen) =>
  if tnf = ndefTnfUnchanged then
    match pPay with
    | none => some (.ok, pPrevRec, m)
    | some p => (readBytes src p payLen.toNat).bind fun bs =>
      (ndefMsgAppendPayload m maxOutLen pPrevRec bs).map fun r => (r.1, pPrevRec, r.2)
  else
    (fieldSrc src pType typeLen.toNat).bind fun type =>
    (fieldSrc src pId idLen.toNat).bind fun id =>
    (fieldSrc src pPay payLen.toNat).bind fun payload =>
    (ndefMsgAddRec m maxOutLen tnf type id payload).map fun r => (r.1, m.curSize, r.2)

def dechunkLoop (src : Bytes) (maxOutLen : Nat) :
    Nat → Option Nat → NdefStatus → Nat → Msg → Option (NdefStatus × Msg)
  | 0, _, _, _, _ => none
  | _ + 1, none, status, _, m => some (status, m)
  | fuel + 1, some pRec, status, pPrevRec, m =>
    if status ≠ .ok then some (status, m)
    else (dechunkRec src maxOutLen pRec pPrevRec m).bind fun (status, pPrevRec, m) =>
      (ndefMsgGetNextRec src pRec).bind fun pRec => dechunkLoop src maxOutLen fuel pRec status pPrevRec m

/-- `NDEF_MsgCopyAndDechunk`: the status, the destination, and `*p_out_len` if it is
written. -/
def ndefMsgCopyAndDechunk (src : Bytes) (srcLen : UInt32) (dest : Bytes) :
    Option (NdefStatus × Bytes × Option Nat) :=
  (ndefMsgValidate (some src) srcLen true).bind fun status =>
  if status ≠ .ok then some (status, dest, none)
  else (ndefMsgInit dest srcLen.toNat).bind fun m =>
    (dechunkLoop src srcLen.toNat (walkFuel src) (some 0) status 0 m).map fun r =>
      (r.1, r.2.mem, some r.2.curSize)

/-! ## Logical records -/

/-- A record as the sender meant it. -/
structure LogicalRec where
  tnf : UInt8
  type : Bytes
  id : Bytes
  payload : Bytes

def NdefRec.logical (r : NdefRec) : LogicalRec := ⟨UInt8.ofNat r.tnf, r.type, r.id, r.payload⟩

/-- The records that go on with a chunked record, and those behind. `cf` is the CF bit of the
record before. -/
def chunkRun (cf : Bool) : List Rec → List Rec × List Rec
  | [] => ([], [])
  | r :: rs => if cf then (r :: (chunkRun (decide r.cf) rs).1, (chunkRun (decide r.cf) rs).2)
    else ([], r :: rs)

theorem length_chunkRun (cf : Bool) (rs : List Rec) : (chunkRun cf rs).2.length ≤ rs.length := by
  induction rs generalizing cf with
  | nil => rfl
  | cons r rs ih =>
    rw [chunkRun]
    split
    · exact (ih _).trans (Nat.le_succ _)
    · exact le_rfl

/-- The logical records of a message: the first chunk with the payloads of the others
behind its own. -/
def logicalRecs : List Rec → List LogicalRec
  | [] => []
  | r :: rs =>
    ⟨r.tnf, r.type, r.id, r.payload ++ (chunkRun (decide r.cf) rs).1.flatMap Rec.payload⟩ ::
      logicalRecs (chunkRun (decide r.cf) rs).2
termination_by rs => rs.length
decreasing_by exact Nat.lt_succ_of_le (length_chunkRun _ _)

/-! ## One turn of the loop -/

section Turns
variable {src : Bytes} {maxSize p : Nat} {m : Msg} {r : Rec} {rs : List Rec} {ds : List NdefRec}

theorem FieldAt.fieldSrc {ptr : Option Nat} {field : Bytes} (h : FieldAt src ptr field) :
    ∃ s : Src, Ndef.fieldSrc src ptr field.length = some s ∧ s.len = field.length ∧
      ∀ bs, s.Gives bs → bs = field := by
  cases ptr with
  | none =>
    obtain rfl : field = [] := h
    exact ⟨.reserve 0, rfl, rfl, fun bs hbs => List.length_eq_zero_iff.mp hbs⟩
  | some q =>
    exact ⟨.bytes field, by simp [Ndef.fieldSrc, show readBytes src q field.length = some field from h],
      rfl, fun bs hbs => hbs⟩

theorem Rec.exists_tnf (r : Rec) (h : r.tnf ≠ ndefTnfMask) : ∃ t : Fin 7, UInt8.ofNat t = r.tnf := by
  have hall : ∀ b : UInt8, b &&& ndefTnfMask ≠ ndefTnfMask → ∃ t : Fin 7, UInt8.ofNat t = b &&& ndefTnfMask := by
    decide +kernel
  exact hall r.hdr h

theorem recRoom_le (r : Rec) : recRoom r.type.length r.id.length r.payload.length ≤ r.bytes.length := by
  have hpay : (if r.payload.length < 256 then 1 else 4) ≤ (if has r.hdr ndefSrMask then 1 else 4) := by
    have hsr := r.payload_lt
    split_ifs at hsr ⊢ <;> omega
  have hid : (if r.id.length = 0 then 0 else 1) ≤ (if has r.hdr ndefIlMask then 1 else 0) := by
    by_cases hil : has r.hdr ndefIlMask
    · rw [if_pos hil]
      split <;> omega
    · simp [r.id_il hil]
  rw [r.length_bytes, r.length_head, recRoom]
  omega

theorem three_add_le (r : Rec) : r.payload.length + 3 ≤ r.bytes.length := by
  have := recRoom_le r
  unfold recRoom at this
  split_ifs at this <;> omega

theorem addStep (pPrev : Nat) (hs : Stands src p (r :: rs)) (h : Holds maxSize m ds) (htnf : r.tnf ≠ ndefTnfMask)
    (hstart : r.tnf ≠ ndefTnfUnchanged) (hsize : m.curSize + recsLen (r :: rs) ≤ maxSize) :
    ∃ m' l, dechunkRec src maxSize p pPrev m = some (.ok, recsLen (opened true ds), m') ∧
      Holds maxSize m' (ds ++ [l]) ∧ l.logical = ⟨r.tnf, r.type, r.id, r.payload⟩ ∧
      m'.curSize + recsLen rs ≤ maxSize := by
  obtain ⟨pType, hgetT, hT⟩ := ndefRecGetType_spec hs
  obtain ⟨pId, hgetI, hI⟩ := ndefRecGetId_spec hs
  obtain ⟨pPay, hgetP, hP⟩ := ndefRecGetPayload_spec hs
  obtain ⟨type, htype, htl, htg⟩ := hT.fieldSrc
  obtain ⟨id, hid, hil, hig⟩ := hI.fieldSrc
  obtain ⟨payload, hpay, hpl, hpg⟩ := hP.fieldSrc
  obtain ⟨t, ht⟩ := r.exists_tnf htnf
  have hroom := recRoom_le r
  have hlt := h.lt
  rw [recsLen_cons] at hsize
  have hpaylt : (UInt32.ofNat r.payload.length).toNat = r.payload.length := by
    have := r.payload_lt_word
    simp
    omega
  obtain ⟨-, hok⟩ := addRec_spec h t type id payload (htl ▸ r.type_lt) (hil ▸ r.id_lt)
    (by rw [htl, hil, hpl]; omega)
  obtain ⟨m', l, hadd, hholds, -, hlt', hlty, hlid, hlpl⟩ := hok (by rw [htl, hil, hpl]; omega)
  have hcur : m.curSize = recsLen (opened true ds) := by
    rw [h.size, length_encode, recsLen_opened]
  refine ⟨m', l, ?_, hholds, ?_, ?_⟩
  · rw [dechunkRec, hgetT, Option.bind_some]
    dsimp only
    rw [hgetI, Option.bind_some]
    dsimp only
    rw [hgetP, Option.bind_some]
    dsimp only
    rw [if_neg hstart, r.toNat_typeLen, r.toNat_idLen, hpaylt, htype, Option.bind_some, hid,
      Option.bind_some, hpay, Option.bind_some, ← ht, hadd, Option.map_some, hcur]
  · rw [NdefRec.logical, hlt', ht, htg _ hlty, hig _ hlid, hpg _ hlpl]
  · have hl : l.size = recRoom r.type.length r.id.length r.payload.length := by
      rw [l.size_rooms, htg _ hlty, hig _ hlid, hpg _ hlpl]
      simp only [payloadRoom, idRoom, recRoom]
      omega
    have hsum : m'.curSize = m.curSize + l.size := by
      rw [hholds.size, h.size, length_encode, length_encode]
      simp
    omega

theorem appendStep {l : NdefRec} (hs : Stands src p (r :: rs)) (h : Holds maxSize m (ds ++ [l]))
    (hgo : r.tnf = ndefTnfUnchanged) (hsize : m.curSize + recsLen (r :: rs) ≤ maxSize) :
    ∃ m' l', dechunkRec src maxSize p (recsLen (opened true ds)) m =
        some (.ok, recsLen (opened true ds), m') ∧ Holds maxSize m' (ds ++ [l']) ∧
      l'.logical = { l.logical with payload := l.payload ++ r.payload } ∧
      m'.curSize + recsLen rs ≤ maxSize := by
  obtain ⟨pType, hgetT, hT⟩ := ndefRecGetType_spec hs
  obtain ⟨pId, hgetI, hI⟩ := ndefRecGetId_spec hs
  obtain ⟨pPay, hgetP, hP⟩ := ndefRecGetPayload_spec hs
  have hthree := three_add_le r
  have hlt := h.lt
  rw [recsLen_cons] at hsize
  have hpaylt : (UInt32.ofNat r.payload.length).toNat = r.payload.length := by
    have := r.payload_lt_word
    simp
    omega
  rw [dechunkRec, hgetT, Option.bind_some]
  dsimp only
  rw [hgetI, Option.bind_some]
  dsimp only
  rw [hgetP, Option.bind_some]
  dsimp only
  rw [if_pos hgo]
  cases pPay with
  | none =>
    have hnil : r.payload = [] := hP
    refine ⟨m, l, rfl, h, ?_, by omega⟩
    rw [hnil, List.append_nil]
    rfl
  | some q =>
    have hread : readBytes src q r.payload.length = some r.payload := hP
    obtain ⟨junk, hplace⟩ := h.place
    have hgrow : appendGrowth l.payload.length r.payload.length ≤ r.payload.length + 3 := by
      unfold appendGrowth
      split <;> omega
    obtain ⟨m', l', junk', hres, hplace', hlen, hcur, ht, hty, hid, hpl⟩ :=
      (appendPayload_edits hplace h.room r.payload (by omega) fun _ _ _ => rfl).2 (by omega)
    have hholds : Holds maxSize m' (ds ++ [l']) := hplace'.holds (by omega) (hlen ▸ h.room) hlt
    refine ⟨m', l', ?_, hholds, ?_, by omega⟩
    · dsimp only
      rw [hpaylt, hread, Option.bind_some, hres, Option.map_some]
    · rw [NdefRec.logical, NdefRec.logical, ht, hty, hid, hpl]

theorem dechunkLoop_spec (rs : List Rec) :
    ∀ {cf : Bool} {p : Nat} {m : Msg} {ds : List NdefRec} {l : NdefRec} {fuel : Nat},
      Stands src p rs → (rs ≠ [] → EndsOnce rs) → Chunked cf rs →
      (∀ r ∈ rs, r.tnf ≠ ndefTnfMask) → Holds maxSize m (ds ++ [l]) →
      m.curSize + recsLen rs ≤ maxSize → rs.length < fuel →
      ∃ m' ns, dechunkLoop src maxSize fuel (if rs = [] then none else some p) .ok
          (recsLen (opened true ds)) m = some (.ok, m') ∧ Holds maxSize m' ns ∧
        ns.map NdefRec.logical = ds.map NdefRec.logical ++
          { l.logical with payload := l.payload ++ (chunkRun cf rs).1.flatMap Rec.payload } ::
            logicalRecs (chunkRun cf rs).2 := by
  induction rs with
  | nil =>
    intro cf p m ds l fuel hs he hc ht h hsize hf
    obtain ⟨fuel, rfl⟩ : ∃ k, fuel = k + 1 := ⟨fuel - 1, by omega⟩
    refine ⟨m, ds ++ [l], rfl, h, ?_⟩
    simp [chunkRun, logicalRecs, NdefRec.logical]
  | cons r rs ih =>
    intro cf p m ds l fuel hs he hc ht h hsize hf
    obtain ⟨fuel, rfl⟩ : ∃ k, fuel = k + 1 := ⟨fuel - 1, by omega⟩
    obtain ⟨hunch, -, hc'⟩ := hc
    have hend := he (List.cons_ne_nil _ _)
    have hend' : rs ≠ [] → EndsOnce rs := fun hne => (hend.cases.resolve_left fun hl => hne hl.1).2.2
    have ht' : ∀ r' ∈ rs, r'.tnf ≠ ndefTnfMask := fun r' hr' => ht r' (List.mem_cons_of_mem _ hr')
    have hf' : rs.length < fuel := by simpa using hf
    rw [if_neg (List.cons_ne_nil _ _), dechunkLoop, if_neg (not_not.mpr rfl)]
    cases cf with
    | true =>
      obtain ⟨m₁, l₁, hstep, hholds, hl₁, hsize₁⟩ := appendStep hs h (hunch.mpr rfl) hsize
      obtain ⟨m', ns, hloop, hns, hlog⟩ := ih hs.tail hend' hc' ht' hholds hsize₁ hf'
      rw [hstep, Option.bind_some]
      dsimp only
      rw [ndefMsgGetNextRec_spec hs hend, Option.bind_some]
      refine ⟨m', ns, hloop, hns, ?_⟩
      rw [hlog, hl₁]
      have hpay : l₁.payload = l.payload ++ r.payload := congrArg LogicalRec.payload hl₁
      simp [chunkRun, hpay]
    | false =>
      have hstart : r.tnf ≠ ndefTnfUnchanged := fun hr => Bool.false_ne_true (hunch.mp hr)
      obtain ⟨m₁, l₁, hstep, hholds, hl₁, hsize₁⟩ :=
        addStep (recsLen (opened true ds)) hs h (ht r List.mem_cons_self) hstart hsize
      obtain ⟨m', ns, hloop, hns, hlog⟩ := ih hs.tail hend' hc' ht' hholds hsize₁ hf'
      rw [hstep, Option.bind_some]
      dsimp only
      rw [ndefMsgGetNextRec_spec hs hend, Option.bind_some]
      refine ⟨m', ns, hloop, hns, ?_⟩
      have hpay : l₁.payload = r.payload := congrArg LogicalRec.payload hl₁
      rw [hlog, hl₁]
      simp [chunkRun, logicalRecs, hpay, NdefRec.logical]

end Turns

theorem copy_of_records {src dest : Bytes} {srcLen : UInt32} {rs : List Rec} (hlen : src.length = srcLen.toNat)
    (hdest : srcLen.toNat ≤ dest.length) (hok : ndefMsgValidate (some src) srcLen true = some .ok)
    (hsrc : src = recsBytes rs) (hend : EndsOnce rs) (hchunked : Chunked false rs)
    (htnf : ∀ r ∈ rs, r.tnf ≠ ndefTnfMask) :
    ∃ m ns, ndefMsgCopyAndDechunk src srcLen dest = some (.ok, m.mem, some m.curSize) ∧
      Holds srcLen.toNat m ns ∧ ns.map NdefRec.logical = logicalRecs rs := by
  have hlt : srcLen.toNat < 4294967296 := srcLen.toNat_lt
  have hsz : recsLen rs = srcLen.toNat := by
    rw [recsLen, ← hsrc, hlen]
  have hs : Stands src 0 rs := ⟨[], [], by simpa using hsrc, rfl, by omega⟩
  obtain ⟨m₀, hinit⟩ : ∃ m₀, ndefMsgInit dest srcLen.toNat = some m₀ := by
    rw [ndefMsgInit, memcpy, if_pos (by simpa using hdest)]
    exact ⟨_, rfl⟩
  have hholds₀ := ndefMsgInit_holds hlt hinit
  have hfuel : rs.length ≤ src.length := by
    have := hs.length_le
    omega
  cases rs with
  | nil => exact hend.elim
  | cons r rs =>
    obtain ⟨hunch, -, hchunked'⟩ := hchunked
    have hstart : r.tnf ≠ ndefTnfUnchanged := fun hr => Bool.false_ne_true (hunch.mp hr)
    have hend' : rs ≠ [] → EndsOnce rs := fun hne => (hend.cases.resolve_left fun hl => hne hl.1).2.2
    have hcur₀ : m₀.curSize = 0 := hholds₀.size
    obtain ⟨m₁, l₁, hstep, hholds, hl₁, hsize⟩ :=
      addStep 0 hs hholds₀ (htnf r List.mem_cons_self) hstart (by omega)
    obtain ⟨m, ns, hloop, hns, hlog⟩ := dechunkLoop_spec rs hs.tail hend' hchunked'
      (fun r' hr' => htnf r' (List.mem_cons_of_mem _ hr')) (show Holds _ m₁ ([] ++ [l₁]) from hholds)
      hsize hfuel
    have hcopy : ndefMsgCopyAndDechunk src srcLen dest = some (.ok, m.mem, some m.curSize) := by
      rw [ndefMsgCopyAndDechunk, hok, Option.bind_some, if_neg (not_not.mpr rfl), hinit, Option.bind_some,
        walkFuel, dechunkLoop, if_neg (not_not.mpr rfl), hstep, Option.bind_some]
      dsimp only
      rw [ndefMsgGetNextRec_spec hs hend, Option.bind_some, hloop]
      rfl
    have hpay : l₁.payload = r.payload := congrArg LogicalRec.payload hl₁
    refine ⟨m, ns, hcopy, hns, ?_⟩
    rw [hlog, hl₁, hpay, logicalRecs]
    rfl

theorem dechunks (src : Bytes) (srcLen : UInt32) (dest : Bytes) (hlen : src.length = srcLen.toNat)
    (hdest : srcLen.toNat ≤ dest.length) (hok : ndefMsgValidate (some src) srcLen true = some .ok) :
    ∃ rs dest' outLen ns, src = recsBytes rs ∧ Walks src rs ∧
      ndefMsgCopyAndDechunk src srcLen dest = some (.ok, dest', some outLen) ∧ outLen ≤ srcLen.toNat ∧
      dest'.take outLen = encode ns ∧ Walks dest' (closed true ns) ∧
      ns.map NdefRec.logical = logicalRecs rs := by
  obtain ⟨rs, hsrc, hend, -, hchunked, htnf⟩ := ndefMsgValidate_records hlen hok
  have hs : Stands src 0 rs := by
    refine ⟨[], [], by simpa using hsrc, rfl, ?_⟩
    have := srcLen.toNat_lt
    rw [recsLen, ← hsrc]
    omega
  obtain ⟨m, ns, hcopy, hns, hlog⟩ := copy_of_records hlen hdest hok hsrc hend hchunked htnf
  have hne : ns ≠ [] := by
    rintro rfl
    cases rs with
    | nil => exact hend
    | cons r rs => simp [logicalRecs] at hlog
  obtain ⟨junk, hmem⟩ := hns.mem
  refine ⟨rs, m.mem, m.curSize, ns, hsrc, walks_of_records hs hend, hcopy, hns.le, ?_, hns.walks hne, hlog⟩
  rw [hmem, hns.size, List.take_left]

/-- A record in three chunks, and one in one piece. -/
theorem dechunks_three_chunks :
    ∃ rs dest' outLen ns,
      [0xB1, 1, 2, 0x54, 7, 8, 0x36, 0, 1, 9, 0x16, 0, 0, 0x55, 0, 1, 5] = recsBytes rs ∧
      Walks [0xB1, 1, 2, 0x54, 7, 8, 0x36, 0, 1, 9, 0x16, 0, 0, 0x55, 0, 1, 5] rs ∧
      ndefMsgCopyAndDechunk [0xB1, 1, 2, 0x54, 7, 8, 0x36, 0, 1, 9, 0x16, 0, 0, 0x55, 0, 1, 5] 17
        (List.replicate 20 1) = some (.ok, dest', some outLen) ∧ outLen ≤ 17 ∧
      dest'.take outLen = encode ns ∧ Walks dest' (closed true ns) ∧
      ns.map NdefRec.logical = logicalRecs rs :=
  dechunks [0xB1, 1, 2, 0x54, 7, 8, 0x36, 0, 1, 9, 0x16, 0, 0, 0x55, 0, 1, 5] 17 (List.replicate 20 1)
    rfl (by decide) (by decide)

end NfcStack.Ndef
