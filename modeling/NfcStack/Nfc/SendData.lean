import NfcStack.Lib.Run
import NfcStack.Lib.Frames
import NfcStack.Nfc.ControlBlock

/- The data transmit path (`nfc_ncif.cc`: `nfc_ncif_send_data`,
   `nfc_ncif_proc_credits`). A submitted message waits in `tx_q`; each call
   drains the queue while credits last, cutting messages longer than
   `buff_size` into fragments.

   What is proved:
     1. `sendLoop_accounts`: if no message longer than `buff_size` is reached
        behind a completed one (`DrainClean`), the loop returns, and the packets
        written and the messages still queued are exactly the messages submitted.
     2. `fragmentation_faithful`: the same over every run of submissions,
        credit notifications and state changes.
     3. `fragmentation_unfaithful_short_then_long`: without the condition it
        fails. `pbf` is set to 1 once, before the loop, so a fragment sent in
        the same drain after a completed message carries PBF = 0.

   `getpoolbuf n` says whether the n-th allocation of the run succeeds. `none`
   is a call that does not return: the loop below runs on fuel that covers
   every terminating drain. -/
namespace NfcStack.Nfc
open NfcStack.Lib

/-! ## The code -/

inductive NciStatus where
  | ok | failed | bufferFull
  deriving DecidableEq, Repr

def nciDataPbldHdr (pbf cid len : UInt8) : Bytes := [(pbf <<< 4) ||| cid, 0, len]

/-- The NCI data header is put in front of the payload, in the same buffer. -/
def addDataHdr (p : NfcHdr) (pbf hdr0 ulen : UInt8) : NfcHdr :=
  { len := p.len + nciDataHdrSize
    offset := p.offset - nciDataHdrSize
    layerSpecific := pbf.toNat
    data := blit p.data (p.offset - nciDataHdrSize) (nciDataPbldHdr pbf hdr0 ulen) }

def cutFragment (p : NfcHdr) (ulen : UInt8) : NfcHdr :=
  { len := ulen.toNat
    offset := nciMsgOffsetSize + nciDataHdrSize + 1
    layerSpecific := 0
    data := List.replicate (nciMsgOffsetSize + nciDataHdrSize + 1) 0 ++
      slice p.data p.offset ulen.toNat }

def dropFragment (p : NfcHdr) (ulen : UInt8) : NfcHdr :=
  { p with len := p.len - ulen.toNat, offset := p.offset + ulen.toNat }

/-- One credit used, unless the connection has no flow control. -/
def spend (numBuff : UInt8) : UInt8 :=
  if numBuff ≠ nfcConnNoFc then numBuff - 1 else numBuff

structure Drain where
  cb : ConnCb
  pbf : UInt8
  allocs : Nat
  out : List Bytes

/-- One packet with the rest of the message: the original buffer is used. -/
def Drain.sendLast (d : Drain) (hdr0 : UInt8) (pData : NfcHdr) (rest : List NfcHdr) : Drain :=
  let ulen := UInt8.ofNat pData.len
  { d with
    cb := { d.cb with txQ := rest, numBuff := spend d.cb.numBuff }
    pbf := 0
    out := d.out ++ [(addDataHdr pData 0 hdr0 ulen).bytes] }

/-- One packet with `ulen` bytes of the message, in a buffer of its own. -/
def Drain.sendFragment (d : Drain) (hdr0 ulen : UInt8) (pData : NfcHdr) (rest : List NfcHdr) : Drain :=
  { d with
    cb := { d.cb with
      txQ := dropFragment pData ulen :: rest
      numBuff := spend d.cb.numBuff }
    allocs := d.allocs + 1
    out := d.out ++ [(addDataHdr (cutFragment pData ulen) d.pbf hdr0 ulen).bytes] }

section Transmit
variable (getpoolbuf : Nat → Bool)

def sendLoop (bufferSize hdr0 : UInt8) : Nat → Drain → Option (NciStatus × Drain)
  | 0, _ => none
  | fuel + 1, d =>
    match d.cb.txQ with
    | [] => some (.ok, d)
    | pData :: rest =>
      if d.cb.numBuff = 0 then some (.ok, d)
      else if pData.len ≤ bufferSize.toNat then
        sendLoop bufferSize hdr0 fuel (d.sendLast hdr0 pData rest)
      else if getpoolbuf d.allocs then
        sendLoop bufferSize hdr0 fuel (d.sendFragment hdr0 bufferSize pData rest)
      else some (.bufferFull, { d with allocs := d.allocs + 1 })

/-- Every terminating drain fits: each packet takes a byte or a message off the
queue, or one of at most 255 credits. -/
def sendFuel (cb : ConnCb) : Nat := (cb.txQ.map (·.len + 1)).sum + 257

def enqueueTx (cb : ConnCb) : Option NfcHdr → ConnCb
  | none => cb
  | some p => { cb with txQ := cb.txQ ++ [p] }

def nfcNcifSendData (nfcState : NfcState) (flags : NfcFlags) (allocs : Nat) (cb : ConnCb)
    (pData : Option NfcHdr) : Option (NciStatus × Drain) :=
  if cb.id = nfcRfConnId ∧ nfcState ≠ .open then some (.failed, ⟨cb, 1, allocs, []⟩)
  else if flags.waitRfIntfExtRsp then some (.failed, ⟨cb, 1, allocs, []⟩)
  else
    let cb := enqueueTx cb pData
    sendLoop getpoolbuf cb.buffSize cb.connId (sendFuel cb) ⟨cb, 1, allocs, []⟩

/-- The stack as the data path sees it, with the packets handed to the HAL and
the messages accepted so far, each with its connection. -/
structure Link where
  conns : ConnTable
  nfcState : NfcState
  flags : NfcFlags
  allocs : Nat
  hal : List (Fin nciMaxConnCbs × Bytes)
  submitted : List (Fin nciMaxConnCbs × Bytes)

def accepted (i : Fin nciMaxConnCbs) (status : NciStatus) :
    Option NfcHdr → List (Fin nciMaxConnCbs × Bytes)
  | some p => if status = .failed then [] else [(i, p.bytes)]
  | none => []

/-- A call of `nfc_ncif_send_data` on the connection in slot `i`. -/
def Link.send (s : Link) (i : Fin nciMaxConnCbs) (pData : Option NfcHdr) : Option Link := do
  let (status, d) ← nfcNcifSendData getpoolbuf s.nfcState s.flags s.allocs (s.conns.connCb i) pData
  return { s with
    conns := s.conns.set i d.cb
    allocs := d.allocs
    hal := s.hal ++ d.out.map (i, ·)
    submitted := s.submitted ++ accepted i status pData }

/-- Credits granted: `p_cb->num_buff += (*p)`, in 8 bits. -/
def Link.grant (s : Link) (i : Fin nciMaxConnCbs) (credit : UInt8) : Link :=
  let cb := s.conns.connCb i
  { s with conns := s.conns.set i { cb with numBuff := cb.numBuff + credit } }

/-- One entry of a CORE_CONN_CREDITS notification. The cap at `init_credits` is
compiled under `BT_USE_TRACES`, which no build file defines. -/
def Link.creditEntry (s : Link) (entry : UInt8 × UInt8) : Option Link :=
  match nfcFindConnCbByConnId s.conns entry.1 with
  | none => some s
  | some i =>
    if (s.conns.connCb i).numBuff ≠ nfcConnNoFc then (s.grant i entry.2).send getpoolbuf i none
    else some s

/-- The entries the loop of `nfc_ncif_proc_credits` reads, `num` of them. -/
def creditEntries : Nat → Bytes → List (UInt8 × UInt8)
  | num + 1, cid :: credit :: rest => (cid, credit) :: creditEntries num rest
  | _, _ => []

def creditsOf : Bytes → List (UInt8 × UInt8)
  | [] => []
  | num :: rest => if num.toNat * 2 > rest.length then [] else creditEntries num.toNat rest

def nfcNcifProcCredits (s : Link) (p : Bytes) : Option Link :=
  run (Link.creditEntry getpoolbuf) s (creditsOf p)

/-- What happens to the data path: a submission, a credit notification, or other
code moving `nfc_state` and the flags. -/
inductive LinkEvent where
  | submit (i : Fin nciMaxConnCbs) (p : NfcHdr)
  | credits (p : Bytes)
  | setState (nfcState : NfcState) (flags : NfcFlags)

def Link.step (s : Link) : LinkEvent → Option Link
  | .submit i p => s.send getpoolbuf i (some p)
  | .credits p => nfcNcifProcCredits getpoolbuf s p
  | .setState nfcState flags => some { s with nfcState := nfcState, flags := flags }

end Transmit

/-! ## One packet -/

/-- A data packet as the controller reads it: the packet boundary flag of the
first byte, and what follows the header. -/
def frameOf (b : Bytes) : Frame UInt8 :=
  ⟨(b.headD 0 >>> 4) &&& 1 = 1, b.drop nciDataHdrSize⟩

/-- A queued buffer has its message inside and room for the header in front. -/
structure Queueable (p : NfcHdr) : Prop where
  fits : p.Fits
  room : nciDataHdrSize ≤ p.offset

instance (p : NfcHdr) : Decidable (Queueable p) :=
  decidable_of_iff (p.Fits ∧ nciDataHdrSize ≤ p.offset) ⟨fun h => ⟨h.1, h.2⟩, fun h => ⟨h.fits, h.room⟩⟩

theorem pbf_bit {pbf cid : UInt8} (hpbf : pbf = 0 ∨ pbf = 1) (hid : cid.toNat < 16) :
    (((pbf <<< 4) ||| cid) >>> 4) &&& 1 = pbf := by
  have hall : ∀ n < 16, ∀ b < 2,
      (((UInt8.ofNat b <<< 4) ||| UInt8.ofNat n) >>> 4) &&& 1 = UInt8.ofNat b := by decide
  have hcid : UInt8.ofNat cid.toNat = cid := UInt8.ofNat_toNat
  obtain rfl | rfl := hpbf
  · simpa [hcid] using hall cid.toNat hid 0 (by omega)
  · simpa [hcid] using hall cid.toNat hid 1 (by omega)

variable {p : NfcHdr}

theorem bytes_addDataHdr (h : Queueable p) (pbf hdr0 ulen : UInt8) :
    (addDataHdr p pbf hdr0 ulen).bytes = nciDataPbldHdr pbf hdr0 ulen ++ p.bytes := by
  have hroom := h.room
  have hin := h.fits.inside
  have hlen : (nciDataPbldHdr pbf hdr0 ulen).length = nciDataHdrSize := rfl
  have hpos : p.offset - nciDataHdrSize + nciDataHdrSize = p.offset := by omega
  have key := slice_blit_after p.data (p.offset - nciDataHdrSize)
    (nciDataPbldHdr pbf hdr0 ulen) p.len (by omega)
  rw [hlen, hpos, Nat.add_comm] at key
  exact key

theorem frameOf_addDataHdr (h : Queueable p) {hdr0 : UInt8} (hid : hdr0.toNat < 16)
    (pbf ulen : UInt8) (hpbf : pbf = 0 ∨ pbf = 1) :
    frameOf (addDataHdr p pbf hdr0 ulen).bytes = ⟨pbf = 1, p.bytes⟩ := by
  rw [bytes_addDataHdr h]
  simp only [frameOf, nciDataPbldHdr, List.cons_append, List.headD_cons, pbf_bit hpbf hid]
  rfl

variable {ulen : UInt8}

theorem cutFragment_queueable (h : Queueable p)
    (hlen : ulen.toNat ≤ p.len) : Queueable (cutFragment p ulen) := by
  have hin := h.fits.inside
  have hu := ulen.toNat_lt
  have hl : (slice p.data p.offset ulen.toNat).length = ulen.toNat := length_slice (by omega)
  refine ⟨⟨?_, ?_⟩, ?_⟩
  · simp [cutFragment, hl]
  · simp [cutFragment, hl, nciMsgOffsetSize, nciDataHdrSize]
    omega
  · simp [cutFragment, nciMsgOffsetSize, nciDataHdrSize]

theorem bytes_cutFragment (h : Queueable p) (hlen : ulen.toNat ≤ p.len) :
    (cutFragment p ulen).bytes = slice p.data p.offset ulen.toNat := by
  have hin := h.fits.inside
  have hl : (slice p.data p.offset ulen.toNat).length = ulen.toNat := length_slice (by omega)
  have key := slice_append (a := List.replicate (nciMsgOffsetSize + nciDataHdrSize + 1) (0 : UInt8))
    (b := slice p.data p.offset ulen.toNat) (c := []) (List.length_replicate).symm hl.symm
  simpa [NfcHdr.bytes, cutFragment] using key

theorem dropFragment_queueable (h : Queueable p)
    (hlen : ulen.toNat ≤ p.len) : Queueable (dropFragment p ulen) := by
  have hin := h.fits.inside
  have hroom := h.room
  refine ⟨⟨?_, h.fits.small⟩, ?_⟩ <;> simp only [dropFragment] <;> omega

theorem bytes_fragment (hlen : ulen.toNat ≤ p.len) :
    p.bytes = slice p.data p.offset ulen.toNat ++ (dropFragment p ulen).bytes := by
  have hsum : p.len = ulen.toNat + (p.len - ulen.toNat) := by omega
  simp only [NfcHdr.bytes, dropFragment]
  rw [← slice_split, ← hsum]

/-! ## One drain -/

def fragsOf (buffSize : Nat) (q : List NfcHdr) : Nat := (q.map fun p => frags buffSize p.len).sum

def CreditFor (numBuff : UInt8) (n : Nat) : Prop := numBuff = nfcConnNoFc ∨ n < numBuff.toNat

section Clean
variable (getpoolbuf : Nat → Bool)

/-- The drain sends every message of `pre` and then still has a credit and a
buffer for one more fragment. -/
def PassesBy (allocs : Nat) (cb : ConnCb) (pre : List NfcHdr) : Prop :=
  CreditFor cb.numBuff (fragsOf cb.buffSize.toNat pre + pre.length) ∧
    ∀ k ≤ fragsOf cb.buffSize.toNat pre, getpoolbuf (allocs + k) = true

/-- No message longer than `buff_size` is reached by a drain that has sent
`pre`, for the `pre` that meet `P`. -/
def NoLongAfter (P : List NfcHdr → Prop) (allocs : Nat) (cb : ConnCb) : Prop :=
  ∀ pre m post, cb.txQ = pre ++ m :: post → P pre → cb.buffSize.toNat < m.len →
    ¬ PassesBy getpoolbuf allocs cb pre

theorem noLongAfter_iff (P : List NfcHdr → Prop) (allocs : Nat) (cb : ConnCb) :
    NoLongAfter getpoolbuf P allocs cb ↔ ∀ k : Fin cb.txQ.length,
      P (cb.txQ.take k) → cb.buffSize.toNat < (cb.txQ.get k).len →
        ¬ PassesBy getpoolbuf allocs cb (cb.txQ.take k) := by
  constructor
  · intro h k
    refine h (cb.txQ.take k) (cb.txQ.get k) (cb.txQ.drop (k + 1)) ?_
    rw [List.get_eq_getElem, List.getElem_cons_drop, List.take_append_drop]
  · intro h pre m post hq
    have hk : pre.length < cb.txQ.length := by simp [hq]
    have hget : cb.txQ.get ⟨pre.length, hk⟩ = m := by simp [hq]
    have htake : cb.txQ.take pre.length = pre := by simp [hq]
    have hpre := h ⟨pre.length, hk⟩
    rwa [htake, hget] at hpre

instance (numBuff : UInt8) (n : Nat) : Decidable (CreditFor numBuff n) :=
  inferInstanceAs (Decidable (_ ∨ _))

instance (allocs : Nat) (cb : ConnCb) (pre : List NfcHdr) :
    Decidable (PassesBy getpoolbuf allocs cb pre) :=
  inferInstanceAs (Decidable (_ ∧ ∀ k ≤ _, _))

instance (P : List NfcHdr → Prop) [DecidablePred P] (allocs : Nat) (cb : ConnCb) :
    Decidable (NoLongAfter getpoolbuf P allocs cb) :=
  decidable_of_iff _ (noLongAfter_iff getpoolbuf P allocs cb).symm

/-- No message longer than `buff_size` is reached behind a completed one. -/
def DrainClean (allocs : Nat) (cb : ConnCb) : Prop :=
  NoLongAfter getpoolbuf (· ≠ []) allocs cb

/-- The same in the middle of a drain that has completed a message: the head of
the queue counts too. -/
def TailClean (allocs : Nat) (cb : ConnCb) : Prop :=
  NoLongAfter getpoolbuf (fun _ => True) allocs cb

/-- What a drain has to leave behind. `sub` is what was submitted on the
connection, `fs` the frames sent before this drain. -/
structure DrainSound (sub : List Bytes) (fs : List (Frame UInt8)) (d : Drain) : Prop where
  queued : ∀ p ∈ d.cb.txQ, Queueable p
  accounts : Accounts sub (fs ++ d.out.map frameOf) (d.cb.txQ.map (·.bytes))
  small : ∀ b ∈ d.out, (frameOf b).payload.length ≤ d.cb.buffSize.toNat

structure DrainInv (sub : List Bytes) (fs : List (Frame UInt8)) (d : Drain) : Prop
    extends DrainSound sub fs d where
  clean : d.pbf = 1 ∧ DrainClean getpoolbuf d.allocs d.cb ∨
    d.pbf = 0 ∧ TailClean getpoolbuf d.allocs d.cb

end Clean

theorem toNat_spend {numBuff : UInt8} (h0 : numBuff ≠ 0) (hfc : numBuff ≠ nfcConnNoFc) :
    (spend numBuff).toNat = numBuff.toNat - 1 := by
  have hpos : numBuff.toNat ≠ 0 := fun hz => h0 (UInt8.toNat_inj.mp (by simpa using hz))
  rw [spend, if_pos hfc, UInt8.toNat_sub_of_le _ _ (by rw [UInt8.le_iff_toNat_le]; simp; omega)]
  rfl

theorem creditFor_spend {numBuff : UInt8} {n : Nat} (h0 : numBuff ≠ 0)
    (h : CreditFor (spend numBuff) n) : CreditFor numBuff (n + 1) := by
  by_cases hfc : numBuff = nfcConnNoFc
  · exact Or.inl hfc
  · have hsub := toNat_spend h0 hfc
    have hlt := numBuff.toNat_lt
    refine Or.inr ?_
    obtain h | h := h
    · rw [h] at hsub
      simp [nfcConnNoFc] at hsub
      omega
    · omega

section Step
variable {getpoolbuf : Nat → Bool} {sub : List Bytes} {fs : List (Frame UInt8)} {d : Drain}
  {pData : NfcHdr} {rest : List NfcHdr}

theorem tailClean_sendLast {P : List NfcHdr → Prop} (hP : ∀ pre, P (pData :: pre)) (hdr0 : UInt8)
    (hq : d.cb.txQ = pData :: rest) (h0 : d.cb.numBuff ≠ 0)
    (hlen : pData.len ≤ d.cb.buffSize.toNat)
    (h : NoLongAfter getpoolbuf P d.allocs d.cb) :
    TailClean getpoolbuf d.allocs (d.sendLast hdr0 pData rest).cb := by
  rintro pre m post hrest - hm ⟨hcred, halloc⟩
  have hfrags : fragsOf d.cb.buffSize.toNat (pData :: pre) = fragsOf d.cb.buffSize.toNat pre := by
    simp [fragsOf, frags_short hlen]
  have hq' : d.cb.txQ = (pData :: pre) ++ m :: post := by
    rw [hq]; exact congrArg (pData :: ·) hrest
  refine h (pData :: pre) m post hq' (hP pre) hm ⟨?_, ?_⟩
  · rw [hfrags]
    exact creditFor_spend h0 hcred
  · rw [hfrags]
    exact halloc

theorem drainClean_sendFragment (hdr0 : UInt8) (hq : d.cb.txQ = pData :: rest)
    (h0 : d.cb.numBuff ≠ 0) (hb : 1 ≤ d.cb.buffSize.toNat) (hlen : d.cb.buffSize.toNat < pData.len)
    (hbuf : getpoolbuf d.allocs = true) (h : DrainClean getpoolbuf d.allocs d.cb) :
    DrainClean getpoolbuf (d.allocs + 1) (d.sendFragment hdr0 d.cb.buffSize pData rest).cb := by
  rintro pre m post hrest hne hm ⟨hcred, halloc⟩
  cases pre with
  | nil => exact hne rfl
  | cons p pre =>
    obtain ⟨rfl, hpre⟩ : dropFragment pData d.cb.buffSize = p ∧ rest = pre ++ m :: post := by
      simpa [Drain.sendFragment] using hrest
    have hfrags : fragsOf d.cb.buffSize.toNat (pData :: pre) =
        fragsOf d.cb.buffSize.toNat (dropFragment pData d.cb.buffSize :: pre) + 1 := by
      simp only [fragsOf, List.map_cons, List.sum_cons, dropFragment]
      rw [frags_long hb hlen]
      omega
    have hq' : d.cb.txQ = (pData :: pre) ++ m :: post := by
      rw [hq, hpre]; rfl
    refine h (pData :: pre) m post hq' (by simp) hm ⟨?_, ?_⟩
    · have hspend := creditFor_spend h0 hcred
      rw [hfrags]
      convert hspend using 1
      simp [Drain.sendFragment]
      omega
    · intro k hk
      rw [hfrags] at hk
      cases k with
      | zero => exact hbuf
      | succ k =>
        have hkk := halloc k (by simpa [Drain.sendFragment] using hk)
        rw [← hkk]
        congr 1
        omega

theorem DrainInv.sendLast {hdr0 : UInt8} (h : DrainInv getpoolbuf sub fs d) (hid : hdr0.toNat < 16)
    (hq : d.cb.txQ = pData :: rest) (h0 : d.cb.numBuff ≠ 0)
    (hlen : pData.len ≤ d.cb.buffSize.toNat) :
    DrainInv getpoolbuf sub fs (d.sendLast hdr0 pData rest) := by
  have hp : Queueable pData := h.queued pData (by rw [hq]; simp)
  have hframe := frameOf_addDataHdr hp hid 0 (UInt8.ofNat pData.len) (Or.inl rfl)
  refine ⟨⟨?_, ?_, ?_⟩, Or.inr ⟨rfl, ?_⟩⟩
  · intro p hmem
    exact h.queued p (by rw [hq]; exact List.mem_cons_of_mem _ hmem)
  · have hacc := h.accounts
    rw [hq, List.map_cons] at hacc
    have hlast := hacc.emit_last
    simpa [Drain.sendLast, hframe] using hlast
  · intro b hmem
    simp only [Drain.sendLast, List.mem_append, List.mem_singleton] at hmem ⊢
    obtain hmem | rfl := hmem
    · exact h.small b hmem
    · rw [hframe]
      simpa [hp.fits.length_bytes] using hlen
  · obtain ⟨-, hc⟩ | ⟨-, hc⟩ := h.clean
    · exact tailClean_sendLast (fun _ => by simp) hdr0 hq h0 hlen hc
    · exact tailClean_sendLast (fun _ => trivial) hdr0 hq h0 hlen hc

theorem DrainInv.sendFragment {hdr0 : UInt8} (h : DrainInv getpoolbuf sub fs d)
    (hid : hdr0.toNat < 16) (hq : d.cb.txQ = pData :: rest) (h0 : d.cb.numBuff ≠ 0)
    (hb : 1 ≤ d.cb.buffSize.toNat) (hlen : d.cb.buffSize.toNat < pData.len)
    (hbuf : getpoolbuf d.allocs = true) :
    DrainInv getpoolbuf sub fs (d.sendFragment hdr0 d.cb.buffSize pData rest) := by
  have hp : Queueable pData := h.queued pData (by rw [hq]; simp)
  have hle : d.cb.buffSize.toNat ≤ pData.len := Nat.le_of_lt hlen
  -- the head of the queue would be a long message behind a completed one
  obtain ⟨hpbf, hclean⟩ : d.pbf = 1 ∧ DrainClean getpoolbuf d.allocs d.cb := by
    obtain hc | ⟨-, hc⟩ := h.clean
    · exact hc
    · refine absurd ⟨?_, ?_⟩ (hc [] pData rest hq trivial hlen)
      · have hpos : d.cb.numBuff.toNat ≠ 0 := fun hz => h0 (UInt8.toNat_inj.mp (by simpa using hz))
        exact Or.inr (by simp [fragsOf]; omega)
      · intro k hk
        have hk0 : k = 0 := by simpa [fragsOf] using hk
        rw [hk0]; exact hbuf
  have hframe := frameOf_addDataHdr (cutFragment_queueable hp hle) hid d.pbf d.cb.buffSize
    (Or.inr hpbf)
  rw [bytes_cutFragment hp hle, hpbf] at hframe
  refine ⟨⟨?_, ?_, ?_⟩, Or.inl ⟨hpbf, drainClean_sendFragment hdr0 hq h0 hb hlen hbuf hclean⟩⟩
  · intro p hmem
    obtain rfl | hmem := List.mem_cons.mp hmem
    · exact dropFragment_queueable hp hle
    · exact h.queued p (by rw [hq]; exact List.mem_cons_of_mem _ hmem)
  · have hacc := h.accounts
    rw [hq, List.map_cons, bytes_fragment hle] at hacc
    have hmore := hacc.emit_more
    simpa [Drain.sendFragment, hpbf, hframe] using hmore
  · intro b hmem
    simp only [Drain.sendFragment, List.mem_append, List.mem_singleton] at hmem ⊢
    obtain hmem | rfl := hmem
    · exact h.small b hmem
    · have hin := hp.fits.inside
      rw [hpbf, hframe, length_slice (by omega)]

def Drain.work (d : Drain) : Nat := (d.cb.txQ.map (·.len + 1)).sum

/-- The loop keeps what the connection is, and puts nothing into an empty queue. -/
structure SameConn (a b : ConnCb) : Prop where
  buffSize : b.buffSize = a.buffSize
  connId : b.connId = a.connId
  busy : b.txQ ≠ [] → a.txQ ≠ []

theorem SameConn.refl (a : ConnCb) : SameConn a a := ⟨rfl, rfl, id⟩

theorem sendLoop_accounts (hdr0 : UInt8) : ∀ (fuel : Nat) (d : Drain),
    (d.cb.txQ ≠ [] → 1 ≤ d.cb.buffSize.toNat ∧ hdr0.toNat < 16) →
    DrainInv getpoolbuf sub fs d → d.work < fuel →
    ∃ st d', sendLoop getpoolbuf d.cb.buffSize hdr0 fuel d = some (st, d') ∧ st ≠ .failed ∧
      SameConn d.cb d'.cb ∧ DrainSound sub fs d' := by
  intro fuel
  induction fuel with
  | zero => intro d _ _ hw; omega
  | succ fuel ih =>
    intro d hconn h hw
    match hq : d.cb.txQ with
    | [] => exact ⟨.ok, d, by simp [sendLoop, hq], by simp, SameConn.refl _, h.toDrainSound⟩
    | pData :: rest =>
      obtain ⟨hb, hid⟩ := hconn (by simp [hq])
      have hwork : d.work = pData.len + 1 + (rest.map (·.len + 1)).sum := by
        simp [Drain.work, hq]
      by_cases h0 : d.cb.numBuff = 0
      · exact ⟨.ok, d, by simp [sendLoop, hq, h0], by simp, SameConn.refl _, h.toDrainSound⟩
      by_cases hlen : pData.len ≤ d.cb.buffSize.toNat
      · obtain ⟨st, d', hrun, hst, hsame, hinv⟩ := ih (d.sendLast hdr0 pData rest)
          (fun _ => ⟨hb, hid⟩) (h.sendLast hid hq h0 hlen)
          (by simp only [Drain.work, Drain.sendLast]; omega)
        refine ⟨st, d', ?_, hst, ⟨hsame.buffSize, hsame.connId, fun _ => by simp [hq]⟩, hinv⟩
        simp only [sendLoop, hq, h0, hlen, if_true, if_false]
        exact hrun
      by_cases hbuf : getpoolbuf d.allocs = true
      · obtain ⟨st, d', hrun, hst, hsame, hinv⟩ := ih (d.sendFragment hdr0 d.cb.buffSize pData rest)
          (fun _ => ⟨hb, hid⟩) (h.sendFragment hid hq h0 hb (by omega) hbuf)
          (by simp only [Drain.work, Drain.sendFragment, List.map_cons, List.sum_cons,
                dropFragment]; omega)
        refine ⟨st, d', ?_, hst, ⟨hsame.buffSize, hsame.connId, fun _ => by simp [hq]⟩, hinv⟩
        simp only [sendLoop, hq, h0, hlen, hbuf, if_true, if_false]
        exact hrun
      · exact ⟨.bufferFull, { d with allocs := d.allocs + 1 }, by simp [sendLoop, hq, h0, hlen, hbuf],
          by simp, SameConn.refl _, ⟨h.queued, h.accounts, h.small⟩⟩

end Step

/-! ## Runs -/

/-- The packets of the connection in slot `i`, as the controller reads them. -/
def Link.framesOn (s : Link) (i : Fin nciMaxConnCbs) : List (Frame UInt8) :=
  (s.hal.filter (·.1 = i)).map fun x => frameOf x.2

def Link.submittedOn (s : Link) (i : Fin nciMaxConnCbs) : List Bytes :=
  (s.submitted.filter (·.1 = i)).map (·.2)

def Link.Fresh (s : Link) : Prop :=
  (∀ i, (s.conns.connCb i).txQ = []) ∧ s.hal = [] ∧ s.submitted = []

/-- The connection takes data: `buff_size ≥ 1`, and its id is one of the sixteen
that the header byte has room for. -/
def Established (cb : ConnCb) : Prop := 1 ≤ cb.buffSize.toNat ∧ cb.connId.toNat < 16

structure SlotInv (s : Link) (i : Fin nciMaxConnCbs) : Prop where
  conn : (s.conns.connCb i).txQ ≠ [] → Established (s.conns.connCb i)
  queued : ∀ p ∈ (s.conns.connCb i).txQ, Queueable p
  accounts : Accounts (s.submittedOn i) (s.framesOn i) ((s.conns.connCb i).txQ.map (·.bytes))
  small : ∀ f ∈ s.framesOn i, f.payload.length ≤ (s.conns.connCb i).buffSize.toNat

def LinkInv (s : Link) : Prop := ∀ i, SlotInv s i

theorem linkInv_fresh {s : Link} (h : s.Fresh) : LinkInv s := by
  obtain ⟨hq, hhal, hsub⟩ := h
  intro i
  have hf : s.framesOn i = [] := by simp [Link.framesOn, hhal]
  have hs : s.submittedOn i = [] := by simp [Link.submittedOn, hsub]
  refine ⟨by simp [hq i], by simp [hq i], ?_, by simp [hf]⟩
  rw [hf, hs, hq i]
  exact accounts_nil

def Refuses (s : Link) (cb : ConnCb) : Prop :=
  cb.id = nfcRfConnId ∧ s.nfcState ≠ .open ∨ s.flags.waitRfIntfExtRsp = true

instance (s : Link) (cb : ConnCb) : Decidable (Refuses s cb) := inferInstanceAs (Decidable (_ ∨ _))

instance (cb : ConnCb) : Decidable (Established cb) := inferInstanceAs (Decidable (_ ∧ _))

/-- An event the stack can receive: a submission is a buffer with its message
inside and room for the header, on an established connection. -/
def LinkEvent.Valid (s : Link) : LinkEvent → Prop
  | .submit i p => Queueable p ∧ Established (s.conns.connCb i)
  | .credits _ => True
  | .setState _ _ => True

instance (s : Link) : (e : LinkEvent) → Decidable (e.Valid s)
  | .submit _ _ => inferInstanceAs (Decidable (_ ∧ _))
  | .credits _ => .isTrue trivial
  | .setState _ _ => .isTrue trivial

section Runs
variable (getpoolbuf : Nat → Bool)

/-- The drain that a call of `nfc_ncif_send_data` starts is clean. -/
def SendClean (s : Link) (i : Fin nciMaxConnCbs) (pData : Option NfcHdr) : Prop :=
  Refuses s (s.conns.connCb i) ∨ DrainClean getpoolbuf s.allocs (enqueueTx (s.conns.connCb i) pData)

def EntryClean (s : Link) (entry : UInt8 × UInt8) : Prop :=
  ∀ i, nfcFindConnCbByConnId s.conns entry.1 = some i →
    (s.conns.connCb i).numBuff ≠ nfcConnNoFc → SendClean getpoolbuf (s.grant i entry.2) i none

def LinkEvent.Clean (s : Link) : LinkEvent → Prop
  | .submit i p => SendClean getpoolbuf s i (some p)
  | .credits p => StepsOk (Link.creditEntry getpoolbuf) (EntryClean getpoolbuf) s (creditsOf p)
  | .setState _ _ => True

instance (s : Link) (i : Fin nciMaxConnCbs) (pData : Option NfcHdr) :
    Decidable (SendClean getpoolbuf s i pData) :=
  inferInstanceAs (Decidable (_ ∨ NoLongAfter _ _ _ _))

instance (s : Link) (entry : UInt8 × UInt8) : Decidable (EntryClean getpoolbuf s entry) :=
  inferInstanceAs (Decidable (∀ _, _ → _ → _))

instance (s : Link) : (e : LinkEvent) → Decidable (e.Clean getpoolbuf s)
  | .submit i p => inferInstanceAs (Decidable (SendClean getpoolbuf s i (some p)))
  | .credits _ => StepsOk.decidable _ _ _ _
  | .setState _ _ => .isTrue trivial

variable {getpoolbuf}

variable {s : Link} {i : Fin nciMaxConnCbs} {pData : Option NfcHdr}

theorem Link.send_refused (h : Refuses s (s.conns.connCb i)) :
    s.send getpoolbuf i pData = some { s with conns := s.conns.set i (s.conns.connCb i) } := by
  have hrun : nfcNcifSendData getpoolbuf s.nfcState s.flags s.allocs (s.conns.connCb i) pData =
      some (.failed, ⟨s.conns.connCb i, 1, s.allocs, []⟩) := by
    unfold nfcNcifSendData
    split
    · rfl
    · next hn =>
      rw [if_pos (h.resolve_left hn)]
  cases pData <;> simp [Link.send, hrun, accepted]

theorem ConnTable.set_self (t : ConnTable) (i : Fin nciMaxConnCbs) : t.set i (t.connCb i) = t := by
  have hcb : (fun j => if j = i then t.connCb i else t.connCb j) = t.connCb := by
    funext j
    split
    · next h => rw [h]
    · rfl
  simp [ConnTable.set, hcb]

theorem drainInv_enqueue (h : SlotInv s i) (hp : ∀ p ∈ pData, Queueable p)
    (hc : DrainClean getpoolbuf s.allocs (enqueueTx (s.conns.connCb i) pData)) :
    DrainInv getpoolbuf (s.submittedOn i ++ (pData.map (·.bytes)).toList) (s.framesOn i)
      ⟨enqueueTx (s.conns.connCb i) pData, 1, s.allocs, []⟩ := by
  refine ⟨⟨?_, ?_, by simp⟩, Or.inl ⟨rfl, hc⟩⟩
  · intro p hmem
    cases pData with
    | none => exact h.queued p hmem
    | some q =>
      obtain hmem | hmem := List.mem_append.mp hmem
      · exact h.queued p hmem
      · rw [List.mem_singleton.mp hmem]
        exact hp q rfl
  · cases pData with
    | none => simpa [enqueueTx] using h.accounts
    | some q => simpa [enqueueTx] using h.accounts.submit q.bytes

theorem filter_tagged_same (i : Fin nciMaxConnCbs) (bs : List Bytes) :
    (bs.map (i, ·)).filter (·.1 = i) = bs.map (i, ·) := by
  simp [List.filter_eq_self]

theorem filter_tagged_other {i j : Fin nciMaxConnCbs} (h : j ≠ i) (bs : List Bytes) :
    (bs.map (i, ·)).filter (·.1 = j) = [] := by
  simp [List.filter_eq_nil_iff, h.symm]

theorem slotInv_send {d : Drain} {new : List Bytes}
    (h : LinkInv s) (hconn : d.cb.txQ ≠ [] → Established d.cb)
    (hbuff : d.cb.buffSize = (s.conns.connCb i).buffSize)
    (hd : DrainSound (s.submittedOn i ++ new) (s.framesOn i) d) :
    LinkInv { s with
      conns := s.conns.set i d.cb
      allocs := d.allocs
      hal := s.hal ++ d.out.map (i, ·)
      submitted := s.submitted ++ new.map (i, ·) } := by
  intro j
  by_cases hj : j = i
  · subst hj
    refine ⟨by simpa using hconn, by simpa using hd.queued, ?_, ?_⟩
    · simpa [Link.submittedOn, Link.framesOn, filter_tagged_same, Function.comp_def]
        using hd.accounts
    · intro f hf
      simp only [Link.framesOn, List.filter_append, filter_tagged_same, List.map_append,
        List.map_map, List.mem_append, ConnTable.set_same] at hf ⊢
      obtain hf | hf := hf
      · rw [hbuff]
        exact (h j).small f hf
      · obtain ⟨b, hb, rfl⟩ := List.mem_map.mp hf
        exact hd.small b hb
  · have hs := h j
    refine ⟨?_, ?_, ?_, ?_⟩ <;>
      simp only [Link.submittedOn, Link.framesOn, List.filter_append, filter_tagged_other hj,
        List.append_nil, ConnTable.set_other _ _ hj]
    · exact hs.conn
    · exact hs.queued
    · exact hs.accounts
    · exact hs.small

theorem linkInv_send (h : LinkInv s)
    (hp : ∀ p ∈ pData, Queueable p ∧ Established (s.conns.connCb i))
    (hc : SendClean getpoolbuf s i pData) :
    ∃ t, s.send getpoolbuf i pData = some t ∧ LinkInv t := by
  by_cases href : Refuses s (s.conns.connCb i)
  · exact ⟨_, Link.send_refused href, by rwa [ConnTable.set_self]⟩
  have hclean := hc.resolve_left href
  have hconn : (enqueueTx (s.conns.connCb i) pData).txQ ≠ [] →
      Established (enqueueTx (s.conns.connCb i) pData) := by
    cases pData with
    | none => exact (h i).conn
    | some p => exact fun _ => (hp p rfl).2
  have hsize : (enqueueTx (s.conns.connCb i) pData).buffSize = (s.conns.connCb i).buffSize := by
    cases pData <;> rfl
  obtain ⟨st, d, hrun, hst, hsame, hd⟩ := sendLoop_accounts
    (enqueueTx (s.conns.connCb i) pData).connId (sendFuel (enqueueTx (s.conns.connCb i) pData))
    ⟨enqueueTx (s.conns.connCb i) pData, 1, s.allocs, []⟩ hconn
    (drainInv_enqueue (h i) (fun p hm => (hp p hm).1) hclean)
    (by simp only [Drain.work, sendFuel]; omega)
  have hcall : nfcNcifSendData getpoolbuf s.nfcState s.flags s.allocs (s.conns.connCb i) pData =
      some (st, d) := by
    rw [nfcNcifSendData, if_neg (fun hn => href (Or.inl hn)), if_neg (fun hn => href (Or.inr hn))]
    exact hrun
  have hnew : accepted i st pData = ((pData.map (·.bytes)).toList).map (i, ·) := by
    cases pData with
    | none => rfl
    | some p => simp [accepted, hst]
  refine ⟨_, by rw [Link.send, hcall]; rfl, ?_⟩
  rw [hnew]
  refine slotInv_send h ?_ (hsame.buffSize.trans hsize) hd
  intro hne
  obtain ⟨hb, hid⟩ := hconn (hsame.busy hne)
  exact ⟨by rw [hsame.buffSize]; exact hb, by rw [hsame.connId]; exact hid⟩

theorem linkInv_grant (h : LinkInv s) (i : Fin nciMaxConnCbs) (credit : UInt8) :
    LinkInv (s.grant i credit) := by
  intro j
  have hs := h j
  by_cases hj : j = i
  · subst hj
    refine ⟨?_, ?_, ?_, ?_⟩ <;> simp only [Link.grant, ConnTable.set_same]
    · exact hs.conn
    · exact hs.queued
    · exact hs.accounts
    · exact hs.small
  · refine ⟨?_, ?_, ?_, ?_⟩ <;> simp only [Link.grant, ConnTable.set_other _ _ hj]
    · exact hs.conn
    · exact hs.queued
    · exact hs.accounts
    · exact hs.small

theorem linkInv_creditEntry {entry : UInt8 × UInt8} (h : LinkInv s)
    (hc : EntryClean getpoolbuf s entry) :
    ∃ t, s.creditEntry getpoolbuf entry = some t ∧ LinkInv t := by
  unfold Link.creditEntry
  split
  · exact ⟨s, rfl, h⟩
  · next i hi =>
    split
    · next hfc => exact linkInv_send (linkInv_grant h i entry.2) (by simp) (hc i hi hfc)
    · exact ⟨s, rfl, h⟩

theorem linkInv_step {e : LinkEvent} (h : LinkInv s) (hv : e.Valid s)
    (hc : e.Clean getpoolbuf s) : ∃ t, s.step getpoolbuf e = some t ∧ LinkInv t := by
  cases e with
  | submit i p =>
    refine linkInv_send h ?_ hc
    rintro q ⟨⟩
    exact hv
  | credits p => exact run_invariant (fun s e hs he => linkInv_creditEntry hs he) (creditsOf p) s h hc
  | setState nfcState flags =>
    exact ⟨_, rfl, fun i => ⟨(h i).conn, (h i).queued, (h i).accounts, (h i).small⟩⟩

/-- In every run whose drains are all clean, each connection's packets reassemble
to a prefix of its submitted messages and at most one begun one, and no payload
is longer than `buff_size`. -/
theorem fragmentation_faithful (getpoolbuf : Nat → Bool) (s : Link) (hs : s.Fresh)
    (es : List LinkEvent)
    (hes : StepsOk (Link.step getpoolbuf) (fun t e => e.Valid t ∧ e.Clean getpoolbuf t) s es) :
    ∃ t, run (Link.step getpoolbuf) s es = some t ∧ ∀ i,
      (∃ rest, t.submittedOn i = (assemble (t.framesOn i)).done ++ rest ∧
        ((∃ m tail, rest = m :: tail ∧ (assemble (t.framesOn i)).part <+: m) ∨
          (assemble (t.framesOn i)).part = [] ∧ ∀ f ∈ (t.framesOn i).getLast?, f.more = false)) ∧
      ∀ f ∈ t.framesOn i, f.payload.length ≤ (t.conns.connCb i).buffSize.toNat := by
  obtain ⟨t, ht, hinv⟩ := run_invariant (fun s e h he => linkInv_step h he.1 he.2) es s
    (linkInv_fresh hs) hes
  exact ⟨t, ht, fun i => ⟨(hinv i).accounts.done_prefix, (hinv i).small⟩⟩

end Runs

/-! ## A short message, then a long one -/

/-- Slot 0 open as connection 1 with 4-byte packets and no credits; the other
slots unused. -/
def shortThenLongStart : Link where
  conns :=
    { connCb := fun i =>
        if i = 0 then { id := 1, connId := 1, buffSize := 4, numBuff := 0 } else {}
      connId := fun i => if i = 1 then 1 else 0 }
  nfcState := .open
  flags := {}
  allocs := 0
  hal := []
  submitted := []

def txBuffer (payload : Bytes) : NfcHdr :=
  { len := payload.length, offset := 4, layerSpecific := 0, data := [0, 0, 0, 0] ++ payload }

/-- Two messages are queued while there are no credits, then three arrive. -/
def shortThenLong : List LinkEvent :=
  [.submit 0 (txBuffer [1, 2]), .submit 0 (txBuffer [3, 4, 5, 6, 7]), .credits [1, 1, 3]]

theorem fragmentation_unfaithful_short_then_long :
    StepsOk (Link.step fun _ => true) (fun s e => e.Valid s) shortThenLongStart shortThenLong ∧
    ∃ t, run (Link.step fun _ => true) shortThenLongStart shortThenLong = some t ∧
      t.submittedOn 0 = [[1, 2], [3, 4, 5, 6, 7]] ∧
      (assemble (t.framesOn 0)).done = [[1, 2], [3, 4, 5, 6], [7]] ∧
      ¬ ∃ rest, t.submittedOn 0 = (assemble (t.framesOn 0)).done ++ rest := by
  refine ⟨by decide +kernel, ?_⟩
  have hrun : (run (Link.step fun _ => true) shortThenLongStart shortThenLong).map
      (fun t => (t.submittedOn 0, (assemble (t.framesOn 0)).done)) =
      some ([[1, 2], [3, 4, 5, 6, 7]], [[1, 2], [3, 4, 5, 6], [7]]) := by
    decide +kernel
  obtain ⟨t, ht, hpair⟩ := Option.map_eq_some_iff.mp hrun
  obtain ⟨hsub, hdone⟩ := Prod.mk.inj hpair
  refine ⟨t, ht, hsub, hdone, ?_⟩
  rw [hsub, hdone]
  rintro ⟨rest, hrest⟩
  simp at hrest

/-- The same two messages, the long one first, go through unharmed. -/
theorem fragmentation_faithful_long_then_short :
    ∃ t, run (Link.step fun _ => true) shortThenLongStart
        [.submit 0 (txBuffer [3, 4, 5, 6, 7]), .submit 0 (txBuffer [1, 2]), .credits [1, 1, 3]] =
          some t ∧
      ∃ rest, t.submittedOn 0 = (assemble (t.framesOn 0)).done ++ rest := by
  obtain ⟨t, ht, hall⟩ := fragmentation_faithful (fun _ => true) shortThenLongStart
    ⟨by decide, rfl, rfl⟩
    [.submit 0 (txBuffer [3, 4, 5, 6, 7]), .submit 0 (txBuffer [1, 2]), .credits [1, 1, 3]]
    (by decide +kernel)
  obtain ⟨⟨rest, hrest, -⟩, -⟩ := hall 0
  exact ⟨t, ht, rest, hrest⟩

end NfcStack.Nfc
