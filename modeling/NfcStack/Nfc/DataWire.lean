import NfcStack.Nfc.SendData
import NfcStack.Nfc.RecvData

/- The data path between two stacks: `nfc_ncif_send_data` on one side of a link,
   `nfc_ncif_proc_data` on the other. The packets written to the HAL are taken in their
   order, at any time later, each in a buffer of the receiver.

   What is proved:
     1. `wireInv_step`: what the receiver has taken is what the sender has written, up to
        the packets still on their way (`WireInv`), and both ends stay in step.
     2. `wire_lossless`: so in every interleaving, each connection reports the messages that
        were submitted on it, in their order, and all of them when nothing is on its way. -/
namespace NfcStack.Nfc
open NfcStack.Lib

/-! ## The system -/

structure Wire where
  tx : Link
  rx : RecvLink
  taken : Nat

inductive WireEvent where
  | send (e : LinkEvent)
  | deliver (pMsg : NfcHdr)

/-- What one end has to know of the memory: its allocations, and on the receiving side the
version and the size of the biggest buffers. -/
structure WireEnv where
  getpoolbuf : Nat → Bool
  nciVersion : UInt8
  maxBufSize : UInt16
  getrxbuf : Nat → Bool

namespace Wire
variable (env : WireEnv)

def step (w : Wire) : WireEvent → Option Wire
  | .send e => (w.tx.step env.getpoolbuf e).map fun tx => { w with tx := tx }
  | .deliver pMsg => (nfcNcifProcData env.nciVersion env.maxBufSize env.getrxbuf w.rx pMsg).map fun rx =>
      { w with rx := rx, taken := w.taken + 1 }

/-- The buffer holds the next packet, which names the connection in the same slot. -/
def Carries (w : Wire) (pMsg : NfcHdr) : Prop :=
  nciDataHdrSize ≤ pMsg.len ∧ ∃ x ∈ w.tx.hal[w.taken]?, pMsg.bytes = x.2 ∧
    nfcFindConnCbByConnId w.rx.conns (packetCid pMsg) = some x.1

/-- Every drain of the sender is clean, and the receiver meets no buffer that is too small. -/
def Clean (w : Wire) : WireEvent → Prop
  | .send e => e.Valid w.tx ∧ e.Clean env.getpoolbuf w.tx
  | .deliver pMsg => w.Carries pMsg ∧ PacketValid w.rx pMsg ∧
      PacketClean env.nciVersion env.maxBufSize env.getrxbuf w.rx pMsg

def Fresh (w : Wire) : Prop := w.tx.Fresh ∧ w.rx.Fresh ∧ w.taken = 0

instance (w : Wire) (pMsg : NfcHdr) : Decidable (w.Carries pMsg) :=
  inferInstanceAs (Decidable (_ ∧ ∃ x ∈ w.tx.hal[w.taken]?, _))

instance (w : Wire) : (e : WireEvent) → Decidable (w.Clean env e)
  | .send _ => inferInstanceAs (Decidable (_ ∧ _))
  | .deliver _ => inferInstanceAs (Decidable (_ ∧ _ ∧ _))

/-- Both ends are in step, and the receiver has taken the first packets that were written. -/
structure WireInv (w : Wire) : Prop where
  tx : LinkInv w.tx
  rx : RecvInv env.nciVersion w.rx
  inside : w.taken ≤ w.tx.hal.length
  received : w.rx.received = (w.tx.hal.take w.taken).map fun x => (x.1, frameOf x.2)

end Wire

/-! ## One step -/

theorem Link.send_hal {getpoolbuf : Nat → Bool} {s t : Link} {i : Fin nciMaxConnCbs} {pData : Option NfcHdr}
    (h : s.send getpoolbuf i pData = some t) : s.hal <+: t.hal := by
  obtain ⟨r, -, ht⟩ := Option.bind_eq_some_iff.mp h
  obtain rfl := Option.some.inj ht
  exact List.prefix_append _ _

variable {getpoolbuf : Nat → Bool}

theorem Link.creditEntry_hal {s t : Link} {entry : UInt8 × UInt8}
    (h : s.creditEntry getpoolbuf entry = some t) : s.hal <+: t.hal := by
  unfold Link.creditEntry at h
  split at h
  · obtain rfl := Option.some.inj h
    exact List.prefix_rfl
  · split at h
    · exact @Link.send_hal getpoolbuf (s.grant _ entry.2) t _ none h
    · obtain rfl := Option.some.inj h
      exact List.prefix_rfl

theorem Link.step_hal {s t : Link} {e : LinkEvent} (h : s.step getpoolbuf e = some t) :
    s.hal <+: t.hal := by
  cases e with
  | submit i p => exact Link.send_hal h
  | credits p =>
    have hstep : ∀ u entry v, s.hal <+: u.hal → True → Link.creditEntry getpoolbuf u entry = some v → s.hal <+: v.hal :=
      fun u entry v hu _ hv => hu.trans (Link.creditEntry_hal hv)
    exact run_keeps_of_step hstep (creditsOf p) List.prefix_rfl (stepsOk_true _ _ _) h
  | setState nfcState flags =>
    obtain rfl := Option.some.inj h
    exact List.prefix_rfl

theorem frameOf_bytes (pMsg : NfcHdr) :
    frameOf pMsg.bytes = ⟨packetPbf pMsg, pMsg.bytes.drop nciMsgHdrSize⟩ := by
  have hall : ∀ n < 256, decide ((UInt8.ofNat n &&& 0x10) >>> 4 ≠ 0) = decide ((UInt8.ofNat n >>> 4) &&& 1 = 1) := by
    decide +kernel
  have hbit := hall (pMsg.bytes.headD 0).toNat (pMsg.bytes.headD 0).toNat_lt
  rw [UInt8.ofNat_toNat] at hbit
  unfold frameOf packetPbf
  rw [hbit]
  rfl

theorem nfcNcifProcData_received {nciVersion : UInt8} {maxBufSize : UInt16} {s t : RecvLink}
    {pMsg : NfcHdr} {i : Fin nciMaxConnCbs} (hlen : nciDataHdrSize ≤ pMsg.len)
    (hi : nfcFindConnCbByConnId s.conns (packetCid pMsg) = some i)
    (h : nfcNcifProcData nciVersion maxBufSize getpoolbuf s pMsg = some t) :
    t.received = s.received ++ [(i, frameOf pMsg.bytes)] := by
  unfold nfcNcifProcData at h
  rw [hi] at h
  dsimp only at h
  rw [if_pos hlen] at h
  obtain ⟨r, -, rfl⟩ := Option.map_eq_some_iff.mp h
  rw [frameOf_bytes]

namespace Wire
variable {env : WireEnv} {w : Wire}

theorem wireInv_step {e : WireEvent} (h : WireInv env w) (he : w.Clean env e) :
    ∃ t, w.step env e = some t ∧ WireInv env t := by
  cases e with
  | send e =>
    obtain ⟨tx, htx, hinv⟩ := linkInv_step h.tx he.1 he.2
    obtain ⟨more, hmore⟩ := Link.step_hal htx
    refine ⟨{ w with tx := tx }, by rw [step, htx]; rfl, hinv, h.rx, ?_, ?_⟩
    · show w.taken ≤ tx.hal.length
      rw [← hmore, List.length_append]
      exact Nat.le_add_right_of_le h.inside
    · show w.rx.received = (tx.hal.take w.taken).map _
      rw [h.received, ← hmore, List.take_append_of_le_length h.inside]
  | deliver pMsg =>
    obtain ⟨⟨hlen, ⟨i, b⟩, hnext, hbytes, hi⟩, hvalid, hclean⟩ := he
    obtain ⟨rx, hrx, hinv⟩ := recvInv_packet h.rx hvalid hclean
    refine ⟨{ w with rx := rx, taken := w.taken + 1 }, by rw [step, hrx]; rfl, h.tx, hinv, ?_, ?_⟩
    · exact (List.getElem?_eq_some_iff.mp hnext).1
    · show rx.received = (w.tx.hal.take (w.taken + 1)).map _
      rw [nfcNcifProcData_received hlen hi hrx, h.received, List.take_add_one, Option.mem_def.mp hnext, hbytes]
      simp

end Wire

/-! ## Runs -/

namespace Wire
variable {env : WireEnv} {w : Wire}

theorem WireInv.framesOn (h : WireInv env w) (i : Fin nciMaxConnCbs) :
    ∃ more, w.tx.framesOn i = w.rx.framesOn i ++ more ∧ (w.taken = w.tx.hal.length → more = []) := by
  have hrx : w.rx.framesOn i = ((w.tx.hal.take w.taken).filter (·.1 = i)).map fun x => frameOf x.2 := by
    rw [RecvLink.framesOn, h.received, List.filter_map, List.map_map]
    rfl
  refine ⟨((w.tx.hal.drop w.taken).filter (·.1 = i)).map fun x => frameOf x.2, ?_, fun hall => ?_⟩
  · rw [hrx, ← List.map_append, ← List.filter_append, List.take_append_drop]
    rfl
  · rw [hall, List.drop_length]
    rfl

end Wire

/-- In every interleaving of submissions, credits and packets taken, each connection with a
callback reports messages that were submitted on it, in their order and up to the status
byte; and all of them once nothing is queued and every packet is taken. -/
theorem wire_lossless (env : WireEnv) (w : Wire) (hw : w.Fresh) (es : List WireEvent)
    (hes : StepsOk (Wire.step env) (Wire.Clean env) w es) :
    ∃ t, run (Wire.step env) w es = some t ∧ ∀ i, (t.rx.conns.connCb i).pCback.isSome →
      (assemble ((t.rx.eventsOn i).map evtFrame)).done <+:
        (t.tx.submittedOn i).map (trim env.nciVersion (t.rx.conns.connCb i)) ∧
      (t.taken = t.tx.hal.length → (t.tx.conns.connCb i).txQ = [] →
        (assemble ((t.rx.eventsOn i).map evtFrame)).done =
          (t.tx.submittedOn i).map (trim env.nciVersion (t.rx.conns.connCb i)) ∧
        (t.rx.conns.connCb i).rxQ = []) := by
  obtain ⟨htx, hrx, htaken⟩ := hw
  have hstart : Wire.WireInv env w := by
    refine ⟨linkInv_fresh htx, recvInv_fresh hrx, ?_, ?_⟩
    · rw [htaken]
      exact Nat.zero_le _
    · rw [hrx.2.2, htx.2.1, List.take_nil, List.map_nil]
  obtain ⟨t, ht, hinv⟩ := run_invariant (fun w e h he => Wire.wireInv_step h he) es w hstart hes
  refine ⟨t, ht, fun i hi => ?_⟩
  have hsound := hinv.rx i hi
  have hsent := (hinv.tx i).accounts
  obtain ⟨more, hframes, hlast⟩ := hinv.framesOn i
  rw [hsound.relays.done]
  constructor
  · refine List.IsPrefix.map _ ((assemble_done_append _ more).trans ?_)
    rw [← hframes, hsent.eq]
    exact List.prefix_append _ _
  · intro hall hempty
    rw [hlast hall, List.append_nil] at hframes
    rw [hempty, hframes] at hsent
    obtain ⟨-, hend⟩ := hsent.idle rfl
    have hsub := hsent.eq
    rw [List.map_nil, withPart, List.append_nil] at hsub
    refine ⟨by rw [hsub], ?_⟩
    obtain ⟨hq, -⟩ | ⟨p, -, -, -, -, f, hf, hmore⟩ := hsound.queue
    · exact hq
    · rw [hend f hf] at hmore
      cases hmore

/-- A sender with four-byte packets and three credits on connection 0, and the receiver of
an ISO-DEP connection. -/
def shortWire : Wire where
  tx :=
    { shortThenLongStart with
      conns := shortThenLongStart.conns.set 0 { id := 1, connId := 0, buffSize := 4, numBuff := 3 } }
  rx := rfLink 0x04
  taken := 0

def shortEnv : WireEnv := ⟨fun _ => true, 0x20, 20, fun _ => true⟩

/-- A message in two packets, which are taken one after the other. -/
def twoPackets : List WireEvent :=
  [.send (.submit 0 (txBuffer [3, 4, 5, 6, 7])), .deliver (rxPacket 1 [3, 4, 5, 6]), .deliver (rxPacket 0 [7])]

theorem wire_lossless_two_packets :
    ∃ t, run (Wire.step shortEnv) shortWire twoPackets = some t ∧
      (assemble ((t.rx.eventsOn 0).map evtFrame)).done <+:
        (t.tx.submittedOn 0).map (trim 0x20 (t.rx.conns.connCb 0)) := by
  obtain ⟨t, ht, hall⟩ := wire_lossless shortEnv shortWire
    ⟨⟨by decide, rfl, rfl⟩, ⟨by decide, rfl, rfl⟩, rfl⟩ twoPackets (by decide +kernel)
  have hcb : (run (Wire.step shortEnv) shortWire twoPackets).map
      (fun t => (t.rx.conns.connCb 0).pCback.isSome) = some true := by
    decide +kernel
  rw [ht] at hcb
  exact ⟨t, ht, (hall 0 (by simpa using hcb)).1⟩

end NfcStack.Nfc
