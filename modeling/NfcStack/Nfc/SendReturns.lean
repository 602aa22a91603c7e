import NfcStack.Nfc.SendData
import NfcStack.Nfc.Conns

/- Whether `nfc_ncif_send_data` returns, for any payload size and any credits that the
   controller can have given. With a payload size of 0 and without flow control a message
   that is not empty is cut into fragments of no bytes, for as long as there are buffers.

   What is proved:
     1. `sendLoop_returns`: the loop returns if what each pass takes away comes to an end.
     2. `sendLoop_stuck`: it does not return in the one case that is left.
     3. `send_returns_iff`: both together. -/
namespace NfcStack.Nfc
open NfcStack.Lib

section Returns
variable {getpoolbuf : Nat → Bool} {bufferSize hdr0 : UInt8}

/-- A call of `nfc_ncif_send_data` returns: it is refused, or the loop ends after some passes. -/
def SendReturns (getpoolbuf : Nat → Bool) (nfcState : NfcState) (flags : NfcFlags) (allocs : Nat) (cb : ConnCb)
    (pData : Option NfcHdr) : Prop :=
  (cb.id = nfcRfConnId ∧ nfcState ≠ .open) ∨ flags.waitRfIntfExtRsp = true ∨
    ∃ fuel r, sendLoop getpoolbuf cb.buffSize cb.connId fuel ⟨enqueueTx cb pData, 1, allocs, []⟩ = some r

/-- A pass of the loop that does not end it. -/
inductive Pass (getpoolbuf : Nat → Bool) (bufferSize hdr0 : UInt8) (d : Drain) : Drain → Prop where
  | last {pData : NfcHdr} {rest : List NfcHdr} (hq : d.cb.txQ = pData :: rest) (hcredit : d.cb.numBuff ≠ 0)
      (hlen : pData.len ≤ bufferSize.toNat) : Pass getpoolbuf bufferSize hdr0 d (d.sendLast hdr0 pData rest)
  | fragment {pData : NfcHdr} {rest : List NfcHdr} (hq : d.cb.txQ = pData :: rest) (hcredit : d.cb.numBuff ≠ 0)
      (hlen : bufferSize.toNat < pData.len) (hbuf : getpoolbuf d.allocs = true) :
      Pass getpoolbuf bufferSize hdr0 d (d.sendFragment hdr0 bufferSize pData rest)

theorem sendLoop_cases (fuel : Nat) (d : Drain) :
    (∃ r, sendLoop getpoolbuf bufferSize hdr0 (fuel + 1) d = some r) ∨
      ∃ u, Pass getpoolbuf bufferSize hdr0 d u ∧
        sendLoop getpoolbuf bufferSize hdr0 (fuel + 1) d = sendLoop getpoolbuf bufferSize hdr0 fuel u := by
  rw [sendLoop]
  cases hq : d.cb.txQ with
  | nil => exact .inl ⟨_, rfl⟩
  | cons pData rest =>
    dsimp only
    by_cases hcredit : d.cb.numBuff = 0
    · rw [if_pos hcredit]
      exact .inl ⟨_, rfl⟩
    rw [if_neg hcredit]
    by_cases hlen : pData.len ≤ bufferSize.toNat
    · rw [if_pos hlen]
      exact .inr ⟨_, .last hq hcredit hlen, rfl⟩
    rw [if_neg hlen]
    by_cases hbuf : getpoolbuf d.allocs = true
    · rw [if_pos hbuf]
      exact .inr ⟨_, .fragment hq hcredit (Nat.lt_of_not_le hlen) hbuf, rfl⟩
    · rw [if_neg hbuf]
      exact .inl ⟨_, rfl⟩

theorem sendLoop_returns {Inv : Drain → Prop} {left : Drain → Nat}
    (hpass : ∀ d u, Inv d → Pass getpoolbuf bufferSize hdr0 d u → Inv u ∧ left u < left d) (fuel : Nat) :
    ∀ {d : Drain}, Inv d → left d < fuel → ∃ r, sendLoop getpoolbuf bufferSize hdr0 fuel d = some r := by
  induction fuel with
  | zero => exact fun _ h => absurd h (Nat.not_lt_zero _)
  | succ fuel ih =>
    intro d hd hfuel
    rcases @sendLoop_cases getpoolbuf bufferSize hdr0 fuel d with h | ⟨u, hu, heq⟩
    · exact h
    · obtain ⟨hinv, hless⟩ := hpass d u hd hu
      rw [heq]
      exact ih hinv (by omega)

/-! ## What a pass takes away -/

theorem work_cons {d : Drain} {pData : NfcHdr} {rest : List NfcHdr} (hq : d.cb.txQ = pData :: rest) :
    d.work = pData.len + 1 + (rest.map (·.len + 1)).sum := by
  unfold Drain.work
  rw [hq, List.map_cons, List.sum_cons]

theorem pass_work {d u : Drain} (hsize : bufferSize ≠ 0) (h : Pass getpoolbuf bufferSize hdr0 d u) :
    u.work < d.work := by
  have hpos : bufferSize.toNat ≠ 0 := fun hz => hsize (UInt8.toNat_inj.mp (by simpa using hz))
  cases h with
  | @last pData rest hq _ _ =>
    rw [work_cons hq]
    change (rest.map (·.len + 1)).sum < _
    omega
  | @fragment pData rest hq _ hlen _ =>
    have hu : (d.sendFragment hdr0 bufferSize pData rest).cb.txQ = dropFragment pData bufferSize :: rest := rfl
    rw [work_cons hq, work_cons hu]
    change pData.len - bufferSize.toNat + 1 + _ < _
    omega

theorem pass_credit {d u : Drain} (hfc : d.cb.numBuff ≠ nfcConnNoFc) (h : Pass getpoolbuf bufferSize hdr0 d u) :
    u.cb.numBuff ≠ nfcConnNoFc ∧ u.cb.numBuff.toNat < d.cb.numBuff.toNat := by
  have hspend : d.cb.numBuff ≠ 0 → spend d.cb.numBuff ≠ nfcConnNoFc ∧
      (spend d.cb.numBuff).toNat < d.cb.numBuff.toNat := by
    intro hcredit
    have hnat := toNat_spend hcredit hfc
    have hpos : d.cb.numBuff.toNat ≠ 0 := fun hz => hcredit (UInt8.toNat_inj.mp (by simpa using hz))
    have hlt := d.cb.numBuff.toNat_lt
    refine ⟨fun heq => ?_, by omega⟩
    rw [heq] at hnat
    change 255 = _ at hnat
    omega
  cases h with
  | last _ hcredit _ => exact hspend hcredit
  | fragment _ hcredit _ _ => exact hspend hcredit

theorem pass_buffer {d u : Drain} {n : Nat} (hn : getpoolbuf n = false) (hd : d.allocs ≤ n)
    (h : Pass getpoolbuf bufferSize hdr0 d u) :
    u.allocs ≤ n ∧ u.cb.txQ.length + (n - u.allocs) < d.cb.txQ.length + (n - d.allocs) := by
  cases h with
  | @last pData rest hq _ _ =>
    refine ⟨hd, ?_⟩
    change rest.length + (n - d.allocs) < _
    rw [hq, List.length_cons]
    omega
  | @fragment pData rest hq _ _ hbuf =>
    have hne : d.allocs ≠ n := by
      intro heq
      rw [heq, hn] at hbuf
      cases hbuf
    change d.allocs + 1 ≤ n ∧ (dropFragment pData bufferSize :: rest).length + (n - (d.allocs + 1)) < _
    rw [hq, List.length_cons, List.length_cons]
    omega

theorem pass_empty {d u : Drain} (hd : ∀ p ∈ d.cb.txQ, p.len = 0) (h : Pass getpoolbuf bufferSize hdr0 d u) :
    (∀ p ∈ u.cb.txQ, p.len = 0) ∧ u.cb.txQ.length < d.cb.txQ.length := by
  cases h with
  | @last pData rest hq _ _ =>
    rw [hq] at hd ⊢
    exact ⟨fun p hp => hd p (List.mem_cons_of_mem _ hp), Nat.lt_succ_self _⟩
  | @fragment pData rest hq _ hlen _ =>
    rw [hq] at hd
    have hzero := hd pData List.mem_cons_self
    omega

/-! ## Fragments of no bytes -/

theorem sendLoop_stuck (fuel : Nat) : ∀ {d : Drain}, d.cb.numBuff = nfcConnNoFc →
    (∃ p ∈ d.cb.txQ, p.len ≠ 0) → (∀ k, getpoolbuf (d.allocs + k) = true) →
    sendLoop getpoolbuf 0 hdr0 fuel d = none := by
  induction fuel with
  | zero => exact fun _ _ _ => rfl
  | succ fuel ih =>
    intro d hfc hp hbuf
    obtain ⟨p, hmem, hlen⟩ := hp
    have hcredit : d.cb.numBuff ≠ 0 := by
      rw [hfc]
      decide
    have hspend : spend d.cb.numBuff = nfcConnNoFc := by
      rw [hfc]
      rfl
    rw [sendLoop]
    cases hq : d.cb.txQ with
    | nil =>
      rw [hq] at hmem
      cases hmem
    | cons pData rest =>
      rw [hq] at hmem
      dsimp only
      rw [if_neg hcredit]
      by_cases hzero : pData.len ≤ (0 : UInt8).toNat
      · rw [if_pos hzero]
        refine ih hspend ⟨p, ?_, hlen⟩ hbuf
        rcases List.mem_cons.mp hmem with rfl | hrest
        · exact absurd (Nat.le_zero.mp hzero) hlen
        · exact hrest
      · rw [if_neg hzero, if_pos (show getpoolbuf d.allocs = true from hbuf 0)]
        refine ih hspend ⟨dropFragment pData 0, List.mem_cons_self, ?_⟩ fun k => ?_
        · change pData.len - 0 ≠ 0
          intro hz
          apply hzero
          rw [Nat.sub_zero] at hz
          rw [hz]
          exact Nat.zero_le _
        · change getpoolbuf (d.allocs + 1 + k) = true
          rw [Nat.add_assoc]
          exact hbuf (1 + k)

/-- **When the send loop ends.** A call returns except in one case: the payload size is 0, there is no flow
control, a message that is not empty waits, and the buffers never run out. -/
theorem send_returns_iff (nfcState : NfcState) (flags : NfcFlags) (allocs : Nat) (cb : ConnCb)
    (pData : Option NfcHdr) : SendReturns getpoolbuf nfcState flags allocs cb pData ↔
      (cb.id = nfcRfConnId ∧ nfcState ≠ .open) ∨ flags.waitRfIntfExtRsp = true ∨ cb.buffSize ≠ 0 ∨
        cb.numBuff ≠ nfcConnNoFc ∨ (∀ p ∈ (enqueueTx cb pData).txQ, p.len = 0) ∨
        ∃ k, getpoolbuf (allocs + k) = false := by
  have hnum : (enqueueTx cb pData).numBuff = cb.numBuff := by cases pData <;> rfl
  unfold SendReturns
  apply or_congr Iff.rfl
  apply or_congr Iff.rfl
  constructor
  · intro ⟨fuel, r, hr⟩
    by_contra hno
    push Not at hno
    obtain ⟨hsize, hfc, ⟨p, hp, hlen⟩, hbuf⟩ := hno
    rw [hsize, sendLoop_stuck fuel (hnum.trans hfc) ⟨p, hp, hlen⟩ (fun k => by simpa using hbuf k)] at hr
    cases hr
  · intro h
    rcases h with hsize | hfc | hempty | ⟨k, hk⟩
    · have hpass : ∀ d u, True → Pass getpoolbuf cb.buffSize cb.connId d u → True ∧ u.work < d.work :=
        fun d u _ hu => ⟨trivial, pass_work hsize hu⟩
      exact ⟨_, sendLoop_returns hpass _ trivial (Nat.lt_succ_self _)⟩
    · exact ⟨_, sendLoop_returns (fun d u hd hu => pass_credit hd hu) _ (hnum.trans_ne hfc) (Nat.lt_succ_self _)⟩
    · exact ⟨_, sendLoop_returns (fun d u hd hu => pass_empty hd hu) _ hempty (Nat.lt_succ_self _)⟩
    · exact ⟨_, sendLoop_returns (fun d u hd hu => pass_buffer hk hd hu) _ (Nat.le_add_right allocs k)
        (Nat.lt_succ_self _)⟩

end Returns

/-- A connection for which the response says a payload size of 0 and no flow control. -/
def zeroSize : Option Conns :=
  run Conns.step (Conns.enabled none 2) [.create nciDestTypeNfcc 0 0 none true, .createRsp nciStatusOk 0 nfcConnNoFc 1]

def zeroConn : ConnCb where
  connId := 1
  numBuff := nfcConnNoFc
  initCredits := nfcConnNoFc
  id := nfcTestId

/-- A message of one byte is sent on it. -/
theorem empty_fragments_forever :
    ∃ s, zeroSize = some s ∧ nfcFindConnCbByConnId s.table 1 = some 1 ∧
      ¬SendReturns (fun _ => true) .open {} 0 (s.table.connCb 1) (some (txBuffer [7])) := by
  refine ⟨_, rfl, by decide, ?_⟩
  intro h
  rcases h with hid | hflag | ⟨fuel, r, hr⟩
  · exact absurd hid.1 (by decide)
  · exact absurd hflag (by decide)
  · have hmem : ∃ p ∈ (enqueueTx zeroConn (some (txBuffer [7]))).txQ, p.len ≠ 0 :=
      ⟨txBuffer [7], List.mem_singleton.mpr rfl, by decide⟩
    have hstuck := @sendLoop_stuck (fun _ => true) 1 fuel ⟨enqueueTx zeroConn (some (txBuffer [7])), 1, 0, []⟩
      rfl hmem (fun _ => rfl)
    exact absurd (hstuck.symm.trans hr) nofun

end NfcStack.Nfc
