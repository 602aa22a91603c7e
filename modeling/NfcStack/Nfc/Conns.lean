import NfcStack.Lib.Run
import NfcStack.Lib.Slots
import NfcStack.Nfc.ControlBlock

/- Logical connections (`nfc_utils.cc`, `NFC_ConnCreate` and `NFC_ConnClose` in
   `nfc_main.cc`, the two responses in `nfc_ncif.cc`). The table of control
   blocks and the reverse index `conn_id[]` are two tables; a block that waits
   for its response holds the placeholder id `NFC_PEND_CONN_ID`.

   What is proved:
     1. `indexed_run`, `reachable_run`: what the two tables promise each other.
     2. `find_exact_iff`: the lookup of an id finds exactly the open connection as long
        as it is not id 15 (the handler accepts it, the lookup does not) and has no
        bits but the four of an id; `ownHandles_step`: handles stay apart as long as
        no block that has one is freed.
     3. `create_rsp_reaches`: a response to CORE_CONN_CREATE reaches the block of
        its request, if no request was given a block below a pending one.
     4. `create_rsp_misses`: otherwise it does not. The handler takes the first
        pending block, whichever request that block belongs to.

   `commands` are the commands not yet answered, oldest first, each create with
   the block it was made for; `reports` what the callbacks of creates were told. -/
namespace NfcStack.Nfc
open NfcStack.Lib

/-! ## The code -/

abbrev ConnIx := Fin nciMaxConnCbs

def nfcIllegalConnId : UInt8 := 0xFF
def nfcHciConnId : UInt8 := 1
def nfcTestId : UInt8 := 0xFE
def nciDestTypeNfcc : UInt8 := 1
def nciDestTypeNfcee : UInt8 := 3
def nciStatusOk : UInt8 := 0x00
def nciStatusFailed : UInt8 := 0x03

def ConnTable.setIndex (t : ConnTable) (connId : Fin (nfcMaxConnId + 1)) (handle : UInt8) :
    ConnTable :=
  { t with connId := Function.update t.connId connId handle }

/-- `nfc_alloc_conn_cb`; `maxConn` is `nfc_cb.max_conn`. -/
def nfcAllocConnCb (t : ConnTable) (maxConn : Nat) (pCback : Option Nat) :
    Option (ConnIx × ConnTable) :=
  (firstSlot fun j : ConnIx =>
    decide (j.val < maxConn) && (t.connCb j).connId == nfcIllegalConnId).map fun j =>
      (j, t.set j { t.connCb j with connId := nfcPendConnId, pCback := pCback })

/-- `nfc_set_conn_id`, for an id inside `conn_id[]`. -/
def nfcSetConnId (t : ConnTable) (j : ConnIx) (connId : Fin (nfcMaxConnId + 1)) : ConnTable :=
  (t.set j { t.connCb j with connId := UInt8.ofNat connId.val }).setIndex connId
    (UInt8.ofNat (j.val + 1))

def nfcFindConnCbByHandle (t : ConnTable) (id : UInt8) : Option ConnIx :=
  firstSlot fun j => (t.connCb j).id == id

/-- What `nfc_free_conn_cb` leaves of a block. The fields `id` and `act_protocol` stay. -/
def ConnCb.freed (cb : ConnCb) : ConnCb :=
  { cb with rxQ := [], txQ := [], pCback := none, connId := nfcIllegalConnId }

def nfcFreeConnCb (t : ConnTable) (j : ConnIx) : ConnTable :=
  let connId := (t.connCb j).connId
  let t' := t.set j (t.connCb j).freed
  if h : connId.toNat < nfcMaxConnId + 1 then t'.setIndex ⟨connId.toNat, h⟩ 0 else t'

def nfcResetAllConnCbs (t : ConnTable) : ConnTable :=
  (List.finRange nciMaxConnCbs).foldl
    (fun t j => if (t.connCb j).connId ≠ nfcIllegalConnId then nfcFreeConnCb t j else t) t

inductive ConnCmd where
  | create (block : ConnIx) (destType : UInt8)
  | close (connId : UInt8)
  deriving DecidableEq, Repr

structure CreateReport where
  pCback : Nat
  connId : UInt8
  status : UInt8
  destType : UInt8
  id : UInt8
  buffSize : UInt8
  numBuffs : UInt8
  deriving DecidableEq, Repr

structure Conns where
  table : ConnTable
  maxConn : Nat
  commands : List ConnCmd
  reports : List CreateReport

/-- `NFC_ConnCreate`; `buf` is whether there is a buffer for the command. -/
def nfcConnCreate (s : Conns) (destType id protocol : UInt8) (pCback : Option Nat) (buf : Bool) :
    Conns :=
  match nfcAllocConnCb s.table s.maxConn pCback with
  | none => s
  | some (j, t) =>
    let t := t.set j { t.connCb j with
      id := if destType = nciDestTypeNfcc then nfcTestId else id
      actProtocol := protocol }
    if buf then { s with table := t, commands := s.commands ++ [.create j destType] }
    else { s with table := nfcFreeConnCb t j }

def nfcConnClose (s : Conns) (connId : UInt8) (buf : Bool) : Conns :=
  if (nfcFindConnCbByConnId s.table connId).isSome ∧ buf then
    { s with commands := s.commands ++ [.close connId] }
  else s

def nfcNcifProcConnCreateRsp (s : Conns) (destType status buffSize numBuff connId : UInt8) :
    Conns :=
  match nfcFindConnCbByConnId s.table nfcPendConnId with
  | none => s
  | some j =>
    let cb := { s.table.connCb j with
      buffSize := buffSize, numBuff := numBuff, initCredits := numBuff }
    let t := s.table.set j cb
    let report (status connId : UInt8) : List CreateReport :=
      cb.pCback.toList.map fun f => ⟨f, connId, status, destType, cb.id, buffSize, numBuff⟩
    if h : connId.toNat < nfcMaxConnId + 1 then
      { s with
        table := if status = nciStatusOk then nfcSetConnId t j ⟨connId.toNat, h⟩
          else nfcFreeConnCb t j
        reports := s.reports ++ report status connId }
    else
      { s with
        table := nfcFreeConnCb t j
        reports := s.reports ++ report nciStatusFailed nfcIllegalConnId }

def nfcNcifReportConnCloseEvt (s : Conns) (connId : UInt8) : Conns :=
  match nfcFindConnCbByConnId s.table connId with
  | none => s
  | some j => { s with table := nfcFreeConnCb s.table j }

/-- The queues of the RF connection that `nfc_ncif_proc_deactivate` empties. -/
def nfcNcifProcDeactivate (s : Conns) : Conns :=
  { s with table := s.table.set 0 { s.table.connCb 0 with rxQ := [], txQ := [] } }

/-- Calls of upper layers, responses to the oldest command, and deactivations. -/
inductive ConnsEvent where
  | create (destType id protocol : UInt8) (pCback : Option Nat) (buf : Bool)
  | close (connId : UInt8) (buf : Bool)
  | createRsp (status buffSize numBuff connId : UInt8)
  | closeRsp
  | deactivate
  | resetAll
  deriving DecidableEq, Repr

/-- A response to another command than the oldest one is dropped. -/
def Conns.step (s : Conns) : ConnsEvent → Option Conns
  | .create destType id protocol pCback buf =>
    some (nfcConnCreate s destType id protocol pCback buf)
  | .close connId buf => some (nfcConnClose s connId buf)
  | .createRsp status buffSize numBuff connId =>
    match s.commands with
    | .create _ destType :: rest =>
      some (nfcNcifProcConnCreateRsp { s with commands := rest } destType status buffSize numBuff
        connId)
    | _ => some s
  | .closeRsp =>
    match s.commands with
    | .close connId :: rest => some (nfcNcifReportConnCloseEvt { s with commands := rest } connId)
    | _ => some s
  | .deactivate => some (nfcNcifProcDeactivate s)
  | .resetAll => some { s with table := nfcResetAllConnCbs s.table }

def ConnTable.empty : ConnTable := ⟨fun _ => {}, fun _ => 0⟩

/-- After `nfc_enabled`: the RF connection, and the HCI connection of an NCI 2.0
controller with an HCI network. -/
def Conns.enabled (hci : Option (UInt8 × UInt8)) (maxConn : Nat) : Conns where
  table :=
    let rf := nfcSetConnId ConnTable.empty 0 0
    match hci with
    | none => rf
    | some (buffSize, credits) =>
      let t := nfcSetConnId rf 1 1
      t.set 1 { t.connCb 1 with
        id := nfcHciConnId, buffSize := buffSize, numBuff := credits, initCredits := credits }
  maxConn := maxConn
  commands := []
  reports := []

/-! ## The two tables -/

/-- The index names the block `j` for the id `c`. -/
def Names (t : ConnTable) (c : Fin (nfcMaxConnId + 1)) (j : ConnIx) : Prop :=
  t.connId c = UInt8.ofNat (j.val + 1)

/-- A block the index names has that id, and the ids a block can have. -/
structure Indexed (t : ConnTable) : Prop where
  range : ∀ c, t.connId c = 0 ∨ ∃ j, Names t c j
  named : ∀ c j, Names t c j → (t.connCb j).connId = UInt8.ofNat c.val
  ids : ∀ j, (t.connCb j).connId.toNat < nfcMaxConnId + 1 ∨
    (t.connCb j).connId = nfcPendConnId ∨ (t.connCb j).connId = nfcIllegalConnId

/-- The index also names the block of every open connection. -/
def Reachable (t : ConnTable) : Prop :=
  ∀ c j, (t.connCb j).connId = UInt8.ofNat c.val → Names t c j

theorem handle_inj {j k : ConnIx} (h : UInt8.ofNat (j.val + 1) = UInt8.ofNat (k.val + 1)) :
    j = k := by
  revert j k
  decide

theorem handle_ne_zero (j : ConnIx) : UInt8.ofNat (j.val + 1) ≠ 0 := by
  revert j
  decide

theorem connId_inj {c d : Fin (nfcMaxConnId + 1)} (h : UInt8.ofNat c.val = UInt8.ofNat d.val) :
    c = d := by
  revert c d
  decide

theorem connId_plain (c : Fin (nfcMaxConnId + 1)) :
    UInt8.ofNat c.val ≠ nfcPendConnId ∧ UInt8.ofNat c.val ≠ nfcIllegalConnId := by
  revert c
  decide

theorem connId_lt (c : Fin (nfcMaxConnId + 1)) : (UInt8.ofNat c.val).toNat < nfcMaxConnId + 1 := by
  revert c
  decide

theorem Names.unique {t : ConnTable} {c : Fin (nfcMaxConnId + 1)} {j k : ConnIx} (hj : Names t c j)
    (hk : Names t c k) : j = k :=
  handle_inj (hj.symm.trans hk)

section Tables
variable {t : ConnTable}

theorem Indexed.set (h : Indexed t) (j : ConnIx) {cb : ConnCb}
    (hid : cb.connId = (t.connCb j).connId) : Indexed (t.set j cb) := by
  have hids : ∀ k, ((t.set j cb).connCb k).connId = (t.connCb k).connId := by
    intro k
    by_cases hk : k = j
    · rw [hk, ConnTable.set_same, hid]
    · rw [ConnTable.set_other _ _ hk]
  refine ⟨h.range, ?_, ?_⟩
  · intro c k hk
    rw [hids]
    exact h.named c k hk
  · intro k
    rw [hids]
    exact h.ids k

theorem Reachable.set (h : Reachable t) (j : ConnIx) {cb : ConnCb}
    (hid : cb.connId = (t.connCb j).connId) : Reachable (t.set j cb) := by
  intro c k hk
  by_cases heq : k = j
  · rw [heq, ConnTable.set_same, hid] at hk
    rw [heq]
    exact h c j hk
  · rw [ConnTable.set_other _ _ heq] at hk
    exact h c k hk

variable {j : ConnIx}

theorem Indexed.pend (h : Indexed t) {cb : ConnCb}
    (hfree : (t.connCb j).connId = nfcIllegalConnId) (hcb : cb.connId = nfcPendConnId) :
    Indexed (t.set j cb) := by
  refine ⟨h.range, ?_, ?_⟩
  · intro c k hk
    by_cases heq : k = j
    · rw [heq] at hk
      exact absurd (hfree.symm.trans (h.named c j hk)).symm (connId_plain c).2
    · rw [ConnTable.set_other _ _ heq]
      exact h.named c k hk
  · intro k
    by_cases heq : k = j
    · rw [heq, ConnTable.set_same, hcb]
      exact .inr (.inl rfl)
    · rw [ConnTable.set_other _ _ heq]
      exact h.ids k

theorem Reachable.pend (h : Reachable t) {cb : ConnCb}
    (hcb : cb.connId = nfcPendConnId) : Reachable (t.set j cb) := by
  intro c k hk
  by_cases heq : k = j
  · rw [heq, ConnTable.set_same, hcb] at hk
    exact absurd hk.symm (connId_plain c).1
  · rw [ConnTable.set_other _ _ heq] at hk
    exact h c k hk

theorem names_setIndex {c d : Fin (nfcMaxConnId + 1)} {handle : UInt8} :
    Names (t.setIndex d handle) c j ↔
      (c = d ∧ handle = UInt8.ofNat (j.val + 1)) ∨ (c ≠ d ∧ Names t c j) := by
  unfold Names ConnTable.setIndex
  by_cases h : c = d
  · subst h
    simp
  · simp [h]

@[simp] theorem setIndex_connCb (t : ConnTable) (c : Fin (nfcMaxConnId + 1)) (handle : UInt8) :
    (t.setIndex c handle).connCb = t.connCb := rfl

theorem setConnId_indexed (h : Indexed t) (c : Fin (nfcMaxConnId + 1))
    (hclosed : ∀ d : Fin (nfcMaxConnId + 1), (t.connCb j).connId ≠ UInt8.ofNat d.val) :
    Indexed (nfcSetConnId t j c) := by
  unfold nfcSetConnId
  refine ⟨?_, ?_, ?_⟩
  · intro d
    by_cases hd : d = c
    · exact .inr ⟨j, names_setIndex.mpr (.inl ⟨hd, rfl⟩)⟩
    · rcases h.range d with h0 | ⟨k, hk⟩
      · exact .inl (by simpa [ConnTable.setIndex, ConnTable.set, hd] using h0)
      · exact .inr ⟨k, names_setIndex.mpr (.inr ⟨hd, hk⟩)⟩
  · intro d k hk
    rw [setIndex_connCb]
    rcases names_setIndex.mp hk with ⟨rfl, hhandle⟩ | ⟨hd, hk⟩
    · rw [← handle_inj hhandle, ConnTable.set_same]
    · have hid := h.named d k hk
      have hkj : k ≠ j := by
        rintro rfl
        exact hclosed d hid
      rw [ConnTable.set_other _ _ hkj]
      exact hid
  · intro k
    rw [setIndex_connCb]
    by_cases heq : k = j
    · rw [heq, ConnTable.set_same]
      exact .inl (connId_lt c)
    · rw [ConnTable.set_other _ _ heq]
      exact h.ids k

theorem setConnId_reachable (h : Reachable t) (c : Fin (nfcMaxConnId + 1))
    (hnew : ∀ k, (t.connCb k).connId ≠ UInt8.ofNat c.val) : Reachable (nfcSetConnId t j c) := by
  intro d k hk
  unfold nfcSetConnId at hk ⊢
  rw [setIndex_connCb] at hk
  rw [names_setIndex]
  by_cases heq : k = j
  · rw [heq, ConnTable.set_same] at hk
    exact .inl ⟨(connId_inj hk).symm, by rw [heq]⟩
  · rw [ConnTable.set_other _ _ heq] at hk
    refine .inr ⟨?_, h d k hk⟩
    rintro rfl
    exact hnew k hk

theorem freeConnCb_same (t : ConnTable) (j : ConnIx) :
    (nfcFreeConnCb t j).connCb j = (t.connCb j).freed := by
  unfold nfcFreeConnCb
  dsimp only
  split <;> simp

theorem freeConnCb_other (t : ConnTable) {j k : ConnIx} (h : k ≠ j) :
    (nfcFreeConnCb t j).connCb k = t.connCb k := by
  unfold nfcFreeConnCb
  dsimp only
  split
  · rw [setIndex_connCb, ConnTable.set_other _ _ h]
  · rw [ConnTable.set_other _ _ h]

theorem freeConnCb_index (t : ConnTable) (j : ConnIx) (c : Fin (nfcMaxConnId + 1)) :
    (nfcFreeConnCb t j).connId c =
      if UInt8.ofNat c.val = (t.connCb j).connId then 0 else t.connId c := by
  have hval : UInt8.ofNat (t.connCb j).connId.toNat = (t.connCb j).connId := UInt8.ofNat_toNat
  unfold nfcFreeConnCb
  dsimp only
  split
  · rename_i hlt
    by_cases hc : c = ⟨(t.connCb j).connId.toNat, hlt⟩
    · subst hc
      simp [ConnTable.setIndex]
    · have hne : UInt8.ofNat c.val ≠ (t.connCb j).connId := by
        rw [← hval]
        intro heq
        exact hc (connId_inj (d := ⟨(t.connCb j).connId.toNat, hlt⟩) heq)
      rw [if_neg hne]
      simp [ConnTable.setIndex, ConnTable.set, hc]
  · rename_i hge
    have hne : UInt8.ofNat c.val ≠ (t.connCb j).connId := by
      intro heq
      rw [← heq] at hge
      exact hge (connId_lt c)
    rw [if_neg hne]
    rfl

theorem freeConnCb_names (t : ConnTable) (j : ConnIx) {c : Fin (nfcMaxConnId + 1)} {k : ConnIx} :
    Names (nfcFreeConnCb t j) c k ↔ UInt8.ofNat c.val ≠ (t.connCb j).connId ∧ Names t c k := by
  unfold Names
  rw [freeConnCb_index]
  by_cases h : UInt8.ofNat c.val = (t.connCb j).connId
  · simp only [h, if_true, ne_eq, not_true_eq_false, false_and, iff_false]
    exact (handle_ne_zero k).symm
  · simp [h]

theorem freeConnCb_indexed (h : Indexed t) (j : ConnIx) : Indexed (nfcFreeConnCb t j) := by
  refine ⟨?_, ?_, ?_⟩
  · intro c
    rw [freeConnCb_index]
    split
    · exact .inl rfl
    · rename_i hne
      refine (h.range c).imp_right ?_
      rintro ⟨k, hk⟩
      exact ⟨k, (freeConnCb_names t j).mpr ⟨hne, hk⟩⟩
  · intro c k hk
    obtain ⟨hne, hold⟩ := (freeConnCb_names t j).mp hk
    have hid := h.named c k hold
    have hkj : k ≠ j := by
      rintro rfl
      exact hne hid.symm
    rw [freeConnCb_other t hkj]
    exact hid
  · intro k
    by_cases hk : k = j
    · rw [hk, freeConnCb_same]
      exact .inr (.inr rfl)
    · rw [freeConnCb_other t hk]
      exact h.ids k

theorem freeConnCb_reachable (h : Reachable t) (j : ConnIx) : Reachable (nfcFreeConnCb t j) := by
  intro c k hk
  by_cases hkj : k = j
  · rw [hkj, freeConnCb_same] at hk
    exact absurd hk.symm (connId_plain c).2
  · rw [freeConnCb_other t hkj] at hk
    have hold := h c k hk
    refine (freeConnCb_names t j).mpr ⟨?_, hold⟩
    intro heq
    exact hkj (hold.unique (h c j heq.symm))

theorem resetAll_keeps {I : ConnTable → Prop} (hI : ∀ t j, I t → I (nfcFreeConnCb t j)) (h : I t) :
    I (nfcResetAllConnCbs t) := by
  unfold nfcResetAllConnCbs
  apply List.foldlRecOn (motive := I) _ _ h
  intro t ht j _
  split
  · exact hI t j ht
  · exact ht

end Tables

/-! ## What a step does to the tables -/

/-- The controller does not give an id to a connection while it is open. -/
def NoReassign (s : Conns) : ConnsEvent → Prop
  | .createRsp status _ _ connId =>
    status = nciStatusOk → connId.toNat < nfcMaxConnId + 1 →
      ∀ k, (s.table.connCb k).connId ≠ connId
  | _ => True

instance (s : Conns) (e : ConnsEvent) : Decidable (NoReassign s e) := by
  unfold NoReassign
  split <;> infer_instance

section Steps
variable {s s' : Conns}

theorem find_pend {t : ConnTable} :
    nfcFindConnCbByConnId t nfcPendConnId =
      firstSlot fun j : ConnIx => decide ((t.connCb j).connId = nfcPendConnId) := by
  unfold nfcFindConnCbByConnId
  rw [if_pos rfl]
  rfl

theorem find_pend_some {t : ConnTable} {j : ConnIx}
    (h : nfcFindConnCbByConnId t nfcPendConnId = some j) :
    (t.connCb j).connId = nfcPendConnId := by
  rw [find_pend] at h
  exact of_decide_eq_true (firstSlot_holds h)

theorem allocConnCb_some {t t' : ConnTable} {maxConn : Nat} {pCback : Option Nat} {j : ConnIx}
    (h : nfcAllocConnCb t maxConn pCback = some (j, t')) :
    (t.connCb j).connId = nfcIllegalConnId ∧
      t' = t.set j { t.connCb j with connId := nfcPendConnId, pCback := pCback } := by
  unfold nfcAllocConnCb at h
  rw [Option.map_eq_some_iff] at h
  obtain ⟨k, hk, hpair⟩ := h
  obtain ⟨rfl, rfl⟩ := Prod.mk.inj hpair
  have hfree := firstSlot_holds hk
  rw [Bool.and_eq_true, beq_iff_eq] at hfree
  exact ⟨hfree.2, rfl⟩

theorem step_tables {I : ConnTable → Prop} {e : ConnsEvent}
    (hset : ∀ t j cb, I t → cb.connId = (t.connCb j).connId → I (t.set j cb))
    (hpend : ∀ t j cb, I t → (t.connCb j).connId = nfcIllegalConnId →
      cb.connId = nfcPendConnId → I (t.set j cb))
    (hfree : ∀ t j, I t → I (nfcFreeConnCb t j))
    (hopen : ∀ t j c, I t → (t.connCb j).connId = nfcPendConnId →
      (∀ k, (t.connCb k).connId = (s.table.connCb k).connId) →
      (∀ status buffSize numBuff, e = .createRsp status buffSize numBuff (UInt8.ofNat c.val) →
        status = nciStatusOk → I (nfcSetConnId t j c)))
    (h : I s.table) (hs : s.step e = some s') : I s'.table := by
  cases e with
  | create destType id protocol pCback buf =>
    cases hs
    unfold nfcConnCreate
    split
    · exact h
    · rename_i j t halloc
      obtain ⟨hill, rfl⟩ := allocConnCb_some halloc
      have hI := hset _ j { (s.table.set j { s.table.connCb j with
          connId := nfcPendConnId, pCback := pCback }).connCb j with
          id := if destType = nciDestTypeNfcc then nfcTestId else id, actProtocol := protocol }
        (hpend s.table j _ h hill rfl) rfl
      dsimp only
      split
      · exact hI
      · exact hfree _ j hI
  | close connId buf =>
    cases hs
    unfold nfcConnClose
    split <;> exact h
  | createRsp status buffSize numBuff connId =>
    unfold Conns.step at hs
    dsimp only at hs
    split at hs
    · cases hs
      unfold nfcNcifProcConnCreateRsp
      dsimp only
      split
      · exact h
      · rename_i j hj
        have hp := find_pend_some hj
        have hI := hset s.table j { s.table.connCb j with
          buffSize := buffSize, numBuff := numBuff, initCredits := numBuff } h rfl
        have hids : ∀ k, ((s.table.set j { s.table.connCb j with
            buffSize := buffSize, numBuff := numBuff, initCredits := numBuff }).connCb k).connId =
            (s.table.connCb k).connId := by
          intro k
          by_cases hk : k = j
          · rw [hk, ConnTable.set_same]
          · rw [ConnTable.set_other _ _ hk]
        split
        · rename_i hlt
          dsimp only
          split
          · rename_i hok
            exact hopen _ j ⟨connId.toNat, hlt⟩ hI ((hids j).trans hp) hids status buffSize numBuff
              (by rw [UInt8.ofNat_toNat]) hok
          · exact hfree _ j hI
        · exact hfree _ j hI
    · cases hs
      exact h
  | closeRsp =>
    unfold Conns.step at hs
    dsimp only at hs
    split at hs
    · cases hs
      unfold nfcNcifReportConnCloseEvt
      split
      · exact h
      · rename_i j _
        exact hfree _ j h
    · cases hs
      exact h
  | deactivate =>
    cases hs
    exact hset _ _ _ h rfl
  | resetAll =>
    obtain rfl := Option.some.inj hs
    dsimp only
    exact resetAll_keeps hfree h

theorem indexed_step {e : ConnsEvent} (h : Indexed s.table) (hs : s.step e = some s') :
    Indexed s'.table :=
  step_tables (fun _ j _ hI hid => hI.set j hid) (fun _ _ _ hI hill hcb => hI.pend hill hcb)
    (fun _ j hI => freeConnCb_indexed hI j)
    (fun _ _ c hI hp _ _ _ _ _ _ =>
      setConnId_indexed hI c fun d => hp ▸ (connId_plain d).1.symm) h hs

theorem reachable_step {e : ConnsEvent} (hno : NoReassign s e) (h : Reachable s.table)
    (hs : s.step e = some s') : Reachable s'.table := by
  refine step_tables (fun _ j _ hI hid => hI.set j hid) (fun _ _ _ hI _ hcb => hI.pend hcb)
    (fun _ j hI => freeConnCb_reachable hI j) ?_ h hs
  intro t j c hI _ hids status buffSize numBuff he hok
  subst he
  apply setConnId_reachable hI c
  intro k
  rw [hids]
  exact hno hok (connId_lt c) k

end Steps

/-! ## Lookup -/

def Open (t : ConnTable) (j : ConnIx) : Prop := (t.connCb j).connId.toNat < nfcMaxConnId + 1

instance (t : ConnTable) (j : ConnIx) : Decidable (Open t j) := by
  unfold Open
  infer_instance

section Lookup
variable {t : ConnTable}

theorem Indexed.handle (h : Indexed t) (c : Fin (nfcMaxConnId + 1)) {j : ConnIx} :
    (∃ h' : 0 < (t.connId c).toNat ∧ (t.connId c).toNat - 1 < nciMaxConnCbs,
      (⟨(t.connId c).toNat - 1, h'.2⟩ : ConnIx) = j) ↔ Names t c j := by
  have hval : ∀ k : ConnIx, (UInt8.ofNat (k.val + 1)).toNat = k.val + 1 := by decide
  constructor
  · rintro ⟨⟨hpos, hlt⟩, rfl⟩
    rcases h.range c with h0 | ⟨k, hk⟩
    · rw [h0] at hpos
      exact absurd hpos (by decide)
    · have heq : (⟨(t.connId c).toNat - 1, hlt⟩ : ConnIx) = k := by
        apply Fin.ext
        show (t.connId c).toNat - 1 = k.val
        rw [show t.connId c = UInt8.ofNat (k.val + 1) from hk, hval]
        rfl
      rw [heq]
      exact hk
  · intro hj
    have hto : (t.connId c).toNat = j.val + 1 := by
      rw [show t.connId c = UInt8.ofNat (j.val + 1) from hj, hval]
    refine ⟨⟨by omega, by have := j.isLt; omega⟩, ?_⟩
    apply Fin.ext
    show (t.connId c).toNat - 1 = j.val
    omega

theorem find_iff (h : Indexed t) {id : UInt8} (hid : id ≠ nfcPendConnId) {c : Fin (nfcMaxConnId + 1)}
    (hc : id &&& 0x0F = UInt8.ofNat c.val) (j : ConnIx) :
    nfcFindConnCbByConnId t id = some j ↔ c.val < nfcMaxConnId ∧ Names t c j := by
  have hto : ∀ c : Fin (nfcMaxConnId + 1), (UInt8.ofNat c.val).toNat = c.val := by decide
  have hmask : (id &&& 0x0F).toNat = c.val := by rw [hc, hto]
  unfold nfcFindConnCbByConnId
  rw [if_neg hid]
  simp only [hmask]
  rw [← h.handle c]
  constructor
  · intro hfind
    split at hfind
    · rename_i hlt
      split at hfind
      · rename_i hh
        exact ⟨hlt, hh, Option.some.inj hfind⟩
      · cases hfind
    · cases hfind
  · rintro ⟨hlt, hh, rfl⟩
    rw [dif_pos hlt, dif_pos hh]

theorem findByHandle_iff (t : ConnTable) (id : UInt8) (j : ConnIx) :
    nfcFindConnCbByHandle t id = some j ↔
      (t.connCb j).id = id ∧ ∀ k < j, (t.connCb k).id ≠ id := by
  unfold nfcFindConnCbByHandle
  constructor
  · intro h
    refine ⟨beq_iff_eq.mp (firstSlot_holds h), ?_⟩
    intro k hk heq
    have hfirst := firstSlot_first h k hk
    rw [beq_eq_false_iff_ne] at hfirst
    exact hfirst heq
  · rintro ⟨hid, hfirst⟩
    match hf : firstSlot fun k : ConnIx => (t.connCb k).id == id with
    | none =>
      rw [firstSlot_eq_none] at hf
      exact absurd hid (beq_eq_false_iff_ne.mp (hf j))
    | some k =>
      have hk : (t.connCb k).id = id := beq_iff_eq.mp (firstSlot_holds hf)
      rcases lt_trichotomy k j with hlt | heq | hgt
      · exact absurd hk (hfirst k hlt)
      · rw [heq]
      · exact absurd hid (beq_eq_false_iff_ne.mp (firstSlot_first hf j hgt))

end Lookup

/-! ## Runs -/

theorem enabled_tables (hci : Option (UInt8 × UInt8)) (maxConn : Nat) :
    Indexed (Conns.enabled hci maxConn).table ∧ Reachable (Conns.enabled hci maxConn).table := by
  have hempty : Indexed ConnTable.empty ∧ Reachable ConnTable.empty := by
    refine ⟨⟨fun c => .inl rfl, ?_, fun j => .inr (.inr rfl)⟩, ?_⟩
    · intro c j hj
      exact absurd hj.symm (handle_ne_zero j)
    · intro c j hj
      exact absurd hj.symm (connId_plain c).2
  have hrf : Indexed (nfcSetConnId ConnTable.empty 0 0) ∧
      Reachable (nfcSetConnId ConnTable.empty 0 0) :=
    ⟨setConnId_indexed hempty.1 0 fun d => (connId_plain d).2.symm,
      setConnId_reachable hempty.2 0 fun k => (connId_plain 0).2.symm⟩
  match hci with
  | none => exact hrf
  | some (buffSize, credits) =>
    have h1 : Indexed (nfcSetConnId (nfcSetConnId ConnTable.empty 0 0) 1 1) :=
      setConnId_indexed hrf.1 1 (by decide)
    have h2 : Reachable (nfcSetConnId (nfcSetConnId ConnTable.empty 0 0) 1 1) :=
      setConnId_reachable hrf.2 1 (by decide)
    exact ⟨h1.set 1 rfl, h2.set 1 rfl⟩

theorem indexed_run {hci : Option (UInt8 × UInt8)} {maxConn : Nat} {es : List ConnsEvent}
    {s : Conns} (hrun : run Conns.step (Conns.enabled hci maxConn) es = some s) :
    Indexed s.table :=
  @run_keeps_of_step _ _ Conns.step (fun _ _ => True) (fun s => Indexed s.table)
    (fun _ _ _ h _ hs => indexed_step h hs) es _ _ (enabled_tables hci maxConn).1
    (stepsOk_true Conns.step es _) hrun

theorem reachable_run {hci : Option (UInt8 × UInt8)} {maxConn : Nat} {es : List ConnsEvent}
    {s : Conns} (hok : StepsOk Conns.step NoReassign (Conns.enabled hci maxConn) es)
    (hrun : run Conns.step (Conns.enabled hci maxConn) es = some s) : Reachable s.table :=
  @run_keeps_of_step _ _ Conns.step NoReassign (fun s => Reachable s.table)
    (fun _ _ _ h hno hs => reachable_step hno h hs) es _ _ (enabled_tables hci maxConn).2 hok hrun

/-- The id is looked up rightly: no block waits, if the placeholder is asked for; id 15 is not open; and
an id above 15 has the four id bits of no open connection that can be found. -/
def Asked (t : ConnTable) (id : UInt8) : Prop :=
  if id = nfcPendConnId then ∀ j, (t.connCb j).connId ≠ nfcPendConnId
  else if id = 15 then ∀ j, (t.connCb j).connId ≠ 15
  else id < 15 ∨ id &&& 0x0F = 15 ∨ ∀ j, (t.connCb j).connId ≠ id &&& 0x0F

instance (t : ConnTable) (id : UInt8) : Decidable (Asked t id) := by
  unfold Asked
  split
  · infer_instance
  · split <;> infer_instance

section Ids
variable {t : ConnTable} {j : ConnIx} {id : UInt8}

theorem open_iff_lt (hj : (t.connCb j).connId = id) : Open t j ↔ id < 16 := by
  unfold Open
  rw [hj]
  exact Iff.rfl

theorem find_exact_iff (h : Indexed t) (hreach : Reachable t) (id : UInt8) :
    (∀ j, nfcFindConnCbByConnId t id = some j ↔ Open t j ∧ (t.connCb j).connId = id) ↔ Asked t id := by
  have hclosed : ∀ {id : UInt8} (j : ConnIx), ¬ id < 16 → ¬ (Open t j ∧ (t.connCb j).connId = id) :=
    fun j hge ho => hge ((open_iff_lt ho.2).mp ho.1)
  unfold Asked
  by_cases hpend : id = nfcPendConnId
  · rw [if_pos hpend, hpend]
    have hno : ∀ j, ¬ (Open t j ∧ (t.connCb j).connId = nfcPendConnId) := fun j => hclosed j (by decide)
    constructor
    · intro hall j hj
      cases hf : nfcFindConnCbByConnId t nfcPendConnId with
      | some k => exact hno k ((hall k).mp hf)
      | none =>
        rw [find_pend, firstSlot_eq_none] at hf
        exact of_decide_eq_false (hf j) hj
    · intro hall j
      exact ⟨fun hf => absurd (find_pend_some hf) (hall j), fun ho => absurd ho (hno j)⟩
  rw [if_neg hpend]
  obtain ⟨c, hc⟩ : ∃ c : Fin (nfcMaxConnId + 1), id &&& 0x0F = UInt8.ofNat c.val := by
    revert id
    decide +kernel
  have hfind : ∀ j, nfcFindConnCbByConnId t id = some j ↔
      c.val < nfcMaxConnId ∧ (t.connCb j).connId = id &&& 0x0F := by
    intro j
    rw [find_iff h hpend hc, hc]
    exact and_congr_right fun _ => ⟨h.named c j, hreach c j⟩
  have hfifteenth : ∀ c : Fin (nfcMaxConnId + 1), UInt8.ofNat c.val = 15 ↔ ¬ c.val < nfcMaxConnId := by
    decide
  have hlast : id &&& 0x0F = 15 ↔ ¬ c.val < nfcMaxConnId := by rw [hc, hfifteenth]
  simp only [hfind]
  by_cases hfifteen : id = 15
  · subst hfifteen
    have hno := hlast.mp (by decide)
    rw [if_pos rfl]
    constructor
    · intro hall j hj
      exact hno ((hall j).mpr ⟨(open_iff_lt hj).mpr (by decide), hj⟩).1
    · intro hall j
      exact ⟨fun hf => absurd hf.1 hno, fun ho => absurd ho.2 (hall j)⟩
  rw [if_neg hfifteen]
  by_cases hlow : id < 15
  · have hmask : id &&& 0x0F = id := by
      clear hfind hc hlast hpend hfifteen
      revert id
      decide +kernel
    have hlt : c.val < nfcMaxConnId := by
      by_contra hge
      rw [← hlast, hmask] at hge
      exact hfifteen hge
    rw [hmask]
    refine ⟨fun _ => .inl hlow, fun _ j => ?_⟩
    constructor
    · exact fun hf => ⟨(open_iff_lt hf.2).mpr (UInt8.lt_trans hlow (by decide)), hf.2⟩
    · exact fun ho => ⟨hlt, ho.2⟩
  · have hge : ¬ id < 16 := by
      clear hfind hc hlast hpend
      revert id
      decide +kernel
    constructor
    · intro hall
      by_cases hlt : c.val < nfcMaxConnId
      · exact .inr (.inr fun j hj => hclosed j hge ((hall j).mp ⟨hlt, hj⟩))
      · exact .inr (.inl (hlast.mpr hlt))
    · rintro (hlt | hfif | hnone) j
      · exact absurd hlt hlow
      · exact ⟨fun hf => absurd hf.1 (hlast.mp hfif), fun ho => absurd ho (hclosed j hge)⟩
      · exact ⟨fun hf => absurd hf.2 (hnone j), fun ho => absurd ho (hclosed j hge)⟩

end Ids

/-! ## Handles -/

/-- The block is in use: its connection is open, or waits for the response. -/
def InUse (t : ConnTable) (j : ConnIx) : Prop := (t.connCb j).connId ≠ nfcIllegalConnId

instance (t : ConnTable) (j : ConnIx) : Decidable (InUse t j) := by
  unfold InUse
  infer_instance

/-- The blocks in use have handles of their own, and the handle of a free block is found before it. -/
structure OwnHandles (t : ConnTable) : Prop where
  own : ∀ j k, InUse t j → InUse t k → (t.connCb j).id = (t.connCb k).id → j = k
  stale : ∀ j, ¬ InUse t j → ∃ k < j, InUse t k ∧ (t.connCb k).id = (t.connCb j).id

/-- No step leaves the handle of a connection that is gone, or takes one that is in use: a create gets
a new handle and its buffer, its response accepts it, and nothing is closed or reset. -/
def KeepsHandles (s : Conns) : ConnsEvent → Prop
  | .create destType id _ pCback buf =>
    match nfcAllocConnCb s.table s.maxConn pCback with
    | none => True
    | some _ => buf = true ∧ ∀ k, InUse s.table k →
      (s.table.connCb k).id ≠ if destType = nciDestTypeNfcc then nfcTestId else id
  | .createRsp status _ _ connId =>
    (nfcFindConnCbByConnId s.table nfcPendConnId).isSome →
      status = nciStatusOk ∧ connId.toNat < nfcMaxConnId + 1
  | .closeRsp =>
    match s.commands with
    | .close connId :: _ => nfcFindConnCbByConnId s.table connId = none
    | _ => True
  | .resetAll => False
  | _ => True

instance (s : Conns) (e : ConnsEvent) : Decidable (KeepsHandles s e) := by
  unfold KeepsHandles
  cases e with
  | create destType id protocol pCback buf => dsimp only; split <;> infer_instance
  | createRsp status buffSize numBuff connId => dsimp only; infer_instance
  | closeRsp => dsimp only; split <;> infer_instance
  | resetAll => exact .isFalse id
  | close connId buf => exact .isTrue trivial
  | deactivate => exact .isTrue trivial

section Handles
variable {s s' : Conns} {t u : ConnTable} {j : ConnIx}

theorem OwnHandles.find (h : OwnHandles t) (id : UInt8) (j : ConnIx) :
    nfcFindConnCbByHandle t id = some j ↔ InUse t j ∧ (t.connCb j).id = id := by
  rw [findByHandle_iff]
  constructor
  · rintro ⟨rfl, hfirst⟩
    refine ⟨?_, rfl⟩
    by_contra hfree
    obtain ⟨k, hk, -, hid⟩ := h.stale j hfree
    exact hfirst k hk hid
  · rintro ⟨hj, rfl⟩
    refine ⟨rfl, fun k hk hid => ?_⟩
    by_cases huse : InUse t k
    · exact hk.ne (h.own k j huse hj hid)
    · obtain ⟨i, hi, huse', hid'⟩ := h.stale k huse
      exact (hi.trans hk).ne (h.own i j huse' hj (hid'.trans hid))

theorem OwnHandles.same (h : OwnHandles t) (huse : ∀ k, InUse u k ↔ InUse t k)
    (hid : ∀ k, (u.connCb k).id = (t.connCb k).id) : OwnHandles u := by
  constructor
  · intro j k hj hk heq
    rw [hid, hid] at heq
    exact h.own j k ((huse j).mp hj) ((huse k).mp hk) heq
  · intro j hj
    obtain ⟨k, hk, hu, heq⟩ := h.stale j (fun hu => hj ((huse j).mpr hu))
    exact ⟨k, hk, (huse k).mpr hu, by rw [hid, hid, heq]⟩

theorem OwnHandles.set (h : OwnHandles t) {cb : ConnCb} (hid : cb.id = (t.connCb j).id)
    (huse : cb.connId ≠ nfcIllegalConnId ↔ InUse t j) : OwnHandles (t.set j cb) := by
  refine h.same (fun k => ?_) fun k => ?_
  · unfold InUse
    by_cases hk : k = j
    · rw [hk, ConnTable.set_same]
      exact huse
    · rw [ConnTable.set_other _ _ hk]
  · by_cases hk : k = j
    · rw [hk, ConnTable.set_same, hid]
    · rw [ConnTable.set_other _ _ hk]

theorem OwnHandles.take (h : OwnHandles t) {cb : ConnCb} (hfree : ¬ InUse t j)
    (huse : cb.connId ≠ nfcIllegalConnId) (hnew : ∀ k, InUse t k → (t.connCb k).id ≠ cb.id) :
    OwnHandles (t.set j cb) := by
  have hother : ∀ k, k ≠ j → (InUse (t.set j cb) k ↔ InUse t k) ∧ ((t.set j cb).connCb k).id = (t.connCb k).id := by
    intro k hk
    unfold InUse
    rw [ConnTable.set_other _ _ hk]
    exact ⟨Iff.rfl, rfl⟩
  have hsame : ((t.set j cb).connCb j).id = cb.id := by rw [ConnTable.set_same]
  constructor
  · intro i k hi hk heq
    -- two blocks in use with one handle: neither of them can be the new one
    by_cases hij : i = j
    · by_cases hkj : k = j
      · rw [hij, hkj]
      · rw [hij, hsame, (hother k hkj).2] at heq
        exact absurd heq.symm (hnew k ((hother k hkj).1.mp hk))
    · by_cases hkj : k = j
      · rw [hkj, hsame, (hother i hij).2] at heq
        exact absurd heq (hnew i ((hother i hij).1.mp hi))
      · rw [(hother i hij).2, (hother k hkj).2] at heq
        exact h.own i k ((hother i hij).1.mp hi) ((hother k hkj).1.mp hk) heq
  · intro i hi
    have hij : i ≠ j := by
      rintro rfl
      refine hi ?_
      unfold InUse
      rw [ConnTable.set_same]
      exact huse
    -- what stood in front of a free block still does
    obtain ⟨k, hk, hu, heq⟩ := h.stale i fun hu => hi ((hother i hij).1.mpr hu)
    have hkj : k ≠ j := by
      rintro rfl
      exact hfree hu
    exact ⟨k, hk, (hother k hkj).1.mpr hu, by rw [(hother k hkj).2, (hother i hij).2, heq]⟩

theorem ownHandles_step {e : ConnsEvent} (hok : KeepsHandles s e) (h : OwnHandles s.table)
    (hs : s.step e = some s') : OwnHandles s'.table := by
  cases e with
  | create destType id protocol pCback buf =>
    cases hs
    unfold nfcConnCreate
    unfold KeepsHandles at hok
    dsimp only at hok
    cases halloc : nfcAllocConnCb s.table s.maxConn pCback with
    | none => exact h
    | some r =>
      obtain ⟨j, t⟩ := r
      rw [halloc] at hok
      obtain ⟨hbuf, hnew⟩ := hok
      obtain ⟨hill, rfl⟩ := allocConnCb_some halloc
      dsimp only
      rw [if_pos hbuf]
      dsimp only
      rw [ConnTable.set_same]
      -- the block is written twice, and what counts is the second time
      have htake := @OwnHandles.take s.table j h { s.table.connCb j with
        connId := nfcPendConnId
        pCback := pCback
        id := if destType = nciDestTypeNfcc then nfcTestId else id
        actProtocol := protocol } (fun hu => hu hill)
        (show nfcPendConnId ≠ nfcIllegalConnId by decide) hnew
      refine htake.same (fun k => ?_) fun k => ?_
      · unfold InUse
        by_cases hk : k = j
        · rw [hk, ConnTable.set_same, ConnTable.set_same]
        · rw [ConnTable.set_other _ _ hk, ConnTable.set_other _ _ hk, ConnTable.set_other _ _ hk]
      · by_cases hk : k = j
        · rw [hk, ConnTable.set_same, ConnTable.set_same]
        · rw [ConnTable.set_other _ _ hk, ConnTable.set_other _ _ hk, ConnTable.set_other _ _ hk]
  | close connId buf =>
    cases hs
    unfold nfcConnClose
    split <;> exact h
  | createRsp status buffSize numBuff connId =>
    unfold Conns.step at hs
    dsimp only at hs
    split at hs
    · cases hs
      unfold nfcNcifProcConnCreateRsp
      dsimp only
      split
      · exact h
      · rename_i j hj
        obtain ⟨hst, hlt⟩ := hok (by rw [hj]; rfl)
        -- the block that waits stays in use, with its handle
        have huse : InUse s.table j := by
          unfold InUse
          rw [find_pend_some hj]
          decide
        have hset : OwnHandles (s.table.set j { s.table.connCb j with
            buffSize := buffSize, numBuff := numBuff, initCredits := numBuff }) :=
          h.set rfl Iff.rfl
        rw [dif_pos hlt]
        dsimp only
        rw [if_pos hst]
        have hplain := (connId_plain ⟨connId.toNat, hlt⟩).2
        have hopen := @OwnHandles.set _ j hset { s.table.connCb j with
          buffSize := buffSize
          numBuff := numBuff
          initCredits := numBuff
          connId := UInt8.ofNat connId.toNat } (by rw [ConnTable.set_same]) (by
            unfold InUse
            rw [ConnTable.set_same]
            exact iff_of_true hplain huse)
        unfold nfcSetConnId
        rw [ConnTable.set_same]
        exact hopen.same (fun _ => Iff.rfl) fun _ => rfl
    · cases hs
      exact h
  | closeRsp =>
    unfold Conns.step at hs
    dsimp only at hs
    split at hs
    · rename_i connId rest hcmd
      cases hs
      unfold KeepsHandles at hok
      dsimp only at hok
      rw [hcmd] at hok
      unfold nfcNcifReportConnCloseEvt
      dsimp only at hok ⊢
      -- the response finds no block
      rw [hok]
      exact h
    · cases hs
      exact h
  | deactivate =>
    cases hs
    exact h.set rfl Iff.rfl
  | resetAll => exact hok.elim

theorem ownHandles_enabled (hci : Option (UInt8 × UInt8)) (maxConn : Nat) :
    OwnHandles (Conns.enabled hci maxConn).table := by
  cases hci with
  | none => exact (show OwnHandles (Conns.enabled none 0).table from ⟨by decide, by decide⟩)
  | some x =>
    have hzero : OwnHandles (Conns.enabled (some (0, 0)) 0).table := ⟨by decide, by decide⟩
    refine hzero.same (fun k => ?_) fun k => ?_
    · fin_cases k <;> exact Iff.rfl
    · fin_cases k <;> rfl

end Handles

/-- In every run in which no id is given to a second connection: the lookup of an id finds exactly the
open connection of that id just if it is looked up rightly; and the lookup by handle finds exactly the
blocks in use, in a run whose steps keep the handles apart. -/
theorem conn_lookup_exact_iff (hci : Option (UInt8 × UInt8)) (maxConn : Nat)
    (es : List ConnsEvent) (s : Conns)
    (hok : StepsOk Conns.step NoReassign (Conns.enabled hci maxConn) es)
    (hrun : run Conns.step (Conns.enabled hci maxConn) es = some s) :
    (∀ id, (∀ j, nfcFindConnCbByConnId s.table id = some j ↔
        Open s.table j ∧ (s.table.connCb j).connId = id) ↔ Asked s.table id) ∧
      (StepsOk Conns.step KeepsHandles (Conns.enabled hci maxConn) es →
        ∀ id j, nfcFindConnCbByHandle s.table id = some j ↔
          InUse s.table j ∧ (s.table.connCb j).id = id) := by
  refine ⟨find_exact_iff (indexed_run hrun) (reachable_run hok hrun), fun hkeeps => ?_⟩
  exact (@run_keeps_of_step _ _ Conns.step KeepsHandles (fun s => OwnHandles s.table)
    (fun _ _ _ h hk hs => ownHandles_step hk h hs) es _ _ (ownHandles_enabled hci maxConn) hkeeps hrun).find

/-- An NFCEE is connected: it is found by its id 2 and by its handle. -/
theorem conn_lookup_exact_iff_nfcee :
    ∃ s, run Conns.step (Conns.enabled (some (32, 1)) 4)
        [.create nciDestTypeNfcee 0x81 0 (some 7) true, .createRsp nciStatusOk 32 1 2] = some s ∧
      nfcFindConnCbByConnId s.table 2 = some 2 ∧ nfcFindConnCbByHandle s.table 0x81 = some 2 := by
  obtain ⟨s, hs⟩ : ∃ s, run Conns.step (Conns.enabled (some (32, 1)) 4)
      [.create nciDestTypeNfcee 0x81 0 (some 7) true, .createRsp nciStatusOk 32 1 2] = some s :=
    ⟨_, rfl⟩
  obtain ⟨hids, hhandles⟩ := conn_lookup_exact_iff (some (32, 1)) 4 _ s (by decide) hs
  refine ⟨s, hs, ((hids 2).mpr ?_ 2).mpr ?_, (hhandles (by decide) 0x81 2).mpr ?_⟩
  all_goals
    obtain rfl := Option.some.inj hs
    decide

/-- Id 15 is accepted by the response handler and then not found. -/
theorem conn_fifteen_not_found :
    ∃ s, run Conns.step (Conns.enabled (some (32, 1)) 4)
        [.create nciDestTypeNfcee 0x81 0 (some 7) true, .createRsp nciStatusOk 32 1 15] = some s ∧
      (s.table.connCb 2).connId = 15 ∧ s.reports.map (·.status) = [nciStatusOk] ∧
      nfcFindConnCbByConnId s.table 15 = none :=
  ⟨_, rfl, by decide, by decide, by decide⟩

/-! ## Responses to CORE_CONN_CREATE -/

/-- The blocks that wait for a response. -/
def waiting (t : ConnTable) (j : ConnIx) : Bool := decide ((t.connCb j).connId = nfcPendConnId)

/-- The blocks of the creates not yet answered, oldest first. -/
def creates : List ConnCmd → List ConnIx
  | [] => []
  | .create block _ :: rest => block :: creates rest
  | .close _ :: rest => creates rest

/-- A create is given a block behind all waiting ones, a close of the placeholder
id meets no waiting block, and no reset comes between a create and its response. -/
def InOrder (s : Conns) : ConnsEvent → Prop
  | .create _ _ _ pCback buf =>
    match nfcAllocConnCb s.table s.maxConn pCback with
    | none => True
    | some (j, _) => buf = true → ∀ k, waiting s.table k = true → k < j
  | .closeRsp =>
    s.commands.head? = some (.close nfcPendConnId) → ∀ k, waiting s.table k = false
  | .resetAll => creates s.commands = []
  | _ => True

instance (s : Conns) (e : ConnsEvent) : Decidable (InOrder s e) := by
  unfold InOrder
  split
  · split <;> infer_instance
  all_goals infer_instance

/-- What the response to the oldest command, a create of `block`, does: the fields
of that block and the report to its callback, and no other block. -/
structure Reaches (s s' : Conns) (block : ConnIx) (destType status buffSize numBuff connId : UInt8) :
    Prop where
  others : ∀ k, k ≠ block → s'.table.connCb k = s.table.connCb k
  accepted : status = nciStatusOk → connId.toNat < nfcMaxConnId + 1 →
    s'.table.connCb block = { s.table.connCb block with
      buffSize := buffSize, numBuff := numBuff, initCredits := numBuff, connId := connId }
  refused : (status ≠ nciStatusOk ∨ ¬ connId.toNat < nfcMaxConnId + 1) →
    s'.table.connCb block = ConnCb.freed { s.table.connCb block with
      buffSize := buffSize, numBuff := numBuff, initCredits := numBuff }
  report : s'.reports = s.reports ++ (s.table.connCb block).pCback.toList.map fun f =>
    if connId.toNat < nfcMaxConnId + 1 then
      ⟨f, connId, status, destType, (s.table.connCb block).id, buffSize, numBuff⟩
    else ⟨f, nfcIllegalConnId, nciStatusFailed, destType, (s.table.connCb block).id, buffSize,
      numBuff⟩

section Order
variable {s s' : Conns}

theorem creates_append (l m : List ConnCmd) : creates (l ++ m) = creates l ++ creates m := by
  induction l with
  | nil => rfl
  | cons c l ih =>
    cases c with
    | create block destType => rw [List.cons_append, creates, creates, ih, List.cons_append]
    | close connId => rw [List.cons_append, creates, creates, ih]

/-- Blocks wait when their create is not answered, in the order of the commands. -/
def Queued (s : Conns) : Prop := creates s.commands = slotsOf (waiting s.table)

variable {t : ConnTable}

theorem waiting_iff {j : ConnIx} :
    waiting t j = true ↔ (t.connCb j).connId = nfcPendConnId := decide_eq_true_iff

theorem Queued.same (h : Queued s) (hcmd : creates s'.commands = creates s.commands)
    (hw : ∀ k, waiting s'.table k = waiting s.table k) : Queued s' := by
  have hfun : waiting s'.table = waiting s.table := funext hw
  unfold Queued
  rw [hcmd, hfun]
  exact h

theorem waiting_set_other {j k : ConnIx} (cb : ConnCb) (h : k ≠ j) :
    waiting (t.set j cb) k = waiting t k := by
  unfold waiting
  rw [ConnTable.set_other _ _ h]

theorem waiting_free {j : ConnIx} (k : ConnIx) :
    waiting (nfcFreeConnCb t j) k = (waiting t k && decide (k ≠ j)) := by
  by_cases hk : k = j
  · subst hk
    unfold waiting
    rw [freeConnCb_same]
    simp [ConnCb.freed, nfcIllegalConnId, nfcPendConnId]
  · unfold waiting
    rw [freeConnCb_other t hk]
    simp [hk]

theorem find_not_waiting (h : Indexed t) {connId : UInt8} {j : ConnIx}
    (hne : connId ≠ nfcPendConnId) (hfind : nfcFindConnCbByConnId t connId = some j) :
    waiting t j = false := by
  unfold nfcFindConnCbByConnId at hfind
  rw [if_neg hne] at hfind
  dsimp only at hfind
  split at hfind
  · rename_i hlt
    split at hfind
    · rename_i hh
      have hnames := (h.handle ⟨(connId &&& 0x0F).toNat, Nat.lt_succ_of_lt hlt⟩).mp
        ⟨hh, Option.some.inj hfind⟩
      have hid := h.named _ _ hnames
      unfold waiting
      rw [hid]
      exact decide_eq_false (connId_plain _).1
    · cases hfind
  · cases hfind

theorem create_queued {destType id protocol : UInt8} {pCback : Option Nat} {buf : Bool}
    (hok : InOrder s (.create destType id protocol pCback buf)) (h : Queued s) :
    Queued (nfcConnCreate s destType id protocol pCback buf) := by
  unfold nfcConnCreate
  unfold InOrder at hok
  dsimp only at hok
  cases halloc : nfcAllocConnCb s.table s.maxConn pCback with
  | none => exact h
  | some p =>
    obtain ⟨j, t⟩ := p
    rw [halloc] at hok
    obtain ⟨hill, rfl⟩ := allocConnCb_some halloc
    have hfree : waiting s.table j = false := by
      unfold waiting
      rw [hill]
      decide
    dsimp only
    cases buf with
    | true =>
      -- the new block joins the waiting ones at the end
      rw [if_pos rfl]
      unfold Queued
      rw [creates_append, h]
      symm
      apply slotsOf_snoc (hok rfl)
      intro k
      by_cases hk : k = j
      · subst hk
        simp [waiting]
      · rw [waiting_set_other _ hk, waiting_set_other _ hk]
        simp [hk]
    | false =>
      -- without a buffer the block is freed again
      rw [if_neg Bool.false_ne_true]
      refine h.same rfl ?_
      intro k
      rw [waiting_free]
      by_cases hk : k = j
      · subst hk
        simp [hfree]
      · rw [waiting_set_other _ hk, waiting_set_other _ hk]
        simp [hk]

variable {block : ConnIx} {rest : List ConnCmd}

theorem Queued.find (h : Queued s) {destType : UInt8}
    (hcmd : s.commands = .create block destType :: rest) :
    nfcFindConnCbByConnId s.table nfcPendConnId = some block := by
  have hhead := head?_slotsOf (waiting s.table)
  rw [← h, hcmd] at hhead
  rw [find_pend]
  exact hhead.symm

theorem rsp_reaches (h : Queued s) {destType : UInt8}
    (hcmd : s.commands = .create block destType :: rest) (status buffSize numBuff connId : UInt8) :
    Reaches s (nfcNcifProcConnCreateRsp { s with commands := rest } destType status buffSize numBuff
      connId) block destType status buffSize numBuff connId := by
  have hfind := h.find hcmd
  unfold nfcNcifProcConnCreateRsp
  dsimp only
  rw [hfind]
  dsimp only
  by_cases hlt : connId.toNat < nfcMaxConnId + 1
  · rw [dif_pos hlt]
    by_cases hst : status = nciStatusOk
    · refine ⟨?_, ?_, ?_, ?_⟩
      · intro k hk
        simp only [if_pos hst, nfcSetConnId, setIndex_connCb, ConnTable.set_other _ _ hk]
      · intro _ _
        simp only [if_pos hst, nfcSetConnId, setIndex_connCb, ConnTable.set_same,
          UInt8.ofNat_toNat]
      · rintro (hne | hge)
        · exact absurd hst hne
        · exact absurd hlt hge
      · simp only [if_pos hlt]
    · refine ⟨?_, ?_, ?_, ?_⟩
      · intro k hk
        simp only [if_neg hst, freeConnCb_other _ hk, ConnTable.set_other _ _ hk]
      · intro hok _
        exact absurd hok hst
      · intro _
        simp only [if_neg hst, freeConnCb_same, ConnTable.set_same]
      · simp only [if_pos hlt]
  · rw [dif_neg hlt]
    refine ⟨?_, ?_, ?_, ?_⟩
    · intro k hk
      simp only [freeConnCb_other _ hk, ConnTable.set_other _ _ hk]
    · intro _ hlt'
      exact absurd hlt' hlt
    · intro _
      simp only [freeConnCb_same, ConnTable.set_same]
    · simp only [if_neg hlt]

theorem Reaches.waiting {destType status buffSize numBuff connId : UInt8}
    (h : Reaches s s' block destType status buffSize numBuff connId) (k : ConnIx) :
    waiting s'.table k = true ↔ waiting s.table k = true ∧ k ≠ block := by
  rw [waiting_iff, waiting_iff]
  by_cases hk : k = block
  · subst hk
    have hne : (s'.table.connCb k).connId ≠ nfcPendConnId := by
      by_cases hacc : status = nciStatusOk ∧ connId.toNat < nfcMaxConnId + 1
      · rw [h.accepted hacc.1 hacc.2]
        have hplain := (connId_plain ⟨connId.toNat, hacc.2⟩).1
        rw [UInt8.ofNat_toNat] at hplain
        exact hplain
      · rw [h.refused (not_and_or.mp hacc)]
        show nfcIllegalConnId ≠ nfcPendConnId
        decide
    simp [hne]
  · rw [h.others k hk]
    simp [hk]

theorem rsp_queued (h : Queued s) {destType : UInt8}
    (hcmd : s.commands = .create block destType :: rest) (status buffSize numBuff connId : UInt8) :
    Queued (nfcNcifProcConnCreateRsp { s with commands := rest } destType status buffSize numBuff
      connId) := by
  have hreach := rsp_reaches h hcmd status buffSize numBuff connId
  have hcmds : (nfcNcifProcConnCreateRsp { s with commands := rest } destType status buffSize
      numBuff connId).commands = rest := by
    unfold nfcNcifProcConnCreateRsp
    dsimp only
    rw [h.find hcmd]
    dsimp only
    split <;> rfl
  have hold : slotsOf (waiting s.table) = block :: creates rest := by
    rw [← h, hcmd]
    rfl
  unfold Queued
  rw [hcmds]
  exact (slotsOf_tail hold hreach.waiting).symm

theorem close_queued (hi : Indexed s.table) {connId : UInt8}
    (hcmd : s.commands = .close connId :: rest) (hok : InOrder s .closeRsp) (h : Queued s) :
    Queued (nfcNcifReportConnCloseEvt { s with commands := rest } connId) := by
  have hcreates : creates rest = creates s.commands := by
    rw [hcmd]
    rfl
  unfold nfcNcifReportConnCloseEvt
  dsimp only
  cases hfind : nfcFindConnCbByConnId s.table connId with
  | none => exact h.same hcreates fun _ => rfl
  | some j =>
    have hnot : waiting s.table j = false := by
      by_cases hp : connId = nfcPendConnId
      · subst hp
        exact hok (by rw [hcmd]; rfl) j
      · exact find_not_waiting hi hp hfind
    refine h.same hcreates ?_
    intro k
    rw [waiting_free]
    by_cases hk : k = j
    · subst hk
      simp [hnot]
    · simp [hk]

theorem queued_step {e : ConnsEvent} (hi : Indexed s.table) (h : Queued s) (hok : InOrder s e)
    (hs : s.step e = some s') : Queued s' := by
  cases e with
  | create destType id protocol pCback buf =>
    obtain rfl := Option.some.inj hs
    exact create_queued hok h
  | close connId buf =>
    obtain rfl := Option.some.inj hs
    unfold nfcConnClose
    split
    · refine h.same ?_ fun _ => rfl
      rw [creates_append]
      exact List.append_nil _
    · exact h
  | createRsp status buffSize numBuff connId =>
    unfold Conns.step at hs
    dsimp only at hs
    split at hs
    · rename_i hcmd
      obtain rfl := Option.some.inj hs
      exact rsp_queued h hcmd status buffSize numBuff connId
    · obtain rfl := Option.some.inj hs
      exact h
  | closeRsp =>
    unfold Conns.step at hs
    dsimp only at hs
    split at hs
    · rename_i hcmd
      obtain rfl := Option.some.inj hs
      exact close_queued hi hcmd hok h
    · obtain rfl := Option.some.inj hs
      exact h
  | deactivate =>
    obtain rfl := Option.some.inj hs
    refine h.same rfl ?_
    intro k
    unfold nfcNcifProcDeactivate waiting
    by_cases hk : k = 0
    · rw [hk, ConnTable.set_same]
    · rw [ConnTable.set_other _ _ hk]
  | resetAll =>
    obtain rfl := Option.some.inj hs
    have hnone : ∀ k, waiting s.table k = false := by
      intro k
      have hempty : slotsOf (waiting s.table) = [] := h.symm.trans hok
      rw [← Bool.not_eq_true, ← mem_slotsOf, hempty]
      exact List.not_mem_nil
    have hafter : ∀ k, waiting (nfcResetAllConnCbs s.table) k = false := by
      apply resetAll_keeps (I := fun t => ∀ k, waiting t k = false) _ hnone
      intro t j ht k
      rw [waiting_free, ht, Bool.false_and]
    refine h.same rfl fun k => ?_
    dsimp only
    rw [hafter, hnone]

end Order

theorem queued_run {hci : Option (UInt8 × UInt8)} {maxConn : Nat} {es : List ConnsEvent}
    {s : Conns} (hok : StepsOk Conns.step InOrder (Conns.enabled hci maxConn) es)
    (hrun : run Conns.step (Conns.enabled hci maxConn) es = some s) : Queued s := by
  have hstart : Queued (Conns.enabled hci maxConn) := by
    unfold Queued
    symm
    apply slotsOf_eq List.Pairwise.nil
    intro k
    have hnot : waiting (Conns.enabled hci maxConn).table k = false := by
      match hci with
      | none => fin_cases k <;> rfl
      | some (buffSize, credits) => fin_cases k <;> rfl
    simp [hnot]
  have hboth := @run_keeps_of_step _ _ Conns.step InOrder (fun s => Indexed s.table ∧ Queued s)
    (fun _ _ _ h hin hs => ⟨indexed_step h.1 hs, queued_step h.1 h.2 hin hs⟩) es _ _
    ⟨(enabled_tables hci maxConn).1, hstart⟩ hok hrun
  exact hboth.2

theorem create_rsp_reaches (hci : Option (UInt8 × UInt8)) (maxConn : Nat) (es : List ConnsEvent)
    (s s' : Conns) (hok : StepsOk Conns.step InOrder (Conns.enabled hci maxConn) es)
    (hrun : run Conns.step (Conns.enabled hci maxConn) es = some s) (block : ConnIx)
    (destType : UInt8) (rest : List ConnCmd) (hcmd : s.commands = .create block destType :: rest)
    (status buffSize numBuff connId : UInt8)
    (hstep : s.step (.createRsp status buffSize numBuff connId) = some s') :
    Reaches s s' block destType status buffSize numBuff connId := by
  unfold Conns.step at hstep
  dsimp only at hstep
  rw [hcmd] at hstep
  obtain rfl := Option.some.inj hstep
  exact rsp_reaches (queued_run hok hrun) hcmd status buffSize numBuff connId

/-- Two creates wait; the response to the first goes to the first. -/
theorem create_rsp_reaches_first :
    ∃ s s', run Conns.step (Conns.enabled (some (32, 1)) 4)
        [.create nciDestTypeNfcee 0x81 0 (some 7) true,
          .create nciDestTypeNfcee 0x82 0 (some 8) true] = some s ∧
      s.step (.createRsp nciStatusOk 32 1 2) = some s' ∧
      Reaches s s' 2 nciDestTypeNfcee nciStatusOk 32 1 2 :=
  ⟨_, _, rfl, rfl, create_rsp_reaches (some (32, 1)) 4
    [.create nciDestTypeNfcee 0x81 0 (some 7) true, .create nciDestTypeNfcee 0x82 0 (some 8) true]
    _ _ (by decide) rfl 2 nciDestTypeNfcee _ rfl nciStatusOk 32 1 2 rfl⟩

/-- The first of two creates is refused and its block 2 is given to a third one:
the response to the second create then opens block 2 and tells the callback of
the third, and the second still waits. -/
theorem create_rsp_misses :
    ∃ s s', run Conns.step (Conns.enabled (some (32, 1)) 4)
        [.create nciDestTypeNfcee 0x81 0 (some 7) true,
          .create nciDestTypeNfcee 0x82 0 (some 8) true,
          .createRsp nciStatusFailed 0 0 0,
          .create nciDestTypeNfcee 0x83 0 (some 9) true] = some s ∧
      s.commands = [.create 3 nciDestTypeNfcee, .create 2 nciDestTypeNfcee] ∧
      s.step (.createRsp nciStatusOk 32 1 2) = some s' ∧
      ¬ Reaches s s' 3 nciDestTypeNfcee nciStatusOk 32 1 2 ∧
      (s'.table.connCb 2).connId = 2 ∧ waiting s'.table 3 = true ∧
      s'.reports.getLast? = some ⟨9, 2, nciStatusOk, nciDestTypeNfcee, 0x83, 32, 1⟩ := by
  refine ⟨_, _, rfl, by decide, rfl, ?_, by decide, by decide, by decide⟩
  intro h
  have hid := congrArg ConnCb.connId (h.accepted rfl (by decide))
  exact absurd hid (by decide)

end NfcStack.Nfc
