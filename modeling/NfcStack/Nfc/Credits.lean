import NfcStack.Nfc.SendData

/- Flow control on the data path: `num_buff` counts the packets a connection may
   still send. A packet takes one credit, a CORE_CONN_CREDITS notification gives
   some back.

   What is proved:
     1. `sendLoop_credits`: a drain takes exactly one credit for each packet.
     2. `credits_metered_iff`: along every run, each grant leaves
        `min(init_credits, num_buff + granted)` exactly when no grant brings more
        than `init_credits`; and then the packets sent and the credits left are
        the initial and the granted ones.
     3. `credits_overflow`: a grant that brings more is not cut. The cap at
        `init_credits` is compiled under `BT_USE_TRACES`, which is not defined, so
        the 8-bit sum is kept, wraps, or becomes the "no flow control" value. -/
namespace NfcStack.Nfc
open NfcStack.Lib

/-! ## One drain -/

section Drain
variable {getpoolbuf : Nat → Bool}

theorem sendLoop_credits (bufferSize hdr0 : UInt8) (fuel : Nat) :
    ∀ {d d' : Drain} {st : NciStatus},
      sendLoop getpoolbuf bufferSize hdr0 fuel d = some (st, d') →
      (∃ q n, d'.cb = { d.cb with txQ := q, numBuff := n }) ∧
        (d.cb.numBuff ≠ nfcConnNoFc →
          d'.cb.numBuff.toNat + d'.out.length = d.cb.numBuff.toNat + d.out.length) := by
  induction fuel with
  | zero =>
    intro d d' st h
    cases h
  | succ fuel ih =>
    intro d d' st h
    -- one more packet: the rest of the drain pays for the others
    have hpacket : ∀ {d1 : Drain} {b : Bytes} {q : List NfcHdr}, d.cb.numBuff ≠ 0 →
        d1.cb = { d.cb with txQ := q, numBuff := spend d.cb.numBuff } → d1.out = d.out ++ [b] →
        sendLoop getpoolbuf bufferSize hdr0 fuel d1 = some (st, d') →
        (∃ q n, d'.cb = { d.cb with txQ := q, numBuff := n }) ∧
          (d.cb.numBuff ≠ nfcConnNoFc →
            d'.cb.numBuff.toNat + d'.out.length = d.cb.numBuff.toNat + d.out.length) := by
      intro d1 b q h0 hcb hout hrest
      obtain ⟨⟨q', n', hcb'⟩, hpaid⟩ := ih hrest
      refine ⟨⟨q', n', by rw [hcb', hcb]⟩, ?_⟩
      intro hfc
      have hspend := toNat_spend h0 hfc
      have hlt := d.cb.numBuff.toNat_lt
      have hpos : d.cb.numBuff.toNat ≠ 0 := fun hz => h0 (UInt8.toNat_inj.mp (by simpa using hz))
      have hfc1 : d1.cb.numBuff ≠ nfcConnNoFc := by
        rw [hcb]
        intro heq
        have hval := congrArg UInt8.toNat heq
        have hno : nfcConnNoFc.toNat = 255 := rfl
        rw [hno] at hval
        rw [show (spend d.cb.numBuff).toNat = 255 from hval] at hspend
        omega
      have hrun := hpaid hfc1
      rw [hcb, hout, List.length_append, List.length_singleton] at hrun
      rw [hspend] at hrun
      omega
    unfold sendLoop at h
    split at h
    · obtain ⟨-, rfl⟩ := Prod.mk.inj (Option.some.inj h)
      exact ⟨⟨d.cb.txQ, d.cb.numBuff, rfl⟩, fun _ => rfl⟩
    · rename_i pData rest hq
      split at h
      · obtain ⟨-, rfl⟩ := Prod.mk.inj (Option.some.inj h)
        exact ⟨⟨d.cb.txQ, d.cb.numBuff, rfl⟩, fun _ => rfl⟩
      · rename_i h0
        split at h
        · exact hpacket h0 rfl rfl h
        · split at h
          · exact hpacket h0 rfl rfl h
          · obtain ⟨-, rfl⟩ := Prod.mk.inj (Option.some.inj h)
            exact ⟨⟨d.cb.txQ, d.cb.numBuff, rfl⟩, fun _ => rfl⟩

theorem sendData_credits {nfcState : NfcState} {flags : NfcFlags} {allocs : Nat} {cb : ConnCb}
    {pData : Option NfcHdr} {st : NciStatus} {d : Drain}
    (h : nfcNcifSendData getpoolbuf nfcState flags allocs cb pData = some (st, d)) :
    (∃ q n, d.cb = { cb with txQ := q, numBuff := n }) ∧
      (cb.numBuff ≠ nfcConnNoFc → d.cb.numBuff.toNat + d.out.length = cb.numBuff.toNat) := by
  have hqueue : ∃ q, enqueueTx cb pData = { cb with txQ := q } := by
    cases pData with
    | none => exact ⟨cb.txQ, rfl⟩
    | some p => exact ⟨cb.txQ ++ [p], rfl⟩
  obtain ⟨q, hq⟩ := hqueue
  unfold nfcNcifSendData at h
  split at h
  · obtain ⟨-, rfl⟩ := Prod.mk.inj (Option.some.inj h)
    exact ⟨⟨cb.txQ, cb.numBuff, rfl⟩, fun _ => rfl⟩
  · split at h
    · obtain ⟨-, rfl⟩ := Prod.mk.inj (Option.some.inj h)
      exact ⟨⟨cb.txQ, cb.numBuff, rfl⟩, fun _ => rfl⟩
    · obtain ⟨⟨q', n', hcb⟩, hpaid⟩ := sendLoop_credits _ _ _ h
      rw [hq] at hcb hpaid
      exact ⟨⟨q', n', hcb⟩, hpaid⟩

end Drain

/-! ## Runs -/

/-- The packets handed to the HAL for the connection in slot `i`. -/
def Link.sentOn (s : Link) (i : Fin nciMaxConnCbs) : Nat := (s.hal.filter (·.1 = i)).length

def Link.numBuff (s : Link) (i : Fin nciMaxConnCbs) : Nat := (s.conns.connCb i).numBuff.toNat

def Link.initCredits (s : Link) (i : Fin nciMaxConnCbs) : Nat :=
  (s.conns.connCb i).initCredits.toNat

/-- The credits that a notification brings to the connection in slot `i`. -/
def grantedBy (t : ConnTable) (i : Fin nciMaxConnCbs) : LinkEvent → Nat
  | .credits p =>
    ((creditsOf p).map fun e => if nfcFindConnCbByConnId t e.1 = some i then e.2.toNat else 0).sum
  | _ => 0

section Runs
variable (getpoolbuf : Nat → Bool) (i : Fin nciMaxConnCbs)

/-- An entry for the connection leaves `min(init_credits, num_buff + granted)`,
and each packet then takes one. -/
def EntryMetered (s : Link) (entry : UInt8 × UInt8) : Prop :=
  (nfcFindConnCbByConnId s.conns entry.1 = some i →
    (s.grant i entry.2).numBuff i = min (s.initCredits i) (s.numBuff i + entry.2.toNat)) ∧
  ∀ s', s.creditEntry getpoolbuf entry = some s' →
    s'.numBuff i + s'.sentOn i = s.sentOn i +
      if nfcFindConnCbByConnId s.conns entry.1 = some i then
        min (s.initCredits i) (s.numBuff i + entry.2.toNat)
      else s.numBuff i

/-- What a step does to the credits of the connection. -/
def LinkEvent.Metered (s : Link) : LinkEvent → Prop
  | .submit j p => ∀ s', s.send getpoolbuf j (some p) = some s' →
      s'.numBuff i + s'.sentOn i = s.numBuff i + s.sentOn i
  | .credits p => StepsOk (Link.creditEntry getpoolbuf) (EntryMetered getpoolbuf i) s (creditsOf p)
  | .setState _ _ => True

def EntryFits (s : Link) (entry : UInt8 × UInt8) : Prop :=
  nfcFindConnCbByConnId s.conns entry.1 = some i →
    s.numBuff i + entry.2.toNat ≤ s.initCredits i

def LinkEvent.Fits (s : Link) : LinkEvent → Prop
  | .credits p => StepsOk (Link.creditEntry getpoolbuf) (EntryFits i) s (creditsOf p)
  | _ => True

instance (s : Link) (entry : UInt8 × UInt8) : Decidable (EntryFits i s entry) := by
  unfold EntryFits
  infer_instance

instance (s : Link) : ∀ e : LinkEvent, Decidable (e.Fits getpoolbuf i s)
  | .credits _ => StepsOk.decidable _ _ _ _
  | .submit _ _ => .isTrue trivial
  | .setState _ _ => .isTrue trivial

/-- The credits are within bounds, and the connection is the one the run started with. -/
structure Metering (init : UInt8) (look : UInt8 → Option (Fin nciMaxConnCbs)) (s : Link) :
    Prop where
  credits : (s.conns.connCb i).initCredits = init
  le : s.numBuff i ≤ init.toNat
  find : ∀ cid, nfcFindConnCbByConnId s.conns cid = look cid

variable {getpoolbuf i} {init : UInt8} {look : UInt8 → Option (Fin nciMaxConnCbs)} {s t : Link}

theorem find_congr {t t' : ConnTable} (hids : ∀ j, (t'.connCb j).connId = (t.connCb j).connId)
    (htable : t'.connId = t.connId) (cid : UInt8) :
    nfcFindConnCbByConnId t' cid = nfcFindConnCbByConnId t cid := by
  unfold nfcFindConnCbByConnId
  simp only [hids, htable]

theorem find_set (t : ConnTable) (j : Fin nciMaxConnCbs) {cb : ConnCb}
    (hid : cb.connId = (t.connCb j).connId) (cid : UInt8) :
    nfcFindConnCbByConnId (t.set j cb) cid = nfcFindConnCbByConnId t cid := by
  have hids : ∀ k, ((t.set j cb).connCb k).connId = (t.connCb k).connId := by
    intro k
    by_cases hk : k = j
    · rw [hk, ConnTable.set_same, hid]
    · rw [ConnTable.set_other _ _ hk]
  exact find_congr hids rfl cid

theorem Metering.ne_noFc (h : Metering i init look s) (hinit : init ≠ nfcConnNoFc) :
    (s.conns.connCb i).numBuff ≠ nfcConnNoFc := by
  intro heq
  apply hinit
  have hle := h.le
  have hlt := init.toNat_lt
  unfold Link.numBuff at hle
  rw [heq] at hle
  have hno : nfcConnNoFc.toNat = 255 := rfl
  apply UInt8.toNat_inj.mp
  omega

theorem send_metering (h : Metering i init look s) (hinit : init ≠ nfcConnNoFc)
    {j : Fin nciMaxConnCbs} {pData : Option NfcHdr} (hs : s.send getpoolbuf j pData = some t) :
    Metering i init look t ∧ t.numBuff i + t.sentOn i = s.numBuff i + s.sentOn i := by
  unfold Link.send at hs
  obtain ⟨⟨st, d⟩, hd, ht⟩ := Option.bind_eq_some_iff.mp hs
  obtain rfl := Option.some.inj ht
  obtain ⟨⟨q, n, hcb⟩, hpaid⟩ := sendData_credits hd
  have hlook : ∀ cid, nfcFindConnCbByConnId (s.conns.set j d.cb) cid = look cid := by
    intro cid
    rw [find_set _ _ (by rw [hcb]), h.find]
  by_cases hj : i = j
  · subst hj
    have hsum := hpaid (h.ne_noFc hinit)
    have hnum : d.cb.numBuff.toNat + d.out.length = s.numBuff i := hsum
    have hsent : (s.hal ++ d.out.map (i, ·)).filter (·.1 = i) =
        s.hal.filter (·.1 = i) ++ d.out.map (i, ·) := by
      rw [List.filter_append, filter_tagged_same]
    refine ⟨⟨?_, ?_, hlook⟩, ?_⟩
    · rw [ConnTable.set_same, hcb]
      exact h.credits
    · have hle := h.le
      simp only [Link.numBuff, ConnTable.set_same] at hle hnum ⊢
      omega
    · simp only [Link.sentOn, hsent, List.length_append, List.length_map]
      simp only [Link.numBuff, ConnTable.set_same] at hnum ⊢
      omega
  · refine ⟨⟨?_, ?_, hlook⟩, ?_⟩
    · rw [ConnTable.set_other _ _ hj]
      exact h.credits
    · simp only [Link.numBuff, ConnTable.set_other _ _ hj]
      exact h.le
    · simp only [Link.numBuff, Link.sentOn, ConnTable.set_other _ _ hj, List.filter_append,
        filter_tagged_other hj, List.append_nil]

theorem grant_metering (h : Metering i init look s) {credit : UInt8}
    (hfit : s.numBuff i + credit.toNat ≤ init.toNat) :
    Metering i init look (s.grant i credit) ∧
      (s.grant i credit).numBuff i = s.numBuff i + credit.toNat := by
  have hlt := init.toNat_lt
  have hsum : (s.grant i credit).numBuff i = s.numBuff i + credit.toNat := by
    simp only [Link.numBuff, Link.grant, ConnTable.set_same, UInt8.toNat_add] at hfit ⊢
    omega
  refine ⟨⟨?_, hsum ▸ hfit, ?_⟩, hsum⟩
  · simp only [Link.grant, ConnTable.set_same]
    exact h.credits
  · intro cid
    rw [← h.find cid]
    apply find_set
    rfl

theorem grant_other (h : Metering i init look s) {j : Fin nciMaxConnCbs} (hj : i ≠ j)
    (credit : UInt8) :
    Metering i init look (s.grant j credit) ∧ (s.grant j credit).numBuff i = s.numBuff i := by
  have hnum : (s.grant j credit).numBuff i = s.numBuff i := by
    simp only [Link.numBuff, Link.grant, ConnTable.set_other _ _ hj]
  refine ⟨⟨?_, hnum ▸ h.le, ?_⟩, hnum⟩
  · simp only [Link.grant, ConnTable.set_other _ _ hj]
    exact h.credits
  · intro cid
    rw [← h.find cid]
    apply find_set
    rfl

def entryFor (look : UInt8 → Option (Fin nciMaxConnCbs)) (i : Fin nciMaxConnCbs)
    (entry : UInt8 × UInt8) : Nat :=
  if look entry.1 = some i then entry.2.toNat else 0

theorem creditEntry_metering (h : Metering i init look s) (hinit : init ≠ nfcConnNoFc)
    {entry : UInt8 × UInt8} (hfit : EntryFits i s entry)
    (hs : s.creditEntry getpoolbuf entry = some t) :
    Metering i init look t ∧
      t.numBuff i + t.sentOn i = s.numBuff i + s.sentOn i + entryFor look i entry := by
  unfold Link.creditEntry at hs
  unfold EntryFits at hfit
  rw [h.find] at hfit
  unfold entryFor
  split at hs
  · rename_i hnone
    rw [h.find] at hnone
    cases hs
    rw [if_neg (by rw [hnone]; simp)]
    exact ⟨h, rfl⟩
  · rename_i j hj
    rw [h.find] at hj
    split at hs
    · by_cases hij : i = j
      · subst hij
        have hsum : s.numBuff i + entry.2.toNat ≤ init.toNat := by
          rw [← h.credits]
          exact hfit hj
        obtain ⟨hm, hnum⟩ := grant_metering h hsum
        obtain ⟨hmt, hpaid⟩ := send_metering hm hinit hs
        refine ⟨hmt, ?_⟩
        have hsent : (s.grant i entry.2).sentOn i = s.sentOn i := rfl
        rw [hpaid, hnum, hsent, if_pos hj]
        omega
      · obtain ⟨hm, hnum⟩ := grant_other h hij entry.2
        obtain ⟨hmt, hpaid⟩ := send_metering hm hinit hs
        refine ⟨hmt, ?_⟩
        have hsent : (s.grant j entry.2).sentOn i = s.sentOn i := rfl
        have hne : look entry.1 ≠ some i := by
          rw [hj, ne_eq, Option.some.injEq]
          exact fun heq => hij heq.symm
        rw [hpaid, hnum, hsent, if_neg hne, Nat.add_zero]
    · rename_i hfc
      cases hs
      have hne : look entry.1 ≠ some i := by
        rw [hj]
        rintro ⟨⟩
        exact hfc (h.ne_noFc hinit)
      rw [if_neg hne]
      exact ⟨h, rfl⟩

theorem entryMetered_iff (h : Metering i init look s) (hinit : init ≠ nfcConnNoFc)
    (entry : UInt8 × UInt8) : EntryMetered getpoolbuf i s entry ↔ EntryFits i s entry := by
  have hinit' : s.initCredits i = init.toNat := by
    unfold Link.initCredits
    rw [h.credits]
  constructor
  · rintro ⟨hgrant, -⟩ hlook
    have hmin := hgrant hlook
    have hle := h.le
    have hcredit := entry.2.toNat_lt
    have hno : init.toNat ≠ 255 := fun heq => hinit (UInt8.toNat_inj.mp heq)
    have hlt := init.toNat_lt
    rw [hinit'] at hmin ⊢
    simp only [Link.numBuff, Link.grant, ConnTable.set_same, UInt8.toNat_add] at hmin hle ⊢
    omega
  · intro hfit
    refine ⟨?_, ?_⟩
    · intro hlook
      have hsum := hfit hlook
      rw [hinit'] at hsum ⊢
      rw [(grant_metering h hsum).2, Nat.min_eq_right hsum]
    · intro s' hs'
      rw [(creditEntry_metering h hinit hfit hs').2, hinit', h.find]
      unfold entryFor
      split
      · rename_i hlook
        have hsum := hfit (by rw [h.find]; exact hlook)
        rw [hinit'] at hsum
        rw [Nat.min_eq_right hsum]
        omega
      · omega

theorem step_metering (h : Metering i init look s) (hinit : init ≠ nfcConnNoFc) {e : LinkEvent}
    (hfit : e.Fits getpoolbuf i s) (hs : s.step getpoolbuf e = some t) :
    Metering i init look t ∧ t.numBuff i + t.sentOn i = s.numBuff i + s.sentOn i +
      match e with
      | .credits p => ((creditsOf p).map (entryFor look i)).sum
      | _ => 0 := by
  cases e with
  | submit j p => exact send_metering h hinit hs
  | credits p =>
    exact @run_adds _ _ (Link.creditEntry getpoolbuf) (EntryFits i) (Metering i init look)
      (fun s => s.numBuff i + s.sentOn i) (entryFor look i)
      (fun _ _ _ hm hf hstep => creditEntry_metering hm hinit hf hstep) (creditsOf p) _ _ h hfit hs
  | setState nfcState flags =>
    cases hs
    exact ⟨⟨h.credits, h.le, h.find⟩, rfl⟩

theorem metered_iff (h : Metering i init look s) (hinit : init ≠ nfcConnNoFc) (e : LinkEvent) :
    e.Metered getpoolbuf i s ↔ e.Fits getpoolbuf i s := by
  cases e with
  | submit j p => exact ⟨fun _ => trivial, fun _ s' hs' => (send_metering h hinit hs').2⟩
  | credits p =>
    refine stepsOk_iff (fun s entry hm => entryMetered_iff hm hinit entry) ?_ (creditsOf p) s h
    intro s entry t hm hP hs
    exact (creditEntry_metering hm hinit ((entryMetered_iff hm hinit entry).mp hP) hs).1
  | setState nfcState flags => exact Iff.rfl

end Runs

/-- Along a run that starts within bounds, every grant leaves
`min(init_credits, num_buff + granted)` and every packet takes one credit exactly
when no grant brings more than `init_credits`. The credits then stay within
bounds, and the credits left and the packets sent are the credits at the start
and the granted ones. -/
theorem credits_metered_iff (getpoolbuf : Nat → Bool) (s : Link) (i : Fin nciMaxConnCbs)
    (hfc : (s.conns.connCb i).initCredits ≠ nfcConnNoFc) (hstart : s.numBuff i ≤ s.initCredits i)
    (es : List LinkEvent) :
    (StepsOk (Link.step getpoolbuf) (fun s e => e.Metered getpoolbuf i s) s es ↔
      StepsOk (Link.step getpoolbuf) (fun s e => e.Fits getpoolbuf i s) s es) ∧
    (StepsOk (Link.step getpoolbuf) (fun s e => e.Fits getpoolbuf i s) s es →
      ∀ t, run (Link.step getpoolbuf) s es = some t →
        t.numBuff i ≤ s.initCredits i ∧ (t.conns.connCb i).numBuff ≠ nfcConnNoFc ∧
        t.numBuff i + t.sentOn i =
          s.numBuff i + s.sentOn i + (es.map (grantedBy s.conns i)).sum) := by
  have hinv : Metering i (s.conns.connCb i).initCredits (nfcFindConnCbByConnId s.conns) s :=
    ⟨rfl, hstart, fun _ => rfl⟩
  refine ⟨?_, ?_⟩
  · refine stepsOk_iff (fun _ e hm => metered_iff hm hfc e) ?_ es s hinv
    intro s e t hm hP hs
    exact (step_metering hm hfc ((metered_iff hm hfc e).mp hP) hs).1
  · intro hok t hrun
    obtain ⟨hm, hsum⟩ := @run_adds _ _ (Link.step getpoolbuf) (fun s e => e.Fits getpoolbuf i s)
      (Metering i (s.conns.connCb i).initCredits (nfcFindConnCbByConnId s.conns))
      (fun s => s.numBuff i + s.sentOn i) (grantedBy s.conns i)
      (fun _ e _ hm hf hs => by
        obtain ⟨hmt, hadd⟩ := step_metering hm hfc hf hs
        refine ⟨hmt, ?_⟩
        cases e <;> exact hadd) es _ _ hinv hok hrun
    exact ⟨hm.le, hm.ne_noFc hfc, hsum⟩

/-- A connection in slot 0 with id 1, as it is after its creation with one credit. -/
def oneCredit : Link where
  conns :=
    { connCb := fun j => if j = 0 then
        { id := 1, connId := 1, buffSize := 4, numBuff := 1, initCredits := 1 } else {}
      connId := fun k => if k.val = 1 then 1 else 0 }
  nfcState := .open
  flags := {}
  allocs := 0
  hal := []
  submitted := []

/-- A packet is sent, its credit comes back, and the next packet is sent. -/
theorem credits_metered_iff_returned :
    ∃ t, run (Link.step fun _ => true) oneCredit
        [.submit 0 (txBuffer [1, 2]), .credits [1, 1, 1], .submit 0 (txBuffer [3])] = some t ∧
      StepsOk (Link.step fun _ => true) (fun s e => e.Metered (fun _ => true) 0 s) oneCredit
        [.submit 0 (txBuffer [1, 2]), .credits [1, 1, 1], .submit 0 (txBuffer [3])] ∧
      t.sentOn 0 = 2 ∧ t.numBuff 0 = 0 := by
  have hall := credits_metered_iff (fun _ => true) oneCredit 0 (by decide) (by decide)
    [.submit 0 (txBuffer [1, 2]), .credits [1, 1, 1], .submit 0 (txBuffer [3])]
  refine ⟨_, rfl, hall.1.mpr (by decide), by decide, by decide⟩

theorem credits_overflow :
    ∃ t, run (Link.step fun _ => true) oneCredit [.credits [1, 1, 254]] = some t ∧
      (t.conns.connCb 0).numBuff = nfcConnNoFc ∧
      ¬ StepsOk (Link.step fun _ => true) (fun s e => e.Metered (fun _ => true) 0 s) oneCredit
        [.credits [1, 1, 254]] := by
  refine ⟨_, rfl, by decide, ?_⟩
  intro h
  have hgrant := h.1.1.1 (by decide)
  exact absurd hgrant (by decide)

end NfcStack.Nfc
