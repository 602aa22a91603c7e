import NfcStack.Rw.I93
import NfcStack.Lib.Run

/- What the handlers of `NfcStack.Rw.I93` touch, for responses of any length and content.

   What is proved:
     1. Reading delivers only bytes that were received, and as many as the message has
        when it is complete: for every run (`read_delivers`).
     2. A loop touches the response up to the index `length`, one byte more than was
        received, when the block goes that far (`mem_fillFirst_resp`,
        `mem_fillLength`): the test before a byte is touched is `xx > length`.
     3. Each handler stays inside the response exactly where it is long enough, or short
        enough to be refused (`i93_bounded_iff`, `t5t_bounded_iff`); the update buffer is
        never left. The handler of a Type 5 tag does not compare the response with the
        block before it sends it, the other one does.
     4. So a whole update is bounded exactly when every response is. -/
namespace NfcStack.Rw.I93
open NfcStack.Lib

/-! ## Reading -/

def Chunk.Inside (c : Chunk) : Prop := c.offset + c.len ≤ c.resp.bytes.length

def ReadCb.total (cb : ReadCb) : Nat := (cb.delivered.map Chunk.len).sum

/-- What a read of `n` bytes keeps, of responses that meet `P`. -/
structure Reading (P : Resp → Prop) (n : Nat) (cb : ReadCb) : Prop where
  length : cb.ndefLength = n
  inside : ∀ c ∈ cb.delivered, P c.resp ∧ c.Inside
  going : cb.state = .readNdef → cb.cplt = false ∧ cb.rwLength < n ∧ cb.total = cb.rwLength
  done : cb.cplt = true → cb.total = n

theorem reading_start (P : Resp → Prop) (l : Layout) {n : Nat} (hpos : 0 < n) :
    Reading P n (rwI93ReadNDef l n) where
  length := rfl
  inside := by simp [rwI93ReadNDef]
  going _ := ⟨rfl, hpos, rfl⟩
  done h := by simp [rwI93ReadNDef] at h

theorem reading_stopped {P : Resp → Prop} {n : Nat} {cb : ReadCb} (h : Reading P n cb) :
    Reading P n { cb with state := .idle } where
  length := h.length
  inside := h.inside
  going hst := by simp at hst
  done := h.done

theorem total_append (cb : ReadCb) (c : Chunk) :
    ({ cb with delivered := cb.delivered ++ [c] } : ReadCb).total = cb.total + c.len := by
  simp [ReadCb.total]

theorem rwI93SmReadNdef_reading {P : Resp → Prop} {l : Layout} {n : Nat} {cb : ReadCb}
    (hn : n + 2 ^ 16 ≤ 2 ^ 32) (h : Reading P n cb) (hst : cb.state = .readNdef) (r : Resp)
    (hr : P r) (next : Bool) : Reading P n (rwI93SmReadNdef l cb r next) := by
  obtain ⟨hcplt, hlt, htotal⟩ := h.going hst
  have hlen := r.length_lt
  simp only [rwI93SmReadNdef]
  split
  case h_1 => exact reading_stopped h
  case h_2 flags rest hbytes =>
    have hsize : r.bytes.length = r.length + 1 := by simp [Resp.length, hbytes]
    split
    · exact reading_stopped h
    generalize hoff : headerOffset l cb = offset
    -- the piece of the response that is kept
    obtain ⟨pos, len, hpos, hl, hin, hll⟩ : ∃ pos len,
        (if offset < r.length then offset + 1 else 0) = pos ∧
        (if offset < r.length then r.length - offset else 0) = len ∧
        pos + len ≤ r.bytes.length ∧ len ≤ r.length := by
      refine ⟨_, _, rfl, rfl, ?_, ?_⟩
      · split <;> omega
      · split <;> omega
    rw [hpos, hl, h.length]
    have hsum : (cb.rwLength + len) % 2 ^ 32 = cb.rwLength + len := by
      apply Nat.mod_eq_of_lt
      omega
    rw [hsum]
    split
    case isTrue hdone =>
      have hextra : sub32 len (sub32 (cb.rwLength + len) n) = n - cb.rwLength := by
        rw [sub32_of_le hdone (by omega), sub32_of_le (by omega) (by omega)]
        omega
      rw [hextra]
      constructor
      · rfl
      · intro c hc
        obtain hc | rfl : c ∈ cb.delivered ∨ c = ⟨r, pos, n - cb.rwLength⟩ := by simpa using hc
        · exact h.inside c hc
        · exact ⟨hr, by simp only [Chunk.Inside]; omega⟩
      · intro hst'
        simp at hst'
      · intro _
        have := total_append cb ⟨r, pos, n - cb.rwLength⟩
        simp only [ReadCb.total] at this htotal ⊢
        omega
    case isFalse hmore =>
      constructor
      · rfl
      · intro c hc
        by_cases hl0 : 0 < len
        · simp only [hl0, if_true, List.mem_append, List.mem_singleton] at hc
          obtain hc | rfl := hc
          · exact h.inside c hc
          · exact ⟨hr, hin⟩
        · simp only [hl0, if_false] at hc
          exact h.inside c hc
      · intro _
        have hless : cb.rwLength + len < n := by omega
        refine ⟨hcplt, hless, ?_⟩
        simp only [ReadCb.total] at htotal ⊢
        split
        · rw [List.map_append, List.sum_append]
          simp only [List.map_cons, List.map_nil, List.sum_cons, List.sum_nil]
          omega
        · omega
      · intro hc
        rw [hcplt] at hc
        cases hc

theorem readStep_reading {P : Resp → Prop} {l : Layout} {n : Nat} (hn : n + 2 ^ 16 ≤ 2 ^ 32)
    (cb : ReadCb) (e : Resp × Bool) (t : ReadCb) (h : Reading P n cb) (he : P e.1)
    (ht : readStep l cb e = some t) : Reading P n t := by
  simp only [readStep] at ht
  split at ht
  case h_1 hst =>
    cases ht
    exact rwI93SmReadNdef_reading hn h hst e.1 he e.2
  case h_2 =>
    cases ht
    exact h

/-- Every chunk lies in a response of the run, and the chunks are the message's bytes in
number once it is complete. -/
theorem read_delivers (l : Layout) {n : Nat} (hpos : 0 < n) (hn : n + 2 ^ 16 ≤ 2 ^ 32)
    (es : List (Resp × Bool)) {t : ReadCb} (ht : run (readStep l) (rwI93ReadNDef l n) es = some t) :
    (∀ c ∈ t.delivered, c.resp ∈ es.map Prod.fst ∧ c.Inside) ∧ (t.cplt = true → t.total = n) := by
  have hok : StepsOk (readStep l) (fun _ e => e.1 ∈ es.map Prod.fst) (rwI93ReadNDef l n) es :=
    stepsOk_of_events es _ fun e he => List.mem_map_of_mem he
  have h : Reading (· ∈ es.map Prod.fst) n t :=
    run_keeps_of_step (fun cb e t h he ht => readStep_reading hn cb e t h he ht) es
      (reading_start (· ∈ es.map Prod.fst) l hpos) hok ht
  exact ⟨h.inside, h.done⟩

/-! ## What the loops touch -/

def Touch.Inside (length ndefLength : Nat) : Touch → Prop
  | .resp i => i < length
  | .upd i => i < ndefLength

def AllInside (length ndefLength : Nat) (ts : List Touch) : Prop :=
  ∀ t ∈ ts, t.Inside length ndefLength

theorem allInside_nil (length ndefLength : Nat) : AllInside length ndefLength [] := by
  simp [AllInside]

theorem allInside_append {length ndefLength : Nat} {ts us : List Touch} :
    AllInside length ndefLength (ts ++ us) ↔
      AllInside length ndefLength ts ∧ AllInside length ndefLength us :=
  List.forall_mem_append

theorem allInside_cons_resp {length ndefLength i : Nat} {ts : List Touch} :
    AllInside length ndefLength (.resp i :: ts) ↔ i < length ∧ AllInside length ndefLength ts :=
  List.forall_mem_cons

theorem respBytes_inside (length ndefLength n : Nat) :
    AllInside length ndefLength (respBytes 0 n) ↔ n ≤ length := by
  simp only [AllInside, respBytes, List.mem_map, List.mem_range, forall_exists_index, and_imp]
  constructor
  · intro h
    by_contra hlt
    have := h (.resp (n - 1)) (n - 1) (by omega) (by simp)
    simp only [Touch.Inside] at this
    omega
  · intro h t k hk ht
    subst ht
    simp only [Touch.Inside]
    omega

theorem updBytes_inside {length ndefLength i n : Nat} (h : i + n ≤ ndefLength) :
    AllInside length ndefLength (updBytes i n) := by
  simp only [AllInside, updBytes, List.mem_map, List.mem_range, forall_exists_index, and_imp]
  intro t k hk ht
  subst ht
  simp only [Touch.Inside]
  omega

theorem mem_fillFirst_resp (upd : Nat → UInt8) (nd length i : Nat) (k : Nat) :
    ∀ (p : Nat → UInt8) (rw xx : Nat), rw ≤ nd →
      (.resp i ∈ (fillFirst upd nd length p rw xx k).touched ↔
        xx ≤ i ∧ i < xx + k ∧ i ≤ length) := by
  induction k with
  | zero =>
    intro p rw xx _
    simp [fillFirst]
    omega
  | succ k ih =>
    intro p rw xx hrw
    simp only [fillFirst]
    split
    · simp
      omega
    split
    · simp only [List.mem_cons, Touch.resp.injEq, reduceCtorEq, false_or]
      rw [ih _ _ _ (by omega)]
      omega
    · simp only [List.mem_cons, Touch.resp.injEq]
      rw [ih _ _ _ hrw]
      omega

theorem mem_fillFirst_upd (upd : Nat → UInt8) (nd length i : Nat) (k : Nat) :
    ∀ (p : Nat → UInt8) (rw xx : Nat),
      .upd i ∈ (fillFirst upd nd length p rw xx k).touched → i < nd := by
  induction k with
  | zero => simp [fillFirst]
  | succ k ih =>
    intro p rw xx h
    simp only [fillFirst] at h
    split at h
    · simp at h
    split at h
    · simp only [List.mem_cons, Touch.upd.injEq, reduceCtorEq, false_or] at h
      obtain rfl | h := h
      · assumption
      · exact ih _ _ _ h
    · simp only [List.mem_cons, reduceCtorEq, false_or] at h
      exact ih _ _ _ h

theorem fillFirst_stopped (upd : Nat → UInt8) (nd length : Nat) (k : Nat) :
    ∀ (p : Nat → UInt8) (rw xx : Nat), rw ≤ nd →
      ((fillFirst upd nd length p rw xx k).stopped = true ↔ 0 < k ∧ length + 1 < xx + k) := by
  induction k with
  | zero => simp [fillFirst]
  | succ k ih =>
    intro p rw xx hrw
    simp only [fillFirst]
    split
    · simp
      omega
    split
    · rw [ih _ _ _ (by omega)]
      omega
    · rw [ih _ _ _ hrw]
      omega

theorem fillFirst_rwLength (upd : Nat → UInt8) (nd length : Nat) (k : Nat) :
    ∀ (p : Nat → UInt8) (rw xx : Nat),
      rw ≤ (fillFirst upd nd length p rw xx k).rwLength ∧
        (fillFirst upd nd length p rw xx k).rwLength ≤ rw + k := by
  induction k with
  | zero => simp [fillFirst]
  | succ k ih =>
    intro p rw xx
    simp only [fillFirst]
    split
    · simp
    split
    · have := ih (setByte p xx (upd rw)) (rw + 1) (xx + 1)
      dsimp only
      omega
    · have := ih (setByte p xx icodeTlvTypeNull) rw (xx + 1)
      dsimp only
      omega

theorem lengthByte_isSome {nd rw : Nat} (hpos : 0 < rw) (hrw : rw ≤ 3) :
    (lengthByte nd rw).isSome = true := by
  obtain rfl | rfl | rfl : rw = 1 ∨ rw = 2 ∨ rw = 3 := by omega
  all_goals rfl

theorem mem_fillLength (nd length : Nat) (t : Touch) (k : Nat) :
    ∀ (p : Nat → UInt8) (rw xx : Nat), 0 < rw → rw ≤ 3 →
      (t ∈ (fillLength nd length p rw xx k).touched ↔
        ∃ i, t = .resp i ∧ xx ≤ i ∧ i < xx + min rw k ∧ i ≤ length) := by
  induction k with
  | zero =>
    intro p rw xx _ _
    simp only [fillLength, List.not_mem_nil, false_iff]
    intro h
    obtain ⟨i, _, _, _, _⟩ := h
    omega
  | succ k ih =>
    intro p rw xx hpos hrw
    simp only [fillLength, lengthByte_isSome hpos hrw, if_true]
    split
    · simp only [List.not_mem_nil, false_iff]
      intro h
      obtain ⟨i, _, _, _, _⟩ := h
      omega
    split
    · simp only [List.mem_singleton]
      constructor
      · intro h
        exact ⟨xx, h, by omega, by omega, by omega⟩
      · intro h
        obtain ⟨i, rfl, _, _, _⟩ := h
        simp only [Touch.resp.injEq]
        omega
    · simp only [List.singleton_append, List.mem_cons]
      rw [ih _ _ _ (by omega) (by omega)]
      constructor
      · intro h
        obtain rfl | ⟨i, rfl, _, _, _⟩ := h
        · exact ⟨xx, rfl, by omega, by omega, by omega⟩
        · exact ⟨i, rfl, by omega, by omega, by omega⟩
      · intro h
        obtain ⟨i, rfl, _, _, _⟩ := h
        by_cases hi : i = xx
        · exact Or.inl (by rw [hi])
        · exact Or.inr ⟨i, rfl, by omega, by omega, by omega⟩

theorem fillLength_stopped (nd length : Nat) (k : Nat) :
    ∀ (p : Nat → UInt8) (rw xx : Nat), 0 < rw →
      ((fillLength nd length p rw xx k).stopped = true ↔
        0 < k ∧ length + 1 < xx + min rw k) := by
  induction k with
  | zero => simp [fillLength]
  | succ k ih =>
    intro p rw xx hpos
    simp only [fillLength]
    split
    · simp
      omega
    split
    · simp
      omega
    · rw [ih _ _ _ (by omega)]
      omega

theorem fillLength_rwLength (nd length : Nat) (k : Nat) :
    ∀ (p : Nat → UInt8) (rw xx : Nat), (fillLength nd length p rw xx k).rwLength ≤ rw := by
  induction k with
  | zero => simp [fillLength]
  | succ k ih =>
    intro p rw xx
    simp only [fillLength]
    split
    · simp
    split
    · simp
    · exact (ih _ _ _).trans (Nat.sub_le _ _)

theorem writeSingleBlock_inside {length nd : Nat} {cb next : UpdCb} {touched src : List Touch}
    {block : Nat} {data : List UInt8} {s : Sending} :
    AllInside length nd (writeSingleBlock cb next touched src block data s).touched ↔
      AllInside length nd touched ∧ (s ≠ .noBuffer → AllInside length nd src) := by
  cases s <;> simp [writeSingleBlock, fail, allInside_append]

theorem readSingleBlock_inside (length nd : Nat) (cb next : UpdCb) (block : Nat) (s : Sending) :
    AllInside length nd (readSingleBlock cb next block s).touched := by
  cases s <;> exact allInside_nil length nd

/-! ## The handlers -/

variable {l : Layout} {upd : Nat → UInt8} {cb : UpdCb} {r : Resp} {s : Sending}

theorem resetBlock_inside (hrw : cb.rwLength = 0) :
    AllInside r.length cb.ndefLength (resetBlock l upd cb r).touched ↔
      cb.ndefLength = 0 ∨ r.length < firstIndex l cb.ndefLength ∨ l.blockSize ≤ r.length := by
  by_cases hnd : 0 < cb.ndefLength
  · simp only [resetBlock, hnd, if_true]
    constructor
    · intro h
      by_contra hno
      have hmem := (mem_fillFirst_resp upd cb.ndefLength r.length r.length
        (l.blockSize - firstIndex l cb.ndefLength) (setByte r.at l.lengthOffset 0) cb.rwLength
        (firstIndex l cb.ndefLength) (by omega)).mpr (by omega)
      have := h _ hmem
      simp only [Touch.Inside] at this
      omega
    · intro h t ht
      cases t with
      | resp i =>
        rw [mem_fillFirst_resp upd _ _ i _ _ _ _ (by omega)] at ht
        simp only [Touch.Inside]
        omega
      | upd i => exact mem_fillFirst_upd upd _ _ i _ _ _ _ ht
  · simp only [resetBlock, hnd, if_false]
    simp [allInside_nil]
    omega

theorem resetBlock_stopped (hrw : cb.rwLength = 0) :
    (resetBlock l upd cb r).stopped = true ↔
      0 < cb.ndefLength ∧ firstIndex l cb.ndefLength < l.blockSize ∧ r.length + 1 < l.blockSize := by
  by_cases hnd : 0 < cb.ndefLength
  · simp only [resetBlock, hnd, if_true, true_and]
    rw [fillFirst_stopped _ _ _ _ _ _ _ (by omega)]
    omega
  · simp [resetBlock, hnd]

theorem resetBlock_rwLength (hrw : cb.rwLength = 0) :
    (resetBlock l upd cb r).rwLength ≤ l.blockSize := by
  simp only [resetBlock]
  split
  · have := (fillFirst_rwLength upd cb.ndefLength r.length
      (l.blockSize - firstIndex l cb.ndefLength) (setByte r.at l.lengthOffset 0) cb.rwLength
      (firstIndex l cb.ndefLength)).2
    omega
  · exact hrw.trans_le (Nat.zero_le _)

/-- The response has the whole block or ends before the length field; one that ends behind
it is refused, if the part of the message is not behind its end. -/
def ResetFits (l : Layout) (cb : UpdCb) (r : Resp) : Prop :=
  r.length < l.lengthOffset ∨ l.blockSize ≤ r.length ∨
    l.lengthOffset < r.length ∧
      (cb.ndefLength = 0 ∨ 0xFF ≤ cb.ndefLength ∧ r.length < l.lengthOffset + 3)

theorem i93ResetLen_inside (hrw : cb.rwLength = 0) :
    AllInside r.length cb.ndefLength (i93ResetLen l upd cb r s).touched ↔ ResetFits l cb r := by
  have hlo := l.lengthOffset_lt
  have hin := @resetBlock_inside l upd cb r hrw
  have hstop := @resetBlock_stopped l upd cb r hrw
  have hfirst : firstIndex l cb.ndefLength = l.lengthOffset + (if 0xFF ≤ cb.ndefLength then 3 else 1) :=
    rfl
  simp only [i93ResetLen, ResetFits]
  split
  · simp [fail, allInside_nil]
    omega
  split
  case isTrue h =>
    rw [hstop] at h
    simp only [fail, allInside_cons_resp, hin]
    split at hfirst <;> omega
  case isFalse h => ?_
  rw [hstop] at h
  split
  · simp only [fail, allInside_cons_resp, hin]
    split at hfirst <;> omega
  · rw [writeSingleBlock_inside, respBytes_inside, allInside_cons_resp, hin]
    omega

/-- Without the comparison with the block, a response that is too short must also not get
as far as the command. -/
def T5tResetFits (l : Layout) (cb : UpdCb) (r : Resp) (s : Sending) : Prop :=
  r.length < l.lengthOffset ∨ l.blockSize ≤ r.length ∨
    l.lengthOffset < r.length ∧
      (cb.ndefLength = 0 ∨ 0xFF ≤ cb.ndefLength ∧ r.length < l.lengthOffset + 3) ∧
      (s = .noBuffer ∨ 0xFF ≤ cb.ndefLength ∧ l.lengthOffset + 3 < l.blockSize)

theorem t5tResetLen_inside (hrw : cb.rwLength = 0) :
    AllInside r.length cb.ndefLength (t5tResetLen l upd cb r s).touched ↔ T5tResetFits l cb r s := by
  have hlo := l.lengthOffset_lt
  have hin := @resetBlock_inside l upd cb r hrw
  have hstop := @resetBlock_stopped l upd cb r hrw
  have hfirst : firstIndex l cb.ndefLength = l.lengthOffset + (if 0xFF ≤ cb.ndefLength then 3 else 1) :=
    rfl
  simp only [t5tResetLen, T5tResetFits]
  split
  · simp [fail, allInside_nil]
    omega
  split
  case isTrue h =>
    rw [hstop] at h
    simp only [fail, allInside_cons_resp, hin]
    split at hfirst <;> omega
  case isFalse h =>
    rw [hstop] at h
    rw [writeSingleBlock_inside, respBytes_inside, allInside_cons_resp, hin]
    by_cases hs : s = .noBuffer
    · simp only [hs, ne_eq, not_true_eq_false, false_implies, and_true, true_or]
      split at hfirst <;> omega
    · simp only [hs, ne_eq, not_false_eq_true, true_implies, false_or]
      split at hfirst <;> omega

theorem lengthFilled_inside (hpos : 0 < cb.rwLength) (hrw : cb.rwLength ≤ 3) :
    AllInside r.length cb.ndefLength (lengthFilled l cb r).touched ↔
      r.length < cb.rwOffset % l.blockSize ∨
        min (cb.rwOffset % l.blockSize + cb.rwLength) l.blockSize ≤ r.length := by
  have hlo : cb.rwOffset % l.blockSize < l.blockSize := Nat.mod_lt _ l.size_pos
  simp only [lengthFilled]
  constructor
  · intro h
    by_contra hno
    have hmem := (mem_fillLength cb.ndefLength r.length (.resp r.length)
      (l.blockSize - cb.rwOffset % l.blockSize) r.at cb.rwLength (cb.rwOffset % l.blockSize) hpos
      hrw).mpr ⟨r.length, rfl, by omega, by omega, by omega⟩
    have := h _ hmem
    simp only [Touch.Inside] at this
    omega
  · intro h t ht
    rw [mem_fillLength _ _ t _ _ _ _ hpos hrw] at ht
    obtain ⟨i, rfl, _, _, _⟩ := ht
    simp only [Touch.Inside]
    omega

theorem lengthFilled_stopped (hpos : 0 < cb.rwLength) :
    (lengthFilled l cb r).stopped = true ↔
      r.length + 1 < min (cb.rwOffset % l.blockSize + cb.rwLength) l.blockSize := by
  have hlo : cb.rwOffset % l.blockSize < l.blockSize := Nat.mod_lt _ l.size_pos
  simp only [lengthFilled]
  rw [fillLength_stopped _ _ _ _ _ _ hpos]
  omega

/-- Nothing of the length field is left, or the response is an acknowledgement, ends
before the rest of the length field or has what of it is in the block. -/
def LengthFits (l : Layout) (cb : UpdCb) (r : Resp) : Prop :=
  cb.rwLength = 0 ∨ r.length = 0 ∨ r.length < cb.rwOffset % l.blockSize ∨
    min (cb.rwOffset % l.blockSize + cb.rwLength) l.blockSize ≤ r.length

theorem i93UpdateLen_inside (hrw : cb.rwLength ≤ 3) :
    AllInside r.length cb.ndefLength (i93UpdateLen l cb r s).touched ↔ LengthFits l cb r := by
  simp only [i93UpdateLen, LengthFits]
  split
  case isFalse h => simp [updateCplt, allInside_nil]; omega
  case isTrue hpos =>
    have hin := @lengthFilled_inside l cb r hpos hrw
    split
    · have := readSingleBlock_inside r.length cb.ndefLength cb cb (cb.rwOffset / l.blockSize) s
      simp_all
    split
    · simp only [fail, hin]
      omega
    split
    · simp only [fail, hin]
      omega
    · rw [writeSingleBlock_inside, respBytes_inside, hin]
      omega

def T5tLengthFits (l : Layout) (cb : UpdCb) (r : Resp) (s : Sending) : Prop :=
  cb.rwLength = 0 ∨ r.length = 0 ∨ r.length < cb.rwOffset % l.blockSize ∨
    min (cb.rwOffset % l.blockSize + cb.rwLength) l.blockSize ≤ r.length ∧
      (s = .noBuffer ∨ l.blockSize ≤ r.length)

theorem t5tUpdateLen_inside (hrw : cb.rwLength ≤ 3) :
    AllInside r.length cb.ndefLength (t5tUpdateLen l cb r s).touched ↔ T5tLengthFits l cb r s := by
  have hlo : cb.rwOffset % l.blockSize < l.blockSize := Nat.mod_lt _ l.size_pos
  simp only [t5tUpdateLen, T5tLengthFits]
  split
  case isFalse h => simp [updateCplt, allInside_nil]; omega
  case isTrue hpos =>
    have hin := @lengthFilled_inside l cb r hpos hrw
    have hstop := @lengthFilled_stopped l cb r hpos
    split
    · have := readSingleBlock_inside r.length cb.ndefLength cb cb (cb.rwOffset / l.blockSize % 2 ^ 16) s
      simp_all
    split
    case isTrue h =>
      rw [hstop] at h
      simp only [fail, hin]
      omega
    case isFalse h =>
      rw [hstop] at h
      rw [writeSingleBlock_inside, respBytes_inside, hin]
      by_cases hs : s = .noBuffer
      · simp only [hs, ne_eq, not_true_eq_false, false_implies, and_true, true_or]
        omega
      · simp only [hs, ne_eq, not_false_eq_true, true_implies, false_or]
        omega

theorem Layout.memory_le (l : Layout) : l.blockSize * l.numBlock ≤ 2 ^ 21 :=
  (Nat.mul_le_mul l.size_le l.blocks_le).trans (by decide)

/-- What of the message is in its last block. -/
theorem lastPart {bs rw nd : Nat} (hbs : bs ≤ maxBlockLength) (hrw : rw < nd) (hnd : nd ≤ rw + bs)
    (hlt : rw + bs < 2 ^ 32) : sub32 bs (sub32 (rw + bs) nd) % 2 ^ 8 = nd - rw := by
  have hbs' : bs ≤ 32 := hbs
  rw [sub32_of_le hnd hlt, sub32_of_le (by omega) (by omega), Nat.mod_eq_of_lt (by omega)]
  omega

theorem i93WriteNdef_inside (length : Nat) (hrw : cb.rwLength ≤ cb.rwOffset) :
    AllInside length cb.ndefLength (i93WriteNdef l upd cb s).touched := by
  have hsize : l.blockSize ≤ 32 := l.size_le
  have hmem := l.memory_le
  simp only [i93WriteNdef]
  split
  case isTrue hoff =>
    have hwrap : (cb.rwLength + l.blockSize) % 2 ^ 32 = cb.rwLength + l.blockSize := by
      apply Nat.mod_eq_of_lt
      omega
    rw [hwrap]
    split
    case isTrue hmore =>
      split
      case isTrue hlast =>
        rw [writeSingleBlock_inside, lastPart l.size_le hmore (by omega) (by omega)]
        exact ⟨updBytes_inside (by omega), fun _ => allInside_nil _ _⟩
      case isFalse hnot =>
        rw [writeSingleBlock_inside]
        exact ⟨allInside_nil _ _, fun _ => updBytes_inside (by omega)⟩
    case isFalse =>
      split
      · rw [writeSingleBlock_inside]
        exact ⟨allInside_nil _ _, fun _ => allInside_nil _ _⟩
      · exact readSingleBlock_inside _ _ _ _ _ _
  case isFalse =>
    split
    · exact readSingleBlock_inside _ _ _ _ _ _
    · exact allInside_nil _ _

theorem t5tWriteNdef_inside (length : Nat) (hrw : cb.rwLength ≤ cb.rwOffset) :
    AllInside length cb.ndefLength (t5tWriteNdef l upd cb s).touched := by
  have hsize : l.blockSize ≤ 32 := l.size_le
  have harea := l.area_lt
  simp only [t5tWriteNdef]
  split
  case isTrue hoff =>
    have hwrap : (cb.rwLength + l.blockSize) % 2 ^ 32 = cb.rwLength + l.blockSize := by
      apply Nat.mod_eq_of_lt
      omega
    rw [hwrap]
    split
    case isTrue hmore =>
      split
      case isTrue hlast =>
        rw [writeSingleBlock_inside, lastPart l.size_le hmore (by omega) (by omega)]
        exact ⟨updBytes_inside (by omega), fun _ => allInside_nil _ _⟩
      case isFalse hnot =>
        rw [writeSingleBlock_inside]
        exact ⟨allInside_nil _ _, fun _ => updBytes_inside (by omega)⟩
    case isFalse =>
      split
      · rw [writeSingleBlock_inside]
        exact ⟨allInside_nil _ _, fun _ => allInside_nil _ _⟩
      · exact readSingleBlock_inside _ _ _ _ _ _
  case isFalse =>
    split
    · exact readSingleBlock_inside _ _ _ _ _ _
    · exact allInside_nil _ _

/-! ## Runs -/

/-- What an update keeps while it goes on: in each phase, how much was written is bounded
by where it was written. -/
def Phase (cb : UpdCb) : Prop :=
  match cb.subState with
  | .resetLen => cb.rwLength = 0
  | .writeNdef => cb.rwLength ≤ cb.rwOffset
  | .updateLen => cb.rwLength ≤ 3

structure Updating (cb : UpdCb) : Prop where
  phase : cb.state = .updateNdef → Phase cb

theorem updating_fail (cb : UpdCb) (touched : List Touch) : Updating (fail cb touched).cb where
  phase h := by simp [fail, handleError] at h

theorem updating_write {next : UpdCb} {touched src : List Touch} {block : Nat} {data : List UInt8}
    (h : Phase next) : Updating (writeSingleBlock cb next touched src block data s).cb := by
  cases s
  · exact ⟨fun _ => h⟩
  · exact updating_fail _ _
  · exact updating_fail _ _

theorem updating_read {next : UpdCb} {block : Nat} (h : Phase next) :
    Updating (readSingleBlock cb next block s).cb := by
  cases s
  · exact ⟨fun _ => h⟩
  · exact updating_fail _ _
  · exact updating_fail _ _

theorem lengthFieldSize_le (n : Nat) : lengthFieldSize n ≤ 3 := by
  simp only [lengthFieldSize]
  split
  · omega
  · split <;> omega

theorem phase_toUpdateLen (l : Layout) (cb : UpdCb) : Phase (toUpdateLen l cb) :=
  lengthFieldSize_le _

theorem i93ResetLen_updating (hrw : cb.rwLength = 0) : Updating (i93ResetLen l upd cb r s).cb := by
  have hle := @resetBlock_rwLength l upd cb r hrw
  have hstart := l.start_lt
  have hsize : l.blockSize ≤ 32 := l.size_le
  have hblock : lengthBlock l * l.blockSize ≤ l.ndefTlvStartOffset + 1 := Nat.div_mul_le_self _ _
  simp only [i93ResetLen]
  split
  · exact updating_fail _ _
  split
  · exact updating_fail _ _
  split
  · exact updating_fail _ _
  · apply updating_write
    simp only [Phase, Nat.add_mul, Nat.one_mul]
    omega

theorem t5tResetLen_updating (hrw : cb.rwLength = 0) : Updating (t5tResetLen l upd cb r s).cb := by
  have hle := @resetBlock_rwLength l upd cb r hrw
  have hsize : l.blockSize ≤ 32 := l.size_le
  have hblock : lengthBlock l % 2 ^ 16 * l.blockSize ≤ 2 ^ 16 * 32 :=
    Nat.mul_le_mul (Nat.mod_lt _ (by decide)).le hsize
  simp only [t5tResetLen]
  split
  · exact updating_fail _ _
  split
  · exact updating_fail _ _
  · apply updating_write
    simp only [Phase, Nat.add_mul, Nat.one_mul]
    omega

theorem i93WriteNdef_updating (hst : cb.subState = .writeNdef) (hrw : cb.rwLength ≤ cb.rwOffset) :
    Updating (i93WriteNdef l upd cb s).cb := by
  have hsize : l.blockSize ≤ 32 := l.size_le
  have hmem := l.memory_le
  simp only [i93WriteNdef]
  split
  case isTrue hoff =>
    split
    · split
      · apply updating_write
        simp only [Phase, hst]
        omega
      · apply updating_write
        simp only [Phase, hst]
        omega
    · split
      · apply updating_write
        simp only [Phase, hst]
        omega
      · exact updating_read (phase_toUpdateLen l cb)
  case isFalse =>
    split
    · exact updating_read (phase_toUpdateLen l cb)
    · exact updating_fail _ _

theorem t5tWriteNdef_updating (hst : cb.subState = .writeNdef) (hrw : cb.rwLength ≤ cb.rwOffset) :
    Updating (t5tWriteNdef l upd cb s).cb := by
  have hsize : l.blockSize ≤ 32 := l.size_le
  have harea := l.area_lt
  simp only [t5tWriteNdef]
  split
  case isTrue hoff =>
    split
    · split
      · apply updating_write
        simp only [Phase, hst]
        omega
      · apply updating_write
        simp only [Phase, hst]
        omega
    · split
      · exact updating_write (phase_toUpdateLen l cb)
      · exact updating_read (phase_toUpdateLen l cb)
  case isFalse =>
    split
    · exact updating_read (phase_toUpdateLen l cb)
    · exact updating_fail _ _

theorem lengthFilled_rwLength_le (hrw : cb.rwLength ≤ 3) : (lengthFilled l cb r).rwLength ≤ 3 :=
  (fillLength_rwLength _ _ _ _ _ _).trans hrw

theorem i93UpdateLen_updating (hst : cb.subState = .updateLen) (hrw : cb.rwLength ≤ 3) :
    Updating (i93UpdateLen l cb r s).cb := by
  simp only [i93UpdateLen]
  split
  · split
    · apply updating_read
      simp only [Phase, hst]
      exact hrw
    split
    · exact updating_fail _ _
    split
    · exact updating_fail _ _
    · apply updating_write
      simp only [Phase, toNextBlock, hst]
      exact lengthFilled_rwLength_le hrw
  · exact ⟨fun h => by simp [updateCplt] at h⟩

theorem t5tUpdateLen_updating (hst : cb.subState = .updateLen) (hrw : cb.rwLength ≤ 3) :
    Updating (t5tUpdateLen l cb r s).cb := by
  simp only [t5tUpdateLen]
  split
  · split
    · apply updating_read
      simp only [Phase, hst]
      exact hrw
    split
    · exact updating_fail _ _
    · apply updating_write
      simp only [Phase, toNextBlock, hst]
      exact lengthFilled_rwLength_le hrw
  · exact ⟨fun h => by simp [updateCplt] at h⟩

/-! ## Bounded updates -/

/-- What a handler touches in the step lies in the response and in the message. -/
def Bounded (handler : UpdCb → Resp → Sending → Turn) (cb : UpdCb) (e : Resp × Sending) : Prop :=
  cb.state = .updateNdef →
    AllInside e.1.length cb.ndefLength (handler cb e.1 e.2).touched

def Resp.flags (r : Resp) : UInt8 := r.bytes.headD 0

/-- The response is not an error, or it is one that a Tag-it gives to a write that worked. -/
def Accepted (l : Layout) (r : Resp) : Prop :=
  errorDetected r.flags = true →
    l.product.isTagIt = true ∧ r.at 0 = errorCodeBlockFailToWrite

/-- The response fits the phase: an error of a Tag-it has its code, and one that is
accepted has the block, or ends where that is noticed. -/
def I93Fits (l : Layout) (cb : UpdCb) (e : Resp × Sending) : Prop :=
  cb.state = .updateNdef → e.1.bytes ≠ [] →
    (errorDetected e.1.flags = true → l.product.isTagIt = true → 0 < e.1.length) ∧
    (Accepted l e.1 → match cb.subState with
      | .resetLen => ResetFits l cb e.1
      | .writeNdef => True
      | .updateLen => LengthFits l cb e.1)

def T5tFits (l : Layout) (cb : UpdCb) (e : Resp × Sending) : Prop :=
  cb.state = .updateNdef → e.1.bytes ≠ [] → errorDetected e.1.flags = false →
    match cb.subState with
    | .resetLen => T5tResetFits l cb e.1 e.2
    | .writeNdef => True
    | .updateLen => T5tLengthFits l cb e.1 e.2

theorem looked_inside (c : Prop) [Decidable c] (length nd : Nat) :
    AllInside length nd (if c then [Touch.resp 0] else []) ↔ (c → 0 < length) := by
  by_cases h : c
  · simp [h, AllInside, Touch.Inside]
  · simp [h, AllInside]

theorem i93_bounded_iff {e : Resp × Sending} (h : Updating cb) :
    Bounded (rwI93SmUpdateNdef l upd) cb e ↔ I93Fits l cb e := by
  obtain ⟨r, s⟩ := e
  simp only [Bounded, I93Fits]
  apply imp_congr_right
  intro hst
  have hphase := h.phase hst
  simp only [rwI93SmUpdateNdef, Accepted, Resp.flags]
  split
  case h_1 hb => simp [hb, fail, allInside_nil]
  case h_2 flags rest hb =>
    simp only [hb, List.headD_cons, ne_eq, reduceCtorEq, not_false_eq_true, true_implies]
    split
    case isTrue herr =>
      -- an error that ends the update: only its code is looked at
      simp only [fail]
      rw [looked_inside]
      simp only [herr.1, true_and, true_implies]
      have hno : ¬ (l.product.isTagIt = true ∧ r.at 0 = errorCodeBlockFailToWrite) := herr.2
      simp only [hno, false_implies, and_true]
    case isFalse herr =>
      have hacc : errorDetected flags = true →
          l.product.isTagIt = true ∧ r.at 0 = errorCodeBlockFailToWrite := by
        intro he
        by_contra hno
        exact herr ⟨he, hno⟩
      rw [allInside_append, looked_inside]
      simp only [and_imp]
      apply and_congr_right
      intro _
      rw [imp_iff_right hacc]
      simp only [Phase] at hphase
      cases hsub : cb.subState with
      | resetLen =>
        rw [hsub] at hphase
        exact i93ResetLen_inside hphase
      | writeNdef =>
        rw [hsub] at hphase
        exact iff_true_intro (i93WriteNdef_inside _ hphase)
      | updateLen =>
        rw [hsub] at hphase
        exact i93UpdateLen_inside hphase

theorem t5t_bounded_iff {e : Resp × Sending} (h : Updating cb) :
    Bounded (rwT5tSmUpdateNdef l upd) cb e ↔ T5tFits l cb e := by
  obtain ⟨r, s⟩ := e
  simp only [Bounded, T5tFits]
  apply imp_congr_right
  intro hst
  have hphase := h.phase hst
  simp only [rwT5tSmUpdateNdef, Resp.flags]
  split
  case h_1 hb => simp [hb, fail, allInside_nil]
  case h_2 flags rest hb =>
    simp only [hb, List.headD_cons, ne_eq, reduceCtorEq, not_false_eq_true, true_implies]
    split
    case isTrue herr => simp [herr, fail, allInside_nil]
    case isFalse herr =>
      rw [imp_iff_right (by simpa using herr)]
      simp only [Phase] at hphase
      cases hsub : cb.subState with
      | resetLen =>
        rw [hsub] at hphase
        exact t5tResetLen_inside hphase
      | writeNdef =>
        rw [hsub] at hphase
        exact iff_true_intro (t5tWriteNdef_inside _ hphase)
      | updateLen =>
        rw [hsub] at hphase
        exact t5tUpdateLen_inside hphase

theorem rwI93SmUpdateNdef_updating (hst : cb.state = .updateNdef) (h : Updating cb) :
    Updating (rwI93SmUpdateNdef l upd cb r s).cb := by
  have hphase := h.phase hst
  simp only [rwI93SmUpdateNdef]
  split
  · exact updating_fail _ _
  split
  · exact updating_fail _ _
  · simp only [Phase] at hphase
    cases hsub : cb.subState with
    | resetLen =>
      rw [hsub] at hphase
      exact i93ResetLen_updating hphase
    | writeNdef =>
      rw [hsub] at hphase
      exact i93WriteNdef_updating hsub hphase
    | updateLen =>
      rw [hsub] at hphase
      exact i93UpdateLen_updating hsub hphase

theorem rwT5tSmUpdateNdef_updating (hst : cb.state = .updateNdef) (h : Updating cb) :
    Updating (rwT5tSmUpdateNdef l upd cb r s).cb := by
  have hphase := h.phase hst
  simp only [rwT5tSmUpdateNdef]
  split
  · exact updating_fail _ _
  split
  · exact updating_fail _ _
  · simp only [Phase] at hphase
    cases hsub : cb.subState with
    | resetLen =>
      rw [hsub] at hphase
      exact t5tResetLen_updating hphase
    | writeNdef =>
      rw [hsub] at hphase
      exact t5tWriteNdef_updating hsub hphase
    | updateLen =>
      rw [hsub] at hphase
      exact t5tUpdateLen_updating hsub hphase

theorem updateStep_updating {handler : UpdCb → Resp → Sending → Turn}
    (hkeep : ∀ cb r s, cb.state = .updateNdef → Updating cb → Updating (handler cb r s).cb)
    (cb : UpdCb) (e : Resp × Sending) (t : UpdCb) (h : Updating cb)
    (ht : updateStep handler cb e = some t) : Updating t := by
  simp only [updateStep] at ht
  split at ht
  case h_1 hst =>
    cases ht
    exact hkeep cb e.1 e.2 hst h
  case h_2 =>
    cases ht
    exact h

theorem updating_start (l : Layout) (length : Nat) : Updating (rwI93UpdateNDef l length) where
  phase _ := rfl

/-- Reads are bounded, and deliver the message, over every run; an update is bounded in
every step of a run exactly when every response of the run fits its phase. -/
theorem responses_bounded (l : Layout) :
    (∀ n, 0 < n → n + 2 ^ 16 ≤ 2 ^ 32 → ∀ (es : List (Resp × Bool)) (t : ReadCb),
      run (readStep l) (rwI93ReadNDef l n) es = some t →
        (∀ c ∈ t.delivered, c.resp ∈ es.map Prod.fst ∧ c.Inside) ∧
          (t.cplt = true → t.total = n)) ∧
    (∀ (upd : Nat → UInt8) (n : Nat) (es : List (Resp × Sending)),
      StepsOk (updateStep (rwI93SmUpdateNdef l upd)) (Bounded (rwI93SmUpdateNdef l upd))
          (rwI93UpdateNDef l n) es ↔
        StepsOk (updateStep (rwI93SmUpdateNdef l upd)) (I93Fits l) (rwI93UpdateNDef l n) es) ∧
    (∀ (upd : Nat → UInt8) (n : Nat) (es : List (Resp × Sending)),
      StepsOk (updateStep (rwT5tSmUpdateNdef l upd)) (Bounded (rwT5tSmUpdateNdef l upd))
          (rwI93UpdateNDef l n) es ↔
        StepsOk (updateStep (rwT5tSmUpdateNdef l upd)) (T5tFits l) (rwI93UpdateNDef l n) es) := by
  refine ⟨fun n hpos hn es t ht => read_delivers l hpos hn es ht, ?_, ?_⟩
  · intro upd n es
    apply @stepsOk_iff _ _ _ _ _ Updating (fun cb e h => i93_bounded_iff h)
    · intro cb e t h _ ht
      exact updateStep_updating (fun cb r s => rwI93SmUpdateNdef_updating) cb e t h ht
    · exact updating_start l n
  · intro upd n es
    apply @stepsOk_iff _ _ _ _ _ Updating (fun cb e h => t5t_bounded_iff h)
    · intro cb e t h _ ht
      exact updateStep_updating (fun cb r s => rwT5tSmUpdateNdef_updating) cb e t h ht
    · exact updating_start l n

/-- Blocks of four bytes, the message's record at the start of block 1. -/
def smallLayout : Layout where
  blockSize := 4
  numBlock := 28
  product := .other
  ndefTlvStartOffset := 4
  ndefTlvLastOffset := 15
  t5tAreaLastOffset := 111
  size_pos := Nat.succ_pos 3
  size_le := Nat.le_add_right 4 28
  blocks_le := Nat.le_add_right 28 65508
  start_lt := by decide
  area_lt := by decide

/-- Flags without an error and the first three bytes of block 1. -/
def shortBlock : Resp where
  bytes := [0x00, 0x03, 0x0A, 0xD1]
  beyond _ := 0x55
  len_lt := by decide

def firstBlocks : Resp where
  bytes := [0x00, 0x03, 0x0A, 0xD1, 0x01, 0x06, 0x54, 0x02, 0x65, 0x6E, 0x41, 0x42, 0x43]
  beyond _ := 0x55
  len_lt := by decide

theorem responses_bounded_read :
    ∃ t, run (readStep smallLayout) (rwI93ReadNDef smallLayout 10) [(firstBlocks, true)] = some t ∧
      t.cplt = true ∧ t.total = 10 :=
  ⟨_, rfl, rfl, ((responses_bounded smallLayout).1 10 (by decide) (by decide) [(firstBlocks, true)] _ rfl).2 rfl⟩

/-- A block that is one byte short: both handlers write behind what was received, and the
one of a Type 5 tag sends the byte it found there to the tag. -/
theorem short_block_sent :
    ¬ (∀ (l : Layout) (upd : Nat → UInt8) (n : Nat) (es : List (Resp × Sending)),
        StepsOk (updateStep (rwI93SmUpdateNdef l upd)) (Bounded (rwI93SmUpdateNdef l upd))
          (rwI93UpdateNDef l n) es) ∧
    (rwT5tSmUpdateNdef smallLayout (fun _ => 0) (rwI93UpdateNDef smallLayout 0) shortBlock
      .sent).cmd = some (.writeSingleBlock 1 [0x03, 0x00, 0xD1, 0x55]) := by
  constructor
  · intro h
    have hstep := (h smallLayout (fun _ => 0) 10 [(shortBlock, .sent)]).1 rfl (.resp 3) (by decide)
    have hlt : 3 < 3 := hstep
    exact absurd hlt (Nat.lt_irrefl 3)
  · decide

end NfcStack.Rw.I93
