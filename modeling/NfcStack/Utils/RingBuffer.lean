import NfcStack.Lib.Run
import NfcStack.Lib.Ring

/- The ring buffer of the utilities (`ringbuffer.cc`). Head and tail are positions in the
   bytes at `base`; how many bytes are free is counted apart.

   What is proved:
     1. `holds_step`: an operation does what it does to a queue of bounded length.
     2. `ringbuffer_refines`: so does a run, from a new buffer on, if no peek adds up an
        offset and a length to 2^64 or more. -/
namespace NfcStack.Utils
open NfcStack.Lib

/-! ## The code -/

/-- `ringbuffer_t`. -/
structure RingBuffer where
  total : Nat
  available : Nat
  base : List UInt8
  head : Nat
  tail : Nat

/-- `ringbuffer_init`, if the memory can be allocated. -/
def ringbufferInit (size : Nat) : Option RingBuffer :=
  if size = 0 then none else some ⟨size, size, List.replicate size 0, 0, 0⟩

def ringbufferSize (rb : RingBuffer) : Nat := rb.total - rb.available

/-- One pass of the loop of `ringbuffer_insert`. -/
def insertByte (rb : RingBuffer) (b : UInt8) : RingBuffer :=
  { rb with
    base := rb.base.set rb.tail b
    tail := if rb.tail + 1 ≥ rb.total then 0 else rb.tail + 1 }

def ringbufferInsert (rb : RingBuffer) (p : List UInt8) : RingBuffer × Nat :=
  let length := if p.length > rb.available then rb.available else p.length
  ({ (p.take length).foldl insertByte rb with available := rb.available - length }, length)

def moveHead (rb : RingBuffer) (n : Nat) : RingBuffer :=
  { rb with
    head := if rb.head + n ≥ rb.total then rb.head + n - rb.total else rb.head + n
    available := rb.available + n }

def ringbufferDelete (rb : RingBuffer) (length : UInt64) : RingBuffer × Nat :=
  let length := if length.toNat > ringbufferSize rb then ringbufferSize rb else length.toNat
  (moveHead rb length, length)

/-- `bytes_to_copy`: the sum of the offset and the length is a `size_t`. -/
def bytesToCopy (rb : RingBuffer) (offset : Nat) (length : UInt64) : Nat :=
  if (offset + length.toNat) % 2 ^ 64 > ringbufferSize rb then ringbufferSize rb - offset else length.toNat

def copyBytes (rb : RingBuffer) : Nat → Nat → List UInt8
  | 0, _ => []
  | n + 1, b => rb.base.getD b 0 :: copyBytes rb n (if b + 1 ≥ rb.total then 0 else b + 1)

/-- `ringbuffer_peek`: how many bytes are copied, and which. -/
def ringbufferPeek (rb : RingBuffer) (offset : Nat) (length : UInt64) : Nat × List UInt8 :=
  (bytesToCopy rb offset length,
    copyBytes rb (bytesToCopy rb offset length) ((rb.head + offset) % rb.total))

def ringbufferPop (rb : RingBuffer) (length : UInt64) : RingBuffer × Nat × List UInt8 :=
  let r := ringbufferPeek rb 0 length
  (moveHead rb r.1, r)

/-! ## Runs -/

inductive RingOp where
  | insert (p : List UInt8)
  | peek (offset : Nat) (length : UInt64)
  | pop (length : UInt64)
  | delete (length : UInt64)

/-- One operation, with what it returns put down. None if an assertion fails. -/
def ringStep (s : RingBuffer × List (Nat × List UInt8)) (op : RingOp) : Option (RingBuffer × List (Nat × List UInt8)) :=
  match op with
  | .insert p =>
    let r := ringbufferInsert s.1 p
    some (r.1, s.2 ++ [(r.2, [])])
  | .peek offset length =>
    if offset ≤ ringbufferSize s.1 then some (s.1, s.2 ++ [ringbufferPeek s.1 offset length]) else none
  | .pop length =>
    let r := ringbufferPop s.1 length
    some (r.1, s.2 ++ [r.2])
  | .delete length =>
    let r := ringbufferDelete s.1 length
    some (r.1, s.2 ++ [(r.2, [])])

/-- The same for a queue of at most `total` bytes. -/
def queueStep (total : Nat) (s : List UInt8 × List (Nat × List UInt8)) : RingOp → List UInt8 × List (Nat × List UInt8)
  | .insert p => (s.1 ++ p.take (total - s.1.length), s.2 ++ [(min p.length (total - s.1.length), [])])
  | .peek offset length =>
    (s.1, s.2 ++ [(min length.toNat (s.1.length - offset), (s.1.drop offset).take length.toNat)])
  | .pop length => (s.1.drop length.toNat, s.2 ++ [(min length.toNat s.1.length, s.1.take length.toNat)])
  | .delete length => (s.1.drop length.toNat, s.2 ++ [(min length.toNat s.1.length, [])])

/-- The offset of a peek is not beyond the bytes that are there, and the sum is not too large. -/
def PeekFits (s : RingBuffer × List (Nat × List UInt8)) : RingOp → Prop
  | .peek offset length => offset ≤ ringbufferSize s.1 ∧ offset + length.toNat < 2 ^ 64
  | _ => True

/-! ## The queue in the buffer -/

section Queue
variable {rb : RingBuffer} {q : List UInt8} {total n : Nat}

/-- The buffer has the bytes of the queue. -/
structure Holds (total : Nat) (rb : RingBuffer) (q : List UInt8) : Prop where
  cap : rb.total = total
  length : rb.base.length = total
  ring : RingHolds rb.base rb.head q
  count : q.length + rb.available = total
  tail : rb.tail = (rb.head + q.length) % total

theorem Holds.size (h : Holds total rb q) : ringbufferSize rb = q.length := by
  have hcount := h.count
  unfold ringbufferSize
  rw [h.cap]
  omega

theorem Holds.pos (h : Holds total rb q) : rb.head < total := by
  rw [← h.length]
  exact h.ring.inside

theorem holds_init (hpos : 0 < total) : Holds total ⟨total, total, List.replicate total 0, 0, 0⟩ [] := by
  refine ⟨rfl, List.length_replicate, ringHolds_nil ?_, Nat.zero_add _, ?_⟩
  · rw [List.length_replicate]
    exact hpos
  · exact (Nat.zero_mod _).symm

theorem holds_insertByte (h : Holds total rb q) (hroom : q.length < total) (b : UInt8) :
    Holds total { insertByte rb b with available := rb.available - 1 } (q ++ [b]) := by
  have hring := h.ring.push (by rw [h.length]; exact hroom) b
  rw [h.length, ← h.tail] at hring
  have hcount := h.count
  have hpos : 0 < total := by omega
  refine ⟨h.cap, ?_, hring, ?_, ?_⟩
  · change (rb.base.set rb.tail b).length = total
    rw [List.length_set, h.length]
  · rw [List.length_append, List.length_singleton]
    change q.length + 1 + (rb.available - 1) = total
    omega
  · change (if rb.tail + 1 ≥ rb.total then 0 else rb.tail + 1) = (rb.head + (q ++ [b]).length) % total
    have htail : rb.tail < total := by
      rw [h.tail]
      exact Nat.mod_lt _ hpos
    have hwrap := ring_wrap htail (show 1 ≤ total from hpos)
    rw [List.length_append, List.length_singleton, ← Nat.add_assoc, ← Nat.mod_add_mod, ← h.tail, ← hwrap, h.cap]
    split
    · omega
    · rfl

theorem holds_insertLoop (p : List UInt8) : ∀ {rb : RingBuffer} {q : List UInt8}, Holds total rb q →
    q.length + p.length ≤ total →
    Holds total { p.foldl insertByte rb with available := rb.available - p.length } (q ++ p) := by
  induction p with
  | nil =>
    intro rb q h _
    rw [List.append_nil]
    exact h
  | cons b p ih =>
    intro rb q h hroom
    rw [List.length_cons] at hroom
    have hb := holds_insertByte h (by omega) b
    have hp := ih hb (by rw [List.length_append, List.length_singleton]; omega)
    -- the count does not matter to the loop
    have hloop : ∀ (p : List UInt8) (rb : RingBuffer) (n : Nat),
        p.foldl insertByte { rb with available := n } = { p.foldl insertByte rb with available := n } := by
      intro p
      induction p with
      | nil => exact fun _ _ => rfl
      | cons b p ih => exact fun rb n => ih (insertByte rb b) n
    rw [hloop, List.append_assoc] at hp
    rw [List.length_cons, Nat.add_comm p.length, ← Nat.sub_sub]
    exact hp

theorem holds_moveHead (h : Holds total rb q) (hn : n ≤ q.length) : Holds total (moveHead rb n) (q.drop n) := by
  have hcount := h.count
  have hwrap := ring_wrap h.pos (show n ≤ total by omega)
  have hhead : (moveHead rb n).head = (rb.head + n) % total := by
    unfold moveHead
    rw [h.cap]
    exact hwrap
  refine ⟨h.cap, h.length, ?_, ?_, ?_⟩
  · rw [hhead, ← h.length]
    exact h.ring.drop hn
  · rw [List.length_drop]
    change q.length - n + (rb.available + n) = total
    omega
  · rw [hhead, List.length_drop, Nat.mod_add_mod]
    change rb.tail = _
    rw [h.tail]
    congr 1
    omega

theorem copyBytes_eq (h : Holds total rb q) (n : Nat) : ∀ {offset : Nat}, offset + n ≤ q.length →
    copyBytes rb n ((rb.head + offset) % total) = (q.drop offset).take n := by
  induction n with
  | zero =>
    intro offset _
    rw [List.take_zero]
    rfl
  | succ n ih =>
    intro offset hn
    have hlt : offset < q.length := by omega
    have hpos : 0 < total := Nat.lt_of_le_of_lt (Nat.zero_le _) h.pos
    have hbyte := h.ring.elems offset hlt
    rw [h.length] at hbyte
    have hwrap := ring_wrap (Nat.mod_lt (rb.head + offset) hpos) (show 1 ≤ total from hpos)
    have hnext : (if (rb.head + offset) % total + 1 ≥ rb.total then 0 else (rb.head + offset) % total + 1)
        = (rb.head + (offset + 1)) % total := by
      rw [← Nat.add_assoc, ← Nat.mod_add_mod (rb.head + offset), ← hwrap, h.cap]
      have hmod := Nat.mod_lt (rb.head + offset) hpos
      split
      · omega
      · rfl
    rw [copyBytes, hnext, ih (by omega), List.drop_eq_getElem_cons hlt, List.take_succ_cons]
    congr 1
    rw [List.getD_eq_getElem?_getD, hbyte, List.getElem?_eq_getElem hlt]
    rfl

theorem peek_eq (h : Holds total rb q) {offset : Nat} {length : UInt64} (hoff : offset ≤ q.length)
    (hsum : offset + length.toNat < 2 ^ 64) :
    ringbufferPeek rb offset length =
      (min length.toNat (q.length - offset), (q.drop offset).take length.toNat) := by
  have hcopy : bytesToCopy rb offset length = min length.toNat (q.length - offset) := by
    unfold bytesToCopy
    rw [Nat.mod_eq_of_lt hsum, h.size]
    split <;> omega
  have htake : (q.drop offset).take length.toNat = (q.drop offset).take (min length.toNat (q.length - offset)) := by
    rw [← List.length_drop, List.take_eq_take_min]
  unfold ringbufferPeek
  rw [hcopy, h.cap, copyBytes_eq h _ (by omega), htake]

theorem pop_eq (h : Holds total rb q) (length : UInt64) :
    ringbufferPeek rb 0 length = (min length.toNat q.length, q.take length.toNat) := by
  have hlt := length.toNat_lt
  rw [peek_eq h (Nat.zero_le _) (by omega), Nat.sub_zero, List.drop_zero]

theorem holds_step (s : RingBuffer × List (Nat × List UInt8)) (a : List UInt8 × List (Nat × List UInt8)) (op : RingOp)
    (h : Holds total s.1 a.1 ∧ s.2 = a.2) (hfits : PeekFits s op) :
    ∃ t, ringStep s op = some t ∧ Holds total t.1 (queueStep total a op).1 ∧ t.2 = (queueStep total a op).2 := by
  obtain ⟨rb, log⟩ := s
  obtain ⟨q, log'⟩ := a
  obtain ⟨h, rfl⟩ := h
  have hcount := h.count
  dsimp only at h hcount
  cases op with
  | insert p =>
    have hlen : (if p.length > rb.available then rb.available else p.length) = min p.length (total - q.length) := by
      split <;> omega
    have htake : p.take (total - q.length) = p.take (min p.length (total - q.length)) := by
      rw [List.take_eq_take_min, Nat.min_comm]
    have hloop := holds_insertLoop (p.take (min p.length (total - q.length))) h (by rw [List.length_take]; omega)
    rw [List.length_take, Nat.min_eq_left (Nat.min_le_left _ _)] at hloop
    refine ⟨_, rfl, ?_, ?_⟩
    · unfold ringbufferInsert queueStep
      dsimp only
      rw [hlen, htake]
      exact hloop
    · unfold ringbufferInsert queueStep
      dsimp only
      rw [hlen]
  | peek offset length =>
    obtain ⟨hoff, hsum⟩ := hfits
    dsimp only at hoff
    refine ⟨(rb, log ++ [ringbufferPeek rb offset length]), if_pos hoff, h, ?_⟩
    rw [h.size] at hoff
    dsimp only [queueStep]
    rw [peek_eq h hoff hsum]
  | pop length =>
    refine ⟨_, rfl, ?_, ?_⟩
    · unfold ringbufferPop queueStep
      dsimp only
      rw [pop_eq h, List.drop_eq_drop_min]
      exact holds_moveHead h (Nat.min_le_right _ _)
    · unfold ringbufferPop queueStep
      dsimp only
      rw [pop_eq h]
  | delete length =>
    have hlen : (if length.toNat > ringbufferSize rb then ringbufferSize rb else length.toNat)
        = min length.toNat q.length := by
      rw [h.size]
      split <;> omega
    refine ⟨_, rfl, ?_, ?_⟩
    · unfold ringbufferDelete queueStep
      dsimp only
      rw [hlen, List.drop_eq_drop_min]
      exact holds_moveHead h (Nat.min_le_right _ _)
    · unfold ringbufferDelete queueStep
      dsimp only
      rw [hlen]

end Queue

/-- **A queue of bounded length.** What the operations of a run return, and what the buffer has behind them,
is as for a queue, and the bytes that are there and those that are free add up to the capacity. -/
theorem ringbuffer_refines {size : Nat} {rb : RingBuffer} {ops : List RingOp} (hinit : ringbufferInit size = some rb)
    (hok : StepsOk ringStep PeekFits (rb, []) ops) :
    ∃ t, run ringStep (rb, []) ops = some t ∧
      (copyBytes t.1 (ringbufferSize t.1) t.1.head, t.2) = ops.foldl (queueStep size) ([], []) ∧
      ringbufferSize t.1 + t.1.available = size := by
  unfold ringbufferInit at hinit
  split at hinit
  · cases hinit
  · rename_i hpos
    obtain rfl := Option.some.inj hinit
    obtain ⟨t, hrun, hholds, hlog⟩ :=
      run_simulates (R := fun s a => Holds size s.1 a.1 ∧ s.2 = a.2) holds_step ops _ ([], [])
        ⟨holds_init (Nat.pos_of_ne_zero hpos), rfl⟩ hok
    refine ⟨t, hrun, ?_, ?_⟩
    · have hcopy := copyBytes_eq hholds (ops.foldl (queueStep size) ([], [])).1.length (by rw [Nat.zero_add])
      rw [Nat.add_zero, Nat.mod_eq_of_lt hholds.pos, List.drop_zero, List.take_length] at hcopy
      rw [hholds.size, hcopy, hlog]
    · rw [hholds.size]
      exact hholds.count

/-- Around the end of a buffer of four bytes. -/
theorem ringbuffer_refines_four : ∃ t, run ringStep (⟨4, 4, List.replicate 4 0, 0, 0⟩, [])
      [.insert [1, 2, 3], .delete 2, .insert [4, 5, 6, 7], .peek 1 2, .pop 9] = some t ∧
    (copyBytes t.1 (ringbufferSize t.1) t.1.head, t.2) =
      ([], [(3, []), (2, []), (3, []), (2, [4, 5]), (4, [3, 4, 5, 6])]) ∧
    ringbufferSize t.1 + t.1.available = 4 := by
  have hok : StepsOk ringStep PeekFits (⟨4, 4, List.replicate 4 0, 0, 0⟩, [])
      [.insert [1, 2, 3], .delete 2, .insert [4, 5, 6, 7], .peek 1 2, .pop 9] := by
    refine ⟨trivial, fun _ h => ?_⟩
    obtain rfl := Option.some.inj h
    refine ⟨trivial, fun _ h => ?_⟩
    obtain rfl := Option.some.inj h
    refine ⟨trivial, fun _ h => ?_⟩
    obtain rfl := Option.some.inj h
    refine ⟨⟨by decide, by decide⟩, fun _ h => ?_⟩
    obtain rfl := Option.some.inj h
    exact ⟨trivial, fun _ _ => trivial⟩
  exact @ringbuffer_refines 4 _ _ rfl hok

/-- The longest length there is, at offset 1: the sum is 0, and more bytes are copied than there are. -/
theorem peek_sum_wraps :
    ringbufferInit 4 = some ⟨4, 4, [0, 0, 0, 0], 0, 0⟩ ∧
      (ringbufferPeek (ringbufferInsert ⟨4, 4, [0, 0, 0, 0], 0, 0⟩ [1, 2, 3]).1 1 (UInt64.ofNat (2 ^ 64 - 1))).1
        = 2 ^ 64 - 1 ∧
      (queueStep 4 (queueStep 4 ([], []) (.insert [1, 2, 3])) (.peek 1 (UInt64.ofNat (2 ^ 64 - 1)))).2
        = [(3, []), (2, [2, 3])] := by
  refine ⟨rfl, ?_, ?_⟩
  · decide +kernel
  · decide +kernel

end NfcStack.Utils
