import NfcStack.Ndef.Accepted
import NfcStack.Ndef.Payload

/- Payload edits of messages that were received (`ndef_utils.cc`: `NDEF_MsgAppendPayload`,
   `NDEF_MsgReplacePayload`). Such a message may have a payload length in four bytes where
   one byte would do. The code goes by the length of the payload and not by the SR bit, so
   that it takes the first of the four bytes for the whole field.

   What is proved:
     1. `Received.seat`: a record of an accepted message, at its place.
     2. `append_tight`, `replace_tight`: the edits of a record with its length in the form
        that the code expects.
     3. `append_loose`, `replace_loose`: and of one with a short payload and a long length.
     4. `payload_edits`: exactly when the two functions do what they should. -/
namespace NfcStack.Ndef
open NfcStack.Lib

/-! ## The edit that is meant -/

/-- The same record but for the payload and the form of its length. -/
structure Rec.Like (r' r : Rec) : Prop where
  hdr : r'.hdr ||| ndefSrMask = r.hdr ||| ndefSrMask
  type : r'.type = r.type
  id : r'.id = r.id

/-- The message is the same but for the payload of the record between `A` and `B`. -/
def Edited (A B : List Rec) (r : Rec) (P : Bytes → Prop) (res : Option (NdefStatus × Msg)) : Prop :=
  ∃ m' r', res = some (.ok, m') ∧ m'.mem.take m'.curSize = recsBytes (A ++ r' :: B) ∧ r'.Like r ∧ P r'.payload

def Room (maxSize : Nat) (A B : List Rec) (r : Rec) (n : Nat) : Prop :=
  ∃ r' : Rec, r'.Like r ∧ r'.payload.length = n ∧ recsLen (A ++ r' :: B) ≤ maxSize

/-- What stands `k` bytes behind the last three bytes of the message, when three bytes of the buffer
are lost in between, is these three bytes. -/
def TailStands (m : Msg) (k : Nat) : Prop :=
  slice (slice m.mem (m.curSize - 3) 3 ++ m.mem.drop (m.curSize + 3)) k 3 = slice m.mem (m.curSize - 3) 3

/-- The payloads that can be appended: with the length in one byte, those that leave it there, or
if no records follow, or if their last bytes happen to stand where they should; with the length in
four bytes, those behind a payload that needs them. -/
def AppendOk (m : Msg) (B : List Rec) (r : Rec) (k : Nat) : Prop :=
  if has r.hdr ndefSrMask then r.payload.length + k < 256 ∨ B = [] ∨ TailStands m k
  else 256 ≤ r.payload.length ∨ r.payload.length + k = 0

/-- The payloads that can be put in: a payload that is short with its length in four bytes can be
replaced only by one as long; and where the length field becomes shorter, the byte behind the
message must be one of the buffer. -/
def ReplaceOk (m : Msg) (r : Rec) (n : Nat) : Prop :=
  (has r.hdr ndefSrMask ∨ 256 ≤ r.payload.length ∨ n = r.payload.length) ∧
    (255 < r.payload.length → n < 256 → m.curSize < m.mem.length)

/-! ## A record of the message -/

structure Received (maxSize : Nat) (m : Msg) (A : List Rec) (r : Rec) (B : List Rec) : Prop where
  bytes : m.mem.take m.curSize = recsBytes (A ++ r :: B)
  ends : EndsOnce (A ++ r :: B)
  le : m.curSize ≤ maxSize
  room : maxSize ≤ m.mem.length
  lt : maxSize < 4294967296

section Records
variable {maxSize p : Nat} {m m' : Msg} {A B : List Rec} {r r' : Rec} {post junk : Bytes}

theorem recsBytes_place (A : List Rec) (r : Rec) (B : List Rec) :
    recsBytes (A ++ r :: B) = recsBytes A ++ r.bytes ++ recsBytes B := by
  rw [recsBytes_append, recsBytes_cons, List.append_assoc]

theorem recsLen_place (A : List Rec) (r : Rec) (B : List Rec) :
    recsLen (A ++ r :: B) = recsLen A + r.bytes.length + recsLen B := by
  rw [recsLen_append, recsLen_cons, Nat.add_assoc]

namespace Received

theorem curSize_eq (h : Received maxSize m A r B) : m.curSize = recsLen A + r.bytes.length + recsLen B := by
  have hlen := congrArg List.length h.bytes
  have hle := h.le
  have hroom := h.room
  rw [List.length_take, Nat.min_eq_left (by omega)] at hlen
  rw [hlen]
  exact recsLen_place A r B

theorem last_iff (h : Received maxSize m A r B) : r.me ↔ B = [] := by
  rcases (h.ends.suffix (List.cons_ne_nil r B)).cases with ⟨rfl, hme⟩ | ⟨hne, hme, -⟩
  · exact iff_of_true hme rfl
  · exact iff_of_false hme hne

theorem seat (h : Received maxSize m A r B) :
    Seat m (recsLen A) r (recsBytes A) (recsBytes B) (m.mem.drop m.curSize) := by
  have hle := h.le
  have hlt := h.lt
  refine ⟨?_, rfl, h.curSize_eq, fun hme => ?_, by omega⟩
  · rw [← recsBytes_place, ← h.bytes, List.take_append_drop]
  · rw [h.last_iff.mp hme]
    rfl

end Received

theorem three_le_recsBytes (hne : B ≠ []) : 3 ≤ (recsBytes B).length := by
  have hlen := length_le_recsLen B
  have hpos := List.length_pos_iff.mpr hne
  unfold recsLen at hlen
  omega

namespace Rec

theorem Like.refl (r : Rec) : r.Like r := ⟨rfl, rfl, rfl⟩

theorem Like.il (h : r'.Like r) : has r'.hdr ndefIlMask ↔ has r.hdr ndefIlMask := by
  rw [← (sr_bits r'.hdr).2.2.2.1, h.hdr, (sr_bits r.hdr).2.2.2.1]

theorem like_withPayload {bs : Bytes} (hlt : bs.length < 4294967296) : (r.withPayload bs hlt).Like r :=
  ⟨r.hdrFor_or _, rfl, rfl⟩

theorem Like.length (h : r'.Like r) : r'.bytes.length =
    2 + (if has r'.hdr ndefSrMask then 1 else 4) + r.mid.length + r'.payload.length := by
  have hmid : r.mid.length = (if has r.hdr ndefIlMask then 1 else 0) + r.type.length + r.id.length := by
    unfold mid idField
    split <;> simp only [List.length_append, List.length_singleton, List.length_nil]
  rw [r'.length_bytes, r'.length_head, hmid, if_congr h.il rfl rfl, h.type, h.id]
  omega

theorem stream_small {n : Nat} (hn : n < 256) : uint32ToBeStream (UInt32.ofNat n) = [0, 0, 0, UInt8.ofNat n] := by
  simp only [uint32ToBeStream, List.cons.injEq, and_true, ← UInt8.toNat_inj]
  refine ⟨?_, ?_, ?_, ?_⟩ <;> simp [Nat.shiftRight_eq_div_pow] <;> omega

theorem loose_bytes (hsr : ¬ has r.hdr ndefSrMask) (hn : r.payload.length < 256) :
    r.bytes = r.hdr :: UInt8.ofNat r.type.length :: 0 :: 0 :: 0 :: UInt8.ofNat r.payload.length ::
      (r.mid ++ r.payload) := by
  rw [bytes, head, lenField, if_neg hsr, stream_small hn, mid]
  simp

end Rec

theorem Seat.take (h : Seat m p r (recsBytes A) post junk) :
    m.mem.take m.curSize = recsBytes A ++ (r.bytes ++ post) := by
  have hlen : m.curSize = (recsBytes A ++ r.bytes ++ post).length := by
    rw [h.size]
    simp only [List.length_append]
  rw [h.mem, hlen, List.take_left, List.append_assoc]

/-- Whether the message with the new record is the one that is meant. -/
theorem edited_iff {P : Bytes → Prop} (h : Seat m' p r' (recsBytes A) post junk) (hlike : r'.Like r)
    (hP : P r'.payload) : Edited A B r P (some (.ok, m')) ↔ post = recsBytes B := by
  constructor
  · rintro ⟨m'', r'', hres, htake, -, -⟩
    obtain rfl : m' = m'' := congrArg Prod.snd (Option.some.inj hres)
    rw [h.take, recsBytes_place, List.append_assoc, List.append_cancel_left_eq] at htake
    exact (Rec.bytes_append_inj htake).2
  · intro hpost
    refine ⟨m', r', rfl, ?_, hlike, hP⟩
    rw [h.take, hpost, recsBytes_place, List.append_assoc]

/-- The size of the message and the bytes of the record, where the edit is the one that is meant. -/
theorem edited_at (htake : m'.mem.take m'.curSize = recsBytes (A ++ r' :: B)) (hle : m'.curSize ≤ m'.mem.length) :
    m'.curSize = recsLen A + r'.bytes.length + recsLen B ∧
      ∀ j < r'.bytes.length, m'.mem[recsLen A + j]? = r'.bytes[j]? := by
  have hlen := congrArg List.length htake
  rw [List.length_take, Nat.min_eq_left hle] at hlen
  have hcur : m'.curSize = recsLen A + r'.bytes.length + recsLen B := hlen.trans (recsLen_place A r' B)
  refine ⟨hcur, fun j hj => ?_⟩
  have hget : (m'.mem.take m'.curSize)[recsLen A + j]? = (recsBytes (A ++ r' :: B))[recsLen A + j]? := by
    rw [htake]
  rwa [List.getElem?_take_of_lt (by omega), recsBytes_place, List.append_assoc, recsLen, get_append,
    List.getElem?_append_left hj] at hget

/-- The new message fits in the form that the code gives it. -/
theorem Room.sizeFor_le {n : Nat} (h : Room maxSize A B r n) :
    r.sizeFor (recsBytes A) (recsBytes B) n ≤ maxSize := by
  obtain ⟨r', hlike, rfl, hle⟩ := h
  have hlen := hlike.length
  have hsr := r'.payload_lt
  rw [recsLen_place] at hle
  unfold Rec.sizeFor Rec.payloadAt
  change recsLen A + _ + recsLen B ≤ maxSize
  split_ifs at hlen hsr ⊢ <;> omega

/-! ## Records in the form that the code expects -/

theorem append_tight (h : Received maxSize m A r B) (ht : r.Tight) {bs : Bytes}
    (hroom : Room maxSize A B r (r.payload.length + bs.length)) :
    Edited A B r (· = r.payload ++ bs) (ndefMsgAppendPayload m maxSize (recsLen A) bs) ↔ AppendOk m B r bs.length := by
  have hfit := hroom.sizeFor_le
  have hlt := h.lt
  have hsize : m.curSize + appendGrowth r.payload.length bs.length =
      r.sizeFor (recsBytes A) (recsBytes B) (r.payload.length + bs.length) := by
    rw [h.seat.size, ht.length]
    unfold Rec.sizeFor Rec.payloadAt appendGrowth
    split_ifs <;> omega
  obtain ⟨-, hok⟩ := appendPayload_writes h.seat ht h.room bs (by omega)
    fun _ _ _ hme => three_le_recsBytes fun hB => hme (h.last_iff.mpr hB)
  obtain ⟨m', post', junk', hlt', hres, hseat, -, -, hpost⟩ := hok (by omega)
  have hiff := edited_iff (B := B) (P := (· = r.payload ++ bs)) hseat (Rec.like_withPayload hlt') rfl
  rw [hres, hiff, hpost, AppendOk]
  by_cases hsr : has r.hdr ndefSrMask
  · rw [if_pos hsr]
    have hn : r.payload.length < 256 := ht.mp hsr
    by_cases hw : r.payload.length + bs.length > 255 ∧ ¬ r.me
    · have hne : B ≠ [] := fun hB => hw.2 (h.last_iff.mpr hB)
      rw [if_pos ⟨hn, hw⟩]
      have htail : slice m.mem (m.curSize - 3) 3 = (recsBytes B).drop ((recsBytes B).length - 3) := by
        have hthree := three_le_recsBytes hne
        have hassoc : m.mem = (recsBytes A ++ r.bytes ++ (recsBytes B).take ((recsBytes B).length - 3)) ++
            (recsBytes B).drop ((recsBytes B).length - 3) ++ m.mem.drop m.curSize := by
          conv_lhs => rw [h.seat.mem]
          simp
        have hat : m.curSize - 3 =
            (recsBytes A ++ r.bytes ++ (recsBytes B).take ((recsBytes B).length - 3)).length := by
          rw [h.seat.size]
          simp only [List.length_append, List.length_take]
          omega
        conv_lhs => rw [hassoc]
        exact slice_append hat (by simp; omega)
      have hsplit : recsBytes B = (recsBytes B).take ((recsBytes B).length - 3) ++
          (recsBytes B).drop ((recsBytes B).length - 3) := (List.take_append_drop _ _).symm
      have hlost : lost (recsBytes B) (m.mem.drop m.curSize) bs.length = recsBytes B ↔ TailStands m bs.length := by
        rw [TailStands, htail, lost, List.drop_drop]
        conv_lhs => rhs; rw [hsplit]
        rw [List.append_cancel_left_eq]
      rw [hlost]
      refine ⟨fun hs => .inr (.inr hs), fun hs => ?_⟩
      rcases hs with hs | hs | hs
      · omega
      · exact absurd hs hne
      · exact hs
    · rw [if_neg fun hc => hw hc.2]
      refine iff_of_true rfl ?_
      by_cases hbig : r.payload.length + bs.length > 255
      · exact .inr (.inl (h.last_iff.mp (not_not.mp fun hme => hw ⟨hbig, hme⟩)))
      · exact .inl (by omega)
  · have hn : ¬ r.payload.length < 256 := fun hn => hsr (ht.mpr hn)
    rw [if_neg hsr, if_neg fun hc => hn hc.1]
    exact iff_of_true rfl (.inl (by omega))

theorem replace_tight (h : Received maxSize m A r B) (ht : r.Tight) {src : Src}
    (hroom : Room maxSize A B r src.len) :
    Edited A B r src.Gives (ndefMsgReplacePayload m maxSize (recsLen A) src) ↔ ReplaceOk m r src.len := by
  have hfit := hroom.sizeFor_le
  have hlt := h.lt
  have hle := h.le
  have hmax := h.room
  have hform : has r.hdr ndefSrMask ∨ 256 ≤ r.payload.length ∨ src.len = r.payload.length := by
    by_cases hsr : has r.hdr ndefSrMask
    · exact .inl hsr
    · refine .inr (.inl ?_)
      by_contra hn
      exact hsr (ht.mpr (by omega))
  by_cases hclean : 255 < r.payload.length → src.len < 256 → m.curSize < m.mem.length
  · obtain ⟨-, hok⟩ := replacePayload_writes h.seat ht h.room h.le src (by omega) hclean
    obtain ⟨m', field, junk', hlt', hres, hseat, -, -, hgives⟩ := hok hfit
    rw [hres]
    exact iff_of_true ((edited_iff hseat (Rec.like_withPayload hlt') hgives).mpr rfl) ⟨hform, hclean⟩
  · refine iff_of_false (fun hed => ?_) fun hc => hclean hc.2
    push Not at hclean
    obtain ⟨hprev, hnew, hfull⟩ := hclean
    obtain ⟨m', r', hres, -⟩ := hed
    -- the byte behind the message is read
    have hnone : shrinkPayload m (recsLen A) r.payload.length (recsLen A + r.payloadAt r.payload.length) src.len =
        none := by
      have hsize := h.curSize_eq
      have hlen := ht.length
      rw [Rec.payloadAt, if_neg (by omega)] at hlen
      have hcount : u32 ((m.curSize : Int) - (recsLen A + 2 : Nat) - 3) = m.curSize - recsLen A - 5 :=
        u32_eq (by omega) (by omega)
      unfold shrinkPayload
      dsimp only
      rw [if_pos ⟨hprev, hnew⟩, hcount, shiftup_none _ (by omega) (by omega)]
      rfl
    rw [ndefMsgReplacePayload, h.seat.readRecHdr, Option.bind_some] at hres
    dsimp only at hres
    rw [r.toNat_payloadLen, r.toNat_typeLen, r.toNat_idLen, ht.head_eq, if_neg (by omega), if_pos (by omega),
      hnone] at hres
    cases hres

end Records

/-! ## A short payload with a long length -/

section Loose
variable {maxSize p : Nat} {m m' : Msg} {mem mem' : Bytes}

theorem storeLen_keeps {n : Nat} (h : storeLen mem p n = some mem') :
    Keeps p mem mem' ∧ (n ≤ 255 → mem' = mem.set p (UInt8.ofNat n) ∧ p < mem.length) := by
  unfold storeLen at h
  split at h
  case isTrue hn => exact ⟨memcpy_keeps h, fun hle => absurd hn (by omega)⟩
  case isFalse hn => exact ⟨store_keeps h, fun _ => store_some h⟩

theorem unlessLast_keeps {n : Nat} {shift : Bytes → Option Bytes}
    (hshift : ∀ mem', shift mem = some mem' → Keeps n mem mem') (h : unlessLast mem p shift = some mem') :
    Keeps n mem mem' := by
  obtain ⟨hdr, -, h⟩ := Option.bind_eq_some_iff.mp h
  split at h
  · obtain rfl := Option.some.inj h
    exact .refl n _
  · exact hshift mem' h

theorem Keeps.storedLen {n k : Nat} (hs : storeLen mem p n = some mem') {mem'' : Bytes} (hk : Keeps k mem' mem'')
    (hp : p < k) (hn : n ≤ 255) : mem''[p]? = some (UInt8.ofNat n) := by
  obtain ⟨rfl, hin⟩ := (storeLen_keeps hs).2 hn
  rw [hk.below p hp, List.getElem?_set_self hin]

theorem appendPayload_ok {h : RecHdr} {bs : Bytes} (hread : readRecHdr m.mem p = some h)
    (hnew : h.payloadLen.toNat + bs.length < 4294967296)
    (hok : ndefMsgAppendPayload m maxSize p bs = some (.ok, m')) :
    m'.curSize = u32 (m.curSize + bs.length +
        (if h.payloadLen.toNat < 256 ∧ h.payloadLen.toNat + bs.length > 255 then 3 else 0 : Nat)) ∧
      m'.curSize ≤ maxSize ∧ m'.mem.length = m.mem.length ∧
      (h.payloadLen.toNat + bs.length ≤ 255 → p + 3 ≤ h.body →
        m'.mem[p + 2]? = some (UInt8.ofNat (h.payloadLen.toNat + bs.length))) := by
  have hsum : u32 ((h.payloadLen.toNat : Int) + bs.length) = h.payloadLen.toNat + bs.length := u32_eq (by simp) hnew
  rw [ndefMsgAppendPayload, hread, Option.bind_some] at hok
  dsimp only at hok
  rw [hsum] at hok
  set incr : Nat := if h.payloadLen.toNat < 256 ∧ h.payloadLen.toNat + bs.length > 255 then 3 else 0 with hincr
  by_cases hbig : u32 ((m.curSize : Int) + bs.length + incr) > maxSize
  · rw [if_pos hbig] at hok
    cases hok
  rw [if_neg hbig] at hok
  obtain ⟨mem₁, h₁, hok⟩ := Option.bind_eq_some_iff.mp hok
  obtain ⟨mem₂, h₂, hok⟩ := Option.bind_eq_some_iff.mp hok
  obtain ⟨mem₃, h₃, hok⟩ := Option.bind_eq_some_iff.mp hok
  obtain ⟨mem₄, h₄, hok⟩ := Option.bind_eq_some_iff.mp hok
  obtain ⟨mem₅, h₅, hok⟩ := Option.map_eq_some_iff.mp hok
  obtain rfl : _ = m' := congrArg Prod.snd hok
  have hk₁ : Keeps 0 m.mem mem₁ := by
    split at h₁
    · exact (shiftdown_keeps _ h₁).mono (Nat.zero_le _)
    · obtain rfl := Option.some.inj h₁
      exact .refl 0 _
  have hk₂ : Keeps 0 mem₁ mem₂ := by
    split at h₂
    · exact (modify_keeps h₂).mono (Nat.zero_le _)
    · obtain rfl := Option.some.inj h₂
      exact .refl 0 _
  have hk₄ := unlessLast_keeps (fun mem' hs => shiftdown_keeps _ hs) h₄
  have hk₅ := memcpy_keeps h₅
  refine ⟨rfl, by dsimp only; omega, ?_, fun hn hp => ?_⟩
  · dsimp only
    rw [hk₅.length, hk₄.length, (storeLen_keeps h₃).1.length, hk₂.length, hk₁.length]
  · have hbehind : p + 3 ≤ (if incr ≠ 0 then h.body + h.typeLen.toNat + h.idLen.toNat + 3
        else h.body + h.typeLen.toNat + h.idLen.toNat) + h.payloadLen.toNat := by
      split <;> omega
    exact ((hk₄.mono (by omega)).trans (hk₅.mono hbehind)).storedLen h₃ (by omega) hn

theorem growPayload_ok {prev q n q' : Nat} (hgrow : prev < n)
    (hok : growPayload m maxSize p prev q n = some (.ok, m', q')) :
    m'.curSize = u32 (m.curSize + (n - prev : Nat) + (if prev < 256 ∧ n > 255 then 3 else 0)) ∧
      m'.curSize ≤ maxSize ∧ m'.mem.length = m.mem.length ∧ q ≤ q' ∧
      (n ≤ 255 → p + 3 ≤ q → m'.mem[p + 2]? = some (UInt8.ofNat n)) := by
  unfold growPayload at hok
  dsimp only at hok
  by_cases hbig : u32 ((m.curSize : Int) + (n - prev : Nat) + (if prev < 256 ∧ n > 255 then 3 else 0)) > maxSize
  · rw [if_pos hbig] at hok
    cases hok
  rw [if_neg hbig] at hok
  obtain ⟨⟨m₁, q₁⟩, h₁, hok⟩ := Option.bind_eq_some_iff.mp hok
  dsimp only at hok
  obtain ⟨mem₂, h₂, hok⟩ := Option.bind_eq_some_iff.mp hok
  obtain ⟨mem₃, h₃, hok⟩ := Option.map_eq_some_iff.mp hok
  obtain ⟨rfl, rfl⟩ := Prod.mk.inj (Prod.mk.inj hok).2
  obtain ⟨hlen₁, hq, hcur⟩ : m₁.mem.length = m.mem.length ∧ q ≤ q₁ ∧
      u32 ((m₁.curSize : Int) + (n - prev : Nat)) =
        u32 ((m.curSize : Int) + (n - prev : Nat) + (if prev < 256 ∧ n > 255 then 3 else 0)) := by
    by_cases hw : prev < 256 ∧ n > 255
    · rw [if_pos hw] at h₁ ⊢
      obtain ⟨mem', hs, h₁⟩ := Option.bind_eq_some_iff.mp h₁
      obtain ⟨mem'', hmod, h₁⟩ := Option.map_eq_some_iff.mp h₁
      obtain ⟨rfl, rfl⟩ := Prod.mk.inj h₁
      refine ⟨?_, by omega, ?_⟩
      · dsimp only
        rw [(modify_keeps hmod).length, (shiftdown_keeps _ hs).length]
      · unfold u32
        dsimp only
        omega
    · rw [if_neg hw] at h₁ ⊢
      obtain ⟨rfl, rfl⟩ := Prod.mk.inj (Option.some.inj h₁)
      exact ⟨rfl, le_rfl, by rw [Int.add_zero]⟩
  have hk₃ := unlessLast_keeps (fun mem' hs => shiftdown_keeps _ hs) h₃
  refine ⟨hcur, by dsimp only; omega, ?_, hq, fun hn hp => ?_⟩
  · dsimp only
    rw [hk₃.length, (storeLen_keeps h₂).1.length, hlen₁]
  · exact (hk₃.mono (show p + 3 ≤ _ by omega)).storedLen h₂ (by omega) hn

/-- A payload that was short becomes shorter: of the length field, the first byte only is stored. -/
theorem shrinkPayload_ok {prev q n q' : Nat} (hshrink : n < prev) (hprev : prev ≤ 255) (hq : p + 6 ≤ q)
    (hle : m.curSize < 4294967296) (hcur : prev ≤ m.curSize)
    (hok : shrinkPayload m p prev q n = some (.ok, m', q')) :
    m'.curSize = m.curSize - (prev - n) ∧ m'.mem.length = m.mem.length ∧ q' = q ∧
      m'.mem[p + 2]? = some (UInt8.ofNat n) ∧ m'.mem[p + 5]? = m.mem[p + 5]? := by
  have hu : u32 ((m.curSize : Int) - (prev - n : Nat)) = m.curSize - (prev - n) := u32_eq (by omega) (by omega)
  unfold shrinkPayload at hok
  dsimp only at hok
  rw [if_neg (by omega), Option.bind_some] at hok
  dsimp only at hok
  obtain ⟨mem₁, h₁, hok⟩ := Option.bind_eq_some_iff.mp hok
  obtain ⟨mem₂, h₂, hok⟩ := Option.map_eq_some_iff.mp hok
  obtain ⟨rfl, rfl⟩ := Prod.mk.inj (Prod.mk.inj hok).2
  have hk := unlessLast_keeps (fun mem' hs => shiftup_keeps _ hs) h₂
  obtain ⟨hstored, -⟩ := (storeLen_keeps h₁).2 (by omega)
  refine ⟨hu, by dsimp only; rw [hk.length, (storeLen_keeps h₁).1.length], rfl, ?_, ?_⟩
  · exact (hk.mono (show p + 3 ≤ _ by omega)).storedLen h₁ (by omega) (by omega)
  · dsimp only
    rw [hk.below (p + 5) (by omega), hstored, List.getElem?_set_ne (by omega)]

end Loose

section Edits
variable {maxSize : Nat} {m m' : Msg} {A B : List Rec} {r r' : Rec}

theorem Received.lens (h : Received maxSize m A r B) (hsr : ¬ has r.hdr ndefSrMask) :
    m.curSize = recsLen A + (6 + r.mid.length + r.payload.length) + recsLen B ∧
      recsLen A + r.head.length + r.type.length + r.id.length = recsLen A + (6 + r.mid.length) ∧ 6 ≤ r.head.length := by
  have hlen := (Rec.Like.refl r).length
  have hbytes := r.length_bytes
  have hhead := r.length_head
  rw [if_neg hsr] at hlen hhead
  refine ⟨?_, by omega, by omega⟩
  rw [h.curSize_eq, hlen]

/-- If the size is that of the message with the long form, the payload length is in four bytes again. -/
theorem loose_at (hlike : r'.Like r) (hshort : r'.payload.length < 256) (hle : m'.curSize ≤ m'.mem.length)
    (htake : m'.mem.take m'.curSize = recsBytes (A ++ r' :: B))
    (hcur : m'.curSize + 3 ≠ recsLen A + (6 + r.mid.length + r'.payload.length) + recsLen B) :
    m'.curSize = recsLen A + (6 + r.mid.length + r'.payload.length) + recsLen B ∧
      m'.mem[recsLen A + 2]? = some 0 ∧ m'.mem[recsLen A + 5]? = some (UInt8.ofNat r'.payload.length) := by
  obtain ⟨hsize, hget⟩ := edited_at htake hle
  have hlen := hlike.length
  have hsr : ¬ has r'.hdr ndefSrMask := by
    intro hs
    rw [if_pos hs] at hlen
    omega
  rw [if_neg hsr] at hlen
  refine ⟨by omega, ?_, ?_⟩
  · rw [hget 2 (by omega), Rec.loose_bytes hsr hshort]
    rfl
  · rw [hget 5 (by omega), Rec.loose_bytes hsr hshort]
    rfl

theorem ofNat_eq_zero {n : Nat} (hn : n < 256) (h : UInt8.ofNat n = 0) : n = 0 := by
  have := congrArg UInt8.toNat h
  simp at this
  omega

theorem edited_same (h : Received maxSize m A r B) {P : Bytes → Prop} (hP : P r.payload) :
    Edited A B r P (some (.ok, m)) := (edited_iff h.seat (.refl r) hP).mpr rfl

theorem append_nothing (h : Received maxSize m A r B) (hsr : ¬ has r.hdr ndefSrMask) (hnil : r.payload = []) :
    ndefMsgAppendPayload m maxSize (recsLen A) [] = some (.ok, m) := by
  obtain ⟨hcur, hpay, hhead⟩ := h.lens hsr
  have hle := h.le
  have hlt := h.lt
  have hmax := h.room
  have hlen : r.payload.length = 0 := List.length_eq_zero_iff.mpr hnil
  have hsize : u32 ((m.curSize : Int) + (0 : Nat) + (0 : Nat)) = m.curSize := u32_eq (by omega) (by omega)
  have hget : m.mem[recsLen A + 2]? = some 0 := by
    obtain ⟨-, hget⟩ := edited_at h.bytes (by omega)
    rw [hget 2 (by have := r.three_le_length; omega), Rec.loose_bytes hsr (by omega)]
    rfl
  have hstore : storeLen m.mem (recsLen A + 2) 0 = some m.mem := by
    obtain ⟨hin, hbyte⟩ := List.getElem?_eq_some_iff.mp hget
    rw [storeLen, if_neg (by omega), store, if_pos hin]
    congr 1
    exact (congrArg (m.mem.set (recsLen A + 2)) hbyte.symm).trans (List.set_getElem_self hin)
  have hshift : unlessLast m.mem (recsLen A) (fun mem => shiftdown mem (recsLen A + (6 + r.mid.length) + 0)
      (u32 (m.curSize - (recsLen A + (6 + r.mid.length) + 0 : Nat))) 0) = some m.mem := by
    have hcount : u32 ((m.curSize : Int) - (recsLen A + (6 + r.mid.length) + 0 : Nat)) = recsLen B :=
      u32_eq (by omega) (by omega)
    rw [unlessLast, h.seat.stands.hdr, Option.bind_some, hcount, shiftdown_zero (by omega), ite_self]
  have hcopy : memcpy m.mem (recsLen A + (6 + r.mid.length) + 0) [] = some m.mem := by
    rw [memcpy, if_pos (by rw [List.length_nil]; omega), blit]
    simp
  rw [ndefMsgAppendPayload, h.seat.readRecHdr, Option.bind_some]
  dsimp only
  rw [r.toNat_payloadLen, r.toNat_typeLen, r.toNat_idLen, hlen, hpay, List.length_nil]
  have hz : u32 (((0 : Nat) : Int) + (0 : Nat)) = 0 := rfl
  have hincr : (if 0 < 256 ∧ 0 > 255 then 3 else 0) = 0 := rfl
  rw [hz, hincr, hsize, if_neg (by omega), if_neg (by decide), Option.bind_some, if_neg (by decide), Option.bind_some,
    hstore, Option.bind_some, if_neg (by decide), hshift, Option.bind_some, hcopy, Option.map_some]

theorem append_loose (h : Received maxSize m A r B) (hsr : ¬ has r.hdr ndefSrMask) (hn : r.payload.length < 256)
    {bs : Bytes} (hroom : Room maxSize A B r (r.payload.length + bs.length)) :
    Edited A B r (· = r.payload ++ bs) (ndefMsgAppendPayload m maxSize (recsLen A) bs) ↔
      r.payload.length + bs.length = 0 := by
  obtain ⟨hcur, hpay, hhead⟩ := h.lens hsr
  have hle := h.le
  have hlt := h.lt
  have hmax := h.room
  have hfit := hroom.sizeFor_le
  unfold Rec.sizeFor Rec.payloadAt at hfit
  have hAl : (recsBytes A).length = recsLen A := rfl
  have hBl : (recsBytes B).length = recsLen B := rfl
  have hsum : r.payload.length + bs.length < 4294967296 := by omega
  constructor
  · rintro ⟨m', r', hres, htake, hlike, hnew⟩
    have hnl : r'.payload.length = r.payload.length + bs.length := by
      rw [show r'.payload = _ from hnew, List.length_append]
    obtain ⟨hcur', hle', hlen', hbyte⟩ := appendPayload_ok h.seat.readRecHdr (by rw [r.toNat_payloadLen]; exact hsum) hres
    rw [r.toNat_payloadLen] at hcur' hbyte
    by_cases hbig : r.payload.length + bs.length > 255
    · -- three bytes too many
      rw [if_pos ⟨hn, hbig⟩] at hcur'
      rw [if_neg (by omega)] at hfit
      have hlen := hlike.length
      rw [if_neg fun hs => by have := r'.payload_lt; rw [if_pos hs] at this; omega] at hlen
      have hsize := (edited_at htake (by omega)).1
      unfold u32 at hcur'
      omega
    · -- the first byte of the length field is not the last
      rw [if_neg fun hc => hbig hc.2] at hcur'
      unfold u32 at hcur'
      obtain ⟨-, hzero, -⟩ := loose_at hlike (by omega) (by omega) htake (by omega)
      rw [hbyte (by omega) (by dsimp only; omega)] at hzero
      exact ofNat_eq_zero (by omega) (Option.some.inj hzero)
  · intro hzero
    obtain ⟨hp0, hb0⟩ : r.payload = [] ∧ bs = [] := by
      constructor <;> exact List.length_eq_zero_iff.mp (by omega)
    rw [hb0, append_nothing h hsr hp0]
    exact edited_same h (List.append_nil _).symm

theorem replace_same (h : Received maxSize m A r B) (hsr : ¬ has r.hdr ndefSrMask) (hn : r.payload.length < 256)
    {src : Src} (hlen : src.len = r.payload.length) :
    Edited A B r src.Gives ((copySrc m.mem (recsLen A + (6 + r.mid.length)) src).map fun mem =>
      (NdefStatus.ok, (⟨mem, m.curSize⟩ : Msg))) := by
  set head : Bytes := [r.hdr, UInt8.ofNat r.type.length, 0, 0, 0, UInt8.ofNat r.payload.length] with hhead
  have hseat := h.seat
  have hmem : m.mem = (recsBytes A ++ head ++ r.mid) ++ r.payload ++ (recsBytes B ++ m.mem.drop m.curSize) := by
    conv_lhs => rw [hseat.mem, Rec.loose_bytes hsr hn]
    simp [hhead]
  have hat : recsLen A + (6 + r.mid.length) = (recsBytes A ++ head ++ r.mid).length := by
    simp [hhead, recsLen]
    omega
  obtain ⟨field, hgives, hcopy⟩ := copySrc_block (c := recsBytes B ++ m.mem.drop m.curSize) hat hlen
  have hfield := hgives.length_eq.trans hlen
  rw [hmem, hcopy, Option.map_some]
  let r' : Rec := { r with payload := field, payload_lt := by rw [hfield]; exact r.payload_lt }
  have hbytes : r'.bytes = head ++ (r.mid ++ field) := by
    rw [Rec.loose_bytes (show ¬ has r'.hdr ndefSrMask from hsr) (show r'.payload.length < 256 from hfield ▸ hn)]
    simp [r', hhead, hfield, Rec.mid, Rec.idField]
  have hseat' : Seat ⟨recsBytes A ++ head ++ r.mid ++ field ++ (recsBytes B ++ m.mem.drop m.curSize), m.curSize⟩
      (recsLen A) r' (recsBytes A) (recsBytes B) (m.mem.drop m.curSize) := by
    refine ⟨?_, rfl, ?_, hseat.last, hseat.lt⟩
    · rw [hbytes]
      simp
    · have hsame : m.curSize = _ := h.curSize_eq
      rw [Rec.loose_bytes hsr hn] at hsame
      rw [hbytes]
      simp only [hhead, List.length_append, List.length_cons, List.length_nil, hfield, recsLen] at hsame ⊢
      omega
  have hlike : r'.Like r := ⟨rfl, rfl, rfl⟩
  exact (edited_iff hseat' hlike hgives).mpr rfl

theorem replace_loose (h : Received maxSize m A r B) (hsr : ¬ has r.hdr ndefSrMask) (hn : r.payload.length < 256)
    {src : Src} (hroom : Room maxSize A B r src.len) :
    Edited A B r src.Gives (ndefMsgReplacePayload m maxSize (recsLen A) src) ↔ src.len = r.payload.length := by
  obtain ⟨hcur, hpay, hhead⟩ := h.lens hsr
  have hle := h.le
  have hlt := h.lt
  have hmax := h.room
  have hfit := hroom.sizeFor_le
  unfold Rec.sizeFor Rec.payloadAt at hfit
  have hAl : (recsBytes A).length = recsLen A := rfl
  have hBl : (recsBytes B).length = recsLen B := rfl
  rw [ndefMsgReplacePayload, h.seat.readRecHdr, Option.bind_some]
  dsimp only
  rw [r.toNat_payloadLen, r.toNat_typeLen, r.toNat_idLen, hpay]
  by_cases hsame : src.len = r.payload.length
  · rw [if_neg (by omega), if_neg (by omega), Option.bind_some, if_pos rfl]
    exact iff_of_true (replace_same h hsr hn hsame) hsame
  · refine iff_of_false ?_ hsame
    rintro ⟨m', r', hres, htake, hlike, hgives⟩
    have hnl := hgives.length_eq
    obtain ⟨⟨status, m₁, q⟩, h₁, hres⟩ := Option.bind_eq_some_iff.mp hres
    dsimp only at hres
    obtain rfl : status = .ok := by
      split at hres
      · assumption
      · exact congrArg Prod.fst (Option.some.inj hres)
    rw [if_pos rfl] at hres
    obtain ⟨mem₂, h₂, hres⟩ := Option.map_eq_some_iff.mp hres
    obtain rfl : _ = m' := congrArg Prod.snd hres
    have hk := copySrc_keeps h₂
    by_cases hgrow : src.len > r.payload.length
    · rw [if_pos hgrow] at h₁
      obtain ⟨hcur₁, hle₁, hlen₁, hq, hbyte⟩ := growPayload_ok hgrow h₁
      have hroom₁ : m₁.curSize ≤ mem₂.length := by rw [hk.length, hlen₁]; omega
      by_cases hbig : src.len > 255
      · -- three bytes too many
        rw [if_pos ⟨hn, hbig⟩] at hcur₁
        rw [if_neg (by omega)] at hfit
        have hlen := hlike.length
        rw [if_neg fun hs => by have := r'.payload_lt; rw [if_pos hs] at this; omega] at hlen
        have hsize := (edited_at htake hroom₁).1
        unfold u32 at hcur₁
        dsimp only at hsize
        omega
      · rw [if_neg fun hc => hbig hc.2] at hcur₁
        unfold u32 at hcur₁
        obtain ⟨-, hzero, -⟩ := loose_at hlike (by omega) hroom₁ htake (by dsimp only; omega)
        dsimp only at hzero
        rw [hk.below _ (by omega), hbyte (by omega) (by omega)] at hzero
        have := ofNat_eq_zero (by omega) (Option.some.inj hzero)
        omega
    · rw [if_neg hgrow, if_pos (by omega)] at h₁
      obtain ⟨hcur₁, hlen₁, rfl, hbyte, hkept⟩ :=
        shrinkPayload_ok (by omega) (by omega) (by omega) (by omega) (by omega) h₁
      have hroom₁ : m₁.curSize ≤ mem₂.length := by rw [hk.length, hlen₁]; omega
      obtain ⟨-, hzero, hfive⟩ := loose_at hlike (by omega) hroom₁ htake (by dsimp only; omega)
      dsimp only at hzero hfive
      rw [hk.below _ (by omega), hbyte] at hzero
      have hnone := ofNat_eq_zero (by omega) (Option.some.inj hzero)
      -- the last byte of the length field is the old one
      obtain ⟨-, hget⟩ := edited_at h.bytes (by omega)
      have hold := hget 5 (by have := r.length_bytes; omega)
      rw [Rec.loose_bytes hsr hn] at hold
      rw [hk.below _ (by omega), hkept, hold, hnl, hnone] at hfive
      have := ofNat_eq_zero hn (Option.some.inj hfive)
      omega

end Edits

/-- Exactly when the payload of a record of an accepted message is appended to, or replaced, and nothing else changes. -/
theorem payload_edits {maxSize : Nat} {m : Msg} {allowChunks : Bool} {A B : List Rec} {r : Rec}
    (hcur : m.curSize ≤ maxSize) (hmax : maxSize ≤ m.mem.length) (hlt : maxSize < 4294967296)
    (hmsg : m.mem.take m.curSize = recsBytes (A ++ r :: B))
    (hok : ndefMsgValidate (some (m.mem.take m.curSize)) (UInt32.ofNat m.curSize) allowChunks = some .ok) :
    (∀ bs : Bytes, Room maxSize A B r (r.payload.length + bs.length) →
      (Edited A B r (· = r.payload ++ bs) (ndefMsgAppendPayload m maxSize (recsLen A) bs) ↔
        AppendOk m B r bs.length)) ∧
    (∀ src : Src, Room maxSize A B r src.len →
      (Edited A B r src.Gives (ndefMsgReplacePayload m maxSize (recsLen A) src) ↔ ReplaceOk m r src.len)) := by
  have hlen : (m.mem.take m.curSize).length = (UInt32.ofNat m.curSize).toNat := by
    simp
    omega
  have h : Received maxSize m A r B := ⟨hmsg, endsOnce_of_accepted hlen hmsg hok, hcur, hmax, hlt⟩
  by_cases hsr : has r.hdr ndefSrMask
  · have hshort := r.payload_lt
    rw [if_pos hsr] at hshort
    have ht : r.Tight := iff_of_true hsr hshort
    exact ⟨fun bs hroom => append_tight h ht hroom, fun src hroom => replace_tight h ht hroom⟩
  · by_cases hn : r.payload.length < 256
    · refine ⟨fun bs hroom => ?_, fun src hroom => ?_⟩
      · rw [append_loose h hsr hn hroom, AppendOk, if_neg hsr]
        exact ⟨.inr, fun hc => hc.resolve_left (by omega)⟩
      · rw [replace_loose h hsr hn hroom, ReplaceOk]
        constructor
        · exact fun heq => ⟨.inr (.inr heq), fun hbig => absurd hbig (by omega)⟩
        · rintro ⟨hs | hs | hs, -⟩
          · exact absurd hs hsr
          · omega
          · exact hs
    · have ht : r.Tight := iff_of_false hsr hn
      exact ⟨fun bs hroom => append_tight h ht hroom, fun src hroom => replace_tight h ht hroom⟩

def firstRec : Rec := ⟨0x91, [], [], [7], no_bytes_lt, no_bytes_lt, by decide, by decide⟩
def secondRec : Rec := ⟨0x51, [], [], [9], no_bytes_lt, no_bytes_lt, by decide, by decide⟩

def longRec : Rec := ⟨0xC1, [], [], [7], no_bytes_lt, no_bytes_lt, by decide, by decide⟩

theorem payload_edits_two :
    Edited [] [secondRec] firstRec (· = [7, 8]) (ndefMsgAppendPayload ⟨[0x91, 0, 1, 7, 0x51, 0, 1, 9, 0, 0], 8⟩ 10 0 [8]) ∧
    Edited [] [secondRec] firstRec (Src.bytes []).Gives
      (ndefMsgReplacePayload ⟨[0x91, 0, 1, 7, 0x51, 0, 1, 9, 0, 0], 8⟩ 10 0 (.bytes [])) := by
  obtain ⟨happend, hreplace⟩ := @payload_edits 10 ⟨[0x91, 0, 1, 7, 0x51, 0, 1, 9, 0, 0], 8⟩ false [] [secondRec]
    firstRec (by decide) (by decide) (by decide) (by decide) (by decide)
  refine ⟨(happend [8] ?_).mpr (.inl (by decide)), (hreplace (.bytes []) ?_).mpr ⟨.inl (by decide), nofun⟩⟩
  · exact ⟨⟨0x91, [], [], [7, 8], by decide, by decide, by decide, by decide⟩, ⟨rfl, rfl, rfl⟩, rfl, by decide⟩
  · exact ⟨⟨0x91, [], [], [], by decide, by decide, by decide, by decide⟩, ⟨rfl, rfl, rfl⟩, rfl, by decide⟩

/-- The first byte of the length becomes 2, and the last one stays. -/
theorem long_length_garbled :
    ndefMsgValidate (some longRec.bytes) 7 false = some .ok ∧
    Room 10 [] [] longRec 2 ∧
    ndefMsgAppendPayload ⟨longRec.bytes ++ [0, 0, 0], 7⟩ 10 0 [8] =
      some (.ok, ⟨[0xC1, 0, 2, 0, 0, 1, 7, 8, 0, 0], 8⟩) ∧
    ¬ Edited [] [] longRec (· = [7, 8]) (ndefMsgAppendPayload ⟨longRec.bytes ++ [0, 0, 0], 7⟩ 10 0 [8]) ∧
    ¬ Edited [] [] longRec (Src.bytes [7, 8]).Gives
      (ndefMsgReplacePayload ⟨longRec.bytes ++ [0, 0, 0], 7⟩ 10 0 (.bytes [7, 8])) := by
  have h : Received 10 ⟨longRec.bytes ++ [0, 0, 0], 7⟩ [] longRec [] :=
    ⟨by decide, show longRec.me by decide, by decide, by decide, by decide⟩
  have hroom : Room 10 [] [] longRec 2 :=
    ⟨⟨0xC1, [], [], [7, 8], by decide, by decide, by decide, by decide⟩, ⟨rfl, rfl, rfl⟩, rfl, by decide⟩
  refine ⟨by decide, hroom, by decide, fun hed => ?_, fun hed => ?_⟩
  · have hzero := (@append_loose 10 _ [] [] longRec h (by decide) (by decide) [8] hroom).mp hed
    exact absurd hzero (by decide)
  · have hsame := (@replace_loose 10 _ [] [] longRec h (by decide) (by decide) (.bytes [7, 8]) hroom).mp hed
    exact absurd hsame (by decide)

end NfcStack.Ndef
