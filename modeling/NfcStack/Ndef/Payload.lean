import NfcStack.Ndef.Edit

/- Editing the payload of a record (`ndef_utils.cc`: `NDEF_MsgAppendPayload`,
   `NDEF_MsgReplacePayload`). The record may have any header byte, as long as its payload
   length has the short form just when it fits.

   What is proved:
     1. `widens`, `narrows`, `opensTail`, `closesTail`: the moves that the edits are made of.
     2. `appendPayload_writes`, `replacePayload_writes`: the record with the new payload
        stands in the same place, or the call fails and nothing has changed. If an appended
        payload makes the length field longer, the last three bytes of the message are not
        moved.
     3. `appendPayload_edits`, `replacePayload_edits`: the same for records as the builder
        lays them out. -/
namespace NfcStack.Ndef
open NfcStack.Lib

/-! ## A record at its place -/

namespace Rec
variable (r : Rec)

def mid : Bytes := r.idField ++ r.type ++ r.id

/-- The payload length has the short form just when it fits. -/
def Tight : Prop := has r.hdr ndefSrMask ↔ r.payload.length < 256

def hdrFor (n : Nat) : UInt8 := if n < 256 then r.hdr ||| ndefSrMask else r.hdr &&& ~~~ndefSrMask

def payloadAt (n : Nat) : Nat := 2 + (if n < 256 then 1 else 4) + r.mid.length

theorem sr_bits (b : UInt8) : (has (b ||| ndefSrMask) ndefSrMask ∧ ¬ has (b &&& ~~~ndefSrMask) ndefSrMask) ∧
    (has (b ||| ndefSrMask) ndefMeMask ↔ has b ndefMeMask) ∧
    (has (b &&& ~~~ndefSrMask) ndefMeMask ↔ has b ndefMeMask) ∧
    (has (b ||| ndefSrMask) ndefIlMask ↔ has b ndefIlMask) ∧
    (has (b &&& ~~~ndefSrMask) ndefIlMask ↔ has b ndefIlMask) ∧
    (has b ndefSrMask → b ||| ndefSrMask = b) ∧ (¬ has b ndefSrMask → b &&& ~~~ndefSrMask = b) ∧
    (b &&& ~~~ndefSrMask) ||| ndefSrMask = b ||| ndefSrMask := by
  revert b
  decide +kernel

theorem hdrFor_sr (n : Nat) : has (r.hdrFor n) ndefSrMask ↔ n < 256 := by
  obtain ⟨⟨hset, hclear⟩, -⟩ := sr_bits r.hdr
  unfold hdrFor
  split
  case isTrue h => exact iff_of_true hset h
  case isFalse h => exact iff_of_false hclear h

theorem hdrFor_me (n : Nat) : has (r.hdrFor n) ndefMeMask ↔ r.me := by
  obtain ⟨-, hset, hclear, -⟩ := sr_bits r.hdr
  unfold hdrFor
  split
  · exact hset
  · exact hclear

theorem hdrFor_il (n : Nat) : has (r.hdrFor n) ndefIlMask ↔ has r.hdr ndefIlMask := by
  obtain ⟨-, -, -, hset, hclear, -⟩ := sr_bits r.hdr
  unfold hdrFor
  split
  · exact hset
  · exact hclear

/-- But for the form of the length, the header byte is the same. -/
theorem hdrFor_or (n : Nat) : r.hdrFor n ||| ndefSrMask = r.hdr ||| ndefSrMask := by
  have hclear := (sr_bits r.hdr).2.2.2.2.2.2.2
  have hset : r.hdr ||| ndefSrMask ||| ndefSrMask = r.hdr ||| ndefSrMask := by
    rw [UInt8.or_assoc, UInt8.or_self]
  unfold hdrFor
  split
  · exact hset
  · exact hclear

theorem hdrFor_of_sr {n : Nat} (h : has r.hdr ndefSrMask ↔ n < 256) : r.hdrFor n = r.hdr := by
  obtain ⟨-, -, -, -, -, hset, hclear, -⟩ := sr_bits r.hdr
  unfold hdrFor
  split
  case isTrue hn => exact hset (h.mpr hn)
  case isFalse hn => exact hclear fun hs => hn (h.mp hs)

def withPayload (bs : Bytes) (hlt : bs.length < 4294967296) : Rec where
  hdr := r.hdrFor bs.length
  type := r.type
  id := r.id
  payload := bs
  type_lt := r.type_lt
  id_lt := r.id_lt
  id_il h := r.id_il fun hil => h ((r.hdrFor_il _).mpr hil)
  payload_lt := by
    split
    case isTrue h => exact (r.hdrFor_sr _).mp h
    case isFalse => exact hlt

theorem withPayload_tight {bs : Bytes} (hlt : bs.length < 4294967296) : (r.withPayload bs hlt).Tight :=
  r.hdrFor_sr bs.length

theorem withPayload_mid {bs : Bytes} (hlt : bs.length < 4294967296) : (r.withPayload bs hlt).mid = r.mid := by
  unfold mid idField withPayload
  simp only [r.hdrFor_il]

variable {r}

theorem Tight.bytes (h : r.Tight) : r.bytes =
    r.hdr :: UInt8.ofNat r.type.length :: (lenBytes r.payload.length ++ (r.mid ++ r.payload)) := by
  have hlen : r.lenField = lenBytes r.payload.length := by
    unfold lenField lenBytes
    exact if_congr h rfl rfl
  rw [Rec.bytes, head, hlen, mid]
  simp

theorem Tight.length (h : r.Tight) : r.bytes.length = r.payloadAt r.payload.length + r.payload.length := by
  rw [h.bytes, payloadAt]
  simp only [List.length_cons, List.length_append, length_lenBytes]
  omega

theorem Tight.head_eq (h : r.Tight) (p : Nat) :
    p + r.head.length + r.type.length + r.id.length = p + r.payloadAt r.payload.length := by
  have := h.length
  rw [r.length_bytes] at this
  omega

end Rec

/-- The record `r` stands at `p`, between `pre` and `post`; `junk` is the unused rest of the buffer. -/
structure Seat (m : Msg) (p : Nat) (r : Rec) (pre post junk : Bytes) : Prop where
  mem : m.mem = pre ++ r.bytes ++ post ++ junk
  start : p = pre.length
  size : m.curSize = pre.length + r.bytes.length + post.length
  last : r.me → post = []
  lt : m.curSize < 4294967296

section Seat
variable {m : Msg} {p : Nat} {r : Rec} {pre post junk : Bytes}

theorem Seat.stands (h : Seat m p r pre post junk) : Stands m.mem p [r] := by
  refine ⟨pre, post ++ junk, ?_, h.start.symm, ?_⟩
  · rw [h.mem]
    simp [recsBytes]
  · have := h.lt
    have := h.size
    rw [recsLen_cons]
    simp only [recsLen, recsBytes, List.flatMap_nil, List.length_nil]
    omega

theorem Seat.readRecHdr (h : Seat m p r pre post junk) :
    Ndef.readRecHdr m.mem p =
      some ⟨r.hdr, UInt8.ofNat r.type.length, UInt32.ofNat r.payload.length, UInt8.ofNat r.id.length,
        p + r.head.length⟩ :=
  h.stands.readRecHdr

theorem Seat.length_mem (h : Seat m p r pre post junk) : m.mem.length = m.curSize + junk.length := by
  rw [h.mem, h.size]
  simp only [List.length_append]

theorem Seat.cut (h : Seat m p r pre post junk) (ht : r.Tight) :
    m.mem = pre ++ r.hdr :: UInt8.ofNat r.type.length :: (lenBytes r.payload.length ++
      (r.mid ++ r.payload ++ post) ++ junk) := by
  rw [h.mem, ht.bytes]
  simp

theorem Seat.of_cut {bs : Bytes} {hlt : bs.length < 4294967296}
    (hmem : m.mem = pre ++ r.hdrFor bs.length :: UInt8.ofNat r.type.length :: (lenBytes bs.length ++
      (r.mid ++ bs ++ post) ++ junk)) (hp : p = pre.length)
    (hcur : m.curSize = pre.length + (r.payloadAt bs.length + bs.length) + post.length)
    (hlast : r.me → post = []) (hin : m.curSize < 4294967296) : Seat m p (r.withPayload bs hlt) pre post junk := by
  have ht := r.withPayload_tight hlt
  refine ⟨?_, hp, ?_, fun hme => hlast ((r.hdrFor_me _).mp hme), hin⟩
  · rw [ht.bytes, r.withPayload_mid, hmem]
    simp [Rec.withPayload]
  · rw [ht.length, Rec.payloadAt, r.withPayload_mid]
    exact hcur

end Seat

/-! ## The moves

In all of these the record starts behind `pre` with the bytes `hdr` and `tl`. -/

section Moves
variable {pre post junk x : Bytes} {p pp : Nat} {hdr tl : UInt8}

/-- The length field goes from one byte to four. -/
theorem widens {len : Nat} {f tail : Bytes} (hp : p = pre.length) (hf : f.length = 1)
    (hl : len = tail.length) (hroom : 3 ≤ junk.length) :
    ∃ f', shiftdown (pre ++ hdr :: tl :: (f ++ tail ++ junk)) (p + 2 + 1) len 3 =
        some (pre ++ hdr :: tl :: (f' ++ tail ++ junk.drop 3)) ∧ f'.length = 4 := by
  have hassoc : pre ++ hdr :: tl :: (f ++ tail ++ junk) = (pre ++ [hdr, tl] ++ f) ++ tail ++ junk := by
    simp
  have hp' : p + 2 + 1 = (pre ++ [hdr, tl] ++ f).length := by simp [hp, hf]
  obtain ⟨gap, hs, hgap⟩ := opensGap_drop (b := tail) hp' hl hroom
  refine ⟨f ++ gap, ?_, by simp [hf, hgap]⟩
  rw [hassoc, hs]
  simp

/-- The length field goes from four bytes to one. One byte more than there is gets
moved, so that the message must not fill the buffer. -/
theorem narrows {len : Nat} {f tail : Bytes} (hp : p = pre.length) (hf : f.length = 4)
    (hl : len = tail.length + 1) (hroom : 0 < junk.length) :
    ∃ f' junk', shiftup (pre ++ hdr :: tl :: (f ++ tail ++ junk)) (p + 2 + 1) (p + 2 + 4) len =
        some (pre ++ hdr :: tl :: (f' ++ tail ++ junk')) ∧
      f'.length = 1 ∧ junk'.length = junk.length + 3 := by
  obtain ⟨j, junk, rfl⟩ := List.exists_cons_of_length_pos hroom
  obtain ⟨b, g, rfl⟩ := List.exists_cons_of_length_pos (show 0 < f.length by omega)
  have hg : g.length = 3 := by simpa using hf
  have hassoc : pre ++ hdr :: tl :: (b :: g ++ tail ++ j :: junk) =
      (pre ++ [hdr, tl, b]) ++ g ++ (tail ++ [j]) ++ junk := by
    simp
  have hd : p + 2 + 1 = (pre ++ [hdr, tl, b]).length := by simp [hp]
  have hsrc : p + 2 + 4 = (pre ++ [hdr, tl, b]).length + g.length := by simp [hp, hg]
  have hlen : len = (tail ++ [j]).length := by simp [hl]
  obtain ⟨junk', hs, hjunk⟩ := closesGap (c := junk) hd hsrc hlen
  refine ⟨[b], j :: junk', ?_, rfl, ?_⟩
  · rw [hassoc, hs]
    simp
  · simp [hjunk, hg]
    omega

/-- Room behind `x`, where `moved` is what moves and `kept` what does not: nothing is to be
moved if the record is the last one. -/
theorem opensTail {k len : Nat} {moved kept : Bytes} (hlast : has hdr ndefMeMask → moved ++ kept = [])
    (hp : p = pre.length) (hpp : pp = p + 2 + x.length) (hl : ¬ has hdr ndefMeMask → len = moved.length)
    (hk : k ≤ (kept ++ junk).length) :
    ∃ gap, unlessLast (pre ++ hdr :: tl :: (x ++ moved ++ (kept ++ junk))) p
          (fun mem => shiftdown mem pp len k) =
        some (pre ++ hdr :: tl :: (x ++ gap ++ moved ++ (kept ++ junk).drop k)) ∧ gap.length = k := by
  rw [unlessLast, get_hdr hp, Option.bind_some]
  split
  case isTrue hme =>
    obtain ⟨rfl, rfl⟩ := List.append_eq_nil_iff.mp (hlast hme)
    exact ⟨junk.take k, by simp, by simp at hk ⊢; omega⟩
  case isFalse hme =>
    have hassoc : pre ++ hdr :: tl :: (x ++ moved ++ (kept ++ junk)) =
        (pre ++ [hdr, tl] ++ x) ++ moved ++ (kept ++ junk) := by
      simp
    have hpp' : pp = (pre ++ [hdr, tl] ++ x).length := by simp [hpp, hp]; omega
    obtain ⟨gap, hs, hgap⟩ := opensGap_drop hpp' (hl hme) hk
    refine ⟨gap, ?_, hgap⟩
    rw [hassoc, hs]
    simp

/-- Room taken back: what is dropped stays behind if the record is the last one. -/
theorem closesTail {d : Bytes} {dest len : Nat} (hlast : has hdr ndefMeMask → post = []) (hp : p = pre.length)
    (hd : dest = p + 2 + x.length) (hpp : pp = p + 2 + x.length + d.length)
    (hl : ¬ has hdr ndefMeMask → len = post.length) :
    ∃ junk', unlessLast (pre ++ hdr :: tl :: (x ++ d ++ post ++ junk)) p
          (fun mem => shiftup mem dest pp len) =
        some (pre ++ hdr :: tl :: (x ++ post ++ junk')) ∧ junk'.length = d.length + junk.length := by
  rw [unlessLast, get_hdr hp, Option.bind_some]
  split
  case isTrue hme =>
    rw [hlast hme]
    exact ⟨d ++ junk, by simp, by simp⟩
  case isFalse hme =>
    have hassoc : pre ++ hdr :: tl :: (x ++ d ++ post ++ junk) =
        (pre ++ [hdr, tl] ++ x) ++ d ++ post ++ junk := by
      simp
    obtain ⟨junk', hs, hjunk⟩ := closesGap (a := pre ++ [hdr, tl] ++ x) (d := d) (b := post) (c := junk)
      (show dest = _ by simp [hd, hp]; omega) (show pp = _ by simp [hpp, hp]; omega) (hl hme)
    refine ⟨junk', ?_, hjunk⟩
    rw [hassoc, hs]
    simp

end Moves

/-! ## Appending -/

/-- How much longer an appended payload makes the message. -/
def appendGrowth (prevPaylen addLen : Nat) : Nat :=
  addLen + if prevPaylen < 256 ∧ prevPaylen + addLen > 255 then 3 else 0

/-- What comes behind the record when its length field becomes longer and `k` bytes are added:
the last three bytes have stayed where they were. -/
def lost (post junk : Bytes) (k : Nat) : Bytes :=
  post.take (post.length - 3) ++ slice (post.drop (post.length - 3) ++ junk.drop 3) k 3

section Edits
variable {m : Msg} {maxSize p : Nat} {r : Rec} {pre post junk : Bytes}

def lenGrowth (n k : Nat) : Nat := if n < 256 ∧ n + k > 255 then 3 else 0

theorem appendGrowth_eq (n k : Nat) : appendGrowth n k = k + lenGrowth n k := rfl

/-- The length field has the width of the new length. -/
theorem append_widens (h : Seat m p r pre post junk) (ht : r.Tight) {k : Nat}
    (hfit : m.curSize + lenGrowth r.payload.length k ≤ m.mem.length) :
    ∃ f, (if lenGrowth r.payload.length k ≠ 0 then
        shiftdown m.mem (p + 2 + 1) (u32 (m.curSize - (p + 2 : Nat) - 1)) 3 else some m.mem) =
        some (pre ++ r.hdr :: UInt8.ofNat r.type.length ::
          (f ++ (r.mid ++ r.payload ++ post) ++ junk.drop (lenGrowth r.payload.length k))) ∧
      f.length = (if r.payload.length + k < 256 then 1 else 4) := by
  have hsize := h.size
  have hstart := h.start
  have hlen := h.length_mem
  have hlt := h.lt
  rw [ht.length] at hsize
  have hat : r.payloadAt r.payload.length =
      2 + (if r.payload.length < 256 then 1 else 4) + r.mid.length := rfl
  by_cases hw : r.payload.length < 256 ∧ r.payload.length + k > 255
  · rw [lenGrowth, if_pos hw] at hfit ⊢
    rw [if_pos (by decide), if_neg (by omega), h.cut ht]
    have htail : (r.mid ++ r.payload ++ post).length = r.mid.length + r.payload.length + post.length := by
      simp
      omega
    rw [if_pos hw.1] at hat
    refine widens hstart (by simp [hw.1]) (u32_eq ?_ ?_) (by omega)
    · rw [htail]
      push_cast
      omega
    · omega
  · rw [lenGrowth, if_neg hw, if_neg (by decide)]
    refine ⟨lenBytes r.payload.length, by rw [h.cut ht]; rfl, ?_⟩
    rw [length_lenBytes]
    split <;> split <;> omega

theorem append_sr (ht : r.Tight) (hp : p = pre.length) {k : Nat} (tail : Bytes) :
    (if r.payload.length + k > 255 then modify (pre ++ r.hdr :: tail) p (· &&& ~~~ndefSrMask)
      else some (pre ++ r.hdr :: tail)) = some (pre ++ r.hdrFor (r.payload.length + k) :: tail) := by
  by_cases hbig : r.payload.length + k > 255
  · rw [if_pos hbig, modify_block _ hp, Rec.hdrFor, if_neg (by omega)]
  · have hsr : has r.hdr ndefSrMask ↔ r.payload.length + k < 256 :=
      iff_of_true (ht.mpr (by omega)) (by omega)
    rw [if_neg hbig, r.hdrFor_of_sr hsr]

/-- What of the rest of the message is moved, and what has stayed behind: if the length field
has become wider before, the last three bytes. -/
def movedOf (r : Rec) (post : Bytes) (k : Nat) : Bytes :=
  if r.payload.length < 256 ∧ r.payload.length + k > 255 ∧ ¬ r.me then post.take (post.length - 3) else post

def keptOf (r : Rec) (post : Bytes) (k : Nat) : Bytes :=
  if r.payload.length < 256 ∧ r.payload.length + k > 255 ∧ ¬ r.me then post.drop (post.length - 3) else []

theorem movedOf_keptOf (k : Nat) : post = movedOf r post k ++ keptOf r post k := by
  unfold movedOf keptOf
  split <;> simp

theorem length_movedOf {k : Nat} (hme : ¬ r.me)
    (hthree : r.payload.length < 256 → r.payload.length + k > 255 → ¬ r.me → 3 ≤ post.length) :
    (movedOf r post k).length + lenGrowth r.payload.length k = post.length := by
  by_cases hw : r.payload.length < 256 ∧ r.payload.length + k > 255
  · rw [lenGrowth, movedOf, if_pos hw, if_pos ⟨hw.1, hw.2, hme⟩, List.length_take]
    have := hthree hw.1 hw.2 hme
    omega
  · rw [lenGrowth, movedOf, if_neg hw, if_neg (fun hc => hw ⟨hc.1, hc.2.1⟩), Nat.add_zero]

theorem append_behind {k : Nat}
    (hthree : r.payload.length < 256 → r.payload.length + k > 255 → ¬ r.me → 3 ≤ post.length)
    (hroom : k + lenGrowth r.payload.length k ≤ junk.length) :
    ∃ post' junk', movedOf r post k ++ (keptOf r post k ++ junk.drop (lenGrowth r.payload.length k)).drop k =
        post' ++ junk' ∧ post'.length = post.length ∧
      post' = if r.payload.length < 256 ∧ r.payload.length + k > 255 ∧ ¬ r.me then lost post junk k
        else post := by
  by_cases hw : r.payload.length < 256 ∧ r.payload.length + k > 255 ∧ ¬ r.me
  · have := hthree hw.1 hw.2.1 hw.2.2
    rw [lenGrowth, if_pos ⟨hw.1, hw.2.1⟩] at hroom
    rw [movedOf, keptOf, lenGrowth, if_pos hw, if_pos hw, if_pos ⟨hw.1, hw.2.1⟩, if_pos hw]
    refine ⟨_, ((post.drop (post.length - 3) ++ junk.drop 3).drop k).drop 3, ?_, ?_, rfl⟩
    · rw [lost, slice, List.append_assoc, List.take_append_drop]
    · rw [lost, List.length_append, length_slice (by simp; omega), List.length_take]
      omega
  · rw [movedOf, keptOf, if_neg hw, if_neg hw, if_neg hw]
    exact ⟨post, _, rfl, rfl, rfl⟩

theorem appendPayload_writes (h : Seat m p r pre post junk) (ht : r.Tight) (hmax : maxSize ≤ m.mem.length)
    (bs : Bytes) (hin : m.curSize + appendGrowth r.payload.length bs.length < 4294967296)
    (hthree : m.curSize + appendGrowth r.payload.length bs.length ≤ maxSize →
      r.payload.length < 256 → r.payload.length + bs.length > 255 → ¬ r.me → 3 ≤ post.length) :
    (maxSize < m.curSize + appendGrowth r.payload.length bs.length →
      ndefMsgAppendPayload m maxSize p bs = some (.msgInsufficientMem, m)) ∧
    (m.curSize + appendGrowth r.payload.length bs.length ≤ maxSize →
      ∃ m' post' junk' hlt, ndefMsgAppendPayload m maxSize p bs = some (.ok, m') ∧
        Seat m' p (r.withPayload (r.payload ++ bs) hlt) pre post' junk' ∧ m'.mem.length = m.mem.length ∧
        m'.curSize = m.curSize + appendGrowth r.payload.length bs.length ∧
        post' = if r.payload.length < 256 ∧ r.payload.length + bs.length > 255 ∧ ¬ r.me then
          lost post junk bs.length else post) := by
  have hsize := h.size
  have hstart := h.start
  have hlen := h.length_mem
  rw [ht.length] at hsize
  set n := r.payload.length with hn
  have hat : r.payloadAt n = 2 + (if n < 256 then 1 else 4) + r.mid.length := rfl
  rw [appendGrowth_eq] at hin hthree ⊢
  have hnew : u32 ((n : Int) + bs.length) = n + bs.length := u32_eq (by simp) (by omega)
  rw [ndefMsgAppendPayload, h.readRecHdr, Option.bind_some]
  dsimp only
  rw [r.toNat_payloadLen, r.toNat_typeLen, r.toNat_idLen, hnew, ht.head_eq, ← hn, ← lenGrowth]
  have hcur : u32 ((m.curSize : Int) + bs.length + lenGrowth n bs.length) =
      m.curSize + (bs.length + lenGrowth n bs.length) :=
    u32_eq (by push_cast; omega) hin
  rw [hcur]
  refine ⟨fun hbig => by rw [if_pos hbig], fun hfit => ?_⟩
  have hthree := hthree hfit
  rw [if_neg (by omega)]
  obtain ⟨f, hstep₁, hf⟩ := append_widens (k := bs.length) h ht (by rw [← hn]; omega)
  rw [← hn] at hstep₁ hf
  have hlt : (r.payload ++ bs).length < 4294967296 := by
    rw [List.length_append]
    omega
  have hlen' : (r.payload ++ bs).length = n + bs.length := List.length_append
  rw [hstep₁, Option.bind_some, append_sr ht hstart, Option.bind_some]
  rw [List.append_assoc f, storeLen_block _ hstart hf, Option.bind_some]
  -- room for what is added, behind the payload
  have hpost : post = movedOf r post bs.length ++ keptOf r post bs.length := movedOf_keptOf _
  have hassoc : lenBytes (n + bs.length) ++ (r.mid ++ r.payload ++ post ++ junk.drop (lenGrowth n bs.length)) =
      (lenBytes (n + bs.length) ++ r.mid ++ r.payload) ++ movedOf r post bs.length ++
        (keptOf r post bs.length ++ junk.drop (lenGrowth n bs.length)) := by
    conv_lhs => rw [hpost]
    simp
  set x := lenBytes (n + bs.length) ++ r.mid ++ r.payload with hx
  have hxl : 2 + x.length = r.payloadAt n + lenGrowth n bs.length + n := by
    simp only [hx, List.length_append, length_lenBytes, hat, lenGrowth]
    split_ifs <;> omega
  have hpp : (if lenGrowth n bs.length ≠ 0 then p + r.payloadAt n + 3 else p + r.payloadAt n) + n =
      p + 2 + x.length := by
    have : lenGrowth n bs.length ≠ 0 → lenGrowth n bs.length = 3 := by
      unfold lenGrowth
      split <;> omega
    split <;> omega
  have hjunk := congrArg List.length hpost
  rw [List.length_append] at hjunk
  rw [hassoc, hpp]
  obtain ⟨gap, hstep₄, hgap⟩ : ∃ gap,
      unlessLast (pre ++ r.hdrFor (n + bs.length) :: UInt8.ofNat r.type.length ::
          (x ++ movedOf r post bs.length ++ (keptOf r post bs.length ++ junk.drop (lenGrowth n bs.length)))) p
        (fun mem => shiftdown mem (p + 2 + x.length) (u32 (m.curSize - (p + 2 + x.length : Nat)))
          bs.length) =
          some (pre ++ r.hdrFor (n + bs.length) :: UInt8.ofNat r.type.length ::
            (x ++ gap ++ movedOf r post bs.length ++
              (keptOf r post bs.length ++ junk.drop (lenGrowth n bs.length)).drop bs.length)) ∧
        gap.length = bs.length := by
    refine opensTail (fun hme => ?_) hstart rfl (fun hme => ?_) ?_
    · rw [← hpost]
      exact h.last ((r.hdrFor_me _).mp hme)
    · have := length_movedOf (fun hm => hme ((r.hdrFor_me _).mpr hm)) hthree
      rw [← hn] at this
      exact u32_eq (by omega) (by omega)
    · simp only [List.length_append, List.length_drop]
      omega
  have hassoc₄ : pre ++ r.hdrFor (n + bs.length) :: UInt8.ofNat r.type.length ::
      (x ++ gap ++ movedOf r post bs.length ++
        (keptOf r post bs.length ++ junk.drop (lenGrowth n bs.length)).drop bs.length) =
      (pre ++ [r.hdrFor (n + bs.length), UInt8.ofNat r.type.length] ++ x) ++ gap ++
        (movedOf r post bs.length ++
          (keptOf r post bs.length ++ junk.drop (lenGrowth n bs.length)).drop bs.length) := by
    simp
  rw [hstep₄, Option.bind_some, hassoc₄, memcpy_block (by simp [hstart]; omega) hgap.symm,
    Option.map_some]
  have hroom₄ : bs.length + lenGrowth r.payload.length bs.length ≤ junk.length := by
    rw [← hn]
    omega
  obtain ⟨post', junk', hbehind, hpl, hpost'⟩ := append_behind hthree hroom₄
  rw [← hn] at hbehind hpost'
  have hsize' : pre.length + (r.payloadAt (n + bs.length) + (n + bs.length)) + post'.length =
      m.curSize + (bs.length + lenGrowth n bs.length) := by
    simp only [Rec.payloadAt, hsize, lenGrowth, hpl]
    split_ifs <;> omega
  have hseat : Seat ⟨pre ++ [r.hdrFor (n + bs.length), UInt8.ofNat r.type.length] ++ x ++ bs ++
      (movedOf r post bs.length ++
        (keptOf r post bs.length ++ junk.drop (lenGrowth n bs.length)).drop bs.length),
      m.curSize + (bs.length + lenGrowth n bs.length)⟩ p
      (r.withPayload (r.payload ++ bs) hlt) pre post' junk' := by
    refine Seat.of_cut ?_ hstart ?_ (fun hme => ?_) hin
    · rw [hlen', hbehind]
      simp [hx]
    · rw [hlen']
      exact hsize'.symm
    · rw [hpost', if_neg fun hc => hc.2.2 hme]
      exact h.last hme
  refine ⟨_, post', junk', hlt, rfl, hseat, ?_, rfl, hpost'⟩
  have hl := congrArg List.length hbehind
  rw [hseat.length_mem, hlen]
  simp only [List.length_append, List.length_drop, hpl] at hl ⊢
  omega

/-! ## Replacing -/

/-- The size of the message when the payload has `n` bytes. -/
def Rec.sizeFor (pre post : Bytes) (r : Rec) (n : Nat) : Nat := pre.length + (r.payloadAt n + n) + post.length

/-- The record has a slot for a payload of `n` bytes, and all that goes with it. -/
def Resized (m m' : Msg) (r : Rec) (pre post : Bytes) (n : Nat) : Prop :=
  ∃ slot junk', m'.mem = pre ++ r.hdrFor n :: UInt8.ofNat r.type.length ::
      (lenBytes n ++ (r.mid ++ slot ++ post) ++ junk') ∧
    slot.length = n ∧ m'.curSize = r.sizeFor pre post n ∧ m'.mem.length = m.mem.length

theorem Resized.of_mem {m' : Msg} (slot junk' : Bytes) {n : Nat}
    (hmem : m'.mem = pre ++ r.hdrFor n :: UInt8.ofNat r.type.length ::
      (lenBytes n ++ (r.mid ++ slot ++ post) ++ junk')) (hslot : slot.length = n)
    (hcur : m'.curSize = r.sizeFor pre post n)
    (hlen : m.mem.length = r.sizeFor pre post n + junk'.length) :
    Resized m m' r pre post n := by
  refine ⟨slot, junk', hmem, hslot, hcur, ?_⟩
  rw [hmem, hlen]
  simp only [Rec.sizeFor, Rec.payloadAt, List.length_append, List.length_cons, length_lenBytes, hslot]
  omega

theorem growPayload_spec (h : Seat m p r pre post junk) (ht : r.Tight) (hmax : maxSize ≤ m.mem.length)
    {n : Nat} (hgrow : r.payload.length < n) (hin : r.sizeFor pre post n < 4294967296) :
    (maxSize < r.sizeFor pre post n →
      ∃ q, growPayload m maxSize p r.payload.length (p + r.payloadAt r.payload.length) n =
        some (.msgInsufficientMem, m, q)) ∧
    (r.sizeFor pre post n ≤ maxSize →
      ∃ m', growPayload m maxSize p r.payload.length (p + r.payloadAt r.payload.length) n =
        some (.ok, m', p + r.payloadAt n) ∧ Resized m m' r pre post n) := by
  have hsize := h.size
  have hstart := h.start
  have hlen := h.length_mem
  rw [ht.length] at hsize
  set k := r.payload.length with hk
  have hat : r.payloadAt k = 2 + (if k < 256 then 1 else 4) + r.mid.length := rfl
  have hat' : r.payloadAt n = 2 + (if n < 256 then 1 else 4) + r.mid.length := rfl
  have hnew : r.sizeFor pre post n = pre.length + (r.payloadAt n + n) + post.length := rfl
  have hwide : (if k < 256 ∧ n > 255 then 3 else 0) + r.payloadAt k = r.payloadAt n := by
    rw [hat, hat']
    split_ifs <;> omega
  have hsum : u32 ((m.curSize : Int) + (n - k : Nat) + (if k < 256 ∧ n > 255 then 3 else 0 : Int)) =
      r.sizeFor pre post n := by
    refine u32_eq ?_ hin
    rw [hnew, hsize]
    split_ifs at hwide ⊢ <;> push_cast <;> omega
  unfold growPayload
  dsimp only
  rw [hsum]
  refine ⟨fun hbig => ⟨_, by rw [if_pos hbig]⟩, fun hfit => ?_⟩
  rw [if_neg (by omega)]
  -- the length field has its new width, and the SR bit says so
  obtain ⟨m₁, f, junk₁, hstep₁, hmem₁, hf, hcur₁, hjunk₁⟩ : ∃ (m₁ : Msg) (f junk₁ : Bytes),
      (if k < 256 ∧ n > 255 then
        (shiftdown m.mem (p + 2 + 1) (u32 (m.curSize - (p + 2 : Nat) - 1)) 3).bind fun mem =>
          (modify mem p (· &&& ~~~ndefSrMask)).map fun mem =>
            ((⟨mem, u32 (m.curSize + 3)⟩ : Msg), p + r.payloadAt k + 3)
        else some (m, p + r.payloadAt k)) = some (m₁, p + r.payloadAt n) ∧
      m₁.mem = pre ++ r.hdrFor n :: UInt8.ofNat r.type.length ::
        (f ++ (r.mid ++ r.payload ++ post) ++ junk₁) ∧
      f.length = (if n < 256 then 1 else 4) ∧ m₁.curSize + (n - k) = r.sizeFor pre post n ∧
      m₁.curSize + junk₁.length = m.curSize + junk.length := by
    by_cases hw : k < 256 ∧ n > 255
    · rw [if_pos hw, h.cut ht]
      rw [if_pos hw] at hwide
      rw [if_pos hw.1] at hat
      obtain ⟨f, hs, hf⟩ : ∃ f,
          shiftdown (pre ++ r.hdr :: UInt8.ofNat r.type.length ::
            (lenBytes k ++ (r.mid ++ r.payload ++ post) ++ junk)) (p + 2 + 1)
              (u32 (m.curSize - (p + 2 : Nat) - 1)) 3 =
            some (pre ++ r.hdr :: UInt8.ofNat r.type.length ::
              (f ++ (r.mid ++ r.payload ++ post) ++ junk.drop 3)) ∧ f.length = 4 := by
        refine widens hstart (by simp [hw.1]) (u32_eq ?_ ?_) (by omega) <;>
          simp only [List.length_append, ← hk] <;> omega
      have hbit : r.hdr &&& ~~~ndefSrMask = r.hdrFor n := by
        rw [Rec.hdrFor, if_neg (by omega)]
      have hcur : u32 ((m.curSize : Int) + 3) = m.curSize + 3 := u32_eq (by simp) (by omega)
      refine ⟨⟨_, m.curSize + 3⟩, f, junk.drop 3, ?_, rfl, ?_, ?_, ?_⟩
      · have hpos : p + r.payloadAt k + 3 = p + r.payloadAt n := by omega
        rw [hs, Option.bind_some, modify_block _ hstart, Option.map_some, hbit, hcur, hpos]
      · rw [hf, if_neg (by omega)]
      · dsimp only
        omega
      · simp only [List.length_drop]
        omega
    · rw [if_neg hw]
      rw [if_neg hw, Nat.zero_add] at hwide
      refine ⟨m, lenBytes k, junk, by rw [hwide], ?_, ?_, by omega, rfl⟩
      · have hsr : has r.hdr ndefSrMask ↔ n < 256 := by
          rw [show has r.hdr ndefSrMask ↔ k < 256 from ht]
          omega
        rw [h.cut ht, r.hdrFor_of_sr hsr]
      · rw [length_lenBytes]
        split <;> split <;> omega
  rw [hstep₁, Option.bind_some]
  dsimp only
  rw [hmem₁, List.append_assoc f, storeLen_block _ hstart hf, Option.bind_some]
  -- room for the longer payload
  have hassoc : lenBytes n ++ (r.mid ++ r.payload ++ post ++ junk₁) =
      (lenBytes n ++ r.mid ++ r.payload) ++ post ++ ([] ++ junk₁) := by
    simp
  have hx : p + 2 + (lenBytes n ++ r.mid ++ r.payload).length = p + r.payloadAt n + k := by
    rw [hat']
    simp only [List.length_append, length_lenBytes, ← hk]
    omega
  obtain ⟨gap, hs, hgap⟩ : ∃ gap,
      unlessLast (pre ++ r.hdrFor n :: UInt8.ofNat r.type.length ::
          (lenBytes n ++ r.mid ++ r.payload ++ post ++ ([] ++ junk₁))) p
        (fun mem => shiftdown mem (p + r.payloadAt n + k)
          (u32 (m₁.curSize - (p + r.payloadAt n + k : Nat))) (n - k)) =
        some (pre ++ r.hdrFor n :: UInt8.ofNat r.type.length ::
          (lenBytes n ++ r.mid ++ r.payload ++ gap ++ post ++ ([] ++ junk₁).drop (n - k))) ∧
      gap.length = n - k := by
    refine opensTail (fun hme => ?_) hstart hx.symm (fun _ => u32_eq ?_ ?_) ?_
    · rw [List.append_nil]
      exact h.last ((r.hdrFor_me n).mp hme)
    · omega
    · omega
    · rw [List.nil_append]
      omega
  have hcur₂ : u32 ((m₁.curSize : Int) + (n - k : Nat)) = r.sizeFor pre post n :=
    u32_eq (by omega) hin
  rw [hassoc, hs, Option.map_some, hcur₂]
  refine ⟨_, rfl, Resized.of_mem (r.payload ++ gap) (([] ++ junk₁).drop (n - k)) ?_ ?_ rfl ?_⟩
  · simp
  · simp [hgap, ← hk]
    omega
  · simp only [List.nil_append, List.length_drop]
    omega

theorem shrinkPayload_spec (h : Seat m p r pre post junk) (ht : r.Tight) {n : Nat}
    (hshrink : n < r.payload.length)
    (hclean : r.payload.length > 255 → n < 256 → m.curSize < m.mem.length) :
    ∃ m', shrinkPayload m p r.payload.length (p + r.payloadAt r.payload.length) n =
      some (.ok, m', p + r.payloadAt n) ∧ Resized m m' r pre post n := by
  have hsize := h.size
  have hstart := h.start
  have hlen := h.length_mem
  have hlt := h.lt
  rw [ht.length] at hsize
  set k := r.payload.length with hk
  have hat : r.payloadAt k = 2 + (if k < 256 then 1 else 4) + r.mid.length := rfl
  have hat' : r.payloadAt n = 2 + (if n < 256 then 1 else 4) + r.mid.length := rfl
  have hnew : r.sizeFor pre post n = pre.length + (r.payloadAt n + n) + post.length := rfl
  have hwide : (if k > 255 ∧ n < 256 then 3 else 0) + r.payloadAt n = r.payloadAt k := by
    rw [hat, hat']
    split_ifs <;> omega
  unfold shrinkPayload
  dsimp only
  -- the length field has its new width, and the SR bit says so
  obtain ⟨m₁, f, junk₁, hstep₁, hmem₁, hf, hcur₁, hjunk₁⟩ : ∃ (m₁ : Msg) (f junk₁ : Bytes),
      (if k > 255 ∧ n < 256 then
        (shiftup m.mem (p + 2 + 1) (p + 2 + 4) (u32 (m.curSize - (p + 2 : Nat) - 3))).bind fun mem =>
          (modify mem p (· ||| ndefSrMask)).map fun mem =>
            ((⟨mem, u32 (m.curSize - 3)⟩ : Msg), p + r.payloadAt k - 3)
        else some (m, p + r.payloadAt k)) = some (m₁, p + r.payloadAt n) ∧
      m₁.mem = pre ++ r.hdrFor n :: UInt8.ofNat r.type.length ::
        (f ++ (r.mid ++ r.payload ++ post) ++ junk₁) ∧
      f.length = (if n < 256 then 1 else 4) ∧ m₁.curSize = r.sizeFor pre post n + (k - n) ∧
      m₁.curSize + junk₁.length = m.curSize + junk.length := by
    by_cases hw : k > 255 ∧ n < 256
    · rw [if_pos hw, h.cut ht]
      rw [if_pos hw] at hwide
      rw [if_neg (by omega)] at hat
      have hroom := hclean hw.1 hw.2
      obtain ⟨f, junk₁, hs, hf, hj⟩ : ∃ f junk₁,
          shiftup (pre ++ r.hdr :: UInt8.ofNat r.type.length ::
            (lenBytes k ++ (r.mid ++ r.payload ++ post) ++ junk)) (p + 2 + 1) (p + 2 + 4)
              (u32 (m.curSize - (p + 2 : Nat) - 3)) =
            some (pre ++ r.hdr :: UInt8.ofNat r.type.length ::
              (f ++ (r.mid ++ r.payload ++ post) ++ junk₁)) ∧
          f.length = 1 ∧ junk₁.length = junk.length + 3 := by
        refine narrows hstart ?_ (u32_eq ?_ ?_) (by omega)
        · rw [length_lenBytes, if_neg (by omega)]
        · simp only [List.length_append, ← hk]
          omega
        · simp only [List.length_append, ← hk]
          omega
      have hbit : r.hdr ||| ndefSrMask = r.hdrFor n := by
        rw [Rec.hdrFor, if_pos hw.2]
      have hcur : u32 ((m.curSize : Int) - 3) = m.curSize - 3 := u32_eq (by omega) (by omega)
      refine ⟨⟨_, m.curSize - 3⟩, f, junk₁, ?_, rfl, ?_, ?_, ?_⟩
      · have hpos : p + r.payloadAt k - 3 = p + r.payloadAt n := by omega
        rw [hs, Option.bind_some, modify_block _ hstart, Option.map_some, hbit, hcur, hpos]
      · rw [hf, if_pos hw.2]
      · dsimp only
        omega
      · dsimp only
        omega
    · rw [if_neg hw]
      rw [if_neg hw, Nat.zero_add] at hwide
      refine ⟨m, lenBytes k, junk, by rw [hwide], ?_, ?_, by omega, rfl⟩
      · have hsr : has r.hdr ndefSrMask ↔ n < 256 := by
          rw [show has r.hdr ndefSrMask ↔ k < 256 from ht]
          omega
        rw [h.cut ht, r.hdrFor_of_sr hsr]
      · rw [length_lenBytes]
        split <;> split <;> omega
  rw [hstep₁, Option.bind_some]
  dsimp only
  rw [hmem₁, List.append_assoc f, storeLen_block _ hstart hf, Option.bind_some]
  -- the end of the old payload goes
  have hassoc : lenBytes n ++ (r.mid ++ r.payload ++ post ++ junk₁) =
      (lenBytes n ++ r.mid ++ r.payload.take n) ++ r.payload.drop n ++ post ++ junk₁ := by
    simp
  have hx : p + 2 + (lenBytes n ++ r.mid ++ r.payload.take n).length = p + r.payloadAt n + n := by
    rw [hat']
    simp only [List.length_append, length_lenBytes, List.length_take, ← hk]
    omega
  have hdrop : (r.payload.drop n).length = k - n := by simp [← hk]
  obtain ⟨junk₂, hs, hjunk₂⟩ : ∃ junk₂,
      unlessLast (pre ++ r.hdrFor n :: UInt8.ofNat r.type.length ::
          (lenBytes n ++ r.mid ++ r.payload.take n ++ r.payload.drop n ++ post ++ junk₁)) p
        (fun mem => shiftup mem (p + r.payloadAt n + k - (k - n)) (p + r.payloadAt n + k)
          (u32 (m₁.curSize - (p + r.payloadAt n + k : Nat)))) =
        some (pre ++ r.hdrFor n :: UInt8.ofNat r.type.length ::
          (lenBytes n ++ r.mid ++ r.payload.take n ++ post ++ junk₂)) ∧
      junk₂.length = (r.payload.drop n).length + junk₁.length := by
    refine closesTail (fun hme => h.last ((r.hdrFor_me n).mp hme)) hstart ?_ ?_ (fun _ => u32_eq ?_ ?_) <;> omega
  have hcur₂ : u32 ((m₁.curSize : Int) - (k - n : Nat)) = r.sizeFor pre post n :=
    u32_eq (by omega) (by omega)
  rw [hassoc, hs, Option.map_some, hcur₂]
  refine ⟨_, rfl, Resized.of_mem (r.payload.take n) junk₂ ?_ ?_ rfl ?_⟩
  · simp
  · simp [← hk]
    omega
  · omega

theorem Resized.fill {m' : Msg} {src : Src} (h : Resized m m' r pre post src.len)
    (hp : p = pre.length) (hlast : r.me → post = [])
    (hin : r.sizeFor pre post src.len < 4294967296) :
    ∃ m'' field junk' hlt, (copySrc m'.mem (p + r.payloadAt src.len) src).map
        (fun mem => (NdefStatus.ok, (⟨mem, m'.curSize⟩ : Msg))) = some (.ok, m'') ∧
      Seat m'' p (r.withPayload field hlt) pre post junk' ∧ m''.mem.length = m.mem.length ∧
      m''.curSize = r.sizeFor pre post src.len ∧ src.Gives field := by
  obtain ⟨slot, junk', hmem, hslot, hcur, hlen⟩ := h
  have hassoc : ∀ bs : Bytes, pre ++ r.hdrFor src.len :: UInt8.ofNat r.type.length ::
      (lenBytes src.len ++ (r.mid ++ bs ++ post) ++ junk') =
      (pre ++ [r.hdrFor src.len, UInt8.ofNat r.type.length] ++ lenBytes src.len ++ r.mid) ++
        bs ++ (post ++ junk') := by
    simp
  have hat : p + r.payloadAt src.len = (pre ++ [r.hdrFor src.len, UInt8.ofNat r.type.length] ++
      lenBytes src.len ++ r.mid).length := by
    simp [Rec.payloadAt, hp]
    omega
  obtain ⟨field, hgives, hcopy⟩ := copySrc_block (c := post ++ junk') hat hslot.symm
  have hfield := hgives.length_eq
  have hlt : field.length < 4294967296 := by
    rw [hfield]
    unfold Rec.sizeFor at hin
    omega
  have hseat : Seat ⟨pre ++ [r.hdrFor src.len, UInt8.ofNat r.type.length] ++ lenBytes src.len ++ r.mid ++ field ++
      (post ++ junk'), m'.curSize⟩ p (r.withPayload field hlt) pre post junk' := by
    refine Seat.of_cut ?_ hp ?_ hlast ?_
    · rw [← hassoc field, hfield]
    · rw [hfield]
      exact hcur
    · dsimp only
      omega
  rw [hmem, hassoc slot, hcopy, Option.map_some]
  refine ⟨_, field, junk', hlt, rfl, hseat, ?_, hcur, hgives⟩
  rw [← hlen, hmem, hassoc slot]
  simp [hslot, hfield]

theorem replacePayload_writes (h : Seat m p r pre post junk) (ht : r.Tight) (hmax : maxSize ≤ m.mem.length)
    (hcur : m.curSize ≤ maxSize) (src : Src) (hin : r.sizeFor pre post src.len < 4294967296)
    (hclean : r.payload.length > 255 → src.len < 256 → m.curSize < m.mem.length) :
    (maxSize < r.sizeFor pre post src.len →
      ndefMsgReplacePayload m maxSize p src = some (.msgInsufficientMem, m)) ∧
    (r.sizeFor pre post src.len ≤ maxSize →
      ∃ m' field junk' hlt, ndefMsgReplacePayload m maxSize p src = some (.ok, m') ∧
        Seat m' p (r.withPayload field hlt) pre post junk' ∧ m'.mem.length = m.mem.length ∧
        m'.curSize = r.sizeFor pre post src.len ∧ src.Gives field) := by
  have hsame : m.curSize = r.sizeFor pre post r.payload.length := by
    rw [h.size, ht.length]
    rfl
  rw [ndefMsgReplacePayload, h.readRecHdr, Option.bind_some]
  dsimp only
  rw [r.toNat_payloadLen, r.toNat_typeLen, r.toNat_idLen, ht.head_eq]
  by_cases hgrow : src.len > r.payload.length
  · obtain ⟨herr, hok⟩ := growPayload_spec h ht hmax hgrow hin
    rw [if_pos hgrow]
    refine ⟨fun hbig => ?_, fun hfit => ?_⟩
    · obtain ⟨q, hq⟩ := herr hbig
      rw [hq, Option.bind_some, if_neg (by simp)]
    · obtain ⟨m', hm', hres⟩ := hok hfit
      rw [hm', Option.bind_some, if_pos rfl]
      exact hres.fill h.start h.last hin
  · rw [if_neg hgrow]
    by_cases hshrink : src.len < r.payload.length
    · have hless : r.sizeFor pre post src.len ≤ m.curSize := by
        rw [hsame]
        unfold Rec.sizeFor Rec.payloadAt
        split_ifs <;> omega
      obtain ⟨m', hm', hres⟩ := shrinkPayload_spec h ht hshrink hclean
      rw [if_pos hshrink, hm', Option.bind_some, if_pos rfl]
      refine ⟨fun hbig => by omega, fun _ => hres.fill h.start h.last hin⟩
    · have heq : src.len = r.payload.length := by omega
      rw [if_neg hshrink, Option.bind_some, if_pos rfl, heq, ← hsame]
      refine ⟨fun hbig => by omega, fun _ => ?_⟩
      have hsr : r.hdrFor src.len = r.hdr := by
        rw [heq]
        exact r.hdrFor_of_sr ht
      have hres : Resized m m r pre post src.len := by
        refine Resized.of_mem r.payload junk ?_ heq.symm (heq ▸ hsame) ?_
        · rw [h.cut ht, hsr, heq]
        · rw [h.length_mem, heq, hsame]
      have hfill := hres.fill h.start h.last hin
      rwa [heq, ← hsame] at hfill

end Edits

/-! ## Records as the builder lays them out -/

section Builder
variable {m : Msg} {maxSize p : Nat} {r : NdefRec} {mb me : Bool} {pre post junk : Bytes}

theorem NdefRec.frame_tight (r : NdefRec) : (r.frame mb me).Tight := by
  unfold Rec.Tight frame hdr
  rw [has_sr, decide_eq_true_iff]

theorem NdefRec.frame_mid (r : NdefRec) : (r.frame mb me).mid = r.mid := by
  have hid : (r.frame mb me).idField = idBytes r.id := by
    by_cases h : r.id = [] <;> simp [Rec.idField, idBytes, frame, hdr, h]
  rw [Rec.mid, hid]
  rfl

theorem NdefRec.payloadAt_frame (r : NdefRec) (n : Nat) : (r.frame mb me).payloadAt n = r.payloadAt n := by
  rw [Rec.payloadAt, r.frame_mid, payloadAt]

/-- The record with another payload, at the same place. -/
theorem NdefRec.withPayload_frame (r : NdefRec) {bs : Bytes} (hlt : bs.length < 4294967296) :
    (r.frame mb me).withPayload bs hlt = ({ r with payload := bs, payload_lt := hlt } : NdefRec).frame mb me := by
  have hbit : (r.frame mb me).hdrFor bs.length =
      NdefRec.hdr { r with payload := bs, payload_lt := hlt } mb me := by
    obtain ⟨-, -, -, hset, hclear, -⟩ := mkHdr_set_clear r.tnf mb me (decide (r.payload.length < 256)) (decide (r.id ≠ []))
    unfold Rec.hdrFor NdefRec.hdr
    split
    case isTrue h => rw [decide_eq_true h]; exact hset
    case isFalse h => rw [decide_eq_false h]; exact hclear
  simp only [Rec.withPayload, NdefRec.frame, ← hbit]

theorem Place.seat (h : Place m p r mb me pre post junk) : Seat m p (r.frame mb me) pre post junk :=
  ⟨h.mem, h.start, by rw [h.size, r.length_frame], fun hme => h.last ((has_me _ _ _ _ _).mp hme), h.lt⟩

theorem Seat.place (h : Seat m p (r.frame mb me) pre post junk) : Place m p r mb me pre post junk :=
  ⟨h.mem, h.start, by rw [h.size, r.length_frame], fun hme => h.last ((has_me _ _ _ _ _).mpr hme), h.lt⟩

theorem appendPayload_edits (h : Place m p r mb me pre post junk) (hmax : maxSize ≤ m.mem.length)
    (bs : Bytes) (hin : m.curSize + appendGrowth r.payload.length bs.length < 4294967296)
    (hclean : m.curSize + appendGrowth r.payload.length bs.length ≤ maxSize →
      r.payload.length < 256 → r.payload.length + bs.length > 255 → me = true) :
    EditsTo m maxSize (m.curSize + appendGrowth r.payload.length bs.length) p mb me pre post
      (fun r' => r'.tnf = r.tnf ∧ r'.type = r.type ∧ r'.id = r.id ∧ r'.payload = r.payload ++ bs)
      (ndefMsgAppendPayload m maxSize p bs) := by
  have hlast : m.curSize + appendGrowth r.payload.length bs.length ≤ maxSize →
      r.payload.length < 256 → r.payload.length + bs.length > 255 → (r.frame mb me).me :=
    fun hfit h₁ h₂ => (has_me _ _ _ _ _).mpr (hclean hfit h₁ h₂)
  obtain ⟨herr, hok⟩ := appendPayload_writes h.seat r.frame_tight hmax bs hin
    fun hfit h₁ h₂ hme => absurd (hlast hfit h₁ h₂) hme
  refine ⟨herr, fun hfit => ?_⟩
  obtain ⟨m', post', junk', hlt, hres, hseat, hlen, hcur, hpost⟩ := hok hfit
  rw [if_neg (fun hc => hc.2.2 (hlast hfit hc.1 hc.2.1))] at hpost
  subst hpost
  rw [r.withPayload_frame hlt] at hseat
  exact ⟨m', { r with payload := r.payload ++ bs, payload_lt := hlt }, junk', hres, hseat.place, hlen, hcur,
    rfl, rfl, rfl, rfl⟩

/-- The size of the message when the payload has `n` bytes. -/
def sizeWith (pre post : Bytes) (r : NdefRec) (n : Nat) : Nat :=
  pre.length + (r.payloadAt n + n) + post.length

theorem NdefRec.sizeFor_frame (r : NdefRec) (n : Nat) :
    (r.frame mb me).sizeFor pre post n = sizeWith pre post r n := by
  rw [Rec.sizeFor, r.payloadAt_frame, sizeWith]

theorem replacePayload_edits (h : Place m p r mb me pre post junk) (hmax : maxSize ≤ m.mem.length)
    (hcur : m.curSize ≤ maxSize) (src : Src) (hin : sizeWith pre post r src.len < 4294967296)
    (hclean : r.payload.length > 255 → src.len < 256 → m.curSize < m.mem.length) :
    EditsTo m maxSize (sizeWith pre post r src.len) p mb me pre post
      (fun r' => r'.tnf = r.tnf ∧ r'.type = r.type ∧ r'.id = r.id ∧ src.Gives r'.payload)
      (ndefMsgReplacePayload m maxSize p src) := by
  have hsize : (r.frame mb me).sizeFor pre post src.len = sizeWith pre post r src.len := r.sizeFor_frame _
  obtain ⟨herr, hok⟩ := replacePayload_writes h.seat r.frame_tight hmax hcur src (hsize ▸ hin) hclean
  rw [hsize] at herr hok
  refine ⟨herr, fun hfit => ?_⟩
  obtain ⟨m', field, junk', hlt, hres, hseat, hlen, hcur', hgives⟩ := hok hfit
  rw [r.withPayload_frame hlt] at hseat
  exact ⟨m', { r with payload := field, payload_lt := hlt }, junk', hres, hseat.place, hlen, hcur',
    rfl, rfl, rfl, hgives⟩

end Builder

end NfcStack.Ndef
