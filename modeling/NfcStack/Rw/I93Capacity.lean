import Mathlib

/- The room for a message that detection reports for an ISO 15693 tag
   (`RW_I93_SUBSTATE_CHECK_LOCK_STATUS` in `rw_i93_sm_detect_ndef`) and for a Type 5 tag
   (`rw_t5t_sm_detect_ndef`), once the NDEF TLV is found.

   The lock status of the blocks comes one block after the other, or in responses of
   several blocks, and the room is computed from where the last block with a status is.
   The tag answers each request with the status of the blocks asked for.

   An expression in 32 bits is its value in the integers modulo 2^32: `u32` of it. It does
   not wrap where the two are the same.

   What is proved: the greatest length that fits is a function of the bytes there are
   (`fits_greatest_iff`), what is computed is another one (`singleWide_eq`,
   `multi_wide`), and where they agree (`capacity_exact`). The one-by-one path counts to
   the start of the block it stops at, or misses by the size of a block; the other one
   goes on counting behind a locked block, in the next response; and what is taken off for
   the long length field is taken off too early, for one size of the room, or three on a
   Type 5 tag. -/
namespace NfcStack.Rw.I93

def u32 (x : Int) : Nat := (x % 2 ^ 32).toNat

def NoWrap (x : Int) : Prop := 0 ≤ x ∧ x < 2 ^ 32

theorem u32_of_noWrap {x : Int} (h : NoWrap x) : (u32 x : Int) = x := by
  obtain ⟨h0, h1⟩ := h
  simp only [u32]
  rw [Int.emod_eq_of_lt h0 h1]
  omega

structure FoundTag where
  blockSize : Nat
  numBlock : Nat
  ndefTlvStartOffset : Nat
  header : Nat
  ndefLength : Nat
  locked : Nat → Bool
  size_pos : 0 < blockSize
  size_le : blockSize ≤ 32
  blocks_le : numBlock ≤ 2 ^ 16
  cc_le : 4 ≤ ndefTlvStartOffset
  header_in : ndefTlvStartOffset + header ≤ blockSize * numBlock
  header_eq : header = 2 ∧ ndefLength < 0xFF ∨ header = 4 ∧ ndefLength < 2 ^ 16

namespace FoundTag

variable (t : FoundTag)

def ndefTlvLastOffset : Nat := t.ndefTlvStartOffset + (t.header - 1) + t.ndefLength

def firstBlock : Nat := t.ndefTlvStartOffset / t.blockSize

def lastBlock : Nat := t.ndefTlvLastOffset / t.blockSize

end FoundTag

/-! ## What the code computes -/

def adjusted (ndefLength : Nat) (max : Nat) : Nat :=
  if ndefLength < 0xFF ∧ 0xFF ≤ max then max - 2 else max

/-- The status of one block after the other, from that at `rwOffset`, until one is locked
or there is none behind it: the block, and its status. -/
def scanLocks (t : FoundTag) : Nat → Nat → Nat × Bool
  | 0, rwOffset => (rwOffset / t.blockSize, false)
  | k + 1, rwOffset =>
    let block := rwOffset / t.blockSize
    if t.locked block then (block, true)
    else if block + 1 < t.numBlock then scanLocks t k (rwOffset + t.blockSize)
    else (block, false)

/-- `max_ndef_length` where the statuses end with that of `block`. -/
def singleWide (t : FoundTag) (block : Nat) : Int :=
  if block ≤ t.lastBlock then
    (block - t.firstBlock * t.blockSize : Int) - (t.ndefTlvStartOffset % t.blockSize : Nat)
  else
    t.ndefLength + (t.blockSize * ((block : Int) - t.lastBlock) + 1)
      - (t.ndefTlvLastOffset % t.blockSize : Nat) - 1

def singleReadOnly (t : FoundTag) : Bool :=
  let s := scanLocks t t.numBlock t.ndefTlvStartOffset
  s.2 && decide (s.1 ≤ t.lastBlock)

def singleWideRun (t : FoundTag) : Int :=
  singleWide t (scanLocks t t.numBlock t.ndefTlvStartOffset).1

def singleMax (t : FoundTag) : Nat := adjusted t.ndefLength (u32 (singleWideRun t))

/-- The control block while the statuses come in responses of several blocks; `rwOffset`
counts blocks. -/
structure SecCb where
  rwOffset : Nat
  wide : Int
  readOnly : Bool

/-- The loop over the statuses in a response: `k` blocks from `block` on. -/
def secLoop (t : FoundTag) : Nat → Nat → SecCb → SecCb
  | 0, _, cb => cb
  | k + 1, block, cb =>
    if block ≤ t.lastBlock then
      if t.locked block then { cb with readOnly := true } else secLoop t k (block + 1) cb
    else if t.locked block then cb
    else secLoop t k (block + 1) { cb with wide := cb.wide + t.blockSize }

def baseWide (t : FoundTag) : Int :=
  t.ndefLength + t.blockSize - (t.ndefTlvLastOffset % t.blockSize : Nat) - 1

def secResponse (t : FoundTag) (cb : SecCb) (n : Nat) : SecCb :=
  let first := if cb.rwOffset = 0 then t.firstBlock else 0
  let cb := if cb.rwOffset = 0 then { cb with wide := baseWide t } else cb
  let cb := secLoop t (n - first) (cb.rwOffset + first) cb
  { cb with rwOffset := cb.rwOffset + n }

/-- The responses, each with as many blocks as `sizes` says. -/
def secRun (t : FoundTag) (sizes : List Nat) : SecCb :=
  sizes.foldl (secResponse t) ⟨0, 0, false⟩

def multiMax (t : FoundTag) (sizes : List Nat) : Nat := adjusted t.ndefLength (u32 (secRun t sizes).wide)

/-- A Type 5 tag with an NDEF TLV that was found, maybe at the end of its area or behind it: the
response that holds its type need not end with the area. -/
structure FoundT5t where
  ndefTlvStartOffset : Nat
  t5tAreaLastOffset : Nat
  area_lt : t5tAreaLastOffset < 2 ^ 20

/-- `max_ndef_length` before the length field is taken off. -/
def t5tWide (t : FoundT5t) : Int := t.t5tAreaLastOffset - t.ndefTlvStartOffset + 1

def t5tHeader (t : FoundT5t) : Int := if 0xFF ≤ u32 (t5tWide t) then 4 else 2

def t5tMax (t : FoundT5t) : Nat := u32 (t5tWide t - t5tHeader t)

/-! ## What there is room for -/

def tlvSize (n : Nat) : Nat := 1 + (if n < 0xFF then 1 else 3) + n

def capacity (a : Nat) : Nat := if a < 257 then a - 2 else if a < 259 then 254 else a - 4

theorem tlvSize_le_iff {a : Nat} (ha : 2 ≤ a) (n : Nat) : tlvSize n ≤ a ↔ n ≤ capacity a := by
  simp only [tlvSize, capacity]
  split <;> split <;> try split
  all_goals omega

theorem fits_greatest_iff {a m : Nat} (ha : 2 ≤ a) : IsGreatest {n | tlvSize n ≤ a} m ↔ m = capacity a := by
  constructor
  · intro h
    apply Nat.le_antisymm
    · exact (tlvSize_le_iff ha m).mp h.1
    · exact h.2 ((tlvSize_le_iff ha _).mpr (Nat.le_refl _))
  · intro h
    subst h
    constructor
    · exact (tlvSize_le_iff ha _).mpr (Nat.le_refl _)
    · intro n hn
      exact (tlvSize_le_iff ha n).mp hn

/-- A TLV of `n` bytes at the position of the one found is in the memory, and no block
behind the latter that it takes is locked or has a locked one before it. -/
def Fits (t : FoundTag) (n : Nat) : Prop :=
  ∀ p, t.ndefTlvStartOffset ≤ p → p < t.ndefTlvStartOffset + tlvSize n →
    p / t.blockSize < t.numBlock ∧ ∀ b, t.lastBlock < b → b ≤ p / t.blockSize → t.locked b = false

/-- How many of the `k` blocks from `b` on come before the first locked one. -/
def lead (locked : Nat → Bool) : Nat → Nat → Nat
  | _, 0 => 0
  | b, k + 1 => if locked b then 0 else lead locked (b + 1) k + 1

theorem lead_le (locked : Nat → Bool) (k : Nat) : ∀ b, lead locked b k ≤ k := by
  induction k with
  | zero => exact fun _ => Nat.le_refl _
  | succ k ih =>
    intro b
    have := ih (b + 1)
    simp only [lead]
    split <;> omega

theorem lead_unlocked (locked : Nat → Bool) (k : Nat) :
    ∀ b c, b ≤ c → c < b + lead locked b k → locked c = false := by
  induction k with
  | zero =>
    intro b c hb hc
    simp only [lead] at hc
    omega
  | succ k ih =>
    intro b c hb hc
    simp only [lead] at hc
    split at hc
    · omega
    case isFalse hunlocked =>
      rcases Nat.eq_or_lt_of_le hb with rfl | hlt
      · simpa using hunlocked
      · exact ih (b + 1) c hlt (by omega)

theorem lead_locked (locked : Nat → Bool) (k : Nat) :
    ∀ b, lead locked b k < k → locked (b + lead locked b k) = true := by
  induction k with
  | zero => exact fun _ h => absurd h (Nat.not_lt_zero _)
  | succ k ih =>
    intro b h
    simp only [lead] at h ⊢
    split at h
    case isTrue hlocked => rw [if_pos hlocked]; exact hlocked
    case isFalse hunlocked =>
      rw [if_neg hunlocked]
      have := ih (b + 1) (by omega)
      rw [show b + (lead locked (b + 1) k + 1) = b + 1 + lead locked (b + 1) k by omega]
      exact this

theorem lead_eq {locked : Nat → Bool} {k b n : Nat} (hn : n ≤ k)
    (hun : ∀ c, b ≤ c → c < b + n → locked c = false) (hl : n < k → locked (b + n) = true) :
    lead locked b k = n := by
  rcases Nat.lt_trichotomy (lead locked b k) n with h | h | h
  · have hlocked := lead_locked locked k b (by omega)
    rw [hun _ (by omega) (by omega)] at hlocked
    cases hlocked
  · exact h
  · have hunlocked := lead_unlocked locked k b (b + n) (by omega) (by omega)
    rw [hl (by have := lead_le locked k b; omega)] at hunlocked
    cases hunlocked

theorem lead_add_le (locked : Nat → Bool) (m k : Nat) :
    ∀ b, lead locked b (m + k) ≤ lead locked b m + lead locked (b + m) k := by
  induction m with
  | zero => simp [lead]
  | succ m ih =>
    intro b
    rw [show m + 1 + k = (m + k) + 1 by omega]
    simp only [lead]
    split
    · omega
    · have := ih (b + 1)
      rw [show b + (m + 1) = b + 1 + m by omega]
      omega

namespace FoundTag

variable (t : FoundTag)

/-- The first locked block behind the TLV, or the end of the memory. -/
def endBlock : Nat :=
  min t.numBlock (t.lastBlock + 1 + lead t.locked (t.lastBlock + 1) (t.numBlock - (t.lastBlock + 1)))

def room : Nat := t.blockSize * t.endBlock - t.ndefTlvStartOffset

theorem header_le : t.header ≤ 4 ∧ 2 ≤ t.header := by
  have := t.header_eq
  omega

theorem last_eq : t.blockSize * t.lastBlock + t.ndefTlvLastOffset % t.blockSize = t.ndefTlvLastOffset :=
  Nat.div_add_mod _ _

theorem last_lt : t.ndefTlvLastOffset < t.blockSize * (t.lastBlock + 1) :=
  Nat.lt_mul_div_succ _ t.size_pos

theorem start_le_last : t.ndefTlvStartOffset + t.header ≤ t.ndefTlvLastOffset + 1 := by
  have := t.header_le
  simp only [ndefTlvLastOffset]
  omega

theorem firstBlock_le : t.firstBlock ≤ t.lastBlock := by
  apply Nat.div_le_div_right
  have := t.start_le_last
  have := t.header_le
  omega

theorem firstBlock_lt : t.firstBlock < t.numBlock := by
  have := t.header_in
  have := t.header_le
  apply Nat.div_lt_of_lt_mul
  omega

theorem endBlock_room : t.ndefTlvStartOffset + t.header ≤ t.blockSize * t.endBlock := by
  have hlast := t.last_lt
  have hstart := t.start_le_last
  have hmem := t.header_in
  simp only [endBlock]
  rcases Nat.le_total t.numBlock
    (t.lastBlock + 1 + lead t.locked (t.lastBlock + 1) (t.numBlock - (t.lastBlock + 1))) with h | h
  · rw [Nat.min_eq_left h]
    exact hmem
  · rw [Nat.min_eq_right h, Nat.mul_add]
    omega

theorem room_eq : t.ndefTlvStartOffset + t.room = t.blockSize * t.endBlock := by
  have := t.endBlock_room
  simp only [room]
  omega

theorem room_ge : 2 ≤ t.room := by
  have := t.endBlock_room
  have := t.header_le
  simp only [room]
  omega

end FoundTag

theorem fits_iff (t : FoundTag) (n : Nat) : Fits t n ↔ tlvSize n ≤ t.room := by
  have hroom := t.room_eq
  have hsize : 2 ≤ tlvSize n := by
    simp only [tlvSize]
    split <;> omega
  constructor
  · intro h
    obtain ⟨hmem, hun⟩ := h (t.ndefTlvStartOffset + tlvSize n - 1) (by omega) (by omega)
    have hlt : (t.ndefTlvStartOffset + tlvSize n - 1) / t.blockSize < t.endBlock := by
      simp only [FoundTag.endBlock, Nat.lt_min]
      refine ⟨hmem, ?_⟩
      by_contra hge
      have hlead := lead_locked t.locked (t.numBlock - (t.lastBlock + 1)) (t.lastBlock + 1) (by omega)
      rw [hun _ (by omega) (by omega)] at hlead
      cases hlead
    have := (Nat.div_lt_iff_lt_mul t.size_pos).mp hlt
    rw [Nat.mul_comm] at this
    omega
  · intro h p hp hlt
    have hblock : p / t.blockSize < t.endBlock := by
      apply (Nat.div_lt_iff_lt_mul t.size_pos).mpr
      rw [Nat.mul_comm]
      omega
    simp only [FoundTag.endBlock, Nat.lt_min] at hblock
    refine ⟨hblock.1, ?_⟩
    intro b hb hle
    exact lead_unlocked t.locked (t.numBlock - (t.lastBlock + 1)) (t.lastBlock + 1) b hb (by omega)

theorem fits_isGreatest_iff (t : FoundTag) (m : Nat) : IsGreatest {n | Fits t n} m ↔ m = capacity t.room := by
  simp only [fits_iff]
  exact fits_greatest_iff t.room_ge

/-! ## The statuses one by one -/

theorem scanLocks_spec (t : FoundTag) (k : Nat) :
    ∀ off, off / t.blockSize < t.numBlock → t.numBlock ≤ off / t.blockSize + k →
      off / t.blockSize ≤ (scanLocks t k off).1 ∧ (scanLocks t k off).1 < t.numBlock ∧
      (∀ b, off / t.blockSize ≤ b → b < (scanLocks t k off).1 → t.locked b = false) ∧
      t.locked (scanLocks t k off).1 = (scanLocks t k off).2 ∧
      ((scanLocks t k off).2 = false → (scanLocks t k off).1 + 1 = t.numBlock) := by
  induction k with
  | zero =>
    intro off hlt hk
    omega
  | succ k ih =>
    intro off hlt hk
    have hnext : (off + t.blockSize) / t.blockSize = off / t.blockSize + 1 :=
      Nat.add_div_right off t.size_pos
    simp only [scanLocks]
    cases hl : t.locked (off / t.blockSize) with
    | true =>
      simp only [if_true]
      refine ⟨Nat.le_refl _, hlt, ?_, hl, by simp⟩
      intro b hb hb'
      omega
    | false =>
      simp only [Bool.false_eq_true, if_false]
      split
      case isTrue hmore =>
        have h := ih (off + t.blockSize) (by omega) (by omega)
        rw [hnext] at h
        obtain ⟨hge, hmem, hun, hstatus, hlast⟩ := h
        refine ⟨by omega, hmem, ?_, hstatus, hlast⟩
        intro b hb hb'
        rcases Nat.eq_or_lt_of_le hb with rfl | hb''
        · exact hl
        · exact hun b hb'' hb'
      case isFalse hend =>
        refine ⟨Nat.le_refl _, hlt, ?_, hl, fun _ => by omega⟩
        intro b hb hb'
        omega

theorem scan_stops (t : FoundTag) (hw : singleReadOnly t = false) :
    (t.endBlock < t.numBlock ∧ t.lastBlock < t.endBlock ∧
      (scanLocks t t.numBlock t.ndefTlvStartOffset).1 = t.endBlock) ∨
    (t.endBlock = t.numBlock ∧ (scanLocks t t.numBlock t.ndefTlvStartOffset).1 + 1 = t.numBlock) := by
  obtain ⟨hge, hlt, hun, hstatus, hlast⟩ :=
    scanLocks_spec t t.numBlock t.ndefTlvStartOffset t.firstBlock_lt (Nat.le_add_left _ _)
  simp only [singleReadOnly] at hw
  generalize hs : scanLocks t t.numBlock t.ndefTlvStartOffset = s at *
  have hfirst := t.firstBlock_le
  simp only [FoundTag.firstBlock] at hfirst
  cases hlocked : s.2 with
  | true =>
    rw [hlocked] at hw hstatus
    have hbehind : t.lastBlock < s.1 := by simpa using hw
    left
    have hlead : lead t.locked (t.lastBlock + 1) (t.numBlock - (t.lastBlock + 1)) =
        s.1 - (t.lastBlock + 1) := by
      apply lead_eq
      · omega
      · intro c hc hc'
        exact hun c (by omega) (by omega)
      · intro _
        rw [show t.lastBlock + 1 + (s.1 - (t.lastBlock + 1)) = s.1 by omega]
        exact hstatus
    simp only [FoundTag.endBlock, hlead]
    omega
  | false =>
    have hend := hlast hlocked
    right
    refine ⟨?_, hend⟩
    rw [hlocked] at hstatus
    rcases Nat.lt_or_ge t.lastBlock t.numBlock with hin | hout
    · have hlead : lead t.locked (t.lastBlock + 1) (t.numBlock - (t.lastBlock + 1)) =
          t.numBlock - (t.lastBlock + 1) := by
        apply lead_eq (Nat.le_refl _)
        · intro c hc hc'
          rcases Nat.lt_or_ge c s.1 with hcs | hcs
          · exact hun c (by omega) hcs
          · rw [show c = s.1 by omega]
            exact hstatus
        · intro h
          omega
      simp only [FoundTag.endBlock, hlead]
      omega
    · simp only [FoundTag.endBlock]
      omega

theorem singleWide_eq (t : FoundTag) (hw : singleReadOnly t = false) :
    (t.endBlock < t.numBlock → singleWideRun t = t.room - t.header + 1) ∧
    (t.endBlock = t.numBlock → t.lastBlock + 1 < t.numBlock →
      singleWideRun t = t.room - t.blockSize - t.header + 1) ∧
    (t.endBlock = t.numBlock → t.numBlock ≤ t.lastBlock + 1 →
      singleWideRun t = t.numBlock - 1 - t.ndefTlvStartOffset) := by
  have hstops := scan_stops t hw
  have hroom : (t.ndefTlvStartOffset : Int) + t.room = t.blockSize * t.endBlock := by
    exact_mod_cast t.room_eq
  have hlast : (t.blockSize : Int) * t.lastBlock + (t.ndefTlvLastOffset % t.blockSize : Nat) =
      t.ndefTlvLastOffset := by exact_mod_cast t.last_eq
  have hdef : (t.ndefTlvLastOffset : Int) = t.ndefTlvStartOffset + t.header - 1 + t.ndefLength := by
    have := t.header_le
    simp only [FoundTag.ndefTlvLastOffset]
    omega
  simp only [singleWideRun]
  generalize (scanLocks t t.numBlock t.ndefTlvStartOffset).1 = block at *
  refine ⟨?_, ?_, ?_⟩
  · intro hend
    obtain ⟨-, hbehind, rfl⟩ | ⟨habs, -⟩ := hstops
    · simp only [singleWide, Nat.not_le.mpr hbehind, if_false]
      linarith
    · omega
  · intro hend hmore
    obtain ⟨habs, -, -⟩ | ⟨-, hblock⟩ := hstops
    · omega
    · have hbehind : ¬ block ≤ t.lastBlock := by omega
      simp only [singleWide, hbehind, if_false]
      have hb : (block : Int) = t.endBlock - 1 := by omega
      rw [hb]
      linarith
  · intro hend hin
    obtain ⟨habs, -, -⟩ | ⟨-, hblock⟩ := hstops
    · omega
    · have hbehind : block ≤ t.lastBlock := by omega
      have hstart : (t.blockSize : Int) * t.firstBlock + (t.ndefTlvStartOffset % t.blockSize : Nat) =
          t.ndefTlvStartOffset := by
        exact_mod_cast Nat.div_add_mod t.ndefTlvStartOffset t.blockSize
      simp only [singleWide, hbehind, if_true]
      have hb : (block : Int) = t.numBlock - 1 := by omega
      rw [hb]
      linarith

/-- Where the room comes out right, by the statuses one by one. -/
def SingleRight (t : FoundTag) : Prop :=
  t.ndefLength < 0xFF ∧ t.room = 257 ∧
      (t.endBlock < t.numBlock ∨ t.numBlock ≤ t.lastBlock + 1 ∧ t.blockSize = 1) ∨
    t.endBlock = t.numBlock ∧ t.lastBlock + 1 < t.numBlock ∧
      (t.blockSize = 1 ∧ (0xFF ≤ t.ndefLength ∨ t.header = 2 ∧ t.room ≠ 257 ∨
          t.header = 4 ∧ t.room = 258) ∨
        t.ndefLength < 0xFF ∧ t.header = 2 ∧
          (t.blockSize = 2 ∧ t.room = 257 ∨ t.blockSize = 3 ∧ t.room = 258))

namespace FoundTag

variable (t : FoundTag)

theorem room_lt : t.room < 2 ^ 22 := by
  have hend : t.endBlock ≤ 2 ^ 16 := (Nat.min_le_left _ _).trans t.blocks_le
  have hmul : t.blockSize * t.endBlock ≤ 32 * 2 ^ 16 := Nat.mul_le_mul t.size_le hend
  simp only [room]
  omega

theorem header_room : t.header ≤ t.room := by
  have := t.endBlock_room
  simp only [room]
  omega

theorem endBlock_le : t.endBlock ≤ t.numBlock := Nat.min_le_left _ _

theorem found_room {d : Nat} (h : t.lastBlock + d < t.endBlock) :
    t.header + t.ndefLength + t.blockSize * d ≤ t.room := by
  have hlast := t.last_lt
  have hmul : t.blockSize * (t.lastBlock + 1 + d) ≤ t.blockSize * t.endBlock :=
    Nat.mul_le_mul_left _ (by omega)
  rw [Nat.mul_add] at hmul
  have := t.header_le
  simp only [room, ndefTlvLastOffset] at *
  omega

end FoundTag

instance SingleRight.decidable (t : FoundTag) : Decidable (SingleRight t) :=
  inferInstanceAs (Decidable (_ ∨ _))

/-! ### When the computed value is the room -/

section
variable {R h len m : Nat} (heq : h = 2 ∧ len < 0xFF ∨ h = 4 ∧ len < 2 ^ 16)

include heq

theorem adjusted_succ (hfit : h + len ≤ R) (hm : m + h = R + 1) :
    adjusted len m = capacity R ↔ len < 0xFF ∧ R = 257 := by
  simp only [adjusted, capacity]
  split <;> split <;> try split
  all_goals omega

theorem adjusted_sub {bs : Nat} (hpos : 0 < bs) (hfit : h + len + bs ≤ R) (hm : m + h + bs = R + 1) :
    adjusted len m = capacity R ↔
      bs = 1 ∧ (0xFF ≤ len ∨ h = 2 ∧ R ≠ 257 ∨ h = 4 ∧ R = 258) ∨
        len < 0xFF ∧ h = 2 ∧ (bs = 2 ∧ R = 257 ∨ bs = 3 ∧ R = 258) := by
  simp only [adjusted, capacity]
  split <;> split <;> try split
  all_goals omega

omit heq in
theorem adjusted_pred (hge : 2 ≤ R) (hm : m + 1 = R) :
    adjusted len m = capacity R ↔ len < 0xFF ∧ R = 257 := by
  simp only [adjusted, capacity]
  split <;> split <;> try split
  all_goals omega

end

theorem adjusted_le (len m : Nat) : adjusted len m ≤ m ∧ m ≤ adjusted len m + 2 := by
  simp only [adjusted]
  split <;> omega

theorem capacity_ge (R : Nat) : R ≤ capacity R + 4 := by
  simp only [capacity]
  split
  · omega
  · split <;> omega

theorem single_right_iff (t : FoundTag) (hw : singleReadOnly t = false) :
    IsGreatest {n | Fits t n} (singleMax t) ∧ NoWrap (singleWideRun t) ↔ SingleRight t := by
  obtain ⟨hlocked, hfree, hlastBlock⟩ := singleWide_eq t hw
  have hlt := t.room_lt
  have hge := t.room_ge
  have hheader := t.header_room
  have hpos := t.size_pos
  have hle := t.endBlock_le
  rw [fits_isGreatest_iff]
  simp only [singleMax]
  -- what is computed is right only where it does not wrap
  have hval : NoWrap (singleWideRun t) → (u32 (singleWideRun t) : Int) = singleWideRun t := u32_of_noWrap
  generalize singleWideRun t = wide at *
  generalize u32 wide = m at *
  simp only [SingleRight]
  rcases Nat.lt_or_ge t.endBlock t.numBlock with hend | hend
  · obtain ⟨-, hbehind, -⟩ | ⟨habs, -⟩ := scan_stops t hw
    · have hfound := t.found_room (by rwa [Nat.add_zero] : t.lastBlock + 0 < t.endBlock)
      have hwide := hlocked hend
      have hno : NoWrap wide := ⟨by omega, by omega⟩
      have hm := hval hno
      simp only [hno, and_true]
      rw [adjusted_succ t.header_eq (by omega) (by omega)]
      have hne : t.endBlock ≠ t.numBlock := by omega
      simp [hend, hne]
    · omega
  have hendEq : t.endBlock = t.numBlock := by omega
  rcases Nat.lt_or_ge (t.lastBlock + 1) t.numBlock with hmore | hin
  · have hfound := t.found_room (by omega : t.lastBlock + 1 < t.endBlock)
    rw [Nat.mul_one] at hfound
    have hwide := hfree hendEq hmore
    have hno : NoWrap wide := ⟨by omega, by omega⟩
    have hm := hval hno
    simp only [hno, and_true]
    rw [adjusted_sub t.header_eq hpos (by omega) (by omega)]
    simp [hendEq, hmore, Nat.not_le.mpr hmore]
  · have hwide := hlastBlock hendEq hin
    have hroom := t.room_eq
    have hcc := t.cc_le
    rw [hendEq] at hroom
    have hblocks := t.blocks_le
    by_cases hone : t.blockSize = 1
    · rw [hone, Nat.one_mul] at hroom
      have hno : NoWrap wide := ⟨by omega, by omega⟩
      have hm := hval hno
      simp only [hno, and_true]
      rw [adjusted_pred hge (by omega)]
      simp [hendEq, hin, hone, Nat.not_lt.mpr hin]
    · have hmul : 2 * t.numBlock ≤ t.blockSize * t.numBlock := Nat.mul_le_mul_right _ (by omega)
      constructor
      · intro h
        obtain ⟨hmax, hno⟩ := h
        have hm := hval hno
        have h0 := hno.1
        have := adjusted_le t.ndefLength m
        have := capacity_ge t.room
        omega
      · intro h
        omega

/-! ## The statuses of several blocks -/

theorem secLoop_rwOffset (t : FoundTag) (k : Nat) :
    ∀ b cb, (secLoop t k b cb).rwOffset = cb.rwOffset := by
  induction k with
  | zero => exact fun _ _ => rfl
  | succ k ih =>
    intro b cb
    simp only [secLoop]
    split
    · split
      · rfl
      · exact ih _ _
    · split
      · rfl
      · exact ih _ _

theorem secLoop_readOnly (t : FoundTag) (k : Nat) :
    ∀ b cb, cb.readOnly = true → (secLoop t k b cb).readOnly = true := by
  induction k with
  | zero => exact fun _ _ h => h
  | succ k ih =>
    intro b cb h
    simp only [secLoop]
    split
    · split
      · rfl
      · exact ih _ _ h
    · split
      · exact h
      · exact ih _ _ h

theorem secLoop_wide (t : FoundTag) (k : Nat) :
    ∀ b cb, (secLoop t k b cb).readOnly = false →
      (secLoop t k b cb).wide = cb.wide + t.blockSize *
        (lead t.locked (max b (t.lastBlock + 1)) (b + k - max b (t.lastBlock + 1)) : Nat) := by
  induction k with
  | zero =>
    intro b cb _
    rw [show b + 0 - max b (t.lastBlock + 1) = 0 by omega]
    simp [secLoop, lead]
  | succ k ih =>
    intro b cb h
    simp only [secLoop] at h ⊢
    split at h
    case isTrue hin =>
      rw [if_pos hin]
      split at h
      · simp at h
      case isFalse hun =>
        rw [if_neg hun, ih _ _ h]
        rw [show max (b + 1) (t.lastBlock + 1) = max b (t.lastBlock + 1) by omega]
        rw [show b + 1 + k = b + (k + 1) by omega]
    case isFalse hout =>
      rw [if_neg hout]
      rw [show max b (t.lastBlock + 1) = b by omega, show b + (k + 1) - b = k + 1 by omega]
      simp only [lead]
      split at h
      case isTrue hl => simp [hl]
      case isFalse hun =>
        rw [if_neg hun, if_neg hun, ih _ _ h]
        rw [show max (b + 1) (t.lastBlock + 1) = b + 1 by omega, show b + 1 + k - (b + 1) = k by omega]
        push_cast
        ring

/-- The blocks behind the TLV that each response, from the block `off` on, has before its
first locked one. -/
def counted (t : FoundTag) : Nat → List Nat → Nat
  | _, [] => 0
  | off, n :: ns =>
    lead t.locked (max off (t.lastBlock + 1)) (off + n - max off (t.lastBlock + 1)) +
      counted t (off + n) ns

theorem secResponse_rwOffset (t : FoundTag) (cb : SecCb) (n : Nat) :
    (secResponse t cb n).rwOffset = cb.rwOffset + n := by
  simp only [secResponse, secLoop_rwOffset]
  split <;> rfl

theorem secResponse_readOnly (t : FoundTag) (cb : SecCb) (n : Nat) (h : cb.readOnly = true) :
    (secResponse t cb n).readOnly = true := by
  simp only [secResponse]
  apply secLoop_readOnly
  split
  · exact h
  · exact h

theorem secFold_readOnly (t : FoundTag) (sizes : List Nat) :
    ∀ cb, (sizes.foldl (secResponse t) cb).readOnly = false → cb.readOnly = false := by
  induction sizes with
  | nil => exact fun _ h => h
  | cons n ns ih =>
    intro cb h
    have := ih _ h
    by_contra hro
    rw [secResponse_readOnly t cb n (by simpa using hro)] at this
    cases this

theorem secResponse_wide (t : FoundTag) (cb : SecCb) (n : Nat)
    (h : (secResponse t cb n).readOnly = false) :
    (secResponse t cb n).wide = (if cb.rwOffset = 0 then baseWide t else cb.wide) + t.blockSize *
      (lead t.locked (max cb.rwOffset (t.lastBlock + 1))
        (cb.rwOffset + n - max cb.rwOffset (t.lastBlock + 1)) : Nat) := by
  simp only [secResponse] at h ⊢
  rw [secLoop_wide t _ _ _ h]
  have hfirst := t.firstBlock_le
  by_cases h0 : cb.rwOffset = 0
  · simp only [h0, if_true, Nat.zero_add]
    rw [show max t.firstBlock (t.lastBlock + 1) = t.lastBlock + 1 by omega]
    rw [show max 0 (t.lastBlock + 1) = t.lastBlock + 1 by omega]
    rw [show t.firstBlock + (n - t.firstBlock) - (t.lastBlock + 1) = n - (t.lastBlock + 1) by omega]
  · simp only [h0, if_false, Nat.add_zero, Nat.sub_zero]

theorem secFold_wide (t : FoundTag) (sizes : List Nat) :
    ∀ cb, (sizes.foldl (secResponse t) cb).readOnly = false → cb.rwOffset + sizes.sum ≠ 0 →
      (sizes.foldl (secResponse t) cb).wide =
        (if cb.rwOffset = 0 then baseWide t else cb.wide) +
          t.blockSize * (counted t cb.rwOffset sizes : Nat) := by
  induction sizes with
  | nil =>
    intro cb _ h0
    have hne : cb.rwOffset ≠ 0 := by simpa using h0
    simp [counted, hne]
  | cons n ns ih =>
    intro cb h h0
    rw [List.foldl_cons] at h ⊢
    have hro := secFold_readOnly t ns _ h
    have hoff := secResponse_rwOffset t cb n
    rw [List.sum_cons] at h0
    rw [ih _ h (by omega), hoff, secResponse_wide t cb n hro]
    simp only [counted]
    by_cases hz : cb.rwOffset + n = 0
    · -- an answer without a status changes nothing
      have hz0 : cb.rwOffset = 0 := by omega
      have hn0 : n = 0 := by omega
      simp only [hz0, hn0, if_true]
      rw [show 0 + 0 - max 0 (t.lastBlock + 1) = 0 by omega]
      simp [lead]
    · rw [if_neg hz]
      push_cast
      ring

theorem lead_split_le (t : FoundTag) (sizes : List Nat) :
    ∀ off, lead t.locked (max off (t.lastBlock + 1))
        (off + sizes.sum - max off (t.lastBlock + 1)) ≤ counted t off sizes := by
  induction sizes with
  | nil =>
    intro off
    rw [List.sum_nil, show off + 0 - max off (t.lastBlock + 1) = 0 by omega]
    simp [lead, counted]
  | cons n ns ih =>
    intro off
    have hrest := ih (off + n)
    rw [List.sum_cons]
    simp only [counted]
    by_cases hbehind : off + n ≤ t.lastBlock + 1
    · rw [show max (off + n) (t.lastBlock + 1) = max off (t.lastBlock + 1) by omega] at hrest
      rw [show off + n + ns.sum = off + (n + ns.sum) by omega] at hrest
      omega
    · have hadd := lead_add_le t.locked (off + n - max off (t.lastBlock + 1)) ns.sum
        (max off (t.lastBlock + 1))
      rw [show max (off + n) (t.lastBlock + 1) = off + n by omega] at hrest
      rw [show off + n + ns.sum - (off + n) = ns.sum by omega] at hrest
      rw [show max off (t.lastBlock + 1) + (off + n - max off (t.lastBlock + 1)) = off + n by omega] at hadd
      rw [show off + (n + ns.sum) - max off (t.lastBlock + 1) =
        off + n - max off (t.lastBlock + 1) + ns.sum by omega]
      omega

theorem counted_before (t : FoundTag) (sizes : List Nat) :
    ∀ off, off + sizes.sum ≤ t.lastBlock + 1 → counted t off sizes = 0 := by
  induction sizes with
  | nil => exact fun _ _ => rfl
  | cons n ns ih =>
    intro off h
    rw [List.sum_cons] at h
    simp only [counted]
    rw [ih (off + n) (by omega), show off + n - max off (t.lastBlock + 1) = 0 by omega]
    rfl

/-- The blocks that are counted though a locked one is before them, in an earlier response,
and those that the TLV has behind the end of the memory. -/
def extraBlocks (t : FoundTag) (sizes : List Nat) : Nat :=
  counted t 0 sizes - lead t.locked (t.lastBlock + 1) (t.numBlock - (t.lastBlock + 1)) +
    (t.lastBlock + 1 - t.numBlock)

theorem baseWide_eq (t : FoundTag) :
    baseWide t = t.blockSize * (t.lastBlock + 1 : Nat) - t.ndefTlvStartOffset - t.header := by
  have hlast : (t.blockSize : Int) * t.lastBlock + (t.ndefTlvLastOffset % t.blockSize : Nat) =
      t.ndefTlvLastOffset := by exact_mod_cast t.last_eq
  have hdef : (t.ndefTlvLastOffset : Int) = t.ndefTlvStartOffset + t.header - 1 + t.ndefLength := by
    have := t.header_le
    simp only [FoundTag.ndefTlvLastOffset]
    omega
  simp only [baseWide]
  rw [Nat.cast_add, Nat.cast_one]
  linarith

theorem multi_wide (t : FoundTag) {sizes : List Nat} (hsum : sizes.sum = t.numBlock)
    (hw : (secRun t sizes).readOnly = false) :
    (secRun t sizes).wide = t.room - t.header + t.blockSize * extraBlocks t sizes := by
  have hne : sizes.sum ≠ 0 := by
    have := t.firstBlock_lt
    omega
  have hwide := secFold_wide t sizes ⟨0, 0, false⟩ hw (by simpa using hne)
  have hroom : (t.ndefTlvStartOffset : Int) + t.room = t.blockSize * t.endBlock := by
    exact_mod_cast t.room_eq
  simp only [secRun]
  rw [hwide]
  simp only [if_true, baseWide_eq]
  have hsplit := lead_split_le t sizes 0
  rw [hsum, Nat.zero_add, show max 0 (t.lastBlock + 1) = t.lastBlock + 1 by omega] at hsplit
  have hlead := lead_le t.locked (t.numBlock - (t.lastBlock + 1)) (t.lastBlock + 1)
  rcases Nat.le_total (t.lastBlock + 1) t.numBlock with hin | hout
  · have hend : t.endBlock =
        t.lastBlock + 1 + lead t.locked (t.lastBlock + 1) (t.numBlock - (t.lastBlock + 1)) := by
      simp only [FoundTag.endBlock]
      omega
    rw [hend] at hroom
    have hextra : (extraBlocks t sizes : Int) = counted t 0 sizes -
        lead t.locked (t.lastBlock + 1) (t.numBlock - (t.lastBlock + 1)) := by
      simp only [extraBlocks]
      omega
    rw [hextra]
    push_cast at hroom ⊢
    linarith
  · have hend : t.endBlock = t.numBlock := by
      simp only [FoundTag.endBlock]
      omega
    rw [hend] at hroom
    have hcount := counted_before t sizes 0 (by omega)
    have hextra : (extraBlocks t sizes : Int) = (t.lastBlock + 1 : Nat) - t.numBlock := by
      simp only [extraBlocks, hcount]
      omega
    rw [hcount, hextra]
    push_cast
    linarith

/-- When a computed value that has `x` bytes of other blocks is the room. -/
def ExtraRight (R h len x : Nat) : Prop :=
  if len < 0xFF then
    if h = 2 then
      x = 0 ∧ R ≠ 257 ∨ x = 1 ∧ R = 257 ∨ x = 2 ∧ (R = 255 ∨ R = 256)
    else
      x = 0 ∧ R = 258 ∨ x = 1 ∧ R = 257 ∨ x = 2 ∧ R ≠ 257 ∨ x = 3 ∧ R = 257 ∨
        x = 4 ∧ (R = 255 ∨ R = 256)
  else x = 0 ∧ 258 ≤ R ∨ x = 1 ∧ R = 257 ∨ x = 2 ∧ R < 257

instance ExtraRight.decidable (R h len x : Nat) : Decidable (ExtraRight R h len x) :=
  inferInstanceAs (Decidable (ite _ _ _))

theorem adjusted_extra {R h len x m : Nat} (heq : h = 2 ∧ len < 0xFF ∨ h = 4 ∧ len < 2 ^ 16)
    (hge : h ≤ R) (hm : m + h = R + x) : adjusted len m = capacity R ↔ ExtraRight R h len x := by
  simp only [adjusted, capacity, ExtraRight]
  by_cases hlen : len < 0xFF
  · simp only [hlen, true_and, if_true]
    by_cases hh : h = 2
    · simp only [hh, if_true]
      split <;> split <;> try split
      all_goals omega
    · simp only [hh, if_false]
      split <;> split <;> try split
      all_goals omega
  · simp only [hlen, false_and, if_false]
    split
    · omega
    · split <;> omega

theorem counted_le (t : FoundTag) (sizes : List Nat) : ∀ off, counted t off sizes ≤ sizes.sum := by
  induction sizes with
  | nil => exact fun _ => Nat.le_refl _
  | cons n ns ih =>
    intro off
    have hrest := ih (off + n)
    have hlead := lead_le t.locked (off + n - max off (t.lastBlock + 1)) (max off (t.lastBlock + 1))
    rw [List.sum_cons]
    simp only [counted]
    omega

theorem FoundTag.lastBlock_lt (t : FoundTag) : t.lastBlock < 2 ^ 23 := by
  have hheader := t.header_eq
  have hin := t.header_in
  have hmul : t.blockSize * t.numBlock ≤ 32 * 2 ^ 16 := Nat.mul_le_mul t.size_le t.blocks_le
  apply (Nat.div_le_self _ _).trans_lt
  simp only [FoundTag.ndefTlvLastOffset]
  omega

theorem multi_right_iff (t : FoundTag) {sizes : List Nat} (hsum : sizes.sum = t.numBlock)
    (hw : (secRun t sizes).readOnly = false) :
    IsGreatest {n | Fits t n} (multiMax t sizes) ∧ NoWrap (secRun t sizes).wide ↔
      ExtraRight t.room t.header t.ndefLength (t.blockSize * extraBlocks t sizes) := by
  have hlt := t.room_lt
  have hheader := t.header_room
  have hwide := multi_wide t hsum hw
  have hextra : t.blockSize * extraBlocks t sizes ≤ 32 * 2 ^ 24 := by
    apply Nat.mul_le_mul t.size_le
    have hcount := counted_le t sizes 0
    have hblocks := t.blocks_le
    have hlast := t.lastBlock_lt
    simp only [extraBlocks]
    omega
  have hcast : (t.blockSize : Int) * extraBlocks t sizes = (t.blockSize * extraBlocks t sizes : Nat) := by
    push_cast
    rfl
  rw [hcast] at hwide
  have hno : NoWrap (secRun t sizes).wide := ⟨by omega, by omega⟩
  have hm := u32_of_noWrap hno
  rw [fits_isGreatest_iff]
  simp only [multiMax, hno, and_true]
  apply adjusted_extra t.header_eq hheader
  omega

/-! ## A Type 5 tag -/

/-- A TLV of `n` bytes at the position of the one found ends in the area. -/
def FitsArea (t : FoundT5t) (n : Nat) : Prop :=
  t.ndefTlvStartOffset + tlvSize n ≤ t.t5tAreaLastOffset + 1

instance FitsArea.decidable (t : FoundT5t) (n : Nat) : Decidable (FitsArea t n) :=
  Nat.decLe _ _

theorem t5t_right_iff (t : FoundT5t) :
    IsGreatest {n | FitsArea t n} (t5tMax t) ∧ NoWrap (t5tWide t - t5tHeader t) ↔
      t.ndefTlvStartOffset + 2 ≤ t.t5tAreaLastOffset + 1 ∧
        ¬ (255 ≤ t.t5tAreaLastOffset + 1 - t.ndefTlvStartOffset ∧
          t.t5tAreaLastOffset + 1 - t.ndefTlvStartOffset ≤ 257) := by
  by_cases hin : t.ndefTlvStartOffset + 2 ≤ t.t5tAreaLastOffset + 1
  swap
  · -- no TLV fits, not even an empty one
    have hnone : ∀ n, ¬ FitsArea t n := by
      intro n hn
      simp only [FitsArea, tlvSize] at hn
      split at hn <;> omega
    exact ⟨fun h => absurd h.1.1 (hnone _), fun h => absurd h.1 hin⟩
  have harea := t.area_lt
  have hset : {n | FitsArea t n} =
      {n | tlvSize n ≤ t.t5tAreaLastOffset + 1 - t.ndefTlvStartOffset} := by
    ext n
    show t.ndefTlvStartOffset + tlvSize n ≤ t.t5tAreaLastOffset + 1 ↔
      tlvSize n ≤ t.t5tAreaLastOffset + 1 - t.ndefTlvStartOffset
    omega
  rw [hset, fits_greatest_iff (by omega)]
  have hwide : NoWrap (t5tWide t) := by
    simp only [NoWrap, t5tWide]
    omega
  have hm := u32_of_noWrap hwide
  have hheader : (t5tHeader t = 4 ∧ 0xFF ≤ t5tWide t) ∨ (t5tHeader t = 2 ∧ t5tWide t < 0xFF) := by
    simp only [t5tHeader]
    split <;> omega
  have hno : NoWrap (t5tWide t - t5tHeader t) := by
    simp only [NoWrap, t5tWide] at *
    omega
  have hmax := u32_of_noWrap hno
  simp only [hno, hin, and_true, true_and]
  simp only [t5tMax, capacity]
  simp only [t5tWide] at *
  split <;> try split
  all_goals omega

/-! ## All of them -/

/-- The room that is reported is that of the longest message that fits, with nothing
wrapped on the way, exactly on these tags. -/
theorem capacity_exact (t : FoundTag) (sizes : List Nat) (u : FoundT5t) :
    (singleReadOnly t = false →
      (IsGreatest {n | Fits t n} (singleMax t) ∧ NoWrap (singleWideRun t) ↔ SingleRight t)) ∧
    (sizes.sum = t.numBlock → (secRun t sizes).readOnly = false →
      (IsGreatest {n | Fits t n} (multiMax t sizes) ∧ NoWrap (secRun t sizes).wide ↔
        ExtraRight t.room t.header t.ndefLength (t.blockSize * extraBlocks t sizes))) ∧
    (IsGreatest {n | FitsArea u n} (t5tMax u) ∧ NoWrap (t5tWide u - t5tHeader u) ↔
      u.ndefTlvStartOffset + 2 ≤ u.t5tAreaLastOffset + 1 ∧
        ¬ (255 ≤ u.t5tAreaLastOffset + 1 - u.ndefTlvStartOffset ∧
          u.t5tAreaLastOffset + 1 - u.ndefTlvStartOffset ≤ 257)) :=
  ⟨single_right_iff t, fun hsum hw => multi_right_iff t hsum hw, t5t_right_iff u⟩

/-- 28 blocks of four bytes, a message of ten bytes at offset 4, the blocks of `locks`
locked. -/
def smallTag (locks : List Nat) : FoundTag where
  blockSize := 4
  numBlock := 28
  ndefTlvStartOffset := 4
  header := 2
  ndefLength := 10
  locked b := decide (b ∈ locks)
  size_pos := by decide
  size_le := by decide
  blocks_le := by decide
  cc_le := by decide
  header_in := by decide
  header_eq := by decide

/-- 300 blocks, of which block 10 is locked. A request is for 253 of them at most. -/
def longTag : FoundTag where
  blockSize := 4
  numBlock := 300
  ndefTlvStartOffset := 4
  header := 2
  ndefLength := 10
  locked b := decide (b = 10)
  size_pos := by decide
  size_le := by decide
  blocks_le := by decide
  cc_le := by decide
  header_in := by decide
  header_eq := by decide

/-- A Type 5 tag whose area has 255 bytes from the TLV on. -/
def smallArea : FoundT5t where
  ndefTlvStartOffset := 4
  t5tAreaLastOffset := 258
  area_lt := by decide

/-- A Type 5 tag with blocks of 16 bytes, whose NDEF TLV starts at the last byte of the area. -/
def lastByteArea : FoundT5t where
  ndefTlvStartOffset := 11
  t5tAreaLastOffset := 11
  area_lt := by decide

theorem capacity_exact_small :
    IsGreatest {n | Fits (smallTag []) n} 106 ∧
      ¬ (IsGreatest {n | Fits (smallTag []) n} (singleMax (smallTag [])) ∧
        NoWrap (singleWideRun (smallTag []))) := by
  have hexact := capacity_exact (smallTag []) [28] smallArea
  constructor
  · have h := (hexact.2.1 rfl (by decide)).mpr (by decide)
    exact h.1
  · rw [hexact.1 (by decide)]
    decide

/-- With no block locked, the statuses one by one give 103 bytes of the 106; with block 10
of 300 locked, the 47 blocks of the second response are counted; an area of 255 bytes is
said to have room for 251 and not 253; and one that ends with the type of the TLV, room for
almost 2^32. -/
theorem room_misreported :
    ¬ (∀ t : FoundTag, singleReadOnly t = false →
        IsGreatest {n | Fits t n} (singleMax t) ∧ NoWrap (singleWideRun t)) ∧
    ¬ (∀ (t : FoundTag) (sizes : List Nat), sizes.sum = t.numBlock → (secRun t sizes).readOnly = false →
        IsGreatest {n | Fits t n} (multiMax t sizes) ∧ NoWrap (secRun t sizes).wide) ∧
    ¬ (∀ t : FoundT5t,
        IsGreatest {n | FitsArea t n} (t5tMax t) ∧ NoWrap (t5tWide t - t5tHeader t)) ∧
    t5tMax lastByteArea = 2 ^ 32 - 1 := by
  refine ⟨?_, ?_, ?_, by decide⟩
  · intro h
    have hmax := (fits_isGreatest_iff _ _).mp (h (smallTag []) (by decide)).1
    exact absurd hmax (by decide)
  · intro h
    have hmax := (fits_isGreatest_iff _ _).mp (h longTag [253, 47] rfl (by decide +kernel)).1
    exact absurd hmax (by decide +kernel)
  · intro h
    have hfits : (253 : Nat) ≤ t5tMax smallArea := (h smallArea).1.2 (by decide : FitsArea smallArea 253)
    exact absurd hfits (by decide)

end NfcStack.Rw.I93
