import NfcStack.Rw.T2tDetect

/- The lock control TLV of a blank Type 2 tag (`rw_t2t_set_lock_tlv`), and what detection
   makes of it. The address of the lock bytes is written as a page number, the logarithm of
   the page size and an offset in the page; the third byte of the value holds that logarithm
   and the one of the bytes that a lock bit locks. The two are written the other way round
   than they are read.

   What is proved:
     1. `toNat_tagsLog2`: the logarithm is rounded down.
     2. `readValue_lock`: what the search takes down for the three bytes.
     3. `set_lock_tlv_decoded`: for which addresses, numbers of bits and areas that is what
        was written. -/
namespace NfcStack.Rw

/-! ## The logarithm -/

def tagsOnes32 (x : UInt32) : UInt32 :=
  let x := x - ((x >>> 1) &&& 0x55555555)
  let x := ((x >>> 2) &&& 0x33333333) + (x &&& 0x33333333)
  let x := ((x >>> 4) + x) &&& 0x0f0f0f0f
  let x := x + (x >>> 8)
  let x := x + (x >>> 16)
  x &&& 0x0000003f

def tagsLog2 (x : UInt32) : UInt32 :=
  let x := x ||| (x >>> 1)
  let x := x ||| (x >>> 2)
  let x := x ||| (x >>> 4)
  let x := x ||| (x >>> 8)
  let x := x ||| (x >>> 16)
  tagsOnes32 x - 1

def tagsPow (x y : Int) : Int := x ^ y.toNat

/-- The bits of `y` are those of `x` and the `k - 1` ones below each. -/
def Smears (x k y : Nat) : Prop := ∀ i, y.testBit i = true ↔ ∃ j < k, x.testBit (i + j) = true

section Smears
variable {x k y : Nat}

theorem Smears.start (x : Nat) : Smears x 1 x := by
  intro i
  constructor
  · exact fun h => ⟨0, Nat.one_pos, h⟩
  · rintro ⟨j, hj, h⟩
    rwa [Nat.lt_one_iff.mp hj, Nat.add_zero] at h

theorem Smears.step (h : Smears x k y) : Smears x (2 * k) (y ||| y >>> k) := by
  intro i
  rw [Nat.testBit_or, Bool.or_eq_true, Nat.testBit_shiftRight, h, h]
  constructor
  · rintro (⟨j, hj, hbit⟩ | ⟨j, hj, hbit⟩)
    · exact ⟨j, by omega, hbit⟩
    · exact ⟨k + j, by omega, by rwa [← Nat.add_assoc, Nat.add_comm i k]⟩
  · rintro ⟨j, hj, hbit⟩
    by_cases hlow : j < k
    · exact .inl ⟨j, hlow, hbit⟩
    · refine .inr ⟨j - k, by omega, ?_⟩
      have hsum : k + i + (j - k) = i + j := by omega
      rwa [hsum]

theorem Smears.eq (h : Smears x k y) (hx : x ≠ 0) (hk : x < 2 ^ k) : y = 2 ^ (x.log2 + 1) - 1 := by
  have hlog : x.log2 < k := (Nat.log2_lt hx).mpr hk
  apply Nat.eq_of_testBit_eq
  intro i
  rw [Bool.eq_iff_iff, h i, Nat.testBit_two_pow_sub_one, decide_eq_true_iff]
  constructor
  · rintro ⟨j, -, hbit⟩
    by_contra hle
    have hsmall : x < 2 ^ (i + j) := (Nat.log2_lt hx).mp (by omega)
    rw [Nat.testBit_lt_two_pow hsmall] at hbit
    exact Bool.false_ne_true hbit
  · intro hle
    refine ⟨x.log2 - i, by omega, ?_⟩
    have hsum : i + (x.log2 - i) = x.log2 := by omega
    rw [hsum]
    exact Nat.testBit_log2 hx

theorem Smears.word {w s : UInt32} (h : Smears x k w.toNat) (hs : s.toNat = k) (hk : k < 32) :
    Smears x (2 * k) (w ||| w >>> s).toNat := by
  rw [UInt32.toNat_or, UInt32.toNat_shiftRight, hs, Nat.mod_eq_of_lt hk]
  exact h.step

end Smears

theorem tagsOnes32_ones : ∀ k < 32, tagsOnes32 (UInt32.ofNat (2 ^ (k + 1) - 1)) - 1 = UInt32.ofNat k := by
  decide

theorem tagsLog2_eq {x : UInt32} (hx : x.toNat ≠ 0) : tagsLog2 x = UInt32.ofNat x.toNat.log2 := by
  have h1 := (Smears.start x.toNat).word (s := 1) rfl (by decide)
  have h2 := h1.word (s := 2) rfl (by decide)
  have h4 := h2.word (s := 4) rfl (by decide)
  have h8 := h4.word (s := 8) rfl (by decide)
  have h16 := h8.word (s := 16) rfl (by decide)
  have hlog : x.toNat.log2 < 32 := (Nat.log2_lt hx).mpr x.toNat_lt
  have hfull := h16.eq hx x.toNat_lt
  rw [← tagsOnes32_ones _ hlog, ← hfull, UInt32.ofNat_toNat]
  rfl

theorem toNat_tagsLog2 {x : UInt32} (hx : x.toNat ≠ 0) : (tagsLog2 x).toNat = x.toNat.log2 := by
  have hlog : x.toNat.log2 < 32 := (Nat.log2_lt hx).mpr x.toNat_lt
  rw [tagsLog2_eq hx, UInt32.toNat_ofNat_of_lt' (Nat.lt_trans hlog (by decide))]

/-! ## Writing the TLV -/

def int8 (n : Int) : Int := n.bmod 256

def int8Byte (n : Int) : UInt8 := UInt8.ofNat (n % 256).toNat

/-- The logarithm of the page size for a number of pages. -/
def bytePerPage (addr : UInt16) (xx : Nat) : Int :=
  let a := addr.toNat / xx % 2 ^ 8
  let a := (a + if addr.toNat % xx ≠ 0 then 1 else 0) % 2 ^ 8
  int8 (tagsLog2 (UInt32.ofNat a)).toNat

def byteOffset (addr : UInt16) (xx : Nat) : Int := int8 (addr.toNat - xx * tagsPow 2 (bytePerPage addr xx))

/-- The loop of `rw_t2t_set_lock_tlv`, with `PageAddr`, `BytePerPage` and `ByteOffset` as they are. -/
def pageLoop (addr : UInt16) : Nat → Int × Int × Int → Int × Int × Int
  | 0, r => r
  | xx + 1, (pageAddr, _, _) =>
    if byteOffset addr (xx + 1) < 16 then (((xx + 1 : Nat) : Int), bytePerPage addr (xx + 1), byteOffset addr (xx + 1))
    else pageLoop addr xx (pageAddr, bytePerPage addr (xx + 1), byteOffset addr (xx + 1))

/-- `rw_t2t_set_lock_tlv`: the value of the TLV, if one is written. -/
def setLockTlv (addr : UInt16) (numDynLockBits : UInt8) (lockedAreaSize : UInt16) : Option (List UInt8) :=
  let (pageAddr, bytePerPage, byteOffset) := pageLoop addr 15 (0, 0, 0)
  if byteOffset < 16 ∧ bytePerPage < 16 ∧ pageAddr < 16 then
    some [int8Byte (pageAddr * 2 ^ 4) ||| int8Byte byteOffset, numDynLockBits,
      int8Byte (bytePerPage * 2 ^ 4) ||| (tagsLog2 lockedAreaSize.toUInt32).toUInt8]
  else none

/-! ## Reading it -/

def readValue : List UInt8 → T2tCb → T2tCb × Search
  | [], cb => (cb, .go)
  | b :: bs, cb =>
    match readTlvValue cb (fun _ => b) 0 with
    | (cb, .go) => readValue bs cb
    | r => r

/-- The search is at the value of a lock control TLV, the first one. -/
structure AtLockValue (cb : T2tCb) : Prop where
  found : cb.foundTlv = tagLockCtrlTlv
  count : cb.bytesCount = tagDefaultTlvLen
  first : cb.lockBytes = []

theorem readTlvValue_lock (cb : T2tCb) {data : ByteFn} {offset n : Nat} (hfound : cb.foundTlv = tagLockCtrlTlv)
    (hcount : cb.bytesCount = n + 1) (hfirst : cb.lockBytes = []) :
    readTlvValue cb data offset =
      let cb := { cb with bytesCount := n }.collect (data offset)
      (if n = 0 then addLockTlv cb cb.tlvValue else cb, .go) := by
  have hndef : ¬ cb.foundTlv = tagNdefTlv := by
    rw [hfound]
    decide
  rw [readTlvValue, if_neg hndef, hcount, if_neg (Nat.succ_ne_zero n), if_pos hfound]
  exact if_neg fun h => h hfirst

/-- What the three bytes of the value stand for. -/
def lockInfo (v₀ v₁ v₂ : UInt8) : LockInfo where
  offset := (v₀.toNat / 16 * 2 ^ (v₂.toNat % 16) % 2 ^ 16 + v₀.toNat % 16) % 2 ^ 16
  numBits := if v₁.toNat = 0 then rwT2tMaxLockBytes * tagBitsPerByte else v₁.toNat
  bytesLockedPerBit := 2 ^ (v₂.toNat / 16)

theorem readValue_lock {cb : T2tCb} (h : AtLockValue cb) (v₀ v₁ v₂ : UInt8) :
    (readValue [v₀, v₁, v₂] cb).1.lockTlvs = cb.lockTlvs ++ [lockInfo v₀ v₁ v₂] := by
  obtain ⟨hfound, hcount, hfirst⟩ := h
  have hfirstByte : readTlvValue cb (fun _ => v₀) 0 = ({ cb with bytesCount := 2 }.collect v₀, .go) :=
    readTlvValue_lock cb hfound hcount hfirst
  set cb₁ := { cb with bytesCount := 2 }.collect v₀ with hcb₁
  have hsecondByte : readTlvValue cb₁ (fun _ => v₁) 0 = ({ cb₁ with bytesCount := 1 }.collect v₁, .go) :=
    readTlvValue_lock cb₁ hfound rfl hfirst
  set cb₂ := { cb₁ with bytesCount := 1 }.collect v₁ with hcb₂
  have hthirdByte : readTlvValue cb₂ (fun _ => v₂) 0 =
      (addLockTlv ({ cb₂ with bytesCount := 0 }.collect v₂) ({ cb₂ with bytesCount := 0 }.collect v₂).tlvValue, .go) :=
    readTlvValue_lock cb₂ hfound rfl hfirst
  simp only [readValue, hfirstByte, hsecondByte, hthirdByte]
  rfl

/-! ## What is read is what was written -/

/-- The addresses that come back, by the logarithm of the area, as the first one and the last one. -/
def lockTlvRanges : List (Nat × Nat × Nat) :=
  [(0, 15, 15), (1, 30, 45), (2, 60, 75), (3, 120, 135), (4, 144, 150), (4, 160, 165), (4, 176, 180), (4, 192, 195),
    (4, 208, 210), (4, 224, 225), (4, 240, 255), (5, 256, 271), (5, 480, 495), (6, 768, 783), (6, 960, 975),
    (7, 1792, 1807), (7, 1920, 1935)]

def ComesBack (addr k : Nat) : Prop := ∃ r ∈ lockTlvRanges, r.1 = k ∧ r.2.1 ≤ addr ∧ addr ≤ r.2.2

instance (addr k : Nat) : Decidable (ComesBack addr k) := inferInstanceAs (Decidable (∃ r ∈ lockTlvRanges, _))

theorem int8_cases (n : Int) : (int8 n = n % 256 ∧ n % 256 < 128) ∨ (int8 n = n % 256 - 256 ∧ 128 ≤ n % 256) := by
  unfold int8 Int.bmod
  dsimp only
  omega

section Pages
variable {addr : UInt16} {n : Nat}

/-- The number of bytes of a page, before it is rounded to a power of two. -/
def pageBytes (n xx : Nat) : Nat := (n / xx % 256 + if n % xx = 0 then 0 else 1) % 256

theorem bytePerPage_eq (hn : addr.toNat = n) (xx : Nat) :
    bytePerPage addr xx = if pageBytes n xx = 0 then -1 else ((pageBytes n xx).log2 : Int) := by
  have ha : (addr.toNat / xx % 2 ^ 8 + if addr.toNat % xx ≠ 0 then 1 else 0) % 2 ^ 8 = pageBytes n xx := by
    rw [hn, ite_not]
    rfl
  have hlt : pageBytes n xx < 256 := Nat.mod_lt _ (by decide)
  unfold bytePerPage
  dsimp only
  rw [ha]
  split
  case isTrue h =>
    rw [h]
    decide
  case isFalse h =>
    have hword : (UInt32.ofNat (pageBytes n xx)).toNat = pageBytes n xx :=
      UInt32.toNat_ofNat_of_lt' (Nat.lt_trans hlt (by decide))
    have hlog : (pageBytes n xx).log2 < 8 := (Nat.log2_lt h).mpr hlt
    rw [toNat_tagsLog2 (by rwa [hword]), hword]
    have := int8_cases (pageBytes n xx).log2
    omega

theorem pageLoop_succ (addr : UInt16) (xx : Nat) (r : Int × Int × Int) : pageLoop addr (xx + 1) r =
    if byteOffset addr (xx + 1) < 16 then (((xx + 1 : Nat) : Int), bytePerPage addr (xx + 1), byteOffset addr (xx + 1))
    else pageLoop addr xx (r.1, bytePerPage addr (xx + 1), byteOffset addr (xx + 1)) := rfl

/-- The loop over the page numbers in natural numbers: the first byte of the value, and the high
half of the third one. -/
def pageSearch (n : Nat) : Nat → Nat × Nat
  | 0 => (0, 0)
  | xx + 1 =>
    let a := pageBytes n (xx + 1)
    let o := (n + 65536 - (xx + 1) * if a = 0 then 1 else 2 ^ a.log2) % 256
    if o < 16 ∨ 128 ≤ o then ((xx + 1) * 16 ||| o, if a = 0 then 15 else a.log2) else pageSearch n xx

theorem byteOffset_mod (hn : addr.toNat = n) {xx : Nat} (hxx : xx ≤ 15) :
    (byteOffset addr xx) % 256 =
      ((n + 65536 - xx * if pageBytes n xx = 0 then 1 else 2 ^ (pageBytes n xx).log2) % 256 : Nat) := by
  have hpow : tagsPow 2 (bytePerPage addr xx) =
      ((if pageBytes n xx = 0 then 1 else 2 ^ (pageBytes n xx).log2 : Nat) : Int) := by
    rw [bytePerPage_eq hn]
    unfold tagsPow
    split <;> simp
  have hsmall : (if pageBytes n xx = 0 then 1 else 2 ^ (pageBytes n xx).log2) ≤ 256 := by
    split
    · decide
    case isFalse h =>
      have hlt : pageBytes n xx < 2 ^ 8 := Nat.mod_lt _ (by decide)
      exact Nat.le_trans (Nat.log2_self_le h) hlt.le
  have hint := int8_cases ((n : Int) - xx * (if pageBytes n xx = 0 then 1 else 2 ^ (pageBytes n xx).log2 : Nat))
  unfold byteOffset
  rw [hpow, hn]
  generalize (if pageBytes n xx = 0 then 1 else 2 ^ (pageBytes n xx).log2) = p at hint hsmall ⊢
  have hprod : xx * p ≤ 15 * 256 := Nat.mul_le_mul hxx hsmall
  have hcast : ((xx * p : Nat) : Int) = xx * (p : Int) := Int.natCast_mul xx p
  rw [← hcast] at hint ⊢
  omega

theorem pageLoop_search (hn : addr.toNat = n) (xx : Nat) : ∀ {r : Int × Int × Int}, xx ≤ 15 →
    (xx = 0 → ¬ r.2.2 < 16) → (pageLoop addr xx r).2.2 < 16 →
    int8Byte ((pageLoop addr xx r).1 * 2 ^ 4) ||| int8Byte (pageLoop addr xx r).2.2 =
        UInt8.ofNat (pageSearch n xx).1 ∧
      ((pageLoop addr xx r).2.1 % 16).toNat = (pageSearch n xx).2 := by
  induction xx with
  | zero => exact fun _ hzero hlt => absurd hlt (hzero rfl)
  | succ xx ih =>
    intro r hxx _ hlt
    have hmod := byteOffset_mod hn hxx
    have hcases := int8_cases (addr.toNat - (xx + 1 : Nat) * tagsPow 2 (bytePerPage addr (xx + 1)))
    have hrange : byteOffset addr (xx + 1) = (byteOffset addr (xx + 1)) % 256 ∧ (byteOffset addr (xx + 1)) % 256 < 128 ∨
        byteOffset addr (xx + 1) = (byteOffset addr (xx + 1)) % 256 - 256 ∧ 128 ≤ (byteOffset addr (xx + 1)) % 256 := by
      unfold byteOffset
      omega
    rw [pageLoop_succ] at hlt ⊢
    rw [pageSearch]
    generalize (n + 65536 - (xx + 1) * if pageBytes n (xx + 1) = 0 then 1 else 2 ^ (pageBytes n (xx + 1)).log2) % 256 = o
      at hmod ⊢
    by_cases hoff : byteOffset addr (xx + 1) < 16
    · rw [if_pos hoff, if_pos (by omega)]
      dsimp only
      have hpage : int8Byte (((xx + 1 : Nat) : Int) * 2 ^ 4) = UInt8.ofNat ((xx + 1) * 16) := by
        exact congrArg UInt8.ofNat (by omega)
      have hbyte : int8Byte (byteOffset addr (xx + 1)) = UInt8.ofNat o := by
        unfold int8Byte
        rw [hmod, Int.toNat_natCast]
      rw [hpage, hbyte, ← UInt8.ofNat_or, bytePerPage_eq hn]
      refine ⟨rfl, ?_⟩
      split
      · rfl
      case isFalse h =>
        have hlog : (pageBytes n (xx + 1)).log2 < 8 := (Nat.log2_lt h).mpr (Nat.mod_lt _ (by decide))
        omega
    · rw [if_neg hoff] at hlt ⊢
      rw [if_neg (by omega)]
      refine ih (by omega) (fun _ => ?_) hlt
      dsimp only
      exact hoff

end Pages

theorem halves : ∀ a < 16, ∀ b < 16, (UInt8.ofNat (a * 16) ||| UInt8.ofNat b).toNat = a * 16 + b := by
  intro a ha b hb
  rw [UInt8.toNat_or, UInt8.toNat_ofNat_of_lt' (show a * 16 < 256 by omega),
    UInt8.toNat_ofNat_of_lt' (show b < 256 by omega), Nat.mul_comm]
  exact (Nat.two_pow_add_eq_or_of_lt (i := 4) hb a).symm

/-- For a TLV that is written with this area: whether the address is the one that is read. -/
def readsBack (n : Nat) : Bool :=
  let r := pageSearch n 15
  Nat.beq ((r.1 / 16 * 2 ^ r.2 % 2 ^ 16 + r.1 % 16) % 2 ^ 16) n

def gapsFrom : Nat → List (Nat × Nat × Nat) → Bool
  | _, [] => true
  | lo, r :: rs => (List.range' lo (r.2.1 - lo)).all (fun n => !readsBack n) && gapsFrom (r.2.2 + 1) rs

theorem gapsFrom_spec {n : Nat} {rs : List (Nat × Nat × Nat)} : ∀ {lo}, gapsFrom lo rs = true → lo ≤ n →
    (∃ r ∈ rs, n ≤ r.2.2) → readsBack n = true → ∃ r ∈ rs, r.2.1 ≤ n ∧ n ≤ r.2.2 := by
  induction rs with
  | nil => exact fun _ _ ⟨_, hr, _⟩ _ => absurd hr List.not_mem_nil
  | cons r rs ih =>
    intro lo h hlo ⟨r', hr', hle⟩ hback
    obtain ⟨hgap, hrest⟩ := (Bool.and_eq_true _ _).mp h
    by_cases hbelow : n < r.2.1
    · have hnot := List.all_eq_true.mp hgap n (List.mem_range'_1.mpr ⟨hlo, by omega⟩)
      rw [hback] at hnot
      cases hnot
    by_cases hin : n ≤ r.2.2
    · exact ⟨r, List.mem_cons_self, by omega, hin⟩
    · have hlater : r' ∈ rs := (List.mem_cons.mp hr').resolve_left fun heq => hin (heq ▸ hle)
      obtain ⟨q, hq, hbounds⟩ := ih hrest (by omega) ⟨r', hlater, hle⟩ hback
      exact ⟨q, List.mem_cons_of_mem r hq, hbounds⟩

theorem searches_checked : (gapsFrom 0 lockTlvRanges && (List.range' 32768 16).all (fun n => !readsBack n) &&
    lockTlvRanges.all fun r => (List.range' r.2.1 (r.2.2 + 1 - r.2.1)).all fun n =>
      readsBack n && (pageSearch n 15).2 == r.1) = true := by
  decide +kernel

theorem gaps_checked : gapsFrom 0 lockTlvRanges = true := by
  have h := searches_checked
  rw [Bool.and_eq_true, Bool.and_eq_true] at h
  exact h.1.1

theorem wide_pages_checked : (List.range' 32768 16).all (fun n => !readsBack n) = true := by
  have h := searches_checked
  rw [Bool.and_eq_true, Bool.and_eq_true] at h
  exact h.1.2

theorem ranges_checked : (lockTlvRanges.all fun r => (List.range' r.2.1 (r.2.2 + 1 - r.2.1)).all fun n =>
    readsBack n && (pageSearch n 15).2 == r.1) = true := by
  have h := searches_checked
  rw [Bool.and_eq_true, Bool.and_eq_true] at h
  exact h.2

theorem range_spec {n : Nat} {r : Nat × Nat × Nat} (hr : r ∈ lockTlvRanges) (hfirst : r.2.1 ≤ n) (hlast : n ≤ r.2.2) :
    readsBack n = true ∧ (pageSearch n 15).2 = r.1 := by
  have hall := List.all_eq_true.mp (List.all_eq_true.mp ranges_checked r hr) n
  obtain ⟨hback, hnibble⟩ := (Bool.and_eq_true _ _).mp (hall (List.mem_range'_1.mpr ⟨hfirst, by omega⟩))
  exact ⟨hback, beq_iff_eq.mp hnibble⟩

theorem pageSearch_of_comesBack {n k : Nat} (h : ComesBack n k) : (pageSearch n 15).2 = k := by
  obtain ⟨r, hr, rfl, hfirst, hlast⟩ := h
  exact (range_spec hr hfirst hlast).2

theorem pageSearch_lt (n xx : Nat) (hxx : xx ≤ 15) : (pageSearch n xx).1 < 256 ∧
    ((pageSearch n xx).2 < 8 ∨ (pageSearch n xx).2 = 15) := by
  induction xx with
  | zero => exact ⟨Nat.succ_pos 255, .inl (Nat.succ_pos 7)⟩
  | succ xx ih =>
    rw [pageSearch]
    generalize (n + 65536 - (xx + 1) * if pageBytes n (xx + 1) = 0 then 1 else 2 ^ (pageBytes n (xx + 1)).log2) = left
    split
    · have hpage : (xx + 1) * 16 < 2 ^ 8 := by omega
      refine ⟨Nat.or_lt_two_pow hpage (Nat.mod_lt left (by decide)), ?_⟩
      split
      · exact .inr rfl
      case isFalse h => exact .inl ((Nat.log2_lt h).mpr (Nat.mod_lt _ (by decide)))
    · exact ih (by omega)

theorem comes_back_iff (n : Nat) :
    ((pageSearch n 15).1 / 16 * 2 ^ (pageSearch n 15).2 % 2 ^ 16 + (pageSearch n 15).1 % 16) % 2 ^ 16 = n ↔
      ComesBack n (pageSearch n 15).2 := by
  obtain ⟨hbyte, hnibble⟩ := pageSearch_lt n 15 le_rfl
  have hlast : ∀ r ∈ lockTlvRanges, r.2.2 < 1936 := by decide
  rw [← Nat.beq_eq]
  change readsBack n = true ↔ _
  by_cases hsmall : n < 1936
  · refine ⟨fun hback => ?_, fun ⟨r, hr, _, hfirst, hle⟩ => (range_spec hr hfirst hle).1⟩
    obtain ⟨r, hr, hfirst, hle⟩ :=
      gapsFrom_spec gaps_checked n.zero_le ⟨(7, 1920, 1935), by decide, Nat.le_of_lt_succ hsmall⟩ hback
    exact ⟨r, hr, (range_spec hr hfirst hle).2.symm, hfirst, hle⟩
  -- with a page of at most 128 bytes the address is small, with one of 32768 it is near a multiple
  refine iff_of_false (fun hback => ?_) fun ⟨r, hr, _, _, hle⟩ => hsmall (Nat.lt_of_le_of_lt hle (hlast r hr))
  have heq := Nat.eq_of_beq_eq_true hback
  rcases hnibble with hlt | hfull
  · have hpow : 2 ^ (pageSearch n 15).2 ≤ 2 ^ 7 := Nat.pow_le_pow_right (by decide) (by omega)
    have hprod : (pageSearch n 15).1 / 16 * 2 ^ (pageSearch n 15).2 ≤ 15 * 2 ^ 7 := Nat.mul_le_mul (by omega) hpow
    omega
  · rw [hfull] at heq
    have hnot := List.all_eq_true.mp wide_pages_checked n (List.mem_range'_1.mpr (by omega))
    rw [hback] at hnot
    cases hnot

theorem setLockTlv_some {addr : UInt16} {numDynLockBits : UInt8} {lockedAreaSize : UInt16} {v : List UInt8}
    (hset : setLockTlv addr numDynLockBits lockedAreaSize = some v) :
    v = [UInt8.ofNat (pageSearch addr.toNat 15).1, numDynLockBits,
      UInt8.ofNat ((pageSearch addr.toNat 15).2 * 16) ||| (tagsLog2 lockedAreaSize.toUInt32).toUInt8] := by
  have hsearch := @pageLoop_search addr addr.toNat rfl 15 (0, 0, 0) le_rfl nofun
  unfold setLockTlv at hset
  generalize pageLoop addr 15 (0, 0, 0) = r at hset hsearch
  obtain ⟨pageAddr, bytePerPage, byteOffset⟩ := r
  dsimp only at hset hsearch
  split at hset
  case isTrue hacc =>
    obtain ⟨hfirst, hnibble⟩ := hsearch hacc.1
    have hthird : int8Byte (bytePerPage * 2 ^ 4) = UInt8.ofNat ((pageSearch addr.toNat 15).2 * 16) :=
      congrArg UInt8.ofNat (by omega)
    rw [← Option.some.inj hset, hfirst, hthird]
  case isFalse => cases hset

theorem set_lock_tlv_decoded {addr : UInt16} {numDynLockBits : UInt8} {lockedAreaSize : UInt16} {v : List UInt8}
    (hset : setLockTlv addr numDynLockBits lockedAreaSize = some v) {cb : T2tCb} (h : AtLockValue cb) :
    (readValue v cb).1.lockTlvs = cb.lockTlvs ++ [⟨addr.toNat, numDynLockBits.toNat, 2 ^ lockedAreaSize.toNat.log2⟩] ↔
      numDynLockBits ≠ 0 ∧ lockedAreaSize ≠ 0 ∧ ComesBack addr.toNat lockedAreaSize.toNat.log2 := by
  obtain ⟨hbyte, hnibble⟩ := pageSearch_lt addr.toNat 15 le_rfl
  have hback := comes_back_iff addr.toNat
  have hsearch := @pageSearch_of_comesBack addr.toNat lockedAreaSize.toNat.log2
  rw [setLockTlv_some hset, readValue_lock h, List.append_cancel_left_eq, List.singleton_inj]
  unfold lockInfo
  rw [LockInfo.mk.injEq]
  generalize (pageSearch addr.toNat 15).1 = b at hbyte hback ⊢
  generalize (pageSearch addr.toNat 15).2 = e at hnibble hback hsearch ⊢
  have hfirst : (UInt8.ofNat b).toNat = b := UInt8.toNat_ofNat_of_lt' hbyte
  have hbits : (if numDynLockBits.toNat = 0 then rwT2tMaxLockBytes * tagBitsPerByte else numDynLockBits.toNat) =
      numDynLockBits.toNat ↔ numDynLockBits ≠ 0 := by
    rw [← UInt8.toNat_inj.ne]
    split
    case isTrue h0 =>
      rw [h0]
      decide
    case isFalse h0 => exact iff_of_true rfl h0
  rw [hfirst, hbits]
  by_cases harea : lockedAreaSize = 0
  · -- all bits of the logarithm of 0 are set
    subst harea
    have hones : (tagsLog2 (0 : UInt16).toUInt32).toUInt8 = 255 := by decide
    have hfull : ∀ x : UInt8, (x ||| 255).toNat / 16 = 15 := by
      intro x
      rw [show x ||| 255 = 255 from UInt8.or_neg_one]
      rfl
    rw [hones, hfull]
    exact iff_of_false (fun hc => absurd hc.2.2 (by decide)) fun hc => hc.2.1 rfl
  · have hne : lockedAreaSize.toUInt32.toNat ≠ 0 := fun h0 => harea (UInt16.toNat_inj.mp h0)
    have hk : lockedAreaSize.toNat.log2 < 16 := (Nat.log2_lt hne).mpr lockedAreaSize.toNat_lt
    have hlog : (tagsLog2 lockedAreaSize.toUInt32).toUInt8 = UInt8.ofNat lockedAreaSize.toNat.log2 := by
      rw [tagsLog2_eq hne]
      exact UInt8.toNat_inj.mp (by simp)
    rw [hlog, halves e (by omega) _ hk]
    generalize lockedAreaSize.toNat.log2 = k at hk hsearch ⊢
    have hhigh : (e * 16 + k) / 16 = e := by omega
    have hlow : (e * 16 + k) % 16 = k := by omega
    rw [hhigh, hlow, Nat.pow_right_inj (Nat.one_lt_two)]
    constructor
    · rintro ⟨hoffset, hnum, rfl⟩
      exact ⟨hnum, harea, hback.mp hoffset⟩
    · rintro ⟨hnum, -, hcomes⟩
      obtain rfl := hsearch hcomes
      exact ⟨hback.mpr hcomes, hnum, rfl⟩

/-- The search at the value of the first lock control TLV. -/
def atLockValue : T2tCb := { t2tActivated with foundTlv := tagLockCtrlTlv, bytesCount := tagDefaultTlvLen }

theorem set_lock_tlv_decoded_120 : setLockTlv 120 16 8 = some [0xF0, 16, 0x33] ∧
    (readValue [0xF0, 16, 0x33] atLockValue).1.lockTlvs = [⟨120, 16, 8⟩] := by
  have hset : setLockTlv 120 16 8 = some [0xF0, 16, 0x33] := by decide
  exact ⟨hset, (@set_lock_tlv_decoded _ _ _ _ hset atLockValue ⟨rfl, rfl, rfl⟩).mpr (by decide)⟩

/-- With another area the page size is read wrong; and the search stops at an offset below 0. -/
theorem lock_tlv_halves_swapped : ∃ v v', setLockTlv 120 16 4 = some v ∧ setLockTlv 80 16 8 = some v' ∧
    (readValue v atLockValue).1.lockTlvs = [⟨60, 16, 8⟩] ∧ (readValue v' atLockValue).1.lockTlvs = [⟨128, 16, 8⟩] :=
  ⟨[0xF0, 16, 0x32], [0xF8, 16, 0x33], by decide⟩

end NfcStack.Rw
