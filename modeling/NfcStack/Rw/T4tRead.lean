import NfcStack.Rw.T4tWrite

/- The message of a Type 4 tag is read in parts. A READ below the offset 0x8000 brings what
   it asks for. A READ with an offset object brings a data object, as large as the tag can
   make it; the reader does not know how large that is, and takes it only if it has not
   more than is left of the message and its length is coded as the reader expects.

   What is proved:
     1. `readFile_plain`, `readFile_odo`: what one READ brings.
     2. `read_completes`: after finitely many commands the message has been delivered, if
        every part can be taken. -/
namespace NfcStack.Rw.T4t
open NfcStack.Lib

/-! ## One part -/

/-- How much of the file a READ with an offset object brings, if `left` bytes of the message and `avail` bytes of
the file are left. Less than a full part is asked for as the most that there is. -/
def odoPart (d : Cc) (left avail : Nat) : Nat :=
  min (ddoCapacity (if left < min d.maxLe 647 then d.maxLe else min d.maxLe 647)) avail

/-- Every part of the last `left` bytes of the message can be taken: it has not more than is left, and its length
is one that the reader expects. -/
inductive OdoReadable (d : Cc) : Nat → Nat → Prop where
  | done (avail : Nat) : OdoReadable d 0 avail
  | part {left avail : Nat} (hle : odoPart d left avail ≤ left)
      (hlen : odoPart d left avail ≤ 0xFD ∨ 0xFF < odoPart d left avail ∧ odoPart d left avail + 4 ≤ min d.maxLe 647)
      (rest : OdoReadable d (left - odoPart d left avail) (avail - odoPart d left avail)) : OdoReadable d left avail

theorem odoPart_pos {d : Cc} {left avail : Nat} (hd : Valid d) (havail : 0 < avail) : 0 < odoPart d left avail := by
  have hle := hd.maxLe
  unfold odoPart ddoCapacity
  split <;> split <;> (try split) <;> (try split) <;> (try split) <;> omega

theorem readFile_false (cb : Cb) (offset length : Nat) :
    readFile cb offset length false = readFile { cb with rwOffset := offset, rwLength := length } offset length true := rfl

def continueRead (cb : Cb) : Bool × Cb × List Out := readFile cb cb.rwOffset cb.rwLength true

theorem deliver_more {cb : Cb} {r : Cb × List Out} (hlen : cb.rwLength > 0) (h : continueRead cb = (true, r))
    (data : Bytes) : deliver cb data = (r.1, .event (.read data) :: r.2) := by
  have hread : readFile cb cb.rwOffset cb.rwLength true = (true, r) := h
  unfold deliver
  rw [if_pos hlen, hread]
  rfl

/-- The next READ brings `n` bytes of the file, and they are delivered. -/
structure Brings (d : Cc) (t : Tag) (cb : Cb) (n : Nat) (cb₁ : Cb) (apdu : Apdu) (rsp : Bytes) : Prop where
  pos : 0 < n
  le : n ≤ cb.rwLength
  send : continueRead cb = (true, cb₁, [.frame apdu])
  kept : ∃ ddo, cb₁ = { cb with retryCmd := some apdu, ddoLcFieldCoding := ddo }
  exec : t.exec apdu = (t, rsp)
  take : dataCback cb₁ rsp = deliver (consume cb₁ n) (slice t.file cb.rwOffset n)

theorem dataCback_readResp {cb : Cb} (hstate : cb.state = .readNdef) (hsub : cb.subState = .waitReadResp)
    (data : Bytes) :
    dataCback cb (data ++ swOk) = if cb.ddoLcFieldCoding then handleDdo cb (data ++ swOk)
      else if 0 < data.length ∧ data.length ≤ cb.rwLength then deliver (consume cb data.length) data
      else if data.length = 0 ∧ cb.ccFile.version = version20 ∧ cb.extFieldCoding then
        match cb.retryCmd with
        | some old => formatShortFieldCoding { cb with extFieldCoding := false } old
        | none => handleError { cb with extFieldCoding := false } .badResp
      else handleError cb .badResp := by
  have hlen : (data ++ swOk).length - 2 = data.length := by simp [sw]
  have htake : (data ++ swOk).take data.length = data := List.take_left
  cases cb
  dsimp only at hstate hsub
  subst hstate hsub
  unfold dataCback
  rw [if_neg (fun h => absurd h.2 (by simp [sw]))]
  dsimp only
  unfold smReadNdef
  refine (if_neg (not_not.mpr (statusWords_ok data))).trans ((if_neg (not_not.mpr rfl)).trans ?_)
  dsimp only
  rw [hlen]
  generalize (data ++ swOk).take data.length = d at htake
  subst htake
  rfl

variable {d : Cc}

theorem selectedFile_ndef {t : Tag} (h : TagOk d t) : t.selectedFile = some t.file := by
  unfold Tag.selectedFile
  rw [h.selected]

theorem extended_tag {t : Tag} (h : TagOk d t) : t.extended = d.extended := by
  unfold Tag.extended
  rw [h.desc]
  rfl

theorem extended_false (h : d.extended = false) : d.maxLe ≤ 0x100 := by
  unfold Cc.extended at h
  simp only [Bool.or_eq_false_iff, decide_eq_false_iff_not] at h
  omega

theorem plain_sends {d : Cc} {dta : Bool} {t : Tag} {cb : Cb} (hd : Valid d) (ht : TagOk d t)
    (hcb : cb.fixed = d.fixed dta) (hpos : 0 < cb.rwLength)
    (hin : cb.rwOffset + cb.rwLength ≤ d.ndefFc.maxFileSize) (hplain : cb.rwOffset + cb.rwLength ≤ 0x7FFF) :
    ∃ n apdu, 0 < n ∧ n ≤ cb.rwLength ∧
      continueRead cb = (true, { cb with retryCmd := some apdu }, [.frame apdu]) ∧
      t.exec apdu = (t, slice t.file cb.rwOffset n ++ swOk) := by
  have hmax : cb.maxReadSize = min d.maxLe 647 := congrArg Fixed.maxReadSize hcb
  have hext : cb.extFieldCoding = d.extended := congrArg Fixed.extFieldCoding hcb
  have hle := hd.maxLe
  obtain ⟨length, hlength⟩ : ∃ length, length = if cb.rwLength > cb.maxReadSize then cb.maxReadSize else cb.rwLength :=
    ⟨_, rfl⟩
  have hlength' : 0 < length ∧ length ≤ cb.rwLength ∧ length ≤ d.maxLe ∧ length ≤ 647 := by
    rw [hlength, hmax]
    split <;> omega
  -- the length as it is coded
  obtain ⟨n, hn⟩ : ∃ n, n = if cb.extFieldCoding then length else (if length = 0x100 then 0xFF else length) := ⟨_, rfl⟩
  have hn' : 0 < n ∧ n ≤ length ∧ (cb.extFieldCoding = false → n ≤ 0xFF) := by
    rw [hn]
    cases he : cb.extFieldCoding with
    | true => exact ⟨hlength'.1, Nat.le_refl _, nofun⟩
    | false =>
      have hshort := extended_false (hext.symm.trans he)
      rw [if_neg Bool.false_ne_true]
      split <;> omega
  obtain ⟨apdu, hapdu⟩ : ∃ apdu : Apdu, apdu = ⟨insReadBinary, cb.rwOffset, cb.extFieldCoding, 0, [], some n⟩ := ⟨_, rfl⟩
  have hsend : continueRead cb = (true, { cb with retryCmd := some apdu }, [.frame apdu]) := by
    unfold continueRead readFile
    rw [if_pos rfl]
    dsimp only
    have hlast : ¬ (cb.rwOffset + cb.rwLength) % 2 ^ 32 > 0x7FFF := by omega
    rw [if_neg hlast, ← hlength, Nat.mod_eq_of_lt (show cb.rwOffset < 2 ^ 16 by omega)]
    show _ = (true, sendToLower cb apdu)
    rcases Bool.eq_false_or_eq_true cb.extFieldCoding with he | he
    · rw [he, if_pos rfl] at hn
      rw [he, hn] at hapdu
      rw [if_pos he, Nat.mod_eq_of_lt (show length < 2 ^ 16 by omega), hapdu]
    · have hn255 := hn'.2.2 he
      rw [he, if_neg Bool.false_ne_true] at hn
      rw [he] at hapdu
      rw [if_neg (by rw [he]; exact Bool.false_ne_true), ← hn, Nat.mod_eq_of_lt (show n < 2 ^ 8 by omega), hapdu]
  have hval : min (leValue cb.extFieldCoding n) t.desc.maxLe = n := by
    unfold leValue
    rw [if_neg (by omega), ht.desc]
    omega
  have hexec : t.exec apdu = (t, slice t.file cb.rwOffset n ++ swOk) := by
    rw [hapdu, exec_read (selectedFile_ndef ht) (fun he => (extended_tag ht).trans (hext.symm.trans he)) (by omega)
      (by rw [ht.size]; omega), hval]
  exact ⟨n, apdu, hn'.1, by omega, hsend, hexec⟩

theorem readFile_plain {dta : Bool} {t : Tag} {cb : Cb} (hd : Valid d) (ht : TagOk d t)
    (hcb : cb.fixed = d.fixed dta) (hstate : cb.state = .readNdef) (hsub : cb.subState = .waitReadResp)
    (hpos : 0 < cb.rwLength) (hin : cb.rwOffset + cb.rwLength ≤ d.ndefFc.maxFileSize)
    (hplain : cb.rwOffset + cb.rwLength ≤ 0x7FFF) (hddo : cb.ddoLcFieldCoding = false) :
    ∃ n cb₁ apdu rsp, Brings d t cb n cb₁ apdu rsp := by
  obtain ⟨n, apdu, hn0, hn, hsend, hexec⟩ := plain_sends hd ht hcb hpos hin hplain
  have hslice : (slice t.file cb.rwOffset n).length = n := length_slice (by rw [ht.size]; omega)
  refine ⟨n, { cb with retryCmd := some apdu }, apdu, _, hn0, hn, hsend, ⟨false, ?_⟩, hexec, ?_⟩
  · cases cb
    dsimp only at hddo
    rw [hddo]
  · rw [dataCback_readResp (by exact hstate) (by exact hsub), if_neg (by rw [hddo]; exact Bool.false_ne_true), hslice,
      if_pos ⟨hn0, hn⟩]

theorem handleDdo_ok {cb : Cb} {n : Nat} {data : Bytes} (hlen : data.length = n) (hsize : n < 2 ^ 15)
    (hok : n ≤ 0xFD ∨ 0xFF < n ∧ n + 4 ≤ cb.maxReadSize) :
    handleDdo cb ([0x53] ++ ddoLength n ++ data ++ swOk) = deliver (consume cb n) data := by
  have hdeliver : ∀ head : Bytes, head.length ≤ 4 → deliverDdo cb (head ++ data ++ swOk) head.length n =
      deliver (consume cb n) data := by
    intro head hhead
    have hrsp : (head ++ data ++ swOk).length - 2 = head.length + n := by
      rw [List.length_append, List.length_append, hlen]
      rfl
    have hsub : sub16 (head.length + n) head.length = n := by
      unfold sub16
      omega
    unfold deliverDdo
    rw [hrsp, hsub, if_pos rfl, slice_append rfl hlen.symm]
  have hbyte : n ≤ 0xFF → (UInt8.ofNat n).toNat = n := by
    intro h
    rw [UInt8.toNat_ofNat']
    omega
  rcases Nat.lt_or_ge 0x7F n with h1 | h1
  · rcases Nat.lt_or_ge 0xFF n with h2 | h2
    · obtain ⟨-, hmax⟩ : 0xFF < n ∧ n + 4 ≤ cb.maxReadSize := hok.resolve_left (by omega)
      have hddo : [0x53] ++ ddoLength n = [0x53, 0x82, UInt8.ofNat (n / 2 ^ 8), UInt8.ofNat n] := by
        unfold ddoLength
        rw [if_neg (by omega), if_neg (by omega)]
        rfl
      rw [hddo]
      have hbe : be16At ([0x53, 0x82, UInt8.ofNat (n / 2 ^ 8), UInt8.ofNat n] ++ data ++ swOk) 2 = n := by
        show (UInt8.ofNat (n / 2 ^ 8)).toNat * 2 ^ 8 + (UInt8.ofNat n).toNat = n
        simp only [UInt8.toNat_ofNat']
        omega
      have h := hdeliver [0x53, 0x82, UInt8.ofNat (n / 2 ^ 8), UInt8.ofNat n] (Nat.le_refl _)
      have h0 : byteAt ([0x53, 0x82, UInt8.ofNat (n / 2 ^ 8), UInt8.ofNat n] ++ data ++ swOk) 0 = 0x53 := rfl
      have h1 : byteAt ([0x53, 0x82, UInt8.ofNat (n / 2 ^ 8), UInt8.ofNat n] ++ data ++ swOk) 1 = 0x82 := rfl
      unfold handleDdo
      rw [if_pos h0, h1, if_neg (by decide), if_neg (by decide), if_pos rfl, hbe, if_pos hmax]
      exact h
    · have h3 : n ≤ 0xFD := by omega
      have hddo : [0x53] ++ ddoLength n = [0x53, 0x81, UInt8.ofNat n] := by
        unfold ddoLength
        rw [if_neg (by omega), if_pos h2]
        rfl
      rw [hddo]
      have hb : byteAt ([0x53, 0x81, UInt8.ofNat n] ++ data ++ swOk) 2 = n := hbyte h2
      have h := hdeliver [0x53, 0x81, UInt8.ofNat n] (by simp)
      have h0 : byteAt ([0x53, 0x81, UInt8.ofNat n] ++ data ++ swOk) 0 = 0x53 := rfl
      have h1 : byteAt ([0x53, 0x81, UInt8.ofNat n] ++ data ++ swOk) 1 = 0x81 := rfl
      unfold handleDdo
      rw [if_pos h0, h1, if_neg (by decide), if_pos rfl, hb, if_pos h3]
      exact h
  · have hddo : [0x53] ++ ddoLength n = [0x53, UInt8.ofNat n] := by
      unfold ddoLength
      rw [if_pos h1]
      rfl
    rw [hddo]
    have hb : byteAt ([0x53, UInt8.ofNat n] ++ data ++ swOk) 1 = n := hbyte (by omega)
    have h := hdeliver [0x53, UInt8.ofNat n] (by simp)
    have h0 : byteAt ([0x53, UInt8.ofNat n] ++ data ++ swOk) 0 = 0x53 := rfl
    unfold handleDdo
    rw [if_pos h0, hb, if_pos h1]
    exact h

theorem leValue_odo {ext : Bool} (hd : Valid d) (hext : ext = d.extended) (left : Nat) :
    min (leValue ext ((if (if left > min d.maxLe 647 then min d.maxLe 647 else left) < min d.maxLe 647 then 0
        else (if left > min d.maxLe 647 then min d.maxLe 647 else left)) % (if ext then 2 ^ 16 else 2 ^ 8))) d.maxLe =
      if left < min d.maxLe 647 then d.maxLe else min d.maxLe 647 := by
  have hmle := hd.maxLe
  have hmle' := hd.leSize
  by_cases hleft : left < min d.maxLe 647
  · rw [if_pos hleft, if_neg (Nat.lt_asymm hleft), if_pos hleft, Nat.zero_mod]
    unfold leValue
    rw [if_pos rfl]
    cases he : ext with
    | true =>
      rw [if_pos rfl]
      omega
    | false =>
      have hshort := extended_false (hext.symm.trans he)
      rw [if_neg Bool.false_ne_true]
      omega
  · have hlength : (if left > min d.maxLe 647 then min d.maxLe 647 else left) = min d.maxLe 647 := by
      split <;> omega
    rw [if_neg hleft, hlength, if_neg (Nat.lt_irrefl _)]
    unfold leValue
    cases he : ext with
    | true =>
      rw [if_pos rfl, Nat.mod_eq_of_lt (by omega), if_neg (by omega)]
      omega
    | false =>
      have hshort := extended_false (hext.symm.trans he)
      rw [if_neg Bool.false_ne_true, if_neg Bool.false_ne_true]
      by_cases hfull : d.maxLe = 0x100
      · rw [hfull]
        rfl
      · rw [Nat.mod_eq_of_lt (by omega), if_neg (by omega)]
        omega

theorem readFile_odo {dta : Bool} {t : Tag} {cb : Cb} (hd : Valid d) (ht : TagOk d t)
    (hcb : cb.fixed = d.fixed dta) (hstate : cb.state = .readNdef) (hsub : cb.subState = .waitReadResp)
    (hpos : 0 < cb.rwLength) (hin : cb.rwOffset + cb.rwLength ≤ d.ndefFc.maxFileSize)
    (hodo : 0x7FFF < cb.rwOffset + cb.rwLength) (hversion : version30 ≤ d.version)
    (hoff : cb.rwOffset + cb.rwLength ≤ 2 ^ 24) {n : Nat}
    (hn : n = odoPart d cb.rwLength (d.ndefFc.maxFileSize - cb.rwOffset)) (hle : n ≤ cb.rwLength)
    (hlen : n ≤ 0xFD ∨ 0xFF < n ∧ n + 4 ≤ min d.maxLe 647) :
    ∃ cb₁ apdu rsp, Brings d t cb n cb₁ apdu rsp := by
  have hmax : cb.maxReadSize = min d.maxLe 647 := congrArg Fixed.maxReadSize hcb
  have hcc : cb.ccFile = d := congrArg Fixed.ccFile hcb
  have hext : cb.extFieldCoding = d.extended := congrArg Fixed.extFieldCoding hcb
  have hmle := hd.maxLe
  have hmle' := hd.leSize
  have hsizeMax := hd.sizeMax
  have hn0 : 0 < n := by
    rw [hn]
    exact odoPart_pos hd (by omega)
  obtain ⟨length, hlength⟩ : ∃ length, length = if cb.rwLength > cb.maxReadSize then cb.maxReadSize else cb.rwLength :=
    ⟨_, rfl⟩
  obtain ⟨le, hle'⟩ : ∃ le, le = (if length < cb.maxReadSize then 0 else length) %
      (if cb.extFieldCoding then 2 ^ 16 else 2 ^ 8) := ⟨_, rfl⟩
  obtain ⟨apdu, hapdu⟩ : ∃ apdu : Apdu, apdu = ⟨insReadBinaryOdo, 0, cb.extFieldCoding, 5,
      [0x54, 0x03] ++ be24 cb.rwOffset, some le⟩ := ⟨_, rfl⟩
  have hsend : continueRead cb = (true, { cb with ddoLcFieldCoding := true, retryCmd := some apdu }, [.frame apdu]) := by
    have hlast : (cb.rwOffset + cb.rwLength) % 2 ^ 32 > 0x7FFF := by omega
    have hver : cb.ccFile.version ≥ version30 := by
      rw [hcc]
      exact hversion
    unfold continueRead readFile
    rw [if_pos rfl]
    dsimp only
    rw [if_pos hlast, if_pos hver, ← hlength, ← hle', ← hapdu]
    rfl
  have hval : min (leValue cb.extFieldCoding le) t.desc.maxLe =
      if cb.rwLength < min d.maxLe 647 then d.maxLe else min d.maxLe 647 := by
    rw [ht.desc, hle', hlength, hmax]
    exact leValue_odo hd hext cb.rwLength
  have hexec : t.exec apdu = (t, [0x53] ++ ddoLength n ++ slice t.file cb.rwOffset n ++ swOk) := by
    rw [hapdu]
    refine exec_readOdo (selectedFile_ndef ht) (fun he => (extended_tag ht).trans (hext.symm.trans he))
      (by rw [ht.desc]; exact hversion) (by omega) (by rw [ht.size]; omega) ?_
    rw [hval, ht.size]
    exact hn
  have hfile : n ≤ d.ndefFc.maxFileSize - cb.rwOffset := by
    rw [hn]
    exact Nat.min_le_right _ _
  have hslice : (slice t.file cb.rwOffset n).length = n := length_slice (by rw [ht.size]; omega)
  refine ⟨{ cb with ddoLcFieldCoding := true, retryCmd := some apdu }, apdu, _, hn0, hle, hsend, ⟨true, rfl⟩, hexec, ?_⟩
  rw [dataCback_readResp (by exact hstate) (by exact hsub), if_pos rfl, handleDdo_ok hslice (by omega)]
  show n ≤ 0xFD ∨ 0xFF < n ∧ n + 4 ≤ cb.maxReadSize
  rw [hmax]
  exact hlen

/-! ## The whole message -/

structure Reading (d : Cc) (dta : Bool) (len k : Nat) (s : Sys) : Prop where
  tag : TagOk d s.tag
  fixed : s.cb.fixed = d.fixed dta
  state : s.cb.state = .readNdef
  sub : s.cb.subState = .waitReadResp
  offset : s.cb.rwOffset = d.ndefFc.nlenSize + k
  length : s.cb.rwLength = len - k
  plain : d.ndefFc.nlenSize + len ≤ 0x7FFF → s.cb.ddoLcFieldCoding = false

structure RestReadable (d : Cc) (len k : Nat) : Prop where
  odo : 0x7FFF < d.ndefFc.nlenSize + len →
    version30 ≤ d.version ∧ d.ndefFc.nlenSize + len ≤ 2 ^ 24 ∧
      OdoReadable d (len - k) (d.ndefFc.maxFileSize - (d.ndefFc.nlenSize + k))

/-- The message has been delivered, and nothing but the state has changed. -/
structure Delivered (d : Cc) (dta : Bool) (s : Sys) (data : Bytes) (w : Sys) : Prop where
  tag : w.tag = s.tag
  fixed : w.cb.fixed = d.fixed dta
  state : w.cb.state = .idle
  pending : w.pending = none
  ndefLength : w.cb.ndefLength = s.cb.ndefLength
  events : ∃ (segs : List Bytes) (last : Bytes), w.events = s.events ++ segs.map Event.read ++ [.readCplt last] ∧ segs.flatten ++ last = data

theorem reading_part {dta : Bool} {len k : Nat} {s : Sys} (hd : Valid d) (hk : k < len)
    (hin : d.ndefFc.nlenSize + len ≤ d.ndefFc.maxFileSize) (hrest : RestReadable d len k) (h : Reading d dta len k s) :
    ∃ n cb₁ apdu rsp, Brings d s.tag s.cb n cb₁ apdu rsp ∧ RestReadable d len (k + n) ∧
      (d.ndefFc.nlenSize + len ≤ 0x7FFF → cb₁.ddoLcFieldCoding = false) := by
  have hlast : s.cb.rwOffset + s.cb.rwLength = d.ndefFc.nlenSize + len := by
    rw [h.offset, h.length]
    omega
  have hpos : 0 < s.cb.rwLength := by
    rw [h.length]
    omega
  rcases Nat.lt_or_ge 0x7FFF (d.ndefFc.nlenSize + len) with hodo | hplain
  · obtain ⟨hversion, hoff, hread⟩ := hrest.odo hodo
    have havail : d.ndefFc.maxFileSize - (d.ndefFc.nlenSize + k) = d.ndefFc.maxFileSize - s.cb.rwOffset := by
      rw [h.offset]
    rw [havail, ← h.length] at hread
    generalize hleft : s.cb.rwLength = left at hread hpos
    cases hread with
    | done => exact absurd hpos (Nat.lt_irrefl 0)
    | part hle hlen hrec =>
      subst hleft
      obtain ⟨cb₁, apdu, rsp, hb⟩ := readFile_odo hd h.tag h.fixed h.state h.sub hpos (by rw [hlast]; exact hin)
        (by rw [hlast]; exact hodo) hversion (by rw [hlast]; exact hoff) rfl hle hlen
      refine ⟨_, cb₁, apdu, rsp, hb, ⟨fun _ => ⟨hversion, hoff, ?_⟩⟩, fun hp => absurd hp (Nat.not_le.mpr hodo)⟩
      rw [h.length, h.offset] at hrec
      rw [h.length, h.offset]
      rw [Nat.sub_sub, Nat.sub_sub] at hrec
      rw [← Nat.add_assoc]
      exact hrec
  · obtain ⟨n, cb₁, apdu, rsp, hb⟩ := readFile_plain hd h.tag h.fixed h.state h.sub hpos (by rw [hlast]; exact hin)
      (by rw [hlast]; exact hplain) (h.plain hplain)
    refine ⟨n, cb₁, apdu, rsp, hb, ⟨fun hodo => absurd hodo (Nat.not_lt.mpr hplain)⟩, fun _ => ?_⟩
    -- a plain READ leaves the flag as it was
    have hcb₁ : cb₁ = (continueRead s.cb).2.1 := by rw [hb.send]
    have hflag : (continueRead s.cb).2.1.ddoLcFieldCoding = s.cb.ddoLcFieldCoding := by
      have hno : ¬ (s.cb.rwOffset + s.cb.rwLength) % 2 ^ 32 > 0x7FFF := by
        rw [hlast]
        omega
      unfold continueRead readFile
      rw [if_pos rfl]
      dsimp only
      rw [if_neg hno]
      split <;> rfl
    rw [hcb₁, hflag]
    exact h.plain hplain

theorem read_completes {dta : Bool} {len : Nat} (hd : Valid d)
    (hin : d.ndefFc.nlenSize + len ≤ d.ndefFc.maxFileSize) :
    ∀ (left k : Nat) (s : Sys), len - k ≤ left → k < len → RestReadable d len k → Reading d dta len k s →
      (continueRead s.cb).1 = true ∧ ∃ n, Delivered d dta s (slice s.tag.file (d.ndefFc.nlenSize + k) (len - k))
        (Sys.step^[n] (s.emit (continueRead s.cb).2)) := by
  intro left
  induction left with
  | zero =>
    intro k s hleft hk
    omega
  | succ left ih =>
    intro k s hleft hk hrest h
    obtain ⟨n, cb₁, apdu, rsp, hb, hrest', hflag⟩ := reading_part hd hk hin hrest h
    refine ⟨by rw [hb.send], ?_⟩
    obtain ⟨ddo, hcb₁⟩ := hb.kept
    have hn := hb.le
    have hsize := hd.sizeMax
    rw [h.length] at hn
    obtain ⟨cb₂, hcb₂⟩ : ∃ cb₂, cb₂ = consume cb₁ n := ⟨_, rfl⟩
    have hcb₂' : cb₂ = { cb₁ with rwLength := len - (k + n), rwOffset := d.ndefFc.nlenSize + (k + n) } := by
      rw [hcb₂]
      unfold consume
      rw [if_pos ⟨hb.pos, by rw [hcb₁]; exact hb.le⟩, hcb₁]
      dsimp only
      rw [h.offset, h.length, Nat.mod_eq_of_lt (by omega), Nat.sub_sub, Nat.add_assoc]
    have hfixed₁ : cb₁.fixed = d.fixed dta := by
      rw [hcb₁]
      exact h.fixed
    have hstep : Sys.step (s.emit (continueRead s.cb).2) =
        (⟨s.tag, cb₁, some apdu, s.frames ++ [apdu], s.events⟩ : Sys).emit
          (deliver cb₂ (slice s.tag.file (d.ndefFc.nlenSize + k) n)) := by
      rw [hb.send, @step_pending _ apdu rfl]
      dsimp only [Sys.emit]
      rw [hb.exec]
      dsimp only
      rw [hb.take, ← hcb₂, h.offset]
      simp only [List.filterMap_cons, List.filterMap_nil, Out.frame?, Out.event?, List.append_nil]
    rcases Nat.lt_or_ge (k + n) len with hmore | hend
    · -- there is more to be read
      obtain ⟨s₂, hs₂⟩ : ∃ s₂ : Sys, s₂ = ⟨s.tag, cb₂, none, s.frames ++ [apdu],
          s.events ++ [.read (slice s.tag.file (d.ndefFc.nlenSize + k) n)]⟩ := ⟨_, rfl⟩
      have h₂ : Reading d dta len (k + n) s₂ := by
        rw [hs₂, hcb₂']
        refine ⟨h.tag, hfixed₁, ?_, ?_, rfl, rfl, hflag⟩
        · rw [hcb₁]
          exact h.state
        · rw [hcb₁]
          exact h.sub
      obtain ⟨hok, m, hm⟩ := ih (k + n) s₂ (by have := hb.pos; omega) hmore hrest' h₂
      have hcb₂len : cb₂.rwLength > 0 := by
        rw [hcb₂']
        dsimp only
        omega
      have hdel : deliver cb₂ (slice s.tag.file (d.ndefFc.nlenSize + k) n) =
          ((continueRead cb₂).2.1, .event (.read (slice s.tag.file (d.ndefFc.nlenSize + k) n)) :: (continueRead cb₂).2.2) := by
        rw [hs₂] at hok
        exact deliver_more hcb₂len (Prod.ext hok rfl) _
      have hemit : Sys.step (s.emit (continueRead s.cb).2) = s₂.emit (continueRead s₂.cb).2 := by
        rw [hstep, hdel, hs₂]
        dsimp only [Sys.emit]
        simp only [List.filterMap_cons, List.findSome?_cons, Out.frame?, Out.event?, List.append_assoc,
          List.cons_append, List.nil_append]
      have htag₂ : s₂.tag = s.tag := by rw [hs₂]
      refine ⟨m + 1, ?_⟩
      rw [Function.iterate_succ_apply, hemit]
      refine ⟨hm.tag.trans htag₂, hm.fixed, hm.state, hm.pending, ?_, ?_⟩
      · rw [hm.ndefLength, hs₂, hcb₂', hcb₁]
      · obtain ⟨segs, last, hev, hflat⟩ := hm.events
        refine ⟨slice s.tag.file (d.ndefFc.nlenSize + k) n :: segs, last, ?_, ?_⟩
        · rw [hev, hs₂]
          simp only [List.map_cons, List.append_assoc, List.cons_append, List.nil_append]
        · have hcut : len - k = n + (len - (k + n)) := by omega
          rw [List.flatten_cons, List.append_assoc, hflat, htag₂, hcut, slice_split, Nat.add_assoc]
    · -- this was the last part
      have hall : n = len - k := by omega
      have hcb₂len : ¬ cb₂.rwLength > 0 := by
        rw [hcb₂']
        dsimp only
        omega
      have hdel : deliver cb₂ (slice s.tag.file (d.ndefFc.nlenSize + k) n) =
          ({ cb₂ with state := .idle }, [.event (.readCplt (slice s.tag.file (d.ndefFc.nlenSize + k) n))]) := by
        unfold deliver
        rw [if_neg hcb₂len]
      refine ⟨1, ?_⟩
      rw [Function.iterate_one, hstep, hdel]
      refine ⟨rfl, ?_, rfl, rfl, ?_, [], slice s.tag.file (d.ndefFc.nlenSize + k) n, ?_, ?_⟩
      · rw [hcb₂']
        exact hfixed₁
      · rw [hcb₂', hcb₁]
        rfl
      · dsimp only [Sys.emit]
        simp only [List.filterMap_cons, List.filterMap_nil, Out.event?, List.map_nil, List.append_nil]
      · rw [List.flatten_nil, List.nil_append, hall]

end NfcStack.Rw.T4t
