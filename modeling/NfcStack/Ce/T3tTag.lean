import NfcStack.Lib.Run
import NfcStack.Ce.T4tFile
import NfcStack.Ce.T3tBlocks

/- The emulated Type 3 tag, seen from the reader: blocks that hold what was last written
   to them, and a block 0 that is put together from the length and the write flag.

   What is proved:
     1. `frame_check`, `frame_update`, `frame_fault`: what a frame does, by whether the
        blocks that it reaches lie in the buffer.
     2. `shows_effect`: a block that takes effect, on the tag.
     3. `t3t_reads_back`: in every run of frames that reach no partial block, and that are
        carried out wholly or not at all, the tag reads as it was written. -/
namespace NfcStack.Ce
open NfcStack.Lib

section Tag
variable {size : Nat} {m u : T3tMem} {msg : Bytes}

/-! ## Frames -/

/-- The sizes of the buffers. A message is read-only or can be written. -/
structure Configured (size : Nat) (m : T3tMem) : Prop where
  card : m.ndefInfo.card.length = size
  writable : Writable size m.ndefInfo
  flag : m.ndefInfo.rwflag = rwflagRo ∨ m.ndefInfo.rwflag = rwflagRw
  nmaxb : m.ndefInfo.nmaxb < 2 ^ 16

/-- The blocks that a command reaches lie in a buffer of `size` bytes. -/
def Reaches (size : Nat) (m : T3tMem) : TagCmd → Prop
  | .other => True
  | .check bs => ∀ b ∈ bs.takeWhile (acceptsCheck m.ndefInfo bs.length), Fits size b
  | .update xs => ∀ x ∈ reached m.ndefInfo xs.length xs, Fits size x.1

def updated (m : T3tMem) (xs : List (Block × Bytes)) : UpdateState :=
  let st := (reached m.ndefInfo xs.length xs).foldl effect (updateStart m)
  { st with ok := st.ok && xs.all fun x => acceptsUpdate m.ndefInfo xs.length x.1 }

theorem Configured.start (h : Configured size m) : Writable size (updateStart m).info := h.writable

theorem frame_other (hcmd : tagCmd m msg = .other) :
    ∃ outs, t3tDataCback m msg = some (m, outs) ∧ ∀ ok len, .ndefUpdateCplt ok len ∉ outs := by
  have h := handles_tagCmd m msg
  rw [hcmd] at h
  exact h

theorem frame_check (h : Configured size m) {bs : List Block} (hcmd : tagCmd m msg = .check bs)
    (hin : Reaches size m (.check bs)) :
    t3tDataCback m msg = some (m, [checkRsp m bs.length
      (if bs.all (acceptsCheck m.ndefInfo bs.length) then some (bs.flatMap m.ndefInfo.blockBytes)
        else none)]) := by
  have hframe := handles_tagCmd m msg
  rw [hcmd] at hframe
  refine hframe.trans ?_
  rw [checkBlocks_eq (by rw [h.card]; exact hin)]
  rfl

variable {xs : List (Block × Bytes)}

theorem frame_update (h : Configured size m)
    (hcmd : tagCmd m msg = .update xs) (hin : Reaches size m (.update xs)) :
    t3tDataCback m msg = some (updateDone m (updated m xs)) := by
  have hframe := handles_tagCmd m msg
  rw [hcmd] at hframe
  refine hframe.2.trans ?_
  rw [updateBlocks_eq h.start hframe.1 hin]
  unfold updated
  dsimp only
  by_cases hall : (xs.all fun x => acceptsUpdate m.ndefInfo xs.length x.1) = true
  · have hreached : reached m.ndefInfo xs.length xs = xs :=
      List.takeWhile_eq_self_iff.mpr fun x hx => List.all_eq_true.mp hall x hx
    rw [if_pos (show xs.all (fun x => acceptsUpdate (updateStart m).info xs.length x.1) = true from hall),
      hreached, hall, Bool.and_true]
    rfl
  · rw [if_neg (show ¬ xs.all (fun x => acceptsUpdate (updateStart m).info xs.length x.1) = true from hall)]
    rw [show (xs.all fun x => acceptsUpdate m.ndefInfo xs.length x.1) = false from by simpa using hall,
      Bool.and_false]
    rfl

theorem frame_fault (h : Configured size m) (hout : ¬ Reaches size m (tagCmd m msg)) :
    t3tDataCback m msg = none := by
  have hframe := handles_tagCmd m msg
  cases hcmd : tagCmd m msg with
  | other =>
    rw [hcmd] at hout
    exact absurd trivial hout
  | check bs =>
    rw [hcmd] at hframe hout
    refine hframe.trans ?_
    rw [checkBlocks_fault (by rw [h.card]; exact hout)]
    rfl
  | update xs =>
    rw [hcmd] at hframe hout
    refine hframe.2.trans ?_
    rw [updateBlocks_fault h.start hframe.1 hout]
    rfl

theorem data_length (hcmd : tagCmd m msg = .update xs) :
    ∀ x ∈ xs, x.2.length = t3tMsgBlocksize := by
  have hframe := handles_tagCmd m msg
  rw [hcmd] at hframe
  exact hframe.1

/-! ## What an UPDATE keeps -/

theorem SameParams.isRw {a b : NdefInfo} (h : SameParams a b) : b.isRw = a.isRw := by
  have hsome : b.scratchBuf.isSome = a.scratchBuf.isSome := by
    have hmap := congrArg Option.isSome h.scratch
    rwa [Option.isSome_map, Option.isSome_map] at hmap
  unfold NdefInfo.isRw
  rw [h.rwflag, hsome]

theorem SameParams.card_length {a b : NdefInfo} (h : SameParams a b) : b.card.length = a.card.length := by
  unfold NdefInfo.card
  rw [h.isRw, h.buf]
  split
  · have hmap := h.scratch
    cases hb : b.scratchBuf with
    | none =>
      rw [hb] at hmap
      rw [Option.map_eq_none_iff.mp hmap.symm]
    | some buf =>
      rw [hb] at hmap
      obtain ⟨buf', ha, hlen⟩ := Option.map_eq_some_iff.mp hmap.symm
      rw [ha]
      exact hlen.symm
  · rfl

theorem foldl_effect_params {numBlocks : Nat} (xs : List (Block × Bytes)) : ∀ {st : UpdateState},
    Writable size st.info →
    (∀ x ∈ xs, acceptsUpdate st.info numBlocks x.1 = true ∧ Fits size x.1 ∧ x.2.length = t3tMsgBlocksize) →
      SameParams st.info (xs.foldl effect st).info := by
  induction xs with
  | nil => exact fun _ _ => SameParams.refl _
  | cons x xs ih =>
    intro st hbuf hxs
    obtain ⟨hacc, hfit, hdata⟩ := hxs x (by simp)
    have hparams := effect_params hbuf hacc hfit hdata
    refine hparams.trans (ih (hbuf.same hparams) fun y hy => ?_)
    rw [hparams.accepts]
    exact hxs y (by simp [hy])

theorem mem_reached {info : NdefInfo} {numBlocks : Nat} {x : Block × Bytes}
    (h : x ∈ reached info numBlocks xs) : x ∈ xs ∧ acceptsUpdate info numBlocks x.1 = true :=
  ⟨List.takeWhile_subset _ h,
    List.mem_takeWhile_imp (p := fun y : Block × Bytes => acceptsUpdate info numBlocks y.1) h⟩

theorem updated_params (h : Configured size m)
    (hcmd : tagCmd m msg = .update xs) (hin : Reaches size m (.update xs)) :
    SameParams m.ndefInfo (updated m xs).info :=
  foldl_effect_params _ h.start fun x hx =>
    ⟨(mem_reached hx).2, hin x hx, data_length hcmd x (mem_reached hx).1⟩

theorem Configured.same (h : Configured size m) (hs : SameParams m.ndefInfo u.ndefInfo) :
    Configured size u := by
  refine ⟨hs.card_length.trans h.card, h.writable.same hs, ?_, ?_⟩
  · rw [hs.rwflag]
    exact h.flag
  · rw [hs.nmaxb]
    exact h.nmaxb

theorem frame_params (h : Configured size m) {outs : List T3tOut}
    (hframe : t3tDataCback m msg = some (u, outs)) : SameParams m.ndefInfo u.ndefInfo := by
  by_cases hin : Reaches size m (tagCmd m msg)
  · cases hcmd : tagCmd m msg with
    | other =>
      obtain ⟨outs', ho, -⟩ := frame_other hcmd
      obtain ⟨rfl, -⟩ := Prod.mk.inj (Option.some.inj (ho.symm.trans hframe))
      exact SameParams.refl _
    | check bs =>
      rw [hcmd] at hin
      obtain ⟨rfl, -⟩ := Prod.mk.inj (Option.some.inj ((frame_check h hcmd hin).symm.trans hframe))
      exact SameParams.refl _
    | update xs =>
      rw [hcmd] at hin
      obtain ⟨rfl, -⟩ := Prod.mk.inj (Option.some.inj ((frame_update h hcmd hin).symm.trans hframe))
      exact updated_params h hcmd hin
  · rw [frame_fault h hin] at hframe
    cases hframe

/-! ## The tag -/

/-- The tag as the reader sees it: its data blocks, and what block 0 says of them. -/
structure Tag where
  block : Nat → Bytes
  ln : Nat
  writef : UInt8

def checksumOk (data : Bytes) : Bool := attrChecksum data == be16At data 14

def Tag.write (t : Tag) (x : Block × Bytes) : Tag :=
  if x.1.number = 0 then { t with ln := attrLn x.2, writef := attrWritef x.2 }
  else { t with block := Function.update t.block x.1.number x.2 }

/-- An UPDATE is carried out if each of its blocks is accepted. -/
def carriedOut (info : NdefInfo) (xs : List (Block × Bytes)) : Bool :=
  xs.all fun x => acceptsUpdate info xs.length x.1 && (x.1.number != 0 || checksumOk x.2)

def Tag.step (t : Tag) (info : NdefInfo) : TagCmd → Tag
  | .update xs => if carriedOut info xs then xs.foldl Tag.write t else t
  | _ => t

/-- The length and the write flag that block 0 is put together from. -/
def NdefInfo.lnShown (info : NdefInfo) : Nat := if info.isRw then info.scratchLn else info.ln

def NdefInfo.writefShown (info : NdefInfo) : UInt8 :=
  if info.isRw then info.scratchWritef else info.writef

structure Shows (size : Nat) (info : NdefInfo) (t : Tag) : Prop where
  blocks : ∀ n, 0 < n → n * t3tMsgBlocksize ≤ size →
    slice info.card ((n - 1) * t3tMsgBlocksize) t3tMsgBlocksize = t.block n
  ln : info.lnShown % 2 ^ 24 = t.ln
  writef : info.writefShown = t.writef

variable {info : NdefInfo} {numBlocks : Nat} {st : UpdateState} {x : Block × Bytes} {t : Tag}

theorem acceptsUpdate_scratch (hbuf : Writable size info)
    (hflag : info.rwflag = rwflagRo ∨ info.rwflag = rwflagRw)
    (hacc : acceptsUpdate info numBlocks x.1 = true) :
    ∃ buf, info.scratchBuf = some buf ∧ buf.length = size ∧ info.rwflag = rwflagRw := by
  unfold acceptsUpdate at hacc
  simp only [Bool.and_eq_true, bne_iff_ne] at hacc
  obtain ⟨buf, hb, hlen⟩ := hbuf hacc.1.2
  exact ⟨buf, hb, hlen, hflag.resolve_left hacc.1.2⟩

theorem isRw_of_scratch {buf : Bytes} (hb : info.scratchBuf = some buf) (hrw : info.rwflag = rwflagRw) :
    info.isRw = true ∧ info.card = buf := by
  have hisRw : info.isRw = true := by simp [NdefInfo.isRw, hb, hrw]
  refine ⟨hisRw, ?_⟩
  unfold NdefInfo.card
  rw [if_pos hisRw, hb]
  rfl

theorem attrLn_lt (data : Bytes) : attrLn data < 2 ^ 24 := by
  have h11 := (data.getD 11 0).toNat_lt
  have h12 := (data.getD 12 0).toNat_lt
  have h13 := (data.getD (12 + 1) 0).toNat_lt
  unfold attrLn be16At
  omega

theorem shows_effect (hbuf : Writable size st.info)
    (hflag : st.info.rwflag = rwflagRo ∨ st.info.rwflag = rwflagRw)
    (hacc : acceptsUpdate st.info numBlocks x.1 = true) (hfit : Fits size x.1)
    (hdata : x.2.length = t3tMsgBlocksize) (hsum : x.1.number = 0 → checksumOk x.2 = true)
    (h : Shows size st.info t) : Shows size (effect st x).info (t.write x) := by
  obtain ⟨buf, hb, hlen, hrw⟩ := acceptsUpdate_scratch hbuf hflag hacc
  obtain ⟨hisRw, hcard⟩ := isRw_of_scratch hb hrw
  unfold effect Tag.write
  by_cases hzero : x.1.number = 0
  · rw [if_pos hzero, if_pos hzero]
    have hinfo : (updateAttr x.2 st).info =
        { st.info with scratchLn := attrLn x.2, scratchWritef := attrWritef x.2 } := by
      unfold updateAttr
      rw [if_neg (not_not.mpr (by simpa [checksumOk] using hsum hzero))]
      dsimp only
      split
      · rfl
      · rfl
    rw [hinfo]
    refine ⟨h.blocks, ?_, ?_⟩
    · show (if st.info.isRw = true then attrLn x.2 else st.info.ln) % 2 ^ 24 = _
      rw [if_pos hisRw]
      exact Nat.mod_eq_of_lt (attrLn_lt x.2)
    · exact if_pos hisRw
  · rw [if_neg hzero, if_neg hzero]
    have hle : x.1.number * 16 ≤ size := hfit.resolve_left hzero
    have hin : (x.1.number - 1) * t3tMsgBlocksize + x.2.length ≤ buf.length := by
      rw [hdata, hlen]
      show (x.1.number - 1) * 16 + 16 ≤ _
      omega
    rw [hb, Option.map_some]
    obtain ⟨hisRw', hcard'⟩ := @isRw_of_scratch { st.info with
      scratchBuf := some (blit buf ((x.1.number - 1) * t3tMsgBlocksize) x.2) } _ rfl hrw
    refine ⟨fun n hn hns => ?_, ?_, ?_⟩
    · rw [hcard']
      show _ = Function.update t.block x.1.number x.2 n
      have hns' : n * 16 ≤ size := hns
      by_cases hsame : n = x.1.number
      · rw [hsame, Function.update_self]
        exact slice_blit_same hdata.symm hin
      · rw [Function.update_of_ne hsame, ← h.blocks n hn hns, hcard]
        rcases Nat.lt_or_gt_of_ne hsame with hlt | hgt
        · apply slice_blit_before
          · show (n - 1) * 16 + 16 ≤ (x.1.number - 1) * 16
            omega
          · omega
        · apply slice_blit_behind
          · rw [hdata]
            show (x.1.number - 1) * 16 + 16 ≤ (n - 1) * 16
            omega
          · exact hin
    · rw [← h.ln]
      unfold NdefInfo.lnShown
      rw [hisRw', hisRw]
    · rw [← h.writef]
      unfold NdefInfo.writefShown
      rw [hisRw', hisRw]

theorem shows_foldl (xs : List (Block × Bytes)) : ∀ {st : UpdateState} {t : Tag},
    Writable size st.info → (st.info.rwflag = rwflagRo ∨ st.info.rwflag = rwflagRw) →
    (∀ x ∈ xs, acceptsUpdate st.info numBlocks x.1 = true ∧ Fits size x.1 ∧
      x.2.length = t3tMsgBlocksize ∧ (x.1.number = 0 → checksumOk x.2 = true)) →
    Shows size st.info t → Shows size (xs.foldl effect st).info (xs.foldl Tag.write t) := by
  induction xs with
  | nil => exact fun _ _ _ h => h
  | cons x xs ih =>
    intro st t hbuf hflag hxs h
    obtain ⟨hacc, hfit, hdata, hsum⟩ := hxs x (by simp)
    have hparams := effect_params hbuf hacc hfit hdata
    apply ih (hbuf.same hparams)
    · rw [hparams.rwflag]
      exact hflag
    · rw [hparams.accepts]
      exact fun y hy => hxs y (by simp [hy])
    · exact shows_effect hbuf hflag hacc hfit hdata hsum h

theorem foldl_effect_bad (xs : List (Block × Bytes)) : ∀ (st : UpdateState),
    (∀ x ∈ xs, x.1.number = 0 ∧ ¬ checksumOk x.2 = true) → (xs.foldl effect st).info = st.info := by
  induction xs with
  | nil => exact fun _ _ => rfl
  | cons x xs ih =>
    intro st hxs
    obtain ⟨hzero, hsum⟩ := hxs x (by simp)
    rw [List.foldl_cons, ih _ fun y hy => hxs y (by simp [hy])]
    unfold effect updateAttr
    rw [if_pos hzero, if_pos (by simpa [checksumOk] using hsum)]

theorem foldl_effect_ok (xs : List (Block × Bytes)) : ∀ (st : UpdateState),
    (xs.foldl effect st).ok = (st.ok && xs.all fun x => x.1.number != 0 || checksumOk x.2) := by
  induction xs with
  | nil => simp
  | cons x xs ih =>
    intro st
    have hok : (effect st x).ok = (st.ok && (x.1.number != 0 || checksumOk x.2)) := by
      unfold effect updateAttr checksumOk
      split
      · rename_i hzero
        split
        · simp_all
        · dsimp only
          split
          · simp_all
          · simp_all
      · simp_all
    rw [List.foldl_cons, ih, hok, List.all_cons, Bool.and_assoc]

theorem updated_ok (m : T3tMem) (xs : List (Block × Bytes)) :
    (updated m xs).ok = carriedOut m.ndefInfo xs := by
  unfold updated carriedOut
  dsimp only
  rw [foldl_effect_ok, show (updateStart m).ok = true from rfl, Bool.true_and]
  by_cases hall : (xs.all fun x => acceptsUpdate m.ndefInfo xs.length x.1) = true
  · have hreached : reached m.ndefInfo xs.length xs = xs :=
      List.takeWhile_eq_self_iff.mpr fun x hx => List.all_eq_true.mp hall x hx
    rw [hreached, hall, Bool.and_true, Bool.eq_iff_iff]
    simp only [List.all_eq_true, Bool.and_eq_true] at hall ⊢
    exact ⟨fun h x hx => ⟨hall x hx, h x hx⟩, fun h x hx => (h x hx).2⟩
  · rw [show (xs.all fun x => acceptsUpdate m.ndefInfo xs.length x.1) = false from by simpa using hall,
      Bool.and_false, eq_comm, Bool.eq_false_iff]
    intro hcarried
    apply hall
    simp only [List.all_eq_true, Bool.and_eq_true] at hcarried ⊢
    exact fun x hx => (hcarried x hx).1

/-! ## Block 0 -/

/-- An attribute block of the tag: its length and write flag, the configured fields and a
right checksum. -/
structure IsAttr (info : NdefInfo) (t : Tag) (bs : Bytes) : Prop where
  length : bs.length = t3tMsgBlocksize
  version : bs.getD 0 0 = info.version
  nbr : bs.getD 1 0 = info.nbr
  nbw : bs.getD 2 0 = info.nbw
  nmaxb : be16At bs 3 = info.nmaxb
  unused : slice bs 5 4 = [0, 0, 0, 0]
  writef : attrWritef bs = t.writef
  rwflag : bs.getD 10 0 = info.rwflag
  ln : attrLn bs = t.ln
  checksum : attrChecksum bs = be16At bs 14

theorem be16_toNat {n : Nat} (h : n < 2 ^ 16) :
    (UInt8.ofNat (n / 2 ^ 8)).toNat * 2 ^ 8 + (UInt8.ofNat n).toNat = n := by
  rw [UInt8.toNat_ofNat', UInt8.toNat_ofNat']
  omega

theorem isAttr_attrBlock (hnmaxb : info.nmaxb < 2 ^ 16) (ln : Nat) (writef : UInt8)
    (hln : ln % 2 ^ 24 = t.ln) (hwritef : writef = t.writef) : IsAttr info t (attrBlock info writef ln) where
  length := rfl
  version := rfl
  nbr := rfl
  nbw := rfl
  nmaxb := be16_toNat hnmaxb
  unused := rfl
  writef := hwritef
  rwflag := rfl
  ln := by
    show (UInt8.ofNat (ln / 2 ^ 16)).toNat * 2 ^ 16 + ((UInt8.ofNat (ln % 2 ^ 16 / 2 ^ 8)).toNat * 2 ^ 8 +
      (UInt8.ofNat (ln % 2 ^ 16)).toNat) = _
    rw [be16_toNat (Nat.mod_lt _ (by decide)), UInt8.toNat_ofNat', ← hln]
    omega
  checksum := by
    symm
    exact be16_toNat (Nat.mod_lt _ (by decide))

def BlockReads (info : NdefInfo) (t : Tag) (b : Block) (bs : Bytes) : Prop :=
  if b.number = 0 then IsAttr info t bs else bs = t.block b.number

theorem Shows.blockReads (h : Shows size info t) (hnmaxb : info.nmaxb < 2 ^ 16) {b : Block}
    (hfit : Fits size b) : BlockReads info t b (info.blockBytes b) := by
  unfold BlockReads NdefInfo.blockBytes
  split
  · have hln := h.ln
    have hwritef := h.writef
    unfold NdefInfo.lnShown at hln
    unfold NdefInfo.writefShown at hwritef
    split
    · rename_i hrw
      rw [if_pos hrw] at hln hwritef
      exact isAttr_attrBlock hnmaxb _ _ hln hwritef
    · rename_i hrw
      rw [if_neg hrw] at hln hwritef
      exact isAttr_attrBlock hnmaxb _ _ hln hwritef
  · rename_i hne
    exact h.blocks _ (Nat.pos_of_ne_zero hne) (hfit.resolve_left hne)

/-! ## Runs -/

def tagStep (p : T3tMem × Tag) (msg : Bytes) : Option (T3tMem × Tag) :=
  (t3tDataCback p.1 msg).map fun r => (r.1, p.2.step p.1.ndefInfo (tagCmd p.1 msg))

/-- An UPDATE is carried out wholly, or none of its blocks takes effect, whatever it is refused
for: a read-only service, a block that is not there, too many blocks or a wrong checksum. -/
def Whole (info : NdefInfo) : TagCmd → Prop
  | .update xs => carriedOut info xs = true ∨
      ∀ x ∈ reached info xs.length xs, x.1.number = 0 ∧ ¬ checksumOk x.2 = true
  | _ => True

/-- The frame reaches no block outside the buffer and is carried out wholly or not at all. -/
def FrameOk (size : Nat) (p : T3tMem × Tag) (msg : Bytes) : Prop :=
  Reaches size p.1 (tagCmd p.1 msg) ∧ Whole p.1.ndefInfo (tagCmd p.1 msg)

def Answered (info : NdefInfo) (t : Tag) (m u : T3tMem) (outs : List T3tOut) : TagCmd → Prop
  | .other => u = m
  | .check bs => u = m ∧
      if bs.all (acceptsCheck info bs.length) then
        ∃ ds, outs = [checkRsp m bs.length (some ds.flatten)] ∧ List.Forall₂ (BlockReads info t) bs ds
      else outs = [checkRsp m bs.length none]
  | .update xs =>
      if carriedOut info xs then
        outs.head? = some (sendRsp m.localNfcid2 opcUpdateRsp statusOk statusOk)
      else outs.head? = some (sendRsp m.localNfcid2 opcUpdateRsp statusError status2ErrorMemory) ∧
        u.ndefInfo = m.ndefInfo

/-- The frame returns, and is answered by the tag. -/
def ReadsBack (p : T3tMem × Tag) (msg : Bytes) : Prop :=
  ∃ u outs, t3tDataCback p.1 msg = some (u, outs) ∧
    Answered p.1.ndefInfo p.2 p.1 u outs (tagCmd p.1 msg)

structure TagInv (size : Nat) (info : NdefInfo) (p : T3tMem × Tag) : Prop where
  conf : Configured size p.1
  shows : Shows size p.1.ndefInfo p.2
  same : SameParams info p.1.ndefInfo

theorem answered_update (m : T3tMem) (t : Tag)
    (hsame : ¬ carriedOut m.ndefInfo xs = true → (updated m xs).info = m.ndefInfo) :
    Answered m.ndefInfo t m (updateDone m (updated m xs)).1 (updateDone m (updated m xs)).2
      (.update xs) := by
  unfold Answered updateDone
  dsimp only
  rw [updated_ok]
  split
  · rfl
  · rename_i hc
    exact ⟨rfl, hsame hc⟩

theorem shows_updated (hconf : Configured size m)
    (hcmd : tagCmd m msg = .update xs) (hin : Reaches size m (.update xs))
    (hwhole : Whole m.ndefInfo (.update xs)) (h : Shows size m.ndefInfo t) :
    Shows size (updated m xs).info (t.step m.ndefInfo (.update xs)) ∧
      (¬ carriedOut m.ndefInfo xs = true → (updated m xs).info = m.ndefInfo) := by
  unfold Tag.step
  dsimp only
  by_cases hc : carriedOut m.ndefInfo xs = true
  · refine ⟨?_, fun hnot => absurd hc hnot⟩
    have hxs : ∀ x ∈ xs, acceptsUpdate m.ndefInfo xs.length x.1 = true ∧
        (x.1.number = 0 → checksumOk x.2 = true) := by
      intro x hx
      have hx' := List.all_eq_true.mp hc x hx
      simp only [Bool.and_eq_true, Bool.or_eq_true, bne_iff_ne] at hx'
      exact ⟨hx'.1, fun hz => hx'.2.resolve_left (not_not.mpr hz)⟩
    have hreached : reached m.ndefInfo xs.length xs = xs :=
      List.takeWhile_eq_self_iff.mpr fun x hx => (hxs x hx).1
    have hall : ∀ x ∈ xs, acceptsUpdate (updateStart m).info xs.length x.1 = true ∧ Fits size x.1 ∧
        x.2.length = t3tMsgBlocksize ∧ (x.1.number = 0 → checksumOk x.2 = true) := by
      intro x hx
      refine ⟨(hxs x hx).1, ?_, data_length hcmd x hx, (hxs x hx).2⟩
      apply hin
      rwa [hreached]
    rw [if_pos hc]
    unfold updated
    dsimp only
    rw [hreached]
    exact shows_foldl xs hconf.start hconf.flag hall h
  · have hinfo : (updated m xs).info = m.ndefInfo :=
      foldl_effect_bad _ (updateStart m) (hwhole.resolve_left hc)
    rw [if_neg hc, hinfo]
    exact ⟨h, fun _ => rfl⟩

theorem frame_reads {p : T3tMem × Tag} (h : TagInv size info p) (hok : FrameOk size p msg) :
    ReadsBack p msg ∧ ∃ q, tagStep p msg = some q ∧ TagInv size info q := by
  obtain ⟨m, t⟩ := p
  obtain ⟨hin, hwhole⟩ := hok
  dsimp only at hin hwhole
  have hconf : Configured size m := h.conf
  have hshows : Shows size m.ndefInfo t := h.shows
  unfold ReadsBack tagStep
  dsimp only
  cases hcmd : tagCmd m msg with
  | other =>
    obtain ⟨outs, ho, -⟩ := frame_other hcmd
    rw [ho]
    exact ⟨⟨m, outs, rfl, rfl⟩, _, rfl, h⟩
  | check bs =>
    rw [hcmd] at hin
    rw [frame_check hconf hcmd hin]
    refine ⟨⟨m, _, rfl, rfl, ?_⟩, _, rfl, h⟩
    split
    · rename_i hall
      refine ⟨bs.map m.ndefInfo.blockBytes, by rw [List.flatMap_def], ?_⟩
      rw [List.forall₂_map_right_iff, List.forall₂_same]
      intro b hb
      apply hshows.blockReads hconf.nmaxb
      apply hin
      rwa [List.takeWhile_eq_self_iff.mpr fun c hc => List.all_eq_true.mp hall c hc]
    · rfl
  | update xs =>
    rw [hcmd] at hin hwhole
    rw [frame_update hconf hcmd hin]
    have hparams := updated_params hconf hcmd hin
    obtain ⟨hshows', hsame⟩ := shows_updated hconf hcmd hin hwhole hshows
    exact ⟨⟨_, _, rfl, answered_update m t hsame⟩, _, rfl, hconf.same hparams, hshows',
      h.same.trans hparams⟩

/-- The tag that is configured, with the content of the buffer. -/
def configuredTag (content : Bytes) (sizeCurrent : Nat) : Tag where
  block n := slice content ((n - 1) * t3tMsgBlocksize) t3tMsgBlocksize
  ln := sizeCurrent % 2 ^ 24
  writef := 0x00

/-- The content of the buffer that the tag is first read from. -/
def firstContent (readOnly : Bool) (buf : Bytes) (sizeCurrent : Nat) (scratchBuf : Option Bytes) : Bytes :=
  if readOnly then buf else firstMessage buf sizeCurrent scratchBuf

theorem configured_setLocalNDEFMsg {m₀ : T3tMem} {readOnly : Bool} {sizeMax sizeCurrent : UInt32}
    {buf nfcid2 : Bytes} {scratchBuf : Option Bytes} {systemCode : Nat}
    (hro : readOnly = true ∨ scratchBuf ≠ none) (hbuf : buf.length = sizeMax.toNat)
    (hscratch : ∀ b, scratchBuf = some b → b.length = sizeMax.toNat)
    (hset : t3tSetLocalNDEFMsg m₀ readOnly sizeMax sizeCurrent (some buf) scratchBuf = some m) :
    Configured sizeMax.toNat (selectT3t m systemCode nfcid2) ∧
      Shows sizeMax.toNat m.ndefInfo
        (configuredTag (firstContent readOnly buf sizeCurrent.toNat scratchBuf) sizeCurrent.toNat) := by
  have hnot : ¬ (¬ readOnly = true ∧ scratchBuf = none) := by
    rintro ⟨hr, hs⟩
    exact hro.elim hr fun h => h hs
  unfold t3tSetLocalNDEFMsg at hset
  rw [if_neg hnot] at hset
  obtain ⟨scratch, hinit, rfl⟩ := Option.map_eq_some_iff.mp hset
  obtain ⟨hfirst, hsome, hlen⟩ := initScratch_some hinit
  have hlen := hlen _ hbuf hscratch
  cases readOnly with
  | true =>
    refine ⟨⟨hbuf, fun hrw => absurd rfl hrw, .inl rfl, Nat.mod_lt _ (by decide)⟩, fun n _ _ => rfl, rfl, rfl⟩
  | false =>
    have hs := hro.resolve_left Bool.false_ne_true
    obtain ⟨b, rfl⟩ := Option.ne_none_iff_exists'.mp hs
    obtain ⟨b', hb'⟩ := Option.isSome_iff_exists.mp (hsome rfl)
    rw [hb'] at hfirst
    have hcontent : b' = firstContent false buf sizeCurrent.toNat (some b) := hfirst
    subst hb'
    rw [← hfirst] at hlen
    refine ⟨⟨hlen, fun _ => ⟨_, rfl, hlen⟩, .inr rfl, Nat.mod_lt _ (by decide)⟩, fun n _ _ => ?_, rfl, rfl⟩
    rw [← hcontent]
    rfl

end Tag

/-- After a configuration and an activation, along every run of frames that reach no block
outside the buffer and of which each UPDATE is carried out wholly or not at all, every frame
returns, a CHECK that is accepted reads the blocks as they were last written, and an UPDATE that
is refused changes nothing. -/
theorem t3t_reads_back (m₀ m : T3tMem) (readOnly : Bool) (sizeMax sizeCurrent : UInt32)
    (buf nfcid2 : Bytes) (scratchBuf : Option Bytes) (systemCode : Nat) (frames : List Bytes)
    (hro : readOnly = true ∨ scratchBuf ≠ none) (hbuf : buf.length = sizeMax.toNat)
    (hscratch : ∀ b, scratchBuf = some b → b.length = sizeMax.toNat)
    (hset : t3tSetLocalNDEFMsg m₀ readOnly sizeMax sizeCurrent (some buf) scratchBuf = some m)
    (hok : StepsOk tagStep (FrameOk sizeMax.toNat) (selectT3t m systemCode nfcid2,
      configuredTag (firstContent readOnly buf sizeCurrent.toNat scratchBuf) sizeCurrent.toNat) frames) :
    ∃ p, run tagStep (selectT3t m systemCode nfcid2,
        configuredTag (firstContent readOnly buf sizeCurrent.toNat scratchBuf) sizeCurrent.toNat) frames =
        some p ∧
      SameParams m.ndefInfo p.1.ndefInfo ∧ ∀ msg, FrameOk sizeMax.toNat p msg → ReadsBack p msg := by
  obtain ⟨hconf, hshows⟩ := configured_setLocalNDEFMsg hro hbuf hscratch hset
  obtain ⟨p, hrun, hp⟩ := @run_invariant _ _ tagStep (FrameOk sizeMax.toNat)
    (TagInv sizeMax.toNat m.ndefInfo) (fun _ _ h hf => (frame_reads h hf).2) frames _
    ⟨hconf, hshows, SameParams.refl _⟩ hok
  exact ⟨p, hrun, hp.same, fun msg hf => (frame_reads hp hf).1⟩

/-- A tag of two blocks, of which the second is written. -/
theorem t3t_reads_back_two :
    ∃ m, t3tSetLocalNDEFMsg t3tInit false 32 4 (some (List.replicate 32 1))
        (some (List.replicate 32 2)) = some m ∧
      ∃ p, run tagStep (selectT3t m 0x12FC [0, 1, 2, 3, 4, 5, 6, 7],
          configuredTag (firstContent false (List.replicate 32 1) 4 (some (List.replicate 32 2))) 4)
          [[33, 8, 0, 1, 2, 3, 4, 5, 6, 7, 1, 9, 0, 1, 0, 2, 0] ++ List.replicate 16 5] = some p ∧
        SameParams m.ndefInfo p.1.ndefInfo ∧ ∀ msg, FrameOk 32 p msg → ReadsBack p msg := by
  refine ⟨_, rfl, ?_⟩
  refine t3t_reads_back t3tInit _ false 32 4 (List.replicate 32 1) [0, 1, 2, 3, 4, 5, 6, 7]
    (some (List.replicate 32 2)) 0x12FC _ (.inr (by decide)) rfl (fun b hb => ?_) rfl
    ⟨⟨?_, .inl ?_⟩, fun _ _ => trivial⟩
  · obtain rfl := Option.some.inj hb
    rfl
  · show ∀ x ∈ reached _ _ _, Fits 32 x.1
    decide +kernel
  · decide +kernel

/-- An UPDATE of two blocks, the second of them for the read-only service, is refused, but the
first of them is written; and a block that lies in the buffer only in part is written beyond
its end. -/
theorem t3t_refused_written :
    (∃ m u v outs, t3tSetLocalNDEFMsg t3tInit false 16 0 (some (List.replicate 16 0))
        (some (List.replicate 16 0)) = some m ∧
      t3tDataCback (selectT3t m 0x12FC [0, 1, 2, 3, 4, 5, 6, 7])
          ([52, 8, 0, 1, 2, 3, 4, 5, 6, 7, 2, 9, 0, 11, 0, 2, 0x80, 1, 0x81, 1] ++ List.replicate 32 5) =
        some (u, sendRsp [0, 1, 2, 3, 4, 5, 6, 7] opcUpdateRsp statusError status2ErrorMemory :: outs) ∧
      t3tDataCback u [16, 6, 0, 1, 2, 3, 4, 5, 6, 7, 1, 9, 0, 1, 0x80, 1] =
        some (v, [checkRsp u 1 (some (List.replicate 16 5))])) ∧
    ∃ m, t3tSetLocalNDEFMsg t3tInit false 17 0 (some (List.replicate 17 0))
        (some (List.replicate 17 0)) = some m ∧
      t3tDataCback (selectT3t m 0x12FC [0, 1, 2, 3, 4, 5, 6, 7])
        ([32, 8, 0, 1, 2, 3, 4, 5, 6, 7, 1, 9, 0, 1, 0x80, 2] ++ List.replicate 16 5) = none :=
  ⟨⟨_, _, _, _, rfl, rfl, rfl⟩, _, rfl, rfl⟩

end NfcStack.Ce
