import NfcStack.Lib.Run
import NfcStack.Rw.T4tDetect

/- A message that is written to a Type 4 tag is read back. The tag is any one of version 2.0
   or 3.0 that behaves as its capability container describes; operations follow each other
   in any order on one activation.

   What is proved:
     1. `update_ends`, `read_ends`: an operation ends, and when it does what it should.
     2. `t4t_round_trip`: in every sequence of operations in which an update meets
        `UpdateOk` and a read meets `ReadOk`, an update of a message that is accepted
        completes, and the message is read back until the next update. -/
namespace NfcStack.Rw.T4t
open NfcStack.Lib

/-! ## Runs that have ended -/

variable {s : Sys}

theorem step_ended (h : s.pending = none) (n : Nat) : Sys.step^[n] s = s := by
  have hstep : Sys.step s = s := by
    unfold Sys.step
    rw [h]
  exact Function.iterate_fixed hstep n

theorem Sys.Ends.unique {op : Op} {t u : Sys} (ht : s.Ends op t) (hu : s.Ends op u) : t = u := by
  obtain ⟨m, rfl, hm⟩ := ht
  obtain ⟨n, rfl, hn⟩ := hu
  rcases Nat.le_total m n with h | h
  · rw [← Nat.sub_add_cancel h, Function.iterate_add_apply, step_ended hm]
  · rw [← Nat.sub_add_cancel h, Function.iterate_add_apply, step_ended hn]

theorem ends_refused {op : Op} (h : op.api s.cb = (.failed, s.cb, [])) :
    s.Ends op ⟨s.tag, s.cb, none, [], []⟩ := by
  refine ⟨0, ?_, rfl⟩
  show (s.call op).2 = _
  unfold Sys.call
  rw [h]
  rfl

variable {t₀ : Tag} {dta : Bool}

theorem Idle.refused (h : Idle t₀ dta s) :
    Idle t₀ dta ⟨s.tag, s.cb, none, [], []⟩ :=
  ⟨h.cc, h.size, h.state, h.version, h.mode, h.ext, h.read, h.found⟩

/-- After an operation on a tag that has been detected. -/
theorem idle_of_fixed {w : Sys} (ht : t₀.Ok dta) (hcc : w.tag.cc = t₀.cc)
    (htag : TagOk t₀.desc w.tag) (hfixed : w.cb.fixed = t₀.desc.fixed dta) (hstate : w.cb.state = .idle)
    (hlen : t₀.desc.ndefFc.nlenSize + w.cb.ndefLength ≤ t₀.desc.ndefFc.maxFileSize) : Idle t₀ dta w := by
  have hread : w.cb.maxReadSize = min t₀.desc.maxLe 647 := congrArg Fixed.maxReadSize hfixed
  have hext : w.cb.extFieldCoding = t₀.desc.extended := congrArg Fixed.extFieldCoding hfixed
  have hle := (valid_of_ok ht).maxLe
  exact ⟨hcc, htag.size, hstate, congrArg Fixed.version hfixed, congrArg Fixed.dtaMode hfixed,
    fun he => hext.symm.trans he, by omega, fun _ => ⟨htag, hfixed, hlen⟩⟩

/-! ## The container -/

theorem write_cc (t : Tag) (off : Nat) (data : Bytes) : (t.write off data).1.cc = t.cc := by
  unfold Tag.write
  split <;> rfl

theorem execSelect_cc (t : Tag) (a : Apdu) : (t.execSelect a).1.cc = t.cc := by
  unfold Tag.execSelect
  split
  · split <;> rfl
  split
  · rfl
  split
  · rfl
  split <;> rfl

theorem execUpdateOdo_cc (t : Tag) (a : Apdu) : (t.execUpdateOdo a).1.cc = t.cc := by
  unfold Tag.execUpdateOdo
  split
  · rfl
  split
  · split
    · split
      · exact write_cc _ _ _
      · rfl
    · rfl
  · rfl

theorem exec_cc (t : Tag) (a : Apdu) : (t.exec a).1.cc = t.cc := by
  unfold Tag.exec
  split
  · rfl
  split
  · exact execSelect_cc t a
  split
  · rfl
  split
  · rfl
  split
  · unfold Tag.execUpdate
    split
    · exact write_cc _ _ _
    · rfl
  split
  · exact execUpdateOdo_cc t a
  · rfl

theorem step_cc (n : Nat) (s : Sys) : (Sys.step^[n] s).tag.cc = s.tag.cc := by
  induction n generalizing s with
  | zero => rfl
  | succ n ih =>
    rw [Function.iterate_succ_apply, ih]
    unfold Sys.step
    split
    · rfl
    · exact exec_cc _ _

/-! ## Updates -/

theorem blit_empty (f : Bytes) (pos : Nat) : blit f pos [] = f := by
  unfold blit
  simp

/-- A message of `len` bytes can be written: the length can be sent in one command, the sizes do not wrap, and a
message that goes beyond the offset 0x7FFF has offsets of three bytes and room behind the heads of its objects. -/
structure UpdateOk (d : Cc) (len : Nat) : Prop where
  wraps : d.ndefFc.nlenSize + len < 2 ^ 32
  nlen : d.ndefFc.nlenSize ≤ d.maxLc
  maxLc : 0x7FFF < d.ndefFc.nlenSize + len → 8 ≤ d.maxLc
  offset : 0x7FFF < d.ndefFc.nlenSize + len → d.ndefFc.nlenSize + len ≤ 2 ^ 24

/-- The message has been written: every command has data of the message, in order, and none is empty. -/
structure Updated (d : Cc) (msg : Bytes) (w : Sys) : Prop where
  events : w.events = [.updateCplt]
  frames : ∃ parts : List Bytes, w.frames.map Apdu.payload =
    some (nlenBytes d.ndefFc.nlenSize 0) :: parts.map some ++ [some (nlenBytes d.ndefFc.nlenSize msg.length)] ∧
      parts.flatten = msg ∧ ∀ p ∈ parts, p ≠ []

structure Holds (t₀ : Tag) (msg : Bytes) (s : Sys) : Prop where
  detected : s.cb.ndefDetected = true
  ndefLength : s.cb.ndefLength = msg.length
  stored : storedLen t₀.desc.ndefFc.nlenSize s.tag.file = msg.length
  data : slice s.tag.file t₀.desc.ndefFc.nlenSize msg.length = msg

theorem storedLen_nlenBytes {nlenSize n : Nat} {f : Bytes} (hn : nlenSize = 2 ∧ n < 65536 ∨ nlenSize = 4 ∧ n < 4294967296)
    (hin : nlenSize ≤ f.length) (hf : slice f 0 nlenSize = nlenBytes nlenSize n) : storedLen nlenSize f = n := by
  unfold storedLen
  rcases hn with ⟨rfl, hn⟩ | ⟨rfl, hn⟩
  · rw [if_pos rfl, ← Nat.zero_add 0, ← @be16At_slice f 0 2 (by omega) 0 (by decide) [], hf]
    show (UInt8.ofNat (n / 2 ^ 8)).toNat * 2 ^ 8 + (UInt8.ofNat n).toNat = n
    simp only [UInt8.toNat_ofNat']
    omega
  · rw [if_neg (by decide), ← Nat.zero_add 0, ← @be32At_slice f 0 4 (by omega) 0 (by decide) [], hf]
    show ((UInt8.ofNat (n / 2 ^ 24)).toNat * 2 ^ 8 + (UInt8.ofNat (n / 2 ^ 16)).toNat) * 2 ^ 16 +
      ((UInt8.ofNat (n / 2 ^ 8)).toNat * 2 ^ 8 + (UInt8.ofNat n).toNat) = n
    simp only [UInt8.toNat_ofNat']
    omega

variable {msg : Bytes}

theorem call_accepted (h : Idle t₀ dta s) (hacc : (s.call (.update msg)).1 = .ok) :
    s.cb.ndefDetected = true ∧ t₀.desc.ndefFc.writeAccess ≠ noWriteAccess ∧
      (t₀.desc.ndefFc.nlenSize + msg.length) % 2 ^ 32 ≤ t₀.desc.ndefFc.maxFileSize ∧
      ∃ apdu : Apdu, apdu = ⟨insUpdateBinary, 0, false, t₀.desc.ndefFc.nlenSize % 2 ^ 8,
          nlenBytes t₀.desc.ndefFc.nlenSize 0, none⟩ ∧
        (s.call (.update msg)).2 = ⟨s.tag, { s.cb with
          ndefLength := msg.length
          updateData := some msg
          rwOffset := t₀.desc.ndefFc.nlenSize
          rwLength := msg.length
          retryCmd := some apdu
          state := .updateNdef
          subState := .waitUpdateNlen }, some apdu, [apdu], []⟩ := by
  have hapi : (updateNDef msg s.cb).1 = .ok := hacc
  cases hdet : s.cb.ndefDetected with
  | false =>
    unfold updateNDef at hapi
    rw [if_neg (not_not.mpr h.state), if_pos hdet] at hapi
    cases hapi
  | true =>
    obtain ⟨-, hfixed, -⟩ := h.found hdet
    have hcc : s.cb.ccFile = t₀.desc := congrArg Fixed.ccFile hfixed
    have hro : s.cb.ndefReadOnly = decide (t₀.desc.ndefFc.writeAccess = noWriteAccess) :=
      congrArg Fixed.ndefReadOnly hfixed
    unfold updateNDef at hapi
    rw [if_neg (not_not.mpr h.state), if_neg (by rw [hdet]; exact nofun)] at hapi
    by_cases hread : s.cb.ndefReadOnly = true
    · rw [if_pos hread] at hapi
      cases hapi
    rw [if_neg hread] at hapi
    by_cases hfull : s.cb.ccFile.ndefFc.maxFileSize < (msg.length + s.cb.ccFile.ndefFc.nlenSize) % 2 ^ 32
    · rw [if_pos hfull] at hapi
      cases hapi
    refine ⟨rfl, ?_, ?_, _, rfl, ?_⟩
    · rw [hro] at hread
      exact fun ha => hread (decide_eq_true ha)
    · rw [hcc, Nat.add_comm] at hfull
      exact Nat.not_lt.mp hfull
    · show Sys.emit _ (updateNDef msg s.cb).2 = _
      unfold updateNDef
      rw [if_neg (not_not.mpr h.state), if_neg (by rw [hdet]; exact nofun), if_neg hread, if_neg hfull, ← hcc]
      rfl

theorem call_update (h : Idle t₀ dta s)
    (hacc : (s.call (.update msg)).1 = .ok) (hok : UpdateOk t₀.desc msg.length) :
    s.cb.ndefDetected = true ∧ t₀.desc.ndefFc.writeAccess ≠ noWriteAccess ∧
      t₀.desc.ndefFc.nlenSize + msg.length ≤ t₀.desc.ndefFc.maxFileSize ∧ (s.call (.update msg)).2.tag = s.tag := by
  obtain ⟨hdet, haccess, hfits, apdu, -, hcall⟩ := call_accepted h hacc
  rw [Nat.mod_eq_of_lt hok.wraps] at hfits
  exact ⟨hdet, haccess, hfits, by rw [hcall]⟩

theorem updateNDef_status (msg : Bytes) (cb : Cb) :
    (updateNDef msg cb).1 = .ok ∨ updateNDef msg cb = (.failed, cb, []) := by
  unfold updateNDef
  split
  · exact .inr rfl
  split
  · exact .inr rfl
  split
  · exact .inr rfl
  split
  · exact .inr rfl
  · exact .inl rfl

theorem update_first (ht : t₀.Ok dta) (h : Idle t₀ dta s)
    (hacc : (s.call (.update msg)).1 = .ok) (hlc : t₀.desc.ndefFc.nlenSize ≤ t₀.desc.maxLc) :
    ∃ s₂ : Sys, Writing t₀.desc dta (blit s.tag.file 0 (nlenBytes t₀.desc.ndefFc.nlenSize 0)) msg 0 s₂ ∧
      s₂.tag.cc = t₀.cc ∧ s₂.events = [] ∧
      s₂.frames.map Apdu.payload = [some (nlenBytes t₀.desc.ndefFc.nlenSize 0)] ∧
      Sys.step (s.call (.update msg)).2 = s₂.emit (sendPart s₂.cb msg) := by
  obtain ⟨hdet, haccess, -, apdu, hapdu, hcall⟩ := call_accepted h hacc
  obtain ⟨htag, hfixed, -⟩ := h.found hdet
  have hd := valid_of_ok ht
  have hsize := hd.size
  have hexec : s.tag.exec apdu = ({ s.tag with file := blit s.tag.file 0 (nlenBytes t₀.desc.ndefFc.nlenSize 0) }, swOk) := by
    rw [hapdu]
    exact exec_nlen hd htag haccess hlc 0
  obtain ⟨cb₂, hcb₂⟩ : ∃ cb₂ : Cb, cb₂ = { s.cb with
      ndefLength := msg.length
      updateData := some msg
      rwOffset := t₀.desc.ndefFc.nlenSize
      rwLength := msg.length
      retryCmd := some apdu
      state := .updateNdef
      subState := .waitUpdateResp } := ⟨_, rfl⟩
  refine ⟨⟨{ s.tag with file := blit s.tag.file 0 (nlenBytes t₀.desc.ndefFc.nlenSize 0) }, cb₂, none, [apdu], []⟩,
    ?_, h.cc, rfl, ?_, ?_⟩
  · rw [hcb₂]
    refine ⟨htag.blit (by rw [length_nlenBytes hd.nlen]; omega), hfixed, rfl, rfl, rfl, rfl, rfl, rfl, ?_⟩
    dsimp only
    rw [List.take_zero, blit_empty]
  · rw [hapdu]
    exact congrArg (fun x => [x]) (payload_nlen hd 0)
  · rw [hcall, @step_pending _ apdu rfl]
    dsimp only
    rw [hexec, dataCback_updateNlen rfl rfl, hcb₂]
    rfl

theorem updateOk_partOk {t : Tag} {len : Nat} (ht : t.Ok dta) (hok : UpdateOk t.desc len)
    (hfits : t.desc.ndefFc.nlenSize + len ≤ t.desc.ndefFc.maxFileSize) :
    PartOk t.desc (t.desc.ndefFc.nlenSize + len) := by
  refine ⟨fun hlast => ?_, hok.maxLc, hok.offset⟩
  rcases (valid_of_ok ht).version with hv | hv
  · have hplain := (valid_of_ok ht).plain hv
    omega
  · exact Nat.le_of_eq hv.symm

theorem length_blit_nlen {d : Cc} {f : Bytes} (hd : Valid d) (hf : f.length = d.ndefFc.maxFileSize) (n : Nat) :
    (blit f 0 (nlenBytes d.ndefFc.nlenSize n)).length = d.ndefFc.maxFileSize := by
  have hsize := hd.size
  rw [length_blit (by rw [length_nlenBytes hd.nlen, hf]; omega), hf]

/-- The length of a file to which a message has been written, and the message. -/
theorem stored_new {d : Cc} {f msg : Bytes} (hd : Valid d) (hf : f.length = d.ndefFc.maxFileSize)
    (hin : d.ndefFc.nlenSize + msg.length ≤ d.ndefFc.maxFileSize) {g : Bytes}
    (hg : g = blit (blit f d.ndefFc.nlenSize msg) 0 (nlenBytes d.ndefFc.nlenSize msg.length)) :
    storedLen d.ndefFc.nlenSize g = msg.length ∧ slice g d.ndefFc.nlenSize msg.length = msg := by
  have hsize := hd.sizeMax
  have hnlen := length_nlenBytes hd.nlen msg.length
  have hblit : (blit f d.ndefFc.nlenSize msg).length = d.ndefFc.maxFileSize := by
    rw [length_blit (by omega), hf]
  subst hg
  refine ⟨storedLen_nlenBytes ?_ ?_ ?_, ?_⟩
  · rcases hd.nlen with hn | hn
    · have hshort := hd.short hn
      exact .inl ⟨hn, by omega⟩
    · exact .inr ⟨hn, by omega⟩
  · rw [length_blit_nlen hd hblit]
    omega
  · exact slice_blit_same hnlen.symm (by omega)
  · rw [slice_blit_behind (by omega) (by omega)]
    exact slice_blit_same rfl (by omega)

theorem holds_of_completed {f msg : Bytes} {frames : List Apdu} {parts : List Bytes} {w : Sys}
    (ht : t₀.Ok dta) (hf : f.length = t₀.desc.ndefFc.maxFileSize)
    (hfits : t₀.desc.ndefFc.nlenSize + msg.length ≤ t₀.desc.ndefFc.maxFileSize)
    (h : Completed t₀.desc dta f msg frames parts w) : Holds t₀ msg w := by
  obtain ⟨hstored, hdata⟩ := stored_new (valid_of_ok ht) hf hfits h.file
  exact ⟨congrArg Fixed.ndefDetected h.fixed, h.ndefLength, hstored, hdata⟩

/-- An update ends. If it is accepted, and there is a message, the message is in the file. -/
theorem update_ends {t₀ : Tag} {dta : Bool} {s : Sys} {msg : Bytes} (ht : t₀.Ok dta) (h : Idle t₀ dta s)
    (hok : (s.call (.update msg)).1 = .ok → UpdateOk t₀.desc msg.length) :
    ∃ w, s.Ends (.update msg) w ∧ Idle t₀ dta w ∧
      ((s.call (.update msg)).1 = .ok → msg ≠ [] → Updated t₀.desc msg w ∧ Holds t₀ msg w) := by
  rcases updateNDef_status msg s.cb with hacc | href
  · have hok := hok hacc
    obtain ⟨s₂, hw, hcc, hev, hframes, hstep⟩ := update_first ht h hacc hok.nlen
    obtain ⟨hdet, haccess, hfits, -⟩ := call_update h hacc hok
    have hd := valid_of_ok ht
    have hsize := hd.size
    have hfile := length_blit_nlen hd h.size 0
    by_cases hmsg : msg = []
    · -- nothing is sent, and the update has failed
      have hsend : sendPart s₂.cb msg = ({ s₂.cb with state := .idle, updateData := none }, [.event (.updateFail .failed)]) := by
        have hlen : s₂.cb.rwLength = 0 := by rw [hw.length, hmsg]; rfl
        unfold sendPart updateFile handleError
        rw [if_pos hlen]
        dsimp only
        rw [hw.state]
        rfl
      refine ⟨Sys.step (s.call (.update msg)).2, ⟨1, rfl, ?_⟩, ?_, fun _ hne => absurd hmsg hne⟩
      · rw [hstep, hsend]
        rfl
      · rw [hstep, hsend]
        refine idle_of_fixed ht hcc hw.tag hw.fixed rfl ?_
        show _ + s₂.cb.ndefLength ≤ _
        rw [hw.ndefLength]
        exact hfits
    · have hcont : sendPart s₂.cb msg = continueUpdate s₂.cb := by
        have hpos := List.length_pos_iff.mpr hmsg
        unfold continueUpdate
        rw [if_pos (by rw [hw.length]; omega), hw.rest]
        rfl
      obtain ⟨n, parts, hcomp, hflat, hevs⟩ := update_completes hd haccess hok.nlen hfile hfits
        (updateOk_partOk ht hok hfits) msg.length 0 s₂ (Nat.le_refl _) (Nat.zero_le _) hw
      obtain ⟨w, hwdef⟩ : ∃ w, w = Sys.step^[n] (s₂.emit (continueUpdate s₂.cb)) := ⟨_, rfl⟩
      rw [← hwdef] at hcomp hevs
      have hends : Sys.step^[n + 1] (s.call (.update msg)).2 = w := by
        rw [Function.iterate_succ_apply, hstep, hcont, hwdef]
      have hwcc : w.tag.cc = t₀.cc := by
        rw [hwdef, step_cc]
        exact hcc
      refine ⟨w, ⟨n + 1, hends, hcomp.pending⟩, idle_of_fixed ht hwcc hcomp.tag hcomp.fixed hcomp.state ?_, fun _ _ => ?_⟩
      · rw [hcomp.ndefLength]
        exact hfits
      · refine ⟨⟨by rw [hevs, hev]; rfl, parts, ?_, hflat, hcomp.parts⟩, holds_of_completed ht hfile hfits hcomp⟩
        rw [hcomp.frames, hframes]
        rfl
  · refine ⟨_, ends_refused href, h.refused, fun hacc => ?_⟩
    have hfail : (s.call (.update msg)).1 = .failed := congrArg Prod.fst href
    rw [hfail] at hacc
    cases hacc

/-! ## Reads -/

/-- The message can be read as it is: a plain READ comes with no data object expected, and what is beyond the
offset 0x7FFF comes in parts that the reader takes. -/
structure ReadOk (t₀ : Tag) (s : Sys) : Prop where
  plain : t₀.desc.ndefFc.nlenSize + s.cb.ndefLength ≤ 0x7FFF → s.cb.ddoLcFieldCoding = false
  offset : 0x7FFF < t₀.desc.ndefFc.nlenSize + s.cb.ndefLength → t₀.desc.ndefFc.nlenSize + s.cb.ndefLength ≤ 2 ^ 24
  odo : 0x7FFF < t₀.desc.ndefFc.nlenSize + s.cb.ndefLength →
    OdoReadable t₀.desc s.cb.ndefLength (t₀.desc.ndefFc.maxFileSize - t₀.desc.ndefFc.nlenSize)

def Reads (s : Sys) (msg : Bytes) : Prop :=
  (s.call .read).1 = .ok ∧ ∃ w, s.Ends .read w ∧ ∃ (segs : List Bytes) (last : Bytes),
    w.events = segs.map Event.read ++ [.readCplt last] ∧ segs.flatten ++ last = msg

theorem readFile_state (cb : Cb) (st : State) (sub : SubState) (offset length : Nat) :
    readFile { cb with state := st, subState := sub } offset length true =
      ((readFile cb offset length true).1,
        { (readFile cb offset length true).2.1 with state := st, subState := sub },
        (readFile cb offset length true).2.2) := by
  unfold readFile
  rw [if_pos rfl, if_pos rfl]
  dsimp only
  by_cases hlast : (cb.rwOffset + cb.rwLength) % 2 ^ 32 > 0x7FFF
  · rw [if_pos hlast, if_pos hlast]
    by_cases hversion : cb.ccFile.version ≥ version30
    · rw [if_pos hversion, if_pos hversion]
      rfl
    · rw [if_neg hversion, if_neg hversion]
  · rw [if_neg hlast, if_neg hlast]
    by_cases hext : cb.extFieldCoding = true
    · rw [if_pos hext, if_pos hext]
      rfl
    · rw [if_neg hext, if_neg hext]
      rfl

/-- The control block when a message is to be read. -/
def readingCb (cb : Cb) : Cb :=
  { cb with
    rwOffset := cb.ccFile.ndefFc.nlenSize
    rwLength := cb.ndefLength
    state := .readNdef
    subState := .waitReadResp }

theorem call_read (hidle : s.cb.state = .idle) (hdet : s.cb.ndefDetected = true)
    (hsend : (continueRead (readingCb s.cb)).1 = true) :
    s.call .read = (.ok, (⟨s.tag, readingCb s.cb, none, [], []⟩ : Sys).emit (continueRead (readingCb s.cb)).2) := by
  obtain ⟨r, hr⟩ : ∃ r, r = readFile s.cb s.cb.ccFile.ndefFc.nlenSize s.cb.ndefLength false := ⟨_, rfl⟩
  have hcont : continueRead (readingCb s.cb) =
      (r.1, { r.2.1 with state := .readNdef, subState := .waitReadResp }, r.2.2) := by
    rw [hr]
    exact readFile_state { s.cb with rwOffset := s.cb.ccFile.ndefFc.nlenSize, rwLength := s.cb.ndefLength }
      .readNdef .waitReadResp s.cb.ccFile.ndefFc.nlenSize s.cb.ndefLength
  have hok : r.1 = true := by
    rw [hcont] at hsend
    exact hsend
  have hread : readNDef s.cb = (.ok, (continueRead (readingCb s.cb)).2) := by
    unfold readNDef
    rw [if_neg (not_not.mpr hidle), if_pos hdet, ← hr, hcont]
    dsimp only
    rw [if_pos hok]
  unfold Sys.call Op.api
  dsimp only
  rw [hread]
  rfl

structure ReadEnds (t₀ : Tag) (dta : Bool) (s w : Sys) : Prop where
  idle : Idle t₀ dta w
  tag : w.tag = s.tag
  ndefLength : w.cb.ndefLength = s.cb.ndefLength
  detected : w.cb.ndefDetected = s.cb.ndefDetected

theorem reading_start (h : Idle t₀ dta s) (hok : ReadOk t₀ s) (hdet : s.cb.ndefDetected = true) :
    Reading t₀.desc dta s.cb.ndefLength 0 ⟨s.tag, readingCb s.cb, none, [], []⟩ := by
  obtain ⟨htag, hfixed, -⟩ := h.found hdet
  have hcc : s.cb.ccFile = t₀.desc := congrArg Fixed.ccFile hfixed
  refine ⟨htag, hfixed, rfl, rfl, ?_, rfl, hok.plain⟩
  show s.cb.ccFile.ndefFc.nlenSize = _
  rw [hcc]
  rfl

theorem read_message (ht : t₀.Ok dta) (h : Idle t₀ dta s) (hok : ReadOk t₀ s)
    (hdet : s.cb.ndefDetected = true) (hpos : 0 < s.cb.ndefLength) :
    (s.call .read).1 = .ok ∧ ∃ w, s.Ends .read w ∧ ReadEnds t₀ dta s w ∧ ∃ (segs : List Bytes) (last : Bytes),
      w.events = segs.map Event.read ++ [.readCplt last] ∧
        segs.flatten ++ last = slice s.tag.file t₀.desc.ndefFc.nlenSize s.cb.ndefLength := by
  obtain ⟨-, -, hfits⟩ := h.found hdet
  have hd := valid_of_ok ht
  have hversion : 0x7FFF < t₀.desc.ndefFc.nlenSize + s.cb.ndefLength → version30 ≤ t₀.desc.version := by
    intro hlast
    rcases hd.version with hv | hv
    · have hplain := hd.plain hv
      omega
    · exact Nat.le_of_eq hv.symm
  have hrest : RestReadable t₀.desc s.cb.ndefLength 0 :=
    ⟨fun hlast => ⟨hversion hlast, hok.offset hlast, hok.odo hlast⟩⟩
  obtain ⟨hsend, n, hdel⟩ := read_completes hd hfits s.cb.ndefLength 0 _ (Nat.le_refl _) hpos hrest
    (reading_start h hok hdet)
  have hcall := call_read h.state hdet hsend
  refine ⟨congrArg Prod.fst hcall, _, ⟨n, ?_, hdel.pending⟩, ⟨?_, hdel.tag, hdel.ndefLength, ?_⟩, ?_⟩
  · rw [hcall]
  · have htag : TagOk t₀.desc s.tag := (h.found hdet).1
    refine idle_of_fixed ht ?_ ?_ hdel.fixed hdel.state ?_
    · rw [hdel.tag]
      exact h.cc
    · rw [hdel.tag]
      exact htag
    · rw [hdel.ndefLength]
      exact hfits
  · rw [hdet]
    exact congrArg Fixed.ndefDetected hdel.fixed
  · obtain ⟨segs, last, hev, hflat⟩ := hdel.events
    exact ⟨segs, last, hev, hflat⟩

theorem read_empty (ht : t₀.Ok dta) (h : Idle t₀ dta s) (hok : ReadOk t₀ s)
    (hdet : s.cb.ndefDetected = true) (hzero : s.cb.ndefLength = 0) :
    ∃ w, s.Ends .read w ∧ ReadEnds t₀ dta s w ∧ w.events = [.readFail .badResp] := by
  obtain ⟨htag, hfixed, hfits⟩ := h.found hdet
  have hd := valid_of_ok ht
  have hsize := hd.size
  have hcc : s.cb.ccFile = t₀.desc := congrArg Fixed.ccFile hfixed
  have hext : s.cb.extFieldCoding = t₀.desc.extended := congrArg Fixed.extFieldCoding hfixed
  have hnlen : t₀.desc.ndefFc.nlenSize ≤ 4 := by
    rcases hd.nlen with hn | hn <;> omega
  obtain ⟨apdu, hapdu⟩ : ∃ apdu : Apdu, apdu = ⟨insReadBinary, t₀.desc.ndefFc.nlenSize, s.cb.extFieldCoding, 0, [], some 0⟩ :=
    ⟨_, rfl⟩
  have hsend : continueRead (readingCb s.cb) = (true, { readingCb s.cb with retryCmd := some apdu }, [.frame apdu]) := by
    have hlast : ¬ ((readingCb s.cb).rwOffset + (readingCb s.cb).rwLength) % 2 ^ 32 > 0x7FFF := by
      show ¬ (s.cb.ccFile.ndefFc.nlenSize + s.cb.ndefLength) % 2 ^ 32 > 0x7FFF
      rw [hcc, hzero]
      omega
    have hoff : (readingCb s.cb).rwOffset % 2 ^ 16 = t₀.desc.ndefFc.nlenSize := by
      show s.cb.ccFile.ndefFc.nlenSize % 2 ^ 16 = _
      rw [hcc]
      omega
    have hlength : (readingCb s.cb).rwLength = 0 := hzero
    show _ = (true, sendToLower (readingCb s.cb) apdu)
    unfold continueRead readFile
    rw [if_pos rfl]
    dsimp only
    rw [if_neg hlast, hoff, hlength, if_neg (Nat.not_lt_zero _), hapdu]
    rcases Bool.eq_false_or_eq_true s.cb.extFieldCoding with he | he
    · rw [if_pos (show (readingCb s.cb).extFieldCoding = true from he), he]
      rfl
    · rw [if_neg (show ¬ (readingCb s.cb).extFieldCoding = true from fun h' => Bool.false_ne_true (he.symm.trans h')), he]
      rfl
  have hcall := call_read h.state hdet (congrArg Prod.fst hsend)
  obtain ⟨n, hn⟩ : ∃ n, n = min (leValue s.cb.extFieldCoding 0) s.tag.desc.maxLe := ⟨_, rfl⟩
  have hexec : s.tag.exec apdu = (s.tag, slice s.tag.file t₀.desc.ndefFc.nlenSize n ++ swOk) := by
    rw [hapdu, hn]
    exact exec_read (selectedFile_ndef htag) (fun he => (extended_tag htag).trans (hext.symm.trans he)) (by omega)
      (by rw [htag.size]; omega)
  have hn0 : 0 < n := by
    have hle := hd.maxLe
    rw [hn, htag.desc]
    unfold leValue
    rw [if_pos rfl]
    split <;> omega
  have hslice : 0 < (slice s.tag.file t₀.desc.ndefFc.nlenSize n).length := by
    unfold slice
    rw [List.length_take, List.length_drop, htag.size]
    omega
  have hcback : dataCback { readingCb s.cb with retryCmd := some apdu }
      (slice s.tag.file t₀.desc.ndefFc.nlenSize n ++ swOk) =
        ({ readingCb s.cb with retryCmd := some apdu, state := .idle }, [.event (.readFail .badResp)]) := by
    have hflag : s.cb.ddoLcFieldCoding = false := hok.plain (by omega)
    have hlen : ¬ (0 < (slice s.tag.file t₀.desc.ndefFc.nlenSize n).length ∧
        (slice s.tag.file t₀.desc.ndefFc.nlenSize n).length ≤ (readingCb s.cb).rwLength) := by
      show ¬ (_ ∧ _ ≤ s.cb.ndefLength)
      omega
    rw [dataCback_readResp rfl rfl, if_neg (by exact fun h' => Bool.false_ne_true (hflag.symm.trans h')),
      if_neg hlen, if_neg (fun h' => absurd h'.1 (by omega))]
    rfl
  refine ⟨Sys.step (s.call .read).2, ⟨1, rfl, ?_⟩, ?_⟩
  · rw [hcall, hsend, @step_pending _ apdu rfl]
    dsimp only [Sys.emit]
    rw [hexec, hcback]
    rfl
  · rw [hcall, hsend, @step_pending _ apdu rfl]
    dsimp only [Sys.emit]
    rw [hexec, hcback]
    exact ⟨⟨idle_of_fixed ht h.cc htag hfixed rfl hfits, rfl, rfl, rfl⟩, rfl⟩

theorem read_ends (ht : t₀.Ok dta) (h : Idle t₀ dta s)
    (hok : s.cb.ndefDetected = true → ReadOk t₀ s) : ∃ w, s.Ends .read w ∧ ReadEnds t₀ dta s w := by
  cases hdet : s.cb.ndefDetected with
  | true =>
    rcases Nat.eq_zero_or_pos s.cb.ndefLength with hzero | hpos
    · obtain ⟨w, hends, hw, -⟩ := read_empty ht h (hok hdet) hdet hzero
      exact ⟨w, hends, hw⟩
    · obtain ⟨-, w, hends, hw, -⟩ := read_message ht h (hok hdet) hdet hpos
      exact ⟨w, hends, hw⟩
  | false =>
    have href : Op.api .read s.cb = (.failed, s.cb, []) := by
      show readNDef s.cb = _
      unfold readNDef
      rw [if_neg (not_not.mpr h.state), if_neg (by rw [hdet]; exact Bool.false_ne_true)]
    exact ⟨_, ends_refused href, h.refused, rfl, rfl, rfl⟩

/-! ## Sequences of operations -/

/-- The operation does not meet what the reader cannot handle: an update that is accepted can be written, and a
message that is read can be read. -/
def OpOk (t₀ : Tag) (s : Sys) : Op → Prop
  | .detect => True
  | .update msg => (s.call (.update msg)).1 = .ok → UpdateOk t₀.desc msg.length
  | .read => s.cb.ndefDetected = true → ReadOk t₀ s

def OkEnds (t₀ : Tag) (s : Sys) (op : Op) (w : Sys) : Prop := OpOk t₀ s op ∧ s.Ends op w

theorem idle_activated {t : Tag} (ht : t.Ok dta) : Idle t dta (activated t dta) :=
  ⟨rfl, ht.size, rfl, rfl, rfl, nofun, show 15 ≤ 0xFF by decide, nofun⟩

/-- An operation leaves the system as it is between two operations. -/
theorem idle_okEnds (ht : t₀.Ok dta) (s : Sys) (op : Op) (w : Sys)
    (h : Idle t₀ dta s) (hw : OkEnds t₀ s op w) : Idle t₀ dta w := by
  obtain ⟨hok, hends⟩ := hw
  cases op with
  | detect =>
    obtain ⟨u, hu, hidle, -⟩ := detect_ends ht h
    exact hu.unique hends ▸ hidle
  | update msg =>
    obtain ⟨u, hu, hidle, -⟩ := update_ends ht h hok
    exact hu.unique hends ▸ hidle
  | read =>
    obtain ⟨u, hu, hidle⟩ := read_ends ht h hok
    exact hu.unique hends ▸ hidle.idle

/-- A detection or a read leaves the message as it is. -/
theorem holds_okEnds (ht : t₀.Ok dta)
    (hfits : t₀.desc.ndefFc.nlenSize + msg.length ≤ t₀.desc.ndefFc.maxFileSize) (s : Sys) (op : Op) (w : Sys)
    (hop : op = .detect ∨ op = .read) (h : Idle t₀ dta s ∧ Holds t₀ msg s) (hw : OkEnds t₀ s op w) :
    Idle t₀ dta w ∧ Holds t₀ msg w := by
  obtain ⟨hidle, hholds⟩ := h
  refine ⟨idle_okEnds ht s op w hidle hw, ?_⟩
  obtain ⟨hok, hends⟩ := hw
  rcases hop with rfl | rfl
  · obtain ⟨u, hu, -, hfile, hdet, -⟩ := detect_ends ht hidle
    rw [hholds.stored] at hdet
    obtain ⟨hfound, hlen⟩ := hdet hfits
    rw [← hu.unique hends]
    refine ⟨hfound, hlen, ?_, ?_⟩
    · rw [hfile]
      exact hholds.stored
    · rw [hfile]
      exact hholds.data
  · obtain ⟨u, hu, hread⟩ := read_ends ht hidle hok
    rw [← hu.unique hends]
    refine ⟨hread.detected.trans hholds.detected, hread.ndefLength.trans hholds.ndefLength, ?_, ?_⟩
    · rw [hread.tag]
      exact hholds.stored
    · rw [hread.tag]
      exact hholds.data

theorem reads_of_holds (ht : t₀.Ok dta) (hmsg : msg ≠ [])
    (h : Idle t₀ dta s) (hholds : Holds t₀ msg s) (hok : ReadOk t₀ s) : Reads s msg := by
  have hpos : 0 < s.cb.ndefLength := by
    rw [hholds.ndefLength]
    exact List.length_pos_iff.mpr hmsg
  obtain ⟨hacc, w, hends, -, segs, last, hev, hflat⟩ := read_message ht h hok hholds.detected hpos
  refine ⟨hacc, w, hends, segs, last, hev, ?_⟩
  rw [hflat, hholds.ndefLength, hholds.data]

/-- In every sequence of operations on one activation of a tag of version 2.0 or 3.0 in which the operations meet
`OpOk`, an update of a message that is accepted completes: every command has data of the message, in order, and none
is empty. The message is then read back, with any detections and reads between the two. -/
theorem t4t_round_trip (t : Tag) (dta : Bool) (ht : t.Ok dta) (ops : List Op) (s : Sys)
    (hpath : Path (OkEnds t) (activated t dta) ops s) (msg : Bytes) (hmsg : msg ≠ [])
    (hacc : (s.call (.update msg)).1 = .ok) (hok : UpdateOk t.desc msg.length) :
    ∃ w, s.Ends (.update msg) w ∧ Updated t.desc msg w ∧
      ∀ (ops' : List Op) (u : Sys), (∀ op ∈ ops', op = .detect ∨ op = .read) → Path (OkEnds t) w ops' u →
        ReadOk t u → Reads u msg := by
  have hs : Idle t dta s := path_keeps (fun a e b _ => idle_okEnds ht a e b) ops (fun _ _ => trivial)
    (idle_activated ht) hpath
  obtain ⟨w, hends, hidle, hupd⟩ := update_ends ht hs (fun _ => hok)
  obtain ⟨hupdated, hholds⟩ := hupd hacc hmsg
  obtain ⟨-, -, hfits, -⟩ := call_update hs hacc hok
  refine ⟨w, hends, hupdated, fun ops' u hops hpath' hread => ?_⟩
  obtain ⟨hidle', hholds'⟩ := path_keeps (holds_okEnds ht hfits) ops' hops ⟨hidle, hholds⟩ hpath'
  exact reads_of_holds ht hmsg hidle' hholds' hread

/-- A tag of version 2.0 with a file of 32 bytes. -/
def smallTag : Tag :=
  ⟨[0x00, 0x0F, 0x20, 0x00, 0x3B, 0x00, 0x34, 0x04, 0x06, 0xE1, 0x04, 0x00, 0x20, 0x00, 0x00], List.replicate 32 0, .none⟩

theorem smallTag_ok : smallTag.Ok false := ⟨.inl (by decide), .inl (by decide), by decide, by decide⟩

theorem t4t_round_trip_small : ∃ s w, Path (OkEnds smallTag) (activated smallTag false) [.detect] s ∧
    s.Ends (.update [0xD1, 0x01, 0x02]) w ∧ Updated smallTag.desc [0xD1, 0x01, 0x02] w ∧ Reads w [0xD1, 0x01, 0x02] := by
  obtain ⟨s, hs⟩ : ∃ s, s = Sys.step^[5] ((activated smallTag false).call .detect).2 := ⟨_, rfl⟩
  have hpath : Path (OkEnds smallTag) (activated smallTag false) [.detect] s :=
    ⟨s, ⟨trivial, 5, hs.symm, by rw [hs]; decide⟩, rfl⟩
  have hok : UpdateOk smallTag.desc 3 := ⟨by decide, by decide, by decide, by decide⟩
  obtain ⟨w, hends, hupd, hread⟩ := t4t_round_trip smallTag false smallTag_ok [.detect] s hpath
    [0xD1, 0x01, 0x02] nofun (by rw [hs]; decide) hok
  have hw : w = Sys.step^[3] (s.call (.update [0xD1, 0x01, 0x02])).2 :=
    hends.unique ⟨3, rfl, by rw [hs]; decide⟩
  have hreadOk : ReadOk smallTag w := by
    have hlen : w.cb.ndefLength = 3 := by
      rw [hw, hs]
      decide
    have hplain : ¬ 0x7FFF < smallTag.desc.ndefFc.nlenSize + w.cb.ndefLength := by
      rw [hlen]
      decide
    exact ⟨fun _ => by rw [hw, hs]; decide, fun h => absurd h hplain, fun h => absurd h hplain⟩
  exact ⟨s, w, hpath, hends, hupd, hread [] w (fun _ h => absurd h List.not_mem_nil) rfl hreadOk⟩

end NfcStack.Rw.T4t
