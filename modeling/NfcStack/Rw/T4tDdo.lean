import NfcStack.Rw.T4tRoundTrip

/- A READ with an offset object sets a flag, so that its answer is taken as a data object. No
   function clears the flag again: on the same activation, a message that is read by plain
   commands afterwards is refused.

   What is proved:
     1. `ends_expects`: once a data object is expected, it is expected after every operation.
     2. `plain_read_fails`: then a plain read fails, unless the message happens to start as
        a data object.
     3. `t4t_read_refused`: a message that has been written is not read back. -/
namespace NfcStack.Rw.T4t
open NfcStack.Lib

/-! ## The flag is kept -/

def Expects (r : Cb × List Out) : Prop := r.1.ddoLcFieldCoding = true

variable {cb : Cb}

theorem readFile_expects (h : cb.ddoLcFieldCoding = true) (offset length : Nat) (isContinue : Bool) :
    Expects (readFile cb offset length isContinue).2 := by
  unfold readFile Expects sendToLower
  grind

theorem orFailed_expects {r : Bool × Cb × List Out} (h : Expects r.2) (sub : SubState) : Expects (orFailed r sub) := by
  unfold orFailed Expects handleError at *
  grind

theorem smDetectNdef_expects (h : cb.ddoLcFieldCoding = true) (rsp : Bytes) : Expects (smDetectNdef cb rsp) := by
  unfold smDetectNdef
  split
  · split
    · exact h
    · exact h
  split
  · exact h
  · exact orFailed_expects (readFile_expects h _ _ _) _
  · unfold handleCcFile
    split
    · dsimp only
      split
      · split <;> exact h
      split
      · exact orFailed_expects (readFile_expects (by exact h) _ _ _) _
      · exact h
    · exact h
  · unfold handleEndefFileCtrlTlv
    split
    · dsimp only
      split <;> exact h
    · exact h
  · exact orFailed_expects (readFile_expects h _ _ _) _
  · unfold handleReadNlen
    dsimp only
    generalize (if cb.ccFile.ndefFc.nlenSize = 2 then be16At rsp 0 else be32At rsp 0) = nlen
    split
    · split <;> exact h
    · exact h
  · exact h
  · exact h
  · exact h

theorem deliver_expects (h : cb.ddoLcFieldCoding = true) (data : Bytes) : Expects (deliver cb data) := by
  unfold deliver
  split
  · have hread := readFile_expects h cb.rwOffset cb.rwLength true
    dsimp only
    split
    · exact hread
    · exact hread
  · exact h

theorem consume_flag (cb : Cb) (len : Nat) : (consume cb len).ddoLcFieldCoding = cb.ddoLcFieldCoding := by
  unfold consume
  split <;> rfl

theorem deliverDdo_expects (h : cb.ddoLcFieldCoding = true) (rsp : Bytes) (head expected : Nat) :
    Expects (deliverDdo cb rsp head expected) := by
  unfold deliverDdo
  dsimp only
  split
  · exact deliver_expects ((consume_flag _ _).trans h) _
  · exact h

theorem smReadNdef_expects (h : cb.ddoLcFieldCoding = true) (rsp : Bytes) : Expects (smReadNdef cb rsp) := by
  unfold smReadNdef
  split
  · exact h
  split
  · exact h
  unfold handleDdo
  split
  · split
    · exact deliverDdo_expects h _ _ _
    split
    · split
      · exact deliverDdo_expects h _ _ _
      · exact h
    split
    · split
      · exact deliverDdo_expects h _ _ _
      · exact deliver_expects h _
    · exact h
  · exact h

theorem updateFile_expects (h : cb.ddoLcFieldCoding = true) (msg : Bytes) : Expects (updateFile cb msg).2 := by
  unfold updateFile
  split
  · exact h
  dsimp only
  split
  · split
    · unfold setBerTlv
      dsimp only
      split <;> exact h
    · exact h
  · exact h

theorem sendPart_expects (h : cb.ddoLcFieldCoding = true) (msg : Bytes) : Expects (sendPart cb msg) := by
  have hsend := updateFile_expects h msg
  unfold sendPart
  dsimp only
  split <;> exact hsend

theorem smUpdateNdef_expects (h : cb.ddoLcFieldCoding = true) (rsp : Bytes) : Expects (smUpdateNdef cb rsp) := by
  unfold smUpdateNdef
  split
  · exact h
  split
  · split
    · exact sendPart_expects (by exact h) _
    · exact h
  · split
    · exact sendPart_expects h _
    · exact h
  · exact h

theorem dataCback_expects (h : cb.ddoLcFieldCoding = true) (rsp : Bytes) : Expects (dataCback cb rsp) := by
  unfold dataCback
  split
  · exact h
  split
  · exact smDetectNdef_expects h rsp
  · exact smReadNdef_expects h rsp
  · exact smUpdateNdef_expects h rsp
  · exact h
  · exact h

theorem step_expects (n : Nat) {s : Sys} (h : s.cb.ddoLcFieldCoding = true) :
    (Sys.step^[n] s).cb.ddoLcFieldCoding = true := by
  induction n generalizing s with
  | zero => exact h
  | succ n ih =>
    rw [Function.iterate_succ_apply]
    refine ih ?_
    unfold Sys.step
    split
    · exact h
    · exact dataCback_expects h _

theorem api_expects (h : cb.ddoLcFieldCoding = true) (op : Op) : Expects (op.api cb).2 := by
  cases op with
  | detect =>
    show Expects (detectNDef cb).2
    unfold detectNDef
    split
    · exact h
    split
    · exact h
    · have happ : Expects (selectApplication cb cb.version).2 := by
        unfold selectApplication
        split
        · exact h
        split <;> exact h
      dsimp only
      split <;> exact happ
  | update msg =>
    show Expects (updateNDef msg cb).2
    unfold updateNDef
    split
    · exact h
    split
    · exact h
    split
    · exact h
    split <;> exact h
  | read =>
    show Expects (readNDef cb).2
    unfold readNDef
    split
    · exact h
    split
    · have hread := readFile_expects h cb.ccFile.ndefFc.nlenSize cb.ndefLength false
      dsimp only
      split <;> exact hread
    · exact h

theorem ends_expects {s w : Sys} {op : Op} (h : s.cb.ddoLcFieldCoding = true) (hw : s.Ends op w) :
    w.cb.ddoLcFieldCoding = true := by
  obtain ⟨n, rfl, -⟩ := hw
  exact step_expects n (api_expects h op)

/-! ## Reads -/

/-- A read beyond the offset 0x7FFF sets the flag. -/
theorem odo_read_expects {t₀ : Tag} {dta : Bool} {s w : Sys} (h : Idle t₀ dta s) (hdet : s.cb.ndefDetected = true)
    (hversion : version30 ≤ t₀.desc.version) (hsize : t₀.desc.ndefFc.nlenSize + s.cb.ndefLength < 2 ^ 32)
    (hodo : 0x7FFF < t₀.desc.ndefFc.nlenSize + s.cb.ndefLength) (hw : s.Ends .read w) :
    w.cb.ddoLcFieldCoding = true := by
  have hcc : s.cb.ccFile = t₀.desc := congrArg Fixed.ccFile (h.found hdet).2.1
  have hsend : (continueRead (readingCb s.cb)).1 = true ∧ Expects (continueRead (readingCb s.cb)).2 := by
    have hlast : ((readingCb s.cb).rwOffset + (readingCb s.cb).rwLength) % 2 ^ 32 > 0x7FFF := by
      show (s.cb.ccFile.ndefFc.nlenSize + s.cb.ndefLength) % 2 ^ 32 > 0x7FFF
      rw [hcc, Nat.mod_eq_of_lt hsize]
      exact hodo
    have hver : (readingCb s.cb).ccFile.version ≥ version30 := by
      show s.cb.ccFile.version ≥ version30
      rw [hcc]
      exact hversion
    unfold continueRead readFile
    rw [if_pos rfl]
    dsimp only
    rw [if_pos hlast, if_pos hver]
    exact ⟨rfl, rfl⟩
  obtain ⟨n, rfl, -⟩ := hw
  rw [call_read h.state hdet hsend.1]
  exact step_expects n hsend.2

theorem plain_read_fails {t₀ : Tag} {dta : Bool} {msg : Bytes} {s : Sys} (ht : t₀.Ok dta) (h : Idle t₀ dta s)
    (hholds : Holds t₀ msg s) (hmsg : msg ≠ []) (hplain : t₀.desc.ndefFc.nlenSize + msg.length ≤ 0x7FFF)
    (hflag : s.cb.ddoLcFieldCoding = true) (hfirst : byteAt msg 0 ≠ 0x53) :
    ∃ w, s.Ends .read w ∧ w.events = [.readFail .badResp] := by
  obtain ⟨htag, hfixed, hfits⟩ := h.found hholds.detected
  have hcc : s.cb.ccFile = t₀.desc := congrArg Fixed.ccFile hfixed
  have hpos := List.length_pos_iff.mpr hmsg
  rw [hholds.ndefLength] at hfits
  have hoffset : (readingCb s.cb).rwOffset = t₀.desc.ndefFc.nlenSize := by
    show s.cb.ccFile.ndefFc.nlenSize = _
    rw [hcc]
  have hlength : (readingCb s.cb).rwLength = msg.length := hholds.ndefLength
  obtain ⟨n, apdu, hn0, hn, hsend, hexec⟩ := @plain_sends t₀.desc dta s.tag (readingCb s.cb) (valid_of_ok ht) htag hfixed
    (by rw [hlength]; exact hpos) (by rw [hoffset, hlength]; exact hfits) (by rw [hoffset, hlength]; exact hplain)
  rw [hlength] at hn
  -- the answer starts as the message does
  have hbyte : byteAt (slice s.tag.file (readingCb s.cb).rwOffset n ++ swOk) 0 ≠ 0x53 := by
    have hdata : byteAt (slice s.tag.file t₀.desc.ndefFc.nlenSize msg.length ++ []) 0 = byteAt msg 0 := by
      rw [hholds.data, List.append_nil]
    rw [byteAt_slice (by rw [htag.size]; omega) hpos] at hdata
    rw [hoffset, byteAt_slice (by rw [htag.size]; omega) hn0, hdata]
    exact hfirst
  have hcback : dataCback { readingCb s.cb with retryCmd := some apdu }
      (slice s.tag.file (readingCb s.cb).rwOffset n ++ swOk) =
        ({ readingCb s.cb with retryCmd := some apdu, state := .idle }, [.event (.readFail .badResp)]) := by
    rw [dataCback_readResp rfl rfl, if_pos (by exact hflag)]
    unfold handleDdo
    rw [if_neg hbyte]
    rfl
  refine ⟨_, ⟨1, rfl, ?_⟩, ?_⟩
  · rw [Function.iterate_one, call_read h.state hholds.detected (congrArg Prod.fst hsend), hsend, @step_pending _ apdu rfl]
    dsimp only [Sys.emit]
    rw [hexec, hcback]
    rfl
  · rw [Function.iterate_one, call_read h.state hholds.detected (congrArg Prod.fst hsend), hsend, @step_pending _ apdu rfl]
    dsimp only [Sys.emit]
    rw [hexec, hcback]
    rfl

theorem not_reads_of_fails {s w : Sys} {msg : Bytes} {status : Status} (hw : s.Ends .read w)
    (hev : w.events = [.readFail status]) : ¬ Reads s msg := by
  rintro ⟨-, u, hu, segs, last, hevs, -⟩
  rw [hu.unique hw, hev] at hevs
  cases segs with
  | nil => cases hevs
  | cons x xs => cases hevs

/-! ## A message that fills the file -/

/-- A message that goes to the end of the file can be read from a tag that sends at most 256 bytes at once. -/
theorem odoReadable_full {d : Cc} (hd : Valid d) (hle : d.maxLe ≤ 0x100) (left : Nat) : OdoReadable d left left := by
  induction left using Nat.strong_induction_on with
  | _ left ih =>
    rcases Nat.eq_zero_or_pos left with rfl | hpos
    · exact .done 0
    · have hpart := @odoPart_pos d left left hd hpos
      have hleft : odoPart d left left ≤ left := Nat.min_le_right _ _
      have hmax : odoPart d left left ≤ 0xFD := by
        refine Nat.le_trans (Nat.min_le_left _ _) ?_
        generalize hsize : (if left < min d.maxLe 647 then d.maxLe else min d.maxLe 647) = size
        have hsize' : size ≤ 0x100 := by
          rw [← hsize]
          split <;> omega
        unfold ddoCapacity
        split
        · omega
        split
        · omega
        split
        · omega
        split <;> omega
      exact .part hleft (.inl hmax) (ih _ (by omega))

/-- A tag of version 3.0 whose message fills a file of 0x8000 bytes. -/
def fullTag : Tag :=
  ⟨[0x00, 0x0F, 0x30, 0x00, 0xFF, 0x00, 0xFF, 0x04, 0x06, 0xE1, 0x04, 0x80, 0x00, 0x00, 0x00],
    [0x7F, 0xFE] ++ List.replicate 0x7FFE 0, .none⟩

theorem fullTag_ok : fullTag.Ok false := by
  refine ⟨.inl (by decide), .inr (by decide), by decide, ?_⟩
  show ([0x7F, 0xFE] ++ List.replicate 0x7FFE 0 : Bytes).length = _
  rw [List.length_append, List.length_replicate]
  rfl

/-- An update of a message that the file has room for is accepted. -/
theorem update_accepted {t₀ : Tag} {dta : Bool} {s : Sys} {msg : Bytes} (h : Idle t₀ dta s)
    (hdet : s.cb.ndefDetected = true) (haccess : t₀.desc.ndefFc.writeAccess ≠ noWriteAccess)
    (hfits : msg.length + t₀.desc.ndefFc.nlenSize ≤ t₀.desc.ndefFc.maxFileSize) :
    (s.call (.update msg)).1 = .ok := by
  have hfixed := (h.found hdet).2.1
  have hcc : s.cb.ccFile = t₀.desc := congrArg Fixed.ccFile hfixed
  have hro : s.cb.ndefReadOnly = decide (t₀.desc.ndefFc.writeAccess = noWriteAccess) :=
    congrArg Fixed.ndefReadOnly hfixed
  have hroom : ¬ s.cb.ccFile.ndefFc.maxFileSize < (msg.length + s.cb.ccFile.ndefFc.nlenSize) % 2 ^ 32 := by
    rw [hcc]
    omega
  show (updateNDef msg s.cb).1 = .ok
  unfold updateNDef
  rw [if_neg (not_not.mpr h.state), if_neg (by rw [hdet]; exact nofun),
    if_neg (by rw [hro, decide_eq_true_iff]; exact haccess), if_neg hroom]

/-- A message that has been written is not read back: a longer one has been read before. -/
theorem t4t_read_refused : ¬ ∀ (t : Tag) (dta : Bool), t.Ok dta → ∀ (ops : List Op) (s : Sys),
    Path Sys.Ends (activated t dta) ops s → ∀ msg : Bytes, msg ≠ [] → (s.call (.update msg)).1 = .ok →
      ∃ w, s.Ends (.update msg) w ∧ Updated t.desc msg w ∧ ∀ (ops' : List Op) (u : Sys),
        (∀ op ∈ ops', op = .detect ∨ op = .read) → Path Sys.Ends w ops' u → Reads u msg := by
  intro hclaim
  have ht := fullTag_ok
  have hd := valid_of_ok ht
  have hnlen : fullTag.desc.ndefFc.nlenSize = 2 := by decide
  have hsize : fullTag.desc.ndefFc.maxFileSize = 0x8000 := by decide
  have hstored : storedLen fullTag.desc.ndefFc.nlenSize fullTag.file = 0x7FFE := by
    rw [hnlen]
    rfl
  -- the message that is in the file is detected and read
  obtain ⟨s₁, hs₁, hidle₁, hfile₁, hdet₁, -⟩ := detect_ends ht (idle_activated ht)
  obtain ⟨hfound₁, hlen₁⟩ := hdet₁ (by
    show _ + storedLen _ fullTag.file ≤ _
    rw [hstored, hnlen, hsize])
  have hlen₁ : s₁.cb.ndefLength = 0x7FFE := hlen₁.trans hstored
  have hread₁ : ReadOk fullTag s₁ := by
    refine ⟨?_, ?_, ?_⟩
    · rw [hlen₁, hnlen]
      exact fun h => absurd h (by decide)
    · rw [hlen₁, hnlen]
      exact fun _ => by decide
    · rw [hlen₁, hnlen, hsize]
      exact fun _ => odoReadable_full hd (by decide) 0x7FFE
  obtain ⟨s₂, hs₂, hread₂⟩ := read_ends ht hidle₁ (fun _ => hread₁)
  have hflag₂ := odo_read_expects hidle₁ hfound₁ (by decide) (by rw [hlen₁, hnlen]; decide)
    (by rw [hlen₁, hnlen]; decide) hs₂
  -- a short message is written
  have hfound₂ : s₂.cb.ndefDetected = true := hread₂.detected.trans hfound₁
  have hacc : (s₂.call (.update [0xD1])).1 = .ok :=
    update_accepted hread₂.idle hfound₂ (by decide) (by rw [hnlen, hsize]; decide)
  have hok : UpdateOk fullTag.desc 1 := ⟨by decide, by decide, by decide, by decide⟩
  obtain ⟨s₃, hs₃, hidle₃, hupd⟩ := @update_ends fullTag false s₂ [0xD1] ht hread₂.idle (fun _ => hok)
  obtain ⟨-, hholds⟩ := hupd hacc nofun
  -- and refused when it is read
  obtain ⟨w, hw, hev⟩ := plain_read_fails ht hidle₃ hholds nofun (by rw [hnlen]; decide) (ends_expects hflag₂ hs₃)
    (by decide)
  obtain ⟨u, hu, -, hreads⟩ := hclaim fullTag false ht [.detect, .read] s₂ ⟨s₁, hs₁, s₂, hs₂, rfl⟩ [0xD1] nofun hacc
  have hsame : u = s₃ := hu.unique hs₃
  exact not_reads_of_fails hw hev (hsame ▸ hreads [] u (fun _ h => absurd h List.not_mem_nil) rfl)

end NfcStack.Rw.T4t
