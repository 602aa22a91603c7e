import NfcStack.Lib.Run
import NfcStack.Ce.T4tFile
import NfcStack.Ce.T3tTag

/- The bounds of the emulated tags: the buffers are of the configured maximum size, and
   the length that the end of an update reports should not be beyond it. The length
   comes from the reader, NLEN for the Type 4 tag and Ln for the Type 3 tag, and neither
   tag compares it with the maximum; the Type 3 tag rounds the number of blocks up.

   What is proved:
     1. `t4tBounded_iff`, `t3tBounded_iff`: when a command keeps within the bounds.
     2. `updates_bounded_iff`: in a run every command does, if and only if every command
        meets that condition. -/
namespace NfcStack.Ce
open NfcStack.Lib

/-! ## Type 4 -/

section T4t
variable {Cback : Type} {readOnly : Bool} {size : Nat} {m : T4tMem Cback}

/-- The command returns, so that no access is outside the buffers, and it reports no length
beyond the maximum. -/
def T4tBounded (size : Nat) (m : T4tMem Cback) (apdu : Bytes) : Prop :=
  ∃ u outs, dataCback m apdu = some (u, outs) ∧ ∀ len, .ndefUpdateCplt len ∈ outs → len ≤ size

/-- An update from the start of the file, that is accepted, leaves no length beyond the
maximum. -/
def T4tAnnounces (readOnly : Bool) (size : Nat) (m : T4tMem Cback) (apdu : Bytes) : Prop :=
  ∀ lc data, fileCmd m apdu = .update 0 lc data → readOnly = false →
    0 < lc ∧ lc ≤ data.length ∧ lc ≤ fileMax size → be16At (blit m.file 0 (data.take lc)) 0 ≤ size

theorem completes_le_iff {f : Bytes} {max : Nat} (cmd : FileCmd) :
    (∀ len, completes max readOnly f cmd = some len → len ≤ size) ↔
      ∀ lc data, cmd = .update 0 lc data → readOnly = false →
        0 < lc ∧ lc ≤ data.length ∧ lc ≤ max → be16At (blit f 0 (data.take lc)) 0 ≤ size := by
  constructor
  · rintro h lc data rfl hro ⟨hpos, hlen, hmax⟩
    by_cases hzero : be16At (blit f 0 (data.take lc)) 0 = 0
    · omega
    · apply h
      unfold completes
      dsimp only
      exact if_pos ⟨hro, ⟨hpos, hlen, by omega⟩, rfl, Nat.pos_of_ne_zero hzero⟩
  · intro h len hcplt
    cases cmd with
    | read offset le => cases hcplt
    | other => cases hcplt
    | update offset lc data =>
      unfold completes at hcplt
      dsimp only at hcplt
      split at hcplt
      · rename_i hc
        obtain ⟨hro, ⟨hpos, hlen, hmax⟩, rfl, -⟩ := hc
        obtain rfl := Option.some.inj hcplt
        exact h lc data rfl hro ⟨hpos, hlen, by omega⟩
      · cases hcplt

theorem t4tBounded_iff (h : Shaped readOnly size m) (apdu : Bytes) :
    T4tBounded size m apdu ↔ T4tAnnounces readOnly size m apdu := by
  obtain ⟨u, outs, hr, -, -, -, hevt⟩ := serves_dataCback h apdu
  refine Iff.trans ?_ (completes_le_iff (fileCmd m apdu))
  constructor
  · rintro ⟨u', outs', hr', hle⟩ len hcplt
    obtain ⟨-, rfl⟩ := Prod.mk.inj (Option.some.inj (hr.symm.trans hr'))
    exact hle len ((hevt len).mpr hcplt)
  · intro hle
    exact ⟨u, outs, hr, fun len hmem => hle len ((hevt len).mp hmem)⟩

end T4t

/-! ## Type 3 -/

section T3t
variable {size : Nat} {m : T3tMem} {msg : Bytes}

def t3tStep (m : T3tMem) (msg : Bytes) : Option T3tMem := (t3tDataCback m msg).map Prod.fst

/-- The frame returns, so that no access is outside the buffers, and it reports no length
beyond the maximum. -/
def T3tBounded (size : Nat) (m : T3tMem) (msg : Bytes) : Prop :=
  ∃ u outs, t3tDataCback m msg = some (u, outs) ∧ ∀ ok len, .ndefUpdateCplt ok len ∈ outs → len ≤ size

def takesAttr (x : Block × Bytes) : Bool := x.1.number == 0 && checksumOk x.2

/-- If one of the attribute blocks that an UPDATE takes over ends the update, the last of them
has no length beyond the maximum. -/
def T3tAnnounces (size : Nat) (m : T3tMem) : TagCmd → Prop
  | .update xs =>
      (∃ x ∈ reached m.ndefInfo xs.length xs, takesAttr x = true ∧ attrWritef x.2 = 0) →
      ∀ x, ((reached m.ndefInfo xs.length xs).filter takesAttr).getLast? = some x → attrLn x.2 ≤ size
  | _ => True

def T3tInBounds (size : Nat) (m : T3tMem) (msg : Bytes) : Prop :=
  Reaches size m (tagCmd m msg) ∧ T3tAnnounces size m (tagCmd m msg)

theorem effect_cplt (st : UpdateState) (x : Block × Bytes) :
    (effect st x).cplt = (st.cplt || (takesAttr x && attrWritef x.2 == 0)) ∧
      (effect st x).info.scratchLn = if takesAttr x then attrLn x.2 else st.info.scratchLn := by
  unfold effect updateAttr takesAttr checksumOk
  split
  · rename_i hzero
    split
    · rename_i hsum
      simp [hsum]
    · rename_i hsum
      dsimp only
      split
      · rename_i hwritef
        simp_all
      · rename_i hwritef
        simp_all
  · rename_i hne
    simp [hne]

theorem foldl_effect_cplt (xs : List (Block × Bytes)) : ∀ st : UpdateState,
    (xs.foldl effect st).cplt = (st.cplt || xs.any fun x => takesAttr x && attrWritef x.2 == 0) := by
  induction xs with
  | nil => simp
  | cons x xs ih =>
    intro st
    rw [List.foldl_cons, ih, (effect_cplt st x).1, List.any_cons, Bool.or_assoc]

theorem foldl_effect_ln (st : UpdateState) (xs : List (Block × Bytes)) :
    (xs.foldl effect st).info.scratchLn =
      ((xs.filter takesAttr).getLast?.map fun x => attrLn x.2).getD st.info.scratchLn := by
  induction xs using List.reverseRecOn with
  | nil => rfl
  | append_singleton xs x ih =>
    rw [List.foldl_append, List.foldl_cons, List.foldl_nil, (effect_cplt _ x).2, List.filter_append]
    by_cases hattr : takesAttr x = true
    · simp [hattr]
    · simp [hattr, ih]

theorem mem_updateDone (m : T3tMem) (st : UpdateState) (ok : Bool) (len : Nat) :
    .ndefUpdateCplt ok len ∈ (updateDone m st).2 ↔ st.cplt = true ∧ st.ok = ok ∧ st.info.scratchLn = len := by
  obtain ⟨info, stok, start, cplt, update⟩ := st
  unfold updateDone sendRsp
  cases start <;> cases update <;> cases cplt <;> cases stok <;> simp [eq_comm]

theorem updated_announces (m : T3tMem) (xs : List (Block × Bytes)) :
    (∀ ok len, .ndefUpdateCplt ok len ∈ (updateDone m (updated m xs)).2 → len ≤ size) ↔
      T3tAnnounces size m (.update xs) := by
  have hcplt : (updated m xs).cplt = true ↔
      ∃ x ∈ reached m.ndefInfo xs.length xs, takesAttr x = true ∧ attrWritef x.2 = 0 := by
    unfold updated
    dsimp only
    rw [foldl_effect_cplt]
    simp [updateStart]
  have hln : (updated m xs).info.scratchLn =
      (((reached m.ndefInfo xs.length xs).filter takesAttr).getLast?.map fun x => attrLn x.2).getD
        m.ndefInfo.scratchLn := foldl_effect_ln (updateStart m) _
  constructor
  · intro hle hend x hlast
    have hx := hle _ _ ((mem_updateDone m (updated m xs) _ _).mpr ⟨hcplt.mpr hend, rfl, rfl⟩)
    rw [hln, hlast] at hx
    exact hx
  · intro hann ok len hmem
    obtain ⟨hc, -, rfl⟩ := (mem_updateDone m (updated m xs) ok len).mp hmem
    have hend := hcplt.mp hc
    obtain ⟨y, hy, hattr, -⟩ := hend
    have hne : (reached m.ndefInfo xs.length xs).filter takesAttr ≠ [] :=
      List.ne_nil_of_mem (List.mem_filter.mpr ⟨hy, hattr⟩)
    obtain ⟨x, hx⟩ := Option.isSome_iff_exists.mp (List.getLast?_isSome.mpr hne)
    rw [hln, hx]
    exact hann (hcplt.mp hc) x hx

theorem t3tBounded_iff (h : Configured size m) (msg : Bytes) :
    T3tBounded size m msg ↔ T3tInBounds size m msg := by
  unfold T3tBounded T3tInBounds
  by_cases hin : Reaches size m (tagCmd m msg)
  · rw [and_iff_right hin]
    cases hcmd : tagCmd m msg with
    | other =>
      obtain ⟨outs, ho, hquiet⟩ := frame_other hcmd
      exact iff_of_true ⟨m, outs, ho, fun ok len hmem => absurd hmem (hquiet ok len)⟩ trivial
    | check bs =>
      rw [hcmd] at hin
      refine iff_of_true ⟨m, _, frame_check h hcmd hin, fun ok len hmem => ?_⟩ trivial
      rw [List.mem_singleton] at hmem
      split at hmem
      · cases hmem
      · cases hmem
    | update xs =>
      rw [hcmd] at hin
      rw [frame_update h hcmd hin, ← updated_announces]
      constructor
      · rintro ⟨u, outs, hr, hle⟩
        rw [Option.some.inj hr]
        exact hle
      · exact fun hle => ⟨_, _, rfl, hle⟩
  · rw [frame_fault h hin]
    refine iff_of_false ?_ fun hb => hin hb.1
    rintro ⟨u, outs, hr, -⟩
    cases hr

theorem configured_step (h : Configured size m) {u : T3tMem} (hstep : t3tStep m msg = some u) :
    Configured size u := by
  obtain ⟨⟨u', outs⟩, hframe, rfl⟩ := Option.map_eq_some_iff.mp hstep
  exact h.same (frame_params h hframe)

end T3t

/-! ## Runs -/

/-- After a configuration and an activation, every command of a run keeps within the bounds, if
and only if no update of the Type 4 tag leaves an NLEN beyond the maximum; and no frame to the
Type 3 tag reaches a block that is not wholly in the buffer, or ends an update with an Ln
beyond the maximum. -/
theorem updates_bounded_iff {Cback : Type} (m₀ m : T4tMem Cback) (readOnly : Bool)
    (ndefMsgMax ndefMsgLen : UInt16) (msg : Bytes) (scratchBuf : Option Bytes) (apdus : List Bytes)
    (hro : readOnly = true ∨ scratchBuf ≠ none) (hmsg : msg.length = ndefMsgMax.toNat)
    (hbuf : ∀ buf, scratchBuf = some buf → buf.length = ndefMsgMax.toNat)
    (hset : setLocalNDEFMsg m₀ readOnly ndefMsgMax ndefMsgLen (some msg) scratchBuf = some m)
    (t₀ t : T3tMem) (t3tReadOnly : Bool) (sizeMax sizeCurrent : UInt32) (t3tBuf nfcid2 : Bytes)
    (t3tScratchBuf : Option Bytes) (systemCode : Nat) (frames : List Bytes)
    (ht3tRo : t3tReadOnly = true ∨ t3tScratchBuf ≠ none) (ht3tBuf : t3tBuf.length = sizeMax.toNat)
    (ht3tScratch : ∀ b, t3tScratchBuf = some b → b.length = sizeMax.toNat)
    (ht3tSet : t3tSetLocalNDEFMsg t₀ t3tReadOnly sizeMax sizeCurrent (some t3tBuf) t3tScratchBuf = some t) :
    (StepsOk t4tStep (T4tBounded ndefMsgMax.toNat) (selectT4t m) apdus ↔
      StepsOk t4tStep (T4tAnnounces readOnly ndefMsgMax.toNat) (selectT4t m) apdus) ∧
    (StepsOk t3tStep (T3tBounded sizeMax.toNat) (selectT3t t systemCode nfcid2) frames ↔
      StepsOk t3tStep (T3tInBounds sizeMax.toNat) (selectT3t t systemCode nfcid2) frames) := by
  obtain ⟨hshaped, -⟩ := shaped_setLocalNDEFMsg hro hmsg hbuf hset
  obtain ⟨hconf, -⟩ := configured_setLocalNDEFMsg ht3tRo ht3tBuf ht3tScratch ht3tSet
  constructor
  · apply @stepsOk_iff _ _ t4tStep _ _ (Shaped readOnly ndefMsgMax.toNat) ?_ ?_ apdus _ hshaped
    · exact fun _ apdu h => t4tBounded_iff h apdu
    · intro s apdu u h _ hstep
      obtain ⟨v, hv, hshaped'⟩ := shaped_step h apdu
      obtain rfl := Option.some.inj (hv.symm.trans hstep)
      exact hshaped'
  · apply @stepsOk_iff _ _ t3tStep _ _ (Configured sizeMax.toNat) ?_ ?_ frames _ hconf
    · exact fun _ frame h => t3tBounded_iff h frame
    · exact fun _ _ _ h _ hstep => configured_step h hstep

/-- A file with room for four bytes that is written from the start, and a tag of one block
whose attributes are written. -/
theorem updates_bounded_iff_small :
    ∃ (m : T4tMem Unit) (t : T3tMem),
      setLocalNDEFMsg (ceInit Unit) false 4 0 (some [0, 0, 0, 0]) (some [0, 0, 0, 0]) = some m ∧
      t3tSetLocalNDEFMsg t3tInit false 16 0 (some (List.replicate 16 0)) (some (List.replicate 16 0)) = some t ∧
      (StepsOk t4tStep (T4tBounded 4) (selectT4t m)
          [[0x00, 0xA4, 0x04, 0x00, 0x07, 0xD2, 0x76, 0x00, 0x00, 0x85, 0x01, 0x01, 0x00],
            [0x00, 0xA4, 0x00, 0x0C, 0x02, 0x10, 0x00], [0x00, 0xD6, 0x00, 0x00, 0x02, 0x00, 0x03]] ↔
        StepsOk t4tStep (T4tAnnounces false 4) (selectT4t m)
          [[0x00, 0xA4, 0x04, 0x00, 0x07, 0xD2, 0x76, 0x00, 0x00, 0x85, 0x01, 0x01, 0x00],
            [0x00, 0xA4, 0x00, 0x0C, 0x02, 0x10, 0x00], [0x00, 0xD6, 0x00, 0x00, 0x02, 0x00, 0x03]]) ∧
      (StepsOk t3tStep (T3tBounded 16) (selectT3t t 0x12FC [0, 1, 2, 3, 4, 5, 6, 7])
          [[32, 8, 0, 1, 2, 3, 4, 5, 6, 7, 1, 9, 0, 1, 0x80, 0] ++
            [16, 3, 3, 0, 1, 0, 0, 0, 0, 0, 1, 0, 0, 16, 0, 40]] ↔
        StepsOk t3tStep (T3tInBounds 16) (selectT3t t 0x12FC [0, 1, 2, 3, 4, 5, 6, 7])
          [[32, 8, 0, 1, 2, 3, 4, 5, 6, 7, 1, 9, 0, 1, 0x80, 0] ++
            [16, 3, 3, 0, 1, 0, 0, 0, 0, 0, 1, 0, 0, 16, 0, 40]]) := by
  refine ⟨_, _, rfl, rfl, ?_⟩
  exact updates_bounded_iff (ceInit Unit) _ false 4 0 [0, 0, 0, 0] (some [0, 0, 0, 0]) _
    (.inr (by decide)) rfl (by simp) rfl t3tInit _ false 16 0 (List.replicate 16 0)
    [0, 1, 2, 3, 4, 5, 6, 7] (some (List.replicate 16 0)) 0x12FC _ (.inr (by decide)) rfl (by simp) rfl

/-- A file with room for four bytes is announced as one of 65535; a tag of 16 bytes is announced
as one of 16777215; and the second block of a tag of 17 bytes is written beyond the buffer. -/
theorem announced_beyond_max :
    (∃ m t : T4tMem Unit, setLocalNDEFMsg (ceInit Unit) false 4 0 (some [0, 0, 0, 0])
        (some [0, 0, 0, 0]) = some m ∧
      run t4tStep (selectT4t m)
        [[0x00, 0xA4, 0x04, 0x00, 0x07, 0xD2, 0x76, 0x00, 0x00, 0x85, 0x01, 0x01, 0x00],
          [0x00, 0xA4, 0x00, 0x0C, 0x02, 0x10, 0x00]] = some t ∧
      (dataCback t [0x00, 0xD6, 0x00, 0x00, 0x02, 0xFF, 0xFF]).map Prod.snd =
        some [.ndefUpdateCplt 65535, .rApdu [] .cmdCmplted]) ∧
    (∃ m, t3tSetLocalNDEFMsg t3tInit false 16 0 (some (List.replicate 16 0))
        (some (List.replicate 16 0)) = some m ∧
      (t3tDataCback (selectT3t m 0x12FC [0, 1, 2, 3, 4, 5, 6, 7])
          ([32, 8, 0, 1, 2, 3, 4, 5, 6, 7, 1, 9, 0, 1, 0x80, 0] ++
            [16, 3, 3, 0, 1, 0, 0, 0, 0, 0, 1, 0xFF, 0xFF, 0xFF, 0x03, 0x15])).map Prod.snd =
        some [sendRsp [0, 1, 2, 3, 4, 5, 6, 7] opcUpdateRsp statusOk statusOk,
          .ndefUpdateCplt true 16777215]) ∧
    ∃ m, t3tSetLocalNDEFMsg t3tInit false 17 0 (some (List.replicate 17 0))
        (some (List.replicate 17 0)) = some m ∧
      t3tDataCback (selectT3t m 0x12FC [0, 1, 2, 3, 4, 5, 6, 7])
        ([32, 8, 0, 1, 2, 3, 4, 5, 6, 7, 1, 9, 0, 1, 0x80, 2] ++ List.replicate 16 5) = none :=
  ⟨⟨_, _, rfl, rfl, by decide +kernel⟩, ⟨_, rfl, by decide +kernel⟩, _, rfl, rfl⟩

end NfcStack.Ce
