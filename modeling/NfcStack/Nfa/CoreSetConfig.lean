import NfcStack.Nfa.DmConfig

/- The command `CORE_SET_CONFIG` as `nci_snd_core_set_config` builds it: the TLVs are
   counted, and the command has their number and their bytes.

   What is proved:
     1. `countLoop_eq`: the count is that of the TLVs, and a TLV that does not fit is refused.
     2. `set_config_exact`: the command is right unless a byte is left over behind the TLVs,
        or the TLVs take 255 bytes. -/
namespace NfcStack.Nfa

/-! ## The code -/

abbrev nciMtCmd : UInt8 := 1
abbrev nciMtShift : UInt8 := 5
abbrev nciGidCore : UInt8 := 0x00
abbrev nciMsgCoreSetConfig : UInt8 := 2

/-- The loop over the TLVs, with `len` bytes from `pt` on: their number, none if one does not fit. -/
def countLoop (tlvs : List UInt8) : Nat → Nat → Nat → UInt8 → Option UInt8
  | 0, _, _, num => some num
  | n + 1, len, pt, num =>
    if len > 1 then
      let ulen := (tlvs.getD (pt + 1) 0).toNat
      if len - 2 ≥ ulen then countLoop tlvs n (len - 2 - ulen) (pt + 2 + ulen) (num + 1) else none
    else some num

/-- A command with TLVs, of which the size has eight bits: none if there is no buffer, or if a TLV does
not fit. -/
def sndTlvs (gid oid : UInt8) (hasBuf : Bool) (tlvs : List UInt8) : Option (List UInt8) :=
  if hasBuf then
    (countLoop tlvs tlvs.length tlvs.length 0 0).map fun num =>
      [(nciMtCmd <<< nciMtShift) ||| gid, oid, UInt8.ofNat (tlvs.length + 1), num] ++ tlvs
  else none

/-- `nci_snd_core_set_config`. -/
def nciSndCoreSetConfig (hasBuf : Bool) (tlvs : List UInt8) : Option (List UInt8) :=
  sndTlvs nciGidCore nciMsgCoreSetConfig hasBuf tlvs

/-! ## The TLVs -/

section Count
variable {tlvs : List UInt8}

theorem countLoop_eq (n : Nat) : ∀ {len pt : Nat} {num : UInt8}, pt + len = tlvs.length → len ≤ n →
    countLoop tlvs n len pt num =
      if (parseTlvs n (tlvs.drop pt)).2 then some (num + UInt8.ofNat (parseTlvs n (tlvs.drop pt)).1.length)
      else none := by
  induction n with
  | zero =>
    intro len pt num hpt hlen
    rw [parseTlvs_short (by rw [List.length_drop]; omega)]
    simp [countLoop]
  | succ n ih =>
    intro len pt num hpt hlen
    rw [countLoop]
    by_cases hmore : len > 1
    · have htail : tlvs.drop pt = tlvs.getD pt 0 :: tlvs.getD (pt + 1) 0 :: tlvs.drop (pt + 2) := by
        have h₀ : pt < tlvs.length := by omega
        have h₁ : pt + 1 < tlvs.length := by omega
        rw [List.drop_eq_getElem_cons h₀, List.drop_eq_getElem_cons h₁, List.getD_eq_getElem _ _ h₀,
          List.getD_eq_getElem _ _ h₁]
      have hrest : (tlvs.drop (pt + 2)).length = len - 2 := by
        rw [List.length_drop]
        omega
      rw [if_pos hmore, htail]
      dsimp only
      by_cases hfit : len - 2 ≥ (tlvs.getD (pt + 1) 0).toNat
      · rw [if_pos hfit, parseTlvs_cons (by rw [hrest]; exact hfit), List.drop_drop, ih (by omega) (by omega)]
        dsimp only
        have hnum : ∀ k, num + 1 + UInt8.ofNat k = num + UInt8.ofNat (k + 1) := by
          intro k
          rw [UInt8.ofNat_add, UInt8.add_assoc, UInt8.add_comm 1]
          rfl
        rw [List.length_cons, hnum]
      · rw [if_neg hfit, parseTlvs_misfit (by rw [hrest]; omega)]
        rfl
    · rw [if_neg hmore, parseTlvs_short (by rw [List.length_drop]; omega)]
      simp

theorem parseTlvs_rest (n : Nat) : ∀ {bytes : List UInt8}, bytes.length ≤ n → (parseTlvs n bytes).2 = true →
    ∃ tail : List UInt8, tail.length ≤ 1 ∧ bytes = (parseTlvs n bytes).1.flatMap ParamTlv.bytes ++ tail := by
  induction n with
  | zero =>
    intro bytes hlen _
    rw [parseTlvs_short (by omega)]
    exact ⟨bytes, by omega, rfl⟩
  | succ n ih =>
    intro bytes hlen hok
    match bytes with
    | [] => exact ⟨[], Nat.zero_le 1, rfl⟩
    | [b] => exact ⟨[b], Nat.le_refl 1, rfl⟩
    | type :: len :: rest =>
      rw [List.length_cons, List.length_cons] at hlen
      rcases Nat.lt_or_ge rest.length len.toNat with hmisfit | hfit
      · rw [parseTlvs_misfit hmisfit] at hok
        cases hok
      · rw [parseTlvs_cons hfit] at hok ⊢
        obtain ⟨tail, htail, heq⟩ := ih (by rw [List.length_drop]; omega) hok
        refine ⟨tail, htail, ?_⟩
        have hvalue : (rest.take len.toNat).length = len.toNat := by
          rw [List.length_take]
          omega
        have hhead : (⟨type, rest.take len.toNat⟩ : ParamTlv).bytes = type :: len :: rest.take len.toNat := by
          unfold ParamTlv.bytes
          dsimp only
          rw [hvalue, UInt8.ofNat_toNat]
        rw [List.flatMap_cons, hhead, List.append_assoc, ← heq, List.cons_append, List.cons_append,
          List.take_append_drop]

theorem parseTlvs_all {ts : List ParamTlv} (hts : ∀ t ∈ ts, t.Fits) {tail : List UInt8} (htail : tail.length ≤ 1)
    (h : tlvs = ts.flatMap ParamTlv.bytes ++ tail) : parseTlvs tlvs.length tlvs = (ts, true) := by
  have hle := length_le_tlvBytes ts
  have hlen : ts.length + (tlvs.length - ts.length) = tlvs.length := by
    rw [h, List.length_append]
    omega
  have hparse := parseTlvs_flatten_append ts (tlvs.length - ts.length) tail hts
  rw [hlen, ← h, @parseTlvs_short _ tail (by omega), List.append_nil] at hparse
  exact hparse

theorem parseTlvs_exact {ts : List ParamTlv} (hts : ∀ t ∈ ts, t.Fits) (h : tlvs = ts.flatMap ParamTlv.bytes) :
    parseTlvs tlvs.length tlvs = (ts, true) :=
  @parseTlvs_all tlvs ts hts [] (Nat.zero_le 1) (h.trans (List.append_nil _).symm)

theorem parseTlvs_extra {ts : List ParamTlv} {b : UInt8} (hts : ∀ t ∈ ts, t.Fits)
    (h : tlvs = ts.flatMap ParamTlv.bytes ++ [b]) : parseTlvs tlvs.length tlvs = (ts, true) :=
  @parseTlvs_all tlvs ts hts [b] (Nat.le_refl 1) h

/-! ## The command -/

/-- The command has the TLVs as they are, their number, and the length of the payload. -/
def SetConfigFor (tlvs cmd : List UInt8) : Prop :=
  ∃ (ts : List ParamTlv) (len count : UInt8), (∀ t ∈ ts, t.Fits) ∧ tlvs = ts.flatMap ParamTlv.bytes ∧
    cmd = 0x20 :: 0x02 :: len :: count :: tlvs ∧ len.toNat = tlvs.length + 1 ∧ count.toNat = ts.length

/-- **When the command is right.** For every buffer: a command that is sent is the one for its TLVs, unless
there are TLVs and one byte more, or TLVs of 255 bytes. -/
theorem set_config_exact (hasBuf : Bool) (hsize : tlvs.length < 256) :
    (∀ cmd, nciSndCoreSetConfig hasBuf tlvs = some cmd → SetConfigFor tlvs cmd) ↔
      hasBuf = false ∨
        (¬∃ (ts : List ParamTlv) (b : UInt8), (∀ t ∈ ts, t.Fits) ∧ tlvs = ts.flatMap ParamTlv.bytes ++ [b]) ∧
          (tlvs.length = 255 → ¬∃ ts : List ParamTlv, (∀ t ∈ ts, t.Fits) ∧ tlvs = ts.flatMap ParamTlv.bytes) := by
  cases hasBuf with
  | false => exact ⟨fun _ => .inl rfl, fun _ cmd h => nomatch h⟩
  | true =>
    have hsent : nciSndCoreSetConfig true tlvs =
        if (parseTlvs tlvs.length tlvs).2 then some ([0x20, 0x02, UInt8.ofNat (tlvs.length + 1),
          UInt8.ofNat (parseTlvs tlvs.length tlvs).1.length] ++ tlvs) else none := by
      unfold nciSndCoreSetConfig sndTlvs
      rw [if_pos rfl, countLoop_eq _ (Nat.zero_add _) (Nat.le_refl _), List.drop_zero]
      split
      · rw [UInt8.zero_add]
        rfl
      · rfl
    have hts := parseTlvs_fits tlvs.length tlvs
    by_cases hok : (parseTlvs tlvs.length tlvs).2 = true
    · rw [hsent, if_pos hok]
      obtain ⟨tail, htail, heq⟩ := parseTlvs_rest _ (Nat.le_refl _) hok
      generalize (parseTlvs tlvs.length tlvs).1 = ts at hts heq ⊢
      match tail with
      | [b] =>
        -- the byte behind the TLVs is sent with them
        constructor
        · intro h
          obtain ⟨us, -, -, hus, hbytes, -⟩ := h _ rfl
          have h₁ := parseTlvs_extra hts heq
          have h₂ := parseTlvs_exact hus hbytes
          obtain ⟨rfl, -⟩ := Prod.mk.inj (h₁.symm.trans h₂)
          have hlen := congrArg List.length (heq.symm.trans hbytes)
          rw [List.length_append, List.length_singleton] at hlen
          omega
        · intro h
          rcases h with h | ⟨h, -⟩
          · cases h
          · exact absurd ⟨ts, b, hts, heq⟩ h
      | [] =>
        rw [List.append_nil] at heq
        have hcount : (UInt8.ofNat ts.length).toNat = ts.length := by
          have hle := length_le_tlvBytes ts
          rw [← heq] at hle
          exact UInt8.toNat_ofNat_of_lt' (by change ts.length < 256; omega)
        constructor
        · intro h
          refine .inr ⟨fun ⟨us, b, hus, hbytes⟩ => ?_, fun h255 _ => ?_⟩
          · have h₁ := parseTlvs_exact hts heq
            have h₂ := parseTlvs_extra hus hbytes
            obtain ⟨rfl, -⟩ := Prod.mk.inj (h₁.symm.trans h₂)
            have hlen := congrArg List.length (heq.symm.trans hbytes)
            rw [List.length_append, List.length_singleton] at hlen
            omega
          · obtain ⟨us, len, count, -, -, hcmd, hlen, -⟩ := h _ rfl
            have := len.toNat_lt
            omega
        · intro h cmd hcmd
          rcases h with h | ⟨-, h255⟩
          · cases h
          · obtain rfl := Option.some.inj hcmd
            have hne : tlvs.length ≠ 255 := fun hl => h255 hl ⟨ts, hts, heq⟩
            refine ⟨ts, _, _, hts, heq, rfl, ?_, hcount⟩
            exact UInt8.toNat_ofNat_of_lt' (by change tlvs.length + 1 < 256; omega)
      | _ :: _ :: _ => simp at htail
    · rw [hsent, if_neg hok]
      refine ⟨fun _ => .inr ⟨fun ⟨us, b, hus, hbytes⟩ => ?_, fun _ ⟨us, hus, hbytes⟩ => ?_⟩, fun _ cmd h => nomatch h⟩
      · exact hok (congrArg Prod.snd (parseTlvs_extra hus hbytes))
      · exact hok (congrArg Prod.snd (parseTlvs_exact hus hbytes))

end Count

/-- Two TLVs. -/
theorem set_config_exact_two : SetConfigFor [0x00, 0x02, 0x00, 0x01, 0x32, 0x01, 0x20]
    [0x20, 0x02, 0x08, 0x02, 0x00, 0x02, 0x00, 0x01, 0x32, 0x01, 0x20] := by
  refine (set_config_exact true (by decide)).mpr (.inr ⟨?_, fun h => absurd h (by decide)⟩) _ (by decide)
  intro ⟨ts, b, hts, heq⟩
  have hread := parseTlvs_extra hts heq
  have hts' : ts = [⟨0x00, [0x00, 0x01]⟩, ⟨0x32, [0x20]⟩] := (congrArg Prod.fst hread).symm
  rw [hts'] at heq
  have hlen := congrArg List.length heq
  rw [List.length_append, List.length_singleton] at hlen
  exact absurd hlen (by decide)

/-- One byte is sent as if there were no TLV, and 255 bytes with a length of 0. -/
theorem set_config_left_over :
    nciSndCoreSetConfig true [0x00] = some [0x20, 0x02, 0x02, 0x00, 0x00] ∧
      ¬SetConfigFor [0x00] [0x20, 0x02, 0x02, 0x00, 0x00] ∧
      (nciSndCoreSetConfig true (0xA0 :: 253 :: List.replicate 253 0)).map (·.take 4) = some [0x20, 0x02, 0x00, 0x01] := by
  refine ⟨by decide, ?_, by decide +kernel⟩
  intro ⟨ts, len, count, _, hbytes, _⟩
  match ts with
  | [] => cases hbytes
  | t :: ts =>
    have hlen := congrArg List.length hbytes
    rw [List.flatMap_cons, List.length_append] at hlen
    change 1 = t.value.length + 1 + 1 + _ at hlen
    omega

end NfcStack.Nfa
