import NfcStack.Ndef.Accepted
import NfcStack.Ndef.Dechunk

/- Whether the messages that the library builds pass its own validator (`ndef_utils.cc`:
   `NDEF_MsgAddRec`, `NDEF_MsgCopyAndDechunk`, `NDEF_MsgValidate`). The builder writes an id
   length only if there is an id; the validator asks for one in an empty record. And the
   builder checks the type name format with `>`, so that "unchanged" and the reserved value
   pass.

   What is proved:
     1. `validate_encode`: what the builder has laid out is accepted just when each record is
        sound.
     2. `addCall_sound`: a call with valid arguments adds a sound record.
     3. `logicalRecs_sound`: the records that were chunked are sound but for empty ones.
     4. `built_validates`: both ways to build a message, together. -/
namespace NfcStack.Ndef
open NfcStack.Lib

/-! ## Records as the builder lays them out -/

structure LogicalRec.Sound (l : LogicalRec) : Prop where
  empty : l.tnf ≠ ndefTnfEmpty
  unchanged : l.tnf ≠ ndefTnfUnchanged
  unknown : l.tnf = ndefTnfUnknown → l.type = []
  ext : l.tnf = ndefTnfExt → l.type ≠ []
  chars : l.tnf = ndefTnfExt ∨ l.tnf = ndefTnfWkt → ∀ b ∈ l.type, ndefRtdValidStart ≤ b ∧ b ≤ ndefRtdValidEnd

section Layout
variable {r : NdefRec} {mb me : Bool} {ns : List NdefRec}

theorem NdefRec.not_cf_frame : ¬ (r.frame mb me).cf := by
  have hall : ∀ (tnf : Fin 7) (mb me sr il : Bool), ¬ has (mkHdr tnf mb me sr il) ndefCfMask := by decide
  exact hall _ _ _ _ _

theorem NdefRec.tnf_ne_mask : (r.frame mb me).tnf ≠ ndefTnfMask := by
  have hall : ∀ t : Fin 7, UInt8.ofNat t ≠ ndefTnfMask := by decide
  rw [r.frame_tnf]
  exact hall r.tnf

theorem NdefRec.sound_iff :
    r.logical.Sound ↔ (r.frame mb me).Rules ∧ (r.frame mb me).tnf ≠ ndefTnfUnchanged := by
  have htnf : (r.frame mb me).tnf = r.logical.tnf := r.frame_tnf mb me
  constructor
  · intro h
    refine ⟨⟨r.tnf_ne_mask, fun ht => absurd (htnf ▸ ht) h.empty, fun ht => h.unknown (htnf ▸ ht),
      fun ht => h.ext (htnf ▸ ht), fun ht => h.chars (htnf ▸ ht)⟩, fun ht => h.unchanged (htnf ▸ ht)⟩
  · rintro ⟨h, hunch⟩
    refine ⟨fun ht => ?_, fun ht => hunch (htnf.trans ht), fun ht => h.unknown (htnf.trans ht),
      fun ht => h.ext (htnf.trans ht), fun ht => h.chars (by rwa [htnf])⟩
    -- an id length and no id
    obtain ⟨hil, -, hid, -⟩ := h.empty (htnf.trans ht)
    exact of_decide_eq_true ((has_il _ _ _ _ _).mp hil) hid

theorem mem_closed {x : Rec} (h : x ∈ closed mb ns) : ∃ r ∈ ns, ∃ mb' me', x = r.frame mb' me' := by
  induction ns generalizing mb with
  | nil => cases h
  | cons r ns ih =>
    rcases List.mem_cons.mp h with rfl | h
    · exact ⟨r, List.mem_cons_self, _, _, rfl⟩
    · obtain ⟨r', hr', hx⟩ := ih h
      exact ⟨r', List.mem_cons_of_mem r hr', hx⟩

theorem frame_mem_closed (h : r ∈ ns) : ∃ mb' me', r.frame mb' me' ∈ closed mb ns := by
  induction ns generalizing mb with
  | nil => cases h
  | cons r' ns ih =>
    rcases List.mem_cons.mp h with rfl | h
    · exact ⟨_, _, List.mem_cons_self⟩
    · obtain ⟨mb', me', hr⟩ := @ih false h
      exact ⟨mb', me', List.mem_cons_of_mem _ hr⟩

theorem not_mb_closed {x : Rec} (h : x ∈ closed false ns) : ¬ x.mb := by
  induction ns with
  | nil => cases h
  | cons r ns ih =>
    rcases List.mem_cons.mp h with rfl | h
    · exact fun hmb => Bool.false_ne_true ((has_mb _ _ _ _ _).mp hmb)
    · exact ih h

theorem chunked_closed : Chunked false (closed mb ns) ↔ ∀ x ∈ closed mb ns, x.tnf ≠ ndefTnfUnchanged := by
  induction ns generalizing mb with
  | nil => exact iff_of_true trivial nofun
  | cons r ns ih =>
    rw [closed, Chunked, decide_eq_false r.not_cf_frame, ih, List.forall_mem_cons]
    simp

theorem validate_encode (hne : ns ≠ []) (hlt : (encode ns).length < 4294967296) (allowChunks : Bool) :
    ndefMsgValidate (some (encode ns)) (UInt32.ofNat (encode ns).length) allowChunks = some .ok ↔
      ∀ r ∈ ns, r.logical.Sound := by
  have hlen : (encode ns).length = (UInt32.ofNat (encode ns).length).toNat := by
    simp
    omega
  rw [validate_row hlen rfl (endsOnce_closed true hne), row_iff, chunked_closed]
  constructor
  · rintro ⟨-, hrules, -, -, -, hunch⟩ r hr
    obtain ⟨mb, me, hx⟩ := @frame_mem_closed r true ns hr
    exact NdefRec.sound_iff.mpr ⟨hrules _ hx, hunch _ hx⟩
  · intro h
    have hcf : ∀ x ∈ closed true ns, ¬ x.cf := by
      intro x hx
      obtain ⟨r, -, mb, me, rfl⟩ := mem_closed hx
      exact r.not_cf_frame
    have hx : ∀ x ∈ closed true ns, x.Rules ∧ x.tnf ≠ ndefTnfUnchanged := by
      intro x hx
      obtain ⟨r, hr, mb, me, rfl⟩ := mem_closed hx
      exact NdefRec.sound_iff.mp (h r hr)
    refine ⟨?_, fun x hm => (hx x hm).1, ?_, fun x hm hc => absurd hc (hcf x hm), fun x hm hc => ?_,
      fun x hm => (hx x hm).2⟩
    · cases ns with
      | nil => exact absurd rfl hne
      | cons r ns =>
        intro x hm
        obtain rfl : r.frame true ns.isEmpty = x := by simpa [closed] using hm
        exact (has_mb _ _ _ _ _).mpr rfl
    · cases ns with
      | nil => exact absurd rfl hne
      | cons r ns => exact fun x hm => not_mb_closed hm
    · exact absurd hc (hcf x (List.mem_of_mem_head? hm))

theorem Holds.accepted {maxSize : Nat} {m : Msg} (h : Holds maxSize m ns) (hne : ns ≠ []) (allowChunks : Bool) :
    ndefMsgValidate (some (m.mem.take m.curSize)) (UInt32.ofNat m.curSize) allowChunks = some .ok ↔
      ∀ r ∈ ns, r.logical.Sound := by
  obtain ⟨junk, hmem⟩ := h.mem
  have hle := h.le
  have hlt := h.lt
  have hsize := h.size
  rw [hmem, hsize, List.take_left]
  exact validate_encode hne (by omega) allowChunks

end Layout

/-! ## Calls that add a record -/

/-- The arguments of `NDEF_MsgAddRec`, in range for their types. -/
structure RecArgs where
  tnf : UInt8
  type : Src
  id : Src
  payload : Src
  type_lt : type.len < 256
  id_lt : id.len < 256
  payload_lt : payload.len < 4294967296

/-- What is accepted as the bytes of a well-known or external type; a place that is only reserved is not. -/
def Src.Printable : Src → Prop
  | .bytes bs => ∀ b ∈ bs, ndefRtdValidStart ≤ b ∧ b ≤ ndefRtdValidEnd
  | .reserve n => n = 0

instance : ∀ src : Src, Decidable src.Printable
  | .bytes bs => inferInstanceAs (Decidable (∀ b ∈ bs, _))
  | .reserve n => inferInstanceAs (Decidable (n = 0))

namespace RecArgs

/-- `if (tnf > NDEF_TNF_RESERVED)`: the record is of an unknown type then, and has none. -/
def known (c : RecArgs) : RecArgs :=
  if c.tnf > ndefTnfReserved then { c with tnf := ndefTnfUnknown, type := .bytes [], type_lt := by decide } else c

/-- The type name format is one of those that a record can have by itself, not empty, and agrees with the type. -/
def Valid (c : RecArgs) : Prop :=
  (c.tnf ≠ ndefTnfEmpty ∧ c.tnf ≠ ndefTnfUnchanged ∧ c.tnf ≠ ndefTnfReserved) ∧
    (c.tnf = ndefTnfUnknown → c.type.len = 0) ∧ (c.tnf = ndefTnfExt → c.type.len ≠ 0) ∧
      (c.tnf = ndefTnfExt ∨ c.tnf = ndefTnfWkt → c.type.Printable)

def Fits (m : Msg) (c : RecArgs) : Prop :=
  m.curSize + recRoom c.type.len c.id.len c.payload.len < 4294967296

instance (c : RecArgs) : Decidable c.Valid := inferInstanceAs (Decidable (_ ∧ _ ∧ _ ∧ _))
instance (m : Msg) (c : RecArgs) : Decidable (c.Fits m) := inferInstanceAs (Decidable (_ < _))

end RecArgs

def addCall (maxSize : Nat) (m : Msg) (c : RecArgs) : Option Msg :=
  (ndefMsgAddRec m maxSize c.tnf c.type c.id c.payload).bind fun r => if r.1 = .ok then some r.2 else none

section Calls
variable {maxSize : Nat} {m m' : Msg} {ns : List NdefRec} {c : RecArgs}

theorem RecArgs.known_le (c : RecArgs) : ¬ c.known.tnf > ndefTnfReserved := by
  unfold known
  split
  case isTrue => exact (by decide : ¬ ndefTnfUnknown > ndefTnfReserved)
  case isFalse h => exact h

theorem addRec_known (c : RecArgs) : ndefMsgAddRec m maxSize c.tnf c.type c.id c.payload =
    ndefMsgAddRec m maxSize c.known.tnf c.known.type c.known.id c.known.payload := by
  unfold RecArgs.known
  split
  case isTrue h =>
    have hle : ¬ ndefTnfUnknown > ndefTnfReserved := by decide
    unfold ndefMsgAddRec
    simp only [if_pos h, if_neg hle]
  case isFalse => rfl

theorem Src.Printable.gives {src : Src} {field : Bytes} (h : src.Printable) (hg : src.Gives field) :
    ∀ b ∈ field, ndefRtdValidStart ≤ b ∧ b ≤ ndefRtdValidEnd := by
  cases src with
  | bytes bs =>
    obtain rfl : field = bs := hg
    exact h
  | reserve n =>
    obtain rfl : field = [] := List.length_eq_zero_iff.mp (hg.trans h)
    exact nofun

theorem addCall_adds (h : Holds maxSize m ns) (hres : c.known.tnf ≠ ndefTnfReserved) (hfits : c.known.Fits m)
    (hcall : addCall maxSize m c = some m') :
    ∃ r, Holds maxSize m' (ns ++ [r]) ∧ r.logical.tnf = c.known.tnf ∧ c.known.type.Gives r.type ∧
      c.known.id.Gives r.id ∧ c.known.payload.Gives r.payload := by
  obtain ⟨t, ht⟩ : ∃ t : Fin 7, UInt8.ofNat t = c.known.tnf := by
    have hall : ∀ b : UInt8, ¬ b > ndefTnfReserved → b ≠ ndefTnfReserved → ∃ t : Fin 7, UInt8.ofNat t = b := by
      decide +kernel
    exact hall _ c.known_le hres
  obtain ⟨herr, hok⟩ := addRec_spec h t c.known.type c.known.id c.known.payload c.known.type_lt c.known.id_lt hfits
  rw [addCall, addRec_known, ← ht] at hcall
  by_cases hroom : m.curSize + recRoom c.known.type.len c.known.id.len c.known.payload.len ≤ maxSize
  · obtain ⟨m₁, r, hadd, hholds, -, htnf, hgives⟩ := hok hroom
    rw [hadd, Option.bind_some, if_pos rfl] at hcall
    obtain rfl := Option.some.inj hcall
    exact ⟨r, hholds, by rw [← ht, ← htnf]; rfl, hgives⟩
  · rw [herr (by omega), Option.bind_some, if_neg (by simp)] at hcall
    cases hcall

theorem addCall_sound (h : Holds maxSize m ns) (hvalid : c.known.Valid) (hfits : c.known.Fits m)
    (hcall : addCall maxSize m c = some m') :
    ∃ r, Holds maxSize m' (ns ++ [r]) ∧ r.logical.Sound := by
  obtain ⟨⟨hempty, hunch, hres⟩, hunknown, hext, hchars⟩ := hvalid
  obtain ⟨r, hholds, hlog, hty, -⟩ := addCall_adds h hres hfits hcall
  have hnil : r.type = [] ↔ c.known.type.len = 0 := by
    rw [← hty.length_eq, List.length_eq_zero_iff]
  refine ⟨r, hholds, ⟨hlog ▸ hempty, hlog ▸ hunch, fun h => ?_, fun h => ?_, fun h => ?_⟩⟩
  · exact hnil.mpr (hunknown (hlog ▸ h))
  · exact fun hn => hext (hlog ▸ h) (hnil.mp hn)
  · exact (hchars (hlog ▸ h)).gives hty

theorem addCalls_sound {m₀ : Msg} {calls : List RecArgs} (h : Holds maxSize m₀ []) (hne : calls ≠ [])
    (hok : StepsOk (addCall maxSize) (fun m c => c.known.Valid ∧ c.known.Fits m) m₀ calls)
    (hrun : run (addCall maxSize) m₀ calls = some m) :
    ∃ ns, ns ≠ [] ∧ Holds maxSize m ns ∧ ∀ r ∈ ns, r.logical.Sound := by
  cases calls with
  | nil => exact absurd rfl hne
  | cons c calls =>
    rw [run_cons] at hrun
    obtain ⟨m₁, hfirst, hrest⟩ := Option.bind_eq_some_iff.mp hrun
    obtain ⟨r, hholds, hr⟩ := addCall_sound h hok.1.1 hok.1.2 hfirst
    refine @run_keeps_of_step Msg RecArgs (addCall maxSize) _
      (fun m => ∃ ns, ns ≠ [] ∧ Holds maxSize m ns ∧ ∀ r ∈ ns, r.logical.Sound)
      (fun m c m' hinv hc hcall => ?_) calls m₁ m ?_ (hok.2 m₁ hfirst) hrest
    · obtain ⟨ns, -, hholds, hns⟩ := hinv
      obtain ⟨r, hholds', hr⟩ := addCall_sound hholds hc.1 hc.2 hcall
      refine ⟨ns ++ [r], by simp, hholds', fun x hx => ?_⟩
      rcases List.mem_append.mp hx with hx | hx
      · exact hns x hx
      · rwa [List.mem_singleton.mp hx]
    · refine ⟨[] ++ [r], by simp, hholds, fun x hx => ?_⟩
      rwa [List.mem_singleton.mp hx]

end Calls

/-! ## Chunks that are joined -/

section Logical
variable {rs : List Rec}

theorem chunkRun_split (cf : Bool) (rs : List Rec) (h : Chunked cf rs) :
    rs = (chunkRun cf rs).1 ++ (chunkRun cf rs).2 ∧ (∀ r ∈ (chunkRun cf rs).1, r.tnf = ndefTnfUnchanged) ∧
      Chunked false (chunkRun cf rs).2 := by
  induction rs generalizing cf with
  | nil => exact ⟨rfl, nofun, trivial⟩
  | cons r rs ih =>
    cases cf with
    | false => exact ⟨rfl, nofun, h⟩
    | true =>
      obtain ⟨hunch, -, hrest⟩ := h
      obtain ⟨hsplit, hgo, hch⟩ := ih (decide r.cf) hrest
      refine ⟨congrArg (r :: ·) hsplit, fun x hx => ?_, hch⟩
      rcases List.mem_cons.mp hx with rfl | hx
      · exact hunch.mpr rfl
      · exact hgo x hx

theorem logicalRecs_sound (hrules : ∀ r ∈ rs, r.Rules) (hch : Chunked false rs) :
    (∀ l ∈ logicalRecs rs, l.Sound) ↔ ∀ r ∈ rs, r.tnf ≠ ndefTnfEmpty := by
  induction hn : rs.length using Nat.strong_induction_on generalizing rs with
  | _ n ih =>
    cases rs with
    | nil => exact iff_of_true (by simp [logicalRecs]) nofun
    | cons r rs =>
      obtain ⟨hunch, -, hrest⟩ := hch
      obtain ⟨hsplit, hgo, hch'⟩ := chunkRun_split _ rs hrest
      have hr := hrules r List.mem_cons_self
      have hbehind : ∀ x ∈ (chunkRun (decide r.cf) rs).2, x.Rules := by
        intro x hx
        refine hrules x (List.mem_cons_of_mem r ?_)
        rw [hsplit]
        exact List.mem_append_right _ hx
      have hlen := length_chunkRun (decide r.cf) rs
      have hrec := ih _ (by rw [← hn, List.length_cons]; omega) hbehind hch' rfl
      rw [logicalRecs, List.forall_mem_cons, hrec, List.forall_mem_cons]
      have hmem : (∀ x ∈ rs, x.tnf ≠ ndefTnfEmpty) ↔ ∀ x ∈ (chunkRun (decide r.cf) rs).2, x.tnf ≠ ndefTnfEmpty := by
        conv_lhs => rw [hsplit]
        rw [List.forall_mem_append]
        refine and_iff_right fun x hx => ?_
        rw [hgo x hx]
        decide
      rw [hmem]
      refine and_congr_left fun _ => ⟨fun h => h.empty, fun h => ⟨h, fun ht => ?_, hr.unknown, hr.ext, hr.chars⟩⟩
      exact Bool.false_ne_true (hunch.mp ht)

theorem sound_of_logical {ns : List NdefRec} (hlog : ns.map NdefRec.logical = logicalRecs rs) :
    (∀ r ∈ ns, r.logical.Sound) ↔ ∀ l ∈ logicalRecs rs, l.Sound := by
  rw [← hlog, List.forall_mem_map]

end Logical

/-- What the builder makes of valid arguments is accepted, and the copy of a valid message is just when no record
of it is empty. -/
theorem built_validates {maxSize : Nat} {mem : Bytes} {m₀ : Msg} (hmax : maxSize < 4294967296)
    (hinit : ndefMsgInit mem maxSize = some m₀) :
    (∀ (calls : List RecArgs) (m : Msg), calls ≠ [] →
      StepsOk (addCall maxSize) (fun m c => c.known.Valid ∧ c.known.Fits m) m₀ calls →
      run (addCall maxSize) m₀ calls = some m →
      ndefMsgValidate (some (m.mem.take m.curSize)) (UInt32.ofNat m.curSize) false = some .ok) ∧
    (∀ (src : Bytes) (srcLen : UInt32) (dest dest' : Bytes) (outLen : Nat) (rs : List Rec),
      src.length = srcLen.toNat → ndefMsgValidate (some src) srcLen true = some .ok →
      src = recsBytes rs →
      ndefMsgCopyAndDechunk src srcLen dest = some (.ok, dest', some outLen) →
      (ndefMsgValidate (some (dest'.take outLen)) (UInt32.ofNat outLen) false = some .ok ↔
        ∀ r ∈ rs, r.tnf ≠ ndefTnfEmpty)) := by
  constructor
  · intro calls m hne hok hrun
    obtain ⟨ns, hns, hholds, hsound⟩ := addCalls_sound (ndefMsgInit_holds hmax hinit) hne hok hrun
    exact (hholds.accepted hns false).mpr hsound
  · intro src srcLen dest dest' outLen rs hlen hok hsrc hcopy
    have hend := endsOnce_of_accepted hlen hsrc hok
    have hrow := row_iff.mp ((validate_row hlen hsrc hend).mp hok).2
    obtain ⟨hrules, -, -, -, hch⟩ := hrow
    have hdest : srcLen.toNat ≤ dest.length := by
      rw [ndefMsgCopyAndDechunk, hok, Option.bind_some, if_neg (not_not.mpr rfl), ndefMsgInit, memcpy] at hcopy
      split at hcopy
      case isTrue hle => simpa using hle
      case isFalse => cases hcopy
    obtain ⟨m, ns, hcopy', hholds, hlog⟩ :=
      copy_of_records hlen hdest hok hsrc hend hch fun r hr => (hrules r hr).tnf
    rw [hcopy'] at hcopy
    obtain ⟨rfl, rfl⟩ : m.mem = dest' ∧ m.curSize = outLen := by simpa using hcopy
    have hne : ns ≠ [] := by
      rintro rfl
      cases rs with
      | nil => exact hend
      | cons r rs => simp [logicalRecs] at hlog
    rw [hholds.accepted hne false, sound_of_logical hlog, logicalRecs_sound hrules hch]

def textArgs : RecArgs :=
  ⟨ndefTnfWkt, .bytes [0x54], .reserve 0, .bytes [7, 8], by decide, by decide, by decide⟩

/-- A record whose type name format is out of range. -/
def oddArgs : RecArgs := ⟨9, .bytes [1], .bytes [3], .reserve 2, by decide, by decide, by decide⟩

def emptyArgs : RecArgs :=
  ⟨ndefTnfEmpty, .reserve 0, .reserve 0, .reserve 0, by decide, by decide, by decide⟩

/-- An empty record as the validator wants it. -/
def emptyRec : Rec := ⟨0xD8, [], [], [], no_bytes_lt, no_bytes_lt, by decide, by decide⟩

theorem built_validates_two :
    ∃ m, run (addCall 16) ⟨List.replicate 16 0, 0⟩ [textArgs, oddArgs] = some m ∧
      ndefMsgValidate (some (m.mem.take m.curSize)) (UInt32.ofNat m.curSize) false = some .ok := by
  refine ⟨⟨[0x91, 1, 2, 0x54, 7, 8, 0x5D, 0, 2, 1, 3, 0, 0, 0, 0, 0], 13⟩, by decide +kernel, ?_⟩
  have hinit : ndefMsgInit (List.replicate 16 1) 16 = some ⟨List.replicate 16 0, 0⟩ := by decide +kernel
  exact (built_validates (by decide) hinit).1 [textArgs, oddArgs] _ (List.cons_ne_nil _ _) (by decide +kernel)
    (by decide +kernel)

/-- An empty record is added, and is rejected; and one that is accepted becomes one that is not. -/
theorem empty_rec_rejected :
    (ndefMsgInit (List.replicate 8 1) 8 = some ⟨List.replicate 8 0, 0⟩ ∧
      ndefMsgAddRec ⟨List.replicate 8 0, 0⟩ 8 emptyArgs.tnf emptyArgs.type emptyArgs.id emptyArgs.payload =
        some (.ok, ⟨[0xD0, 0, 0, 0, 0, 0, 0, 0], 3⟩) ∧
      ndefMsgValidate (some [0xD0, 0, 0]) 3 false = some .msgInvalidEmptyRec) ∧
    (ndefMsgValidate (some emptyRec.bytes) 4 true = some .ok ∧
      ndefMsgCopyAndDechunk emptyRec.bytes 4 (List.replicate 8 1) =
        some (.ok, [0xD0, 0, 0, 0, 1, 1, 1, 1], some 3)) := by
  decide +kernel

end NfcStack.Ndef
