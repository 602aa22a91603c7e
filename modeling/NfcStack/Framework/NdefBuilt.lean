import NfcStack.Ndef.Built
import NfcStack.Framework.NdefAgree

/- Messages on their way between the native stack and an application. `NDEF_MsgAddRec` and
   `NdefMessage.java` write records by themselves, and an empty one differently: only the
   framework gives it an id length. `NDEF_MsgValidate` is asked before a tag is written.

   What is proved:
     1. `SameRecord.bytes`: any other record is written to the same bytes by both.
     2. `built_read`: what is built with `NDEF_MsgAddRec` is read by the framework as the
        records that were added, and written by it to the same bytes again.
     3. `written_validates`: which messages of the framework the native check accepts. -/
namespace NfcStack.Framework
open NfcStack.Lib NfcStack.Ndef

/-! ## One record -/

/-- A record of the builder and the same record in the framework. It is not an empty one. -/
structure SameRecord (n : NdefRec) (r : NdefRecord) : Prop where
  tnf : r.tnf = n.tnf
  filled : n.tnf ≠ 0
  type : r.type = n.type
  id : r.id = n.id
  payload : r.payload = n.payload

theorem mkFlags_eq_mkHdr : ∀ (tnf : Fin 7) (mb me sr il : Bool),
    mkFlags (UInt8.ofNat tnf) mb me sr il = mkHdr tnf mb me sr il := by
  decide

theorem SameRecord.bytes {n : NdefRec} {r : NdefRecord} (h : SameRecord n r) (mb me : Bool) :
    writeRecord r mb me = (n.frame mb me).bytes := by
  obtain ⟨htnf, hfilled, htype, hid, hpay⟩ := h
  have hil : r.il = decide (n.id ≠ []) := by
    have hne : r.tnf ≠ 0 := by rwa [htnf, ne_eq, Fin.val_eq_zero_iff]
    rw [NdefRecord.il, if_neg hne, hid]
    exact decide_eq_decide.mpr List.length_pos_iff
  have hsr : r.sr = decide (n.payload.length < 256) := by rw [NdefRecord.sr, hpay]
  rw [n.bytes_frame, writeRecord, htnf, mkFlags_eq_mkHdr, hil, hsr, htype, hid, hpay, lenBytes, idBytes]
  by_cases hnil : n.id = [] <;> simp [NdefRec.hdr, hnil]

theorem written_same {ns : List NdefRec} {rs : List NdefRecord} (h : List.Forall₂ SameRecord ns rs) :
    ∀ mb, written mb rs = recsBytes (closed mb ns) := by
  induction h with
  | nil => exact fun _ => rfl
  | cons hr hrest ih =>
    intro mb
    rw [written, closed, recsBytes_cons, hr.bytes, ih]
    cases hrest <;> rfl

/-! ## Runs of the builder -/

/-- The record that a call asks for. A place that is only reserved has any content. -/
structure RecordOf (c : RecArgs) (r : NdefRecord) : Prop where
  tnf : r.tnf = c.known.tnf.toNat
  type : c.known.type.Gives r.type
  id : c.known.id.Gives r.id
  payload : c.known.payload.Gives r.payload

section Calls
variable {maxSize : Nat} {m m' : Msg} {ns : List NdefRec}

theorem exists_record (n : NdefRec) (hempty : n.tnf ≠ 0) (hunch : n.tnf ≠ 6) (hunknown : n.tnf = 5 → n.type = []) :
    ∃ r, SameRecord n r := by
  have hvalid : validateTnf n.tnf n.type n.id n.payload = none := by
    obtain ⟨tnf, type, id, payload⟩ := n
    unfold validateTnf
    dsimp only at hempty hunch hunknown ⊢
    fin_cases tnf
    · exact absurd rfl hempty
    iterate 4 rfl
    · exact if_neg (fun h => h (by rw [hunknown rfl]; rfl))
    · exact absurd rfl hunch
  exact ⟨⟨n.tnf, n.type, n.id, n.payload, hvalid⟩, rfl, hempty, rfl, rfl, rfl⟩

theorem addCall_record {c : RecArgs} (h : Holds maxSize m ns) (hvalid : c.known.Valid) (hfits : c.known.Fits m)
    (hcall : addCall maxSize m c = some m') :
    ∃ n r, Holds maxSize m' (ns ++ [n]) ∧ SameRecord n r ∧ RecordOf c r := by
  obtain ⟨⟨hempty, hunch, hres⟩, hunknown, -⟩ := hvalid
  obtain ⟨n, hholds, hlog, hty, hid, hpay⟩ := addCall_adds h hres hfits hcall
  have htnf : UInt8.ofNat n.tnf = c.known.tnf := hlog
  rw [← htnf] at hempty hunch hunknown
  obtain ⟨r, hr⟩ := exists_record n (fun h => hempty (by rw [h]; rfl)) (fun h => hunch (by rw [h]; rfl)) fun h => by
    rw [← List.length_eq_zero_iff, hty.length_eq]
    exact hunknown (by rw [h]; rfl)
  refine ⟨n, r, hholds, hr, ⟨?_, hr.type ▸ hty, hr.id ▸ hid, hr.payload ▸ hpay⟩⟩
  rw [hr.tnf, ← htnf, UInt8.toNat_ofNat_of_lt' (Nat.lt_trans n.tnf.isLt (by decide))]

theorem addCalls_records (calls : List RecArgs) : ∀ {m : Msg} {ns : List NdefRec}, Holds maxSize m ns →
    StepsOk (addCall maxSize) (fun m c => c.known.Valid ∧ c.known.Fits m) m calls →
    run (addCall maxSize) m calls = some m' →
    ∃ new rs, Holds maxSize m' (ns ++ new) ∧ List.Forall₂ SameRecord new rs ∧ List.Forall₂ RecordOf calls rs := by
  induction calls with
  | nil =>
    intro m ns h _ hrun
    obtain rfl := Option.some.inj hrun
    exact ⟨[], [], by rwa [List.append_nil], .nil, .nil⟩
  | cons c calls ih =>
    intro m ns h hok hrun
    rw [run_cons] at hrun
    obtain ⟨m₁, hcall, hrest⟩ := Option.bind_eq_some_iff.mp hrun
    obtain ⟨n, r, hholds, hsame, hrec⟩ := addCall_record h hok.1.1 hok.1.2 hcall
    obtain ⟨new, rs, hholds', hsames, hrecs⟩ := ih hholds (hok.2 m₁ hcall) hrest
    exact ⟨n :: new, r :: rs, by rwa [List.append_cons], .cons hsame hsames, .cons hrec hrecs⟩

end Calls

theorem built_read {maxSize : Nat} {mem : Bytes} {m₀ m : Msg} {calls : List RecArgs} (hmax : maxSize < 4294967296)
    (hinit : ndefMsgInit mem maxSize = some m₀) (hne : calls ≠ [])
    (hok : StepsOk (addCall maxSize) (fun m c => c.known.Valid ∧ c.known.Fits m) m₀ calls)
    (hrun : run (addCall maxSize) m₀ calls = some m) (hpay : ∀ c ∈ calls, c.payload.len ≤ maxPayloadSize)
    (hint : m.curSize < 2 ^ 31) :
    ∃ rs, List.Forall₂ RecordOf calls rs ∧ newNdefMessage (m.mem.take m.curSize) = .ok rs ∧
      toByteArray rs = some (m.mem.take m.curSize) := by
  obtain ⟨ns, rs, hholds, hsame, hrecs⟩ := addCalls_records calls (ndefMsgInit_holds hmax hinit) hok hrun
  obtain ⟨junk, hmem⟩ := hholds.mem
  have hbytes : m.mem.take m.curSize = written true rs := by
    rw [hmem, hholds.size, List.take_left]
    exact (written_same hsame true).symm
  have hlen : m.curSize = messageLength rs := by
    rw [← length_written rs true, written_same hsame]
    exact hholds.size
  have hbounded : ∀ r ∈ rs, Bounded r := by
    intro r hr
    obtain ⟨i, hi, rfl⟩ := List.mem_iff_getElem.mp hr
    have hlt : i < calls.length := hrecs.length_eq ▸ hi
    obtain ⟨-, htype, hid, hpayload⟩ := hrecs.get hlt hi
    refine ⟨?_, ?_, ?_⟩
    · exact Nat.le_of_lt_succ (htype.length_eq ▸ (calls[i]).known.type_lt)
    · exact Nat.le_of_lt_succ (hid.length_eq ▸ (calls[i]).known.id_lt)
    · have hknown : (calls.get ⟨i, hlt⟩).known.payload = (calls.get ⟨i, hlt⟩).payload := by
        unfold RecArgs.known
        split <;> rfl
      have hle := hpay (calls.get ⟨i, hlt⟩) (List.get_mem calls _)
      rw [← hknown, ← hpayload.length_eq] at hle
      exact hle
  have hrs : rs ≠ [] := by
    rintro rfl
    cases hrecs
    exact hne rfl
  refine ⟨rs, hrecs, ?_, ?_⟩
  · rw [hbytes]
    exact parse_written hrs hbounded
  · rw [toByteArray_eq, if_pos (hlen ▸ hint), hbytes]

theorem built_read_two :
    ∃ m rs, run (addCall 16) ⟨List.replicate 16 0, 0⟩ [textArgs, oddArgs] = some m ∧
      newNdefMessage (m.mem.take m.curSize) = .ok rs ∧ toByteArray rs = some (m.mem.take m.curSize) := by
  have hinit : ndefMsgInit (List.replicate 16 1) 16 = some ⟨List.replicate 16 0, 0⟩ := by decide +kernel
  obtain ⟨rs, -, hread, hwritten⟩ := built_read (by decide) hinit (List.cons_ne_nil textArgs [oddArgs])
    (by decide +kernel) (m := ⟨[0x91, 1, 2, 0x54, 7, 8, 0x5D, 0, 2, 1, 3, 0, 0, 0, 0, 0], 13⟩) (by decide +kernel)
    (by decide) (by decide)
  exact ⟨_, rs, by decide +kernel, hread, hwritten⟩

/-! ## From an application -/

structure Sendable (r : NdefRecord) : Prop where
  reserved : r.tnf ≠ 7
  ext : r.tnf = 4 → r.type ≠ []
  chars : r.tnf = 4 ∨ r.tnf = 1 → ∀ b ∈ r.type, ndefRtdValidStart ≤ b ∧ b ≤ ndefRtdValidEnd

section Sent
variable {allowChunks : Bool}

theorem placed_frame {r : NdefRecord} (h : Bounded r) {mb me : Bool} {count : Nat} (hmb : 0 < count → mb = false) :
    (h.frame mb me).Placed allowChunks count false ↔ Sendable r := by
  obtain ⟨hbm, -, -, hil, hcf, htnf⟩ := r.flags_bits mb me
  obtain ⟨hlt, h6⟩ := tnf_lt_of_valid r.valid
  have htoNat : (h.frame mb me).tnf.toNat = r.tnf :=
    (congrArg UInt8.toNat htnf).trans (UInt8.toNat_ofNat_of_lt' (Nat.lt_trans hlt (by decide)))
  have hnum : ∀ n : UInt8, (h.frame mb me).tnf = n ↔ r.tnf = n.toNat := fun n => by rw [← UInt8.toNat_inj, htoNat]
  have hunch : (h.frame mb me).tnf ≠ ndefTnfUnchanged := fun h => h6 ((hnum _).mp h)
  obtain ⟨hempty, hunknown, -⟩ := (validateTnf_iff hunch r.id r.payload).mp (by rw [htoNat]; exact r.valid)
  constructor
  · intro hp
    exact ⟨fun h7 => hp.rules.tnf ((hnum _).mpr h7), fun h4 => hp.rules.ext ((hnum _).mpr h4),
      fun ht => hp.rules.chars (ht.imp (hnum _).mpr (hnum _).mpr)⟩
  · intro hs
    refine ⟨⟨fun h7 => hs.reserved ((hnum _).mp h7), fun h0 => ⟨hil.mpr (if_pos ((hnum _).mp h0)), hempty h0⟩, hunknown,
      fun h4 => hs.ext ((hnum _).mp h4), fun ht => hs.chars (ht.imp (hnum _).mp (hnum _).mp)⟩, fun hpos hset => ?_,
      fun hc => absurd hc hcf, fun hc => absurd hc hcf, iff_of_false hunch Bool.false_ne_true, fun h => Bool.noConfusion h⟩
    exact Bool.noConfusion ((hmb hpos).symm.trans (hbm.mp hset))

theorem written_row (rs : List NdefRecord) : ∀ {mb : Bool} {count : Nat}, rs ≠ [] → (∀ r ∈ rs, Bounded r) →
    (0 < count → mb = false) →
    ∃ fs, written mb rs = recsBytes fs ∧ EndsOnce fs ∧ (mb = true → ∀ f ∈ fs.head?, f.mb) ∧
      (Row allowChunks count false fs ↔ ∀ r ∈ rs, Sendable r) := by
  induction rs with
  | nil => exact fun hne => absurd rfl hne
  | cons r rs ih =>
    intro mb count _ hb hmb
    have hr := hb r List.mem_cons_self
    obtain ⟨hbm, hme, -, -, hcf, -⟩ := r.flags_bits mb rs.isEmpty
    have hhead : ∀ fs : List Rec, mb = true → ∀ f ∈ (hr.frame mb rs.isEmpty :: fs).head?, f.mb := by
      intro fs hset f hf
      obtain rfl := Option.some.inj hf
      exact hbm.mpr hset
    have hplaced := @placed_frame allowChunks r hr mb rs.isEmpty count hmb
    rw [written, ← hr.bytes_frame, List.forall_mem_cons]
    cases rs with
    | nil => exact ⟨[hr.frame mb true], rfl, hme.mpr rfl, hhead [], and_congr hplaced (by simp [Row])⟩
    | cons r' rs =>
      obtain ⟨fs, hbytes, hends, -, hrow⟩ := @ih false (count + 1) (List.cons_ne_nil r' rs)
        (fun x hx => hb x (List.mem_cons_of_mem r hx)) fun _ => rfl
      refine ⟨hr.frame mb false :: fs, by rw [hbytes, recsBytes_cons]; rfl, ?_, hhead fs, ?_⟩
      · cases fs with
        | nil => exact hends.elim
        | cons f fs => exact ⟨fun hset => Bool.noConfusion (hme.mp hset), hends⟩
      · rw [Row, show decide (hr.frame mb false).cf = false from decide_eq_false hcf]
        exact and_congr hplaced hrow

end Sent

/-- A message that the framework reads back as it writes it is accepted by the native check, with or without
chunks, just when each of its records can be sent. -/
theorem written_validates {rs : List NdefRecord} {bytes : Bytes} (hrs : RoundTrips rs)
    (hbytes : toByteArray rs = some bytes) (allowChunks : Bool) :
    ndefMsgValidate (some bytes) (UInt32.ofNat bytes.length) allowChunks = some .ok ↔ ∀ r ∈ rs, Sendable r := by
  obtain ⟨_, -, hparse, -⟩ := hrs
  obtain ⟨hbounded, hne⟩ := parse_bounded hparse
  rw [toByteArray_eq] at hbytes
  split at hbytes
  case isFalse => cases hbytes
  case isTrue hlt =>
    obtain rfl := Option.some.inj hbytes
    obtain ⟨fs, hfs, hends, hmb, hrow⟩ := @written_row allowChunks rs true 0 hne hbounded fun h => absurd h (Nat.lt_irrefl 0)
    rw [← length_written rs true] at hlt
    rw [validate_row (UInt32.toNat_ofNat_of_lt' (Nat.lt_trans hlt (by decide))).symm hfs hends, ← hrow]
    exact and_iff_right (hmb rfl)

def uriRecord : NdefRecord := ⟨1, [0x55], [], [1, 0x61], rfl⟩

theorem written_validates_uri : ndefMsgValidate (some [0xD1, 1, 2, 0x55, 1, 0x61]) 6 false = some .ok := by
  have hrs : RoundTrips [uriRecord] := (roundTrips_iff (List.cons_ne_nil _ _)).mpr ⟨fun r hr => (by
    obtain rfl := List.mem_singleton.mp hr
    exact ⟨by decide, by decide, by decide⟩), by decide⟩
  refine (written_validates hrs ((toByteArray_eq _).trans (if_pos (by decide))) false).mpr fun r hr => ?_
  obtain rfl := List.mem_singleton.mp hr
  refine ⟨by decide, by decide, fun _ b hb => ?_⟩
  obtain rfl := List.mem_singleton.mp hb
  decide

end NfcStack.Framework
