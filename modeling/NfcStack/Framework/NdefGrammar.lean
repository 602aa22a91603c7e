import NfcStack.Framework.NdefAgree

/- The grammar of the messages that the parser of the framework accepts.

   A message is a list of runs. A run is a record that is not chunked, or a first chunk and
   the chunks behind it; it stands for one logical record.

   What is proved:
     1. `message_of_parseLoop`: what is parsed is a message, and its logical records are
        returned; `parseLoop_of_message`: every message is parsed so, whatever stands behind it.
     2. `parseLoop_message_iff`: both together. -/
namespace NfcStack.Framework
open NfcStack.Ndef

/-! ## The grammar -/

def endsMessage (rs : List Rec) : Bool := rs.getLast?.any fun r => decide r.me

/-- Chunks up to the last one, which is the first without CF. -/
def Chunks : List Rec → Prop
  | [] => False
  | r :: rs => IsChunk r ∧ if r.cf then ¬ r.me ∧ Chunks rs else rs = []

/-- A record, and the chunks behind it if it is chunked. -/
structure Run where
  first : Rec
  more : List Rec

namespace Run

def recs (run : Run) : List Rec := run.first :: run.more

/-- The payload of the logical record. -/
def payload (run : Run) : Bytes := run.recs.flatMap (·.payload)

structure Formed (run : Run) : Prop where
  tnf : run.first.tnf ≠ ndefTnfUnchanged
  chunks : if run.first.cf then
      ¬ run.first.me ∧ (run.first.type ≠ [] ∨ run.first.tnf = ndefTnfUnknown) ∧ Chunks run.more
    else run.more = []
  size : run.payload.length ≤ maxPayloadSize
  format : validateTnf run.first.tnf.toNat run.first.type run.first.id run.payload = none

def logical (run : Run) (h : run.Formed) : NdefRecord :=
  ⟨run.first.tnf.toNat, run.first.type, run.first.id, run.payload, h.format⟩

end Run

/-- Runs that make up a message: MB is on the first record only, ME on the last one only. -/
def Message : Bool → List Run → Prop
  | _, [] => False
  | start, run :: runs => run.Formed ∧ (run.first.mb ↔ start = true) ∧
      if endsMessage run.recs then runs = [] else Message false runs

/-- `records` are the logical records of the runs. -/
def Logical (runs : List Run) (records : List NdefRecord) : Prop :=
  List.Forall₂ (fun run record => ∃ h : run.Formed, record = run.logical h) runs records

def messageBytes (runs : List Run) : Bytes := recsBytes (runs.flatMap Run.recs)

/-! ## The loop -/

section Loop
variable {st : ParseState} {buf rest : Bytes} {records : List NdefRecord}

theorem parseLoop_succ_ok {n : Nat} : parseLoop false (n + 1) st buf = .ok (records, rest) ↔
    ∃ r st' buf', buf = r.bytes ++ buf' ∧ judgeRec false st r = .ok st' ∧
      if r.me then st'.records = records ∧ buf' = rest else parseLoop false n st' buf' = .ok (records, rest) := by
  constructor
  · intro h
    unfold parseLoop at h
    obtain ⟨⟨st', flag, buf'⟩, hrec, hok⟩ := bind_ok h
    obtain ⟨r, rfl, rfl⟩ := exists_rec_of_parseRecord hrec
    rw [parseRecord_bytes] at hrec
    obtain ⟨st'', hjudge, hsame⟩ := map_ok hrec
    obtain ⟨rfl, -, -⟩ : st'' = st' ∧ r.hdr = r.hdr ∧ buf' = buf' := by simpa using hsame
    refine ⟨r, st'', buf', rfl, hjudge, ?_⟩
    by_cases hme : r.me
    · rw [if_pos (.inl hme)] at hok
      rw [if_pos hme]
      exact Prod.mk.inj (Except.ok.inj hok)
    · rw [if_neg (by rintro (h | h); exacts [hme h, Bool.false_ne_true h.1])] at hok
      rw [if_neg hme]
      exact hok
  · rintro ⟨r, st', buf', rfl, hjudge, hend⟩
    rw [parseLoop, parseRecord_bytes, hjudge]
    dsimp only [Except.map, Except.bind]
    by_cases hme : r.me
    · rw [if_pos hme] at hend
      rw [if_pos (.inl hme), hend.1, hend.2]
    · rw [if_neg hme] at hend
      rw [if_neg (by rintro (h | h); exacts [hme h, Bool.false_ne_true h.1])]
      exact hend

theorem endsMessage_cons {r : Rec} {rs : List Rec} (h : rs ≠ []) : endsMessage (r :: rs) = endsMessage rs := by
  obtain ⟨a, l, rfl⟩ := List.exists_cons_of_ne_nil h
  rw [endsMessage, endsMessage, List.getLast?_cons_cons]

theorem endsMessage_single (r : Rec) : endsMessage [r] = decide r.me := rfl

theorem messageBytes_cons (run : Run) (runs : List Run) :
    messageBytes (run :: runs) = recsBytes run.recs ++ messageBytes runs := by
  rw [messageBytes, messageBytes, List.flatMap_cons, recsBytes, recsBytes, recsBytes, List.flatMap_append]

theorem Chunks.ne_nil {rs : List Rec} (h : Chunks rs) : rs ≠ [] := by
  rintro rfl
  exact h

theorem message_of_parseLoop (n : Nat) : ∀ {st : ParseState} {buf : Bytes},
    parseLoop false n st buf = .ok (records, rest) →
    (st.inChunk = false → ∃ runs new, buf = messageBytes runs ++ rest ∧ Message (decide (st.records = [])) runs ∧
      Logical runs new ∧ records = st.records ++ new) ∧
    (st.inChunk = true → ∃ more runs new, buf = recsBytes more ++ (messageBytes runs ++ rest) ∧ Chunks more ∧
      (st.chunks.flatten ++ more.flatMap (·.payload)).length ≤ maxPayloadSize ∧
      (if endsMessage more then runs = [] else Message false runs) ∧ Logical runs new ∧
      ∃ h : validateTnf st.chunkTnf st.type st.id (st.chunks.flatten ++ more.flatMap (·.payload)) = none,
        records = st.records ++ ⟨st.chunkTnf, st.type, st.id, st.chunks.flatten ++ more.flatMap (·.payload), h⟩ :: new) := by
  induction n with
  | zero => nofun
  | succ n ih =>
    intro st buf hloop
    obtain ⟨r, st', buf', rfl, hjudge, hend⟩ := parseLoop_succ_ok.mp hloop
    constructor
    · intro hin
      obtain ⟨hmb, htnf, hme, hsize, hkind⟩ := (judgeRec_open_iff hin).mp hjudge
      by_cases hcf : r.cf
      · -- the first chunk of a run
        rw [if_pos hcf] at hkind
        obtain ⟨htype, rfl⟩ := hkind
        have hnot : ¬ r.me := fun h => hme ⟨hcf, h⟩
        rw [if_neg hnot] at hend
        obtain ⟨more, runs, new, rfl, hchunks, htotal, htail, hnew, hformat, rfl⟩ := (ih hend).2 rfl
        have hpay : [r.payload].flatten ++ more.flatMap (·.payload) = (Run.mk r more).payload := by
          simp [Run.payload, Run.recs]
        have hformed : (Run.mk r more).Formed :=
          ⟨htnf, by rw [if_pos hcf]; exact ⟨hnot, htype, hchunks⟩, hpay ▸ htotal, hpay ▸ hformat⟩
        refine ⟨⟨r, more⟩ :: runs, (Run.mk r more).logical hformed :: new, ?_, ?_, ?_, ?_⟩
        · rw [messageBytes_cons, Run.recs, recsBytes_cons]
          simp only [List.append_assoc]
        · refine ⟨hformed, by simpa using hmb, ?_⟩
          rw [Run.recs, endsMessage_cons hchunks.ne_nil]
          exact htail
        · exact .cons ⟨hformed, rfl⟩ hnew
        · simp [Run.logical, Run.payload, Run.recs]
      · -- a record that is not chunked
        rw [if_neg hcf] at hkind
        obtain ⟨hformat, rfl⟩ := hkind
        have hpay : (Run.mk r []).payload = r.payload := by simp [Run.payload, Run.recs]
        have hformed : (Run.mk r []).Formed :=
          ⟨htnf, by rw [if_neg hcf], by rw [hpay]; exact hsize, by rw [hpay]; exact hformat⟩
        have hlog : (Run.mk r []).logical hformed = ⟨r.tnf.toNat, r.type, r.id, r.payload, hformat⟩ := by
          simp [Run.logical, hpay]
        have hone : recsBytes (Run.mk r []).recs = r.bytes := by simp [Run.recs, recsBytes]
        by_cases hlast : r.me
        · rw [if_pos hlast] at hend
          obtain ⟨rfl, rfl⟩ := hend
          refine ⟨[⟨r, []⟩], [(Run.mk r []).logical hformed], ?_, ?_, .cons ⟨hformed, rfl⟩ .nil, by rw [hlog]⟩
          · rw [messageBytes_cons, hone]
            simp [messageBytes, recsBytes]
          · refine ⟨hformed, by simpa using hmb, ?_⟩
            rw [Run.recs, endsMessage_single, if_pos (decide_eq_true hlast)]
        · rw [if_neg hlast] at hend
          obtain ⟨runs, new, rfl, hmessage, hnew, rfl⟩ := (ih hend).1 hin
          refine ⟨⟨r, []⟩ :: runs, (Run.mk r []).logical hformed :: new, ?_, ?_, .cons ⟨hformed, rfl⟩ hnew, ?_⟩
          · rw [messageBytes_cons, hone, List.append_assoc]
          · refine ⟨hformed, by simpa using hmb, ?_⟩
            rw [Run.recs, endsMessage_single, if_neg (by simpa using hlast)]
            simpa using hmessage
          · rw [hlog]
            simp
    · intro hin
      obtain ⟨hchunk, hme, hsize, hkind⟩ := (judgeRec_chunk_iff hin).mp hjudge
      by_cases hcf : r.cf
      · rw [if_pos hcf] at hkind
        obtain rfl := hkind
        have hnot : ¬ r.me := fun h => hme ⟨hcf, h⟩
        rw [if_neg hnot] at hend
        obtain ⟨more, runs, new, rfl, hchunks, htotal, htail, hnew, hformat, rfl⟩ := (ih hend).2 hin
        have hpay : (st.chunks ++ [r.payload]).flatten ++ more.flatMap (·.payload) =
            st.chunks.flatten ++ (r :: more).flatMap (·.payload) := by simp
        refine ⟨r :: more, runs, new, ?_, ?_, hpay ▸ htotal, ?_, hnew, hpay ▸ hformat, ?_⟩
        · rw [recsBytes_cons]
          simp only [List.append_assoc]
        · rw [Chunks, if_pos hcf]
          exact ⟨hchunk, hnot, hchunks⟩
        · rw [endsMessage_cons hchunks.ne_nil]
          exact htail
        · simp
      · -- the last chunk of the run
        rw [if_neg hcf] at hkind
        obtain ⟨htotal, hformat, rfl⟩ := hkind
        have hpay : (st.chunks ++ [r.payload]).flatten = st.chunks.flatten ++ [r].flatMap (·.payload) := by simp
        have hone : recsBytes [r] = r.bytes := by simp [recsBytes]
        have hchunks : Chunks [r] := by
          rw [Chunks, if_neg hcf]
          exact ⟨hchunk, rfl⟩
        by_cases hlast : r.me
        · rw [if_pos hlast] at hend
          obtain ⟨rfl, rfl⟩ := hend
          refine ⟨[r], [], [], ?_, hchunks, hpay ▸ htotal, ?_, .nil, hpay ▸ hformat, ?_⟩
          · rw [hone]
            simp [messageBytes, recsBytes]
          · rw [endsMessage_single, if_pos (decide_eq_true hlast)]
          · simp
        · rw [if_neg hlast] at hend
          obtain ⟨runs, new, rfl, hmessage, hnew, rfl⟩ := (ih hend).1 rfl
          refine ⟨[r], runs, new, by rw [hone], hchunks, hpay ▸ htotal, ?_, hnew, hpay ▸ hformat, ?_⟩
          · rw [endsMessage_single, if_neg (by simpa using hlast)]
            simpa using hmessage
          · simp

/-! ## Messages are parsed -/

theorem parseLoop_chunks (more : List Rec) : ∀ {st : ParseState} (n : Nat), Chunks more → st.inChunk = true →
    (st.chunks.flatten ++ more.flatMap (·.payload)).length ≤ maxPayloadSize →
    ∀ h : validateTnf st.chunkTnf st.type st.id (st.chunks.flatten ++ more.flatMap (·.payload)) = none,
    ∃ st' : ParseState, st'.inChunk = false ∧
      st'.records = st.records ++ [⟨st.chunkTnf, st.type, st.id, st.chunks.flatten ++ more.flatMap (·.payload), h⟩] ∧
      parseLoop false (n + more.length) st (recsBytes more ++ rest) =
        if endsMessage more then .ok (st'.records, rest) else parseLoop false n st' rest := by
  induction more with
  | nil => exact fun _ h => h.elim
  | cons r more ih =>
    intro st n hchunks hin hsize hformat
    obtain ⟨hchunk, hkind⟩ := hchunks
    have hpay : (st.chunks ++ [r.payload]).flatten ++ more.flatMap (·.payload) =
        st.chunks.flatten ++ (r :: more).flatMap (·.payload) := by simp
    have hone : r.payload.length ≤ maxPayloadSize := by
      simp only [List.flatMap_cons, List.length_append] at hsize
      omega
    by_cases hcf : r.cf
    · rw [if_pos hcf] at hkind
      obtain ⟨hnot, hrest⟩ := hkind
      have hjudge : judgeRec false st r = .ok { st with chunks := st.chunks ++ [r.payload] } := by
        rw [judgeRec_chunk_iff hin, if_pos hcf]
        exact ⟨hchunk, fun h => hnot h.2, hone, rfl⟩
      obtain ⟨st', hin', hrecords, hloop⟩ := @ih { st with chunks := st.chunks ++ [r.payload] } n hrest hin
        (hpay ▸ hsize) (hpay ▸ hformat)
      refine ⟨st', hin', ?_, ?_⟩
      · rw [hrecords]
        simp
      · rw [endsMessage_cons hrest.ne_nil, ← hloop, List.length_cons, ← Nat.add_assoc, parseLoop, recsBytes_cons,
          List.append_assoc, parseRecord_bytes, hjudge]
        dsimp only [Except.map, Except.bind]
        rw [if_neg (by rintro (h | h); exacts [hnot h, Bool.false_ne_true h.1])]
    · rw [if_neg hcf] at hkind
      obtain rfl := hkind
      have hflat : (st.chunks ++ [r.payload]).flatten = st.chunks.flatten ++ [r].flatMap (·.payload) := by simp
      have hformat' : validateTnf st.chunkTnf st.type st.id (st.chunks ++ [r.payload]).flatten = none := hflat ▸ hformat
      have hjudge := (judgeRec_chunk_iff (r := r) hin).mpr
        ⟨hchunk, fun h => hcf h.1, hone, by rw [if_neg hcf]; exact ⟨hflat ▸ hsize, hformat', rfl⟩⟩
      refine ⟨{ st with
        chunks := st.chunks ++ [r.payload]
        records := st.records ++ [⟨st.chunkTnf, st.type, st.id, (st.chunks ++ [r.payload]).flatten, hformat'⟩]
        inChunk := false }, rfl, ?_, ?_⟩
      · simp only [hflat]
      · rw [endsMessage_single, List.length_singleton, parseLoop, recsBytes_cons, List.append_assoc, parseRecord_bytes,
          hjudge]
        dsimp only [Except.map, Except.bind]
        by_cases hme : r.me
        · rw [if_pos (.inl hme), if_pos (decide_eq_true hme)]
          rfl
        · rw [if_neg (by rintro (h | h); exacts [hme h, Bool.false_ne_true h.1]), if_neg (by simpa using hme)]
          rfl

theorem parseLoop_run {run : Run} (hrun : run.Formed) {st : ParseState} (n : Nat) (hin : st.inChunk = false)
    (hmb : run.first.mb ↔ st.records = []) :
    ∃ st' : ParseState, st'.inChunk = false ∧ st'.records = st.records ++ [run.logical hrun] ∧
      parseLoop false (n + run.recs.length) st (recsBytes run.recs ++ rest) =
        if endsMessage run.recs then .ok (st'.records, rest) else parseLoop false n st' rest := by
  obtain ⟨r, more⟩ := run
  obtain ⟨htnf, hkind, hsize, hformat⟩ := id hrun
  have hone : r.payload.length ≤ maxPayloadSize := by
    simp only [Run.payload, Run.recs, List.flatMap_cons, List.length_append] at hsize
    omega
  dsimp only at htnf hkind hformat hmb
  by_cases hcf : r.cf
  · rw [if_pos hcf] at hkind
    obtain ⟨hnot, htype, hchunks⟩ := hkind
    have hpay : [r.payload].flatten ++ more.flatMap (·.payload) = (Run.mk r more).payload := by
      simp [Run.payload, Run.recs]
    have hjudge : judgeRec false st r = .ok ⟨st.records, r.type, r.id, [r.payload], true, r.tnf.toNat⟩ := by
      rw [judgeRec_open_iff hin, if_pos hcf]
      exact ⟨hmb, htnf, fun h => hnot h.2, hone, htype, rfl⟩
    obtain ⟨st', hin', hrecords, hloop⟩ := @parseLoop_chunks rest more
      ⟨st.records, r.type, r.id, [r.payload], true, r.tnf.toNat⟩ n hchunks rfl (hpay ▸ hsize) (hpay ▸ hformat)
    refine ⟨st', hin', ?_, ?_⟩
    · rw [hrecords]
      simp [Run.logical, Run.payload, Run.recs]
    · rw [Run.recs, endsMessage_cons hchunks.ne_nil, ← hloop, List.length_cons, ← Nat.add_assoc, parseLoop,
        recsBytes_cons, List.append_assoc, parseRecord_bytes, hjudge]
      dsimp only [Except.map, Except.bind]
      rw [if_neg (by rintro (h | h); exacts [hnot h, Bool.false_ne_true h.1])]
  · rw [if_neg hcf] at hkind
    obtain rfl := hkind
    have hpay : (Run.mk r []).payload = r.payload := by simp [Run.payload, Run.recs]
    have hformat' : validateTnf r.tnf.toNat r.type r.id r.payload = none := hpay ▸ hformat
    have hjudge := (judgeRec_open_iff (r := r) hin).mpr
      ⟨hmb, htnf, fun h => hcf h.1, hone, by rw [if_neg hcf]; exact ⟨hformat', rfl⟩⟩
    refine ⟨{ st with
      type := r.type, id := r.id
      records := st.records ++ [⟨r.tnf.toNat, r.type, r.id, r.payload, hformat'⟩] }, hin, ?_, ?_⟩
    · simp [Run.logical, hpay]
    · rw [Run.recs, endsMessage_single, List.length_singleton, parseLoop, recsBytes_cons, List.append_assoc,
        parseRecord_bytes, hjudge]
      dsimp only [Except.map, Except.bind]
      by_cases hme : r.me
      · rw [if_pos (.inl hme), if_pos (decide_eq_true hme)]
        rfl
      · rw [if_neg (by rintro (h | h); exacts [hme h, Bool.false_ne_true h.1]), if_neg (by simpa using hme)]
        rfl

theorem parseLoop_of_message (runs : List Run) : ∀ {start : Bool} {st : ParseState} (n : Nat), Message start runs →
    st.inChunk = false → (start = true ↔ st.records = []) →
    ∃ new, Logical runs new ∧ parseLoop false (n + (runs.flatMap Run.recs).length) st (messageBytes runs ++ rest) =
      .ok (st.records ++ new, rest) := by
  induction runs with
  | nil => exact fun _ h => h.elim
  | cons run runs ih =>
    intro start st n hmessage hin hstart
    obtain ⟨hrun, hmb, htail⟩ := hmessage
    have hlen : n + ((run :: runs).flatMap Run.recs).length =
        n + (runs.flatMap Run.recs).length + run.recs.length := by
      rw [List.flatMap_cons, List.length_append]
      omega
    obtain ⟨st', hin', hrecords, hloop⟩ := @parseLoop_run (messageBytes runs ++ rest) _ hrun _
      (n + (runs.flatMap Run.recs).length) hin (hmb.trans hstart)
    rw [hlen, messageBytes_cons, List.append_assoc, hloop]
    by_cases hends : endsMessage run.recs = true
    · rw [if_pos hends] at htail ⊢
      obtain rfl := htail
      exact ⟨[run.logical hrun], .cons ⟨hrun, rfl⟩ .nil, by rw [hrecords]; rfl⟩
    · rw [if_neg hends] at htail ⊢
      have hsome : false = true ↔ st'.records = [] := by simp [hrecords]
      obtain ⟨new, hnew, hrest⟩ := ih n htail hin' hsome
      exact ⟨run.logical hrun :: new, .cons ⟨hrun, rfl⟩ hnew, by rw [hrest, hrecords]; simp⟩

end Loop

theorem Message.exists_logical {runs : List Run} : ∀ {first : Bool}, Message first runs → ∃ records, Logical runs records := by
  induction runs with
  | nil => exact fun h => h.elim
  | cons run runs ih =>
    rintro first ⟨hrun, -, htail⟩
    split at htail
    · obtain rfl := htail
      exact ⟨[run.logical hrun], .cons ⟨hrun, rfl⟩ .nil⟩
    · obtain ⟨records, hrecords⟩ := ih htail
      exact ⟨run.logical hrun :: records, .cons ⟨hrun, rfl⟩ hrecords⟩

theorem Logical.unique {runs : List Run} {a b : List NdefRecord} (ha : Logical runs a) (hb : Logical runs b) : a = b := by
  induction ha generalizing b with
  | nil =>
    cases hb
    rfl
  | cons h1 _ ih =>
    cases hb with
    | cons h2 hb =>
      obtain ⟨_, rfl⟩ := h1
      obtain ⟨_, rfl⟩ := h2
      rw [ih hb]

theorem parseLoop_message_iff {st : ParseState} (hin : st.inChunk = false) (hempty : st.records = []) {buf rest : Bytes}
    {records : List NdefRecord} : parseLoop false (buf.length + 1) st buf = .ok (records, rest) ↔
      ∃ runs, buf = messageBytes runs ++ rest ∧ Message true runs ∧ Logical runs records := by
  constructor
  · intro h
    obtain ⟨runs, new, hbuf, hmessage, hnew, hrecords⟩ := (message_of_parseLoop _ h).1 hin
    rw [hempty, List.nil_append] at hrecords
    rw [hrecords]
    exact ⟨runs, hbuf, by simpa [hempty] using hmessage, hnew⟩
  · rintro ⟨runs, rfl, hmessage, hlogical⟩
    have hthree : (runs.flatMap Run.recs).length ≤ (messageBytes runs ++ rest).length + 1 := by
      have := length_le_recsLen (runs.flatMap Run.recs)
      have hlen : (messageBytes runs).length = recsLen (runs.flatMap Run.recs) := rfl
      rw [List.length_append, hlen]
      omega
    obtain ⟨n, hn⟩ := Nat.exists_eq_add_of_le' hthree
    obtain ⟨new, hnew, hloop⟩ := @parseLoop_of_message rest runs _ _ n hmessage hin (by simp [hempty])
    rw [hn, hloop, hempty, List.nil_append, hnew.unique hlogical]

end NfcStack.Framework
