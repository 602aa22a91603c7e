import NfcStack.Ce.T3t

/- The blocks that a frame to the emulated Type 3 tag names, as a list. The loops over a
   frame go through this list up to the first block that is refused; each block before it
   is read, or takes effect.

   What is proved:
     1. `checkLoop_eq`, `updateLoop_eq`: the loops over the frame are loops over the list.
     2. `checkBlocks_eq`, `updateBlocks_eq`: what they return, if no block reaches outside
        the buffer; `checkBlocks_fault`, `updateBlocks_fault`: if one does, they fault.
     3. `handles_tagCmd`: what a frame comes to. -/
namespace NfcStack.Ce
open NfcStack.Lib

/-! ## Lists of blocks -/

/-- The blocks named by the `n` entries from `p` on. -/
def blocksFrom (services : List Nat) (msg : Bytes) : Nat → Nat → List Block
  | 0, _ => []
  | n + 1, p => blockAt services msg p :: blocksFrom services msg n (p + entryLen msg p)

/-- The data of the `n` blocks from `pd` on. -/
def dataFrom (msg : Bytes) : Nat → Nat → List Bytes
  | 0, _ => []
  | n + 1, pd => slice msg pd t3tMsgBlocksize :: dataFrom msg n (pd + t3tMsgBlocksize)

def checkBlocks (info : NdefInfo) (numBlocks : Nat) : List Block → Bytes → Option (Option Bytes)
  | [], acc => some (some acc)
  | b :: bs, acc =>
    match checkBlock info numBlocks b with
    | none => none
    | some none => some none
    | some (some data) => checkBlocks info numBlocks bs (acc ++ data)

def updateBlocks (numBlocks : Nat) : List (Block × Bytes) → UpdateState → Option UpdateState
  | [], st => some st
  | x :: xs, st =>
    match updateBlock numBlocks x.1 x.2 st with
    | none => none
    | some (st, false) => some st
    | some (st, true) => updateBlocks numBlocks xs st

theorem checkLoop_eq (info : NdefInfo) (numBlocks : Nat) (services : List Nat) (msg : Bytes) (n : Nat) :
    ∀ p acc, checkLoop info numBlocks services msg n p acc =
      checkBlocks info numBlocks (blocksFrom services msg n p) acc := by
  induction n with
  | zero => exact fun _ _ => rfl
  | succ n ih =>
    intro p acc
    unfold checkLoop blocksFrom checkBlocks
    rcases checkBlock info numBlocks (blockAt services msg p) with _ | _ | data
    · rfl
    · rfl
    · exact ih _ _

theorem updateLoop_eq (numBlocks : Nat) (services : List Nat) (msg : Bytes) (n : Nat) :
    ∀ p pd st, updateLoop numBlocks services msg n p pd st =
      updateBlocks numBlocks ((blocksFrom services msg n p).zip (dataFrom msg n pd)) st := by
  induction n with
  | zero => exact fun _ _ _ => rfl
  | succ n ih =>
    intro p pd st
    unfold updateLoop blocksFrom dataFrom
    rw [List.zip_cons_cons]
    unfold updateBlocks
    dsimp only
    rcases updateBlock numBlocks (blockAt services msg p) (slice msg pd t3tMsgBlocksize) st with
      _ | ⟨st', _ | _⟩
    · rfl
    · rfl
    · exact ih _ _ _

theorem length_blocksFrom (services : List Nat) (msg : Bytes) (n : Nat) :
    ∀ p, (blocksFrom services msg n p).length = n := by
  induction n with
  | zero => exact fun _ => rfl
  | succ n ih => exact fun p => congrArg (· + 1) (ih _)

theorem length_dataFrom (msg : Bytes) (n : Nat) : ∀ pd, (dataFrom msg n pd).length = n := by
  induction n with
  | zero => exact fun _ => rfl
  | succ n ih => exact fun pd => congrArg (· + 1) (ih _)

/-- Behind the block list there is a block of data for each entry. -/
theorem length_of_mem_dataFrom (msg : Bytes) (n : Nat) : ∀ {pd : Nat} {d : Bytes},
    pd + n * t3tMsgBlocksize ≤ msg.length → d ∈ dataFrom msg n pd → d.length = t3tMsgBlocksize := by
  induction n with
  | zero => intro pd d _ hd; cases hd
  | succ n ih =>
    intro pd d hle hd
    have hle' : pd + (n + 1) * 16 ≤ msg.length := hle
    rcases List.mem_cons.mp hd with rfl | hd
    · exact length_slice (show pd + 16 ≤ msg.length by omega)
    · exact ih (show pd + 16 + n * 16 ≤ msg.length by omega) hd

/-! ## Blocks that are accepted -/

section Blocks
variable {info : NdefInfo} {numBlocks size : Nat} {b : Block} {data : Bytes} {st : UpdateState}

def acceptsCheck (info : NdefInfo) (numBlocks : Nat) (b : Block) : Bool :=
  (b.service == t3tMsgNdefScRo || b.service == t3tMsgNdefScRw) && decide (numBlocks ≤ info.nbr.toNat) &&
    decide (b.number ≤ info.nmaxb)

def acceptsUpdate (info : NdefInfo) (numBlocks : Nat) (b : Block) : Bool :=
  b.service == t3tMsgNdefScRw && decide (numBlocks ≤ info.nbw.toNat) && info.rwflag != rwflagRo &&
    decide (b.number ≤ info.nmaxb)

/-- The block lies in a buffer of `size` bytes. -/
def Fits (size : Nat) (b : Block) : Prop := b.number = 0 ∨ b.number * t3tMsgBlocksize ≤ size

instance (size : Nat) (b : Block) : Decidable (Fits size b) := inferInstanceAs (Decidable (_ ∨ _))

/-- The buffer that the card is read from. -/
def NdefInfo.card (info : NdefInfo) : Bytes :=
  if info.isRw then info.scratchBuf.getD [] else info.buf

def NdefInfo.blockBytes (info : NdefInfo) (b : Block) : Bytes :=
  if b.number = 0 then
    if info.isRw then attrBlock info info.scratchWritef info.scratchLn
    else attrBlock info info.writef info.ln
  else slice info.card ((b.number - 1) * t3tMsgBlocksize) t3tMsgBlocksize

theorem checkBlock_accepted (hacc : acceptsCheck info numBlocks b = true) (hfit : Fits info.card.length b) :
    checkBlock info numBlocks b = some (some (info.blockBytes b)) := by
  unfold acceptsCheck at hacc
  simp only [Bool.and_eq_true, Bool.or_eq_true, beq_iff_eq, decide_eq_true_eq] at hacc
  obtain ⟨⟨hservice, hcount⟩, hnumber⟩ := hacc
  unfold checkBlock NdefInfo.blockBytes
  rw [if_pos hservice, if_neg (not_lt.mpr hcount)]
  split
  · rfl
  · rename_i hne
    have hin : (b.number - 1) * t3tMsgBlocksize + t3tMsgBlocksize ≤ info.card.length := by
      have hle : b.number * 16 ≤ info.card.length := hfit.resolve_left hne
      show (b.number - 1) * 16 + 16 ≤ _
      omega
    rw [if_neg (not_lt.mpr hnumber)]
    show (readAt info.card _ _).map some = _
    rw [show readAt info.card _ _ = some _ from if_pos hin]
    rfl

theorem checkBlock_fault (hacc : acceptsCheck info numBlocks b = true)
    (hfit : ¬ Fits info.card.length b) : checkBlock info numBlocks b = none := by
  unfold acceptsCheck at hacc
  simp only [Bool.and_eq_true, Bool.or_eq_true, beq_iff_eq, decide_eq_true_eq] at hacc
  obtain ⟨⟨hservice, hcount⟩, hnumber⟩ := hacc
  obtain ⟨hne, hover⟩ := not_or.mp hfit
  have hout : ¬ (b.number - 1) * t3tMsgBlocksize + t3tMsgBlocksize ≤ info.card.length := by
    have hover' : ¬ b.number * 16 ≤ info.card.length := hover
    show ¬ (b.number - 1) * 16 + 16 ≤ _
    omega
  unfold checkBlock
  rw [if_pos hservice, if_neg (not_lt.mpr hcount), if_neg hne, if_neg (not_lt.mpr hnumber)]
  show (readAt info.card _ _).map some = _
  rw [show readAt info.card _ _ = none from if_neg hout]
  rfl

theorem checkBlock_refused (hacc : ¬ acceptsCheck info numBlocks b = true) :
    checkBlock info numBlocks b = some none := by
  unfold acceptsCheck at hacc
  simp only [Bool.and_eq_true, Bool.or_eq_true, beq_iff_eq, decide_eq_true_eq, not_and] at hacc
  unfold checkBlock
  split
  · rename_i hservice
    split
    · rfl
    · rename_i hcount
      have hnumber := hacc ⟨hservice, not_lt.mp hcount⟩
      rw [if_neg (by omega), if_pos (not_le.mp hnumber)]
  · rfl

theorem checkBlocks_eq {bs : List Block} :
    (∀ b ∈ bs.takeWhile (acceptsCheck info numBlocks), Fits info.card.length b) → ∀ acc,
      checkBlocks info numBlocks bs acc =
        some (if bs.all (acceptsCheck info numBlocks) then some (acc ++ bs.flatMap info.blockBytes)
          else none) := by
  induction bs with
  | nil =>
    intro _ acc
    simp [checkBlocks]
  | cons b bs ih =>
    intro hfit acc
    unfold checkBlocks
    by_cases hacc : acceptsCheck info numBlocks b = true
    · rw [List.takeWhile_cons_of_pos hacc] at hfit
      rw [checkBlock_accepted hacc (hfit b (by simp))]
      dsimp only
      rw [ih (fun c hc => hfit c (by simp [hc])), List.all_cons, hacc, Bool.true_and, List.flatMap_cons,
        List.append_assoc]
    · rw [checkBlock_refused hacc]
      simp [hacc]

theorem checkBlocks_fault {bs : List Block} :
    (¬ ∀ b ∈ bs.takeWhile (acceptsCheck info numBlocks), Fits info.card.length b) → ∀ acc,
      checkBlocks info numBlocks bs acc = none := by
  induction bs with
  | nil => exact fun hfit => absurd (by simp) hfit
  | cons b bs ih =>
    intro hfit acc
    unfold checkBlocks
    by_cases hacc : acceptsCheck info numBlocks b = true
    · rw [List.takeWhile_cons_of_pos hacc] at hfit
      by_cases hb : Fits info.card.length b
      · rw [checkBlock_accepted hacc hb]
        refine ih (fun hall => hfit fun c hc => ?_) _
        rcases List.mem_cons.mp hc with rfl | hc
        · exact hb
        · exact hall c hc
      · rw [checkBlock_fault hacc hb]
    · rw [List.takeWhile_cons_of_neg hacc] at hfit
      exact absurd (by simp) hfit

/-! ## Blocks that take effect -/

/-- The effect of a block that is accepted. -/
def effect (st : UpdateState) (x : Block × Bytes) : UpdateState :=
  if x.1.number = 0 then updateAttr x.2 st
  else { st with
    info := { st.info with
      scratchBuf := st.info.scratchBuf.map fun buf => blit buf ((x.1.number - 1) * t3tMsgBlocksize) x.2 }
    update := true }

/-- What an UPDATE does not change: all but the scratch attributes and buffer. -/
structure SameParams (a b : NdefInfo) : Prop where
  nbr : b.nbr = a.nbr
  nbw : b.nbw = a.nbw
  nmaxb : b.nmaxb = a.nmaxb
  rwflag : b.rwflag = a.rwflag
  version : b.version = a.version
  initialized : b.initialized = a.initialized
  buf : b.buf = a.buf
  scratch : b.scratchBuf.map List.length = a.scratchBuf.map List.length

theorem SameParams.refl (a : NdefInfo) : SameParams a a := ⟨rfl, rfl, rfl, rfl, rfl, rfl, rfl, rfl⟩

theorem SameParams.trans {a b c : NdefInfo} (h : SameParams a b) (h' : SameParams b c) :
    SameParams a c :=
  ⟨h'.nbr.trans h.nbr, h'.nbw.trans h.nbw, h'.nmaxb.trans h.nmaxb, h'.rwflag.trans h.rwflag,
    h'.version.trans h.version, h'.initialized.trans h.initialized, h'.buf.trans h.buf,
    h'.scratch.trans h.scratch⟩

theorem SameParams.accepts {a b : NdefInfo} (h : SameParams a b) (numBlocks : Nat) :
    acceptsUpdate b numBlocks = acceptsUpdate a numBlocks := by
  funext c
  unfold acceptsUpdate
  rw [h.nbw, h.nmaxb, h.rwflag]

theorem updateAttr_params (data : Bytes) (st : UpdateState) :
    SameParams st.info (updateAttr data st).info := by
  unfold updateAttr
  split
  · exact SameParams.refl _
  · dsimp only
    split
    · exact ⟨rfl, rfl, rfl, rfl, rfl, rfl, rfl, rfl⟩
    · exact ⟨rfl, rfl, rfl, rfl, rfl, rfl, rfl, rfl⟩

/-- The scratch buffer, where there is one to write to, has `size` bytes. -/
def Writable (size : Nat) (info : NdefInfo) : Prop :=
  info.rwflag ≠ rwflagRo → ∃ buf, info.scratchBuf = some buf ∧ buf.length = size

theorem Writable.same {a b : NdefInfo} (h : Writable size a) (hs : SameParams a b) : Writable size b := by
  intro hrw
  rw [hs.rwflag] at hrw
  obtain ⟨buf, hbuf, hlen⟩ := h hrw
  have hmap := hs.scratch
  rw [hbuf] at hmap
  obtain ⟨buf', hbuf', hlen'⟩ := Option.map_eq_some_iff.mp hmap
  exact ⟨buf', hbuf', hlen'.trans hlen⟩

variable {x : Block × Bytes}

theorem effect_params (hbuf : Writable size st.info)
    (hacc : acceptsUpdate st.info numBlocks x.1 = true) (hfit : Fits size x.1)
    (hdata : x.2.length = t3tMsgBlocksize) : SameParams st.info (effect st x).info := by
  unfold effect
  split
  · exact updateAttr_params _ _
  · rename_i hne
    refine ⟨rfl, rfl, rfl, rfl, rfl, rfl, rfl, ?_⟩
    unfold acceptsUpdate at hacc
    simp only [Bool.and_eq_true, bne_iff_ne] at hacc
    obtain ⟨buf, hb, hlen⟩ := hbuf hacc.1.2
    have hin : (x.1.number - 1) * t3tMsgBlocksize + x.2.length ≤ buf.length := by
      have hle : x.1.number * 16 ≤ size := hfit.resolve_left hne
      rw [hdata, hlen]
      show (x.1.number - 1) * 16 + 16 ≤ _
      omega
    show (st.info.scratchBuf.map _).map List.length = _
    rw [hb]
    exact congrArg some (length_blit hin)

theorem updateBlock_accepted (hbuf : Writable size st.info)
    (hacc : acceptsUpdate st.info numBlocks x.1 = true) (hfit : Fits size x.1)
    (hdata : x.2.length = t3tMsgBlocksize) :
    updateBlock numBlocks x.1 x.2 st = some (effect st x, true) := by
  unfold acceptsUpdate at hacc
  simp only [Bool.and_eq_true, beq_iff_eq, decide_eq_true_eq, bne_iff_ne] at hacc
  obtain ⟨⟨⟨hservice, hcount⟩, hrw⟩, hnumber⟩ := hacc
  obtain ⟨buf, hb, hlen⟩ := hbuf hrw
  unfold updateBlock effect
  dsimp only
  rw [if_neg (by rw [hservice]; decide), if_pos hservice, if_neg (not_lt.mpr hcount), if_neg hrw]
  split
  · rfl
  · rename_i hne
    have hin : (x.1.number - 1) * t3tMsgBlocksize + x.2.length ≤ buf.length := by
      have hle : x.1.number * 16 ≤ size := hfit.resolve_left hne
      rw [hdata, hlen]
      show (x.1.number - 1) * 16 + 16 ≤ _
      omega
    rw [if_neg (not_lt.mpr hnumber), hb]
    show (writeAt buf _ _).map _ = _
    rw [show writeAt buf _ _ = some _ from if_pos hin]
    rfl

theorem updateBlock_fault (hbuf : Writable size st.info)
    (hacc : acceptsUpdate st.info numBlocks x.1 = true) (hfit : ¬ Fits size x.1)
    (hdata : x.2.length = t3tMsgBlocksize) : updateBlock numBlocks x.1 x.2 st = none := by
  unfold acceptsUpdate at hacc
  simp only [Bool.and_eq_true, beq_iff_eq, decide_eq_true_eq, bne_iff_ne] at hacc
  obtain ⟨⟨⟨hservice, hcount⟩, hrw⟩, hnumber⟩ := hacc
  obtain ⟨buf, hb, hlen⟩ := hbuf hrw
  obtain ⟨hne, hover⟩ := not_or.mp hfit
  have hout : ¬ (x.1.number - 1) * t3tMsgBlocksize + x.2.length ≤ buf.length := by
    have hover' : ¬ x.1.number * 16 ≤ size := hover
    rw [hdata, hlen]
    show ¬ (x.1.number - 1) * 16 + 16 ≤ _
    omega
  unfold updateBlock
  dsimp only
  rw [if_neg (by rw [hservice]; decide), if_pos hservice, if_neg (not_lt.mpr hcount), if_neg hrw,
    if_neg hne, if_neg (not_lt.mpr hnumber), hb]
  show (writeAt buf _ _).map _ = _
  rw [show writeAt buf _ _ = none from if_neg hout]
  rfl

theorem updateBlock_refused (hacc : ¬ acceptsUpdate st.info numBlocks b = true) :
    updateBlock numBlocks b data st = some ({ st with ok := false }, false) := by
  unfold acceptsUpdate at hacc
  simp only [Bool.and_eq_true, beq_iff_eq, decide_eq_true_eq, bne_iff_ne, not_and] at hacc
  unfold updateBlock
  dsimp only
  split
  · rfl
  · split
    · rename_i hservice
      split
      · rfl
      · rename_i hcount
        split
        · rfl
        · rename_i hrw
          have hnumber := hacc ⟨⟨hservice, not_lt.mp hcount⟩, hrw⟩
          rw [if_neg (by omega), if_pos (not_le.mp hnumber)]
    · rfl

/-- The blocks before the first that is refused. -/
def reached (info : NdefInfo) (numBlocks : Nat) (xs : List (Block × Bytes)) : List (Block × Bytes) :=
  xs.takeWhile fun x => acceptsUpdate info numBlocks x.1

variable {xs : List (Block × Bytes)}

theorem reached_accepted (hacc : acceptsUpdate info numBlocks x.1 = true) :
    reached info numBlocks (x :: xs) = x :: reached info numBlocks xs :=
  List.takeWhile_cons_of_pos (p := fun y : Block × Bytes => acceptsUpdate info numBlocks y.1) hacc

theorem reached_refused
    (hacc : ¬ acceptsUpdate info numBlocks x.1 = true) : reached info numBlocks (x :: xs) = [] :=
  List.takeWhile_cons_of_neg (p := fun y : Block × Bytes => acceptsUpdate info numBlocks y.1) hacc

theorem SameParams.reached {a b : NdefInfo} (h : SameParams a b) (numBlocks : Nat)
    (xs : List (Block × Bytes)) : reached b numBlocks xs = reached a numBlocks xs := by
  unfold Ce.reached
  rw [h.accepts]

/-- An UPDATE of which no block reaches outside the buffer. -/
theorem updateBlocks_eq : ∀ {st : UpdateState},
    Writable size st.info → (∀ x ∈ xs, x.2.length = t3tMsgBlocksize) →
    (∀ x ∈ reached st.info numBlocks xs, Fits size x.1) → updateBlocks numBlocks xs st =
        some (if xs.all fun x => acceptsUpdate st.info numBlocks x.1 then xs.foldl effect st
          else { (reached st.info numBlocks xs).foldl effect st with ok := false }) := by
  induction xs with
  | nil => exact fun _ _ _ => rfl
  | cons x xs ih =>
    intro st hbuf hdata hfit
    unfold updateBlocks
    by_cases hacc : acceptsUpdate st.info numBlocks x.1 = true
    · rw [reached_accepted hacc] at hfit ⊢
      have hx := hfit x (by simp)
      have hd := hdata x (by simp)
      have hparams := effect_params hbuf hacc hx hd
      rw [updateBlock_accepted hbuf hacc hx hd]
      dsimp only
      rw [ih (hbuf.same hparams) (fun y hy => hdata y (by simp [hy])) ?_]
      · rw [hparams.accepts, hparams.reached, List.all_cons, hacc, Bool.true_and, List.foldl_cons,
          List.foldl_cons]
      · rw [hparams.reached]
        exact fun y hy => hfit y (by simp [hy])
    · rw [updateBlock_refused hacc, reached_refused hacc]
      simp [hacc]

theorem updateBlocks_fault : ∀ {st : UpdateState},
    Writable size st.info → (∀ x ∈ xs, x.2.length = t3tMsgBlocksize) →
    (¬ ∀ x ∈ reached st.info numBlocks xs, Fits size x.1) → updateBlocks numBlocks xs st = none := by
  induction xs with
  | nil => exact fun _ _ hfit => absurd (by simp [reached]) hfit
  | cons x xs ih =>
    intro st hbuf hdata hfit
    unfold updateBlocks
    by_cases hacc : acceptsUpdate st.info numBlocks x.1 = true
    · rw [reached_accepted hacc] at hfit
      have hd := hdata x (by simp)
      by_cases hx : Fits size x.1
      · have hparams := effect_params hbuf hacc hx hd
        rw [updateBlock_accepted hbuf hacc hx hd]
        dsimp only
        apply ih (hbuf.same hparams) fun y hy => hdata y (by simp [hy])
        rw [hparams.reached]
        intro hall
        apply hfit
        intro y hy
        rcases List.mem_cons.mp hy with rfl | hy
        · exact hx
        · exact hall y hy
      · rw [updateBlock_fault hbuf hacc hx hd]
    · rw [reached_refused hacc] at hfit
      exact absurd (by simp) hfit

end Blocks

/-! ## Frames -/

inductive TagCmd where
  | other
  | check (bs : List Block)
  | update (xs : List (Block × Bytes))
  deriving DecidableEq, Repr

/-- A frame is for the tag if it is activated for NDEF and the frame is well formed. -/
def tagCmd (m : T3tMem) (msg : Bytes) : TagCmd :=
  if m.systemCode = t3tSystemCodeNdef ∧ m.ndefInfo.initialized ∧ 2 ≤ msg.length ∧
      (msg.getD 1 0 = opcCheckCmd ∨ msg.getD 1 0 = opcUpdateCmd) then
    match parseCmd m msg with
    | .error _ => .other
    | .check numBlocks services p => .check (blocksFrom services msg numBlocks p)
    | .update numBlocks services p pd =>
      .update ((blocksFrom services msg numBlocks p).zip (dataFrom msg numBlocks pd))
  else .other

def checkRsp (m : T3tMem) (numBlocks : Nat) : Option Bytes → T3tOut
  | some data => .rsp (opcCheckRsp :: m.localNfcid2 ++ [statusOk, statusOk, UInt8.ofNat numBlocks] ++ data)
  | none => sendRsp m.localNfcid2 opcCheckRsp statusError status2ErrorMemory

/-- An UPDATE that has not begun. -/
def updateStart (m : T3tMem) : UpdateState := ⟨m.ndefInfo, true, false, false, false⟩

def Handles (m : T3tMem) (msg : Bytes) : TagCmd → Prop
  | .other => ∃ outs, t3tDataCback m msg = some (m, outs) ∧ ∀ ok len, .ndefUpdateCplt ok len ∉ outs
  | .check bs => t3tDataCback m msg =
      (checkBlocks m.ndefInfo bs.length bs []).map fun r => (m, [checkRsp m bs.length r])
  | .update xs => (∀ x ∈ xs, x.2.length = t3tMsgBlocksize) ∧
      t3tDataCback m msg = (updateBlocks xs.length xs (updateStart m)).map (updateDone m)

theorem entryLen_le {msg : Bytes} {p remaining : Nat} (htwo : ¬ remaining < 2)
    (hthree : ¬ (¬ isTwoByte msg p = true ∧ remaining < 3)) : entryLen msg p ≤ remaining := by
  unfold entryLen
  split
  · omega
  · rename_i h
    have := not_and.mp hthree h
    omega

/-- The block list ends where the rest of the frame begins. -/
theorem verifyBlockList_end {numServices : Nat} {msg : Bytes} (n : Nat) : ∀ {p remaining pd rest : Nat},
    verifyBlockList numServices msg n p remaining = some (pd, rest) → pd + rest = p + remaining := by
  induction n with
  | zero =>
    intro p remaining pd rest h
    obtain ⟨rfl, rfl⟩ := Prod.mk.inj (Option.some.inj h)
    rfl
  | succ n ih =>
    intro p remaining pd rest h
    unfold verifyBlockList at h
    split at h
    · cases h
    · rename_i htwo
      split at h
      · cases h
      · split at h
        · cases h
        · rename_i hthree
          have hle := entryLen_le htwo hthree
          have hsum := ih h
          omega

theorem parseCmd_update {m : T3tMem} {msg : Bytes} {numBlocks p pd : Nat} {services : List Nat}
    (h : parseCmd m msg = .update numBlocks services p pd) :
    pd + numBlocks * t3tMsgBlocksize ≤ msg.length := by
  unfold parseCmd at h
  dsimp only at h
  split at h
  · cases h
  · split at h
    · cases h
    · split at h
      · cases h
      · split at h
        · cases h
        · split at h
          · cases h
          · rename_i hstart
            split at h
            · cases h
            · rename_i pd' remaining hverify
              split at h
              · cases h
              · split at h
                · cases h
                · rename_i hremaining
                  have hend := verifyBlockList_end _ hverify
                  obtain ⟨rfl, -, -, rfl⟩ := T3tCmd.update.inj h
                  omega

def handleCmd (m : T3tMem) (msg : Bytes) : T3tCmd → Option (T3tMem × List T3tOut)
  | .error nfcid2 => some (m, [sendRsp nfcid2 opcCheckRsp statusError status2ErrorProcessing])
  | .check numBlocks services p => handleCheckCmd m numBlocks services msg p
  | .update numBlocks services p pd => handleUpdateCmd m numBlocks services msg p pd

theorem dataCback_handleCmd {m : T3tMem} {msg : Bytes} (hcode : m.systemCode = t3tSystemCodeNdef)
    (hinit : m.ndefInfo.initialized = true) (hlen : 2 ≤ msg.length)
    (hop : msg.getD 1 0 = opcCheckCmd ∨ msg.getD 1 0 = opcUpdateCmd) :
    t3tDataCback m msg = handleCmd m msg (parseCmd m msg) := by
  unfold t3tDataCback
  dsimp only
  rw [if_neg (by simp [hcode, hinit]), if_neg (not_lt.mpr hlen), if_pos hop]
  cases parseCmd m msg with
  | error nfcid2 => rfl
  | check numBlocks services p => rfl
  | update numBlocks services p pd => rfl

theorem handles_tagCmd (m : T3tMem) (msg : Bytes) : Handles m msg (tagCmd m msg) := by
  unfold tagCmd
  split
  · rename_i hcmd
    obtain ⟨hcode, hinit, hlen, hop⟩ := hcmd
    have hframe := dataCback_handleCmd hcode hinit hlen hop
    split
    · rename_i nfcid2 hparse
      rw [hparse] at hframe
      exact ⟨_, hframe, by simp [sendRsp]⟩
    · rename_i numBlocks services p hparse
      rw [hparse] at hframe
      refine hframe.trans ?_
      unfold handleCmd handleCheckCmd
      dsimp only
      rw [checkLoop_eq, length_blocksFrom]
      rfl
    · rename_i numBlocks services p pd hparse
      rw [hparse] at hframe
      have hin := parseCmd_update hparse
      refine ⟨fun x hx => length_of_mem_dataFrom msg numBlocks hin (List.of_mem_zip hx).2, ?_⟩
      refine hframe.trans ?_
      unfold handleCmd handleUpdateCmd
      dsimp only
      rw [updateLoop_eq, List.length_zip, length_blocksFrom, length_dataFrom, min_self]
      rfl
  · rename_i hcmd
    unfold Handles t3tDataCback
    dsimp only
    split
    · exact ⟨_, rfl, by simp⟩
    · rename_i hcode
      split
      · exact ⟨_, rfl, by simp [sendRsp]⟩
      · rename_i hlen
        split
        · rename_i hop
          simp only [not_or, not_not] at hcode
          exact absurd ⟨hcode.1, hcode.2, not_lt.mp hlen, hop⟩ hcmd
        · split
          · refine ⟨_, rfl, fun ok len hmem => ?_⟩
            unfold handleNonNfcForumCmd at hmem
            dsimp only at hmem
            split at hmem
            · split at hmem
              · cases hmem
              · split at hmem
                · simp at hmem
                · cases hmem
            · split at hmem
              · simp at hmem
              · split at hmem
                · simp at hmem
                · cases hmem
          · exact ⟨_, rfl, by simp [sendRsp]⟩

end NfcStack.Ce
