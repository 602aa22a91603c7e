import NfcStack.Lib.TlvWalk

/- The search for the NDEF TLV in `rw_i93_sm_detect_ndef` and `rw_t5t_sm_detect_ndef`: the
   loop over a response in `RW_I93_SUBSTATE_SEARCH_NDEF_TLV`, and what is done behind it.
   A response starts with the byte at `rw_offset`.

   The two loops differ in the types they know and in how they pass over a value: one
   turn of a loop (`i93Turn`, `t5tTurn`) is a definition of its own. `xx` ends a turn
   `ahead` bytes further, the `xx++` of the loop counted in.

   The offsets stay below 2^22 and the lengths below 2^16, so that no sum wraps.

   What is proved: where no piece of the memory leads a loop astray (`I93Clear`,
   `T5tClear`), it follows the automaton of the grammar, however the memory is split
   (`search_feed`), and so the search reports the TLV that the walk reaches and no other
   (`search_exact`). -/
namespace NfcStack.Rw.I93
open NfcStack.Lib

abbrev tlvTypeNull : UInt8 := 0x00
abbrev tlvTypeNdef : UInt8 := 0x03
abbrev tlvTypeProp : UInt8 := 0xFD
abbrev tlvTypeTerm : UInt8 := 0xFE

inductive DetectState where
  | type
  | length1
  | length2
  | length3
  | value
  deriving DecidableEq, Repr

structure SearchCb where
  tlvDetectState : DetectState
  tlvType : UInt8
  tlvLength : Nat
  rwOffset : Nat
  ndefTlvStartOffset : Nat
  ndefTlvLastOffset : Nat
  deriving DecidableEq, Repr

/-- What a turn of the loop does: it goes on, it leaves the loop, or it leaves the handler
with an error. -/
inductive LoopTurn where
  | next (cb : SearchCb) (ahead : Nat)
  | stop (cb : SearchCb)
  | fail

/-! ## The loops -/

/-- After the length field, of `h` bytes: the loop is left at an NDEF TLV. -/
def valueTurn (cb : SearchCb) (h len : Nat) : LoopTurn :=
  let cb := { cb with tlvLength := len, tlvDetectState := .value }
  if cb.tlvType = tlvTypeNdef then
    .stop { cb with ndefTlvLastOffset := cb.ndefTlvStartOffset + h + len }
  else .next cb 1

def lengthTurn (cb : SearchCb) (b : UInt8) : LoopTurn :=
  match cb.tlvDetectState with
  | .length1 =>
    if b = 0xFF then .next { cb with tlvDetectState := .length2 } 1 else valueTurn cb 1 b.toNat
  | .length2 => .next { cb with tlvLength := b.toNat, tlvDetectState := .length3 } 1
  | _ => valueTurn cb 3 (cb.tlvLength * 2 ^ 8 + b.toNat)

def typeTurn (cb : SearchCb) (b : UInt8) : LoopTurn :=
  .next { cb with tlvType := b, tlvDetectState := .length1 } 1

/-- A turn of the loop in `rw_i93_sm_detect_ndef`, at the byte `b`, with `left` bytes from it
to the end of the response. -/
def i93Turn (cb : SearchCb) (xx : Nat) (b : UInt8) (left : Nat) : LoopTurn :=
  match cb.tlvDetectState with
  | .type =>
    if b = tlvTypeNull then .next cb 1
    else if b = tlvTypeNdef ∨ b = tlvTypeProp then
      typeTurn { cb with ndefTlvStartOffset := cb.rwOffset + xx } b
    else if b = tlvTypeTerm then .stop { cb with tlvType := tlvTypeTerm }
    else .fail
  | .value =>
    if cb.tlvLength ≤ left then
      -- xx += (uint8_t)tlv_length, and then xx++
      .next { cb with tlvDetectState := .type } (cb.tlvLength % 2 ^ 8 + 1)
    else .stop { cb with tlvLength := cb.tlvLength - left }
  | _ => lengthTurn cb b

def t5tTurn (cb : SearchCb) (xx : Nat) (b : UInt8) (left : Nat) : LoopTurn :=
  match cb.tlvDetectState with
  | .type =>
    if b = tlvTypeNdef then typeTurn { cb with ndefTlvStartOffset := cb.rwOffset + xx } b
    else if b = tlvTypeTerm then .stop { cb with tlvType := tlvTypeTerm }
    else typeTurn cb b
  | .value =>
    if cb.tlvLength ≤ left then
      -- xx += (uint8_t)tlv_length - 1, and then xx++
      .next { cb with tlvDetectState := .type } (cb.tlvLength % 2 ^ 8)
    else .stop { cb with tlvLength := cb.tlvLength - left }
  | _ => lengthTurn cb b

def searchLoop (turn : SearchCb → Nat → UInt8 → Nat → LoopTurn) :
    Nat → SearchCb → Nat → List UInt8 → Option SearchCb
  | 0, cb, _, _ => some cb
  | _ + 1, cb, _, [] => some cb
  | k + 1, cb, xx, b :: rest =>
    match turn cb xx b (rest.length + 1) with
    | .next cb n => searchLoop turn k cb (xx + n) ((b :: rest).drop n)
    | .stop cb => some cb
    | .fail => none

/-- A response: the bytes received, and those behind them that the loop goes over too,
where `length` was not reduced. -/
structure Piece where
  data : List UInt8
  behind : List UInt8
  deriving DecidableEq, Repr

structure Detector where
  grammar : TlvGrammar
  turn : SearchCb → Nat → UInt8 → Nat → LoopTurn
  bytes : Piece → List UInt8

/-- NULL, NDEF, proprietary and Terminator TLVs; any other type is an error. -/
def i93Grammar : TlvGrammar where
  null := tlvTypeNull
  wanted := tlvTypeNdef
  term := tlvTypeTerm
  refused t := t != tlvTypeProp
  wanted_ne_null := by decide
  wanted_ne_term := by decide

def t5tGrammar : TlvGrammar where
  null := tlvTypeNull
  wanted := tlvTypeNdef
  term := tlvTypeTerm
  refused _ := false
  wanted_ne_null := by decide
  wanted_ne_term := by decide

def rwI93 : Detector where
  grammar := i93Grammar
  turn := i93Turn
  bytes p := p.data

/-- The search goes on in the block of the capability container, where that is larger: the
container is taken from the response, and `length` stays that of the whole. -/
def rwT5t : Detector where
  grammar := t5tGrammar
  turn := t5tTurn
  bytes p := p.data ++ p.behind

/-- What was reported: nothing yet, a failure or an NDEF TLV. -/
inductive Search where
  | searching (cb : SearchCb)
  | failed
  | found (f : FoundTlv)
  deriving DecidableEq, Repr

/-- `RW_I93_SUBSTATE_SEARCH_NDEF_TLV`: the loop over one response, then the report, or the
command for the next blocks, up to `endOffset`. -/
def searchStep (d : Detector) (endOffset : Nat) (s : Search) (p : Piece) : Search :=
  match s with
  | .searching cb =>
    match searchLoop d.turn (2 * (d.bytes p).length + 2) cb 0 (d.bytes p) with
    | none => .failed
    | some cb =>
      if cb.tlvType = tlvTypeNdef ∧ cb.tlvDetectState = .value then
        .found ⟨cb.ndefTlvStartOffset, cb.tlvLength, cb.ndefTlvLastOffset⟩
      else if endOffset ≤ cb.rwOffset + (d.bytes p).length then .failed
      else .searching { cb with rwOffset := cb.rwOffset + (d.bytes p).length }
  | s => s

def searchRun (d : Detector) (endOffset : Nat) (s : Search) (ps : List Piece) : Search :=
  ps.foldl (searchStep d endOffset) s

/-- The search starts behind the capability container, whatever the control block had. -/
def startCb (cb : SearchCb) (start : Nat) : SearchCb :=
  { cb with tlvDetectState := .type, rwOffset := start }

/-! ## Where a loop follows the grammar -/

/-- What the loop of `rw_i93_sm_detect_ndef` needs at the byte `b`, with `rest` behind it in the
response: a Terminator comes in the last response (`atEnd`); and where a value ends in the
response, it has less than 256 bytes there, and the byte behind it, if there is one, is a
NULL, which is passed over with it. -/
def I93Clear (atEnd : Bool) (w : TlvGrammar.Walk) (b : UInt8) (rest : List UInt8) : Prop :=
  match w with
  | .type => b = tlvTypeTerm → atEnd = true
  | .value n => n ≤ rest.length + 1 → n < 2 ^ 8 ∧ ∀ c ∈ (b :: rest)[n]?, c = tlvTypeNull
  | _ => True

/-- What the loop of `rw_t5t_sm_detect_ndef` needs: no NULL for a type, a Terminator in the last
response, and less than 256 bytes of a value in the response where it ends. -/
def T5tClear (atEnd : Bool) (w : TlvGrammar.Walk) (b : UInt8) (rest : List UInt8) : Prop :=
  match w with
  | .type => b ≠ tlvTypeNull ∧ (b = tlvTypeTerm → atEnd = true)
  | .value n =>
    (n = 0 → b ≠ tlvTypeNull ∧ (b = tlvTypeTerm → atEnd = true)) ∧ (n ≤ rest.length + 1 → n < 2 ^ 8)
  | _ => True

instance I93Clear.decidable (atEnd : Bool) (w : TlvGrammar.Walk) (b : UInt8) (rest : List UInt8) :
    Decidable (I93Clear atEnd w b rest) :=
  match w with
  | .type => inferInstanceAs (Decidable (b = tlvTypeTerm → atEnd = true))
  | .value n =>
    inferInstanceAs (Decidable
      (n ≤ rest.length + 1 → n < 2 ^ 8 ∧ ∀ c ∈ (b :: rest)[n]?, c = tlvTypeNull))
  | .length1 _ | .length2 _ | .length3 _ _ | .found _ | .failed => .isTrue trivial

instance T5tClear.decidable (atEnd : Bool) (w : TlvGrammar.Walk) (b : UInt8) (rest : List UInt8) :
    Decidable (T5tClear atEnd w b rest) :=
  match w with
  | .type => inferInstanceAs (Decidable (b ≠ tlvTypeNull ∧ (b = tlvTypeTerm → atEnd = true)))
  | .value n =>
    inferInstanceAs (Decidable
      ((n = 0 → b ≠ tlvTypeNull ∧ (b = tlvTypeTerm → atEnd = true)) ∧
        (n ≤ rest.length + 1 → n < 2 ^ 8)))
  | .length1 _ | .length2 _ | .length3 _ _ | .found _ | .failed => .isTrue trivial

section
variable (d : Detector) (clear : Bool → TlvGrammar.Walk → UInt8 → List UInt8 → Prop)

/-- A piece of the memory that does not lead the loop astray, from where the walk is. -/
def ClearPiece (atEnd : Bool) : Nat → TlvGrammar.Walk → List UInt8 → Prop
  | _, _, [] => True
  | pos, w, b :: rest =>
    clear atEnd w b rest ∧ ClearPiece atEnd (pos + 1) (d.grammar.move pos w b) rest

def hasFound : TlvGrammar.Walk → Bool
  | .found _ => true
  | _ => false

/-- No piece does, and the loop goes over the bytes behind a response only where the walk has
reached the TLV before. -/
def Clear (endOffset : Nat) : Nat → TlvGrammar.Walk → List Piece → Prop
  | _, _, [] => True
  | pos, w, p :: ps =>
    (d.bytes p = p.data ∨ hasFound (d.grammar.feed pos w p.data) = true) ∧
    ClearPiece d clear (decide (endOffset ≤ pos + (d.bytes p).length)) pos w (d.bytes p) ∧
    Clear endOffset (pos + p.data.length) (d.grammar.feed pos w p.data) ps

instance ClearPiece.decidable [∀ e w b rest, Decidable (clear e w b rest)] (atEnd : Bool) :
    ∀ (pos : Nat) (w : TlvGrammar.Walk) (bs : List UInt8), Decidable (ClearPiece d clear atEnd pos w bs)
  | _, _, [] => .isTrue trivial
  | pos, w, b :: rest =>
    have := ClearPiece.decidable atEnd (pos + 1) (d.grammar.move pos w b) rest
    inferInstanceAs (Decidable (clear atEnd w b rest ∧ _))

instance Clear.decidable [∀ e w b rest, Decidable (clear e w b rest)] (endOffset : Nat) :
    ∀ (pos : Nat) (w : TlvGrammar.Walk) (ps : List Piece), Decidable (Clear d clear endOffset pos w ps)
  | _, _, [] => .isTrue trivial
  | pos, w, p :: ps =>
    have := Clear.decidable endOffset (pos + p.data.length) (d.grammar.feed pos w p.data) ps
    inferInstanceAs (Decidable ((_ ∨ _) ∧ _ ∧ _))

end

def startOf (cb : SearchCb) : Option Nat :=
  if cb.tlvType = tlvTypeNdef then some cb.ndefTlvStartOffset else none

def walkOf (cb : SearchCb) : TlvGrammar.Walk :=
  match cb.tlvDetectState with
  | .type => .type
  | .length1 => .length1 (startOf cb)
  | .length2 => .length2 (startOf cb)
  | .length3 => .length3 (startOf cb) cb.tlvLength
  | .value =>
    if cb.tlvType = tlvTypeNdef then
      .found ⟨cb.ndefTlvStartOffset, cb.tlvLength, cb.ndefTlvLastOffset⟩
    else .value cb.tlvLength

/-! ## One turn -/

section
variable {d : Detector} {clear : Bool → TlvGrammar.Walk → UInt8 → List UInt8 → Prop}

theorem clearPiece_drop {atEnd : Bool} (n : Nat) :
    ∀ (bs : List UInt8) (pos : Nat) (w : TlvGrammar.Walk), n ≤ bs.length →
      ClearPiece d clear atEnd pos w bs →
      ClearPiece d clear atEnd (pos + n) (d.grammar.feed pos w (bs.take n)) (bs.drop n) := by
  induction n with
  | zero => simp
  | succ n ih =>
    intro bs pos w hn h
    cases bs with
    | nil => simp at hn
    | cons b bs =>
      have := ih bs (pos + 1) _ (by simpa using hn) h.2
      rw [List.take_succ_cons, List.drop_succ_cons, TlvGrammar.feed_cons]
      rw [show pos + (n + 1) = pos + 1 + n by omega]
      exact this

/-- Two turns are spent on a byte where a value ends before it. -/
def weight (cb : SearchCb) : Nat := if cb.tlvDetectState = .value then 1 else 0

theorem weight_le (cb : SearchCb) : weight cb ≤ 1 := by
  simp only [weight]
  split <;> omega

/-- What a turn at `b` does to the walk: it follows it, comes closer to the end of the
response and stays clear; or it leaves the loop with the walk where it is, or, at a
Terminator of the last response, with nothing found. -/
def TurnSpec (d : Detector) (clear : Bool → TlvGrammar.Walk → UInt8 → List UInt8 → Prop) (atEnd : Bool)
    (pos : Nat) (cb : SearchCb) (b : UInt8) (rest : List UInt8) : LoopTurn → Prop
  | .next cb' n =>
    cb'.rwOffset = cb.rwOffset ∧
    2 * ((b :: rest).drop n).length + weight cb' < 2 * (rest.length + 1) + weight cb ∧
    d.grammar.feed pos (walkOf cb) (b :: rest) =
      d.grammar.feed (pos + n) (walkOf cb') ((b :: rest).drop n) ∧
    ClearPiece d clear atEnd (pos + n) (walkOf cb') ((b :: rest).drop n) ∧
    ∀ f, walkOf cb' ≠ .found f
  | .stop cb' =>
    cb'.rwOffset = cb.rwOffset ∧
    (walkOf cb' = d.grammar.feed pos (walkOf cb) (b :: rest) ∨
      d.grammar.feed pos (walkOf cb) (b :: rest) = .failed ∧ atEnd = true ∧ ∀ f, walkOf cb' ≠ .found f)
  | .fail => d.grammar.feed pos (walkOf cb) (b :: rest) = .failed

variable {atEnd : Bool} {pos : Nat} {cb : SearchCb} {b : UInt8} {rest : List UInt8}

theorem turnSpec_one (hc : ClearPiece d clear atEnd pos (walkOf cb) (b :: rest)) {cb' : SearchCb}
    (hoff : cb'.rwOffset = cb.rwOffset) (hmove : d.grammar.move pos (walkOf cb) b = walkOf cb')
    (hfound : ∀ f, walkOf cb' ≠ .found f) : TurnSpec d clear atEnd pos cb b rest (.next cb' 1) := by
  have hclear := hc.2
  rw [hmove] at hclear
  have := weight_le cb'
  refine ⟨hoff, ?_, ?_, hclear, hfound⟩
  · simp only [List.drop_succ_cons, List.drop_zero]
    omega
  · rw [TlvGrammar.feed_cons, hmove]
    rfl

theorem valueTurn_spec (hc : ClearPiece d clear atEnd pos (walkOf cb) (b :: rest)) {h len : Nat}
    (hmove : d.grammar.move pos (walkOf cb) b = TlvGrammar.lengthMove (startOf cb) h len) :
    TurnSpec d clear atEnd pos cb b rest (valueTurn cb h len) := by
  simp only [valueTurn]
  by_cases hndef : cb.tlvType = tlvTypeNdef
  · rw [if_pos hndef]
    refine ⟨rfl, Or.inl ?_⟩
    rw [TlvGrammar.feed_cons, hmove]
    simp [walkOf, startOf, TlvGrammar.lengthMove, hndef]
  · rw [if_neg hndef]
    apply turnSpec_one hc
    · rfl
    · rw [hmove]
      simp [walkOf, startOf, TlvGrammar.lengthMove, hndef]
    · simp [walkOf, hndef]

theorem lengthTurn_spec (hc : ClearPiece d clear atEnd pos (walkOf cb) (b :: rest))
    (htype : cb.tlvDetectState ≠ .type) (hvalue : cb.tlvDetectState ≠ .value) :
    TurnSpec d clear atEnd pos cb b rest (lengthTurn cb b) := by
  simp only [lengthTurn]
  cases hst : cb.tlvDetectState with
  | type => exact absurd hst htype
  | value => exact absurd hst hvalue
  | length1 =>
    by_cases hb : b = 0xFF
    · rw [if_pos hb]
      apply turnSpec_one hc
      · rfl
      · simp [walkOf, startOf, hst, TlvGrammar.move, hb]
      · simp [walkOf]
    · rw [if_neg hb]
      apply valueTurn_spec hc
      simp [walkOf, hst, TlvGrammar.move, hb]
  | length2 =>
    apply turnSpec_one hc
    · rfl
    · simp [walkOf, startOf, hst, TlvGrammar.move]
    · simp [walkOf]
  | length3 =>
    apply valueTurn_spec hc
    simp [walkOf, hst, TlvGrammar.move]

theorem value_spills (hst : cb.tlvDetectState = .value) (hndef : cb.tlvType ≠ tlvTypeNdef)
    (hlong : ¬ cb.tlvLength ≤ rest.length + 1) :
    TurnSpec d clear atEnd pos cb b rest
      (.stop { cb with tlvLength := cb.tlvLength - (rest.length + 1) }) := by
  refine ⟨rfl, Or.inl ?_⟩
  simp only [walkOf, hst, hndef, if_false]
  rw [TlvGrammar.feed_value_short _ _ _ (by simpa using hlong)]
  simp

theorem value_clear {n : Nat} {bs : List UInt8} (hpos : 0 < n) (hn : n ≤ bs.length)
    (hc : ClearPiece d clear atEnd pos (.value n) bs) :
    ClearPiece d clear atEnd (pos + n) .type (bs.drop n) := by
  have hlen : (bs.take n).length = n := List.length_take_of_le hn
  have hfeed : d.grammar.feed pos (.value n) (bs.take n) = .type := by
    rw [TlvGrammar.feed_value _ _ _ hpos (by omega), List.drop_eq_nil_of_le (by omega)]
    rfl
  rw [← hfeed]
  exact clearPiece_drop n bs pos _ hn hc

end

theorem i93Turn_spec {atEnd : Bool} {pos xx : Nat} {cb : SearchCb} {b : UInt8} {rest : List UInt8}
    (hpos : pos = cb.rwOffset + xx) (hfound : ∀ f, walkOf cb ≠ .found f)
    (hc : ClearPiece rwI93 I93Clear atEnd pos (walkOf cb) (b :: rest)) :
    TurnSpec rwI93 I93Clear atEnd pos cb b rest (i93Turn cb xx b (rest.length + 1)) := by
  simp only [i93Turn]
  split
  case h_1 hst =>
    have hw : walkOf cb = .type := by simp [walkOf, hst]
    by_cases hnull : b = tlvTypeNull
    · rw [if_pos hnull]
      apply turnSpec_one hc
      · rfl
      · simp [hw, TlvGrammar.move, TlvGrammar.typeMove, rwI93, i93Grammar, hnull]
      · exact hfound
    rw [if_neg hnull]
    by_cases hndef : b = tlvTypeNdef ∨ b = tlvTypeProp
    · rw [if_pos hndef]
      apply turnSpec_one hc
      · rfl
      · rw [hw]
        have hprop : tlvTypeProp ≠ tlvTypeNdef ∧ tlvTypeProp ≠ tlvTypeTerm := by decide
        obtain rfl | rfl := hndef
        · simp [walkOf, startOf, TlvGrammar.move, TlvGrammar.typeMove, rwI93, i93Grammar, hpos, hnull]
        · simp [walkOf, startOf, TlvGrammar.move, TlvGrammar.typeMove, rwI93, i93Grammar, hnull, hprop]
      · simp [walkOf]
    rw [if_neg hndef]
    simp only [not_or] at hndef
    have hmove : b = tlvTypeTerm ∨ b ≠ tlvTypeTerm →
        rwI93.grammar.feed pos (walkOf cb) (b :: rest) = .failed := by
      intro _
      rw [hw]
      simp [TlvGrammar.move, TlvGrammar.typeMove, rwI93, i93Grammar, hnull, hndef]
    by_cases hterm : b = tlvTypeTerm
    · rw [if_pos hterm]
      refine ⟨rfl, Or.inr ⟨hmove (Or.inl hterm), ?_, ?_⟩⟩
      · rw [hw] at hc
        exact hc.1 hterm
      · simp [walkOf, hst]
    · rw [if_neg hterm]
      exact hmove (Or.inr hterm)
  case h_2 hst =>
    have hndef : cb.tlvType ≠ tlvTypeNdef := by
      intro h
      apply hfound ⟨cb.ndefTlvStartOffset, cb.tlvLength, cb.ndefTlvLastOffset⟩
      simp only [walkOf, hst, h, if_true]
    have hw : walkOf cb = .value cb.tlvLength := by simp [walkOf, hst, hndef]
    split
    case isFalse hlong => exact value_spills hst hndef hlong
    case isTrue hle =>
      have hvalue := hc.1
      rw [hw] at hvalue
      obtain ⟨hsmall, hnull⟩ := hvalue hle
      rw [Nat.mod_eq_of_lt hsmall]
      generalize hn : cb.tlvLength = n at *
      -- the byte behind the value is taken with it
      have hskip : rwI93.grammar.feed pos (.value n) (b :: rest) =
            rwI93.grammar.feed (pos + (n + 1)) .type ((b :: rest).drop (n + 1)) ∧
          ClearPiece rwI93 I93Clear atEnd (pos + (n + 1)) .type ((b :: rest).drop (n + 1)) := by
        rw [hw] at hc
        rcases Nat.eq_zero_or_pos n with rfl | hn0
        · have hb : b = tlvTypeNull := hnull b rfl
          have hmove : rwI93.grammar.move pos (.value 0) b = .type := by
            simp [TlvGrammar.move, TlvGrammar.typeMove, rwI93, i93Grammar, hb]
          have hclear := hc.2
          rw [hmove] at hclear
          exact ⟨by rw [TlvGrammar.feed_cons, hmove]; rfl, hclear⟩
        have hle' : n ≤ (b :: rest).length := hle
        have hfeed := @TlvGrammar.feed_value i93Grammar (b :: rest) pos n hn0 hle'
        have hclear := value_clear hn0 hle' hc
        have hdrop : (b :: rest).drop (n + 1) = ((b :: rest).drop n).drop 1 := by
          rw [List.drop_drop]
        simp only [rwI93] at hclear ⊢
        rw [hfeed, hdrop, ← Nat.add_assoc]
        cases hcs : (b :: rest).drop n with
        | nil => exact ⟨rfl, trivial⟩
        | cons c cs =>
          have hc0 : c = tlvTypeNull := by
            apply hnull c
            have := @List.getElem?_drop _ (b :: rest) n 0
            rw [hcs] at this
            simpa using this.symm
          have hmove : i93Grammar.move (pos + n) .type c = .type := by
            simp [TlvGrammar.move, TlvGrammar.typeMove, i93Grammar, hc0]
          rw [hcs] at hclear
          have hclear' := hclear.2
          simp only [hmove] at hclear'
          exact ⟨by rw [TlvGrammar.feed_cons, hmove]; rfl, hclear'⟩
      refine ⟨rfl, ?_, ?_, hskip.2, by simp [walkOf]⟩
      · simp only [weight, hst, List.length_drop, List.length_cons]
        simp
        omega
      · rw [hw, hskip.1]
        rfl
  case h_3 htype hvalue => exact lengthTurn_spec hc htype hvalue

theorem t5tTurn_spec {atEnd : Bool} {pos xx : Nat} {cb : SearchCb} {b : UInt8} {rest : List UInt8}
    (hpos : pos = cb.rwOffset + xx) (hfound : ∀ f, walkOf cb ≠ .found f)
    (hc : ClearPiece rwT5t T5tClear atEnd pos (walkOf cb) (b :: rest)) :
    TurnSpec rwT5t T5tClear atEnd pos cb b rest (t5tTurn cb xx b (rest.length + 1)) := by
  simp only [t5tTurn]
  split
  case h_1 hst =>
    have hw : walkOf cb = .type := by simp [walkOf, hst]
    have htype := hc.1
    rw [hw] at htype
    obtain ⟨hnull, hlast⟩ := htype
    by_cases hndef : b = tlvTypeNdef
    · rw [if_pos hndef]
      apply turnSpec_one hc
      · rfl
      · rw [hw]
        rw [hndef] at hnull ⊢
        simp [walkOf, startOf, TlvGrammar.move, TlvGrammar.typeMove, rwT5t, t5tGrammar, hpos, hnull]
      · simp [walkOf]
    rw [if_neg hndef]
    by_cases hterm : b = tlvTypeTerm
    · rw [if_pos hterm]
      refine ⟨rfl, Or.inr ⟨?_, hlast hterm, by simp [walkOf, hst]⟩⟩
      have hmove : t5tGrammar.move pos .type b = .failed := by
        rw [hterm] at hnull hndef ⊢
        simp [TlvGrammar.move, TlvGrammar.typeMove, t5tGrammar, hnull, hndef]
      rw [hw, TlvGrammar.feed_cons]
      simp only [rwT5t, hmove]
      exact TlvGrammar.feed_failed _ _
    · rw [if_neg hterm]
      apply turnSpec_one hc
      · rfl
      · rw [hw]
        simp [walkOf, startOf, TlvGrammar.move, TlvGrammar.typeMove, rwT5t, t5tGrammar, hnull, hndef, hterm]
      · simp [walkOf]
  case h_2 hst =>
    have hndef : cb.tlvType ≠ tlvTypeNdef := by
      intro h
      apply hfound ⟨cb.ndefTlvStartOffset, cb.tlvLength, cb.ndefTlvLastOffset⟩
      simp only [walkOf, hst, h, if_true]
    have hw : walkOf cb = .value cb.tlvLength := by simp [walkOf, hst, hndef]
    split
    case isFalse hlong => exact value_spills hst hndef hlong
    case isTrue hle =>
      have hvalue := hc.1
      rw [hw] at hvalue
      rw [Nat.mod_eq_of_lt (hvalue.2 hle)]
      generalize hn : cb.tlvLength = n at *
      rw [hw] at hc
      rcases Nat.eq_zero_or_pos n with rfl | hn0
      · -- the byte is looked at again, as a type
        refine ⟨rfl, ?_, ?_, ⟨hc.1.1 rfl, hc.2⟩, by simp [walkOf]⟩
        · simp [weight, hst]
        · rw [hw]
          rfl
      · have hle' : n ≤ (b :: rest).length := hle
        refine ⟨rfl, ?_, ?_, value_clear hn0 hle' hc, by simp [walkOf]⟩
        · simp only [weight, hst, List.length_drop, List.length_cons]
          simp
        · rw [hw]
          exact TlvGrammar.feed_value _ _ _ hn0 hle'
  case h_3 htype hvalue => exact lengthTurn_spec hc htype hvalue

/-! ## A response, and all of them -/

section
variable {d : Detector} {clear : Bool → TlvGrammar.Walk → UInt8 → List UInt8 → Prop}

/-- Every turn of the loop follows the walk where it is clear. -/
def Follows (d : Detector) (clear : Bool → TlvGrammar.Walk → UInt8 → List UInt8 → Prop) : Prop :=
  ∀ (atEnd : Bool) (xx : Nat) (cb : SearchCb) (b : UInt8) (rest : List UInt8),
    (∀ f, walkOf cb ≠ .found f) →
    ClearPiece d clear atEnd (cb.rwOffset + xx) (walkOf cb) (b :: rest) →
      TurnSpec d clear atEnd (cb.rwOffset + xx) cb b rest (d.turn cb xx b (rest.length + 1))

theorem search_feed (hd : Follows d clear) (atEnd : Bool) (k : Nat) :
    ∀ (cb : SearchCb) (xx : Nat) (bs : List UInt8), 2 * bs.length + weight cb < k →
      (∀ f, walkOf cb ≠ .found f) →
      ClearPiece d clear atEnd (cb.rwOffset + xx) (walkOf cb) bs →
      match searchLoop d.turn k cb xx bs with
      | none => d.grammar.feed (cb.rwOffset + xx) (walkOf cb) bs = .failed
      | some cb' => cb'.rwOffset = cb.rwOffset ∧
        (walkOf cb' = d.grammar.feed (cb.rwOffset + xx) (walkOf cb) bs ∨
          d.grammar.feed (cb.rwOffset + xx) (walkOf cb) bs = .failed ∧ atEnd = true ∧
            ∀ f, walkOf cb' ≠ .found f) := by
  induction k with
  | zero => exact fun _ _ _ hk => absurd hk (Nat.not_lt_zero _)
  | succ k ih =>
    intro cb xx bs hk hfound hc
    cases bs with
    | nil => exact ⟨rfl, Or.inl rfl⟩
    | cons b rest =>
      have hturn := hd atEnd xx cb b rest hfound hc
      simp only [searchLoop]
      cases ht : d.turn cb xx b (rest.length + 1) with
      | next cb' n =>
        rw [ht] at hturn
        obtain ⟨hoff, hless, hfeed, hclear, hfound'⟩ := hturn
        rw [hfeed]
        have hpos : cb.rwOffset + xx + n = cb'.rwOffset + (xx + n) := by omega
        rw [hpos] at hclear ⊢
        have hrest := ih cb' (xx + n) _ (by rw [List.length_cons] at hk; omega) hfound' hclear
        rw [hoff] at hrest ⊢
        exact hrest
      | stop cb' =>
        rw [ht] at hturn
        exact hturn
      | fail =>
        rw [ht] at hturn
        exact hturn

/-- What the search has reported agrees with where the walk is, at the position `pos`. -/
def Agrees (endOffset pos : Nat) (w : TlvGrammar.Walk) : Search → Prop
  | .searching cb =>
    cb.rwOffset = pos ∧ walkOf cb = w ∧ pos < endOffset ∧ ∀ f, w ≠ .found f
  | .failed => (∀ f, w ≠ .found f) ∧ (w = .failed ∨ endOffset ≤ pos)
  | .found f => w = .found f

variable {cb : SearchCb}

theorem walkOf_found (h : cb.tlvType = tlvTypeNdef ∧ cb.tlvDetectState = .value) :
    walkOf cb = .found ⟨cb.ndefTlvStartOffset, cb.tlvLength, cb.ndefTlvLastOffset⟩ := by
  simp only [walkOf, h, if_true]

theorem walkOf_not_found (h : ¬ (cb.tlvType = tlvTypeNdef ∧ cb.tlvDetectState = .value)) :
    ∀ f, walkOf cb ≠ .found f := by
  intro f hf
  apply h
  simp only [walkOf] at hf
  split at hf <;> simp_all

theorem searchLoop_agrees {endOffset : Nat} {p : Piece} (hp : d.bytes p = p.data)
    (hloop : match searchLoop d.turn (2 * p.data.length + 2) cb 0 p.data with
      | none => d.grammar.feed cb.rwOffset (walkOf cb) p.data = .failed
      | some cb' => cb'.rwOffset = cb.rwOffset ∧
        (walkOf cb' = d.grammar.feed cb.rwOffset (walkOf cb) p.data ∨
          d.grammar.feed cb.rwOffset (walkOf cb) p.data = .failed ∧
            decide (endOffset ≤ cb.rwOffset + p.data.length) = true ∧ ∀ f, walkOf cb' ≠ .found f)) :
    Agrees endOffset (cb.rwOffset + p.data.length) (d.grammar.feed cb.rwOffset (walkOf cb) p.data)
      (searchStep d endOffset (.searching cb) p) := by
  simp only [searchStep, hp]
  cases hs : searchLoop d.turn (2 * p.data.length + 2) cb 0 p.data with
  | none =>
    rw [hs] at hloop
    have hfailed : d.grammar.feed cb.rwOffset (walkOf cb) p.data = .failed := hloop
    simp only [hfailed]
    exact ⟨by simp, Or.inl rfl⟩
  | some cb' =>
    rw [hs] at hloop
    obtain ⟨hoff, hwalk⟩ := hloop
    by_cases hndef : cb'.tlvType = tlvTypeNdef ∧ cb'.tlvDetectState = .value
    · simp only [if_pos hndef]
      obtain hwalk | ⟨_, _, hno⟩ := hwalk
      · exact hwalk.symm.trans (walkOf_found hndef)
      · exact absurd (walkOf_found hndef) (hno _)
    · simp only [if_neg hndef, hoff]
      have hnot' := walkOf_not_found hndef
      split
      case isTrue hle =>
        obtain hwalk | ⟨hfailed, _, _⟩ := hwalk
        · rw [← hwalk]
          exact ⟨hnot', Or.inr hle⟩
        · rw [hfailed]
          exact ⟨by simp, Or.inl rfl⟩
      case isFalse hlt' =>
        obtain hwalk | ⟨_, hend', _⟩ := hwalk
        · rw [← hwalk]
          exact ⟨rfl, rfl, by omega, hnot'⟩
        · exact absurd (of_decide_eq_true hend') hlt'

theorem searchStep_found (hd : Follows d clear) {endOffset : Nat} {p : Piece} {f : FoundTlv}
    (hb : p.data <+: d.bytes p) (hnot : ∀ f, walkOf cb ≠ .found f)
    (hc : ClearPiece d clear (decide (endOffset ≤ cb.rwOffset + (d.bytes p).length)) cb.rwOffset (walkOf cb)
      (d.bytes p)) (hf : d.grammar.feed cb.rwOffset (walkOf cb) p.data = .found f) :
    searchStep d endOffset (.searching cb) p = .found f := by
  have hloop := search_feed hd _ (2 * (d.bytes p).length + 2) cb 0 (d.bytes p)
    (by have := weight_le cb; omega) hnot hc
  have hall : d.grammar.feed (cb.rwOffset + 0) (walkOf cb) (d.bytes p) = .found f := by
    obtain ⟨more, hmore⟩ := hb
    rw [← hmore, TlvGrammar.feed_append, Nat.add_zero, hf, TlvGrammar.feed_found]
  rw [hall] at hloop
  simp only [searchStep]
  cases hs : searchLoop d.turn (2 * (d.bytes p).length + 2) cb 0 (d.bytes p) with
  | none =>
    rw [hs] at hloop
    cases hloop
  | some cb' =>
    rw [hs] at hloop
    obtain ⟨-, hwalk | ⟨hfailed, -⟩⟩ := hloop
    · have hndef : cb'.tlvType = tlvTypeNdef ∧ cb'.tlvDetectState = .value := by
        by_contra hno
        exact walkOf_not_found hno f hwalk
      have hsame := (walkOf_found hndef).symm.trans hwalk
      simp only [if_pos hndef]
      cases hsame
      rfl
    · cases hfailed

theorem searchStep_agrees (hd : Follows d clear) {endOffset pos : Nat} {w : TlvGrammar.Walk}
    {s : Search} (h : Agrees endOffset pos w s) {p : Piece} (hb : p.data <+: d.bytes p)
    (hp : d.bytes p = p.data ∨ hasFound (d.grammar.feed pos w p.data) = true)
    (hend : pos + p.data.length ≤ endOffset)
    (hc : ClearPiece d clear (decide (endOffset ≤ pos + (d.bytes p).length)) pos w (d.bytes p)) :
    Agrees endOffset (pos + p.data.length) (d.grammar.feed pos w p.data) (searchStep d endOffset s p) := by
  cases s with
  | found f =>
    obtain rfl : w = .found f := h
    exact TlvGrammar.feed_found _ _ _
  | failed =>
    obtain ⟨hnot, rfl | hpos⟩ := h
    · rw [TlvGrammar.feed_failed]
      exact ⟨by simp, Or.inl rfl⟩
    · obtain hnil : p.data = [] := List.eq_nil_of_length_eq_zero (by omega)
      rw [hnil]
      exact ⟨hnot, Or.inr hpos⟩
  | searching cb =>
    obtain ⟨rfl, rfl, hlt, hnot⟩ := h
    cases hfeed : d.grammar.feed cb.rwOffset (walkOf cb) p.data with
    | found f => exact searchStep_found hd hb hnot hc hfeed ▸ rfl
    | _ =>
      have hp : d.bytes p = p.data := hp.resolve_right (by rw [hfeed]; exact Bool.false_ne_true)
      rw [← hfeed]
      rw [hp] at hc
      have hloop := search_feed hd _ (2 * p.data.length + 2) cb 0 p.data
        (by have := weight_le cb; omega) hnot hc
      rw [Nat.add_zero] at hloop
      exact searchLoop_agrees hp hloop

def image (ps : List Piece) : List UInt8 := ps.flatMap Piece.data

theorem searchRun_agrees (hd : Follows d clear) (hb : ∀ p, p.data <+: d.bytes p) {endOffset : Nat}
    (ps : List Piece) :
    ∀ {pos : Nat} {w : TlvGrammar.Walk} {s : Search}, Agrees endOffset pos w s →
      pos + (image ps).length = endOffset → Clear d clear endOffset pos w ps →
      Agrees endOffset endOffset (d.grammar.feed pos w (image ps)) (searchRun d endOffset s ps) := by
  induction ps with
  | nil =>
    intro pos w s h hend _
    obtain rfl : pos = endOffset := by simpa [image] using hend
    exact h
  | cons p ps ih =>
    intro pos w s h hend hc
    obtain ⟨hp, hpiece, hrest⟩ := hc
    have himage : image (p :: ps) = p.data ++ image ps := List.flatMap_cons
    rw [himage, List.length_append] at hend
    rw [himage, TlvGrammar.feed_append]
    apply ih
    · exact searchStep_agrees hd h (hb p) hp (by omega) hpiece
    · omega
    · exact hrest

theorem searchRun_exact (hd : Follows d clear) (hb : ∀ p, p.data <+: d.bytes p) (cb : SearchCb) (start : Nat) (ps : List Piece)
    (hne : image ps ≠ [])
    (hc : Clear d clear (start + (image ps).length) start .type ps) :
    (∀ cb', searchRun d (start + (image ps).length) (.searching (startCb cb start)) ps ≠ .searching cb') ∧
    ∀ f, searchRun d (start + (image ps).length) (.searching (startCb cb start)) ps = .found f ↔
      d.grammar.Reaches (image ps) start f := by
  have hpos : 0 < (image ps).length := List.length_pos_iff.mpr hne
  have hstart : Agrees (start + (image ps).length) start .type (.searching (startCb cb start)) :=
    ⟨rfl, rfl, by omega, by simp⟩
  have h := searchRun_agrees hd hb ps hstart rfl hc
  refine ⟨?_, ?_⟩
  · intro cb' hs
    rw [hs] at h
    exact absurd h.2.2.1 (Nat.lt_irrefl _)
  · intro f
    rw [TlvGrammar.reaches_iff]
    constructor
    · intro hs
      rw [hs] at h
      exact h
    · intro hf
      rw [hf] at h
      cases hs : searchRun d (start + (image ps).length) (.searching (startCb cb start)) ps with
      | searching cb' =>
        rw [hs] at h
        exact absurd rfl (h.2.2.2 f)
      | failed =>
        rw [hs] at h
        exact absurd rfl (h.1 f)
      | found f' =>
        rw [hs] at h
        have hf' : TlvGrammar.Walk.found f = .found f' := h
        cases hf'
        rfl

end

theorem i93_follows : Follows rwI93 I93Clear :=
  fun _ _ _ _ _ hfound hc => i93Turn_spec rfl hfound hc

theorem t5t_follows : Follows rwT5t T5tClear :=
  fun _ _ _ _ _ hfound hc => t5tTurn_spec rfl hfound hc

/-- Each search reports the TLV that the walk over its memory reaches, and a failure if it
reaches none, on every memory and every split of it that is clear. Its type and its length
field lie in the memory; its value may go beyond. -/
theorem search_exact (cb : SearchCb) (start : Nat) (ps : List Piece) (hne : image ps ≠ []) :
    (Clear rwI93 I93Clear (start + (image ps).length) start .type ps →
      (∀ cb', searchRun rwI93 (start + (image ps).length) (.searching (startCb cb start)) ps ≠
        .searching cb') ∧
      ∀ f, searchRun rwI93 (start + (image ps).length) (.searching (startCb cb start)) ps = .found f ↔
        i93Grammar.Reaches (image ps) start f) ∧
    (Clear rwT5t T5tClear (start + (image ps).length) start .type ps →
      (∀ cb', searchRun rwT5t (start + (image ps).length) (.searching (startCb cb start)) ps ≠
        .searching cb') ∧
      ∀ f, searchRun rwT5t (start + (image ps).length) (.searching (startCb cb start)) ps = .found f ↔
        t5tGrammar.Reaches (image ps) start f) :=
  ⟨searchRun_exact i93_follows (fun _ => List.prefix_rfl) cb start ps hne,
    searchRun_exact t5t_follows (fun _ => List.prefix_append _ _) cb start ps hne⟩

def zeroCb : SearchCb := ⟨.type, 0, 0, 0, 0, 0⟩

/-- A proprietary TLV that ends with its response, and an NDEF TLV of two bytes behind it. -/
def inTwoPieces : List Piece := [⟨[0xFD, 0x02, 0xAA, 0xBB], []⟩, ⟨[0x03, 0x02, 0xD0, 0x00], []⟩]

/-- An empty NDEF TLV in the container's own block of eight bytes. -/
def inOwnBlock : List Piece := [⟨[0x03, 0x00, 0xFE, 0x00], [0x12, 0x34, 0x56, 0x78]⟩]

theorem search_exact_two :
    i93Grammar.Reaches (image inTwoPieces) 4 ⟨8, 2, 11⟩ ∧
      t5tGrammar.Reaches (image inTwoPieces) 4 ⟨8, 2, 11⟩ ∧
      t5tGrammar.Reaches (image inOwnBlock) 4 ⟨4, 0, 5⟩ := by
  have h := search_exact zeroCb 4 inTwoPieces (by decide)
  have hown := search_exact zeroCb 4 inOwnBlock (by decide)
  refine ⟨?_, ?_, ?_⟩
  · apply ((h.1 ?_).2 _).mp
    · decide
    · decide +kernel
  · apply ((h.2 ?_).2 _).mp
    · decide
    · decide
  · apply ((hown.2 ?_).2 _).mp
    · decide
    · decide

/-- A proprietary TLV of one byte, and an empty NDEF TLV behind it. -/
def behindProp : List Piece := [⟨[0xFD, 0x01, 0xAA, 0x03, 0x00, 0xFE, 0x00, 0x00], []⟩]

def behindNull : List Piece := [⟨[0x00, 0x03, 0x00, 0xFE], []⟩]

/-- The type of the NDEF TLV is passed over with the value before it; and a NULL is taken for
the type of a TLV of three bytes. Both searches report a failure. -/
theorem ndef_passed_over :
    ¬ (∀ (cb : SearchCb) (start : Nat) (ps : List Piece) (f : FoundTlv), image ps ≠ [] →
        (searchRun rwI93 (start + (image ps).length) (.searching (startCb cb start)) ps = .found f ↔
          i93Grammar.Reaches (image ps) start f)) ∧
    ¬ (∀ (cb : SearchCb) (start : Nat) (ps : List Piece) (f : FoundTlv), image ps ≠ [] →
        (searchRun rwT5t (start + (image ps).length) (.searching (startCb cb start)) ps = .found f ↔
          t5tGrammar.Reaches (image ps) start f)) := by
  constructor
  · intro h
    have hfound := (h zeroCb 4 behindProp ⟨7, 0, 8⟩ (by decide)).mpr
      ((TlvGrammar.reaches_iff _ _ _).mpr (by decide))
    exact absurd hfound (by decide)
  · intro h
    have hfound := (h zeroCb 4 behindNull ⟨5, 0, 6⟩ (by decide)).mpr
      ((TlvGrammar.reaches_iff _ _ _).mpr (by decide))
    exact absurd hfound (by decide)

end NfcStack.Rw.I93
