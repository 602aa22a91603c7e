import Mathlib

/- A search for one kind of TLV in a sequence of them, in two forms: the walk over the
   whole bytes (`Reaches`), and an automaton that is fed one byte at a time (`feed`),
   which is what a search over pieces of the bytes can be compared with.

   A TLV is a type, a length of one byte, or of 0xFF and two bytes, and the value. A
   `null` is a TLV of one byte. `reaches_iff` says that the two forms agree. -/
namespace NfcStack.Lib

/-- The type that is looked for, those of the filler and of the end, and the types with
which the search is given up. -/
structure TlvGrammar where
  null : UInt8
  wanted : UInt8
  term : UInt8
  refused : UInt8 → Bool
  wanted_ne_null : wanted ≠ null
  wanted_ne_term : wanted ≠ term

structure FoundTlv where
  start : Nat
  length : Nat
  last : Nat
  deriving DecidableEq, Repr

/-- The length that the bytes start with, and how many bytes it takes. -/
def lengthField : List UInt8 → Option (Nat × Nat)
  | [] => none
  | b :: bs =>
    if b = 0xFF then
      match bs with
      | hi :: lo :: _ => some (hi.toNat * 2 ^ 8 + lo.toNat, 3)
      | _ => none
    else some (b.toNat, 1)

namespace TlvGrammar

inductive Reaches (g : TlvGrammar) : List UInt8 → Nat → FoundTlv → Prop where
  | wanted {bs : List UInt8} {pos len h : Nat} (hl : lengthField bs = some (len, h)) :
      Reaches g (g.wanted :: bs) pos ⟨pos, len, pos + h + len⟩
  | null {bs : List UInt8} {pos : Nat} {f : FoundTlv} (hrest : Reaches g bs (pos + 1) f) :
      Reaches g (g.null :: bs) pos f
  | skip {t : UInt8} {bs : List UInt8} {pos len h : Nat} {f : FoundTlv} (hnull : t ≠ g.null)
      (hwanted : t ≠ g.wanted) (hterm : t ≠ g.term) (hrefused : g.refused t = false)
      (hl : lengthField bs = some (len, h))
      (hrest : Reaches g (bs.drop (h + len)) (pos + 1 + h + len) f) : Reaches g (t :: bs) pos f

/-- Where the automaton is: in a length field with the position of the type, if that is the
wanted one; `value n` with `n` bytes of the value left. A value of no bytes leaves it in
`value 0`. -/
inductive Walk where
  | type
  | length1 (start : Option Nat)
  | length2 (start : Option Nat)
  | length3 (start : Option Nat) (hi : Nat)
  | value (n : Nat)
  | found (f : FoundTlv)
  | failed
  deriving DecidableEq, Repr

def typeMove (g : TlvGrammar) (pos : Nat) (b : UInt8) : Walk :=
  if b = g.null then .type
  else if b = g.wanted then .length1 (some pos)
  else if b = g.term then .failed
  else if g.refused b then .failed
  else .length1 none

/-- After a length that takes `h` bytes. -/
def lengthMove (start : Option Nat) (h len : Nat) : Walk :=
  match start with
  | some pos => .found ⟨pos, len, pos + h + len⟩
  | none => .value len

def move (g : TlvGrammar) (pos : Nat) : Walk → UInt8 → Walk
  | .type, b => g.typeMove pos b
  | .length1 start, b => if b = 0xFF then .length2 start else lengthMove start 1 b.toNat
  | .length2 start, b => .length3 start b.toNat
  | .length3 start hi, b => lengthMove start 3 (hi * 2 ^ 8 + b.toNat)
  | .value 0, b => g.typeMove pos b
  | .value 1, _ => .type
  | .value (n + 2), _ => .value (n + 1)
  | .found f, _ => .found f
  | .failed, _ => .failed

/-- The automaton after the bytes, from the position `pos`. -/
def feed (g : TlvGrammar) : Nat → Walk → List UInt8 → Walk
  | _, w, [] => w
  | pos, w, b :: bs => g.feed (pos + 1) (g.move pos w b) bs

variable {g : TlvGrammar}

@[simp] theorem feed_nil (pos : Nat) (w : Walk) : g.feed pos w [] = w := rfl

@[simp] theorem feed_cons (pos : Nat) (w : Walk) (b : UInt8) (bs : List UInt8) :
    g.feed pos w (b :: bs) = g.feed (pos + 1) (g.move pos w b) bs := rfl

theorem feed_append (as bs : List UInt8) :
    ∀ (pos : Nat) (w : Walk), g.feed pos w (as ++ bs) = g.feed (pos + as.length) (g.feed pos w as) bs := by
  induction as with
  | nil => simp
  | cons a as ih =>
    intro pos w
    rw [List.cons_append, feed_cons, feed_cons, ih, List.length_cons]
    congr 1
    omega

@[simp] theorem feed_found (bs : List UInt8) (f : FoundTlv) :
    ∀ pos, g.feed pos (.found f) bs = .found f := by
  induction bs with
  | nil => exact fun _ => rfl
  | cons b bs ih => exact fun pos => ih (pos + 1)

@[simp] theorem feed_failed (bs : List UInt8) : ∀ pos, g.feed pos .failed bs = .failed := by
  induction bs with
  | nil => exact fun _ => rfl
  | cons b bs ih => exact fun pos => ih (pos + 1)

theorem feed_value (bs : List UInt8) :
    ∀ (pos n : Nat), 0 < n → n ≤ bs.length →
      g.feed pos (.value n) bs = g.feed (pos + n) .type (bs.drop n) := by
  induction bs with
  | nil =>
    intro pos n hpos hn
    simp only [List.length_nil] at hn
    omega
  | cons b bs ih =>
    intro pos n hpos hn
    obtain _ | _ | n := n
    · omega
    · rfl
    · rw [feed_cons, List.drop_succ_cons]
      simp only [move]
      rw [ih _ _ (by omega) (by simpa using hn)]
      congr 1
      omega

theorem feed_value_short (bs : List UInt8) :
    ∀ (pos n : Nat), bs.length < n → g.feed pos (.value n) bs = .value (n - bs.length) := by
  induction bs with
  | nil => simp
  | cons b bs ih =>
    intro pos n hn
    rw [List.length_cons] at hn
    obtain _ | _ | n := n
    · omega
    · omega
    · rw [feed_cons]
      simp only [move]
      rw [ih _ _ (by omega), List.length_cons]
      congr 1
      omega

theorem feed_value_zero (pos : Nat) (bs : List UInt8) (f : FoundTlv) :
    g.feed pos (.value 0) bs = .found f ↔ g.feed pos .type bs = .found f := by
  cases bs <;> simp [move]

theorem feed_length {bs : List UInt8} {len h : Nat} (hl : lengthField bs = some (len, h))
    (start : Option Nat) (pos : Nat) :
    g.feed pos (.length1 start) bs =
      g.feed (pos + h) (lengthMove start h len) (bs.drop h) ∧ h ≤ bs.length := by
  cases bs with
  | nil => simp [lengthField] at hl
  | cons b bs =>
    simp only [lengthField] at hl
    split at hl
    case isTrue hb =>
      split at hl
      case h_1 hi lo rest =>
        simp only [Option.some.injEq, Prod.mk.injEq] at hl
        obtain ⟨rfl, rfl⟩ := hl
        simp [move, hb]
      case h_2 => simp at hl
    case isFalse hb =>
      simp only [Option.some.injEq, Prod.mk.injEq] at hl
      obtain ⟨rfl, rfl⟩ := hl
      simp [move, hb]

theorem feed_length_none {bs : List UInt8} (hl : lengthField bs = none) (start : Option Nat)
    (pos : Nat) (f : FoundTlv) : g.feed pos (.length1 start) bs ≠ .found f := by
  match bs, hl with
  | [], _ => simp
  | [b], hl =>
    by_cases hb : b = 0xFF
    · simp [move, hb]
    · simp [lengthField, hb] at hl
  | [b, c], hl =>
    by_cases hb : b = 0xFF
    · simp [move, hb]
    · simp [lengthField, hb] at hl
  | b :: c :: d :: rest, hl =>
    by_cases hb : b = 0xFF
    · simp [lengthField, hb] at hl
    · simp [lengthField, hb] at hl

theorem feed_skip {bs : List UInt8} {len h : Nat} (hl : lengthField bs = some (len, h)) (pos : Nat)
    (f : FoundTlv) :
    g.feed pos (.length1 none) bs = .found f ↔
      g.feed (pos + h + len) .type (bs.drop (h + len)) = .found f := by
  obtain ⟨hfeed, hle⟩ := @feed_length g bs len h hl none pos
  rw [hfeed]
  simp only [lengthMove]
  rw [← List.drop_drop]
  rcases Nat.eq_zero_or_pos len with rfl | hpos
  · exact feed_value_zero _ _ f
  by_cases hlen : len ≤ (bs.drop h).length
  · rw [feed_value _ _ _ hpos hlen]
  · have hnil : (bs.drop h).drop len = [] := List.drop_eq_nil_of_le (by omega)
    rw [feed_value_short _ _ _ (by omega), hnil]
    simp

theorem feed_of_reaches {bs : List UInt8} {pos : Nat} {f : FoundTlv} (h : g.Reaches bs pos f) :
    g.feed pos .type bs = .found f := by
  induction h with
  | wanted hl =>
    obtain ⟨hfeed, _⟩ := @feed_length g _ _ _ hl (some _) _
    simp only [feed_cons, move, typeMove, g.wanted_ne_null, if_false, if_true]
    rw [hfeed]
    simp [lengthMove]
  | null _ ih => simpa [move, typeMove] using ih
  | skip hnull hwanted hterm hrefused hl _ ih =>
    simp only [feed_cons, move, typeMove, hnull, hwanted, hterm, hrefused, if_false]
    exact (feed_skip hl _ _).mpr ih

theorem reaches_of_feed :
    ∀ (n : Nat) (bs : List UInt8) (pos : Nat) (f : FoundTlv), bs.length ≤ n →
      g.feed pos .type bs = .found f → g.Reaches bs pos f := by
  intro n
  induction n with
  | zero =>
    intro bs pos f hn h
    obtain rfl : bs = [] := List.eq_nil_of_length_eq_zero (by omega)
    simp at h
  | succ n ih =>
    intro bs pos f hn h
    cases bs with
    | nil => simp at h
    | cons t bs =>
      have hlen : bs.length ≤ n := by simpa using hn
      simp only [feed_cons, move, typeMove] at h
      by_cases hnull : t = g.null
      · rw [if_pos hnull] at h
        rw [hnull]
        exact Reaches.null (ih bs _ f hlen h)
      rw [if_neg hnull] at h
      by_cases hwanted : t = g.wanted
      · rw [if_pos hwanted] at h
        cases hl : lengthField bs with
        | none => exact absurd h (feed_length_none hl _ _ f)
        | some lh =>
          obtain ⟨len, k⟩ := lh
          obtain ⟨hfeed, _⟩ := @feed_length g bs len k hl (some pos) (pos + 1)
          rw [hfeed] at h
          simp only [lengthMove, feed_found, Walk.found.injEq] at h
          rw [hwanted, ← h]
          exact Reaches.wanted hl
      rw [if_neg hwanted] at h
      by_cases hterm : t = g.term
      · simp [hterm] at h
      rw [if_neg hterm] at h
      by_cases hrefused : g.refused t = true
      · simp [hrefused] at h
      rw [if_neg hrefused] at h
      cases hl : lengthField bs with
      | none => exact absurd h (feed_length_none hl _ _ f)
      | some lh =>
        obtain ⟨len, k⟩ := lh
        rw [feed_skip hl] at h
        apply Reaches.skip hnull hwanted hterm (by simpa using hrefused) hl
        exact ih _ _ f (by rw [List.length_drop]; omega) h

theorem reaches_iff (bs : List UInt8) (pos : Nat) (f : FoundTlv) :
    g.Reaches bs pos f ↔ g.feed pos .type bs = .found f :=
  ⟨feed_of_reaches, reaches_of_feed bs.length bs pos f (Nat.le_refl _)⟩

end TlvGrammar

end NfcStack.Lib
