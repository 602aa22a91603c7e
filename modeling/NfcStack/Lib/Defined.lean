import Mathlib

/- When a partial computation returns. `Defined c x P` says that `x` returns just when `c`,
   and that what it returns meets `P`. There is one rule for each way to put computations
   together: the conditions of the parts are collected, and what one part is known to return
   is there for the next. The conditions do not depend on what
   a part returns, so that they end up as conditions on the inputs. -/
namespace NfcStack.Lib

variable {α β : Type} {c d : Prop} {x y : Option α} {P Q : α → Prop}

/-- `x` returns just when `c`, and then something that meets `P`. -/
structure Defined (c : Prop) (x : Option α) (P : α → Prop) : Prop where
  isSome : x.isSome ↔ c
  post : ∀ a, x = some a → P a

namespace Defined

theorem pure {a : α} (h : P a) : Defined True (some a) P :=
  ⟨iff_of_true rfl trivial, fun _ ha => Option.some.inj ha ▸ h⟩

theorem fault : Defined False (none : Option α) P :=
  ⟨iff_of_false nofun id, nofun⟩

theorem congr (h : Defined c x P) (hc : c ↔ d) : Defined d x P :=
  ⟨h.isSome.trans hc, h.post⟩

theorem mono (h : Defined c x P) (hP : ∀ a, P a → Q a) : Defined c x Q :=
  ⟨h.isSome, fun a ha => hP a (h.post a ha)⟩

theorem bind {f : α → Option β} {R : β → Prop} (hx : Defined c x P) (hf : ∀ a, P a → Defined d (f a) R) :
    Defined (c ∧ d) (x.bind f) R := by
  cases x with
  | none => exact fault.congr (iff_of_false id fun h => Bool.false_ne_true (hx.isSome.mpr h.1))
  | some a => exact (hf a (hx.post a rfl)).congr (and_iff_right (hx.isSome.mp rfl)).symm

theorem map {f : α → β} {R : β → Prop} (hx : Defined c x P) (hf : ∀ a, P a → R (f a)) :
    Defined c (x.map f) R := by
  cases x with
  | none => exact fault.congr (iff_of_false id fun h => Bool.false_ne_true (hx.isSome.mpr h))
  | some a => exact (pure (hf a (hx.post a rfl))).congr (iff_of_true trivial (hx.isSome.mp rfl))

theorem ite {b : Prop} [Decidable b] (hx : b → Defined c x P) (hy : ¬ b → Defined d y P) :
    Defined ((b → c) ∧ (¬ b → d)) (if b then x else y) P := by
  split
  case isTrue h => exact (hx h).congr ⟨fun hc => ⟨fun _ => hc, fun hn => absurd h hn⟩, fun hc => hc.1 h⟩
  case isFalse h => exact (hy h).congr ⟨fun hd => ⟨fun hb => absurd hb h, fun _ => hd⟩, fun hd => hd.2 h⟩

/-- A check that makes the computation return at once. -/
theorem guard {b : Prop} [Decidable b] {a : α} (ha : P a) (hy : ¬ b → Defined d y P) :
    Defined (b ∨ d) (if b then some a else y) P := by
  split
  case isTrue h => exact (pure ha).congr (iff_of_true trivial (.inl h))
  case isFalse h => exact (hy h).congr (or_iff_right h).symm

/-- The condition of the whole. -/
theorem iff (h : Defined c x fun _ => True) (hc : c ↔ d) : x.isSome ↔ d := h.isSome.trans hc

end Defined

end NfcStack.Lib
