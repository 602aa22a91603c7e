import Mathlib

/- Messages cut into frames. A frame carries a payload and says whether more
   frames of its message follow; `assemble` is what any receiver that only
   looks at that bit makes of a sequence of frames: the completed messages and
   the bytes of the one still open. Both directions of the link are stated
   against it: what a sender puts on the wire, and what a receiver reports. -/
namespace NfcStack.Lib

variable {α : Type}

structure Frame (α : Type) where
  more : Bool
  payload : List α
  deriving DecidableEq, Repr

/-- The messages completed so far, and the bytes of the open one. -/
structure Assembly (α : Type) where
  done : List (List α)
  part : List α
  deriving DecidableEq, Repr

def Assembly.feed (a : Assembly α) (f : Frame α) : Assembly α :=
  if f.more then { a with part := a.part ++ f.payload }
  else { done := a.done ++ [a.part ++ f.payload], part := [] }

def assemble (fs : List (Frame α)) : Assembly α := fs.foldl Assembly.feed ⟨[], []⟩

@[simp] theorem assemble_nil : assemble ([] : List (Frame α)) = ⟨[], []⟩ := rfl

theorem assemble_snoc (fs : List (Frame α)) (f : Frame α) :
    assemble (fs ++ [f]) = (assemble fs).feed f := by
  simp [assemble]

theorem assemble_more (fs : List (Frame α)) (p : List α) :
    assemble (fs ++ [⟨true, p⟩]) = ⟨(assemble fs).done, (assemble fs).part ++ p⟩ := by
  simp [assemble_snoc, Assembly.feed]

theorem assemble_last (fs : List (Frame α)) (p : List α) :
    assemble (fs ++ [⟨false, p⟩]) = ⟨(assemble fs).done ++ [(assemble fs).part ++ p], []⟩ := by
  simp [assemble_snoc, Assembly.feed]

theorem assemble_done_append (fs gs : List (Frame α)) : (assemble fs).done <+: (assemble (fs ++ gs)).done := by
  induction gs using List.reverseRecOn with
  | nil => rw [List.append_nil]
  | append_singleton gs g ih =>
    rw [← List.append_assoc, assemble_snoc]
    unfold Assembly.feed
    split
    · exact ih
    · exact ih.trans (List.prefix_append _ _)

/-- The messages a sender still holds, with the bytes already sent of the first
put back in front of it. -/
def withPart (part : List α) : List (List α) → List (List α)
  | [] => []
  | m :: ms => (part ++ m) :: ms

/-- The frames emitted and the messages held make up exactly the messages
submitted: nothing is lost, repeated or moved into another message. -/
structure Accounts (submitted : List (List α)) (fs : List (Frame α)) (held : List (List α)) : Prop where
  eq : submitted = (assemble fs).done ++ withPart (assemble fs).part held
  idle : held = [] → (assemble fs).part = [] ∧ ∀ f ∈ fs.getLast?, f.more = false

theorem accounts_nil : Accounts ([] : List (List α)) [] [] :=
  ⟨by simp [withPart], by simp⟩

variable {fs : List (Frame α)}

theorem Accounts.submit {sub held : List (List α)} (h : Accounts sub fs held)
    (m : List α) : Accounts (sub ++ [m]) fs (held ++ [m]) := by
  refine ⟨?_, by simp⟩
  cases held with
  | nil =>
    have hp := (h.idle rfl).1
    rw [h.eq, hp]
    simp [withPart]
  | cons x xs =>
    rw [h.eq]
    simp [withPart]

theorem Accounts.emit_more {sub held : List (List α)} {p m : List α}
    (h : Accounts sub fs ((p ++ m) :: held)) :
    Accounts sub (fs ++ [⟨true, p⟩]) (m :: held) := by
  refine ⟨?_, by simp⟩
  rw [h.eq, assemble_more]
  simp [withPart]

theorem Accounts.emit_last {sub held : List (List α)} {m : List α}
    (h : Accounts sub fs (m :: held)) :
    Accounts sub (fs ++ [⟨false, m⟩]) held := by
  constructor
  · rw [h.eq, assemble_last]
    cases held <;> simp [withPart]
  · intro _
    rw [assemble_last]
    simp

theorem Accounts.done_prefix {sub held : List (List α)} (h : Accounts sub fs held) :
    ∃ rest, sub = (assemble fs).done ++ rest ∧
      ((∃ m tail, rest = m :: tail ∧ (assemble fs).part <+: m) ∨
        (assemble fs).part = [] ∧ ∀ f ∈ fs.getLast?, f.more = false) := by
  refine ⟨_, h.eq, ?_⟩
  cases held with
  | nil => exact Or.inr (h.idle rfl)
  | cons m ms => exact Or.inl ⟨_, _, rfl, List.prefix_append _ _⟩

/-! ## Passing frames on -/

/-- What a party that passes messages on has done: the messages it completed are
those it received, up to `trim`, and of the open one it holds back `held`. -/
structure Relays (trim : List α → List α) (inp out : List (Frame α)) (held : List α) : Prop where
  done : (assemble out).done = (assemble inp).done.map trim
  part : (assemble inp).part = (assemble out).part ++ held

theorem relays_nil (trim : List α → List α) : Relays trim [] [] [] := ⟨rfl, rfl⟩

variable {trim : List α → List α}

theorem Relays.hold {inp out : List (Frame α)} {held : List α}
    (h : Relays trim inp out held) (p : List α) :
    Relays trim (inp ++ [⟨true, p⟩]) out (held ++ p) := by
  refine ⟨by rw [assemble_more]; exact h.done, ?_⟩
  rw [assemble_more, h.part, List.append_assoc]

theorem Relays.pass {inp out : List (Frame α)} {held : List α}
    (h : Relays trim inp out held) : Relays trim inp (out ++ [⟨true, held⟩]) [] := by
  refine ⟨by rw [assemble_more]; exact h.done, ?_⟩
  rw [assemble_more, h.part, List.append_nil]

theorem Relays.finish {inp out : List (Frame α)} {held p x : List α} (h : Relays trim inp out held)
    (hx : trim ((assemble out).part ++ (held ++ p)) = (assemble out).part ++ x) :
    Relays trim (inp ++ [⟨false, p⟩]) (out ++ [⟨false, x⟩]) [] := by
  constructor
  · rw [assemble_last, assemble_last, List.map_append, h.done, h.part, List.append_assoc]
    simp [hx]
  · rw [assemble_last, assemble_last]
    rfl

/-! ## Cutting one message -/

/-- The frames a message of `len` bytes goes out in before its last one, when a
frame holds `n`. -/
def frags (n len : Nat) : Nat := (len - 1) / n

theorem frags_short {n len : Nat} (h : len ≤ n) : frags n len = 0 := by
  rw [frags, Nat.div_eq_zero_iff]
  omega

theorem frags_long {n len : Nat} (hn : 1 ≤ n) (h : n < len) :
    frags n len = frags n (len - n) + 1 := by
  have hsplit : len - 1 = len - n - 1 + n := by omega
  rw [frags, frags, hsplit, Nat.add_div_right _ (by omega)]

inductive Cut (n : Nat) : List α → List (Frame α) → Prop
  | last {body : List α} : body.length ≤ n → Cut n body [⟨false, body⟩]
  | more {p body : List α} {fs : List (Frame α)} :
      p.length = n → Cut n body fs → Cut n (p ++ body) (⟨true, p⟩ :: fs)

theorem Cut.payload_le {n : Nat} {body : List α} (h : Cut n body fs) :
    ∀ f ∈ fs, f.payload.length ≤ n := by
  induction h with
  | last hb => simpa using hb
  | more hp _ ih =>
    intro f hf
    obtain rfl | hf := List.mem_cons.mp hf
    · exact hp.le
    · exact ih f hf

theorem Cut.ends_once {n : Nat} {body : List α} (h : Cut n body fs) :
    ∃ init last, fs = init ++ [last] ∧ last.more = false ∧ ∀ f ∈ init, f.more = true := by
  induction h with
  | last _ => exact ⟨[], _, rfl, rfl, by simp⟩
  | more _ _ ih =>
    obtain ⟨init, last, rfl, hl, hi⟩ := ih
    exact ⟨_ :: init, last, rfl, hl, by simpa using hi⟩

end NfcStack.Lib
