import NfcStack.Lib.Run
import NfcStack.Lib.Linked

/- The timer lists of the GKI (`gki_time.cc`: `GKI_add_to_timer_list`,
   `GKI_remove_from_timer_list`, `GKI_update_timer_list`,
   `GKI_get_remaining_ticks`). A list is doubly linked, and every entry stores its
   ticks relative to the entry before it; `last_ticks` is the distance to the
   last one.

   What is proved:
     1. `reps_add`, `reps_remove`, `reps_update`: each operation returns, and
        does to the store what `Timer` lists do in plain terms (`addTimer`,
        removal, `tickAll`).
     2. `timerList_refines`: the same over every run, with the order of the
        deadlines, the sum of the deltas and the remaining ticks of each entry.
     3. `timerList_equal_deadline_first`: an entry inserted before the end comes
        before those with the same deadline, not after them.

   There are `n` entries, and a pointer to one is `Option (Fin n)`. `none` as a
   result is a null pointer followed, or a walk that does not end: the loops have
   one step of fuel more than there are entries. Ticks are integers; those in a
   list stay within 32 bits (`Reps.range`). -/
namespace NfcStack.Gki
open NfcStack.Lib

/-! ## The code -/

def gkiUnusedListEntry : Int := -0x80000000
abbrev gkiMaxTimerQueues : Nat := 3

structure TimerListEnt (n : Nat) where
  pNext : Option (Fin n) := none
  pPrev : Option (Fin n) := none
  ticks : Int := gkiUnusedListEntry
  inUse : Bool := false
  deriving DecidableEq, Repr

/-- The entries, one `TIMER_LIST_Q` at the address `addr`, and the array
`gki_cb.com.timer_queues`. -/
structure Timers (n : Nat) where
  ent : Fin n → TimerListEnt n
  pFirst : Option (Fin n) := none
  pLast : Option (Fin n) := none
  lastTicks : Int := 0
  addr : Nat := 0
  timerQueues : Fin gkiMaxTimerQueues → Option Nat := fun _ => none

section Code
variable {n : Nat}

def Timers.setNext (s : Timers n) (i : Fin n) (p : Option (Fin n)) : Timers n :=
  { s with ent := Function.update s.ent i { s.ent i with pNext := p } }

def Timers.setPrev (s : Timers n) (i : Fin n) (p : Option (Fin n)) : Timers n :=
  { s with ent := Function.update s.ent i { s.ent i with pPrev := p } }

def Timers.setTicks (s : Timers n) (i : Fin n) (t : Int) : Timers n :=
  { s with ent := Function.update s.ent i { s.ent i with ticks := t } }

def Timers.setInUse (s : Timers n) (i : Fin n) (b : Bool) : Timers n :=
  { s with ent := Function.update s.ent i { s.ent i with inUse := b } }

def appendEntry (s : Timers n) (i : Fin n) : Timers n :=
  let total := (s.ent i).ticks
  let s :=
    if s.pFirst = none then { s with pFirst := some i }
    else
      let s := match s.pLast with
        | some l => s.setNext l (some i)
        | none => s
      s.setPrev i s.pLast
  let s := { s.setNext i none with pLast := some i }
  { s.setTicks i (total - s.lastTicks) with lastTicks := total }

/-- The entry that the new one goes in front of. On the way its ticks are made
relative. -/
def findPlace (i : Fin n) : Nat → Timers n → Option (Fin n) → Option (Timers n × Fin n)
  | 0, _, _ => none
  | _ + 1, _, none => none
  | fuel + 1, s, some t =>
    if (s.ent i).ticks > (s.ent t).ticks then
      findPlace i fuel
        (if (s.ent t).ticks > 0 then s.setTicks i ((s.ent i).ticks - (s.ent t).ticks) else s)
        (s.ent t).pNext
    else some (s, t)

/-- The entry is linked in front of `t`. -/
def linkBefore (s : Timers n) (i t : Fin n) : Option (Timers n) :=
  if s.pFirst = some t then
    let s := { (s.setNext i (some t)).setPrev t (some i) with pFirst := some i }
    some (s.setTicks t ((s.ent t).ticks - (s.ent i).ticks))
  else
    (s.ent t).pPrev.map fun p =>
      let s := (((s.setNext p (some i)).setPrev i (some p)).setPrev t (some i)).setNext i (some t)
      s.setTicks t ((s.ent t).ticks - (s.ent i).ticks)

/-- The queue is entered in `timer_queues` if it is not there and a slot is free. -/
def registerQueue (s : Timers n) : Timers n :=
  if ∃ tt, s.timerQueues tt = some s.addr then s
  else
    match (List.finRange gkiMaxTimerQueues).find? fun tt => s.timerQueues tt = none with
    | some tt => { s with timerQueues := Function.update s.timerQueues tt (some s.addr) }
    | none => s

def gkiAddToTimerList (s : Timers n) (i : Fin n) : Option (Timers n) :=
  if (s.ent i).ticks ≥ 0 then
    (if (s.ent i).ticks ≥ s.lastTicks then some (appendEntry s i)
      else (findPlace i (n + 1) s s.pFirst).bind fun r => linkBefore r.1 i r.2).map fun s =>
        registerQueue (s.setInUse i true)
  else some s

/-- The ticks left go to the next entry, or off the end. -/
def passTicks (s : Timers n) (i : Fin n) : Timers n :=
  match (s.ent i).pNext with
  | some j => s.setTicks j ((s.ent j).ticks + (s.ent i).ticks)
  | none => { s with lastTicks := s.lastTicks - (s.ent i).ticks }

/-- The entry is taken out of the chain; false if the chain is messed up. -/
def unlinkEntry (s : Timers n) (i : Fin n) : Timers n × Bool :=
  if s.pFirst = some i then
    let s := { s with pFirst := (s.ent i).pNext }
    let s := match s.pFirst with
      | some f => s.setPrev f none
      | none => s
    (if s.pLast = some i then { s with pLast := none } else s, true)
  else if s.pLast = some i then
    let s := { s with pLast := (s.ent i).pPrev }
    (match s.pLast with
      | some l => s.setNext l none
      | none => s, true)
  else
    match (s.ent i).pNext with
    | some j =>
      if (s.ent j).pPrev = some i then
        let s := s.setPrev j (s.ent i).pPrev
        match (s.ent i).pPrev with
        | some k =>
          if (s.ent k).pNext = some i then (s.setNext k (s.ent i).pNext, true) else (s, false)
        | none => (s, false)
      else (s, false)
    | none => (s, false)

/-- An empty queue leaves `timer_queues`. -/
def unregisterQueue (s : Timers n) : Timers n :=
  if s.pFirst = none ∧ s.pLast = none then
    let s := { s with lastTicks := 0 }
    match (List.finRange gkiMaxTimerQueues).find? fun tt => s.timerQueues tt = some s.addr with
    | some tt => { s with timerQueues := Function.update s.timerQueues tt none }
    | none => s
  else s

/-- `GKI_remove_from_timer_list`. -/
def gkiRemoveFromTimerList (s : Timers n) (i : Fin n) : Timers n :=
  if (s.ent i).inUse = false ∨ s.pFirst = none then s
  else
    let r := unlinkEntry (passTicks s i) i
    if r.2 then
      let s := ((r.1.setPrev i none).setNext i none).setTicks i gkiUnusedListEntry
      unregisterQueue (s.setInUse i false)
    else r.1

/-- The entries that had expired before: their number, and the first that had not. -/
def skipExpired (s : Timers n) : Nat → Option (Fin n) → Option (UInt16 × Option (Fin n))
  | 0, _ => none
  | _ + 1, none => some (0, none)
  | fuel + 1, some t =>
    if (s.ent t).ticks ≤ 0 then
      (skipExpired s fuel (s.ent t).pNext).map fun r => (1 + r.1, r.2)
    else some (0, some t)

/-- The ticks that passed are taken off entry after entry. -/
def adjustTicks : Nat → Timers n → Option (Fin n) → Int → Option (UInt16 × Timers n)
  | 0, _, _, _ => none
  | _ + 1, s, none, _ => some (0, s)
  | fuel + 1, s, some t, remTicks =>
    if remTicks > 0 then
      let ticks := (s.ent t).ticks
      let expired := ticks - remTicks ≤ 0
      (adjustTicks fuel (s.setTicks t (if expired then 0 else ticks - remTicks)) (s.ent t).pNext
        (remTicks - ticks)).map fun r => ((if expired then 1 else 0) + r.1, r.2)
    else some (0, s)

def gkiUpdateTimerList (s : Timers n) (units : Int) : Option (UInt16 × Timers n) :=
  (skipExpired s (n + 1) s.pFirst).bind fun r =>
    (adjustTicks (n + 1) s r.2 units).map fun r' =>
      (r.1 + r'.1,
        { r'.2 with
          lastTicks :=
            if s.lastTicks > 0 then
              if s.lastTicks - units < 0 then 0 else s.lastTicks - units
            else s.lastTicks })

/-- The ticks up to the target, and whether it was found. -/
def sumTicks (s : Timers n) (target : Fin n) : Nat → Option (Fin n) → Option (Int × Bool)
  | 0, _ => none
  | _ + 1, none => some (0, false)
  | fuel + 1, some t =>
    if t = target then some ((s.ent t).ticks, true)
    else (sumTicks s target fuel (s.ent t).pNext).map fun r => ((s.ent t).ticks + r.1, r.2)

/-- `GKI_get_remaining_ticks`. -/
def gkiGetRemainingTicks (s : Timers n) (target : Fin n) : Option Int :=
  if (s.ent target).inUse then
    (sumTicks s target (n + 1) s.pFirst).map fun r => if r.2 then r.1 else 0
  else some 0

inductive TimerOp (n : Nat) where
  | add (i : Fin n) (ticks : Int)
  | remove (i : Fin n)
  | update (units : Int)
  deriving DecidableEq, Repr

def Timers.step (s : Timers n) : TimerOp n → Option (Timers n)
  | .add i ticks => gkiAddToTimerList (s.setTicks i ticks) i
  | .remove i => some (gkiRemoveFromTimerList s i)
  | .update units => (gkiUpdateTimerList s units).map (·.2)

end Code

/-! ## What the store looks like -/

section Stores
variable {n : Nat}

def links (s : Timers n) (i : Fin n) : Link (Fin n) := ⟨(s.ent i).pNext, (s.ent i).pPrev⟩
def ticksOf (s : Timers n) (i : Fin n) : Int := (s.ent i).ticks
def inUseOf (s : Timers n) (i : Fin n) : Bool := (s.ent i).inUse

/-- A store to one field of an entry, seen through a function of the entries. -/
theorem through_update {α : Type} (ent : Fin n → TimerListEnt n) (i : Fin n) (e : TimerListEnt n)
    (f : TimerListEnt n → α) :
    (fun j => f (Function.update ent i e j)) = Function.update (fun j => f (ent j)) i (f e) := by
  funext j
  by_cases h : j = i
  · rw [h, Function.update_self, Function.update_self]
  · rw [Function.update_of_ne h, Function.update_of_ne h]

theorem through_update_same {α : Type} (ent : Fin n → TimerListEnt n) (i : Fin n)
    (e : TimerListEnt n) (f : TimerListEnt n → α) (h : f e = f (ent i)) :
    (fun j => f (Function.update ent i e j)) = fun j => f (ent j) := by
  rw [through_update, h, Function.update_eq_self]

@[simp] theorem links_setNext (s : Timers n) (i : Fin n) (p : Option (Fin n)) :
    links (s.setNext i p) = Function.update (links s) i ⟨p, (links s i).prev⟩ :=
  through_update s.ent i _ fun e => (⟨e.pNext, e.pPrev⟩ : Link (Fin n))

@[simp] theorem links_setPrev (s : Timers n) (i : Fin n) (p : Option (Fin n)) :
    links (s.setPrev i p) = Function.update (links s) i ⟨(links s i).next, p⟩ :=
  through_update s.ent i _ fun e => (⟨e.pNext, e.pPrev⟩ : Link (Fin n))

@[simp] theorem links_setTicks (s : Timers n) (i : Fin n) (t : Int) :
    links (s.setTicks i t) = links s :=
  through_update_same s.ent i _ (fun e => (⟨e.pNext, e.pPrev⟩ : Link (Fin n))) rfl

@[simp] theorem links_setInUse (s : Timers n) (i : Fin n) (b : Bool) :
    links (s.setInUse i b) = links s :=
  through_update_same s.ent i _ (fun e => (⟨e.pNext, e.pPrev⟩ : Link (Fin n))) rfl

@[simp] theorem ticksOf_setNext (s : Timers n) (i : Fin n) (p : Option (Fin n)) :
    ticksOf (s.setNext i p) = ticksOf s :=
  through_update_same s.ent i _ (·.ticks) rfl

@[simp] theorem ticksOf_setPrev (s : Timers n) (i : Fin n) (p : Option (Fin n)) :
    ticksOf (s.setPrev i p) = ticksOf s :=
  through_update_same s.ent i _ (·.ticks) rfl

@[simp] theorem ticksOf_setTicks (s : Timers n) (i : Fin n) (t : Int) :
    ticksOf (s.setTicks i t) = Function.update (ticksOf s) i t :=
  through_update s.ent i _ (·.ticks)

@[simp] theorem ticksOf_setInUse (s : Timers n) (i : Fin n) (b : Bool) :
    ticksOf (s.setInUse i b) = ticksOf s :=
  through_update_same s.ent i _ (·.ticks) rfl

@[simp] theorem inUseOf_setNext (s : Timers n) (i : Fin n) (p : Option (Fin n)) :
    inUseOf (s.setNext i p) = inUseOf s :=
  through_update_same s.ent i _ (·.inUse) rfl

@[simp] theorem inUseOf_setPrev (s : Timers n) (i : Fin n) (p : Option (Fin n)) :
    inUseOf (s.setPrev i p) = inUseOf s :=
  through_update_same s.ent i _ (·.inUse) rfl

@[simp] theorem inUseOf_setTicks (s : Timers n) (i : Fin n) (t : Int) :
    inUseOf (s.setTicks i t) = inUseOf s :=
  through_update_same s.ent i _ (·.inUse) rfl

@[simp] theorem inUseOf_setInUse (s : Timers n) (i : Fin n) (b : Bool) :
    inUseOf (s.setInUse i b) = Function.update (inUseOf s) i b :=
  through_update s.ent i _ (·.inUse)

/-! ## Timers in plain terms -/

/-- A running timer: what was asked for, and how much of it has passed. -/
structure Timer (n : Nat) where
  id : Fin n
  requested : Int
  elapsed : Int
  deriving DecidableEq, Repr

def Timer.rem (t : Timer n) : Int := max 0 (t.requested - t.elapsed)

def ids (ts : List (Timer n)) : List (Fin n) := ts.map (·.id)

/-- The timers with what is left of each. -/
def rems (ts : List (Timer n)) : List (Fin n × Int) := ts.map fun t => (t.id, t.rem)

/-- What is left of the last timer. -/
def endRem (ts : List (Timer n)) : Int := lastVal 0 (rems ts)

/-- A new timer goes to the end if it is not due before the last one, and else in
front of the first one that is not due before it. -/
def addTimer (ts : List (Timer n)) (t : Timer n) : List (Timer n) :=
  if endRem ts ≤ t.rem then ts ++ [t]
  else ts.takeWhile (·.rem < t.rem) ++ t :: ts.dropWhile (·.rem < t.rem)

def tickAll (units : Int) (ts : List (Timer n)) : List (Timer n) :=
  ts.map fun t => { t with elapsed := t.elapsed + units }

/-- The operations on plain lists of timers. -/
def timerStep (ts : List (Timer n)) : TimerOp n → List (Timer n)
  | .add i ticks => addTimer ts ⟨i, ticks, 0⟩
  | .remove i => ts.filter (·.id ≠ i)
  | .update units => tickAll units ts

structure Reps (s : Timers n) (ts : List (Timer n)) : Prop where
  nodup : (ids ts).Nodup
  chain : Seg (links s) none none (ids ts)
  first : s.pFirst = headOr none (ids ts)
  last : s.pLast = lastOr none (ids ts)
  deltas : Deltas (ticksOf s) 0 (rems ts)
  lastTicks : s.lastTicks = endRem ts
  inUse : ∀ i, inUseOf s i = true ↔ i ∈ ids ts
  idle : ∀ i ∉ ids ts, links s i = ⟨none, none⟩
  sorted : ts.Pairwise fun a b => a.rem ≤ b.rem
  range : endRem ts < 0x80000000

theorem ids_append (as bs : List (Timer n)) : ids (as ++ bs) = ids as ++ ids bs := by simp [ids]

theorem rems_append (as bs : List (Timer n)) : rems (as ++ bs) = rems as ++ rems bs := by
  simp [rems]

theorem map_fst_rems (ts : List (Timer n)) : (rems ts).map Prod.fst = ids ts := by
  simp [rems, ids]

theorem Timer.rem_nonneg (t : Timer n) : 0 ≤ t.rem := le_max_left _ _

variable {i : Fin n}

theorem rem_new {r : Int} (h : 0 ≤ r) : (⟨i, r, 0⟩ : Timer n).rem = r := by
  simp [Timer.rem, h]

variable {s : Timers n} {ts : List (Timer n)}

/-- The chain, its ends and the differences are all of `Reps` that a list of
entries needs; the rest is about the entries outside. -/
theorem Reps.setTicks_idle (h : Reps s ts)
    (hi : i ∉ ids ts) (r : Int) : Reps (s.setTicks i r) ts := by
  refine ⟨h.nodup, by simpa using h.chain, h.first, h.last, ?_, h.lastTicks, ?_, ?_, h.sorted,
    h.range⟩
  · rw [ticksOf_setTicks]
    exact deltas_update (map_fst_rems ts ▸ hi) r h.deltas
  · simpa using h.inUse
  · simpa using h.idle

theorem Reps.timerQueues (h : Reps s ts)
    (q : Fin gkiMaxTimerQueues → Option Nat) : Reps { s with timerQueues := q } ts :=
  ⟨h.nodup, h.chain, h.first, h.last, h.deltas, h.lastTicks, h.inUse, h.idle, h.sorted, h.range⟩

theorem Reps.registerQueue (h : Reps s ts) :
    Reps (registerQueue s) ts := by
  unfold Gki.registerQueue
  split
  · exact h
  · split
    · exact h.timerQueues _
    · exact h

/-! ## Adding -/

theorem rem_le_endRem : ∀ {ts : List (Timer n)} {base : Int}, ts.Pairwise (fun a b => a.rem ≤ b.rem) →
    (∀ t ∈ ts, base ≤ t.rem) → (∀ t ∈ ts, t.rem ≤ lastVal base (rems ts)) ∧ base ≤ lastVal base (rems ts)
  | [], _, _, _ => by simp [rems, lastVal]
  | t :: ts, base, hs, hb => by
    obtain ⟨ht, hts⟩ := List.pairwise_cons.mp hs
    obtain ⟨hall, hle⟩ := rem_le_endRem hts ht
    have hbt := hb t (by simp)
    refine ⟨?_, le_trans hbt hle⟩
    intro u hu
    obtain rfl | hu := List.mem_cons.mp hu
    · exact hle
    · exact hall u hu

theorem Reps.rem_le_endRem (h : Reps s ts) :
    ∀ t ∈ ts, t.rem ≤ endRem ts :=
  (Gki.rem_le_endRem h.sorted fun t _ => t.rem_nonneg).1

variable {t : Timer n}

/-- What is left to show when a timer is put between `A` and `B`. -/
theorem Reps.insert {s s' : Timers n} {A B : List (Timer n)} (h : Reps s (A ++ B))
    (hi : t.id ∉ ids (A ++ B)) (hA : ∀ a ∈ A, a.rem ≤ t.rem) (hB : ∀ b ∈ B, t.rem ≤ b.rem)
    (hr : t.rem < 0x80000000) (chain : Seg (links s') none none (ids (A ++ t :: B)))
    (first : s'.pFirst = headOr none (ids (A ++ t :: B)))
    (last : s'.pLast = lastOr none (ids (A ++ t :: B)))
    (deltas : Deltas (ticksOf s') 0 (rems (A ++ t :: B)))
    (lastTicks : s'.lastTicks = endRem (A ++ t :: B))
    (use : inUseOf s' = Function.update (inUseOf s) t.id true)
    (idle : ∀ j ∉ ids (A ++ t :: B), links s' j = links s j) : Reps s' (A ++ t :: B) := by
  have hmem : ∀ j, j ∈ ids (A ++ t :: B) ↔ j = t.id ∨ j ∈ ids (A ++ B) := by
    intro j
    rw [ids_append, ids_append, List.mem_append, List.mem_append]
    change j ∈ ids A ∨ j ∈ t.id :: ids B ↔ _
    rw [List.mem_cons]
    tauto
  refine ⟨?_, chain, first, last, deltas, lastTicks, ?_, ?_, ?_, ?_⟩
  · have hperm : (ids (A ++ t :: B)).Perm (t.id :: ids (A ++ B)) := List.perm_middle.map _
    exact hperm.nodup_iff.mpr (List.nodup_cons.mpr ⟨hi, h.nodup⟩)
  · intro j
    rw [use, hmem]
    by_cases hj : j = t.id
    · simp [hj]
    · rw [Function.update_of_ne hj, h.inUse j]
      simp [hj]
  · intro j hj
    rw [idle j hj]
    exact h.idle j fun hj' => hj ((hmem j).mpr (.inr hj'))
  · obtain ⟨hsA, hsB, hAB⟩ := List.pairwise_append.mp h.sorted
    refine List.pairwise_append.mpr ⟨hsA, List.pairwise_cons.mpr ⟨hB, hsB⟩, ?_⟩
    intro a ha b hb
    obtain rfl | hb := List.mem_cons.mp hb
    · exact hA a ha
    · exact hAB a ha b hb
  · obtain rfl | ⟨B', l, rfl⟩ := List.eq_nil_or_concat' B
    · simpa [endRem, rems, lastVal] using hr
    · simpa [endRem, rems, lastVal] using h.range

theorem reps_append (h : Reps s ts)
    (hi : i ∉ ids ts) (hlast : endRem ts ≤ ticksOf s i) (hpos : 0 ≤ ticksOf s i)
    (hr : ticksOf s i < 0x80000000) :
    Reps ((appendEntry s i).setInUse i true) (ts ++ [⟨i, ticksOf s i, 0⟩]) := by
  set t : Timer n := ⟨i, ticksOf s i, 0⟩
  have hrem : t.rem = ticksOf s i := rem_new hpos
  have hidle : links s i = ⟨none, none⟩ := h.idle i hi
  have h' : Reps s (ts ++ []) := by simpa using h
  have hdelta : Deltas (Function.update (ticksOf s) i (ticksOf s i - s.lastTicks)) 0
      (rems (ts ++ [t])) := by
    rw [rems_append, deltas_append]
    refine ⟨deltas_update (map_fst_rems ts ▸ hi) _ h.deltas, ?_, trivial⟩
    change Function.update (ticksOf s) i _ i = t.rem - endRem ts
    rw [Function.update_self, hrem, h.lastTicks]
  have hend : ticksOf s i = endRem (ts ++ [t]) := by
    rw [← hrem]
    simp [endRem, rems, lastVal]
  have hle : ∀ a ∈ ts, a.rem ≤ t.rem := by
    intro a ha
    rw [hrem]
    exact le_trans (h.rem_le_endRem a ha) hlast
  obtain rfl | ⟨A, l, rfl⟩ := List.eq_nil_or_concat' ts
  · have hfirst : s.pFirst = none := h.first
    have heq : (appendEntry s i).setInUse i true =
        { ((s.setNext i none).setTicks i (ticksOf s i - s.lastTicks)).setInUse i true with
          pFirst := some i, pLast := some i, lastTicks := ticksOf s i } := by
      simp [appendEntry, hfirst, Timers.setNext, Timers.setTicks, Timers.setInUse, ticksOf]
    rw [heq]
    refine h'.insert (by simpa using hi) hle (by simp) (hrem ▸ hr) ?_ rfl rfl ?_ hend ?_ ?_
    · change Seg (links (((s.setNext i none).setTicks i _).setInUse i true)) none none [i]
      simp [Seg, headOr, hidle]
    · change Deltas (ticksOf (((s.setNext i none).setTicks i _).setInUse i true)) 0 _
      simpa using hdelta
    · change inUseOf (((s.setNext i none).setTicks i _).setInUse i true) =
        Function.update (inUseOf s) i true
      simp
    · intro j hj
      change links (((s.setNext i none).setTicks i _).setInUse i true) j = _
      have hji : j ≠ i := by simpa [ids] using hj
      simp [hji]
  · have hids : ids (A ++ [l]) = ids A ++ [l.id] := by simp [ids]
    have hfirst : s.pFirst ≠ none := by
      rw [h.first, hids]
      cases ids A <;> simp [headOr]
    have hpl : s.pLast = some l.id := by simp [h.last, hids, lastOr]
    have hil : i ≠ l.id := by
      rintro rfl
      exact hi (by simp [hids])
    have heq : (appendEntry s i).setInUse i true =
        { ((((s.setNext l.id (some i)).setPrev i (some l.id)).setNext i none).setTicks i
          (ticksOf s i - s.lastTicks)).setInUse i true with
          pLast := some i, lastTicks := ticksOf s i } := by
      have hpl' : (s.setNext l.id (some i)).pLast = some l.id := hpl
      simp only [appendEntry, if_neg hfirst, hpl, hpl']
      rfl
    obtain ⟨hndA, -, hlA⟩ := List.nodup_append'.mp (hids ▸ h.nodup)
    rw [heq]
    refine h'.insert (by simpa using hi) hle (by simp) (hrem ▸ hr) ?_ ?_ ?_ ?_ hend ?_ ?_
    · change Seg (links (((((s.setNext l.id (some i)).setPrev i (some l.id)).setNext i none).setTicks i
        _).setInUse i true)) none none _
      rw [ids_append, seg_append]
      simp only [links_setInUse, links_setTicks, links_setNext, links_setPrev]
      refine ⟨seg_update hi _ (seg_update hi _ ?_), ?_, trivial⟩
      · have hseg := h.chain
        rw [hids] at hseg ⊢
        exact seg_setNext (by simpa using hlA) hseg (some i)
      · simp [hids, lastOr, headOr, t]
    · rw [show (A ++ [l] ++ t :: []) = (A ++ [l]) ++ [t] from rfl, ids_append, headOr_append, hids]
      change s.pFirst = _
      rw [h.first, hids]
      cases ids A <;> rfl
    · simp [ids, lastOr, t]
    · change Deltas (ticksOf (((((s.setNext l.id (some i)).setPrev i (some l.id)).setNext i
        none).setTicks i _).setInUse i true)) 0 _
      simpa using hdelta
    · change inUseOf (((((s.setNext l.id (some i)).setPrev i (some l.id)).setNext i none).setTicks i
        _).setInUse i true) = Function.update (inUseOf s) i true
      simp
    · intro j hj
      change links (((((s.setNext l.id (some i)).setPrev i (some l.id)).setNext i none).setTicks i
        _).setInUse i true) j = _
      have hji : j ≠ i ∧ j ≠ l.id := by
        constructor <;> rintro rfl <;> exact hj (by simp [ids, t])
      simp [hji.1, hji.2]

theorem setTicks_self (s : Timers n) (i : Fin n) : s.setTicks i (ticksOf s i) = s := by
  simp [Timers.setTicks, ticksOf]

theorem setTicks_setTicks (s : Timers n) (i : Fin n) (a b : Int) :
    (s.setTicks i a).setTicks i b = s.setTicks i b := by
  simp [Timers.setTicks]

/-- The walk stops at the first entry that is not due before the new one. -/
theorem findPlace_spec {r : Int} {b : Timer n} {B : List (Timer n)} (hb : r ≤ b.rem) :
    ∀ (A : List (Timer n)) (s : Timers n) (fuel : Nat) (base : Int) (prev : Option (Fin n)),
      Seg (links s) prev none (ids (A ++ b :: B)) → Deltas (ticksOf s) base (rems (A ++ b :: B)) →
      (∀ a ∈ A, a.rem < r) → (∀ a ∈ A, base ≤ a.rem) → A.Pairwise (fun a b => a.rem ≤ b.rem) →
      i ∉ ids (A ++ b :: B) → ticksOf s i = r - base → A.length < fuel →
      findPlace i fuel s (headOr none (ids (A ++ b :: B))) =
        some (s.setTicks i (r - lastVal base (rems A)), b.id)
  | [], s, fuel + 1, base, _, _, hd, _, _, _, _, ht, _ => by
    have hdb : ticksOf s b.id = b.rem - base := hd.1
    have hnot : ¬ (s.ent i).ticks > (s.ent b.id).ticks := by
      change ¬ ticksOf s i > ticksOf s b.id
      omega
    change findPlace i (fuel + 1) s (some b.id) = some (s.setTicks i (r - base), b.id)
    rw [findPlace, if_neg hnot, ← ht, setTicks_self]
  | a :: A, s, fuel + 1, base, prev, hseg, hd, hlt, hbase, hsort, hi, ht, hfuel => by
    obtain ⟨hda, hd⟩ := hd
    obtain ⟨hla, hseg⟩ := hseg
    change ticksOf s a.id = a.rem - base at hda
    have hia : i ≠ a.id ∧ i ∉ ids (A ++ b :: B) := by simpa [ids] using hi
    have har := hlt a (by simp)
    have hba := hbase a (by simp)
    have hgt : (s.ent i).ticks > (s.ent a.id).ticks := by
      change ticksOf s i > ticksOf s a.id
      omega
    have hs' : (if (s.ent a.id).ticks > 0 then
        s.setTicks i ((s.ent i).ticks - (s.ent a.id).ticks) else s) = s.setTicks i (r - a.rem) := by
      change (if ticksOf s a.id > 0 then s.setTicks i (ticksOf s i - ticksOf s a.id) else s) = _
      split
      · rw [ht, hda, show r - base - (a.rem - base) = r - a.rem by omega]
      · rw [show r - a.rem = ticksOf s i by omega, setTicks_self]
    have hnext : (s.ent a.id).pNext = headOr none (ids (A ++ b :: B)) := congrArg Link.next hla
    change findPlace i (fuel + 1) s (some a.id) = _
    rw [findPlace, if_pos hgt, hs', hnext]
    obtain ⟨haA, hsort⟩ := List.pairwise_cons.mp hsort
    have hd' : Deltas (ticksOf (s.setTicks i (r - a.rem))) a.rem (rems (A ++ b :: B)) := by
      rw [ticksOf_setTicks]
      exact deltas_update (map_fst_rems (A ++ b :: B) ▸ hia.2) _ hd
    rw [findPlace_spec hb A (s.setTicks i (r - a.rem)) fuel a.rem (some a.id)
      (by rw [links_setTicks]; exact hseg) hd' (fun x hx => hlt x (by simp [hx])) haA hsort hia.2
      (by simp) (by simpa using hfuel), setTicks_setTicks]
    rfl

theorem ids_cons (t : Timer n) (ts : List (Timer n)) : ids (t :: ts) = t.id :: ids ts := rfl

theorem Reps.nodup_middle {A B : List (Timer n)} {b : Timer n}
    (h : Reps s (A ++ b :: B)) : b.id ∉ ids A ∧ b.id ∉ ids B := by
  have hnd := h.nodup
  rw [ids_append, ids_cons, List.nodup_middle, List.nodup_cons, List.mem_append, not_or] at hnd
  exact hnd.1

/-- The last step of linking: the ticks of `b` are taken relative to the new entry. -/
theorem Reps.deltas_link {s s₁ : Timers n} {A B : List (Timer n)} {b t : Timer n}
    (h : Reps s (A ++ b :: B)) (hi : t.id ∉ ids (A ++ b :: B))
    (h₁ : ticksOf s₁ = Function.update (ticksOf s) t.id (t.rem - lastVal 0 (rems A))) :
    Deltas (ticksOf (s₁.setTicks b.id ((s₁.ent b.id).ticks - (s₁.ent t.id).ticks))) 0
      (rems (A ++ t :: b :: B)) := by
  obtain ⟨hbA, hbB⟩ := h.nodup_middle
  simp only [ids_append, ids_cons, List.mem_append, List.mem_cons, not_or] at hi
  obtain ⟨hiA, htb, hiB⟩ := hi
  have hold : Deltas (ticksOf s) 0 (rems A ++ (b.id, b.rem) :: rems B) :=
    rems_append A (b :: B) ▸ h.deltas
  rw [ticksOf_setTicks]
  change Deltas (Function.update (ticksOf s₁) b.id (ticksOf s₁ b.id - ticksOf s₁ t.id)) 0 _
  rw [h₁, Function.update_self, Function.update_of_ne (Ne.symm htb), rems_append]
  refine deltas_insert (x := (t.id, t.rem)) ?_ ?_ hold
  · simpa [map_fst_rems] using ⟨hiA, htb, hiB⟩
  · simpa [map_fst_rems] using ⟨hbA, hbB⟩

/-- The entry, with its ticks already relative, comes in front of the first one. -/
theorem reps_linkFirst {B : List (Timer n)} {b t : Timer n}
    (h : Reps s (b :: B)) (hi : t.id ∉ ids (b :: B)) (hB : ∀ x ∈ b :: B, t.rem ≤ x.rem)
    (hr : t.rem < 0x80000000) :
    ∃ s', linkBefore (s.setTicks t.id t.rem) t.id b.id = some s' ∧
      Reps (s'.setInUse t.id true) (t :: b :: B) := by
  have hidle : links s t.id = ⟨none, none⟩ := h.idle _ hi
  have hbB : b.id ∉ ids B := (h.nodup_middle (A := [])).2
  obtain ⟨htb, hiB⟩ : t.id ≠ b.id ∧ t.id ∉ ids B := by simpa [ids_cons] using hi
  have hfirst : (s.setTicks t.id t.rem).pFirst = some b.id := h.first
  refine ⟨_, by rw [linkBefore, if_pos hfirst], ?_⟩
  set s₁ := ((s.setTicks t.id t.rem).setNext t.id (some b.id)).setPrev b.id (some t.id) with hs₁
  have hlinks : links s₁ = Function.update (Function.update (links s) t.id ⟨some b.id, none⟩) b.id
      ⟨(Function.update (links s) t.id ⟨some b.id, none⟩ b.id).next, some t.id⟩ := by
    simp [hs₁, hidle]
  refine Reps.insert (A := []) h hi (by simp) hB hr ?_ rfl h.last ?_ ?_ ?_ ?_
  · change Seg (links ((s₁.setTicks b.id _).setInUse t.id true)) none none (t.id :: b.id :: ids B)
    rw [links_setInUse, links_setTicks, hlinks]
    refine ⟨?_, seg_setPrev hbB (seg_update hi _ h.chain) _⟩
    rw [Function.update_of_ne htb, Function.update_self]
    rfl
  · rw [ticksOf_setInUse]
    refine Reps.deltas_link (A := []) h hi ?_
    change ticksOf s₁ = _
    simp [hs₁, rems, lastVal]
  · change s.lastTicks = _
    rw [h.lastTicks]
    rfl
  · change inUseOf ((s₁.setTicks b.id _).setInUse t.id true) = _
    simp [hs₁]
  · intro j hj
    change links ((s₁.setTicks b.id _).setInUse t.id true) j = _
    have hj' : j ≠ t.id ∧ j ≠ b.id := by
      constructor <;> rintro rfl <;> exact hj (by simp [ids])
    rw [links_setInUse, links_setTicks, hlinks, Function.update_of_ne hj'.2,
      Function.update_of_ne hj'.1]

/-- The entry, with its ticks already relative, comes between `p` and `b`. -/
theorem reps_linkMiddle {A B : List (Timer n)} {p b t : Timer n}
    (h : Reps s (A ++ [p] ++ b :: B)) (hi : t.id ∉ ids (A ++ [p] ++ b :: B))
    (hA : ∀ a ∈ A ++ [p], a.rem ≤ t.rem) (hB : ∀ x ∈ b :: B, t.rem ≤ x.rem)
    (hr : t.rem < 0x80000000) :
    ∃ s', linkBefore (s.setTicks t.id (t.rem - lastVal 0 (rems (A ++ [p])))) t.id b.id = some s' ∧
      Reps (s'.setInUse t.id true) (A ++ [p] ++ t :: b :: B) := by
  have hids : ids (A ++ [p]) = ids A ++ [p.id] := by simp [ids]
  obtain ⟨hbA, hbB⟩ := h.nodup_middle
  obtain ⟨hpA, hpB⟩ : p.id ∉ ids A ∧ p.id ∉ ids (b :: B) :=
    Reps.nodup_middle (s := s) (by simpa using h)
  have hseg := h.chain
  rw [ids_append] at hseg
  obtain ⟨hsegA, hsegB⟩ := seg_append.mp hseg
  have hi' := hi
  simp only [ids_append (A ++ [p]), List.mem_append, not_or] at hi'
  obtain ⟨hiA, hiB⟩ := hi'
  have htb : t.id ≠ b.id := fun htb => hiB (by simp [ids_cons, htb])
  set d := t.rem - lastVal 0 (rems (A ++ [p])) with hd
  have hprev : ((s.setTicks t.id d).ent b.id).pPrev = some p.id := by
    change (links (s.setTicks t.id d) b.id).prev = _
    rw [links_setTicks, hsegB.1]
    simp [hids, lastOr]
  have hfirst : (s.setTicks t.id d).pFirst ≠ some b.id := by
    change s.pFirst ≠ _
    intro hf
    rw [h.first, ids_append, hids] at hf
    rw [hids] at hbA
    exact hbA (mem_of_headOr (headOr_append _ _ _ ▸ hf))
  refine ⟨_, by rw [linkBefore, if_neg hfirst, hprev, Option.map_some], ?_⟩
  set s₁ := ((((s.setTicks t.id d).setNext p.id (some t.id)).setPrev t.id (some p.id)).setPrev b.id
    (some t.id)).setNext t.id (some b.id) with hs₁
  refine h.insert hi hA hB hr ?_ ?_ ?_ ?_ ?_ ?_ ?_
  · rw [links_setInUse, links_setTicks, ids_append, ids_cons, seg_append]
    simp only [hs₁, links_setTicks, links_setNext, links_setPrev]
    refine ⟨seg_update hiA _ (seg_update hbA _ (seg_update hiA _ ?_)), ?_,
      seg_update hiB _ (seg_setPrev hbB (seg_update hiB _ (seg_update hpB _ hsegB)) _)⟩
    · rw [hids] at hsegA ⊢
      exact seg_setNext hpA hsegA _
    · rw [Function.update_self, Function.update_of_ne htb, Function.update_self]
      simp [hids, lastOr, ids_cons, headOr]
  · change s.pFirst = _
    rw [h.first]
    simp only [ids_append (A ++ [p]), hids, headOr_append]
    rfl
  · change s.pLast = _
    rw [h.last]
    simp only [ids_append (A ++ [p]), lastOr_append, ids_cons, lastOr]
  · rw [ticksOf_setInUse]
    refine h.deltas_link hi ?_
    simp [hs₁, hd]
  · change s.lastTicks = _
    rw [h.lastTicks]
    simp [endRem, rems, lastVal]
  · simp [hs₁]
  · intro j hj
    have hj' : j ≠ t.id ∧ j ≠ b.id ∧ j ≠ p.id := by
      refine ⟨?_, ?_, ?_⟩ <;> rintro rfl <;> exact hj (by simp [ids])
    simp [hs₁, hj']

/-- Some timer is due as late as the last one, unless there is none. -/
theorem exists_of_lt_endRem {r : Int} (hr : 0 ≤ r) (h : r < endRem ts) :
    ∃ t ∈ ts, r < t.rem := by
  obtain rfl | ⟨ts, l, rfl⟩ := List.eq_nil_or_concat' ts
  · exact absurd h (by simp [endRem, rems, lastVal, hr])
  · exact ⟨l, by simp, by simpa [endRem, rems, lastVal] using h⟩

theorem Reps.length_le (h : Reps s ts) : ts.length ≤ n := by
  simpa [ids] using h.nodup.length_le_card

theorem reps_add (h : Reps s ts)
    (hi : inUseOf s i = false) {r : Int} (hpos : 0 ≤ r) (hr : r < 0x80000000) :
    ∃ s', gkiAddToTimerList (s.setTicks i r) i = some s' ∧ Reps s' (addTimer ts ⟨i, r, 0⟩) := by
  have hmem : i ∉ ids ts := fun hm => by simp [(h.inUse i).mpr hm] at hi
  have hs : Reps (s.setTicks i r) ts := h.setTicks_idle hmem r
  have ht : ((s.setTicks i r).ent i).ticks = r := by simp [Timers.setTicks]
  have ht' : ticksOf (s.setTicks i r) i = r := ht
  have hrem : (⟨i, r, 0⟩ : Timer n).rem = r := rem_new hpos
  rw [gkiAddToTimerList, ht, if_pos hpos, addTimer, hrem]
  by_cases hlast : endRem ts ≤ r
  · rw [if_pos hlast, if_pos (hs.lastTicks ▸ hlast)]
    refine ⟨_, rfl, Reps.registerQueue ?_⟩
    have happ := reps_append hs hmem (by rwa [ht']) (by rwa [ht']) (by rwa [ht'])
    rwa [ht'] at happ
  · rw [if_neg hlast, if_neg (fun hge => hlast (hs.lastTicks ▸ hge))]
    have hsplit := List.takeWhile_append_dropWhile (p := fun t : Timer n => t.rem < r) (l := ts)
    have hA : ∀ a ∈ ts.takeWhile (·.rem < r), a.rem < r := fun a ha => by
      simpa using List.mem_takeWhile_imp ha
    generalize ts.takeWhile (·.rem < r) = A at hsplit hA ⊢
    cases hB : ts.dropWhile (·.rem < r) with
    | nil =>
      -- impossible: some timer is due after the new one, and the walk stops there at the latest
      obtain ⟨t, htm, htr⟩ := exists_of_lt_endRem hpos (not_le.mp hlast)
      have := List.dropWhile_eq_nil_iff.mp hB t htm
      simp only [decide_eq_true_eq] at this
      omega
    | cons b B =>
      rw [hB] at hsplit
      subst hsplit
      have hb : r ≤ b.rem := by
        have hne : (A ++ b :: B).dropWhile (fun t : Timer n => decide (t.rem < r)) ≠ [] := by
          simp [hB]
        simpa [hB] using List.head_dropWhile_not _ hne
      have hsA := (List.pairwise_append.mp h.sorted).1
      have hbB := (List.pairwise_cons.mp (List.pairwise_append.mp h.sorted).2.1).1
      have hBr : ∀ x ∈ b :: B, r ≤ x.rem := by
        intro x hx
        obtain rfl | hx := List.mem_cons.mp hx
        · exact hb
        · exact le_trans hb (hbB x hx)
      have hlen : A.length < n + 1 := by
        have := h.length_le
        simp only [List.length_append, List.length_cons] at this
        omega
      rw [hs.first, findPlace_spec hb A (s.setTicks i r) (n + 1) 0 none hs.chain hs.deltas hA
        (fun a _ => a.rem_nonneg) hsA hmem (by omega) hlen, setTicks_setTicks, Option.bind_some]
      obtain ⟨s', hs', hreps⟩ : ∃ s', linkBefore (s.setTicks i (r - lastVal 0 (rems A))) i b.id =
          some s' ∧ Reps (s'.setInUse i true) (A ++ ⟨i, r, 0⟩ :: b :: B) := by
        obtain rfl | ⟨A, p, rfl⟩ := List.eq_nil_or_concat' A
        · have := reps_linkFirst (t := ⟨i, r, 0⟩) h hmem (by rwa [hrem]) (by rwa [hrem])
          simpa [hrem, rems, lastVal] using this
        · have := reps_linkMiddle (t := ⟨i, r, 0⟩) h hmem
            (fun a ha => by rw [hrem]; exact le_of_lt (hA a ha)) (by rwa [hrem]) (by rwa [hrem])
          simpa [hrem] using this
      rw [hs']
      exact ⟨_, rfl, hreps.registerQueue⟩

/-! ## Removing -/

/-- The timer `t` between `A` and `B` is out of the chain, with its fields not yet
cleared. -/
structure Unlinked (s s₁ : Timers n) (A : List (Timer n)) (t : Timer n) (B : List (Timer n)) :
    Prop where
  chain : Seg (links s₁) none none (ids (A ++ B))
  first : s₁.pFirst = headOr none (ids (A ++ B))
  last : s₁.pLast = lastOr none (ids (A ++ B))
  deltas : Deltas (ticksOf s₁) 0 (rems (A ++ B))
  lastTicks : s₁.lastTicks = endRem (A ++ B)
  use : inUseOf s₁ = inUseOf s
  idle : ∀ j ∉ ids (A ++ t :: B), links s₁ j = links s j

theorem Reps.erase {s s₁ : Timers n} {A B : List (Timer n)} (h : Reps s (A ++ t :: B))
    (hu : Unlinked s s₁ A t B) :
    Reps ((((s₁.setPrev t.id none).setNext t.id none).setTicks t.id gkiUnusedListEntry).setInUse
      t.id false) (A ++ B) := by
  have hperm : (ids (A ++ t :: B)).Perm (t.id :: ids (A ++ B)) := List.perm_middle.map _
  have hmem : ∀ j, j ∈ ids (A ++ t :: B) ↔ j = t.id ∨ j ∈ ids (A ++ B) := fun j => by
    rw [hperm.mem_iff, List.mem_cons]
  obtain ⟨hi, hnd⟩ := List.nodup_cons.mp (hperm.nodup_iff.mp h.nodup)
  have hsub : (A ++ B).Sublist (A ++ t :: B) :=
    (List.Sublist.refl A).append (List.sublist_cons_self t B)
  refine ⟨hnd, ?_, hu.first, hu.last, ?_, hu.lastTicks, ?_, ?_, h.sorted.sublist hsub, ?_⟩
  · simp only [links_setInUse, links_setTicks, links_setNext, links_setPrev]
    exact seg_update hi _ (seg_update hi _ hu.chain)
  · simp only [ticksOf_setInUse, ticksOf_setTicks, ticksOf_setNext, ticksOf_setPrev]
    exact deltas_update (map_fst_rems (A ++ B) ▸ hi) _ hu.deltas
  · intro j
    simp only [inUseOf_setInUse, inUseOf_setTicks, inUseOf_setNext, inUseOf_setPrev, hu.use]
    by_cases hj : j = t.id
    · simp [hj, hi]
    · rw [Function.update_of_ne hj, h.inUse j, hmem]
      simp [hj]
  · intro j hj
    by_cases hjt : j = t.id
    · simp [hjt]
    · have hj' : j ∉ ids (A ++ t :: B) := fun hm => ((hmem j).mp hm).elim hjt hj
      simpa [hjt, hu.idle j hj'] using h.idle j hj'
  · by_contra hge
    have hlt : (0x7fffffff : Int) < endRem (A ++ B) := by omega
    obtain ⟨u, hu, hur⟩ := exists_of_lt_endRem (by decide) hlt
    have := h.rem_le_endRem u (hsub.mem hu)
    have := h.range
    omega

theorem Reps.unregisterQueue (h : Reps s ts) :
    Reps (unregisterQueue s) ts := by
  unfold Gki.unregisterQueue
  split
  case isTrue hnone =>
    have hlt : s.lastTicks = 0 := by
      have hf := h.first
      rw [hnone.1] at hf
      cases ts with
      | nil => rw [h.lastTicks]; rfl
      | cons t ts => simp [ids_cons, headOr] at hf
    rw [← hlt]
    dsimp only
    split
    · exact h.timerQueues _
    · exact h
  case isFalse => exact h

theorem unlink_only (h : Reps s [t]) :
    ∃ s₁, unlinkEntry (passTicks s t.id) t.id = (s₁, true) ∧ Unlinked s s₁ [] t [] := by
  have hnext : (s.ent t.id).pNext = none := congrArg Link.next h.chain.1
  have hfirst : s.pFirst = some t.id := h.first
  have hlast : s.pLast = some t.id := h.last
  have hticks : s.lastTicks - (s.ent t.id).ticks = 0 := by
    have h1 : s.lastTicks = t.rem := h.lastTicks
    have h2 : (s.ent t.id).ticks = t.rem - 0 := h.deltas.1
    omega
  refine ⟨{ s with pFirst := none, pLast := none, lastTicks := 0 }, ?_, ?_⟩
  · simp [unlinkEntry, passTicks, hnext, hfirst, hlast, hticks]
  · exact ⟨trivial, rfl, rfl, trivial, rfl, rfl, fun _ _ => rfl⟩

theorem Reps.deltas_unlink {A B : List (Timer n)} {t b : Timer n} (h : Reps s (A ++ t :: b :: B)) :
    Deltas (Function.update (ticksOf s) b.id (ticksOf s b.id + ticksOf s t.id)) 0
      (rems (A ++ b :: B)) := by
  have hb : b.id ∉ ids (A ++ [t]) ∧ b.id ∉ ids B :=
    Reps.nodup_middle (s := s) (by simpa using h)
  rw [rems_append]
  refine deltas_erase (x := (t.id, t.rem)) ?_ (rems_append A (t :: b :: B) ▸ h.deltas)
  change b.id ∉ (rems A ++ rems B).map Prod.fst
  rw [List.map_append, map_fst_rems, map_fst_rems, List.mem_append, not_or]
  exact ⟨fun hbA => hb.1 (by simp [ids_append, hbA]), hb.2⟩

theorem unlink_first {t b : Timer n} {B : List (Timer n)} (h : Reps s (t :: b :: B)) :
    ∃ s₁, unlinkEntry (passTicks s t.id) t.id = (s₁, true) ∧ Unlinked s s₁ [] t (b :: B) := by
  obtain ⟨hlt, hseg⟩ := h.chain
  have hnext : (s.ent t.id).pNext = some b.id := congrArg Link.next hlt
  have hfirst : s.pFirst = some t.id := h.first
  have htB : t.id ∉ ids (b :: B) := (h.nodup_middle (A := [])).2
  have hbB : b.id ∉ ids B := (h.nodup_middle (A := [t])).2
  have htb : t.id ≠ b.id := fun htb => htB (by simp [ids_cons, htb])
  have hlast : s.pLast ≠ some t.id := by
    rw [h.last]
    exact fun hl => htB (mem_of_lastOr hl)
  refine ⟨{ (s.setTicks b.id ((s.ent b.id).ticks + (s.ent t.id).ticks)).setPrev b.id none with
    pFirst := some b.id }, ?_, ?_⟩
  · simp [unlinkEntry, passTicks, hnext, hfirst, hlast, Timers.setTicks, Timers.setPrev, htb]
  · refine ⟨?_, rfl, h.last, ?_, h.lastTicks, ?_, ?_⟩
    · change Seg (links ((s.setTicks b.id _).setPrev b.id none)) none none (b.id :: ids B)
      rw [links_setPrev, links_setTicks]
      exact seg_setPrev hbB hseg _
    · change Deltas (ticksOf ((s.setTicks b.id (ticksOf s b.id + ticksOf s t.id)).setPrev b.id none))
        0 _
      rw [ticksOf_setPrev, ticksOf_setTicks]
      exact h.deltas_unlink (A := [])
    · change inUseOf ((s.setTicks b.id _).setPrev b.id none) = _
      simp
    · intro j hj
      change links ((s.setTicks b.id _).setPrev b.id none) j = _
      have hjb : j ≠ b.id := fun hjb => hj (by simp [ids_cons, hjb])
      simp [hjb]

theorem unlink_last {p t : Timer n} {A : List (Timer n)} (h : Reps s (A ++ [p] ++ [t])) :
    ∃ s₁, unlinkEntry (passTicks s t.id) t.id = (s₁, true) ∧ Unlinked s s₁ (A ++ [p]) t [] := by
  have hids : ids (A ++ [p]) = ids A ++ [p.id] := by simp [ids]
  have hseg := h.chain
  rw [ids_append] at hseg
  obtain ⟨hsegA, hlt, -⟩ := seg_append.mp hseg
  have htA : t.id ∉ ids (A ++ [p]) := h.nodup_middle.1
  have hpA : p.id ∉ ids A := (Reps.nodup_middle (s := s) (A := A) (B := [t]) (by simpa using h)).1
  have hnext : (s.ent t.id).pNext = none := congrArg Link.next hlt
  have hprev : (s.ent t.id).pPrev = some p.id := by
    rw [show (s.ent t.id).pPrev = _ from congrArg Link.prev hlt, hids]
    simp [lastOr]
  have hlast : s.pLast = some t.id := by
    rw [h.last]
    simp [ids, lastOr]
  have hfirst : s.pFirst ≠ some t.id := by
    rw [h.first, ids_append, hids, headOr_append]
    exact fun hf => htA (hids ▸ mem_of_headOr hf)
  obtain ⟨hd, hdt, -⟩ := deltas_append.mp (rems_append (A ++ [p]) [t] ▸ h.deltas)
  have hticks : s.lastTicks - (s.ent t.id).ticks = endRem (A ++ [p]) := by
    have h1 : s.lastTicks = t.rem := by
      rw [h.lastTicks]
      simp [endRem, rems, lastVal]
    have h2 : (s.ent t.id).ticks = t.rem - endRem (A ++ [p]) := hdt
    omega
  refine ⟨{ s.setNext p.id none with
    pLast := some p.id, lastTicks := endRem (A ++ [p]) }, ?_, ?_⟩
  · simp [unlinkEntry, passTicks, hnext, hprev, hfirst, hlast, hticks, Timers.setNext]
  · refine ⟨?_, ?_, ?_, ?_, ?_, ?_, ?_⟩
    · change Seg (links (s.setNext p.id none)) none none _
      rw [links_setNext, List.append_nil, hids]
      exact seg_setNext hpA (hids ▸ hsegA) none
    · change s.pFirst = _
      rw [h.first, List.append_nil, ids_append (A ++ [p]), hids, headOr_append, headOr_append,
        headOr_append]
      rfl
    · simp [ids, lastOr]
    · change Deltas (ticksOf (s.setNext p.id none)) 0 _
      rwa [ticksOf_setNext, List.append_nil]
    · simp
    · change inUseOf (s.setNext p.id none) = _
      simp
    · intro j hj
      change links (s.setNext p.id none) j = _
      have hjp : j ≠ p.id := fun hjp => hj (by simp [ids, hjp])
      simp [hjp]

theorem unlink_middle {p t b : Timer n} {A B : List (Timer n)}
    (h : Reps s (A ++ [p] ++ t :: b :: B)) :
    ∃ s₁, unlinkEntry (passTicks s t.id) t.id = (s₁, true) ∧
      Unlinked s s₁ (A ++ [p]) t (b :: B) := by
  have hids : ids (A ++ [p]) = ids A ++ [p.id] := by simp [ids]
  have hseg := h.chain
  rw [ids_append] at hseg
  obtain ⟨hsegA, hlt, hsegB⟩ := seg_append.mp hseg
  obtain ⟨htA, htB⟩ := h.nodup_middle
  obtain ⟨hpA, hpB⟩ : p.id ∉ ids A ∧ p.id ∉ ids (t :: b :: B) :=
    Reps.nodup_middle (s := s) (by simpa using h)
  obtain ⟨hbA, hbB⟩ : b.id ∉ ids (A ++ [p] ++ [t]) ∧ b.id ∉ ids B :=
    Reps.nodup_middle (s := s) (by simpa using h)
  have hbA' : b.id ∉ ids (A ++ [p]) := fun hm => hbA (by rw [ids_append]; simp [hm])
  have hpB' : p.id ∉ ids (b :: B) := fun hm => hpB (by rw [ids_cons]; simp [hm])
  have hpt : p.id ≠ t.id := fun hm => hpB (by simp [ids_cons, hm])
  have hpb : p.id ≠ b.id := fun hm => hpB (by simp [ids_cons, hm])
  have htb : t.id ≠ b.id := fun hm => htB (by simp [ids_cons, hm])
  have hnext : (s.ent t.id).pNext = some b.id := congrArg Link.next hlt
  have hprev : (s.ent t.id).pPrev = some p.id := by
    rw [show (s.ent t.id).pPrev = _ from congrArg Link.prev hlt, hids]
    simp [lastOr]
  have hbprev : (s.ent b.id).pPrev = some t.id := congrArg Link.prev hsegB.1
  have hpnext : (s.ent p.id).pNext = some t.id := by
    rw [hids] at hsegA
    exact congrArg Link.next (seg_append.mp hsegA).2.1
  have hlast : s.pLast ≠ some t.id := by
    rw [h.last, ids_append, lastOr_append]
    exact fun hl => htB (mem_of_lastOr hl)
  have hfirst : s.pFirst ≠ some t.id := by
    rw [h.first, ids_append, hids, headOr_append]
    exact fun hf => htA (hids ▸ mem_of_headOr hf)
  refine ⟨((s.setTicks b.id ((s.ent b.id).ticks + (s.ent t.id).ticks)).setPrev b.id
    (some p.id)).setNext p.id (some b.id), ?_, ?_⟩
  · simp [unlinkEntry, passTicks, hnext, hprev, hbprev, hpnext, hfirst, hlast, Timers.setTicks,
      Timers.setPrev, Timers.setNext, htb, hpb]
  · refine ⟨?_, ?_, ?_, ?_, ?_, ?_, ?_⟩
    · rw [links_setNext, links_setPrev, links_setTicks, ids_append, seg_append]
      refine ⟨?_, ?_⟩
      · rw [hids] at hsegA hbA' ⊢
        exact seg_setNext hpA (seg_update hbA' _ hsegA) _
      · rw [hids, lastOr_append]
        exact seg_update hpB' _ (seg_setPrev hbB hsegB _)
    · change s.pFirst = _
      rw [h.first, ids_append (A ++ [p]), ids_append (A ++ [p]), hids, headOr_append,
        headOr_append, headOr_append, headOr_append]
      rfl
    · change s.pLast = _
      rw [h.last, ids_append (A ++ [p]), ids_append (A ++ [p]), lastOr_append, lastOr_append]
      rfl
    · rw [ticksOf_setNext, ticksOf_setPrev, ticksOf_setTicks]
      exact h.deltas_unlink
    · change s.lastTicks = _
      rw [h.lastTicks]
      simp [endRem, rems, lastVal]
    · simp
    · intro j hj
      have hj' : j ≠ p.id ∧ j ≠ b.id := by
        constructor <;> rintro rfl <;> exact hj (by simp [ids])
      simp [hj'.1, hj'.2]

theorem filter_ids (hi : i ∉ ids ts) :
    ts.filter (fun t => decide (t.id ≠ i)) = ts := by
  refine List.filter_eq_self.mpr fun t ht => ?_
  have : t.id ≠ i := fun hti => hi (hti ▸ List.mem_map_of_mem ht)
  simpa using this

theorem reps_remove (h : Reps s ts) (i : Fin n) :
    Reps (gkiRemoveFromTimerList s i) (ts.filter (·.id ≠ i)) := by
  by_cases hi : i ∈ ids ts
  · obtain ⟨t, ht, rfl⟩ := List.mem_map.mp hi
    obtain ⟨A, B, rfl⟩ := List.append_of_mem ht
    have huse : (s.ent t.id).inUse = true := (h.inUse t.id).mpr hi
    have hfirst : s.pFirst ≠ none := by
      rw [h.first, ids_append, ids_cons]
      cases ids A <;> simp [headOr]
    obtain ⟨s₁, hs₁, hu⟩ : ∃ s₁, unlinkEntry (passTicks s t.id) t.id = (s₁, true) ∧
        Unlinked s s₁ A t B := by
      obtain rfl | ⟨A, p, rfl⟩ := List.eq_nil_or_concat' A <;> cases B with
      | nil => first | exact unlink_only h | exact unlink_last h
      | cons b B => first | exact unlink_first h | exact unlink_middle h
    have hfilter : (A ++ t :: B).filter (·.id ≠ t.id) = A ++ B := by
      obtain ⟨htA, htB⟩ := h.nodup_middle
      rw [List.filter_append, filter_ids htA, List.filter_cons_of_neg (by simp), filter_ids htB]
    rw [hfilter]
    have hnot : ¬ ((s.ent t.id).inUse = false ∨ s.pFirst = none) := by simp [huse, hfirst]
    rw [gkiRemoveFromTimerList, if_neg hnot, hs₁]
    exact (h.erase hu).unregisterQueue
  · have hfalse : (s.ent i).inUse = false := by
      have := h.inUse i
      simpa [hi, inUseOf] using this
    rw [gkiRemoveFromTimerList, if_pos (.inl hfalse), filter_ids hi]
    exact h

/-! ## The passing of time -/

@[simp] theorem ids_tickAll (units : Int) (ts : List (Timer n)) : ids (tickAll units ts) = ids ts := by
  simp [ids, tickAll]

variable {units : Int}

theorem Timer.rem_tick (t : Timer n) (hu : 0 ≤ units) :
    ({ t with elapsed := t.elapsed + units } : Timer n).rem = max 0 (t.rem - units) := by
  simp only [Timer.rem]
  omega

theorem endRem_tickAll (ts : List (Timer n)) (hu : 0 ≤ units) :
    endRem (tickAll units ts) = max 0 (endRem ts - units) := by
  obtain rfl | ⟨ts, l, rfl⟩ := List.eq_nil_or_concat' ts
  · simp [endRem, rems, tickAll, lastVal, hu]
  · simpa [endRem, rems, tickAll, lastVal] using l.rem_tick hu

theorem skipExpired_spec :
    ∀ (ts : List (Timer n)) (prev : Option (Fin n)) (fuel : Nat), Seg (links s) prev none (ids ts) →
      Deltas (ticksOf s) 0 (rems ts) → ts.length < fuel →
      ∃ c A B, skipExpired s fuel (headOr none (ids ts)) = some (c, headOr none (ids B)) ∧
        ts = A ++ B ∧ ∀ a ∈ A, a.rem = 0
  | [], _, fuel + 1, _, _, _ => ⟨0, [], [], rfl, rfl, by simp⟩
  | t :: ts, _, fuel + 1, hseg, hd, hf => by
    obtain ⟨hlt, hseg⟩ := hseg
    obtain ⟨hdt, hd⟩ := hd
    have hticks : (s.ent t.id).ticks = t.rem := by simpa [ticksOf] using hdt
    have hnext : (s.ent t.id).pNext = headOr none (ids ts) := congrArg Link.next hlt
    change ∃ c A B, skipExpired s (fuel + 1) (some t.id) = _ ∧ _
    rw [skipExpired, hticks, hnext]
    by_cases hle : t.rem ≤ 0
    · have hz : t.rem = 0 := le_antisymm hle t.rem_nonneg
      have hd' : Deltas (ticksOf s) 0 (rems ts) := hz ▸ hd
      obtain ⟨c, A, B, hs, rfl, hA⟩ := skipExpired_spec ts _ fuel hseg hd' (by simpa using hf)
      refine ⟨1 + c, t :: A, B, ?_, rfl, ?_⟩
      · rw [if_pos hle, hs]
        rfl
      · intro a ha
        obtain rfl | ha := List.mem_cons.mp ha
        · exact hz
        · exact hA a ha
    · exact ⟨0, [], t :: ts, by rw [if_neg hle]; rfl, rfl, by simp⟩

/-- Once the ticks that passed are used up, the differences stay as they are. -/
theorem deltas_tickAll {v : Fin n → Int} (hu : 0 ≤ units) :
    ∀ {ts : List (Timer n)} {base : Int}, units ≤ base → (∀ t ∈ ts, base ≤ t.rem) →
      ts.Pairwise (fun a b => a.rem ≤ b.rem) → Deltas v base (rems ts) →
      Deltas v (max 0 (base - units)) (rems (tickAll units ts))
  | [], _, _, _, _, _ => trivial
  | t :: ts, base, hb, hbt, hs, hd => by
    obtain ⟨hdt, hd⟩ := hd
    obtain ⟨htt, hs⟩ := List.pairwise_cons.mp hs
    have hbt := hbt t (by simp)
    refine ⟨?_, ?_⟩
    · change v t.id = t.rem - base at hdt
      change v t.id = ({ t with elapsed := t.elapsed + units } : Timer n).rem - _
      rw [t.rem_tick hu]
      omega
    · change Deltas v ({ t with elapsed := t.elapsed + units } : Timer n).rem _
      rw [t.rem_tick hu]
      exact deltas_tickAll hu (le_trans hb hbt) htt hs hd

theorem adjustTicks_spec (hu : 0 ≤ units) :
    ∀ (ts : List (Timer n)) (s : Timers n) (prev : Option (Fin n)) (fuel : Nat) (base : Int),
      Seg (links s) prev none (ids ts) → (ids ts).Nodup → (∀ t ∈ ts, base ≤ t.rem) →
      ts.Pairwise (fun a b => a.rem ≤ b.rem) → Deltas (ticksOf s) base (rems ts) →
      ts.length < fuel →
      ∃ c e, adjustTicks fuel s (headOr none (ids ts)) (units - base) = some (c, { s with ent := e }) ∧
        links { s with ent := e } = links s ∧ inUseOf { s with ent := e } = inUseOf s ∧
        (∀ j ∉ ids ts, ticksOf { s with ent := e } j = ticksOf s j) ∧
        Deltas (ticksOf { s with ent := e }) (max 0 (base - units)) (rems (tickAll units ts))
  | [], s, _, fuel + 1, _, _, _, _, _, _, _ => ⟨0, s.ent, rfl, rfl, rfl, fun _ _ => rfl, trivial⟩
  | t :: ts, s, _, fuel + 1, base, hseg, hnd, hbt, hs, hd, hf => by
    change ∃ c e, adjustTicks (fuel + 1) s (some t.id) (units - base) = _ ∧ _
    rw [adjustTicks]
    by_cases hrem : units - base > 0
    · obtain ⟨hlt, hseg⟩ := hseg
      obtain ⟨hdt, hd⟩ := hd
      obtain ⟨hti, hnd⟩ := List.nodup_cons.mp hnd
      obtain ⟨htt, hs⟩ := List.pairwise_cons.mp hs
      have hbt := hbt t (by simp)
      have hticks : (s.ent t.id).ticks = t.rem - base := hdt
      have hnext : (s.ent t.id).pNext = headOr none (ids ts) := congrArg Link.next hlt
      rw [if_pos hrem, hticks, hnext]
      -- the ticks this entry is left with
      set d := if t.rem - base - (units - base) ≤ 0 then 0 else t.rem - base - (units - base) with hdef
      have hdv : d = max 0 (t.rem - units) - max 0 (base - units) := by
        rw [hdef]
        split <;> omega
      obtain ⟨c, e, he, hlinks, huse, hframe, hdel⟩ := adjustTicks_spec hu ts (s.setTicks t.id d)
        (some t.id) fuel t.rem (by rw [links_setTicks]; exact hseg) hnd htt hs
        (by rw [ticksOf_setTicks]; exact deltas_update (map_fst_rems ts ▸ hti) _ hd)
        (by simpa using hf)
      have hleft : units - base - (t.rem - base) = units - t.rem := by omega
      refine ⟨_, e, by dsimp only; rw [hleft, ← hdef, he]; rfl, ?_, ?_, ?_, ?_, ?_⟩
      · exact hlinks.trans (links_setTicks s t.id d)
      · exact huse.trans (inUseOf_setTicks s t.id d)
      · intro j hj
        have hj' : j ≠ t.id ∧ j ∉ ids ts := by simpa [ids_cons] using hj
        refine (hframe j hj'.2).trans ?_
        rw [ticksOf_setTicks, Function.update_of_ne hj'.1]
      · change ticksOf { s with ent := e } t.id =
          ({ t with elapsed := t.elapsed + units } : Timer n).rem - _
        rw [t.rem_tick hu, ← hdv]
        refine (hframe t.id hti).trans ?_
        rw [ticksOf_setTicks, Function.update_self]
      · change Deltas _ ({ t with elapsed := t.elapsed + units } : Timer n).rem _
        rw [t.rem_tick hu]
        exact hdel
    · rw [if_neg hrem]
      exact ⟨0, s.ent, rfl, rfl, rfl, fun _ _ => rfl, deltas_tickAll hu (by omega) hbt hs hd⟩

theorem reps_update (h : Reps s ts) (hu : 0 ≤ units) :
    ∃ c s', gkiUpdateTimerList s units = some (c, s') ∧ Reps s' (tickAll units ts) := by
  have hlen := h.length_le
  obtain ⟨c, A, B, hskip, rfl, hA⟩ := skipExpired_spec ts none (n + 1) h.chain h.deltas (by omega)
  have hseg := h.chain
  rw [ids_append] at hseg
  have hnd := h.nodup
  rw [ids_append, List.nodup_append'] at hnd
  obtain ⟨-, hndB, hdisj⟩ := hnd
  obtain ⟨hdA, hdB⟩ := deltas_append.mp (rems_append A B ▸ h.deltas)
  have hzero : lastVal 0 (rems A) = 0 := by
    obtain rfl | ⟨A, l, rfl⟩ := List.eq_nil_or_concat' A
    · rfl
    · simpa [rems, lastVal] using hA l (by simp)
  have hremsA : rems (tickAll units A) = rems A := by
    simp only [rems, tickAll, List.map_map]
    refine List.map_congr_left fun a ha => ?_
    have : ({ a with elapsed := a.elapsed + units } : Timer n).rem = a.rem := by
      rw [a.rem_tick hu, hA a ha]
      omega
    simp [this]
  obtain ⟨c', e, he, hlinks, huse, hframe, hdel⟩ := adjustTicks_spec hu B s _ (n + 1) 0
    (seg_append.mp hseg).2 hndB (fun t _ => t.rem_nonneg) (List.pairwise_append.mp h.sorted).2.1
    (hzero ▸ hdB) (by simp only [List.length_append] at hlen; omega)
  have hbase : max 0 ((0 : Int) - units) = 0 := by omega
  rw [hbase] at hdel
  rw [gkiUpdateTimerList, h.first, hskip, Option.bind_some]
  rw [Int.sub_zero] at he
  refine ⟨_, _, by dsimp only; rw [he]; rfl, ?_⟩
  have hge : 0 ≤ endRem (A ++ B) := (Gki.rem_le_endRem h.sorted fun t _ => t.rem_nonneg).2
  refine ⟨?_, ?_, ?_, ?_, ?_, ?_, ?_, ?_, ?_, ?_⟩
  · rw [ids_tickAll]
    exact h.nodup
  · rw [ids_tickAll]
    exact hlinks ▸ h.chain
  · rw [ids_tickAll]
    exact h.first
  · rw [ids_tickAll]
    exact h.last
  · rw [tickAll, List.map_append, rems_append, deltas_append]
    change Deltas _ 0 (rems (tickAll units A)) ∧ Deltas _ (lastVal 0 (rems (tickAll units A)))
      (rems (tickAll units B))
    rw [hremsA, hzero]
    refine ⟨deltas_congr (fun x hx => ?_) hdA, hdel⟩
    have hxA : x.1 ∈ ids A := map_fst_rems A ▸ List.mem_map_of_mem hx
    exact hframe x.1 (hdisj hxA)
  · rw [endRem_tickAll _ hu, ← h.lastTicks]
    rw [← h.lastTicks] at hge
    dsimp only
    split
    · split <;> omega
    · omega
  · intro i
    rw [ids_tickAll, ← h.inUse i]
    exact iff_of_eq (congrArg (· = true) (congrFun huse i))
  · intro i hi
    rw [ids_tickAll] at hi
    exact (congrFun hlinks i).trans (h.idle i hi)
  · refine List.pairwise_map.mpr (h.sorted.imp fun {a b} hab => ?_)
    rw [a.rem_tick hu, b.rem_tick hu]
    omega
  · rw [endRem_tickAll _ hu]
    have := h.range
    omega

/-! ## What is left of a timer -/

theorem sumTicks_spec :
    ∀ (ts : List (Timer n)) (prev : Option (Fin n)) (fuel : Nat) (base : Int),
      Seg (links s) prev none (ids ts) → (ids ts).Nodup → Deltas (ticksOf s) base (rems ts) →
      t ∈ ts → ts.length < fuel →
      sumTicks s t.id fuel (headOr none (ids ts)) = some (t.rem - base, true)
  | u :: ts, _, fuel + 1, base, hseg, hnd, hd, ht, hf => by
    obtain ⟨hlu, hseg⟩ := hseg
    obtain ⟨hdu, hd⟩ := hd
    obtain ⟨hui, hnd⟩ := List.nodup_cons.mp hnd
    have hticks : (s.ent u.id).ticks = u.rem - base := hdu
    have hnext : (s.ent u.id).pNext = headOr none (ids ts) := congrArg Link.next hlu
    change sumTicks s t.id (fuel + 1) (some u.id) = _
    rw [sumTicks, hticks, hnext]
    by_cases hut : u.id = t.id
    · have : t = u := by
        obtain rfl | ht := List.mem_cons.mp ht
        · rfl
        · exact absurd (List.mem_map.mpr ⟨t, ht, hut.symm⟩) hui
      rw [if_pos hut, this]
    · have ht : t ∈ ts := (List.mem_cons.mp ht).resolve_left fun h => hut (h ▸ rfl)
      rw [if_neg hut, sumTicks_spec ts _ fuel u.rem hseg hnd hd ht (by simpa using hf)]
      simp only [Option.map_some, Option.some.injEq, Prod.mk.injEq, and_true]
      omega

theorem reps_getRemaining (h : Reps s ts)
    (ht : t ∈ ts) : gkiGetRemainingTicks s t.id = some t.rem := by
  have huse : (s.ent t.id).inUse = true := (h.inUse t.id).mpr (List.mem_map_of_mem ht)
  have hlen := h.length_le
  rw [gkiGetRemainingTicks, if_pos huse, h.first,
    sumTicks_spec ts none (n + 1) 0 h.chain h.nodup h.deltas ht (by omega)]
  simp

/-! ## Runs -/

/-- No entry in use; the queue at `addr`, among others. -/
def Timers.init (n addr : Nat) (timerQueues : Fin gkiMaxTimerQueues → Option Nat) : Timers n where
  ent := fun _ => {}
  addr := addr
  timerQueues := timerQueues

/-- What the callers keep to: an entry is added with its ticks set and only when it is
in no list, and time does not go back. -/
def TimerOp.Ok (s : Timers n) : TimerOp n → Prop
  | .add i ticks => inUseOf s i = false ∧ 0 ≤ ticks ∧ ticks < 0x80000000
  | .remove _ => True
  | .update units => 0 ≤ units

instance TimerOp.Ok.decidable (s : Timers n) (op : TimerOp n) : Decidable (op.Ok s) :=
  match op with
  | .add i ticks =>
    inferInstanceAs (Decidable (inUseOf s i = false ∧ 0 ≤ ticks ∧ ticks < 0x80000000))
  | .remove _ => .isTrue trivial
  | .update units => inferInstanceAs (Decidable (0 ≤ units))

theorem reps_init (addr : Nat) (q : Fin gkiMaxTimerQueues → Option Nat) :
    Reps (Timers.init n addr q) [] :=
  ⟨List.nodup_nil, trivial, rfl, rfl, trivial, rfl, fun _ => by simp [Timers.init, inUseOf, ids],
    fun _ _ => rfl, List.Pairwise.nil, by simp [endRem, rems, lastVal]⟩

theorem reps_step (s : Timers n) (ts : List (Timer n)) (op : TimerOp n) (h : Reps s ts)
    (hok : op.Ok s) : ∃ t, s.step op = some t ∧ Reps t (timerStep ts op) := by
  cases op with
  | add i ticks => exact reps_add h hok.1 hok.2.1 hok.2.2
  | remove i => exact ⟨_, rfl, reps_remove h i⟩
  | update units =>
    obtain ⟨c, t, ht, hreps⟩ := reps_update h hok
    exact ⟨t, by rw [Timers.step, ht]; rfl, hreps⟩

/-- Every run on plain lists of timers is what the code does: it returns (so no walk
leaves the list), the list is doubly linked with the right ends, `last_ticks` is the
sum of the differences, the timers are in the order of what is left of them, the
entries in use are those of the list, and `GKI_get_remaining_ticks` is what was asked
for less what has passed since. -/
theorem timerList_refines (n addr : Nat) (q : Fin gkiMaxTimerQueues → Option Nat)
    (ops : List (TimerOp n))
    (hok : StepsOk Timers.step (fun s op => op.Ok s) (Timers.init n addr q) ops) :
    ∃ t ts, run Timers.step (Timers.init n addr q) ops = some t ∧ ts = ops.foldl timerStep [] ∧
      (ids ts).Nodup ∧ (∀ i, inUseOf t i = true ↔ i ∈ ids ts) ∧
      Seg (links t) none none (ids ts) ∧
      t.pFirst = headOr none (ids ts) ∧ t.pLast = lastOr none (ids ts) ∧
      t.lastTicks = ((ids ts).map (ticksOf t)).sum ∧
      ts.Pairwise (fun a b => a.rem ≤ b.rem) ∧
      ∀ a ∈ ts, gkiGetRemainingTicks t a.id = some (max 0 (a.requested - a.elapsed)) := by
  obtain ⟨t, ht, h⟩ := run_simulates reps_step ops _ [] (reps_init addr q) hok
  refine ⟨t, _, ht, rfl, h.nodup, h.inUse, h.chain, h.first, h.last, ?_, h.sorted,
    fun a ha => reps_getRemaining h ha⟩
  have hsum := deltas_sum h.deltas
  rw [h.lastTicks, endRem, ← hsum, zero_add, ← map_fst_rems, List.map_map]
  rfl

theorem timerList_refines_run :
    StepsOk Timers.step (fun s op => op.Ok s) (Timers.init 3 7 fun _ => none)
        [.add 0 5, .add 1 8, .update 2, .add 2 4, .remove 0] ∧
      ∃ t ts, run Timers.step (Timers.init 3 7 fun _ => none)
          [.add 0 5, .add 1 8, .update 2, .add 2 4, .remove 0] = some t ∧
        ts = [TimerOp.add 0 5, .add 1 8, .update 2, .add 2 4, .remove 0].foldl timerStep [] ∧
        (ids ts).Nodup ∧ (∀ i, inUseOf t i = true ↔ i ∈ ids ts) ∧
        Seg (links t) none none (ids ts) ∧
        t.pFirst = headOr none (ids ts) ∧ t.pLast = lastOr none (ids ts) ∧
        t.lastTicks = ((ids ts).map (ticksOf t)).sum ∧
        ts.Pairwise (fun a b => a.rem ≤ b.rem) ∧
        ∀ a ∈ ts, gkiGetRemainingTicks t a.id = some (max 0 (a.requested - a.elapsed)) := by
  have hok : StepsOk Timers.step (fun s op => op.Ok s) (Timers.init 3 7 fun _ => none)
      [.add 0 5, .add 1 8, .update 2, .add 2 4, .remove 0] := by decide
  exact ⟨hok, timerList_refines 3 7 (fun _ => none) _ hok⟩

theorem timerList_equal_deadline_first :
    ∃ t, run Timers.step (Timers.init 3 7 fun _ => none) [.add 0 5, .add 1 8, .add 2 5] = some t ∧
      t.pFirst = some 2 ∧ (t.ent 2).pNext = some 0 ∧
      gkiGetRemainingTicks t 2 = some 5 ∧ gkiGetRemainingTicks t 0 = some 5 := by
  refine ⟨_, rfl, ?_⟩
  decide

end Stores

end NfcStack.Gki
