import NfcStack.Lib.Run
import NfcStack.Lib.Linked
import NfcStack.Lib.Chains

/- Buffer queues and mailboxes of the GKI (`gki_buffer.cc`: `GKI_enqueue`,
   `GKI_enqueue_head`, `GKI_dequeue`, `GKI_remove_from_queue`, `GKI_getfirst`,
   `GKI_getlast`, `GKI_getnext`, `GKI_send_msg`, `GKI_read_mbox`). All of them link
   buffers through the one `p_next` of the buffer's header.

   What is proved:
     1. `linked_push`, `linked_cons`, `linked_pop`, `linked_cut`: what the stores of
        each operation do to the family of lists.
     2. `holds_step`: one call does to the store what it does to plain lists, and
        answers the same.
     3. `bufferQ_refines_deque`: the same over every run in which nothing is removed
        from an empty queue and no queue is asked to take a 65536th buffer.
     4. `remove_from_empty_faults`, `enqueue_wraps`: in these two cases the code does
        not do it. The first reads through a null `p_first`, the second makes
        `count` 0.

   There are `n` buffers, any number of queues and `tasks` tasks with four mailboxes
   each. A pointer to a buffer is `Option (Fin n)`; `none` as a result is a read
   through a null pointer, or a walk that does not end. `results` are the pointers
   that the calls returned. Buffers come from and go back to an allocator, which is
   free to use the header of a free buffer; its links are not kept here. -/
namespace NfcStack.Gki
open NfcStack.Lib

/-! ## The code -/

inductive BufStatus where
  | free
  | unlinked
  | queued
  deriving DecidableEq, Repr

structure BufferHdr (n : Nat) where
  pNext : Option (Fin n) := none
  status : BufStatus := .unlinked
  taskId : UInt8 := 0
  deriving DecidableEq, Repr

/-- `BUFFER_Q`, as `GKI_init_q` leaves it. -/
structure BufferQ (n : Nat) where
  pFirst : Option (Fin n) := none
  pLast : Option (Fin n) := none
  count : UInt16 := 0
  deriving DecidableEq, Repr

abbrev numTaskMbox : Nat := 4

/-- A mailbox of a task. -/
abbrev Mbox (tasks : Nat) := Fin tasks × Fin numTaskMbox

structure Queues (n : Nat) (κ : Type) (tasks : Nat) where
  hdr : Fin n → BufferHdr n
  q : κ → BufferQ n
  osTaskQFirst : Mbox tasks → Option (Fin n)
  osTaskQLast : Mbox tasks → Option (Fin n)
  osRdyTbl : Fin tasks → Bool
  results : List (Option (Fin n))

section Code
variable {n tasks : Nat} {κ : Type}

def Queues.setNext (s : Queues n κ tasks) (b : Fin n) (p : Option (Fin n)) : Queues n κ tasks :=
  { s with hdr := Function.update s.hdr b { s.hdr b with pNext := p } }

def Queues.setStatus (s : Queues n κ tasks) (b : Fin n) (st : BufStatus) : Queues n κ tasks :=
  { s with hdr := Function.update s.hdr b { s.hdr b with status := st } }

def Queues.setTask (s : Queues n κ tasks) (b : Fin n) (taskId : UInt8) : Queues n κ tasks :=
  { s with hdr := Function.update s.hdr b { s.hdr b with taskId := taskId } }

/-- The call returned this pointer. -/
def Queues.answer (s : Queues n κ tasks) (p : Option (Fin n)) : Queues n κ tasks :=
  { s with results := s.results ++ [p] }

/-- `GKI_getfirst`. -/
def gkiGetfirst (s : Queues n κ tasks) (q : κ) : Queues n κ tasks := s.answer (s.q q).pFirst

def gkiGetlast (s : Queues n κ tasks) (q : κ) : Queues n κ tasks := s.answer (s.q q).pLast

def gkiGetnext (s : Queues n κ tasks) (b : Fin n) : Queues n κ tasks := s.answer (s.hdr b).pNext

/-- `GKI_freebuf`, as far as the header goes. -/
def gkiFreebuf (s : Queues n κ tasks) (b : Fin n) : Queues n κ tasks :=
  if (s.hdr b).status ≠ .unlinked then s else s.setStatus b .free

/-- `GKI_getbuf` returns a free buffer. -/
def gkiGetbuf (s : Queues n κ tasks) (b : Fin n) (taskId : UInt8) : Queues n κ tasks :=
  if (s.hdr b).status = .free then ((s.setTask b taskId).setStatus b .unlinked).setNext b none else s

/-- The mailbox, if there is one. -/
def mboxOf (tasks : Nat) (taskId mbox : UInt8) : Option (Mbox tasks) :=
  if h : taskId.toNat < tasks ∧ mbox.toNat < numTaskMbox then
    some (⟨taskId.toNat, h.1⟩, ⟨mbox.toNat, h.2⟩)
  else none

/-- The buffer goes to the end of the mailbox. -/
def postMsg (s : Queues n κ tasks) (m : Mbox tasks) (taskId : UInt8) (b : Fin n) :
    Option (Queues n κ tasks) :=
  let linked : Option (Queues n κ tasks) :=
    match s.osTaskQFirst m with
    | some _ => (s.osTaskQLast m).map fun l => s.setNext l (some b)
    | none => some { s with osTaskQFirst := Function.update s.osTaskQFirst m (some b) }
  linked.map fun s =>
    let s := { s with osTaskQLast := Function.update s.osTaskQLast m (some b) }
    ((s.setNext b none).setStatus b .queued).setTask b taskId

/-- `GKI_send_msg`. -/
def gkiSendMsg (s : Queues n κ tasks) (taskId mbox : UInt8) (b : Fin n) :
    Option (Queues n κ tasks) :=
  match mboxOf tasks taskId mbox with
  | none => some (gkiFreebuf s b)
  | some m =>
    if ¬ s.osRdyTbl m.1 then some (gkiFreebuf s b)
    else if (s.hdr b).status ≠ .unlinked then some s
    else postMsg s m taskId b

/-- The first buffer leaves the mailbox; `OSTaskQLast` stays. -/
def takeMsg (s : Queues n κ tasks) (m : Mbox tasks) (b : Fin n) : Queues n κ tasks :=
  let s := { s with osTaskQFirst := Function.update s.osTaskQFirst m (s.hdr b).pNext }
  (s.setNext b none).setStatus b .unlinked

/-- `GKI_read_mbox`, called by the task `taskId`. -/
def gkiReadMbox (s : Queues n κ tasks) (taskId mbox : UInt8) : Queues n κ tasks :=
  match mboxOf tasks taskId mbox with
  | none => s.answer none
  | some m =>
    match s.osTaskQFirst m with
    | none => s.answer none
    | some b => (takeMsg s m b).answer (some b)

variable [DecidableEq κ]

def Queues.setQ (s : Queues n κ tasks) (q : κ) (v : BufferQ n) : Queues n κ tasks :=
  { s with q := Function.update s.q q v }

def gkiEnqueue (s : Queues n κ tasks) (q : κ) (b : Fin n) : Option (Queues n κ tasks) :=
  if (s.hdr b).status ≠ .unlinked then some s
  else
    let linked : Option (Queues n κ tasks) :=
      match (s.q q).pFirst with
      | some _ => (s.q q).pLast.map fun l => s.setNext l (some b)
      | none => some (s.setQ q { s.q q with pFirst := some b })
    linked.map fun s =>
      ((s.setQ q { s.q q with pLast := some b, count := (s.q q).count + 1 }).setNext b none).setStatus
        b .queued

/-- `GKI_enqueue_head`. -/
def gkiEnqueueHead (s : Queues n κ tasks) (q : κ) (b : Fin n) : Queues n κ tasks :=
  if (s.hdr b).status ≠ .unlinked then s
  else
    let s :=
      match (s.q q).pFirst with
      | some f => (s.setNext b (some f)).setQ q { s.q q with pFirst := some b }
      | none => (s.setQ q { s.q q with pFirst := some b, pLast := some b }).setNext b none
    (s.setQ q { s.q q with count := (s.q q).count + 1 }).setStatus b .queued

/-- The rest of `GKI_dequeue`, for a queue whose count is not 0. -/
def dequeueFirst (s : Queues n κ tasks) (q : κ) (b : Fin n) : Queues n κ tasks :=
  let v : BufferQ n :=
    match (s.hdr b).pNext with
    | some p => { s.q q with pFirst := some p }
    | none => { s.q q with pFirst := none, pLast := none }
  ((s.setQ q { v with count := v.count - 1 }).setNext b none).setStatus b .unlinked

/-- `GKI_dequeue`, with a pointer to a queue that may be null. -/
def gkiDequeue (s : Queues n κ tasks) : Option κ → Option (Queues n κ tasks)
  | none => some (s.answer none)
  | some q =>
    if (s.q q).count = 0 then some (s.answer none)
    else (s.q q).pFirst.map fun b => (dequeueFirst s q b).answer (some b)

/-- The buffer behind `prev` is taken out. -/
def unlinkNext (s : Queues n κ tasks) (q : κ) (prev b : Fin n) : Queues n κ tasks :=
  let s := s.setNext prev (s.hdr b).pNext
  let v := s.q q
  let v := if v.pLast = some b then { v with pLast := some prev } else v
  ((s.setQ q { v with count := v.count - 1 }).setNext b none).setStatus b .unlinked

/-- The loop of `GKI_remove_from_queue`. -/
def removeLoop (s : Queues n κ tasks) (q : κ) (b : Fin n) :
    Nat → Option (Fin n) → Option (Queues n κ tasks)
  | 0, _ => none
  | _ + 1, none => some (s.answer none)
  | fuel + 1, some prev =>
    if (s.hdr prev).pNext = some b then some ((unlinkNext s q prev b).answer (some b))
    else removeLoop s q b fuel (s.hdr prev).pNext

/-- `GKI_remove_from_queue`. The loop starts at the header of `p_first`, which is
not looked at before. -/
def gkiRemoveFromQueue (s : Queues n κ tasks) (q : κ) (b : Fin n) : Option (Queues n κ tasks) :=
  if (s.q q).pFirst = some b then gkiDequeue s (some q)
  else (s.q q).pFirst.bind fun f => removeLoop s q b (n + 1) (some f)

end Code

inductive QueueEvent (n : Nat) (κ : Type) (tasks : Nat) where
  | enqueue (q : κ) (b : Fin n)
  | enqueueHead (q : κ) (b : Fin n)
  | dequeue (q : Option κ)
  | removeFromQueue (q : κ) (b : Fin n)
  | getfirst (q : κ)
  | getlast (q : κ)
  | getnext (b : Fin n)
  | sendMsg (taskId mbox : UInt8) (b : Fin n)
  | readMbox (taskId mbox : UInt8)
  | getbuf (b : Fin n) (taskId : UInt8)
  | freebuf (b : Fin n)
  | setTaskState (task : Fin tasks) (ready : Bool)
  deriving DecidableEq, Repr

def Queues.step {n tasks : Nat} {κ : Type} [DecidableEq κ] (s : Queues n κ tasks) :
    QueueEvent n κ tasks → Option (Queues n κ tasks)
  | .enqueue q b => gkiEnqueue s q b
  | .enqueueHead q b => some (gkiEnqueueHead s q b)
  | .dequeue q => gkiDequeue s q
  | .removeFromQueue q b => gkiRemoveFromQueue s q b
  | .getfirst q => some (gkiGetfirst s q)
  | .getlast q => some (gkiGetlast s q)
  | .getnext b => some (gkiGetnext s b)
  | .sendMsg taskId mbox b => gkiSendMsg s taskId mbox b
  | .readMbox taskId mbox => some (gkiReadMbox s taskId mbox)
  | .getbuf b taskId => some (gkiGetbuf s b taskId)
  | .freebuf b => some (gkiFreebuf s b)
  | .setTaskState task ready =>
    some { s with osRdyTbl := Function.update s.osRdyTbl task ready }

/-! ## Plain lists -/

/-- The lists of the queues and the mailboxes, the buffers the allocator has, the
tasks that run, and what the calls returned. -/
structure Deques (n : Nat) (κ : Type) (tasks : Nat) where
  lists : κ ⊕ Mbox tasks → List (Fin n)
  free : Fin n → Bool
  ready : Fin tasks → Bool
  results : List (Option (Fin n))

namespace Deques
variable {n tasks : Nat} {κ : Type}

/-- The buffer is allocated and in no list. -/
def Loose (a : Deques n κ tasks) (b : Fin n) : Prop := a.free b = false ∧ ∀ k, b ∉ a.lists k

def setFree (a : Deques n κ tasks) (b : Fin n) (f : Bool) : Deques n κ tasks :=
  { a with free := Function.update a.free b f }

def answer (a : Deques n κ tasks) (p : Option (Fin n)) : Deques n κ tasks :=
  { a with results := a.results ++ [p] }

open Classical in
noncomputable def release (a : Deques n κ tasks) (b : Fin n) : Deques n κ tasks :=
  if a.Loose b then a.setFree b true else a

open Classical in
/-- The buffer behind `b` in the list that holds it. -/
noncomputable def after (a : Deques n κ tasks) (b : Fin n) : Option (Fin n) :=
  if h : ∃ k, b ∈ a.lists k then (a.lists h.choose)[(a.lists h.choose).idxOf b + 1]? else none

variable [DecidableEq κ]

def setList (a : Deques n κ tasks) (k : κ ⊕ Mbox tasks) (l : List (Fin n)) : Deques n κ tasks :=
  { a with lists := Function.update a.lists k l }

open Classical in
noncomputable def push (a : Deques n κ tasks) (k : κ ⊕ Mbox tasks) (b : Fin n) : Deques n κ tasks :=
  if a.Loose b then a.setList k (a.lists k ++ [b]) else a

open Classical in
noncomputable def pushFront (a : Deques n κ tasks) (k : κ ⊕ Mbox tasks) (b : Fin n) :
    Deques n κ tasks :=
  if a.Loose b then a.setList k (b :: a.lists k) else a

def popFront (a : Deques n κ tasks) (k : κ ⊕ Mbox tasks) : Deques n κ tasks :=
  (a.setList k (a.lists k).tail).answer (a.lists k).head?

def remove (a : Deques n κ tasks) (k : κ ⊕ Mbox tasks) (b : Fin n) : Deques n κ tasks :=
  (a.setList k ((a.lists k).erase b)).answer (if b ∈ a.lists k then some b else none)

noncomputable def step (a : Deques n κ tasks) : QueueEvent n κ tasks → Deques n κ tasks
  | .enqueue q b => a.push (.inl q) b
  | .enqueueHead q b => a.pushFront (.inl q) b
  | .dequeue none => a.answer none
  | .dequeue (some q) => a.popFront (.inl q)
  | .removeFromQueue q b => a.remove (.inl q) b
  | .getfirst q => a.answer (a.lists (.inl q)).head?
  | .getlast q => a.answer (a.lists (.inl q)).getLast?
  | .getnext b => a.answer (a.after b)
  | .sendMsg taskId mbox b =>
    match mboxOf tasks taskId mbox with
    | none => a.release b
    | some m => if a.ready m.1 then a.push (.inr m) b else a.release b
  | .readMbox taskId mbox =>
    match mboxOf tasks taskId mbox with
    | none => a.answer none
    | some m => a.popFront (.inr m)
  | .getbuf b _ => a.setFree b false
  | .freebuf b => a.release b
  | .setTaskState task ready => { a with ready := Function.update a.ready task ready }

end Deques

/-! ## The links -/

/-- The links and the states of the headers, for the lists they make up. -/
structure Linked {n : Nat} {κ : Type} (hdr : Fin n → BufferHdr n) (lists : κ → List (Fin n))
    (free : Fin n → Bool) : Prop where
  chains : Chains (fun i => (hdr i).pNext) lists
  queued : ∀ i, (hdr i).status = .queued ↔ ∃ k, i ∈ lists k
  freed : ∀ i, (hdr i).status = .free ↔ free i = true
  loose : ∀ i, (hdr i).status = .unlinked → (hdr i).pNext = none

section Links
variable {n : Nat} {κ : Type} {hdr hdr' : Fin n → BufferHdr n} {lists : κ → List (Fin n)}
  {free : Fin n → Bool} {b : Fin n} {k : κ}

theorem Linked.unlinked_iff (h : Linked hdr lists free) (b : Fin n) :
    (hdr b).status = .unlinked ↔ free b = false ∧ ∀ k, b ∉ lists k := by
  have hq := h.queued b
  have hf := h.freed b
  cases hs : (hdr b).status with
  | free =>
    rw [hs] at hf
    simp [hf.mp rfl]
  | unlinked =>
    rw [hs] at hq hf
    simp only [reduceCtorEq, false_iff, not_exists, Bool.not_eq_true] at hq hf
    simp [hq, hf]
  | queued =>
    rw [hs] at hq
    obtain ⟨k, hk⟩ := hq.mp rfl
    simp only [reduceCtorEq, false_iff, not_and, not_forall, not_not]
    exact fun _ => ⟨k, hk⟩

variable [DecidableEq κ]

/-- A buffer that was loose is in a list now, and the stores to the links made it so. -/
theorem linked_insert (h : Linked hdr lists free) (hb : (hdr b).status = .unlinked)
    {is : List (Fin n)} (hmem : ∀ j, j ∈ is ↔ j = b ∨ j ∈ lists k)
    (hchains : Chains (fun i => (hdr' i).pNext) (Function.update lists k is))
    (hstatus : ∀ i, (hdr' i).status = if i = b then .queued else (hdr i).status)
    (hnext : ∀ i, (∀ k, i ∉ lists k) → i ≠ b → (hdr' i).pNext = (hdr i).pNext) :
    Linked hdr' (Function.update lists k is) free := by
  refine ⟨hchains, ?_, ?_, ?_⟩
  · intro i
    rw [Chains.mem_insert hmem, hstatus]
    by_cases hi : i = b
    · simp [hi]
    · simp [hi, h.queued i]
  · intro i
    rw [hstatus]
    by_cases hi : i = b
    · subst hi
      have hf := (h.unlinked_iff i).mp hb
      simp [hf.1]
    · simp [hi, h.freed i]
  · intro i hs
    rw [hstatus] at hs
    by_cases hi : i = b
    · simp [hi] at hs
    · rw [if_neg hi] at hs
      rw [hnext i ((h.unlinked_iff i).mp hs).2 hi]
      exact h.loose i hs

theorem linked_remove (h : Linked hdr lists free) {is : List (Fin n)} (hperm : (lists k).Perm (b :: is))
    (hchains : Chains (fun i => (hdr' i).pNext) (Function.update lists k is))
    (hstatus : ∀ i, (hdr' i).status = if i = b then .unlinked else (hdr i).status)
    (hbnext : (hdr' b).pNext = none)
    (hnext : ∀ i, (∀ k, i ∉ lists k) → (hdr' i).pNext = (hdr i).pNext) :
    Linked hdr' (Function.update lists k is) free := by
  have hb : b ∈ lists k := hperm.mem_iff.mpr List.mem_cons_self
  have hnd := h.chains.nodup k
  rw [hperm.nodup_iff, List.nodup_cons] at hnd
  have hmem : ∀ j, j ∈ is ↔ j ≠ b ∧ j ∈ lists k := by
    intro j
    rw [hperm.mem_iff, List.mem_cons]
    constructor
    · intro hj
      refine ⟨?_, .inr hj⟩
      rintro rfl
      exact hnd.1 hj
    · rintro ⟨hne, hj⟩
      exact hj.resolve_left hne
  have hqueued : (hdr b).status = .queued := (h.queued b).mpr ⟨k, hb⟩
  refine ⟨hchains, ?_, ?_, ?_⟩
  · intro i
    rw [h.chains.mem_remove hb hmem, hstatus]
    by_cases hi : i = b
    · simp [hi]
    · simp [hi, h.queued i]
  · intro i
    rw [hstatus]
    by_cases hi : i = b
    · subst hi
      rw [← h.freed i, hqueued]
      simp
    · simp [hi, h.freed i]
  · intro i hs
    rw [hstatus] at hs
    by_cases hi : i = b
    · rw [hi]
      exact hbnext
    · rw [if_neg hi] at hs
      rw [hnext i ((h.unlinked_iff i).mp hs).2]
      exact h.loose i hs

theorem linked_push (h : Linked hdr lists free) (k : κ) (hb : (hdr b).status = .unlinked)
    (hnext : ∀ i, (hdr' i).pNext =
      if i = b then none else if (lists k).getLast? = some i then some b else (hdr i).pNext)
    (hstatus : ∀ i, (hdr' i).status = if i = b then .queued else (hdr i).status) :
    Linked hdr' (Function.update lists k (lists k ++ [b])) free := by
  have hloose := ((h.unlinked_iff b).mp hb).2
  apply linked_insert h hb
  · intro j
    rw [List.mem_append, List.mem_singleton, or_comm]
  · have hfun : (fun i => (hdr' i).pNext) = Function.update
        (relink (fun i => (hdr i).pNext) (lists k).getLast? (some b)) b none := by
      funext i
      rw [hnext]
      cases hl : (lists k).getLast? with
      | none => simp [relink, Function.update_apply]
      | some l => simp [relink, Function.update_apply, eq_comm]
    rw [hfun]
    exact h.chains.push k hloose
  · exact hstatus
  · intro i hi hib
    rw [hnext, if_neg hib, if_neg]
    intro hl
    exact hi k (List.mem_of_getLast? hl)

theorem linked_cons (h : Linked hdr lists free) (k : κ) (hb : (hdr b).status = .unlinked)
    (hnext : ∀ i, (hdr' i).pNext = if i = b then (lists k).head? else (hdr i).pNext)
    (hstatus : ∀ i, (hdr' i).status = if i = b then .queued else (hdr i).status) :
    Linked hdr' (Function.update lists k (b :: lists k)) free := by
  have hloose := ((h.unlinked_iff b).mp hb).2
  apply linked_insert h hb
  · intro j
    rw [List.mem_cons]
  · have hfun : (fun i => (hdr' i).pNext) =
        Function.update (fun i => (hdr i).pNext) b (lists k).head? := by
      funext i
      rw [hnext, Function.update_apply]
    rw [hfun]
    exact h.chains.cons k hloose
  · exact hstatus
  · intro i _ hib
    rw [hnext, if_neg hib]

theorem linked_pop (h : Linked hdr lists free) {is : List (Fin n)} (hk : lists k = b :: is)
    (hnext : ∀ i, (hdr' i).pNext = if i = b then none else (hdr i).pNext)
    (hstatus : ∀ i, (hdr' i).status = if i = b then .unlinked else (hdr i).status) :
    Linked hdr' (Function.update lists k is) free := by
  have hb : b ∈ lists k := by simp [hk]
  apply linked_remove h
  · rw [hk]
  · have hfun : (fun i => (hdr' i).pNext) = Function.update (fun i => (hdr i).pNext) b none := by
      funext i
      rw [hnext, Function.update_apply]
    rw [hfun]
    exact h.chains.pop hk
  · exact hstatus
  · rw [hnext, if_pos rfl]
  · intro i hi
    have hib : i ≠ b := by
      rintro rfl
      exact hi k hb
    rw [hnext, if_neg hib]

theorem linked_cut (h : Linked hdr lists free) {xs ys : List (Fin n)} {p : Fin n}
    (hk : lists k = xs ++ p :: b :: ys)
    (hnext : ∀ i, (hdr' i).pNext =
      if i = b then none else if i = p then (hdr b).pNext else (hdr i).pNext)
    (hstatus : ∀ i, (hdr' i).status = if i = b then .unlinked else (hdr i).status) :
    Linked hdr' (Function.update lists k (xs ++ p :: ys)) free := by
  have hb : b ∈ lists k := by simp [hk]
  have hp : p ∈ lists k := by simp [hk]
  apply linked_remove h
  · rw [hk]
    exact perm_cut xs ys p b
  · have hfun : (fun i => (hdr' i).pNext) = Function.update
        (Function.update (fun i => (hdr i).pNext) p (hdr b).pNext) b none := by
      funext i
      rw [hnext, Function.update_apply, Function.update_apply]
    rw [hfun]
    exact h.chains.cut hk
  · exact hstatus
  · rw [hnext, if_pos rfl]
  · intro i hi
    have hib : i ≠ b := by
      rintro rfl
      exact hi k hb
    have hip : i ≠ p := by
      rintro rfl
      exact hi k hp
    rw [hnext, if_neg hib, if_neg hip]

end Links

/-! ## One call -/

/-- The queues and mailboxes hold the lists: both ends, and the count. A mailbox
that is empty keeps an old `OSTaskQLast`. -/
structure Queues.Holds {n tasks : Nat} {κ : Type} (s : Queues n κ tasks) (a : Deques n κ tasks) :
    Prop where
  linked : Linked s.hdr a.lists a.free
  first : ∀ q, (s.q q).pFirst = (a.lists (.inl q)).head?
  last : ∀ q, (s.q q).pLast = (a.lists (.inl q)).getLast?
  count : ∀ q, (s.q q).count.toNat = (a.lists (.inl q)).length
  mboxFirst : ∀ m, s.osTaskQFirst m = (a.lists (.inr m)).head?
  mboxLast : ∀ m, a.lists (.inr m) ≠ [] → s.osTaskQLast m = (a.lists (.inr m)).getLast?
  ready : s.osRdyTbl = a.ready
  results : s.results = a.results

section Fields
variable {n tasks : Nat} {κ : Type} (s : Queues n κ tasks) (b i : Fin n) (p : Option (Fin n))
  (st : BufStatus) (taskId : UInt8)

@[simp] theorem setNext_pNext :
    ((s.setNext b p).hdr i).pNext = if i = b then p else (s.hdr i).pNext := by
  by_cases h : i = b
  · subst h
    simp [Queues.setNext]
  · simp [Queues.setNext, h]

@[simp] theorem setNext_status : ((s.setNext b p).hdr i).status = (s.hdr i).status := by
  by_cases h : i = b
  · subst h
    simp [Queues.setNext]
  · simp [Queues.setNext, h]

@[simp] theorem setStatus_pNext : ((s.setStatus b st).hdr i).pNext = (s.hdr i).pNext := by
  by_cases h : i = b
  · subst h
    simp [Queues.setStatus]
  · simp [Queues.setStatus, h]

@[simp] theorem setStatus_status :
    ((s.setStatus b st).hdr i).status = if i = b then st else (s.hdr i).status := by
  by_cases h : i = b
  · subst h
    simp [Queues.setStatus]
  · simp [Queues.setStatus, h]

@[simp] theorem setTask_pNext : ((s.setTask b taskId).hdr i).pNext = (s.hdr i).pNext := by
  by_cases h : i = b
  · subst h
    simp [Queues.setTask]
  · simp [Queues.setTask, h]

@[simp] theorem setTask_status : ((s.setTask b taskId).hdr i).status = (s.hdr i).status := by
  by_cases h : i = b
  · subst h
    simp [Queues.setTask]
  · simp [Queues.setTask, h]

@[simp] theorem setQ_hdr [DecidableEq κ] (q : κ) (v : BufferQ n) : (s.setQ q v).hdr = s.hdr := rfl

@[simp] theorem setQ_q [DecidableEq κ] (q : κ) (v : BufferQ n) :
    (s.setQ q v).q = Function.update s.q q v := rfl

@[simp] theorem setNext_q : (s.setNext b p).q = s.q := rfl

@[simp] theorem setStatus_q : (s.setStatus b st).q = s.q := rfl

end Fields

section Calls
variable {n tasks : Nat} {κ : Type} {s t : Queues n κ tasks} {a : Deques n κ tasks}

namespace Queues.Holds

theorem answer (h : s.Holds a) (p : Option (Fin n)) : (s.answer p).Holds (a.answer p) :=
  ⟨h.linked, h.first, h.last, h.count, h.mboxFirst, h.mboxLast, h.ready,
    congrArg (· ++ [p]) h.results⟩

theorem loose_iff (h : s.Holds a) (b : Fin n) : (s.hdr b).status = .unlinked ↔ a.Loose b :=
  h.linked.unlinked_iff b

variable [DecidableEq κ]

theorem editQ (h : s.Holds a) {q : κ} {l : List (Fin n)} {v : BufferQ n}
    (hlinked : Linked t.hdr (Function.update a.lists (.inl q) l) a.free)
    (hq : t.q = Function.update s.q q v) (hfirst : v.pFirst = l.head?)
    (hlast : v.pLast = l.getLast?) (hcount : v.count.toNat = l.length)
    (hmf : t.osTaskQFirst = s.osTaskQFirst) (hml : t.osTaskQLast = s.osTaskQLast)
    (hready : t.osRdyTbl = s.osRdyTbl) (hres : t.results = s.results) :
    t.Holds (a.setList (.inl q) l) := by
  have hother : ∀ q', q' ≠ q → Function.update a.lists (.inl q) l (.inl q') = a.lists (.inl q') :=
    fun q' hne => Function.update_of_ne (fun heq => hne (Sum.inl.inj heq)) _ _
  have hmbox : ∀ m, Function.update a.lists (.inl q) l (.inr m) = a.lists (.inr m) :=
    fun m => Function.update_of_ne Sum.inr_ne_inl _ _
  refine ⟨hlinked, ?_, ?_, ?_, ?_, ?_, hready.trans h.ready, hres.trans h.results⟩
  · intro q'
    rw [hq]
    by_cases hne : q' = q
    · subst hne
      simpa [Deques.setList] using hfirst
    · rw [Function.update_of_ne hne]
      exact (h.first q').trans (congrArg List.head? (hother q' hne)).symm
  · intro q'
    rw [hq]
    by_cases hne : q' = q
    · subst hne
      simpa [Deques.setList] using hlast
    · rw [Function.update_of_ne hne]
      exact (h.last q').trans (congrArg List.getLast? (hother q' hne)).symm
  · intro q'
    rw [hq]
    by_cases hne : q' = q
    · subst hne
      simpa [Deques.setList] using hcount
    · rw [Function.update_of_ne hne]
      exact (h.count q').trans (congrArg List.length (hother q' hne)).symm
  · intro m
    rw [hmf]
    exact (h.mboxFirst m).trans (congrArg List.head? (hmbox m)).symm
  · intro m hne
    have hlists : (a.setList (.inl q) l).lists (.inr m) = a.lists (.inr m) := hmbox m
    rw [hlists] at hne ⊢
    rw [hml]
    exact h.mboxLast m hne

theorem editM (h : s.Holds a) {m : Mbox tasks} {l : List (Fin n)}
    (hlinked : Linked t.hdr (Function.update a.lists (.inr m) l) a.free) (hq : t.q = s.q)
    (hfirst : t.osTaskQFirst = Function.update s.osTaskQFirst m l.head?)
    (hlast : l ≠ [] → t.osTaskQLast m = l.getLast?)
    (hothers : ∀ m', m' ≠ m → t.osTaskQLast m' = s.osTaskQLast m')
    (hready : t.osRdyTbl = s.osRdyTbl) (hres : t.results = s.results) :
    t.Holds (a.setList (.inr m) l) := by
  have hother : ∀ m', m' ≠ m → Function.update a.lists (.inr m) l (.inr m') = a.lists (.inr m') :=
    fun m' hne => Function.update_of_ne (fun heq => hne (Sum.inr.inj heq)) _ _
  have hqueue : ∀ q, Function.update a.lists (.inr m) l (.inl q) = a.lists (.inl q) :=
    fun q => Function.update_of_ne Sum.inl_ne_inr _ _
  refine ⟨hlinked, ?_, ?_, ?_, ?_, ?_, hready.trans h.ready, hres.trans h.results⟩
  · intro q
    rw [hq]
    exact (h.first q).trans (congrArg List.head? (hqueue q)).symm
  · intro q
    rw [hq]
    exact (h.last q).trans (congrArg List.getLast? (hqueue q)).symm
  · intro q
    rw [hq]
    exact (h.count q).trans (congrArg List.length (hqueue q)).symm
  · intro m'
    rw [hfirst]
    by_cases hne : m' = m
    · subst hne
      simp [Deques.setList]
    · rw [Function.update_of_ne hne]
      exact (h.mboxFirst m').trans (congrArg List.head? (hother m' hne)).symm
  · intro m' hne'
    by_cases hne : m' = m
    · subst hne
      simp only [Deques.setList, Function.update_self] at hne' ⊢
      exact hlast hne'
    · have hlists : (a.setList (.inr m) l).lists (.inr m') = a.lists (.inr m') := hother m' hne
      rw [hlists] at hne' ⊢
      rw [hothers m' hne]
      exact h.mboxLast m' hne'

end Queues.Holds

theorem count_succ {c : UInt16} {k : Nat} (hc : c.toNat = k) (hne : c ≠ 65535) :
    (c + 1).toNat = k + 1 := by
  have hlt : c.toNat ≠ 65535 := fun h => hne (UInt16.toNat_inj.mp h)
  have hmax := c.toNat_lt
  rw [UInt16.toNat_add]
  have hone : (1 : UInt16).toNat = 1 := rfl
  omega

theorem count_pred {c : UInt16} {k : Nat} (hc : c.toNat = k + 1) : (c - 1).toNat = k := by
  have hle : (1 : UInt16) ≤ c := by
    rw [UInt16.le_iff_toNat_le, hc]
    exact Nat.succ_le_succ (Nat.zero_le k)
  rw [UInt16.toNat_sub_of_le _ _ hle, hc]
  rfl

section Queue
variable [DecidableEq κ]

theorem holds_enqueue (h : s.Holds a) (q : κ) (b : Fin n)
    (hroom : (s.hdr b).status = .unlinked → (s.q q).count ≠ 65535) :
    ∃ t, gkiEnqueue s q b = some t ∧ t.Holds (a.push (.inl q) b) := by
  unfold gkiEnqueue Deques.push
  by_cases hb : (s.hdr b).status = .unlinked
  · rw [if_neg (not_not.mpr hb), if_pos ((h.loose_iff b).mp hb)]
    have hcount := count_succ (h.count q) (hroom hb)
    rcases List.eq_nil_or_concat (a.lists (.inl q)) with hnil | ⟨xs, l, hconcat⟩
    · have hfirst : (s.q q).pFirst = none := by rw [h.first, hnil]; rfl
      rw [hfirst]
      refine ⟨_, rfl, h.editQ (v := ⟨some b, some b, (s.q q).count + 1⟩)
        (linked_push h.linked (.inl q) hb ?_ ?_) ?_ ?_ ?_ ?_ rfl rfl rfl rfl⟩
      · intro i
        simp [hnil]
      · intro i
        simp
      · simp
      · simp [hnil]
      · simp [hnil]
      · simpa [hnil] using hcount
    · have hlast : (s.q q).pLast = some l := by
        rw [h.last, hconcat, List.concat_eq_append, List.getLast?_append]
        rfl
      obtain ⟨f, hf⟩ : ∃ f, (a.lists (.inl q)).head? = some f := by
        rw [← Option.isSome_iff_exists, List.isSome_head?, hconcat, List.concat_eq_append]
        simp
      rw [(h.first q).trans hf, hlast]
      refine ⟨_, rfl, h.editQ (linked_push h.linked (.inl q) hb ?_ ?_) rfl ?_ ?_ ?_ rfl rfl rfl rfl⟩
      · intro i
        rw [← h.last q, hlast]
        simp [eq_comm]
      · intro i
        simp
      · show (s.q q).pFirst = _
        rw [h.first q, List.head?_append, hf]
        rfl
      · rw [List.getLast?_append]
        rfl
      · rw [List.length_append]
        exact hcount
  · rw [if_pos hb, if_neg (fun hl => hb ((h.loose_iff b).mpr hl))]
    exact ⟨s, rfl, h⟩

theorem holds_enqueueHead (h : s.Holds a) (q : κ) (b : Fin n)
    (hroom : (s.hdr b).status = .unlinked → (s.q q).count ≠ 65535) :
    (gkiEnqueueHead s q b).Holds (a.pushFront (.inl q) b) := by
  unfold gkiEnqueueHead Deques.pushFront
  by_cases hb : (s.hdr b).status = .unlinked
  · rw [if_neg (not_not.mpr hb), if_pos ((h.loose_iff b).mp hb)]
    have hcount := count_succ (h.count q) (hroom hb)
    have hlast := h.last q
    cases hl : a.lists (.inl q) with
    | nil =>
      have hfirst : (s.q q).pFirst = none := by rw [h.first, hl]; rfl
      rw [hfirst]
      rw [← hl]
      refine h.editQ (v := { s.q q with
        pFirst := some b, pLast := some b, count := (s.q q).count + 1 })
        (linked_cons h.linked (.inl q) hb ?_ ?_) ?_ rfl ?_ ?_ rfl rfl rfl rfl
      · intro i
        simp [hl]
      · intro i
        simp
      · simp
      · simp [hl]
      · rw [List.length_cons]
        exact hcount
    | cons f rest =>
      have hfirst : (s.q q).pFirst = some f := by rw [h.first, hl]; rfl
      rw [hfirst]
      rw [← hl]
      refine h.editQ (v := { s.q q with pFirst := some b, count := (s.q q).count + 1 })
        (linked_cons h.linked (.inl q) hb ?_ ?_) ?_ rfl ?_ ?_ rfl rfl rfl rfl
      · intro i
        simp [hl]
      · intro i
        simp
      · simp
      · show (s.q q).pLast = _
        rw [hlast, hl, List.getLast?_cons_cons]
      · rw [List.length_cons]
        exact hcount
  · rw [if_pos hb, if_neg (fun hl => hb ((h.loose_iff b).mpr hl))]
    exact h

theorem holds_dequeueFirst (h : s.Holds a) {q : κ} {b : Fin n} {rest : List (Fin n)}
    (hl : a.lists (.inl q) = b :: rest) :
    (dequeueFirst s q b).Holds (a.setList (.inl q) rest) := by
  have hnext : (s.hdr b).pNext = rest.head? := by
    have hlink := h.linked.chains.linked (.inl q)
    rw [hl] at hlink
    exact hlink.next_head
  have hcount : ((s.q q).count - 1).toNat = rest.length := by
    apply count_pred
    rw [h.count q, hl, List.length_cons]
  unfold dequeueFirst
  rw [hnext]
  cases rest with
  | nil =>
    refine h.editQ (linked_pop h.linked hl ?_ ?_) rfl rfl rfl hcount rfl rfl rfl rfl
    · intro i
      simp
    · intro i
      simp
  | cons c rest =>
    refine h.editQ (linked_pop h.linked hl ?_ ?_) rfl rfl ?_ hcount rfl rfl rfl rfl
    · intro i
      simp
    · intro i
      simp
    · show (s.q q).pLast = _
      rw [h.last q, hl, List.getLast?_cons_cons]

theorem holds_dequeue (h : s.Holds a) (q : κ) :
    ∃ t, gkiDequeue s (some q) = some t ∧ t.Holds (a.popFront (.inl q)) := by
  have hcount := h.count q
  unfold gkiDequeue Deques.popFront
  dsimp only
  cases hl : a.lists (.inl q) with
  | nil =>
    rw [hl, List.length_nil] at hcount
    rw [if_pos (UInt16.toNat_inj.mp hcount)]
    refine ⟨_, rfl, ?_⟩
    have hsame : a.setList (.inl q) [] = a := by
      unfold Deques.setList
      rw [← hl, Function.update_eq_self]
    rw [List.tail_nil, hsame]
    exact h.answer none
  | cons b rest =>
    have hne : (s.q q).count ≠ 0 := by
      intro h0
      rw [h0, hl] at hcount
      cases hcount
    have hfirst : (s.q q).pFirst = some b := by rw [h.first, hl]; rfl
    rw [if_neg hne, hfirst]
    exact ⟨_, rfl, (holds_dequeueFirst h hl).answer (some b)⟩

theorem holds_unlinkNext (h : s.Holds a) {q : κ} {b prev : Fin n} {xs ys : List (Fin n)}
    (hl : a.lists (.inl q) = xs ++ prev :: b :: ys) :
    (unlinkNext s q prev b).Holds (a.setList (.inl q) (xs ++ prev :: ys)) := by
  have hlast := h.last q
  have hcount : ((s.q q).count - 1).toNat = (xs ++ prev :: ys).length := by
    apply count_pred
    rw [h.count q, hl]
    simp only [List.length_append, List.length_cons]
    omega
  have hlink : ∀ v : BufferQ n, Linked (((((s.setNext prev (s.hdr b).pNext).setQ q v).setNext b
      none).setStatus b .unlinked).hdr) (Function.update a.lists (.inl q) (xs ++ prev :: ys))
      a.free := by
    intro v
    refine linked_cut h.linked hl ?_ ?_
    · intro i
      simp
    · intro i
      simp
  have hfirst : (s.q q).pFirst = (xs ++ prev :: ys).head? := by
    rw [h.first q, hl, List.head?_append, List.head?_append]
    rfl
  unfold unlinkNext
  by_cases hb : (s.q q).pLast = some b
  · -- the last buffer: `prev` becomes the last one
    have hys : ys = [] := by
      have hnd := h.linked.chains.nodup (.inl q)
      rw [hl] at hnd
      by_contra hne
      obtain ⟨zs, z, hzs⟩ := (List.eq_nil_or_concat ys).resolve_left hne
      rw [hlast, hl, hzs] at hb
      have hzb : z = b := by
        have hz : (xs ++ prev :: b :: zs.concat z).getLast? = some z := by
          have hassoc : xs ++ prev :: b :: zs.concat z = (xs ++ prev :: b :: zs) ++ [z] := by simp
          rw [hassoc, List.getLast?_append]
          rfl
        exact Option.some.inj (hz.symm.trans hb)
      rw [hzs, hzb] at hnd
      have hcons : (b :: zs.concat b).Nodup :=
        (List.nodup_cons.mp (List.nodup_append.mp hnd).2.1).2
      exact (List.nodup_cons.mp hcons).1 (by simp)
    refine h.editQ (v := ⟨(s.q q).pFirst, some prev, (s.q q).count - 1⟩) (hlink _) ?_ hfirst ?_ hcount
      rfl rfl rfl rfl
    · simp [hb]
    · rw [hys, List.getLast?_append]
      rfl
  · have hys : ys ≠ [] := by
      rintro rfl
      apply hb
      rw [hlast, hl]
      have hassoc : xs ++ [prev, b] = (xs ++ [prev]) ++ [b] := by simp
      rw [hassoc, List.getLast?_append]
      rfl
    refine h.editQ (v := ⟨(s.q q).pFirst, (s.q q).pLast, (s.q q).count - 1⟩) (hlink _) ?_ hfirst ?_
      hcount rfl rfl rfl rfl
    · simp [hb]
    · obtain ⟨c, zs, rfl⟩ := List.exists_cons_of_ne_nil hys
      show (s.q q).pLast = _
      rw [hlast, hl, List.getLast?_append, List.getLast?_append, List.getLast?_cons_cons,
        List.getLast?_cons_cons, List.getLast?_cons_cons]

/-- The loop finds the buffer, if it is behind `prev`, and the one before it. -/
theorem removeLoop_spec (h : s.Holds a) {q : κ} {b : Fin n} {rest : List (Fin n)} :
    ∀ {xs : List (Fin n)} {prev : Fin n} {fuel : Nat}, a.lists (.inl q) = xs ++ prev :: rest →
      rest.length + 2 ≤ fuel →
      if b ∈ rest then ∃ ys p zs, a.lists (.inl q) = ys ++ p :: b :: zs ∧
        removeLoop s q b fuel (some prev) = some ((unlinkNext s q p b).answer (some b))
      else removeLoop s q b fuel (some prev) = some (s.answer none) := by
  induction rest with
  | nil =>
    intro xs prev fuel hl hfuel
    obtain ⟨fuel, rfl⟩ : ∃ f, fuel = f + 2 := ⟨fuel - 2, by simp at hfuel; omega⟩
    have hlink := h.linked.chains.linked (.inl q)
    rw [hl] at hlink
    have hnext : (s.hdr prev).pNext = none := hlink.next_eq
    rw [if_neg List.not_mem_nil, removeLoop, hnext, if_neg (by simp), removeLoop]
  | cons c rest ih =>
    intro xs prev fuel hl hfuel
    obtain ⟨fuel, rfl⟩ : ∃ f, fuel = f + 1 := ⟨fuel - 1, by simp at hfuel; omega⟩
    have hlink := h.linked.chains.linked (.inl q)
    rw [hl] at hlink
    have hnext : (s.hdr prev).pNext = some c := hlink.next_eq
    rw [removeLoop, hnext]
    by_cases hcb : c = b
    · subst hcb
      rw [if_pos (by simp), if_pos rfl]
      exact ⟨xs, prev, rest, hl, rfl⟩
    · have hne : ¬ (some c = some b) := fun heq => hcb (Option.some.inj heq)
      rw [if_neg hne]
      have hmem : b ∈ c :: rest ↔ b ∈ rest := by
        rw [List.mem_cons, or_iff_right (fun heq : b = c => hcb heq.symm)]
      rw [if_congr hmem rfl rfl]
      have hl' : a.lists (.inl q) = (xs ++ [prev]) ++ c :: rest := by
        rw [hl, List.append_assoc]
        rfl
      apply ih hl'
      simp only [List.length_cons] at hfuel
      omega

omit [DecidableEq κ] in
theorem Queues.Holds.length_le (h : s.Holds a) (k : κ ⊕ Mbox tasks) : (a.lists k).length ≤ n := by
  have hle := (h.linked.chains.nodup k).length_le_card
  rwa [Fintype.card_fin] at hle

theorem holds_remove (h : s.Holds a) (q : κ) (b : Fin n) (hne : (s.q q).pFirst ≠ none) :
    ∃ t, gkiRemoveFromQueue s q b = some t ∧ t.Holds (a.remove (.inl q) b) := by
  have hfirst := h.first q
  have hlen := h.length_le (.inl q)
  have hnd := h.linked.chains.nodup (.inl q)
  unfold gkiRemoveFromQueue Deques.remove
  cases hl : a.lists (.inl q) with
  | nil =>
    rw [hl] at hfirst
    exact absurd hfirst hne
  | cons f rest =>
    rw [hl] at hfirst hlen hnd
    rw [show (s.q q).pFirst = some f from hfirst]
    by_cases hfb : f = b
    · subst hfb
      obtain ⟨t, ht, hholds⟩ := holds_dequeue h q
      rw [if_pos rfl, if_pos (by simp), List.erase_cons_head]
      refine ⟨t, ht, ?_⟩
      simpa [Deques.popFront, hl] using hholds
    · have hsome : ¬ ((some f : Option (Fin n)) = some b) := fun heq => hfb (Option.some.inj heq)
      rw [if_neg hsome]
      have hfuel : rest.length + 2 ≤ n + 1 := by
        simp only [List.length_cons] at hlen
        omega
      have hl' : a.lists (.inl q) = [] ++ f :: rest := hl
      have hloop := removeLoop_spec (b := b) h hl' hfuel
      have hmem : b ∈ f :: rest ↔ b ∈ rest := by
        rw [List.mem_cons, or_iff_right (fun heq : b = f => hfb heq.symm)]
      rw [if_congr hmem rfl rfl]
      by_cases hb : b ∈ rest
      · rw [if_pos hb] at hloop
        obtain ⟨ys, p, zs, hsplit, hrun⟩ := hloop
        have herase : (f :: rest).erase b = ys ++ p :: zs := by
          rw [← hl, hsplit] at hnd ⊢
          have hassoc : ys ++ p :: b :: zs = (ys ++ [p]) ++ b :: zs := by simp
          rw [hassoc] at hnd ⊢
          have hnotin : b ∉ ys ++ [p] := by
            intro hin
            exact List.disjoint_of_nodup_append hnd hin (by simp)
          rw [List.erase_append_right _ hnotin, List.erase_cons_head]
          simp
        rw [if_pos hb, herase]
        exact ⟨_, hrun, (holds_unlinkNext h hsplit).answer (some b)⟩
      · rw [if_neg hb] at hloop
        have hsame : a.setList (.inl q) ((f :: rest).erase b) = a := by
          unfold Deques.setList
          rw [List.erase_of_not_mem (fun hin => hb (hmem.mp hin)), ← hl, Function.update_eq_self]
        rw [if_neg hb, hsame]
        exact ⟨_, hloop, h.answer none⟩

end Queue

theorem next_eq_after (h : s.Holds a) {b : Fin n} (hb : (s.hdr b).status ≠ .free) :
    (s.hdr b).pNext = a.after b := by
  unfold Deques.after
  by_cases hin : ∃ k, b ∈ a.lists k
  · rw [dif_pos hin]
    have hmem := hin.choose_spec
    obtain ⟨xs, ys, hsplit⟩ := List.append_of_mem hmem
    have hlink := h.linked.chains.linked hin.choose
    have hnd := h.linked.chains.nodup hin.choose
    rw [hsplit] at hlink hnd ⊢
    have hnext : (s.hdr b).pNext = ys.head? := hlink.next_eq
    have hnotin : b ∉ xs := fun hx => List.disjoint_of_nodup_append hnd hx (by simp)
    rw [hnext, List.idxOf_append_of_notMem hnotin, List.idxOf_cons_self, Nat.add_zero,
      List.getElem?_append_right (Nat.le_succ _), Nat.succ_sub (le_refl _), Nat.sub_self,
      List.getElem?_cons_succ, List.head?_eq_getElem?]
  · rw [dif_neg hin]
    apply h.linked.loose b
    cases hs : (s.hdr b).status with
    | free => exact absurd hs hb
    | unlinked => rfl
    | queued => exact absurd ((h.linked.queued b).mp hs) hin

theorem holds_freebuf (h : s.Holds a) (b : Fin n) : (gkiFreebuf s b).Holds (a.release b) := by
  unfold gkiFreebuf Deques.release
  by_cases hb : (s.hdr b).status = .unlinked
  · rw [if_neg (not_not.mpr hb), if_pos ((h.loose_iff b).mp hb)]
    refine ⟨⟨?_, ?_, ?_, ?_⟩, h.first, h.last, h.count, h.mboxFirst, h.mboxLast, h.ready, h.results⟩
    · have hfun : (fun i => ((s.setStatus b .free).hdr i).pNext) = fun i => (s.hdr i).pNext := by
        funext i
        simp
      rw [hfun]
      exact h.linked.chains
    · intro i
      rw [setStatus_status]
      by_cases hi : i = b
      · subst hi
        have hno : ¬ ∃ k, i ∈ a.lists k := by
          rintro ⟨k, hk⟩
          exact ((h.loose_iff i).mp hb).2 k hk
        simp only [if_true, reduceCtorEq, false_iff]
        exact hno
      · rw [if_neg hi]
        exact h.linked.queued i
    · intro i
      rw [setStatus_status]
      by_cases hi : i = b
      · simp [hi, Deques.setFree]
      · simpa [hi, Deques.setFree] using h.linked.freed i
    · intro i hs
      rw [setStatus_status] at hs
      rw [setStatus_pNext]
      by_cases hi : i = b
      · simp [hi] at hs
      · rw [if_neg hi] at hs
        exact h.linked.loose i hs
  · rw [if_pos hb, if_neg (fun hl => hb ((h.loose_iff b).mpr hl))]
    exact h

theorem holds_getbuf (h : s.Holds a) (b : Fin n) (taskId : UInt8) :
    (gkiGetbuf s b taskId).Holds (a.setFree b false) := by
  unfold gkiGetbuf
  by_cases hb : (s.hdr b).status = .free
  · rw [if_pos hb]
    have hout : ∀ k, b ∉ a.lists k := by
      intro k hk
      have hq := (h.linked.queued b).mpr ⟨k, hk⟩
      rw [hb] at hq
      cases hq
    refine ⟨⟨?_, ?_, ?_, ?_⟩, h.first, h.last, h.count, h.mboxFirst, h.mboxLast, h.ready, h.results⟩
    · have hfun : (fun i => ((((s.setTask b taskId).setStatus b .unlinked).setNext b none).hdr
          i).pNext) = Function.update (fun i => (s.hdr i).pNext) b none := by
        funext i
        simp [Function.update_apply]
      rw [hfun]
      exact h.linked.chains.outside hout none
    · intro i
      rw [setNext_status, setStatus_status, setTask_status]
      by_cases hi : i = b
      · subst hi
        simp only [if_true, reduceCtorEq, false_iff, not_exists]
        exact hout
      · rw [if_neg hi]
        exact h.linked.queued i
    · intro i
      rw [setNext_status, setStatus_status, setTask_status]
      by_cases hi : i = b
      · simp [hi, Deques.setFree]
      · simpa [hi, Deques.setFree] using h.linked.freed i
    · intro i hs
      rw [setNext_status, setStatus_status, setTask_status] at hs
      rw [setNext_pNext, setStatus_pNext, setTask_pNext]
      by_cases hi : i = b
      · rw [if_pos hi]
      · rw [if_neg hi] at hs ⊢
        exact h.linked.loose i hs
  · rw [if_neg hb]
    have hfree : a.free b = false := by
      rw [← Bool.not_eq_true]
      exact fun hf => hb ((h.linked.freed b).mpr hf)
    have hsame : a.setFree b false = a := by
      unfold Deques.setFree
      rw [← hfree, Function.update_eq_self]
    rw [hsame]
    exact h

section Mailbox
variable [DecidableEq κ]

theorem holds_postMsg (h : s.Holds a) (m : Mbox tasks) (taskId : UInt8) {b : Fin n}
    (hb : (s.hdr b).status = .unlinked) :
    ∃ t, postMsg s m taskId b = some t ∧ t.Holds (a.push (.inr m) b) := by
  unfold postMsg Deques.push
  rw [if_pos ((h.loose_iff b).mp hb)]
  have hothers : ∀ m', m' ≠ m → Function.update s.osTaskQLast m (some b) m' = s.osTaskQLast m' :=
    fun m' hne => Function.update_of_ne hne _ _
  rcases List.eq_nil_or_concat (a.lists (.inr m)) with hnil | ⟨xs, l, hconcat⟩
  · have hfirst : s.osTaskQFirst m = none := by rw [h.mboxFirst, hnil]; rfl
    rw [hfirst]
    refine ⟨_, rfl, h.editM (linked_push h.linked (.inr m) hb ?_ ?_) rfl ?_ ?_ hothers rfl rfl⟩
    · intro i
      simp [hnil]
    · intro i
      simp
    · rw [hnil]
      rfl
    · intro _
      rw [hnil]
      exact Function.update_self ..
  · have hne : a.lists (.inr m) ≠ [] := by
      rw [hconcat, List.concat_eq_append]
      simp
    have hgetLast : (a.lists (.inr m)).getLast? = some l := by
      rw [hconcat, List.concat_eq_append, List.getLast?_append]
      rfl
    have hlast : s.osTaskQLast m = some l := (h.mboxLast m hne).trans hgetLast
    obtain ⟨f, hf⟩ : ∃ f, (a.lists (.inr m)).head? = some f := by
      rw [← Option.isSome_iff_exists, List.isSome_head?]
      exact hne
    rw [(h.mboxFirst m).trans hf, hlast]
    refine ⟨_, rfl, h.editM (linked_push h.linked (.inr m) hb ?_ ?_) rfl ?_ ?_ hothers rfl rfl⟩
    · intro i
      rw [hgetLast]
      simp [eq_comm]
    · intro i
      simp
    · rw [List.head?_append, hf]
      show s.osTaskQFirst = _
      rw [Option.some_or, ← hf, ← h.mboxFirst m, Function.update_eq_self]
    · intro _
      rw [List.getLast?_append]
      exact Function.update_self ..

theorem holds_takeMsg (h : s.Holds a) {m : Mbox tasks} {b : Fin n} {rest : List (Fin n)}
    (hl : a.lists (.inr m) = b :: rest) : (takeMsg s m b).Holds (a.setList (.inr m) rest) := by
  have hnext : (s.hdr b).pNext = rest.head? := by
    have hlink := h.linked.chains.linked (.inr m)
    rw [hl] at hlink
    exact hlink.next_head
  unfold takeMsg
  rw [hnext]
  refine h.editM (linked_pop h.linked hl ?_ ?_) rfl rfl ?_ (fun _ _ => rfl) rfl rfl
  · intro i
    simp
  · intro i
    simp
  · intro hne
    -- the last one stays the last one
    obtain ⟨c, zs, rfl⟩ := List.exists_cons_of_ne_nil hne
    have hlast := h.mboxLast m (by rw [hl]; exact List.cons_ne_nil b _)
    rw [hl, List.getLast?_cons_cons] at hlast
    exact hlast

theorem holds_readMbox (h : s.Holds a) (taskId mbox : UInt8) {m : Mbox tasks}
    (hm : mboxOf tasks taskId mbox = some m) :
    (gkiReadMbox s taskId mbox).Holds (a.popFront (.inr m)) := by
  unfold gkiReadMbox Deques.popFront
  rw [hm]
  dsimp only
  cases hl : a.lists (.inr m) with
  | nil =>
    have hfirst : s.osTaskQFirst m = none := by rw [h.mboxFirst, hl]; rfl
    have hsame : a.setList (.inr m) [] = a := by
      unfold Deques.setList
      rw [← hl, Function.update_eq_self]
    rw [hfirst, List.tail_nil, hsame]
    exact h.answer none
  | cons b rest =>
    have hfirst : s.osTaskQFirst m = some b := by rw [h.mboxFirst, hl]; rfl
    rw [hfirst]
    exact (holds_takeMsg h hl).answer (some b)

theorem holds_sendMsg (h : s.Holds a) (taskId mbox : UInt8) (b : Fin n) :
    ∃ t, gkiSendMsg s taskId mbox b = some t ∧ t.Holds (a.step (.sendMsg taskId mbox b)) := by
  unfold gkiSendMsg Deques.step
  dsimp only
  cases mboxOf tasks taskId mbox with
  | none => exact ⟨_, rfl, holds_freebuf h b⟩
  | some m =>
    dsimp only
    rw [← h.ready]
    by_cases hr : s.osRdyTbl m.1 = true
    · rw [if_neg (not_not.mpr hr), if_pos hr]
      by_cases hb : (s.hdr b).status = .unlinked
      · rw [if_neg (not_not.mpr hb)]
        exact holds_postMsg h m taskId hb
      · have hnot : ¬ a.Loose b := fun hl => hb ((h.loose_iff b).mpr hl)
        rw [if_pos hb, Deques.push, if_neg hnot]
        exact ⟨s, rfl, h⟩
    · rw [if_pos hr, if_neg hr]
      exact ⟨_, rfl, holds_freebuf h b⟩

end Mailbox

end Calls

/-! ## Runs -/

/-- Nothing is removed from an empty queue, no queue takes a 65536th buffer, and
`GKI_getnext` is asked about an allocated buffer. -/
def Usable {n tasks : Nat} {κ : Type} (s : Queues n κ tasks) : QueueEvent n κ tasks → Prop
  | .enqueue q b => (s.hdr b).status = .unlinked → (s.q q).count ≠ 65535
  | .enqueueHead q b => (s.hdr b).status = .unlinked → (s.q q).count ≠ 65535
  | .removeFromQueue q _ => (s.q q).pFirst ≠ none
  | .getnext b => (s.hdr b).status ≠ .free
  | _ => True

instance {n tasks : Nat} {κ : Type} (s : Queues n κ tasks) (e : QueueEvent n κ tasks) :
    Decidable (Usable s e) := by
  unfold Usable
  split <;> infer_instance

section Runs
variable {n tasks : Nat} {κ : Type} [DecidableEq κ]

theorem holds_step (s : Queues n κ tasks) (a : Deques n κ tasks) (e : QueueEvent n κ tasks)
    (h : s.Holds a) (hok : Usable s e) : ∃ t, s.step e = some t ∧ t.Holds (a.step e) := by
  cases e with
  | enqueue q b => exact holds_enqueue h q b hok
  | enqueueHead q b => exact ⟨_, rfl, holds_enqueueHead h q b hok⟩
  | dequeue q =>
    cases q with
    | none => exact ⟨_, rfl, h.answer none⟩
    | some q => exact holds_dequeue h q
  | removeFromQueue q b => exact holds_remove h q b hok
  | getfirst q =>
    refine ⟨_, rfl, ?_⟩
    unfold gkiGetfirst
    rw [h.first q]
    exact h.answer _
  | getlast q =>
    refine ⟨_, rfl, ?_⟩
    unfold gkiGetlast
    rw [h.last q]
    exact h.answer _
  | getnext b =>
    refine ⟨_, rfl, ?_⟩
    unfold gkiGetnext
    rw [next_eq_after h hok]
    exact h.answer _
  | sendMsg taskId mbox b => exact holds_sendMsg h taskId mbox b
  | readMbox taskId mbox =>
    refine ⟨_, rfl, ?_⟩
    unfold Deques.step
    dsimp only
    cases hm : mboxOf tasks taskId mbox with
    | none =>
      unfold gkiReadMbox
      rw [hm]
      exact h.answer none
    | some m => exact holds_readMbox h taskId mbox hm
  | getbuf b taskId => exact ⟨_, rfl, holds_getbuf h b taskId⟩
  | freebuf b => exact ⟨_, rfl, holds_freebuf h b⟩
  | setTaskState task ready =>
    refine ⟨_, rfl, ⟨h.linked, h.first, h.last, h.count, h.mboxFirst, h.mboxLast, ?_, h.results⟩⟩
    show Function.update s.osRdyTbl task ready = Function.update a.ready task ready
    rw [h.ready]

/-- After `GKI_init` and `GKI_init_q`: empty queues and mailboxes. `free` are the
buffers the allocator has, with the links `link`. -/
def Queues.init (free : Fin n → Bool) (link : Fin n → Option (Fin n)) (ready : Fin tasks → Bool) :
    Queues n κ tasks where
  hdr i := if free i then ⟨link i, .free, 0xF0⟩ else {}
  q _ := {}
  osTaskQFirst _ := none
  osTaskQLast _ := none
  osRdyTbl := ready
  results := []

def Deques.init (free : Fin n → Bool) (ready : Fin tasks → Bool) : Deques n κ tasks where
  lists _ := []
  free := free
  ready := ready
  results := []

omit [DecidableEq κ] in
theorem holds_init (free : Fin n → Bool) (link : Fin n → Option (Fin n)) (ready : Fin tasks → Bool) :
    (Queues.init free link ready : Queues n κ tasks).Holds (Deques.init free ready) := by
  refine ⟨⟨⟨fun _ => trivial, fun _ => List.nodup_nil, ?_⟩, ?_, ?_, ?_⟩, fun _ => rfl, fun _ => rfl,
    fun _ => rfl, fun _ => rfl, fun _ hne => absurd rfl hne, rfl, rfl⟩
  · intro k k' i hi
    exact absurd hi List.not_mem_nil
  · intro i
    cases hf : free i <;> simp [Queues.init, Deques.init, hf]
  · intro i
    cases hf : free i <;> simp [Queues.init, Deques.init, hf]
  · intro i hs
    cases hf : free i with
    | false => simp [Queues.init, hf]
    | true => simp [Queues.init, hf] at hs

end Runs

/-- Every run in which nothing is removed from an empty queue and no queue is asked
to take a 65536th buffer returns, and the queues and mailboxes hold the lists that
the same calls make of plain lists, with the same answers. -/
theorem bufferQ_refines_deque (n tasks : Nat) (κ : Type) [DecidableEq κ] (free : Fin n → Bool)
    (link : Fin n → Option (Fin n)) (ready : Fin tasks → Bool) (es : List (QueueEvent n κ tasks))
    (hok : StepsOk Queues.step Usable (Queues.init free link ready) es) :
    ∃ t : Queues n κ tasks, run Queues.step (Queues.init free link ready) es = some t ∧
      t.Holds (es.foldl Deques.step (Deques.init free ready)) :=
  run_simulates holds_step es _ _ (holds_init free link ready) hok

/-- Three buffers are queued and the last one is removed: the queue ends in the second
one, and a fourth is linked behind it. -/
theorem bufferQ_refines_deque_remove_last :
    ∃ t : Queues 4 (Fin 1) 1, run Queues.step (Queues.init (fun _ => false) (fun _ => none) fun _ =>
        true) [.enqueue 0 0, .enqueue 0 1, .enqueue 0 2, .removeFromQueue 0 2, .enqueue 0 3] =
          some t ∧ (t.q 0).count = 3 ∧ (t.q 0).pLast = some 3 ∧ (t.hdr 1).pNext = some 3 ∧
        t.Holds ([.enqueue 0 0, .enqueue 0 1, .enqueue 0 2, .removeFromQueue 0 2,
          .enqueue 0 3].foldl Deques.step (Deques.init (fun _ => false) fun _ => true)) := by
  obtain ⟨t, ht, hholds⟩ := bufferQ_refines_deque 4 1 (Fin 1) (fun _ => false) (fun _ => none)
    (fun _ => true)
    [.enqueue 0 0, .enqueue 0 1, .enqueue 0 2, .removeFromQueue 0 2, .enqueue 0 3] (by decide)
  refine ⟨t, ht, ?_, ?_, ?_, hholds⟩
  all_goals
    obtain rfl := Option.some.inj ht
    decide

/-- A queue of 65535 buffers takes one more: its count is 0, and `GKI_dequeue` takes
it for empty. -/
theorem enqueue_wraps {n tasks : Nat} {κ : Type} [DecidableEq κ] {s : Queues n κ tasks}
    {a : Deques n κ tasks} (h : s.Holds a) {q : κ} {b : Fin n} (hb : (s.hdr b).status = .unlinked)
    (hc : (s.q q).count = 65535) :
    ∃ t, gkiEnqueue s q b = some t ∧ gkiDequeue t (some q) = some (t.answer none) := by
  have hlen : (a.lists (.inl q)).length = 65535 := by
    rw [← h.count q, hc]
    rfl
  have hne : a.lists (.inl q) ≠ [] := by
    intro hnil
    rw [hnil] at hlen
    cases hlen
  obtain ⟨f, hf⟩ : ∃ f, (s.q q).pFirst = some f := by
    rw [h.first, ← Option.isSome_iff_exists, List.isSome_head?]
    exact hne
  obtain ⟨l, hl⟩ : ∃ l, (s.q q).pLast = some l := by
    rw [h.last, ← Option.isSome_iff_exists, List.getLast?_isSome]
    exact hne
  unfold gkiEnqueue
  rw [if_neg (not_not.mpr hb), hf, hl]
  refine ⟨_, rfl, ?_⟩
  unfold gkiDequeue
  dsimp only
  rw [if_pos]
  simp [hc]

/-- A buffer is removed from an empty queue: the loop reads through a null pointer. -/
theorem remove_from_empty_faults :
    run Queues.step (Queues.init (fun _ => false) (fun _ => none) fun _ => true : Queues 1 (Fin 1) 1)
      [.removeFromQueue 0 0] = none := by
  rfl

end NfcStack.Gki
