import NfcStack.Lib.Run
import NfcStack.Lib.Chains
import NfcStack.Lib.Slots
import NfcStack.Gki.BufferQueue

/- The buffer pools of the GKI in the configuration without dynamic allocation
   (`gki_buffer.cc`: `gki_init_free_queue`, `gki_alloc_free_queue`,
   `gki_buffer_init`, `GKI_getbuf`, `GKI_getpoolbuf`, `GKI_freebuf`,
   `gki_add_to_pool_list`, `gki_remove_from_pool_list`, `GKI_create_pool`,
   `GKI_delete_pool`). Each pool has its free buffers in a linked list; `pool_list`
   names the pools in the order of their buffer sizes, and `GKI_getbuf` relies on
   that order.

   What is proved:
     1. `poolInv_init`: what `gki_buffer_init` leaves with the sizes of the
        repository. Its pool 1 has no buffers and a size out of order.
     2. `poolInv_take`, `poolInv_free`, `poolInv_create`, `poolInv_delete`: each
        call keeps the free lists, the counts and the order.
     3. `pools_conserve`: over every run, for each pool that has buffers, the free
        list and `cur_cnt` make up `total`, no buffer is free twice, or free and
        handed out, and a request for some bytes is met whenever a public pool
        can, with a buffer that is large enough.
     4. `pools_not_conserved`: a pool of no buffers has a free list of one, a
        request for no bytes is refused, the buffers of a pool of the largest size
        lie in one place, and a fixed pool cannot be deleted.

   An address is a block of memory and an offset into it; a new block is apart from
   all others. `allocated` are the buffers that were handed out and not yet freed,
   `result` what the last call returned; `none` as the result of a step is memory
   returned to the system that did not come from it. Sizes are those of a 64 bit
   build. -/
namespace NfcStack.Gki.Fixed
open NfcStack.Lib

/-! ## The code -/

abbrev gkiNumTotalBufPools : Nat := 10
abbrev bufferPaddingSize : Nat := 20
abbrev maxUserBufSize : Nat := 0xffff - bufferPaddingSize

def alignPool (size : Nat) : Nat := (size + 3) / 4 * 4

abbrev PoolIx := Fin gkiNumTotalBufPools

abbrev Addr := Nat × Nat

structure PoolHdr where
  pNext : Option Addr := none
  qId : PoolIx := 0
  status : BufStatus := .free
  deriving DecidableEq, Repr

structure FreeQueue where
  pFirst : Option Addr := none
  pLast : Option Addr := none
  size : Nat := 0
  total : Nat := 0
  curCnt : Nat := 0
  maxCnt : Nat := 0
  deriving DecidableEq, Repr

/-- `poolAccessMask` marks the restricted pools, `heap` the blocks that came from the
system. -/
structure Pools where
  hdr : Addr → PoolHdr
  freeq : PoolIx → FreeQueue
  poolStart : PoolIx → Option Nat
  poolList : List PoolIx
  poolAccessMask : PoolIx → Bool
  heap : Nat → Bool
  nextBlock : Nat
  allocated : List Addr
  result : Option Addr

def Pools.setHdr (s : Pools) (a : Addr) (v : PoolHdr) : Pools :=
  { s with hdr := Function.update s.hdr a v }

def Pools.setQ (s : Pools) (k : PoolIx) (v : FreeQueue) : Pools :=
  { s with freeq := Function.update s.freeq k v }

def Pools.returns (s : Pools) (p : Option Addr) : Pools := { s with result := p }

/-- The distance of two buffers, in 16 bits. -/
def actSize (size : Nat) : Nat := (alignPool size + bufferPaddingSize) % 2 ^ 16

/-- The headers of a new pool, each linked to the next one. -/
def initHdrs (hdr : Addr → PoolHdr) (id : PoolIx) (block act : Nat) : Nat → Addr → PoolHdr
  | 0 => hdr
  | n + 1 =>
    Function.update (initHdrs hdr id block act n) (block, n * act)
      { pNext := some (block, (n + 1) * act), qId := id, status := .free }

/-- `gki_init_free_queue`, with memory. The last header, or without one the start of
the memory, is linked to nothing. -/
def gkiInitFreeQueue (s : Pools) (id : PoolIx) (size total block : Nat) : Pools :=
  let act := actSize size
  let hdr := initHdrs s.hdr id block act total
  let last : Addr := (block, (total - 1) * act)
  { s with
    hdr := Function.update hdr last { hdr last with pNext := none }
    poolStart := Function.update s.poolStart id (some block)
    freeq := Function.update s.freeq id
      { pFirst := some (block, 0), pLast := some last, size := alignPool size % 2 ^ 16,
        total := total, curCnt := 0, maxCnt := 0 } }

/-- A block from the system. -/
def Pools.malloc (s : Pools) : Pools :=
  { s with heap := Function.update s.heap s.nextBlock true, nextBlock := s.nextBlock + 1 }

/-- `gki_alloc_free_queue`; `mem` is whether the system has memory. The queue it looks
at is that of the `id`-th entry of the list, and the queue it sets up is `id`. -/
def gkiAllocFreeQueue (s : Pools) (id : Nat) (mem : Bool) : Option (Pools × Bool) :=
  s.poolList[id]?.bind fun k =>
    if (s.freeq k).pFirst = none ∧ mem then
      if h : id < gkiNumTotalBufPools then
        some (gkiInitFreeQueue s.malloc ⟨id, h⟩ (s.freeq k).size (s.freeq k).total s.nextBlock, true)
      else none
    else some (s, false)

/-- The first free buffer is handed out. -/
def takeFirst (s : Pools) (k : PoolIx) (a : Addr) : Pools :=
  let q := s.freeq k
  let next := (s.hdr a).pNext
  let s := s.setQ k { q with
    pFirst := next
    pLast := if next = none then none else q.pLast
    curCnt := q.curCnt + 1
    maxCnt := max q.maxCnt (q.curCnt + 1) }
  let s := s.setHdr a { s.hdr a with status := .unlinked, pNext := none }
  { s with allocated := a :: s.allocated, result := some a }

/-- A buffer of the pool `k`, which has one left by its count. -/
def takeBuf (s : Pools) (k : PoolIx) (id : Nat) (mem : Bool) : Option Pools :=
  match (s.freeq k).pFirst with
  | some a => some (takeFirst s k a)
  | none =>
    (gkiAllocFreeQueue s id mem).map fun r =>
      match r.2, (r.1.freeq k).pFirst with
      | true, some a => takeFirst r.1 k a
      | _, _ => r.1.returns none

/-- The search of `GKI_getbuf` through the public pools, from place `i` on. -/
def getbufLoop (s : Pools) (mem : Bool) : Nat → List PoolIx → Option Pools
  | _, [] => some (s.returns none)
  | i, k :: ks =>
    if ¬ s.poolAccessMask k ∧ (s.freeq k).curCnt < (s.freeq k).total then takeBuf s k i mem
    else getbufLoop s mem (i + 1) ks

def gkiGetbuf (s : Pools) (size : Nat) (mem : Bool) : Option Pools :=
  if size = 0 then some (s.returns none)
  else
    let i := s.poolList.findIdx fun k => size ≤ (s.freeq k).size
    getbufLoop s mem i (s.poolList.drop i)

def gkiGetpoolbuf (s : Pools) (poolId : UInt8) (mem : Bool) : Option Pools :=
  if h : poolId.toNat < gkiNumTotalBufPools then
    let k : PoolIx := ⟨poolId.toNat, h⟩
    if (s.freeq k).curCnt < (s.freeq k).total then takeBuf s k poolId.toNat mem
    else gkiGetbuf s (s.freeq k).size mem
  else some (s.returns none)

def gkiFreebuf (s : Pools) (a : Addr) : Pools :=
  if (s.hdr a).status ≠ .unlinked then s
  else
    let k := (s.hdr a).qId
    let s : Pools :=
      match (s.freeq k).pLast with
      | some l => s.setHdr l { s.hdr l with pNext := some a }
      | none => s.setQ k { s.freeq k with pFirst := some a }
    let s := s.setQ k { s.freeq k with pLast := some a, curCnt := (s.freeq k).curCnt - 1 }
    let s := s.setHdr a { s.hdr a with pNext := none, status := .free }
    { s with allocated := s.allocated.erase a }

/-- `gki_add_to_pool_list`. -/
def gkiAddToPoolList (s : Pools) (id : PoolIx) : Pools :=
  let i := s.poolList.findIdx fun k => (s.freeq id).size ≤ (s.freeq k).size
  { s with poolList := s.poolList.take i ++ id :: s.poolList.drop i }

/-- `gki_remove_from_pool_list`, and the count. -/
def gkiRemoveFromPoolList (s : Pools) (id : PoolIx) : Pools :=
  { s with poolList := if id ∈ s.poolList then s.poolList.erase id else s.poolList.dropLast }

inductive PoolMem where
  | given
  | malloc (ok : Bool)
  deriving DecidableEq, Repr

def gkiCreatePool (s : Pools) (size count : UInt16) (isRestricted : Bool) (mem : PoolMem) : Pools :=
  if size.toNat > maxUserBufSize then s
  else
    match firstSlot fun k => (s.poolStart k).isNone with
    | none => s
    | some id =>
      if mem = .malloc false then s
      else
        let block := s.nextBlock
        let s := if mem = .given then { s with nextBlock := s.nextBlock + 1 } else s.malloc
        let s := gkiAddToPoolList (gkiInitFreeQueue s id size.toNat count.toNat block) id
        { s with poolAccessMask := Function.update s.poolAccessMask id isRestricted }

/-- The rest of `GKI_delete_pool`, for a pool with nothing handed out. -/
def dropPool (s : Pools) (k : PoolIx) : Pools :=
  gkiRemoveFromPoolList
    { s.setQ k {} with poolStart := Function.update s.poolStart k none } k

def gkiDeletePool (s : Pools) (poolId : UInt8) : Option Pools :=
  if h : poolId.toNat < gkiNumTotalBufPools then
    let k : PoolIx := ⟨poolId.toNat, h⟩
    match s.poolStart k with
    | none => some s
    | some block =>
      if (s.freeq k).curCnt ≠ 0 then some s
      else if s.heap block then some (dropPool s k)
      else none
  else some s

def Pools.blank : Pools where
  hdr _ := {}
  freeq _ := {}
  poolStart _ := none
  poolList := []
  poolAccessMask k := decide (4 ≤ k.val)
  heap _ := false
  nextBlock := 4
  allocated := []
  result := none

/-- `gki_buffer_init`, with the four fixed pools of `buildcfg.h` and `gki_target.h`. -/
def gkiBufferInit : Pools :=
  let s := gkiInitFreeQueue Pools.blank 0 268 40 0
  let s := gkiInitFreeQueue s 1 128 0 1
  let s := gkiInitFreeQueue s 2 660 50 2
  let s := gkiInitFreeQueue s 3 0xFFB0 30 3
  { s with poolList := [0, 1, 2, 3] }

inductive PoolEvent where
  | getbuf (size : UInt16) (mem : Bool)
  | getpoolbuf (poolId : UInt8) (mem : Bool)
  | freebuf (a : Addr)
  | createPool (size count : UInt16) (isRestricted : Bool) (mem : PoolMem)
  | deletePool (poolId : UInt8)
  deriving DecidableEq, Repr

def Pools.step (s : Pools) : PoolEvent → Option Pools
  | .getbuf size mem => gkiGetbuf s size.toNat mem
  | .getpoolbuf poolId mem => gkiGetpoolbuf s poolId mem
  | .freebuf a => some (gkiFreebuf s a)
  | .createPool size count isRestricted mem => some (gkiCreatePool s size count isRestricted mem)
  | .deletePool poolId => gkiDeletePool s poolId

/-! ## The free lists -/

/-- The free lists, and what the counts and headers say about them. A pool without
buffers has no list, whatever its pointers are. -/
structure FreeLists (s : Pools) (lists : PoolIx → List Addr) : Prop where
  chains : Chains (fun a => (s.hdr a).pNext) lists
  first : ∀ k, (s.freeq k).total ≠ 0 → (s.freeq k).pFirst = (lists k).head?
  last : ∀ k, (s.freeq k).total ≠ 0 → (s.freeq k).pLast = (lists k).getLast?
  count : ∀ k, (lists k).length + (s.freeq k).curCnt = (s.freeq k).total
  free : ∀ k, ∀ a ∈ lists k, (s.hdr a).status = .free ∧ (s.hdr a).qId = k
  alloc : ∀ a ∈ s.allocated, (s.hdr a).status = .unlinked
  allocCount : ∀ k, (s.allocated.filter fun a => (s.hdr a).qId = k).length = (s.freeq k).curCnt
  allocNodup : s.allocated.Nodup
  listBlocks : ∀ k, ∀ a ∈ lists k, a.1 < s.nextBlock
  allocBlocks : ∀ a ∈ s.allocated, a.1 < s.nextBlock

/-- `pool_list` names the pools in use, a pool that has buffers behind none of a
larger size. -/
structure Ordered (s : Pools) : Prop where
  unused : ∀ k, s.poolStart k = none → (s.freeq k).total = 0
  listed : ∀ k, k ∈ s.poolList ↔ (s.poolStart k).isSome = true
  nodup : s.poolList.Nodup
  sorted : s.poolList.Pairwise fun i j =>
    (s.freeq j).total ≠ 0 → (s.freeq i).size ≤ (s.freeq j).size

section Lists
variable {s : Pools} {lists : PoolIx → List Addr}

theorem FreeLists.not_both (h : FreeLists s lists) {k : PoolIx} {a : Addr} (ha : a ∈ lists k) :
    a ∉ s.allocated := by
  intro hin
  have hfree := (h.free k a ha).1
  rw [h.alloc a hin] at hfree
  cases hfree

theorem FreeLists.congr (h : FreeLists s lists) {t : Pools} (hhdr : t.hdr = s.hdr)
    (hfreeq : t.freeq = s.freeq) (halloc : t.allocated = s.allocated)
    (hnext : s.nextBlock ≤ t.nextBlock) : FreeLists t lists := by
  refine ⟨?_, ?_, ?_, ?_, ?_, ?_, ?_, ?_, ?_, ?_⟩
  · rw [hhdr]
    exact h.chains
  · rw [hfreeq]
    exact h.first
  · rw [hfreeq]
    exact h.last
  · rw [hfreeq]
    exact h.count
  · rw [hhdr]
    exact h.free
  · rw [hhdr, halloc]
    exact h.alloc
  · rw [hhdr, halloc, hfreeq]
    exact h.allocCount
  · rw [halloc]
    exact h.allocNodup
  · exact fun k a ha => lt_of_lt_of_le (h.listBlocks k a ha) hnext
  · rw [halloc]
    exact fun a ha => lt_of_lt_of_le (h.allocBlocks a ha) hnext

theorem FreeLists.first_some (h : FreeLists s lists) {k : PoolIx}
    (hleft : (s.freeq k).curCnt < (s.freeq k).total) :
    ∃ a rest, lists k = a :: rest ∧ (s.freeq k).pFirst = some a := by
  have hcount := h.count k
  cases hl : lists k with
  | nil =>
    rw [hl, List.length_nil] at hcount
    omega
  | cons a rest =>
    refine ⟨a, rest, rfl, ?_⟩
    rw [h.first k (by omega), hl]
    rfl

theorem freeLists_take (h : FreeLists s lists) {k : PoolIx} {a : Addr} {rest : List Addr}
    (hl : lists k = a :: rest) : FreeLists (takeFirst s k a) (Function.update lists k rest) := by
  have ha : a ∈ lists k := by simp [hl]
  have hcount := h.count k
  rw [hl, List.length_cons] at hcount
  have htotal : (s.freeq k).total ≠ 0 := by omega
  have hnd := h.chains.nodup k
  rw [hl, List.nodup_cons] at hnd
  have hnext : (s.hdr a).pNext = rest.head? := by
    have hlink := h.chains.linked k
    rw [hl] at hlink
    exact hlink.next_head
  have hnot := h.not_both ha
  -- the fields of the new state
  have hhdr : (takeFirst s k a).hdr =
      Function.update s.hdr a { s.hdr a with status := .unlinked, pNext := none } := rfl
  have hqsame : (takeFirst s k a).freeq k = { s.freeq k with
      pFirst := (s.hdr a).pNext
      pLast := if (s.hdr a).pNext = none then none else (s.freeq k).pLast
      curCnt := (s.freeq k).curCnt + 1
      maxCnt := max (s.freeq k).maxCnt ((s.freeq k).curCnt + 1) } := Function.update_self ..
  have hqother : ∀ j, j ≠ k → (takeFirst s k a).freeq j = s.freeq j :=
    fun j hj => Function.update_of_ne hj _ _
  have hqid : ∀ b, ((takeFirst s k a).hdr b).qId = (s.hdr b).qId := by
    intro b
    rw [hhdr]
    by_cases hb : b = a
    · rw [hb, Function.update_self]
    · rw [Function.update_of_ne hb]
  refine ⟨?_, ?_, ?_, ?_, ?_, ?_, ?_, ?_, ?_, ?_⟩
  · have hfun : (fun b => ((takeFirst s k a).hdr b).pNext) =
        Function.update (fun b => (s.hdr b).pNext) a none := by
      funext b
      rw [hhdr]
      by_cases hb : b = a
      · rw [hb, Function.update_self, Function.update_self]
      · rw [Function.update_of_ne hb, Function.update_of_ne hb]
    rw [hfun]
    exact h.chains.pop hl
  · intro j hj
    by_cases hjk : j = k
    · subst hjk
      rw [hqsame, Function.update_self]
      exact hnext
    · rw [hqother j hjk] at hj ⊢
      rw [Function.update_of_ne hjk]
      exact h.first j hj
  · intro j hj
    by_cases hjk : j = k
    · subst hjk
      rw [hqsame, Function.update_self, hnext]
      dsimp only
      cases rest with
      | nil => rfl
      | cons b rest =>
        rw [if_neg (by simp), h.last j htotal, hl, List.getLast?_cons_cons]
    · rw [hqother j hjk] at hj ⊢
      rw [Function.update_of_ne hjk]
      exact h.last j hj
  · intro j
    by_cases hjk : j = k
    · subst hjk
      rw [hqsame, Function.update_self]
      dsimp only
      omega
    · rw [hqother j hjk, Function.update_of_ne hjk]
      exact h.count j
  · intro j b hb
    have hold : b ∈ lists j ∧ b ≠ a := by
      by_cases hjk : j = k
      · subst hjk
        rw [Function.update_self] at hb
        refine ⟨by rw [hl]; exact List.mem_cons_of_mem a hb, ?_⟩
        rintro rfl
        exact hnd.1 hb
      · rw [Function.update_of_ne hjk] at hb
        refine ⟨hb, ?_⟩
        rintro rfl
        exact hjk (h.chains.apart j k b hb ha)
    rw [hqid b, hhdr, Function.update_of_ne hold.2]
    exact h.free j b hold.1
  · intro b hb
    rw [hhdr]
    rcases List.mem_cons.mp hb with rfl | hb
    · rw [Function.update_self]
    · have hne : b ≠ a := by
        rintro rfl
        exact hnot hb
      rw [Function.update_of_ne hne]
      exact h.alloc b hb
  · intro j
    show ((a :: s.allocated).filter fun b => ((takeFirst s k a).hdr b).qId = j).length = _
    have hfun : (fun b => decide (((takeFirst s k a).hdr b).qId = j)) =
        fun b => decide ((s.hdr b).qId = j) := by
      funext b
      rw [hqid b]
    rw [hfun, List.filter_cons]
    have hak := (h.free k a ha).2
    by_cases hjk : j = k
    · subst hjk
      rw [if_pos (by simpa using hak), List.length_cons, h.allocCount j, hqsame]
    · rw [if_neg (by rw [hak]; simpa using Ne.symm hjk), h.allocCount j, hqother j hjk]
  · exact List.nodup_cons.mpr ⟨hnot, h.allocNodup⟩
  · intro j b hb
    by_cases hjk : j = k
    · subst hjk
      rw [Function.update_self] at hb
      exact h.listBlocks j b (by rw [hl]; exact List.mem_cons_of_mem a hb)
    · rw [Function.update_of_ne hjk] at hb
      exact h.listBlocks j b hb
  · intro b hb
    rcases List.mem_cons.mp hb with rfl | hb
    · exact h.listBlocks k b ha
    · exact h.allocBlocks b hb

structure Freed (s t : Pools) (lists : PoolIx → List Addr) (k : PoolIx) (a : Addr) : Prop where
  hdr : ∀ b, t.hdr b = if b = a then { s.hdr a with pNext := none, status := .free }
    else if (lists k).getLast? = some b then { s.hdr b with pNext := some a } else s.hdr b
  queue : t.freeq k = { s.freeq k with
    pFirst := (lists k ++ [a]).head?, pLast := some a, curCnt := (s.freeq k).curCnt - 1 }
  others : ∀ j, j ≠ k → t.freeq j = s.freeq j
  allocated : t.allocated = s.allocated.erase a
  nextBlock : t.nextBlock = s.nextBlock

section Free
variable {t : Pools} {k : PoolIx} {a : Addr}

theorem FreeLists.cur_pos (h : FreeLists s lists) (ha : a ∈ s.allocated) (hk : (s.hdr a).qId = k) :
    0 < (s.freeq k).curCnt := by
  rw [← h.allocCount k]
  apply List.length_pos_of_mem
  exact List.mem_filter.mpr ⟨ha, by simpa using hk⟩

theorem gkiFreebuf_freed (h : FreeLists s lists) (ha : a ∈ s.allocated) (hk : (s.hdr a).qId = k) :
    Freed s (gkiFreebuf s a) lists k a := by
  have hstatus := h.alloc a ha
  have hcur := h.cur_pos ha hk
  have hcount := h.count k
  have htotal : (s.freeq k).total ≠ 0 := by omega
  have hfirst := h.first k htotal
  unfold gkiFreebuf
  rw [if_neg (not_not.mpr hstatus), hk]
  dsimp only
  rw [h.last k htotal]
  rcases List.eq_nil_or_concat (lists k) with hnil | ⟨xs, l, hconcat⟩
  · -- the buffer is the first of the list and its last
    rw [hnil]
    refine ⟨?_, ?_, ?_, rfl, rfl⟩
    · intro b
      by_cases hb : b = a
      · subst hb
        simp [Pools.setHdr, Pools.setQ]
      · simp [hnil, Pools.setHdr, Pools.setQ, hb]
    · simp [hnil, Pools.setHdr, Pools.setQ]
    · intro j hj
      simp [Pools.setHdr, Pools.setQ, hj]
  · -- it is linked behind the last one
    have hl : l ∈ lists k := by simp [hconcat]
    have hla : l ≠ a := by
      rintro rfl
      exact h.not_both hl ha
    have hget : (lists k).getLast? = some l := by
      rw [hconcat, List.concat_eq_append, List.getLast?_append]
      rfl
    rw [hget]
    refine ⟨?_, ?_, ?_, rfl, rfl⟩
    · intro b
      rw [hget]
      by_cases hb : b = a
      · subst hb
        simp [Pools.setHdr, Pools.setQ, hla.symm]
      · by_cases hbl : b = l
        · subst hbl
          simp [Pools.setHdr, Pools.setQ, hb]
        · simp [Pools.setHdr, Pools.setQ, hb, hbl, Ne.symm hbl]
    · have hhead : (lists k ++ [a]).head? = (s.freeq k).pFirst := by
        rw [hfirst, hconcat, List.concat_eq_append]
        cases xs <;> rfl
      rw [hhead]
      simp [Pools.setHdr, Pools.setQ]
    · intro j hj
      simp [Pools.setHdr, Pools.setQ, hj]

theorem Freed.qId (h : Freed s t lists k a) (b : Addr) : (t.hdr b).qId = (s.hdr b).qId := by
  rw [h.hdr]
  by_cases hb : b = a
  · rw [if_pos hb, hb]
  · rw [if_neg hb]
    split <;> rfl

theorem Freed.status (h : Freed s t lists k a) {b : Addr} (hb : b ≠ a) :
    (t.hdr b).status = (s.hdr b).status := by
  rw [h.hdr, if_neg hb]
  split <;> rfl

theorem Freed.pNext (h : Freed s t lists k a) :
    (fun b => (t.hdr b).pNext) =
      Function.update (relink (fun b => (s.hdr b).pNext) (lists k).getLast? (some a)) a none := by
  funext b
  rw [h.hdr]
  by_cases hb : b = a
  · rw [if_pos hb, hb, Function.update_self]
  · rw [if_neg hb, Function.update_of_ne hb]
    cases (lists k).getLast? with
    | none => simp [relink]
    | some l =>
      by_cases hbl : b = l
      · simp [relink, hbl]
      · simp [relink, hbl, Ne.symm hbl]

theorem mem_freedLists {j : PoolIx} {b : Addr} (hb : b ∈ Function.update lists k (lists k ++ [a]) j) :
    b ∈ lists j ∨ b = a ∧ j = k := by
  by_cases hjk : j = k
  · subst hjk
    rw [Function.update_self, List.mem_append, List.mem_singleton] at hb
    exact hb.imp_right fun hba => ⟨hba, rfl⟩
  · rw [Function.update_of_ne hjk] at hb
    exact .inl hb

theorem Freed.allocCount (hf : Freed s t lists k a) (h : FreeLists s lists) (ha : a ∈ s.allocated)
    (hk : (s.hdr a).qId = k) (j : PoolIx) :
    (t.allocated.filter fun b => (t.hdr b).qId = j).length = (t.freeq j).curCnt := by
  have hfun : (fun b => decide ((t.hdr b).qId = j)) = fun b => decide ((s.hdr b).qId = j) := by
    funext b
    rw [hf.qId b]
  rw [hfun, hf.allocated]
  have hold := h.allocCount j
  have hperm := (List.perm_cons_erase ha).filter fun b => decide ((s.hdr b).qId = j)
  rw [hperm.length_eq, List.filter_cons] at hold
  by_cases hjk : j = k
  · subst hjk
    rw [if_pos (by simpa using hk), List.length_cons] at hold
    rw [hf.queue]
    dsimp only
    omega
  · rw [if_neg (by rw [hk]; simpa using Ne.symm hjk)] at hold
    rw [hf.others j hjk]
    exact hold

end Free

theorem freeLists_free (h : FreeLists s lists) {a : Addr} (ha : a ∈ s.allocated) :
    FreeLists (gkiFreebuf s a)
      (Function.update lists (s.hdr a).qId (lists (s.hdr a).qId ++ [a])) := by
  have hout : ∀ j, a ∉ lists j := fun j hin => h.not_both hin ha
  generalize hk : (s.hdr a).qId = k
  have hcur := h.cur_pos ha hk
  have hcount := h.count k
  have hf : Freed s (gkiFreebuf s a) lists k a := gkiFreebuf_freed h ha hk
  refine ⟨?_, ?_, ?_, ?_, ?_, ?_, hf.allocCount h ha hk, ?_, ?_, ?_⟩
  · rw [hf.pNext]
    exact h.chains.push k hout
  · intro j hj
    by_cases hjk : j = k
    · subst hjk
      rw [hf.queue, Function.update_self]
    · rw [hf.others j hjk] at hj ⊢
      rw [Function.update_of_ne hjk]
      exact h.first j hj
  · intro j hj
    by_cases hjk : j = k
    · subst hjk
      rw [hf.queue, Function.update_self, List.getLast?_append]
      rfl
    · rw [hf.others j hjk] at hj ⊢
      rw [Function.update_of_ne hjk]
      exact h.last j hj
  · intro j
    by_cases hjk : j = k
    · subst hjk
      rw [hf.queue, Function.update_self, List.length_append, List.length_singleton]
      dsimp only
      omega
    · rw [hf.others j hjk, Function.update_of_ne hjk]
      exact h.count j
  · intro j b hb
    rw [hf.qId]
    rcases mem_freedLists hb with hold | ⟨rfl, rfl⟩
    · have hba : b ≠ a := by
        rintro rfl
        exact hout j hold
      rw [hf.status hba]
      exact h.free j b hold
    · refine ⟨?_, hk⟩
      rw [hf.hdr, if_pos rfl]
  · intro b hb
    rw [hf.allocated, h.allocNodup.mem_erase_iff] at hb
    rw [hf.status hb.1]
    exact h.alloc b hb.2
  · rw [hf.allocated]
    exact h.allocNodup.erase a
  · intro j b hb
    rw [hf.nextBlock]
    rcases mem_freedLists hb with hold | ⟨rfl, rfl⟩
    · exact h.listBlocks j b hold
    · exact h.allocBlocks b ha
  · intro b hb
    rw [hf.allocated] at hb
    rw [hf.nextBlock]
    exact h.allocBlocks b (List.mem_of_mem_erase hb)

/-! ## New pools -/

/-- The buffers of a pool in the order of its memory. -/
def newList (block act total : Nat) : List Addr :=
  (List.range total).map fun i => (block, i * act)

theorem mem_newList {block act total : Nat} {a : Addr} :
    a ∈ newList block act total ↔ ∃ i < total, (block, i * act) = a := by
  simp [newList]

theorem initHdrs_out {hdr : Addr → PoolHdr} {id : PoolIx} {block act n : Nat} {a : Addr}
    (h : a ∉ newList block act n) : initHdrs hdr id block act n a = hdr a := by
  induction n with
  | zero => rfl
  | succ n ih =>
    have hne : a ≠ (block, n * act) := by
      rintro rfl
      exact h (mem_newList.mpr ⟨n, Nat.lt_succ_self n, rfl⟩)
    rw [initHdrs, Function.update_of_ne hne]
    apply ih
    intro hin
    obtain ⟨i, hi, hia⟩ := mem_newList.mp hin
    exact h (mem_newList.mpr ⟨i, Nat.lt_succ_of_lt hi, hia⟩)

theorem initHdrs_in {hdr : Addr → PoolHdr} {id : PoolIx} {block act n i : Nat} (hact : act ≠ 0)
    (hi : i < n) : initHdrs hdr id block act n (block, i * act) =
      { pNext := some (block, (i + 1) * act), qId := id, status := .free } := by
  induction n with
  | zero => exact absurd hi (Nat.not_lt_zero i)
  | succ n ih =>
    rw [initHdrs]
    by_cases hin : i = n
    · rw [hin, Function.update_self]
    · have hne : ((block, i * act) : Addr) ≠ (block, n * act) := by
        intro heq
        exact hin (Nat.eq_of_mul_eq_mul_right (Nat.pos_of_ne_zero hact) (Prod.mk.inj heq).2)
      rw [Function.update_of_ne hne]
      exact ih (by omega)

variable {id : PoolIx} {size total block : Nat}

theorem init_hdr_in (hact : actSize size ≠ 0) {i : Nat} (hi : i < total) :
    (gkiInitFreeQueue s id size total block).hdr (block, i * actSize size) =
      { pNext := if i + 1 < total then some (block, (i + 1) * actSize size) else none
        qId := id, status := .free } := by
  unfold gkiInitFreeQueue
  dsimp only
  by_cases hlast : i = total - 1
  · subst hlast
    rw [Function.update_self, initHdrs_in hact hi, if_neg (by omega)]
  · have hne : ((block, i * actSize size) : Addr) ≠ (block, (total - 1) * actSize size) := by
      intro heq
      exact hlast (Nat.eq_of_mul_eq_mul_right (Nat.pos_of_ne_zero hact) (Prod.mk.inj heq).2)
    rw [Function.update_of_ne hne, initHdrs_in hact hi, if_pos (by omega)]

theorem init_hdr_out {a : Addr} (ha : a.1 ≠ block) :
    (gkiInitFreeQueue s id size total block).hdr a = s.hdr a := by
  have hne : ∀ o, a ≠ (block, o) := by
    rintro o rfl
    exact ha rfl
  unfold gkiInitFreeQueue
  dsimp only
  rw [Function.update_of_ne (hne _)]
  apply initHdrs_out
  intro hin
  obtain ⟨i, -, hia⟩ := mem_newList.mp hin
  exact hne _ hia.symm

theorem freeLists_init (total : Nat) (h : FreeLists s lists) (hempty : (s.freeq id).total = 0)
    (hfree : ∀ k, ∀ a ∈ lists k, a.1 ≠ block) (halloc : ∀ a ∈ s.allocated, a.1 ≠ block)
    (hblock : block < s.nextBlock) (hact : actSize size ≠ 0) :
    FreeLists (gkiInitFreeQueue s id size total block)
      (Function.update lists id (newList block (actSize size) total)) := by
  have hcount := h.count id
  have hnil : lists id = [] := by
    rw [← List.length_eq_zero_iff]
    omega
  have hcur : (s.freeq id).curCnt = 0 := by omega
  have hqsame : (gkiInitFreeQueue s id size total block).freeq id =
      { pFirst := some (block, 0), pLast := some (block, (total - 1) * actSize size),
        size := alignPool size % 2 ^ 16, total := total, curCnt := 0, maxCnt := 0 } :=
    Function.update_self ..
  have hqother : ∀ j, j ≠ id → (gkiInitFreeQueue s id size total block).freeq j = s.freeq j :=
    fun j hj => Function.update_of_ne hj _ _
  have hmem : ∀ a ∈ newList block (actSize size) total, a.1 = block := by
    intro a ha
    obtain ⟨i, -, rfl⟩ := mem_newList.mp ha
    rfl
  refine ⟨?_, ?_, ?_, ?_, ?_, ?_, ?_, h.allocNodup, ?_, h.allocBlocks⟩
  · apply h.chains.edit id
    · apply chained_range
      intro i hi
      rw [init_hdr_in hact hi]
    · apply List.Nodup.map_on _ List.nodup_range
      intro i _ j _ hij
      exact Nat.eq_of_mul_eq_mul_right (Nat.pos_of_ne_zero hact) (Prod.mk.inj hij).2
    · intro a ha
      exact .inr fun k hin => hfree k a hin (hmem a ha)
    · intro k _ a ha
      rw [init_hdr_out (hfree k a ha)]
  · intro j hj
    by_cases hjk : j = id
    · subst hjk
      rw [hqsame] at hj ⊢
      rw [Function.update_self]
      obtain ⟨m, hm⟩ := Nat.exists_eq_succ_of_ne_zero hj
      dsimp only at hm
      rw [hm]
      simp [newList, List.range_succ_eq_map]
    · rw [hqother j hjk] at hj ⊢
      rw [Function.update_of_ne hjk]
      exact h.first j hj
  · intro j hj
    by_cases hjk : j = id
    · subst hjk
      rw [hqsame] at hj ⊢
      rw [Function.update_self]
      obtain ⟨m, hm⟩ := Nat.exists_eq_succ_of_ne_zero hj
      dsimp only at hm
      rw [hm]
      simp [newList, List.range_succ]
    · rw [hqother j hjk] at hj ⊢
      rw [Function.update_of_ne hjk]
      exact h.last j hj
  · intro j
    by_cases hjk : j = id
    · subst hjk
      rw [hqsame, Function.update_self]
      simp [newList]
    · rw [hqother j hjk, Function.update_of_ne hjk]
      exact h.count j
  · intro j a ha
    by_cases hjk : j = id
    · subst hjk
      rw [Function.update_self] at ha
      obtain ⟨i, hi, rfl⟩ := mem_newList.mp ha
      rw [init_hdr_in hact hi]
      exact ⟨rfl, rfl⟩
    · rw [Function.update_of_ne hjk] at ha
      rw [init_hdr_out (hfree j a ha)]
      exact h.free j a ha
  · intro a ha
    rw [init_hdr_out (halloc a ha)]
    exact h.alloc a ha
  · intro j
    have hsame : (s.allocated.filter fun a =>
        ((gkiInitFreeQueue s id size total block).hdr a).qId = j) =
        s.allocated.filter fun a => (s.hdr a).qId = j := by
      apply List.filter_congr
      intro a ha
      rw [init_hdr_out (halloc a ha)]
    show (s.allocated.filter fun a =>
      ((gkiInitFreeQueue s id size total block).hdr a).qId = j).length = _
    rw [hsame, h.allocCount j]
    by_cases hjk : j = id
    · rw [hjk, hqsame, hcur]
    · rw [hqother j hjk]
  · intro j a ha
    by_cases hjk : j = id
    · subst hjk
      rw [Function.update_self] at ha
      rw [hmem a ha]
      exact hblock
    · rw [Function.update_of_ne hjk] at ha
      exact h.listBlocks j a ha

theorem freeLists_drop (h : FreeLists s lists) {k : PoolIx} (hcur : (s.freeq k).curCnt = 0) :
    FreeLists (dropPool s k) (Function.update lists k []) := by
  have hqsame : (dropPool s k).freeq k = {} := Function.update_self ..
  have hqother : ∀ j, j ≠ k → (dropPool s k).freeq j = s.freeq j :=
    fun j hj => Function.update_of_ne hj _ _
  refine ⟨?_, ?_, ?_, ?_, ?_, h.alloc, ?_, h.allocNodup, ?_, h.allocBlocks⟩
  · apply h.chains.edit k
    · trivial
    · exact List.nodup_nil
    · exact fun a ha => absurd ha List.not_mem_nil
    · exact fun _ _ _ _ => rfl
  · intro j hj
    by_cases hjk : j = k
    · subst hjk
      rw [hqsame] at hj
      exact absurd rfl hj
    · rw [hqother j hjk] at hj ⊢
      rw [Function.update_of_ne hjk]
      exact h.first j hj
  · intro j hj
    by_cases hjk : j = k
    · subst hjk
      rw [hqsame] at hj
      exact absurd rfl hj
    · rw [hqother j hjk] at hj ⊢
      rw [Function.update_of_ne hjk]
      exact h.last j hj
  · intro j
    by_cases hjk : j = k
    · subst hjk
      rw [hqsame, Function.update_self]
      rfl
    · rw [hqother j hjk, Function.update_of_ne hjk]
      exact h.count j
  · intro j a ha
    by_cases hjk : j = k
    · subst hjk
      rw [Function.update_self] at ha
      exact absurd ha List.not_mem_nil
    · rw [Function.update_of_ne hjk] at ha
      exact h.free j a ha
  · intro j
    have hold := h.allocCount j
    by_cases hjk : j = k
    · subst hjk
      rw [hqsame]
      exact hold.trans hcur
    · rw [hqother j hjk]
      exact hold
  · intro j a ha
    by_cases hjk : j = k
    · subst hjk
      rw [Function.update_self] at ha
      exact absurd ha List.not_mem_nil
    · rw [Function.update_of_ne hjk] at ha
      exact h.listBlocks j a ha

end Lists

/-! ## The order of the pools -/

theorem findIdx_congr {α : Type} {l : List α} {p q : α → Bool} (h : ∀ a ∈ l, p a = q a) :
    l.findIdx p = l.findIdx q := by
  induction l with
  | nil => rfl
  | cons a l ih =>
    rw [List.findIdx_cons, List.findIdx_cons, h a (by simp), ih fun b hb => h b (by simp [hb])]

theorem le_of_mem_drop {α : Type} {l : List α} {f : α → Nat} {p : α → Prop} {x : Nat}
    (h : l.Pairwise fun i j => p j → f i ≤ f j) {j : α}
    (hj : j ∈ l.drop (l.findIdx fun k => decide (x ≤ f k))) (hp : p j) : x ≤ f j := by
  induction l with
  | nil => simp at hj
  | cons a l ih =>
    rw [List.pairwise_cons] at h
    rw [List.findIdx_cons] at hj
    by_cases ha : x ≤ f a
    · rw [decide_eq_true ha] at hj
      rcases List.mem_cons.mp hj with rfl | hin
      · exact ha
      · exact le_trans ha (h.1 j hin hp)
    · rw [decide_eq_false ha] at hj
      exact ih h.2 hj

theorem lt_of_mem_take {α : Type} {l : List α} {f : α → Nat} {x : Nat} {j : α}
    (hj : j ∈ l.take (l.findIdx fun k => decide (x ≤ f k))) : f j < x := by
  induction l with
  | nil => simp at hj
  | cons a l ih =>
    rw [List.findIdx_cons] at hj
    by_cases ha : x ≤ f a
    · rw [decide_eq_true ha] at hj
      exact absurd hj List.not_mem_nil
    · rw [decide_eq_false ha] at hj
      rcases List.mem_cons.mp hj with rfl | hin
      · exact not_le.mp ha
      · exact ih hin

section Order
variable {s : Pools}

theorem Ordered.congr (h : Ordered s) {t : Pools} (hstart : t.poolStart = s.poolStart)
    (hlist : t.poolList = s.poolList) (hsize : ∀ k, (t.freeq k).size = (s.freeq k).size)
    (htotal : ∀ k, (t.freeq k).total = (s.freeq k).total) : Ordered t := by
  refine ⟨?_, ?_, ?_, ?_⟩
  · intro k hk
    rw [hstart] at hk
    rw [htotal]
    exact h.unused k hk
  · rw [hstart, hlist]
    exact h.listed
  · rw [hlist]
    exact h.nodup
  · rw [hlist]
    apply h.sorted.imp
    intro i j hij hne
    rw [htotal] at hne
    rw [hsize, hsize]
    exact hij hne

theorem takeFirst_size (k j : PoolIx) (a : Addr) :
    ((takeFirst s k a).freeq j).size = (s.freeq j).size := by
  by_cases hjk : j = k
  · rw [hjk]
    simp [takeFirst, Pools.setQ, Pools.setHdr]
  · simp [takeFirst, Pools.setQ, Pools.setHdr, hjk]

theorem takeFirst_total (k j : PoolIx) (a : Addr) :
    ((takeFirst s k a).freeq j).total = (s.freeq j).total := by
  by_cases hjk : j = k
  · rw [hjk]
    simp [takeFirst, Pools.setQ, Pools.setHdr]
  · simp [takeFirst, Pools.setQ, Pools.setHdr, hjk]

theorem ordered_take (h : Ordered s) (k : PoolIx) (a : Addr) : Ordered (takeFirst s k a) :=
  h.congr rfl rfl (takeFirst_size k · a) (takeFirst_total k · a)

theorem gkiFreebuf_frame (a : Addr) :
    (gkiFreebuf s a).poolStart = s.poolStart ∧ (gkiFreebuf s a).poolList = s.poolList ∧
      (∀ j, ((gkiFreebuf s a).freeq j).size = (s.freeq j).size) ∧
      ∀ j, ((gkiFreebuf s a).freeq j).total = (s.freeq j).total := by
  unfold gkiFreebuf
  split
  · exact ⟨rfl, rfl, fun _ => rfl, fun _ => rfl⟩
  · dsimp only
    cases (s.freeq (s.hdr a).qId).pLast with
    | none =>
      refine ⟨rfl, rfl, ?_, ?_⟩
      all_goals
        intro j
        by_cases hj : j = (s.hdr a).qId
        · rw [hj]
          simp [Pools.setQ, Pools.setHdr]
        · simp [Pools.setQ, Pools.setHdr, hj]
    | some l =>
      refine ⟨rfl, rfl, ?_, ?_⟩
      all_goals
        intro j
        by_cases hj : j = (s.hdr a).qId
        · rw [hj]
          simp [Pools.setQ, Pools.setHdr]
        · simp [Pools.setQ, Pools.setHdr, hj]

theorem ordered_free (h : Ordered s) (a : Addr) : Ordered (gkiFreebuf s a) := by
  obtain ⟨hstart, hlist, hsize, htotal⟩ := gkiFreebuf_frame (s := s) a
  exact h.congr hstart hlist hsize htotal

theorem ordered_create (h : Ordered s) {id : PoolIx} (hid : s.poolStart id = none)
    (size total block : Nat) :
    Ordered (gkiAddToPoolList (gkiInitFreeQueue s id size total block) id) := by
  have hnew : id ∉ s.poolList := by
    rw [h.listed, hid]
    simp
  have hother : ∀ j, j ≠ id → (gkiInitFreeQueue s id size total block).freeq j = s.freeq j :=
    fun j hj => Function.update_of_ne hj _ _
  have hne : ∀ j ∈ s.poolList, j ≠ id := by
    rintro j hj rfl
    exact hnew hj
  generalize hx : ((gkiInitFreeQueue s id size total block).freeq id).size = x
  -- the list in terms of the old state: the search reads only pools of the list
  have hlist : (gkiAddToPoolList (gkiInitFreeQueue s id size total block) id).poolList =
      s.poolList.take (s.poolList.findIdx fun k => decide (x ≤ (s.freeq k).size)) ++
        id :: s.poolList.drop (s.poolList.findIdx fun k => decide (x ≤ (s.freeq k).size)) := by
    have hidx : (s.poolList.findIdx fun k =>
        decide (x ≤ ((gkiInitFreeQueue s id size total block).freeq k).size)) =
        s.poolList.findIdx fun k => decide (x ≤ (s.freeq k).size) := by
      apply findIdx_congr
      intro k hk
      rw [hother k (hne k hk)]
    rw [← hidx, ← hx]
    rfl
  have hperm : (gkiAddToPoolList (gkiInitFreeQueue s id size total block) id).poolList.Perm
      (id :: s.poolList) := by
    rw [hlist]
    exact List.perm_middle.trans (by rw [List.take_append_drop])
  refine ⟨?_, ?_, ?_, ?_⟩
  · intro k hk
    by_cases hkid : k = id
    · subst hkid
      have hsome : (gkiInitFreeQueue s k size total block).poolStart k = some block :=
        Function.update_self ..
      rw [show (gkiAddToPoolList (gkiInitFreeQueue s k size total block) k).poolStart =
        (gkiInitFreeQueue s k size total block).poolStart from rfl, hsome] at hk
      cases hk
    · have hold : s.poolStart k = none := by
        rw [← hk]
        exact (Function.update_of_ne hkid _ _).symm
      show ((gkiInitFreeQueue s id size total block).freeq k).total = 0
      rw [hother k hkid]
      exact h.unused k hold
  · intro k
    rw [hperm.mem_iff, List.mem_cons, h.listed]
    by_cases hkid : k = id
    · subst hkid
      have hsome : (gkiAddToPoolList (gkiInitFreeQueue s k size total block) k).poolStart k =
          some block := Function.update_self ..
      rw [hsome]
      simp
    · have hsame : (gkiAddToPoolList (gkiInitFreeQueue s id size total block) id).poolStart k =
          s.poolStart k := Function.update_of_ne hkid _ _
      rw [hsame]
      simp [hkid]
  · rw [hperm.nodup_iff]
    exact List.nodup_cons.mpr ⟨hnew, h.nodup⟩
  · rw [hlist]
    have hold : s.poolList.Pairwise fun i j =>
        ((gkiInitFreeQueue s id size total block).freeq j).total ≠ 0 →
          ((gkiInitFreeQueue s id size total block).freeq i).size ≤
            ((gkiInitFreeQueue s id size total block).freeq j).size := by
      apply h.sorted.imp_of_mem
      intro i j hi hj hij
      rw [hother i (hne i hi), hother j (hne j hj)]
      exact hij
    have hcut := hold
    rw [← List.take_append_drop (s.poolList.findIdx fun k => decide (x ≤ (s.freeq k).size))
      s.poolList, List.pairwise_append] at hcut
    obtain ⟨htake, hdrop, hacross⟩ := hcut
    refine List.pairwise_append.mpr ⟨htake, List.pairwise_cons.mpr ⟨?_, hdrop⟩, ?_⟩
    · intro j hj hne0
      have hin := List.mem_of_mem_drop hj
      show ((gkiInitFreeQueue s id size total block).freeq id).size ≤
        ((gkiInitFreeQueue s id size total block).freeq j).size
      rw [hx, hother j (hne j hin)]
      apply le_of_mem_drop h.sorted hj
      rw [← hother j (hne j hin)]
      exact hne0
    · intro i hi j hj
      rcases List.mem_cons.mp hj with rfl | hj
      · intro _
        have hin := List.mem_of_mem_take hi
        show ((gkiInitFreeQueue s j size total block).freeq i).size ≤
          ((gkiInitFreeQueue s j size total block).freeq j).size
        rw [hx, hother i (hne i hin)]
        exact le_of_lt (lt_of_mem_take (f := fun k => (s.freeq k).size) hi)
      · exact hacross i hi j hj

theorem ordered_drop (h : Ordered s) {k : PoolIx} (hk : (s.poolStart k).isSome = true) :
    Ordered (dropPool s k) := by
  have hin : k ∈ s.poolList := (h.listed k).mpr hk
  have hlist : (dropPool s k).poolList = s.poolList.erase k := if_pos hin
  have hother : ∀ j, j ≠ k → (dropPool s k).freeq j = s.freeq j :=
    fun j hj => Function.update_of_ne hj _ _
  have hstart : ∀ j, j ≠ k → (dropPool s k).poolStart j = s.poolStart j :=
    fun j hj => Function.update_of_ne hj _ _
  refine ⟨?_, ?_, ?_, ?_⟩
  · intro j hj
    by_cases hjk : j = k
    · subst hjk
      have hzero : (dropPool s j).freeq j = {} := Function.update_self ..
      rw [hzero]
    · rw [hstart j hjk] at hj
      rw [hother j hjk]
      exact h.unused j hj
  · intro j
    rw [hlist, h.nodup.mem_erase_iff]
    by_cases hjk : j = k
    · subst hjk
      have hnone : (dropPool s j).poolStart j = none := Function.update_self ..
      rw [hnone]
      simp
    · rw [hstart j hjk, h.listed]
      simp [hjk]
  · rw [hlist]
    exact h.nodup.erase k
  · rw [hlist]
    apply (h.sorted.sublist List.erase_sublist).imp_of_mem
    intro i j hi hj hij
    rw [hother i (h.nodup.mem_erase_iff.mp hi).1, hother j (h.nodup.mem_erase_iff.mp hj).1]
    exact hij

end Order

/-! ## Requests -/

section Requests
variable {s : Pools} {lists : PoolIx → List Addr}

/-- A pool with a buffer left hands out its first one: the count never says that
there is one when the list is empty, and no pool is set up late. -/
theorem takeBuf_eq (h : FreeLists s lists) {k : PoolIx}
    (hleft : (s.freeq k).curCnt < (s.freeq k).total) (id : Nat) (mem : Bool) :
    ∃ a rest, lists k = a :: rest ∧ takeBuf s k id mem = some (takeFirst s k a) := by
  obtain ⟨a, rest, hl, hfirst⟩ := h.first_some hleft
  refine ⟨a, rest, hl, ?_⟩
  unfold takeBuf
  rw [hfirst]

/-- The pools that the search may take from. -/
def Open (s : Pools) (k : PoolIx) : Prop :=
  s.poolAccessMask k = false ∧ (s.freeq k).curCnt < (s.freeq k).total

instance (s : Pools) (k : PoolIx) : Decidable (Open s k) :=
  inferInstanceAs (Decidable (_ ∧ _))

theorem getbufLoop_cases (h : FreeLists s lists) (mem : Bool) (ks : List PoolIx) (i : Nat) :
    (∃ k ∈ ks, Open s k ∧ ∃ a rest, lists k = a :: rest ∧
        getbufLoop s mem i ks = some (takeFirst s k a)) ∨
      (∀ k ∈ ks, ¬ Open s k) ∧ getbufLoop s mem i ks = some (s.returns none) := by
  induction ks generalizing i with
  | nil => exact .inr ⟨fun _ hk => absurd hk List.not_mem_nil, rfl⟩
  | cons k ks ih =>
    unfold getbufLoop
    by_cases hopen : ¬ s.poolAccessMask k = true ∧ (s.freeq k).curCnt < (s.freeq k).total
    · obtain ⟨a, rest, hl, htake⟩ := takeBuf_eq h hopen.2 i mem
      rw [if_pos hopen]
      exact .inl ⟨k, by simp, ⟨by simpa using hopen.1, hopen.2⟩, a, rest, hl, htake⟩
    · rw [if_neg hopen]
      rcases ih (i + 1) with ⟨j, hj, hrest⟩ | ⟨hnone, hres⟩
      · exact .inl ⟨j, by simp [hj], hrest⟩
      · refine .inr ⟨?_, hres⟩
        intro j hj hopen'
        rcases List.mem_cons.mp hj with rfl | hj
        · exact hopen ⟨by simp [hopen'.1], hopen'.2⟩
        · exact hnone j hj hopen'

theorem gkiGetbuf_cases (h : FreeLists s lists) (ho : Ordered s) {size : Nat} (hsize : size ≠ 0)
    (mem : Bool) :
    (∃ k, Open s k ∧ size ≤ (s.freeq k).size ∧ ∃ a rest, lists k = a :: rest ∧
        gkiGetbuf s size mem = some (takeFirst s k a)) ∨
      (∀ k, Open s k → ¬ size ≤ (s.freeq k).size) ∧
        gkiGetbuf s size mem = some (s.returns none) := by
  unfold gkiGetbuf
  rw [if_neg hsize]
  dsimp only
  generalize hi : (s.poolList.findIdx fun k => decide (size ≤ (s.freeq k).size)) = i
  rcases getbufLoop_cases h mem (s.poolList.drop i) i with ⟨k, hk, hopen, hrest⟩ | ⟨hnone, hres⟩
  · refine .inl ⟨k, hopen, ?_, hrest⟩
    subst hi
    refine le_of_mem_drop ho.sorted hk ?_
    have := hopen.2
    omega
  · refine .inr ⟨?_, hres⟩
    intro k hopen hle
    have htotal : (s.freeq k).total ≠ 0 := by
      have := hopen.2
      omega
    have hin : k ∈ s.poolList := by
      rw [ho.listed, Option.isSome_iff_ne_none]
      intro hstart
      exact htotal (ho.unused k hstart)
    -- what the first search skips is too small
    rw [← List.take_append_drop i s.poolList, List.mem_append] at hin
    rcases hin with hin | hin
    · subst hi
      exact absurd (lt_of_mem_take (f := fun k => (s.freeq k).size) hin) (not_lt.mpr hle)
    · exact hnone k hin hopen

/-- What a request for `size` bytes must do: what it returns was not handed out
before and is large enough, and it returns something if a public pool can. -/
structure Met (s : Pools) (size : Nat) (t : Pools) : Prop where
  fresh : ∀ a, t.result = some a → a ∉ s.allocated ∧ a ∈ t.allocated
  large : ∀ a, t.result = some a → size ≤ (t.freeq (t.hdr a).qId).size
  served : ∀ k, s.poolAccessMask k = false → size ≤ (s.freeq k).size →
    (s.freeq k).curCnt < (s.freeq k).total → t.result ≠ none

theorem met_take (h : FreeLists s lists) {k : PoolIx} {a : Addr} {rest : List Addr}
    (hl : lists k = a :: rest) {size : Nat} (hle : size ≤ (s.freeq k).size) :
    Met s size (takeFirst s k a) := by
  have ha : a ∈ lists k := by simp [hl]
  have hqid : ((takeFirst s k a).hdr a).qId = k := by
    rw [← (h.free k a ha).2]
    simp [takeFirst, Pools.setHdr, Pools.setQ]
  refine ⟨?_, ?_, ?_⟩
  · intro b hb
    obtain rfl := Option.some.inj hb
    exact ⟨h.not_both ha, List.mem_cons_self⟩
  · intro b hb
    obtain rfl := Option.some.inj hb
    rw [hqid, takeFirst_size]
    exact hle
  · intro _ _ _ _ hnone
    cases hnone

theorem met_none {size : Nat} (hnone : ∀ k, Open s k → ¬ size ≤ (s.freeq k).size) :
    Met s size (s.returns none) := by
  refine ⟨?_, ?_, ?_⟩
  · intro a ha
    cases ha
  · intro a ha
    cases ha
  · intro k hmask hle hleft
    exact absurd hle (hnone k ⟨hmask, hleft⟩)

theorem gkiGetbuf_met (h : FreeLists s lists) (ho : Ordered s) {size : Nat} (hsize : size ≠ 0)
    (mem : Bool) : ∃ t, gkiGetbuf s size mem = some t ∧ Met s size t := by
  rcases gkiGetbuf_cases h ho hsize mem with ⟨k, -, hle, a, rest, hl, hget⟩ | ⟨hnone, hget⟩
  · exact ⟨_, hget, met_take h hl hle⟩
  · exact ⟨_, hget, met_none hnone⟩

theorem gkiGetpoolbuf_met (h : FreeLists s lists) (ho : Ordered s) {poolId : UInt8} {k : PoolIx}
    (hk : k.val = poolId.toNat) (hsize : (s.freeq k).size ≠ 0) (mem : Bool) :
    ∃ t, gkiGetpoolbuf s poolId mem = some t ∧ Met s (s.freeq k).size t ∧
      ((s.freeq k).curCnt < (s.freeq k).total → t.result ≠ none) := by
  have hlt : poolId.toNat < gkiNumTotalBufPools := hk ▸ k.isLt
  have hix : (⟨poolId.toNat, hlt⟩ : PoolIx) = k := Fin.ext hk.symm
  unfold gkiGetpoolbuf
  rw [dif_pos hlt, hix]
  dsimp only
  by_cases hleft : (s.freeq k).curCnt < (s.freeq k).total
  · obtain ⟨a, rest, hl, htake⟩ := takeBuf_eq h hleft poolId.toNat mem
    rw [if_pos hleft, htake]
    refine ⟨_, rfl, met_take h hl le_rfl, ?_⟩
    intro _ hnone
    cases hnone
  · rw [if_neg hleft]
    obtain ⟨t, ht, hmet⟩ := gkiGetbuf_met h ho hsize mem
    exact ⟨t, ht, hmet, fun hlt => absurd hlt hleft⟩

end Requests

/-! ## Runs -/

/-- The free lists and the order, in every state of a run. -/
def PoolInv (s : Pools) : Prop := (∃ lists, FreeLists s lists) ∧ Ordered s

section Calls
variable {s : Pools}

theorem freeLists_setup {lists : PoolIx → List Addr} (h : FreeLists s lists) (id : PoolIx)
    (size total block : Nat) (hempty : (s.freeq id).total = 0)
    (hbelow : ∀ k, ∀ a ∈ lists k, a.1 < block) (halloc : s.allocated = [])
    (hblock : block < s.nextBlock) (hact : actSize size ≠ 0) :
    ∃ lists', FreeLists (gkiInitFreeQueue s id size total block) lists' ∧
      ∀ k, ∀ a ∈ lists' k, a.1 < block + 1 := by
  refine ⟨_, freeLists_init total h hempty (fun k a ha => ne_of_lt (hbelow k a ha)) ?_ hblock hact,
    ?_⟩
  · rw [halloc]
    exact fun a ha => absurd ha List.not_mem_nil
  · intro k a ha
    by_cases hk : k = id
    · rw [hk, Function.update_self] at ha
      obtain ⟨i, -, rfl⟩ := mem_newList.mp ha
      exact Nat.lt_succ_self _
    · rw [Function.update_of_ne hk] at ha
      exact Nat.lt_succ_of_lt (hbelow k a ha)

theorem freeLists_blank : FreeLists Pools.blank fun _ => [] := by
  refine ⟨⟨fun _ => trivial, fun _ => List.nodup_nil, ?_⟩, fun _ _ => rfl, fun _ _ => rfl,
    fun _ => rfl, ?_, ?_, fun _ => rfl, List.nodup_nil, ?_, ?_⟩
  all_goals
    intros
    simp_all [Pools.blank]

theorem poolInv_init : PoolInv gkiBufferInit := by
  refine ⟨?_, ?_⟩
  · obtain ⟨lists₀, h₀, hb₀⟩ := freeLists_setup freeLists_blank 0 268 40 0 rfl
      (fun _ _ ha => absurd ha List.not_mem_nil) rfl (by decide) (by decide)
    obtain ⟨lists₁, h₁, hb₁⟩ := freeLists_setup h₀ 1 128 0 1 rfl hb₀ rfl (by decide) (by decide)
    obtain ⟨lists₂, h₂, hb₂⟩ := freeLists_setup h₁ 2 660 50 2 rfl hb₁ rfl (by decide) (by decide)
    obtain ⟨lists₃, h₃, -⟩ := freeLists_setup h₂ 3 0xFFB0 30 3 rfl hb₂ rfl (by decide) (by decide)
    exact ⟨lists₃, h₃.congr rfl rfl rfl le_rfl⟩
  · refine ⟨?_, ?_, ?_, ?_⟩
    all_goals decide

theorem poolInv_returns (h : PoolInv s) (p : Option Addr) : PoolInv (s.returns p) := by
  obtain ⟨⟨lists, hlists⟩, ho⟩ := h
  exact ⟨⟨lists, hlists.congr rfl rfl rfl le_rfl⟩, ho.congr rfl rfl (fun _ => rfl) fun _ => rfl⟩

theorem poolInv_take {lists : PoolIx → List Addr} (h : FreeLists s lists) (ho : Ordered s)
    {k : PoolIx} {a : Addr} {rest : List Addr} (hl : lists k = a :: rest) :
    PoolInv (takeFirst s k a) :=
  ⟨⟨_, freeLists_take h hl⟩, ordered_take ho k a⟩

theorem poolInv_getbuf (h : PoolInv s) (size : Nat) (mem : Bool) :
    ∃ t, gkiGetbuf s size mem = some t ∧ PoolInv t := by
  by_cases hsize : size = 0
  · refine ⟨s.returns none, ?_, poolInv_returns h none⟩
    unfold gkiGetbuf
    rw [if_pos hsize]
  · obtain ⟨⟨lists, hlists⟩, ho⟩ := h
    rcases gkiGetbuf_cases hlists ho hsize mem with ⟨k, -, -, a, rest, hl, hget⟩ | ⟨-, hget⟩
    · exact ⟨_, hget, poolInv_take hlists ho hl⟩
    · exact ⟨_, hget, poolInv_returns ⟨⟨lists, hlists⟩, ho⟩ none⟩

theorem poolInv_getpoolbuf (h : PoolInv s) (poolId : UInt8) (mem : Bool) :
    ∃ t, gkiGetpoolbuf s poolId mem = some t ∧ PoolInv t := by
  unfold gkiGetpoolbuf
  by_cases hid : poolId.toNat < gkiNumTotalBufPools
  · rw [dif_pos hid]
    dsimp only
    by_cases hleft : (s.freeq ⟨poolId.toNat, hid⟩).curCnt < (s.freeq ⟨poolId.toNat, hid⟩).total
    · obtain ⟨⟨lists, hlists⟩, ho⟩ := h
      obtain ⟨a, rest, hl, htake⟩ := takeBuf_eq hlists hleft poolId.toNat mem
      rw [if_pos hleft, htake]
      exact ⟨_, rfl, poolInv_take hlists ho hl⟩
    · rw [if_neg hleft]
      exact poolInv_getbuf h _ mem
  · rw [dif_neg hid]
    exact ⟨_, rfl, poolInv_returns h none⟩

theorem poolInv_free (h : PoolInv s) {a : Addr} (ha : a ∈ s.allocated) :
    PoolInv (gkiFreebuf s a) := by
  obtain ⟨⟨lists, hlists⟩, ho⟩ := h
  exact ⟨⟨_, freeLists_free hlists ha⟩, ordered_free ho a⟩

theorem poolInv_mask (h : PoolInv s) (mask : PoolIx → Bool) :
    PoolInv { s with poolAccessMask := mask } := by
  obtain ⟨⟨lists, hlists⟩, ho⟩ := h
  exact ⟨⟨lists, hlists.congr rfl rfl rfl le_rfl⟩, ho.congr rfl rfl (fun _ => rfl) fun _ => rfl⟩

theorem poolInv_setup (h : PoolInv s) {id : PoolIx} (hid : s.poolStart id = none)
    {size : Nat} (total : Nat) (hact : actSize size ≠ 0) (heap : Nat → Bool) :
    PoolInv (gkiAddToPoolList (gkiInitFreeQueue
      { s with heap := heap, nextBlock := s.nextBlock + 1 } id size total s.nextBlock) id) := by
  obtain ⟨⟨lists, hlists⟩, ho⟩ := h
  have hroom : FreeLists { s with heap := heap, nextBlock := s.nextBlock + 1 } lists :=
    hlists.congr rfl rfl rfl (Nat.le_succ _)
  have hord : Ordered { s with heap := heap, nextBlock := s.nextBlock + 1 } :=
    ho.congr rfl rfl (fun _ => rfl) fun _ => rfl
  have hinit := freeLists_init total hroom (ho.unused id hid)
    (fun k a ha => ne_of_lt (hlists.listBlocks k a ha))
    (fun a ha => ne_of_lt (hlists.allocBlocks a ha)) (Nat.lt_succ_self _) hact
  exact ⟨⟨_, hinit.congr rfl rfl rfl le_rfl⟩, ordered_create hord hid size total s.nextBlock⟩

theorem poolInv_create (h : PoolInv s) {size : UInt16} (hact : actSize size.toNat ≠ 0)
    (count : UInt16) (isRestricted : Bool) (mem : PoolMem) :
    PoolInv (gkiCreatePool s size count isRestricted mem) := by
  unfold gkiCreatePool
  split
  · exact h
  · split
    · exact h
    · rename_i id hslot
      have hid : s.poolStart id = none := Option.isNone_iff_eq_none.mp (firstSlot_holds hslot)
      cases mem with
      | given =>
        rw [if_neg (by decide), if_pos rfl]
        exact poolInv_mask (poolInv_setup h hid count.toNat hact s.heap) _
      | malloc ok =>
        cases ok with
        | false => exact h
        | true =>
          rw [if_neg (by decide), if_neg (by decide)]
          exact poolInv_mask (poolInv_setup h hid count.toNat hact _) _

theorem poolInv_delete (h : PoolInv s) {poolId : UInt8}
    (hheap : ∀ k : PoolIx, k.val = poolId.toNat → (s.freeq k).curCnt = 0 →
      (s.poolStart k).all s.heap = true) :
    ∃ t, gkiDeletePool s poolId = some t ∧ PoolInv t := by
  unfold gkiDeletePool
  by_cases hid : poolId.toNat < gkiNumTotalBufPools
  · rw [dif_pos hid]
    dsimp only
    generalize hk : (⟨poolId.toNat, hid⟩ : PoolIx) = k
    cases hstart : s.poolStart k with
    | none => exact ⟨s, rfl, h⟩
    | some block =>
      dsimp only
      by_cases hcur : (s.freeq k).curCnt = 0
      · have hin := hheap k (by rw [← hk]) hcur
        rw [hstart, Option.all_some] at hin
        rw [if_neg (not_not.mpr hcur), if_pos hin]
        obtain ⟨⟨lists, hlists⟩, ho⟩ := h
        exact ⟨_, rfl, ⟨_, freeLists_drop hlists hcur⟩, ordered_drop ho (by rw [hstart]; rfl)⟩
      · rw [if_pos hcur]
        exact ⟨s, rfl, h⟩
  · rw [dif_neg hid]
    exact ⟨s, rfl, h⟩

end Calls

/-- What the callers see to: a buffer is freed once, the distance of two buffers of a pool
is not 0 in 16 bits, and only memory that came from the system is returned to it. -/
def PoolOk (s : Pools) : PoolEvent → Prop
  | .getbuf _ _ => True
  | .getpoolbuf _ _ => True
  | .freebuf a => a ∈ s.allocated
  | .createPool size _ _ _ => actSize size.toNat ≠ 0
  | .deletePool poolId => ∀ k : PoolIx, k.val = poolId.toNat → (s.freeq k).curCnt = 0 →
      (s.poolStart k).all s.heap = true

instance : ∀ (s : Pools) (e : PoolEvent), Decidable (PoolOk s e)
  | _, .getbuf _ _ => .isTrue trivial
  | _, .getpoolbuf _ _ => .isTrue trivial
  | _, .freebuf _ => inferInstanceAs (Decidable (_ ∈ _))
  | _, .createPool _ _ _ _ => inferInstanceAs (Decidable (_ ≠ _))
  | _, .deletePool _ => inferInstanceAs (Decidable (∀ _ : PoolIx, _ → _ → _))

theorem poolInv_step (s : Pools) (e : PoolEvent) (h : PoolInv s) (hok : PoolOk s e) :
    ∃ t, s.step e = some t ∧ PoolInv t := by
  cases e with
  | getbuf size mem => exact poolInv_getbuf h size.toNat mem
  | getpoolbuf poolId mem => exact poolInv_getpoolbuf h poolId mem
  | freebuf a => exact ⟨_, rfl, poolInv_free h hok⟩
  | createPool size count isRestricted mem =>
    exact ⟨_, rfl, poolInv_create h hok count isRestricted mem⟩
  | deletePool poolId => exact poolInv_delete h hok

/-- The buffers that are reached from `p_first`. -/
def IsFreeList (s : Pools) (k : PoolIx) (l : List Addr) : Prop :=
  (s.freeq k).pFirst = l.head? ∧ Chained (fun a => (s.hdr a).pNext) none l

/-- Every buffer is on one free list or handed out, once, as the counts say. -/
structure Accounted (s : Pools) (lists : PoolIx → List Addr) : Prop where
  list : ∀ k, (s.freeq k).total ≠ 0 → IsFreeList s k (lists k)
  counted : ∀ k, (lists k).length + (s.freeq k).curCnt = (s.freeq k).total
  once : ∀ k, (lists k).Nodup
  apart : ∀ j k, j ≠ k → ∀ a ∈ lists j, a ∉ lists k
  notOut : ∀ k, ∀ a ∈ lists k, a ∉ s.allocated
  out : s.allocated.Nodup
  outCounted : ∀ k, (s.allocated.filter fun a => (s.hdr a).qId = k).length = (s.freeq k).curCnt

theorem FreeLists.accounted {s : Pools} {lists : PoolIx → List Addr} (h : FreeLists s lists) :
    Accounted s lists where
  list k hk := ⟨h.first k hk, h.chains.linked k⟩
  counted := h.count
  once := h.chains.nodup
  apart j k hjk a ha hin := hjk (h.chains.apart j k a ha hin)
  notOut _ _ ha := h.not_both ha
  out := h.allocNodup
  outCounted := h.allocCount

theorem pools_conserve (es : List PoolEvent) (hok : StepsOk Pools.step PoolOk gkiBufferInit es) :
    ∃ s, run Pools.step gkiBufferInit es = some s ∧ (∃ lists, Accounted s lists) ∧
      (∀ (size : UInt16) (mem : Bool), size.toNat ≠ 0 →
        ∃ t, gkiGetbuf s size.toNat mem = some t ∧ Met s size.toNat t) ∧
      ∀ (poolId : UInt8) (mem : Bool) (k : PoolIx), k.val = poolId.toNat → (s.freeq k).size ≠ 0 →
        ∃ t, gkiGetpoolbuf s poolId mem = some t ∧ Met s (s.freeq k).size t ∧
          ((s.freeq k).curCnt < (s.freeq k).total → t.result ≠ none) := by
  obtain ⟨s, hrun, ⟨lists, hlists⟩, ho⟩ := run_invariant poolInv_step es _ poolInv_init hok
  refine ⟨s, hrun, ⟨lists, hlists.accounted⟩, ?_, ?_⟩
  · exact fun _ mem hsize => gkiGetbuf_met hlists ho hsize mem
  · exact fun _ mem _ hk hsize => gkiGetpoolbuf_met hlists ho hk hsize mem

/-- A pool of two buffers of 300 bytes is created, one is taken and returned, and the
pool is deleted. -/
theorem pools_conserve_created :
    ∃ s, run Pools.step gkiBufferInit [.createPool 300 2 false (.malloc true), .getbuf 290 true,
        .freebuf (4, 0), .deletePool 4, .getbuf 300 true] = some s ∧ s.result = some (2, 0) ∧
      ∃ lists, Accounted s lists := by
  obtain ⟨s, hrun, hacc, -⟩ := pools_conserve [.createPool 300 2 false (.malloc true),
    .getbuf 290 true, .freebuf (4, 0), .deletePool 4, .getbuf 300 true] (by decide +kernel)
  refine ⟨s, hrun, ?_, hacc⟩
  obtain rfl := Option.some.inj hrun
  decide +kernel

theorem pools_not_conserved :
    (¬ ∃ l, IsFreeList gkiBufferInit 1 l ∧
      l.length + (gkiBufferInit.freeq 1).curCnt = (gkiBufferInit.freeq 1).total) ∧
    (Open gkiBufferInit 0 ∧ 0 ≤ (gkiBufferInit.freeq 0).size ∧
      (gkiGetbuf gkiBufferInit 0 true).map Pools.result = some none) ∧
    (¬ ∃ l, IsFreeList (gkiCreatePool gkiBufferInit 65513 2 false .given) 4 l ∧
      l.length + ((gkiCreatePool gkiBufferInit 65513 2 false .given).freeq 4).curCnt =
        ((gkiCreatePool gkiBufferInit 65513 2 false .given).freeq 4).total) ∧
    gkiDeletePool gkiBufferInit 0 = none := by
  refine ⟨?_, ⟨by decide, by decide, by decide⟩, ?_, by decide⟩
  · rintro ⟨l, ⟨hfirst, -⟩, hlen⟩
    have hnil : l = [] := List.eq_nil_of_length_eq_zero hlen
    rw [hnil] at hfirst
    exact absurd hfirst (by decide)
  · rintro ⟨l, ⟨hfirst, hlinked⟩, hlen⟩
    have htwo : l.length = 2 := hlen
    obtain ⟨a, b, rfl⟩ := List.length_eq_two.mp htwo
    have ha : a = (4, 0) := by
      have hpFirst : ((gkiCreatePool gkiBufferInit 65513 2 false .given).freeq 4).pFirst =
          some (4, 0) := by decide +kernel
      rw [hpFirst] at hfirst
      exact (Option.some.inj hfirst).symm
    have hlast : ((gkiCreatePool gkiBufferInit 65513 2 false .given).hdr (4, 0)).pNext = none := by
      decide +kernel
    have hnext := hlinked.next_head
    rw [ha, hlast] at hnext
    cases hnext

end NfcStack.Gki.Fixed
