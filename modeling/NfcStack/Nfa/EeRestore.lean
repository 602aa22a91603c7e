import NfcStack.Nfa.EeBlocks

/- The removal of the NFCEEs that did not come back (`nfa_ee_remove_pending`,
   `nfa_ee_act.cc`). On the way to low power each block is marked
   `NFA_EE_STATUS_RESTORING`; the blocks that still carry the mark once the NFCEEs are
   discovered again are freed, and those behind them are moved up with `memcpy`. A block
   is named elsewhere by its position, which is its bit in `ee_cfged`, and it owns five
   buffers that `nfa_ee_sys_enable` allocates for each block of the table.

   What is proved:
     1. `take_remove`: the table that is left starts with the NFCEEs that remain, in
        their order and with all their fields, whichever blocks are marked.
     2. `shared_of_moved`: where a block is moved, the last one moved leaves its buffers
        with the block it came from, which is then free for the next NFCEE.
     3. `remove_intact`: the table is intact exactly when no marked block stands before
        one that remains and none has its bit set in `ee_cfged`.

   A block keeps apart only what the removal reads; the fields it copies without looking
   are those of `rest`, of any type. -/
namespace NfcStack.Nfa

/-! ## The table -/

abbrev nfaEeStatusRestoring : UInt8 := 0x20

/-- The buffers of a block, as the addresses that `GKI_getbuf` returned. -/
structure AidBufs where
  aidLen : Nat
  aidPwrCfg : Nat
  aidRtInfo : Nat
  aidCfg : Nat
  aidInfo : Nat
  deriving DecidableEq, Repr

def AidBufs.all (b : AidBufs) : List Nat :=
  [b.aidLen, b.aidPwrCfg, b.aidRtInfo, b.aidCfg, b.aidInfo]

/-- No buffer of the one is a buffer of the other. -/
def AidBufs.Apart (a b : AidBufs) : Prop := ∀ p ∈ a.all, p ∉ b.all

instance (a b : AidBufs) : Decidable (a.Apart b) :=
  inferInstanceAs (Decidable (∀ p ∈ a.all, p ∉ b.all))

structure RestoreEcb (ρ : Type) where
  nfceeId : UInt8
  eeStatus : UInt8
  bufs : AidBufs
  rest : ρ
  deriving DecidableEq, Repr

variable {ρ : Type}

def RestoreEcb.isFree (b : RestoreEcb ρ) : Bool := b.nfceeId == nfaEeInvalid

def RestoreEcb.free (b : RestoreEcb ρ) : RestoreEcb ρ := { b with nfceeId := nfaEeInvalid }

/-- What `nfa_ee_remove_pending` asks of a block. -/
def RestoreEcb.pending (b : RestoreEcb ρ) : Bool :=
  !b.isFree && b.eeStatus &&& nfaEeStatusRestoring != 0

structure EcbTable (ρ : Type) where
  ecb : List (RestoreEcb ρ)
  curEe : Nat
  eeCfged : UInt8
  deriving DecidableEq, Repr

/-- `nfa_ee_ecb_to_mask` of the block at a position. -/
def positionMask (k : Nat) : UInt8 := 1 <<< UInt8.ofNat k

/-! ## The removal -/

/-- The blocks with the local variables `num_removed` and `first_removed`. -/
structure Removing (ρ : Type) where
  ecb : List (RestoreEcb ρ)
  numRemoved : Nat
  firstRemoved : Nat

def Removing.turn (d : Removing ρ) (xx : Nat) : Removing ρ :=
  match d.ecb[xx]? with
  | none => d
  | some b =>
    if b.pending then
      { ecb := d.ecb.set xx b.free
        numRemoved := d.numRemoved + 1
        firstRemoved := if d.firstRemoved = nfaEeMaxEeSupported then xx else d.firstRemoved }
    else d

def EcbTable.markRemoved (s : EcbTable ρ) : Removing ρ :=
  (List.range (min s.curEe nfaEeNumEcbs)).foldl Removing.turn ⟨s.ecb, 0, nfaEeMaxEeSupported⟩

/-- The inner loop: `p_cb_n` over the blocks that are free. -/
def skipFree (ecb : List (RestoreEcb ρ)) (last : Nat) : Nat → Nat → Nat
  | 0, pn => pn
  | fuel + 1, pn =>
    match ecb[pn]? with
    | none => pn
    | some b => if b.isFree ∧ pn ≤ last then skipFree ecb last fuel (pn + 1) else pn

/-- The outer loop, from `p_cb` and `p_cb_n`. -/
def moveUp (last : Nat) : Nat → List (RestoreEcb ρ) → Nat → Nat → List (RestoreEcb ρ)
  | 0, ecb, _, _ => ecb
  | fuel + 1, ecb, p, pn =>
    if pn ≤ last then
      let pn := skipFree ecb last nfaEeNumEcbs pn
      let ecb :=
        match ecb[pn]? with
        | none => ecb
        | some b => if pn ≤ last then (ecb.set p b).set pn b.free else ecb
      moveUp last fuel ecb (p + 1) (pn + 1)
    else ecb

def EcbTable.removePending (s : EcbTable ρ) : EcbTable ρ :=
  let d := s.markRemoved
  let ecb :=
    if d.numRemoved ≠ 0 ∧ d.firstRemoved ≠ s.curEe - d.numRemoved then
      moveUp (s.curEe - 1) nfaEeNumEcbs d.ecb d.firstRemoved (d.firstRemoved + 1)
    else d.ecb
  { s with ecb := ecb, curEe := s.curEe - d.numRemoved }

/-! ## What the table has to be -/

/-- The table as the NFCEEs are entered in it: those of the first `cur_ee` blocks are
    there, and each block has the buffers that were allocated for it. -/
structure EcbTable.Ok (s : EcbTable ρ) : Prop where
  length : s.ecb.length = nfaEeNumEcbs
  curEe : s.curEe ≤ nfaEeMaxEeSupported
  used : ∀ b ∈ s.ecb.take s.curEe, b.isFree = false
  apart : s.ecb.Pairwise fun a b => a.bufs.Apart b.bufs

def EcbTable.nfcees (s : EcbTable ρ) : List (RestoreEcb ρ) := s.ecb.take s.curEe

/-- Those that are not marked any more. -/
def EcbTable.remaining (s : EcbTable ρ) : List (RestoreEcb ρ) :=
  s.nfcees.filter fun b => !b.pending

/-- A bit of `ee_cfged` for one of the first `n` positions refers to the NFCEE. -/
def EcbTable.Cfged (s : EcbTable ρ) (n : Nat) (id : UInt8) : Prop :=
  ∃ k < n, ∃ b, s.ecb[k]? = some b ∧ s.eeCfged &&& positionMask k ≠ 0 ∧ b.nfceeId = id

/-- What the removal is to leave of the table `s`: the remaining NFCEEs, as they were
    and in their order, the bits of those that were configured, and buffers of its own
    for each block. -/
structure EcbTable.Intact (s t : EcbTable ρ) : Prop where
  nfcees : t.nfcees = s.remaining
  cfged : ∀ id, t.Cfged s.curEe id ↔ s.Cfged s.curEe id ∧ ∃ b ∈ s.remaining, b.nfceeId = id
  apart : t.ecb.Pairwise fun a b => a.bufs.Apart b.bufs

/-- A marked block is followed by marked ones only. -/
def EcbTable.PendingLast (s : EcbTable ρ) : Prop :=
  s.nfcees.Pairwise fun a b => a.pending → b.pending

def EcbTable.PendingUncfged (s : EcbTable ρ) : Prop :=
  ∀ k < s.curEe, ∀ b, s.ecb[k]? = some b → b.pending → s.eeCfged &&& positionMask k = 0

/-! ## The first loop -/

/-- What the first loop makes of a block. -/
def RestoreEcb.marked (b : RestoreEcb ρ) : RestoreEcb ρ := if b.pending then b.free else b

@[simp] theorem RestoreEcb.isFree_free (b : RestoreEcb ρ) : b.free.isFree = true := by
  simp [RestoreEcb.isFree, RestoreEcb.free]

@[simp] theorem RestoreEcb.bufs_free (b : RestoreEcb ρ) : b.free.bufs = b.bufs := rfl

@[simp] theorem RestoreEcb.bufs_marked (b : RestoreEcb ρ) : b.marked.bufs = b.bufs := by
  unfold RestoreEcb.marked
  split <;> rfl

variable {b : RestoreEcb ρ}

theorem RestoreEcb.marked_of_pending (h : b.pending = true) :
    b.marked = b.free := by
  simp [RestoreEcb.marked, h]

theorem RestoreEcb.marked_of_not (h : b.pending = false) : b.marked = b := by
  simp [RestoreEcb.marked, h]

theorem RestoreEcb.isFree_marked (hb : b.isFree = false) :
    b.marked.isFree = b.pending := by
  cases hp : b.pending with
  | true => simp [RestoreEcb.marked_of_pending hp]
  | false => rw [RestoreEcb.marked_of_not hp, hb]

theorem foldl_turn (xs tail : List (RestoreEcb ρ)) (h : xs.length ≤ nfaEeMaxEeSupported) :
    (List.range xs.length).foldl Removing.turn ⟨xs ++ tail, 0, nfaEeMaxEeSupported⟩
      = ⟨xs.map RestoreEcb.marked ++ tail, xs.countP RestoreEcb.pending,
          if xs.any RestoreEcb.pending then xs.findIdx RestoreEcb.pending
          else nfaEeMaxEeSupported⟩ := by
  induction xs using List.reverseRecOn generalizing tail with
  | nil => rfl
  | append_singleton xs b ih =>
    simp only [List.length_append, List.length_singleton] at h
    rw [List.length_append, List.length_singleton, List.range_succ, List.foldl_append,
      List.append_assoc, List.singleton_append, ih (b :: tail) (by omega)]
    have hget : (xs.map RestoreEcb.marked ++ b :: tail)[xs.length]? = some b := by
      rw [List.getElem?_append_right (by simp)]
      simp
    simp only [List.foldl_cons, List.foldl_nil, Removing.turn, hget]
    by_cases hp : b.pending = true
    · rw [if_pos hp]
      have hset : (xs.map RestoreEcb.marked ++ b :: tail).set xs.length b.free
          = xs.map RestoreEcb.marked ++ b.free :: tail := by
        rw [List.set_append_right (h := by simp)]
        simp
      rw [hset]
      -- the sentinel is no position of the table
      have hne : xs.findIdx RestoreEcb.pending ≠ nfaEeMaxEeSupported := by
        have := @List.findIdx_le_length _ RestoreEcb.pending xs
        omega
      by_cases ha : xs.any RestoreEcb.pending = true
      · have hlt := List.findIdx_lt_length.2 (List.any_eq_true.1 ha)
        simp [List.findIdx_append, RestoreEcb.marked_of_pending hp, hp, ha, hne, hlt]
      · have heq := List.findIdx_eq_length.2 fun x hx =>
          Bool.eq_false_iff.2 fun hx' => ha (List.any_eq_true.2 ⟨x, hx, hx'⟩)
        simp [List.findIdx_append, RestoreEcb.marked_of_pending hp, hp, ha, heq,
          List.findIdx_cons]
    · have hp' := Bool.eq_false_iff.2 hp
      rw [if_neg hp]
      by_cases ha : xs.any RestoreEcb.pending = true
      · have hlt := List.findIdx_lt_length.2 (List.any_eq_true.1 ha)
        simp [List.findIdx_append, RestoreEcb.marked_of_not hp', hp', ha, hlt]
      · simp [RestoreEcb.marked_of_not hp', hp', ha]

/-! ## The second loop -/

theorem skipFree_eq (last : Nat) (f pre t : List (RestoreEcb ρ)) (fuel : Nat)
    (hf : ∀ b ∈ f, b.isFree = true) (hfuel : f.length ≤ fuel)
    (hin : pre.length + f.length ≤ last + 1)
    (hstop : last < pre.length + f.length ∨ ∀ b ∈ t.head?, b.isFree = false) :
    skipFree (pre ++ (f ++ t)) last fuel pre.length = pre.length + f.length := by
  induction f generalizing pre fuel with
  | nil =>
    cases fuel with
    | zero => rfl
    | succ fuel =>
      rw [skipFree, List.getElem?_append_right (Nat.le_refl _), Nat.sub_self, List.nil_append]
      cases t with
      | nil => rfl
      | cons x t =>
        have hno : ¬(x.isFree = true ∧ pre.length ≤ last) := by
          rintro ⟨hx, hle⟩
          rcases hstop with hlt | hhead
          · simp at hlt
            omega
          · simp [hhead x rfl] at hx
        simp [hno]
  | cons b f ih =>
    obtain ⟨fuel, rfl⟩ : ∃ m, fuel = m + 1 := ⟨fuel - 1, by simp at hfuel; omega⟩
    simp only [List.length_cons] at hfuel hin hstop
    have hb : b.isFree = true ∧ pre.length ≤ last := ⟨hf b (by simp), by omega⟩
    rw [skipFree, List.getElem?_append_right (Nat.le_refl _), Nat.sub_self]
    simp only [List.cons_append, List.getElem?_cons_zero]
    rw [if_pos hb]
    have hrec := ih (pre ++ [b]) fuel (fun x hx => hf x (by simp [hx])) (by omega)
      (by simp; omega) (by simp only [List.length_append, List.length_singleton]; rcases hstop with h | h
                           · exact .inl (by omega)
                           · exact .inr h)
    simp only [List.length_append, List.length_singleton, List.append_assoc,
      List.singleton_append] at hrec
    rw [hrec, List.length_cons]
    omega

theorem set_set_move (kept f t : List (RestoreEcb ρ)) (a x : RestoreEcb ρ) :
    ((kept ++ (a :: f ++ x :: t)).set kept.length x).set (kept.length + (f.length + 1)) x.free
      = (kept ++ [x]) ++ (f ++ [x.free]) ++ t := by
  rw [List.set_append_right (h := Nat.le_refl _), Nat.sub_self, List.cons_append, List.set_cons_zero,
    List.set_append_right (h := Nat.le_add_right _ _), Nat.add_sub_cancel_left, List.set_cons_succ,
    List.set_append_right (h := Nat.le_refl _), Nat.sub_self, List.set_cons_zero]
  simp

theorem moveUp_done (last fuel : Nat) (ecb : List (RestoreEcb ρ)) (p pn : Nat) (h : last < pn) :
    moveUp last fuel ecb p pn = ecb := by
  cases fuel with
  | zero => rfl
  | succ fuel => rw [moveUp, if_neg (by omega)]

theorem moveUp_free {last fuel : Nat} {kept f rest tail : List (RestoreEcb ρ)}
    (hrest : ∀ b ∈ rest, b.isFree = true) (hlen : kept.length + f.length + rest.length = last + 1)
    (hnum : kept.length + f.length + rest.length ≤ nfaEeNumEcbs) :
    moveUp last (fuel + 1) (kept ++ (f ++ rest) ++ tail) kept.length (kept.length + f.length)
      = kept ++ (f ++ rest) ++ tail := by
  rw [moveUp]
  by_cases hle : kept.length + f.length ≤ last
  · have hskip := skipFree_eq last rest (kept ++ f) tail nfaEeNumEcbs hrest
      (by omega) (by rw [List.length_append]; omega) (.inl (by rw [List.length_append]; omega))
    rw [List.length_append] at hskip
    have hcat : kept ++ (f ++ rest) ++ tail = kept ++ f ++ (rest ++ tail) := by simp
    rw [if_pos hle, hcat, hskip, moveUp_done _ _ _ _ _ (by omega)]
    -- the loop has come behind the NFCEEs
    have hgt : ¬kept.length + f.length + rest.length ≤ last := by omega
    split <;> simp [hgt]
  · rw [if_neg hle]

theorem moveUp_move {last fuel : Nat} {kept f g r tail : List (RestoreEcb ρ)} {a x : RestoreEcb ρ}
    (hg : ∀ b ∈ g, b.isFree = true) (hx : x.isFree = false)
    (hlen : kept.length + (f.length + 1) + (g.length + (r.length + 1)) = last + 1)
    (hnum : kept.length + (f.length + 1) + (g.length + (r.length + 1)) ≤ nfaEeNumEcbs) :
    moveUp last (fuel + 1) (kept ++ (a :: f ++ (g ++ x :: r)) ++ tail) kept.length
        (kept.length + (f.length + 1))
      = moveUp last fuel (kept ++ [x] ++ (f ++ g ++ [x.free] ++ r) ++ tail) (kept ++ [x]).length
          ((kept ++ [x]).length + (f ++ g ++ [x.free]).length) := by
  have hskip := skipFree_eq last g (kept ++ (a :: f)) (x :: (r ++ tail)) nfaEeNumEcbs hg
    (by omega) (by rw [List.length_append, List.length_cons]; omega) (.inr (by simpa using hx))
  rw [List.length_append, List.length_cons] at hskip
  have hcat : kept ++ (a :: f ++ (g ++ x :: r)) ++ tail
      = kept ++ (a :: f) ++ (g ++ x :: (r ++ tail)) := by simp
  have hget : (kept ++ (a :: f) ++ (g ++ x :: (r ++ tail)))[kept.length + (f.length + 1)
      + g.length]? = some x := by
    rw [← List.length_cons (a := a), ← List.length_append, List.getElem?_append_right (by simp)]
    simp
  have hcat' : kept ++ (a :: f) ++ (g ++ x :: (r ++ tail))
      = kept ++ (a :: (f ++ g) ++ x :: (r ++ tail)) := by simp
  have hpos : kept.length + (f.length + 1) + g.length
      = kept.length + ((f ++ g).length + 1) := by
    simp
    omega
  have hle : kept.length + ((f ++ g).length + 1) ≤ last := by
    rw [← hpos]
    omega
  have hcat₂ : kept ++ [x] ++ (f ++ g ++ [x.free]) ++ (r ++ tail)
      = kept ++ [x] ++ (f ++ g ++ [x.free] ++ r) ++ tail := by simp
  have hp : (kept ++ [x]).length = kept.length + 1 := by simp
  have hpn : (kept ++ [x]).length + (f ++ g ++ [x.free]).length
      = kept.length + ((f ++ g).length + 1) + 1 := by
    simp
    omega
  rw [moveUp, if_pos (by omega), hcat, hskip]
  simp only [hget]
  rw [hpos, hcat', if_pos hle, set_set_move, hcat₂, hpn, hp]

/-- **The blocks in use are moved up.** The table is, before the loop, the blocks that
    stay, the free ones behind them, the blocks not yet seen and what lies behind the
    NFCEEs; after it the blocks in use stand together in their order. If there was one to
    move, the last one moved has left a copy of itself that is free. -/
theorem moveUp_eq (last : Nat) (tail : List (RestoreEcb ρ)) :
    ∀ (fuel : Nat) (rest kept f : List (RestoreEcb ρ)), rest.length ≤ fuel → f ≠ [] →
      (∀ b ∈ f, b.isFree = true) → kept.length + f.length + rest.length = last + 1 →
      kept.length + f.length + rest.length ≤ nfaEeNumEcbs →
      ∃ f', moveUp last fuel (kept ++ (f ++ rest) ++ tail) kept.length (kept.length + f.length)
          = kept ++ (rest.filter fun b => !b.isFree) ++ f' ++ tail ∧
        ((rest.filter fun b => !b.isFree) = [] → f' = f ++ rest) ∧
        ∀ x ∈ (rest.filter fun b => !b.isFree).getLast?, x.free ∈ f' := by
  intro fuel
  induction fuel with
  | zero =>
    intro rest kept f hfuel _ _ _ _
    obtain rfl := List.length_eq_zero_iff.1 (by omega : rest.length = 0)
    exact ⟨f, by simp [moveUp], by simp, by simp⟩
  | succ fuel ih =>
    intro rest kept f hfuel hne hfree hlen hnum
    -- the blocks that the inner loop passes, and the one it stops at
    set g := rest.takeWhile RestoreEcb.isFree with hg
    have hsplit : rest = g ++ rest.dropWhile RestoreEcb.isFree :=
      (List.takeWhile_append_dropWhile ..).symm
    have hgfree : ∀ b ∈ g, b.isFree = true := fun b hb => List.mem_takeWhile_imp hb
    have hnil : (g.filter fun b => !b.isFree) = [] := by
      apply List.filter_eq_nil_iff.2
      intro b hb
      simp [hgfree b hb]
    cases hd : rest.dropWhile RestoreEcb.isFree with
    | nil =>
      rw [hd, List.append_nil] at hsplit
      rw [← hsplit] at hnil hgfree
      refine ⟨f ++ rest, ?_, fun _ => rfl, by simp [hnil]⟩
      rw [moveUp_free hgfree hlen hnum, hnil, List.append_nil]
    | cons x r =>
      rw [hd] at hsplit
      have hx : x.isFree = false := by
        have := List.head?_dropWhile_not RestoreEcb.isFree rest
        rw [hd] at this
        simpa using this
      have hrlen : rest.length = g.length + (r.length + 1) := by
        rw [hsplit]
        simp
      obtain ⟨a, f₁, rfl⟩ := List.exists_cons_of_ne_nil hne
      rw [List.length_cons] at hlen hnum
      have hfilter : (rest.filter fun b => !b.isFree) = x :: r.filter fun b => !b.isFree := by
        rw [hsplit, List.filter_append, hnil, List.nil_append, List.filter_cons_of_pos (by simp [hx])]
      obtain ⟨f', heq, hsame, hlast⟩ := ih r (kept ++ [x]) (f₁ ++ g ++ [x.free]) (by omega) (by simp)
        (by
          intro b hb
          rcases List.mem_append.1 hb with hb | hb
          · rcases List.mem_append.1 hb with hb | hb
            · exact hfree b (by simp [hb])
            · exact hgfree b hb
          · simp [List.mem_singleton.1 hb])
        (by simp at hlen ⊢; omega) (by simp at hnum ⊢; omega)
      refine ⟨f', ?_, by simp [hfilter], ?_⟩
      · rw [hsplit, List.length_cons, moveUp_move hgfree hx (by omega) (by omega), heq, ← hsplit, hfilter]
        simp
      · rw [hfilter]
        intro y hy
        cases hr : r.filter fun b => !b.isFree with
        | nil =>
          rw [hr] at hy
          obtain rfl : x = y := by simpa using hy
          simp [hsame hr]
        | cons z zs =>
          rw [hr] at hy hlast
          rw [List.getLast?_cons_cons] at hy
          exact hlast y hy

/-! ## The whole removal -/

variable {xs : List (RestoreEcb ρ)}

theorem filter_marked (h : ∀ b ∈ xs, b.isFree = false) :
    (xs.map RestoreEcb.marked).filter (fun b => !b.isFree) = xs.filter fun b => !b.pending := by
  induction xs with
  | nil => rfl
  | cons b xs ih =>
    have hrec := ih fun x hx => h x (by simp [hx])
    have hb := RestoreEcb.isFree_marked (h b (by simp))
    cases hp : b.pending with
    | true => simp [hb, hp, hrec]
    | false => simp [RestoreEcb.marked_of_not hp, h b (by simp), hp, hrec]

theorem map_marked_of_not (h : ∀ b ∈ xs, b.pending = false) :
    xs.map RestoreEcb.marked = xs := by
  conv_rhs => rw [← List.map_id xs]
  exact List.map_congr_left fun b hb => RestoreEcb.marked_of_not (h b hb)

variable {s : EcbTable ρ}

theorem EcbTable.Ok.nfcees_length (h : s.Ok) : s.nfcees.length = s.curEe := by
  have hle : s.curEe ≤ s.ecb.length := by
    rw [h.length]
    exact Nat.le_trans h.curEe (by decide)
  simp [EcbTable.nfcees, hle]

theorem EcbTable.Ok.markRemoved_eq (h : s.Ok) :
    s.markRemoved = ⟨s.nfcees.map RestoreEcb.marked ++ s.ecb.drop s.curEe,
      s.nfcees.countP RestoreEcb.pending,
      if s.nfcees.any RestoreEcb.pending then s.nfcees.findIdx RestoreEcb.pending
      else nfaEeMaxEeSupported⟩ := by
  have hcur : s.curEe ≤ nfaEeNumEcbs := Nat.le_trans h.curEe (by decide)
  have hfold := foldl_turn s.nfcees (s.ecb.drop s.curEe) (by rw [h.nfcees_length]; exact h.curEe)
  rw [h.nfcees_length] at hfold
  rw [EcbTable.markRemoved, Nat.min_eq_left hcur, ← hfold, EcbTable.nfcees, List.take_append_drop]

theorem exists_first_pending (h : xs.any RestoreEcb.pending = true) :
    ∃ ys b zs, xs = ys ++ b :: zs ∧ (∀ y ∈ ys, y.pending = false) ∧ b.pending = true := by
  obtain ⟨b, hb⟩ := Option.isSome_iff_exists.1 (List.find?_isSome.2 (List.any_eq_true.1 h))
  obtain ⟨hp, ys, zs, hxs, hys⟩ := List.find?_eq_some_iff_append.1 hb
  exact ⟨ys, b, zs, hxs, fun y hy => by simpa using hys y hy, hp⟩

theorem pendingLast_iff {ys zs : List (RestoreEcb ρ)}
    (hs : s.nfcees = ys ++ b :: zs) (hys : ∀ y ∈ ys, y.pending = false) (hb : b.pending = true) :
    s.PendingLast ↔ ∀ z ∈ zs, z.pending = true := by
  rw [EcbTable.PendingLast, hs, List.pairwise_append, List.pairwise_cons]
  constructor
  · rintro ⟨-, ⟨hall, -⟩, -⟩ z hz
    exact hall z hz hb
  · intro hall
    refine ⟨?_, ⟨fun z hz _ => hall z hz, ?_⟩, ?_⟩
    · exact List.Pairwise.imp_mem.2 (List.pairwise_of_forall fun y z hy _ hyp => by
        simp [hys y hy] at hyp)
    · exact List.Pairwise.imp_mem.2 (List.pairwise_of_forall fun y z _ hz _ => hall z hz)
    · intro y hy z _ hyp
      simp [hys y hy] at hyp

structure EcbTable.Removed (s t : EcbTable ρ) : Prop where
  curEe : t.curEe = s.remaining.length
  eeCfged : t.eeCfged = s.eeCfged
  still : s.PendingLast → t.ecb = s.nfcees.map RestoreEcb.marked ++ s.ecb.drop s.curEe
  moved : ∃ free, t.ecb = s.remaining ++ free ++ s.ecb.drop s.curEe ∧
    (¬s.PendingLast → ∃ x ∈ s.remaining, x.free ∈ free)

theorem EcbTable.Ok.removed (h : s.Ok) : s.Removed s.removePending := by
  have hmark := h.markRemoved_eq
  have hlen := h.nfcees_length
  have hecbs : s.curEe ≤ nfaEeNumEcbs := Nat.le_trans h.curEe (by decide)
  have hsub : s.curEe - s.nfcees.countP RestoreEcb.pending = s.remaining.length := by
    have hsum := List.length_eq_countP_add_countP RestoreEcb.pending (l := s.nfcees)
    have hrem : s.remaining.length = s.nfcees.countP fun b => decide ¬b.pending = true := by
      simp [EcbTable.remaining, List.countP_eq_length_filter]
    omega
  by_cases hany : s.nfcees.any RestoreEcb.pending = true
  · obtain ⟨ys, b, zs, hs, hys, hb⟩ := exists_first_pending hany
    have hused : ∀ z ∈ b :: zs, z.isFree = false := fun z hz => h.used z (by
      rw [← EcbTable.nfcees, hs]
      exact List.mem_append_right _ hz)
    have hrem : s.remaining = ys ++ zs.filter fun b => !b.pending := by
      have hyf : (ys.filter fun b => !b.pending) = ys :=
        List.filter_eq_self.2 fun y hy => by simp [hys y hy]
      simp [EcbTable.remaining, hs, List.filter_append, hyf, hb]
    have hrem_ys : ys.map RestoreEcb.marked = ys := map_marked_of_not hys
    have hnum : s.nfcees.countP RestoreEcb.pending ≠ 0 := by
      simp [hs, hb]
    have hfirst : s.nfcees.findIdx RestoreEcb.pending = ys.length := by
      rw [hs, List.findIdx_append]
      have : ¬ys.findIdx RestoreEcb.pending < ys.length := by
        rw [List.findIdx_lt_length]
        rintro ⟨y, hy, hyp⟩
        simp [hys y hy] at hyp
      simp [this, List.findIdx_cons, hb]
    rw [if_pos hany, hfirst] at hmark
    have hcur : s.curEe = ys.length + (zs.length + 1) := by
      rw [← hlen, hs]
      simp
    have hmap : s.nfcees.map RestoreEcb.marked = ys ++ ([b.free] ++ zs.map RestoreEcb.marked) := by
      rw [hs, List.map_append, hrem_ys, List.map_cons, RestoreEcb.marked_of_pending hb]
      rfl
    have hlast := pendingLast_iff hs hys hb
    by_cases hall : ∀ z ∈ zs, z.pending = true
    · -- only blocks at the end are freed: nothing is moved
      have hnil : (zs.filter fun b => !b.pending) = [] :=
        List.filter_eq_nil_iff.2 fun z hz => by simp [hall z hz]
      rw [hnil, List.append_nil] at hrem
      have hecb : s.removePending.ecb = s.nfcees.map RestoreEcb.marked ++ s.ecb.drop s.curEe := by
        simp only [EcbTable.removePending, hmark]
        rw [if_neg]
        rintro ⟨-, hne⟩
        exact hne (by rw [hsub, hrem])
      refine ⟨?_, rfl, fun _ => hecb, [b.free] ++ zs.map RestoreEcb.marked, ?_, fun hno => ?_⟩
      · simp only [EcbTable.removePending, hmark, hsub]
      · rw [hecb, hmap, hrem, ← List.append_assoc]
      · exact absurd (hlast.2 hall) hno
    · have hfilter := filter_marked fun z hz => hused z (List.mem_cons_of_mem b hz)
      have hne : (zs.filter fun b => !b.pending) ≠ [] := by
        intro hnil
        apply hall
        intro z hz
        simpa using List.filter_eq_nil_iff.1 hnil z hz
      obtain ⟨free, heq, -, hfree⟩ := moveUp_eq (s.curEe - 1) (s.ecb.drop s.curEe) nfaEeNumEcbs
        (zs.map RestoreEcb.marked) ys [b.free] (by simp; omega) (by simp) (by simp)
        (by simp; omega) (by simp; omega)
      rw [hfilter] at heq hfree
      have hecb : s.removePending.ecb
          = ys ++ (zs.filter fun b => !b.pending) ++ free ++ s.ecb.drop s.curEe := by
        simp only [EcbTable.removePending, hmark, hmap]
        rw [if_pos]
        · exact heq
        · refine ⟨hnum, ?_⟩
          rw [hsub, hrem, List.length_append]
          have := List.length_pos_iff.2 hne
          omega
      refine ⟨?_, rfl, fun hyes => absurd (hlast.1 hyes) hall, free, ?_, fun _ => ?_⟩
      · simp only [EcbTable.removePending, hmark, hsub]
      · rw [hecb, hrem]
      · refine ⟨_, ?_, hfree _ (List.getLast?_eq_some_getLast hne)⟩
        rw [hrem]
        exact List.mem_append_right _ (List.getLast_mem hne)
  · -- no block is marked
    have hnone : ∀ z ∈ s.nfcees, z.pending = false := by
      simpa using hany
    have hrem : s.remaining = s.nfcees :=
      List.filter_eq_self.2 fun z hz => by simp [hnone z hz]
    have hnum : s.nfcees.countP RestoreEcb.pending = 0 :=
      List.countP_eq_zero.2 fun z hz => by simp [hnone z hz]
    have hecb : s.removePending.ecb = s.nfcees.map RestoreEcb.marked ++ s.ecb.drop s.curEe := by
      simp [EcbTable.removePending, hmark, hnum]
    refine ⟨?_, rfl, fun _ => hecb, [], ?_, fun hno => ?_⟩
    · simp only [EcbTable.removePending, hmark, hsub]
    · rw [hecb, hrem, map_marked_of_not hnone, List.append_nil]
    · apply absurd _ hno
      exact List.Pairwise.imp_mem.2 (List.pairwise_of_forall fun y z hy _ hyp => by
        simp [hnone y hy] at hyp)

variable {t : EcbTable ρ}

theorem EcbTable.Removed.take_remove (h : s.Removed t) : t.nfcees = s.remaining := by
  obtain ⟨free, hecb, -⟩ := h.moved
  rw [EcbTable.nfcees, hecb, h.curEe, List.append_assoc]
  exact List.take_left

theorem EcbTable.Removed.shared_of_moved (h : s.Removed t) (hm : ¬s.PendingLast) :
    ¬t.ecb.Pairwise fun a b => a.bufs.Apart b.bufs := by
  intro hap
  obtain ⟨free, hecb, hshared⟩ := h.moved
  obtain ⟨x, hx, hfree⟩ := hshared hm
  rw [hecb, List.append_assoc] at hap
  have hxx := (List.pairwise_append.1 hap).2.2 x hx x.free (List.mem_append_left _ hfree)
  exact hxx x.bufs.aidLen (by simp [AidBufs.all]) (by simp [AidBufs.all])

theorem EcbTable.Removed.apart_of_still (h : s.Removed t) (hs : s.Ok)
    (hl : s.PendingLast) : t.ecb.Pairwise fun a b => a.bufs.Apart b.bufs := by
  have hap := hs.apart
  rw [← List.take_append_drop s.curEe s.ecb, ← EcbTable.nfcees] at hap
  obtain ⟨hleft, hright, hboth⟩ := List.pairwise_append.1 hap
  rw [h.still hl]
  refine List.pairwise_append.2 ⟨?_, hright, ?_⟩
  · rw [List.pairwise_map]
    simpa using hleft
  · intro a ha b hb
    obtain ⟨a', ha', rfl⟩ := List.mem_map.1 ha
    simpa using hboth a' ha' b hb

theorem EcbTable.Removed.getElem?_of_still (h : s.Removed t) (hs : s.Ok)
    (hl : s.PendingLast) {k : Nat} (hk : k < s.curEe) :
    t.ecb[k]? = s.ecb[k]?.map RestoreEcb.marked := by
  have hlen := hs.nfcees_length
  rw [h.still hl, List.getElem?_append_left (by simp [hlen, hk]), List.getElem?_map,
    EcbTable.nfcees, List.getElem?_take_of_lt hk]

theorem EcbTable.mem_nfcees {k : Nat} (hk : k < s.curEe)
    (hb : s.ecb[k]? = some b) : b ∈ s.nfcees := by
  apply List.mem_of_getElem? (i := k)
  rw [EcbTable.nfcees, List.getElem?_take_of_lt hk, hb]

/-- **Where the table stays intact.** The bits and the buffers stay with their NFCEEs
    exactly when nothing has to be moved and no NFCEE that is removed was configured. -/
theorem remove_intact (s : EcbTable ρ) (hs : s.Ok) :
    s.Intact s.removePending ↔ s.PendingLast ∧ s.PendingUncfged := by
  have h := hs.removed
  constructor
  · intro hi
    have hl : s.PendingLast := by
      by_contra hm
      exact h.shared_of_moved hm hi.apart
    refine ⟨hl, fun k hk b hb hp => ?_⟩
    by_contra hbit
    -- the bit of the marked block refers to a free one
    have hfree : s.removePending.Cfged s.curEe nfaEeInvalid := by
      refine ⟨k, hk, b.free, ?_, by rwa [h.eeCfged], rfl⟩
      rw [h.getElem?_of_still hs hl hk, hb, Option.map_some, RestoreEcb.marked_of_pending hp]
    obtain ⟨-, c, hc, hid⟩ := (hi.cfged _).1 hfree
    have hused := hs.used c (List.mem_of_mem_filter hc)
    simp [RestoreEcb.isFree, hid] at hused
  · rintro ⟨hl, hu⟩
    refine ⟨h.take_remove, fun id => ?_, h.apart_of_still hs hl⟩
    have hkeep : ∀ k < s.curEe, ∀ b, s.ecb[k]? = some b → s.eeCfged &&& positionMask k ≠ 0 →
        b.pending = false := fun k hk b hb hbit =>
      Bool.eq_false_iff.2 fun hp => hbit (hu k hk b hb hp)
    constructor
    · rintro ⟨k, hk, b', hb', hbit, rfl⟩
      rw [h.getElem?_of_still hs hl hk] at hb'
      obtain ⟨b, hb, rfl⟩ := Option.map_eq_some_iff.1 hb'
      rw [h.eeCfged] at hbit
      have hp := hkeep k hk b hb hbit
      rw [RestoreEcb.marked_of_not hp]
      refine ⟨⟨k, hk, b, hb, hbit, rfl⟩, b, ?_, rfl⟩
      exact List.mem_filter.2 ⟨EcbTable.mem_nfcees hk hb, by simp [hp]⟩
    · rintro ⟨⟨k, hk, b, hb, hbit, rfl⟩, -⟩
      refine ⟨k, hk, b, ?_, by rwa [h.eeCfged], rfl⟩
      rw [h.getElem?_of_still hs hl hk, hb, Option.map_some,
        RestoreEcb.marked_of_not (hkeep k hk b hb hbit)]

/-- A table of NFCEEs 1, 2 and 3, of which one is marked. -/
def threeNfcees (marked : Nat) (eeCfged : UInt8) : EcbTable Unit where
  ecb := (List.range nfaEeNumEcbs).map fun k =>
    { nfceeId := if k < 3 then UInt8.ofNat (k + 1) else if k = 7 then nfcDhId else nfaEeInvalid
      eeStatus := if k = marked then nfaEeStatusRestoring else statusActive
      bufs := ⟨5 * k, 5 * k + 1, 5 * k + 2, 5 * k + 3, 5 * k + 4⟩
      rest := () }
  curEe := 3
  eeCfged := eeCfged

theorem threeNfcees_ok (marked : Nat) (eeCfged : UInt8) : (threeNfcees marked eeCfged).Ok where
  length := by simp [threeNfcees]
  curEe := Nat.le_of_ble_eq_true rfl
  used := by
    intro b hb
    simp [threeNfcees, List.range_succ] at hb
    rcases hb with rfl | rfl | rfl <;> rfl
  apart := by
    simp only [threeNfcees, List.pairwise_map]
    apply List.pairwise_lt_range.imp
    intro a b hab p hp hq
    simp [AidBufs.all] at hp hq
    omega

/-- The third NFCEE does not come back; the first two were configured. -/
theorem remove_intact_last : (threeNfcees 2 3).Intact (threeNfcees 2 3).removePending := by
  apply (remove_intact _ (threeNfcees_ok 2 3)).2
  constructor
  · unfold EcbTable.PendingLast
    decide
  · intro k hk b hb hp
    have hk' : k < 3 := hk
    interval_cases k <;> simp [threeNfcees] at hb <;> subst hb <;> revert hp <;> decide

/-- The first NFCEE does not come back: the block that the third was in keeps its buffers. -/
theorem buffers_shared_after_move :
    (threeNfcees 0 0).Ok ∧ ¬(threeNfcees 0 0).Intact (threeNfcees 0 0).removePending := by
  refine ⟨threeNfcees_ok 0 0, fun h => ?_⟩
  have hap := h.apart
  revert hap
  decide

end NfcStack.Nfa
