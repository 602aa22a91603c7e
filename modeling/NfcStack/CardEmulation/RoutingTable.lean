import NfcStack.Nfa.EeLmrt

/- The routing table as it is read back from the last commands to the controller
   (`RoutingTableParser.java`). The table is the bytes of the commands: an entry is a
   byte of qualifier and type, a length, and that many bytes, of which the first two are the
   route and the power states.

   What is proved:
     1. `parse_returns`: the parser ends, without an exception unless it comes to an entry that
        has no room for its first two bytes.
     2. `parse_encoded`: well-formed entries are listed one by one, and
        `routingTable_encoded`: those of the native table are well formed.
     3. `getCommitStatus_iff`: a query is answered, and rightly, exactly if the first entry that
        matches it has the bytes of the query. -/
namespace NfcStack.CardEmulation.RoutingTable
open NfcStack.Nfa (Bytes)

/-! ## The code -/

inductive JavaException where
  | arrayIndexOutOfBounds
  | negativeArraySize
  deriving DecidableEq, Repr

def typeTechnology : UInt8 := 0
def typeProtocol : UInt8 := 1
def typeAid : UInt8 := 2
def typeSystemCode : UInt8 := 3
def typeUnsupported : UInt8 := 4

inductive Stats where
  | hostOk
  | offhostOk
  | notFound
  deriving DecidableEq, Repr

structure RoutingEntryInfo where
  qualifier : UInt8
  type : UInt8
  nfceeId : UInt8
  powerState : UInt8
  entry : Bytes
  deriving DecidableEq, Repr

def wrap (n : Int) : Int := (n + 2147483648) % 4294967296 - 2147483648

def getAt (a : Bytes) (i : Int) : Except JavaException UInt8 :=
  if 0 ≤ i ∧ i < a.length then .ok (a.getD i.toNat 0) else .error .arrayIndexOutOfBounds

def validateEntryInfo (type : UInt8) (entry : Bytes) : Bool :=
  if type = typeTechnology then entry.length = 1
  else if type = typeProtocol then entry.length = 1
  else if type = typeAid then entry.length ≤ 16
  else if type = typeSystemCode then entry.length = 2
  else false

/-- The loop `while (entry[ptr] == mEntry[ptr])`, from where both lists start. -/
def ptrLoop : Bytes → Bytes → Except JavaException Nat
  | [], _ => .error .arrayIndexOutOfBounds
  | _ :: _, [] => .error .arrayIndexOutOfBounds
  | a :: as, b :: bs => if a = b then (ptrLoop as bs).map (· + 1) else .ok 0

def statusOf (info : RoutingEntryInfo) : Stats := if info.nfceeId = 0x00 then .hostOk else .offhostOk

/-- Whether the prefix or the subset part of the loop returns. -/
def comparePart (applies : Bool) (entry mEntry : Bytes) (full : Nat) : Except JavaException Bool :=
  if applies then (ptrLoop entry mEntry).map fun ptr => decide (ptr = full) else .ok false

def statusLoop (type : UInt8) (entry : Bytes) : List RoutingEntryInfo → Except JavaException Stats
  | [] => .ok .notFound
  | info :: rest =>
    if info.type ≠ type then statusLoop type entry rest
    else if info.entry = entry then .ok (statusOf info)
    else if info.type ≠ typeAid then statusLoop type entry rest
    else do
      let prefixFound ← comparePart (decide (info.qualifier &&& 0x10 ≠ 0) && decide (entry.length > info.entry.length))
        entry info.entry info.entry.length
      if prefixFound then return statusOf info
      let subsetFound ← comparePart (decide (info.qualifier &&& 0x20 ≠ 0) && decide (entry.length < info.entry.length))
        entry info.entry entry.length
      if subsetFound then return statusOf info
      statusLoop type entry rest

def getCommitStatus (table : List RoutingEntryInfo) (type : UInt8) (entry : Bytes) : Except JavaException Stats :=
  if validateEntryInfo type entry then statusLoop type entry table else .ok .notFound

/-- The system codes of an entry, two bytes each. -/
def pairs : Bytes → List Bytes
  | a :: b :: rest => [a, b] :: pairs rest
  | _ => []

/-- The entries that the bytes of one entry add to the table. -/
def added (head eeId pwrState : UInt8) (entry : Bytes) : List RoutingEntryInfo :=
  if head &&& 0x0F = typeSystemCode ∧ entry.length % 2 = 0 ∧ entry.length ≤ 64 then
    (pairs entry).map fun scEntry => ⟨head &&& 0xF0, head &&& 0x0F, eeId, pwrState, scEntry⟩
  else if validateEntryInfo (head &&& 0x0F) entry then [⟨head &&& 0xF0, head &&& 0x0F, eeId, pwrState, entry⟩]
  else []

/-- The loop over `entry`, from its `i`th byte on. -/
def readEntry (rt : Bytes) (offset : Int) : Nat → Nat → Except JavaException Bytes
  | _, 0 => .ok []
  | i, n + 1 =>
    match getAt rt (wrap (offset + 4 + (i : Int))) with
    | .error e => .error e
    | .ok b => (readEntry rt offset (i + 1) n).map (b :: ·)

/-- `addRoutingEntry` behind the checks of the length, with `new byte[valueLength - 2]` between
the fixed bytes and the loop. -/
def readTlv (rt : Bytes) (offset : Int) (valueLength : Nat) : Except JavaException (List RoutingEntryInfo) :=
  match getAt rt offset, getAt rt (wrap (offset + 2)), getAt rt (wrap (offset + 3)) with
  | .ok head, .ok eeId, .ok pwrState =>
    if valueLength < 2 then .error .negativeArraySize
    else (readEntry rt offset 0 (valueLength - 2)).map fun entry => added head eeId pwrState entry
  | _, _, _ => .error .arrayIndexOutOfBounds

def addRoutingEntry (table : List RoutingEntryInfo) (rt : Bytes) (offset : Int) :
    Except JavaException (List RoutingEntryInfo) :=
  if wrap (offset + 1) ≥ rt.length then .ok table
  else
    match getAt rt (wrap (offset + 1)) with
    | .error e => .error e
    | .ok valueLength =>
      if wrap (offset + 2 + (valueLength.toNat : Int)) > rt.length then .ok table
      else (readTlv rt offset valueLength.toNat).map (table ++ ·)

/-- The loop of `parse`; `none` if it does not end within the steps. -/
def parseLoop (rt : Bytes) : Nat → Int → List RoutingEntryInfo → Option (Except JavaException (List RoutingEntryInfo))
  | 0, _, _ => none
  | fuel + 1, offset, table =>
    if offset < rt.length then
      match getAt rt offset with
      | .error e => some (.error e)
      | .ok head =>
        if head &&& 0x0F ≥ typeUnsupported then some (.ok table)
        else if wrap (offset + 1) ≥ rt.length then some (.ok table)
        else
          match getAt rt (wrap (offset + 1)) with
          | .error e => some (.error e)
          | .ok len =>
            match addRoutingEntry table rt offset with
            | .error e => some (.error e)
            | .ok table' => parseLoop rt fuel (wrap (offset + (len.toNat + 2))) table'
    else some (.ok table)

/-- `parse`. A step passes over two bytes at least. -/
def parse (rt : Bytes) : Option (Except JavaException (List RoutingEntryInfo)) := parseLoop rt (rt.length + 1) 0 []

/-! ## Reading -/

theorem wrap_eq {n : Int} (hlo : -2147483648 ≤ n) (hhi : n < 2147483648) : wrap n = n := by
  unfold wrap
  omega

theorem getAt_wrap {a : Bytes} (ha : a.length < 2147483648) {i : Nat} (hi : i < 4294967296) :
    getAt a (wrap i) = (a[i]?).elim (.error .arrayIndexOutOfBounds) .ok := by
  rcases Nat.lt_or_ge i a.length with hlt | hge
  · have hin : 0 ≤ (i : Int) ∧ (i : Int) < a.length := by omega
    rw [wrap_eq (by omega) (by omega), getAt, if_pos hin, List.getElem?_eq_getElem hlt, Int.toNat_natCast,
      List.getD_eq_getElem _ _ hlt]
    rfl
  · have hout : ¬ (0 ≤ wrap i ∧ wrap i < a.length) := by
      unfold wrap
      omega
    rw [getAt, if_neg hout, List.getElem?_eq_none hge]
    rfl

theorem getAt_nat {a : Bytes} (i : Nat) : getAt a i = (a[i]?).elim (.error .arrayIndexOutOfBounds) .ok := by
  rcases Nat.lt_or_ge i a.length with hlt | hge
  · have hin : 0 ≤ (i : Int) ∧ (i : Int) < a.length := by omega
    rw [getAt, if_pos hin, List.getElem?_eq_getElem hlt, Int.toNat_natCast, List.getD_eq_getElem _ _ hlt]
    rfl
  · have hout : ¬ (0 ≤ (i : Int) ∧ (i : Int) < a.length) := by omega
    rw [getAt, if_neg hout, List.getElem?_eq_none hge]
    rfl

section Tlv
variable {rt : Bytes} {o : Nat}

theorem readEntry_ok_iff (hrt : rt.length < 2147483648) {i n : Nat} (hsmall : o + 4 + i + n < 4294967296)
    (hstart : o + 4 + i ≤ rt.length) (bs : Bytes) :
    readEntry rt o i n = .ok bs ↔ o + 4 + i + n ≤ rt.length ∧ bs = (rt.drop (o + 4 + i)).take n := by
  induction n generalizing i bs with
  | zero =>
    simp only [readEntry, Except.ok.injEq, Nat.add_zero, hstart, List.take_zero, true_and]
    exact eq_comm
  | succ n ih =>
    have hidx : (o : Int) + 4 + (i : Int) = ((o + 4 + i : Nat) : Int) := by omega
    rw [readEntry, hidx, getAt_wrap hrt (by omega)]
    rcases Nat.lt_or_ge (o + 4 + i) rt.length with hlt | hge
    · rw [List.getElem?_eq_getElem hlt, Option.elim_some, List.drop_eq_getElem_cons hlt, List.take_succ_cons]
      have hrest := ih (i := i + 1) (by omega) (by omega)
      simp only [show o + 4 + (i + 1) = o + 4 + i + 1 by omega] at hrest
      cases hread : readEntry rt o (i + 1) n with
      | error e =>
        have hnot : ¬ o + 4 + i + 1 + n ≤ rt.length := fun hle =>
          absurd ((hrest _).mpr ⟨hle, rfl⟩) (by simp [hread])
        simp only [Except.map, reduceCtorEq, false_iff, not_and]
        intro hle
        omega
      | ok cs =>
        obtain ⟨hle, rfl⟩ := (hrest cs).mp hread
        simp only [Except.map, Except.ok.injEq]
        constructor
        · rintro rfl
          exact ⟨by omega, rfl⟩
        · rintro ⟨-, rfl⟩
          rfl
    · rw [List.getElem?_eq_none hge, Option.elim_none]
      simp only [reduceCtorEq, false_iff, not_and]
      intro hle
      omega

theorem readTlv_ok_iff (hrt : rt.length < 2147483648) {n : Nat} (hn : n < 256) (ho : o + 1 < rt.length)
    (es : List RoutingEntryInfo) :
    readTlv rt o n = .ok es ↔ (2 ≤ n ∧ o + 2 + n ≤ rt.length) ∧
      es = added (rt.getD o 0) (rt.getD (o + 2) 0) (rt.getD (o + 3) 0) ((rt.drop (o + 4)).take (n - 2)) := by
  have h2 : (o : Int) + 2 = ((o + 2 : Nat) : Int) := by omega
  have h3 : (o : Int) + 3 = ((o + 3 : Nat) : Int) := by omega
  rw [readTlv, getAt_nat, h2, getAt_wrap hrt (by omega), h3, getAt_wrap hrt (by omega),
    List.getElem?_eq_getElem (show o < rt.length by omega), Option.elim_some]
  rcases Nat.lt_or_ge (o + 3) rt.length with hlt | hge
  · rw [List.getElem?_eq_getElem hlt, List.getElem?_eq_getElem (show o + 2 < rt.length by omega), Option.elim_some,
      Option.elim_some, List.getD_eq_getElem _ _ hlt, List.getD_eq_getElem _ _ (show o + 2 < rt.length by omega),
      List.getD_eq_getElem _ _ (show o < rt.length by omega)]
    dsimp only
    rcases Nat.lt_or_ge n 2 with hsize | hsize
    · rw [if_pos hsize]
      simp only [reduceCtorEq, false_iff]
      omega
    · rw [if_neg (by omega)]
      have hrest := readEntry_ok_iff (o := o) (i := 0) (n := n - 2) hrt (by omega) (by omega)
      simp only [Nat.add_zero] at hrest
      cases hread : readEntry rt o 0 (n - 2) with
      | error e =>
        have hnot : ¬ o + 4 + (n - 2) ≤ rt.length := fun hle =>
          absurd ((hrest _).mpr ⟨hle, rfl⟩) (by simp [hread])
        simp only [Except.map, reduceCtorEq, false_iff, not_and]
        intro hle
        omega
      | ok bs =>
        obtain ⟨hle, rfl⟩ := (hrest bs).mp hread
        have hin : 2 ≤ n ∧ o + 2 + n ≤ rt.length := by omega
        simp only [Except.map, Except.ok.injEq, hin, true_and, and_self]
        exact eq_comm
  · have hout : ¬ (2 ≤ n ∧ o + 2 + n ≤ rt.length) := by omega
    rw [List.getElem?_eq_none hge]
    cases hcell : rt[o + 2]? <;> simp [hout]

theorem addRoutingEntry_eq (hrt : rt.length < 2147483648) {len : UInt8} (hlen : rt[o + 1]? = some len)
    (table table' : List RoutingEntryInfo) :
    addRoutingEntry table rt o = .ok table' ↔
      o + 2 + len.toNat < 2147483648 ∧
        if o + 2 + len.toNat ≤ rt.length then
          2 ≤ len.toNat ∧ table' = table ++ added (rt.getD o 0) (rt.getD (o + 2) 0) (rt.getD (o + 3) 0)
            ((rt.drop (o + 4)).take (len.toNat - 2))
        else table' = table := by
  obtain ⟨hlt, -⟩ := List.getElem?_eq_some_iff.mp hlen
  have hbyte : len.toNat < 256 := len.toNat_lt
  have h1 : (o : Int) + 1 = ((o + 1 : Nat) : Int) := by omega
  have hend : (o : Int) + 2 + (len.toNat : Int) = ((o + 2 + len.toNat : Nat) : Int) := by omega
  have hfirst : ¬ wrap ((o + 1 : Nat) : Int) ≥ rt.length := by
    rw [wrap_eq (by omega) (by omega)]
    omega
  rw [addRoutingEntry, h1, if_neg hfirst, getAt_wrap hrt (by omega), hlen, Option.elim_some]
  dsimp only
  rw [hend]
  have hread := readTlv_ok_iff hrt hbyte hlt
  split
  case isTrue hlong =>
    have hsmall : o + 2 + len.toNat < 2147483648 := by
      by_contra hc
      unfold wrap at hlong
      omega
    have hpast : ¬ o + 2 + len.toNat ≤ rt.length := by
      rw [wrap_eq (by omega) (by omega)] at hlong
      omega
    rw [if_neg hpast]
    simp only [Except.ok.injEq, hsmall, true_and]
    exact eq_comm
  case isFalse hshort =>
    cases hes : readTlv rt o len.toNat with
    | error e =>
      have hnot : ¬ (2 ≤ len.toNat ∧ o + 2 + len.toNat ≤ rt.length) := fun hc =>
        absurd ((hread _).mpr ⟨hc, rfl⟩) (by simp [hes])
      simp only [Except.map, reduceCtorEq, false_iff]
      rintro ⟨hsmall, hcase⟩
      rw [wrap_eq (by omega) (by omega)] at hshort
      rw [if_pos (by omega)] at hcase
      omega
    | ok es =>
      obtain ⟨⟨htwo, hin⟩, rfl⟩ := (hread es).mp hes
      have hsmall : o + 2 + len.toNat < 2147483648 := by omega
      rw [if_pos hin]
      simp only [Except.map, Except.ok.injEq, hsmall, htwo, true_and]
      exact eq_comm

end Tlv

/-! ## Parsing any bytes -/

/-- The parser goes on at `q` from `p`: over each recognised entry that has a length byte it steps by the length. -/
inductive GoesTo (rt : Bytes) : Nat → Nat → Prop where
  | here (p : Nat) : GoesTo rt p p
  | past {p q : Nat} {head len : UInt8} (hhead : rt[p]? = some head) (hknown : ¬ head &&& 0x0F ≥ typeUnsupported)
      (hlen : rt[p + 1]? = some len) (hrest : GoesTo rt (p + 2 + len.toNat) q) : GoesTo rt p q

/-- An entry of a known type at `p` that is in the array has room for its route and its power states. (And the
index of its end is an `int`, which it always is for arrays that are 257 bytes below the limit of arrays.) -/
def Roomy (rt : Bytes) (p : Nat) : Prop :=
  ∀ head len, rt[p]? = some head → ¬ head &&& 0x0F ≥ typeUnsupported → rt[p + 1]? = some len →
    p + 2 + len.toNat < 2147483648 ∧ (p + 2 + len.toNat ≤ rt.length → 2 ≤ len.toNat)

section Parse
variable {rt : Bytes}

theorem all_roomy_of_stop {p : Nat} (hstop : ∀ head len, rt[p]? = some head → ¬ head &&& 0x0F ≥ typeUnsupported →
    rt[p + 1]? = some len → False) : ∀ q, GoesTo rt p q → Roomy rt q := by
  intro q hq
  cases hq with
  | here => exact fun head len h1 h2 h3 => (hstop head len h1 h2 h3).elim
  | past h1 h2 h3 => exact (hstop _ _ h1 h2 h3).elim

theorem all_roomy_iff {p : Nat} {head len : UInt8} (hhead : rt[p]? = some head)
    (hknown : ¬ head &&& 0x0F ≥ typeUnsupported) (hlen : rt[p + 1]? = some len) :
    (∀ q, GoesTo rt p q → Roomy rt q) ↔
      (p + 2 + len.toNat < 2147483648 ∧ (p + 2 + len.toNat ≤ rt.length → 2 ≤ len.toNat)) ∧
        ∀ q, GoesTo rt (p + 2 + len.toNat) q → Roomy rt q := by
  constructor
  · intro h
    exact ⟨h p (.here p) head len hhead hknown hlen, fun q hq => h q (.past hhead hknown hlen hq)⟩
  · rintro ⟨hroom, hrest⟩ q hq
    cases hq with
    | here =>
      intro head' len' h1 _ h3
      obtain rfl : len = len' := Option.some.inj (hlen.symm.trans h3)
      exact hroom
    | past h1 _ h3 hgo =>
      have hsame := Option.some.inj (hlen.symm.trans h3)
      rw [← hsame] at hgo
      exact hrest q hgo

section Step
variable {p : Nat} {head len : UInt8}

theorem parseLoop_entry (hrt : rt.length < 2147483648) (hhead : rt[p]? = some head)
    (hknown : ¬ head &&& 0x0F ≥ typeUnsupported) (hlen : rt[p + 1]? = some len) (fuel : Nat)
    (table : List RoutingEntryInfo) :
    parseLoop rt (fuel + 1) p table =
      match addRoutingEntry table rt p with
      | .error e => some (.error e)
      | .ok table' => parseLoop rt fuel (wrap ((p + 2 + len.toNat : Nat) : Int)) table' := by
  obtain ⟨hlt, -⟩ := List.getElem?_eq_some_iff.mp hlen
  have hnext : (p : Int) + 1 = ((p + 1 : Nat) : Int) := by omega
  have hoff : (p : Int) + ((len.toNat : Int) + 2) = ((p + 2 + len.toNat : Nat) : Int) := by omega
  have hin : (p : Int) < rt.length := by omega
  have hin1 : ¬ wrap ((p + 1 : Nat) : Int) ≥ rt.length := by
    rw [wrap_eq (by omega) (by omega)]
    omega
  rw [parseLoop, if_pos hin, getAt_nat, hhead, Option.elim_some, hnext, getAt_wrap hrt (by omega), hlen,
    Option.elim_some]
  show (if head &&& 0x0F ≥ typeUnsupported then _ else if wrap ((p + 1 : Nat) : Int) ≥ rt.length then _ else _) = _
  rw [if_neg hknown, if_neg hin1]
  cases addRoutingEntry table rt p with
  | error e => rfl
  | ok table' => exact congrArg (fun x => parseLoop rt fuel (wrap x) table') hoff

theorem parseLoop_stop (hrt : rt.length < 2147483648) (hp : p < 2147483648)
    (hstop : ∀ head len, rt[p]? = some head → ¬ head &&& 0x0F ≥ typeUnsupported → rt[p + 1]? = some len → False)
    (fuel : Nat) (table : List RoutingEntryInfo) : parseLoop rt (fuel + 1) p table = some (.ok table) := by
  rw [parseLoop]
  rcases Nat.lt_or_ge p rt.length with hlt | hge
  · have hhead := List.getElem?_eq_getElem hlt
    have hnext : (p : Int) + 1 = ((p + 1 : Nat) : Int) := by omega
    rw [if_pos (by omega), getAt_nat, hhead, Option.elim_some, hnext]
    by_cases hknown : rt[p] &&& 0x0F ≥ typeUnsupported
    · exact if_pos hknown
    · have hout : wrap ((p + 1 : Nat) : Int) ≥ rt.length := by
        rcases Nat.lt_or_ge (p + 1) rt.length with hlt1 | hge1
        · exact (hstop _ _ hhead hknown (List.getElem?_eq_getElem hlt1)).elim
        · rw [wrap_eq (by omega) (by omega)]
          omega
      exact (if_neg hknown).trans (if_pos hout)
  · exact if_neg (by omega)

end Step

theorem parseLoop_returns (hrt : rt.length < 2147483648) (fuel : Nat) :
    ∀ (p : Nat) (table : List RoutingEntryInfo), p < 2147483648 → rt.length - p < fuel →
      ∃ r, parseLoop rt fuel p table = some r ∧ ((∃ t, r = .ok t) ↔ ∀ q, GoesTo rt p q → Roomy rt q) := by
  induction fuel with
  | zero => intro p table _ hfuel; omega
  | succ fuel ih =>
    intro p table hp hfuel
    by_cases hentry : ∃ head len, rt[p]? = some head ∧ (¬ head &&& 0x0F ≥ typeUnsupported) ∧ rt[p + 1]? = some len
    · obtain ⟨head, len, hhead, hknown, hlen⟩ := hentry
      have hadd := addRoutingEntry_eq hrt hlen table
      obtain ⟨hlt, -⟩ := List.getElem?_eq_some_iff.mp hlen
      rw [parseLoop_entry hrt hhead hknown hlen, all_roomy_iff hhead hknown hlen]
      cases hres : addRoutingEntry table rt p with
      | error e =>
        refine ⟨.error e, rfl, iff_of_false (by simp) ?_⟩
        rintro ⟨⟨hsmall, hroom⟩, -⟩
        have hnone : ∀ t, addRoutingEntry table rt p ≠ .ok t := by simp [hres]
        by_cases hin : p + 2 + len.toNat ≤ rt.length
        · exact hnone _ ((hadd _).mpr ⟨hsmall, (if_pos hin).mpr ⟨hroom hin, rfl⟩⟩)
        · exact hnone _ ((hadd _).mpr ⟨hsmall, (if_neg hin).mpr rfl⟩)
      | ok table' =>
        obtain ⟨hsmall, hcase⟩ := (hadd table').mp hres
        have hroom : p + 2 + len.toNat ≤ rt.length → 2 ≤ len.toNat := by
          intro hin
          rw [if_pos hin] at hcase
          exact hcase.1
        obtain ⟨r, hr, hiff⟩ := ih (p + 2 + len.toNat) table' hsmall (by omega)
        have hwrap : wrap ((p + 2 + len.toNat : Nat) : Int) = ((p + 2 + len.toNat : Nat) : Int) :=
          wrap_eq (by omega) (by omega)
        rw [← hwrap] at hr
        exact ⟨r, hr, hiff.trans ⟨fun h => ⟨⟨hsmall, hroom⟩, h⟩, And.right⟩⟩
    · have hstop : ∀ head len, rt[p]? = some head → ¬ head &&& 0x0F ≥ typeUnsupported → rt[p + 1]? = some len → False :=
        fun head len h1 h2 h3 => hentry ⟨head, len, h1, h2, h3⟩
      exact ⟨_, parseLoop_stop hrt hp hstop fuel table, iff_of_true ⟨_, rfl⟩ (all_roomy_of_stop hstop)⟩

theorem parse_returns (hrt : rt.length < 2147483648) :
    ∃ r, parse rt = some r ∧ ((∃ t, r = .ok t) ↔ ∀ q, GoesTo rt 0 q → Roomy rt q) := by
  have h := parseLoop_returns hrt (rt.length + 1) 0 [] (by omega) (by omega)
  rwa [Nat.cast_zero, ← parse] at h

end Parse

/-! ## Parsing well-formed entries -/

/-- The sizes that the entries of a type can have. -/
def SizeOf (type : UInt8) (n : Nat) : Prop :=
  (type = typeTechnology ∨ type = typeProtocol) ∧ n = 1 ∨ type = typeAid ∧ n ≤ 16 ∨
    type = typeSystemCode ∧ n % 2 = 0 ∧ n ≤ 64

/-- A well-formed entry of the table. -/
structure Tlv where
  head : UInt8
  route : UInt8
  power : UInt8
  entry : Bytes
  wellFormed : SizeOf (head &&& 0x0F) entry.length

/-- As the table has it: qualifier and type, length, and the value. -/
def Tlv.encode (t : Tlv) : Bytes :=
  t.head :: UInt8.ofNat (t.entry.length + 2) :: t.route :: t.power :: t.entry

def Tlv.entries (t : Tlv) : List RoutingEntryInfo :=
  (if t.head &&& 0x0F = typeSystemCode then pairs t.entry else [t.entry]).map fun e =>
    ⟨t.head &&& 0xF0, t.head &&& 0x0F, t.route, t.power, e⟩

theorem Tlv.known (t : Tlv) : ¬ t.head &&& 0x0F ≥ typeUnsupported := by
  obtain ⟨h | h, -⟩ | ⟨h, -⟩ | ⟨h, -⟩ := t.wellFormed <;> rw [h] <;> decide

theorem Tlv.length_le (t : Tlv) : t.entry.length ≤ 64 := by
  obtain ⟨-, h⟩ | ⟨-, h⟩ | ⟨-, -, h⟩ := t.wellFormed <;> omega

theorem Tlv.toNat_length (t : Tlv) : (UInt8.ofNat (t.entry.length + 2)).toNat = t.entry.length + 2 :=
  UInt8.toNat_ofNat_of_lt (lt_of_le_of_lt (Nat.add_le_add_right t.length_le 2) (by decide))

theorem Tlv.added_eq (t : Tlv) : added t.head t.route t.power t.entry = t.entries := by
  obtain ⟨h | h, hn⟩ | ⟨h, hn⟩ | ⟨h, hn⟩ := t.wellFormed
  · simp [added, Tlv.entries, h, hn, validateEntryInfo, typeTechnology, typeSystemCode]
  · simp [added, Tlv.entries, h, hn, validateEntryInfo, typeTechnology, typeSystemCode, typeProtocol]
  · simp [added, Tlv.entries, h, hn, validateEntryInfo, typeTechnology, typeSystemCode, typeProtocol, typeAid]
  · simp [added, Tlv.entries, h, hn]

theorem parseLoop_encoded (tlvs : List Tlv) (before : Bytes) (table : List RoutingEntryInfo) (fuel : Nat)
    (hrt : (before ++ tlvs.flatMap Tlv.encode).length < 2147483648) (hfuel : tlvs.length < fuel) :
    parseLoop (before ++ tlvs.flatMap Tlv.encode) fuel before.length table =
      some (.ok (table ++ tlvs.flatMap Tlv.entries)) := by
  induction tlvs generalizing before table fuel with
  | nil =>
    obtain ⟨fuel, rfl⟩ : ∃ n, fuel = n + 1 := ⟨fuel - 1, by omega⟩
    simp only [List.flatMap_nil, List.append_nil] at hrt ⊢
    apply parseLoop_stop hrt hrt
    intro head len hhead _ _
    rw [List.getElem?_eq_none le_rfl] at hhead
    cases hhead
  | cons t tlvs ih =>
    obtain ⟨fuel, rfl⟩ : ∃ n, fuel = n + 1 := ⟨fuel - 1, by omega⟩
    have hlist : before ++ (t :: tlvs).flatMap Tlv.encode =
        (before ++ t.encode) ++ tlvs.flatMap Tlv.encode := by
      rw [List.flatMap_cons, List.append_assoc]
    have hsplit : before ++ (t :: tlvs).flatMap Tlv.encode =
        before ++ t.head :: UInt8.ofNat (t.entry.length + 2) :: t.route :: t.power :: (t.entry ++ tlvs.flatMap Tlv.encode) := by
      rw [List.flatMap_cons, Tlv.encode]
      rfl
    have hnext := ih (before ++ t.encode) (table ++ t.entries) fuel (by rwa [← hlist])
      (by simpa using hfuel)
    have hat : ∀ k, (before ++ (t :: tlvs).flatMap Tlv.encode)[before.length + k]? =
        (t.head :: UInt8.ofNat (t.entry.length + 2) :: t.route :: t.power :: (t.entry ++ tlvs.flatMap Tlv.encode))[k]? := by
      intro k
      rw [hsplit, List.getElem?_append_right (by omega), Nat.add_sub_cancel_left]
    have htotal : (before ++ (t :: tlvs).flatMap Tlv.encode).length =
        before.length + 4 + t.entry.length + (tlvs.flatMap Tlv.encode).length := by
      rw [hsplit]
      simp only [List.length_append, List.length_cons]
      omega
    rw [← hlist] at hnext
    generalize hall : before ++ (t :: tlvs).flatMap Tlv.encode = rt at hrt hat htotal hnext hsplit
    have hlen : rt[before.length + 1]? = some (UInt8.ofNat (t.entry.length + 2)) := hat 1
    have hadd : addRoutingEntry table rt before.length = .ok (table ++ t.entries) := by
      rw [addRoutingEntry_eq hrt hlen, t.toNat_length, if_pos (by omega)]
      refine ⟨by omega, by omega, ?_⟩
      have hdrop : rt.drop (before.length + 4) = t.entry ++ tlvs.flatMap Tlv.encode := by
        rw [hsplit, ← List.drop_drop, List.drop_left]
        rfl
      have h0 : rt.getD before.length 0 = t.head := by
        rw [List.getD_eq_getElem?_getD, ← Nat.add_zero before.length, hat 0]
        rfl
      have h2 : rt.getD (before.length + 2) 0 = t.route := by
        rw [List.getD_eq_getElem?_getD, hat 2]
        rfl
      have h3 : rt.getD (before.length + 3) 0 = t.power := by
        rw [List.getD_eq_getElem?_getD, hat 3]
        rfl
      rw [h0, h2, h3, hdrop, Nat.add_sub_cancel, List.take_left, t.added_eq]
    have hhead : rt[before.length]? = some t.head := hat 0
    have hsmall : (before ++ t.encode).length = before.length + 2 + (t.entry.length + 2) := by
      simp only [List.length_append, Tlv.encode, List.length_cons]
      omega
    rw [hsmall] at hnext
    rw [parseLoop_entry hrt hhead t.known hlen, hadd, t.toNat_length, List.flatMap_cons, ← List.append_assoc]
    have hwrap : wrap ((before.length + 2 + (t.entry.length + 2) : Nat) : Int) =
        ((before.length + 2 + (t.entry.length + 2) : Nat) : Int) := wrap_eq (by omega) (by omega)
    rw [← hwrap] at hnext
    exact hnext

theorem length_le_encoded (tlvs : List Tlv) : tlvs.length ≤ (tlvs.flatMap Tlv.encode).length := by
  induction tlvs with
  | nil => simp
  | cons t tlvs ih =>
    simp only [List.flatMap_cons, List.length_append, List.length_cons, Tlv.encode]
    omega

theorem parse_encoded (tlvs : List Tlv) (hrt : (tlvs.flatMap Tlv.encode).length < 2147483648) :
    parse (tlvs.flatMap Tlv.encode) = some (.ok (tlvs.flatMap Tlv.entries)) := by
  have hcount := length_le_encoded tlvs
  have := parseLoop_encoded tlvs [] [] ((tlvs.flatMap Tlv.encode).length + 1) hrt (by omega)
  simpa [parse] using this

/-! ## The native table -/

section Native
open NfcStack.Nfa
variable {env : EeEnv}

/-- The controls that a route can have (`NCI_ROUTE_QUAL_BLOCK_ROUTE` or none). -/
def BlockControl (env : EeEnv) : Prop := env.routeBlockControl = 0x00 ∨ env.routeBlockControl = 0x40

def IsEncoded (e : Bytes) : Prop := ∃ t : Tlv, e = t.encode

theorem isEncoded_aid (hblock : BlockControl env) (nfceeId info : UInt8) {e : Nfa.AidEntry} (h : e.aid.length ≤ 16) :
    IsEncoded (aidTlv env nfceeId info e) := by
  have htype : (tagAid ||| env.routeBlockControl ||| routeQual info) &&& 0x0F = typeAid := by
    unfold routeQual bitIf
    obtain hb | hb := hblock <;> rw [hb] <;> split <;> split <;> decide
  exact ⟨⟨_, nfceeId, e.pwrCfg, e.aid, .inr (.inl ⟨htype, h⟩)⟩, rfl⟩

theorem isEncoded_sysCode (hblock : BlockControl env) {e : SysCode} (h : e.code.length = 2) :
    IsEncoded (sysCodeTlv env e) := by
  have htype : (tagSysCode ||| env.routeBlockControl) &&& 0x0F = typeSystemCode := by
    obtain hb | hb := hblock <;> rw [hb] <;> decide
  obtain ⟨route, power, hshape⟩ : ∃ route power,
      sysCodeTlv env e = (tagSysCode ||| env.routeBlockControl) :: 4 :: route :: power :: e.code := ⟨_, _, rfl⟩
  refine ⟨⟨_, route, power, e.code, .inr (.inr ⟨htype, by omega, by omega⟩)⟩, ?_⟩
  rw [hshape]
  simp [Tlv.encode, h]

theorem isEncoded_proto (hblock : BlockControl env) (nfceeId power bit proto : UInt8) :
    IsEncoded (protoTlv env nfceeId power bit proto) := by
  have htype : (if bit = protoMaskIsoDep then tagProto ||| env.routeBlockControl else tagProto) &&& 0x0F =
      typeProtocol := by
    obtain hb | hb := hblock <;> rw [hb] <;> split <;> decide
  exact ⟨⟨_, nfceeId, power, [proto], .inl ⟨.inr htype, rfl⟩⟩, rfl⟩

theorem isEncoded_tech (hblock : BlockControl env) (nfceeId power bit tech : UInt8) :
    IsEncoded (techTlv env nfceeId power bit tech) := by
  have hblocked : (env.routeBlockControl ||| tagTech) &&& 0x0F = typeTechnology := by
    obtain hb | hb := hblock <;> rw [hb] <;> decide
  have hplain : tagTech &&& 0x0F = typeTechnology := by decide
  unfold techTlv
  split
  · exact ⟨⟨_, nfceeId, power, [tech], .inl ⟨.inl hplain, rfl⟩⟩, rfl⟩
  · split
    · exact ⟨⟨_, 0, 0, [tech], .inl ⟨.inl hblocked, rfl⟩⟩, rfl⟩
    · split
      · exact ⟨⟨_, nfceeId, power, [tech], .inl ⟨.inl hblocked, rfl⟩⟩, rfl⟩
      · exact ⟨⟨_, nfceeId, power, [tech], .inl ⟨.inl hplain, rfl⟩⟩, rfl⟩

theorem isEncoded_aidTlvs (hblock : BlockControl env) {cb : Ecb} {empty : Bool} (aids : List Nfa.AidEntry)
    (haids : ∀ e ∈ aids, e.aid.length ≤ 16) (xx : Nat) : ∀ e ∈ aidTlvsFrom env cb empty xx aids, IsEncoded e := by
  induction aids generalizing xx with
  | nil => simp [aidTlvsFrom]
  | cons a aids ih =>
    have hrest := ih (fun e he => haids e (List.mem_cons_of_mem _ he)) (xx + 1)
    unfold aidTlvsFrom
    split
    · intro e he
      rcases List.mem_cons.mp he with rfl | he
      · exact isEncoded_aid hblock _ _ (haids a List.mem_cons_self)
      · exact hrest e he
    · exact hrest

theorem routingTable_encoded (hblock : BlockControl env) {s : Ee}
    (haids : ∀ k, ∀ e ∈ (s.ecb k).aids, e.aid.length ≤ 16)
    (hcodes : ∀ k, ∀ e ∈ (s.ecb k).sysCodes, e.code.length = 2) :
    ∃ tlvs : List Tlv, routingTable env s = tlvs.map Tlv.encode := by
  have hall : ∀ e ∈ routingTable env s, IsEncoded e := by
    intro e he
    unfold routingTable at he
    simp only [List.mem_append, List.mem_flatMap] at he
    rcases he with (((⟨k, -, he⟩ | ⟨k, -, he⟩) | ⟨k, -, he⟩) | ⟨k, -, he⟩) | ⟨k, -, he⟩
    · exact isEncoded_aidTlvs hblock _ (haids k) 0 e he
    · exact isEncoded_aidTlvs hblock _ (haids k) 0 e he
    · obtain ⟨c, hc, rfl⟩ := List.mem_map.mp he
      exact isEncoded_sysCode hblock (hcodes k c (List.mem_filter.mp hc).1)
    · obtain ⟨x, -, hx⟩ := List.mem_filterMap.mp he
      dsimp only at hx
      split at hx
      · cases hx
      · obtain rfl := Option.some.inj hx
        exact isEncoded_proto hblock _ _ _ _
    · obtain ⟨x, -, hx⟩ := List.mem_filterMap.mp he
      dsimp only at hx
      split at hx
      · cases hx
      · obtain rfl := Option.some.inj hx
        exact isEncoded_tech hblock _ _ _ _
  generalize routingTable env s = table at hall
  induction table with
  | nil => exact ⟨[], rfl⟩
  | cons e table ih =>
    obtain ⟨t, rfl⟩ := hall e List.mem_cons_self
    obtain ⟨tlvs, rfl⟩ := ih fun x hx => hall x (List.mem_cons_of_mem _ hx)
    exact ⟨t :: tlvs, rfl⟩

end Native

/-! ## Queries -/

/-- The entry is for the query: it has the bytes of the query, or is an AID that is a prefix of them by a prefix
route, or one that they are a prefix of by a subset route. -/
def Matches (type : UInt8) (entry : Bytes) (info : RoutingEntryInfo) : Prop :=
  info.type = type ∧ (info.entry = entry ∨ type = typeAid ∧
    (info.qualifier &&& 0x10 ≠ 0 ∧ info.entry <+: entry ∨ info.qualifier &&& 0x20 ≠ 0 ∧ entry <+: info.entry))

instance (type : UInt8) (entry : Bytes) : DecidablePred (Matches type entry) := fun _ => inferInstanceAs (Decidable (_ ∧ _))

/-- The commit status of the first entry that matches. -/
def commitStatus (table : List RoutingEntryInfo) (type : UInt8) (entry : Bytes) : Stats :=
  ((table.find? fun info => decide (Matches type entry info)).map statusOf).getD .notFound

theorem ptrLoop_cases (a b : Bytes) :
    ((a <+: b ∨ b <+: a) ∧ ptrLoop a b = .error .arrayIndexOutOfBounds) ∨
      (¬ (a <+: b ∨ b <+: a) ∧ ∃ n, ptrLoop a b = .ok n ∧ n < a.length ∧ n < b.length) := by
  induction a generalizing b with
  | nil => exact .inl ⟨.inl List.nil_prefix, rfl⟩
  | cons x a ih =>
    cases b with
    | nil => exact .inl ⟨.inr List.nil_prefix, rfl⟩
    | cons y b =>
      simp only [ptrLoop, List.cons_prefix_cons, List.length_cons]
      by_cases hxy : x = y
      · subst hxy
        simp only [true_and, if_true]
        rcases ih b with ⟨h, hloop⟩ | ⟨h, n, hloop, hn, hn'⟩
        · exact .inl ⟨h, by rw [hloop]; rfl⟩
        · exact .inr ⟨h, n + 1, by rw [hloop]; rfl, by omega, by omega⟩
      · have hyx : ¬ y = x := fun h => hxy h.symm
        simp only [hxy, hyx, false_and, or_self, not_false_eq_true, if_false, true_and, false_or]
        exact ⟨0, rfl, by omega, by omega⟩

theorem comparePart_eq (applies : Bool) (entry mEntry : Bytes) {full : Nat}
    (hfull : full = entry.length ∨ full = mEntry.length) :
    comparePart applies entry mEntry full =
      if applies = true ∧ (entry <+: mEntry ∨ mEntry <+: entry) then .error .arrayIndexOutOfBounds else .ok false := by
  cases applies with
  | false => simp [comparePart]
  | true =>
    simp only [comparePart, if_true, true_and]
    rcases ptrLoop_cases entry mEntry with ⟨h, hloop⟩ | ⟨h, n, hloop, hn, hn'⟩
    · rw [hloop, if_pos h]
      rfl
    · rw [hloop, if_neg h]
      have hne : n ≠ full := by omega
      simp [Except.map, hne]

theorem longer_prefix_iff {a b : Bytes} (hne : a ≠ b) : (a.length < b.length ∧ (b <+: a ∨ a <+: b)) ↔ a <+: b := by
  constructor
  · rintro ⟨hlt, h | h⟩
    · have := h.length_le
      omega
    · exact h
  · intro h
    have hlen : a.length ≠ b.length := fun hlen => hne (h.eq_of_length hlen)
    exact ⟨lt_of_le_of_ne h.length_le hlen, .inr h⟩

theorem statusLoop_eq (type : UInt8) (entry : Bytes) (table : List RoutingEntryInfo) :
    statusLoop type entry table =
      match table.find? fun info => decide (Matches type entry info) with
      | none => .ok .notFound
      | some info => if info.entry = entry then .ok (statusOf info) else .error .arrayIndexOutOfBounds := by
  induction table with
  | nil => rfl
  | cons info table ih =>
    rw [statusLoop]
    by_cases htype : info.type = type
    case neg =>
      have hno : ¬ Matches type entry info := fun h => htype h.1
      rw [if_pos htype, List.find?_cons_of_neg (by simpa using hno), ih]
    case pos =>
      rw [if_neg (not_not.mpr htype)]
      by_cases hentry : info.entry = entry
      case pos =>
        have hyes : Matches type entry info := ⟨htype, .inl hentry⟩
        rw [if_pos hentry, List.find?_cons_of_pos (by simpa using hyes)]
        exact (if_pos hentry).symm
      case neg =>
        rw [if_neg hentry]
        by_cases haid : info.type = typeAid
        case neg =>
          have hno : ¬ Matches type entry info := fun h => h.2.elim hentry fun h' => haid (htype.trans h'.1)
          rw [if_pos haid, List.find?_cons_of_neg (by simpa using hno), ih]
        case pos =>
          have hpre : ((decide (info.qualifier &&& 0x10 ≠ 0) && decide (entry.length > info.entry.length)) = true ∧
              (entry <+: info.entry ∨ info.entry <+: entry)) ↔ info.qualifier &&& 0x10 ≠ 0 ∧ info.entry <+: entry := by
            rw [Bool.and_eq_true, decide_eq_true_eq, decide_eq_true_eq, and_assoc, gt_iff_lt, longer_prefix_iff hentry]
          have hsub : ((decide (info.qualifier &&& 0x20 ≠ 0) && decide (entry.length < info.entry.length)) = true ∧
              (entry <+: info.entry ∨ info.entry <+: entry)) ↔ info.qualifier &&& 0x20 ≠ 0 ∧ entry <+: info.entry := by
            rw [Bool.and_eq_true, decide_eq_true_eq, decide_eq_true_eq, and_assoc, or_comm,
              longer_prefix_iff (Ne.symm hentry)]
          have hmatch : Matches type entry info ↔
              (info.qualifier &&& 0x10 ≠ 0 ∧ info.entry <+: entry) ∨ info.qualifier &&& 0x20 ≠ 0 ∧ entry <+: info.entry :=
            ⟨fun h => (h.2.resolve_left hentry).2, fun h => ⟨htype, .inr ⟨htype ▸ haid, h⟩⟩⟩
          rw [if_neg (not_not.mpr haid), comparePart_eq _ _ _ (.inr rfl), comparePart_eq _ _ _ (.inl rfl)]
          by_cases h10 : info.qualifier &&& 0x10 ≠ 0 ∧ info.entry <+: entry
          · have hyes := hmatch.mpr (.inl h10)
            rw [if_pos (hpre.mpr h10), List.find?_cons_of_pos (by simpa using hyes)]
            exact (if_neg hentry).symm
          · rw [if_neg (fun h => h10 (hpre.mp h))]
            by_cases h20 : info.qualifier &&& 0x20 ≠ 0 ∧ entry <+: info.entry
            · have hyes := hmatch.mpr (.inr h20)
              rw [if_pos (hsub.mpr h20), List.find?_cons_of_pos (by simpa using hyes)]
              exact (if_neg hentry).symm
            · have hno : ¬ Matches type entry info := fun h => (hmatch.mp h).elim h10 h20
              rw [if_neg (fun h => h20 (hsub.mp h)), List.find?_cons_of_neg (by simpa using hno), ← ih]
              rfl

theorem getCommitStatus_iff (table : List RoutingEntryInfo) {type : UInt8} {entry : Bytes}
    (hquery : validateEntryInfo type entry = true) :
    ((∃ st, getCommitStatus table type entry = .ok st) ↔
        ∀ info, (table.find? fun info => decide (Matches type entry info)) = some info → info.entry = entry) ∧
      ∀ st, getCommitStatus table type entry = .ok st → st = commitStatus table type entry := by
  rw [getCommitStatus, if_pos hquery, statusLoop_eq, commitStatus]
  cases table.find? fun info => decide (Matches type entry info) with
  | none => simp
  | some info =>
    by_cases hentry : info.entry = entry
    · simp only [if_pos hentry]
      refine ⟨iff_of_true ⟨_, rfl⟩ fun i hi => Option.some.inj hi ▸ hentry, fun st hst => ?_⟩
      exact (Except.ok.inj hst).symm
    · simp [hentry]

/-! ## The parser and the queries together -/

/-- The parser ends for every array, without an exception exactly if it comes to roomy entries only; it lists
well-formed entries one by one, and those of the native code are such. A query is answered exactly if the first entry
that matches it has its bytes, and then with the status of this entry. -/
theorem parsed_and_queried (rt : Bytes) (hrt : rt.length < 2147483648) :
    (∃ r, parse rt = some r ∧ ((∃ table, r = .ok table) ↔ ∀ p, GoesTo rt 0 p → Roomy rt p)) ∧
      (∀ tlvs : List Tlv, rt = tlvs.flatMap Tlv.encode → parse rt = some (.ok (tlvs.flatMap Tlv.entries))) ∧
      (∀ (env : NfcStack.Nfa.EeEnv) (s : NfcStack.Nfa.Ee), BlockControl env →
        (∀ k, ∀ e ∈ (s.ecb k).aids, e.aid.length ≤ 16) → (∀ k, ∀ e ∈ (s.ecb k).sysCodes, e.code.length = 2) →
          ∃ tlvs : List Tlv, NfcStack.Nfa.routingTable env s = tlvs.map Tlv.encode) ∧
      ∀ (table : List RoutingEntryInfo) (type : UInt8) (entry : Bytes), validateEntryInfo type entry = true →
        (getCommitStatus table type entry = .ok (commitStatus table type entry) ↔
          ∀ info, (table.find? fun info => decide (Matches type entry info)) = some info → info.entry = entry) ∧
        ((∃ st, getCommitStatus table type entry = .ok st) →
          getCommitStatus table type entry = .ok (commitStatus table type entry)) := by
  refine ⟨parse_returns hrt, ?_, fun env s hblock haids hcodes => routingTable_encoded hblock haids hcodes, ?_⟩
  · intro tlvs h
    rw [h] at hrt ⊢
    exact parse_encoded tlvs hrt
  · intro table type entry hquery
    obtain ⟨hiff, hright⟩ := getCommitStatus_iff table hquery
    have hsame : ∀ st, getCommitStatus table type entry = .ok st →
        getCommitStatus table type entry = .ok (commitStatus table type entry) := by
      intro st hst
      rw [hst, hright st hst]
    exact ⟨⟨fun h => hiff.mp ⟨_, h⟩, fun h => (hiff.mpr h).elim hsame⟩, fun ⟨st, hst⟩ => hsame st hst⟩

/-- A prefix route of five bytes to the host. -/
def prefixRoute : Tlv := ⟨0x12, 0x00, 0x3F, [0xA0, 0x00, 0x00, 0x00, 0x03], .inr (.inl ⟨by decide, by decide⟩)⟩

theorem parsed_and_queried_prefix :
    prefixRoute.encode.length < 2147483648 ∧
      (∃ table, parse prefixRoute.encode = some (.ok table) ∧
        getCommitStatus table typeAid prefixRoute.entry = .ok .hostOk) := by
  have hlen : prefixRoute.encode.length < 2147483648 := by decide
  obtain ⟨-, hparse, -, hquery⟩ := parsed_and_queried prefixRoute.encode hlen
  refine ⟨hlen, prefixRoute.entries, ?_, ?_⟩
  · rw [hparse [prefixRoute] (by decide)]
    rfl
  · rw [(hquery prefixRoute.entries typeAid prefixRoute.entry (by decide)).2 ⟨.hostOk, by decide⟩]
    decide

/-- An entry of one byte and one of none are read past their ends; a longer AID that the prefix route is for runs
off the route's bytes. -/
theorem prefix_query_runs_off :
    parse [0x02, 0x01, 0x00] = some (.error .arrayIndexOutOfBounds) ∧
      parse [0x02, 0x00, 0x00, 0x3F] = some (.error .negativeArraySize) ∧
      parse prefixRoute.encode = some (.ok prefixRoute.entries) ∧
      commitStatus prefixRoute.entries typeAid [0xA0, 0x00, 0x00, 0x00, 0x03, 0x10] = .hostOk ∧
      getCommitStatus prefixRoute.entries typeAid [0xA0, 0x00, 0x00, 0x00, 0x03, 0x10] =
        .error .arrayIndexOutOfBounds := by
  refine ⟨?_, ?_, ?_, ?_, ?_⟩ <;> decide

end NfcStack.CardEmulation.RoutingTable
