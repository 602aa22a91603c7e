import NfcStack.Rw.T4tDetect

/- A message is read from a Type 4 tag that may answer anything. The reader knows how much is
   left of the message, and takes a plain answer only if it has not more. Of a data object
   it counts the bytes only if there are some and not more than are left, and hands them on
   in either case; an object whose length of two bytes is too large it hands on whole.

   What is proved:
     1. `smReadNdef_data`: what is handed on lies inside the response.
     2. `answer_cases`: what one response leads to, if its bytes are counted.
     3. `bounded_of_counted`: then a read ends, and has handed on no more than was announced. -/
namespace NfcStack.Rw.T4t
open NfcStack.Lib

/-! ## Data objects -/

/-- The response holds a data object of `n` bytes behind a head of `head` bytes, as the reader takes it. -/
inductive Object (cb : Cb) (rsp : Bytes) : Nat → Nat → Prop where
  | short (hlen : byteAt rsp 1 ≤ 0x7F) (hall : 2 + byteAt rsp 1 + 2 = rsp.length) : Object cb rsp 2 (byteAt rsp 1)
  | one (h81 : byteAt rsp 1 = 0x81) (hlen : byteAt rsp 2 ≤ 0xFD) (hall : 3 + byteAt rsp 2 + 2 = rsp.length) :
    Object cb rsp 3 (byteAt rsp 2)
  | two (h82 : byteAt rsp 1 = 0x82) (hlen : be16At rsp 2 + 4 ≤ cb.maxReadSize)
    (hall : 4 + be16At rsp 2 + 2 = rsp.length) : Object cb rsp 4 (be16At rsp 2)

/-- The head of a data object whose length is of two bytes and too large. -/
def TooLong (cb : Cb) (rsp : Bytes) : Prop :=
  byteAt rsp 0 = 0x53 ∧ byteAt rsp 1 = 0x82 ∧ cb.maxReadSize < be16At rsp 2 + 4

theorem Object.inside {cb : Cb} {rsp : Bytes} {head n : Nat} (h : Object cb rsp head n) : head + n + 2 = rsp.length := by
  cases h with
  | short _ hall => exact hall
  | one _ _ hall => exact hall
  | two _ _ hall => exact hall

/-- The offset and the length of the buffer that is handed on. -/
def handedOn (cb : Cb) (rsp : Bytes) : Nat × Nat :=
  let len := rsp.length - 2
  if cb.ddoLcFieldCoding = false then (0, len)
  else if byteAt rsp 1 ≤ 0x7F then (2, sub16 len 2)
  else if byteAt rsp 1 = 0x81 then (3, sub16 len 3)
  else if be16At rsp 2 + 4 ≤ cb.maxReadSize then (4, sub16 len 4)
  else (0, len)

theorem sub16_eq {m n : Nat} (h : n ≤ m) (hm : m < 2 ^ 16) : sub16 m n = m - n := by
  unfold sub16
  omega

section Response
variable {cb : Cb} {rsp : Bytes}

theorem handedOn_object (hddo : cb.ddoLcFieldCoding = true) (hlt : rsp.length < 2 ^ 16) {head n : Nat}
    (h : Object cb rsp head n) : handedOn cb rsp = (head, n) := by
  have hin := h.inside
  have hsub : sub16 (rsp.length - 2) head = n := by
    rw [sub16_eq (by omega) (by omega)]
    omega
  unfold handedOn
  rw [if_neg (by rw [hddo]; exact nofun)]
  cases h with
  | short hlen _ => rw [if_pos hlen, hsub]
  | one h81 _ _ => rw [if_neg (by omega), if_pos h81, hsub]
  | two h82 hmax _ => rw [if_neg (by omega), if_neg (by omega), if_pos hmax, hsub]

theorem deliverDdo_eq {head expected : Nat} (hlt : rsp.length < 2 ^ 16) (h : head + expected + 2 = rsp.length) :
    deliverDdo cb rsp head expected = deliver (consume cb expected) (slice rsp head expected) := by
  have hsub : sub16 (rsp.length - 2) head = expected := by
    rw [sub16_eq (by omega) (by omega)]
    omega
  unfold deliverDdo
  rw [hsub, if_pos rfl]

theorem deliverDdo_bad {head expected : Nat} (h : expected ≠ sub16 (rsp.length - 2) head) :
    deliverDdo cb rsp head expected = handleError cb .badResp := by
  unfold deliverDdo
  rw [if_neg h]

theorem handleDdo_cases (hlen : 2 ≤ rsp.length) (hlt : rsp.length < 2 ^ 16) (hsw : statusWords rsp = 0x9000) :
    (byteAt rsp 0 = 0x53 ∧ ∃ head n, Object cb rsp head n ∧
      handleDdo cb rsp = deliver (consume cb n) (slice rsp head n)) ∨
    (TooLong cb rsp ∧ handleDdo cb rsp = deliver cb (slice rsp 0 (rsp.length - 2))) ∨
    handleDdo cb rsp = handleError cb .badResp := by
  have hb := byteAt_lt rsp
  unfold statusWords be16At at hsw
  -- the status words are no part of an object, so that its length does not wrap around
  have hstatus : ∀ i, rsp.length = i + 2 → byteAt rsp i = 0x90 ∧ byteAt rsp (i + 1) = 0 := by
    intro i hi
    have h1 := hb (i + 1)
    rw [hi, Nat.add_sub_cancel] at hsw
    omega
  unfold handleDdo
  by_cases htag : byteAt rsp 0 = 0x53
  case neg => exact .inr (.inr (if_neg htag))
  rw [if_pos htag]
  have hne2 : rsp.length ≠ 2 := by
    intro h
    have hsw0 := hstatus 0 h
    omega
  by_cases h1 : byteAt rsp 1 ≤ 0x7F
  case pos =>
    rw [if_pos h1]
    have hne3 : rsp.length ≠ 3 := by
      intro h
      have hsw1 := hstatus 1 h
      omega
    by_cases hall : 2 + byteAt rsp 1 + 2 = rsp.length
    · exact .inl ⟨htag, 2, _, .short h1 hall, deliverDdo_eq hlt hall⟩
    · refine .inr (.inr (deliverDdo_bad ?_))
      rw [sub16_eq (by omega) (by omega)]
      omega
  rw [if_neg h1]
  by_cases h81 : byteAt rsp 1 = 0x81
  case pos =>
    rw [if_pos h81]
    by_cases h2 : byteAt rsp 2 ≤ 0xFD
    case neg => exact .inr (.inr (if_neg h2))
    rw [if_pos h2]
    have hne3 : rsp.length ≠ 3 := by
      intro h
      have hsw1 := hstatus 1 h
      omega
    by_cases hall : 3 + byteAt rsp 2 + 2 = rsp.length
    · exact .inl ⟨htag, 3, _, .one h81 h2 hall, deliverDdo_eq hlt hall⟩
    · refine .inr (.inr (deliverDdo_bad ?_))
      unfold sub16
      omega
  rw [if_neg h81]
  by_cases h82 : byteAt rsp 1 = 0x82
  case neg => exact .inr (.inr (if_neg h82))
  rw [if_pos h82]
  by_cases hmax : be16At rsp 2 + 4 ≤ cb.maxReadSize
  case neg => exact .inr (.inl ⟨⟨htag, h82, by omega⟩, if_neg hmax⟩)
  rw [if_pos hmax]
  by_cases hall : 4 + be16At rsp 2 + 2 = rsp.length
  · exact .inl ⟨htag, 4, _, .two h82 hmax hall, deliverDdo_eq hlt hall⟩
  · refine .inr (.inr (deliverDdo_bad ?_))
    have h2 := hb 2
    have h3 := hb 3
    unfold sub16 be16At at *
    rcases Nat.lt_or_ge 5 rsp.length with h6 | h6
    · omega
    · intro heq
      have hcases : rsp.length = 1 + 2 ∨ rsp.length = 2 + 2 ∨ rsp.length = 3 + 2 := by omega
      rcases hcases with h | h | h
      all_goals
        have hend := hstatus _ h
        simp only [Nat.reduceAdd] at heq hend
        omega

/-! ## Inside the response -/

def deliveredData : List Out → List Bytes
  | [] => []
  | .event (.read data) :: outs => data :: deliveredData outs
  | .event (.readCplt data) :: outs => data :: deliveredData outs
  | _ :: outs => deliveredData outs

theorem deliveredData_handleError (cb : Cb) (status : Status) : deliveredData (handleError cb status).2 = [] := by
  unfold handleError
  split <;> rfl

theorem deliveredData_readFile (cb : Cb) (offset length : Nat) (isContinue : Bool) :
    deliveredData (readFile cb offset length isContinue).2.2 = [] := by
  unfold readFile sendToLower
  dsimp only
  generalize (if isContinue = true then cb else { cb with rwOffset := offset, rwLength := length }) = c
  split
  · split <;> rfl
  · split <;> rfl

theorem deliveredData_deliver (cb : Cb) (data : Bytes) : deliveredData (deliver cb data).2 = [data] := by
  unfold deliver
  split
  · have hread := deliveredData_readFile cb cb.rwOffset cb.rwLength true
    dsimp only
    split
    · exact congrArg (data :: ·) hread
    · exact congrArg (data :: ·) (deliveredData_handleError _ _)
  · rfl

theorem smReadNdef_data (hlen : 2 ≤ rsp.length) (hlt : rsp.length < 2 ^ 16) :
    deliveredData (smReadNdef cb rsp).2 = [] ∨
      ∃ off len, handedOn cb rsp = (off, len) ∧ off + len + 2 ≤ rsp.length ∧
        deliveredData (smReadNdef cb rsp).2 = [slice rsp off len] := by
  unfold smReadNdef
  by_cases hsw : statusWords rsp = 0x9000
  case neg => exact .inl (by rw [if_pos hsw]; exact deliveredData_handleError _ _)
  rw [if_neg (not_not.mpr hsw)]
  by_cases hsub : cb.subState = .waitReadResp
  case neg => exact .inl (by rw [if_pos hsub]; exact deliveredData_handleError _ _)
  rw [if_neg (not_not.mpr hsub)]
  cases hddo : cb.ddoLcFieldCoding with
  | true =>
    rw [if_pos rfl]
    rcases @handleDdo_cases cb _ hlen hlt hsw with ⟨-, head, n, hobj, h⟩ | ⟨⟨-, h82, hmax⟩, h⟩ | h
    · have hin := hobj.inside
      exact .inr ⟨head, n, handedOn_object hddo hlt hobj, by omega, by rw [h, deliveredData_deliver]⟩
    · refine .inr ⟨0, rsp.length - 2, ?_, by omega, by rw [h, deliveredData_deliver]⟩
      unfold handedOn
      rw [if_neg (by rw [hddo]; exact nofun), if_neg (by omega), if_neg (by omega), if_neg (by omega)]
    · exact .inl (by rw [h]; exact deliveredData_handleError _ _)
  | false =>
    rw [if_neg nofun]
    dsimp only
    split
    · refine .inr ⟨0, rsp.length - 2, ?_, by omega, by rw [deliveredData_deliver]; rfl⟩
      unfold handedOn
      rw [if_pos hddo]
    · refine .inl ?_
      split
      · split
        · unfold formatShortFieldCoding
          split <;> rfl
        · exact deliveredData_handleError _ _
      · exact deliveredData_handleError _ _

end Response

/-! ## One response -/

/-- A message is being read; a plain command in the extended form can be sent once more in the short form. -/
structure AwaitsData (cb : Cb) : Prop where
  state : cb.state = .readNdef
  sub : cb.subState = .waitReadResp
  retry : cb.ddoLcFieldCoding = false → cb.extFieldCoding = true →
    ∃ old, cb.retryCmd = some old ∧ old.ins = insReadBinary ∧ old.ext = true

/-- The response is a data object whose bytes are handed on, but not counted: an object of no bytes, or of more than
are left, or one that is handed on whole because its length is too large. -/
def Uncounted (cb : Cb) (rsp : Bytes) : Prop :=
  cb.state = .readNdef ∧ cb.ddoLcFieldCoding = true ∧ statusWords rsp = 0x9000 ∧ byteAt rsp 0 = 0x53 ∧
    ((∃ head n, Object cb rsp head n ∧ (n = 0 ∧ 0 < cb.rwLength ∨ cb.rwLength < n)) ∨ TooLong cb rsp)

inductive Answer (cb : Cb) (rsp : Bytes) : Cb × List Out → Prop where
  /-- The read fails. -/
  | failed {cb' : Cb} {status : Status} (hidle : cb'.state = .idle) : Answer cb rsp (cb', [.event (.readFail status)])
  /-- The last command is sent once more in the short form. -/
  | again {cb' : Cb} {f : Apdu} (hread : AwaitsData cb') (hlen : cb'.rwLength = cb.rwLength)
    (hext : cb.extFieldCoding = true) (hext' : cb'.extFieldCoding = false) : Answer cb rsp (cb', [.frame f])
  /-- A part is handed on, and the next one is read. -/
  | part {cb' : Cb} {f : Apdu} {data : Bytes} (hread : AwaitsData cb') (hpos : 0 < data.length)
    (hlen : cb'.rwLength + data.length = cb.rwLength) (hext : cb'.extFieldCoding = cb.extFieldCoding) :
    Answer cb rsp (cb', [.event (.read data), .frame f])
  /-- A part is handed on, but the next one cannot be read. -/
  | partFailed {cb' : Cb} {status : Status} {data : Bytes} (hidle : cb'.state = .idle)
    (hlen : data.length ≤ cb.rwLength) : Answer cb rsp (cb', [.event (.read data), .event (.readFail status)])
  /-- The last part is handed on. -/
  | complete {cb' : Cb} {data : Bytes} (hidle : cb'.state = .idle) (hlen : data.length = cb.rwLength) :
    Answer cb rsp (cb', [.event (.readCplt data)])

section Step
variable {cb : Cb} {rsp : Bytes}

theorem answer_handleError (hread : AwaitsData cb) (status : Status) : Answer cb rsp (handleError cb status) := by
  unfold handleError
  rw [hread.state]
  exact .failed rfl

theorem continueRead_cases (cb : Cb) :
    (∃ f ddo, readFile cb cb.rwOffset cb.rwLength true =
      (true, { cb with retryCmd := some f, ddoLcFieldCoding := ddo }, [.frame f]) ∧
      (ddo = false → cb.extFieldCoding = true → f.ins = insReadBinary ∧ f.ext = true)) ∨
    readFile cb cb.rwOffset cb.rwLength true = (false, cb, []) := by
  unfold readFile sendToLower
  rw [if_pos rfl]
  dsimp only
  split
  · split
    · exact .inl ⟨_, true, rfl, nofun⟩
    · exact .inr rfl
  · split
    case isTrue hext => exact .inl ⟨_, cb.ddoLcFieldCoding, rfl, fun _ _ => ⟨rfl, rfl⟩⟩
    case isFalse hext => exact .inl ⟨_, cb.ddoLcFieldCoding, rfl, fun _ h => absurd h hext⟩

theorem answer_deliver (hread : AwaitsData cb) {data : Bytes} (hle : data.length ≤ cb.rwLength)
    (hpos : 0 < data.length ∨ cb.rwLength = 0) : Answer cb rsp (deliver (consume cb data.length) data) := by
  obtain ⟨c, hc⟩ : ∃ c, c = consume cb data.length := ⟨_, rfl⟩
  have hlen : c.rwLength + data.length = cb.rwLength := by
    rw [hc]
    unfold consume
    split
    · show cb.rwLength - data.length + data.length = cb.rwLength
      omega
    · omega
  have hsame : c.state = cb.state ∧ c.subState = cb.subState ∧ c.extFieldCoding = cb.extFieldCoding := by
    rw [hc]
    unfold consume
    split <;> exact ⟨rfl, rfl, rfl⟩
  rw [← hc]
  unfold deliver
  by_cases hmore : c.rwLength > 0
  · rw [if_pos hmore]
    rcases continueRead_cases c with ⟨f, ddo, hsend, hshort⟩ | hrefused
    · rw [hsend]
      have hreading : AwaitsData { c with retryCmd := some f, ddoLcFieldCoding := ddo } :=
        ⟨hsame.1.trans hread.state, hsame.2.1.trans hread.sub, fun hd he => ⟨f, rfl, hshort hd he⟩⟩
      exact .part hreading (by omega) hlen hsame.2.2
    · rw [hrefused]
      have herr : handleError c .failed = ({ c with state := .idle }, [.event (.readFail .failed)]) := by
        unfold handleError
        rw [hsame.1, hread.state]
      show Answer cb rsp ((handleError c .failed).1, .event (.read data) :: (handleError c .failed).2)
      rw [herr]
      exact .partFailed rfl hle
  · rw [if_neg hmore]
    exact .complete rfl (by omega)

theorem answer_cases (hread : AwaitsData cb) (hlen : 2 ≤ rsp.length) (hlt : rsp.length < 2 ^ 16)
    (hcounted : ¬ Uncounted cb rsp) : Answer cb rsp (dataCback cb rsp) := by
  have hsm : dataCback cb rsp = smReadNdef cb rsp := by
    unfold dataCback
    rw [if_neg (by omega), hread.state]
  rw [hsm]
  unfold smReadNdef
  by_cases hsw : statusWords rsp = 0x9000
  case neg => exact (if_pos hsw) ▸ answer_handleError hread _
  rw [if_neg (not_not.mpr hsw), if_neg (not_not.mpr hread.sub)]
  cases hddo : cb.ddoLcFieldCoding with
  | true =>
    rw [if_pos rfl]
    rcases @handleDdo_cases cb _ hlen hlt hsw with ⟨htag, head, n, hobj, h⟩ | ⟨hlong, -⟩ | h
    · have hin := hobj.inside
      have hslice : (slice rsp head n).length = n := length_slice (by omega)
      have hsize : ¬ (n = 0 ∧ 0 < cb.rwLength ∨ cb.rwLength < n) :=
        fun hn => hcounted ⟨hread.state, hddo, hsw, htag, .inl ⟨head, n, hobj, hn⟩⟩
      rw [h]
      conv in consume cb n => rw [← hslice]
      exact answer_deliver hread (by omega) (by omega)
    · exact absurd ⟨hread.state, hddo, hsw, hlong.1, .inr hlong⟩ hcounted
    · rw [h]
      exact answer_handleError hread _
  | false =>
    rw [if_neg nofun]
    dsimp only
    split
    case isTrue hdata =>
      have htake : (rsp.take (rsp.length - 2)).length = rsp.length - 2 := by
        rw [List.length_take]
        omega
      conv in consume cb (rsp.length - 2) => rw [← htake]
      exact answer_deliver hread (by omega) (by omega)
    case isFalse =>
      split
      case isTrue hshort =>
        obtain ⟨old, hold, hins, hold_ext⟩ := hread.retry hddo hshort.2.2
        rw [hold]
        show Answer cb rsp (formatShortFieldCoding _ old)
        unfold formatShortFieldCoding
        rw [if_pos ⟨hins, hold_ext⟩]
        exact .again ⟨hread.state, hread.sub, fun _ h => absurd h nofun⟩ rfl hshort.2.2 rfl
      case isFalse => exact answer_handleError hread _

end Step

/-! ## A read -/

def after (cb : Cb) (rsps : Nat → Bytes) : Nat → Cb
  | 0 => cb
  | n + 1 => (dataCback (after cb rsps n) (rsps n)).1

def outsAt (cb : Cb) (rsps : Nat → Bytes) (n : Nat) : List Out := (dataCback (after cb rsps n) (rsps n)).2

/-- How many bytes have been handed on after `n` responses. -/
def total (cb : Cb) (rsps : Nat → Bytes) : Nat → Nat
  | 0 => 0
  | n + 1 => total cb rsps n + ((deliveredData (outsAt cb rsps n)).map List.length).sum

def framesOf (outs : List Out) : Nat := outs.countP fun o => match o with | .frame _ => true | .event _ => false

section Run
variable {cb : Cb} {rsps : Nat → Bytes}

theorem dataCback_idle {cb : Cb} (h : cb.state = .idle) (rsp : Bytes) : dataCback cb rsp = (cb, []) := by
  unfold dataCback
  rw [if_neg (by rw [h]; exact fun hc => hc.1 rfl), h]

/-- While the message is read, what has been handed on and what is left make it up; afterwards, no more than it
has been handed on. -/
def Counted (cb₀ : Cb) (rsps : Nat → Bytes) (n : Nat) : Prop :=
  AwaitsData (after cb₀ rsps n) ∧ total cb₀ rsps n + (after cb₀ rsps n).rwLength = cb₀.rwLength ∨
    (after cb₀ rsps n).state = .idle ∧ total cb₀ rsps n ≤ cb₀.rwLength

def Ended (outs : List Out) : Prop :=
  (∃ data, .event (.readCplt data) ∈ outs) ∨ ∃ status, .event (.readFail status) ∈ outs

/-- How many responses there can be yet: each one hands on a byte, or is the one that the last command is sent once
more for, or ends the read. -/
def rank (cb : Cb) : Nat := cb.rwLength + (if cb.extFieldCoding = true then 1 else 0) + 1

structure Advance (cb cb' : Cb) (outs : List Out) : Prop where
  frames : framesOf outs ≤ 1
  next : (AwaitsData cb' ∧ ((deliveredData outs).map List.length).sum + cb'.rwLength = cb.rwLength ∧ rank cb' < rank cb ∧
      ∀ data, .event (.readCplt data) ∉ outs) ∨
    (cb'.state = .idle ∧ ((deliveredData outs).map List.length).sum ≤ cb.rwLength ∧ Ended outs ∧
      ∀ data, .event (.readCplt data) ∈ outs → ((deliveredData outs).map List.length).sum = cb.rwLength)

theorem Answer.advance {cb : Cb} {rsp : Bytes} {r : Cb × List Out} (h : Answer cb rsp r) : Advance cb r.1 r.2 := by
  cases h with
  | failed hidle =>
    refine ⟨Nat.zero_le 1, .inr ⟨hidle, Nat.zero_le _, .inr ⟨_, List.mem_singleton_self _⟩, ?_⟩⟩
    intro data h
    simp at h
  | again hread hlen hext hext' =>
    refine ⟨Nat.le_refl 1, .inl ⟨hread, (Nat.zero_add _).trans hlen, ?_, by simp⟩⟩
    simp [rank, hlen, hext, hext']
  | part hread hpos hlen hext =>
    rename_i cb' f data
    have hsum : ((deliveredData [.event (.read data), .frame f]).map List.length).sum = data.length := by
      simp [deliveredData]
    refine ⟨Nat.le_refl 1, .inl ⟨hread, (congrArg (· + cb'.rwLength) hsum).trans (by omega), ?_, by simp⟩⟩
    simp only [rank, hext]
    omega
  | partFailed hidle hlen =>
    rename_i cb' status data
    have hsum : ((deliveredData [.event (.read data), .event (.readFail status)]).map List.length).sum = data.length := by
      simp [deliveredData]
    refine ⟨Nat.zero_le 1, .inr ⟨hidle, by rw [hsum]; exact hlen, .inr ⟨status, by simp⟩, ?_⟩⟩
    intro data' h
    simp at h
  | complete hidle hlen =>
    rename_i cb' data
    have hsum : ((deliveredData [.event (.readCplt data)]).map List.length).sum = data.length := by
      simp [deliveredData]
    exact ⟨Nat.zero_le 1, .inr ⟨hidle, by rw [hsum]; exact hlen.le, .inl ⟨data, by simp⟩, fun _ _ => hsum.trans hlen⟩⟩

variable (hread : AwaitsData cb) (hlen : ∀ i, 2 ≤ (rsps i).length ∧ (rsps i).length < 2 ^ 16)
  (hcounted : ∀ i, ¬ Uncounted (after cb rsps i) (rsps i))
include hlen hcounted

theorem advance_at {n : Nat} (h : AwaitsData (after cb rsps n)) :
    Advance (after cb rsps n) (after cb rsps (n + 1)) (outsAt cb rsps n) :=
  (answer_cases h (hlen n).1 (hlen n).2 (hcounted n)).advance

include hread

theorem counted (n : Nat) : Counted cb rsps n := by
  induction n with
  | zero => exact .inl ⟨hread, Nat.zero_add _⟩
  | succ n ih =>
    have htotal : total cb rsps (n + 1) = total cb rsps n + ((deliveredData (outsAt cb rsps n)).map List.length).sum := rfl
    rcases ih with ⟨hawait, hsum⟩ | ⟨hidle, hle⟩
    · rcases (advance_at hlen hcounted hawait).next with ⟨hnext, hkept, -, -⟩ | ⟨hidle, hle, -, -⟩
      · exact .inl ⟨hnext, by rw [htotal]; omega⟩
      · exact .inr ⟨hidle, by rw [htotal]; omega⟩
    · have hnone := dataCback_idle hidle (rsps n)
      have hafter : after cb rsps (n + 1) = after cb rsps n := congrArg Prod.fst hnone
      have houts : outsAt cb rsps n = [] := congrArg Prod.snd hnone
      exact .inr ⟨by rw [hafter]; exact hidle, by rw [htotal, houts]; exact hle⟩

theorem rank_or_ended (n : Nat) :
    (AwaitsData (after cb rsps n) ∧ rank (after cb rsps n) + n ≤ rank cb) ∨
      ∃ m < n, AwaitsData (after cb rsps m) ∧ m < rank cb ∧ Ended (outsAt cb rsps m) ∧ (after cb rsps (m + 1)).state = .idle := by
  induction n with
  | zero => exact .inl ⟨hread, Nat.le_refl _⟩
  | succ n ih =>
    rcases ih with ⟨hawait, hrank⟩ | ⟨m, hm, hended⟩
    · have hpos : 0 < rank (after cb rsps n) := Nat.succ_pos _
      rcases (advance_at hlen hcounted hawait).next with ⟨hnext, -, hlt, -⟩ | ⟨hidle, -, hended, -⟩
      · exact .inl ⟨hnext, by omega⟩
      · exact .inr ⟨n, Nat.lt_succ_self n, hawait, by omega, hended, hidle⟩
    · exact .inr ⟨m, Nat.lt_succ_of_lt hm, hended⟩

end Run

/-- A read of `len` bytes goes as it should. -/
structure Bounded (cb : Cb) (rsps : Nat → Bytes) (len : Nat) : Prop where
  /-- Each response has one command at most sent, and after `len + 2` responses the read has ended. -/
  commands : ∀ n, framesOf (outsAt cb rsps n) ≤ 1
  ends : ∃ n ≤ len + 1, Ended (outsAt cb rsps n) ∧ ∀ m, n < m → outsAt cb rsps m = []
  inside : ∀ n, ∀ data ∈ deliveredData (outsAt cb rsps n), ∃ off k, handedOn (after cb rsps n) (rsps n) = (off, k) ∧
    off + k + 2 ≤ (rsps n).length ∧ data = slice (rsps n) off k
  total_le : ∀ n, total cb rsps n ≤ len
  complete : ∀ n data, .event (.readCplt data) ∈ outsAt cb rsps n → total cb rsps (n + 1) = len

theorem idle_after {cb : Cb} {rsps : Nat → Bytes} {n : Nat} (h : (after cb rsps n).state = .idle) {m : Nat} (hm : n ≤ m) :
    (after cb rsps m).state = .idle ∧ outsAt cb rsps m = [] := by
  induction m, hm using Nat.le_induction with
  | base => exact ⟨h, congrArg Prod.snd (dataCback_idle h _)⟩
  | succ m _ ih =>
    have hafter : after cb rsps (m + 1) = after cb rsps m := congrArg Prod.fst (dataCback_idle ih.1 (rsps m))
    have hidle : (after cb rsps (m + 1)).state = .idle := by rw [hafter]; exact ih.1
    exact ⟨hidle, congrArg Prod.snd (dataCback_idle hidle _)⟩

theorem bounded_of_counted {cb : Cb} {rsps : Nat → Bytes} (hread : AwaitsData cb)
    (hlen : ∀ i, 2 ≤ (rsps i).length ∧ (rsps i).length < 2 ^ 16)
    (hcounted : ∀ i, ¬ Uncounted (after cb rsps i) (rsps i)) : Bounded cb rsps cb.rwLength := by
  have hstates := counted hread hlen hcounted
  constructor
  case commands =>
    intro n
    rcases hstates n with ⟨hawait, -⟩ | ⟨hidle, -⟩
    · exact (advance_at hlen hcounted hawait).frames
    · rw [(idle_after hidle (Nat.le_refl n)).2]
      exact Nat.zero_le 1
  case ends =>
    have hrank : rank cb ≤ cb.rwLength + 2 := by
      unfold rank
      split <;> omega
    rcases rank_or_ended hread hlen hcounted (rank cb) with ⟨-, hle⟩ | ⟨m, -, -, hm, hended, hidle⟩
    · have hpos : 0 < rank (after cb rsps (rank cb)) := Nat.succ_pos _
      omega
    · exact ⟨m, by omega, hended, fun k hk => (idle_after hidle hk).2⟩
  case inside =>
    intro n data hdata
    rcases hstates n with ⟨hawait, -⟩ | ⟨hidle, -⟩
    · have hsm : dataCback (after cb rsps n) (rsps n) = smReadNdef (after cb rsps n) (rsps n) := by
        have hn := hlen n
        unfold dataCback
        rw [if_neg (by omega), hawait.state]
      have houts : outsAt cb rsps n = (smReadNdef (after cb rsps n) (rsps n)).2 := congrArg Prod.snd hsm
      rw [houts] at hdata
      rcases @smReadNdef_data (after cb rsps n) _ (hlen n).1 (hlen n).2 with h | ⟨off, k, hbuf, hin, h⟩
      · rw [h] at hdata
        exact absurd hdata List.not_mem_nil
      · rw [h] at hdata
        exact ⟨off, k, hbuf, hin, List.mem_singleton.mp hdata⟩
    · rw [(idle_after hidle (Nat.le_refl n)).2] at hdata
      exact absurd hdata List.not_mem_nil
  case total_le =>
    intro n
    rcases hstates n with ⟨-, hsum⟩ | ⟨-, hle⟩
    · omega
    · exact hle
  case complete =>
    intro n data hdata
    rcases hstates n with ⟨hawait, hsum⟩ | ⟨hidle, -⟩
    · rcases (advance_at hlen hcounted hawait).next with ⟨-, -, -, hnot⟩ | ⟨-, -, -, hall⟩
      · exact absurd hdata (hnot data)
      · have htotal : total cb rsps (n + 1) =
            total cb rsps n + ((deliveredData (outsAt cb rsps n)).map List.length).sum := rfl
        have hlast := hall data hdata
        rw [htotal]
        omega
    · rw [(idle_after hidle (Nat.le_refl n)).2] at hdata
      exact absurd hdata List.not_mem_nil

end NfcStack.Rw.T4t
