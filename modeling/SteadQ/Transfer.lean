/-
  File:      SteadQ/Transfer.lean
  Subject:   THE TRANSFER LOOPS of the system layer.

  `write`, `writev`, `pwrite` and `pread` may move fewer bytes than they are given, none, or be
  interrupted by a signal. `Handle.lean` takes a transfer for one call; here are the loops, run
  against any sequence of results of the kernel. The hooks for injected faults are left out.
-/
import SteadQ.Fs
import SteadQ.Lib.Pieces
import Mathlib.Algebra.GroupWithZero.Nat

namespace SteadQ.Transfer

open Octet Pieces

/-! ## 1. The loops -/

/-- What a call of the kernel returns: a count, or the number of an error. -/
inductive KernelResult where
  | moved (count : Nat)
  | failed (code : Nat)
  deriving DecidableEq, Repr

/-- `EINTR`: a signal came before anything was moved. -/
def eintr : Nat := 4

inductive TransferError where
  | os (code : Nat)
  | writeZero (message : String)
  | unexpectedEof (message : String)
  deriving DecidableEq, Repr

/-- How far a loop has come: its result, or `none` while it waits for the kernel, and the pieces the
    kernel has moved, each with its offset in the file. -/
structure Run where
  result : Option (Except TransferError Unit)
  pieces : List (Nat × Bytes)
  deriving DecidableEq

def Run.waiting : Run := ⟨none, []⟩

def Run.returned (r : Except TransferError Unit) : Run := ⟨some r, []⟩

def Run.after (piece : Nat × Bytes) (run : Run) : Run := { run with pieces := piece :: run.pieces }

/-- Write one buffer. An interrupted call is made again if `retries`; `zero` is the error of a call
    that writes nothing. A count beyond the buffer, which no kernel returns, ends the loop. -/
def writeLoop (retries : Bool) (zero : TransferError) :
    (offset : Nat) → (remaining : Bytes) → List KernelResult → Run
  | _, [], _ => .returned (.ok ())
  | _, _ :: _, [] => .waiting
  | offset, b :: remaining, .failed code :: results =>
    if retries ∧ code = eintr then writeLoop retries zero offset (b :: remaining) results
    else .returned (.error (.os code))
  | offset, b :: remaining, .moved count :: results =>
    if count = 0 then .returned (.error zero)
    else .after (offset, (b :: remaining).take count)
      (writeLoop retries zero (offset + count) ((b :: remaining).drop count) results)

/-- `write_all`: the kernel writes at the position of the descriptor and moves it on. -/
def writeAll (position : Nat) (buf : Bytes) (results : List KernelResult) : Run :=
  if buf = [] then .returned (.ok ())
  else writeLoop true (.writeZero "write returned zero bytes (no progress)") position buf results

/-- `pwrite_all`; unlike the others, `pwrite` hands an interruption to its caller. -/
def pwriteAll (buf : Bytes) (offset : Nat) (results : List KernelResult) : Run :=
  writeLoop false (.writeZero "pwrite returned zero bytes (no progress)") offset buf results

/-- Take `written` bytes off the buffers: whole buffers are removed, the next one starts later. -/
def advance : (written : Nat) → List Bytes → List Bytes
  | _, [] => []
  | written, iov :: rest =>
    if written > 0 then
      if written ≥ iov.length then advance (written - iov.length) rest
      else iov.drop written :: rest
    else iov :: rest

def writevLoop : (position : Nat) → (iovs : List Bytes) → List KernelResult → Run
  | _, [], _ => .returned (.ok ())
  | _, _ :: _, [] => .waiting
  | position, iov :: iovs, .failed code :: results =>
    if code = eintr then writevLoop position (iov :: iovs) results
    else .returned (.error (.os code))
  | position, iov :: iovs, .moved count :: results =>
    if count = 0 then .returned (.error (.writeZero "writev returned zero bytes (no progress)"))
    else .after (position, (iov :: iovs).flatten.take count)
      (writevLoop (position + count) (advance count (iov :: iovs)) results)

/-- `writev_all` -/
def writevAll (position : Nat) (bufs : List Bytes) (results : List KernelResult) : Run :=
  if bufs.all (·.isEmpty) then .returned (.ok ())
  else writevLoop position (bufs.filter (!·.isEmpty)) results

/-- The bytes of a file from `offset` on. -/
def fileBytes (file : Nat → UInt8) (offset length : Nat) : Bytes :=
  (List.range length).map fun i => file (offset + i)

/-- `pread_exact`, with the loop of `pread`, which makes an interrupted call again. -/
def preadExact (file : Nat → UInt8) : (offset length : Nat) → List KernelResult → Run
  | _, 0, _ => .returned (.ok ())
  | _, _ + 1, [] => .waiting
  | cur, missing + 1, .failed code :: results =>
    if code = eintr then preadExact file cur (missing + 1) results
    else .returned (.error (.os code))
  | cur, missing + 1, .moved count :: results =>
    if count = 0 then
      .returned (.error (.unexpectedEof "pread hit EOF before filling buffer"))
    else .after (cur, fileBytes file cur (min count (missing + 1)))
      (preadExact file (cur + count) (missing + 1 - count) results)

/-! ## 2. One loop -/

section Steps

variable {retries : Bool} {zero : TransferError} {offset : Nat} {bytes : Bytes}
  {results : List KernelResult}

@[simp] theorem writeLoop_done : writeLoop retries zero offset [] results = .returned (.ok ()) := by
  cases results <;> rfl

theorem writeLoop_wait (h : bytes ≠ []) : writeLoop retries zero offset bytes [] = .waiting := by
  cases bytes with
  | nil => exact absurd rfl h
  | cons => rfl

theorem writeLoop_failed (h : bytes ≠ []) (code : Nat) :
    writeLoop retries zero offset bytes (.failed code :: results) =
      if retries ∧ code = eintr then writeLoop retries zero offset bytes results
      else .returned (.error (.os code)) := by
  cases bytes with
  | nil => exact absurd rfl h
  | cons => rfl

theorem writeLoop_moved (h : bytes ≠ []) (count : Nat) :
    writeLoop retries zero offset bytes (.moved count :: results) =
      if count = 0 then .returned (.error zero)
      else .after (offset, bytes.take count)
        (writeLoop retries zero (offset + count) (bytes.drop count) results) := by
  cases bytes with
  | nil => exact absurd rfl h
  | cons => rfl

end Steps

theorem fileBytes_take (file : Nat → UInt8) (offset count length : Nat) :
    (fileBytes file offset length).take count = fileBytes file offset (min count length) := by
  rw [fileBytes, fileBytes, ← List.map_take, List.take_range]

theorem fileBytes_drop (file : Nat → UInt8) (offset count length : Nat) :
    (fileBytes file offset length).drop count = fileBytes file (offset + count) (length - count) := by
  refine List.ext_getElem (by simp [fileBytes]) fun i h h' => ?_
  simp [fileBytes, Nat.add_assoc]

/-- Reading is a loop over the bytes that the file has there. -/
theorem preadExact_eq (file : Nat → UInt8) (offset length : Nat) (results : List KernelResult) :
    preadExact file offset length results =
      writeLoop true (.unexpectedEof "pread hit EOF before filling buffer") offset
        (fileBytes file offset length) results := by
  have hbytes (missing : Nat) (offset : Nat) : fileBytes file offset (missing + 1) ≠ [] := by
    simp [fileBytes]
  induction results generalizing offset length with
  | nil =>
    cases length with
    | zero => rfl
    | succ missing => exact (writeLoop_wait (hbytes missing offset)).symm
  | cons r results ih =>
    cases length with
    | zero => rfl
    | succ missing =>
      have hbytes := hbytes missing offset
      cases r with
      | failed code =>
        rw [preadExact, writeLoop_failed hbytes, ih]
        simp
      | moved count =>
        rw [preadExact, writeLoop_moved hbytes, ih, fileBytes_take, fileBytes_drop]

/-- **What is left of the buffers is what is left of the bytes.** -/
theorem advance_flatten (written : Nat) (iovs : List Bytes) :
    (advance written iovs).flatten = iovs.flatten.drop written := by
  induction iovs generalizing written with
  | nil => simp [advance]
  | cons iov rest ih =>
    rw [advance, List.flatten_cons, List.drop_append]
    split
    · split
      · rename_i hall
        rw [ih, List.drop_eq_nil_of_le hall, List.nil_append]
      · rename_i hpart
        rw [List.flatten_cons, Nat.sub_eq_zero_of_le (by omega), List.drop_zero]
    · rename_i hzero
      obtain rfl : written = 0 := by omega
      rw [List.flatten_cons, Nat.zero_sub, List.drop_zero, List.drop_zero]

theorem advance_nonempty {written : Nat} {iovs : List Bytes} (h : ∀ iov ∈ iovs, iov ≠ []) :
    ∀ iov ∈ advance written iovs, iov ≠ [] := by
  induction iovs generalizing written with
  | nil => exact fun _ hiov => absurd hiov (List.not_mem_nil)
  | cons iov rest ih =>
    have hrest := fun iov' hiov' => h iov' (List.mem_cons_of_mem _ hiov')
    rw [advance]
    split
    · split
      · exact ih hrest
      · rename_i hpart
        intro iov' hiov'
        rcases List.mem_cons.mp hiov' with rfl | hiov'
        · exact fun hnil => hpart (List.drop_eq_nil_iff.mp hnil)
        · exact hrest iov' hiov'
    · exact h

/-- **Writing buffers is writing their bytes**, whatever the kernel returns. -/
theorem writevLoop_eq {iovs : List Bytes} (h : ∀ iov ∈ iovs, iov ≠ []) (position : Nat)
    (results : List KernelResult) :
    writevLoop position iovs results =
      writeLoop true (.writeZero "writev returned zero bytes (no progress)") position iovs.flatten
        results := by
  induction results generalizing position iovs with
  | nil =>
    cases iovs with
    | nil => rfl
    | cons iov rest => exact (writeLoop_wait (by simp [h iov List.mem_cons_self])).symm
  | cons r results ih =>
    cases iovs with
    | nil => rfl
    | cons iov rest =>
      have hbytes : (iov :: rest).flatten ≠ [] := by simp [h iov List.mem_cons_self]
      cases r with
      | failed code =>
        rw [writevLoop, writeLoop_failed hbytes, ih h]
        simp
      | moved count =>
        rw [writevLoop, writeLoop_moved hbytes, ih (advance_nonempty h), advance_flatten]

/-- `writev_all` writes the bytes of its buffers. -/
theorem writevAll_eq (position : Nat) (bufs : List Bytes) (results : List KernelResult) :
    writevAll position bufs results =
      writeLoop true (.writeZero "writev returned zero bytes (no progress)") position bufs.flatten
        results := by
  have hflatten : (bufs.filter (!·.isEmpty)).flatten = bufs.flatten :=
    List.flatten_filter_not_isEmpty
  unfold writevAll
  split
  · rename_i hempty
    have hnil : bufs.flatten = [] := by
      simpa [List.flatten_eq_nil_iff] using hempty
    rw [hnil, writeLoop_done]
  · rw [writevLoop_eq (by simp), hflatten]

theorem writeAll_eq (position : Nat) (buf : Bytes) (results : List KernelResult) :
    writeAll position buf results =
      writeLoop true (.writeZero "write returned zero bytes (no progress)") position buf results := by
  unfold writeAll
  split
  · rename_i hnil
    rw [hnil, writeLoop_done]
  · rfl

/-! ## 3. What a loop has done -/

/-- The error with which a loop ends at a result, if it ends there. -/
def KernelResult.stops (retries : Bool) (zero : TransferError) : KernelResult → Option TransferError
  | .moved count => if count = 0 then some zero else none
  | .failed code => if retries ∧ code = eintr then none else some (.os code)

def KernelResult.count : KernelResult → Nat
  | .moved count => count
  | .failed _ => 0

/-- How many bytes the results move until one of them ends the loop. -/
def total (retries : Bool) (zero : TransferError) (results : List KernelResult) : Nat :=
  ((results.takeWhile fun r => (r.stops retries zero).isNone).map KernelResult.count).sum

section Exact

variable {retries : Bool} {zero : TransferError} {offset : Nat} {bytes : Bytes}
  {results : List KernelResult} {r : KernelResult}

/-- The loop ends at a result. -/
theorem writeLoop_stop {e : TransferError} (hbytes : bytes ≠ [])
    (hr : r.stops retries zero = some e) :
    writeLoop retries zero offset bytes (r :: results) = .returned (.error e) := by
  cases r with
  | moved count =>
    rw [writeLoop_moved hbytes]
    simp only [KernelResult.stops] at hr
    split at hr
    · rw [if_pos ‹_›, Option.some.inj hr]
    · cases hr
  | failed code =>
    rw [writeLoop_failed hbytes]
    simp only [KernelResult.stops] at hr
    split at hr
    · cases hr
    · rw [if_neg ‹_›, Option.some.inj hr]

/-- The loop goes on behind a result. -/
theorem writeLoop_go (hbytes : bytes ≠ []) (hr : r.stops retries zero = none) :
    writeLoop retries zero offset bytes (r :: results) =
      let rest := writeLoop retries zero (offset + r.count) (bytes.drop r.count) results
      if r.count = 0 then rest else .after (offset, bytes.take r.count) rest := by
  cases r with
  | moved count =>
    rw [writeLoop_moved hbytes]
    simp only [KernelResult.stops] at hr
    split at hr
    · cases hr
    · rename_i hcount
      rw [if_neg hcount]
      exact (if_neg hcount).symm
  | failed code =>
    rw [writeLoop_failed hbytes]
    simp only [KernelResult.stops] at hr
    split at hr
    · rw [if_pos ‹_›]
      rfl
    · cases hr

theorem total_stop {e : TransferError} (hr : r.stops retries zero = some e) :
    total retries zero (r :: results) = 0 := by
  simp [total, hr]

theorem total_go (hr : r.stops retries zero = none) :
    total retries zero (r :: results) = r.count + total retries zero results := by
  simp [total, hr]

/-- **What the kernel returned decides the result.** Success when enough is moved before an error;
    otherwise the first error; otherwise the loop still waits. -/
theorem writeLoop_result (retries : Bool) (zero : TransferError) (offset : Nat) (bytes : Bytes)
    (results : List KernelResult) :
    (writeLoop retries zero offset bytes results).result =
      if bytes.length ≤ total retries zero results then some (.ok ())
      else (results.findSome? (KernelResult.stops retries zero)).map .error := by
  induction results generalizing offset bytes with
  | nil =>
    by_cases hbytes : bytes = []
    · subst hbytes
      rfl
    · rw [writeLoop_wait hbytes, if_neg (by simpa [total] using hbytes)]
      rfl
  | cons r results ih =>
    by_cases hbytes : bytes = []
    · subst hbytes
      rw [writeLoop_done, List.length_nil, if_pos (Nat.zero_le _)]
      rfl
    have hlength : 0 < bytes.length := List.length_pos_iff.mpr hbytes
    cases hr : r.stops retries zero with
    | some e =>
      rw [writeLoop_stop hbytes hr, total_stop hr, if_neg (by omega), List.findSome?_cons, hr]
      rfl
    | none =>
      have hrest := ih (offset + r.count) (bytes.drop r.count)
      rw [writeLoop_go hbytes hr, total_go hr, List.findSome?_cons, hr]
      rw [List.length_drop, if_congr Nat.sub_le_iff_le_add' rfl rfl] at hrest
      rw [← hrest]
      dsimp only
      split <;> rfl

/-- A first part of the bytes, moved once and in order, at adjoining offsets; and all of them
    exactly when the loop returns success. -/
structure InOrder (offset : Nat) (bytes : Bytes) (run : Run) : Prop where
  nonempty : ∀ piece ∈ run.pieces, piece.2 ≠ []
  adjoin : Adjoin offset run.pieces
  moved : content run.pieces <+: bytes
  complete : run.result = some (.ok ()) ↔ content run.pieces = bytes

theorem inOrder_done : InOrder offset [] (.returned (.ok ())) :=
  ⟨fun _ h => absurd h List.not_mem_nil, trivial, List.nil_prefix, iff_of_true rfl rfl⟩

/-- Nothing was moved, and something was to be moved. -/
theorem inOrder_nothing {run : Run} (hbytes : bytes ≠ []) (hpieces : run.pieces = [])
    (hresult : run.result ≠ some (.ok ())) : InOrder offset bytes run := by
  refine ⟨?_, ?_, ?_, iff_of_false hresult ?_⟩ <;> rw [hpieces]
  · exact fun _ h => absurd h List.not_mem_nil
  · trivial
  · exact List.nil_prefix
  · exact Ne.symm hbytes

theorem InOrder.pieces_eq_nil {run : Run} (h : InOrder offset [] run) : run.pieces = [] := by
  have hmoved := List.prefix_nil.mp h.moved
  cases hpieces : run.pieces with
  | nil => rfl
  | cons piece rest =>
    rw [hpieces, content_cons, List.append_eq_nil_iff] at hmoved
    exact absurd hmoved.1 (h.nonempty piece (hpieces ▸ List.mem_cons_self))

theorem InOrder.after {run : Run} {count : Nat} (hbytes : bytes ≠ []) (hcount : count ≠ 0)
    (h : InOrder (offset + count) (bytes.drop count) run) :
    InOrder offset bytes (.after (offset, bytes.take count) run) where
  nonempty := by
    intro piece hpiece
    rcases List.mem_cons.mp hpiece with rfl | hpiece
    · simp [hbytes, hcount]
    · exact h.nonempty piece hpiece
  adjoin := by
    refine ⟨rfl, ?_⟩
    rcases Nat.le_total count bytes.length with hle | hle
    · rw [List.length_take, Nat.min_eq_left hle]
      exact h.adjoin
    · -- nothing was left to be moved
      rw [List.drop_eq_nil_of_le hle] at h
      rw [h.pieces_eq_nil]
      trivial
  moved := by
    show bytes.take count ++ content run.pieces <+: bytes
    have hmoved := (List.prefix_append_right_inj (bytes.take count)).mpr h.moved
    rwa [List.take_append_drop] at hmoved
  complete := by
    show run.result = _ ↔ bytes.take count ++ content run.pieces = bytes
    rw [h.complete]
    nth_rewrite 3 [← List.take_append_drop count bytes]
    exact (List.append_cancel_left_eq ..).symm.to_iff

theorem writeLoop_inOrder (retries : Bool) (zero : TransferError) (offset : Nat) (bytes : Bytes)
    (results : List KernelResult) :
    InOrder offset bytes (writeLoop retries zero offset bytes results) := by
  induction results generalizing offset bytes with
  | nil =>
    by_cases hbytes : bytes = []
    · rw [hbytes, writeLoop_done]
      exact inOrder_done
    · rw [writeLoop_wait hbytes]
      exact inOrder_nothing hbytes rfl (fun h => by cases h)
  | cons r results ih =>
    by_cases hbytes : bytes = []
    · rw [hbytes, writeLoop_done]
      exact inOrder_done
    cases hr : r.stops retries zero with
    | some e =>
      rw [writeLoop_stop hbytes hr]
      exact inOrder_nothing hbytes rfl (fun h => by cases h)
    | none =>
      rw [writeLoop_go hbytes hr]
      dsimp only
      split
      · rename_i hcount
        rw [hcount]
        exact ih offset bytes
      · rename_i hcount
        exact (ih (offset + r.count) (bytes.drop r.count)).after hbytes hcount

/-- An interruption is not seen by a loop that makes the call again. -/
theorem writeLoop_interrupted (zero : TransferError) (offset : Nat) (bytes : Bytes)
    (results : List KernelResult) :
    writeLoop true zero offset bytes results =
      writeLoop true zero offset bytes (results.filter (· ≠ .failed eintr)) := by
  induction results generalizing offset bytes with
  | nil => rfl
  | cons r results ih =>
    by_cases hbytes : bytes = []
    · rw [hbytes, writeLoop_done, writeLoop_done]
    by_cases hr : r = .failed eintr
    · subst hr
      rw [List.filter_cons_of_neg (by simp), writeLoop_failed hbytes, if_pos ⟨rfl, rfl⟩, ih]
    · rw [List.filter_cons_of_pos (by simpa using hr)]
      cases hstop : r.stops true zero with
      | some e => rw [writeLoop_stop hbytes hstop, writeLoop_stop hbytes hstop]
      | none => rw [writeLoop_go hbytes hstop, writeLoop_go hbytes hstop, ih]

end Exact

/-! ## 4. The four loops -/

/-- The outcome of a loop is decided by the results of the kernel, and what it has moved is in
    order. -/
structure Exact (retries : Bool) (zero : TransferError) (offset : Nat) (bytes : Bytes)
    (results : List KernelResult) (run : Run) : Prop extends InOrder offset bytes run where
  result : run.result = if bytes.length ≤ total retries zero results then some (.ok ())
    else (results.findSome? (KernelResult.stops retries zero)).map .error

theorem writeLoop_exact (retries : Bool) (zero : TransferError) (offset : Nat) (bytes : Bytes)
    (results : List KernelResult) :
    Exact retries zero offset bytes results (writeLoop retries zero offset bytes results) :=
  ⟨writeLoop_inOrder .., writeLoop_result ..⟩

/-- A loop ends with the error of a result exactly when the results before it go on and move too
    little. -/
theorem Exact.zero_iff {retries : Bool} {zero : TransferError} {offset : Nat} {bytes : Bytes}
    {results : List KernelResult} {run : Run} (h : Exact retries zero offset bytes results run)
    (hzero : ∀ code, zero ≠ .os code) :
    run.result = some (.error zero) ↔ ∃ before rest, results = before ++ .moved 0 :: rest ∧
      (∀ r ∈ before, r.stops retries zero = none) ∧
      (before.map KernelResult.count).sum < bytes.length := by
  have htotal {before rest : List KernelResult}
      (hbefore : ∀ r ∈ before, r.stops retries zero = none) :
      total retries zero (before ++ .moved 0 :: rest) = (before.map KernelResult.count).sum := by
    rw [total, List.takeWhile_append_of_pos (by simpa using hbefore)]
    simp [KernelResult.stops]
  rw [h.result]
  constructor
  · intro hresult
    split at hresult
    · cases hresult
    · rename_i hlittle
      obtain ⟨e, hfirst, he⟩ := Option.map_eq_some_iff.mp hresult
      cases he
      obtain ⟨before, r, rest, rfl, hr, hbefore⟩ := List.findSome?_eq_some_iff.mp hfirst
      obtain rfl : r = .moved 0 := by
        cases r with
        | moved count =>
          by_cases hcount : count = 0
          · rw [hcount]
          · rw [KernelResult.stops, if_neg hcount] at hr
            cases hr
        | failed code =>
          simp only [KernelResult.stops] at hr
          split at hr
          · cases hr
          · exact absurd (Option.some.inj hr).symm (hzero code)
      rw [htotal hbefore] at hlittle
      exact ⟨before, rest, rfl, hbefore, by omega⟩
  · rintro ⟨before, rest, rfl, hbefore, hlittle⟩
    have hfirst : (before ++ .moved 0 :: rest).findSome? (KernelResult.stops retries zero) =
        some zero := List.findSome?_eq_some_iff.mpr ⟨before, _, rest, rfl, rfl, hbefore⟩
    rw [htotal hbefore, if_neg (by omega), hfirst]
    rfl

/-- **The transfer loops are exact**, whatever the kernel returns: what has been moved is a first
    part of the bytes, in order, at adjoining offsets, and all of it if and only if the loop returns
    success. `pread_exact` reports the end of the file if and only if a read of no bytes comes
    before enough is read. Interruptions change nothing, except that `pwrite_all` reports them;
    empty buffers change nothing. -/
theorem transfers_exact (results : List KernelResult) :
    (∀ position bufs, Exact true (.writeZero "writev returned zero bytes (no progress)") position
      bufs.flatten results (writevAll position bufs results)) ∧
    (∀ position buf, Exact true (.writeZero "write returned zero bytes (no progress)") position
      buf results (writeAll position buf results)) ∧
    (∀ buf offset, Exact false (.writeZero "pwrite returned zero bytes (no progress)") offset
      buf results (pwriteAll buf offset results)) ∧
    (∀ file offset length,
      let eof := TransferError.unexpectedEof "pread hit EOF before filling buffer"
      let run := preadExact file offset length results
      Exact true eof offset (fileBytes file offset length) results run ∧
      (run.result = some (.error eof) ↔ ∃ before rest, results = before ++ .moved 0 :: rest ∧
        (∀ r ∈ before, r.stops true eof = none) ∧
        (before.map KernelResult.count).sum < length)) ∧
    (∀ position bufs, writevAll position bufs results =
      writevAll position bufs (results.filter (· ≠ .failed eintr))) ∧
    (∀ position buf, writeAll position buf results =
      writeAll position buf (results.filter (· ≠ .failed eintr))) ∧
    (∀ file offset length, preadExact file offset length results =
      preadExact file offset length (results.filter (· ≠ .failed eintr))) ∧
    ∀ position bufs, writevAll position bufs results =
      writevAll position (bufs.filter (!·.isEmpty)) results := by
  refine ⟨?_, ?_, ?_, ?_, ?_, ?_, ?_, ?_⟩
  · intro position bufs
    rw [writevAll_eq]
    exact writeLoop_exact ..
  · intro position buf
    rw [writeAll_eq]
    exact writeLoop_exact ..
  · intro buf offset
    exact writeLoop_exact ..
  · intro file offset length eof run
    have hexact : Exact true eof offset (fileBytes file offset length) results run := by
      show Exact true eof _ _ _ (preadExact ..)
      rw [preadExact_eq]
      exact writeLoop_exact ..
    refine ⟨hexact, ?_⟩
    rw [hexact.zero_iff (by simp [eof]), fileBytes, List.length_map, List.length_range]
  · intro position bufs
    rw [writevAll_eq, writevAll_eq, writeLoop_interrupted]
  · intro position buf
    rw [writeAll_eq, writeAll_eq, writeLoop_interrupted]
  · intro file offset length
    rw [preadExact_eq, preadExact_eq, writeLoop_interrupted]
  · intro position bufs
    rw [writevAll_eq, writevAll_eq, List.flatten_filter_not_isEmpty]

/-- Two short writes and an interruption, with an empty buffer in between: the second buffer is cut
    in two. -/
example : writevAll 10 [[1, 2], [], [3, 4]] [.moved 3, .failed eintr, .moved 1] =
    ⟨some (.ok ()), [(10, [1, 2, 3]), (13, [4])]⟩ := by decide

/-! ## 5. The calls of the file system -/

/-- **What stands in the file.** The pieces of a transfer that succeeded, written one by one, are
    the bytes written at once. -/
theorem InOrder.stored {offset : Nat} {bytes data : Bytes} {run : Run} (h : InOrder offset bytes run)
    (hok : run.result = some (.ok ())) (hdata : offset ≤ data.length) :
    run.pieces.foldl (fun d piece => splice d piece.1 piece.2) data = splice data offset bytes := by
  rw [foldl_splice h.adjoin hdata, h.complete.mp hok]

section World

variable {w : World} {t : HandleId} {i : Ino} {node : Inode} {bytes : Bytes}
  {results : List KernelResult}

/-- The file with the pieces of a run written to it. -/
def store (w : World) (i : Ino) (run : Run) : World :=
  w.setInode i fun n =>
    { n with data := run.pieces.foldl (fun d piece => splice d piece.1 piece.2) n.data }

theorem setInode_congr {f g : Inode → Inode} (hnode : w.inodes i = some node)
    (h : f node = g node) : w.setInode i f = w.setInode i g := by
  have hinodes : (fun j => if j = i then (w.inodes j).map f else w.inodes j) =
      fun j => if j = i then (w.inodes j).map g else w.inodes j := by
    funext j
    by_cases hj : j = i
    · rw [if_pos hj, if_pos hj, hj, hnode, Option.map_some, Option.map_some, h]
    · rw [if_neg hj, if_neg hj]
  rw [World.setInode, hinodes, World.setInode]

/-- `write_all` at the end of a file is the call that the world answers at once. -/
theorem writeAll_refines (hnode : w.inodes i = some node)
    (hok : (writeAll node.data.length bytes results).result = some (.ok ())) :
    w.apply t (.write i bytes) .plain =
      some (.ok (), store w i (writeAll node.data.length bytes results)) := by
  have horder : InOrder node.data.length bytes (writeAll node.data.length bytes results) := by
    rw [writeAll_eq]
    exact writeLoop_inOrder ..
  have hstored := horder.stored hok le_rfl
  rw [splice_end] at hstored
  refine congrArg some (Prod.ext rfl (setInode_congr hnode ?_))
  rw [hstored]

/-- So is `pwrite_all` within a file. -/
theorem pwriteAll_refines {offset : Nat} (hnode : w.inodes i = some node)
    (hoffset : offset ≤ node.data.length)
    (hok : (pwriteAll bytes offset results).result = some (.ok ())) :
    w.apply t (.pwrite i bytes offset) .plain =
      some (.ok (), store w i (pwriteAll bytes offset results)) := by
  have hstored := (writeLoop_inOrder ..).stored hok hoffset
  refine congrArg some (Prod.ext rfl (setInode_congr hnode ?_))
  show { node with data := _ } = { node with data := _ }
  rw [pwriteAll, hstored]
  rfl

/-- And `pread_exact` of bytes that the file has. -/
theorem preadExact_refines {offset length : Nat} (hnode : w.inodes i = some node)
    (hlength : offset + length ≤ node.data.length)
    (hok : (preadExact (node.data.getD · 0) offset length results).result = some (.ok ())) :
    w.answer (.pread i offset length) .plain =
      some (.ok (content (preadExact (node.data.getD · 0) offset length results).pieces)) := by
  have hfile : fileBytes (node.data.getD · 0) offset length = slice node.data offset length := by
    refine List.ext_getElem (by simp [fileBytes, slice]; omega) fun k hk _ => ?_
    have hk : k < length := by simpa [fileBytes] using hk
    have hin : offset + k < node.data.length := by omega
    simp [fileBytes, slice, hin]
  rw [preadExact_eq] at hok ⊢
  rw [(writeLoop_inOrder ..).complete.mp hok, hfile, World.answer, hnode]

end World

end SteadQ.Transfer
