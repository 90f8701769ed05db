/-
  File:      SteadQ/Probe.lean
  Subject:   THE PROBE FOR A DUPLICATE ACKNOWLEDGMENT against the retention of receipts.

  A receipt bucket is deleted when its end plus the retention is not after the floor; a probe
  covers `ceil(retention / width) + 2` buckets before the bucket of the floor. The two roundings
  are written independently.
-/
import SteadQ.Content
import SteadQ.Fresh

namespace SteadQ

open Octet Interact

/-! ## 1. Buckets -/

section Buckets

variable {bucket width retention wall : UInt64}

/-- A bucket is over when its end and the retention fit before the floor. -/
theorem retentionIsOver_iff : retentionIsOver bucket width retention wall = true ↔
    (bucket.toNat + 1) * width.toNat + retention.toNat ≤ wall.toNat := by
  have hwall := wall.toNat_lt
  have hexpand : (bucket.toNat + 1) * width.toNat = bucket.toNat * width.toNat + width.toNat :=
    Nat.succ_mul ..
  unfold retentionIsOver
  split
  · rename_i hmul
    rw [checkedMulU64_eq_none] at hmul
    simp only [Bool.false_eq_true, false_iff]
    omega
  · rename_i start hstart
    rw [checkedMulU64_eq_some] at hstart
    split
    · rename_i hadd
      rw [checkedAddU64_eq_none] at hadd
      simp only [Bool.false_eq_true, false_iff]
      omega
    · rename_i stop hstop
      rw [checkedAddU64_eq_some] at hstop
      split
      · rename_i hadd
        rw [checkedAddU64_eq_none] at hadd
        simp only [Bool.false_eq_true, false_iff]
        omega
      · rename_i threshold hthreshold
        rw [checkedAddU64_eq_some] at hthreshold
        rw [decide_eq_true_eq, UInt64.le_iff_toNat_le]
        omega

/-- The buckets of a probe. -/
def InProbe (range : UInt64 × Nat) (b : UInt64) : Prop :=
  range.1.toNat ≤ b.toNat ∧ b.toNat < range.1.toNat + range.2

/-- The probe of an accepted retention: nothing overflows, and it ends with the floor's bucket. -/
theorem probeRange_accepted (wall : UInt64) (hr : retentionIsAccepted retention width = true) :
    ∃ now buckets first count, bucketNumber wall width = some now ∧
      ceilingBucket retention width = some buckets ∧ buckets.toNat + 2 ≤ 4096 ∧
      probeRange wall retention width = some (first, count) ∧
      first.toNat = now.toNat - (buckets.toNat + 2) ∧ first.toNat + count = now.toNat + 1 := by
  unfold retentionIsAccepted at hr
  split at hr
  · cases hr
  · rename_i buckets hbuckets
    have hw := (ceilingBucket_eq_some.mp hbuckets).1
    have hbound : buckets.toNat + 2 ≤ 4096 := by
      simp only [decide_eq_true_eq] at hr
      omega
    obtain ⟨now, hnow⟩ : ∃ now, bucketNumber wall width = some now :=
      ⟨UInt64.ofNat (wall.toNat / width.toNat), bucketNumber_eq_some.mpr ⟨hw, by
        rw [UInt64.toNat_ofNat_of_lt']
        exact lt_of_le_of_lt (Nat.div_le_self ..) wall.toNat_lt⟩⟩
    have hlt : now.toNat - (buckets.toNat + 2) < 2 ^ 64 :=
      lt_of_le_of_lt (Nat.sub_le ..) now.toNat_lt
    have hfirst : (UInt64.ofNat (now.toNat - (buckets.toNat + 2))).toNat =
        now.toNat - (buckets.toNat + 2) := UInt64.toNat_ofNat_of_lt' hlt
    refine ⟨now, buckets, _, now.toNat - (now.toNat - (buckets.toNat + 2)) + 1, hnow, hbuckets,
      hbound, ?_, hfirst, ?_⟩
    · simp only [probeRange, hnow, hbuckets]
    · rw [hfirst]
      omega

/-- **A bucket that is kept is a bucket that is probed.** -/
theorem mem_probe_of_kept {now buckets first b : UInt64} {count : Nat}
    (hnow : bucketNumber wall width = some now) (hbuckets : ceilingBucket retention width = some buckets)
    (hfirst : first.toNat = now.toNat - (buckets.toNat + 2))
    (hcount : first.toNat + count = now.toNat + 1) (hb : b ≤ now)
    (hkept : retentionIsOver b width retention wall = false) : InProbe (first, count) b := by
  obtain ⟨hw, hnow⟩ := bucketNumber_eq_some.mp hnow
  obtain ⟨-, hbuckets⟩ := ceilingBucket_eq_some.mp hbuckets
  rw [UInt64.le_iff_toNat_le] at hb
  refine ⟨?_, by show b.toNat < first.toNat + count; omega⟩
  show first.toNat ≤ b.toNat
  by_contra hlt
  -- otherwise the bucket, the retention and two buckets more end before the floor
  have hfar : b.toNat + 1 + buckets.toNat ≤ now.toNat := by omega
  have hret : retention.toNat ≤ buckets.toNat * width.toNat := hbuckets ▸ le_ceilDiv_mul hw
  have hover : retentionIsOver b width retention wall = true := by
    rw [retentionIsOver_iff]
    calc (b.toNat + 1) * width.toNat + retention.toNat
        ≤ (b.toNat + 1) * width.toNat + buckets.toNat * width.toNat := by omega
      _ = (b.toNat + 1 + buckets.toNat) * width.toNat := (Nat.add_mul ..).symm
      _ ≤ now.toNat * width.toNat := Nat.mul_le_mul_right _ hfar
      _ ≤ wall.toNat := hnow ▸ Nat.div_mul_le_self ..
  rw [hkept] at hover
  cases hover

end Buckets

/-! ## 2. The probe -/

/-- Bucket `b` holds the exact receipt of the lease, and the verification accepts it. -/
def World.HoldsReceipt (w : World) (h : Handle) (lease : LeaseInfo) (expected : ExpectedReceipt)
    (b : UInt64) : Prop :=
  let shard := computeShard h.format.queueId lease.jobId h.format.shardCount
  let name := makeReceiptName h.format.queueId (bucketHex b) (shardHex shard) expected.common
    lease.token
  ∃ dir entry receipt, w.dirs (bucketShardDir .receipt b shard) = some dir ∧
    dir.entries.lookup name = some entry ∧
    (verifyReceiptOnFd entry.number ⟨bucketHex b, shardHex shard, name⟩ (some expected)).eval
      w.reply h = (.ok receipt, h)

section Probe

variable {w : World} {h : Handle} {lease : LeaseInfo} {expected : ExpectedReceipt}

/-- One bucket of the probe: the receipt is there, or the next bucket decides. -/
theorem eval_probeReceipts_succ (h : Handle) (lease : LeaseInfo) (expected : ExpectedReceipt)
    (hroot : (w.live rootDir).isSome) (count : Nat) (b : UInt64) :
    let shard := computeShard h.format.queueId lease.jobId h.format.shardCount
    (w.HoldsReceipt h lease expected b ∧
        (probeReceipts lease expected shard (count + 1) b).eval w.reply h = (.ok true, h)) ∨
      (¬ w.HoldsReceipt h lease expected b ∧
        (probeReceipts lease expected shard (count + 1) b).eval w.reply h =
          (probeReceipts lease expected shard count (b + 1)).eval w.reply h) := by
  intro shard
  simp only [probeReceipts, Task.eval_bind, Task.eval_memory, Task.evalThen_ok, Task.eval_attempt,
    eval_openRelative hroot]
  cases hdir : w.dirs (bucketShardDir .receipt b shard) with
  | none =>
    refine .inr ⟨?_, rfl⟩
    rintro ⟨dir, _, _, hdir', -, -⟩
    rw [hdir] at hdir'
    cases hdir'
  | some dir =>
    dsimp only
    simp only [Task.eval_bind, Task.eval_attempt, eval_openAt hdir, Task.evalThen_ok]
    cases hentry : dir.entries.lookup (makeReceiptName h.format.queueId (bucketHex b)
        (shardHex shard) expected.common lease.token) with
    | none =>
      refine .inr ⟨?_, rfl⟩
      rintro ⟨dir', _, _, hdir', hentry', -⟩
      rw [hdir] at hdir'
      cases hdir'
      rw [hentry] at hentry'
      cases hentry'
    | some entry =>
      dsimp only
      obtain ⟨x, hx, hio⟩ := eval_verifyReceiptOnFd (w := w) (h := h) entry.number
        ⟨bucketHex b, shardHex shard, makeReceiptName h.format.queueId (bucketHex b)
          (shardHex shard) expected.common lease.token⟩ (some expected)
      simp only [Task.eval_bind, Task.eval_attempt, hx, Task.evalThen_ok]
      cases x with
      | ok receipt => exact .inl ⟨⟨dir, entry, receipt, hdir, hentry, hx⟩, rfl⟩
      | error e =>
        refine .inr ⟨?_, ?_⟩
        · rintro ⟨dir', entry', receipt, hdir', hentry', hreceipt⟩
          rw [hdir] at hdir'
          cases hdir'
          rw [hentry] at hentry'
          cases hentry'
          rw [hx] at hreceipt
          cases hreceipt
        · cases e with
          | io message => exact absurd rfl (hio _ rfl message)
          | corrupt message => rfl
          | payloadCorrupt => rfl

/-- The probe answers whether one of its buckets holds the receipt. -/
theorem eval_probeReceipts (h : Handle) (lease : LeaseInfo) (expected : ExpectedReceipt)
    (hroot : (w.live rootDir).isSome) (count : Nat) (b : UInt64) :
    ∃ found, (probeReceipts lease expected
        (computeShard h.format.queueId lease.jobId h.format.shardCount) count b).eval w.reply h =
          (.ok found, h) ∧
      (found = true ↔ ∃ i < count, w.HoldsReceipt h lease expected (b + UInt64.ofNat i)) := by
  induction count generalizing b with
  | zero => exact ⟨false, rfl, by simp⟩
  | succ count ih =>
    rcases eval_probeReceipts_succ h lease expected hroot count b
      with ⟨hholds, heval⟩ | ⟨hnot, heval⟩
    · refine ⟨true, heval, iff_of_true rfl ⟨0, Nat.succ_pos _, ?_⟩⟩
      simpa using hholds
    · obtain ⟨found, hfound, hiff⟩ := ih (b + 1)
      refine ⟨found, heval.trans hfound, hiff.trans ?_⟩
      have hshift (i : Nat) : b + 1 + UInt64.ofNat i = b + UInt64.ofNat (i + 1) := by
        rw [UInt64.ofNat_add, UInt64.add_assoc, UInt64.add_comm 1]
        rfl
      constructor
      · rintro ⟨i, hi, hholds⟩
        exact ⟨i + 1, Nat.succ_lt_succ hi, hshift i ▸ hholds⟩
      · rintro ⟨i, hi, hholds⟩
        cases i with
        | zero => exact absurd (by simpa using hholds) hnot
        | succ i => exact ⟨i, Nat.lt_of_succ_lt_succ hi, hshift i ▸ hholds⟩

/-- A bucket is in a probe that does not wrap around exactly when the probe comes by it. -/
theorem inProbe_iff {first b : UInt64} {count : Nat} (hfits : first.toNat + count ≤ 2 ^ 64) :
    InProbe (first, count) b ↔ ∃ i < count, b = first + UInt64.ofNat i := by
  have hat {i : Nat} (hi : i < count) : (first + UInt64.ofNat i).toNat = first.toNat + i := by
    have hlt : i < 2 ^ 64 := by omega
    rw [UInt64.toNat_add, UInt64.toNat_ofNat_of_lt' hlt, Nat.mod_eq_of_lt (by omega)]
  constructor
  · rintro ⟨hle, hlt⟩
    have hi : b.toNat - first.toNat < count := Nat.sub_lt_left_of_lt_add hle hlt
    refine ⟨b.toNat - first.toNat, hi, UInt64.toNat_inj.mp ?_⟩
    rw [hat hi]
    exact (Nat.add_sub_cancel' hle).symm
  · rintro ⟨i, hi, rfl⟩
    show first.toNat ≤ _ ∧ _ < first.toNat + count
    rw [hat hi]
    omega

/-- **The probe and the retention agree.** For an accepted retention and any floor nothing
    overflows, a bucket the floor keeps is probed, and the probe answers `true` exactly when a
    probed bucket holds a receipt the verification accepts for the lease. -/
theorem probe_matches_retention (h : Handle) (floor : WallFloor)
    (hr : retentionIsAccepted h.options.receiptRetentionNs h.format.terminalBucketWidthNs = true) :
    ∃ now buckets range,
      bucketNumber floor.unixNs h.format.terminalBucketWidthNs = some now ∧
      ceilingBucket h.options.receiptRetentionNs h.format.terminalBucketWidthNs = some buckets ∧
      probeRange floor.unixNs h.options.receiptRetentionNs h.format.terminalBucketWidthNs =
        some range ∧
      buckets.toNat + 2 ≤ 4096 ∧ range.1.toNat + range.2 = now.toNat + 1 ∧
      (∀ b ≤ now, retentionIsOver b h.format.terminalBucketWidthNs h.options.receiptRetentionNs
        floor.unixNs = false → InProbe range b) ∧
      ∀ (w : World) (lease : LeaseInfo), (w.live rootDir).isSome →
        ∃ found, (checkDuplicateAckBounded lease floor).eval w.reply h = (.ok found, h) ∧
          (found = true ↔ ∃ expected b, expectedReceiptFor lease = some expected ∧
            InProbe range b ∧ w.HoldsReceipt h lease expected b) := by
  obtain ⟨now, buckets, first, count, hnow, hbuckets, hbound, hrange, hfirst, hcount⟩ :=
    probeRange_accepted floor.unixNs hr
  refine ⟨now, buckets, (first, count), hnow, hbuckets, hrange, hbound, hcount, ?_, ?_⟩
  · intro b hb hkept
    exact mem_probe_of_kept hnow hbuckets hfirst hcount hb hkept
  · intro w lease hroot
    unfold checkDuplicateAckBounded
    rw [Task.eval_bind, Task.eval_memory, Task.evalThen_ok, hrange]
    cases hexpected : expectedReceiptFor lease with
    | none => exact ⟨false, rfl, by simp⟩
    | some expected =>
      have hnowlt := now.toNat_lt
      obtain ⟨found, heval, hiff⟩ := eval_probeReceipts h lease expected hroot count first
      refine ⟨found, heval, hiff.trans ?_⟩
      constructor
      · rintro ⟨i, hi, hholds⟩
        exact ⟨expected, _, rfl, (inProbe_iff (by omega)).mpr ⟨i, hi, rfl⟩, hholds⟩
      · rintro ⟨_, b, ⟨⟩, hb, hholds⟩
        obtain ⟨i, hi, rfl⟩ := (inProbe_iff (by omega)).mp hb
        exact ⟨i, hi, hholds⟩

end Probe

/-- Without a retention, five minutes after the epoch. -/
theorem probe_matches_retention_fresh :
    retentionIsAccepted 0 sampleFormat.terminalBucketWidthNs = true ∧
    ∃ now buckets range,
      bucketNumber 300000000000 sampleFormat.terminalBucketWidthNs = some now ∧
      ceilingBucket 0 sampleFormat.terminalBucketWidthNs = some buckets ∧
      probeRange 300000000000 0 sampleFormat.terminalBucketWidthNs = some range ∧
      buckets.toNat + 2 ≤ 4096 ∧ range.1.toNat + range.2 = now.toNat + 1 ∧
      (∀ b ≤ now, retentionIsOver b sampleFormat.terminalBucketWidthNs 0 300000000000 = false →
        InProbe range b) ∧
      ∀ (w : World) (lease : LeaseInfo), (w.live rootDir).isSome →
        ∃ found, (checkDuplicateAckBounded lease ⟨300000000000, 5, 1⟩).eval w.reply sampleHandle =
            (.ok found, sampleHandle) ∧
          (found = true ↔ ∃ expected b, expectedReceiptFor lease = some expected ∧
            InProbe range b ∧ w.HoldsReceipt sampleHandle lease expected b) :=
  ⟨by decide, probe_matches_retention sampleHandle ⟨300000000000, 5, 1⟩ (by decide)⟩

/-- The buckets 3, 4 and 5 are probed, and the floor keeps bucket 5 only. -/
example : probeRange 300000000000 0 60000000000 = some (3, 3) ∧
    retentionIsOver 5 60000000000 0 300000000000 = false ∧
    retentionIsOver 4 60000000000 0 300000000000 = true := by decide

/-! ## 3. How many buckets -/

/-- The directory a look opens by its path. -/
def Look.opens : Look → Option Path
  | .openDirectory _ path => some path
  | _ => none

/-- The directories that are opened in a record. -/
def dirsOpened (es : Log Look.Resp) : List Path := es.filterMap fun e => e.1.opens

/-- The receipt directories of one shard in `count` buckets from `bucket` on. -/
def receiptDirs (shard : UInt32) : (count : Nat) → (bucket : UInt64) → List Path
  | 0, _ => []
  | count + 1, bucket => bucketShardDir .receipt bucket shard :: receiptDirs shard count (bucket + 1)

section Count

variable {shard : UInt32} {h : Handle} {lease : LeaseInfo} {expected : ExpectedReceipt}

theorem length_receiptDirs (shard : UInt32) (count : Nat) (b : UInt64) :
    (receiptDirs shard count b).length = count := by
  induction count generalizing b with
  | zero => rfl
  | succ count ih => exact congrArg Nat.succ (ih (b + 1))

theorem toNat_next {b : UInt64} (h : b.toNat + 1 < 2 ^ 64) : (b + 1).toNat = b.toNat + 1 := by
  rw [UInt64.toNat_add]
  exact Nat.mod_eq_of_lt h

theorem mem_receiptDirs {count : Nat} {b : UInt64} {path : Path}
    (hfits : b.toNat + count ≤ 2 ^ 64) (hpath : path ∈ receiptDirs shard count b) :
    ∃ b' : UInt64, b.toNat ≤ b'.toNat ∧ path = bucketShardDir .receipt b' shard := by
  induction count generalizing b with
  | zero => cases hpath
  | succ count ih =>
    rcases List.mem_cons.mp hpath with rfl | hrest
    · exact ⟨b, le_rfl, rfl⟩
    · cases count with
      | zero => cases hrest
      | succ count =>
        have hnext := toNat_next (b := b) (by omega)
        obtain ⟨b', hle, hb'⟩ := ih (by omega) hrest
        exact ⟨b', by omega, hb'⟩

/-- Buckets that do not wrap around have different directories. -/
theorem nodup_receiptDirs {count : Nat} {b : UInt64} (hfits : b.toNat + count ≤ 2 ^ 64) :
    (receiptDirs shard count b).Nodup := by
  induction count generalizing b with
  | zero => exact List.nodup_nil
  | succ count ih =>
    cases count with
    | zero => exact List.nodup_singleton _
    | succ count =>
      have hnext := toNat_next (b := b) (by omega)
      refine List.nodup_cons.mpr ⟨fun hmem => ?_, ih (by omega)⟩
      obtain ⟨b', hle, heq⟩ := mem_receiptDirs (by omega) hmem
      have hsame : bucketHex b = bucketHex b' := (List.cons.inj (List.cons.inj heq).2).1
      rw [← bucketHex_injective hsame] at hle
      omega

/-- Who looks at one file only opens no directory. -/
theorem OfFile.opens {ε α : Type} {file : Ino} {m : LookM ε α} (hm : OfFile file m)
    (l : Log Look.Resp) : m.Notes Sigma.mk h l fun _ _ l' => dirsOpened l' = dirsOpened l := by
  refine Task.Asks.notes (I := fun l' => dirsOpened l' = dirsOpened l) hm rfl ?_
  intro a r l' ha hl'
  cases a <;> first | exact hl' | cases ha

/-- **The probe opens its buckets one by one**, and may end early. -/
theorem probeReceipts_opens (count : Nat) (b : UInt64) (h : Handle) (l : Log Look.Resp) :
    (probeReceipts lease expected shard count b).Notes Sigma.mk h l fun _ _ l' =>
      ∃ n ≤ count, dirsOpened l' = (receiptDirs shard n b).reverse ++ dirsOpened l := by
  induction count generalizing b h l with
  | zero => exact Task.notes_pure ⟨0, le_rfl, rfl⟩
  | succ count ih =>
    let dir := bucketShardDir .receipt b shard
    -- this bucket alone, or this bucket and those of the rest
    have hlast {l' : Log Look.Resp} (hl' : dirsOpened l' = dir :: dirsOpened l) :
        ∃ n ≤ count + 1, dirsOpened l' = (receiptDirs shard n b).reverse ++ dirsOpened l :=
      ⟨1, Nat.le_add_left .., hl'⟩
    have hrest (s : Handle) {l' : Log Look.Resp} (hl' : dirsOpened l' = dir :: dirsOpened l) :
        (probeReceipts lease expected shard count (b + 1)).Notes Sigma.mk s l' fun _ _ l'' =>
          ∃ n ≤ count + 1, dirsOpened l'' = (receiptDirs shard n b).reverse ++ dirsOpened l := by
      refine (ih (b + 1) s l').mono ?_
      rintro _ _ l'' - ⟨n, hn, hopened⟩
      refine ⟨n + 1, Nat.succ_le_succ hn, ?_⟩
      rw [hopened, hl', receiptDirs, List.reverse_cons, List.append_assoc]
      rfl
    refine Task.notes_memory (Task.Notes.attempt (Task.notes_call (Q := fun _ _ l' =>
      dirsOpened l' = dir :: dirsOpened l) fun _ => rfl) ?_)
    intro x s l' _ hl'
    split
    · exact hrest s hl'
    · exact Task.notes_throw (hlast hl')
    · refine Task.Notes.attempt (Task.notes_call (Q := fun _ _ l' =>
        dirsOpened l' = dir :: dirsOpened l) fun _ => hl') ?_
      intro y s l' _ hl'
      split
      · exact hrest s hl'
      · exact Task.notes_throw (hlast hl')
      · refine Task.Notes.attempt ((verifyReceiptOnFd_ofFile _ _ _).opens l') ?_
        intro z s l'' _ hl''
        rw [hl'] at hl''
        split
        · exact Task.notes_pure (hlast hl'')
        · exact Task.notes_throw (hlast hl'')
        · exact hrest s hl''

end Count

/-- The record of a probe that finds no directory of receipts. -/
def absentDirs (shard : UInt32) (count : Nat) (b : UInt64) : Log Look.Resp :=
  (receiptDirs shard count b).map fun path => ⟨.openDirectory rootDir path, .error .enoent⟩

theorem dirsOpened_absentDirs (shard : UInt32) (count : Nat) (b : UInt64) :
    dirsOpened (absentDirs shard count b) = receiptDirs shard count b := by
  rw [dirsOpened, absentDirs, List.filterMap_map]
  exact List.filterMap_some

/-- Where no directory is found, all buckets are probed. -/
theorem probeReceipts_absent (lease : LeaseInfo) (expected : ExpectedReceipt) (shard : UInt32)
    (h : Handle) (count : Nat) (b : UInt64) :
    ((probeReceipts lease expected shard count b).start h).Trace (absentDirs shard count b)
      (.ok false, h) := by
  induction count generalizing b with
  | zero => exact .ret _
  | succ count ih => exact .act _ _ _ _ _ (ih (b + 1))

section Bound

variable {h h' : Handle} {floor : WallFloor} {lease : LeaseInfo}

theorem checkDuplicateAck_opens {first : UInt64} {count : Nat} {es : Log Look.Resp}
    {r : Except Error Bool} (hrange : probeRange floor.unixNs h.options.receiptRetentionNs
      h.format.terminalBucketWidthNs = some (first, count))
    (ht : ((checkDuplicateAckBounded lease floor).start h).Trace es (r, h')) :
    ∃ n ≤ count, dirsOpened es =
      receiptDirs (computeShard h.format.queueId lease.jobId h.format.shardCount) n first := by
  have hnotes : (checkDuplicateAckBounded lease floor).Notes Sigma.mk h [] fun _ _ l' =>
      ∃ n ≤ count, dirsOpened l' = (receiptDirs
        (computeShard h.format.queueId lease.jobId h.format.shardCount) n first).reverse ++ [] := by
    refine Task.notes_memory ?_
    rw [hrange]
    cases hexpected : expectedReceiptFor lease with
    | none => exact Task.notes_pure ⟨0, Nat.zero_le _, rfl⟩
    | some expected => exact probeReceipts_opens count first h []
  obtain ⟨n, hn, hopened⟩ := hnotes.trace ht
  refine ⟨n, hn, ?_⟩
  rw [List.append_nil, dirsOpened, List.filterMap_reverse] at hopened
  exact List.reverse_injective hopened

theorem checkDuplicateAck_absent {first : UInt64} {count : Nat} {expected : ExpectedReceipt}
    (hrange : probeRange floor.unixNs h.options.receiptRetentionNs
      h.format.terminalBucketWidthNs = some (first, count))
    (hexpected : expectedReceiptFor lease = some expected) :
    ((checkDuplicateAckBounded lease floor).start h).Trace
      (absentDirs (computeShard h.format.queueId lease.jobId h.format.shardCount) count first)
      (.ok false, h) := by
  have hmemory (k : Handle → LookM Error Bool) : (Task.memory >>= k).start h = (k h).start h := rfl
  rw [checkDuplicateAckBounded, hmemory, hrange, hexpected]
  exact probeReceipts_absent lease expected _ h count first

/-- **How many buckets a probe examines.** No bucket twice; and never more than 4096, unless the
    retention takes 4094 buckets, the most that is accepted, and 4096 buckets lie before the
    floor: the admission allows for two buckets more than the retention, the probe for three. -/
theorem probe_within_bound_iff (h : Handle) (floor : WallFloor)
    (hr : retentionIsAccepted h.options.receiptRetentionNs h.format.terminalBucketWidthNs = true) :
    (∀ lease es r h', ((checkDuplicateAckBounded lease floor).start h).Trace es (r, h') →
      (dirsOpened es).Nodup ∧ ∃ n first, dirsOpened es =
        receiptDirs (computeShard h.format.queueId lease.jobId h.format.shardCount) n first) ∧
    ((∀ lease es r h', ((checkDuplicateAckBounded lease floor).start h).Trace es (r, h') →
      (dirsOpened es).length ≤ 4096) ↔
      (ceilingBucket h.options.receiptRetentionNs h.format.terminalBucketWidthNs = some 4094 →
        floor.unixNs.toNat < 4096 * h.format.terminalBucketWidthNs.toNat)) := by
  obtain ⟨now, buckets, first, count, hnow, hbuckets, hbound, hrange, hfirst, hcount⟩ :=
    probeRange_accepted floor.unixNs hr
  obtain ⟨hwidth, hnow⟩ := bucketNumber_eq_some.mp hnow
  have hnowlt := now.toNat_lt
  have hmany : 4096 < count ↔ buckets = 4094 ∧ 4096 ≤ now.toNat := by
    rw [← UInt64.toNat_inj]
    show 4096 < count ↔ buckets.toNat = 4094 ∧ 4096 ≤ now.toNat
    omega
  have hfloor : 4096 ≤ now.toNat ↔ 4096 * h.format.terminalBucketWidthNs.toNat ≤
      floor.unixNs.toNat := by
    rw [hnow, Nat.le_div_iff_mul_le hwidth]
  rw [hfloor] at hmany
  refine ⟨fun lease es r h' ht => ?_, ?_, ?_⟩
  · obtain ⟨n, hn, hopened⟩ := checkDuplicateAck_opens hrange ht
    refine ⟨?_, n, first, hopened⟩
    rw [hopened]
    exact nodup_receiptDirs (by omega)
  · intro hall hextreme
    by_contra hlate
    obtain rfl := Option.some.inj (hbuckets.symm.trans hextreme)
    have hover := hmany.mpr ⟨rfl, not_lt.mp hlate⟩
    have hlength := hall sampleLease _ _ _ (checkDuplicateAck_absent hrange rfl)
    rw [dirsOpened_absentDirs, length_receiptDirs] at hlength
    exact absurd hlength (not_le.mpr hover)
  · intro hcond lease es r h' ht
    obtain ⟨n, hn, hopened⟩ := checkDuplicateAck_opens hrange ht
    rw [hopened, length_receiptDirs]
    by_contra hover
    obtain ⟨rfl, hlate⟩ := hmany.mp (lt_of_lt_of_le (not_le.mp hover) hn)
    exact absurd (hcond hbuckets) (not_lt.mpr hlate)

end Bound

/-- Without a retention the bound holds. -/
theorem probe_within_bound_iff_fresh :
    retentionIsAccepted 0 sampleFormat.terminalBucketWidthNs = true ∧
    ∀ lease es r h', ((checkDuplicateAckBounded lease ⟨300000000000, 5, 1⟩).start
      sampleHandle).Trace es (r, h') → (dirsOpened es).length ≤ 4096 :=
  ⟨by decide, (probe_within_bound_iff sampleHandle ⟨300000000000, 5, 1⟩ (by decide)).2.mpr
    (by decide)⟩

/-- The longest retention that is accepted for buckets of a minute. -/
def retentiveHandle : Handle := { sampleHandle with options := ⟨4094 * 60000000000, 0, false⟩ }

theorem reply_openDirectory_absent {w : World} {path : Path} (hroot : (w.live rootDir).isSome)
    (hnone : w.dirs path = none) : w.reply (.openDirectory rootDir path) = .error .enoent := by
  obtain ⟨root, hroot⟩ := Option.isSome_iff_exists.mp hroot
  have hdirs : w.dirs (rootDir.path ++ path) = none := hnone
  rw [World.reply, World.answer_openDirectory hroot, Option.getD_some, hdirs]

/-- **4097 buckets.** On a queue without receipts, a week after the epoch, the probe of a handle
    with the longest retention that is accepted examines 4097 buckets. -/
theorem probe_exceeds_bound :
    retentionIsAccepted retentiveHandle.options.receiptRetentionNs
      retentiveHandle.format.terminalBucketWidthNs = true ∧
    ∃ es, ((checkDuplicateAckBounded sampleLease ⟨604800000000000, 10080, 1⟩).start
        retentiveHandle).Trace es (.ok false, retentiveHandle) ∧
      (∀ e ∈ es, e.2 = (freshWorld sampleFormat ⟨10080, 1⟩).reply e.1) ∧
      (dirsOpened es).Nodup ∧ (dirsOpened es).length = 4097 := by
  have hrange : probeRange 604800000000000 retentiveHandle.options.receiptRetentionNs
      retentiveHandle.format.terminalBucketWidthNs = some (5984, 4097) := by decide
  refine ⟨by decide, _, checkDuplicateAck_absent hrange rfl, ?_, ?_, ?_⟩
  · intro e he
    obtain ⟨path, hpath, rfl⟩ := List.mem_map.mp he
    obtain ⟨b, -, rfl⟩ := mem_receiptDirs (by decide) hpath
    exact (reply_openDirectory_absent (tree_live (tree_freshWorld _ _)) (dirs_deep ..)).symm
  · rw [dirsOpened_absentDirs]
    exact nodup_receiptDirs (by decide)
  · rw [dirsOpened_absentDirs, length_receiptDirs]

end SteadQ
