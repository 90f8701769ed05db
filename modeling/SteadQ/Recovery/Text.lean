/-
  File:      SteadQ/Recovery/Text.lean
  Subject:   THE TEXT OF THE CURSOR FILE (`queue/cursors.rs`, `RecoveryCursorRecord`).

  The record is written as compact JSON, field by field in the order of its declaration. Names of
  directory entries are arrays of numbers, names of remembered directories are strings, and two
  fields are left out when they are empty.
-/
import SteadQ.Lib.Json
import SteadQ.Recovery.Pass

namespace SteadQ

open Octet

/-! ## 1. The record as a value -/

def RecoveryPhase.tag : RecoveryPhase → Bytes
  | .reapLeases => ascii "reap_leases"
  | .promoteDelayed => ascii "promote_delayed"
  | .cleanupTemp => ascii "cleanup_temp"
  | .compactReceipts => ascii "compact_receipts"
  | .deleteReceipts => ascii "delete_receipts"

def RecoveryHierarchyRetryKind.tag : RecoveryHierarchyRetryKind → Bytes
  | .open => ascii "open"
  | .enumerate => ascii "enumerate"

def byteArray (b : Bytes) : Json := .arr (b.map fun x => .num x.toNat)

def ThreeLevelCursor.json (c : ThreeLevelCursor) : Json :=
  .obj [(ascii "first", byteArray c.first), (ascii "second", byteArray c.second),
    (ascii "resume_after", byteArray c.resumeAfter)]

def FourLevelCursor.json (c : FourLevelCursor) : Json :=
  .obj [(ascii "first", byteArray c.first), (ascii "second", byteArray c.second),
    (ascii "third", byteArray c.third), (ascii "resume_after", byteArray c.resumeAfter)]

def RecoveryHierarchyRetry.json (r : RecoveryHierarchyRetry) : Json :=
  .obj [(ascii "phase", .str r.phase.tag), (ascii "kind", .str r.kind.tag),
    (ascii "components", .arr (r.components.map .str))]

def orNull (f : α → Json) (o : Option α) : Json := o.elim .null f

/-- A field that is left out when it is empty. -/
def unlessNone (key : Bytes) (o : Option Nat) : List (Bytes × Json) :=
  o.toList.map fun n => (key, .num n)

def RecoveryCursor.json (k : RecoveryCursor) : Json :=
  .obj ([(ascii "phase", .str k.phase.tag),
      (ascii "reap_leases", orNull FourLevelCursor.json k.reapLeases)] ++
    (unlessNone (ascii "reap_colocated_shard") (k.reapColocatedShard.map UInt32.toNat) ++
    (unlessNone (ascii "reap_colocated_position") k.reapColocatedPosition ++
    [(ascii "promote_delayed", orNull ThreeLevelCursor.json k.promoteDelayed),
      (ascii "cleanup_temp", orNull ThreeLevelCursor.json k.cleanupTemp),
      (ascii "compact_receipts", orNull ThreeLevelCursor.json k.compactReceipts),
      (ascii "delete_receipts", orNull ThreeLevelCursor.json k.deleteReceipts),
      (ascii "hierarchy_retries", .arr (k.hierarchyRetries.map RecoveryHierarchyRetry.json)),
      (ascii "hierarchy_retry_frontiers",
        .arr (k.hierarchyRetryFrontiers.map RecoveryHierarchyRetry.json)),
      (ascii "hierarchy_retry_overflow",
        .arr (k.hierarchyRetryOverflow.map fun phase => .str phase.tag))])))

def RecoveryCursorRecord.json (r : RecoveryCursorRecord) : Json :=
  .obj [(ascii "schema", .str r.schema), (ascii "version", .num r.version.toNat),
    (ascii "queue_id", .str r.queueId), (ascii "cursor", r.cursor.json)]

/-! ## 2. A value determines its record -/

theorem RecoveryPhase.tag_injective {a b : RecoveryPhase} (h : a.tag = b.tag) : a = b := by
  revert h
  cases a <;> cases b <;> decide

theorem RecoveryHierarchyRetryKind.tag_injective {a b : RecoveryHierarchyRetryKind}
    (h : a.tag = b.tag) : a = b := by
  revert h
  cases a <;> cases b <;> decide

theorem byteArray_injective {a b : Bytes} (h : byteArray a = byteArray b) : a = b := by
  have hnum : Function.Injective fun x : UInt8 => Json.num x.toNat :=
    fun x y h => UInt8.toNat_inj.mp (Json.num.inj h)
  exact List.map_injective_iff.mpr hnum (Json.arr.inj h)

theorem ThreeLevelCursor.json_injective {a b : ThreeLevelCursor} (h : a.json = b.json) : a = b := by
  cases a
  cases b
  simp only [ThreeLevelCursor.json, Json.obj.injEq, List.cons.injEq, Prod.mk.injEq, true_and,
    and_true] at h
  obtain ⟨hfirst, hsecond, hresume⟩ := h
  rw [byteArray_injective hfirst, byteArray_injective hsecond, byteArray_injective hresume]

theorem FourLevelCursor.json_injective {a b : FourLevelCursor} (h : a.json = b.json) : a = b := by
  cases a
  cases b
  simp only [FourLevelCursor.json, Json.obj.injEq, List.cons.injEq, Prod.mk.injEq, true_and,
    and_true] at h
  obtain ⟨hfirst, hsecond, hthird, hresume⟩ := h
  rw [byteArray_injective hfirst, byteArray_injective hsecond, byteArray_injective hthird,
    byteArray_injective hresume]

theorem RecoveryHierarchyRetry.json_injective {a b : RecoveryHierarchyRetry}
    (h : a.json = b.json) : a = b := by
  cases a
  cases b
  simp only [RecoveryHierarchyRetry.json, Json.obj.injEq, List.cons.injEq, Prod.mk.injEq,
    true_and, and_true, Json.str.injEq, Json.arr.injEq] at h
  obtain ⟨hphase, hkind, hcomponents⟩ := h
  have hstr : Function.Injective Json.str := fun _ _ h => Json.str.inj h
  rw [RecoveryPhase.tag_injective hphase, RecoveryHierarchyRetryKind.tag_injective hkind,
    List.map_injective_iff.mpr hstr hcomponents]

theorem orNull_injective {f : α → Json} (hf : ∀ a b, f a = f b → a = b) (hnull : ∀ a, f a ≠ .null)
    {o o' : Option α} (h : orNull f o = orNull f o') : o = o' := by
  cases o with
  | none =>
    cases o' with
    | none => rfl
    | some b => exact absurd h.symm (hnull b)
  | some a =>
    cases o' with
    | none => exact absurd h (hnull a)
    | some b => rw [hf a b h]

/-- The first field has another key. -/
def Starts (key : Bytes) (f : List (Bytes × Json)) : Prop := ∀ x ∈ f.head?, x.1 ≠ key

theorem starts_cons {key key' : Bytes} {j : Json} {f : List (Bytes × Json)} (h : key' ≠ key) :
    Starts key ((key', j) :: f) := by
  rintro _ ⟨⟩
  exact h

theorem starts_unlessNone {key key' : Bytes} {o : Option Nat} {f : List (Bytes × Json)}
    (h : key' ≠ key) (hf : Starts key f) : Starts key (unlessNone key' o ++ f) := by
  cases o with
  | none => exact hf
  | some n => exact starts_cons h

/-- A field that may be missing, in front of one with another key. -/
theorem unlessNone_cancel {key : Bytes} {o o' : Option Nat} {f f' : List (Bytes × Json)}
    (hf : Starts key f) (hf' : Starts key f')
    (h : unlessNone key o ++ f = unlessNone key o' ++ f') : o = o' ∧ f = f' := by
  cases o with
  | none =>
    cases o' with
    | none => exact ⟨rfl, h⟩
    | some n =>
      have hhead : f = (key, .num n) :: f' := h
      exact absurd rfl (hf (key, .num n) (by rw [hhead]; rfl))
  | some n =>
    cases o' with
    | none =>
      have hhead : (key, .num n) :: f = f' := h
      exact absurd rfl (hf' (key, .num n) (by rw [← hhead]; rfl))
    | some m =>
      obtain ⟨hn, hrest⟩ := List.cons.inj h
      cases hn
      exact ⟨rfl, hrest⟩

theorem RecoveryCursor.json_injective {a b : RecoveryCursor} (h : a.json = b.json) : a = b := by
  have hthree : ∀ o o', orNull ThreeLevelCursor.json o = orNull ThreeLevelCursor.json o' → o = o' :=
    fun _ _ => orNull_injective (fun _ _ h => ThreeLevelCursor.json_injective h) fun _ => nofun
  have hfour : ∀ o o', orNull FourLevelCursor.json o = orNull FourLevelCursor.json o' → o = o' :=
    fun _ _ => orNull_injective (fun _ _ h => FourLevelCursor.json_injective h) fun _ => nofun
  have hretries := List.map_injective_iff.mpr fun _ _ h => RecoveryHierarchyRetry.json_injective h
  have hphases : Function.Injective fun phase : RecoveryPhase => Json.str phase.tag :=
    fun _ _ h => RecoveryPhase.tag_injective (Json.str.inj h)
  have hshards := Option.map_injective fun _ _ h => UInt32.toNat_inj.mp h
  cases a
  cases b
  simp only [RecoveryCursor.json, Json.obj.injEq, List.cons_append, List.nil_append,
    List.cons.injEq, Prod.mk.injEq, true_and, Json.str.injEq] at h
  obtain ⟨hphase, hreap, hrest⟩ := h
  obtain ⟨hshard, hrest⟩ := unlessNone_cancel
    (starts_unlessNone (by decide) (starts_cons (by decide)))
    (starts_unlessNone (by decide) (starts_cons (by decide))) hrest
  obtain ⟨hposition, hrest⟩ := unlessNone_cancel (starts_cons (by decide))
    (starts_cons (by decide)) hrest
  simp only [List.cons.injEq, Prod.mk.injEq, true_and, and_true, Json.arr.injEq] at hrest
  obtain ⟨h₁, h₂, h₃, h₄, h₅, h₆, h₇⟩ := hrest
  rw [RecoveryPhase.tag_injective hphase, hfour _ _ hreap, hshards hshard, hposition,
    hthree _ _ h₁, hthree _ _ h₂, hthree _ _ h₃, hthree _ _ h₄, hretries h₅, hretries h₆,
    List.map_injective_iff.mpr hphases h₇]

theorem RecoveryCursorRecord.json_injective {a b : RecoveryCursorRecord} (h : a.json = b.json) :
    a = b := by
  cases a
  cases b
  simp only [RecoveryCursorRecord.json, Json.obj.injEq, List.cons.injEq, Prod.mk.injEq, true_and,
    and_true, Json.str.injEq, Json.num.injEq] at h
  obtain ⟨hschema, hversion, hqueue, hcursor⟩ := h
  rw [hschema, UInt16.toNat_inj.mp hversion, hqueue, RecoveryCursor.json_injective hcursor]

open Classical in
/-- The format of the cursor file: compact JSON, read by whatever inverts it. -/
noncomputable def jsonCodec : CursorCodec where
  encode := fun r => r.json.text
  decode := fun b =>
    if h : ∃ r : RecoveryCursorRecord, r.json.text = b then .ok h.choose else .error "not a record"
  decode_encode := by
    intro r
    have h : ∃ r' : RecoveryCursorRecord, r'.json.text = r.json.text := ⟨r, rfl⟩
    rw [dif_pos h]
    exact congrArg _ (RecoveryCursorRecord.json_injective (Json.text_injective h.choose_spec))

/-! ## 3. Lengths -/

theorem byteArray_length (b : Bytes) : (byteArray b).text.length ≤ 4 * b.length + 2 := by
  have hdigits : ∀ j ∈ b.map fun x => Json.num x.toNat, j.text.length ≤ 3 := by
    intro j hj
    obtain ⟨x, -, rfl⟩ := List.mem_map.mp hj
    exact text_num_length (by decide) (Nat.lt_trans x.toNat_lt (by decide))
  rw [Nat.mul_comm]
  exact text_arr_le (by rw [List.length_map]) hdigits

theorem threeLevel_length {c : ThreeLevelCursor} (hdirs : c.first.length + c.second.length ≤ 40)
    (hentry : c.resumeAfter.length ≤ 255) : c.json.text.length ≤ 1223 := by
  have h := text_obj_length [(ascii "first", byteArray c.first),
    (ascii "second", byteArray c.second), (ascii "resume_after", byteArray c.resumeAfter)]
  have hfirst := byteArray_length c.first
  have hsecond := byteArray_length c.second
  have hresume := byteArray_length c.resumeAfter
  have hkeys : (quoted (ascii "first")).length = 7 ∧ (quoted (ascii "second")).length = 8 ∧
      (quoted (ascii "resume_after")).length = 14 := by decide
  obtain ⟨h₁, h₂, h₃⟩ := hkeys
  simp only [List.map_cons, List.map_nil, List.sum_cons, List.sum_nil, h₁, h₂, h₃] at h
  rw [ThreeLevelCursor.json]
  omega

theorem fourLevel_length {c : FourLevelCursor}
    (hdirs : c.first.length + c.second.length + c.third.length ≤ 56)
    (hentry : c.resumeAfter.length ≤ 255) : c.json.text.length ≤ 1298 := by
  have h := text_obj_length [(ascii "first", byteArray c.first),
    (ascii "second", byteArray c.second), (ascii "third", byteArray c.third),
    (ascii "resume_after", byteArray c.resumeAfter)]
  have hfirst := byteArray_length c.first
  have hsecond := byteArray_length c.second
  have hthird := byteArray_length c.third
  have hresume := byteArray_length c.resumeAfter
  have hkeys : (quoted (ascii "first")).length = 7 ∧ (quoted (ascii "second")).length = 8 ∧
      (quoted (ascii "third")).length = 7 ∧ (quoted (ascii "resume_after")).length = 14 := by decide
  obtain ⟨h₁, h₂, h₃, h₄⟩ := hkeys
  simp only [List.map_cons, List.map_nil, List.sum_cons, List.sum_nil, h₁, h₂, h₃, h₄] at h
  rw [FourLevelCursor.json]
  omega

theorem phaseTag_length (phase : RecoveryPhase) : (Json.str phase.tag).text.length ≤ 18 := by
  cases phase <;> decide

theorem kindTag_length (kind : RecoveryHierarchyRetryKind) :
    (Json.str kind.tag).text.length ≤ 11 := by
  cases kind <;> decide

theorem components_length {components : List Name}
    (hplain : ∀ name ∈ components, ∀ b ∈ name, escape b = [b]) :
    (Json.arr (components.map .str)).text.length ≤
      (components.map List.length).sum + 3 * components.length + 2 := by
  refine (text_arr_length _).trans (Nat.add_le_add_right ?_ 2)
  rw [List.map_map]
  induction components with
  | nil => exact Nat.le_refl _
  | cons name components ih =>
    have ih := ih fun n hn => hplain n (List.mem_cons_of_mem _ hn)
    have hname : (Json.str name).text.length = name.length + 2 := by
      rw [Json.text]
      exact quoted_length (hplain name List.mem_cons_self)
    simp only [List.map_cons, List.sum_cons, List.length_cons, Function.comp, hname] at ih ⊢
    omega

theorem retry_length {r : RecoveryHierarchyRetry} (hcount : r.components.length ≤ 3)
    (hsum : (r.components.map List.length).sum ≤ 56)
    (hplain : ∀ name ∈ r.components, ∀ b ∈ name, escape b = [b]) : r.json.text.length ≤ 129 := by
  have h := text_obj_length [(ascii "phase", .str r.phase.tag), (ascii "kind", .str r.kind.tag),
    (ascii "components", .arr (r.components.map .str))]
  have hphase := phaseTag_length r.phase
  have hkind := kindTag_length r.kind
  have hcomponents := components_length hplain
  have hkeys : (quoted (ascii "phase")).length = 7 ∧ (quoted (ascii "kind")).length = 6 ∧
      (quoted (ascii "components")).length = 12 := by decide
  obtain ⟨h₁, h₂, h₃⟩ := hkeys
  simp only [List.map_cons, List.map_nil, List.sum_cons, List.sum_nil, h₁, h₂, h₃] at h
  rw [RecoveryHierarchyRetry.json]
  omega

theorem orNull_length {f : α → Json} {o : Option α} {n : Nat} (hn : 4 ≤ n)
    (h : ∀ a, o = some a → (f a).text.length ≤ n) : (orNull f o).text.length ≤ n := by
  cases o with
  | none => exact hn
  | some a => exact h a rfl

theorem retries_length {l : List RecoveryHierarchyRetry} {n : Nat} (hn : l.length ≤ n)
    (h : ∀ r ∈ l, r.json.text.length ≤ 129) :
    (Json.arr (l.map RecoveryHierarchyRetry.json)).text.length ≤ n * 130 + 2 := by
  refine text_arr_le (by rwa [List.length_map]) ?_
  intro j hj
  obtain ⟨r, hr, rfl⟩ := List.mem_map.mp hj
  exact h r hr

/-- A field that may be missing takes no more than if it is there. -/
theorem unlessNone_length (key : Bytes) {o : Option Nat} {k : Nat} (hk : 0 < k)
    (h : ∀ n, o = some n → n < 10 ^ k) :
    ((unlessNone key o).map fun f => (quoted f.1).length + f.2.text.length + 2).sum ≤
      (quoted key).length + k + 2 := by
  cases o with
  | none => exact Nat.zero_le _
  | some n =>
    have hnum := text_num_length hk (h n rfl)
    simp only [unlessNone, Option.toList_some, List.map_cons, List.map_nil, List.sum_cons,
      List.sum_nil]
    omega

/-- What is asked of the parts of a cursor for its text to be short. -/
structure ShortParts (k : RecoveryCursor) : Prop where
  four : ∀ c, k.reapLeases = some c → c.json.text.length ≤ 1298
  three : ∀ c, k.promoteDelayed = some c ∨ k.cleanupTemp = some c ∨ k.compactReceipts = some c ∨
    k.deleteReceipts = some c → c.json.text.length ≤ 1223
  offset : ∀ n, k.reapColocatedPosition = some n → n < 2 ^ 63
  few : k.hierarchyRetries.length ≤ 64
  fewer : k.hierarchyRetryFrontiers.length ≤ 5
  phases : k.hierarchyRetryOverflow.length ≤ 5
  retries : ∀ r ∈ k.hierarchyRetries ++ k.hierarchyRetryFrontiers, r.json.text.length ≤ 129

theorem cursor_length {k : RecoveryCursor} (h : ShortParts k) : k.json.text.length ≤ 15600 := by
  have htext : k.json.text.length ≤ _ := text_obj_length _
  have hphase := phaseTag_length k.phase
  have hreap := orNull_length (by decide) h.four
  have hshard := unlessNone_length (ascii "reap_colocated_shard")
    (o := k.reapColocatedShard.map UInt32.toNat) (k := 10) (by decide) (by
      rintro n hn
      obtain ⟨shard, -, rfl⟩ := Option.map_eq_some_iff.mp hn
      exact Nat.lt_trans shard.toNat_lt (by decide))
  have hoffset := unlessNone_length (ascii "reap_colocated_position")
    (o := k.reapColocatedPosition) (k := 19) (by decide)
    fun n hn => Nat.lt_trans (h.offset n hn) (by decide)
  have hpromote := orNull_length (by decide) fun c hc => h.three c (.inl hc)
  have hcleanup := orNull_length (by decide) fun c hc => h.three c (.inr (.inl hc))
  have hcompact := orNull_length (by decide) fun c hc => h.three c (.inr (.inr (.inl hc)))
  have hdelete := orNull_length (by decide) fun c hc => h.three c (.inr (.inr (.inr hc)))
  have hretries := retries_length h.few fun r hr => h.retries r (List.mem_append_left _ hr)
  have hfrontiers := retries_length h.fewer fun r hr => h.retries r (List.mem_append_right _ hr)
  have hoverflow : (Json.arr (k.hierarchyRetryOverflow.map fun phase => .str phase.tag)).text.length
      ≤ 5 * 19 + 2 := by
    refine text_arr_le (by rw [List.length_map]; exact h.phases) ?_
    intro j hj
    obtain ⟨phase, -, rfl⟩ := List.mem_map.mp hj
    exact phaseTag_length phase
  have hkeys : (quoted (ascii "phase")).length = 7 ∧ (quoted (ascii "reap_leases")).length = 13 ∧
      (quoted (ascii "reap_colocated_shard")).length = 22 ∧
      (quoted (ascii "reap_colocated_position")).length = 25 ∧
      (quoted (ascii "promote_delayed")).length = 17 ∧
      (quoted (ascii "cleanup_temp")).length = 14 ∧
      (quoted (ascii "compact_receipts")).length = 18 ∧
      (quoted (ascii "delete_receipts")).length = 17 ∧
      (quoted (ascii "hierarchy_retries")).length = 19 ∧
      (quoted (ascii "hierarchy_retry_frontiers")).length = 27 ∧
      (quoted (ascii "hierarchy_retry_overflow")).length = 26 := by decide
  obtain ⟨h₁, h₂, h₃, h₄, h₅, h₆, h₇, h₈, h₉, h₁₀, h₁₁⟩ := hkeys
  simp only [List.map_append, List.sum_append, List.map_cons, List.map_nil, List.sum_cons,
    List.sum_nil, h₁, h₂, h₅, h₆, h₇, h₈, h₉, h₁₀, h₁₁] at htext
  rw [h₃] at hshard
  rw [h₄] at hoffset
  omega

theorem record_length {h : Handle} (hs : ShortParts h.recoveryCursor) :
    (cursorRecordOf h).json.text.length ≤ recoveryCursorMaxBytes := by
  have htext : (cursorRecordOf h).json.text.length ≤ _ := text_obj_length _
  have hcursor := cursor_length hs
  have hqueue : (Json.str (hexEncode h.format.queueId.1)).text.length = 34 := by
    rw [Json.text, quoted_length fun b hb => escape_of_mem_hexEncode hb, hexEncode_length,
      h.format.queueId.2]
  have hkeys : (quoted (ascii "schema")).length = 8 ∧ (quoted (ascii "version")).length = 9 ∧
      (quoted (ascii "queue_id")).length = 10 ∧ (quoted (ascii "cursor")).length = 8 ∧
      (Json.str recoveryCursorSchema).text.length = 24 ∧
      (Json.num recoveryCursorVersion.toNat).text.length = 1 := by decide
  obtain ⟨h₁, h₂, h₃, h₄, h₅, h₆⟩ := hkeys
  simp only [cursorRecordOf, List.map_cons, List.map_nil, List.sum_cons, List.sum_nil, h₁, h₂, h₃,
    h₄, h₅, h₆, hqueue] at htext
  unfold cursorRecordOf recoveryCursorMaxBytes
  omega

end SteadQ
