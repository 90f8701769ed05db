/-
  File:      SteadQ/Naming.lean
  Subject:   THE GRAMMAR OF FILE NAMES AND WHAT A TAG BINDS (`steadq-names`,
             `spec/filenames.abnf`).
-/
import SteadQ.Lib.Grammar
import SteadQ.Names

namespace SteadQ

open Octet Rule

/-! ## 1. Writers and parsers of the seven kinds -/

def readyFilename (c : CommonFields) (tag : Octets 8) : Name :=
  taggedFilename c.baseParts tag extSqj

def delayedFilename (c : CommonFields) (notBeforeNs : UInt64) (tag : Octets 8) : Name :=
  taggedFilename (delayedParts c notBeforeNs) tag extSqj

def deadFilename (c : CommonFields) (reason : UInt16) (tag : Octets 8) : Name :=
  taggedFilename (deadParts c reason) tag extSqj

def receiptFilename (c : CommonFields) (token : Octets 16) (tag : Octets 8) : Name :=
  taggedFilename (receiptParts c token) tag extRct

def leasedFilename (c : CommonFields) (bootId : Octets 16)
    (boottimeDeadlineNs wallDeadlineNs : UInt64) (token : Octets 16) (tag : Octets 8) : Name :=
  taggedFilename (leasedParts c bootId boottimeDeadlineNs wallDeadlineNs token) tag extSqj

inductive NameKind where
  | ready
  | leased
  | delayed
  | dead
  | receipt
  | temp
  | quarantine
  deriving DecidableEq, Repr

/-- The fields of a name of any kind. -/
inductive AnyName where
  | ready (n : ReadyName)
  | leased (n : LeasedName)
  | delayed (n : DelayedName)
  | dead (n : DeadName)
  | receipt (n : ReceiptName)
  | temp (n : TempName)
  | quarantine (n : QuarantineName)
  deriving DecidableEq

namespace AnyName

def kind : AnyName → NameKind
  | .ready _ => .ready
  | .leased _ => .leased
  | .delayed _ => .delayed
  | .dead _ => .dead
  | .receipt _ => .receipt
  | .temp _ => .temp
  | .quarantine _ => .quarantine

def filename : AnyName → Name
  | .ready n => readyFilename n.common n.tag
  | .leased n =>
    leasedFilename n.common n.bootId n.boottimeDeadlineNs n.wallDeadlineNs n.token n.tag
  | .delayed n => delayedFilename n.common n.notBeforeNs n.tag
  | .dead n => deadFilename n.common n.reason n.tag
  | .receipt n => receiptFilename n.common n.token n.tag
  | .temp n => tempFilename n.createdBoottimeNs n.random
  | .quarantine n => quarantineFilename n.quarantineId n.reason

end AnyName

def NameKind.parse (s : Name) : NameKind → Except ParseError AnyName
  | .ready => (parseReady s).map .ready
  | .leased => (parseLeased s).map .leased
  | .delayed => (parseDelayed s).map .delayed
  | .dead => (parseDead s).map .dead
  | .receipt => (parseReceipt s).map .receipt
  | .temp => (parseTemp s).map .temp
  | .quarantine => (parseQuarantine s).map .quarantine

/-! Written names read back. -/

theorem extTmp_ascii : ∀ x ∈ ascii ".tmp", x < 128 ∧ x ≠ 0 := ascii_of_all rfl

theorem extRaw_ascii : ∀ x ∈ ascii ".raw", x < 128 ∧ x ≠ 0 := ascii_of_all rfl

theorem parseTemp_filename (created : UInt64) (random : Octets 16) :
    parseTemp (tempFilename created random) = .ok ⟨created, random⟩ := by
  have hplain : ∀ p ∈ [hexU64 created, hexEncode random.1], Plain p := by
    intro p hp
    rcases List.mem_pair.mp hp with rfl | rfl
    · exact plain_hexEncode _
    · exact plain_hexEncode _
  have h : splitParts (joinDots [hexU64 created, hexEncode random.1] ++ ascii ".tmp")
      (ascii ".tmp") 2 = .ok [hexU64 created, hexEncode random.1] :=
    splitParts_joinDots hplain (by simp) rfl extTmp_ascii
  simp only [parseTemp, tempFilename, h, bind, Except.bind, hexDecodeU64_hex, hexDecode16_hex,
    orError]
  rfl

theorem parseQuarantine_filename (id : Octets 16) (reason : UInt16) :
    parseQuarantine (quarantineFilename id reason) = .ok ⟨id, reason⟩ := by
  have hplain : ∀ p ∈ [field 113 (hexEncode id.1), field 120 (hexU16 reason)], Plain p := by
    intro p hp
    rcases List.mem_pair.mp hp with rfl | rfl
    · exact plain_field (by decide) _
    · exact plain_field (by decide) _
  have h : splitParts (joinDots [field 113 (hexEncode id.1), field 120 (hexU16 reason)] ++
      ascii ".raw") (ascii ".raw") 2 = .ok [field 113 (hexEncode id.1), field 120 (hexU16 reason)] :=
    splitParts_joinDots hplain (by simp) rfl extRaw_ascii
  have hlen : ¬ ((field 113 (hexEncode id.1)).length ≠ 33 ∨
      (field 113 (hexEncode id.1)).head? ≠ some 113) := by
    simp [field, id.2]
  simp only [parseQuarantine, quarantineFilename, h, bind, Except.bind, if_neg hlen,
    parseTaggedHexU16_field]
  rw [field, List.tail_cons, hexDecode16_hex]
  rfl

/-! Only written names parse; the ready and the leased names are in `Names.lean`. -/

theorem parseTaggedHexU16_ok {part : Bytes} {label : UInt8} {v : UInt16}
    (h : parseTaggedHexU16 part label = .ok v) : part = field label (hexU16 v) := by
  obtain ⟨rest, hs, hd⟩ := except_bind_eq_ok h
  rw [stripTag_eq_ok hs, hexU16_of_decode (orError_eq_ok.mp hd)]

theorem parseDelayed_ok {n : Name} {p : DelayedName} (h : parseDelayed n = .ok p) :
    n = delayedFilename p.common p.notBeforeNs p.tag := by
  obtain ⟨parts, hparts, h⟩ := except_bind_eq_ok h
  obtain ⟨⟨common, rest⟩, hcommon, h⟩ := except_bind_eq_ok h
  dsimp only at h
  split at h
  · rename_i d k
    obtain ⟨ns, hd, h⟩ := except_bind_eq_ok h
    obtain ⟨tag, htag, h⟩ := except_bind_eq_ok h
    cases h
    rw [splitParts_ok hparts, parseCommonStrict_ok hcommon, parseTaggedHexU64_ok hd,
      parseTag_ok htag]
    rfl
  · cases h

theorem parseDead_ok {n : Name} {p : DeadName} (h : parseDead n = .ok p) :
    n = deadFilename p.common p.reason p.tag := by
  obtain ⟨parts, hparts, h⟩ := except_bind_eq_ok h
  obtain ⟨⟨common, rest⟩, hcommon, h⟩ := except_bind_eq_ok h
  dsimp only at h
  split at h
  · rename_i x k
    obtain ⟨reason, hx, h⟩ := except_bind_eq_ok h
    obtain ⟨tag, htag, h⟩ := except_bind_eq_ok h
    cases h
    rw [splitParts_ok hparts, parseCommonStrict_ok hcommon, parseTaggedHexU16_ok hx,
      parseTag_ok htag]
    rfl
  · cases h

theorem parseReceipt_ok {n : Name} {p : ReceiptName} (h : parseReceipt n = .ok p) :
    n = receiptFilename p.common p.token p.tag := by
  obtain ⟨parts, hparts, h⟩ := except_bind_eq_ok h
  obtain ⟨⟨common, rest⟩, hcommon, h⟩ := except_bind_eq_ok h
  dsimp only at h
  split at h
  · rename_i t k
    obtain ⟨token, ht, h⟩ := except_bind_eq_ok h
    obtain ⟨tag, htag, h⟩ := except_bind_eq_ok h
    cases h
    rw [splitParts_ok hparts, parseCommonStrict_ok hcommon, parseTaggedHex16_ok ht,
      parseTag_ok htag]
    rfl
  · cases h

theorem parseTemp_ok {n : Name} {p : TempName} (h : parseTemp n = .ok p) :
    n = tempFilename p.createdBoottimeNs p.random := by
  obtain ⟨parts, hparts, h⟩ := except_bind_eq_ok h
  split at h
  · rename_i created random
    obtain ⟨ns, hns, h⟩ := except_bind_eq_ok h
    obtain ⟨b, hb, h⟩ := except_bind_eq_ok h
    cases h
    rw [splitParts_ok hparts, hexU64_of_decode (orError_eq_ok.mp hns),
      ← hexEncode_of_hexDecodeArray (orError_eq_ok.mp hb)]
    rfl
  · cases h

theorem parseQuarantine_ok {n : Name} {p : QuarantineName} (h : parseQuarantine n = .ok p) :
    n = quarantineFilename p.quarantineId p.reason := by
  obtain ⟨parts, hparts, h⟩ := except_bind_eq_ok h
  split at h
  · rename_i q x
    split at h
    · cases h
    · rename_i hq
      obtain ⟨id, hid, h⟩ := except_bind_eq_ok h
      obtain ⟨reason, hreason, h⟩ := except_bind_eq_ok h
      cases h
      have hhead : q.head? = some 113 := by
        by_contra hno
        exact hq (.inr hno)
      obtain ⟨tail, rfl⟩ := List.head?_eq_some_iff.mp hhead
      have htail : tail = hexEncode id.1 :=
        (hexEncode_of_hexDecodeArray (orError_eq_ok.mp hid)).symm
      rw [splitParts_ok hparts, parseTaggedHexU16_ok hreason, htail]
      rfl
  · cases h

theorem map_eq_ok {ε α β : Type} {f : α → β} {x : Except ε α} {b : β} :
    x.map f = .ok b ↔ ∃ a, x = .ok a ∧ b = f a := by
  cases x with
  | error e => simp [Except.map]
  | ok a => simp [Except.map, eq_comm]

/-- **A parser inverts its writer and accepts nothing else.** -/
theorem parse_eq_ok {k : NameKind} {s : Name} {n : AnyName} :
    k.parse s = .ok n ↔ n.kind = k ∧ s = n.filename := by
  constructor
  · intro h
    cases k with
    | ready =>
      obtain ⟨p, hp, rfl⟩ := map_eq_ok.mp h
      exact ⟨rfl, parseReady_ok hp⟩
    | leased =>
      obtain ⟨p, hp, rfl⟩ := map_eq_ok.mp h
      exact ⟨rfl, parseLeased_ok hp⟩
    | delayed =>
      obtain ⟨p, hp, rfl⟩ := map_eq_ok.mp h
      exact ⟨rfl, parseDelayed_ok hp⟩
    | dead =>
      obtain ⟨p, hp, rfl⟩ := map_eq_ok.mp h
      exact ⟨rfl, parseDead_ok hp⟩
    | receipt =>
      obtain ⟨p, hp, rfl⟩ := map_eq_ok.mp h
      exact ⟨rfl, parseReceipt_ok hp⟩
    | temp =>
      obtain ⟨p, hp, rfl⟩ := map_eq_ok.mp h
      exact ⟨rfl, parseTemp_ok hp⟩
    | quarantine =>
      obtain ⟨p, hp, rfl⟩ := map_eq_ok.mp h
      exact ⟨rfl, parseQuarantine_ok hp⟩
  · rintro ⟨rfl, rfl⟩
    cases n with
    | ready n => exact map_eq_ok.mpr ⟨n, parseReady_tagged _ _, rfl⟩
    | leased n => exact map_eq_ok.mpr ⟨n, parseLeased_tagged _ _ _ _ _ _, rfl⟩
    | delayed n => exact map_eq_ok.mpr ⟨n, parseDelayed_tagged _ _ _, rfl⟩
    | dead n => exact map_eq_ok.mpr ⟨n, parseDead_tagged _ _ _, rfl⟩
    | receipt n => exact map_eq_ok.mpr ⟨n, parseReceipt_tagged _ _ _, rfl⟩
    | temp n => exact map_eq_ok.mpr ⟨n, parseTemp_filename _ _, rfl⟩
    | quarantine n => exact map_eq_ok.mpr ⟨n, parseQuarantine_filename _ _, rfl⟩

/-! ## 2. The grammar -/

section Grammar

def jobIdRule : Rule := .times 32 hexDigit
def generationRule : Rule := .times 16 hexDigit
def attemptRule : Rule := .times 8 hexDigit
def maximumAttemptsRule : Rule := .times 8 hexDigit
def timeNsRule : Rule := .times 16 hexDigit
def reasonRule : Rule := .times 4 hexDigit
def nameTagRule : Rule := .times 16 hexDigit
def leaseTokenRule : Rule := .times 32 hexDigit

def literal (s : String) : Rule := .text (ascii s)

/-- The rules of `filenames.abnf`. -/
def NameKind.rule : NameKind → Rule
  | .ready => seqs [jobIdRule, literal ".g", generationRule, literal ".a", attemptRule,
      literal ".m", maximumAttemptsRule, literal ".k", nameTagRule, literal ".sqj"]
  | .leased => seqs [jobIdRule, literal ".g", generationRule, literal ".a", attemptRule,
      literal ".m", maximumAttemptsRule, literal ".o", .times 32 hexDigit, literal ".b",
      timeNsRule, literal ".w", timeNsRule, literal ".t", leaseTokenRule, literal ".k",
      nameTagRule, literal ".sqj"]
  | .delayed => seqs [jobIdRule, literal ".g", generationRule, literal ".a", attemptRule,
      literal ".m", maximumAttemptsRule, literal ".d", timeNsRule, literal ".k", nameTagRule,
      literal ".sqj"]
  | .dead => seqs [jobIdRule, literal ".g", generationRule, literal ".a", attemptRule,
      literal ".m", maximumAttemptsRule, literal ".x", reasonRule, literal ".k", nameTagRule,
      literal ".sqj"]
  | .receipt => seqs [jobIdRule, literal ".g", generationRule, literal ".a", attemptRule,
      literal ".m", maximumAttemptsRule, literal ".t", leaseTokenRule, literal ".k", nameTagRule,
      literal ".rct"]
  | .temp => seqs [timeNsRule, literal ".", .times 32 hexDigit, literal ".tmp"]
  | .quarantine => seqs [literal "q", .times 32 hexDigit, literal ".x", reasonRule, literal ".raw"]

variable {s : Bytes}

theorem generates_octets16 :
    (times 32 hexDigit).Generates s ↔ ∃ b : Octets 16, s = hexEncode b.1 := generates_hex (w := 16)

theorem generates_tag :
    nameTagRule.Generates s ↔ ∃ b : Octets 8, s = hexEncode b.1 := generates_hex (w := 8)

/-- The hex form of a number is that of its bytes. -/
theorem exists_hexU64 : (∃ b : Octets 8, s = hexEncode b.1) ↔ ∃ v : UInt64, s = hexU64 v := by
  constructor
  · rintro ⟨b, rfl⟩
    have hb : hexDecodeU64 (hexEncode b.1) = some (UInt64.ofNat (beNat b.1)) := by
      rw [hexDecodeU64, hexDecodeArray_hexEncode, Option.map_some]
    exact ⟨_, hexU64_of_decode hb⟩
  · rintro ⟨v, rfl⟩
    exact ⟨⟨beBytes 8 v.toNat, beBytes_length _ _⟩, rfl⟩

theorem exists_hexU32 : (∃ b : Octets 4, s = hexEncode b.1) ↔ ∃ v : UInt32, s = hexU32 v := by
  constructor
  · rintro ⟨b, rfl⟩
    have hb : hexDecodeU32 (hexEncode b.1) = some (UInt32.ofNat (beNat b.1)) := by
      rw [hexDecodeU32, hexDecodeArray_hexEncode, Option.map_some]
    exact ⟨_, hexU32_of_decode hb⟩
  · rintro ⟨v, rfl⟩
    exact ⟨⟨beBytes 4 v.toNat, beBytes_length _ _⟩, rfl⟩

theorem exists_hexU16 : (∃ b : Octets 2, s = hexEncode b.1) ↔ ∃ v : UInt16, s = hexU16 v := by
  constructor
  · rintro ⟨b, rfl⟩
    have hb : hexDecodeU16 (hexEncode b.1) = some (UInt16.ofNat (beNat b.1)) := by
      rw [hexDecodeU16, hexDecodeArray_hexEncode, Option.map_some]
    exact ⟨_, hexU16_of_decode hb⟩
  · rintro ⟨v, rfl⟩
    exact ⟨⟨beBytes 2 v.toNat, beBytes_length _ _⟩, rfl⟩

theorem generates_jobId : jobIdRule.Generates s ↔ ∃ b : Octets 16, s = hexEncode b.1 :=
  generates_octets16

theorem generates_token : leaseTokenRule.Generates s ↔ ∃ b : Octets 16, s = hexEncode b.1 :=
  generates_octets16

theorem generates_generation : generationRule.Generates s ↔ ∃ v : UInt64, s = hexU64 v :=
  generates_tag.trans exists_hexU64

theorem generates_time : timeNsRule.Generates s ↔ ∃ v : UInt64, s = hexU64 v :=
  generates_tag.trans exists_hexU64

theorem generates_attempt : attemptRule.Generates s ↔ ∃ v : UInt32, s = hexU32 v :=
  (generates_hex (w := 4)).trans exists_hexU32

theorem generates_maximum : maximumAttemptsRule.Generates s ↔ ∃ v : UInt32, s = hexU32 v :=
  (generates_hex (w := 4)).trans exists_hexU32

theorem generates_reason : reasonRule.Generates s ↔ ∃ v : UInt16, s = hexU16 v :=
  (generates_hex (w := 2)).trans exists_hexU16

theorem generates_literal {t : String} : (literal t).Generates s ↔ s = ascii t := Iff.rfl

theorem joinDots_singleton (p : Bytes) : joinDots [p] = p := by simp [joinDots, List.intercalate]

theorem joinDots_cons (p q : Bytes) (ps : List Bytes) :
    joinDots (p :: q :: ps) = p ++ (46 :: joinDots (q :: ps)) := by
  simp [joinDots, List.intercalate]

/-- The text of a tagged name, up to its own fields. -/
theorem taggedFilename_text (c : CommonFields) (fields : List Bytes) (tag : Octets 8)
    (extension : Bytes) : taggedFilename (c.baseParts ++ fields) tag extension =
      hexEncode c.jobId.1 ++ (ascii ".g" ++ (hexU64 c.generation ++ (ascii ".a" ++
        (hexU32 c.attempt ++ (ascii ".m" ++ (hexU32 c.maximumAttempts ++
          (fields.flatMap (46 :: ·) ++ (ascii ".k" ++ (hexEncode tag.1 ++ extension))))))))) := by
  have hfields : ∀ (p : Bytes) (ps : List Bytes), joinDots (p :: ps) = p ++ ps.flatMap (46 :: ·) := by
    intro p ps
    induction ps generalizing p with
    | nil => simp [joinDots_singleton]
    | cons q ps ih => rw [joinDots_cons, ih, List.flatMap_cons, List.cons_append]
  have hg : ascii ".g" = [46, 103] := by decide
  have ha : ascii ".a" = [46, 97] := by decide
  have hm : ascii ".m" = [46, 109] := by decide
  have hk : ascii ".k" = [46, 107] := by decide
  simp [taggedFilename, CommonFields.baseParts, hfields, field, hg, ha, hm, hk]

section Texts

variable (c : CommonFields) (tag : Octets 8)

theorem readyFilename_text : readyFilename c tag =
    hexEncode c.jobId.1 ++ (ascii ".g" ++ (hexU64 c.generation ++ (ascii ".a" ++
      (hexU32 c.attempt ++ (ascii ".m" ++ (hexU32 c.maximumAttempts ++
        (ascii ".k" ++ (hexEncode tag.1 ++ ascii ".sqj")))))))) := by
  have h := taggedFilename_text c [] tag extSqj
  rw [List.append_nil] at h
  exact h

theorem delayedFilename_text (ns : UInt64) : delayedFilename c ns tag =
    hexEncode c.jobId.1 ++ (ascii ".g" ++ (hexU64 c.generation ++ (ascii ".a" ++
      (hexU32 c.attempt ++ (ascii ".m" ++ (hexU32 c.maximumAttempts ++ (ascii ".d" ++
        (hexU64 ns ++ (ascii ".k" ++ (hexEncode tag.1 ++ ascii ".sqj")))))))))) := by
  have hd : ascii ".d" = [46, 100] := by decide
  rw [delayedFilename, delayedParts, taggedFilename_text, hd]
  simp [field, extSqj]

theorem deadFilename_text (reason : UInt16) : deadFilename c reason tag =
    hexEncode c.jobId.1 ++ (ascii ".g" ++ (hexU64 c.generation ++ (ascii ".a" ++
      (hexU32 c.attempt ++ (ascii ".m" ++ (hexU32 c.maximumAttempts ++ (ascii ".x" ++
        (hexU16 reason ++ (ascii ".k" ++ (hexEncode tag.1 ++ ascii ".sqj")))))))))) := by
  have hx : ascii ".x" = [46, 120] := by decide
  rw [deadFilename, deadParts, taggedFilename_text, hx]
  simp [field, extSqj]

theorem receiptFilename_text (token : Octets 16) : receiptFilename c token tag =
    hexEncode c.jobId.1 ++ (ascii ".g" ++ (hexU64 c.generation ++ (ascii ".a" ++
      (hexU32 c.attempt ++ (ascii ".m" ++ (hexU32 c.maximumAttempts ++ (ascii ".t" ++
        (hexEncode token.1 ++ (ascii ".k" ++ (hexEncode tag.1 ++ ascii ".rct")))))))))) := by
  have ht : ascii ".t" = [46, 116] := by decide
  rw [receiptFilename, receiptParts, taggedFilename_text, ht]
  simp [field, extRct]

theorem leasedFilename_text (bootId : Octets 16) (boottime wall : UInt64) (token : Octets 16) :
    leasedFilename c bootId boottime wall token tag =
    hexEncode c.jobId.1 ++ (ascii ".g" ++ (hexU64 c.generation ++ (ascii ".a" ++
      (hexU32 c.attempt ++ (ascii ".m" ++ (hexU32 c.maximumAttempts ++ (ascii ".o" ++
        (hexEncode bootId.1 ++ (ascii ".b" ++ (hexU64 boottime ++ (ascii ".w" ++
          (hexU64 wall ++ (ascii ".t" ++ (hexEncode token.1 ++ (ascii ".k" ++
            (hexEncode tag.1 ++ ascii ".sqj")))))))))))))))) := by
  have ho : ascii ".o" = [46, 111] := by decide
  have hb : ascii ".b" = [46, 98] := by decide
  have hw : ascii ".w" = [46, 119] := by decide
  have ht : ascii ".t" = [46, 116] := by decide
  rw [leasedFilename, leasedParts, taggedFilename_text, ho, hb, hw, ht]
  simp [field, extSqj]

end Texts

theorem tempFilename_text (created : UInt64) (random : Octets 16) : tempFilename created random =
    hexU64 created ++ (ascii "." ++ (hexEncode random.1 ++ ascii ".tmp")) := by
  have hdot : ascii "." = [46] := by decide
  rw [tempFilename, joinDots_cons, joinDots_singleton, hdot]
  simp

theorem quarantineFilename_text (id : Octets 16) (reason : UInt16) :
    quarantineFilename id reason =
      ascii "q" ++ (hexEncode id.1 ++ (ascii ".x" ++ (hexU16 reason ++ ascii ".raw"))) := by
  have hq : ascii "q" = [113] := by decide
  have hx : ascii ".x" = [46, 120] := by decide
  rw [quarantineFilename, joinDots_cons, joinDots_singleton, hq, hx]
  simp [field]

/-- **The grammar generates what the writers write.** -/
theorem generates_iff {k : NameKind} :
    k.rule.Generates s ↔ ∃ n : AnyName, n.kind = k ∧ s = n.filename := by
  constructor
  · intro h
    cases k <;>
      simp only [NameKind.rule, generates_seqs_cons, generates_seqs_nil, generates_literal,
        generates_jobId, generates_generation, generates_attempt, generates_maximum,
        generates_tag, generates_octets16, generates_time, generates_token, generates_reason,
        existsAndEq, true_and, exists_and_left, List.append_nil] at h
    case ready =>
      obtain ⟨jobId, generation, attempt, maximum, tag, rfl⟩ := h
      exact ⟨.ready ⟨⟨jobId, generation, attempt, maximum⟩, tag⟩, rfl,
        (readyFilename_text ⟨jobId, generation, attempt, maximum⟩ tag).symm⟩
    case leased =>
      obtain ⟨jobId, generation, attempt, maximum, bootId, boottime, wall, token, tag, rfl⟩ := h
      exact ⟨.leased ⟨⟨jobId, generation, attempt, maximum⟩, bootId, boottime, wall, token, tag⟩,
        rfl, (leasedFilename_text ⟨jobId, generation, attempt, maximum⟩ tag bootId boottime wall token).symm⟩
    case delayed =>
      obtain ⟨jobId, generation, attempt, maximum, ns, tag, rfl⟩ := h
      exact ⟨.delayed ⟨⟨jobId, generation, attempt, maximum⟩, ns, tag⟩, rfl,
        (delayedFilename_text ⟨jobId, generation, attempt, maximum⟩ tag ns).symm⟩
    case dead =>
      obtain ⟨jobId, generation, attempt, maximum, reason, tag, rfl⟩ := h
      exact ⟨.dead ⟨⟨jobId, generation, attempt, maximum⟩, reason, tag⟩, rfl,
        (deadFilename_text ⟨jobId, generation, attempt, maximum⟩ tag reason).symm⟩
    case receipt =>
      obtain ⟨jobId, generation, attempt, maximum, token, tag, rfl⟩ := h
      exact ⟨.receipt ⟨⟨jobId, generation, attempt, maximum⟩, token, tag⟩, rfl,
        (receiptFilename_text ⟨jobId, generation, attempt, maximum⟩ tag token).symm⟩
    case temp =>
      obtain ⟨created, random, rfl⟩ := h
      exact ⟨.temp ⟨created, random⟩, rfl, (tempFilename_text _ _).symm⟩
    case quarantine =>
      obtain ⟨id, reason, rfl⟩ := h
      exact ⟨.quarantine ⟨id, reason⟩, rfl, (quarantineFilename_text _ _).symm⟩
  · rintro ⟨n, rfl, rfl⟩
    cases n <;>
      simp only [AnyName.kind, NameKind.rule, generates_seqs_cons, generates_seqs_nil,
        generates_literal, generates_jobId, generates_generation, generates_attempt,
        generates_maximum, generates_tag, generates_octets16, generates_time, generates_token,
        generates_reason, existsAndEq, true_and, exists_and_left, List.append_nil]
    case ready n => exact ⟨_, _, _, _, _, readyFilename_text _ _⟩
    case leased n => exact ⟨_, _, _, _, _, _, _, _, _, leasedFilename_text _ _ _ _ _ _⟩
    case delayed n => exact ⟨_, _, _, _, _, _, delayedFilename_text _ _ _⟩
    case dead n => exact ⟨_, _, _, _, _, _, deadFilename_text _ _ _⟩
    case receipt n => exact ⟨_, _, _, _, _, _, receiptFilename_text _ _ _⟩
    case temp n => exact ⟨_, _, tempFilename_text _ _⟩
    case quarantine n => exact ⟨_, _, quarantineFilename_text _ _⟩

/-! ## 3. Exactness -/

/-- The kinds have names of different lengths. -/
def NameKind.length : NameKind → Nat
  | .ready => 92
  | .leased => 196
  | .delayed => 110
  | .dead => 98
  | .receipt => 126
  | .temp => 53
  | .quarantine => 43

theorem filename_length (n : AnyName) : n.filename.length = n.kind.length := by
  cases n with
  | ready n => simp [AnyName.filename, readyFilename_text, hexU64, hexU32, n.common.jobId.2,
      n.tag.2, ascii, AnyName.kind, NameKind.length]
  | leased n => simp [AnyName.filename, leasedFilename_text, hexU64, hexU32, n.common.jobId.2,
      n.tag.2, n.bootId.2, n.token.2, ascii, AnyName.kind, NameKind.length]
  | delayed n => simp [AnyName.filename, delayedFilename_text, hexU64, hexU32, n.common.jobId.2,
      n.tag.2, ascii, AnyName.kind, NameKind.length]
  | dead n => simp [AnyName.filename, deadFilename_text, hexU64, hexU32, hexU16,
      n.common.jobId.2, n.tag.2, ascii, AnyName.kind, NameKind.length]
  | receipt n => simp [AnyName.filename, receiptFilename_text, hexU64, hexU32, n.common.jobId.2,
      n.tag.2, n.token.2, ascii, AnyName.kind, NameKind.length]
  | temp n => simp [AnyName.filename, tempFilename_text, hexU64, n.random.2, ascii, AnyName.kind,
      NameKind.length]
  | quarantine n => simp [AnyName.filename, quarantineFilename_text, hexU16, n.quarantineId.2,
      ascii, AnyName.kind, NameKind.length]

theorem NameKind.length_injective {k k' : NameKind} (h : k.length = k'.length) : k = k' := by
  cases k <;> cases k' <;> first | rfl | cases h

end Grammar

/-! ## 4. What a tag binds -/

/-- A tagged name and the place it is for. -/
inductive Sealed where
  | ready (shard : Bytes) (common : CommonFields)
  | leased (bootId bucket shard : Bytes) (common : CommonFields) (boot : Octets 16)
      (boottimeDeadlineNs wallDeadlineNs : UInt64) (token : Octets 16)
  | delayed (bucket shard : Bytes) (common : CommonFields) (notBeforeNs : UInt64)
  | receipt (bucket shard : Bytes) (common : CommonFields) (token : Octets 16)
  | dead (bucket shard : Bytes) (common : CommonFields) (reason : UInt16)

namespace Sealed

/-- The directories of the place are canonical. -/
def Canonical : Sealed → Prop
  | .ready shard _ => (shardFromHex shard).isSome
  | .leased bootId bucket shard .. =>
    (bootIdBytes bootId).isSome ∧ (bucketFromHex bucket).isSome ∧ (shardFromHex shard).isSome
  | .delayed bucket shard .. => (bucketFromHex bucket).isSome ∧ (shardFromHex shard).isSome
  | .receipt bucket shard .. => (bucketFromHex bucket).isSome ∧ (shardFromHex shard).isSome
  | .dead bucket shard .. => (bucketFromHex bucket).isSome ∧ (shardFromHex shard).isSome

/-- A leased name carries the boot id of its directory. -/
def Coherent : Sealed → Prop
  | .leased bootId _ _ _ boot .. => bootIdBytes bootId = some boot
  | _ => True

def context : Sealed → Bytes
  | .ready shard _ => readyContext shard
  | .leased bootId bucket shard .. => leasedContext bootId bucket shard
  | .delayed bucket shard .. => delayedContext bucket shard
  | .receipt bucket shard .. => terminalContext .receipt bucket shard
  | .dead bucket shard .. => terminalContext .dead bucket shard

def parts : Sealed → List Bytes
  | .ready _ c => c.baseParts
  | .leased _ _ _ c boot boottime wall token => leasedParts c boot boottime wall token
  | .delayed _ _ c ns => delayedParts c ns
  | .receipt _ _ c token => receiptParts c token
  | .dead _ _ c reason => deadParts c reason

/-- What the tag is computed from. -/
def hashed (queueId : Octets 16) (x : Sealed) : Bytes :=
  ascii "SteadQ-1-name" ++ [0] ++ queueId.1 ++ (x.context ++ joinDots x.parts)

/-- The name was written for its place. -/
def Writes (queueId : Octets 16) (n : Name) : Sealed → Prop
  | .ready shard c => n = makeReadyName queueId shard c
  | .leased bootId bucket shard c _ boottime wall token =>
    makeLeasedName queueId bootId bucket shard c boottime wall token = some n
  | .delayed bucket shard c ns => n = makeDelayedName queueId bucket shard c ns
  | .receipt bucket shard c token => n = makeReceiptName queueId bucket shard c token
  | .dead bucket shard c reason => n = makeDeadName queueId bucket shard c reason

/-- The parser of the kind finds the fields and the tag. -/
def Reads (n : Name) (tag : Octets 8) : Sealed → Prop
  | .ready _ c => parseReady n = .ok ⟨c, tag⟩
  | .leased _ _ _ c boot boottime wall token =>
    parseLeased n = .ok ⟨c, boot, boottime, wall, token, tag⟩
  | .delayed _ _ c ns => parseDelayed n = .ok ⟨c, ns, tag⟩
  | .receipt _ _ c token => parseReceipt n = .ok ⟨c, token, tag⟩
  | .dead _ _ c reason => parseDead n = .ok ⟨c, reason, tag⟩

/-- A name with these fields and this tag authenticates at the place. -/
def authenticates (queueId : Octets 16) (tag : Octets 8) : Sealed → Bool
  | .ready shard c => ReadyName.authenticateTag ⟨c, tag⟩ queueId shard
  | .leased bootId bucket shard c boot boottime wall token =>
    LeasedName.authenticateTag ⟨c, boot, boottime, wall, token, tag⟩ queueId bootId bucket shard
  | .delayed bucket shard c ns => DelayedName.authenticateTag ⟨c, ns, tag⟩ queueId bucket shard
  | .receipt bucket shard c token =>
    ReceiptName.authenticateTag ⟨c, token, tag⟩ queueId bucket shard
  | .dead bucket shard c reason => DeadName.authenticateTag ⟨c, reason, tag⟩ queueId bucket shard

end Sealed

/-- The first eight bytes of the digest. -/
def truncatedDigest (input : Bytes) : Octets 8 :=
  ⟨(sha256 input).1.take 8, by
    rw [List.length_take, (sha256 _).2]
    rfl⟩

theorem computeNameTag_eq (queueId : Octets 16) (x : Sealed) :
    computeNameTag queueId (x.context ++ joinDots x.parts) = truncatedDigest (x.hashed queueId) := rfl

theorem authenticates_iff {queueId : Octets 16} {tag : Octets 8} {x : Sealed} :
    x.authenticates queueId tag = true ↔ truncatedDigest (x.hashed queueId) = tag := by
  rw [← computeNameTag_eq]
  cases x <;> exact decide_eq_true_iff

/-! Written names. -/

theorem writes_reads {queueId : Octets 16} {x : Sealed} (h : x.Coherent) :
    ∃ n, x.Writes queueId n ∧ x.Reads n (truncatedDigest (x.hashed queueId)) := by
  cases x with
  | ready shard c => exact ⟨_, rfl, parseReady_tagged _ _⟩
  | leased bootId bucket shard c boot boottime wall token =>
    refine ⟨leasedFilename c boot boottime wall token _, ?_, parseLeased_tagged _ _ _ _ _ _⟩
    have hboot : bootIdBytes bootId = some boot := h
    simp only [Sealed.Writes, makeLeasedName, hboot]
    rfl
  | delayed bucket shard c ns => exact ⟨_, rfl, parseDelayed_tagged _ _ _⟩
  | receipt bucket shard c token => exact ⟨_, rfl, parseReceipt_tagged _ _ _⟩
  | dead bucket shard c reason => exact ⟨_, rfl, parseDead_tagged _ _ _⟩

/-- The tag of a written name is that of its place and fields. -/
theorem tag_of_written {queueId : Octets 16} {x : Sealed} {n : Name} {tag : Octets 8}
    (hw : x.Writes queueId n) (hr : x.Reads n tag) : tag = truncatedDigest (x.hashed queueId) := by
  cases x with
  | ready shard c =>
    cases hw
    have hp := (parseReady_tagged c _).symm.trans hr
    cases hp
    rfl
  | leased bootId bucket shard c boot boottime wall token =>
    simp only [Sealed.Writes, makeLeasedName, Option.bind_eq_bind, Option.bind_eq_some_iff,
      Option.some.injEq] at hw
    obtain ⟨bootBytes, -, rfl⟩ := hw
    have hp := (parseLeased_tagged c bootBytes boottime wall token _).symm.trans hr
    cases hp
    rfl
  | delayed bucket shard c ns =>
    cases hw
    have hp := (parseDelayed_tagged c ns _).symm.trans hr
    cases hp
    rfl
  | receipt bucket shard c token =>
    cases hw
    have hp := (parseReceipt_tagged c token _).symm.trans hr
    cases hp
    rfl
  | dead bucket shard c reason =>
    cases hw
    have hp := (parseDead_tagged c reason _).symm.trans hr
    cases hp
    rfl

/-! Unique decoding: the text is five components between slashes, and the last is the fields
    between dots. -/

/-- Nothing in a hex string is below the digits. -/
theorem le_of_mem_hexEncode {b : Bytes} {x : UInt8} (h : x ∈ hexEncode b) : 48 ≤ x := by
  have key : ∀ d : Fin 16, (48 : UInt8) ≤ Octet.hexDigit (UInt8.ofNat d) := by decide
  obtain ⟨d, rfl⟩ := mem_hexEncode h
  exact key d

theorem no_slash_hex (b : Bytes) : 47 ∉ hexEncode b := by
  intro h
  exact absurd (le_of_mem_hexEncode h) (by decide)

theorem no_slash_bucket {s : Bytes} (h : (bucketFromHex s).isSome) : 47 ∉ s := by
  obtain ⟨b, hb⟩ := Option.isSome_iff_exists.mp h
  rw [bucketHex_of_bucketFromHex hb]
  exact no_slash_hex _

theorem no_slash_shard {s : Bytes} (h : (shardFromHex s).isSome) : 47 ∉ s := by
  obtain ⟨b, hb⟩ := Option.isSome_iff_exists.mp h
  rw [shardHex_of_shardFromHex hb]
  exact no_slash_hex _

/-- A byte behind position `k` is in the next `m`, or behind them. -/
theorem mem_group {s : Bytes} {x : UInt8} {k : Nat} (m : Nat) (h : x ∈ s.drop k) :
    x ∈ (s.drop k).take m ∨ x ∈ s.drop (k + m) := by
  rw [← List.take_append_drop m (s.drop k), List.mem_append, List.drop_drop] at h
  exact h

theorem mem_behind_dash {s : Bytes} {x : UInt8} {k : Nat} (hx : x ≠ 45) (hk : s[k]? = some 45)
    (h : x ∈ s.drop k) : x ∈ s.drop (k + 1) := by
  obtain ⟨hlt, hs⟩ := List.getElem?_eq_some_iff.mp hk
  rw [List.drop_eq_getElem_cons hlt, hs, List.mem_cons] at h
  exact h.resolve_left hx

/-- A boot id is made of dashes and the digits of its bytes. -/
theorem mem_boot {s : Bytes} {b : Octets 16} (hb : bootIdBytes s = some b) {x : UInt8}
    (hs : x ∈ s) : x = 45 ∨ x ∈ hexEncode b.1 := by
  refine Classical.or_iff_not_imp_left.mpr fun hx => ?_
  unfold bootIdBytes at hb
  split at hb
  · cases hb
  · split at hb
    · cases hb
    · rename_i hdash
      simp only [not_or, ne_eq, not_not] at hdash
      obtain ⟨h8, h13, h18, h23⟩ := hdash
      rw [hexEncode_of_hexDecodeArray hb]
      simp only [List.mem_append]
      -- group by group
      rcases mem_group (k := 0) 8 hs with h | h
      · exact .inl (.inl (.inl (.inl h)))
      · rcases mem_group 4 (mem_behind_dash hx h8 h) with h | h
        · exact .inl (.inl (.inl (.inr h)))
        · rcases mem_group 4 (mem_behind_dash hx h13 h) with h | h
          · exact .inl (.inl (.inr h))
          · rcases mem_group 4 (mem_behind_dash hx h18 h) with h | h
            · exact .inl (.inr h)
            · exact .inr (mem_behind_dash hx h23 h)

theorem no_slash_boot {s : Bytes} (h : (bootIdBytes s).isSome) : 47 ∉ s := by
  obtain ⟨b, hb⟩ := Option.isSome_iff_exists.mp h
  intro hs
  exact no_slash_hex b.1 ((mem_boot hb hs).resolve_left (by decide))

/-- Neither of the separators occurs. -/
def Unsplit (p : Bytes) : Prop := ∀ x ∈ p, x ≠ 46 ∧ x ≠ 47

theorem unsplit_hex (b : Bytes) : Unsplit (hexEncode b) := by
  intro x hx
  have hle := le_of_mem_hexEncode hx
  constructor
  · rintro rfl
    exact absurd hle (by decide)
  · rintro rfl
    exact absurd hle (by decide)

theorem unsplit_field {label : UInt8} (hl : label ≠ 46 ∧ label ≠ 47) (b : Bytes) :
    Unsplit (field label (hexEncode b)) := by
  intro x hx
  rcases List.mem_cons.mp hx with rfl | hx
  · exact hl
  · exact unsplit_hex b x hx

theorem unsplit_baseParts (c : CommonFields) : ∀ p ∈ c.baseParts, Unsplit p := by
  intro p hp
  simp only [CommonFields.baseParts, List.mem_cons, List.not_mem_nil, or_false] at hp
  rcases hp with rfl | rfl | rfl | rfl
  · exact unsplit_hex _
  · exact unsplit_field (by decide) _
  · exact unsplit_field (by decide) _
  · exact unsplit_field (by decide) _

/-- The base parts and one more field. -/
theorem unsplit_snoc (c : CommonFields) {label : UInt8} (hl : label ≠ 46 ∧ label ≠ 47) (b : Bytes) :
    ∀ p ∈ c.baseParts ++ [field label (hexEncode b)], Unsplit p := by
  intro p hp
  rcases List.mem_append.mp hp with hp | hp
  · exact unsplit_baseParts c p hp
  · rw [List.mem_singleton] at hp
    subst hp
    exact unsplit_field hl b

theorem unsplit_parts (x : Sealed) : ∀ p ∈ x.parts, Unsplit p := by
  cases x with
  | ready shard c => exact unsplit_baseParts c
  | leased bootId bucket shard c boot boottime wall token =>
    intro p hp
    simp only [Sealed.parts, leasedParts, List.mem_append, List.mem_cons, List.not_mem_nil,
      or_false] at hp
    rcases hp with hp | rfl | rfl | rfl | rfl
    · exact unsplit_baseParts c p hp
    · exact unsplit_field (by decide) _
    · exact unsplit_field (by decide) _
    · exact unsplit_field (by decide) _
    · exact unsplit_field (by decide) _
  | delayed bucket shard c ns => exact unsplit_snoc c (by decide) _
  | receipt bucket shard c token => exact unsplit_snoc c (by decide) _
  | dead bucket shard c reason => exact unsplit_snoc c (by decide) _

theorem parts_ne_nil (x : Sealed) : x.parts ≠ [] := by
  cases x <;> simp [Sealed.parts, leasedParts, delayedParts, receiptParts, deadParts,
    CommonFields.baseParts]

/-- The fields between the dots are read back. -/
theorem joinDots_injective (x x' : Sealed) (h : joinDots x.parts = joinDots x'.parts) :
    x.parts = x'.parts := by
  have hsplit : ∀ y : Sealed, (joinDots y.parts).splitOn 46 = y.parts := fun y =>
    List.splitOn_intercalate 46 (fun p hp hx => (unsplit_parts y p hp 46 hx).1 rfl) (parts_ne_nil y)
  rw [← hsplit x, h, hsplit x']

/-- State, boot id, bucket, shard and fields; a dash where there is none. -/
def Sealed.components : Sealed → List Bytes
  | .ready shard c => [State.ready.dirName, [45], [45], shard, joinDots c.baseParts]
  | .leased bootId bucket shard c boot boottime wall token =>
    [State.leased.dirName, bootId, bucket, shard, joinDots (leasedParts c boot boottime wall token)]
  | .delayed bucket shard c ns =>
    [State.delayed.dirName, [45], bucket, shard, joinDots (delayedParts c ns)]
  | .receipt bucket shard c token =>
    [State.receipt.dirName, [45], bucket, shard, joinDots (receiptParts c token)]
  | .dead bucket shard c reason =>
    [State.dead.dirName, [45], bucket, shard, joinDots (deadParts c reason)]

theorem text_eq (x : Sealed) :
    x.context ++ joinDots x.parts = [(47 : UInt8)].intercalate x.components := by
  have hslash : ascii "/" = [47] := by decide
  have hready : ascii "ready/-/-/" = ascii "ready" ++ [47, 45, 47, 45, 47] := by decide
  have hleased : ascii "leased/" = ascii "leased" ++ [47] := by decide
  have hdelayed : ascii "delayed/-/" = ascii "delayed" ++ [47, 45, 47] := by decide
  have hterminal : ascii "/-/" = [47, 45, 47] := by decide
  cases x <;>
    simp [Sealed.context, Sealed.parts, Sealed.components, readyContext, leasedContext,
      delayedContext, terminalContext, State.dirName, List.intercalate, hslash, hready, hleased,
      hdelayed, hterminal]

theorem no_slash_fields (x : Sealed) : 47 ∉ joinDots x.parts := by
  intro h
  rcases mem_joinDots h with h | ⟨p, hp, hx⟩
  · cases h
  · exact (unsplit_parts x p hp 47 hx).2 rfl

theorem no_slash_components {x : Sealed} (hx : x.Canonical) : ∀ p ∈ x.components, 47 ∉ p := by
  have hstate : ∀ state : State, 47 ∉ state.dirName := by
    intro state
    cases state <;> decide
  have hdash : (47 : UInt8) ∉ [(45 : UInt8)] := by decide
  have hfields := no_slash_fields x
  intro p hp
  cases x with
  | ready shard c =>
    simp only [Sealed.components, List.mem_cons, List.not_mem_nil, or_false] at hp
    rcases hp with rfl | rfl | rfl | rfl | rfl
    · exact hstate _
    · exact hdash
    · exact hdash
    · exact no_slash_shard hx
    · exact hfields
  | leased bootId bucket shard c boot boottime wall token =>
    simp only [Sealed.components, List.mem_cons, List.not_mem_nil, or_false] at hp
    rcases hp with rfl | rfl | rfl | rfl | rfl
    · exact hstate _
    · exact no_slash_boot hx.1
    · exact no_slash_bucket hx.2.1
    · exact no_slash_shard hx.2.2
    · exact hfields
  | delayed bucket shard c ns =>
    simp only [Sealed.components, List.mem_cons, List.not_mem_nil, or_false] at hp
    rcases hp with rfl | rfl | rfl | rfl | rfl
    · exact hstate _
    · exact hdash
    · exact no_slash_bucket hx.1
    · exact no_slash_shard hx.2
    · exact hfields
  | receipt bucket shard c token =>
    simp only [Sealed.components, List.mem_cons, List.not_mem_nil, or_false] at hp
    rcases hp with rfl | rfl | rfl | rfl | rfl
    · exact hstate _
    · exact hdash
    · exact no_slash_bucket hx.1
    · exact no_slash_shard hx.2
    · exact hfields
  | dead bucket shard c reason =>
    simp only [Sealed.components, List.mem_cons, List.not_mem_nil, or_false] at hp
    rcases hp with rfl | rfl | rfl | rfl | rfl
    · exact hstate _
    · exact hdash
    · exact no_slash_bucket hx.1
    · exact no_slash_shard hx.2
    · exact hfields

/-- The components between the slashes are read back. -/
theorem components_eq {x x' : Sealed} (hx : x.Canonical) (hx' : x'.Canonical)
    (h : x.context ++ joinDots x.parts = x'.context ++ joinDots x'.parts) :
    x.components = x'.components := by
  have hsplit : ∀ y : Sealed, y.Canonical →
      (y.context ++ joinDots y.parts).splitOn 47 = y.components := by
    intro y hy
    rw [text_eq]
    refine List.splitOn_intercalate 47 (no_slash_components hy) ?_
    cases y <;> simp [Sealed.components]
  rw [← hsplit x hx, h, hsplit x' hx']

/-! The fields are read off their parts. -/

theorem hexEncode_injective {b b' : Bytes} (h : hexEncode b = hexEncode b') : b = b' := by
  have hb := hexDecode_hexEncode b
  rw [h, hexDecode_hexEncode] at hb
  exact (Option.some.inj hb).symm

theorem hexU32_injective {v v' : UInt32} (h : hexU32 v = hexU32 v') : v = v' := by
  have hv := hexDecodeU32_hex v
  rw [h, hexDecodeU32_hex] at hv
  exact (Option.some.inj hv).symm

theorem hexU16_injective {v v' : UInt16} (h : hexU16 v = hexU16 v') : v = v' := by
  have hv := hexDecodeU16_hex v
  rw [h, hexDecodeU16_hex] at hv
  exact (Option.some.inj hv).symm

theorem field_injective {label label' : UInt8} {b b' : Bytes}
    (h : field label b = field label' b') : b = b' := (List.cons.inj h).2

theorem baseParts_injective {c c' : CommonFields} {fields fields' : List Bytes}
    (h : c.baseParts ++ fields = c'.baseParts ++ fields') : c = c' ∧ fields = fields' := by
  simp only [CommonFields.baseParts, List.cons_append, List.nil_append, List.cons.injEq] at h
  obtain ⟨hjob, hgen, hatt, hmax, hfields⟩ := h
  obtain ⟨jobId, generation, attempt, maximum⟩ := c
  obtain ⟨jobId', generation', attempt', maximum'⟩ := c'
  cases Subtype.ext (hexEncode_injective hjob)
  cases bucketHex_injective (field_injective hgen)
  cases hexU32_injective (field_injective hatt)
  cases hexU32_injective (field_injective hmax)
  exact ⟨rfl, hfields⟩

def Sealed.state : Sealed → State
  | .ready .. => .ready
  | .leased .. => .leased
  | .delayed .. => .delayed
  | .receipt .. => .receipt
  | .dead .. => .dead

theorem components_head (x : Sealed) : x.components.head? = some x.state.dirName := by
  cases x <;> rfl

theorem sealed_of_components {x x' : Sealed} (h : x.components = x'.components) : x = x' := by
  -- different states have different names, so only the equal ones are left
  have hhead := components_head x
  rw [h, components_head x', Option.some.injEq] at hhead
  have hstate := State.dirName_injective hhead
  cases x with
  | ready shard c =>
    cases x' with
    | ready shard' c' =>
      simp only [Sealed.components, List.cons.injEq, true_and, and_true] at h
      obtain ⟨rfl, hfields⟩ := h
      have hparts := joinDots_injective (.ready shard c) (.ready shard c') hfields
      have hc := baseParts_injective (congrArg (· ++ []) hparts)
      rw [hc.1]
    | _ => cases hstate
  | leased bootId bucket shard c boot boottime wall token =>
    cases x' with
    | leased bootId' bucket' shard' c' boot' boottime' wall' token' =>
      simp only [Sealed.components, List.cons.injEq, true_and, and_true] at h
      obtain ⟨rfl, rfl, rfl, hfields⟩ := h
      have hparts := joinDots_injective (.leased bootId bucket shard c boot boottime wall token)
        (.leased bootId bucket shard c' boot' boottime' wall' token') hfields
      obtain ⟨rfl, hrest⟩ := baseParts_injective hparts
      simp only [List.cons.injEq, and_true] at hrest
      obtain ⟨ho, hb, hw, ht⟩ := hrest
      cases Subtype.ext (hexEncode_injective (field_injective ho))
      cases bucketHex_injective (field_injective hb)
      cases bucketHex_injective (field_injective hw)
      cases Subtype.ext (hexEncode_injective (field_injective ht))
      rfl
    | _ => cases hstate
  | delayed bucket shard c ns =>
    cases x' with
    | delayed bucket' shard' c' ns' =>
      simp only [Sealed.components, List.cons.injEq, true_and, and_true] at h
      obtain ⟨rfl, rfl, hfields⟩ := h
      have hparts := joinDots_injective (.delayed bucket shard c ns) (.delayed bucket shard c' ns')
        hfields
      obtain ⟨rfl, hrest⟩ := baseParts_injective hparts
      cases bucketHex_injective (field_injective (List.cons.inj hrest).1)
      rfl
    | _ => cases hstate
  | receipt bucket shard c token =>
    cases x' with
    | receipt bucket' shard' c' token' =>
      simp only [Sealed.components, List.cons.injEq, true_and, and_true] at h
      obtain ⟨rfl, rfl, hfields⟩ := h
      have hparts := joinDots_injective (.receipt bucket shard c token)
        (.receipt bucket shard c' token') hfields
      obtain ⟨rfl, hrest⟩ := baseParts_injective hparts
      cases Subtype.ext (hexEncode_injective (field_injective (List.cons.inj hrest).1))
      rfl
    | _ => cases hstate
  | dead bucket shard c reason =>
    cases x' with
    | dead bucket' shard' c' reason' =>
      simp only [Sealed.components, List.cons.injEq, true_and, and_true] at h
      obtain ⟨rfl, rfl, hfields⟩ := h
      have hparts := joinDots_injective (.dead bucket shard c reason)
        (.dead bucket shard c' reason') hfields
      obtain ⟨rfl, hrest⟩ := baseParts_injective hparts
      cases hexU16_injective (field_injective (List.cons.inj hrest).1)
      rfl
    | _ => cases hstate

/-- **What is hashed determines the queue, the place and the fields.** -/
theorem hashed_injective {queueId queueId' : Octets 16} {x x' : Sealed} (hx : x.Canonical)
    (hx' : x'.Canonical) (h : x.hashed queueId = x'.hashed queueId') :
    queueId = queueId' ∧ x = x' := by
  unfold Sealed.hashed at h
  obtain ⟨hfront, htext⟩ := List.append_inj h (by simp [queueId.2, queueId'.2])
  have hqueue := (List.append_inj hfront rfl).2
  exact ⟨Subtype.ext hqueue, sealed_of_components (components_eq hx hx' htext)⟩

/-- **A tag binds a name to its place**: a written name reads back and authenticates at the place
    it was written for; the bytes hashed determine the queue, the place and all fields; so the tag
    of a written name authenticates other fields, or another place, only if two different inputs
    have one truncated digest. -/
theorem name_binds_place (queueId queueId' : Octets 16) (x x' : Sealed) :
    (x.Coherent → ∃ n tag, x.Writes queueId n ∧ x.Reads n tag ∧
      x.authenticates queueId tag = true) ∧
    (x.Canonical → x'.Canonical → x.hashed queueId = x'.hashed queueId' →
      queueId = queueId' ∧ x = x') ∧
    ∀ n tag, x.Canonical → x'.Canonical → x.Writes queueId n → x.Reads n tag →
      x'.authenticates queueId' tag = true → ¬ (queueId = queueId' ∧ x = x') →
        x.hashed queueId ≠ x'.hashed queueId' ∧
          truncatedDigest (x.hashed queueId) = truncatedDigest (x'.hashed queueId') := by
  refine ⟨fun h => ?_, hashed_injective, fun n tag hx hx' hw hr hauth hne => ?_⟩
  · obtain ⟨n, hw, hr⟩ := writes_reads h
    exact ⟨n, _, hw, hr, authenticates_iff.mpr rfl⟩
  · refine ⟨fun heq => hne (hashed_injective hx hx' heq), ?_⟩
    rw [← tag_of_written hw hr]
    exact (authenticates_iff.mp hauth).symm

/-- A leased name in the first bucket of a boot. -/
def sampleSealed : Sealed :=
  .leased (formatBootId ⟨List.replicate 16 7, rfl⟩) (bucketHex 1) (shardHex 3)
    ⟨⟨List.replicate 16 1, rfl⟩, 4, 2, 5⟩ ⟨List.replicate 16 7, rfl⟩ 10 20
    ⟨List.replicate 16 9, rfl⟩

theorem name_binds_place_leased : ∃ n tag, sampleSealed.Writes ⟨List.replicate 16 0, rfl⟩ n ∧
    sampleSealed.Reads n tag ∧
    sampleSealed.authenticates ⟨List.replicate 16 0, rfl⟩ tag = true :=
  (name_binds_place _ ⟨List.replicate 16 0, rfl⟩ sampleSealed sampleSealed).1
    (bootIdBytes_formatBootId _)

end SteadQ
