/-
  File:      SteadQ/Outcome/Rules.lean
  Subject:   WHAT ONE CALL DID, read off the record of its system calls.

  A record lists the system calls of one operation with their answers, newest first. Two things
  are read off it: which entries were linked or renamed (`transfers`), and whether storage ran
  out, and where (`shortage`).
-/
import SteadQ.Ops

namespace SteadQ

open Octet Interact

/-! ## 1. Transfers -/

/-- The system calls of one operation, newest first. -/
abbrev CallLog := Log Act.Resp

/-- An entry that was made or moved. -/
inductive Transfer where
  | link (file : Ino) (dst : Path) (dstName : Name)
  | rename (src : Path) (srcName : Name) (dst : Path) (dstName : Name)
  deriving DecidableEq

/-- What a call transferred. Replacements inside `control/` are not about jobs. -/
def Act.transfer : (a : Act) → a.Resp → Option Transfer
  | .linkat _ i d n, .ok () => some (.link i d.path n)
  | .renameNoreplace s sn d dn, .ok () => some (.rename s.path sn d.path dn)
  | .renameat s sn d dn, .ok () =>
    if d.path = controlPath then none else some (.rename s.path sn d.path dn)
  | _, _ => none

/-- The transfers of an operation, newest first. -/
def transfers (t : CallLog) : List Transfer := t.filterMap fun e => e.1.transfer e.2

/-- The operation took this wall floor. -/
def Floored (t : CallLog) (floor : WallFloor) : Prop :=
  (⟨.mark (.floorEnd (some floor)), ()⟩ : Σ a : Act, a.Resp) ∈ t

theorem Floored.later {t t' : CallLog} {floor : WallFloor} (hf : Floored t floor) (ht : t <:+ t') :
    Floored t' floor := ht.subset hf

/-! ## 2. Shortage of storage -/

/-- `ENOSPC` and `EDQUOT`. -/
def IoError.exhausted (e : IoError) : Bool := e = .enospc ∨ e = .edquot

theorem IoError.exhausted_iff {e : IoError} :
    e.exhausted = true ↔ Error.from e = .resourceExhausted := by
  cases e <;> simp [IoError.exhausted, Error.from]

/-- A call that allocates or commits storage and failed for want of it. -/
def Act.exhausted : (a : Act) → a.Resp → Bool
  | .mkdirat .., .error e => e.exhausted
  | .openTmpfile _, .error e => e.exhausted
  | .createExclusive .., .error e => e.exhausted
  | .write .., .error e => e.exhausted
  | .pwrite .., .error e => e.exhausted
  | .fsync _, .error e => e.exhausted
  | .fsyncDir _, .error e => e.exhausted
  | .linkat .., .error e => e.exhausted
  | .renameNoreplace .., .error e => e.exhausted
  | .renameat .., .error e => e.exhausted
  | _, _ => false

/-- A link or a rename that happened, of whatever file. -/
def Act.renames : (a : Act) → a.Resp → Bool
  | .linkat .., .ok () => true
  | .renameNoreplace .., .ok () => true
  | .renameat .., .ok () => true
  | _, _ => false

/-- Directories in which a directory was made, or found, since the last link or rename. -/
def made : CallLog → List Dir
  | [] => []
  | ⟨.mkdirat d _, _⟩ :: past => d :: made past
  | e :: past => if e.1.renames e.2 then [] else made past

/-- Where storage ran out. -/
inductive Shortage where
  /-- In front of the operation's own transfer, at a call other than a barrier behind a transfer
      or behind the replacement of the watermark. -/
  | before
  /-- At such a barrier, or behind the operation's own transfer. -/
  | behind
  deriving DecidableEq, Repr

/-- Where the next call stands; `own` are the transfers that linearize the operation. A directory
    is synced because a directory was made in it, or as a barrier. -/
def standing (own : Transfer → Bool) (t : CallLog) (a : Act) : Shortage :=
  if (transfers t).any own then .behind
  else
    match a with
    | .fsyncDir d => if d ∈ made t then .before else .behind
    | _ => .before

/-- The first shortage. -/
def shortage (own : Transfer → Bool) : CallLog → Option Shortage
  | [] => none
  | e :: past =>
    (shortage own past).or (if e.1.exhausted e.2 then some (standing own past e.1) else none)

section Basics

variable {own : Transfer → Bool} {t : CallLog} {a : Act} {r : a.Resp}

@[simp] theorem transfers_nil : transfers [] = [] := rfl

theorem transfers_quiet (h : a.transfer r = none) : transfers (⟨a, r⟩ :: t) = transfers t :=
  List.filterMap_cons_none h

theorem transfers_step {x : Transfer} (h : a.transfer r = some x) :
    transfers (⟨a, r⟩ :: t) = x :: transfers t :=
  List.filterMap_cons_some h

theorem shortage_fine (h : a.exhausted r = false) : shortage own (⟨a, r⟩ :: t) = shortage own t := by
  simp [shortage, h]

theorem shortage_hit (ht : shortage own t = none) (h : a.exhausted r = true) :
    shortage own (⟨a, r⟩ :: t) = some (standing own t a) := by
  simp [shortage, ht, h]

end Basics

/-! ## 3. Code in front of the linearization point -/

/-- Nothing was transferred between two records. -/
structure Silent (t t' : CallLog) : Prop where
  past : t <:+ t'
  transfers : transfers t' = transfers t

theorem Silent.refl (t : CallLog) : Silent t t := ⟨List.suffix_rfl, rfl⟩

theorem Silent.trans {t₁ t₂ t₃ : CallLog} (h₁ : Silent t₁ t₂) (h₂ : Silent t₂ t₃) : Silent t₁ t₃ :=
  ⟨h₁.past.trans h₂.past, h₂.transfers.trans h₁.transfers⟩

theorem silent_call {t : CallLog} {a : Act} {r : a.Resp} (h : a.transfer r = none) :
    Silent t (⟨a, r⟩ :: t) :=
  ⟨List.suffix_cons .., transfers_quiet h⟩

/-- What no code of an operation changes of its handle, unless it poisons it. -/
structure Alike (q h : Handle) : Prop where
  poisoned : h.poisoned = q.poisoned
  format : h.format = q.format
  bootId : h.bootId = q.bootId
  options : h.options = q.options

theorem Alike.refl (q : Handle) : Alike q q := ⟨rfl, rfl, rfl, rfl⟩

theorem Alike.trans {q h h' : Handle} (h₁ : Alike q h) (h₂ : Alike h h') : Alike q h' :=
  ⟨h₂.poisoned.trans h₁.poisoned, h₂.format.trans h₁.format, h₂.bootId.trans h₁.bootId,
    h₂.options.trans h₁.options⟩

theorem Alike.layout {q h : Handle} (ha : Alike q h) : h.layout = q.layout := by
  simp only [Handle.layout, ha.format, ha.bootId]

/-- No shortage so far, the operation is not linearized, and the handle is still like `q`, the
    one the operation started with. -/
structure Before (own : Transfer → Bool) (q h : Handle) (t : CallLog) : Prop where
  shortage : shortage own t = none
  ahead : (transfers t).any own = false
  alike : Alike q h

section Early

variable {ε ε' α β : Type} {E : CallLog → (a : Act) → a.Resp → Prop} {own : Transfer → Bool}
  {q h h' : Handle} {t t' : CallLog}

theorem Before.memory (hb : Before own q h t) (ha : Alike h h') : Before own q h' t :=
  ⟨hb.shortage, hb.ahead, hb.alike.trans ha⟩

theorem Before.standing (hb : Before own q h t) (a : Act) : standing own t a =
    match a with
    | .fsyncDir d => if d ∈ made t then .before else .behind
    | _ => .before := by
  simp only [SteadQ.standing, hb.ahead, Bool.false_eq_true, if_false]

/-- What is left behind by code that started with record `t`: a success has met no shortage, and
    a failure is related by `R` to the shortage it met. -/
structure EarlyPost (own : Transfer → Bool) (q : Handle) (t : CallLog)
    (R : Option Shortage → ε → Handle → Prop) (J : α → Handle → CallLog → Prop)
    (r : Except ε α) (h' : Handle) (t' : CallLog) : Prop where
  silent : Silent t t'
  ok : ∀ a, r = .ok a → Before own q h' t' ∧ J a h' t'
  error : ∀ e, r = .error e → R (shortage own t') e h'

/-- Code in front of the linearization point. -/
def Early (E : CallLog → (a : Act) → a.Resp → Prop) (own : Transfer → Bool)
    (q : Handle) (R : Option Shortage → ε → Handle → Prop) (m : QueueM ε α) (h : Handle)
    (t : CallLog) (J : α → Handle → CallLog → Prop) : Prop :=
  m.Meets (recorder E) h t (EarlyPost own q t R J)

variable {R : Option Shortage → ε → Handle → Prop} {S : Option Shortage → ε' → Handle → Prop}
  {m : QueueM ε α} {k : α → QueueM ε β} {J J' : α → Handle → CallLog → Prop}
  {K : β → Handle → CallLog → Prop}

theorem EarlyPost.after {r : Except ε α} (hs : Silent t t') {h₂ : Handle} {t₂ : CallLog}
    (hp : EarlyPost own q t' R J r h₂ t₂) : EarlyPost own q t R J r h₂ t₂ :=
  ⟨hs.trans hp.silent, hp.ok, hp.error⟩

theorem Early.after (hs : Silent t t') (hm : Early E own q R m h' t' J) :
    m.Meets (recorder E) h' t' (EarlyPost own q t R J) :=
  Task.Meets.mono hm fun _ _ _ hp => hp.after hs

theorem Early.mono (hm : Early E own q R m h t J)
    (hJ : ∀ a h' t', Before own q h' t' → J a h' t' → J' a h' t') : Early E own q R m h t J' :=
  Task.Meets.mono hm fun _ h' t' hp =>
    ⟨hp.silent, fun a ha => ⟨(hp.ok a ha).1, hJ a h' t' (hp.ok a ha).1 (hp.ok a ha).2⟩, hp.error⟩

theorem Early.weaken {R₂ : Option Shortage → ε → Handle → Prop} (hm : Early E own q R m h t J)
    (hR : ∀ s e h', R s e h' → R₂ s e h') : Early E own q R₂ m h t J :=
  Task.Meets.mono hm fun _ _ _ hp => ⟨hp.silent, hp.ok, fun e he => hR _ _ _ (hp.error e he)⟩

theorem early_pure {a : α} (hb : Before own q h t) (hJ : J a h t) :
    Early E own q R (pure a : QueueM ε α) h t J :=
  ⟨.refl t, by rintro _ ⟨⟩; exact ⟨hb, hJ⟩, nofun⟩

theorem early_throw {e : ε} (hb : Before own q h t) (hR : R none e h) :
    Early E own q R (throw e : QueueM ε α) h t J :=
  ⟨.refl t, nofun, by rintro _ ⟨⟩; rw [hb.shortage]; exact hR⟩

theorem Early.bind (hm : Early E own q R m h t J)
    (hk : ∀ a h' t', Before own q h' t' → Silent t t' → J a h' t' → Early E own q R (k a) h' t' K) :
    Early E own q R (m >>= k) h t K := by
  refine Task.meets_bind.mpr (Task.Meets.mono hm fun r h' t' hp => ?_)
  refine Task.then_intro (fun e he => ⟨hp.silent, nofun, ?_⟩) fun a ha => ?_
  · rintro _ ⟨⟩
    exact hp.error e he
  · obtain ⟨hb, hj⟩ := hp.ok a ha
    exact Early.after hp.silent (hk a h' t' hb hp.silent hj)

theorem Early.mapErr {m : QueueM ε' α} {f : ε' → ε} (hm : Early E own q S m h t J)
    (hR : ∀ s e h', S s e h' → R s (f e) h') : Early E own q R (Task.mapErr f m) h t J := by
  refine Task.meets_mapErr.mpr (Task.Meets.mono hm fun r h' t' hp => ⟨hp.silent, ?_, ?_⟩)
  · intro a ha
    exact hp.ok a (Task.mapError_eq_ok.mp ha)
  · intro e he
    cases r with
    | ok a => cases he
    | error e' =>
      cases he
      exact hR _ _ _ (hp.error e' rfl)

/-- A failure of the first part is a value for the second. -/
theorem Early.cases {m : QueueM ε' α} {k : Except ε' α → QueueM ε β}
    {Q : Except ε β → Handle → CallLog → Prop} (hm : Early E own q S m h t J)
    (hok : ∀ a h' t', Before own q h' t' → Silent t t' → J a h' t' →
      (k (.ok a)).Meets (recorder E) h' t' Q)
    (herror : ∀ e h' t', Silent t t' → S (shortage own t') e h' →
      (k (.error e)).Meets (recorder E) h' t' Q) :
    (Task.attempt m >>= k).Meets (recorder E) h t Q := by
  refine Task.meets_bind.mpr (Task.meets_attempt.mpr (Task.Meets.mono hm fun r h' t' hp => ?_))
  refine Task.then_ok.mpr ?_
  cases r with
  | error e => exact herror e h' t' hp.silent (hp.error e rfl)
  | ok a =>
    obtain ⟨hb, hj⟩ := hp.ok a rfl
    exact hok a h' t' hb hp.silent hj

theorem Early.attempt {m : QueueM ε' α} {k : Except ε' α → QueueM ε β}
    (hm : Early E own q S m h t J)
    (hok : ∀ a h' t', Before own q h' t' → Silent t t' → J a h' t' →
      Early E own q R (k (.ok a)) h' t' K)
    (herror : ∀ e h' t', Silent t t' → S (shortage own t') e h' →
      (k (.error e)).Meets (recorder E) h' t' (EarlyPost own q t R K)) :
    Early E own q R (Task.attempt m >>= k) h t K :=
  hm.cases (fun a h' t' hb hs hj => Early.after hs (hok a h' t' hb hs hj)) herror

theorem early_memory {k : Handle → QueueM ε β} (hk : Early E own q R (k h) h t K) :
    Early E own q R (Task.memory >>= k) h t K := hk

theorem early_remember {f : Handle → Handle} {k : Unit → QueueM ε β}
    (hk : Early E own q R (k ()) (f h) t K) : Early E own q R (Task.remember f >>= k) h t K := hk

theorem early_forget {f : Handle → Handle} (hb : Before own q h t)
    (hf : Alike h (f h)) :
    Early E own q R (Task.remember f : QueueM ε Unit) h t fun _ h' t' => h' = f h ∧ t' = t :=
  ⟨.refl t, fun _ _ => ⟨hb.memory hf, rfl, rfl⟩, nofun⟩

theorem early_ofExcept {x : Except ε α} (hb : Before own q h t)
    (hR : ∀ e, x = .error e → R none e h) (hk : ∀ a, x = .ok a → Early E own q R (k a) h t K) :
    Early E own q R (Task.ofExcept x >>= k) h t K := by
  cases x with
  | error e => exact early_throw hb (hR e rfl)
  | ok a => exact hk a rfl

theorem early_ofOption {o : Option α} {e : ε} (hb : Before own q h t) (hR : R none e h)
    (hk : ∀ a, o = some a → Early E own q R (k a) h t K) :
    Early E own q R (Task.ofOption o e >>= k) h t K := by
  cases o with
  | none => exact early_throw hb hR
  | some a => exact hk a rfl

theorem early_ite {c : Prop} [Decidable c] {m' : QueueM ε α} (h₁ : c → Early E own q R m h t J)
    (h₂ : ¬ c → Early E own q R m' h t J) : Early E own q R (if c then m else m') h t J := by
  split
  · exact h₁ ‹_›
  · exact h₂ ‹_›

/-! ### Single calls -/

theorem Before.call {a : Act} {r : a.Resp} (hb : Before own q h t) (ht : a.transfer r = none)
    (hx : a.exhausted r = false) : Before own q h (⟨a, r⟩ :: t) :=
  ⟨(shortage_fine hx).trans hb.shortage, (transfers_quiet ht).symm ▸ hb.ahead, hb.alike⟩

/-- A call that transfers nothing; `f` reports an exhausted one as `R` wants it. -/
theorem early_call {a : Act} {f : a.Resp → Except ε α} (hb : Before own q h t)
    (hquiet : ∀ r, a.transfer r = none) (hfine : ∀ r x, f r = .ok x → a.exhausted r = false)
    (hR : ∀ r e, f r = .error e →
      R (if a.exhausted r then some (standing own t a) else none) e h) :
    Early E own q R (Task.call a f : QueueM ε α) h t fun x h' t' =>
      h' = h ∧ ∃ r, f r = .ok x ∧ t' = ⟨a, r⟩ :: t := by
  refine ⟨trivial, fun r _ => ⟨silent_call (hquiet r), fun x hx => ?_, fun e he => ?_⟩⟩
  · exact ⟨hb.call (hquiet r) (hfine r x hx), rfl, r, hx, rfl⟩
  · have := hR r e he
    split at this
    · rename_i hx
      rw [← shortage_hit hb.shortage hx] at this
      exact this
    · rename_i hx
      rw [← hb.shortage, ← shortage_fine (r := r) (Bool.not_eq_true _ ▸ hx)] at this
      exact this

/-- Only looks were made between two records. -/
def Looked (t t' : CallLog) : Prop :=
  ∃ ls : CallLog, t' = ls ++ t ∧ ∀ e ∈ ls, ∃ l r, e = ⟨.look l, r⟩

theorem Looked.cons {l : Look} {r : l.Resp} (hl : Looked (⟨.look l, r⟩ :: t) t') : Looked t t' := by
  obtain ⟨ls, rfl, hls⟩ := hl
  refine ⟨ls ++ [⟨.look l, r⟩], by simp, fun e he => ?_⟩
  rcases List.mem_append.mp he with he | he
  · exact hls e he
  · exact ⟨l, r, List.mem_singleton.mp he⟩

theorem Looked.rec_on {motive : CallLog → Prop} (hl : Looked t t') (hbase : motive t)
    (hstep : ∀ l (r : l.Resp) u, motive u → motive (⟨.look l, r⟩ :: u)) : motive t' := by
  obtain ⟨ls, rfl, hls⟩ := hl
  induction ls with
  | nil => exact hbase
  | cons e ls ih =>
    obtain ⟨l, r, rfl⟩ := hls e List.mem_cons_self
    exact hstep l r _ (ih fun e he => hls e (List.mem_cons_of_mem _ he))

theorem Looked.silent (hl : Looked t t') : Silent t t' :=
  hl.rec_on (.refl t) fun _ _ _ hu => hu.trans (silent_call rfl)

theorem Looked.shortage (hl : Looked t t') : shortage own t' = shortage own t :=
  hl.rec_on (motive := fun u => SteadQ.shortage own u = SteadQ.shortage own t) rfl
    fun _ _ _ hu => (shortage_fine rfl).trans hu

theorem Looked.made (hl : Looked t t') : made t' = made t :=
  hl.rec_on (motive := fun u => SteadQ.made u = SteadQ.made t) rfl fun _ _ _ hu => hu

theorem Before.looked (hb : Before own q h t) (hl : Looked t t') : Before own q h t' :=
  ⟨hl.shortage.trans hb.shortage, by rw [hl.silent.transfers]; exact hb.ahead, hb.alike⟩

/-- Whatever is looked at, only looks are recorded. -/
theorem looked_follows {p : Prog Look.Resp α} {Q : α → Prop} {F : (l : Look) → l.Resp → Prop}
    (hF : ∀ u l r, E u (.look l) r → F l r)
    (hp : p.Follows (Task.trusting F) (fun x _ => Q x) ()) :
    (p.embed Act.look fun _ r => r).Follows (recorder E) (fun x t' => Looked t t' ∧ Q x) t := by
  induction p generalizing t with
  | ret x => exact ⟨⟨[], rfl, nofun⟩, hp⟩
  | act l k ih =>
    refine ⟨trivial, fun r hr => Prog.Follows.mono (ih r (hp.2 r (hF t l r hr))) ?_⟩
    rintro x t' ⟨hl, hx⟩
    exact ⟨hl.cons, hx⟩

/-- A look at answers that can be trusted. -/
theorem looking_trusted {m : LookM ε α} {Q : Except ε α → Prop} {F : (l : Look) → l.Resp → Prop}
    (hF : ∀ u l r, E u (.look l) r → F l r)
    (hm : m.Meets (Task.trusting F) h () fun r _ _ => Q r) :
    (looking m).Meets (recorder E) h t fun r h' t' => h' = h ∧ Looked t t' ∧ Q r :=
  Prog.follows_bind.mpr (Prog.Follows.mono (looked_follows hF hm) fun _ _ hx => ⟨rfl, hx⟩)

theorem looking_looked {m : LookM ε α} {Q : Except ε α → Prop} (hm : m.Always h fun r _ => Q r) :
    (looking m).Meets (recorder E) h t fun r h' t' => h' = h ∧ Looked t t' ∧ Q r :=
  looking_trusted (F := fun _ _ => True) (fun _ _ _ _ => trivial) hm

/-- Code that only looks. -/
theorem early_look {m : LookM ε α} {P : α → Prop} (hb : Before own q h t)
    (hm : m.Yields P) (hR : ∀ e, R none e h) :
    Early E own q R (looking m) h t fun a h' t' => h' = h ∧ Looked t t' ∧ P a := by
  refine Task.Meets.mono (looking_looked (hm h)) ?_
  rintro r h' t' ⟨rfl, hl, hP⟩
  refine ⟨hl.silent, fun a ha => ⟨hb.looked hl, rfl, hl, hP a ha⟩, fun e _ => ?_⟩
  rw [hl.shortage, hb.shortage]
  exact hR e

/-- A look whose failure is a value. -/
theorem early_attemptLook {m : LookM ε' α} {k : Except ε' α → QueueM ε β} {P : Except ε' α → Prop}
    (hb : Before own q h t) (hm : m.Always h fun r _ => P r)
    (hk : ∀ r t', Looked t t' → Before own q h t' → P r → Early E own q R (k r) h t' K) :
    Early E own q R (attemptLook m >>= k) h t K := by
  refine Task.meets_bind.mpr (Task.meets_attempt.mpr (Task.Meets.mono (looking_looked hm) ?_))
  rintro r h' t' ⟨rfl, hl, hP⟩
  exact Task.then_ok.mpr (Early.after hl.silent (hk r t' hl (hb.looked hl) hP))

end Early

/-! ## 4. Code behind a transfer -/

/-- Since record `t₀` there was the transfer `x` and no other, and storage ran out at most at a
    barrier behind it. -/
structure After (own : Transfer → Bool) (t₀ : CallLog) (x : Transfer) (t : CallLog) : Prop where
  past : t₀ <:+ t
  transfers : transfers t = x :: transfers t₀
  made : made t = []
  shortage : ∀ k, shortage own t = some k → k = .behind

section Late

variable {ε ε' α β : Type} {E : CallLog → (a : Act) → a.Resp → Prop} {own : Transfer → Bool}
  {q h h' : Handle} {t₀ t t' : CallLog} {x : Transfer}

/-- Moreover storage did not run out, and the handle is still like `q`. -/
structure Behind (own : Transfer → Bool) (q : Handle) (t₀ : CallLog) (x : Transfer) (h : Handle)
    (t : CallLog) : Prop extends After own t₀ x t where
  fine : SteadQ.shortage own t = none
  alike : Alike q h

theorem standing_barrier (hm : made t = []) (d : Dir) : standing own t (.fsyncDir d) = .behind := by
  simp only [standing, hm, List.not_mem_nil, if_false, ite_self]

theorem Behind.memory (hb : Behind own q t₀ x h t) (ha : Alike h h') : Behind own q t₀ x h' t :=
  ⟨hb.toAfter, hb.fine, hb.alike.trans ha⟩

theorem After.looked (ha : After own t₀ x t) (hl : Looked t t') : After own t₀ x t' :=
  ⟨ha.past.trans hl.silent.past, hl.silent.transfers.trans ha.transfers, hl.made.trans ha.made,
    fun k hk => ha.shortage k (hl.shortage ▸ hk)⟩

theorem Behind.looked (hb : Behind own q t₀ x h t) (hl : Looked t t') : Behind own q t₀ x h t' :=
  ⟨hb.toAfter.looked hl, hl.shortage.trans hb.fine, hb.alike⟩

/-- The transfer itself. -/
theorem Before.transferred {a : Act} {r : a.Resp} (hb : Before own q h t)
    (hx : a.transfer r = some x) (hr : a.renames r = true) (hfine : a.exhausted r = false)
    (ha : Alike q h') : Behind own q t x h' (⟨a, r⟩ :: t) where
  past := List.suffix_cons ..
  transfers := transfers_step hx
  made := by
    cases a with
    | mkdirat d n => cases hx
    | _ => simp only [SteadQ.made, hr, if_true]
  shortage := fun k hk => by
    rw [shortage_fine hfine, hb.shortage] at hk
    cases hk
  fine := (shortage_fine hfine).trans hb.shortage
  alike := ha

/-- Code behind a transfer; its failures satisfy `N`. -/
def Late (E : CallLog → (a : Act) → a.Resp → Prop) (own : Transfer → Bool) (q : Handle)
    (t₀ : CallLog) (x : Transfer) (N : ε → Prop) (m : QueueM ε α) (h : Handle) (t : CallLog)
    (J : α → Handle → CallLog → Prop) : Prop :=
  m.Meets (recorder E) h t fun r h' t' => After own t₀ x t' ∧ Alike q h' ∧
    (∀ a, r = .ok a → SteadQ.shortage own t' = none ∧ J a h' t') ∧ ∀ e, r = .error e → N e

variable {N : ε → Prop} {N' : ε' → Prop} {m : QueueM ε α} {k : α → QueueM ε β}
  {J : α → Handle → CallLog → Prop} {K : β → Handle → CallLog → Prop}

theorem Late.mono {J' : α → Handle → CallLog → Prop} (hm : Late E own q t₀ x N m h t J)
    (hJ : ∀ a h' t', J a h' t' → J' a h' t') : Late E own q t₀ x N m h t J' :=
  Task.Meets.mono hm fun _ _ _ hp =>
    ⟨hp.1, hp.2.1, fun a ha => ⟨(hp.2.2.1 a ha).1, hJ _ _ _ (hp.2.2.1 a ha).2⟩, hp.2.2.2⟩

theorem late_pure {a : α} (hb : Behind own q t₀ x h t) (hJ : J a h t) :
    Late E own q t₀ x N (pure a : QueueM ε α) h t J :=
  ⟨hb.toAfter, hb.alike, by rintro _ ⟨⟩; exact ⟨hb.fine, hJ⟩, nofun⟩

theorem late_throw {e : ε} (hb : Behind own q t₀ x h t) (hN : N e) :
    Late E own q t₀ x N (throw e : QueueM ε α) h t J :=
  ⟨hb.toAfter, hb.alike, nofun, by rintro _ ⟨⟩; exact hN⟩

theorem Late.bind (hm : Late E own q t₀ x N m h t J)
    (hk : ∀ a h' t', Behind own q t₀ x h' t' → J a h' t' → Late E own q t₀ x N (k a) h' t' K) :
    Late E own q t₀ x N (m >>= k) h t K := by
  refine Task.meets_bind.mpr (Task.Meets.mono hm fun r h' t' hp => ?_)
  obtain ⟨ha, hl, hok, herror⟩ := hp
  refine Task.then_intro (fun e he => ⟨ha, hl, nofun, ?_⟩) fun a hr => ?_
  · rintro _ ⟨⟩
    exact herror e he
  · obtain ⟨hfine, hj⟩ := hok a hr
    exact hk a h' t' ⟨ha, hfine, hl⟩ hj

theorem Late.mapErr {m : QueueM ε' α} {f : ε' → ε} (hm : Late E own q t₀ x N' m h t J)
    (hN : ∀ e, N' e → N (f e)) : Late E own q t₀ x N (Task.mapErr f m) h t J := by
  refine Task.meets_mapErr.mpr (Task.Meets.mono hm fun r h' t' hp => ?_)
  obtain ⟨ha, hl, hok, herror⟩ := hp
  refine ⟨ha, hl, fun a hr => hok a (Task.mapError_eq_ok.mp hr), fun e he => ?_⟩
  cases r with
  | ok a => cases he
  | error e' =>
    cases he
    exact hN e' (herror e' rfl)

theorem late_ite {c : Prop} [Decidable c] {m' : QueueM ε α}
    (h₁ : c → Late E own q t₀ x N m h t J) (h₂ : ¬ c → Late E own q t₀ x N m' h t J) :
    Late E own q t₀ x N (if c then m else m') h t J := by
  split
  · exact h₁ ‹_›
  · exact h₂ ‹_›

theorem late_look {m : LookM ε α} (hb : Behind own q t₀ x h t)
    (hN : m.Always h fun r _ => ∀ e, r = .error e → N e) :
    Late E own q t₀ x N (looking m) h t fun _ h' _ => h' = h := by
  refine Task.Meets.mono (looking_looked hN) ?_
  rintro r h' t' ⟨rfl, hl, hN⟩
  have hb' := hb.looked hl
  exact ⟨hb'.toAfter, hb'.alike, fun a _ => ⟨hb'.fine, rfl⟩, hN⟩

theorem late_lookAny {m : LookM ε α} (hb : Behind own q t₀ x h t) :
    Late E own q t₀ x (fun _ => True) (looking m) h t fun _ h' _ => h' = h :=
  late_look hb (Task.always_of_forall fun _ _ _ => trivial)

/-- A barrier. -/
theorem late_fsyncDir (hb : Behind own q t₀ x h t) (d : Dir) :
    Late E own q t₀ x (fun _ => True) (fsyncDirFd d) h t fun _ h' _ => h' = h := by
  refine ⟨trivial, fun r _ => ⟨⟨hb.past.trans (List.suffix_cons ..), ?_, hb.made, fun k hk => ?_⟩,
    hb.alike, fun a hr => ⟨?_, rfl⟩, fun _ _ => trivial⟩⟩
  · exact (transfers_quiet rfl).trans hb.transfers
  · cases hx : (Act.fsyncDir d).exhausted r with
    | false => exact hb.shortage k (shortage_fine hx ▸ hk)
    | true =>
      have := (shortage_hit hb.fine hx).symm.trans hk
      rw [standing_barrier hb.made] at this
      exact (Option.some.inj this).symm
  · cases r with
    | error e => cases hr
    | ok _ => exact (shortage_fine rfl).trans hb.fine

theorem late_forget {f : Handle → Handle} (hb : Behind own q t₀ x h t) (hf : Alike h (f h)) :
    Late E own q t₀ x N (Task.remember f : QueueM ε Unit) h t fun _ _ _ => True :=
  ⟨hb.toAfter, hb.alike.trans hf, fun _ _ => ⟨hb.fine, trivial⟩, nofun⟩

theorem late_recordDirty (hb : Behind own q t₀ x h t) (dir : Dir) :
    Late E own q t₀ x (fun _ => True) (recordDirty dir) h t fun _ _ _ => True := by
  refine .bind (m := Task.memory) (J := fun _ h' t' => h' = h ∧ t' = t) ?_ ?_
  · exact ⟨hb.toAfter, hb.alike, fun _ _ => ⟨hb.fine, rfl, rfl⟩, nofun⟩
  · rintro _ _ _ - ⟨rfl, rfl⟩
    refine .bind (late_lookAny hb) ?_
    rintro _ _ t' hb' rfl
    exact late_forget hb' ⟨rfl, rfl, rfl, rfl⟩

/-- Both ends of a move in a batch. -/
theorem late_recordBoth (hb : Behind own q t₀ x h t) (src dst : Dir) :
    Late E own q t₀ x (fun _ => True) (do recordDirty src; recordDirty dst) h t fun _ _ _ => True :=
  .bind (late_recordDirty hb src) fun _ _ _ hb' _ => late_recordDirty hb' dst

end Late

end SteadQ
