/-
  File:      SteadQ/Runs.lean
  Subject:   RUNS OF MANY HANDLES, from a queue that was just initialized.

  Every handle keeps the law and, in a recovery pass, the sight (`watch`); so whatever the calls
  keep holds in every scene of every run (`throughout`). Here are the facts all later invariants
  start from.
-/
import SteadQ.Fresh
import SteadQ.Fs.Files
import SteadQ.Law.Recovery
import SteadQ.Law.Sight
import SteadQ.Lib.Census

namespace SteadQ

open Octet Interact

/-! ## 1. The rule -/

/-- What is watched of a call. -/
abbrev Watched := Ghost × Option Sight

def watch (f : FormatRecord) : Discipline Act.Resp Watched := (law f).both sight

def Watched.enter (op : Op) (h : Handle) : Watched := (Ghost.enter op h, Sight.enter op h)

abbrev QueueScene := Scene Act.Resp World Op OpResult Handle Watched

def sceneOf (f : FormatRecord) (c : QueueConfig) : QueueScene := c.scene (watch f) Watched.enter

variable {codec : CursorCodec} {f : FormatRecord} {c₀ c : QueueConfig} {K J : QueueScene → Prop}

/-- The answers of the file system are honest. -/
theorem World.step_honest {w w' : World} {t : HandleId} {a : Act} {ch : Choice} {r : a.Resp}
    (h : w.step t a ch = some (r, w')) : honest a r := by
  cases a with
  | look l =>
    cases l with
    | fstat i =>
      cases r with
      | error e => trivial
      | ok stat => exact World.fstat_ok h
    | _ => trivial
  | _ => trivial

theorem step_expected {t : Tid} {w w' : World} {a : Act} {ch : Choice} {r : a.Resp} (g : Watched)
    (h : (queueSystem codec).effect t w a ch = some (r, w')) : (watch f).expect g a r :=
  ⟨World.step_honest h, World.step_honest h⟩

theorem Opened.sound {h : Handle} (hh : Opened f h) : h.Sound f := ⟨hh.format⟩

/-- What an operation leaves behind. -/
def Closes (f : FormatRecord) (_ : Op) (x : OpResult × Handle) (g : Watched) : Prop :=
  Concludes f x g.1

/-- **Every handle keeps the law and the sight in every run.** -/
theorem Fresh.obeys (h₀ : Fresh f c₀) (hc : (queueSystem codec).Reachable c₀ c) :
    Obeys (watch f) Watched.enter (Handle.Sound f) (Closes f) c := by
  refine hc.obeys (Obeys.init (fun t => ?_) h₀.past) (fun op h hh => ?_)
    (fun _ _ _ hx => hx.1.sound) fun t w a ch r w' g => step_expected g
  · obtain ⟨h, hidle, hh⟩ := h₀.threads t
    exact ⟨h, hidle, hh.sound⟩
  · have hboth := (Op.follows_law codec op hh).both (Op.follows_sight codec op h)
    exact hboth.mono fun _ _ hx => hx.1

/-- What every event keeps, where `K` is known. -/
abbrev Kept (codec : CursorCodec) (f : FormatRecord) (K J : QueueScene → Prop) : Prop :=
  Census (queueSystem codec) (watch f) Watched.enter (Handle.Sound f) (Closes f) K J

/-- What holds all along every run from a fresh queue. -/
def Throughout (codec : CursorCodec) (f : FormatRecord) (J : QueueScene → Prop) : Prop :=
  ∀ c₀ c, Fresh f c₀ → (queueSystem codec).Reachable c₀ c → J (sceneOf f c)

theorem throughout (hK : Throughout codec f K) (hJ : Kept codec f K J)
    (h₀ : ∀ c, Fresh f c → J (sceneOf f c)) : Throughout codec f J :=
  fun c₀ _ hfresh hc => hc.census hJ (fun _ => hfresh.obeys)
    (fun _ _ _ _ _ _ g => step_expected g) (fun c => hK c₀ c hfresh) (h₀ c₀ hfresh)

/-- At the start no handle is at work. -/
theorem Fresh.ghost (h₀ : Fresh f c) (t : Tid) : (sceneOf f c).ghost t = none := by
  unfold sceneOf Config.scene
  rw [h₀.past]
  rfl

/-! ## 2. The tree -/

/-- The tree is one, and numbers are given once. -/
structure Grown (s : QueueScene) : Prop where
  tree : s.world.Tree
  apart : s.world.Apart

theorem World.Tree.release {w : World} (h : w.Tree) (t : HandleId) : (w.release t).Tree :=
  ⟨h.root, h.nested, h.files, h.inodes, h.ids, h.distinct⟩

/-- The files of a fresh queue. -/
theorem entry_fresh {record : WatermarkRecord} {p : Path} {n : Name} {i : Ino}
    (h : (freshWorld f record).entry p n = some (.file i)) :
    (p = [] ∧ n = formatName ∧ i = freshFormatIno) ∨
      (p = controlPath ∧ n = watermarkName ∧ i = freshWatermarkIno) ∨
      (p = controlPath ∧ n = recoveryLockName ∧ i = freshLockIno) := by
  obtain _ | ⟨s, _ | ⟨m, _ | ⟨l, p⟩⟩⟩ := p
  · rw [entry_root] at h
    split at h
    · rename_i hn
      cases h
      exact .inl ⟨rfl, hn, rfl⟩
    · obtain ⟨x, -, hx⟩ := Option.map_eq_some_iff.mp h
      cases hx
  · rw [entry_state, lookup_freshEntries] at h
    split_ifs at h with _ _ hs hwm hlock
    · obtain ⟨x, -, hx⟩ := Option.map_eq_some_iff.mp h
      cases hx
    · cases h
      exact .inr (.inl ⟨hs, hwm, rfl⟩)
    · cases h
      exact .inr (.inr ⟨hs, hlock, rfl⟩)
  · rw [entry_shard] at h
    cases h
  · rw [World.entry, dirs_deep] at h
    cases h

theorem apart_freshWorld (f : FormatRecord) (record : WatermarkRecord) :
    (freshWorld f record).Apart := by
  intro p n id h
  have hid := ((tree_freshWorld f record).nested p n id).mp h
  obtain ⟨k, rfl, hk⟩ := idAt_fresh f record hid
  have hne : k ≠ freshFormatIno ∧ k ≠ freshWatermarkIno ∧ k ≠ freshLockIno := by
    show k ≠ 10 ∧ k ≠ 11 ∧ k ≠ 12
    rcases hk with ⟨-, rfl⟩ | ⟨s, i, -, -, hi, rfl⟩ | ⟨n, i, -, -, hi, rfl⟩ <;> omega
  show (freshFile f record k).map _ = none
  rw [freshFile, if_neg hne.1, if_neg hne.2.1, if_neg hne.2.2]
  rfl

theorem grown : Throughout codec f Grown := by
  refine throughout (K := fun _ => True) (fun _ _ _ _ => trivial) ⟨?_, ?_, ?_, ?_⟩ fun c hc => ?_
  · exact fun _ h _ _ _ => ⟨h.tree, h.apart⟩
  · exact fun _ h _ _ _ hw => ⟨h.tree.step hw, h.apart.step h.tree hw⟩
  · exact fun _ h _ _ => ⟨h.tree, h.apart⟩
  · exact fun _ h => ⟨h.tree.release _, h.apart⟩
  · obtain ⟨record, hw⟩ := hc.world
    refine ⟨?_, ?_⟩
    · show c.world.Tree
      rw [hw]
      exact tree_freshWorld f record
    · show c.world.Apart
      rw [hw]
      exact apart_freshWorld f record

/-! ## 3. What a call does to its ghost state -/

section Next

variable (g : Ghost)

theorem useJobId_drawn (p : Path) (n : Name) : (g.useJobId p n).drawn.Sublist g.drawn := by
  unfold Ghost.useJobId
  split
  · exact List.filter_sublist
  · exact .refl _

theorem useJobId_op (p : Path) (n : Name) : (g.useJobId p n).op = g.op := by
  unfold Ghost.useJobId
  split <;> rfl

theorem useJobId_claims (p : Path) (n : Name) : (g.useJobId p n).claims = g.claims := by
  unfold Ghost.useJobId
  split <;> rfl

theorem useJobId_own (p : Path) (n : Name) : (g.useJobId p n).own = g.own := by
  unfold Ghost.useJobId
  split <;> rfl

/-- The operation stays. -/
theorem next_op (a : Act) (r : a.Resp) : (g.next a r).op = g.op := by
  cases a with
  | look l => rfl
  | tryLock k => rfl
  | unlock k => rfl
  | mark m => rfl
  | linkat form i d n =>
    cases r with
    | error e => rfl
    | ok u => exact useJobId_op _ _ _
  | renameNoreplace s sn d dn =>
    cases r with
    | error e => rfl
    | ok u =>
      dsimp only [Ghost.next]
      split
      · exact useJobId_op _ _ _
      · rfl
  | _ => cases r <;> rfl

/-- A claim is recorded, and nothing else. -/
theorem next_claims (a : Act) (r : a.Resp) : (g.next a r).claims =
    (match (⟨a, r⟩ : Sigma Act.Resp) with
      | ⟨.renameNoreplace s sn d dn, .ok _⟩ => claimOf s.path sn d.path dn
      | _ => none).toList ++ g.claims := by
  cases a with
  | look l => rfl
  | tryLock k => rfl
  | unlock k => rfl
  | mark m => rfl
  | linkat form i d n =>
    cases r with
    | error e => rfl
    | ok u => exact useJobId_claims _ _ _
  | renameNoreplace s sn d dn =>
    cases r with
    | error e => rfl
    | ok u =>
      dsimp only [Ghost.next]
      split
      · exact useJobId_claims _ _ _
      · rfl
  | _ => cases r <;> rfl

/-- Values that were drawn are used up, unless the call draws another. -/
theorem next_drawn (a : Act) (r : a.Resp) (ha : a ≠ .random128) :
    (g.next a r).drawn.Sublist g.drawn := by
  cases a with
  | random128 => exact absurd rfl ha
  | look l => exact .refl _
  | tryLock k => exact .refl _
  | unlock k => exact .refl _
  | mark m => exact .refl _
  | createExclusive d n =>
    cases r with
    | error e => exact .refl _
    | ok i =>
      show (if _ then _ else _ : List (Octets 16)).Sublist _
      split
      · exact .refl _
      · exact List.tail_sublist _
  | linkat form i d n =>
    cases r with
    | error e => exact .refl _
    | ok u => exact useJobId_drawn _ _ _
  | renameNoreplace s sn d dn =>
    cases r with
    | error e => exact .refl _
    | ok u =>
      dsimp only [Ghost.next]
      split
      · exact useJobId_drawn _ _ _
      · exact .refl _
  | renameat s sn d dn =>
    cases r with
    | error e => exact .refl _
    | ok u => exact .refl _
  | _ => cases r <;> exact .refl _

/-- Own files are where they were; a new one is where it was created. -/
theorem next_place (a : Act) (r : a.Resp) {o : OwnFile} {x : Path × Name}
    (ho : o ∈ (g.next a r).own) (hx : o.place = some x) :
    (∃ o' ∈ g.own, o'.place = some x) ∨
      ∃ d n, a = .createExclusive d n ∧ x = (d.path, n) := by
  have same : ∀ {l : List OwnFile}, o ∈ l → l ⊆ g.own → (∃ o' ∈ g.own, o'.place = some x) ∨
      ∃ d n, a = .createExclusive d n ∧ x = (d.path, n) :=
    fun ho hl => .inl ⟨o, hl ho, hx⟩
  cases a with
  | random128 => cases r <;> exact same ho (List.Subset.refl _)
  | openTmpfile d =>
    cases r with
    | error e => exact same ho (List.Subset.refl _)
    | ok i =>
      rcases List.mem_cons.mp ho with rfl | ho
      · cases hx
      · exact same ho (List.Subset.refl _)
  | createExclusive d n =>
    cases r with
    | error e => exact same ho (List.Subset.refl _)
    | ok i =>
      rcases List.mem_cons.mp ho with rfl | ho
      · cases hx
        exact .inr ⟨d, n, rfl, rfl⟩
      · exact same ho (List.Subset.refl _)
  | linkat form i d n =>
    cases r with
    | error e => exact same ho (List.Subset.refl _)
    | ok u =>
      rw [show (g.next (.linkat form i d n) (.ok u)).own = _ from useJobId_own _ _ _] at ho
      exact same ho (List.filter_subset_self _)
  | renameNoreplace s sn d dn =>
    cases r with
    | error e => exact same ho (List.Subset.refl _)
    | ok u =>
      dsimp only [Ghost.next] at ho
      split at ho
      · rw [useJobId_own] at ho
        exact same ho (List.filter_subset_self _)
      · exact same ho (List.Subset.refl _)
  | renameat s sn d dn =>
    cases r with
    | error e => exact same ho (List.Subset.refl _)
    | ok u => exact same ho (List.filter_subset_self _)
  | _ => exact same ho (List.Subset.refl _)

end Next

/-! ## 4. Calls in a history -/

/-- The operation that is watched is the one that runs. -/
theorem running_op (h₀ : Fresh f c₀) (hc : (queueSystem codec).Reachable c₀ c) {t : Tid} {op : Op}
    {p : Prog Act.Resp (OpResult × Handle)} {g : Watched} (ht : c.threads t = .running op p)
    (hg : (sceneOf f c).ghost t = some g) : g.1.op = op := by
  have hkey : ∀ (g : Watched) (a : Act) (r : a.Resp), ((watch f).next g a r).1.op = g.1.op :=
    fun g a r => next_op g.1 a r
  refine hc.key (fun g => g.1.op) (fun u o q hu => ?_) (fun _ _ => rfl) hkey ht hg
  obtain ⟨h, hidle, -⟩ := h₀.threads u
  cases hidle.symm.trans hu

/-- A call in the history of a run: where it was made, and that it was admitted. -/
structure CallAt (codec : CursorCodec) (f : FormatRecord) (c₀ : QueueConfig) (t : Tid) (a : Act)
    (r : a.Resp) (w : World) (c₁ : QueueConfig) (g : Watched) : Prop where
  reachable : (queueSystem codec).Reachable c₀ c₁
  running : ∃ k, c₁.threads t = .running g.1.op (.act a k)
  answered : ∃ ch, c₁.world.step t a ch = some (r, w)
  ghost : (sceneOf f c₁).ghost t = some g
  allowed : (watch f).allow g a

theorem Fresh.callAt (h₀ : Fresh f c₀) (hc : (queueSystem codec).Reachable c₀ c) {t : Tid}
    {a : Act} {r : a.Resp} {w : World} {newer older : List QueueMoment}
    (hpast : c.past = newer ++ ⟨.acted t a r, w⟩ :: older) :
    ∃ c₁ g, CallAt codec f c₀ t a r w c₁ g ∧ c₁.past = older ∧
      ∃ c₂, c₂.past = ⟨.acted t a r, w⟩ :: older ∧ c₂.world = w ∧
        (queueSystem codec).Reachable c₀ c₂ ∧ (queueSystem codec).Reachable c₂ c := by
  obtain ⟨c₁, c₂, h₁, hp₁, hs, hp₂, h₂⟩ := hc.split h₀.past hpast
  obtain ⟨op, k, ch, hrun, hw, hworld⟩ := hs.acted (hp₁.symm ▸ hp₂)
  obtain ⟨g, hg, hallow, -⟩ := (h₀.obeys h₁).act hrun
  have hop := running_op h₀ h₁ hrun hg
  exact ⟨c₁, g, ⟨h₁, ⟨k, hop ▸ hrun⟩, ⟨ch, hw⟩, hg, hallow⟩, hp₁, c₂, hp₂, hworld, h₁.step hs, h₂⟩

/-! ## 5. Random values -/

def drawnIn : Option Watched → List (Octets 16)
  | some g => g.1.drawn
  | none => []

/-- The values every handle has drawn and not used. -/
def dealt (s : QueueScene) (t : Tid) : List (Octets 16) := drawnIn (s.ghost t)

theorem dealt_update {s s' : QueueScene} {t : Tid} {x : Option Watched}
    (h : s'.ghost = Function.update s.ghost t x) :
    dealt s' = Function.update (dealt s) t (drawnIn x) := by
  funext u
  rw [dealt, h, Function.update_apply, Function.update_apply, apply_ite drawnIn]
  rfl

/-- What calls do to the random values. -/
abbrev Deals (s s' : QueueScene) : Prop :=
  Dealing (dealt s) s.world.drawn (dealt s') s'.world.drawn

theorem deals_drop {s s' : QueueScene} (t : Tid) (h : s'.ghost = Function.update s.ghost t none)
    (hw : s'.world.drawn = s.world.drawn) : Deals s s' := by
  unfold Deals
  rw [dealt_update h, hw]
  exact .drop t (List.nil_sublist _)

theorem start_deals (s : QueueScene) (t : Tid) (op : Op) (h : Handle) :
    Deals s (s.start t Watched.enter op h) := by
  have hd := dealt_update (s := s) (x := some (Watched.enter op h)) (t := t)
    (show (s.start t Watched.enter op h).ghost = _ from rfl)
  unfold Deals
  rw [hd]
  exact .drop t (List.nil_sublist _)

theorem act_deals {s : QueueScene} {t : Tid} {g : Watched} {a : Act} {ch : Choice} {r : a.Resp}
    {w : World} (hg : s.ghost t = some g) (hw : s.world.step t a ch = some (r, w)) :
    Deals s (s.act t (watch f) g a r w) := by
  have hdealt : dealt s t = g.1.drawn := by
    rw [dealt, hg]
    rfl
  have hd := dealt_update (s := s) (x := some ((watch f).next g a r)) (t := t)
    (show (s.act t (watch f) g a r w).ghost = _ from rfl)
  unfold Deals
  rw [hd]
  show Dealing _ _ (Function.update (dealt s) t (g.1.next a r).drawn) w.drawn
  by_cases ha : a = .random128
  · subst ha
    rcases World.step_random hw with ⟨e, rfl, rfl⟩ | ⟨x, rfl, hx, hdrawn⟩
    · exact .drop t (hdealt ▸ .refl _)
    · rw [hdrawn]
      rw [show (g.1.next .random128 (.ok x)).drawn = x :: g.1.drawn from rfl, ← hdealt]
      exact .draw t hx
  · rw [World.step_drawn hw ha]
    exact .drop t (hdealt ▸ next_drawn g.1 a r ha)

/-- **Nobody shares a random value.** -/
theorem draws : Throughout codec f fun s => Dealt (dealt s) s.world.drawn := by
  refine throughout (K := fun _ => True) (fun _ _ _ _ => trivial) ⟨?_, ?_, ?_, ?_⟩ fun c hc => ?_
  · exact fun _ h _ _ _ => h.dealing (start_deals _ _ _ _)
  · exact fun _ h hg _ _ hw => h.dealing (act_deals hg hw)
  · exact fun _ h _ _ => h.dealing (deals_drop _ rfl rfl)
  · exact fun _ h => h.dealing (deals_drop _ rfl rfl)
  · have hnone : dealt (sceneOf f c) = fun _ => [] := by
      funext t
      rw [dealt, hc.ghost t]
      rfl
    obtain ⟨record, hw⟩ := hc.world
    rw [hnone]
    show Dealt _ c.world.drawn
    rw [hw]
    exact dealt_none

/-! ## 6. Own files -/

theorem jobName_outside {path : Path} {root : Name} (name : Name) (h : path.head? = some root)
    (hroot : root ∉ [State.ready.dirName, State.leased.dirName, State.delayed.dirName,
      State.dead.dirName, State.receipt.dirName]) : jobName path name = none := by
  simp only [List.mem_cons, List.not_mem_nil, or_false, not_or] at hroot
  obtain ⟨h₁, h₂, h₃, h₄, h₅⟩ := hroot
  simp only [jobName, h, if_neg h₁, if_neg h₂, if_neg h₃, if_neg h₄, if_neg h₅]

theorem jobName_tmp {path : Path} (name : Name) (h : path.head? = some tmpRoot) :
    jobName path name = none := jobName_outside name h (by decide)

theorem jobName_control (name : Name) : jobName controlPath name = none :=
  jobName_outside name rfl (by decide)

theorem jobName_quarantine (name : Name) : jobName quarantinePath name = none :=
  jobName_outside name rfl (by decide)

/-- The temporary name of a compaction is no receipt name. -/
theorem parseReceipt_compactionTempName (x : Octets 16) (p : ReceiptName) :
    parseReceipt (compactionTempName x) ≠ .ok p := by
  intro h
  obtain ⟨parts, hparts, -⟩ := except_bind_eq_ok h
  have hname := splitParts_ok hparts
  have hlast := congrArg List.getLast? hname
  rw [compactionTempName, List.getLast?_append, List.getLast?_append,
    List.getLast?_append, show extTmp.getLast? = some 112 from rfl, show extRct.getLast? = some 116 from rfl] at hlast
  cases hlast

theorem jobName_receipt_eq {path : Path} {name : Name}
    (h : path.head? = some State.receipt.dirName) :
    jobName path name = (parseReceipt name).toOption.map fun p => (.receipt, p.common) := by
  have h₁ : State.receipt.dirName ≠ State.ready.dirName := by decide
  have h₂ : State.receipt.dirName ≠ State.leased.dirName := by decide
  have h₃ : State.receipt.dirName ≠ State.delayed.dirName := by decide
  have h₄ : State.receipt.dirName ≠ State.dead.dirName := by decide
  simp only [jobName, h, if_neg h₁, if_neg h₂, if_neg h₃, if_neg h₄, if_true]

theorem jobName_compaction {path : Path} (x : Octets 16)
    (h : path.head? = some State.receipt.dirName) : jobName path (compactionTempName x) = none := by
  rw [jobName_receipt_eq h]
  cases hp : parseReceipt (compactionTempName x) with
  | error e => rfl
  | ok p => exact absurd hp (parseReceipt_compactionTempName x p)

/-- Where the files of a call are: under no name of a job; next to receipts only in a recovery
    pass, and what a pass sees is watched. -/
structure Places (g : Watched) : Prop where
  unnamed : ∀ o ∈ g.1.own, ∀ p n, o.place = some (p, n) → jobName p n = none
  receipts : ∀ o ∈ g.1.own, ∀ p n, o.place = some (p, n) →
    p.head? = some State.receipt.dirName → g.1.op.recovers = true
  watched : g.1.op.recovers = true → g.2.isSome

theorem places : Throughout codec f fun s => ∀ t g, s.ghost t = some g → Places g := by
  refine throughout (K := fun _ => True) (fun _ _ _ _ => trivial) (census_each ?_ ?_) ?_
  · intro op h _
    refine ⟨nofun, nofun, fun hop => ?_⟩
    have hop' : op.recovers = true := hop
    simp only [Watched.enter, Sight.enter, if_pos hop']
    rfl
  · intro g a r hallow _ hg
    have hplace : ∀ o ∈ (g.1.next a r).own, ∀ p n, o.place = some (p, n) → jobName p n = none ∧
        (p.head? = some State.receipt.dirName → g.1.op.recovers = true) := by
      intro o ho p n hx
      rcases next_place g.1 a r ho hx with ⟨o', ho', hx'⟩ | ⟨d, m, rfl, hx'⟩
      · exact ⟨hg.unnamed o' ho' p n hx', hg.receipts o' ho' p n hx'⟩
      · cases hx'
        have hcreates : g.1.Creates d.path n := hallow.1
        rcases hcreates with ⟨hd, -⟩ | ⟨x, rest, -, ⟨hd, -⟩ | ⟨hd, -⟩ | ⟨hop, hd, hm⟩⟩
        · rw [hd]
          exact ⟨jobName_control n, fun h => absurd h (by decide)⟩
        · exact ⟨jobName_tmp n hd, fun h => absurd (hd.symm.trans h) (by decide)⟩
        · rw [hd]
          exact ⟨jobName_control n, fun h => absurd h (by decide)⟩
        · rw [hm]
          exact ⟨jobName_compaction x hd, fun _ => hop⟩
    have hop : (g.1.next a r).op = g.1.op := next_op g.1 a r
    refine ⟨fun o ho p n hx => (hplace o ho p n hx).1, fun o ho p n hx hp => ?_, fun hr => ?_⟩
    · show (g.1.next a r).op.recovers = true
      rw [hop]
      exact (hplace o ho p n hx).2 hp
    · have hsome := hg.watched (by rw [← hop]; exact hr)
      obtain ⟨sight', hsight⟩ := Option.isSome_iff_exists.mp hsome
      show (g.2.map _).isSome
      rw [hsight]
      rfl
  · intro c hc t g hg
    rw [hc.ghost t] at hg
    cases hg

end SteadQ
