/-
  File:      SteadQ/Law/Publish.lean
  Subject:   THE LAW OF ENQUEUE: directories on demand and the publication of a new job.
-/
import SteadQ.Law.Watermark

namespace SteadQ

open Octet Interact
open Interact.Task (keeps_call keeps_ite keeps_memory keeps_ofExcept keeps_pure keeps_remember
  keeps_throw)

variable {f : FormatRecord} {g g₀ g' : Ghost} {h h' : Handle} {deferred : Bool}

/-! ## 1. Directories on demand -/

theorem recordDirty_keeps {I : Handle → Ghost → Prop}
    (hI : ∀ dirty, I { h with dirty := dirty } g) (d : Dir) :
    (recordDirty d).Keeps (law f) h g I
      fun _ h' g' => ∃ dirty, h' = { h with dirty := dirty } ∧ g' = g := by
  refine keeps_memory (.bind (quiet_any (hI h.dirty)) ?_)
  rintro dirty _ _ - ⟨rfl, rfl⟩
  exact ⟨hI dirty, fun _ _ => ⟨dirty, rfl, rfl⟩⟩

theorem Stays.recordDirty (hs : Stays f g₀ h g) (d : Dir) :
    (recordDirty d).Keeps (law f) h g (Stays f g₀) fun _ _ _ => True :=
  (recordDirty_keeps (fun _ => hs.memory rfl) d).mono (fun _ _ h => h)
    fun _ _ _ _ _ => trivial

theorem syncParentOf_keeps (hs : Steady f g₀ h g) (parent : Dir) (children : List Path) :
    (syncParentOf deferred parent children).Keeps (law f) h g (Steady f g₀)
      fun _ _ g' => g' = g := by
  refine keeps_ite (fun _ => ?_) fun _ => ?_
  · refine .bind (recordDirty_keeps (fun _ => hs.memory rfl) parent) ?_
    rintro _ _ _ hs₁ ⟨dirty, rfl, rfl⟩
    exact ⟨hs₁.memory rfl, fun _ _ => rfl⟩
  · refine .bind (fsyncDirFd_keeps hs parent) ?_
    rintro _ h₁ _ hs₁ ⟨rfl, rfl⟩
    exact ⟨hs₁.memory rfl, fun _ _ => rfl⟩

theorem mkdiratEexistOk_keeps (hs : Steady f g₀ h g) (d : Dir) (n : Name) :
    (mkdiratEexistOk d n).Keeps (law f) h g (Steady f g₀) fun _ h' g' => h' = h ∧ g' = g :=
  quiet_call trivial (fun r => next_mkdirat d n r) hs

theorem ensureComponents_keeps {parent : Dir} {comps : List Name} (hs : Steady f g₀ h g) :
    (ensureComponents deferred parent comps).Keeps (law f) h g (Steady f g₀)
      fun _ _ g' => g' = g := by
  induction comps generalizing parent h with
  | nil => exact keeps_pure hs rfl
  | cons comp rest ih =>
    refine .bind (quiet_any hs) ?_
    rintro known _ _ hs ⟨rfl, rfl⟩
    refine keeps_ite (fun _ => ?_) fun _ => ?_
    · refine .bind (openBelow_keeps hs parent [comp]) ?_
      rintro child _ _ hs ⟨rfl, rfl, -⟩
      exact ih hs
    · refine .bind (mkdiratEexistOk_keeps hs parent comp) ?_
      rintro _ _ _ hs ⟨rfl, rfl⟩
      refine .bind (openBelow_keeps hs parent [comp]) ?_
      rintro child _ _ hs ⟨rfl, rfl, -⟩
      refine .bind (syncParentOf_keeps hs parent _) ?_
      rintro _ h₁ _ hs₁ rfl
      exact ih hs₁

theorem mkdirAll_keeps {dir : Dir} {names : List Name} (hs : Steady f g₀ h g) :
    (mkdirAll dir names).Keeps (law f) h g (Steady f g₀) fun _ h' g' => h' = h ∧ g' = g := by
  induction names with
  | nil => exact keeps_pure hs ⟨rfl, rfl⟩
  | cons name rest ih =>
    refine .bind (mkdiratEexistOk_keeps hs dir name) ?_
    rintro _ _ _ hs ⟨rfl, rfl⟩
    exact ih

theorem ensureDirUpTo_keeps (depth : Nat) {p : Path} (hs : Steady f g₀ h g) :
    (ensureDirUpTo deferred depth p).Keeps (law f) h g (Steady f g₀) fun _ _ g' => g' = g := by
  induction depth generalizing p h with
  | zero => exact keeps_pure hs rfl
  | succ depth ih =>
    refine .bind (quiet_any hs) ?_
    rintro known h _ hs ⟨rfl, rfl⟩
    refine keeps_ite (fun _ => keeps_pure hs rfl) fun _ => keeps_memory ?_
    dsimp only
    cases shardedBucketParent p h.format.shardCount with
    | none => exact ensureComponents_keeps hs
    | some bucket =>
      refine .bind (ih hs) ?_
      rintro _ h₁ _ hs₁ rfl
      refine .bind (openRelative_keeps hs₁ bucket) ?_
      rintro dir _ _ hs₁ ⟨rfl, rfl, -⟩
      refine .bind (mkdirAll_keeps hs₁) ?_
      rintro _ _ _ hs₁ ⟨rfl, rfl⟩
      exact syncParentOf_keeps hs₁ _ _

theorem ensureDirWithDirty_keeps (hs : Steady f g₀ h g) (p : Path) :
    (ensureDirWithDirty deferred p).Keeps (law f) h g (Steady f g₀) fun _ _ g' => g' = g :=
  ensureDirUpTo_keeps _ hs

theorem openOrCacheDir_keeps (hs : Steady f g₀ h g) (p : Path) :
    (openOrCacheDir p).Keeps (law f) h g (Steady f g₀) fun d _ g' => g' = g ∧ d.path = p := by
  have hopen : (openOrCacheDir.openAndCache p).Keeps (law f) h g (Steady f g₀)
      fun d _ g' => g' = g ∧ d.path = p := by
    refine .bind (openRelative_keeps hs p) ?_
    rintro d _ _ hs ⟨rfl, rfl, hd⟩
    exact keeps_remember (keeps_pure (hs.memory rfl) ⟨rfl, hd⟩)
  refine keeps_memory ?_
  split
  · exact keeps_ite (fun hd => keeps_pure hs ⟨rfl, hd⟩) fun _ => hopen
  · exact hopen

/-! ## 2. Own files -/

/-- A file of the call, by its inode and its temporary name. -/
def Owns (g : Ghost) (i : Ino) (place : Option (Path × Name)) : Prop :=
  ∃ o ∈ g.own, o.ino = i ∧ o.place = place

theorem Steady.owns {i : Ino} {place : Option (Path × Name)} (hs : Steady f g₀ h g)
    (ho : Owns g₀ i place) : Owns g i place := by
  obtain ⟨o, ho, hino, hplace⟩ := ho
  obtain ⟨o', ho', hino', hplace'⟩ := hs.own o ho
  exact ⟨o', ho', hino'.trans hino, hplace'.trans hplace⟩

theorem Owns.file {i : Ino} {place : Option (Path × Name)} (ho : Owns g i place) :
    ∃ o ∈ g.own, o.ino = i := by
  obtain ⟨o, ho, hino, -⟩ := ho
  exact ⟨o, ho, hino⟩

theorem Owns.ownAt {i : Ino} {p : Path} {n : Name} (ho : Owns g i (some (p, n))) :
    ∃ o, g.ownAt p n = some o := by
  obtain ⟨o, ho, -, hplace⟩ := ho
  exact Option.isSome_iff_exists.mp (List.find?_isSome.mpr ⟨o, ho, by simp [hplace]⟩)

theorem Steady.trans (hs : Steady f g₀ h g) (hs' : Steady f g h' g') : Steady f g₀ h' g' := by
  refine ⟨hs.toStays.trans hs'.toStays, hs.grows.trans hs'.grows, fun o ho => ?_⟩
  exact hs'.owns (hs.owns ⟨o, ho, rfl, rfl⟩)

theorem Steady.random (hs : Steady f g₀ h g) (x : Octets 16) :
    Steady f g₀ h { g with drawn := x :: g.drawn } :=
  hs.trans ⟨⟨⟨hs.format⟩, rfl⟩, .random x,
    fun o ho => ⟨o, ho, rfl, rfl⟩⟩

theorem Steady.create (hs : Steady f g₀ h g) (x : Octets 16) (d : Dir) (n : Name) (i : Ino) :
    Steady f g₀ h
      ((law f).next { g with drawn := x :: g.drawn } (.createExclusive d n) (.ok i)) :=
  hs.trans ⟨⟨⟨hs.format⟩, rfl⟩, .create x d n i,
    fun o ho => ⟨o, List.mem_cons_of_mem _ ho, rfl, rfl⟩⟩

theorem writeAll_keeps {i : Ino} (hq : Quiet f h g) (ho : ∃ o ∈ g.own, o.ino = i) (data : Bytes) :
    (writeAll i data).Keeps (law f) h g (Steady f g) fun _ h' _ => h' = h := by
  exact (keeps_call ho fun _ _ => hq.steady).mono (fun _ _ hs => hs) fun _ _ _ _ hJ => hJ.1

theorem pwriteAll_keeps {i : Ino} (hq : Quiet f h g) (ho : ∃ o ∈ g.own, o.ino = i)
    (data : Bytes) (offset : Nat) :
    (pwriteAll i data offset).Keeps (law f) h g (Steady f g) fun _ h' _ => h' = h := by
  exact (keeps_call ho fun _ _ => hq.steady).mono (fun _ _ hs => hs) fun _ _ _ _ hJ => hJ.1

theorem fsync_keeps (hq : Quiet f h g) (i : Ino) :
    (fsync i).Keeps (law f) h g (Steady f g) fun _ h' _ => h' = h := by
  exact (keeps_call trivial fun _ _ => hq.steady).mono (fun _ _ hs => hs)
    fun _ _ _ _ hJ => hJ.1

theorem random128bit_keeps (hs : Steady f g₀ h g) :
    random128bit.Keeps (law f) h g (Steady f g₀)
      fun x h' g' => h' = h ∧ g' = { g with drawn := x :: g.drawn } := by
  refine ⟨trivial, fun r _ => ?_⟩
  rcases r with e | x
  · exact ⟨hs, nofun⟩
  · refine ⟨hs.random x, ?_⟩
    rintro _ ⟨⟩
    exact ⟨rfl, rfl⟩

/-- A file created under a name made from the value drawn for it. -/
theorem createExclusive_keeps {x : Octets 16} {d : Dir} {n : Name} (hs : Steady f g₀ h g)
    (hc : Ghost.Creates { g with drawn := x :: g.drawn } d.path n) :
    (createExclusive d n).Keeps (law f) h { g with drawn := x :: g.drawn } (Steady f g₀)
      fun i h' g' => h' = h ∧ Owns g' i (some (d.path, n)) := by
  refine ⟨hc, fun r _ => ?_⟩
  rcases r with e | i
  · exact ⟨hs.random x, nofun⟩
  · refine ⟨hs.create x d n i, ?_⟩
    rintro _ ⟨⟩
    exact ⟨rfl, _, List.mem_cons_self .., rfl, rfl⟩

theorem createNamedTemp_keeps (hq : Quiet f h g) (destDir : Path) :
    (createNamedTemp deferred destDir).Keeps (law f) h g (Steady f g) fun x _ g' =>
      x.1.path.head? = some tmpRoot ∧ Owns g' x.2.2 (some (x.1.path, x.2.1)) := by
  refine keeps_memory (.bind (ensureDirWithDirty_keeps hq.steady _).mapErr ?_)
  rintro _ h _ hs rfl
  refine .bind (openRelative_keeps hs _).mapErr ?_
  rintro dir _ _ hs ⟨rfl, rfl, hdir⟩
  refine .bind (quiet_any hs).mapErr ?_
  rintro boottime _ _ hs ⟨rfl, rfl⟩
  refine .bind (random128bit_keeps hs).mapErr ?_
  rintro x _ _ - ⟨rfl, rfl⟩
  have hhead : dir.path.head? = some tmpRoot := hdir ▸ rfl
  refine .bind (createExclusive_keeps hs (.inr ⟨x, _, rfl, .inl ⟨hhead, boottime, rfl⟩⟩)).mapErr ?_
  rintro file _ _ hs₁ ⟨rfl, ho⟩
  exact keeps_pure hs₁ ⟨hhead, ho⟩

/-! ## 3. The one link or rename -/

theorem useJobId_eq (g : Ghost) (p : Path) (n : Name) :
    ∃ drawn, g.useJobId p n = { g with drawn := drawn } := by
  unfold Ghost.useJobId
  split
  · exact ⟨_, rfl⟩
  · exact ⟨g.drawn, rfl⟩

theorem Stays.link (hs : Stays f g₀ h g) (form : LinkForm) (i : Ino) (d : Dir) (n : Name) :
    Stays f g₀ h ((law f).next g (.linkat form i d n) (.ok ())) := by
  rw [next_link]
  obtain ⟨drawn, hd⟩ := useJobId_eq { g with own := g.own.filter fun o => o.ino ≠ i } d.path n
  rw [hd]
  exact ⟨⟨hs.format⟩, hs.op⟩

/-- A rename without replacement moves something, and uses up the job id of a publication. -/
theorem next_rename (g : Ghost) (s : Dir) (sn : Name) (d : Dir) (dn : Name) :
    ∃ own drawn, (law f).next g (.renameNoreplace s sn d dn) (.ok ()) = { g with
      own := own
      drawn := drawn
      moved := true
      claims := (claimOf s.path sn d.path dn).toList ++ g.claims } := by
  simp only [law, Ghost.next]
  split
  · obtain ⟨drawn, hd⟩ := useJobId_eq (Ghost.giveAway { g with
      moved := true, claims := (claimOf s.path sn d.path dn).toList ++ g.claims } s.path sn)
      d.path dn
    exact ⟨_, drawn, hd⟩
  · exact ⟨_, _, rfl⟩

theorem Stays.rename (hs : Stays f g₀ h g) (s : Dir) (sn : Name) (d : Dir) (dn : Name) :
    Stays f g₀ h ((law f).next g (.renameNoreplace s sn d dn) (.ok ())) := by
  obtain ⟨own, drawn, hnext⟩ := next_rename (f := f) g s sn d dn
  rw [hnext]
  exact ⟨⟨hs.format⟩, hs.op⟩

theorem renameClassified_keeps {s d : Dir} {sn dn : Name} (hs : Stays f g₀ h g)
    (hmove : g.Moves f s.path sn d.path dn) :
    (renameClassified s sn d dn).Keeps (law f) h g (Stays f g₀)
      fun _ h' g' => h' = h ∧ g' = (law f).next g (.renameNoreplace s sn d dn) (.ok ()) := by
  refine Task.Keeps.mapErr ⟨hmove, fun r _ => ?_⟩
  rcases r with e | _
  · exact ⟨hs, nofun⟩
  · exact ⟨hs.rename s sn d dn, fun _ _ => ⟨rfl, rfl⟩⟩

theorem moveBarrier_keeps {I : Handle → Ghost → Prop} (hI : I h g)
    (phase : MovePhase) (d : Dir) :
    (moveBarrier phase d).Keeps (law f) h g I fun _ h' g' => h' = h ∧ g' = g :=
  (fsyncDirFd_keeps hI d).mapErr

theorem moveVerifiedNoreplace_keeps {s d : Dir} {sn dn : Name} (hs : Stays f g₀ h g)
    (hmove : g.Moves f s.path sn d.path dn) :
    (moveVerifiedNoreplace s sn d dn).Keeps (law f) h g (Stays f g₀)
      fun _ h' g' => h' = h ∧ g' = (law f).next g (.renameNoreplace s sn d dn) (.ok ()) := by
  refine .bind (renameClassified_keeps hs hmove) ?_
  rintro _ _ _ hs ⟨rfl, rfl⟩
  refine .bind (moveBarrier_keeps hs _ d) ?_
  rintro _ _ _ hs ⟨rfl, rfl⟩
  exact moveBarrier_keeps hs _ s

theorem confirmMove_keeps {α : Type} {s d : Dir} {dn : Name} {identity : MoveIdentity}
    {after : LookM IoError α} {I : Handle → Ghost → Prop} (hI : I h g) :
    (confirmMove deferred s d dn identity after).Keeps (law f) h g I
      fun _ h' g' => h' = h ∧ g' = g := by
  refine .bind (quiet_any hI).mapErr ?_
  rintro stat _ _ - ⟨rfl, rfl⟩
  refine keeps_ite (fun _ => keeps_throw hI) fun _ => ?_
  refine .bind (quiet_any hI).mapErr ?_
  rintro output _ _ - ⟨rfl, rfl⟩
  dsimp only
  refine keeps_ite (fun _ => ?_) fun _ => keeps_pure hI ⟨rfl, rfl⟩
  refine .bind (moveBarrier_keeps hI _ d) ?_
  rintro _ _ _ - ⟨rfl, rfl⟩
  refine .bind (quiet_any hI) ?_
  rintro same _ _ - ⟨rfl, rfl⟩
  refine keeps_ite (fun _ => ?_) fun _ => keeps_pure hI ⟨rfl, rfl⟩
  refine .bind (moveBarrier_keeps hI _ s) ?_
  rintro _ _ _ - ⟨rfl, rfl⟩
  exact keeps_pure hI ⟨rfl, rfl⟩

section Witnessed

variable {α : Type} {s d : Dir} {sn dn : Name} {identity : MoveIdentity}
  {after : LookM IoError α}

theorem moveWitnessed_keeps (hs : Stays f g₀ h g) (hmove : g.Moves f s.path sn d.path dn) :
    (moveWitnessed deferred s sn d dn identity after).Keeps (law f) h g (Stays f g₀)
      fun _ h' g' => h' = h ∧ g' = (law f).next g (.renameNoreplace s sn d dn) (.ok ()) := by
  refine .bind (renameClassified_keeps hs hmove) ?_
  rintro _ _ _ hs ⟨rfl, rfl⟩
  exact confirmMove_keeps hs

theorem renameClassified_known (hs : Stays f g₀ h g) (hmove : g.Moves f s.path sn d.path dn) :
    (renameClassified s sn d dn).Meets (law f) h g fun r h' g' => Stays f g₀ h' g' ∧
      (r.isOk → g'.moved = true) ∧ ∀ phase e, r ≠ .error (.outcomeUnknown phase e) := by
  refine Task.meets_mapErr.mpr ⟨hmove, fun r _ => ?_⟩
  rcases r with e | _
  · refine ⟨hs, nofun, fun phase e' he => ?_⟩
    cases e <;> cases he
  · refine ⟨hs.rename s sn d dn, fun _ => ?_, nofun⟩
    obtain ⟨own, drawn, hnext⟩ := next_rename (f := f) g s sn d dn
    rw [hnext]

/-- A move that succeeded or has an unknown outcome has happened. -/
theorem moveWitnessed_known (hs : Stays f g₀ h g) (hmove : g.Moves f s.path sn d.path dn) :
    (moveWitnessed deferred s sn d dn identity after).Meets (law f) h g fun r h' g' =>
      Stays f g₀ h' g' ∧ (r.isOk → g'.moved = true) ∧
        ∀ phase e, r = .error (.outcomeUnknown phase e) → g'.moved = true := by
  refine Task.meets_bind.mpr (Task.Meets.mono (renameClassified_known hs hmove) ?_)
  rintro r h₁ g₁ ⟨hs₁, hmoved, hknown⟩
  refine Task.then_intro (fun e he => ⟨hs₁, nofun, ?_⟩) fun u hu => ?_
  · rintro phase e' ⟨⟩
    exact absurd he (hknown _ _)
  · have hrest : (confirmMove deferred s d dn identity after).Keeps (law f) h₁ g₁
        (fun h' g' => Stays f g₀ h' g' ∧ g'.moved = true) _ :=
      confirmMove_keeps ⟨hs₁, hmoved (by rw [hu]; rfl)⟩
    exact Task.Meets.mono hrest fun _ _ _ hr => ⟨hr.1.1, fun _ => hr.1.2, fun _ _ _ => hr.1.2⟩

end Witnessed

theorem Steady.publishes {p : Path} {n : Name} (hs : Steady f g₀ h g)
    (hp : g₀.Publishes f p n) : g.Publishes f p n := by
  obtain ⟨l, c, hlands, hplace, hgen, hatt, hmax, hid⟩ := hp
  exact ⟨l, c, hlands, hplace, hgen, hatt, hmax, hs.grows.drawn _ hid⟩

/-- A link of the unnamed file: it is published, or nothing has happened. -/
theorem linkat_keeps {form : LinkForm} {i : Ino} {d : Dir} {n : Name} (hs : Steady f g₀ h g)
    (ho : Owns g i none) (hp : g.Publishes f d.path n) :
    (Task.attempt (linkat form i d n) : QueueM TmpfilePublishFailure _).Keeps (law f) h g
      (Stays f g₀) fun r h' g' => (r = .ok () ∨ h' = h ∧ g' = g) := by
  refine Task.meets_attempt.mpr ⟨⟨ho, hp⟩, fun r _ => ?_⟩
  rcases r with e | _
  · refine ⟨hs.toStays, ?_⟩
    rintro _ ⟨⟩
    exact .inr ⟨rfl, rfl⟩
  · refine ⟨hs.toStays.link form i d n, ?_⟩
    rintro _ ⟨⟩
    exact .inl rfl

section Link

variable {i : Ino} {d : Dir} {n : Name}

/-- What one attempt to link leaves behind. -/
def Attempted (h : Handle) (g : Ghost) (a : LinkStrategyAttempt) (h' : Handle) (g' : Ghost) :
    Prop :=
  (∃ mode, a = .published mode) ∨ h' = h ∧ g' = g

theorem tryDirectTmpfileLink_keeps (hs : Steady f g₀ h g) (ho : Owns g i none)
    (hp : g.Publishes f d.path n) :
    (tryDirectTmpfileLink i d n).Keeps (law f) h g (Stays f g₀) (Attempted h g) := by
  refine .bind (linkat_keeps hs ho hp) fun r h₁ g₁ hs₁ hr => ?_
  split
  · exact keeps_pure hs₁ (.inl ⟨_, rfl⟩)
  · exact keeps_throw hs₁
  · exact keeps_pure hs₁ (.inr (hr.resolve_left nofun))
  · refine keeps_ite (fun _ => ?_) fun _ => keeps_throw hs₁
    exact keeps_pure hs₁ (.inr (hr.resolve_left nofun))

theorem tryProcTmpfileLink_keeps (hs : Steady f g₀ h g) (ho : Owns g i none)
    (hp : g.Publishes f d.path n) :
    (tryProcTmpfileLink i d n).Keeps (law f) h g (Stays f g₀) (Attempted h g) := by
  refine .bind (linkat_keeps hs ho hp) fun r h₁ g₁ hs₁ hr => ?_
  split
  · exact keeps_pure hs₁ (.inl ⟨_, rfl⟩)
  · exact keeps_throw hs₁
  · refine .bind (quiet_any hs₁).mapErr ?_
    rintro stat _ _ hs₁ ⟨rfl, rfl⟩
    refine keeps_ite (fun _ => keeps_throw hs₁) fun _ => ?_
    exact keeps_pure hs₁ (.inr (hr.resolve_left nofun))
  · refine keeps_ite (fun _ => ?_) fun _ => keeps_throw hs₁
    exact keeps_pure hs₁ (.inr (hr.resolve_left nofun))

theorem tryTmpfileLink_keeps (viaProc : Bool) (hs : Steady f g₀ h g) (ho : Owns g i none)
    (hp : g.Publishes f d.path n) :
    (tryTmpfileLink viaProc i d n).Keeps (law f) h g (Stays f g₀) (Attempted h g) :=
  keeps_ite (fun _ => tryProcTmpfileLink_keeps hs ho hp)
    fun _ => tryDirectTmpfileLink_keeps hs ho hp

theorem linkTmpfileNoreplace_keeps (preferred : Option PublicationMode) (hs : Steady f g₀ h g)
    (ho : Owns g i none) (hp : g.Publishes f d.path n) :
    (linkTmpfileNoreplace i d n preferred).Keeps (law f) h g (Stays f g₀)
      fun r h' g' => r ≠ none ∨ h' = h ∧ g' = g := by
  refine .bind (tryTmpfileLink_keeps _ hs ho hp) fun first h₁ g₁ hs₁ hfirst => ?_
  cases first with
  | published mode => exact keeps_pure hs₁ (.inl nofun)
  | unsupported => exact keeps_pure hs₁ (.inr (hfirst.resolve_left nofun))
  | tryNext =>
    obtain ⟨rfl, rfl⟩ := hfirst.resolve_left nofun
    refine .bind (tryTmpfileLink_keeps _ hs ho hp) fun second h₂ g₂ hs₂ hsecond => ?_
    cases second with
    | published mode => exact keeps_pure hs₂ (.inl nofun)
    | unsupported => exact keeps_pure hs₂ (.inr (hsecond.resolve_left nofun))
    | tryNext => exact keeps_pure hs₂ (.inr (hsecond.resolve_left nofun))

theorem publishTmpfileNoreplaceImpl_keeps (preferred : Option PublicationMode) (sync : Bool)
    (hs : Steady f g₀ h g) (ho : Owns g i none) (hp : g.Publishes f d.path n) :
    (publishTmpfileNoreplaceImpl i d n preferred sync).Keeps (law f) h g (Stays f g₀)
      fun r h' g' => r = .unsupported → Steady f g h' g' := by
  refine .bind (quiet_any hs.toStays).mapErr ?_
  rintro stat _ _ - ⟨rfl, rfl⟩
  refine .bind (Task.keeps_except hs.toStays).mapErr ?_
  rintro _ h _ - ⟨rfl, rfl, -⟩
  refine .bind ((fsync_keeps hs.toQuiet i).weaken fun _ _ hs' => hs.toStays.trans hs'.toStays).mapErr ?_
  rintro _ _ g₁ - ⟨hs₁, rfl⟩
  refine .bind ((linkTmpfileNoreplace_keeps preferred (hs.trans hs₁) (hs₁.owns ho) (hs₁.publishes hp))) ?_
  intro r h₂ g₂ hs₂ hr
  cases r with
  | none =>
    obtain ⟨rfl, rfl⟩ := hr.resolve_left (· rfl)
    exact keeps_pure hs₂ fun _ => hs₁
  | some mode =>
    dsimp only
    refine keeps_ite (fun _ => ?_) fun _ => keeps_pure hs₂ nofun
    refine .bind (fsyncDirFd_keeps hs₂ d).mapErr fun _ _ _ hs₃ _ => ?_
    exact keeps_pure hs₃ nofun

theorem publishUnnamed_keeps (hs : Steady f g₀ h g) (ho : Owns g i none)
    (hp : g.Publishes f d.path n) :
    (publishUnnamed deferred i d n).Keeps (law f) h g (Stays f g₀)
      fun published h' g' => published = false → Steady f g h' g' := by
  refine keeps_memory (.bind (publishTmpfileNoreplaceImpl_keeps _ _ hs ho hp).mapErr ?_)
  intro r h₁ g₁ hs₁ hr
  cases r with
  | unsupported =>
    refine keeps_remember (keeps_pure (hs₁.memory rfl) fun _ => ?_)
    exact (hr rfl).memory rfl
  | published mode =>
    refine keeps_remember ?_
    dsimp only
    have hs₂ : Stays f g₀ { h₁ with publicationMode := some mode } g₁ := hs₁.memory rfl
    refine keeps_ite (fun _ => ?_) fun _ => keeps_pure hs₂ nofun
    refine .bind (hs₂.recordDirty d).mapErr ?_
    exact fun _ _ _ hs₃ _ => keeps_pure hs₃ nofun

end Link

/-! ## 4. Publication of a job -/

section Job

variable {dst : Dir} {dstName : Name}

theorem openUnnamed_keeps (hq : Quiet f h g) :
    (openUnnamed dst).Keeps (law f) h g (Steady f g)
      fun r _ g' => ∀ i, r = some i → Owns g' i none := by
  refine keeps_memory (keeps_ite (fun _ => keeps_pure hq.steady nofun) fun _ => ?_)
  have hopen : (openTmpfile dst).Keeps (law f) h g (Steady f g) fun i _ g' => Owns g' i none := by
    refine ⟨trivial, fun r _ => ?_⟩
    rcases r with e | i
    · exact ⟨hq.steady, nofun⟩
    · refine ⟨⟨⟨⟨hq.format⟩, rfl⟩,
        ⟨rfl, fun _ h => h, rfl, rfl⟩,
        fun o ho => ⟨o, List.mem_cons_of_mem _ ho, rfl, rfl⟩⟩, ?_⟩
      rintro _ ⟨⟩
      exact ⟨_, List.mem_cons_self .., rfl, rfl⟩
  refine .attempt hopen fun r h₁ g₁ hs₁ hr => ?_
  cases r with
  | ok i =>
    refine keeps_pure hs₁ ?_
    rintro _ ⟨⟩
    exact hr i rfl
  | error e =>
    refine keeps_ite (fun _ => ?_) fun _ => keeps_throw hs₁
    exact keeps_remember (keeps_pure (hs₁.memory rfl) nofun)

theorem guardTemp_keeps {α : Type} {dir : Dir} {name : Name} {body : QueueM PublishError α}
    {J : α → Handle → Ghost → Prop} (hdir : dir.path.head? = some tmpRoot)
    (hbody : body.Keeps (law f) h g (Stays f g₀) J) :
    (guardTemp dir name body).Keeps (law f) h g (Stays f g₀) J := by
  refine .attempt hbody fun r h₁ g₁ hs₁ hr => ?_
  split
  · exact keeps_pure hs₁ (hr _ rfl)
  · refine .attempt (quiet_call (.inl hdir) (fun r => next_unlinkat dir name r) hs₁) ?_
    exact fun _ _ _ hs₂ _ => keeps_throw hs₂
  · exact keeps_throw hs₁

theorem finishNamedPublish_keeps {tmpDir : Dir} {tmpName : Name} {file : Ino}
    (hdir : tmpDir.path.head? = some tmpRoot) (hs : Steady f g₀ h g)
    (ho : Owns g file (some (tmpDir.path, tmpName))) (hp : g₀.Publishes f dst.path dstName) :
    (finishNamedPublish deferred tmpDir tmpName file dst dstName).Keeps (law f) h g (Stays f g₀)
      fun _ _ _ => True := by
  refine .bind ((fsync_keeps hs.toQuiet file).weaken
    fun _ _ hs' => hs.toStays.trans hs'.toStays).mapErr ?_
  rintro _ _ g₁ hst ⟨hs₁, rfl⟩
  refine .bind (quiet_any hst).mapErr ?_
  rintro stat _ _ - ⟨rfl, rfl⟩
  obtain ⟨o, hown⟩ := (hs₁.owns ho).ownAt
  have hmove : Ghost.Moves f _ tmpDir.path tmpName dst.path dstName :=
    .publish o hown hdir ((hs.trans hs₁).publishes hp)
  refine .bind (moveWitnessed_keeps hst hmove).mapErr fun _ h₂ g₂ hs₂ _ => ?_
  refine keeps_ite (fun _ => ?_) fun _ => keeps_pure hs₂ trivial
  refine .bind (hs₂.recordDirty tmpDir).mapErr ?_
  rintro _ h₃ g₃ hs₃ -
  exact (hs₃.recordDirty dst).mapErr

/-- A part in front of the publication. -/
theorem Steady.within {ε α : Type} {m : QueueM ε α} {J : α → Handle → Ghost → Prop}
    (hs : Steady f g₀ h g) (hm : m.Keeps (law f) h g (Steady f g) J) :
    m.Keeps (law f) h g (Stays f g₀) fun a h' g' => Steady f g h' g' ∧ J a h' g' :=
  hm.weaken fun _ _ hs' => hs.toStays.trans hs'.toStays

/-- A write to an own file. -/
theorem Steady.write {i : Ino} {place : Option (Path × Name)} (hs : Steady f g₀ h g)
    (ho : Owns g i place) (data : Bytes) :
    (writeAll i data).Keeps (law f) h g (Stays f g₀)
      fun _ h' g' => h' = h ∧ Steady f g₀ h' g' ∧ Owns g' i place :=
  (hs.within (writeAll_keeps hs.toQuiet ho.file data)).mono (fun _ _ h => h)
    fun _ _ _ _ hJ => ⟨hJ.2, hs.trans hJ.1, hJ.1.owns ho⟩

theorem Steady.createNamedTemp (hs : Steady f g₀ h g) (destDir : Path) :
    (createNamedTemp deferred destDir).Keeps (law f) h g (Stays f g₀) fun x h' g' =>
      Steady f g h' g' ∧ x.1.path.head? = some tmpRoot ∧ Owns g' x.2.2 (some (x.1.path, x.2.1)) :=
  hs.within (createNamedTemp_keeps hs.toQuiet destDir)

theorem namedFallback_keeps (destDir : Path) (header : FixedHeader) (ext payload : Bytes)
    (hs : Steady f g₀ h g) (hp : g₀.Publishes f dst.path dstName) :
    (namedFallback deferred destDir dst dstName header ext payload).Keeps (law f) h g (Stays f g₀)
      fun _ _ _ => True := by
  refine .bind (hs.createNamedTemp destDir) ?_
  rintro ⟨tmpDir, tmpName, file⟩ h₁ g₁ - ⟨hs₁, hdir, ho⟩
  replace hs₁ := hs.trans hs₁
  refine guardTemp_keeps hdir (keeps_ofExcept hs₁.toStays fun headerBytes _ => ?_)
  refine .bind (hs₁.write ho headerBytes).mapErr ?_
  rintro _ _ g₂ - ⟨rfl, hs₂, ho₂⟩
  refine .bind (hs₂.write ho₂ ext).mapErr ?_
  rintro _ _ g₃ - ⟨rfl, hs₃, ho₃⟩
  refine .bind (hs₃.write ho₃ payload).mapErr ?_
  rintro _ _ g₄ - ⟨rfl, hs₄, ho₄⟩
  exact finishNamedPublish_keeps hdir hs₄ ho₄ hp

theorem writeAndPublish_keeps {destDir : Path} (header : FixedHeader) (ext payload : Bytes)
    (hq : Quiet f h g) (hp : g.Publishes f destDir dstName) :
    (writeAndPublish deferred destDir dstName header ext payload).Keeps (law f) h g (Stays f g)
      fun _ _ _ => True := by
  refine .bind (hq.steady.within (ensureDirWithDirty_keeps hq.steady destDir)).mapErr ?_
  rintro _ h₁ _ - ⟨hs₁, rfl⟩
  refine .bind (hs₁.within (openOrCacheDir_keeps hs₁ destDir)).mapErr ?_
  rintro dst h₂ _ - ⟨hs₂, rfl, rfl⟩
  refine .bind (hs₂.within (openUnnamed_keeps hs₂.toQuiet)) ?_
  rintro file h₃ g₃ - ⟨hs₃, ho⟩
  replace hs₃ := hs₂.trans hs₃
  cases file with
  | none => exact namedFallback_keeps _ _ _ _ hs₃ hp
  | some file =>
    refine keeps_ofExcept hs₃.toStays fun headerBytes _ => ?_
    refine .bind (hs₃.write (ho file rfl) _).mapErr ?_
    rintro _ h₄ g₄ - ⟨rfl, hs₄, ho₄⟩
    refine .bind (publishUnnamed_keeps hs₄ ho₄ (hs₄.publishes hp)) fun published h₅ g₅ hs₅ hr₅ => ?_
    refine keeps_ite (fun _ => keeps_pure hs₅ trivial) fun hpub => ?_
    exact namedFallback_keeps _ _ _ _ (hs₄.trans (hr₅ (by simpa using hpub))) hp

/-! ## 5. Streaming -/

section Stream

variable {i : Ino} {place : Option (Path × Name)}

theorem streamChunks_keeps (limit : Nat) (payload : Bytes) (reader : PayloadReader)
    (hs : Steady f g₀ h g) (ho : Owns g i place) :
    (streamChunks i limit payload reader).Keeps (law f) h g (Stays f g₀)
      fun _ h' g' => Steady f g₀ h' g' ∧ Owns g' i place := by
  induction reader generalizing payload h g with
  | nil => exact keeps_pure hs.toStays ⟨hs, ho⟩
  | cons chunk rest ih =>
    cases chunk with
    | error e => exact keeps_ite (fun _ => ih _ hs ho) fun _ => keeps_throw hs.toStays
    | ok chunk =>
      refine keeps_ite (fun _ => keeps_pure hs.toStays ⟨hs, ho⟩) fun _ => ?_
      refine keeps_ite (fun _ => keeps_throw hs.toStays) fun _ => ?_
      refine .bind (hs.write ho _).mapErr ?_
      rintro _ _ g₁ - ⟨rfl, hs₁, ho₁⟩
      exact ih _ hs₁ ho₁

theorem streamPayloadToFd_keeps (ext : Bytes) (reader : PayloadReader) (hs : Steady f g₀ h g)
    (ho : Owns g i place) :
    (streamPayloadToFd i ext reader).Keeps (law f) h g (Stays f g₀)
      fun _ h' g' => Steady f g₀ h' g' ∧ Owns g' i place := by
  refine .bind (hs.write ho _).mapErr ?_
  rintro _ _ g₁ - ⟨rfl, hs₁, ho₁⟩
  refine .bind (hs₁.write ho₁ ext).mapErr ?_
  rintro _ _ g₂ - ⟨rfl, hs₂, ho₂⟩
  exact keeps_memory (streamChunks_keeps _ _ _ hs₂ ho₂)

theorem streamEnvelope_keeps (job : StreamedJob) (reader : PayloadReader) (hs : Steady f g₀ h g)
    (ho : Owns g i place) :
    (streamEnvelope job i reader).Keeps (law f) h g (Stays f g₀)
      fun _ h' g' => Steady f g₀ h' g' ∧ Owns g' i place := by
  refine .bind (streamPayloadToFd_keeps _ _ hs ho) ?_
  rintro payload h₁ g₁ - ⟨hs₁, ho₁⟩
  refine keeps_ofExcept hs₁.toStays fun header _ => ?_
  refine keeps_ofExcept hs₁.toStays fun headerBytes _ => ?_
  refine .bind (hs₁.within (pwriteAll_keeps hs₁.toQuiet ho₁.file headerBytes 0)).mapErr ?_
  rintro _ _ g₂ hst ⟨hs₂, rfl⟩
  exact keeps_pure hst ⟨hs₁.trans hs₂, hs₂.owns ho₁⟩

theorem copyPayload_keeps (src : Ino) (offset length fuel copied : Nat) (hs : Steady f g₀ h g)
    (ho : Owns g i place) :
    (copyPayload src i offset length fuel copied).Keeps (law f) h g (Stays f g₀)
      fun _ h' g' => Steady f g₀ h' g' ∧ Owns g' i place := by
  induction fuel generalizing copied h g with
  | zero => exact keeps_pure hs.toStays ⟨hs, ho⟩
  | succ fuel ih =>
    refine keeps_ite (fun _ => ?_) fun _ => keeps_pure hs.toStays ⟨hs, ho⟩
    refine .bind (quiet_any hs.toStays).mapErr ?_
    rintro chunk _ _ - ⟨rfl, rfl⟩
    refine keeps_ite (fun _ => keeps_pure hs.toStays ⟨hs, ho⟩) fun _ => ?_
    refine .bind (hs.write ho chunk).mapErr ?_
    rintro _ _ g₁ - ⟨rfl, hs₁, ho₁⟩
    exact ih _ hs₁ ho₁

theorem namedFallbackStreaming_keeps (destDir : Path) (header : FixedHeader) (ext : Bytes)
    (source : Ino) (length : Nat) (hs : Steady f g₀ h g)
    (hp : g₀.Publishes f dst.path dstName) :
    (namedFallbackStreaming deferred destDir dst dstName header ext source length).Keeps (law f) h g
      (Stays f g₀) fun _ _ _ => True := by
  refine .bind (hs.createNamedTemp destDir) ?_
  rintro ⟨tmpDir, tmpName, file⟩ h₁ g₁ - ⟨hs₁, hdir, ho⟩
  replace hs₁ := hs.trans hs₁
  refine guardTemp_keeps hdir (keeps_ofExcept hs₁.toStays fun headerBytes _ => ?_)
  refine .bind (hs₁.write ho headerBytes).mapErr ?_
  rintro _ _ g₂ - ⟨rfl, hs₂, ho₂⟩
  refine .bind (hs₂.write ho₂ ext).mapErr ?_
  rintro _ _ g₃ - ⟨rfl, hs₃, ho₃⟩
  refine .bind (copyPayload_keeps _ _ _ _ _ hs₃ ho₃) ?_
  rintro _ h₄ g₄ - ⟨hs₄, ho₄⟩
  refine .bind (finishNamedPublish_keeps hdir hs₄ ho₄ hp).mapErr fun _ _ _ hs₅ _ => ?_
  exact keeps_pure hs₅ trivial

theorem namedFallbackStreamingInit_keeps (destDir : Path) (job : StreamedJob)
    (reader : PayloadReader) (hs : Steady f g₀ h g) (hp : g₀.Publishes f dst.path dstName) :
    (namedFallbackStreamingInit deferred destDir dst dstName job reader).Keeps (law f) h g
      (Stays f g₀) fun _ _ _ => True := by
  refine .bind (hs.createNamedTemp destDir) ?_
  rintro ⟨tmpDir, tmpName, file⟩ h₁ g₁ - ⟨hs₁, hdir, ho⟩
  replace hs₁ := hs.trans hs₁
  refine guardTemp_keeps hdir (.bind (streamEnvelope_keeps job reader hs₁ ho) ?_)
  rintro ⟨header, payload⟩ h₂ g₂ - ⟨hs₂, ho₂⟩
  refine .bind (finishNamedPublish_keeps hdir hs₂ ho₂ hp).mapErr fun _ _ _ hs₃ _ => ?_
  exact keeps_pure hs₃ trivial

theorem streamAndPublish_keeps {destDir : Path} (job : StreamedJob) (reader : PayloadReader)
    (hq : Quiet f h g) (hp : g.Publishes f destDir dstName) :
    (streamAndPublish deferred destDir dstName job reader).Keeps (law f) h g (Stays f g)
      fun _ _ _ => True := by
  refine .bind (hq.steady.within (ensureDirWithDirty_keeps hq.steady destDir)).mapErr ?_
  rintro _ h₁ _ - ⟨hs₁, rfl⟩
  refine .bind (openRelative_keeps hs₁.toStays destDir).mapErr ?_
  rintro dst _ _ - ⟨rfl, rfl, rfl⟩
  refine .bind (hs₁.within (openUnnamed_keeps hs₁.toQuiet)) ?_
  rintro file h₃ g₃ - ⟨hs₃, ho⟩
  replace hs₃ := hs₁.trans hs₃
  cases file with
  | none => exact namedFallbackStreamingInit_keeps _ _ _ hs₃ hp
  | some file =>
    refine .bind (streamEnvelope_keeps job reader hs₃ (ho file rfl)) ?_
    rintro ⟨header, payload⟩ h₄ g₄ - ⟨hs₄, ho₄⟩
    refine .bind (publishUnnamed_keeps hs₄ ho₄ (hs₄.publishes hp)).mapErr
      fun published h₅ g₅ hs₅ hr₅ => ?_
    refine keeps_ite (fun _ => keeps_pure hs₅ trivial) fun hpub => ?_
    exact namedFallbackStreaming_keeps _ _ _ _ _ (hs₄.trans (hr₅ (by simpa using hpub))) hp

end Stream

end Job

/-! ## 6. Enqueue -/

theorem layout_ready (hf : h.format = f) (c : CommonFields) : h.layout.ready c = f.layout.ready c := by
  subst hf
  rfl

theorem layout_delayed (hf : h.format = f) (c : CommonFields) (nb : UInt64) :
    h.layout.delayed c nb = f.layout.delayed c nb := by
  subst hf
  rfl

/-- Where a new job goes, by its deadline and the floor. -/
theorem initialTarget_ok {nb? : Option UInt64} {floor : WallFloor} {c : CommonFields}
    {target : Target} (hf : h.format = f)
    (ht : initialTarget h.layout (initialStateFor nb? floor.unixNs) c nb? = .ok target) :
    ∃ l : Landing, l.target f c = some target ∧
      ((l = .ready ∧ ∀ nb, nb? = some nb → nb ≤ floor.unixNs) ∨
        ∃ nb, l = .delayed nb ∧ nb? = some nb ∧ floor.unixNs < nb) := by
  cases nb? with
  | none =>
    cases ht
    exact ⟨.ready, by rw [layout_ready hf]; rfl, .inl ⟨rfl, nofun⟩⟩
  | some nb =>
    simp only [initialStateFor] at ht
    split at ht
    · rename_i hlt
      refine ⟨.delayed nb, ?_, .inr ⟨nb, rfl, rfl, hlt⟩⟩
      simp only [initialTarget, layout_delayed hf] at ht
      simp only [Landing.target, ht, Except.toOption]
    · rename_i hle
      cases ht
      refine ⟨.ready, by rw [layout_ready hf]; rfl, .inl ⟨rfl, ?_⟩⟩
      rintro _ ⟨⟩
      simpa using hle

theorem publishes_of_target {nb? : Option UInt64} {floor : WallFloor} {c : CommonFields}
    {op : Operation} {jobId : Octets 16} {maximumAttempts : UInt32} {target : Target}
    (hq : Quiet f h g)
    (hnext : nextIdentity op ⟨jobId, 0, 0, maximumAttempts⟩ = .ok c) (hpub : op.Publishes)
    (hmax : maximumAttempts ≠ 0) (hid : jobId ∈ g.drawn)
    (ht : initialTarget h.layout (initialStateFor nb? floor.unixNs) c nb? = .ok target) :
    g.Publishes f target.directory target.filename := by
  obtain rfl := nextCommonFields_publishes (nextIdentity_ok hnext) hpub
  obtain ⟨l, hl, hplace⟩ := initialTarget_ok hq.format ht
  have hfirst : l = .ready ∨ ∃ nb, l = .delayed nb :=
    hplace.imp And.left fun ⟨nb, hnb, _⟩ => ⟨nb, hnb⟩
  refine ⟨l, _, ⟨target, hl, rfl, rfl⟩, hfirst, rfl, rfl, ?_, hid⟩
  exact Nat.one_le_iff_ne_zero.mpr fun h0 => hmax (UInt32.toNat_inj.mp h0)

/-- The floor of a call that has not moved anything. -/
theorem Quiet.wallFloor (hq : Quiet f h g) :
    wallFloorForMutation.Keeps (law f) h g (Quiet f) fun _ _ g' => Grows g g' :=
  Task.Meets.mono (wallFloorForMutation_keeps h g ⟨hq, .refl g⟩)
    fun _ _ _ hc => ⟨hc.toQuiet, fun _ _ => hc.grows⟩

theorem Quiet.random128bit (hq : Quiet f h g) :
    random128bit.Keeps (law f) h g (Quiet f) fun x h' g' => h' = h ∧ x ∈ g'.drawn :=
  (random128bit_keeps hq.steady).mono (fun _ _ hs => hs.toQuiet) fun _ _ _ _ hJ => by
    obtain ⟨rfl, rfl⟩ := hJ
    exact ⟨rfl, List.mem_cons_self ..⟩

theorem buildEnvelope_ok {job : EnqueueInput} {jobId : Octets 16} {floor : WallFloor}
    {x : FixedHeader × Bytes} (hb : buildEnvelope f job jobId floor = .ok x) :
    job.maximumAttempts ≠ 0 := by
  rintro h0
  simp [buildEnvelope, h0] at hb

theorem placeEnqueue_ok {l : Layout} {job : EnqueueInput} {jobId : Octets 16} {digest : Octets 32}
    {floor : WallFloor} {state : InitialState} {target : Target}
    (hp : placeEnqueue l job jobId digest floor = .ok (state, target)) :
    ∃ c op, op.Publishes ∧ nextIdentity op ⟨jobId, 0, 0, job.maximumAttempts⟩ = .ok c ∧
      initialTarget l (initialStateFor job.initialNotBefore floor.unixNs) c
        job.initialNotBefore = .ok target := by
  simp only [placeEnqueue] at hp
  split_ifs at hp
  split at hp
  · cases hp
  · rename_i c hc
    split at hp
    · cases hp
    · rename_i target' ht
      cases hp
      refine ⟨c, _, ?_, hc, ht⟩
      cases initialStateFor job.initialNotBefore floor.unixNs
      · exact .inl rfl
      · exact .inr rfl

theorem prepareEnqueue_keeps {job : EnqueueInput} (hq : Quiet f h g) :
    (prepareEnqueue job).Keeps (law f) h g (Quiet f)
      fun prepared _ g' => g'.Publishes f prepared.destDir prepared.filename := by
  refine .bind (quiet_any hq).mapErr ?_
  rintro _ _ _ - ⟨rfl, rfl⟩
  refine .bind hq.random128bit.mapErr ?_
  rintro jobId _ g₁ hq₁ ⟨rfl, hid⟩
  refine .bind hq₁.wallFloor.mapErr ?_
  intro floor h₂ g₂ hq₂ hgrows
  refine keeps_memory ?_
  refine keeps_ofExcept hq₂ fun ⟨header, ext⟩ hbuild => ?_
  refine keeps_ofExcept hq₂ fun ⟨state, target⟩ hplace => ?_
  have hmax := buildEnvelope_ok (Task.mapError_eq_ok.mp hbuild)
  obtain ⟨c, op, hpub, hnext, ht⟩ := placeEnqueue_ok hplace
  exact keeps_pure hq₂ (publishes_of_target hq₂ hnext hpub hmax (hgrows.drawn _ hid) ht)

theorem prepareStreaming_keeps {job : EnqueueInput} (hq : Quiet f h g) :
    (prepareStreaming job).Keeps (law f) h g (Quiet f)
      fun x _ g' => g'.Publishes f x.2.2.directory x.2.2.filename := by
  refine .bind (quiet_any hq).mapErr ?_
  rintro _ _ _ - ⟨rfl, rfl⟩
  refine keeps_ite (fun _ => keeps_throw hq) fun hmax => ?_
  refine .bind hq.wallFloor.mapErr ?_
  intro floor h₁ g₁ hq₁ _
  refine .bind hq₁.random128bit.mapErr ?_
  rintro jobId _ g₂ hq₂ ⟨rfl, hid⟩
  refine keeps_ofExcept hq₂ fun ext _ => ?_
  refine keeps_ofExcept hq₂ fun c hnext => ?_
  refine keeps_memory (keeps_ofExcept hq₂ fun target ht => ?_)
  refine keeps_pure hq₂ (publishes_of_target hq₂ (Task.mapError_eq_ok.mp hnext) ?_ hmax hid
    (Task.mapError_eq_ok.mp ht))
  cases initialStateFor job.initialNotBefore floor.unixNs
  · exact .inl rfl
  · exact .inr rfl

theorem Quiet.poison (hq : Quiet f h g) (reason : PoisonReason) : Quiet f (h.poison reason) g :=
  hq.memory rfl

/-- The code behind a publication only reports. -/
theorem publication_keeps {α : Type} {m : QueueM PublishError α}
    {k : Except PublishError α → QueueM Empty EnqueueOutcome}
    (hm : m.Keeps (law f) h g (Stays f g) fun _ _ _ => True)
    (hk : ∀ r h' g', Quiet f h' g' → (k r).Keeps (law f) h' g' (Quiet f) fun _ _ _ => True) :
    (Task.attempt m >>= k).Keeps (law f) h g (Quiet f) fun _ _ _ => True :=
  .attempt (hm.mono (fun _ _ hs => hs.toQuiet) fun _ _ _ _ h => h)
    fun r h' g' hq _ => hk r h' g' hq

theorem enqueueWithDirty_keeps {job : EnqueueInput} (hq : Quiet f h g) :
    (enqueueWithDirty deferred job).Keeps (law f) h g (Quiet f) fun _ _ _ => True := by
  refine .attempt (prepareEnqueue_keeps hq) fun r h₁ g₁ hq₁ hr => ?_
  rcases r with ⟨ticket, e⟩ | prepared
  · exact keeps_pure hq₁ trivial
  · have hp := hr prepared rfl
    refine publication_keeps (writeAndPublish_keeps _ _ _ hq₁ hp) ?_
    intro r h₂ g₂ hq₂
    split
    · exact keeps_remember (keeps_pure (hq₂.memory rfl) trivial)
    · exact keeps_pure hq₂ trivial
    · exact keeps_remember (keeps_pure (hq₂.poison _) trivial)
    · exact keeps_remember (keeps_pure (hq₂.poison _) trivial)

theorem enqueue_keeps {job : EnqueueInput} (hq : Quiet f h g) :
    (enqueue job).Keeps (law f) h g (Quiet f) fun _ _ _ => True := by
  refine keeps_memory (.bind (enqueueWithDirty_keeps hq) fun outcome h₁ g₁ hq₁ _ => ?_)
  split <;> exact keeps_pure hq₁ trivial

theorem enqueueStreaming_keeps {job : EnqueueInput} {reader : PayloadReader} (hq : Quiet f h g) :
    (enqueueStreaming job reader).Keeps (law f) h g (Quiet f) fun _ _ _ => True := by
  refine .attempt (prepareStreaming_keeps hq) fun r h₁ g₁ hq₁ hr => ?_
  rcases r with ⟨ticket, e⟩ | ⟨streamed, state, target⟩
  · exact keeps_pure hq₁ trivial
  · have hp := hr _ rfl
    refine keeps_memory ?_
    refine publication_keeps (streamAndPublish_keeps _ _ hq₁ hp) ?_
    intro r h₂ g₂ hq₂
    split
    · exact keeps_ite (fun _ => keeps_pure hq₂ trivial)
        fun _ => keeps_pure hq₂ trivial
    · exact keeps_pure hq₂ trivial
    · exact keeps_remember (keeps_pure (hq₂.poison _) trivial)
    · exact keeps_remember (keeps_pure (hq₂.poison _) trivial)

end SteadQ
